import Mathlib.Algebra.BigOperators.Group.Finset.Sigma
import Montage.Proofs.Exact
import Montage.Proofs.Mask.Smoothing
/-!
# Cleaning is monotone, and does not tell left from right

A threshold keeps the order of masks and of thresholds, since all it looks at is
where a value lies beside the least one that is kept (`cutoff_mono`). Smoothing
keeps the order of masks as well (`Below.smooth`), because sums and their rounding do.

What shows past the border is the same seen from either end (`reflected_flip`), and
the window around a pixel is a square with the pixel in its middle. So cleaning a
mask that is flipped or transposed is flipping or transposing the cleaned one
(`cleaned_laws`).
-/

namespace Montage

namespace Raster

variable {m m' : Mask} {α : Type} [Scalar α]

/-- The mask that a segmentation yields: without faint values, and with soft edges. -/
def cleaned (t : α) (m : Mask) : Mask := (m.threshold t).smooth

/-- A mask is below another one when it is at every pixel. -/
def Below (m m' : Mask) : Prop :=
  ∀ x y u v, m.get? x y = some u → m'.get? x y = some v → u ≤ v

/-! ## Order -/

/-- A value, or none if it is less than the least that is kept. -/
def kept (least : ℕ) (v : UInt8) : UInt8 := if v.toNat < least then 0 else v

theorem get?_threshold (t : α) (m : Mask) (x y : ℕ) :
    (m.threshold t).get? x y = (m.get? x y).map (kept (cutoff t)) :=
  get?_map ..

theorem kept_zero (least : ℕ) : kept least 0 = 0 := ite_self 0

theorem kept_le_kept {least least' : ℕ} {u v : UInt8} (hleast : least' ≤ least) (huv : u ≤ v) :
    kept least u ≤ kept least' v := by
  rw [UInt8.le_iff_toNat_le] at huv ⊢
  rw [kept, kept]
  split
  · exact Nat.zero_le _
  · next hu =>
    rw [if_neg (by omega)]
    exact huv

theorem kept_kept (least least' : ℕ) (v : UInt8) :
    kept least' (kept least v) = kept (max least least') v := by
  by_cases h : v.toNat < least
  · rw [kept, kept, kept, if_pos h, ite_self, if_pos (lt_max_of_lt_left h)]
  · have hsame : kept least v = v := if_neg h
    rw [hsame, kept, kept]
    simp only [lt_max_iff, h, false_or]

theorem Below.threshold (h : m.Below m') {t t' : α} (hcutoff : cutoff t' ≤ cutoff t) :
    (m.threshold t).Below (m'.threshold t') := by
  intro x y u v hu hv
  rw [get?_threshold, Option.map_eq_some_iff] at hu hv
  obtain ⟨u, hu, rfl⟩ := hu
  obtain ⟨v, hv, rfl⟩ := hv
  exact kept_le_kept hcutoff (h x y u v hu hv)

theorem Below.refl (m : Mask) : m.Below m := by
  intro x y u v hu hv
  rw [hu] at hv
  cases hv
  exact UInt8.le_refl u

theorem Below.continued_le (h : m.Below m') (hsize : m.size = m'.size) (i j : ℤ) :
    m.continued i j ≤ m'.continued i j := by
  have hwidth : m.width = m'.width := congrArg Size.width hsize
  have hheight : m.height = m'.height := congrArg Size.height hsize
  have hsame := isSome_get?_congr hsize (reflected i m'.width) (reflected j m'.height)
  rw [continued, continued, hwidth, hheight, getD_eq, getD_eq]
  cases hu : m.get? (reflected i m'.width) (reflected j m'.height) with
  | none => exact Nat.zero_le _
  | some u =>
    rw [hu] at hsame
    obtain ⟨v, hv⟩ := Option.isSome_iff_exists.mp hsame.symm
    rw [hv]
    exact UInt8.le_iff_toNat_le.mp (h _ _ u v hu hv)

/-- **Smoothing keeps the order.** -/
theorem Below.smooth (h : m.Below m') (hsize : m.size = m'.size) : m.smooth.Below m'.smooth := by
  intro x y u v hu hv
  have hsum : m.windowSum x y ≤ m'.windowSum x y := by
    rw [windowSum_eq_sum, windowSum_eq_sum]
    exact Finset.sum_le_sum fun dy _ => Finset.sum_le_sum fun dx _ => h.continued_le hsize _ _
  rw [get?_smooth, Option.ite_none_right_eq_some, Option.some.injEq] at hu hv
  rw [← hu.2, ← hv.2, UInt8.le_iff_toNat_le, toNat_softened, toNat_softened]
  omega

theorem Below.cleaned (h : m.Below m') (hsize : m.size = m'.size) {t t' : α}
    (hcutoff : cutoff t' ≤ cutoff t) : (m.cleaned t).Below (m'.cleaned t') :=
  (h.threshold hcutoff).smooth hsize

/-! ## Flips -/

/-- The mask with its columns in opposite order. -/
def flipColumns (m : Mask) : Mask :=
  ofFn m.width m.height fun x y => m.getD (m.width - 1 - x) y 0

/-- The mask with its rows in opposite order. -/
def flipRows (m : Mask) : Mask :=
  ofFn m.width m.height fun x y => m.getD x (m.height - 1 - y) 0

/-- The mask with its columns for rows. -/
def transpose (m : Mask) : Mask := ofFn m.height m.width fun x y => m.getD y x 0

theorem getD_threshold (t : α) (m : Mask) (x y : ℕ) :
    (m.threshold t).getD x y 0 = kept (cutoff t) (m.getD x y 0) := by
  rw [getD_eq, getD_eq, get?_threshold]
  cases m.get? x y with
  | none => exact (kept_zero _).symm
  | some v => rfl

theorem getD_flipColumns {x y : ℕ} (hx : x < m.width) (hy : y < m.height) :
    m.flipColumns.getD x y 0 = m.getD (m.width - 1 - x) y 0 := getD_ofFn _ hx hy 0

theorem getD_transpose {x y : ℕ} (hx : x < m.width) (hy : y < m.height) :
    m.transpose.getD y x 0 = m.getD x y 0 := getD_ofFn _ hy hx 0

/-- Flipping the rows is flipping the columns of the transposed mask. -/
theorem flipRows_eq (m : Mask) : m.flipRows = m.transpose.flipColumns.transpose := by
  refine ofFn_congr fun x y hx hy => ?_
  have hy' : m.height - 1 - y < m.height := by omega
  rw [getD_flipColumns (m := m.transpose) hy hx]
  exact (getD_transpose hx hy').symm

theorem continued_flipColumns (hw : 0 < m.width) (hh : 0 < m.height) (i j : ℤ) :
    m.flipColumns.continued i j = m.continued (m.width - 1 - i) j := by
  rw [continued, continued, reflected_flip hw]
  exact congrArg UInt8.toNat (getD_flipColumns (reflected_lt hw i) (reflected_lt hh j))

theorem continued_transpose (hw : 0 < m.width) (hh : 0 < m.height) (i j : ℤ) :
    m.transpose.continued i j = m.continued j i :=
  congrArg UInt8.toNat (getD_transpose (reflected_lt hw j) (reflected_lt hh i))

/-- The window around a pixel, turned over, is the window around its mirror image. -/
theorem windowSum_flipColumns {x y : ℕ} (hx : x < m.width) (hy : y < m.height) :
    m.flipColumns.windowSum x y = m.windowSum (m.width - 1 - x) y := by
  have hcast : ((m.width - 1 - x : ℕ) : ℤ) = m.width - 1 - x := by omega
  rw [windowSum_eq_sum, windowSum_eq_sum]
  refine Finset.sum_congr rfl fun dy _ => ?_
  refine Finset.sum_nbij' (fun dx => -dx) (fun dx => -dx) ?_ ?_ ?_ ?_ ?_
  · intro dx hdx
    rw [Finset.mem_Icc] at hdx ⊢
    omega
  · intro dx hdx
    rw [Finset.mem_Icc] at hdx ⊢
    omega
  · exact fun dx _ => neg_neg dx
  · exact fun dx _ => neg_neg dx
  · intro dx _
    rw [continued_flipColumns (Nat.zero_lt_of_lt hx) (Nat.zero_lt_of_lt hy), hcast]
    congr 1
    ring

theorem windowSum_transpose {x y : ℕ} (hx : x < m.width) (hy : y < m.height) :
    m.transpose.windowSum y x = m.windowSum x y := by
  rw [windowSum_eq_sum, windowSum_eq_sum, Finset.sum_comm]
  simp only [continued_transpose (Nat.zero_lt_of_lt hx) (Nat.zero_lt_of_lt hy)]

theorem getD_smooth {x y : ℕ} (hx : x < m.width) (hy : y < m.height) :
    m.smooth.getD x y 0 = softened (m.windowSum x y) := getD_ofFn _ hx hy 0

/-- **Smoothing commutes with flips.** -/
theorem smooth_flipColumns (m : Mask) : m.flipColumns.smooth = m.smooth.flipColumns := by
  refine ofFn_congr fun x y (hx : x < m.width) (hy : y < m.height) => ?_
  show softened (m.flipColumns.windowSum x y) = m.smooth.getD (m.width - 1 - x) y 0
  rw [windowSum_flipColumns hx hy, getD_smooth (by omega) hy]

theorem smooth_transpose (m : Mask) : m.transpose.smooth = m.smooth.transpose := by
  refine ofFn_congr fun y x (hy : y < m.height) (hx : x < m.width) => ?_
  show softened (m.transpose.windowSum y x) = m.smooth.getD x y 0
  rw [windowSum_transpose hx hy, getD_smooth hx hy]

theorem threshold_flipColumns (t : α) (m : Mask) :
    m.flipColumns.threshold t = (m.threshold t).flipColumns := by
  rw [threshold, flipColumns, map_ofFn]
  refine ofFn_congr fun x y _ _ => ?_
  exact (getD_threshold t m _ y).symm

theorem threshold_transpose (t : α) (m : Mask) :
    m.transpose.threshold t = (m.threshold t).transpose := by
  rw [threshold, transpose, map_ofFn]
  refine ofFn_congr fun y x _ _ => ?_
  exact (getD_threshold t m x y).symm

theorem cleaned_flipColumns (t : α) (m : Mask) :
    m.flipColumns.cleaned t = (m.cleaned t).flipColumns := by
  rw [cleaned, threshold_flipColumns, smooth_flipColumns, cleaned]

theorem cleaned_transpose (t : α) (m : Mask) :
    m.transpose.cleaned t = (m.cleaned t).transpose := by
  rw [cleaned, threshold_transpose, smooth_transpose, cleaned]

theorem cleaned_flipRows (t : α) (m : Mask) : m.flipRows.cleaned t = (m.cleaned t).flipRows := by
  rw [flipRows_eq, flipRows_eq, cleaned_transpose, cleaned_flipColumns, cleaned_transpose]

end Raster

/-! ## Thresholds -/

section

variable {K : Type} [Field K] [LinearOrder K] [IsStrictOrderedRing K] [FloorRing K]

attribute [local instance] Scalar.exact

/-- **A higher threshold keeps no value that a lower one drops.** -/
theorem cutoff_mono : Monotone (cutoff : K → ℕ) := by
  intro t t' h
  rw [cutoff, cutoff, Scalar.toNat_truncate, Scalar.toNat_truncate]
  refine Nat.floor_mono (mul_le_mul_of_nonneg_left h ?_)
  rw [Scalar.ofNat_exact]
  exact Nat.cast_nonneg 255

namespace Raster

theorem threshold_threshold (t t' : K) (m : Mask) :
    (m.threshold t).threshold t' = m.threshold (max t t') := by
  refine ext_get? rfl fun x y => ?_
  rw [get?_threshold, get?_threshold, get?_threshold, Option.map_map, cutoff_mono.map_max]
  exact congrArg (fun f => (m.get? x y).map f) (funext (kept_kept _ _))

/-- **Cleaning is monotone and tells no side from another.** In any arithmetic, a mask
that is below another one is so when both are cleaned, and cleaning commutes with
flipping the columns, flipping the rows and transposing. In exact arithmetic a higher
threshold leaves less, and of two thresholds, one after the other in either order,
only the higher one counts. -/
theorem cleaned_laws (m : Mask) :
    (∀ (α : Type) [Scalar α] (t : α),
      (∀ m' : Mask, m.size = m'.size → m.Below m' → (m.cleaned t).Below (m'.cleaned t)) ∧
      m.flipColumns.cleaned t = (m.cleaned t).flipColumns ∧
      m.flipRows.cleaned t = (m.cleaned t).flipRows ∧
      m.transpose.cleaned t = (m.cleaned t).transpose) ∧
    ∀ t t' : K,
      (t ≤ t' → (m.cleaned t').Below (m.cleaned t)) ∧
      (m.threshold t).threshold t' = m.threshold (max t t') ∧
      (m.threshold t').threshold t = m.threshold (max t t') := by
  refine ⟨fun α _ t => ⟨fun m' hsize h => ?_, ?_, ?_, ?_⟩, fun t t' => ⟨fun h => ?_, ?_, ?_⟩⟩
  · exact h.cleaned hsize le_rfl
  · exact cleaned_flipColumns t m
  · exact cleaned_flipRows t m
  · exact cleaned_transpose t m
  · exact (Below.refl m).cleaned rfl (cutoff_mono h)
  · exact threshold_threshold t t' m
  · rw [threshold_threshold, max_comm]

/-- Two pixels, the brighter one on the left. -/
def pair : Mask := .ofFn 2 1 fun x _ => if x = 0 then 30 else 20

/-- The brighter pixel alone is kept, and shows on the other side of the flipped
mask. -/
theorem cleaned_laws_of_pair :
    (pair.cleaned (1 / 10 : ℚ)).get? 0 0 = some 45 ∧
      (pair.flipColumns.cleaned (1 / 10 : ℚ)).get? 1 0 = some 45 ∧
      (pair.threshold (1 / 10 : ℚ)).threshold (1 / 20 : ℚ) = pair.threshold (1 / 10 : ℚ) := by
  obtain ⟨hany, hexact⟩ := cleaned_laws (K := ℚ) pair
  obtain ⟨-, hcolumns, -, -⟩ := hany ℚ (1 / 10)
  obtain ⟨-, -, htwo⟩ := hexact (1 / 20) (1 / 10)
  have hmax : max (1 / 20 : ℚ) (1 / 10) = 1 / 10 := by norm_num
  rw [hmax] at htwo
  refine ⟨by decide +kernel, ?_, htwo⟩
  rw [hcolumns]
  decide +kernel

end Raster

end

end Montage
