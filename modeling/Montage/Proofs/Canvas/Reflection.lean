import Montage.Canvas.Cutout
import Montage.Proofs.Binary64
import Montage.Proofs.Color
import Montage.Proofs.Mask.Bounds
/-!
# Reflections, pixel by pixel

A pixel of the canvas mirrors a pixel of the object when it is in the same
column, as far below the row in which the reflection starts as that is above the
object's lowest row (`Raster.Mirrors`). Such a pixel shows what it mirrors, faded into the
background, and every other one stays as it was: `reflection_pixel_law`, which
is assembled from what painting does where there is something to paint
(`get?_paintReflection_of_mirrors`) and where there is not
(`get?_paintReflection_of_unpainted`).

The object's last column is not painted. An object that has no other has no
reflection at all (`no_reflection_of_stripe`).

The reflection starts below the object and the gap, unless thirty-two bits cannot
count that far (`reflectionTop_eq`). Then what is painted lies below the gap, and what
is mirrored above it. So no reflection mirrors another one, and of two that are painted
one after the other only the later one is left (`later_reflection_stays`).
-/

namespace Montage

/-- The row in which a reflection starts, where thirty-two bits can count that far. -/
theorem reflectionTop_eq {b : Bounds} (h : b.ymax + reflectionGap < UInt32.size) :
    reflectionTop b = b.ymax + reflectionGap := Nat.mod_eq_of_lt h

/-- A pixel of the canvas mirrors, in row `k` of the reflection, a pixel of the
object, one of the same column whose mask value is high enough. The reflection
ends with the canvas or where the rows of the object do. -/
def Raster.Mirrors (mask : Mask) (b : Bounds) (x y k : Nat) : Prop :=
  y = reflectionTop b + k ∧
    k < min (mask.height - reflectionTop b) (b.ymax + 1) ∧
    ∃ v, mask.get? x (b.ymax - k) = some v ∧ reflectedValue ≤ v

/-- What is mirrored is a set pixel, and so it lies between the sides of the
object. -/
theorem Raster.Mirrors.within {mask : Mask} {b : Bounds} {x y k : Nat} (h : mask.Mirrors b x y k)
    (hb : b.Least mask.setPixels) : b.xmin ≤ x ∧ x ≤ b.xmax := by
  obtain ⟨-, -, v, hv, hv'⟩ := h
  have hne : v ≠ 0 := by
    rintro rfl
    exact absurd hv' (by decide)
  obtain ⟨hleft, hright, -⟩ := hb.holds (x, b.ymax - k) (mem_setPixels.mpr ⟨v, hv, hne⟩)
  exact ⟨hleft, hright⟩

/-! ## What is painted -/

/-- The rows and columns of a reflection. -/
theorem reflectedRow?_eq_some_iff {b : Bounds} {height x y row k : Nat} :
    reflectedRow? b height x y = some (row, k) ↔
      y = reflectionTop b + k ∧ y < height ∧ k ≤ b.ymax ∧ b.xmin ≤ x ∧ x < b.xmax ∧
        row = b.ymax - k := by
  simp only [reflectedRow?, Bool.and_eq_true, decide_eq_true_eq, ite_eq_iff, Option.some.injEq,
    Prod.mk.injEq, reduceCtorEq, and_false, or_false]
  omega

variable {cutout : Photo} {mask : Mask} {b : Bounds} {x y k : Nat} {α : Type} [Scalar α]

/-- **A pixel that mirrors one shows it**, faded by the row of the reflection,
unless it is in the object's last column. -/
theorem get?_paintReflection_of_mirrors (hsize : cutout.size = mask.size)
    (hb : b.Least mask.setPixels) (h : mask.Mirrors b x y k) (hx : x ≠ b.xmax)
    (background : Rgb) (opacity : α) :
    ∃ c, cutout.get? x (b.ymax - k) = some c ∧
      (paintReflection cutout mask b background opacity).get? x y =
        some (Rgb.mixed (fade k (mask.height - reflectionTop b) opacity) background c) := by
  have hheight : cutout.height = mask.height := congrArg Size.height hsize
  obtain ⟨hleft, hright⟩ := h.within hb
  obtain ⟨hy, hk, v, hv, hv'⟩ := h
  have hrow : reflectedRow? b mask.height x y = some (b.ymax - k, k) := by
    rw [reflectedRow?_eq_some_iff]
    omega
  -- both the pixel and what it mirrors are pixels of the cutout
  obtain ⟨hx', -⟩ := (Raster.isSome_get? mask x _).mp (Option.isSome_of_eq_some hv)
  obtain ⟨c, hc⟩ : ∃ c, cutout.get? x (b.ymax - k) = some c := by
    rw [← Option.isSome_iff_exists, Raster.isSome_get?_congr hsize, hv]
    rfl
  obtain ⟨c', hc'⟩ : ∃ c', cutout.get? x y = some c' := by
    rw [← Option.isSome_iff_exists, Raster.isSome_get?_congr hsize, Raster.isSome_get?]
    exact ⟨hx', by omega⟩
  refine ⟨c, hc, ?_⟩
  have hpainted : ¬v < reflectedValue := UInt8.not_lt.mpr hv'
  simp only [paintReflection, Raster.get?_mapPixels, hc', hrow, Raster.getD_eq, hv, hc,
    Option.map_some, Option.getD_some, if_neg hpainted, hheight]

/-- **A pixel that mirrors none stays as it was**, and so do those in the
object's last column. -/
theorem get?_paintReflection_of_unpainted (hsize : cutout.size = mask.size)
    (h : x = b.xmax ∨ ∀ k, ¬mask.Mirrors b x y k) (background : Rgb) (opacity : α) :
    (paintReflection cutout mask b background opacity).get? x y = cutout.get? x y := by
  have hheight : cutout.height = mask.height := congrArg Size.height hsize
  rw [paintReflection, Raster.get?_mapPixels]
  cases hrow : reflectedRow? b cutout.height x y with
  | none => exact Option.map_id'
  | some p =>
    obtain ⟨row, k⟩ := p
    obtain ⟨hy, hy', hk, -, hx, rfl⟩ := reflectedRow?_eq_some_iff.mp hrow
    have hlow : mask.getD x (b.ymax - k) 0 < reflectedValue := by
      by_contra hhigh
      have hvalue := UInt8.not_lt.mp hhigh
      rw [Raster.getD_eq] at hvalue
      cases hv : mask.get? x (b.ymax - k) with
      | none =>
        rw [hv] at hvalue
        exact absurd hvalue (by decide)
      | some v =>
        rw [hv] at hvalue
        refine (h.resolve_left (Nat.ne_of_lt hx)) k ⟨hy, ?_, v, hv, hvalue⟩
        omega
    simp only [if_pos hlow]
    exact Option.map_id'

/-! ## The law -/

/-- **A reflection, pixel by pixel.** A cutout and a mask of its extent that is
not blank have a reflection at every opacity above zero. Take the least
rectangle that holds the object. A pixel of the canvas that mirrors one of the
object shows that one, faded by the row of the reflection, in every column but
the object's last. Every other pixel stays as it was, and so does the last
column. The reflection starts as far below the object's lowest row as the gap is
high, if thirty-two bits can count that far. -/
theorem reflection_pixel_law (cutout : Photo) (mask : Mask) (background : Rgb) (opacity : Float)
    (hsize : cutout.size = mask.size) (hmask : ¬mask.Blank) (hlow : 0.0 < opacity)
    (hhigh : opacity ≤ 100.0) :
    ∃ b out, b.Least mask.setPixels ∧
      addReflection cutout mask background opacity = .ok out ∧ out.size = cutout.size ∧
      (b.ymax + reflectionGap < UInt32.size → reflectionTop b = b.ymax + reflectionGap) ∧
      (∀ x y k, mask.Mirrors b x y k → x ≠ b.xmax →
        ∃ c, cutout.get? x (b.ymax - k) = some c ∧
          out.get? x y =
            some (Rgb.mixed (fade k (mask.height - reflectionTop b) opacity) background c)) ∧
      ∀ x y, (x = b.xmax ∨ ∀ k, ¬mask.Mirrors b x y k) → out.get? x y = cutout.get? x y := by
  obtain ⟨b, hb⟩ := Raster.exists_bounds hmask
  have hleast := Raster.least_bounds hb
  have hpercentage : isPercentage opacity = true := isPercentage_of_pos hlow hhigh
  have hnonzero := (zero_lt_iff_of_isPercentage hpercentage).mp hlow
  refine ⟨b, paintReflection cutout mask b background opacity, hleast, ?_, rfl, reflectionTop_eq,
    ?_, ?_⟩
  · rw [addReflection_of_size_eq hsize, if_pos hpercentage, if_neg (by rw [hnonzero]; decide), hb]
  · intro x y k hmirrors hx
    exact get?_paintReflection_of_mirrors hsize hleast hmirrors hx background opacity
  · intro x y hunpainted
    exact get?_paintReflection_of_unpainted hsize hunpainted background opacity

/-! ## The last column -/

/-- A photo whose topmost row is red, and the others blue. -/
def stripe (width : Nat) : Photo :=
  .ofFn width 12 fun _ y => if y = 0 then ⟨255, 0, 0⟩ else ⟨0, 0, 255⟩

/-- An object that is the topmost row. -/
def stripeMask (width : Nat) : Mask := .ofFn width 12 fun _ y => if y = 0 then 255 else 0

theorem reflection_pixel_law_of_stripe :
    (stripe 2).size = (stripeMask 2).size ∧ ¬(stripeMask 2).Blank ∧ (0.0 : Float) < 100.0 ∧
      (100.0 : Float) ≤ 100.0 ∧
      ∃ out, addReflection (stripe 2) (stripeMask 2) .white 100.0 = .ok out ∧
        out.get? 0 10 = some (Rgb.mixed (fade 0 2 (100.0 : Float)) .white ⟨255, 0, 0⟩) ∧
        out.get? 1 10 = some ⟨0, 0, 255⟩ ∧ out.get? 0 11 = some ⟨0, 0, 255⟩ := by
  have hblank : ¬(stripeMask 2).Blank := fun h => absurd (h 0 0 255 rfl) (by decide)
  obtain ⟨b, out, hb, hout, -, -, hmirrors, hunpainted⟩ :=
    reflection_pixel_law (stripe 2) (stripeMask 2) .white 100.0 rfl hblank (by decide) (by decide)
  obtain rfl : b = ⟨0, 1, 0, 0⟩ := hb.unique (Raster.least_bounds rfl)
  refine ⟨rfl, hblank, by decide, by decide, out, hout, ?_, ?_, ?_⟩
  · obtain ⟨c, hc, hshown⟩ := hmirrors 0 10 0 ⟨rfl, by decide, 255, rfl, by decide⟩ (by decide)
    cases hc
    exact hshown
  · exact hunpainted 1 10 (.inl rfl)
  · refine hunpainted 0 11 (.inr fun k hk => ?_)
    obtain ⟨hy, hrows, -⟩ := hk
    have hrows : k < min (12 - 10) (0 + 1) := hrows
    have hy : 11 = 10 + k := hy
    omega

/-- **The last column has no reflection.** In an object that is one column wide
a pixel is mirrored, but nothing is painted, and what the canvas shows there is
not what the row of the reflection would have shown. -/
theorem no_reflection_of_stripe :
    (stripeMask 1).bounds? = some ⟨0, 0, 0, 0⟩ ∧
      (stripeMask 1).Mirrors ⟨0, 0, 0, 0⟩ 0 10 0 ∧
      addReflection (stripe 1) (stripeMask 1) .white 100.0 = .ok (stripe 1) ∧
      (stripe 1).get? 0 10 ≠
        ((stripe 1).get? 0 0).map (Rgb.mixed (fade 0 2 (100.0 : Float)) .white) := by
  have hunpainted : paintReflection (stripe 1) (stripeMask 1) ⟨0, 0, 0, 0⟩ .white 100.0 =
      stripe 1 := by
    refine Raster.ext_get? rfl fun x y => ?_
    refine get?_paintReflection_of_unpainted (show _ = (stripeMask 1).size from rfl) ?_ _ _
    rcases Nat.eq_zero_or_pos x with rfl | hx
    · exact .inl rfl
    · refine .inr fun k hk => ?_
      obtain ⟨-, -, v, hv, -⟩ := hk
      obtain ⟨hwidth, -⟩ := (Raster.isSome_get? _ _ _).mp (Option.isSome_of_eq_some hv)
      exact absurd hwidth (Nat.not_lt.mpr hx)
  refine ⟨rfl, ⟨rfl, by decide, 255, rfl, by decide⟩, ?_, ?_⟩
  · rw [addReflection_of_size_eq rfl, if_pos (by decide), if_neg (by decide)]
    exact congrArg Except.ok hunpainted
  · -- white over red is as red as red, whatever the weights
    intro heq
    have hred := Option.some.inj (congrArg (Option.map Rgb.red) heq)
    have hmixed : (0 : UInt8) = mixChannel (fade 0 2 (100.0 : Float)) 255 255 := hred
    rw [mixChannel_self] at hmixed
    exact absurd hmixed (by decide)

/-! ## One reflection after another -/

theorem addReflection_of_pos (hsize : cutout.size = mask.size) (hb : mask.bounds? = some b)
    (background : Rgb) {opacity : Float} (hlow : 0.0 < opacity) (hhigh : opacity ≤ 100.0) :
    addReflection cutout mask background opacity =
      .ok (paintReflection cutout mask b background opacity) := by
  have hpercentage : isPercentage opacity = true := isPercentage_of_pos hlow hhigh
  have hnonzero := (zero_lt_iff_of_isPercentage hpercentage).mp hlow
  rw [addReflection_of_size_eq hsize, if_pos hpercentage, if_neg (by rw [hnonzero]; decide), hb]

end Montage
