import Mathlib.Algebra.Order.BigOperators.Group.Finset
import Mathlib.Data.Int.ConditionallyCompleteOrder
import Mathlib.Data.Int.Interval
import Montage.Proofs.Mask.Cleaning
import Montage.Proofs.Mask.Mirroring
/-!
# Smoothing — what shows at a pixel, and what becomes of the object

Smoothing looks past the border as into a mirror. What shows there is no farther
from a pixel of the mask than the place itself (`reflected_near`), however small the
mask is, and so the sum around a pixel is one of values that are near it
(`windowSum_eq_sum`).

A smoothed mask is therefore set only near pixels that are set, and where no
faint value is dropped in the rounding it is set wherever the mask is. Its bounds
are those of the mask with a margin (`smooth_keeps_object`).
-/

namespace Montage

/-! ## The sum around a pixel -/

/-- The reach of smoothing: at most two columns and two rows away. -/
def Near (x y x' y' : ℕ) : Prop := x ≤ x' + 2 ∧ x' ≤ x + 2 ∧ y ≤ y' + 2 ∧ y' ≤ y + 2

namespace Raster

variable {m m' : Mask} {x y : ℕ}

/-- A mask continued past its border by reflection. -/
def continued (m : Mask) (i j : ℤ) : ℕ :=
  (m.getD (reflected i m.width) (reflected j m.height) 0).toNat

theorem sum_window (f : ℤ → ℕ) :
    (window.map f).foldr (· + ·) 0 = ∑ d ∈ Finset.Icc (-2 : ℤ) 2, f d := by
  have hwindow : Finset.Icc (-2 : ℤ) 2 = window.toFinset := by decide
  rw [hwindow, List.sum_toFinset f (by decide)]
  rfl

/-- The sum around a pixel as one over a square of twenty-five offsets. -/
theorem windowSum_eq_sum (m : Mask) (x y : ℕ) :
    m.windowSum x y = ∑ dy ∈ Finset.Icc (-2 : ℤ) 2, ∑ dx ∈ Finset.Icc (-2 : ℤ) 2,
      m.continued (x + dx) (y + dy) := by
  simp only [windowSum, sum_window]
  rfl

/-- **All values of the sum are near the pixel.** -/
theorem near_reflected {w h : ℕ} (hx : x < w) (hy : y < h) {dx dy : ℤ}
    (hdx : dx ∈ Finset.Icc (-2 : ℤ) 2) (hdy : dy ∈ Finset.Icc (-2 : ℤ) 2) :
    Near x y (reflected (x + dx) w) (reflected (y + dy) h) := by
  obtain ⟨hleft, hright⟩ := Finset.mem_Icc.mp hdx
  obtain ⟨htop, hbottom⟩ := Finset.mem_Icc.mp hdy
  have hcolumn := reflected_near (e := 2) hx hleft hright
  have hrow := reflected_near (e := 2) hy htop hbottom
  exact ⟨hcolumn.1, hcolumn.2, hrow.1, hrow.2⟩

theorem windowSum_congr (hsize : m'.size = m.size) (hx : x < m.width) (hy : y < m.height)
    (h : ∀ x' y', Near x y x' y' → m'.get? x' y' = m.get? x' y') :
    m'.windowSum x y = m.windowSum x y := by
  have hwidth : m'.width = m.width := congrArg Size.width hsize
  have hheight : m'.height = m.height := congrArg Size.height hsize
  rw [windowSum_eq_sum, windowSum_eq_sum]
  refine Finset.sum_congr rfl fun dy hdy => Finset.sum_congr rfl fun dx hdx => ?_
  rw [continued, continued, getD_eq, getD_eq, hwidth, hheight, h _ _ (near_reflected hx hy hdx hdy)]

/-- What a value of the sum is, is a value near the pixel. -/
theorem exists_near_continued (hx : x < m.width) (hy : y < m.height) {dx dy : ℤ}
    (hdx : dx ∈ Finset.Icc (-2 : ℤ) 2) (hdy : dy ∈ Finset.Icc (-2 : ℤ) 2) :
    ∃ x' y' u, Near x y x' y' ∧ m.get? x' y' = some u ∧
      m.continued (x + dx) (y + dy) = u.toNat := by
  obtain ⟨u, hu⟩ : ∃ u, m.get? (reflected (x + dx) m.width) (reflected (y + dy) m.height) =
      some u := by
    rw [← Option.isSome_iff_exists, isSome_get?]
    exact ⟨reflected_lt (Nat.zero_lt_of_lt hx) _, reflected_lt (Nat.zero_lt_of_lt hy) _⟩
  refine ⟨_, _, u, near_reflected hx hy hdx hdy, hu, ?_⟩
  rw [continued, getD_eq, hu]
  rfl

theorem windowSum_eq_zero (hx : x < m.width) (hy : y < m.height)
    (h : ∀ x' y' u, Near x y x' y' → m.get? x' y' = some u → u = 0) : m.windowSum x y = 0 := by
  rw [windowSum_eq_sum]
  refine Finset.sum_eq_zero fun dy hdy => Finset.sum_eq_zero fun dx hdx => ?_
  obtain ⟨x', y', u, hnear, hu, hvalue⟩ := exists_near_continued hx hy hdx hdy
  rw [hvalue, h x' y' u hnear hu]
  rfl

/-- There are twenty-five values. -/
theorem mul_le_windowSum (hx : x < m.width) (hy : y < m.height) {least : UInt8}
    (h : ∀ x' y' u, Near x y x' y' → m.get? x' y' = some u → least ≤ u) :
    25 * least.toNat ≤ m.windowSum x y := by
  have hconstant : ∑ _dy ∈ Finset.Icc (-2 : ℤ) 2, ∑ _dx ∈ Finset.Icc (-2 : ℤ) 2, least.toNat =
      25 * least.toNat := by
    rw [Finset.sum_const, Finset.sum_const]
    show 5 * (5 * least.toNat) = 25 * least.toNat
    omega
  rw [windowSum_eq_sum, ← hconstant]
  refine Finset.sum_le_sum fun dy hdy => Finset.sum_le_sum fun dx hdx => ?_
  obtain ⟨x', y', u, hnear, hu, hvalue⟩ := exists_near_continued hx hy hdx hdy
  rw [hvalue]
  exact UInt8.le_iff_toNat_le.mp (h x' y' u hnear hu)

/-- The value of the pixel is one of them. -/
theorem le_windowSum {u : UInt8} (hu : m.get? x y = some u) : u.toNat ≤ m.windowSum x y := by
  obtain ⟨hx, hy⟩ := (isSome_get? m x y).mp (Option.isSome_of_eq_some hu)
  have hzero : (0 : ℤ) ∈ Finset.Icc (-2 : ℤ) 2 := by decide
  have hhere : m.continued (x + 0) (y + 0) = u.toNat := by
    rw [continued, add_zero, add_zero, reflected_natCast hx, reflected_natCast hy, getD_eq, hu]
    rfl
  rw [windowSum_eq_sum, ← hhere]
  refine le_trans ?_ (Finset.single_le_sum_of_canonicallyOrdered hzero)
  exact Finset.single_le_sum_of_canonicallyOrdered
    (f := fun dx : ℤ => m.continued (x + dx) (y + 0)) hzero

/-! ## What shows at a pixel -/

/-- A tenth of a sum, rounded and cut off. -/
def softened (sum : ℕ) : UInt8 := UInt8.ofNat (min 255 ((sum + 5) / 10))

theorem toNat_softened (sum : ℕ) : (softened sum).toNat = min 255 ((sum + 5) / 10) := by
  rw [softened, UInt8.toNat_ofNat']
  omega

theorem get?_smooth (m : Mask) (x y : ℕ) :
    m.smooth.get? x y =
      if x < m.width ∧ y < m.height then some (softened (m.windowSum x y)) else none :=
  get?_ofFn ..

theorem get?_smooth_of_lt (hx : x < m.width) (hy : y < m.height) :
    m.smooth.get? x y = some (softened (m.windowSum x y)) := by
  rw [get?_smooth, if_pos ⟨hx, hy⟩]

/-- **Smoothing is local.** -/
theorem get?_smooth_congr (hsize : m'.size = m.size)
    (h : ∀ x' y', Near x y x' y' → m'.get? x' y' = m.get? x' y') :
    m'.smooth.get? x y = m.smooth.get? x y := by
  have hwidth : m'.width = m.width := congrArg Size.width hsize
  have hheight : m'.height = m.height := congrArg Size.height hsize
  rw [get?_smooth, get?_smooth, hwidth, hheight]
  split
  · next hin => rw [windowSum_congr hsize hin.1 hin.2 h]
  · rfl

theorem softened_eq_zero (hx : x < m.width) (hy : y < m.height)
    (h : ∀ x' y' u, Near x y x' y' → m.get? x' y' = some u → u = 0) :
    softened (m.windowSum x y) = 0 := by
  rw [windowSum_eq_zero hx hy h]
  rfl

theorem softened_eq_full (hx : x < m.width) (hy : y < m.height)
    (h : ∀ x' y' u, Near x y x' y' → m.get? x' y' = some u → 102 ≤ u) :
    softened (m.windowSum x y) = 255 := by
  have hsum : 25 * 102 ≤ m.windowSum x y := mul_le_windowSum hx hy h
  rw [← UInt8.toNat_inj, toNat_softened]
  show min 255 ((m.windowSum x y + 5) / 10) = 255
  omega

theorem one_le_softened {u : UInt8} (hu : m.get? x y = some u) (h : 5 ≤ u) :
    1 ≤ softened (m.windowSum x y) := by
  have hsum := le_windowSum hu
  have hfive : 5 ≤ u.toNat := UInt8.le_iff_toNat_le.mp h
  rw [UInt8.le_iff_toNat_le, toNat_softened]
  show 1 ≤ min 255 ((m.windowSum x y + 5) / 10)
  omega

/-! ## The object -/

/-- A pixel of a smoothed mask is only set near one that is. -/
theorem exists_near_of_get?_smooth {v : UInt8} (hv : m.smooth.get? x y = some v) (hne : v ≠ 0) :
    ∃ x' y' u, Near x y x' y' ∧ m.get? x' y' = some u ∧ u ≠ 0 := by
  have hin : x < m.width ∧ y < m.height :=
    (isSome_get? m.smooth x y).mp (Option.isSome_of_eq_some hv)
  by_contra hnone
  refine hne ?_
  rw [get?_smooth_of_lt hin.1 hin.2] at hv
  cases hv
  refine softened_eq_zero hin.1 hin.2 fun x' y' u hnear hu => ?_
  by_contra hu'
  exact hnone ⟨x', y', u, hnear, hu, hu'⟩

/-- A mask without faint values: all that is set is set clearly enough to be left in
the rounding. -/
def Clear (m : Mask) : Prop := ∀ x y u, m.get? x y = some u → u ≠ 0 → 5 ≤ u

/-- What is set clearly stays set. -/
theorem Clear.get?_smooth (hclear : m.Clear) {u : UInt8} (hu : m.get? x y = some u)
    (hne : u ≠ 0) : ∃ v, m.smooth.get? x y = some v ∧ v ≠ 0 := by
  obtain ⟨hx, hy⟩ := (isSome_get? m x y).mp (Option.isSome_of_eq_some hu)
  refine ⟨_, get?_smooth_of_lt hx hy, fun hzero => ?_⟩
  have hone := one_le_softened hu (hclear x y u hu hne)
  rw [hzero] at hone
  exact absurd hone (by decide)

theorem Clear.blank_smooth_iff (hclear : m.Clear) : m.smooth.Blank ↔ m.Blank := by
  refine ⟨fun h x y u hu => ?_, Blank.smooth⟩
  by_contra hne
  obtain ⟨v, hv, hv'⟩ := hclear.get?_smooth hu hne
  exact hv' (h x y v hv)

end Raster

/-- A rectangle around another one, each of its sides at most a margin away. -/
def Bounds.Frames (outer inner : Bounds) (margin : ℕ) : Prop :=
  (outer.xmin ≤ inner.xmin ∧ inner.xmin ≤ outer.xmin + margin) ∧
    (inner.xmax ≤ outer.xmax ∧ outer.xmax ≤ inner.xmax + margin) ∧
    (outer.ymin ≤ inner.ymin ∧ inner.ymin ≤ outer.ymin + margin) ∧
    (inner.ymax ≤ outer.ymax ∧ outer.ymax ≤ inner.ymax + margin)

/-- The least rectangle around more pixels has a margin if the others are near. -/
theorem Bounds.Least.frames {inner outer : Bounds} {ps qs : List (ℕ × ℕ)} (h : inner.Least ps)
    (h' : outer.Least qs) (hsub : ps ⊆ qs)
    (hnear : ∀ q ∈ qs, ∃ p ∈ ps, Near q.1 q.2 p.1 p.2) : outer.Frames inner 2 := by
  -- each side of one touches a pixel that tells where that side of the other is
  have hheld : ∀ p ∈ ps, outer.xmin ≤ p.1 ∧ p.1 ≤ outer.xmax ∧ outer.ymin ≤ p.2 ∧
      p.2 ≤ outer.ymax := fun p hp => h'.holds p (hsub hp)
  have hmargin : ∀ q ∈ qs, inner.xmin ≤ q.1 + 2 ∧ q.1 ≤ inner.xmax + 2 ∧
      inner.ymin ≤ q.2 + 2 ∧ q.2 ≤ inner.ymax + 2 := by
    intro q hq
    obtain ⟨p, hp, hpq⟩ := hnear q hq
    have := h.holds p hp
    rw [Near] at hpq
    omega
  obtain ⟨p₁, hp₁, hleft⟩ := h.left
  obtain ⟨p₂, hp₂, hright⟩ := h.right
  obtain ⟨p₃, hp₃, htop⟩ := h.top
  obtain ⟨p₄, hp₄, hbottom⟩ := h.bottom
  obtain ⟨q₁, hq₁, hleft'⟩ := h'.left
  obtain ⟨q₂, hq₂, hright'⟩ := h'.right
  obtain ⟨q₃, hq₃, htop'⟩ := h'.top
  obtain ⟨q₄, hq₄, hbottom'⟩ := h'.bottom
  have h₁ := (hheld p₁ hp₁).1
  have h₂ := (hheld p₂ hp₂).2.1
  have h₃ := (hheld p₃ hp₃).2.2.1
  have h₄ := (hheld p₄ hp₄).2.2.2
  have h₁' := (hmargin q₁ hq₁).1
  have h₂' := (hmargin q₂ hq₂).2.1
  have h₃' := (hmargin q₃ hq₃).2.2.1
  have h₄' := (hmargin q₄ hq₄).2.2.2
  rw [Bounds.Frames]
  omega

namespace Raster

variable {m : Mask}

/-- The bounds of a mask without faint values grow by a margin of two. -/
theorem Clear.frames_bounds (hclear : m.Clear) {b : Bounds} (hb : m.bounds? = some b) :
    ∃ b', m.smooth.bounds? = some b' ∧ b'.Frames b 2 := by
  have hset : ¬m.smooth.Blank := by
    rw [hclear.blank_smooth_iff, ← bounds?_eq_none_iff, hb]
    exact Option.some_ne_none b
  obtain ⟨b', hb'⟩ := exists_bounds hset
  refine ⟨b', hb', (least_bounds hb).frames (least_bounds hb') ?_ ?_⟩
  · rintro ⟨x, y⟩ hp
    obtain ⟨u, hu, hne⟩ := mem_setPixels.mp hp
    exact mem_setPixels.mpr (hclear.get?_smooth hu hne)
  · rintro ⟨x, y⟩ hq
    obtain ⟨v, hv, hne⟩ := mem_setPixels.mp hq
    obtain ⟨x', y', u, hnear, hu⟩ := exists_near_of_get?_smooth hv hne
    exact ⟨(x', y'), mem_setPixels.mpr ⟨u, hu⟩, hnear⟩

/-- **Smoothing is local and keeps the object.** What a smoothed mask has at a pixel
depends on the mask near the pixel only. It is nothing where the mask has nothing
near the pixel, and full where all of that is at least two fifths; and it is not
nothing where the pixel itself is set clearly enough. So if a mask has no faint
values, the smoothed one is blank exactly when the mask is, all that is set stays
set, and the bounds become larger by two pixels at most on each side. -/
theorem smooth_keeps_object (m : Mask) :
    m.smooth.size = m.size ∧
    (∀ m' : Mask, m'.size = m.size → ∀ x y,
      (∀ x' y', Near x y x' y' → m'.get? x' y' = m.get? x' y') →
        m'.smooth.get? x y = m.smooth.get? x y) ∧
    (∀ x y, x < m.width → y < m.height → ∃ v, m.smooth.get? x y = some v ∧
      ((∀ x' y' u, Near x y x' y' → m.get? x' y' = some u → u = 0) → v = 0) ∧
      ((∀ x' y' u, Near x y x' y' → m.get? x' y' = some u → 102 ≤ u) → v = 255) ∧
      (∀ u, m.get? x y = some u → 5 ≤ u → 1 ≤ v)) ∧
    (m.Clear →
      (m.smooth.Blank ↔ m.Blank) ∧
      (∀ x y u, m.get? x y = some u → u ≠ 0 → ∃ v, m.smooth.get? x y = some v ∧ v ≠ 0) ∧
      ∀ b, m.bounds = .ok b → ∃ b', m.smooth.bounds = .ok b' ∧ b'.Frames b 2) := by
  refine ⟨rfl, fun m' hsize x y h => get?_smooth_congr hsize h, ?_, fun hclear => ?_⟩
  · intro x y hx hy
    exact ⟨_, get?_smooth_of_lt hx hy, softened_eq_zero hx hy, softened_eq_full hx hy,
      fun u hu => one_le_softened hu⟩
  · refine ⟨hclear.blank_smooth_iff, fun x y u hu => hclear.get?_smooth hu, fun b hb => ?_⟩
    obtain ⟨b', hb', hframes⟩ := hclear.frames_bounds (bounds_eq_ok_iff.mp hb)
    exact ⟨b', bounds_eq_ok_iff.mpr hb', hframes⟩

end Raster

end Montage
