import Mathlib.Tactic.ByContra
import Montage.Mask.Bounds
import Montage.Proofs.Raster
/-!
# Bounds of a mask — when there are none, and what they are

A mask has bounds exactly when one of its pixels is set. `mem_setPixels` reads
the list that bounds are taken of at the view of the mask. `Bounds.Least` says
that a rectangle holds all of these pixels and that each of its sides touches
one, and `least_bounds` that bounds are such a rectangle: it is so of the first
set pixel, and stays so with each that is added (`Least.extend`). `bounds_tight`
says what follows for the place of the bounds on the canvas.

The centre is taken of sums that are kept in thirty-two bits. It lies inside the
bounds as far as these fit (`center_inside`), and before the first column or row
where they do not (`center_lt_of_overflow`), as on a very wide mask
(`center_outside_of_far_pixel`).
-/

namespace Montage

namespace Raster

/-- A mask is blank when every pixel of it is zero. -/
def Blank (m : Mask) : Prop := ∀ x y v, m.get? x y = some v → v = 0

theorem blank_filled (s : Size) : (filled s 0 : Mask).Blank := by
  intro x y v hv
  rw [filled, get?_ofFn] at hv
  split at hv <;> cases hv
  rfl

theorem lt_of_getD_ne_zero {m : Mask} {x y : Nat} (h : m.getD x y 0 ≠ 0) :
    x < m.width ∧ y < m.height := by
  obtain ⟨v, hv, -⟩ := getD_ne_iff.mp h
  exact (isSome_get? m x y).mp (Option.isSome_of_eq_some hv)

/-- **The list holds the pixels that are set.** -/
theorem mem_setPixels {m : Mask} {x y : Nat} :
    (x, y) ∈ m.setPixels ↔ ∃ v, m.get? x y = some v ∧ v ≠ 0 := by
  rw [← getD_ne_iff]
  simp only [setPixels, List.mem_filterMap, List.mem_range]
  constructor
  · rintro ⟨i, -, hi⟩
    split at hi
    · cases hi
    · next hv =>
      cases hi
      exact hv
  · intro hv
    obtain ⟨hx, hy⟩ := lt_of_getD_ne_zero hv
    refine ⟨y * m.width + x, (index_lt_iff hx).mpr hy, ?_⟩
    rw [index_mod hx, index_div hx, if_neg hv]

theorem setPixels_eq_nil_iff {m : Mask} : m.setPixels = [] ↔ m.Blank := by
  rw [List.eq_nil_iff_forall_not_mem]
  constructor
  · intro h x y v hv
    by_contra hne
    exact h (x, y) (mem_setPixels.mpr ⟨v, hv, hne⟩)
  · rintro h ⟨x, y⟩ hp
    obtain ⟨v, hv, hne⟩ := mem_setPixels.mp hp
    exact hne (h x y v hv)

/-- **A mask has no bounds exactly when it is blank.** -/
theorem bounds?_eq_none_iff {m : Mask} : m.bounds? = none ↔ m.Blank := by
  rw [← setPixels_eq_nil_iff, bounds?]
  cases m.setPixels <;> simp

theorem bounds_eq_ok_iff {m : Mask} {b : Bounds} : m.bounds = .ok b ↔ m.bounds? = some b := by
  rw [bounds]
  cases m.bounds? <;> simp

theorem bounds_eq_error_iff {m : Mask} : m.bounds = .error .emptyMask ↔ m.Blank := by
  rw [← bounds?_eq_none_iff, bounds]
  cases m.bounds? <;> simp

theorem exists_bounds {m : Mask} (h : ¬m.Blank) : ∃ b, m.bounds? = some b := by
  rw [← bounds?_eq_none_iff] at h
  exact Option.ne_none_iff_exists'.mp h

end Raster

/-! ## The least rectangle -/

/-- A rectangle that holds some pixels, each of its sides touching one. -/
structure Bounds.Least (b : Bounds) (ps : List (Nat × Nat)) : Prop where
  holds : ∀ p ∈ ps, b.xmin ≤ p.1 ∧ p.1 ≤ b.xmax ∧ b.ymin ≤ p.2 ∧ p.2 ≤ b.ymax
  left : ∃ p ∈ ps, p.1 = b.xmin
  right : ∃ p ∈ ps, p.1 = b.xmax
  top : ∃ p ∈ ps, p.2 = b.ymin
  bottom : ∃ p ∈ ps, p.2 = b.ymax

namespace Bounds

variable {b : Bounds} {ps : List (Nat × Nat)}

theorem least_around (p : Nat × Nat) : (around p).Least [p] where
  holds := by
    intro q hq
    rw [List.mem_singleton.mp hq]
    exact ⟨Nat.le_refl _, Nat.le_refl _, Nat.le_refl _, Nat.le_refl _⟩
  left := ⟨p, List.mem_singleton_self p, rfl⟩
  right := ⟨p, List.mem_singleton_self p, rfl⟩
  top := ⟨p, List.mem_singleton_self p, rfl⟩
  bottom := ⟨p, List.mem_singleton_self p, rfl⟩

/-- A side that stays touches what it touched, and one that moves touches the
new pixel. -/
theorem exists_touching {f : Nat × Nat → Nat} {m m' : Nat} {p : Nat × Nat}
    (h : ∃ q ∈ ps, f q = m) (hm : m' = m ∨ m' = f p) : ∃ q ∈ p :: ps, f q = m' := by
  rcases hm with rfl | rfl
  · obtain ⟨q, hq, hfq⟩ := h
    exact ⟨q, List.mem_cons_of_mem p hq, hfq⟩
  · exact ⟨p, List.mem_cons_self, rfl⟩

theorem Least.extend (h : b.Least ps) (p : Nat × Nat) : (b.extend p).Least (p :: ps) where
  holds := by
    intro q hq
    simp only [Bounds.extend]
    rcases List.mem_cons.mp hq with rfl | hq
    · omega
    · have := h.holds q hq
      omega
  left := exists_touching h.left (by simp only [Bounds.extend]; omega)
  right := exists_touching h.right (by simp only [Bounds.extend]; omega)
  top := exists_touching h.top (by simp only [Bounds.extend]; omega)
  bottom := exists_touching h.bottom (by simp only [Bounds.extend]; omega)

/-- A side of one such rectangle touches a pixel that any other one holds. -/
theorem Least.sides_le {b' : Bounds} (h : b.Least ps) (h' : b'.Least ps) :
    b'.xmin ≤ b.xmin ∧ b.xmax ≤ b'.xmax ∧ b'.ymin ≤ b.ymin ∧ b.ymax ≤ b'.ymax := by
  obtain ⟨l, hl, hleft⟩ := h.left
  obtain ⟨r, hr, hright⟩ := h.right
  obtain ⟨t, ht, htop⟩ := h.top
  obtain ⟨d, hd, hbottom⟩ := h.bottom
  have := h'.holds l hl
  have := h'.holds r hr
  have := h'.holds t ht
  have := h'.holds d hd
  omega

/-- So there is one at most. -/
theorem Least.unique {b' : Bounds} (h : b.Least ps) (h' : b'.Least ps) : b = b' := by
  have hle := h.sides_le h'
  have hge := h'.sides_le h
  obtain ⟨xmin, xmax, ymin, ymax⟩ := b
  simp only at hle hge
  rw [Bounds.mk.injEq]
  omega

theorem Least.of_mem_iff {qs : List (Nat × Nat)} (h : b.Least ps) (hmem : ∀ p, p ∈ ps ↔ p ∈ qs) :
    b.Least qs where
  holds p hp := h.holds p ((hmem p).mpr hp)
  left := by simpa only [hmem] using h.left
  right := by simpa only [hmem] using h.right
  top := by simpa only [hmem] using h.top
  bottom := by simpa only [hmem] using h.bottom

theorem Least.foldl (h : b.Least ps) (rest : List (Nat × Nat)) :
    (rest.foldl Bounds.extend b).Least (rest.reverse ++ ps) := by
  induction rest generalizing b ps with
  | nil => exact h
  | cons p rest ih =>
    rw [List.foldl_cons, List.reverse_cons, List.append_assoc]
    exact ih (h.extend p)

end Bounds

/-- **The bounds of a mask are the least rectangle that holds its set
pixels.** -/
theorem Raster.least_bounds {m : Mask} {b : Bounds} (h : m.bounds? = some b) :
    b.Least m.setPixels := by
  rw [bounds?] at h
  cases hset : m.setPixels with
  | nil =>
    rw [hset] at h
    cases h
  | cons p rest =>
    rw [hset] at h
    cases h
    refine ((Bounds.least_around p).foldl rest).of_mem_iff fun q => ?_
    rw [List.mem_append, List.mem_reverse, List.mem_singleton, List.mem_cons, or_comm]

/-! ## Bounds on the canvas -/

/-- The sides of a rectangle that touches pixels are in order. -/
theorem Bounds.Least.ordered {b : Bounds} {ps : List (Nat × Nat)} (h : b.Least ps) :
    b.xmin ≤ b.xmax ∧ b.ymin ≤ b.ymax := by
  obtain ⟨p, hp, -⟩ := h.left
  have := h.holds p hp
  omega

/-- So the differences of its sides are not cut off at zero. -/
theorem Bounds.extents_of_ordered {b : Bounds} (h : b.xmin ≤ b.xmax ∧ b.ymin ≤ b.ymax) :
    (b.width : Int) = b.xmax - b.xmin ∧ (b.height : Int) = b.ymax - b.ymin :=
  ⟨Int.ofNat_sub h.1, Int.ofNat_sub h.2⟩

/-- Half of a sum that fits in thirty-two bits lies between its terms. -/
theorem half_sum_between {low high : Nat} (h : low ≤ high) (hfits : high + low < UInt32.size) :
    low ≤ (high + low) % UInt32.size / 2 ∧ (high + low) % UInt32.size / 2 ≤ high := by
  rw [Nat.mod_eq_of_lt hfits]
  omega

/-- Half of one that does not lies below both. -/
theorem half_sum_lt {low high : Nat} (hhigh : high < UInt32.size)
    (hover : UInt32.size ≤ high + low) : (high + low) % UInt32.size / 2 < low := by
  have hbelow : high + low - UInt32.size < low := by omega
  rcases Nat.lt_or_ge (high + low - UInt32.size) UInt32.size with hlt | hge
  · rw [Nat.mod_eq_sub_mod hover, Nat.mod_eq_of_lt hlt]
    omega
  · have := Nat.mod_lt (high + low) (show 0 < UInt32.size by decide)
    omega

/-- **The centre lies inside**, in each direction in which the sum of the sides fits
in thirty-two bits. -/
theorem Bounds.center_inside {b : Bounds} (h : b.xmin ≤ b.xmax ∧ b.ymin ≤ b.ymax) :
    (b.xmax + b.xmin < UInt32.size → b.xmin ≤ b.center.1 ∧ b.center.1 ≤ b.xmax) ∧
      (b.ymax + b.ymin < UInt32.size → b.ymin ≤ b.center.2 ∧ b.center.2 ≤ b.ymax) :=
  ⟨half_sum_between h.1, half_sum_between h.2⟩

/-- **The centre lies outside** where the sum does not fit. -/
theorem Bounds.center_lt_of_overflow (b : Bounds) :
    (b.xmax < UInt32.size → UInt32.size ≤ b.xmax + b.xmin → b.center.1 < b.xmin) ∧
      (b.ymax < UInt32.size → UInt32.size ≤ b.ymax + b.ymin → b.center.2 < b.ymin) :=
  ⟨half_sum_lt, half_sum_lt⟩

namespace Raster

variable {m : Mask} {b : Bounds} {p : Nat × Nat}

theorem lt_of_mem_setPixels (h : p ∈ m.setPixels) : p.1 < m.width ∧ p.2 < m.height :=
  lt_of_getD_ne_zero (getD_ne_iff.mpr (mem_setPixels.mp h))

/-- The pixels that the right and the bottom side touch lie on the canvas. -/
theorem bounds_lt (h : m.bounds? = some b) : b.xmax < m.width ∧ b.ymax < m.height := by
  obtain ⟨p, hp, hright⟩ := (least_bounds h).right
  obtain ⟨q, hq, hbottom⟩ := (least_bounds h).bottom
  exact ⟨hright ▸ (lt_of_mem_setPixels hp).1, hbottom ▸ (lt_of_mem_setPixels hq).2⟩

/-- **How tight the bounds of a mask are.** Either no pixel of the mask is set and
it has no bounds, or some pixel is set and it has. Then the bounds lie on the
canvas, all set pixels lie within them, and each of their four sides touches a set
pixel. Their extents are true differences. Their centre lies inside in each direction
in which the sum of the first and the last place fits in thirty-two bits; where it
does not, on a canvas that is no longer than these can count, the centre comes before
the first place. -/
theorem bounds_tight (m : Mask) :
    m.bounds = .error .emptyMask ∧ (∀ x y v, m.get? x y = some v → v = 0) ∨
    ∃ b, m.bounds = .ok b ∧
      (b.xmin ≤ b.xmax ∧ b.xmax < m.width) ∧ (b.ymin ≤ b.ymax ∧ b.ymax < m.height) ∧
      (∀ x y v, m.get? x y = some v → v ≠ 0 →
        (b.xmin ≤ x ∧ x ≤ b.xmax) ∧ b.ymin ≤ y ∧ y ≤ b.ymax) ∧
      (∃ y v, m.get? b.xmin y = some v ∧ v ≠ 0) ∧
      (∃ y v, m.get? b.xmax y = some v ∧ v ≠ 0) ∧
      (∃ x v, m.get? x b.ymin = some v ∧ v ≠ 0) ∧
      (∃ x v, m.get? x b.ymax = some v ∧ v ≠ 0) ∧
      ((b.width : Int) = b.xmax - b.xmin ∧ (b.height : Int) = b.ymax - b.ymin) ∧
      ((b.xmax + b.xmin < UInt32.size → b.xmin ≤ b.center.1 ∧ b.center.1 ≤ b.xmax) ∧
        (b.ymax + b.ymin < UInt32.size → b.ymin ≤ b.center.2 ∧ b.center.2 ≤ b.ymax)) ∧
      (m.width ≤ UInt32.size → UInt32.size ≤ b.xmax + b.xmin → b.center.1 < b.xmin) ∧
      (m.height ≤ UInt32.size → UInt32.size ≤ b.ymax + b.ymin → b.center.2 < b.ymin) := by
  cases hm : m.bounds? with
  | none =>
    have hblank := bounds?_eq_none_iff.mp hm
    exact .inl ⟨bounds_eq_error_iff.mpr hblank, hblank⟩
  | some b =>
    have hleast := least_bounds hm
    have hordered := hleast.ordered
    obtain ⟨hwidth, hheight⟩ := bounds_lt hm
    obtain ⟨hleft, habove⟩ := b.center_lt_of_overflow
    refine .inr ⟨b, bounds_eq_ok_iff.mpr hm, ⟨hordered.1, hwidth⟩, ⟨hordered.2, hheight⟩, ?_, ?_, ?_,
      ?_, ?_, Bounds.extents_of_ordered hordered, Bounds.center_inside hordered,
      fun hlimit => hleft (Nat.lt_of_lt_of_le hwidth hlimit),
      fun hlimit => habove (Nat.lt_of_lt_of_le hheight hlimit)⟩
    · intro x y v hv hset
      have hin := hleast.holds (x, y) (mem_setPixels.mpr ⟨v, hv, hset⟩)
      exact ⟨⟨hin.1, hin.2.1⟩, hin.2.2⟩
    · obtain ⟨⟨x, y⟩, hp, rfl⟩ := hleast.left
      exact ⟨y, mem_setPixels.mp hp⟩
    · obtain ⟨⟨x, y⟩, hp, hx⟩ := hleast.right
      exact ⟨y, hx ▸ mem_setPixels.mp hp⟩
    · obtain ⟨⟨x, y⟩, hp, hy⟩ := hleast.top
      exact ⟨x, hy ▸ mem_setPixels.mp hp⟩
    · obtain ⟨⟨x, y⟩, hp, hy⟩ := hleast.bottom
      exact ⟨x, hy ▸ mem_setPixels.mp hp⟩

/-- A mask of one row in which only the last pixel is set. -/
def farPixel (last : Nat) : Mask := .ofFn (last + 1) 1 fun x _ => if x = last then 255 else 0

theorem mem_setPixels_farPixel {last : Nat} : p ∈ (farPixel last).setPixels ↔ p = (last, 0) := by
  obtain ⟨x, y⟩ := p
  rw [mem_setPixels, farPixel, Prod.mk.injEq]
  simp only [get?_ofFn]
  constructor
  · rintro ⟨v, hv, hset⟩
    split at hv
    · next hin =>
      cases hv
      split at hset
      · next hlast => exact ⟨hlast, by omega⟩
      · exact absurd rfl hset
    · cases hv
  · rintro ⟨rfl, rfl⟩
    exact ⟨255, by simp, by decide⟩

/-- **The centre can lie outside the bounds.** From the place 2³¹ on, twice the place
of a single set pixel does not fit in thirty-two bits. -/
theorem center_outside_of_far_pixel :
    (farPixel 2147483648).bounds = .ok ⟨2147483648, 2147483648, 0, 0⟩ ∧
      (⟨2147483648, 2147483648, 0, 0⟩ : Bounds).center = (0, 0) ∧
      ¬2147483648 ≤ (⟨2147483648, 2147483648, 0, 0⟩ : Bounds).center.1 := by
  have hblank : ¬(farPixel 2147483648).Blank := by
    rw [← setPixels_eq_nil_iff]
    exact List.ne_nil_of_mem (mem_setPixels_farPixel.mpr rfl)
  obtain ⟨b, hb⟩ := exists_bounds hblank
  have hpixel : (⟨2147483648, 2147483648, 0, 0⟩ : Bounds).Least [(2147483648, 0)] :=
    Bounds.least_around (2147483648, 0)
  have hleast := hpixel.of_mem_iff fun p => List.mem_singleton.trans mem_setPixels_farPixel.symm
  obtain rfl := (least_bounds hb).unique hleast
  exact ⟨bounds_eq_ok_iff.mpr hb, by decide, by decide⟩

end Raster

end Montage
