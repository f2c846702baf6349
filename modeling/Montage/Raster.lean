/-!
# Rasters — rectangular grids of samples

A raster has a size and one sample for each of its pixels, row by row. The
view of a raster is `Raster.get?`: the sample at a pixel, or nothing outside.
Rasters are built from their view by `ofFn` and `mapPixels`, whose laws
`get?_ofFn` and `get?_mapPixels` say what is read back, and `Raster.ext_get?`
says that size and view determine a raster.
-/

namespace Montage

/-- The extent of a canvas in pixels. -/
structure Size where
  width : Nat
  height : Nat
deriving DecidableEq, Inhabited

/-- A grid of samples, stored row by row. -/
structure Raster (α : Type) where
  width : Nat
  height : Nat
  samples : Array α
  samples_size : samples.size = width * height

namespace Raster

variable {α β : Type}

/-- The extent of a raster. -/
def size (r : Raster α) : Size := ⟨r.width, r.height⟩

/-- The raster of the given extent whose sample at `(x, y)` is `f x y`. -/
@[inline] def ofFn (width height : Nat) (f : Nat → Nat → α) : Raster α where
  width := width
  height := height
  samples := Array.ofFn fun i : Fin (width * height) => f (i % width) (i / width)
  samples_size := Array.size_ofFn

/-- A raster with the same sample everywhere. -/
def filled (s : Size) (a : α) : Raster α := ofFn s.width s.height fun _ _ => a

/-- The raster whose samples are computed from each pixel and what the given
raster holds there. -/
@[inline] def mapPixels (f : Nat → Nat → α → β) (r : Raster α) : Raster β where
  width := r.width
  height := r.height
  samples := Array.ofFn fun i : Fin r.samples.size =>
    f (i % r.width) (i / r.width) r.samples[i]
  samples_size := by rw [Array.size_ofFn, r.samples_size]

/-- The raster of the images of all samples. -/
@[inline] def map (f : α → β) (r : Raster α) : Raster β where
  width := r.width
  height := r.height
  samples := r.samples.map f
  samples_size := by rw [Array.size_map, r.samples_size]

/-- The sample at a pixel, or nothing outside the raster. -/
@[inline] def get? (r : Raster α) (x y : Nat) : Option α :=
  if x < r.width then r.samples[y * r.width + x]? else none

/-- The sample at a pixel, or the given one outside the raster. -/
@[inline] def getD (r : Raster α) (x y : Nat) (outside : α) : α :=
  if x < r.width then r.samples.getD (y * r.width + x) outside else outside

/-- The raster with another sample at one of its pixels. -/
def set (r : Raster α) (x y : Nat) (a : α) : Raster α where
  width := r.width
  height := r.height
  samples := if x < r.width then r.samples.setIfInBounds (y * r.width + x) a else r.samples
  samples_size := by split <;> simp [r.samples_size]

/-! ## What is read back -/

theorem getD_eq (r : Raster α) (x y : Nat) (a : α) : r.getD x y a = (r.get? x y).getD a := by
  unfold getD get?
  split
  · simp
  · rfl

/-- The pixel `(x, y)` lies in a grid exactly when its row-by-row index does. -/
theorem index_lt_iff {w h x y : Nat} (hx : x < w) : y * w + x < w * h ↔ y < h := by
  constructor
  · intro hi
    rcases Nat.lt_or_ge y h with hy | hy
    · exact hy
    · have := Nat.mul_le_mul_left w hy
      rw [Nat.mul_comm y w] at hi
      omega
  · intro hy
    have := Nat.mul_le_mul_left w (Nat.succ_le_of_lt hy)
    rw [Nat.mul_succ, Nat.mul_comm w y] at this
    omega

theorem index_mod {w x y : Nat} (hx : x < w) : (y * w + x) % w = x := by
  rw [Nat.add_comm, Nat.add_mul_mod_self_right, Nat.mod_eq_of_lt hx]

theorem index_div {w x y : Nat} (hx : x < w) : (y * w + x) / w = y := by
  rw [Nat.add_comm, Nat.add_mul_div_right _ _ (by omega), Nat.div_eq_of_lt hx, Nat.zero_add]

@[simp] theorem width_ofFn (w h : Nat) (f : Nat → Nat → α) : (ofFn w h f).width = w := rfl

@[simp] theorem height_ofFn (w h : Nat) (f : Nat → Nat → α) : (ofFn w h f).height = h := rfl

@[simp] theorem size_ofFn (w h : Nat) (f : Nat → Nat → α) : (ofFn w h f).size = ⟨w, h⟩ := rfl

@[simp] theorem size_mapPixels (f : Nat → Nat → α → β) (r : Raster α) :
    (r.mapPixels f).size = r.size := rfl

@[simp] theorem size_map (f : α → β) (r : Raster α) : (r.map f).size = r.size := rfl

@[simp] theorem size_filled (s : Size) (a : α) : (filled s a).size = s := rfl

/-- **A raster built from a view has that view.** -/
theorem get?_ofFn (w h : Nat) (f : Nat → Nat → α) (x y : Nat) :
    (ofFn w h f).get? x y = if x < w ∧ y < h then some (f x y) else none := by
  unfold get?
  by_cases hx : x < w
  · simp only [ofFn, hx, if_true, true_and, Array.getElem?_ofFn, index_lt_iff hx, index_mod hx,
      index_div hx]
    split <;> rfl
  · simp [ofFn, hx]

/-- A pixel that holds a sample lies in the raster, and the other way round. -/
theorem isSome_get? (r : Raster α) (x y : Nat) :
    (r.get? x y).isSome = true ↔ x < r.width ∧ y < r.height := by
  unfold get?
  by_cases hx : x < r.width
  · simp [hx, r.samples_size, index_lt_iff hx]
  · simp [hx]

/-- The view of a raster computed pixel by pixel. -/
theorem get?_mapPixels (f : Nat → Nat → α → β) (r : Raster α) (x y : Nat) :
    (r.mapPixels f).get? x y = (r.get? x y).map (f x y) := by
  unfold get?
  by_cases hx : x < r.width
  · by_cases hi : y * r.width + x < r.samples.size
    · simp [mapPixels, hx, hi, index_mod hx, index_div hx]
    · simp [mapPixels, hx, hi]
  · simp [mapPixels, hx]

theorem get?_map (f : α → β) (r : Raster α) (x y : Nat) :
    (r.map f).get? x y = (r.get? x y).map f := by
  unfold get?
  by_cases hx : x < r.width <;> simp [map, hx]

/-- Two pixels of a grid have the same row-by-row index only if they are the
same. -/
theorem index_inj {w x y x' y' : Nat} (hx : x < w) (hx' : x' < w)
    (h : y * w + x = y' * w + x') : x = x' ∧ y = y' := by
  have hmod := congrArg (· % w) h
  have hdiv := congrArg (· / w) h
  simp only [index_mod hx, index_mod hx', index_div hx, index_div hx'] at hmod hdiv
  exact ⟨hmod, hdiv⟩

/-- A changed raster holds the new sample at the one pixel and the old ones
elsewhere. -/
theorem get?_set (r : Raster α) (x y : Nat) (a : α) (x' y' : Nat) :
    (r.set x y a).get? x' y' =
      if x' = x ∧ y' = y then (r.get? x y).map (fun _ => a) else r.get? x' y' := by
  unfold get?
  by_cases hx' : x' < r.width
  · by_cases hx : x < r.width
    · by_cases h : x' = x ∧ y' = y
      · obtain ⟨rfl, rfl⟩ := h
        by_cases hi : y' * r.width + x' < r.samples.size <;>
          simp [set, hx, hi]
      · have hne : y * r.width + x ≠ y' * r.width + x' := fun he =>
          h (by have := index_inj hx hx' he; omega)
        simp [set, hx, hx', h, Array.getElem?_setIfInBounds_ne hne]
    · have h : ¬(x' = x ∧ y' = y) := fun h => hx (h.1 ▸ hx')
      simp [set, hx, hx', h]
  · by_cases h : x' = x ∧ y' = y
    · obtain ⟨rfl, rfl⟩ := h
      simp [set, hx']
    · simp [set, hx', h]

/-- **Size and view determine a raster.** -/
theorem ext_get? {r s : Raster α} (hsize : r.size = s.size)
    (h : ∀ x y, r.get? x y = s.get? x y) : r = s := by
  obtain ⟨w, ht, a, ha⟩ := r
  obtain ⟨w', ht', b, hb⟩ := s
  simp only [size, Size.mk.injEq] at hsize
  obtain ⟨rfl, rfl⟩ := hsize
  have hab : a = b := by
    apply Array.ext (by rw [ha, hb])
    intro i hi hi'
    have hw : 0 < w := Nat.pos_of_ne_zero (by rintro rfl; simp [ha] at hi)
    have hmod : i % w < w := Nat.mod_lt _ hw
    have := h (i % w) (i / w)
    have hidx : i / w * w + i % w = i := Nat.div_add_mod' i w
    simp only [get?, hmod, if_true, hidx] at this
    simpa [hi, hi'] using this
  subst hab
  rfl

end Raster

end Montage
