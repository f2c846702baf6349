import Montage.Canvas.Placement
import Montage.Canvas.Resample
import Montage.Settings
/-!
# Repositioning — an object on a new canvas

The photo and its mask are resized by the same factor and pasted into new
canvases through the same windows, so that they stay in step. Where nothing
is pasted the photo's canvas has the fill colour and the mask's is empty.
-/

namespace Montage

/-- A canvas with one row of a resized raster copied into one of its rows, at
the columns that are joined. -/
@[specialize] def pasteRow [Channels α] (r : Resampling α) (columns : List (Nat × Nat))
    (canvas : Raster α) (row : Nat × Nat) : Raster α :=
  columns.foldl (fun c column => c.set column.2 row.2 (r.sample column.1 row.1)) canvas

/-- A canvas into which a resized raster is pasted, row by row, through a
window on each axis. -/
@[specialize] def paste [Channels α] (r : Resampling α) (x y : Window) (canvas : Raster α) :
    Raster α :=
  let columns := x.pairs r.size.width canvas.width
  (y.pairs r.size.height canvas.height).foldl (pasteRow r columns) canvas

/-- A photo and its mask. -/
structure Cut where
  photo : Photo
  mask : Mask

namespace Cut

/-- A photo and a mask are in step when they have the same extent. -/
def InStep (c : Cut) : Prop := c.photo.size = c.mask.size

end Cut

/-- Accepts a photo and a mask of the same extent. -/
def requireSameSize (photo : Photo) (mask : Mask) : Except Fault Unit :=
  if photo.size = mask.size then .ok () else .error (.sizeMismatch photo.size mask.size)

/-- The extent to which a photo is resized. -/
def resizedSize [Scalar α] (s : Size) (ratio : α) : Size :=
  ⟨resizedLength s.width ratio, resizedLength s.height ratio⟩

/-- Where a photo goes on a canvas: the extent to which it is resized, and
the window of each axis. -/
structure Layout where
  resized : Size
  x : Window
  y : Window

/-- The layout of a photo whose object lies within the given bounds. -/
def Layout.ofBounds (b : Bounds) (photo : Size) (spec : PlacementSpec) : Layout :=
  let ratio := resizeRatio b spec.canvas spec.scale
  let resized := resizedSize photo ratio
  { resized := resized
    x := placeAxis (resizedCoordinate b.center.1 ratio) spec.canvas.width spec.posX resized.width
    y := placeAxis (resizedCoordinate b.center.2 ratio) spec.canvas.height spec.posY
      resized.height }

/-- A raster on a canvas that is filled with `fill` where nothing is pasted. -/
def Layout.compose [Channels α] (l : Layout) (r : Raster α) (canvas : Size) (fill : α) :
    Raster α :=
  paste (.ofRaster r l.resized) l.x l.y (.filled canvas fill)

/-- **The object of a photo on a new canvas**, as a photo and a mask. -/
def reposition (photo : Photo) (mask : Mask) (spec : PlacementSpec) : Except Fault Cut := do
  spec.validate
  requireSameSize photo mask
  let layout := Layout.ofBounds (← mask.bounds) photo.size spec
  return ⟨layout.compose photo spec.canvas spec.fill, layout.compose mask spec.canvas 0⟩

/-! ## What repositioning comes to

Three things can stand against it, and they are looked at in this order:
the settings, the extents, and the bounds of the mask. Where none does, the
extent of both results is that of the canvas. -/

theorem size_pasteRow [Channels α] (r : Resampling α) (columns : List (Nat × Nat))
    (canvas : Raster α) (row : Nat × Nat) : (pasteRow r columns canvas row).size = canvas.size := by
  unfold pasteRow
  induction columns generalizing canvas with
  | nil => rfl
  | cons column rest ih => rw [List.foldl_cons, ih]; rfl

/-- Pasting keeps the extent of the canvas. -/
@[simp] theorem size_paste [Channels α] (r : Resampling α) (x y : Window) (canvas : Raster α) :
    (paste r x y canvas).size = canvas.size := by
  unfold paste
  generalize y.pairs r.size.height canvas.height = rows
  generalize x.pairs r.size.width canvas.width = columns
  induction rows generalizing canvas with
  | nil => rfl
  | cons row rest ih => rw [List.foldl_cons, ih, size_pasteRow]

@[simp] theorem Layout.size_compose [Channels α] (l : Layout) (r : Raster α) (canvas : Size)
    (fill : α) : (l.compose r canvas fill).size = canvas := by
  rw [compose, size_paste, Raster.size_filled]

theorem requireSameSize_of_eq {photo : Photo} {mask : Mask} (h : photo.size = mask.size) :
    requireSameSize photo mask = .ok () := if_pos h

theorem requireSameSize_of_ne {photo : Photo} {mask : Mask} (h : photo.size ≠ mask.size) :
    requireSameSize photo mask = .error (.sizeMismatch photo.size mask.size) := if_neg h

/-- **The equation of repositioning**: a fault for each of the three things,
in their order, or the two rasters on their canvas. -/
theorem reposition_eq (photo : Photo) (mask : Mask) (spec : PlacementSpec) :
    reposition photo mask spec =
      match spec.flaw? with
      | some flaw => .error (.invalidSetting flaw)
      | none =>
        if photo.size = mask.size then
          match mask.bounds? with
          | some b =>
            let layout := Layout.ofBounds b photo.size spec
            .ok ⟨layout.compose photo spec.canvas spec.fill, layout.compose mask spec.canvas 0⟩
          | none => .error .emptyMask
        else .error (.sizeMismatch photo.size mask.size) := by
  unfold reposition PlacementSpec.validate
  cases spec.flaw? with
  | some flaw => rfl
  | none =>
    by_cases hs : photo.size = mask.size
    · rw [requireSameSize_of_eq hs, if_pos hs]
      unfold Raster.bounds
      cases mask.bounds? <;> rfl
    · rw [requireSameSize_of_ne hs, if_neg hs]
      rfl

/-- A photo and a mask that have been placed have the extent of the canvas. -/
theorem size_of_reposition {photo : Photo} {mask : Mask} {spec : PlacementSpec} {c : Cut}
    (h : reposition photo mask spec = .ok c) :
    c.photo.size = spec.canvas ∧ c.mask.size = spec.canvas := by
  rw [reposition_eq] at h
  split at h
  · cases h
  · split at h
    · split at h
      · cases h
        exact ⟨Layout.size_compose .., Layout.size_compose ..⟩
      · cases h
    · cases h

end Montage
