import Montage.Canvas.Reposition
import Montage.Shape.Box
import Montage.Shape.Ngon
import Montage.Shape.Projection
/-!
# Straightening — a flat object seen from the front

A flat object photographed at an angle shows as a quadrilateral. The photo is
warped so that this quadrilateral becomes the upright box around the object.
-/

namespace Montage

/-- The value `weight` of the way from one channel to another, truncated. -/
def blendChannel (first second : UInt8) (weight : Float32) : UInt8 :=
  ((1.0 - weight) * first.toFloat32 + weight * second.toFloat32).toUInt8

/-- The sample at a place between pixels, from the four pixels around it. A
place that is not surrounded by pixels has none. -/
@[specialize] def Raster.between [Channels α] (r : Raster α) (p : Place) : α :=
  let left := p.x.floor
  let top := p.y.floor
  if 0.0 ≤ left && left + 1.0 < Float32.ofNat r.width && 0.0 ≤ top
      && top + 1.0 < Float32.ofNat r.height then
    let x := left.toUInt64.toNat
    let y := top.toUInt64.toNat
    let across := p.x - left
    let down := p.y - top
    Channels.gather fun channel =>
      let sample := fun x y => channel (r.getD x y default)
      blendChannel (blendChannel (sample x y) (sample (x + 1) y) across)
        (blendChannel (sample x (y + 1)) (sample (x + 1) (y + 1)) across) down
  else default

/-- The raster whose sample at each pixel is found where the projection takes
it from. -/
def Raster.warped [Channels α] (r : Raster α) (t : Projection) : Raster α :=
  Raster.ofFn r.width r.height fun x y =>
    r.between (t.applyBack ⟨Float32.ofNat x, Float32.ofNat y⟩)

/-- The projection that takes the quadrilateral around the object of a mask
to the upright box around it. -/
def Raster.straightening (m : Mask) : Except Fault Projection := do
  let quad ← (m.fitNgon 4 : Except Fault (Polygon Float))
  let box ← (m.fitBox : Except Fault (UprightBox Float))
  Projection.between quad ⟨box.corners⟩

/-- **A photo and its mask with the object straightened.** -/
def straighten (photo : Photo) (mask : Mask) : Except Fault Cut := do
  requireSameSize photo mask
  let projection ← mask.straightening
  return ⟨photo.warped projection, mask.warped projection⟩

/-! ## What straightening comes to -/

@[simp] theorem Raster.size_warped [Channels α] (r : Raster α) (t : Projection) :
    (r.warped t).size = r.size := rfl

/-- **The equation of straightening**, for a photo and a mask in step. -/
theorem straighten_of_size_eq {photo : Photo} {mask : Mask} (h : photo.size = mask.size) :
    straighten photo mask =
      mask.straightening.map fun t => ⟨photo.warped t, mask.warped t⟩ := by
  rw [straighten, requireSameSize_of_eq h]
  cases mask.straightening <;> rfl

/-- Straightening keeps the extents of a photo and a mask. -/
theorem size_of_straighten {photo : Photo} {mask : Mask} {c : Cut}
    (hs : photo.size = mask.size) (h : straighten photo mask = .ok c) :
    c.photo.size = photo.size ∧ c.mask.size = mask.size := by
  rw [straighten_of_size_eq hs] at h
  cases ht : mask.straightening with
  | error f =>
    rw [ht] at h
    cases h
  | ok t =>
    rw [ht] at h
    cases h
    exact ⟨Raster.size_warped .., Raster.size_warped ..⟩

end Montage
