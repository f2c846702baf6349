import Montage.Color
import Montage.Fault
import Montage.Scalar
/-!
# Settings — what an operation is asked to do

`PlacementSpec` says where and how large an object is to appear,
`SegmentationSpec` how a segmented object is cleaned, placed and cut out, and
`FaceSpec` which faces count. Each has defaults, and the first two say which
of their values no operation can work with.

Range checks are written so that what is no number fails them.
-/

namespace Montage

/-- Where and how large an object is to appear on a canvas. -/
structure PlacementSpec where
  /-- The extent of the canvas. -/
  canvas : Size := ⟨512, 512⟩
  /-- The fraction of the canvas that the object's limiting side takes up. -/
  scale : Float := 0.2
  /-- The object's centre, as a fraction of the canvas width. -/
  posX : Float := 4.0 / 9.0
  /-- The object's centre, as a fraction of the canvas height. -/
  posY : Float := 3.0 / 9.0
  /-- The colour of the canvas where nothing is pasted. -/
  fill : Rgb := .black

namespace PlacementSpec

/-- The first flaw of a placement, if it has one. -/
def flaw? (p : PlacementSpec) : Option SettingFlaw :=
  if p.canvas.width = 0 || p.canvas.height = 0 then some (.emptyCanvas p.canvas)
  else if !(p.scale.isFinite && decide (0.0 < p.scale)) then some (.scale p.scale)
  else if !Scalar.within 0.0 1.0 p.posX then some (.position .horizontal p.posX)
  else if !Scalar.within 0.0 1.0 p.posY then some (.position .vertical p.posY)
  else none

/-- Accepts a placement without flaws. -/
def validate (p : PlacementSpec) : Except Fault Unit :=
  match p.flaw? with
  | some flaw => .error (.invalidSetting flaw)
  | none => .ok ()

theorem validate_eq_ok_iff {p : PlacementSpec} : p.validate = .ok () ↔ p.flaw? = none := by
  unfold validate
  cases p.flaw? <;> simp

theorem validate_eq_error_iff {p : PlacementSpec} {f : Fault} :
    p.validate = .error f ↔ ∃ flaw, p.flaw? = some flaw ∧ f = .invalidSetting flaw := by
  unfold validate
  cases p.flaw? <;> simp [eq_comm]

end PlacementSpec

/-- Whether a number is a percentage. -/
def isPercentage (opacity : Float) : Bool := Scalar.within 0.0 100.0 opacity

/-- How a segmented object is cleaned, placed and cut out. -/
structure SegmentationSpec where
  /-- Mask values below this fraction of the greatest are dropped. -/
  threshold : Float := 0.5
  /-- Whether the object is straightened before it is placed. -/
  straighten : Bool := false
  /-- The strength of the reflection, in percent. -/
  reflection : Float := 0.0
  /-- The background of the cutout. -/
  background : Rgb := .white
  /-- The extent of the canvas, or nothing to keep that of the photo. -/
  canvas : Option Size := none
  scale : Float := 0.8
  posX : Float := 0.5
  posY : Float := 0.5

namespace SegmentationSpec

/-- The placement of an object from a photo of the given extent. -/
def placement (s : SegmentationSpec) (photo : Size) : PlacementSpec where
  canvas := s.canvas.getD photo
  scale := s.scale
  posX := s.posX
  posY := s.posY
  fill := .black

/-- Accepts settings without flaws. A canvas that follows the photo is tried
with a single pixel. -/
def validate (s : SegmentationSpec) : Except Fault Unit :=
  if !Scalar.within 0.0 1.0 s.threshold then .error (.invalidSetting (.threshold s.threshold))
  else if !isPercentage s.reflection then .error (.invalidSetting (.opacity s.reflection))
  else (s.placement ⟨1, 1⟩).validate

end SegmentationSpec

/-- Which faces count, and where the first of them is placed. -/
structure FaceSpec where
  /-- How many of the detected faces are looked at. -/
  maxFaces : Nat := 10
  /-- Landmarks less visible than this are passed over. -/
  visibility : Float := 0.5
  /-- Landmarks less surely present than this are passed over. -/
  presence : Float := 0.5
  placement : PlacementSpec := {}

/-- The settings of all operations. -/
structure Settings where
  placement : PlacementSpec := {}
  segmentation : SegmentationSpec := {}
  face : FaceSpec := {}

end Montage
