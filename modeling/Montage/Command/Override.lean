import Montage.Settings
/-!
# Overrides — placement given on the command line

An override replaces one field of a placement. For a segmented object, whose
canvas may follow the photo, a width or a height fixes the canvas, and the
side that is not given keeps the length it would have had.
-/

namespace Montage

/-- The fields of a placement that are given on the command line. -/
structure Overrides where
  width : Option Nat := none
  height : Option Nat := none
  scale : Option Float := none
  posX : Option Float := none
  posY : Option Float := none

namespace Overrides

/-- The placement with the given fields replaced. -/
def apply (o : Overrides) (p : PlacementSpec) : PlacementSpec where
  canvas := ⟨o.width.getD p.canvas.width, o.height.getD p.canvas.height⟩
  scale := o.scale.getD p.scale
  posX := o.posX.getD p.posX
  posY := o.posY.getD p.posY
  fill := p.fill

/-- Whether the canvas is overridden. -/
def fixesCanvas (o : Overrides) : Bool := o.width.isSome || o.height.isSome

/-- The treatment of an object from a photo of the given extent, with the
given fields replaced. -/
def applyToSegmentation (o : Overrides) (s : SegmentationSpec) (photo : Size) :
    SegmentationSpec :=
  let base := s.canvas.getD photo
  { s with
    canvas :=
      if o.fixesCanvas then some ⟨o.width.getD base.width, o.height.getD base.height⟩
      else s.canvas
    scale := o.scale.getD s.scale
    posX := o.posX.getD s.posX
    posY := o.posY.getD s.posY }

end Overrides

end Montage
