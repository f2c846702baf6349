import Montage.Mask.Bounds
import Montage.Scalar
/-!
# Placement — scale and position on a canvas

`resizeRatio` is the factor by which a photo is resized so that its object
takes up the wanted fraction of a canvas. `placeAxis` then says, for each
axis on its own, which stretch of the resized photo goes to which stretch of
the canvas so that the object's centre comes to lie where it should.
-/

namespace Montage

section

variable {α : Type} [Scalar α]

/-- The least factor by which a photo is resized. -/
def leastRatio : α := Scalar.ofDecimal 1 1

/-- The greatest factor by which a photo is resized. -/
def greatestRatio : α := Scalar.ofNat 10

/-- Whether the height of an object limits its size on a canvas: it is taller
than wide, or square while the canvas is taller than wide. -/
def limitedByHeight (b : Bounds) (canvas : Size) : Bool :=
  b.width < b.height || (b.height == b.width && canvas.width < canvas.height)

/-- The factor that makes the limiting side of an object take up the fraction
`scale` of the same side of the canvas, kept within the range of factors. An
object without extent asks for an infinite factor and gets the greatest. -/
def resizeRatio (b : Bounds) (canvas : Size) (scale : α) : α :=
  let ratio :=
    if limitedByHeight b canvas then Scalar.ofNat canvas.height / Scalar.ofNat b.height * scale
    else Scalar.ofNat canvas.width / Scalar.ofNat b.width * scale
  Scalar.clamp leastRatio greatestRatio ratio

/-- A length after resizing, at least one pixel. -/
def resizedLength (length : Nat) (ratio : α) : Nat :=
  max 1 (Scalar.truncateUInt32 (Scalar.ofNat length * ratio))

/-- A coordinate after resizing. -/
def resizedCoordinate (x : Nat) (ratio : α) : Int :=
  Scalar.truncate (Scalar.ofNat x * ratio)

end

/-- A stretch of the resized photo and the stretch of the canvas that it goes
to: `length` pixels from `source` on, put at `target`. -/
structure Window where
  source : Int
  target : Int
  length : Int
deriving DecidableEq

/-- The stretch that puts the coordinate `center` of a resized photo at the
fraction `pos` of the canvas. It is cut off at the ends of the photo, and
where it is cut off at the front its place on the canvas moves by as much.
All coordinates are truncated. -/
def placeAxis [Scalar α] (center : Int) (canvas : Nat) (pos : α) (resized : Nat) : Window :=
  let before := Scalar.ofNat canvas * pos
  let after := Scalar.ofNat canvas * (Scalar.one - pos)
  let source := Scalar.truncate (Scalar.greatest (Scalar.ofInt center - before) Scalar.zero)
  let stop := Scalar.truncate (Scalar.least (Scalar.ofInt center + after) (Scalar.ofNat resized))
  { source := source
    target := Scalar.truncate (before - Scalar.ofInt (center - source))
    length := max (stop - source) 0 }

namespace Window

/-- The indices that a window joins, each a coordinate of the resized photo
and the coordinate of the canvas that it goes to, from the start of the window
on. What would come from outside the photo or go outside the canvas is passed
over. -/
def pairs (w : Window) (resized canvas : Nat) : List (Nat × Nat) :=
  (List.range w.length.toNat).filterMap fun (i : Nat) =>
    let s := w.source + i
    let t := w.target + i
    if s < 0 || (resized : Int) ≤ s || t < 0 || (canvas : Int) ≤ t then none
    else some (s.toNat, t.toNat)

end Window

end Montage
