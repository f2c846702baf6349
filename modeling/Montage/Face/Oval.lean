import Montage.Face.Landmark
import Montage.Shape.Hull
/-!
# The oval of a face

The outline of a face runs through 36 of its landmarks. An edge of the oval
counts when both its ends are sure and lie in the photo, and then contributes
the pixels of both. The hull of these pixels is the face's place in the photo,
unless they all lie on a line.
-/

namespace Montage

/-- The landmarks on the outline of a face, in order around it. -/
def ovalIndices : List Nat :=
  [10, 338, 297, 332, 284, 251, 389, 356, 454, 323, 361, 288, 397, 365, 379, 378, 400, 377,
    152, 148, 176, 149, 150, 136, 172, 58, 132, 93, 234, 127, 162, 21, 54, 103, 67, 109]

/-- The edges of the oval, each from one landmark to the next; the last one
closes it. -/
def ovalEdges : List (Nat × Nat) :=
  ovalIndices.zip (ovalIndices.drop 1 ++ ovalIndices.take 1)

namespace Face

variable {α : Type} [Scalar α]

/-- The pixel of the landmark at an index, if there is one, it is sure, and it
lies in the photo. -/
def pixel? (f : Face α) (s : Size) (visibility presence : α) (index : Nat) :
    Option (Point Int) := do
  let l ← f.landmarks[index]?
  if l.isConfident visibility presence then pixelOf? l.x l.y s else none

/-- The pixels of the ends of the oval's edges, edge by edge. -/
def ovalPixels (f : Face α) (s : Size) (visibility presence : α) : List (Point Int) :=
  let pixel := f.pixel? s visibility presence
  ovalEdges.flatMap fun (a, b) =>
    match pixel a, pixel b with
    | some p, some q => [p, q]
    | _, _ => []

end Face

/-- Whether a pixel comes before another one, column by column. -/
def columnOrder (p q : Point Int) : Bool := p.x < q.x || (p.x == q.x && p.y ≤ q.y)

/-- A sorted list without repetitions. -/
def withoutRepeats : List (Point Int) → List (Point Int)
  | p :: q :: rest => if p = q then withoutRepeats (q :: rest) else p :: withoutRepeats (q :: rest)
  | ps => ps

/-- The hull of pixels that do not all lie on a line. -/
def broadHull? (ps : List (Point Int)) : Option (List (Point Int)) :=
  let distinct := withoutRepeats (ps.mergeSort columnOrder)
  if distinct.length < 3 then none
  else
    let hull := convexHull distinct
    if hull.length < 3 then none else some hull

end Montage
