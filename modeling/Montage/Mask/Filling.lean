import Montage.Color
import Montage.Shape.Polygon
/-!
# Filling — a polygon painted onto a mask

`Filling.pixels` lists the pixels that a polygon with whole coordinates covers
on a canvas: row by row the stretches between crossings with its edges, and
then the edges themselves, drawn as lines. `Raster.fillPolygon` sets them. So
which pixels are set depends on the polygon and the extent of the canvas
alone, and not on what the mask holds.
-/

namespace Montage

/-- A raster with the same sample put at each of the given pixels. -/
def Raster.paint (pixels : List (Nat × Nat)) (a : α) (r : Raster α) : Raster α :=
  pixels.foldl (fun r p => r.set p.1 p.2 a) r

namespace Filling

/-! ## Rows -/

/-- The column in which an edge crosses a row strictly between its ends, to
the nearest in single precision. -/
def crossing (y : Int) (a b : Point Int) : Int :=
  let single := fun n : Int => (Float.ofInt n).toFloat32
  let fraction := single (y - a.y) / single (b.y - a.y)
  (single a.x + fraction * single (b.x - a.x)).round.toInt64.toInt

/-- The columns in which an edge meets a row. A level edge counts with both
ends, and an end of any other edge only where the edge goes down from it, so
that two edges that pass on through a vertex count once. -/
def crossings (y : Int) (a b : Point Int) : List Int :=
  if (a.y ≤ y && y ≤ b.y) || (b.y ≤ y && y ≤ a.y) then
    if a.y = b.y then [a.x, b.x]
    else if a.y = y || b.y = y then
      (if y < b.y then [a.x] else []) ++ (if y < a.y then [b.x] else [])
    else [crossing y a b]
  else []

/-- Sorted columns two by two. -/
def pairs : List Int → List (Int × Int)
  | a :: b :: rest => (a, b) :: pairs rest
  | _ => []

/-- The pixels of a row of the canvas from one column to another, both
included. -/
def rowPixels (s : Size) (y : Nat) (first last : Int) : List (Nat × Nat) :=
  let first := (max 0 first).toNat
  let stop := (min (s.width : Int) (last + 1)).toNat
  (List.range (stop - first)).map fun i => (first + i, y)

/-- The pixels of a row between crossings with the edges. -/
def insideRow (s : Size) (edges : List (Point Int × Point Int)) (y : Nat) : List (Nat × Nat) :=
  let columns := (edges.flatMap fun (a, b) => crossings y a b).mergeSort fun a b => a ≤ b
  (pairs columns).flatMap fun (first, last) => rowPixels s y first last

/-! ## Lines -/

/-- A point with its coordinates exchanged. -/
def flip (p : Point Int) : Point Int := ⟨p.y, p.x⟩

/-- The points of a line that is no steeper than a diagonal, `count` of them
from `p` on. Twice the room to the next step aside is `room`; it shrinks by
`rise` with each column, and a step aside gives back `run`. -/
def linePoints (rise run step : Int) : (count : Nat) → (room : Int) → Point Int → List (Point Int)
  | 0, _, _ => []
  | count + 1, room, p =>
    let room' := room - rise
    p :: if room' < 0 then linePoints rise run step count (room' + run) ⟨p.x + 1, p.y + step⟩
      else linePoints rise run step count room' ⟨p.x + 1, p.y⟩

/-- The points of a line that is no steeper than a diagonal. -/
def flatLine (a b : Point Int) : List (Point Int) :=
  let (a, b) := if b.x < a.x then (b, a) else (a, b)
  let run := b.x - a.x
  linePoints (2 * (b.y - a.y).natAbs) (2 * run) (if a.y < b.y then 1 else -1) (run + 1).toNat run a

/-- The points of a line. A steep one is drawn with its coordinates
exchanged. -/
def line (a b : Point Int) : List (Point Int) :=
  if (b.x - a.x).natAbs < (b.y - a.y).natAbs then (flatLine (flip a) (flip b)).map flip
  else flatLine a b

/-- A point as a pixel of the canvas. -/
def onCanvas? (s : Size) (p : Point Int) : Option (Nat × Nat) :=
  if 0 ≤ p.x && p.x < s.width && 0 ≤ p.y && p.y < s.height then some (p.x.toNat, p.y.toNat)
  else none

/-! ## The polygon -/

/-- **The pixels that a polygon covers on a canvas**, some of them more than
once. -/
def pixels (s : Size) (p : Polygon Int) : List (Nat × Nat) :=
  let inside := (List.range s.height).flatMap (insideRow s p.edges)
  let outline := p.edges.flatMap fun (a, b) => (line a b).filterMap (onCanvas? s)
  inside ++ outline

end Filling

/-- A mask in which the pixels that a polygon covers are set. -/
def Raster.fillPolygon (m : Mask) (p : Polygon Int) : Mask :=
  m.paint (Filling.pixels m.size p) 255

end Montage
