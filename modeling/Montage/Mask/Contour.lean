import Montage.Mask.Bounds
import Montage.Mask.Cleaning
import Montage.Shape.Hull
/-!
# Contours of a mask

The borders of a mask are found by scanning it row by row. Where the scan
enters an object a border starts, and where it leaves one for a hole another
does; a border is then followed around, and its pixels are labelled with its
number so that it does not start again. The labels also tell which border
encloses which.

A border never starts at the left edge of a mask. An object that reaches it
is found as the border of what lies to its right, if at all, and does not
count as an object.
-/

namespace Montage

namespace Contour

/-- A border: its pixels in the order in which they are followed, whether
it encloses an object rather than a hole, and the border that encloses it. -/
structure Border where
  points : List (Point Int)
  outer : Bool
  parent : Option Nat
deriving Inhabited

/-- The step to a neighbouring pixel, of eight clockwise on screen from the
left one. -/
def step (direction : Nat) : Int × Int :=
  match direction % 8 with
  | 0 => (-1, 0)
  | 1 => (-1, -1)
  | 2 => (0, -1)
  | 3 => (1, -1)
  | 4 => (1, 0)
  | 5 => (1, 1)
  | 6 => (0, 1)
  | _ => (-1, 1)

/-- The direction of the right neighbour. -/
def right : Nat := 4

/-- The pixel next to another one. -/
def neighbour (p : Point Int) (direction : Nat) : Point Int :=
  ⟨p.x + (step direction).1, p.y + (step direction).2⟩

/-- The label of a pixel, zero outside. -/
def label (g : Raster Int) (p : Point Int) : Int :=
  if 0 ≤ p.x && 0 ≤ p.y then g.getD p.x.toNat p.y.toNat 0 else 0

/-- Whether the neighbour of a pixel in a direction belongs to an object. -/
def occupied (g : Raster Int) (p : Point Int) (direction : Nat) : Bool :=
  label g (neighbour p direction) != 0

/-- The directions in the order in which they are tried, clockwise from the
given one. -/
def clockwiseFrom (direction : Nat) : List Nat :=
  (List.range 8).map fun i => (direction + i) % 8

/-- The directions in the order in which they are tried, counter-clockwise
from the one after the given direction, which comes last. -/
def counterClockwiseAfter (direction : Nat) : List Nat :=
  (List.range 8).map fun i => (direction + 7 - i) % 8

/-- Whether the right neighbour is tried, and found empty, before the
direction that is taken. -/
def passesRight (directions : List Nat) (taken : Nat) : Bool :=
  (directions.takeWhile (· != taken)).contains right

/-- The labels after border number `number` has passed a pixel. -/
def passed (g : Raster Int) (number : Int) (p : Point Int) (rightEmpty : Bool) : Raster Int :=
  if p.x + 1 == g.width || rightEmpty then g.set p.x.toNat p.y.toNat (-number)
  else if label g p == 1 then g.set p.x.toNat p.y.toNat number
  else g

/-- Follows border number `number`. It started at `start` and is closed by
the step from `last` back to there; the pixel before `p` lies in the
direction `back`. Returns the labels and the pixels from `p` on. -/
def follow (number : Int) (start last : Point Int) :
    (fuel : Nat) → Raster Int → (p : Point Int) → (back : Nat) → Raster Int × List (Point Int)
  | 0, g, _, _ => (g, [])
  | fuel + 1, g, p, back =>
    let directions := counterClockwiseAfter back
    match directions.find? (occupied g p) with
    | none => (g, [p])
    | some taken =>
      let next := neighbour p taken
      -- the pixel is labelled before the border is found to be closed
      let g := passed g number p (passesRight directions taken)
      if next = start && p = last then (g, [p])
      else
        let (g, rest) := follow number start last fuel g next ((taken + 4) % 8)
        (g, p :: rest)

/-- Traces border number `number` from its first pixel. `empty` is the
direction of the empty neighbour that it started at. A border passes each
pixel at most once in each direction. -/
def trace (g : Raster Int) (number : Int) (start : Point Int) (empty : Nat) :
    Raster Int × List (Point Int) :=
  match (clockwiseFrom empty).find? (occupied g start) with
  | none => (g.set start.x.toNat start.y.toNat (-number), [start])
  | some first =>
    follow number start (neighbour start first) (8 * g.width * g.height + 1) g start first

/-- How far a scan has come: the labels, the borders found, last one first,
and the number of the border met last in this row. Borders are numbered from
two. -/
structure Progress where
  labels : Raster Int
  borders : List Border
  met : Int

/-- The number of a border that is found next. -/
def Progress.nextNumber (s : Progress) : Nat := s.borders.length + 2

/-- The border with a given number. -/
def Progress.border? (s : Progress) (number : Nat) : Option Border :=
  s.borders[s.borders.length + 1 - number]?

/-- The border that encloses a border starting now: the one met last, unless
both are of the same kind and it is the one around that. -/
def Progress.enclosing (s : Progress) (met : Int) (outer : Bool) : Option Nat :=
  if met ≤ 1 then none
  else
    match s.border? met.toNat with
    | some b => if b.outer != outer then some (met.toNat - 2) else b.parent
    | none => none

/-- The scan after a border that starts at a pixel has been traced. -/
def Progress.start (s : Progress) (p : Point Int) (outer : Bool) (met : Int) : Progress :=
  let empty := if outer then 0 else right
  let (labels, points) := trace s.labels s.nextNumber p empty
  { labels := labels
    borders := ⟨points, outer, s.enclosing met outer⟩ :: s.borders
    met := met }

/-- The scan after one more pixel. -/
def Progress.visit (s : Progress) (x y : Nat) : Progress :=
  let v := s.labels.getD x y 0
  let p : Point Int := ⟨x, y⟩
  if v == 0 then s
  else
    let s :=
      if v == 1 && 0 < x && s.labels.getD (x - 1) y 0 == 0 then s.start p true s.met
      else if 0 < v && x + 1 < s.labels.width && s.labels.getD (x + 1) y 0 == 0 then
        s.start p false (if 1 < v then v else s.met)
      else s
    -- a border that has just been traced may have labelled this pixel
    let v := s.labels.getD x y 0
    if v == 1 then s else { s with met := v.natAbs }

/-- The scan after one more row. -/
def Progress.visitRow (s : Progress) (y : Nat) : Progress :=
  (List.range s.labels.width).foldl (fun s x => s.visit x y) { s with met := 1 }

end Contour

namespace Raster

open Contour

/-- The borders of a mask, in the order in which a scan finds them. -/
def borders (m : Mask) : List Border :=
  let start : Progress := ⟨m.map fun v => if v = 0 then 0 else 1, [], 1⟩
  ((List.range m.height).foldl Progress.visitRow start).borders.reverse

/-- The borders of objects that are not enclosed by another border. -/
def objectBorders (m : Mask) : List Border :=
  m.borders.filter fun b => b.outer && b.parent.isNone

/-- The first of the longest lists. -/
def longest (best : List (Point Int)) : List (List (Point Int)) → List (Point Int)
  | [] => best
  | ps :: rest => longest (if best.length < ps.length then ps else best) rest

/-- The border of the object whose border is longest, the first found of
equal ones. -/
def largestContour (m : Mask) : Except Fault (List (Point Int)) :=
  match m.binarized.objectBorders.map Border.points with
  | [] => .error .noObjectFound
  | ps :: rest => .ok (longest ps rest)

/-- The hull of the object with the longest border. -/
def hull (m : Mask) : Except Fault (List (Point Int)) := m.largestContour.map convexHull

end Raster

end Montage
