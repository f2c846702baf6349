import Montage.Fault
import Montage.Mask.Contour
/-!
# Polygons with a given number of sides

A convex polygon is reduced to fewer sides by collapsing its edges one after
the other. Collapsing an edge prolongs the two edges beside it until they
meet, and puts the point where they meet in the place of the edge: the shape
grows by a triangle. Each time the edge with the smallest triangle is taken,
the first of equal ones.
-/

namespace Montage

namespace Ngon

variable {α : Type}

section

variable [Scalar α]

/-- Lines whose directions have a smaller cross product than this count as
parallel. -/
def parallelLimit : α := Scalar.ofDecimal 1 12

/-- The point where the line through `a` and `b` meets the line through `c`
and `d`, unless they are parallel. -/
@[specialize] def intersection? (a b c d : Point α) : Option (Point α) :=
  let det := (a.x - b.x) * (c.y - d.y) - (a.y - b.y) * (c.x - d.x)
  if Scalar.lt (Scalar.abs det) parallelLimit then none
  else
    let ab := a.x * b.y - a.y * b.x
    let cd := c.x * d.y - c.y * d.x
    some ⟨(ab * (c.x - d.x) - (a.x - b.x) * cd) / det,
      (ab * (c.y - d.y) - (a.y - b.y) * cd) / det⟩

end

section

variable [Geometric α]

/-- Edges whose angles add up to no more than half a turn and this much are
not collapsed. -/
def angleSlack : α := Scalar.ofDecimal 1 9

/-- The angle at `v` between the directions to `a` and to `b`, at most half a
turn. -/
@[specialize] def angleAt (a v b : Point α) : α :=
  let ax := a.x - v.x
  let ay := a.y - v.y
  let bx := b.x - v.x
  let bY := b.y - v.y
  Geometric.atan2 (Scalar.abs (ax * bY - ay * bx)) (ax * bx + ay * bY)

/-- The area of a triangle, computed from the lengths of its sides. -/
@[specialize] def triangleArea (a b c : Point α) : α :=
  let ab := a.distance b
  let bc := b.distance c
  let ca := c.distance a
  let s := (ab + bc + ca) / Scalar.ofNat 2
  Geometric.sqrt (Scalar.greatest (s * (s - ab) * (s - bc) * (s - ca)) Scalar.zero)

/-- An edge that can be collapsed: its index, the point it is collapsed to
and the area that this adds. -/
structure Collapse (α : Type) where
  edge : Nat
  apex : Point α
  added : α

/-- The collapse of the edge from `p` to `q`, between the vertices `before`
and `after`, if the angles at its ends allow one. -/
@[specialize] def collapse? (edge : Nat) (before p q after : Point α) : Option (Collapse α) :=
  if Scalar.le (angleAt before p q + angleAt p q after) (Geometric.pi + angleSlack) then none
  else (intersection? before p q after).map fun apex => ⟨edge, apex, triangleArea p apex q⟩

/-- The collapses of all edges that have one, in the order of the edges. -/
@[specialize] def collapses (vs : List (Point α)) : List (Collapse α) :=
  -- edge `i` runs from vertex `i` to the next one
  let before := rotatedBy (vs.length - 1) vs
  let around := (before.zip vs).zip ((rotatedBy 1 vs).zip (rotatedBy 2 vs))
  around.zipIdx.filterMap fun (((before, p), q, after), i) => collapse? i before p q after

/-- The collapse that adds least, the first of equal ones. -/
@[specialize] def smallest (best : Collapse α) : List (Collapse α) → Collapse α
  | [] => best
  | c :: rest => smallest (if Scalar.le best.added c.added then best else c) rest

/-- The vertices after a collapse: the apex takes the place of the edge's
first end, and its second end is left out. -/
def Collapse.apply (c : Collapse α) (vs : List (Point α)) : List (Point α) :=
  (vs.set c.edge c.apex).eraseIdx ((c.edge + 1) % vs.length)

/-- The vertices after `count` collapses. -/
@[specialize] def reduce : (count : Nat) → List (Point α) → Except Fault (List (Point α))
  | 0, vs => .ok vs
  | count + 1, vs =>
    match collapses vs with
    | [] => .error (.noFitFound vs.length)
    | c :: rest => reduce count ((smallest c rest).apply vs)

/-- **A polygon with `sides` vertices around a convex one.** It winds
clockwise and starts at its vertex with the least coordinate sum. -/
@[specialize] def fit (hull : Polygon α) (sides : Nat) : Except Fault (Polygon α) :=
  let n := hull.vertices.length
  if n < sides then .error (.hullTooSmall n sides)
  else (reduce (n - sides) hull.vertices).map fun vs => (Polygon.mk vs).clockwise.fromOrigin

end

end Ngon

/-- A polygon with `sides` vertices around the largest object of a mask. -/
@[specialize] def Raster.fitNgon [Geometric α] (m : Mask) (sides : Nat) :
    Except Fault (Polygon α) := do
  if sides < 3 then throw (.invalidSetting (.sides sides))
  Ngon.fit (Polygon.ofPixels (← m.hull)) sides

end Montage
