import Montage.Shape.Point
/-!
# Polygons

A polygon is the list of its vertices; the last is joined to the first. Two
polygons with the same outline may start at different vertices and wind
either way. `Polygon.clockwise` and `Polygon.fromOrigin` choose one winding
and one start, so that the vertices of two quadrilaterals correspond.
-/

namespace Montage

/-- The list turned so that it begins with its `n`-th element. -/
def rotatedBy (n : Nat) (xs : List α) : List α := xs.drop n ++ xs.take n

/-- A closed polygon, given by its vertices in order. -/
structure Polygon (α : Type) where
  vertices : List (Point α)
deriving DecidableEq, Inhabited

namespace Polygon

variable {α : Type}

/-- The edges of a polygon, the closing one last. -/
def edges (p : Polygon α) : List (Point α × Point α) :=
  p.vertices.zip (rotatedBy 1 p.vertices)

section

variable [Scalar α]

/-- The index of the first vertex whose coordinate sum no other comes
before. -/
@[specialize] def originIndex (p : Polygon α) : Nat :=
  let sums := p.vertices.map Point.coordSum
  sums.findIdx fun s => sums.all fun t => Scalar.notAfter s t

/-- The polygon that starts at the vertex with the least coordinate sum, the
earliest of them. -/
@[specialize] def fromOrigin (p : Polygon α) : Polygon α :=
  ⟨rotatedBy p.originIndex p.vertices⟩

/-- The area inside the polygon, counted negative if it winds
counter-clockwise on screen. -/
@[specialize] def signedArea (p : Polygon α) : α :=
  Scalar.sum (p.edges.map fun (a, b) => a.x * b.y - b.x * a.y) / Scalar.ofNat 2

/-- The area inside the polygon. -/
@[specialize] def area (p : Polygon α) : α := Scalar.abs p.signedArea

/-- The polygon with its vertices reversed if it winds counter-clockwise. -/
@[specialize] def clockwise (p : Polygon α) : Polygon α :=
  if Scalar.lt p.signedArea Scalar.zero then ⟨p.vertices.reverse⟩ else p

/-- The turns at the vertices of a polygon, that at the second vertex first. -/
@[specialize] def turns (p : Polygon α) : List α :=
  List.zipWith (fun (a, b) c => a.turn b c) p.edges (rotatedBy 2 p.vertices)

/-- Turns smaller than this are taken for straight runs. -/
def straightTurn : α := Scalar.ofDecimal 1 9

/-- Whether all turns of a polygon that are no straight runs go the same way.
A polygon has at least three vertices for this. -/
@[specialize] def isConvex (p : Polygon α) : Bool :=
  let signs := (p.turns.filter fun t => !Scalar.lt (Scalar.abs t) straightTurn).map Scalar.sign
  3 ≤ p.vertices.length &&
    match signs with
    | [] => true
    | s :: rest => rest.all fun t => Scalar.same t s

end

end Polygon

end Montage
