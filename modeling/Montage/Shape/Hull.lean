import Montage.Shape.Polygon
/-!
# Convex hulls

The hull of a set of pixels is found by walking around it from its topmost
point, the leftmost of these: the other points are sorted by their direction
from there, and a point is dropped as soon as the path does not turn left at
it. Points on an edge of the hull are dropped with the inner ones.

All of it is done with whole numbers, and nothing is rounded.
-/

namespace Montage

namespace Hull

/-- The turn of the path from `a` over `b` to `c`. It is negative where the
path turns to the side on which hulls are walked. -/
def bend (a b c : Point Int) : Int :=
  (b.y - a.y) * (c.x - b.x) - (b.x - a.x) * (c.y - b.y)

/-- The square of the distance of two pixels. -/
def squaredDistance (a b : Point Int) : Int :=
  (a.x - b.x) * (a.x - b.x) + (a.y - b.y) * (a.y - b.y)

/-- Whether `p` is the better start: higher up, or at the same height and
further left. -/
def startsBefore (p q : Point Int) : Bool := p.y < q.y || (p.y == q.y && p.x < q.x)

/-- The index of the best start, the first of equal ones, in a list that goes
on with `ps` after `index` points, the best of which is `best` so far. -/
def startIndex (best : Point Int) (bestIndex index : Nat) : List (Point Int) → Nat
  | [] => bestIndex
  | p :: rest =>
    if startsBefore p best then startIndex p index (index + 1) rest
    else startIndex best bestIndex (index + 1) rest

/-- Whether `p` is met no later than `q` when turning around `start`. In the
same direction the nearer point is met first. -/
def metBefore (start p q : Point Int) : Bool :=
  let b := bend start p q
  b < 0 || (b == 0 && squaredDistance start p ≤ squaredDistance start q)

/-- The path, last point first, without the points at which it does not turn
left on the way to `p`. -/
def unwind (p : Point Int) : List (Point Int) → List (Point Int)
  | b :: a :: rest => if bend a b p < 0 then b :: a :: rest else unwind p (a :: rest)
  | path => path

/-- The points other than the start: the first point takes the place of the
start, and the first place is left out. -/
def others (first : Point Int) (rest : List (Point Int)) (index : Nat) : List (Point Int) :=
  match index with
  | 0 => rest
  | i + 1 => rest.set i first

end Hull

/-- **The convex hull of a list of pixels**, from its topmost point on and
clockwise on screen. -/
def convexHull : List (Point Int) → List (Point Int)
  | [] => []
  | first :: rest =>
    let index := Hull.startIndex first 0 1 rest
    let start := (first :: rest).getD index first
    let sorted := (Hull.others first rest index).mergeSort (Hull.metBefore start)
    (sorted.foldl (fun path p => p :: Hull.unwind p path) [start]).reverse

/-- The polygon through pixels. -/
def Polygon.ofPixels [Scalar α] (ps : List (Point Int)) : Polygon α :=
  ⟨ps.map Point.ofPixel⟩

end Montage
