import Montage.Fault
import Montage.Shape.LeastSquares
import Montage.Shape.Polygon
/-!
# Projections — straightening a quadrilateral

A projection maps the plane so that straight lines stay straight. It is given
by a matrix of nine entries in single precision and is determined by where
it takes the four corners of a quadrilateral. `Projection.between` finds it;
it comes with its inverse, which says for a pixel of the straightened photo
where it lay before.
-/

namespace Montage

/-- A matrix of three rows in single precision. -/
structure Matrix where
  m0 : Float32
  m1 : Float32
  m2 : Float32
  m3 : Float32
  m4 : Float32
  m5 : Float32
  m6 : Float32
  m7 : Float32
  m8 : Float32

/-- A place in a photo, in single precision. -/
structure Place where
  x : Float32
  y : Float32

namespace Matrix

/-- Entries and determinants smaller than this count as zero. -/
def negligible : Float32 := 1e-10

/-- Whether an entry is as good as the given one. -/
def near (entry value : Float32) : Bool := decide ((entry - value).abs < negligible)

/-- How much of a matrix takes part in the map that it gives. -/
inductive Reach where
  /-- Only the shift. -/
  | shift
  /-- The shift and the linear part. -/
  | affine
  /-- All of it. -/
  | projective
deriving DecidableEq

/-- The part of the matrix that differs from the unit matrix. -/
def reach (m : Matrix) : Reach :=
  if near m.m6 0.0 && near m.m7 0.0 && near m.m8 1.0 then
    if near m.m0 1.0 && near m.m1 0.0 && near m.m3 0.0 && near m.m4 1.0 then .shift else .affine
  else .projective

/-- The place that part of the matrix takes a place to. -/
def apply (m : Matrix) (p : Place) : Reach → Place
  | .shift => ⟨p.x + m.m2, p.y + m.m5⟩
  | .affine => ⟨m.m0 * p.x + m.m1 * p.y + m.m2, m.m3 * p.x + m.m4 * p.y + m.m5⟩
  | .projective =>
    let d := m.m6 * p.x + m.m7 * p.y + m.m8
    ⟨(m.m0 * p.x + m.m1 * p.y + m.m2) / d, (m.m3 * p.x + m.m4 * p.y + m.m5) / d⟩

/-- The matrix scaled so that its last entry is one. -/
def normalized (m : Matrix) : Matrix :=
  ⟨m.m0 / m.m8, m.m1 / m.m8, m.m2 / m.m8, m.m3 / m.m8, m.m4 / m.m8, m.m5 / m.m8,
    m.m6 / m.m8, m.m7 / m.m8, 1.0⟩

/-- The inverse matrix by cofactors, scaled so that its last entry is one, if
the determinant is not negligible. -/
def inverse? (m : Matrix) : Option Matrix :=
  let c00 := m.m4 * m.m8 - m.m5 * m.m7
  let c01 := m.m3 * m.m8 - m.m5 * m.m6
  let c02 := m.m3 * m.m7 - m.m4 * m.m6
  let det := m.m0 * c00 - m.m1 * c01 + m.m2 * c02
  if det.abs < negligible then none
  else
    let c10 := m.m1 * m.m8 - m.m2 * m.m7
    let c11 := m.m0 * m.m8 - m.m2 * m.m6
    let c12 := m.m0 * m.m7 - m.m1 * m.m6
    let c20 := m.m1 * m.m5 - m.m2 * m.m4
    let c21 := m.m0 * m.m5 - m.m2 * m.m3
    let c22 := m.m0 * m.m4 - m.m1 * m.m3
    some (normalized ⟨c00 / det, -c10 / det, c20 / det, -c01 / det, c11 / det, -c21 / det,
      c02 / det, -c12 / det, c22 / det⟩)

end Matrix

/-- A projection with its inverse. -/
structure Projection where
  forward : Matrix
  backward : Matrix

namespace Projection

/-- The place that a place is taken to. -/
def apply (t : Projection) (p : Place) : Place := t.forward.apply p t.forward.reach

/-- The place that is taken to a place. Back and forth, the same part of the
matrix counts. -/
def applyBack (t : Projection) (p : Place) : Place := t.backward.apply p t.forward.reach

/-- A place of a quadrilateral, in single precision but computed with in
double. -/
structure Corner where
  x : Float
  y : Float

/-- The corner at a point. -/
def Corner.ofPoint (p : Point Float) : Corner := ⟨p.x.toFloat32.toFloat, p.y.toFloat32.toFloat⟩

/-- The corners of a polygon, if it has four. -/
def corners (p : Polygon Float) : Except Fault (List Corner) :=
  if p.vertices.length = 4 then .ok (p.vertices.map Corner.ofPoint)
  else .error (.noFitFound p.vertices.length)

/-- The two equations on the first eight entries of a matrix that takes one
corner to another: the coefficients, and what they are to add up to. -/
def equations (a b : Corner) : List (Entries × Float) :=
  [ ([0.0, 0.0, 0.0, -a.x, -a.y, -1.0, b.y * a.x, b.y * a.y], -b.y),
    ([a.x, a.y, 1.0, 0.0, 0.0, 0.0, -b.x * a.x, -b.x * a.y], b.x) ]

/-- The matrix whose first eight entries are given. -/
def matrixOf (entries : Entries) : Matrix :=
  let e := fun i => (entries.getD i 0.0).toFloat32
  ⟨e 0, e 1, e 2, e 3, e 4, e 5, e 6, e 7, 1.0⟩

/-- **The projection that takes the corners of one quadrilateral to those of
another**, corner by corner. -/
def between (source target : Polygon Float) : Except Fault Projection := do
  let source ← corners source
  let target ← corners target
  let system := (List.zipWith equations source target).flatten
  let entries := LeastSquares.solve (system.map Prod.fst) (system.map Prod.snd)
  let forward := matrixOf entries
  match forward.inverse? with
  | some backward => return ⟨forward, backward⟩
  | none => throw (.picture .degenerateQuad)

end Projection

end Montage
