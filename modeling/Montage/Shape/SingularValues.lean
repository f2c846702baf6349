import Montage.Scalar
import Montage.Shape.Bidiagonal
/-!
# Singular values

A matrix is a product of a rotation, a diagonal matrix, and another rotation.
The bidiagonal form of the matrix is chased to diagonal form by turns in the
planes of neighbouring directions, from both sides, until the entries beside
the diagonal have become negligible. `SingularForm.ofRows` is the result.
-/

namespace Montage

/-- A turn in a plane. -/
structure Turn where
  cos : Float
  sin : Float

namespace Turn

/-- The turn that moves nothing. -/
def none : Turn := ⟨1.0, 0.0⟩

/-- The same turn the other way round. -/
def back (t : Turn) : Turn := ⟨t.cos, -t.sin⟩

/-- A pair of coordinates turned. -/
def apply (t : Turn) (x y : Float) : Float × Float :=
  (x * t.cos - t.sin * y, t.sin * x + y * t.cos)

/-- A magnitude, and the sign that goes with it. -/
def parted (x : Float) : Float × Float := if 0.0 ≤ x then (x, 1.0) else (-x, -1.0)

/-- The turn that makes the second coordinate zero, with what the first one
becomes. -/
def clearingSecond (x y : Float) : Option (Turn × Float) :=
  if y == 0.0 then Option.none
  else
    let (m, s) := parted x
    let length := Float.sqrt (m * m + y * y)
    some (⟨m / length, s * y / -length⟩, s * length)

/-- The turn that makes the first coordinate zero, with what the second one
becomes. -/
def clearingFirst (x y : Float) : Option (Turn × Float) :=
  if x == 0.0 then Option.none
  else
    let (m, s) := parted y
    let length := Float.sqrt (m * m + x * x)
    some (⟨m / length, x * s / length⟩, s * length)

/-- The turn to the direction with the given coordinates, with the signed
length of these. -/
def towards (x y : Float) : Turn × Float :=
  let (m, s) := parted x
  let length := Float.sqrt (m * m + y * y)
  if 0.0 < length then (⟨m / length, y / (s * length)⟩, s * length) else (none, 0.0)

/-- Two rows of a matrix turned in their plane. -/
def rows (t : Turn) (i j : Nat) (m : Array (Array Float)) : Array (Array Float) :=
  let turned := Array.zipWith (t.apply · ·) (m.getD i #[]) (m.getD j #[])
  (m.setIfInBounds i (turned.map Prod.fst)).setIfInBounds j (turned.map Prod.snd)

end Turn

/-- A bidiagonal matrix on its way to diagonal form, with the rotations that
have been split off. -/
structure SingularForm where
  diagonal : Array Float
  /-- The entries beside the diagonal. -/
  beside : Array Float
  /-- The rotation on the left, column by column. -/
  left : Array (Array Float)
  /-- The rotation on the right, row by row. -/
  right : Array (Array Float)

namespace SingularForm

/-- Magnitudes up to this are negligible beside one. -/
def negligible : Float := Float.scaleB 1.0 (-52)

/-- An entry of the diagonal. -/
def entry (f : SingularForm) (i : Nat) : Float := f.diagonal.getD i 0.0

/-- The entry beside entry `i` of the diagonal, in the next column. -/
def next (f : SingularForm) (i : Nat) : Float := f.beside.getD i 0.0

def setEntry (f : SingularForm) (i : Nat) (x : Float) : SingularForm :=
  { f with diagonal := f.diagonal.setIfInBounds i x }

def setNext (f : SingularForm) (i : Nat) (x : Float) : SingularForm :=
  { f with beside := f.beside.setIfInBounds i x }

def turnLeft (f : SingularForm) (t : Turn) (i j : Nat) : SingularForm :=
  { f with left := t.rows i j f.left }

def turnRight (f : SingularForm) (t : Turn) (i j : Nat) : SingularForm :=
  { f with right := t.rows i j f.right }

/-! ## Splitting -/

/-- Chases the entry `x` in row `i` to the right, against the diagonal from
entry `k + 1` on, over `count` columns. -/
def chaseRight (i : Nat) : (count k : Nat) → (x y : Float) → SingularForm → SingularForm
  | 0, _, _, _, f => f
  | count + 1, k, x, y, f =>
    match Turn.clearingFirst x y with
    | none => f
    | some (t, length) =>
      let f := (f.setEntry (k + 1) length).turnLeft t i (k + 1)
      if count = 0 then f
      else
        let ahead := f.next (k + 1)
        chaseRight i count (k + 1) (-t.sin * ahead) (f.entry (k + 2))
          (f.setNext (k + 1) (ahead * t.cos))

/-- Clears the entry beside entry `i` of the diagonal, which is zero, from the
left, up to column `last`. -/
def clearRow (i last : Nat) (f : SingularForm) : SingularForm :=
  chaseRight i (last - i) i (f.next i) (f.entry (i + 1)) (f.setNext i 0.0)

/-- Chases the entry `y` in column `i + 1` upwards, against the diagonal from
entry `count - 1` on. -/
def chaseUp (i : Nat) : (count : Nat) → (x y : Float) → SingularForm → SingularForm
  | 0, _, _, f => f
  | k + 1, x, y, f =>
    match Turn.clearingSecond x y with
    | none => f
    | some (t, length) =>
      let f := (f.setEntry k length).turnRight t k (i + 1)
      if k = 0 then f
      else
        let above := f.next (k - 1)
        chaseUp i k (f.entry (k - 1)) (t.sin * above) (f.setNext (k - 1) (above * t.cos))

/-- Clears the entry beside entry `i` of the diagonal, below which the diagonal
is zero, from the right. -/
def clearColumn (i : Nat) (f : SingularForm) : SingularForm :=
  chaseUp i (i + 1) (f.entry i) (f.next i) (f.setNext i 0.0)

/-- Splits the matrix at entry `m` of the diagonal, which is negligible. -/
def splitAt (m last : Nat) (f : SingularForm) : SingularForm :=
  let f := (f.setEntry m 0.0).clearRow m last
  if m = 0 then f else f.clearColumn (m - 1)

/-- Whether the entry beside entry `m` is negligible against the diagonal. -/
def isSplit (m : Nat) (f : SingularForm) : Bool :=
  (f.next m).abs ≤ negligible * ((f.entry (m + 1)).abs + (f.entry m).abs)

/-- Takes finished entries off the end of the diagonal: the last entry that is
not finished, and the matrix. -/
def trim : (last : Nat) → SingularForm → Nat × SingularForm
  | 0, f => (0, f)
  | m + 1, f =>
    if f.next m == 0.0 || f.isSplit m then trim m (f.setNext m 0.0)
    else if (f.entry m).abs ≤ negligible then trim m (f.splitAt m (m + 1))
    else if (f.entry (m + 1)).abs ≤ negligible then
      trim m ((f.setEntry (m + 1) 0.0).clearColumn m)
    else (m + 1, f)

/-- The first entry of the part that ends in entry `last` and is not split. -/
def partFrom (last : Nat) : (first : Nat) → SingularForm → Nat × SingularForm
  | 0, f => (0, f)
  | m + 1, f =>
    if f.isSplit m then (m + 1, f.setNext m 0.0)
    else if (f.entry m).abs ≤ negligible then (m + 1, f.splitAt m last)
    else partFrom last m f

/-- The part to be treated next: its first and its last entry. They are the
same when all is done. -/
def nextPart (last : Nat) (f : SingularForm) : Nat × Nat × SingularForm :=
  match f.trim last with
  | (0, f) => (0, 0, f)
  | (n + 1, f) =>
    let (first, f) := f.partFrom (n + 1) n
    (first, n + 1, f)

/-! ## Turning -/

/-- The eigenvalue next to `c` of the symmetric matrix with diagonal `a`, `c`
and `b` beside it. -/
def eigenvalueNear (a c b : Float) : Float :=
  let square := b * b
  if square == 0.0 then c
  else
    let d := (a - c) * 0.5
    c - square / (d + signOf d * Float.sqrt (d * d + square))

/-- Turns a part of the matrix from the right and from the left, `count` times
from entry `k` on. The pair `x`, `y` is to be cleared from the right. -/
def sweep (first last : Nat) : (count k : Nat) → (x y : Float) → SingularForm → SingularForm
  | 0, _, _, _, f => f
  | count + 1, k, x, y, f =>
    match Turn.clearingSecond x y with
    | none => f
    | some (t, length) =>
      let (a, b) := t.apply (f.entry k) (f.next k)
      let (c, d) := t.apply 0.0 (f.entry (k + 1))
      let f := if first < k then f.setNext (k - 1) length else f
      let (u, a) := (Turn.clearingSecond a c).getD (.none, a)
      let (b, d) := u.apply b d
      let (e, g) := u.apply 0.0 (if k + 1 = last then 0.0 else f.next (k + 1))
      let f := (f.turnRight t k (k + 1)).turnLeft u k (k + 1)
      let f := ((f.setEntry k a).setEntry (k + 1) d).setNext k b
      let f := if k + 1 = last then f else f.setNext (k + 1) g
      sweep first last count (k + 1) b e f

/-- One sweep over a part of at least three entries, from the turn that an
eigenvalue of its end asks for. -/
def sweepPart (first last : Nat) (f : SingularForm) : SingularForm :=
  let a := f.entry (last - 1)
  let b := f.next (last - 1)
  let c := f.entry last
  let above := f.next (last - 2)
  let shift := eigenvalueNear (a * a + above * above) (c * c + b * b) (a * b)
  let d := f.entry first
  f.sweep first last (last - first) first (d * d - shift) (d * f.next first)

/-- A part of two entries brought to diagonal form. -/
def solvePair (i : Nat) (f : SingularForm) : SingularForm :=
  let a := f.entry i
  let b := f.next i
  let c := f.entry (i + 1)
  let sum := Binary64.hypot (a + c) b + Binary64.hypot (a - c) b
  let near := a * c * 2.0 / sum
  let far := 0.5 * sum
  let (v, s) := Turn.towards (a * b) (near * near - a * a)
  let near := near * s
  let far := far * s
  let (u, s) := Turn.towards ((a * v.cos + b * v.sin) / near) (c * v.sin / near)
  let f := ((f.setEntry i (near * s)).setEntry (i + 1) (far * s)).setNext i 0.0
  (f.turnLeft u.back i (i + 1)).turnRight v.back i (i + 1)

/-- Treats the part from `first` to `last`, and then those that are left. Each
sweep brings the entry at the end of a part nearer to zero, so that a few of
them suffice for each entry. -/
def finish : (fuel : Nat) → (first last : Nat) → SingularForm → SingularForm
  | 0, _, _, f => f
  | fuel + 1, first, last, f =>
    if first = last then f
    else
      let (f, last) :=
        if first + 1 = last then (f.solvePair first, first) else (f.sweepPart first last, last)
      let (first, last, f) := f.nextPart last
      finish fuel first last f

/-- The sweeps that are made at most. -/
def sweepLimit : Nat := 1000

/-- The magnitude of the greatest entry of a matrix. -/
def greatestMagnitude (rows : List Entries) : Float :=
  rows.flatten.foldl (fun m x => if m < x.abs then x.abs else m) 0.0

/-- **A matrix as rotation, diagonal and rotation.** Entries of the diagonal
are not negative. -/
def ofRows (rows : List Entries) : SingularForm :=
  let scale := greatestMagnitude rows
  let scaled := if scale == 0.0 then rows else rows.map (·.divided scale)
  let steps := stages rows.length scaled
  let start : SingularForm := {
    diagonal := (steps.map fun s => s.column.image.abs).toArray
    beside := (steps.map fun s => s.row.image.abs).dropLast.toArray
    left := ((leftRows steps).map List.toArray).toArray
    right := ((rightRows steps).map List.toArray).toArray }
  let (first, last, f) := start.nextPart (rows.length - 1)
  let f := finish sweepLimit first last f
  { f with
    left := Array.zipWith (fun x row => if x < 0.0 then row.map (-·) else row) f.diagonal f.left
    diagonal := f.diagonal.map fun x => (x * scale).abs }

end SingularForm

end Montage
