import Montage.Binary64
/-!
# Bidiagonal form — a matrix reduced by reflections

A square matrix is brought to one that is zero off its diagonal and off the
entries beside it, by reflections from the left and from the right. Each
stage clears the first column below its first entry, then the first row
behind its second entry, and leaves a matrix with one row and one column
less. `stages` are these reflections, and `leftRows` and `rightRows` multiply
them up.

Vectors and rows are lists, and a matrix is the list of its rows.
-/

namespace Montage

/-- A list of numbers as a vector. -/
abbrev Entries := List Float

namespace Entries

/-- The sums of the products in eight lanes, as long as there are eight more
of them, and the products left over. -/
def lanes : (products sums : Entries) → Entries × Entries
  | a :: b :: c :: d :: e :: f :: g :: h :: rest, sums =>
    lanes rest (List.zipWith (· + ·) sums [a, b, c, d, e, f, g, h])
  | rest, sums => (sums, rest)

/-- The inner product of two vectors. The sums of the lanes are added in
pairs, and then the products left over. -/
def dot (xs ys : Entries) : Float :=
  let (sums, rest) := lanes (List.zipWith (· * ·) xs ys) (List.replicate 8 0.0)
  let pair := fun i => sums.getD i 0.0 + sums.getD (i + 4) 0.0
  rest.foldl (· + ·) (((0.0 + pair 0) + pair 1) + pair 2 + pair 3)

/-- The inner product of two vectors, added up from the left. -/
def plainDot (xs ys : Entries) : Float :=
  match List.zipWith (· * ·) xs ys with
  | [] => 0.0
  | p :: ps => ps.foldl (· + ·) p

/-- A vector divided by a number. -/
def divided (xs : Entries) (d : Float) : Entries := xs.map (· / d)

end Entries

/-- Minus one for a number with its sign bit set, and one for any other. -/
def signOf (x : Float) : Float := if Binary64.negative x then -1.0 else 1.0

/-- The columns of a matrix with `count` columns. -/
def transposed (count : Nat) (rows : List Entries) : List Entries :=
  (List.range count).map fun i => rows.map fun r => r.getD i 0.0

/-- A matrix with a first row and a first column of the unit matrix added. -/
def bordered (rows : List Entries) : List Entries :=
  (1.0 :: List.replicate rows.length 0.0) :: rows.map (0.0 :: ·)

/-! ## Reflections -/

/-- A reflection. It takes the vector that it was made for to a multiple of
the first direction. -/
structure Reflection where
  /-- The unit vector along which it turns back, and zero for the reflection that
  moves nothing. -/
  axis : Entries
  /-- That multiple. -/
  image : Float
  moves : Bool

namespace Reflection

/-- The reflection that clears all entries of a vector but the first. -/
def clearing (v : Entries) : Reflection :=
  let square := v.dot v
  let length := Float.sqrt square
  let first := v.headD 0.0
  let signed := if 0.0 ≤ first then length else -length
  let factor := (square + first.abs * length) * 2.0
  let shifted := (first + signed) :: v.tail
  if factor == 0.0 then ⟨v, signed, false⟩
  else
    let near := Entries.divided shifted (Float.sqrt factor)
    -- once more, as rounding has left the length only near to one
    ⟨near.divided (Float.sqrt (near.dot near)), -signed, true⟩

/-- A column reflected, with the sign that the image has. -/
def ofColumn (r : Reflection) (v : Entries) : Entries :=
  if r.moves then
    let s := signOf r.image
    let factor := Entries.dot r.axis v * (s * -2.0)
    List.zipWith (fun a x => factor * a + s * x) r.axis v
  else v

/-- A row reflected, with the sign that the image has. -/
def ofRow (r : Reflection) (v : Entries) : Entries :=
  if r.moves then
    let s := signOf r.image
    let across := Entries.plainDot v r.axis
    List.zipWith (fun a x => s * -2.0 * a * across + s * x) r.axis v
  else v

end Reflection

/-! ## Stages -/

/-- What is done to a matrix before its first row and column are taken off. -/
structure Stage where
  column : Reflection
  row : Reflection

/-- The stages that bring a matrix with `size` rows and columns to bidiagonal
form. -/
def stages : (size : Nat) → List Entries → List Stage
  | 0, _ => []
  | size + 1, rows =>
    let column := Reflection.clearing (rows.map (·.headD 0.0))
    let cleared := (transposed size (rows.map List.tail)).map column.ofColumn
    let rest := transposed (size + 1) cleared
    let row := Reflection.clearing (rest.headD [])
    ⟨column, row⟩ :: stages size (rest.tail.map row.ofRow)

/-- The product of the reflections from the left, column by column. -/
def leftRows : List Stage → List Entries
  | [] => []
  | s :: rest => (bordered (leftRows rest)).map s.column.ofColumn

/-- The product of the reflections from the right, row by row. -/
def rightRows : List Stage → List Entries
  | [] => []
  | s :: rest => (bordered (rightRows rest)).map fun r => r.take 1 ++ s.row.ofRow (r.drop 1)

end Montage
