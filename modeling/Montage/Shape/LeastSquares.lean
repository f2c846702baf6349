import Montage.Shape.SingularValues
/-!
# Least squares — solving linear equations by singular values

A direction whose singular value is negligible takes no part in the solution,
so that also a singular system has one: the shortest of those that miss the
right-hand side by least.
-/

namespace Montage

namespace LeastSquares

/-- A direction that a matrix stretches, the direction it is taken to, and by
how much it is stretched. -/
structure Stretch where
  value : Float
  target : Entries
  source : Entries

/-- The directions that a matrix stretches, the most stretched first. -/
def stretches (rows : List Entries) : List Stretch :=
  let f := SingularForm.ofRows rows
  let all := List.zipWith (fun (value, target) source => Stretch.mk value target.toList source.toList)
    (f.diagonal.toList.zip f.left.toList) f.right.toList
  all.mergeSort fun a b => b.value ≤ a.value

/-- The shortest vector that the matrix with the given rows takes as near as
possible to `target`. -/
def solve (rows : List Entries) (target : Entries) : Entries :=
  let all := stretches rows
  let amounts := all.map fun s =>
    if SingularForm.negligible < s.value then s.target.dot target / s.value else 0.0
  (transposed rows.length (all.map Stretch.source)).map (Entries.dot · amounts)

end LeastSquares

end Montage
