import Montage.Raster
import Montage.Shape.Point
/-!
# Landmarks — the points found on a face

A landmark is a point of a face, with its place given in fractions of the
photo. It may carry scores for how sure it is. `pixelOf?` brings a place to a
pixel of the photo.
-/

namespace Montage

/-- A point of a face, in fractions of the photo's width and height. -/
structure Landmark (α : Type) where
  x : α
  y : α
  /-- How surely the landmark is in view, if that was reported. -/
  visibility : Option α := none
  /-- How surely the landmark is in the photo, if that was reported. -/
  presence : Option α := none

/-- The landmarks of one face, each at the index of its place in the face. -/
structure Face (α : Type) where
  landmarks : List (Landmark α)

section

variable {α : Type} [Scalar α]

namespace Landmark

/-- Whether a score reaches a threshold. A score that was not reported
does. -/
def reaches (threshold : α) : Option α → Bool
  | none => true
  | some score => Scalar.le threshold score

/-- Whether both scores of a landmark reach their thresholds. -/
def isConfident (l : Landmark α) (visibility presence : α) : Bool :=
  reaches visibility l.visibility && reaches presence l.presence

end Landmark

/-- What rounding may add to a fraction. -/
def fractionTolerance : α := Scalar.ofDecimal 1 6

/-- Whether a number lies in `[0, 1]`, or beside it by no more than the
tolerance. -/
def isFraction (v : α) : Bool :=
  (Scalar.lt Scalar.zero v || Scalar.le (Scalar.abs v) fractionTolerance) &&
    (Scalar.lt v Scalar.one || Scalar.le (Scalar.abs (v - Scalar.one)) fractionTolerance)

/-- The place of a fraction among `n` pixels, counted from the first. The far
end belongs to the last pixel. Places are kept in thirty-two bits, one of which
is the sign, so those from `2³¹` on come out negative. -/
def pixelIndex (v : α) (n : Nat) : Int :=
  let place : Int := max 0 (min (n - 1) (Scalar.truncate (Scalar.floor (v * Scalar.ofNat n))))
  place.bmod UInt32.size

/-- The pixel at a place given in fractions of the photo, if it lies inside
the photo. -/
def pixelOf? (x y : α) (s : Size) : Option (Point Int) :=
  if s.width = 0 || s.height = 0 || !isFraction x || !isFraction y then none
  else some ⟨pixelIndex x s.width, pixelIndex y s.height⟩

end

end Montage
