import Montage.Decimal
import Montage.Json.Flaw
/-!
# JSON — numbers

A number without a point or an exponent is whole if it fits sixty-four bits;
every other number is a double. `Number.ofParts` makes the double from a
significand of sixty-four bits and a power of ten, by one multiplication or
division where the power is a double itself. It is this product, not the
double nearest to the text, that a document denotes.
-/

namespace Montage

namespace Json

/-- A number as a document gives it. -/
inductive Number where
  | natural (n : Nat)
  /-- A whole number below zero. -/
  | negative (n : Int)
  | real (x : Float)

namespace Number

/-- How a number of the wrong kind is quoted. -/
def quoted : Number → String
  | .natural n => "integer `" ++ toString n ++ "`"
  | .negative n => "integer `" ++ toString n ++ "`"
  | .real x => "floating point `" ++ Decimal.scientific x ++ "`"

/-- A number as a double. -/
def toFloat : Number → Float
  | .natural n => Float.ofNat n
  | .negative n => Float.ofInt n
  | .real x => x

/-- The single-precision number nearest to a double, as a double. -/
def single (x : Float) : Float := x.toFloat32.toFloat

/-- A number in single precision. Whole numbers are rounded once. -/
def toSingle : Number → Float
  | .natural n => (Float32.ofNat n).toFloat
  | .negative n => (Float32.ofInt n).toFloat
  | .real x => single x

/-- The significand and the power of ten gathered so far. The significand
keeps to sixty-four bits; digits that do not fit are dropped. -/
structure Parts where
  significand : Nat
  power : Int

/-- The next digit before the point. Once a digit has been dropped, all later
ones are, and each is worth a power of ten. -/
def Parts.wholeDigit (p : Parts) (d : Nat) : Parts :=
  if p.power = 0 && p.significand * 10 + d < UInt64.size then ⟨p.significand * 10 + d, 0⟩
  else ⟨p.significand, p.power + 1⟩

/-- The digits after the point, up to the first that does not fit. -/
def Parts.places (p : Parts) : List Nat → Parts
  | [] => p
  | d :: rest =>
    if p.significand * 10 + d < UInt64.size then places ⟨p.significand * 10 + d, p.power - 1⟩ rest
    else p

/-- The magnitude of `significand · 10^power`, if it is finite. Below
`10^-308` the division is done in two steps. -/
def Parts.magnitude? (p : Parts) : Option Float :=
  let f := Float.ofNat p.significand
  let tenTo := fun k : Nat => Float.ofScientific 1 false k
  if p.power < -616 then some 0.0
  else if p.power < -308 then
    if f == 0.0 then some f else some (f / tenTo 308 / tenTo (-p.power - 308).toNat)
  else if p.power < 0 then some (f / tenTo (-p.power).toNat)
  else if p.power ≤ 308 then
    let g := f * tenTo p.power.toNat
    if g.isInf then none else some g
  else if f == 0.0 then some f else none

end Number

end Json

end Montage
