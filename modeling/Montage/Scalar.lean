import Montage.Binary64
/-!
# Scalars — the arithmetic that measurements are made in

Points, polygons, boxes and placements are computed with doubles when the
program runs. Their definitions do not fix that: they are written over any
type with the operations of `Scalar`, and `Geometric` where lengths and
angles enter. A law that holds of the exact rationals or reals is then a
statement about the same definition, read over another type.

The operations keep to what doubles promise. Comparisons are tests that may
fail both ways, `le x x` is the test for being a number, and `least` and
`greatest` pass over an operand that is none.
-/

namespace Montage

/-- The operations of an ordered field as measurements use them, rounded or
exact. -/
class Scalar (α : Type) extends Add α, Sub α, Mul α, Div α, Neg α where
  /-- The scalar nearest to a whole number. -/
  ofInt : Int → α
  /-- `ofDecimal m e` is the scalar nearest to `m · 10⁻ᵉ`. -/
  ofDecimal : Nat → Nat → α
  /-- Strictly less, which is false as soon as an operand is no number. -/
  lt : α → α → Bool
  /-- Less or equal, which is false as soon as an operand is no number. -/
  le : α → α → Bool
  /-- The magnitude. -/
  abs : α → α
  /-- The greatest whole number below, as a scalar. -/
  floor : α → α
  /-- The whole number next to a scalar on the side of zero; zero for what
  is no number. -/
  truncate : α → Int
  /-- The remainder of `x` by a positive `y`, in `[0, y)` up to rounding. -/
  modulo : α → α → α
  /-- A total order that agrees with `le` on distinct numbers. -/
  notAfter : α → α → Bool

namespace Scalar

variable {α : Type} [Scalar α]

/-- A natural number as a scalar. -/
@[inline] def ofNat (n : Nat) : α := ofInt (n : Int)

/-- The scalar zero. -/
@[inline] def zero : α := ofInt 0

/-- The scalar one. -/
@[inline] def one : α := ofInt 1

/-- Whether two scalars are the same number. -/
@[inline] def same (x y : α) : Bool := le x y && le y x

/-- Whether a scalar is a number at all. -/
@[inline] def isNumber (x : α) : Bool := le x x

/-- The lesser of two scalars, or the one that is a number. -/
@[inline] def least (x y : α) : α :=
  if isNumber x then (if lt y x then y else x) else y

/-- The greater of two scalars, or the one that is a number. -/
@[inline] def greatest (x y : α) : α :=
  if isNumber x then (if lt x y then y else x) else y

/-- A scalar moved to the nearer end of `[low, high]` when it lies outside.
What is no number stays what it is. -/
@[inline] def clamp (low high x : α) : α :=
  if lt x low then low else if lt high x then high else x

/-- One with the sign of a scalar that is not zero. What is no number stays
what it is. -/
@[inline] def sign (x : α) : α :=
  if lt x zero then -one else if lt zero x then one else x

/-- Whether a scalar lies in `[low, high]`. -/
@[inline] def within (low high x : α) : Bool := le low x && le x high

/-- The least number of a list. Over doubles, a list without numbers has
infinity for its least number. -/
@[specialize] def leastOf (xs : List α) : α :=
  match xs.filter isNumber with
  | [] => one / zero
  | x :: rest => rest.foldl least x

/-- The greatest number of a list. Over doubles, a list without numbers has
negative infinity for its greatest number. -/
@[specialize] def greatestOf (xs : List α) : α :=
  match xs.filter isNumber with
  | [] => -one / zero
  | x :: rest => rest.foldl greatest x

/-- The sum of a list, added up from the left. -/
@[specialize] def sum (xs : List α) : α := xs.foldl (· + ·) zero

/-- The whole number next to a scalar on the side of zero, moved into the range
of thirty-two bits without a sign. -/
def truncateUInt32 (x : α) : Nat := min (UInt32.size - 1) (truncate x).toNat

/-- The whole number next to a scalar on the side of zero, moved into the range
of sixty-four bits with a sign. -/
def truncateInt64 (x : α) : Int :=
  max (-9223372036854775808) (min 9223372036854775807 (truncate x))

end Scalar

/-- Scalars with lengths and angles. Angles are in radians. -/
class Geometric (α : Type) extends Scalar α where
  /-- The square root. -/
  sqrt : α → α
  /-- The length of the vector with the given coordinates. -/
  hypot : α → α → α
  sin : α → α
  cos : α → α
  /-- `atan2 y x` is the direction of the vector `(x, y)`. -/
  atan2 : α → α → α
  /-- Half a turn. -/
  pi : α

namespace Geometric

variable {α : Type} [Geometric α]

/-- An angle in degrees, in radians. -/
@[inline] def radians (degrees : α) : α := degrees * (pi / Scalar.ofNat 180)

/-- An angle in radians, in degrees. -/
@[inline] def degrees (radians : α) : α := radians * (Scalar.ofNat 180 / pi)

end Geometric

/-! ## Doubles -/

namespace Binary64

/-- The length of the vector `(a, b)` for `0 ≤ b ≤ a` of moderate size: the
rounded root of the sum of squares, corrected by one Newton step. -/
def moderateHypot (a b : Float) : Float :=
  let h := Float.sqrt (a * a + b * b)
  if h ≤ 2.0 * b then
    let d := h - b
    h - (a * (2.0 * d - a) + (d - 2.0 * (a - b)) * d) / (2.0 * h)
  else
    let d := h - a
    h - (2.0 * d * (a - 2.0 * b) + ((4.0 * d - b) * b + d * d)) / (2.0 * h)

/-- The length of the vector `(x, y)`. Large and small coordinates are
scaled first so that no square leaves the range, and an infinite coordinate
makes an infinite length whatever the other is. -/
def hypot (x y : Float) : Float :=
  if x.isInf || y.isInf then 1.0 / 0.0
  else if x.isNaN || y.isNaN then x + y
  else
    let a := if x.abs < y.abs then y.abs else x.abs
    let b := if x.abs < y.abs then x.abs else y.abs
    let large := Float.scaleB 1.0 511
    let small := Float.scaleB 1.0 (-459)
    let negligible := b ≤ a * Float.scaleB 1.0 (-54)
    if negligible then a + b
    else if a > large then
      Float.scaleB (moderateHypot (Float.scaleB a (-600)) (Float.scaleB b (-600))) 600
    else if b < small then
      Float.scaleB (moderateHypot (Float.scaleB a 600) (Float.scaleB b 600)) (-600)
    else moderateHypot a b

/-- The remainder of `x` by a positive `y`, moved to the side of zero that
`y` is on. -/
def modulo (x y : Float) : Float :=
  let r := remainder x y
  if r < 0.0 then r + y.abs else r

end Binary64

instance : Scalar Float where
  ofInt := Float.ofInt
  ofDecimal m e := Float.ofScientific m true e
  lt x y := decide (x < y)
  le x y := decide (x ≤ y)
  abs := Float.abs
  floor := Float.floor
  truncate := Binary64.truncate
  modulo := Binary64.modulo
  notAfter x y := decide (Binary64.rank x ≤ Binary64.rank y)

instance : Geometric Float where
  sqrt := Float.sqrt
  hypot := Binary64.hypot
  sin := Float.sin
  cos := Float.cos
  atan2 := Float.atan2
  pi := Float.ofBits 0x400921fb54442d18

end Montage
