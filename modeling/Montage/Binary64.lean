/-!
# Binary64 — a double as a whole number of least steps

Every finite double is a whole multiple of `2⁻¹⁰⁷⁴`, the distance between
zero and its neighbour. `Binary64.steps` reads that multiple off the bits, so
that questions about the exact value of a double become questions about
natural numbers. `Binary64.truncate`, `Binary64.remainder` and `Binary64.rank` are
answered that way.
-/

namespace Montage

namespace Binary64

/-- Whether the sign bit is set. -/
def negative (x : Float) : Bool := x.toBits.toNat >>> 63 == 1

/-- The exponent field, eleven bits wide. -/
def exponentField (x : Float) : Nat := x.toBits.toNat >>> 52 % 2048

/-- The fraction field, fifty-two bits wide. -/
def fractionField (x : Float) : Nat := x.toBits.toNat % 1 <<< 52

/-- The magnitude of a finite double, counted in steps of `2⁻¹⁰⁷⁴`. A
normal number has a leading bit that the fraction field leaves out. -/
def steps (x : Float) : Nat :=
  if exponentField x = 0 then fractionField x
  else (1 <<< 52 + fractionField x) <<< (exponentField x - 1)

/-- The whole number next to a double on the side of zero, moved into the range
of sixty-four bits with a sign. What is no number counts as zero. -/
def truncate (x : Float) : Int :=
  let whole : Int := (steps x >>> 1074 : Nat)
  if x.isNaN then 0
  else max (-9223372036854775808) (min 9223372036854775807 (if negative x then -whole else whole))

/-- The double that is `n` steps from zero on the positive side, for an `n`
that has at most fifty-three significant bits. -/
def ofSteps (n : Nat) : Float :=
  let spare := n.log2 - 52
  Float.scaleB (Float.ofNat (n >>> spare)) ((spare : Int) - 1074)

/-- The remainder of the truncating division `x / y`, which is exact and
has the sign of `x`. -/
def remainder (x y : Float) : Float :=
  if x.isNaN || y.isNaN || x.isInf || steps y == 0 then 0.0 / 0.0
  else if y.isInf || steps x < steps y then x
  else
    let r := ofSteps (steps x % steps y)
    if negative x then -r else r

/-- The place of a double in the total order of its values: negative zero
comes just before zero, and what is not a number comes last. -/
def rank (x : Float) : Int :=
  let bits := x.toBits.toNat
  if bits < 1 <<< 63 then bits else ((1 <<< 63 : Nat) : Int) - 1 - bits

end Binary64

end Montage
