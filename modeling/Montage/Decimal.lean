import Montage.Binary64
/-!
# Decimal — the shortest text of a double

A double stands for every real that rounds to it, an interval around its
exact value. Its shortest decimal is the point of that interval on the
coarsest grid of powers of ten that meets it; of two such points the nearer
is taken, and the greater when both are equally near.

`Decimal.positional` writes a decimal out in full, as error messages do.
`Decimal.scientific` is the form used where a number of a document is
quoted, which changes to an exponent for very large and very small numbers.
-/

namespace Montage

/-- The number `digits · 10^exponent`. -/
structure Decimal where
  digits : Nat
  exponent : Int

namespace Decimal

/-- The interval of reals that round to the double `n` steps from zero, in
quarter steps: its ends, and whether they belong to it. A double at the foot
of a binade has its lower neighbour at half the distance. -/
structure Interval where
  low : Nat
  high : Nat
  closed : Bool

/-- The distance, in steps, from a double to the next greater one. -/
def gap (n : Nat) : Nat := 1 <<< (n.log2 - 52)

/-- The reals that round to the double `n` steps from zero. -/
def rounding (n : Nat) : Interval :=
  let up := gap n
  let down := if n = 1 <<< n.log2 then gap (n - 1) else up
  { low := 4 * n - 2 * down, high := 4 * n + 2 * up, closed := n / up % 2 == 0 }

/-- Whether `p / q` quarter steps lie in the interval. -/
def Interval.holds (i : Interval) (p q : Nat) : Bool :=
  if i.closed then i.low * q ≤ p && p ≤ i.high * q else i.low * q < p && p < i.high * q

/-- A power of ten. -/
def tenTo (k : Nat) : Nat := Nat.pow 10 k

/-- The point nearest to the double `n` steps from zero, among the multiples
of `10^k` in its interval. A multiple `d · 10^k` is `d · p / q` quarter
steps. -/
def onGrid? (n : Nat) (k : Int) : Option Nat :=
  let p := tenTo k.toNat <<< 1076
  let q := tenTo (-k).toNat
  let below := 4 * n * q / p
  let fits := fun d => d != 0 && (rounding n).holds (d * p) q
  match fits below, fits (below + 1) with
  | true, false => some below
  | false, true => some (below + 1)
  | true, true =>
    if 4 * n * q - below * p < (below + 1) * p - 4 * n * q then some below else some (below + 1)
  | false, false => none

/-- The first grid from `10^k` downwards, of the given number of grids, that
meets the interval. -/
def coarsest (n : Nat) : (grids : Nat) → (k : Int) → Decimal
  | 0, k => ⟨0, k⟩
  | grids + 1, k =>
    match onGrid? n k with
    | some d => ⟨d, k⟩
    | none => coarsest n grids (k - 1)

/-- The shortest decimal that reads back as the given finite double, without
its sign. All doubles lie below `10^309`, and `10^-325` is finer than the
least step. -/
def shortest (x : Float) : Decimal :=
  if Binary64.steps x = 0 then ⟨0, 0⟩ else coarsest (Binary64.steps x) 635 309

/-- `n` in decimal digits. -/
def digitText (n : Nat) : String := String.ofList (Nat.toDigits 10 n)

/-- The text of `d` written out in full, without an exponent. -/
def plain (d : Decimal) : String :=
  let s := digitText d.digits
  if 0 ≤ d.exponent then s ++ String.ofList (List.replicate d.exponent.toNat '0')
  else
    let places := (-d.exponent).toNat
    let padded := List.replicate (places + 1 - s.length) '0' ++ s.toList
    let whole := padded.length - places
    String.ofList (padded.take whole) ++ "." ++ String.ofList (padded.drop whole)

/-- The text of `d` with at least one decimal place, or with a signed exponent
when it is sixteen places above or five below the point. -/
def marked (d : Decimal) : String :=
  let s := digitText d.digits
  let point : Int := s.length + d.exponent
  if d.digits = 0 then "0.0"
  else if 0 ≤ d.exponent && point ≤ 16 then plain d ++ ".0"
  else if -5 < point && point ≤ 16 then plain d
  else
    let power := (if 0 < point then "+" else "") ++ toString (point - 1)
    let tail := s.toList.drop 1
    String.ofList (s.toList.take 1)
      ++ (if tail.isEmpty then "" else "." ++ String.ofList tail) ++ "e" ++ power

/-- The text of a double under a way to write its magnitude. -/
def text (write : Decimal → String) (x : Float) : String :=
  if x.isNaN then "NaN"
  else
    let sign := if Binary64.negative x then "-" else ""
    sign ++ (if x.isInf then "inf" else write (shortest x))

/-- A double in full: shortest digits, never an exponent, no decimal point
where none is needed. -/
def positional (x : Float) : String := text plain x

/-- A double as a document's number is quoted. -/
def scientific (x : Float) : String := text marked x

end Decimal

end Montage
