import Montage.Decimal
/-!
# Numbers on the command line

Whole numbers are decimal digits with an optional sign. Other numbers may have
a decimal point and an exponent, or be written as a word for what is infinite
or no number. Nothing may stand around a number.
-/

namespace Montage

namespace Command

/-- The value of a decimal digit. -/
def digit? (c : Char) : Option Nat := if '0' ≤ c && c ≤ '9' then some (c.toNat - 48) else none

/-- The number in the longest run of digits at the front, the length of the
run, and what follows it. -/
def digitRun : (n count : Nat) → List Char → Nat × Nat × List Char
  | n, count, [] => (n, count, [])
  | n, count, c :: rest =>
    match digit? c with
    | some d => digitRun (n * 10 + d) (count + 1) rest
    | none => (n, count, c :: rest)

/-- Digits and nothing else. -/
def digits? (s : List Char) : Option Nat :=
  match digitRun 0 0 s with
  | (n, _ + 1, []) => some n
  | _ => none

/-- Whether a sign is a minus sign, and what follows the sign. -/
def signed : List Char → Bool × List Char
  | '-' :: rest => (true, rest)
  | '+' :: rest => (false, rest)
  | s => (false, s)

/-- A count: it may have a plus sign, but no minus sign even for zero. -/
def count? (s : String) : Option Nat :=
  match s.toList with
  | '-' :: _ => none
  | cs => (digits? (signed cs).2).filter (· < UInt64.size)

/-- A number of pixels: a whole number of either sign that turns out to lie in
the range of sizes. -/
def pixels? (s : String) : Option Nat := do
  let (negative, rest) := signed s.toList
  let n ← digits? rest
  if negative && n ≠ 0 then none else if n < UInt32.size then some n else none

/-- A letter without its case. -/
def smallLetter (c : Char) : Char := if 'A' ≤ c && c ≤ 'Z' then Char.ofNat (c.toNat + 32) else c

/-- The exponent at the end of a number, zero if there is none. -/
def exponent? : List Char → Option Int
  | [] => some 0
  | c :: rest =>
    if smallLetter c ≠ 'e' then none
    else
      let (negative, rest) := signed rest
      (digits? rest).map fun n => if negative then -(n : Int) else n

/-- The double nearest to `n · 10^e`, where `n` has `length` digits. What lies
far outside the range is not computed. -/
def nearest (n length : Nat) (e : Int) : Float :=
  if n = 0 || e + length < -330 then 0.0
  else if 310 < e then 1.0 / 0.0
  else Float.ofScientific n (e < 0) e.natAbs

/-- A number without its sign. -/
def magnitude? (s : List Char) : Option Float := do
  let word := String.ofList (s.map smallLetter)
  if word = "inf" || word = "infinity" then return 1.0 / 0.0
  if word = "nan" then return 0.0 / 0.0
  let (n, before, rest) := digitRun 0 0 s
  -- the places after the point go on with the same digits
  let (n, after, rest) :=
    match rest with
    | '.' :: places => digitRun n 0 places
    | _ => (n, 0, rest)
  if before + after = 0 then none
  else return nearest n (before + after) ((← exponent? rest) - after)

/-- A number. -/
def real? (s : String) : Option Float := do
  let (negative, rest) := signed s.toList
  let x ← magnitude? rest
  return if negative then -x else x

end Command

end Montage
