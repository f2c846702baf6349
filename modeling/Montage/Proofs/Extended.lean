import Montage.Proofs.Exact
/-!
# Extended arithmetic — exact numbers and their infinities

`Extended K` is an ordered field with two infinities and a value that is no
number. Operations on numbers are exact; a division by zero yields an infinity,
of the sign of the dividend, where exact arithmetic alone has no answer. Doubles
keep to the same laws up to rounding, so what an object without extent asks for
can be said exactly here.
-/

namespace Montage

/-- A number, an infinity, or no number. -/
inductive Extended (K : Type) where
  | number (x : K)
  | infinity (positive : Bool)
  | noNumber
deriving DecidableEq

namespace Extended

variable {K : Type} [Field K] [LinearOrder K] [FloorRing K]

/-- The infinity with the sign of a number, and nothing for zero. -/
def infinityLike (x : K) : Extended K :=
  if x = 0 then noNumber else infinity (decide (0 < x))

def add : Extended K → Extended K → Extended K
  | number x, number y => number (x + y)
  | infinity s, number _ => infinity s
  | number _, infinity s => infinity s
  | infinity s, infinity s' => if s = s' then infinity s else noNumber
  | _, _ => noNumber

def neg : Extended K → Extended K
  | number x => number (-x)
  | infinity s => infinity (!s)
  | noNumber => noNumber

def mul : Extended K → Extended K → Extended K
  | number x, number y => number (x * y)
  | infinity s, number y => infinityLike (if s then y else -y)
  | number x, infinity s => infinityLike (if s then x else -x)
  | infinity s, infinity s' => infinity (s == s')
  | _, _ => noNumber

/-- Division. Zero has no sign here, and counts as positive in a divisor. -/
def div : Extended K → Extended K → Extended K
  | number x, number y => if y = 0 then infinityLike x else number (x / y)
  | infinity s, number y => infinity (s == decide (0 ≤ y))
  | number _, infinity _ => number 0
  | _, _ => noNumber

def lt : Extended K → Extended K → Bool
  | number x, number y => x < y
  | number _, infinity s => s
  | infinity s, number _ => !s
  | infinity s, infinity s' => !s && s'
  | _, _ => false

/-- Less or equal. What is no number is not even equal to itself. -/
def le : Extended K → Extended K → Bool
  | noNumber, _ => false
  | _, noNumber => false
  | x, y => !lt y x

/-- What is done to numbers only. -/
def onNumber (f : K → Extended K) : Extended K → Extended K
  | number x => f x
  | x => x

instance : Scalar (Extended K) where
  add := add
  sub x y := add x (neg y)
  mul := mul
  div := div
  neg := neg
  ofInt n := number n
  ofDecimal m e := number ((Scalar.exact K).ofDecimal m e)
  lt := lt
  le := le
  abs
    | infinity _ => infinity true
    | x => onNumber (fun x => number |x|) x
  floor := onNumber fun x => number ⌊x⌋
  truncate
    | number x => (Scalar.exact K).truncate x
    | _ => 0
  modulo x y := onNumber (fun x => onNumber (fun y => number ((Scalar.exact K).modulo x y)) y) x
  notAfter
    | _, noNumber => true
    | x, y => le x y

/-! ## Operations on numbers -/

@[simp] theorem ofNat_extended (n : ℕ) : (Scalar.ofNat n : Extended K) = number (n : K) :=
  congrArg number (Int.cast_natCast n)

@[simp] theorem number_mul (x y : K) : number x * number y = number (x * y) := rfl

@[simp] theorem lt_number (x y : K) : Scalar.lt (number x) (number y) = true ↔ x < y :=
  decide_eq_true_iff

@[simp] theorem le_number (x y : K) : Scalar.le (number x) (number y) = true ↔ x ≤ y := by
  show (!decide (y < x)) = true ↔ x ≤ y
  rw [Bool.not_eq_true', decide_eq_false_iff_not, not_lt]

theorem number_div {y : K} (h : y ≠ 0) (x : K) : number x / number y = number (x / y) :=
  if_neg h

/-- **A division by zero** of something above zero. -/
theorem number_div_zero {x : K} (h : 0 < x) : number x / number 0 = infinity true := by
  show (if (0 : K) = 0 then infinityLike x else number (x / 0)) = infinity true
  rw [if_pos rfl, infinityLike, if_neg h.ne', decide_eq_true h]

theorem infinity_mul {y : K} (h : 0 < y) : infinity true * number y = infinity true := by
  show infinityLike (if true then y else -y) = infinity true
  rw [if_pos rfl, infinityLike, if_neg h.ne', decide_eq_true h]

/-- A number that is moved into a range. -/
theorem clamp_number {low high : K} (h : low ≤ high) (x : K) :
    Scalar.clamp (number low) (number high) (number x) = number (max low (min high x)) := by
  rw [Scalar.clamp]
  by_cases hlow : x < low
  · rw [if_pos ((lt_number x low).mpr hlow), min_eq_right (hlow.le.trans h), max_eq_left hlow.le]
  · rw [if_neg (mt (lt_number x low).mp hlow)]
    have hlow := not_lt.mp hlow
    by_cases hhigh : high < x
    · rw [if_pos ((lt_number high x).mpr hhigh), min_eq_left hhigh.le, max_eq_right h]
    · rw [if_neg (mt (lt_number high x).mp hhigh), min_eq_right (not_lt.mp hhigh),
        max_eq_right hlow]

/-- What is above all numbers is moved to the upper end. -/
theorem clamp_infinity (low high : K) :
    Scalar.clamp (number low) (number high) (infinity true) = number high := rfl

end Extended

end Montage
