import Mathlib.Analysis.SpecialFunctions.Complex.Arg
import Montage.Scalar
/-!
# Exact arithmetic — scalars that are never rounded

`Scalar.exact` are the operations of an ordered field that has a floor. They
keep what `Scalar` promises, and every element is a number: the tests are the
order (`lt_exact`, `le_exact`), and the lesser and the greater of two scalars
are their `min` and `max`. The real numbers are taken with these operations,
and with the root, the sine and the argument that lengths and angles need.
-/

namespace Montage

/-- **The exact operations of an ordered field.** -/
abbrev Scalar.exact (K : Type) [Field K] [LinearOrder K] [FloorRing K] : Scalar K where
  ofInt n := (n : K)
  ofDecimal m e := (m : K) / 10 ^ e
  lt x y := decide (x < y)
  le x y := decide (x ≤ y)
  abs x := |x|
  floor x := (⌊x⌋ : K)
  truncate x := if 0 ≤ x then ⌊x⌋ else ⌈x⌉
  modulo x y := x - y * (⌊x / y⌋ : K)
  notAfter x y := decide (x ≤ y)

noncomputable instance Scalar.real : Scalar ℝ := Scalar.exact ℝ

/-- Real lengths and angles. The direction of a vector is the argument of the
complex number with its coordinates, and the vector zero has direction zero. -/
noncomputable instance Geometric.real : Geometric ℝ where
  sqrt := Real.sqrt
  hypot x y := Real.sqrt (x ^ 2 + y ^ 2)
  sin := Real.sin
  cos := Real.cos
  atan2 y x := Complex.arg ⟨x, y⟩
  pi := Real.pi

namespace Scalar

variable {K : Type} [Field K] [LinearOrder K] [FloorRing K]

attribute [local instance] Scalar.exact

@[simp] theorem ofInt_exact (n : ℤ) : (ofInt n : K) = (n : K) := rfl

@[simp] theorem ofNat_exact (n : ℕ) : (ofNat n : K) = (n : K) := Int.cast_natCast n

@[simp] theorem zero_exact : (zero : K) = 0 := Int.cast_zero

@[simp] theorem one_exact : (one : K) = 1 := Int.cast_one

@[simp] theorem ofDecimal_exact (m e : ℕ) : (ofDecimal m e : K) = (m : K) / 10 ^ e := rfl

@[simp] theorem lt_exact (x y : K) : lt x y = true ↔ x < y := decide_eq_true_iff

@[simp] theorem le_exact (x y : K) : le x y = true ↔ x ≤ y := decide_eq_true_iff

@[simp] theorem notAfter_exact (x y : K) : notAfter x y = true ↔ x ≤ y := decide_eq_true_iff

@[simp] theorem abs_exact (x : K) : Scalar.abs x = |x| := rfl

@[simp] theorem floor_exact (x : K) : Scalar.floor x = (⌊x⌋ : K) := rfl

theorem modulo_exact (x y : K) : modulo x y = x - y * (⌊x / y⌋ : K) := rfl

theorem truncate_of_nonneg {x : K} (h : 0 ≤ x) : truncate x = ⌊x⌋ := if_pos h

/-- A whole number has nothing to cut off. -/
@[simp] theorem truncate_intCast [IsStrictOrderedRing K] (n : ℤ) : truncate (n : K) = n := by
  show (if 0 ≤ (n : K) then ⌊(n : K)⌋ else ⌈(n : K)⌉) = n
  rw [Int.floor_intCast, Int.ceil_intCast, ite_self]

/-- A fraction on either side of zero is cut off. -/
theorem truncate_of_abs_lt_one [IsStrictOrderedRing K] {x : K} (h : |x| < 1) : truncate x = 0 := by
  obtain ⟨hlow, hhigh⟩ := abs_lt.mp h
  show (if 0 ≤ x then ⌊x⌋ else ⌈x⌉) = 0
  split
  · next hx => exact Int.floor_eq_zero_iff.mpr ⟨hx, hhigh⟩
  · next hx => exact Int.ceil_eq_zero_iff.mpr ⟨hlow, (not_le.mp hx).le⟩

/-- Cut off to a natural number, all that is below zero becomes zero. -/
theorem toNat_truncate [IsStrictOrderedRing K] (x : K) : (truncate x).toNat = ⌊x⌋₊ := by
  rcases le_or_gt 0 x with h | h
  · rw [truncate_of_nonneg h, Int.floor_toNat]
  · have hceil : truncate x = ⌈x⌉ := if_neg h.not_ge
    rw [hceil, Nat.floor_of_nonpos h.le, Int.toNat_eq_zero]
    exact Int.ceil_le.mpr (by exact_mod_cast h.le)

/-- Every element of a field is a number. -/
@[simp] theorem isNumber_exact (x : K) : isNumber x = true := (le_exact x x).mpr le_rfl

@[simp] theorem least_exact (x y : K) : least x y = min x y := by
  rw [least, if_pos (isNumber_exact x)]
  by_cases h : y < x
  · rw [if_pos ((lt_exact y x).mpr h), min_eq_right h.le]
  · rw [if_neg (mt (lt_exact y x).mp h), min_eq_left (not_lt.mp h)]

@[simp] theorem greatest_exact (x y : K) : greatest x y = max x y := by
  rw [greatest, if_pos (isNumber_exact x)]
  by_cases h : x < y
  · rw [if_pos ((lt_exact x y).mpr h), max_eq_right h.le]
  · rw [if_neg (mt (lt_exact x y).mp h), max_eq_left (not_lt.mp h)]

@[simp] theorem sum_exact (xs : List K) : Scalar.sum xs = xs.sum := by
  rw [Scalar.sum, zero_exact]
  exact List.sum_eq_foldl.symm

/-! ## Least and greatest of a list -/

/-- All of a list takes part in the search for its least element. -/
theorem min?_eq_some_leastOf {xs : List K} (h : xs ≠ []) : xs.min? = some (leastOf xs) := by
  obtain ⟨x, rest, rfl⟩ := List.exists_cons_of_ne_nil h
  have hall : (x :: rest).filter isNumber = x :: rest :=
    List.filter_eq_self.mpr fun y _ => isNumber_exact y
  have hfold : (least : K → K → K) = min := funext₂ least_exact
  rw [leastOf, hall, List.min?_cons', hfold]

theorem max?_eq_some_greatestOf {xs : List K} (h : xs ≠ []) : xs.max? = some (greatestOf xs) := by
  obtain ⟨x, rest, rfl⟩ := List.exists_cons_of_ne_nil h
  have hall : (x :: rest).filter isNumber = x :: rest :=
    List.filter_eq_self.mpr fun y _ => isNumber_exact y
  have hfold : (greatest : K → K → K) = max := funext₂ greatest_exact
  rw [greatestOf, hall, List.max?_cons', hfold]

theorem leastOf_mem {xs : List K} (h : xs ≠ []) : leastOf xs ∈ xs :=
  (List.min?_eq_some_iff.mp (min?_eq_some_leastOf h)).1

theorem leastOf_le {xs : List K} {x : K} (h : x ∈ xs) : leastOf xs ≤ x :=
  (List.min?_eq_some_iff.mp (min?_eq_some_leastOf (List.ne_nil_of_mem h))).2 x h

theorem greatestOf_mem {xs : List K} (h : xs ≠ []) : greatestOf xs ∈ xs :=
  (List.max?_eq_some_iff.mp (max?_eq_some_greatestOf h)).1

theorem le_greatestOf {xs : List K} {x : K} (h : x ∈ xs) : x ≤ greatestOf xs :=
  (List.max?_eq_some_iff.mp (max?_eq_some_greatestOf (List.ne_nil_of_mem h))).2 x h

/-- An element that no other one is below is the least. -/
theorem leastOf_eq {xs : List K} {m : K} (hm : m ∈ xs) (h : ∀ x ∈ xs, m ≤ x) : leastOf xs = m :=
  le_antisymm (leastOf_le hm) (h _ (leastOf_mem (List.ne_nil_of_mem hm)))

theorem greatestOf_eq {xs : List K} {m : K} (hm : m ∈ xs) (h : ∀ x ∈ xs, x ≤ m) :
    greatestOf xs = m :=
  le_antisymm (h _ (greatestOf_mem (List.ne_nil_of_mem hm))) (le_greatestOf hm)

end Scalar

/-! ## Real lengths and angles -/

namespace Geometric

@[simp] theorem pi_real : (pi : ℝ) = Real.pi := rfl

@[simp] theorem sin_real (x : ℝ) : Geometric.sin x = Real.sin x := rfl

@[simp] theorem cos_real (x : ℝ) : Geometric.cos x = Real.cos x := rfl

theorem radians_real (x : ℝ) : radians x = x * (Real.pi / 180) := by
  rw [radians, Scalar.ofNat_exact]
  rfl

end Geometric

end Montage
