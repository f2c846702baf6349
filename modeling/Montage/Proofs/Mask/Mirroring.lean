import Mathlib.Tactic.Linarith
import Mathlib.Tactic.Ring
import Montage.Mask.Cleaning
/-!
# Mirroring — the index that shows past the border

An index outside a range shows the one it is a whole number of periods and that
index away from, on either side (`reflected_eq`, `exists_reflected`). Turning it
over at the first index, at the last one or in the middle turns over the periods as
well. So the sides of either end show the same (`reflected_neg`,
`reflected_add_eq_sub`), and the range looks alike from both of them
(`reflected_flip`).

The index that shows is also the distance to the nearest whole number of periods:
it is no farther to one than to any other (`reflected_le_abs_sub`,
`exists_reflected_eq_abs_sub`). A distance to a fixed set of places changes by no
more than one moves, and so two indices never show farther apart than they are
(`abs_reflected_sub_le`), after any number of periods.

`reflected_laws` collects this.
-/

namespace Montage

variable {n x : ℕ} {i : ℤ}

/-! ## Periods -/

theorem reflected_of_le_one (h : n ≤ 1) (i : ℤ) : reflected i n = 0 := if_pos h

/-- **What shows at an index** that is a whole number of periods away, and that
much more or less. -/
theorem reflected_eq {r : ℕ} (hr : r < n) (k : ℤ)
    (hi : i = 2 * (n - 1) * k + r ∨ i = 2 * (n - 1) * k - r) : reflected i n = r := by
  rcases Nat.lt_or_ge 1 n with hn | hn
  · have hmod : i % (2 * (n - 1)) = r ∨ 0 < r ∧ i % (2 * (n - 1)) = 2 * (n - 1) - r := by
      rcases hi with rfl | rfl
      · left
        rw [Int.mul_add_emod_self_left, Int.emod_eq_of_lt (by omega) (by omega)]
      · rcases Nat.eq_zero_or_pos r with rfl | hpos
        · left
          rw [Nat.cast_zero, sub_zero, Int.mul_emod_right]
        · right
          have hshift : 2 * (n - 1) * k - (r : ℤ) =
              2 * (n - 1) * (k - 1) + (2 * (n - 1) - r) := by ring
          rw [hshift, Int.mul_add_emod_self_left, Int.emod_eq_of_lt (by omega) (by omega)]
          exact ⟨hpos, rfl⟩
    simp only [reflected, if_neg (Nat.not_le.mpr hn)]
    split <;> omega
  · rw [reflected_of_le_one hn]
    omega

/-- Every index is a whole number of periods and an index of the range away. -/
theorem exists_reflected (hn : 1 < n) (i : ℤ) :
    ∃ k : ℤ, ∃ r < n, i = 2 * (n - 1) * k + r ∨ i = 2 * (n - 1) * k - r := by
  have hperiod : (0 : ℤ) < 2 * (n - 1) := by omega
  have hdiv := Int.mul_ediv_add_emod i (2 * (n - 1))
  have hlow := Int.emod_nonneg i hperiod.ne'
  have hhigh := Int.emod_lt_of_pos i hperiod
  rcases lt_or_ge (i % (2 * (n - 1))) n with h | h
  · refine ⟨i / (2 * (n - 1)), (i % (2 * (n - 1))).toNat, by omega, .inl ?_⟩
    rw [Int.toNat_of_nonneg hlow, hdiv]
  · refine ⟨i / (2 * (n - 1)) + 1, (2 * (n - 1) - i % (2 * (n - 1))).toNat, by omega, .inr ?_⟩
    rw [Int.toNat_of_nonneg (by omega), mul_add, mul_one]
    omega

theorem reflected_lt (hn : 0 < n) (i : ℤ) : reflected i n < n := by
  rcases Nat.lt_or_ge 1 n with h | h
  · obtain ⟨k, r, hr, hi⟩ := exists_reflected h i
    rwa [reflected_eq hr k hi]
  · rwa [reflected_of_le_one h]

theorem reflected_natCast (hx : x < n) : reflected x n = x :=
  reflected_eq hx 0 (.inl (by rw [mul_zero, zero_add]))

/-! ## Turning over -/

/-- **Both sides of the first index show the same.** -/
theorem reflected_neg (n : ℕ) (i : ℤ) : reflected (-i) n = reflected i n := by
  rcases Nat.lt_or_ge 1 n with h | h
  · obtain ⟨k, r, hr, hi⟩ := exists_reflected h i
    rw [reflected_eq hr k hi]
    rcases hi with rfl | rfl
    · exact reflected_eq hr (-k) (.inr (by ring))
    · exact reflected_eq hr (-k) (.inl (by ring))
  · rw [reflected_of_le_one h, reflected_of_le_one h]

/-- **Seen from the other end**, an index shows the same. -/
theorem reflected_flip (hn : 0 < n) (i : ℤ) :
    reflected (n - 1 - i) n = n - 1 - reflected i n := by
  rcases Nat.lt_or_ge 1 n with h | h
  · obtain ⟨k, r, hr, hi⟩ := exists_reflected h i
    rw [reflected_eq hr k hi]
    have hcast : ((n - 1 - r : ℕ) : ℤ) = n - 1 - r := by omega
    have hr' : n - 1 - r < n := by omega
    rcases hi with rfl | rfl
    · refine reflected_eq hr' (-k) (.inl ?_)
      rw [hcast]
      ring
    · refine reflected_eq hr' (1 - k) (.inr ?_)
      rw [hcast]
      ring
  · rw [reflected_of_le_one h, reflected_of_le_one h]
    omega

/-- **And so do both sides of the last one.** -/
theorem reflected_add_eq_sub (hn : 0 < n) (i : ℤ) :
    reflected (n - 1 + i) n = reflected (n - 1 - i) n := by
  have hneg : (n - 1 + i : ℤ) = n - 1 - -i := by ring
  rw [hneg, reflected_flip hn, reflected_flip hn, reflected_neg]

/-! ## Distances -/

/-- **No whole number of periods is nearer** than the index that shows. -/
theorem reflected_le_abs_sub (n : ℕ) (i k : ℤ) :
    (reflected i n : ℤ) ≤ |i - 2 * (n - 1) * k| := by
  rcases Nat.lt_or_ge 1 n with hn | hn
  · obtain ⟨l, r, hr, hi⟩ := exists_reflected hn i
    rw [reflected_eq hr l hi, le_abs]
    -- the multiple is the one beside the index, or a whole period lies between
    have hperiod : (0 : ℤ) ≤ 2 * (n - 1) := by omega
    rcases lt_trichotomy k l with hk | rfl | hk
    · have := mul_le_mul_of_nonneg_left (Int.add_one_le_of_lt hk) hperiod
      rw [mul_add, mul_one] at this
      omega
    · omega
    · have := mul_le_mul_of_nonneg_left (Int.add_one_le_of_lt hk) hperiod
      rw [mul_add, mul_one] at this
      omega
  · rw [reflected_of_le_one hn]
    exact abs_nonneg _

/-- And one is as near. -/
theorem exists_reflected_eq_abs_sub (hn : 1 < n) (i : ℤ) :
    ∃ k : ℤ, (reflected i n : ℤ) = |i - 2 * (n - 1) * k| := by
  obtain ⟨k, r, hr, hi⟩ := exists_reflected hn i
  refine ⟨k, ?_⟩
  rw [reflected_eq hr k hi]
  rcases hi with rfl | rfl
  · rw [add_sub_cancel_left, Nat.abs_cast]
  · rw [sub_sub_cancel_left, abs_neg, Nat.abs_cast]

/-- What shows moves away from the first index no farther than the index itself. -/
theorem reflected_le_add_abs_sub (n : ℕ) (i j : ℤ) :
    (reflected i n : ℤ) ≤ reflected j n + |i - j| := by
  rcases Nat.lt_or_ge 1 n with hn | hn
  · obtain ⟨k, hk⟩ := exists_reflected_eq_abs_sub hn j
    calc (reflected i n : ℤ) ≤ |i - 2 * (n - 1) * k| := reflected_le_abs_sub n i k
      _ ≤ |i - j| + |j - 2 * (n - 1) * k| := abs_sub_le i j _
      _ = reflected j n + |i - j| := by rw [hk, add_comm]
  · rw [reflected_of_le_one hn, reflected_of_le_one hn, Nat.cast_zero, zero_add]
    exact abs_nonneg _

/-- **Mirroring never moves apart.** -/
theorem abs_reflected_sub_le (n : ℕ) (i j : ℤ) :
    |(reflected i n : ℤ) - reflected j n| ≤ |i - j| := by
  refine abs_sub_le_iff.mpr ⟨?_, ?_⟩
  · exact sub_le_iff_le_add'.mpr (reflected_le_add_abs_sub n i j)
  · rw [abs_sub_comm i j]
    exact sub_le_iff_le_add'.mpr (reflected_le_add_abs_sub n j i)

/-- **What shows beside an index is no farther away** than the index at which it
shows. -/
theorem reflected_near (hx : x < n) {d : ℤ} {e : ℕ} (hlow : -e ≤ d) (hhigh : d ≤ e) :
    x ≤ reflected (x + d) n + e ∧ reflected (x + d) n ≤ x + e := by
  have hnear := abs_reflected_sub_le n (x + d) x
  rw [reflected_natCast hx, add_sub_cancel_left] at hnear
  have hboth := abs_le.mp (hnear.trans (abs_le.mpr ⟨hlow, hhigh⟩))
  omega

/-! ## The laws -/

/-- **The laws of mirroring.** In a range that is not empty all indices show one of
the range, and those of the range show themselves. Both sides of the first index
show the same, and so do both sides of the last one; seen from the other end an
index shows the same. Two indices never show farther apart than they are. -/
theorem reflected_laws (hn : 0 < n) :
    (∀ i : ℤ, reflected i n < n) ∧
    (∀ i : ℤ, 0 ≤ i → i < n → (reflected i n : ℤ) = i) ∧
    (∀ i : ℤ, reflected (-i) n = reflected i n) ∧
    (∀ i : ℤ, reflected (n - 1 + i) n = reflected (n - 1 - i) n) ∧
    (∀ i : ℤ, (reflected (n - 1 - i) n : ℤ) = n - 1 - reflected i n) ∧
    ∀ i j : ℤ, |(reflected i n : ℤ) - reflected j n| ≤ |i - j| := by
  refine ⟨reflected_lt hn, fun i hlow hhigh => ?_, reflected_neg n, reflected_add_eq_sub hn,
    fun i => ?_, abs_reflected_sub_le n⟩
  · obtain ⟨x, rfl⟩ := Int.eq_ofNat_of_zero_le hlow
    rw [reflected_natCast (by omega)]
  · have hlt := reflected_lt hn i
    rw [reflected_flip hn]
    omega

/-- Three periods to the left of a range of five, and three to the right. -/
theorem reflected_laws_of_five :
    0 < 5 ∧ reflected (-23) 5 = 1 ∧ reflected 23 5 = 1 ∧ reflected (-19) 5 = 3 ∧
      |(reflected (-23) 5 : ℤ) - reflected (-19) 5| ≤ 4 := by
  obtain ⟨-, -, hneg, -, hflip, happart⟩ := reflected_laws (n := 5) (by decide)
  have hright : reflected 23 5 = 1 := by decide
  have hfar : (reflected (-19) 5 : ℤ) = 5 - 1 - reflected 23 5 := hflip 23
  rw [hright] at hfar
  exact ⟨by decide, (hneg 23).trans hright, hright, by omega, happart (-23) (-19)⟩

end Montage
