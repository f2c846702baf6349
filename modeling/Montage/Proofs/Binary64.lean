import Montage.Settings
/-!
# Binary64 — a double beside zero

A comparison of doubles is one of what they unpack to: a zero, an infinity, a
finite number, or no number. There are two zeros, which compare as equal. So
a double at or above zero is above it exactly when it is not equal to it
(`zero_lt_iff`), and a percentage is a case of that.
-/

namespace Montage

namespace Binary64

/-! ## Comparisons, unpacked -/

theorem unpack_zero : (0.0 : Float).toModel.unpack = .zero .positive := rfl

theorem le_iff_unpack (x y : Float) : x ≤ y ↔ x.toModel.unpack.le y.toModel.unpack = true :=
  decide_eq_true_iff

theorem lt_iff_unpack (x y : Float) : x < y ↔ x.toModel.unpack.lt y.toModel.unpack = true :=
  decide_eq_true_iff

theorem beq_eq_unpack (x y : Float) : (x == y) = x.toModel.unpack.beq y.toModel.unpack := rfl

/-! ## Above zero -/

/-- **From zero up, above zero is what is not equal to it.** -/
theorem zero_lt_iff {x : Float} (h : 0.0 ≤ x) : 0.0 < x ↔ (x == 0.0) = false := by
  rw [le_iff_unpack, unpack_zero] at h
  rw [lt_iff_unpack, beq_eq_unpack, unpack_zero]
  cases hx : x.toModel.unpack with
  | notANumber => rw [hx] at h; cases h
  | zero s => exact ⟨nofun, nofun⟩
  | infinity s =>
    cases s with
    | negative => rw [hx] at h; cases h
    | positive => exact ⟨fun _ => rfl, fun _ => rfl⟩
  | finite s m e hm =>
    cases s with
    | negative => rw [hx] at h; cases h
    | positive => exact ⟨fun _ => rfl, fun _ => rfl⟩

/-- What is above zero is not below it. -/
theorem zero_le_of_lt {x : Float} (h : 0.0 < x) : 0.0 ≤ x := by
  rw [lt_iff_unpack, unpack_zero] at h
  rw [le_iff_unpack, unpack_zero]
  cases hx : x.toModel.unpack with
  | notANumber => rw [hx] at h; cases h
  | zero s => rfl
  | infinity s =>
    cases s with
    | negative => rw [hx] at h; cases h
    | positive => rfl
  | finite s m e hm =>
    cases s with
    | negative => rw [hx] at h; cases h
    | positive => rfl

end Binary64

theorem isPercentage_of_pos {opacity : Float} (hlow : 0.0 < opacity) (hhigh : opacity ≤ 100.0) :
    isPercentage opacity = true :=
  Bool.and_eq_true_iff.mpr
    ⟨decide_eq_true (Binary64.zero_le_of_lt hlow), decide_eq_true hhigh⟩

/-- A percentage is above zero exactly when it is not equal to it. -/
theorem zero_lt_iff_of_isPercentage {opacity : Float} (h : isPercentage opacity = true) :
    0.0 < opacity ↔ (opacity == 0.0) = false := by
  obtain ⟨hlow, -⟩ := Bool.and_eq_true_iff.mp h
  exact Binary64.zero_lt_iff (of_decide_eq_true hlow)

end Montage
