import Mathlib
import Montage.Proofs.Binary64
import Montage.Proofs.Exact
/-!
# Lawful arithmetic — what measurements rely on

Whatever numbers are measured with, a comparison of two of them has an answer,
the answers are those of an order, and a root of what is not below zero is a
number. `Geometric.Lawful` is just that. Exact arithmetic has it, and so have
doubles, where some values are no number and where rounding leaves none of the
laws of a field: doubles compare as their places do (`unpacked_le_iff`), and a
double that was packed is no number only if there was none to pack
(`unpack_pack_ne`).
-/

namespace Montage

/-- **Lawful arithmetic.** The test `le` orders the numbers, zero is one of them,
and so is the root of a number that is not below zero. -/
class Geometric.Lawful (α : Type) [Geometric α] : Prop where
  le_trans : ∀ x y z : α, Scalar.le x y = true → Scalar.le y z = true → Scalar.le x z = true
  le_total : ∀ x y : α, Scalar.isNumber x = true → Scalar.isNumber y = true →
    Scalar.le x y = true ∨ Scalar.le y x = true
  isNumber_zero : Scalar.isNumber (Scalar.zero : α) = true
  not_zero_lt_zero : Scalar.lt (Scalar.zero : α) Scalar.zero = false
  isNumber_sqrt : ∀ x : α, Scalar.isNumber x = true → Scalar.lt x Scalar.zero = false →
    Scalar.isNumber (Geometric.sqrt x) = true

/-- The greater of a scalar and zero is a number that is not below zero. -/
theorem Geometric.Lawful.greatest_zero {α : Type} [Geometric α] [Geometric.Lawful α] (x : α) :
    Scalar.isNumber (Scalar.greatest x Scalar.zero) = true ∧
      Scalar.lt (Scalar.greatest x Scalar.zero) Scalar.zero = false := by
  rw [Scalar.greatest]
  split
  · next hx =>
    split
    · exact ⟨isNumber_zero, not_zero_lt_zero⟩
    · next hlt => exact ⟨hx, Bool.eq_false_iff.mpr hlt⟩
  · exact ⟨isNumber_zero, not_zero_lt_zero⟩

instance Geometric.lawful_real : Geometric.Lawful ℝ where
  le_trans x y z hxy hyz := by
    rw [Scalar.le_exact] at hxy hyz ⊢
    exact hxy.trans hyz
  le_total x y _ _ := by
    rw [Scalar.le_exact, Scalar.le_exact]
    exact le_total x y
  isNumber_zero := Scalar.isNumber_exact _
  not_zero_lt_zero := by
    rw [← Bool.not_eq_true, Scalar.lt_exact]
    exact lt_irrefl _
  isNumber_sqrt _ _ _ := Scalar.isNumber_exact _

/-! ## Doubles -/

namespace Binary64

open Float.Model Float.Model.UnpackedFloat

/-- The place of a number among all numbers, told by its sign and kind first, then
by its exponent and its mantissa. -/
def place : UnpackedFloat → ℤ ×ₗ ℤ ×ₗ ℤ
  | .infinity .negative => toLex (-2, toLex (0, 0))
  | .finite .negative m e _ => toLex (-1, toLex (-e, -m))
  | .finite .positive m e _ => toLex (1, toLex (e, m))
  | .infinity .positive => toLex (2, toLex (0, 0))
  | .zero _ | .notANumber => toLex (0, toLex (0, 0))

/-- **Numbers compare as their places do.** -/
theorem unpacked_le_iff {x y : UnpackedFloat} (hx : x ≠ .notANumber) (hy : y ≠ .notANumber) :
    x.le y = true ↔ place x ≤ place y := by
  rcases x with (_ | _) | _ | _ | ⟨_ | _, m, e, hm⟩ <;>
    rcases y with (_ | _) | _ | _ | ⟨_ | _, m', e', hm'⟩
  case finite.negative.finite.negative =>
    rw [UnpackedFloat.le, UnpackedFloat.compare, Option.any_some, Ordering.swap_then,
      Int.compare_swap, Nat.compare_swap, Ordering.isLE_then_iff_or, Int.compare_eq_lt,
      Int.compare_eq_eq, Nat.isLE_compare]
    simp only [place, Prod.Lex.toLex_le_toLex, lt_irrefl, false_or, true_and]
    omega
  case finite.positive.finite.positive =>
    rw [UnpackedFloat.le, UnpackedFloat.compare, Option.any_some, Ordering.isLE_then_iff_or,
      Int.compare_eq_lt, Int.compare_eq_eq, Nat.isLE_compare]
    simp only [place, Prod.Lex.toLex_le_toLex, lt_irrefl, false_or, true_and]
    omega
  -- all other pairs differ in sign or kind, or have nothing else to compare
  all_goals
    first
    | exact absurd rfl hx
    | exact absurd rfl hy
    | decide
    | simp [UnpackedFloat.le, UnpackedFloat.compare, place, Prod.Lex.toLex_le_toLex]

/-- What compares with anything is a number. -/
theorem ne_notANumber_of_le {x y : UnpackedFloat} (h : x.le y = true) :
    x ≠ .notANumber ∧ y ≠ .notANumber := by
  constructor
  · rintro rfl
    cases h
  · rintro rfl
    cases x <;> cases h

theorem isNumber_iff_unpack (x : Float) :
    Scalar.isNumber x = true ↔ x.toModel.unpack ≠ .notANumber := by
  constructor
  · intro h
    exact (ne_notANumber_of_le ((le_iff_unpack x x).mp (of_decide_eq_true h))).1
  · intro h
    exact decide_eq_true ((le_iff_unpack x x).mpr ((unpacked_le_iff h h).mpr le_rfl))

/-- **The order of doubles**: two numbers, in the order of their places. -/
theorem le_iff_place (x y : Float) :
    Scalar.le x y = true ↔ Scalar.isNumber x = true ∧ Scalar.isNumber y = true ∧
      place x.toModel.unpack ≤ place y.toModel.unpack := by
  have hle : Scalar.le x y = true ↔ x.toModel.unpack.le y.toModel.unpack = true :=
    decide_eq_true_iff.trans (le_iff_unpack x y)
  rw [hle, isNumber_iff_unpack, isNumber_iff_unpack]
  constructor
  · intro h
    obtain ⟨hx, hy⟩ := ne_notANumber_of_le h
    exact ⟨hx, hy, (unpacked_le_iff hx hy).mp h⟩
  · rintro ⟨hx, hy, h⟩
    exact (unpacked_le_iff hx hy).mpr h

/-- What is packed from parts is a number, or an infinity, unless its exponent is
all ones and its mantissa is not all zeros. -/
theorem unpack_packComponents_ne (spec : Float.Model.Format) (s : Sign)
    {e : BitVec spec.exponentBits} {m : BitVec spec.mantissaBitsWithoutImplicit}
    (h : e = -1#_ → m = 0#_) : unpack spec (packComponents spec s e m) ≠ .notANumber := by
  simp only [UnpackedFloat.unpack, unpackMantissa_packComponents, unpackExponent_packComponents]
  split
  · next he =>
    rw [if_pos (h he)]
    nofun
  · split
    · split <;> nofun
    · nofun

/-- **Packing makes nothing that is no number.** -/
theorem unpack_pack_ne (spec : Float.Model.Format) {f : UnpackedFloat} (h : f ≠ .notANumber) :
    unpack spec (UnpackedFloat.pack spec f) ≠ .notANumber := by
  have hones : (-1#(spec.exponentBits)).toNat = 2 ^ spec.exponentBits - 1 := by
    rw [BitVec.neg_one_eq_allOnes, BitVec.toNat_allOnes]
  fun_cases UnpackedFloat.pack spec f with
  | case1 => exact absurd rfl h
  | case2 s => exact unpack_packComponents_ne spec s fun _ => rfl
  | case3 s => exact unpack_packComponents_ne spec s fun _ => rfl
  | case4 s m e hm biased hlarge => exact unpack_packComponents_ne spec s fun _ => rfl
  | case5 s m e hm bits biased hsmall hnormal =>
    refine unpack_packComponents_ne spec s fun he => absurd (congrArg BitVec.toNat he) ?_
    rw [hones, BitVec.toNat_ofNat, Nat.mod_eq_of_lt (by omega)]
    omega
  | case6 s m e hm bits biased hsmall hsub =>
    refine unpack_packComponents_ne spec s fun he => absurd (congrArg BitVec.toNat he) ?_
    have hbits : 2 ≤ 2 ^ spec.exponentBits := Nat.le_self_pow spec.he.ne' 2
    rw [hones, BitVec.toNat_zero]
    omega

theorem roundWithAccuracy_ne (spec : Float.Model.Format) (s : Sign) (m : ℕ) (e : ℤ) (a : Accuracy) :
    roundWithAccuracy spec s m e a ≠ .notANumber := by
  unfold roundWithAccuracy
  dsimp only
  split <;> nofun

/-- The root of what is not below zero is a number. -/
theorem unpacked_sqrt_ne (spec : Float.Model.Format) {f : UnpackedFloat} (h : f ≠ .notANumber)
    (hzero : f.lt (.zero .positive) = false) : f.sqrt spec ≠ .notANumber := by
  cases f with
  | notANumber => exact absurd rfl h
  | zero s => nofun
  | infinity s =>
    cases s with
    | negative => cases hzero
    | positive => nofun
  | finite s m e hm =>
    cases s with
    | negative => cases hzero
    | positive => exact roundWithAccuracy_ne spec _ _ _ _

end Binary64

instance Geometric.lawful_float : Geometric.Lawful Float where
  le_trans x y z hxy hyz := by
    rw [Binary64.le_iff_place] at hxy hyz ⊢
    exact ⟨hxy.1, hyz.2.1, hxy.2.2.trans hyz.2.2⟩
  le_total x y hx hy := by
    rw [Binary64.le_iff_place, Binary64.le_iff_place]
    exact (le_total _ _).imp (fun h => ⟨hx, hy, h⟩) fun h => ⟨hy, hx, h⟩
  isNumber_zero := by decide
  not_zero_lt_zero := rfl
  isNumber_sqrt x hx hzero := by
    rw [Binary64.isNumber_iff_unpack] at hx ⊢
    refine Binary64.unpack_pack_ne Float.Model.Format.binary64
      (Binary64.unpacked_sqrt_ne Float.Model.Format.binary64 hx ?_)
    rw [← Bool.not_eq_true] at hzero ⊢
    exact fun h => hzero (decide_eq_true ((Binary64.lt_iff_unpack x _).mpr h))

end Montage
