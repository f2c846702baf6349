import Mathlib.Algebra.Order.Field.Rat
import Mathlib.Tactic.Linarith
import Mathlib.Tactic.Ring
import Montage.Color
/-!
# Colours — what mixing two of them yields

A channel of a mixed colour is the mean of two values under a weight, rounded to
a whole number. The mean is a whole number of 255ths. As 255 is odd, it is never
halfway between two whole numbers, so one of them is nearest, and that is the one
taken (`mixChannel_nearest`).

Rounding keeps order, so everything else about a channel is read at the sum that
is divided (`mixChannel_le_mixChannel`). The sum grows with both values, and with
the weight of the greater one. Hence the channel lies between the two values, and as
the weight grows it moves from the lower value to the upper one
(`inOrder_mixChannel`).
-/

namespace Montage

variable {a a' f b : UInt8}

/-! ## Nearest whole numbers -/

/-- The number is nearer to a quantity than any other whole number. -/
def Nearest (n : ℤ) (q : ℚ) : Prop := ∀ k : ℤ, k ≠ n → |(n : ℚ) - q| < |(k : ℚ) - q|

/-- A whole number less than half away from a quantity is nearest to it. -/
theorem nearest_of_abs_sub_lt {n : ℤ} {q : ℚ} (h : |(n : ℚ) - q| < 1 / 2) : Nearest n q := by
  intro k hk
  have hone : (1 : ℚ) ≤ |(k : ℚ) - n| := by exact_mod_cast Int.one_le_abs (sub_ne_zero.mpr hk)
  have htriangle : |(k : ℚ) - n| ≤ |(k : ℚ) - q| + |(n : ℚ) - q| := by
    rw [abs_sub_comm (n : ℚ) q]
    exact abs_sub_le (k : ℚ) q n
  linarith

/-! ## The sum that is divided -/

/-- The sum of two values with a weight out of 255 for the first. -/
def weightedSum (weight upper lower : UInt8) : ℕ :=
  upper.toNat * weight.toNat + lower.toNat * (255 - weight.toNat)

theorem weight_le (weight : UInt8) : weight.toNat ≤ 255 := Nat.le_of_lt_succ weight.toNat_lt

theorem weightedSum_self (weight v : UInt8) : weightedSum weight v v = v.toNat * 255 := by
  rw [weightedSum, ← Nat.mul_add, Nat.add_sub_cancel' (weight_le weight)]

theorem weightedSum_mono {upper upper' lower lower' : UInt8} (weight : UInt8)
    (hupper : upper ≤ upper') (hlower : lower ≤ lower') :
    weightedSum weight upper lower ≤ weightedSum weight upper' lower' :=
  Nat.add_le_add (Nat.mul_le_mul_right _ (UInt8.le_iff_toNat_le.mp hupper))
    (Nat.mul_le_mul_right _ (UInt8.le_iff_toNat_le.mp hlower))

/-- What a greater weight changes is the difference of the values. -/
theorem weightedSum_add_mul (ha : a ≤ a') (upper lower : UInt8) :
    weightedSum a upper lower + (a'.toNat - a.toNat) * upper.toNat =
      weightedSum a' upper lower + (a'.toNat - a.toNat) * lower.toNat := by
  have hle : a.toNat ≤ a'.toNat := UInt8.le_iff_toNat_le.mp ha
  have ha' := weight_le a'
  obtain ⟨d, hd⟩ := Nat.exists_eq_add_of_le hle
  obtain ⟨r, hr⟩ := Nat.exists_eq_add_of_le ha'
  have hrest : 255 - a.toNat = d + r := by omega
  have hrest' : 255 - a'.toNat = r := by omega
  rw [weightedSum, weightedSum, hrest, hrest', hd, Nat.add_sub_cancel_left]
  ring

theorem weightedSum_le_of_weight_le (ha : a ≤ a') (hbf : b ≤ f) :
    weightedSum a f b ≤ weightedSum a' f b := by
  have hsum := weightedSum_add_mul ha f b
  have hmul := Nat.mul_le_mul_left (a'.toNat - a.toNat) (UInt8.le_iff_toNat_le.mp hbf)
  omega

theorem weightedSum_le_of_weight_ge (ha : a ≤ a') (hfb : f ≤ b) :
    weightedSum a' f b ≤ weightedSum a f b := by
  have hsum := weightedSum_add_mul ha f b
  have hmul := Nat.mul_le_mul_left (a'.toNat - a.toNat) (UInt8.le_iff_toNat_le.mp hfb)
  omega

theorem weightedSum_le (weight upper lower : UInt8) : weightedSum weight upper lower ≤ 255 * 255 := by
  have h255 (v : UInt8) : v ≤ 255 := UInt8.le_iff_toNat_le.mpr (weight_le v)
  exact (weightedSum_mono weight (h255 upper) (h255 lower)).trans_eq (weightedSum_self weight 255)

/-! ## One channel -/

/-- **A channel is not cut off**: the rounded mean is a value itself. -/
theorem toNat_mixChannel (weight upper lower : UInt8) :
    (mixChannel weight upper lower).toNat = (weightedSum weight upper lower + 127) / 255 := by
  have hle := weightedSum_le weight upper lower
  refine UInt8.toNat_ofNat_of_lt' (show (weightedSum weight upper lower + 127) / 255 < 256 from ?_)
  omega

theorem mixChannel_le_mixChannel {upper upper' lower lower' : UInt8}
    (h : weightedSum a upper lower ≤ weightedSum a' upper' lower') :
    mixChannel a upper lower ≤ mixChannel a' upper' lower' := by
  rw [UInt8.le_iff_toNat_le, toNat_mixChannel, toNat_mixChannel]
  exact Nat.div_le_div_right (Nat.add_le_add_right h 127)

theorem mixChannel_eq_of_weightedSum {v : UInt8} (h : weightedSum a f b = v.toNat * 255) :
    mixChannel a f b = v := by
  refine UInt8.toNat_inj.mp ?_
  rw [toNat_mixChannel, h]
  omega

/-- A value mixed with itself is that value, whatever the weights. -/
theorem mixChannel_self (weight v : UInt8) : mixChannel weight v v = v :=
  mixChannel_eq_of_weightedSum (weightedSum_self weight v)

/-- **A weight of zero yields the lower value.** The half that is added for
rounding is not enough for another one. -/
theorem mixChannel_zero (upper lower : UInt8) : mixChannel 0 upper lower = lower :=
  mixChannel_eq_of_weightedSum (Nat.zero_add _)

/-- **And the full weight the upper one.** -/
theorem mixChannel_full (upper lower : UInt8) : mixChannel 255 upper lower = upper :=
  mixChannel_eq_of_weightedSum (Nat.add_zero _)

/-- The mean of two values with a weight out of 255 for the first. -/
def weightedMean (weight upper lower : UInt8) : ℚ :=
  ((upper.toNat : ℚ) * weight.toNat + lower.toNat * (255 - weight.toNat)) / 255

theorem weightedMean_eq (weight upper lower : UInt8) :
    weightedMean weight upper lower = weightedSum weight upper lower / 255 := by
  rw [weightedMean, weightedSum]
  push_cast [weight_le weight]
  rfl

/-- **A channel is the whole number nearest to the mean.** Rounding adds at most 127
of 255 parts. -/
theorem mixChannel_nearest (weight upper lower : UInt8) :
    Nearest (mixChannel weight upper lower).toNat (weightedMean weight upper lower) := by
  refine nearest_of_abs_sub_lt ?_
  rw [weightedMean_eq, toNat_mixChannel]
  have hdiv := Nat.div_add_mod (weightedSum weight upper lower + 127) 255
  have hmod : (weightedSum weight upper lower + 127) % 255 < 255 := Nat.mod_lt _ (by omega)
  have hlow : 255 * ((weightedSum weight upper lower + 127) / 255) ≤
      weightedSum weight upper lower + 127 := by omega
  have hhigh : weightedSum weight upper lower ≤
      255 * ((weightedSum weight upper lower + 127) / 255) + 127 := by omega
  generalize weightedSum weight upper lower = n at *
  generalize (n + 127) / 255 = q at *
  have hlow' : (255 * q : ℚ) ≤ n + 127 := by exact_mod_cast hlow
  have hhigh' : (n : ℚ) ≤ 255 * q + 127 := by exact_mod_cast hhigh
  rw [Int.cast_natCast, abs_lt]
  constructor <;> linarith

/-- Four values in order, upwards or downwards. -/
def InOrder (v₁ v₂ v₃ v₄ : UInt8) : Prop :=
  v₁ ≤ v₂ ∧ v₂ ≤ v₃ ∧ v₃ ≤ v₄ ∨ v₄ ≤ v₃ ∧ v₃ ≤ v₂ ∧ v₂ ≤ v₁

theorem InOrder.between {v₁ v₂ v₃ v₄ : UInt8} (h : InOrder v₁ v₂ v₃ v₄) :
    v₁ ≤ v₂ ∧ v₂ ≤ v₄ ∨ v₄ ≤ v₂ ∧ v₂ ≤ v₁ :=
  h.imp (fun h => ⟨h.1, UInt8.le_trans h.2.1 h.2.2⟩) fun h => ⟨UInt8.le_trans h.1 h.2.1, h.2.2⟩

/-- The third value is no further from the fourth than the second is. -/
theorem InOrder.abs_sub_le {v₁ v₂ v₃ v₄ : UInt8} (h : InOrder v₁ v₂ v₃ v₄) :
    |(v₃.toNat : ℤ) - v₄.toNat| ≤ |(v₂.toNat : ℤ) - v₄.toNat| := by
  simp only [InOrder, UInt8.le_iff_toNat_le] at h
  rcases h with h | h
  · rw [abs_of_nonpos (by omega), abs_of_nonpos (by omega)]
    omega
  · rw [abs_of_nonneg (by omega), abs_of_nonneg (by omega)]
    omega

/-- **As the weight grows, a channel moves from the lower value to the upper
one** and stays between them. -/
theorem inOrder_mixChannel (ha : a ≤ a') (f b : UInt8) :
    InOrder b (mixChannel a f b) (mixChannel a' f b) f := by
  rcases UInt8.le_total b f with hbf | hfb
  · refine .inl ⟨?_, mixChannel_le_mixChannel (weightedSum_le_of_weight_le ha hbf), ?_⟩
    · calc b = mixChannel a b b := (mixChannel_self a b).symm
        _ ≤ mixChannel a f b := mixChannel_le_mixChannel (weightedSum_mono a hbf (UInt8.le_refl _))
    · calc mixChannel a' f b ≤ mixChannel a' f f :=
            mixChannel_le_mixChannel (weightedSum_mono a' (UInt8.le_refl _) hbf)
        _ = f := mixChannel_self a' f
  · refine .inr ⟨?_, mixChannel_le_mixChannel (weightedSum_le_of_weight_ge ha hfb), ?_⟩
    · calc f = mixChannel a' f f := (mixChannel_self a' f).symm
        _ ≤ mixChannel a' f b := mixChannel_le_mixChannel (weightedSum_mono a' (UInt8.le_refl _) hfb)
    · calc mixChannel a f b ≤ mixChannel a b b :=
            mixChannel_le_mixChannel (weightedSum_mono a hfb (UInt8.le_refl _))
        _ = b := mixChannel_self a b

/-! ## Colours -/

/-- The channels of a colour. -/
def Rgb.channels : List (Rgb → UInt8) := [red, green, blue]

/-- Colours mix channel by channel. -/
theorem Rgb.channel_mixed {channel : Rgb → UInt8} (h : channel ∈ channels) (weight : UInt8)
    (upper lower : Rgb) :
    channel (mixed weight upper lower) = mixChannel weight (channel upper) (channel lower) := by
  simp only [channels, List.mem_cons, List.not_mem_nil, or_false] at h
  rcases h with rfl | rfl | rfl <;> rfl

/-- **As the weight grows, each channel of a colour moves from the lower one to the
upper one** and stays between them. -/
theorem Rgb.inOrder_mixed {channel : Rgb → UInt8} (h : channel ∈ channels) (ha : a ≤ a')
    (upper lower : Rgb) :
    InOrder (channel lower) (channel (mixed a upper lower)) (channel (mixed a' upper lower))
      (channel upper) := by
  rw [channel_mixed h, channel_mixed h]
  exact inOrder_mixChannel ha _ _

theorem Rgb.mixed_zero (upper lower : Rgb) : mixed 0 upper lower = lower := by
  simp only [mixed, zipChannels, mixChannel_zero]

theorem Rgb.mixed_full (upper lower : Rgb) : mixed 255 upper lower = upper := by
  simp only [mixed, zipChannels, mixChannel_full]

end Montage
