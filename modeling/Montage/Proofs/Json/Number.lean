import Mathlib.Tactic.SplitIfs
import Montage.Proofs.Json.Tree
/-!
# JSON — numbers are read as they are written

The scanner takes a number part by part, and each part ends where its digits
do. So the token of a number has its bytes and no others
(`scanNumber_literal`), as long as what follows could not go on with the
number. What a number stands for does not depend on where it stands.
-/

namespace Montage

namespace Json

variable {rest : List UInt8}

/-- The bytes do not begin with a digit. -/
def NoDigit (bytes : List UInt8) : Prop := ∀ b, bytes.head? = some b → isDigit b = false

/-- No number goes on with the bytes. -/
def EndsNumber (bytes : List UInt8) : Prop :=
  ∀ b, bytes.head? = some b → isDigit b = false ∧ b ≠ 46 ∧ b ≠ 101 ∧ b ≠ 69

theorem EndsNumber.noDigit (h : EndsNumber rest) : NoDigit rest := fun b hb => (h b hb).1

theorem NoDigit.head_any (h : NoDigit rest) : rest.head?.any isDigit = false := by
  cases rest with
  | nil => rfl
  | cons b rest => exact h b rfl

/-! ## Digits -/

namespace Digits

theorem exists_cons (d : Digits) : ∃ b ds, d.bytes = b :: ds ∧ isDigit b = true := by
  obtain ⟨b, ds, hb⟩ := List.exists_cons_of_ne_nil d.nonempty
  exact ⟨b, ds, hb, d.areDigits b (by rw [hb]; exact List.mem_cons_self)⟩

/-- A run of digits ends where it does. -/
theorem takeWhile_append (d : Digits) (h : NoDigit rest) :
    (d.bytes ++ rest).takeWhile isDigit = d.bytes := by
  have hrest : rest.takeWhile isDigit = [] := by
    cases rest with
    | nil => rfl
    | cons b rest => rw [List.takeWhile_cons, h b rfl]; rfl
  rw [List.takeWhile_append_of_pos d.areDigits, hrest, List.append_nil]

end Digits

/-! ## Exponents -/

theorem toOption_finishReal (minus : Bool) (offset : Nat) (m : Option Float) :
    (finishReal minus offset m).toOption = Literal.real minus m := by
  cases m <;> rfl

theorem toOption_wholeNumber (minus : Bool) (offset : Nat) (digits : List UInt8) :
    (wholeNumber minus offset digits).toOption = (wholeNumber minus 0 digits).toOption := by
  unfold wholeNumber
  dsimp only
  split_ifs <;> simp only [toOption_finishReal]

/-- **An exponent is taken whole.** -/
theorem scanExponent_exponent (e : Exponent) (h : NoDigit rest) (minus : Bool)
    (p : Number.Parts) (offset taken : Nat) :
    ∃ v, scanExponent minus p offset taken (e.signBytes ++ (e.digits.bytes ++ rest))
        = .made (.number v) (taken + e.signBytes.length + e.digits.bytes.length) ∧
      v.toOption = Literal.raised minus p e := by
  obtain ⟨b, ds, hb, hdigit⟩ := e.digits.exists_cons
  have hcons : e.digits.bytes ++ rest = b :: (ds ++ rest) := by
    rw [hb]
    rfl
  have hplus : b ≠ 43 := by
    rintro rfl
    cases hdigit
  have hminus : b ≠ 45 := by
    rintro rfl
    cases hdigit
  have hdown : ((e.signBytes ++ (e.digits.bytes ++ rest)).head? == some 45) = e.down := by
    rw [hcons, Exponent.signBytes, Exponent.down]
    rcases e.sign with _ | _ | _ <;> simp [hminus]
  have hsigned : ((e.signBytes ++ (e.digits.bytes ++ rest)).head? == some 43 || e.down)
      = e.sign.isSome := by
    rw [hcons, Exponent.signBytes, Exponent.down]
    rcases e.sign with _ | _ | _ <;> simp [hplus]
  have hskip : (if e.sign.isSome then 1 else 0) = e.signBytes.length := by
    rw [Exponent.signBytes]
    rcases e.sign with _ | _ | _ <;> rfl
  unfold scanExponent Literal.raised
  simp only [hdown, hsigned, hskip, List.drop_left, e.digits.takeWhile_append h]
  simp only [hcons, hdigit, Bool.not_true, Bool.false_eq_true, if_false]
  by_cases hlimit : digitsValue e.digits.bytes ≤ exponentLimit
  · simp only [gt_iff_lt, Nat.not_lt.mpr hlimit, hlimit, if_true, if_false]
    exact ⟨_, rfl, toOption_finishReal ..⟩
  · simp only [gt_iff_lt, Nat.lt_of_not_le hlimit, hlimit, if_true, if_false]
    by_cases hzero : p.significand = 0 ∨ e.down
    · have hnone : (p.significand ≠ 0 && !e.down) = false := by
        rcases hzero with hzero | hzero <;> simp [hzero]
      have hsome : (p.significand = 0 || e.down) = true := by
        rcases hzero with hzero | hzero <;> simp [hzero]
      simp only [hnone, hsome, if_true]
      exact ⟨_, rfl, toOption_finishReal ..⟩
    · obtain ⟨hzero, hdown⟩ := not_or.mp hzero
      simp only [ne_eq, hzero, hdown, not_false_eq_true, decide_true, Bool.not_false, Bool.and_true,
        if_true, decide_false, Bool.or_false, Bool.false_eq_true, if_false]
      exact ⟨_, rfl, rfl⟩

/-! ## Whole numbers -/

/-- An exponent begins with its letter, which is no digit. -/
theorem noDigit_exponentBytes (l : Literal) (h : NoDigit rest) :
    NoDigit (l.exponentBytes ++ rest) := by
  intro b hb
  unfold Literal.exponentBytes at hb
  split at hb
  · exact h b hb
  · next e _ =>
    cases hb
    rw [Exponent.letter]
    split <;> rfl

/-- A fraction begins with its point. -/
theorem noDigit_fractionBytes (l : Literal) (h : NoDigit rest) :
    NoDigit (l.fractionBytes ++ rest) := by
  intro b hb
  unfold Literal.fractionBytes at hb
  split at hb
  · exact h b hb
  · cases hb
    rfl

/-- An exponent behind its letter, whichever that is. -/
theorem scanExponent_letter (e : Exponent) (h : NoDigit rest) (minus : Bool) (p : Number.Parts)
    (offset taken : Nat) :
    ∃ v, scanExponent minus p (offset + 1) (taken + 1) (e.signBytes ++ e.digits.bytes ++ rest)
        = .made (.number v) (taken + (e.letter :: (e.signBytes ++ e.digits.bytes)).length) ∧
      v.toOption = Literal.raised minus p e := by
  obtain ⟨v, hv, hvalue⟩ := scanExponent_exponent e h minus p (offset + 1) (taken + 1)
  refine ⟨v, ?_, hvalue⟩
  rw [List.append_assoc, hv, List.length_cons, List.length_append]
  congr 1
  omega

/-- **What follows the whole part is taken whole**, and the number is what it
stands for. -/
theorem scanFraction_literal (l : Literal) (h : EndsNumber rest) (offset taken : Nat) :
    ∃ v, scanFraction l.minus l.whole.bytes offset taken
        (l.fractionBytes ++ (l.exponentBytes ++ rest))
        = .made (.number v) (taken + l.fractionBytes.length + l.exponentBytes.length) ∧
      v.toOption = l.value := by
  have htail := noDigit_exponentBytes l h.noDigit
  obtain ⟨minus, whole, shortest, fraction, exponent⟩ := l
  have hpoint {tail : List UInt8} : rest ≠ 46 :: tail := fun he => (h 46 (by rw [he]; rfl)).2.1 rfl
  have hsmall {tail : List UInt8} : rest ≠ 101 :: tail :=
    fun he => (h 101 (by rw [he]; rfl)).2.2.1 rfl
  have hcapital {tail : List UInt8} : rest ≠ 69 :: tail :=
    fun he => (h 69 (by rw [he]; rfl)).2.2.2 rfl
  unfold scanFraction Literal.value
  cases fraction with
  | none =>
    simp only [Literal.fractionBytes, List.nil_append]
    cases exponent with
    | none =>
      simp only [Literal.exponentBytes, List.nil_append]
      exact ⟨_, rfl, toOption_wholeNumber ..⟩
    | some e =>
      have hexponent := scanExponent_letter e h.noDigit minus
        (whole.bytes.foldl (fun p d => p.wholeDigit (digitValue d)) ⟨0, 0⟩) offset taken
      simp only [Literal.exponentBytes, List.cons_append, Exponent.letter] at hexponent ⊢
      cases e.capital <;> exact hexponent
  | some digits =>
    obtain ⟨b, ds, hb, -⟩ := digits.exists_cons
    have hnonempty : digits.bytes.isEmpty = false := by
      rw [hb]
      rfl
    simp only [Literal.fractionBytes, List.cons_append, digits.takeWhile_append htail, hnonempty,
      Bool.false_eq_true, if_false, List.drop_left]
    cases exponent with
    | none =>
      simp only [Literal.exponentBytes, List.nil_append]
      refine ⟨_, congrArg (Scan.made _) ?_, toOption_finishReal ..⟩
      rw [List.length_cons, List.length_nil]
      omega
    | some e =>
      have htaken : taken + 1 + digits.bytes.length = taken + (46 :: digits.bytes).length := by
        rw [List.length_cons]
        omega
      have hexponent := scanExponent_letter e h.noDigit minus
        (Literal.parts ⟨minus, whole, shortest, some digits, some e⟩)
        (offset + 1 + digits.bytes.length) (taken + (46 :: digits.bytes).length)
      simp only [Literal.exponentBytes, List.cons_append, Exponent.letter, htaken] at hexponent ⊢
      cases e.capital <;> exact hexponent

/-- **A number is taken whole**, from its first digit on. -/
theorem scanNumber_literal (l : Literal) (h : EndsNumber rest) (offset before : Nat) :
    ∃ v, scanNumber l.minus offset before
        (l.whole.bytes ++ (l.fractionBytes ++ (l.exponentBytes ++ rest)))
        = .made (.number v)
          (before + l.whole.bytes.length + l.fractionBytes.length + l.exponentBytes.length) ∧
      v.toOption = l.value := by
  obtain ⟨b, ds, hb, hdigit⟩ := l.whole.exists_cons
  have htail := noDigit_fractionBytes l (noDigit_exponentBytes l h.noDigit)
  have hfraction := scanFraction_literal l h (offset + l.whole.bytes.length)
    (before + l.whole.bytes.length)
  have hcons : l.whole.bytes ++ (l.fractionBytes ++ (l.exponentBytes ++ rest))
      = b :: (ds ++ (l.fractionBytes ++ (l.exponentBytes ++ rest))) := by
    rw [hb]
    rfl
  unfold scanNumber
  rw [hcons]
  simp only [hdigit, Bool.not_true, Bool.false_eq_true, if_false]
  by_cases hzero : b = 48
  · -- a zero stands alone, and no digit follows it
    have hwhole : l.whole.bytes = [48] := l.shortest (by rw [hb, hzero]; rfl)
    obtain ⟨rfl, rfl⟩ : b = 48 ∧ ds = [] := List.cons.inj (hb.symm.trans hwhole)
    rw [hwhole] at hfraction
    simp only [if_true, List.nil_append, htail.head_any, Bool.false_eq_true, if_false]
    rw [hwhole]
    exact hfraction
  · rw [if_neg hzero, ← hcons, l.whole.takeWhile_append htail, List.drop_left]
    exact hfraction

end Json

end Montage
