import Montage.Fault
/-!
# Faults — which ones an operation can have

`FailsOnly P r` says that a result has no fault but those in `P`. It is
followed through an operation part by part: what a sequence of parts fails
with, one of them fails with. `Agree R r r'` compares two results: they are
the same fault, or values that are related by `R`.
-/

namespace Montage

variable {α β γ δ : Type} {P Q : Fault → Prop} {r : Except Fault α}

/-! ## One result -/

/-- A result that has no faults but those in `P`. -/
def FailsOnly (P : Fault → Prop) (r : Except Fault α) : Prop := ∀ f, r = .error f → P f

theorem failsOnly_ok (a : α) : FailsOnly P (.ok a) := by
  intro f h
  cases h

theorem failsOnly_error {f : Fault} (h : P f) : FailsOnly P (.error f : Except Fault α) := by
  intro f' h'
  cases h'
  exact h

theorem FailsOnly.mono (h : FailsOnly P r) (hPQ : ∀ f, P f → Q f) : FailsOnly Q r :=
  fun f hf => hPQ f (h f hf)

theorem FailsOnly.bind {k : α → Except Fault β} (hr : FailsOnly P r)
    (hk : ∀ a, r = .ok a → FailsOnly P (k a)) : FailsOnly P (r >>= k) := by
  cases r with
  | error f => exact failsOnly_error (hr f rfl)
  | ok a => exact hk a rfl

theorem FailsOnly.map (g : α → β) (hr : FailsOnly P r) : FailsOnly P (r.map g) := by
  cases r with
  | error f => exact failsOnly_error (hr f rfl)
  | ok a => exact failsOnly_ok (g a)

theorem map_eq_ok_iff {g : α → β} {b : β} : r.map g = .ok b ↔ ∃ a, r = .ok a ∧ g a = b := by
  cases r <;> simp [Except.map]

/-- A sequence succeeds where both parts do. -/
theorem bind_eq_ok_iff {ε : Type} {r : Except ε α} {k : α → Except ε β} {b : β} :
    r >>= k = .ok b ↔ ∃ a, r = .ok a ∧ k a = .ok b := by
  cases r <;> simp [bind, Except.bind]

/-! ## Two results -/

/-- Two results that are the same fault, or related values. -/
def Agree (R : α → β → Prop) : Except Fault α → Except Fault β → Prop
  | .ok a, .ok b => R a b
  | .error f, .error g => f = g
  | _, _ => False

section

variable {R : α → β → Prop} {S : γ → δ → Prop} {q : Except Fault α} {q' : Except Fault β}

theorem Agree.mono {R' : α → β → Prop} (h : Agree R q q') (hR : ∀ a b, R a b → R' a b) :
    Agree R' q q' := by
  cases q with
  | ok a =>
    cases q' with
    | ok b => exact hR a b h
    | error g => cases h
  | error f =>
    cases q' with
    | ok b => cases h
    | error g => exact h

theorem Agree.bind {k : α → Except Fault γ} {k' : β → Except Fault δ} (h : Agree R q q')
    (hk : ∀ a b, R a b → Agree S (k a) (k' b)) : Agree S (q >>= k) (q' >>= k') := by
  cases q with
  | ok a =>
    cases q' with
    | ok b => exact hk a b h
    | error g => cases h
  | error f =>
    cases q' with
    | ok b => cases h
    | error g => exact h

theorem agree_map_iff {g : α → γ} {g' : β → δ} :
    Agree S (q.map g) (q'.map g') ↔ Agree (fun a b => S (g a) (g' b)) q q' := by
  cases q <;> cases q' <;> rfl

/-- Results that agree on the same values are the same. -/
theorem agree_eq_iff {q q' : Except Fault α} : Agree Eq q q' ↔ q = q' := by
  cases q <;> cases q' <;> simp [Agree]

theorem agree_eq_refl (q : Except Fault α) : Agree Eq q q := agree_eq_iff.mpr rfl

end

end Montage
