import Mathlib.Data.List.Forall2
import Montage.Proofs.Json.Record
import Montage.Proofs.Json.Skipping
/-!
# JSON — what readers make of values

A reader and a function on values agree (`Reads`): of tokens that spell a value,
whatever comes after them, the reader takes just these, and makes of them what
the function makes of the value.

A record is read in the order in which it is written, and its fields are put in
one after the other, so the reader of a record agrees with `Schema.value?`
(`record_reads`).
-/

namespace Montage

namespace Json

variable {α β σ : Type}

/-- **A reader makes of a value what a function makes of it.** -/
def Reads (read : Reader α) (eval : Tree → Option α) : Prop :=
  ∀ (t : Tree) (ts rest : List Located), Spells t.lexemes ts →
    (read (ts ++ rest)).toOption = (eval t).map (·, rest)

/-! ## Results -/

theorem toOption_ok {ε : Type} (a : α) : (Except.ok a : Except ε α).toOption = some a := rfl

theorem toOption_bind {ε : Type} (x : Except ε α) (f : α → Except ε β) :
    (x >>= f).toOption = x.toOption.bind fun a => (f a).toOption := by
  cases x <;> rfl

theorem toOption_map {ε : Type} (x : Except ε α) (f : α → β) :
    (x.map f).toOption = x.toOption.map f := by
  cases x <;> rfl

/-! ## Plain values -/

namespace Tree

/-- A number, in the form asked for. -/
def number? (convert : Number → Option α) : Tree → Option α
  | number (some n) => convert n
  | _ => none

/-- A whole number from zero up to, not including, `bound`. -/
def natural? (bound : Nat) : Tree → Option Nat :=
  number? fun
    | .natural n => if n < bound then some n else none
    | _ => none

/-- A number as a double. -/
def double? : Tree → Option Float := number? fun n => some n.toFloat

/-- A number in single precision. -/
def single? : Tree → Option Float := number? fun n => some n.toSingle

/-- A truth value. -/
def bool? : Tree → Option Bool
  | bool b => some b
  | _ => none

/-- A value that may be `null`. -/
def nullable? (eval : Tree → Option α) : Tree → Option (Option α)
  | null => some none
  | t => (eval t).map some

/-- A list of exactly `count` elements. -/
def fixedList? (eval : Tree → Option α) (count : Nat) : Tree → Option (List α)
  | list ts => if ts.length = count then ts.mapM eval else none
  | _ => none

end Tree

/-- A value of one token has no others. -/
theorem Spells.tail_eq {l : Lexeme} {a : Located} {ts : List Located} (h : Spells [l] (a :: ts)) :
    ts = [] :=
  List.eq_nil_of_length_eq_zero (Nat.succ.inj h.length_eq)

/-- **Numbers are read as the numbers they are.** -/
theorem number_reads (wanted : String) (convert : Number → Except Cause α) :
    Reads (number wanted convert) (Tree.number? fun n => (convert n).toOption) := by
  intro t ts rest h
  obtain ⟨⟨token, start, stop⟩, ts, rfl, ha⟩ := spells_head h
  cases t with
  | number v =>
    obtain ⟨e, rfl, rfl⟩ := Token.eq_number ha
    obtain rfl := h.tail_eq
    cases e with
    | error m => rfl
    | ok n =>
      unfold number
      simp only [front, List.cons_append, List.nil_append, List.tail_cons]
      cases hn : convert n <;> simp [Tree.number?, Except.toOption, hn]
  | text s =>
    obtain ⟨e, rfl, -⟩ := Token.eq_text ha
    cases e <;> rfl
  | _ =>
    obtain rfl := Token.eq_of_lexeme ha rfl
    rfl

theorem natural_reads (wanted : String) (bound : Nat) :
    Reads (natural wanted bound) (Tree.natural? bound) := by
  intro t ts rest h
  refine (number_reads wanted _ t ts rest h).trans (congrArg (Option.map _) ?_)
  cases t with
  | number v =>
    rcases v with _ | (n | _ | _) <;> try rfl
    simp only [Tree.number?, Tree.natural?]
    split <;> rfl
  | _ => rfl

theorem double_reads : Reads double Tree.double? := number_reads "f64" _

theorem single_reads : Reads single Tree.single? := number_reads "f32" _

theorem bool_reads : Reads bool Tree.bool? := by
  intro t ts rest h
  obtain ⟨⟨token, start, stop⟩, ts, rfl, ha⟩ := spells_head h
  cases t with
  | bool b =>
    obtain rfl := Token.eq_of_lexeme ha rfl
    obtain rfl := h.tail_eq
    rfl
  | number v =>
    obtain ⟨e, rfl, -⟩ := Token.eq_number ha
    cases e <;> rfl
  | text s =>
    obtain ⟨e, rfl, -⟩ := Token.eq_text ha
    cases e <;> rfl
  | _ =>
    obtain rfl := Token.eq_of_lexeme ha rfl
    rfl

theorem nullable_reads {read : Reader α} {eval : Tree → Option α} (hread : Reads read eval) :
    Reads (nullable read) (Tree.nullable? eval) := by
  intro t ts rest h
  obtain ⟨⟨token, start, stop⟩, ts, rfl, ha⟩ := spells_head h
  by_cases hnull : t = .null
  · subst hnull
    obtain rfl := Token.eq_of_lexeme ha rfl
    obtain rfl := h.tail_eq
    rfl
  · have hother : Tree.nullable? eval t = (eval t).map some := by
      cases t <;> first | rfl | exact absurd rfl hnull
    have htoken : token ≠ .null := by
      rintro rfl
      cases t <;> first | exact absurd rfl hnull | cases ha
    have hstep : nullable read (⟨token, start, stop⟩ :: ts ++ rest)
        = (read (⟨token, start, stop⟩ :: ts ++ rest)).map fun p => (some p.1, p.2) := by
      cases token with
      | null => exact absurd rfl htoken
      | _ => rfl
    rw [hother, hstep, toOption_map, hread t _ rest h]
    cases eval t <;> rfl

/-! ## Lists -/

section

variable {a : Located} {rest : List Located} {first : Bool}

theorem nextElement_close (h : a.token = .closeBracket) :
    nextElement first (a :: rest) = .ok none := by
  obtain ⟨token, start, stop⟩ := a
  obtain rfl : token = .closeBracket := h
  cases first <;> rfl

/-- A list goes on with its next element. -/
theorem nextElement_element {t : Tree} {sep ts : List Located}
    (hsep : Spells (Tree.separator first) sep) (h : Spells t.lexemes ts) :
    nextElement first (sep ++ (ts ++ rest)) = .ok (some (ts ++ rest)) := by
  obtain ⟨⟨token, start, stop⟩, ts, rfl, ha⟩ := spells_head h
  obtain ⟨hclose, -, -, hfinish⟩ := head_ne ha
  cases first with
  | true =>
    obtain rfl := spells_nil.mp hsep
    cases token with
    | closeBracket => exact absurd rfl hclose
    | finish => exact absurd rfl hfinish
    | _ => rfl
  | false =>
    obtain ⟨⟨sign, start', stop'⟩, rfl, hsign⟩ := spells_singleton.mp hsep
    obtain rfl := Token.eq_of_lexeme hsign rfl
    cases token with
    | closeBracket => exact absurd rfl hclose
    | finish => exact absurd rfl hfinish
    | _ => rfl

theorem endList_close (h : a.token = .closeBracket) : endList (a :: rest) = .ok rest := by
  obtain ⟨token, start, stop⟩ := a
  obtain rfl : token = .closeBracket := h
  rfl

theorem endList_of_ne (h : a.token ≠ .closeBracket) : (endList (a :: rest)).toOption = none := by
  obtain ⟨token, start, stop⟩ := a
  cases token with
  | closeBracket => exact absurd rfl h
  | comma =>
    simp only [endList, front]
    split <;> rfl
  | _ => rfl

/-- A list with a further element has not come to its end. -/
theorem endList_element {t : Tree} {sep ts : List Located}
    (hsep : Spells (Tree.separator first) sep) (h : Spells t.lexemes ts) :
    (endList (sep ++ (ts ++ rest))).toOption = none := by
  cases first with
  | true =>
    obtain ⟨a, ts, rfl, ha⟩ := spells_head h
    obtain rfl := spells_nil.mp hsep
    exact endList_of_ne (head_ne ha).1
  | false =>
    obtain ⟨a, rfl, ha⟩ := spells_singleton.mp hsep
    refine endList_of_ne fun h => ?_
    rw [h] at ha
    cases ha

end

/-- The elements of a list of fixed length are read. -/
theorem fixedElements_reads {read : Reader α} {eval : Tree → Option α} (hread : Reads read eval)
    (wanted : String) (us : List Tree) (count found : Nat) {ts : List Located}
    (h : Spells (Tree.elementLexemes (found == 0) us) ts) (rest : List Located) :
    (fixedElements read wanted count found (ts ++ rest)).toOption
      = (if us.length = count then us.mapM eval else none).map (·, rest) := by
  induction us generalizing count found ts with
  | nil =>
    obtain ⟨a, rfl, ha⟩ := spells_singleton.mp h
    have hclose : a.token = .closeBracket := Token.eq_of_lexeme ha rfl
    cases count with
    | zero =>
      simp only [fixedElements, List.singleton_append, endList_close hclose]
      rfl
    | succ count =>
      simp only [fixedElements, List.singleton_append, nextElement_close hclose]
      rfl
  | cons u us ih =>
    obtain ⟨sep, ts, ts', rfl, hsep, hu, hus⟩ := spells_elements_cons.mp h
    rw [List.append_assoc, List.append_assoc]
    cases count with
    | zero =>
      simp only [fixedElements, toOption_bind, endList_element hsep hu]
      rfl
    | succ count =>
      have hrest := ih count (found + 1) hus
      simp only [fixedElements, toOption_bind, nextElement_element hsep hu, toOption_ok,
        Option.bind_some, hread u ts _ hu, List.length_cons]
      rw [List.mapM_cons]
      cases eval u with
      | none => split <;> rfl
      | some a =>
        simp only [Option.map_some, Option.bind_some]
        rw [hrest]
        simp only [Nat.add_right_cancel_iff]
        split
        · cases us.mapM eval <;> rfl
        · rfl

/-- **A list of fixed length is read as the values of its elements.** -/
theorem fixedList_reads {read : Reader α} {eval : Tree → Option α} (hread : Reads read eval)
    (wanted : String) (count : Nat) :
    Reads (fixedList read wanted count) (Tree.fixedList? eval count) := by
  intro t ts rest h
  obtain ⟨⟨token, start, stop⟩, ts, rfl, ha⟩ := spells_head h
  cases t with
  | list us =>
    obtain ⟨_, _, hts, -, hus⟩ := spells_cons.mp h
    cases hts
    obtain rfl := Token.eq_of_lexeme ha rfl
    exact fixedElements_reads hread wanted us count 0 hus rest
  | number v =>
    obtain ⟨e, rfl, -⟩ := Token.eq_number ha
    rfl
  | text s =>
    obtain ⟨e, rfl, -⟩ := Token.eq_text ha
    rfl
  | _ =>
    obtain rfl := Token.eq_of_lexeme ha rfl
    rfl

/-! ## Fields -/

/-- A field and a slot with the same key, of which one reads what the other puts
in. -/
structure Field.Fits (f : Field σ) (x : Slot σ) : Prop where
  key_eq : f.key = x.key
  optional : f.required = false
  reads (s : σ) : Reads (f.read s) (x.put s)

theorem Field.optional_fits {read : Reader α} {eval : Tree → Option α} (hread : Reads read eval)
    {key : String} {get : σ → α} {set : σ → α → σ} {h : ∀ s, set s (get s) = s} :
    (Field.optional key read set).Fits ⟨key, α, eval, get, set, h⟩ where
  key_eq := rfl
  optional := rfl
  reads s := fun t ts rest h => by
    simp only [Field.optional, toOption_map, hread t ts rest h, Slot.put]
    cases eval t <;> rfl

section

variable {fields : List (Field σ)} {xs : List (Slot σ)}

/-- No field is asked for that is not there. -/
theorem findIdx?_required (h : List.Forall₂ Field.Fits fields xs) :
    fields.findIdx? (·.required) = none := by
  induction h with
  | nil => rfl
  | cons hf _ ih => rw [List.findIdx?_cons, hf.optional, ih]; rfl

theorem find?_required (h : List.Forall₂ Field.Fits fields xs) (seen : List String) :
    (fields.find? fun f => f.required && !seen.contains f.key) = none := by
  induction h with
  | nil => rfl
  | cons hf _ ih => rw [List.find?_cons, hf.optional]; exact ih

/-- The field with a key fits the slot with that key. -/
theorem find?_fits (h : List.Forall₂ Field.Fits fields xs) (k : String) :
    Option.Rel Field.Fits (fields.find? fun f => f.key == k) (xs.find? fun x => x.key == k) := by
  induction h with
  | nil => exact .none
  | @cons f x _ _ hf _ ih =>
    rw [List.find?_cons, List.find?_cons, hf.key_eq]
    cases x.key == k with
    | true => exact .some hf
    | false => exact ih

/-! ## Records written as lists -/

/-- **The fields of a list are put in one after the other.** -/
theorem positional_reads (h : List.Forall₂ Field.Fits fields xs) (wanted : String)
    (us : List Tree) (found : Nat) (s : σ) {ts : List Located}
    (hts : Spells (Tree.elementLexemes (found == 0) us) ts) (rest : List Located) :
    (positional wanted fields found s (ts ++ rest)).toOption
      = (ofElements? xs us s).map (·, rest) := by
  induction us generalizing fields xs found s ts with
  | nil =>
    obtain ⟨a, rfl, ha⟩ := spells_singleton.mp hts
    have hclose : a.token = .closeBracket := Token.eq_of_lexeme ha rfl
    cases h with
    | nil =>
      simp only [positional, List.singleton_append, endList_close hclose]
      rfl
    | cons hf hfields =>
      simp only [positional, List.singleton_append, nextElement_close hclose, toOption_bind,
        toOption_ok, Option.bind_some, findIdx?_required (.cons hf hfields), endList_close hclose]
      rfl
  | cons u us ih =>
    obtain ⟨sep, ts, ts', rfl, hsep, hu, hus⟩ := spells_elements_cons.mp hts
    rw [List.append_assoc, List.append_assoc]
    cases h with
    | nil =>
      simp only [positional, toOption_bind, endList_element hsep hu]
      rfl
    | @cons f x fields xs hf hfields =>
      simp only [positional, toOption_bind, nextElement_element hsep hu, toOption_ok,
        Option.bind_some, hf.reads s u ts _ hu, ofElements?]
      cases x.put s u with
      | none => rfl
      | some s => exact ih hfields (found + 1) s hus

/-! ## Records written as objects -/

variable {a : Located} {rest : List Located} {first : Bool}

theorem nextKey_close (h : a.token = .closeBrace) : nextKey first (a :: rest) = .ok none := by
  obtain ⟨token, start, stop⟩ := a
  obtain rfl : token = .closeBrace := h
  cases first <;> rfl

/-- An object goes on with its next key. -/
theorem nextKey_member {k : Option String} {sep : List Located}
    (hsep : Spells (Tree.separator first) sep) (h : a.token.lexeme? = some (.text k)) :
    nextKey first (sep ++ a :: rest) = .ok (some (a :: rest)) := by
  obtain ⟨token, start, stop⟩ := a
  obtain ⟨e, rfl, -⟩ := Token.eq_text h
  cases first with
  | true =>
    obtain rfl := spells_nil.mp hsep
    rfl
  | false =>
    obtain ⟨⟨sign, start', stop'⟩, rfl, hsign⟩ := spells_singleton.mp hsep
    obtain rfl := Token.eq_of_lexeme hsign rfl
    rfl

theorem key_text {k : Option String} (h : a.token.lexeme? = some (.text k)) :
    (key (a :: rest)).toOption = k.map (·, rest) := by
  obtain ⟨token, start, stop⟩ := a
  obtain ⟨e, rfl, rfl⟩ := Token.eq_text h
  cases e <;> rfl

theorem colon_colon (h : a.token.lexeme? = some .colon) : colon (a :: rest) = .ok rest := by
  obtain ⟨token, start, stop⟩ := a
  obtain rfl := Token.eq_of_lexeme h rfl
  rfl

/-- **The members of an object are put in one after the other**, and those with
another key are passed over. -/
theorem members_reads (h : List.Forall₂ Field.Fits fields xs) (ms : List (Option String × Tree))
    {fuel : Nat} (hfuel : ms.length < fuel) (first : Bool) (seen : List String) (s : σ)
    {ts : List Located} (hts : Spells (Tree.memberLexemes first ms) ts) (rest : List Located) :
    (members fields fuel first seen s (ts ++ rest)).toOption
      = (ofMembers? xs ms seen s).map (·, rest) := by
  induction ms generalizing fuel first seen s ts with
  | nil =>
    obtain ⟨a, rfl, ha⟩ := spells_singleton.mp hts
    obtain ⟨fuel, rfl⟩ : ∃ n, fuel = n + 1 := ⟨fuel - 1, by omega⟩
    simp only [members, List.singleton_append, nextKey_close (Token.eq_of_lexeme ha rfl),
      toOption_bind, toOption_ok, Option.bind_some, find?_required h]
    rfl
  | cons m ms ih =>
    obtain ⟨k, u⟩ := m
    obtain ⟨sep, a, b, ts, ts', rfl, hsep, ha, hb, hu, hms⟩ := spells_members_cons.mp hts
    obtain ⟨fuel, rfl⟩ : ∃ n, fuel = n + 1 := ⟨fuel - 1, by omega⟩
    have hcount : ms.length < fuel := Nat.lt_of_succ_lt_succ hfuel
    simp only [members, List.append_assoc, List.cons_append, nextKey_member hsep ha,
      toOption_bind, toOption_ok, Option.bind_some, key_text ha]
    cases k with
    | none => rfl
    | some k =>
      have hfind := find?_fits h k
      simp only [Option.map_some, Option.bind_some, ofMembers?]
      cases hf : fields.find? (fun f => f.key == k) with
      | none =>
        cases hx : xs.find? (fun x => x.key == k) with
        | some x => rw [hf, hx] at hfind; cases hfind
        | none =>
          simp only [toOption_bind, colon_colon hb, skip_spells hu, toOption_ok, Option.bind_some]
          exact ih hcount false seen s hms
      | some f =>
        cases hx : xs.find? (fun x => x.key == k) with
        | none => rw [hf, hx] at hfind; cases hfind
        | some x =>
          rw [hf, hx] at hfind
          obtain ⟨hfits⟩ := hfind
          cases seen.contains k with
          | true => rfl
          | false =>
            simp only [Bool.false_eq_true, if_false, toOption_bind, colon_colon hb, toOption_ok,
              Option.bind_some, hfits.reads s u ts _ hu]
            cases x.put s u with
            | none => rfl
            | some s => exact ih hcount false (k :: seen) s hms

/-- There is a token for each member of an object, and one for its end. -/
theorem length_lt_of_spells_members {ms : List (Option String × Tree)} {ts : List Located}
    (h : Spells (Tree.memberLexemes first ms) ts) : ms.length < ts.length := by
  induction ms generalizing first ts with
  | nil =>
    rw [h.length_eq]
    exact Nat.zero_lt_one
  | cons m ms ih =>
    obtain ⟨sep, a, b, ts, ts', rfl, -, -, -, -, hms⟩ := spells_members_cons.mp h
    have := ih hms
    simp only [List.length_append, List.length_cons]
    omega

end

/-- **The reader of a record makes of a value the record that it gives.** -/
theorem record_reads {fields : List (Field σ)} {r : Schema σ}
    (h : List.Forall₂ Field.Fits fields r.slots) (wanted wantedList : String) (start : σ) :
    Reads (record wanted wantedList fields start) (r.value? start) := by
  intro t ts rest hts
  obtain ⟨⟨token, begin, stop⟩, ts, rfl, ha⟩ := spells_head hts
  cases t with
  | list us =>
    obtain ⟨_, _, hcons, -, hus⟩ := spells_cons.mp hts
    cases hcons
    obtain rfl := Token.eq_of_lexeme ha rfl
    rw [r.value?_list]
    exact positional_reads h wantedList us 0 start hus rest
  | object ms =>
    obtain ⟨_, _, hcons, -, hms⟩ := spells_cons.mp hts
    cases hcons
    obtain rfl := Token.eq_of_lexeme ha rfl
    -- the fuel is the number of tokens, so it outlasts the members
    have hfuel := length_lt_of_spells_members hms
    rw [r.value?_object]
    refine members_reads h ms ?_ true [] start hms rest
    simp only [List.cons_append, List.length_cons, List.length_append]
    omega
  | number v =>
    obtain ⟨e, rfl, -⟩ := Token.eq_number ha
    rfl
  | text s =>
    obtain ⟨e, rfl, -⟩ := Token.eq_text ha
    rfl
  | _ =>
    obtain rfl := Token.eq_of_lexeme ha rfl
    rfl

end Json

end Montage
