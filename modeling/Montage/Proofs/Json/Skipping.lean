import Montage.Json.Reader
import Montage.Proofs.Json.Token
/-!
# JSON — values that are skipped

A skipped value is passed over token by token, with nothing but the enclosures
it stands in to remember. Of tokens that spell a value, whatever comes after
them, just these are skipped (`skipFrom_value`), however deep the value is
nested, so a value that is skipped leaves no trace (`skip_spells`).
-/

namespace Montage

namespace Json

/-- What is left to do when a skipped value has ended. -/
def resume (enclosing : List Enclosure) (rest : List Located) : Except Mark (List Located) :=
  match enclosing with
  | [] => .ok rest
  | e :: outer => skipFrom (e :: outer) .closed rest

section

variable {enclosing : List Enclosure} {phase : Phase} {a : Located} {rest : List Located}

theorem skipFrom_goOn {enclosing' : List Enclosure} {phase' : Phase}
    (h : skipStep enclosing phase a = .goOn enclosing' phase') :
    skipFrom enclosing phase (a :: rest) = skipFrom enclosing' phase' rest := by
  rw [skipFrom, h]

/-- A token that ends a value. -/
theorem skipFrom_afterValue {outer : List Enclosure}
    (h : skipStep enclosing phase a = afterValue outer) :
    skipFrom enclosing phase (a :: rest) = resume outer rest := by
  rw [skipFrom, h]
  cases outer <;> rfl

/-- The first value of a list is skipped as any other. -/
theorem skipStep_opened (h : a.token ≠ .closeBracket ∧ a.token ≠ .finish) :
    skipStep (.list :: enclosing) .opened a = skipStep (.list :: enclosing) .value a := by
  obtain ⟨token, start, stop⟩ := a
  cases token with
  | closeBracket => exact absurd rfl h.1
  | finish => exact absurd rfl h.2
  | _ => rfl

end

/-- The phase in which an element or a member is skipped. -/
def nextPhase (first : Bool) : Phase := if first then .opened else .closed

mutual

/-- **Skipping a value takes just its tokens.** -/
theorem skipFrom_value (t : Tree) {ts : List Located} (h : Spells t.lexemes ts)
    (enclosing : List Enclosure) (rest : List Located) :
    skipFrom enclosing .value (ts ++ rest) = resume enclosing rest := by
  match t with
  | .null | .bool _ =>
    obtain ⟨⟨token, start, stop⟩, rfl, ha⟩ := spells_singleton.mp h
    obtain rfl := Token.eq_of_lexeme ha rfl
    exact skipFrom_afterValue rfl
  | .number _ =>
    obtain ⟨⟨token, start, stop⟩, rfl, ha⟩ := spells_singleton.mp h
    obtain ⟨e, rfl, -⟩ := Token.eq_number ha
    exact skipFrom_afterValue rfl
  | .text _ =>
    obtain ⟨⟨token, start, stop⟩, rfl, ha⟩ := spells_singleton.mp h
    obtain ⟨e, rfl, -⟩ := Token.eq_text ha
    exact skipFrom_afterValue rfl
  | .list us =>
    obtain ⟨⟨token, start, stop⟩, ts, rfl, ha, hts⟩ := spells_cons.mp h
    obtain rfl := Token.eq_of_lexeme ha rfl
    rw [List.cons_append, skipFrom_goOn rfl]
    exact skipFrom_elements us true hts enclosing rest
  | .object ms =>
    obtain ⟨⟨token, start, stop⟩, ts, rfl, ha, hts⟩ := spells_cons.mp h
    obtain rfl := Token.eq_of_lexeme ha rfl
    rw [List.cons_append, skipFrom_goOn rfl]
    exact skipFrom_members ms true hts enclosing rest

theorem skipFrom_elements (us : List Tree) (first : Bool) {ts : List Located}
    (h : Spells (Tree.elementLexemes first us) ts) (enclosing : List Enclosure)
    (rest : List Located) :
    skipFrom (.list :: enclosing) (nextPhase first) (ts ++ rest) = resume enclosing rest := by
  match us with
  | [] =>
    obtain ⟨⟨token, start, stop⟩, rfl, ha⟩ := spells_singleton.mp h
    obtain rfl := Token.eq_of_lexeme ha rfl
    cases first <;> exact skipFrom_afterValue rfl
  | u :: us =>
    obtain ⟨sep, ts, ts', rfl, hsep, hu, hus⟩ := spells_elements_cons.mp h
    have hvalue : skipFrom (.list :: enclosing) .value (ts ++ (ts' ++ rest))
        = resume enclosing rest := by
      rw [skipFrom_value u hu]
      exact skipFrom_elements us false hus enclosing rest
    cases first with
    | true =>
      -- the list might end here, but not with the first token of a value
      obtain ⟨a, ts, rfl, ha⟩ := spells_head hu
      obtain rfl := spells_nil.mp hsep
      obtain ⟨hclose, -, -, hfinish⟩ := head_ne ha
      rw [← hvalue, List.nil_append, List.append_assoc, List.cons_append, nextPhase, if_pos rfl,
        skipFrom, skipFrom, skipStep_opened ⟨hclose, hfinish⟩]
    | false =>
      obtain ⟨⟨token, start, stop⟩, rfl, ha⟩ := spells_singleton.mp hsep
      obtain rfl := Token.eq_of_lexeme ha rfl
      rw [← hvalue, List.append_assoc, List.append_assoc, List.singleton_append]
      exact skipFrom_goOn rfl

theorem skipFrom_members (ms : List (Option String × Tree)) (first : Bool) {ts : List Located}
    (h : Spells (Tree.memberLexemes first ms) ts) (enclosing : List Enclosure)
    (rest : List Located) :
    skipFrom (.object :: enclosing) (nextPhase first) (ts ++ rest) = resume enclosing rest := by
  match ms with
  | [] =>
    obtain ⟨⟨token, start, stop⟩, rfl, ha⟩ := spells_singleton.mp h
    obtain rfl := Token.eq_of_lexeme ha rfl
    cases first <;> exact skipFrom_afterValue rfl
  | (k, u) :: ms =>
    obtain ⟨sep, ⟨token, start, stop⟩, ⟨token', start', stop'⟩, ts, ts', rfl, hsep, hk, hcolon, hu,
      hms⟩ := spells_members_cons.mp h
    obtain ⟨e, rfl, -⟩ := Token.eq_text hk
    obtain rfl := Token.eq_of_lexeme hcolon rfl
    have hmember : skipFrom (.object :: enclosing) .colon
        (⟨.colon, start', stop'⟩ :: (ts ++ (ts' ++ rest))) = resume enclosing rest := by
      rw [skipFrom_goOn rfl, skipFrom_value u hu]
      exact skipFrom_members ms false hms enclosing rest
    cases first with
    | true =>
      obtain rfl := spells_nil.mp hsep
      rw [← hmember, List.nil_append, List.cons_append, List.cons_append, List.append_assoc]
      exact skipFrom_goOn rfl
    | false =>
      obtain ⟨⟨token, start, stop⟩, rfl, ha⟩ := spells_singleton.mp hsep
      obtain rfl := Token.eq_of_lexeme ha rfl
      rw [← hmember, List.singleton_append, List.cons_append, List.cons_append, List.cons_append,
        List.append_assoc]
      exact (skipFrom_goOn rfl).trans (skipFrom_goOn rfl)

end

/-- **A value that is skipped leaves no trace.** -/
theorem skip_spells {t : Tree} {ts : List Located} (h : Spells t.lexemes ts)
    (rest : List Located) : skip (ts ++ rest) = .ok rest :=
  skipFrom_value t h [] rest

end Json

end Montage
