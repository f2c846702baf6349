import Montage.Proofs.Json.Number
import Montage.Proofs.Json.Text
/-!
# JSON — tokens say what has been written

A token that is scanned where a lexeme is written says what the lexeme says and
has its bytes (`scan_spelling`), and blanks are passed over. In the lexemes of a
value a number is always followed by a sign, so no number runs into what follows
it (`separated_lexemes`). So the tokens of a text that writes a value spell its
lexemes (`tokens_writes`).
-/

namespace Montage

namespace Json

variable {rest : List UInt8}

/-- What a token says. -/
def Token.lexeme? : Token → Option Lexeme
  | .openBrace => some .openBrace
  | .closeBrace => some .closeBrace
  | .openBracket => some .openBracket
  | .closeBracket => some .closeBracket
  | .comma => some .comma
  | .colon => some .colon
  | .null => some .null
  | .bool b => some (.bool b)
  | .number v => some (.number v.toOption)
  | .text s => some (.text s.toOption)
  | .broken .. | .brokenText .. | .finish => none

/-- Tokens that say what lexemes say. -/
def Spells (ls : List Lexeme) (ts : List Located) : Prop :=
  ts.map (·.token.lexeme?) = ls.map some

/-! ## Tokens that spell lexemes -/

theorem spells_cons {l : Lexeme} {ls : List Lexeme} {ts : List Located} :
    Spells (l :: ls) ts ↔ ∃ a rest, ts = a :: rest ∧ a.token.lexeme? = some l ∧ Spells ls rest := by
  unfold Spells
  rw [List.map_cons, List.map_eq_cons_iff]

theorem spells_append {ls ls' : List Lexeme} {ts : List Located} :
    Spells (ls ++ ls') ts ↔
      ∃ front back, ts = front ++ back ∧ Spells ls front ∧ Spells ls' back := by
  unfold Spells
  rw [List.map_append, List.map_eq_append_iff]

theorem spells_nil {ts : List Located} : Spells [] ts ↔ ts = [] := by
  unfold Spells
  rw [List.map_nil, List.map_eq_nil_iff]

theorem spells_singleton {l : Lexeme} {ts : List Located} :
    Spells [l] ts ↔ ∃ a, ts = [a] ∧ a.token.lexeme? = some l := by
  simp only [spells_cons, spells_nil]
  exact ⟨fun ⟨a, _, hts, ha, hrest⟩ => ⟨a, hrest ▸ hts, ha⟩,
    fun ⟨a, hts, ha⟩ => ⟨a, [], hts, ha, rfl⟩⟩

theorem Spells.length_eq {ls : List Lexeme} {ts : List Located} (h : Spells ls ts) :
    ts.length = ls.length := by
  simpa using congrArg List.length h

/-- The token that says what a lexeme says, where there is only one. -/
def Lexeme.token? : Lexeme → Option Token
  | .openBrace => some .openBrace
  | .closeBrace => some .closeBrace
  | .openBracket => some .openBracket
  | .closeBracket => some .closeBracket
  | .comma => some .comma
  | .colon => some .colon
  | .null => some .null
  | .bool b => some (.bool b)
  | .number _ | .text _ => none

section

variable {a b : Token} {l : Lexeme}

theorem Token.eq_of_lexeme (h : a.lexeme? = some l) (hl : l.token? = some b) : a = b := by
  cases a <;> cases h <;> cases hl <;> rfl

theorem Token.eq_number {v : Option Number} (h : a.lexeme? = some (.number v)) :
    ∃ e, a = .number e ∧ e.toOption = v := by
  cases a <;> cases h
  exact ⟨_, rfl, rfl⟩

theorem Token.eq_text {s : Option String} (h : a.lexeme? = some (.text s)) :
    ∃ e, a = .text e ∧ e.toOption = s := by
  cases a <;> cases h
  exact ⟨_, rfl, rfl⟩

end

/-! ## The first token of a value -/

/-- The first lexeme of a value. -/
def Tree.head : Tree → Lexeme
  | .null => .null
  | .bool b => .bool b
  | .number v => .number v
  | .text s => .text s
  | .list _ => .openBracket
  | .object _ => .openBrace

/-- A value has a first token. -/
theorem spells_head {t : Tree} {ts : List Located} (h : Spells t.lexemes ts) :
    ∃ a rest, ts = a :: rest ∧ a.token.lexeme? = some t.head := by
  cases t <;>
  · rw [Tree.lexemes, spells_cons] at h
    obtain ⟨a, rest, hts, ha, -⟩ := h
    exact ⟨a, rest, hts, ha⟩

/-- No value begins with a sign that ends or separates values. -/
theorem head_ne {a : Token} {t : Tree} (h : a.lexeme? = some t.head) :
    a ≠ .closeBracket ∧ a ≠ .closeBrace ∧ a ≠ .comma ∧ a ≠ .finish := by
  refine ⟨?_, ?_, ?_, ?_⟩ <;> rintro rfl <;> cases t <;> cases h

/-! ## Elements and members -/

/-- The lexemes of a list go on with an element. -/
theorem spells_elements_cons {first : Bool} {u : Tree} {us : List Tree} {ts : List Located} :
    Spells (Tree.elementLexemes first (u :: us)) ts ↔ ∃ sep ts' ts'',
      ts = sep ++ (ts' ++ ts'') ∧ Spells (Tree.separator first) sep ∧ Spells u.lexemes ts' ∧
        Spells (Tree.elementLexemes false us) ts'' := by
  rw [Tree.elementLexemes, spells_append]
  simp only [spells_append]
  constructor
  · rintro ⟨sep, _, rfl, hsep, ts', ts'', rfl, hu, hus⟩
    exact ⟨sep, ts', ts'', rfl, hsep, hu, hus⟩
  · rintro ⟨sep, ts', ts'', rfl, hsep, hu, hus⟩
    exact ⟨sep, _, rfl, hsep, ts', ts'', rfl, hu, hus⟩

/-- The lexemes of an object go on with a member. -/
theorem spells_members_cons {first : Bool} {k : Option String} {u : Tree}
    {ms : List (Option String × Tree)} {ts : List Located} : Spells (Tree.memberLexemes first ((k, u) :: ms)) ts ↔
      ∃ sep a b ts' ts'', ts = sep ++ a :: b :: (ts' ++ ts'') ∧
        Spells (Tree.separator first) sep ∧ a.token.lexeme? = some (.text k) ∧
        b.token.lexeme? = some .colon ∧ Spells u.lexemes ts' ∧
        Spells (Tree.memberLexemes false ms) ts'' := by
  rw [Tree.memberLexemes, spells_append]
  simp only [spells_cons, spells_append]
  constructor
  · rintro ⟨sep, _, rfl, hsep, a, _, rfl, ha, b, _, rfl, hb, ts', ts'', rfl, hu, hms⟩
    exact ⟨sep, a, b, ts', ts'', rfl, hsep, ha, hb, hu, hms⟩
  · rintro ⟨sep, a, b, ts', ts'', rfl, hsep, ha, hb, hu, hms⟩
    exact ⟨sep, _, rfl, hsep, a, _, rfl, ha, b, _, rfl, hb, ts', ts'', rfl, hu, hms⟩

/-! ## One token -/

/-- The first byte of a word and the bytes after it, as the scanner takes
them. -/
structure Scanned (offset : Nat) (l : Lexeme) (word rest : List UInt8) (b : UInt8)
    (tail : List UInt8) (t : Token) : Prop where
  word_eq : word = b :: tail
  not_blank : isBlank b = false
  scan_eq : scan offset b (tail ++ rest) = .made t tail.length
  lexeme_eq : t.lexeme? = some l

theorem scanWord_append (t : Token) (word rest : List UInt8) (offset taken : Nat) :
    scanWord t word offset taken (word ++ rest) = .made t (taken + word.length) := by
  induction word generalizing offset taken with
  | nil => cases rest <;> rfl
  | cons b word ih =>
    rw [List.cons_append, scanWord, if_pos rfl, ih, List.length_cons]
    congr 1
    omega

/-- A digit begins no token but a number. -/
theorem scan_digit {b : UInt8} (h : isDigit b = true) {offset taken : Nat} {t : Token}
    (hnumber : scanNumber false offset 0 (b :: rest) = .made t taken) :
    isBlank b = false ∧ scan offset b rest = .made t (taken - 1) := by
  have hne {c : UInt8} (hc : isDigit c = false) : b ≠ c := by
    rintro rfl
    rw [h] at hc
    cases hc
  constructor
  · simp only [isBlank, Bool.or_eq_false_iff, decide_eq_false_iff_not]
    exact ⟨⟨⟨hne rfl, hne rfl⟩, hne rfl⟩, hne rfl⟩
  · rw [scan, if_neg (hne rfl), if_neg (hne rfl), if_neg (hne rfl), if_neg (hne rfl),
      if_neg (hne rfl), if_neg (hne rfl), if_neg (hne rfl), if_neg (hne rfl), if_neg (hne rfl),
      if_neg (hne rfl), if_neg (hne rfl), if_pos h, hnumber]

/-- A number that is written is scanned, whether it has a sign or not. -/
theorem scan_literal (l : Literal) (h : EndsNumber rest) (offset : Nat) :
    ∃ b tail t, Scanned offset (.number l.value) l.bytes rest b tail t := by
  cases hminus : l.minus with
  | true =>
    obtain ⟨v, hv, hvalue⟩ := scanNumber_literal l h (offset + 1) 0
    refine ⟨45, l.whole.bytes ++ (l.fractionBytes ++ l.exponentBytes), .number v, ?_, rfl, ?_,
      congrArg some (congrArg Lexeme.number hvalue)⟩
    · rw [Literal.bytes, Literal.signBytes, hminus]
      rfl
    · rw [hminus] at hv
      simp only [List.append_assoc, List.length_append]
      refine hv.trans (congrArg _ ?_)
      omega
  | false =>
    obtain ⟨v, hv, hvalue⟩ := scanNumber_literal l h offset 0
    obtain ⟨b, ds, hb, hdigit⟩ := l.whole.exists_cons
    rw [hminus, hb, List.cons_append] at hv
    obtain ⟨hblank, hscan⟩ := scan_digit hdigit hv
    refine ⟨b, ds ++ (l.fractionBytes ++ l.exponentBytes), .number v, ?_, hblank, ?_,
      congrArg some (congrArg Lexeme.number hvalue)⟩
    · rw [Literal.bytes, Literal.signBytes, hminus, hb]
      rfl
    · simp only [List.append_assoc, List.length_append, List.length_cons] at hscan ⊢
      refine hscan.trans (congrArg _ ?_)
      omega

/-- **What is written is scanned.** -/
theorem scan_spelling {l : Lexeme} {word : List UInt8} (hw : Spelling l word)
    (h : ∀ v, l = .number v → EndsNumber rest) (offset : Nat) :
    ∃ b tail t, Scanned offset l word rest b tail t := by
  cases hw with
  | openBrace => exact ⟨123, [], .openBrace, rfl, rfl, rfl, rfl⟩
  | closeBrace => exact ⟨125, [], .closeBrace, rfl, rfl, rfl, rfl⟩
  | openBracket => exact ⟨91, [], .openBracket, rfl, rfl, rfl, rfl⟩
  | closeBracket => exact ⟨93, [], .closeBracket, rfl, rfl, rfl, rfl⟩
  | comma => exact ⟨44, [], .comma, rfl, rfl, rfl, rfl⟩
  | colon => exact ⟨58, [], .colon, rfl, rfl, rfl, rfl⟩
  | null =>
    exact ⟨110, _, .null, rfl, rfl,
      scanWord_append .null [117, 108, 108] rest (offset + 1) 0, rfl⟩
  | true =>
    exact ⟨116, _, .bool true, rfl, rfl,
      scanWord_append (.bool true) [114, 117, 101] rest (offset + 1) 0, rfl⟩
  | false =>
    exact ⟨102, _, .bool false, rfl, rfl,
      scanWord_append (.bool false) [97, 108, 115, 101] rest (offset + 1) 0, rfl⟩
  | number l => exact scan_literal l (h _ rfl) offset
  | text ps =>
    obtain ⟨v, hv, hvalue⟩ := scanText_content ps (offset + 1) rest
    refine ⟨34, _, .text v, rfl, rfl, ?_, congrArg some (congrArg Lexeme.text hvalue)⟩
    rw [List.append_assoc, List.length_append]
    exact hv

/-! ## Numbers and what follows them -/

/-- The lexemes are none that a number could run into. -/
def FollowNumber : List Lexeme → Prop
  | [] | .comma :: _ | .closeBracket :: _ | .closeBrace :: _ => True
  | _ => False

/-- No number is followed by what it could run into. -/
def Separated : List Lexeme → Prop
  | [] => True
  | .number _ :: ls => FollowNumber ls ∧ Separated ls
  | _ :: ls => Separated ls

/-- What follows a number ends it. -/
theorem Spaced.endsNumber {ls : List Lexeme} {bytes : List UInt8} (h : Spaced ls bytes)
    (hls : FollowNumber ls) : EndsNumber bytes := by
  have hblank {b : UInt8} (hb : isBlank b = true) :
      isDigit b = false ∧ b ≠ 46 ∧ b ≠ 101 ∧ b ≠ 69 := by
    simp only [isBlank, Bool.or_eq_true, decide_eq_true_eq] at hb
    rcases hb with ((rfl | rfl) | rfl) | rfl <;> decide
  cases h with
  | nil hblanks =>
    intro b hb
    exact hblank (hblanks b (List.mem_of_mem_head? hb))
  | @cons l ls blanks word bytes hblanks hl hls' =>
    cases blanks with
    | cons b blanks =>
      intro b' hb
      cases hb
      exact hblank (hblanks b List.mem_cons_self)
    | nil =>
      intro b hb
      cases hl <;> cases hls <;> cases hb <;> decide

theorem followNumber_elementLexemes (ts : List Tree) (ls : List Lexeme) :
    FollowNumber (Tree.elementLexemes false ts ++ ls) := by
  cases ts <;> exact trivial

theorem followNumber_memberLexemes (ms : List (Option String × Tree)) (ls : List Lexeme) :
    FollowNumber (Tree.memberLexemes false ms ++ ls) := by
  rcases ms with _ | ⟨⟨k, t⟩, ms⟩ <;> exact trivial

theorem separated_separator {first : Bool} {ls : List Lexeme} (h : Separated ls) :
    Separated (Tree.separator first ++ ls) := by
  cases first <;> exact h

mutual

/-- **In a value no number runs into what follows it.** -/
theorem separated_lexemes (t : Tree) {ls : List Lexeme} (hfollow : FollowNumber ls)
    (hls : Separated ls) : Separated (t.lexemes ++ ls) := by
  match t with
  | .null | .bool _ | .text _ => exact hls
  | .number v => exact ⟨hfollow, hls⟩
  | .list ts => exact separated_elementLexemes ts true hls
  | .object ms => exact separated_memberLexemes ms true hls

theorem separated_elementLexemes (ts : List Tree) (first : Bool) {ls : List Lexeme}
    (hls : Separated ls) : Separated (Tree.elementLexemes first ts ++ ls) := by
  match ts with
  | [] => exact hls
  | t :: ts =>
    rw [Tree.elementLexemes, List.append_assoc, List.append_assoc]
    exact separated_separator (separated_lexemes t (followNumber_elementLexemes ts ls)
      (separated_elementLexemes ts false hls))

theorem separated_memberLexemes (ms : List (Option String × Tree)) (first : Bool)
    {ls : List Lexeme} (hls : Separated ls) :
    Separated (Tree.memberLexemes first ms ++ ls) := by
  match ms with
  | [] => exact hls
  | (k, t) :: ms =>
    have hvalue : Separated (t.lexemes ++ (Tree.memberLexemes false ms ++ ls)) :=
      separated_lexemes t (followNumber_memberLexemes ms ls) (separated_memberLexemes ms false hls)
    rw [← List.append_assoc] at hvalue
    rw [Tree.memberLexemes, List.append_assoc]
    exact separated_separator hvalue

end

/-! ## All tokens -/

theorem tokensFrom_blanks {blanks : List UInt8} (h : ∀ b ∈ blanks, isBlank b = true)
    (offset : Nat) (bytes : List UInt8) :
    tokensFrom offset (blanks ++ bytes) = tokensFrom (offset + blanks.length) bytes := by
  induction blanks generalizing offset with
  | nil => rfl
  | cons b blanks ih =>
    rw [List.cons_append, tokensFrom.eq_def]
    simp only [h b List.mem_cons_self, if_true]
    rw [ih fun b hb => h b (List.mem_cons_of_mem _ hb), List.length_cons, Nat.add_right_comm,
      Nat.add_assoc]

/-- **The tokens of a text spell its lexemes**, up to the end of the text. -/
theorem tokensFrom_spaced {ls : List Lexeme} {bytes : List UInt8} (h : Spaced ls bytes)
    (hls : Separated ls) (offset : Nat) :
    ∃ ts n, tokensFrom offset bytes = ts ++ [⟨.finish, n, n⟩] ∧ Spells ls ts := by
  induction h generalizing offset with
  | @nil blanks hblanks =>
    refine ⟨[], offset + blanks.length, ?_, rfl⟩
    have hend := tokensFrom_blanks hblanks offset []
    rw [List.append_nil] at hend
    rw [hend, tokensFrom.eq_def]
    rfl
  | @cons l ls blanks word bytes hblanks hl hrest ih =>
    -- a number ends before the blanks or the sign behind it
    have hends : ∀ v, l = .number v → EndsNumber bytes := by
      rintro v rfl
      exact hrest.endsNumber hls.1
    have hls' : Separated ls := by
      cases l <;> first | exact hls | exact hls.2
    obtain ⟨b, tail, t, hword, hblank, hscan, hlexeme⟩ :=
      scan_spelling hl hends (offset + blanks.length)
    obtain ⟨ts, n, hts, hspells⟩ := ih hls' (offset + blanks.length + 1 + tail.length)
    refine ⟨⟨t, offset + blanks.length, offset + blanks.length + 1 + tail.length⟩ :: ts, n, ?_, ?_⟩
    · rw [tokensFrom_blanks hblanks, hword, List.cons_append, tokensFrom.eq_def]
      simp only [hblank, hscan, Bool.false_eq_true, if_false, List.drop_left, hts]
      rfl
    · rw [Spells] at hspells ⊢
      rw [List.map_cons, hlexeme, hspells]
      rfl

/-- **The tokens of a text that writes a value spell that value.** -/
theorem tokens_writes {t : Tree} {text : String} (h : t.Writes text) :
    ∃ ts n, tokens text.toUTF8.toList = ts ++ [⟨.finish, n, n⟩] ∧ Spells t.lexemes ts := by
  have hseparated : Separated (t.lexemes ++ []) := separated_lexemes t trivial trivial
  rw [List.append_nil] at hseparated
  exact tokensFrom_spaced h hseparated 0

end Json

end Montage
