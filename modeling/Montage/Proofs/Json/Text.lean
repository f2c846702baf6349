import Mathlib.Tactic.SplitIfs
import Montage.Proofs.Json.Tree
/-!
# JSON — texts are read as they are written

The scanner takes a text piece by piece, except that two escaped units may be
the halves of one character. Half a character on its own is a flaw of the
content, but the scanner goes on behind it. So the token of a text has its bytes
and no others, and its content is what the pieces stand for, or a flaw
(`textTaken_pieces`).
-/

namespace Montage

namespace Json

variable {rest : List UInt8} {ps : List Piece}

/-! ## Characters -/

/-- The bytes of a piece that stands for itself are neither the end of the text
nor the beginning of an escape nor control characters. -/
theorem plain_bytes {c : Char} (h : c.toNat ≠ 34 ∧ c.toNat ≠ 92 ∧ 32 ≤ c.toNat) {b : UInt8}
    (hb : b ∈ String.utf8EncodeChar c) : b ≠ 34 ∧ b ≠ 92 ∧ ¬ b < 32 := by
  obtain ⟨hquote, hslash, hcontrol⟩ := h
  have hvalue : b.toNat = c.toNat ∨ 128 ≤ b.toNat := by
    simp only [Char.toNat] at *
    unfold String.utf8EncodeChar at hb
    dsimp only at hb
    split at hb
    · simp only [List.mem_cons, List.not_mem_nil, or_false] at hb
      subst hb
      left
      simp only [UInt8.toNat_ofNat']
      omega
    · right
      split at hb
      · simp only [List.mem_cons, List.not_mem_nil, or_false] at hb
        rcases hb with rfl | rfl <;> simp only [UInt8.toNat_ofNat'] <;> omega
      · split at hb
        · simp only [List.mem_cons, List.not_mem_nil, or_false] at hb
          rcases hb with rfl | rfl | rfl <;> simp only [UInt8.toNat_ofNat'] <;> omega
        · simp only [List.mem_cons, List.not_mem_nil, or_false] at hb
          rcases hb with rfl | rfl | rfl | rfl <;> simp only [UInt8.toNat_ofNat'] <;> omega
  refine ⟨?_, ?_, ?_⟩
  · rintro rfl
    simp at hvalue
    omega
  · rintro rfl
    simp at hvalue
    omega
  · rw [UInt8.lt_iff_toNat_lt]
    simp
    omega

/-- The content of a text after more bytes. -/
theorem map_append (content : Except Mark (List UInt8)) (bs cs : List UInt8) :
    (content.map (bs ++ ·)).map (cs ++ ·) = content.map (cs ++ bs ++ ·) := by
  cases content with
  | error m => rfl
  | ok acc => exact congrArg Except.ok (List.append_assoc ..).symm

/-- Bytes that stand for themselves are taken as they are. -/
theorem scanText_plain {bs : List UInt8} (h : ∀ b ∈ bs, b ≠ 34 ∧ b ≠ 92 ∧ ¬ b < 32)
    (offset taken : Nat) (content : Except Mark (List UInt8)) :
    scanText offset taken content (bs ++ rest)
      = scanText (offset + bs.length) (taken + bs.length) (content.map (bs.reverse ++ ·)) rest := by
  induction bs generalizing offset taken content with
  | nil => cases content <;> rfl
  | cons b bs ih =>
    obtain ⟨hquote, hslash, hcontrol⟩ := h b List.mem_cons_self
    have hstep : scanText offset taken content (b :: (bs ++ rest))
        = scanText (offset + 1) (taken + 1) (content.map ([b] ++ ·)) (bs ++ rest) := by
      rw [scanText.eq_def]
      simp only [hquote, hslash, hcontrol, if_false]
      rfl
    rw [List.cons_append, hstep, ih fun b hb => h b (List.mem_cons_of_mem _ hb), map_append,
      List.reverse_cons, List.length_cons, Nat.add_assoc, Nat.add_assoc, Nat.add_comm 1]

/-! ## Escapes -/

/-- A short escape stands for one byte. -/
theorem scanText_short {letter byte : UInt8} (h : escapeByte? letter = some byte)
    (offset taken : Nat) (content : Except Mark (List UInt8)) :
    scanText offset taken content (92 :: letter :: rest)
      = scanText (offset + 2) (taken + 2) (content.map ([byte] ++ ·)) rest := by
  have hunit : letter ≠ 117 := by
    rintro rfl
    cases h
  rw [scanText.eq_def]
  simp only [hunit, h, if_false]
  rfl

theorem hexUnit_digits (u : EscapedUnit) (offset : Nat) :
    hexUnit offset (u.d3.byte :: u.d2.byte :: u.d1.byte :: u.d0.byte :: rest) = .ok u.value := by
  simp only [hexUnit, HexDigit.value_eq]
  rfl

/-- An escaped unit is looked at together with what follows it. -/
theorem scanText_unit (u : EscapedUnit) (offset taken : Nat) (content : Except Mark (List UInt8)) :
    scanText offset taken content (u.bytes ++ rest)
      = match escapedCharacter u.value (offset + 6) rest with
        | .ok (c, more) =>
          scanText (offset + 6 + more) (taken + 6 + more)
            (content.map (c.toString.toUTF8.toList.reverse ++ ·)) (rest.drop more)
        | .error m => scanText (offset + 6) (taken + 6) (noteFlaw content m) rest := by
  have hdrop (more : Nat) :
      (u.d3.byte :: u.d2.byte :: u.d1.byte :: u.d0.byte :: rest).drop (4 + more)
        = rest.drop more := by
    rw [Nat.add_comm]
    rfl
  have hrest : (u.d3.byte :: u.d2.byte :: u.d1.byte :: u.d0.byte :: rest).drop 4 = rest := rfl
  have hquote : (92 : UInt8) ≠ 34 := by decide
  rw [EscapedUnit.bytes, List.cons_append, List.cons_append, scanText.eq_def]
  cases hc : escapedCharacter u.value (offset + 6) rest <;>
    simp only [List.cons_append, List.nil_append, hquote, if_true, if_false, hexUnit_digits, hdrop,
      hrest, hc]

theorem byteArray_toList (bytes : ByteArray) : bytes.toList = bytes.data.toList := by
  have hloop (i : Nat) (r : List UInt8) :
      ByteArray.toList.loop bytes i r = r.reverse ++ bytes.data.toList.drop i := by
    fun_induction ByteArray.toList.loop bytes i r with
    | case1 i r h ih =>
      have hi : i < bytes.data.toList.length := h
      rw [ih, List.drop_eq_getElem_cons hi]
      simp [ByteArray.get!, h]
    | case2 i r h =>
      have hi : bytes.data.toList.length ≤ i := Nat.le_of_not_lt h
      rw [List.drop_eq_nil_of_le hi, List.append_nil]
  rw [ByteArray.toList, hloop]
  rfl

/-- The bytes of a character. -/
theorem toUTF8_toString (c : Char) : c.toString.toUTF8.toList = String.utf8EncodeChar c := by
  rw [Char.toString, String.toUTF8, String.toByteArray_singleton, List.utf8Encode, byteArray_toList,
    List.toList_data_toByteArray, List.flatMap_singleton]

/-! ## Halves of characters -/

/-- Pieces that begin with the second half of a character. -/
def startsTrailing : List Piece → Bool
  | .unit v :: _ => v.isTrailing
  | _ => false

/-- A unit that is no half is a character. -/
theorem escapedCharacter_whole {u : EscapedUnit} (h : (u.isLeading || u.isTrailing) = false)
    (offset : Nat) : escapedCharacter u.value offset rest = .ok (Char.ofNat u.value, 0) := by
  simp only [EscapedUnit.isLeading, EscapedUnit.isTrailing, Bool.or_eq_false_iff,
    Bool.and_eq_false_iff, decide_eq_false_iff_not] at h
  have htrailing : (0xDC00 ≤ u.value && u.value ≤ 0xDFFF) = false := by
    simp only [Bool.and_eq_false_iff, decide_eq_false_iff_not]
    exact h.2
  have hleading : (u.value < 0xD800 || 0xDBFF < u.value) = true := by
    simp only [Bool.or_eq_true, decide_eq_true_eq]
    omega
  simp only [escapedCharacter, htrailing, hleading, Bool.false_eq_true, if_false, if_true]

theorem bounds_of_isLeading {u : EscapedUnit} (h : u.isLeading = true) :
    (0xDC00 ≤ u.value && u.value ≤ 0xDFFF) = false ∧
      (u.value < 0xD800 || 0xDBFF < u.value) = false := by
  simp only [EscapedUnit.isLeading, Bool.and_eq_true, decide_eq_true_eq] at h
  simp only [Bool.and_eq_false_iff, Bool.or_eq_false_iff, decide_eq_false_iff_not]
  omega

/-- Two halves are one character. -/
theorem escapedCharacter_joined {u v : EscapedUnit} (hu : u.isLeading = true)
    (hv : v.isTrailing = true) (offset : Nat) :
    escapedCharacter u.value offset (v.bytes ++ rest) = .ok (u.joined v, 6) := by
  obtain ⟨htrailing, hleading⟩ := bounds_of_isLeading hu
  rw [EscapedUnit.isTrailing] at hv
  simp only [escapedCharacter, htrailing, hleading, Bool.false_eq_true, if_false,
    EscapedUnit.bytes, List.cons_append, List.nil_append, hexUnit_digits, bind, Except.bind, hv,
    if_true]
  rfl

/-- **Half a character is a flaw**, whatever follows it. -/
theorem escapedCharacter_half {u : EscapedUnit} (hu : (u.isLeading || u.isTrailing) = true)
    (hnext : (u.isLeading && startsTrailing ps) = false) (offset : Nat) (rest : List UInt8) :
    ∃ m, escapedCharacter u.value offset (ps.flatMap Piece.bytes ++ 34 :: rest) = .error m := by
  cases hl : u.isLeading with
  | false =>
    rw [hl, Bool.false_or, EscapedUnit.isTrailing] at hu
    exact ⟨_, by rw [escapedCharacter.eq_def, if_pos hu]⟩
  | true =>
    rw [hl, Bool.true_and] at hnext
    obtain ⟨htrailing, hleading⟩ := bounds_of_isLeading hl
    simp only [escapedCharacter, htrailing, hleading, Bool.false_eq_true, if_false]
    cases ps with
    | nil => exact ⟨_, rfl⟩
    | cons p ps =>
      cases p with
      | plain c h =>
        have hne : String.utf8EncodeChar c ≠ [] := String.utf8EncodeChar_ne_nil
        obtain ⟨b, bs, hb⟩ := List.exists_cons_of_ne_nil hne
        have hslash : b ≠ 92 := (plain_bytes h (by rw [hb]; exact List.mem_cons_self)).2.1
        simp only [List.flatMap_cons, Piece.bytes, hb, List.cons_append]
        split
        · next he => cases he
        · next he => exact absurd (List.cons.inj he).1 hslash
        · next he => exact absurd (List.cons.inj he).1 hslash
        · next he => exact absurd (List.cons.inj he).1 hslash
        · exact ⟨_, rfl⟩
      | short letter byte h =>
        have hunit : letter ≠ 117 := by
          rintro rfl
          cases h
        simp only [List.flatMap_cons, Piece.bytes, List.cons_append, List.nil_append]
        exact ⟨_, rfl⟩
      | unit v =>
        rw [startsTrailing, EscapedUnit.isTrailing] at hnext
        simp only [List.flatMap_cons, Piece.bytes, EscapedUnit.bytes, List.cons_append,
          List.nil_append, hexUnit_digits, bind, Except.bind, hnext]
        exact ⟨_, rfl⟩

/-! ### Units in a text -/

section

variable {u v : EscapedUnit} (offset taken : Nat) (content : Except Mark (List UInt8))

theorem scanText_whole (h : (u.isLeading || u.isTrailing) = false) :
    scanText offset taken content (u.bytes ++ rest)
      = scanText (offset + u.bytes.length) (taken + u.bytes.length)
        (content.map ((String.utf8EncodeChar (Char.ofNat u.value)).reverse ++ ·)) rest := by
  rw [scanText_unit, escapedCharacter_whole h]
  simp only [toUTF8_toString, Nat.add_zero, List.drop_zero]
  rfl

theorem scanText_joined (hu : u.isLeading = true) (hv : v.isTrailing = true) :
    scanText offset taken content (u.bytes ++ v.bytes ++ rest)
      = scanText (offset + (u.bytes ++ v.bytes).length) (taken + (u.bytes ++ v.bytes).length)
        (content.map ((String.utf8EncodeChar (u.joined v)).reverse ++ ·)) rest := by
  have hlength : v.bytes.length = 6 := rfl
  rw [List.append_assoc, scanText_unit, escapedCharacter_joined hu hv]
  simp only [toUTF8_toString, List.drop_left' hlength]
  rfl

/-- Behind half a character the scanner goes on with a flaw. -/
theorem scanText_half (hu : (u.isLeading || u.isTrailing) = true)
    (hnext : (u.isLeading && startsTrailing ps) = false) (rest : List UInt8) :
    ∃ m, scanText offset taken content (u.bytes ++ (ps.flatMap Piece.bytes ++ 34 :: rest))
      = scanText (offset + u.bytes.length) (taken + u.bytes.length) (noteFlaw content m)
        (ps.flatMap Piece.bytes ++ 34 :: rest) := by
  obtain ⟨m, hm⟩ := escapedCharacter_half hu hnext (offset + 6) rest
  exact ⟨m, by rw [scanText_unit, hm]; rfl⟩

end

namespace Piece

/-- A unit and a second half behind it. -/
theorem characters?_joined {u : EscapedUnit} (h : (u.isLeading && startsTrailing ps) = true) :
    ∃ v ps', ps = unit v :: ps' ∧ u.isLeading = true ∧ v.isTrailing = true ∧
      characters? (unit u :: ps) = (characters? ps').map (u.joined v :: ·) := by
  obtain ⟨hu, hps⟩ := Bool.and_eq_true_iff.mp h
  unfold startsTrailing at hps
  split at hps
  · next v ps' =>
    refine ⟨v, ps', rfl, hu, hps, ?_⟩
    rw [characters?, hu, hps]
    rfl
  · cases hps

theorem characters?_half {u : EscapedUnit} (hu : (u.isLeading || u.isTrailing) = true)
    (hnext : (u.isLeading && startsTrailing ps) = false) : characters? (unit u :: ps) = none := by
  match ps, hnext with
  | [], _ => rw [characters?.eq_def]; exact if_pos hu
  | plain .. :: _, _ => rw [characters?.eq_def]; exact if_pos hu
  | short .. :: _, _ => rw [characters?.eq_def]; exact if_pos hu
  | unit v :: ps, hnext =>
    rw [startsTrailing] at hnext
    rw [characters?, hnext, hu]
    rfl

theorem characters?_whole {u : EscapedUnit} (hu : (u.isLeading || u.isTrailing) = false) :
    characters? (unit u :: ps) = (characters? ps).map (Char.ofNat u.value :: ·) := by
  match ps with
  | [] => rw [characters?.eq_def]; exact if_neg (by rw [hu]; exact Bool.false_ne_true)
  | plain .. :: _ => rw [characters?.eq_def]; exact if_neg (by rw [hu]; exact Bool.false_ne_true)
  | short .. :: _ => rw [characters?.eq_def]; exact if_neg (by rw [hu]; exact Bool.false_ne_true)
  | unit v :: ps =>
    have hl : u.isLeading = false := (Bool.or_eq_false_iff.mp hu).1
    rw [characters?, hu, hl]
    rfl

end Piece

/-! ## Texts -/

/-- The text of bytes. -/
def textOf (bytes : List UInt8) : String := (String.fromUTF8? ⟨bytes.toArray⟩).getD ""

/-- A short escape stands for an ASCII character, which is a single byte. -/
theorem utf8EncodeChar_short {letter byte : UInt8} (h : escapeByte? letter = some byte) :
    String.utf8EncodeChar (Char.ofNat byte.toNat) = [byte] := by
  unfold escapeByte? at h
  split_ifs at h with hself
  · obtain rfl : letter = byte := Option.some.inj h
    simp only [Bool.or_eq_true, decide_eq_true_eq] at hself
    rcases hself with (rfl | rfl) | rfl <;> rfl
  all_goals
    cases h
    rfl

/-- What a text comes to that goes on with the given characters. -/
def contentAfter (content : Except Mark (List UInt8)) (characters : Option (List Char)) :
    Option String :=
  content.toOption.bind fun acc => characters.map fun cs =>
    textOf (acc.reverse ++ cs.flatMap String.utf8EncodeChar)

theorem contentAfter_map (content : Except Mark (List UInt8)) (c : Char)
    (characters : Option (List Char)) :
    contentAfter (content.map ((String.utf8EncodeChar c).reverse ++ ·)) characters
      = contentAfter content (characters.map (c :: ·)) := by
  cases content with
  | error m => rfl
  | ok acc => simp [contentAfter, Except.map, Except.toOption, Function.comp_def]

/-- A flaw of the content stays, whatever follows. -/
theorem contentAfter_noteFlaw (content : Except Mark (List UInt8)) (m : Mark)
    (characters : Option (List Char)) :
    contentAfter (noteFlaw content m) characters = contentAfter content none := by
  cases content <;> rfl

/-- The rest of a text is taken whole: it has the given bytes before its closing
quote, and goes on with the given characters. -/
def TextTaken (content : Except Mark (List UInt8)) (bytes : List UInt8)
    (characters : Option (List Char)) (rest : List UInt8) : Prop :=
  ∀ offset taken, ∃ v, scanText offset taken content (bytes ++ 34 :: rest)
      = .made (.text v) (taken + bytes.length + 1) ∧
    v.toOption = contentAfter content characters

section

variable {content content' : Except Mark (List UInt8)} {word bytes : List UInt8}
  {characters characters' : Option (List Char)}

theorem textTaken_nil (content : Except Mark (List UInt8)) (rest : List UInt8) :
    TextTaken content [] (some []) rest := by
  intro offset taken
  refine ⟨_, by rw [List.nil_append, scanText.eq_def]; rfl, ?_⟩
  cases content <;> simp [contentAfter, Except.map, Except.toOption, textOf]

/-- What is taken as one may stand before the rest of a text. -/
theorem TextTaken.append (h : TextTaken content' bytes characters' rest)
    {offset taken : Nat} (hstep : scanText offset taken content (word ++ (bytes ++ 34 :: rest))
      = scanText (offset + word.length) (taken + word.length) content' (bytes ++ 34 :: rest))
    (hcontent : contentAfter content' characters' = contentAfter content characters) :
    ∃ v, scanText offset taken content (word ++ bytes ++ 34 :: rest)
        = .made (.text v) (taken + (word ++ bytes).length + 1) ∧
      v.toOption = contentAfter content characters := by
  obtain ⟨v, hv, hvalue⟩ := h (offset + word.length) (taken + word.length)
  refine ⟨v, ?_, hvalue.trans hcontent⟩
  rw [List.append_assoc, hstep, hv, List.length_append]
  congr 1
  omega

end

/-- **A text is taken whole**, and its content is what its pieces stand for, after
that of the bytes before. -/
theorem textTaken_pieces (ps : List Piece) (content : Except Mark (List UInt8))
    (rest : List UInt8) :
    TextTaken content (ps.flatMap Piece.bytes) (Piece.characters? ps) rest := by
  obtain ⟨n, hn⟩ : ∃ n, ps.length ≤ n := ⟨_, Nat.le_refl _⟩
  -- halves of a character are taken two pieces at a time
  induction n generalizing ps content with
  | zero =>
    obtain rfl : ps = [] := List.length_eq_zero_iff.mp (Nat.le_zero.mp hn)
    exact textTaken_nil content rest
  | succ n ih =>
    cases ps with
    | nil => exact textTaken_nil content rest
    | cons p ps =>
      have hps : ps.length ≤ n := Nat.le_of_succ_le_succ hn
      intro offset taken
      rw [List.flatMap_cons]
      cases p with
      | plain c h =>
        exact (ih ps _ hps).append (scanText_plain (fun b hb => plain_bytes h hb) ..)
          (contentAfter_map content c _)
      | short letter byte h =>
        have hcontent := contentAfter_map content (Char.ofNat byte.toNat) (Piece.characters? ps)
        rw [utf8EncodeChar_short h] at hcontent
        exact (ih ps _ hps).append (scanText_short h ..) hcontent
      | unit u =>
        cases hnext : u.isLeading && startsTrailing ps with
        | true =>
          obtain ⟨w, ps', rfl, hu, hw, hcharacters⟩ := Piece.characters?_joined hnext
          rw [hcharacters, List.flatMap_cons, ← List.append_assoc]
          exact (ih ps' _ (Nat.le_of_succ_le hps)).append (scanText_joined _ _ _ hu hw)
            (contentAfter_map content (u.joined w) _)
        | false =>
          cases hu : u.isLeading || u.isTrailing with
          | true =>
            obtain ⟨m, hm⟩ := scanText_half offset taken content hu hnext rest
            rw [Piece.characters?_half hu hnext]
            exact (ih ps _ hps).append hm (contentAfter_noteFlaw content m _)
          | false =>
            rw [Piece.characters?_whole hu]
            exact (ih ps _ hps).append (scanText_whole _ _ _ hu)
              (contentAfter_map content (Char.ofNat u.value) _)

theorem textOf_characters (cs : List Char) :
    textOf (cs.flatMap String.utf8EncodeChar) = String.ofList cs := by
  have hbytes : (⟨(cs.flatMap String.utf8EncodeChar).toArray⟩ : ByteArray) = cs.utf8Encode := by
    apply ByteArray.ext
    rw [List.utf8Encode, List.data_toByteArray]
  rw [textOf, hbytes, String.fromUTF8?, dif_pos ⟨cs, rfl⟩]
  rfl

/-- The content of a text is that of its pieces. -/
theorem scanText_content (ps : List Piece) (offset : Nat) (rest : List UInt8) :
    ∃ v, scanText offset 0 (.ok []) (ps.flatMap Piece.bytes ++ 34 :: rest)
        = .made (.text v) ((ps.flatMap Piece.bytes).length + 1) ∧
      v.toOption = Piece.content? ps := by
  obtain ⟨v, hv, hvalue⟩ := textTaken_pieces ps (.ok []) rest offset 0
  refine ⟨v, by rw [hv, Nat.zero_add], ?_⟩
  rw [hvalue, Piece.content?]
  simp only [contentAfter, Except.toOption, Option.bind_some, List.reverse_nil, List.nil_append,
    textOf_characters]

end Json

end Montage
