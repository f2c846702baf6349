import Montage.Json.Number
/-!
# JSON — tokens

A document is read in two stages. The first, here, cuts its bytes into
tokens and stops at the first place where no token can be made out. The
second, `Montage.Json.Reader`, reads values off the tokens.

A token of text or a number can be flawed in a way that shows only when its
content is asked for: a lone surrogate in a text, a number beyond all
doubles. Such a token carries the flaw in place of its content, and a reader
that skips it never sees the flaw. Where no token can be made out at all, the
two uses may blame the document for different reasons, and the tokens `broken`
and `brokenText` carry both.
-/

namespace Montage

namespace Json

/-- The smallest parts of a document. -/
inductive Token where
  | openBrace
  | closeBrace
  | openBracket
  | closeBracket
  | comma
  | colon
  | null
  | bool (b : Bool)
  | number (value : Except Mark Number)
  | text (content : Except Mark String)
  /-- Nothing can be made out: the reason for a reader that wants the value,
  and the reason for one that skips it. -/
  | broken (wanted skipped : Mark)
  /-- The same, where a quote has begun a text. -/
  | brokenText (wanted skipped : Mark)
  /-- The end of the document. -/
  | finish

/-- A token with the bytes it takes up, from `start` up to but not including
`stop`. -/
structure Located where
  token : Token
  start : Nat
  stop : Nat

/-- What a scanner makes of the bytes after a first one: a token that takes
up some of them, or nothing, with the reasons. -/
inductive Scan where
  | made (token : Token) (taken : Nat)
  | failed (wanted skipped : Mark)

/-- A failure for which both uses blame the document alike. -/
def Scan.fail (cause : Cause) (offset : Nat) : Scan := .failed ⟨cause, offset⟩ ⟨cause, offset⟩

/-! ## Words -/

/-- Scans the rest of a word. `taken` bytes of it, before `offset`, have been
recognised. -/
def scanWord (token : Token) : (word : List UInt8) → (offset taken : Nat) → List UInt8 → Scan
  | [], _, taken, _ => .made token taken
  | _ :: _, offset, _, [] => .fail .endInValue offset
  | c :: word, offset, taken, b :: rest =>
    if b = c then scanWord token word (offset + 1) (taken + 1) rest
    else .fail .misspeltWord (offset + 1)

/-! ## Numbers -/

/-- Whether a byte is a decimal digit. -/
def isDigit (b : UInt8) : Bool := 48 ≤ b && b ≤ 57

/-- The value of a decimal digit. -/
def digitValue (b : UInt8) : Nat := b.toNat - 48

/-- The number that a run of digits stands for. -/
def digitsValue (ds : List UInt8) : Nat := ds.foldl (fun n d => n * 10 + digitValue d) 0

/-- The longest exponents that are taken at their value. -/
def exponentLimit : Nat := 2147483647

/-- The length of the shortest beginning of a run of digits whose value is
above the limit for exponents, or the length of the run. -/
def overlongAt (value taken : Nat) : List UInt8 → Nat
  | [] => taken
  | d :: rest =>
    if value * 10 + digitValue d > exponentLimit then taken + 1
    else overlongAt (value * 10 + digitValue d) (taken + 1) rest

/-- The number with the given sign and magnitude, or the mark of a magnitude
beyond all doubles. -/
def finishReal (minus : Bool) (offset : Nat) : Option Float → Except Mark Number
  | some x => .ok (.real (if minus then -x else x))
  | none => .error ⟨.numberRange, offset⟩

/-- The number without a point or an exponent whose digits are `digits`. -/
def wholeNumber (minus : Bool) (offset : Nat) (digits : List UInt8) : Except Mark Number :=
  let n := digitsValue digits
  if minus then
    if n = 0 then .ok (.real (-0.0))
    else if n ≤ 1 <<< 63 then .ok (.negative (-n))
    else if n < UInt64.size then .ok (.real (-(Float.ofNat n)))
    else finishReal minus offset (Number.Parts.magnitude?
      (digits.foldl (fun p d => p.wholeDigit (digitValue d)) ⟨0, 0⟩))
  else if n < UInt64.size then .ok (.natural n)
  else finishReal minus offset (Number.Parts.magnitude?
    (digits.foldl (fun p d => p.wholeDigit (digitValue d)) ⟨0, 0⟩))

/-- Scans the exponent of a number. `offset` is where the exponent's sign or
digits begin, and `taken` counts the bytes of the number before that. -/
def scanExponent (minus : Bool) (parts : Number.Parts) (offset taken : Nat)
    (bytes : List UInt8) : Scan :=
  let signed := bytes.head? == some 43 || bytes.head? == some 45
  let down := bytes.head? == some 45
  let skip := if signed then 1 else 0
  let digits := (bytes.drop skip).takeWhile isDigit
  let first := offset + skip
  match bytes.drop skip with
  | [] => .failed ⟨.endInValue, first⟩ ⟨.badNumber, first⟩
  | b :: _ =>
    if !isDigit b then .fail .badNumber (first + 1)
    else
      let taken := taken + skip + digits.length
      let e := digitsValue digits
      if e > exponentLimit then
        if parts.significand ≠ 0 && !down then
          .made (.number (.error ⟨.numberRange, first + overlongAt 0 0 digits⟩)) taken
        else .made (.number (finishReal minus offset (some 0.0))) taken
      else
        let power := if down then parts.power - e else parts.power + e
        .made (.number (finishReal minus (first + digits.length)
          (Number.Parts.magnitude? ⟨parts.significand, power⟩))) taken

/-- Scans what follows the whole part of a number. -/
def scanFraction (minus : Bool) (whole : List UInt8) (offset taken : Nat)
    (bytes : List UInt8) : Scan :=
  let parts := whole.foldl (fun p d => p.wholeDigit (digitValue d)) (⟨0, 0⟩ : Number.Parts)
  match bytes with
  | 46 :: rest =>
    let digits := rest.takeWhile isDigit
    if digits.isEmpty then
      if rest.isEmpty then .failed ⟨.endInValue, offset + 1⟩ ⟨.badNumber, offset + 1⟩
      else .fail .badNumber (offset + 2)
    else
      let parts := parts.places (digits.map digitValue)
      let offset := offset + 1 + digits.length
      let taken := taken + 1 + digits.length
      match rest.drop digits.length with
      | 101 :: tail => scanExponent minus parts (offset + 1) (taken + 1) tail
      | 69 :: tail => scanExponent minus parts (offset + 1) (taken + 1) tail
      | _ => .made (.number (finishReal minus offset parts.magnitude?)) taken
  | 101 :: tail => scanExponent minus parts (offset + 1) (taken + 1) tail
  | 69 :: tail => scanExponent minus parts (offset + 1) (taken + 1) tail
  | _ => .made (.number (wholeNumber minus offset whole)) taken

/-- Scans a number from its first digit. `before` bytes of the token, the
minus sign, have been taken, and `offset` is where the digits begin. -/
def scanNumber (minus : Bool) (offset before : Nat) (bytes : List UInt8) : Scan :=
  match bytes with
  | [] => .failed ⟨.endInValue, offset⟩ ⟨.badNumber, offset⟩
  | b :: rest =>
    if !isDigit b then .fail .badNumber (offset + 1)
    else if b = 48 then
      if rest.head?.any isDigit then .fail .badNumber (offset + 2)
      else scanFraction minus [b] (offset + 1) (before + 1) rest
    else
      let digits := bytes.takeWhile isDigit
      scanFraction minus digits (offset + digits.length) (before + digits.length)
        (bytes.drop digits.length)

/-! ## Texts -/

/-- The value of a hexadecimal digit. -/
def hexValue? (b : UInt8) : Option Nat :=
  if isDigit b then some (digitValue b)
  else if 97 ≤ b && b ≤ 102 then some (b.toNat - 87)
  else if 65 ≤ b && b ≤ 70 then some (b.toNat - 55)
  else none

/-- The sixteen-bit unit written by four hexadecimal digits at the head of
the bytes, or the mark of what is there instead. -/
def hexUnit (offset : Nat) (bytes : List UInt8) : Except Mark Nat :=
  match bytes with
  | a :: b :: c :: d :: _ =>
    match hexValue? a, hexValue? b, hexValue? c, hexValue? d with
    | some a, some b, some c, some d => .ok (((a * 16 + b) * 16 + c) * 16 + d)
    | _, _, _, _ => .error ⟨.badEscape, offset + 4⟩
  | _ => .error ⟨.endInText, offset + bytes.length⟩

/-- The byte that an escape letter stands for. -/
def escapeByte? (b : UInt8) : Option UInt8 :=
  if b = 34 || b = 92 || b = 47 then some b
  else if b = 98 then some 8
  else if b = 102 then some 12
  else if b = 110 then some 10
  else if b = 114 then some 13
  else if b = 116 then some 9
  else none

/-- The character that begins with the escaped unit `unit`, and the number of
further bytes it takes up: a leading surrogate needs an escaped trailing one
right after it. -/
def escapedCharacter (unit offset : Nat) (bytes : List UInt8) : Except Mark (Char × Nat) :=
  if 0xDC00 ≤ unit && unit ≤ 0xDFFF then .error ⟨.loneSurrogate, offset⟩
  else if unit < 0xD800 || 0xDBFF < unit then .ok (Char.ofNat unit, 0)
  else
    match bytes with
    | [] => .error ⟨.endInText, offset⟩
    | 92 :: [] => .error ⟨.endInText, offset + 1⟩
    | 92 :: 117 :: rest => do
      let trailing ← hexUnit (offset + 2) rest
      if 0xDC00 ≤ trailing && trailing ≤ 0xDFFF then
        .ok (Char.ofNat ((unit - 0xD800) * 0x400 + (trailing - 0xDC00) + 0x10000), 6)
      else .error ⟨.loneSurrogate, offset + 6⟩
    | 92 :: _ :: _ => .error ⟨.brokenSurrogatePair, offset + 2⟩
    | _ :: _ => .error ⟨.brokenSurrogatePair, offset + 1⟩

/-- Notes a flaw of a text's content unless there is one already. -/
def noteFlaw (content : Except Mark (List UInt8)) (m : Mark) : Except Mark (List UInt8) :=
  match content with
  | .ok _ => .error m
  | .error first => .error first

/-- Why a text that cannot be made out is refused: the first flaw of its
content, if there has been one, and else the failure itself. -/
def failText (content : Except Mark (List UInt8)) (wanted skipped : Mark) : Scan :=
  match content with
  | .ok _ => .failed wanted skipped
  | .error first => .failed first skipped

/-- Scans a text after its opening quote. `taken` bytes have been scanned,
the next is at `offset`, and `content` holds what they stand for, last byte
first, or the first flaw of it. -/
def scanText (offset taken : Nat) (content : Except Mark (List UInt8)) (bytes : List UInt8) :
    Scan :=
  match bytes with
  | [] => failText content ⟨.endInText, offset⟩ ⟨.endInText, offset⟩
  | b :: rest =>
    if b = 34 then
      .made (.text (content.map fun c =>
        (String.fromUTF8? ⟨c.reverse.toArray⟩).getD "")) (taken + 1)
    else if b = 92 then
      match rest with
      | [] => failText content ⟨.endInText, offset + 1⟩ ⟨.endInText, offset + 1⟩
      | e :: after =>
        if e = 117 then
          match hexUnit (offset + 2) after with
          | .error m => failText content m m
          | .ok unit =>
            match escapedCharacter unit (offset + 6) (after.drop 4) with
            | .ok (c, more) =>
              scanText (offset + 6 + more) (taken + 6 + more)
                (content.map (c.toString.toUTF8.toList.reverse ++ ·))
                (after.drop (4 + more))
            | .error m =>
              scanText (offset + 6) (taken + 6) (noteFlaw content m) (after.drop 4)
        else
          match escapeByte? e with
          | some c => scanText (offset + 2) (taken + 2) (content.map (c :: ·)) after
          | none => failText content ⟨.badEscape, offset + 2⟩ ⟨.badEscape, offset + 2⟩
    else if b < 32 then
      failText content ⟨.controlCharacter, offset + 1⟩ ⟨.controlCharacter, offset⟩
    else scanText (offset + 1) (taken + 1) (content.map (b :: ·)) rest
termination_by bytes.length
decreasing_by all_goals (simp_all; try omega)

/-! ## Documents -/

/-- Whether a byte may stand between tokens. -/
def isBlank (b : UInt8) : Bool := b = 32 || b = 10 || b = 9 || b = 13

/-- Scans the token that begins with the byte `b` at `offset`. The count of a
token that is made is of the bytes after `b`. -/
def scan (offset : Nat) (b : UInt8) (rest : List UInt8) : Scan :=
  if b = 123 then .made .openBrace 0
  else if b = 125 then .made .closeBrace 0
  else if b = 91 then .made .openBracket 0
  else if b = 93 then .made .closeBracket 0
  else if b = 44 then .made .comma 0
  else if b = 58 then .made .colon 0
  else if b = 34 then scanText (offset + 1) 0 (.ok []) rest
  else if b = 110 then scanWord .null [117, 108, 108] (offset + 1) 0 rest
  else if b = 116 then scanWord (.bool true) [114, 117, 101] (offset + 1) 0 rest
  else if b = 102 then scanWord (.bool false) [97, 108, 115, 101] (offset + 1) 0 rest
  else if b = 45 then scanNumber true (offset + 1) 0 rest
  else if isDigit b then
    match scanNumber false offset 0 (b :: rest) with
    | .made t taken => .made t (taken - 1)
    | failed => failed
  else .fail .missingValue (offset + 1)

/-- The tokens of a document from `offset` on. The last of them is `finish`,
or says where nothing could be made out. -/
def tokensFrom (offset : Nat) (bytes : List UInt8) : List Located :=
  match bytes with
  | [] => [⟨.finish, offset, offset⟩]
  | b :: rest =>
    if isBlank b then tokensFrom (offset + 1) rest
    else
      match scan offset b rest with
      | .made t taken =>
        ⟨t, offset, offset + 1 + taken⟩ :: tokensFrom (offset + 1 + taken) (rest.drop taken)
      | .failed wanted skipped =>
        [⟨if b = 34 then .brokenText wanted skipped else .broken wanted skipped, offset, offset⟩]
termination_by bytes.length
decreasing_by all_goals (simp_all; try omega)

/-- The tokens of a document. -/
def tokens (bytes : List UInt8) : List Located := tokensFrom 0 bytes

end Json

end Montage
