import Montage.Json.Token
/-!
# JSON — values and the texts that write them

A JSON value is a `Tree`. A text writes it as a sequence of lexemes
(`Tree.lexemes`), with any blanks between them (`Spaced`): words and signs are
written in one way, numbers as a `Literal`, and texts as `Piece`s, which are
characters that stand for themselves, short escapes, and escaped units of
sixteen bits.

A number beyond all doubles and a text with a lone surrogate are values as
well. Such a value can be skipped, though nobody can have its content, which is
why a number and a text of a tree are optional.
-/

namespace Montage

namespace Json

/-! ## Values -/

/-- A JSON value. The members of an object are in the order in which they are
written, and keys may be repeated. -/
inductive Tree where
  | null
  | bool (b : Bool)
  | number (value : Option Number)
  | text (content : Option String)
  | list (elements : List Tree)
  | object (members : List (Option String × Tree))

/-! ## Numbers as they are written -/

/-- A run of decimal digits. -/
structure Digits where
  bytes : List UInt8
  nonempty : bytes ≠ []
  areDigits : ∀ b ∈ bytes, isDigit b = true

/-- An exponent: its letter, its sign if it has one, and its digits. -/
structure Exponent where
  capital : Bool
  /-- Whether the sign is a minus. -/
  sign : Option Bool
  digits : Digits

namespace Exponent

def letter (e : Exponent) : UInt8 := if e.capital then 69 else 101

def signBytes (e : Exponent) : List UInt8 :=
  match e.sign with
  | none => []
  | some false => [43]
  | some true => [45]

/-- Whether the exponent is below zero. -/
def down (e : Exponent) : Bool := e.sign == some true

end Exponent

/-- A number as it is written. A whole part of several digits does not begin
with a zero. -/
structure Literal where
  minus : Bool
  whole : Digits
  shortest : whole.bytes.head? = some 48 → whole.bytes = [48]
  fraction : Option Digits
  exponent : Option Exponent

namespace Literal

def signBytes (l : Literal) : List UInt8 := if l.minus then [45] else []

def fractionBytes (l : Literal) : List UInt8 :=
  match l.fraction with
  | none => []
  | some digits => 46 :: digits.bytes

def exponentBytes (l : Literal) : List UInt8 :=
  match l.exponent with
  | none => []
  | some e => e.letter :: (e.signBytes ++ e.digits.bytes)

/-- The bytes of a number. -/
def bytes (l : Literal) : List UInt8 :=
  l.signBytes ++ (l.whole.bytes ++ (l.fractionBytes ++ l.exponentBytes))

/-- The significand and the power of ten that the digits make. -/
def parts (l : Literal) : Number.Parts :=
  let whole := l.whole.bytes.foldl (fun p d => p.wholeDigit (digitValue d)) ⟨0, 0⟩
  match l.fraction with
  | none => whole
  | some digits => whole.places (digits.bytes.map digitValue)

/-- The double of the given sign and magnitude. -/
def real (minus : Bool) (magnitude : Option Float) : Option Number :=
  magnitude.map fun x => .real (if minus then -x else x)

/-- The double of a number with an exponent. Exponents beyond the limit are not
computed with. -/
def raised (minus : Bool) (p : Number.Parts) (e : Exponent) : Option Number :=
  let n := digitsValue e.digits.bytes
  if n ≤ exponentLimit then
    real minus (Number.Parts.magnitude?
      ⟨p.significand, if e.down then p.power - n else p.power + n⟩)
  else if p.significand = 0 || e.down then real minus (some 0.0)
  else none

/-- What a number stands for. -/
def value (l : Literal) : Option Number :=
  match l.fraction, l.exponent with
  | none, none => (wholeNumber l.minus 0 l.whole.bytes).toOption
  | some _, none => real l.minus l.parts.magnitude?
  | _, some e => raised l.minus l.parts e

end Literal

/-! ## Texts as they are written -/

/-- A hexadecimal digit and its value. -/
structure HexDigit where
  byte : UInt8
  value : Nat
  value_eq : hexValue? byte = some value

/-- A unit of sixteen bits, escaped as four hexadecimal digits. -/
structure EscapedUnit where
  d3 : HexDigit
  d2 : HexDigit
  d1 : HexDigit
  d0 : HexDigit

namespace EscapedUnit

def bytes (u : EscapedUnit) : List UInt8 := [92, 117, u.d3.byte, u.d2.byte, u.d1.byte, u.d0.byte]

def value (u : EscapedUnit) : Nat :=
  ((u.d3.value * 16 + u.d2.value) * 16 + u.d1.value) * 16 + u.d0.value

/-- The first half of a character beyond sixteen bits. -/
def isLeading (u : EscapedUnit) : Bool := 0xD800 ≤ u.value && u.value ≤ 0xDBFF

/-- The second half of such a character. -/
def isTrailing (u : EscapedUnit) : Bool := 0xDC00 ≤ u.value && u.value ≤ 0xDFFF

/-- The character whose halves are given. -/
def joined (u v : EscapedUnit) : Char :=
  Char.ofNat ((u.value - 0xD800) * 0x400 + (v.value - 0xDC00) + 0x10000)

end EscapedUnit

/-- A piece of a text. -/
inductive Piece where
  /-- A character that stands for itself: no quote, no backslash and no control
  character. -/
  | plain (c : Char) (h : c.toNat ≠ 34 ∧ c.toNat ≠ 92 ∧ 32 ≤ c.toNat)
  /-- A backslash and a letter. -/
  | short (letter byte : UInt8) (h : escapeByte? letter = some byte)
  /-- A backslash and a unit of sixteen bits. -/
  | unit (u : EscapedUnit)

namespace Piece

def bytes : Piece → List UInt8
  | plain c _ => String.utf8EncodeChar c
  | short letter _ _ => [92, letter]
  | unit u => u.bytes

/-- The characters that pieces stand for, unless there is half a character
among them. -/
def characters? : List Piece → Option (List Char)
  | [] => some []
  | plain c _ :: ps => (characters? ps).map (c :: ·)
  | short _ byte _ :: ps => (characters? ps).map (Char.ofNat byte.toNat :: ·)
  | unit u :: unit v :: ps =>
    if u.isLeading && v.isTrailing then (characters? ps).map (u.joined v :: ·)
    else if u.isLeading || u.isTrailing then none
    else (characters? (unit v :: ps)).map (Char.ofNat u.value :: ·)
  | unit u :: ps =>
    if u.isLeading || u.isTrailing then none
    else (characters? ps).map (Char.ofNat u.value :: ·)

/-- The text that pieces stand for. -/
def content? (ps : List Piece) : Option String := (characters? ps).map String.ofList

end Piece

/-! ## Lexemes -/

/-- What a token says. -/
inductive Lexeme where
  | openBrace
  | closeBrace
  | openBracket
  | closeBracket
  | comma
  | colon
  | null
  | bool (b : Bool)
  | number (value : Option Number)
  | text (content : Option String)

/-- The ways to write a lexeme. -/
inductive Spelling : Lexeme → List UInt8 → Prop
  | openBrace : Spelling .openBrace [123]
  | closeBrace : Spelling .closeBrace [125]
  | openBracket : Spelling .openBracket [91]
  | closeBracket : Spelling .closeBracket [93]
  | comma : Spelling .comma [44]
  | colon : Spelling .colon [58]
  | null : Spelling .null [110, 117, 108, 108]
  | true : Spelling (.bool true) [116, 114, 117, 101]
  | false : Spelling (.bool false) [102, 97, 108, 115, 101]
  | number (l : Literal) : Spelling (.number l.value) l.bytes
  | text (ps : List Piece) :
      Spelling (.text (Piece.content? ps)) (34 :: (ps.flatMap Piece.bytes ++ [34]))

/-- Lexemes one after the other, with blanks before each and after the last. -/
inductive Spaced : List Lexeme → List UInt8 → Prop
  | nil {blanks : List UInt8} (h : ∀ b ∈ blanks, isBlank b = true) : Spaced [] blanks
  | cons {l : Lexeme} {ls : List Lexeme} {blanks word bytes : List UInt8}
      (h : ∀ b ∈ blanks, isBlank b = true) (hl : Spelling l word) (hls : Spaced ls bytes) :
      Spaced (l :: ls) (blanks ++ (word ++ bytes))

namespace Tree

/-- What stands before an element or a member. -/
def separator (first : Bool) : List Lexeme := if first then [] else [.comma]

mutual

/-- The lexemes of a value. -/
def lexemes : Tree → List Lexeme
  | null => [.null]
  | bool b => [.bool b]
  | number v => [.number v]
  | text s => [.text s]
  | list ts => .openBracket :: elementLexemes true ts
  | object ms => .openBrace :: memberLexemes true ms

/-- The lexemes of elements, up to the closing bracket. -/
def elementLexemes (first : Bool) : List Tree → List Lexeme
  | [] => [.closeBracket]
  | t :: ts => separator first ++ (t.lexemes ++ elementLexemes false ts)

/-- The lexemes of members, up to the closing brace. -/
def memberLexemes (first : Bool) : List (Option String × Tree) → List Lexeme
  | [] => [.closeBrace]
  | (k, t) :: ms =>
    separator first ++ (.text k :: .colon :: (t.lexemes ++ memberLexemes false ms))

end

/-- **A text writes a value.** -/
def Writes (t : Tree) (text : String) : Prop := Spaced t.lexemes text.toUTF8.toList

end Tree

end Json

end Montage
