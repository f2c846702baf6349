/-!
# JSON — what can be wrong with a document

A document is refused for one of three reasons: it ends too early, it is not
JSON, or it is JSON of another shape than asked for. A `Mark` is a cause at a
byte of the document; `DocumentFlaw` is the same seen as a line and a column.
-/

namespace Montage

namespace Json

/-- Why a document is refused. -/
inductive Cause where
  | endInList
  | endInObject
  | endInText
  | endInValue
  | missingColon
  | missingListSeparator
  | missingObjectSeparator
  | misspeltWord
  | missingValue
  | badEscape
  | badNumber
  | numberRange
  | controlCharacter
  | keyNotText
  | loneSurrogate
  | brokenSurrogatePair
  | trailingComma
  | trailingCharacters
  /-- A value of another kind than wanted. -/
  | wrongKind (found wanted : String)
  /-- A value of the right kind outside its range. -/
  | wrongValue (found wanted : String)
  /-- A list with too few elements. -/
  | wrongLength (found : Nat) (wanted : String)
  | missingField (key : String)
  | repeatedField (key : String)
deriving DecidableEq

/-- The three reasons for refusing a document. -/
inductive Category where
  /-- The document ends too early. -/
  | unfinished
  /-- The text is not JSON. -/
  | malformed
  /-- The document has another shape, or a value out of range. -/
  | mismatched
deriving DecidableEq

/-- The reason that a cause falls under. -/
def Cause.category : Cause → Category
  | .endInList | .endInObject | .endInText | .endInValue => .unfinished
  | .wrongKind .. | .wrongValue .. | .wrongLength .. | .missingField _ | .repeatedField _ =>
    .mismatched
  | _ => .malformed

/-- The wording of a cause. -/
def Cause.message : Cause → String
  | .endInList => "EOF while parsing a list"
  | .endInObject => "EOF while parsing an object"
  | .endInText => "EOF while parsing a string"
  | .endInValue => "EOF while parsing a value"
  | .missingColon => "expected `:`"
  | .missingListSeparator => "expected `,` or `]`"
  | .missingObjectSeparator => "expected `,` or `\x7d`"
  | .misspeltWord => "expected ident"
  | .missingValue => "expected value"
  | .badEscape => "invalid escape"
  | .badNumber => "invalid number"
  | .numberRange => "number out of range"
  | .controlCharacter => "control character (\\u0000-\\u001F) found while parsing a string"
  | .keyNotText => "key must be a string"
  | .loneSurrogate => "lone leading surrogate in hex escape"
  | .brokenSurrogatePair => "unexpected end of hex escape"
  | .trailingComma => "trailing comma"
  | .trailingCharacters => "trailing characters"
  | .wrongKind found wanted => "invalid type: " ++ found ++ ", expected " ++ wanted
  | .wrongValue found wanted => "invalid value: " ++ found ++ ", expected " ++ wanted
  | .wrongLength found wanted => "invalid length " ++ toString found ++ ", expected " ++ wanted
  | .missingField key => "missing field `" ++ key ++ "`"
  | .repeatedField key => "duplicate field `" ++ key ++ "`"

/-- A cause, at the number of bytes of the document that lie before it. -/
structure Mark where
  cause : Cause
  offset : Nat
deriving DecidableEq

end Json

/-- A cause for refusing a document, with the line and the column where it
shows, or a flaw that somebody else has worded. -/
inductive DocumentFlaw where
  | located (cause : Json.Cause) (line column : Nat)
  | worded (text : String)

namespace DocumentFlaw

/-- A mark as a line, counted from one, and the number of bytes before it on
that line. -/
def ofMark (bytes : List UInt8) (m : Json.Mark) : DocumentFlaw :=
  let before := bytes.take m.offset
  .located m.cause (before.count 10 + 1) (before.reverse.takeWhile (· != 10)).length

/-- The wording of a flaw. -/
def message : DocumentFlaw → String
  | .located cause line column =>
    cause.message ++ " at line " ++ toString line ++ " column " ++ toString column
  | .worded text => text

end DocumentFlaw

end Montage
