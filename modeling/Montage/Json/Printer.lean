import Montage.Decimal
/-!
# JSON — writing values

A value is written over several lines, each element and each field on a line
of its own and two blanks further in than what encloses it.
-/

namespace Montage

namespace Json

/-- A value that is written. -/
inductive Value where
  | number (x : Float)
  | list (elements : List Value)
  | object (fields : List (String × Value))

/-- A number with its shortest digits. What JSON has no number for is
`null`. -/
def numberText (x : Float) : String := if x.isFinite then Decimal.scientific x else "null"

/-- The start of a line, `depth` enclosures in. -/
def newLine (depth : Nat) : String := "\n" ++ String.ofList (List.replicate (2 * depth) ' ')

mutual

/-- The text of a value that stands `depth` enclosures in. -/
def Value.textAt (depth : Nat) : Value → String
  | .number x => numberText x
  | .list [] => "[]"
  | .list (v :: vs) =>
    "[" ++ newLine (depth + 1) ++ v.textAt (depth + 1) ++ moreElements (depth + 1) vs
      ++ newLine depth ++ "]"
  | .object [] => "\x7b\x7d"
  | .object ((k, v) :: fs) =>
    "\x7b" ++ newLine (depth + 1) ++ "\"" ++ k ++ "\": " ++ v.textAt (depth + 1)
      ++ moreFields (depth + 1) fs ++ newLine depth ++ "\x7d"

/-- The elements after the first. -/
def moreElements (depth : Nat) : List Value → String
  | [] => ""
  | v :: vs => "," ++ newLine depth ++ v.textAt depth ++ moreElements depth vs

/-- The fields after the first. Keys are plain words. -/
def moreFields (depth : Nat) : List (String × Value) → String
  | [] => ""
  | (k, v) :: fs =>
    "," ++ newLine depth ++ "\"" ++ k ++ "\": " ++ v.textAt depth ++ moreFields depth fs

end

/-- The text of a value. -/
def Value.text (v : Value) : String := v.textAt 0

end Json

end Montage
