import Montage.Quotation.Unseen
/-!
# Quotation — a text between quotes

Messages quote texts that come from outside. Between the quotes a quote and a
backslash are escaped, and characters that would not show are written by their
number.
-/

namespace Montage

namespace Quotation

/-- Whether a character shows by itself. -/
def shows (c : Char) : Bool := !unseen.any fun (first, last) => first ≤ c.toNat && c.toNat ≤ last

/-- A character as it is written between quotes. -/
def escaped (c : Char) : String :=
  if c = '"' then "\\\"" else if c = '\\' then "\\\\"
  else if c = '\n' then "\\n" else if c = '\r' then "\\r" else if c = '\t' then "\\t"
  else if c.toNat = 0 then "\\0"
  else if shows c then c.toString
  else "\\u\x7b" ++ String.ofList (Nat.toDigits 16 c.toNat) ++ "\x7d"

/-- A character as it is written where no quotes show its ends. -/
def escapedAlone (c : Char) : String := if c.toNat = 39 then "\\'" else escaped c

end Quotation

/-- A text as it is quoted in a message. -/
def quoted (s : String) : String :=
  "\"" ++ String.join (s.toList.map Quotation.escaped) ++ "\""

end Montage
