import Montage.Json.Token
import Montage.Quotation
/-!
# JSON — reading values off tokens

A `Reader` takes a value of a known shape from the front of a token list and
hands on the rest. It asks for one shape and blames the document at the first
token that does not fit, so of two flaws the one met first is reported, even
where the later one makes the text no JSON at all.

The shapes are numbers in a range, truth values, lists of a fixed length,
lists of any length, values that may be `null`, and records. A record may be
written as an object, whose keys come in any order and whose unknown keys are
skipped, or as a list of its fields in their order, from which fields at the
end may be left off.
-/

namespace Montage

namespace Json

/-- Takes a value from the front of a list of tokens. -/
abbrev Reader (α : Type) := List Located → Except Mark (α × List Located)

/-! ## Tokens that do not fit -/

/-- The token at the front. A list that has run out stands for the end of an
empty document. -/
def front : List Located → Located
  | [] => ⟨.finish, 0, 0⟩
  | t :: _ => t

/-- The mark of a token that is refused for what it is. It shows behind the
token's first byte, or at the end of the document. -/
def refuse (cause atEnd : Cause) (t : Located) : Mark :=
  match t.token with
  | .finish => ⟨atEnd, t.start⟩
  | _ => ⟨cause, t.start + 1⟩

/-- The mark of a value of another kind than wanted. -/
def wrongKind (wanted : String) (t : Located) : Mark :=
  match t.token with
  | .null => ⟨.wrongKind "null" wanted, t.stop⟩
  | .bool b => ⟨.wrongKind ("boolean `" ++ toString b ++ "`") wanted, t.stop⟩
  | .number (.ok n) => ⟨.wrongKind n.quoted wanted, t.stop⟩
  | .number (.error m) => m
  | .text (.ok s) => ⟨.wrongKind ("string " ++ quoted s) wanted, t.stop⟩
  | .text (.error m) => m
  | .openBracket => ⟨.wrongKind "sequence" wanted, t.start⟩
  | .openBrace => ⟨.wrongKind "map" wanted, t.start⟩
  | .broken m _ | .brokenText m _ => m
  | _ => refuse .missingValue .endInValue t

/-! ## Plain values -/

/-- Reads a number and makes of it what `convert` says. -/
def number (wanted : String) (convert : Number → Except Cause α) : Reader α := fun ts =>
  let t := front ts
  match t.token with
  | .number (.ok n) =>
    match convert n with
    | .ok a => .ok (a, ts.tail)
    | .error cause => .error ⟨cause, t.stop⟩
  | _ => .error (wrongKind wanted t)

/-- Reads a whole number from zero up to, not including, `bound`. -/
def natural (wanted : String) (bound : Nat) : Reader Nat :=
  number wanted fun
    | .natural n => if n < bound then .ok n else .error (.wrongValue (Number.natural n).quoted wanted)
    | .negative n => .error (.wrongValue (Number.negative n).quoted wanted)
    | .real x => .error (.wrongKind (Number.real x).quoted wanted)

/-- Reads any number as a double. -/
def double : Reader Float := number "f64" fun n => .ok n.toFloat

/-- Reads any number in single precision. -/
def single : Reader Float := number "f32" fun n => .ok n.toSingle

/-- Reads a truth value. -/
def bool : Reader Bool := fun ts =>
  let t := front ts
  match t.token with
  | .bool b => .ok (b, ts.tail)
  | _ => .error (wrongKind "a boolean" t)

/-- Reads `null` as nothing, and anything else as `read` does. -/
def nullable (read : Reader α) : Reader (Option α) := fun ts =>
  match (front ts).token with
  | .null => .ok (none, ts.tail)
  | _ => (read ts).map fun (a, rest) => (some a, rest)

/-! ## Skipping -/

/-- What a skipped value may be nested in. -/
inductive Enclosure where
  | list
  | object
deriving DecidableEq

/-- Where a skipped value stands. -/
inductive Phase where
  /-- A value must come. -/
  | value
  /-- A value or the end of the innermost enclosure must come. -/
  | opened
  /-- A key must come. -/
  | key
  /-- A colon must come. -/
  | colon
  /-- A comma or the end of the innermost enclosure must come. -/
  | closed

/-- What one token does to a skipped value. -/
inductive SkipStep where
  | goOn (enclosing : List Enclosure) (phase : Phase)
  | done
  | failed (m : Mark)

/-- A value or an enclosure has ended. -/
def afterValue : List Enclosure → SkipStep
  | [] => .done
  | enclosing => .goOn enclosing .closed

/-- A value must come, and the token is its first. -/
def skipValueToken (enclosing : List Enclosure) (t : Located) : SkipStep :=
  match t.token with
  | .null | .bool _ | .number _ | .text _ => afterValue enclosing
  | .openBracket => .goOn (.list :: enclosing) .opened
  | .openBrace => .goOn (.object :: enclosing) .opened
  | .broken _ m | .brokenText _ m => .failed m
  | _ => .failed (refuse .missingValue .endInValue t)

/-- A key must come. -/
def skipKeyToken (enclosing : List Enclosure) (t : Located) : SkipStep :=
  match t.token with
  | .text _ => .goOn enclosing .colon
  | .brokenText _ m => .failed m
  | _ => .failed (refuse .keyNotText .endInObject t)

/-- One token of a skipped value. -/
def skipStep (enclosing : List Enclosure) (phase : Phase) (t : Located) : SkipStep :=
  match phase, enclosing with
  | .value, _ => skipValueToken enclosing t
  | .opened, .list :: outer =>
    match t.token with
    | .closeBracket => afterValue outer
    | .finish => .failed ⟨.endInList, t.start⟩
    | _ => skipValueToken enclosing t
  | .opened, .object :: outer =>
    match t.token with
    | .closeBrace => afterValue outer
    | _ => skipKeyToken enclosing t
  | .key, _ => skipKeyToken enclosing t
  | .colon, _ =>
    match t.token with
    | .colon => .goOn enclosing .value
    | _ => .failed (refuse .missingColon .endInObject t)
  | .closed, .list :: outer =>
    match t.token with
    | .comma => .goOn enclosing .value
    | .closeBracket => afterValue outer
    | _ => .failed (refuse .missingListSeparator .endInList t)
  | .closed, .object :: outer =>
    match t.token with
    | .comma => .goOn enclosing .key
    | .closeBrace => afterValue outer
    | _ => .failed (refuse .missingObjectSeparator .endInObject t)
  | .opened, [] => .done
  | .closed, [] => .done

/-- Skips the rest of a value, token by token. -/
def skipFrom (enclosing : List Enclosure) (phase : Phase) :
    List Located → Except Mark (List Located)
  | [] => .error ⟨.endInValue, 0⟩
  | t :: rest =>
    match skipStep enclosing phase t with
    | .goOn enclosing phase => skipFrom enclosing phase rest
    | .done => .ok rest
    | .failed m => .error m

/-- Skips a value of any shape. -/
def skip : List Located → Except Mark (List Located) := skipFrom [] .value

/-! ## Lists -/

/-- Whether a list goes on: the tokens of its next element, or nothing at its
end. `first` says that no element has come yet. -/
def nextElement (first : Bool) (ts : List Located) : Except Mark (Option (List Located)) :=
  let t := front ts
  match t.token, first with
  | .closeBracket, _ => .ok none
  | .finish, _ => .error ⟨.endInList, t.start⟩
  | _, true => .ok (some ts)
  | .comma, false =>
    let next := front ts.tail
    match next.token with
    | .closeBracket => .error ⟨.trailingComma, next.start + 1⟩
    | .finish => .error ⟨.endInValue, next.start⟩
    | _ => .ok (some ts.tail)
  | _, false => .error ⟨.missingListSeparator, t.start + 1⟩

/-- The end of a list all of whose elements have been read. -/
def endList (ts : List Located) : Except Mark (List Located) :=
  let t := front ts
  match t.token with
  | .closeBracket => .ok ts.tail
  | .comma =>
    let next := front ts.tail
    match next.token with
    | .closeBracket => .error ⟨.trailingComma, next.start + 1⟩
    | _ => .error (refuse .trailingCharacters .trailingCharacters next)
  | _ => .error (refuse .trailingCharacters .endInList t)

/-- Reads the elements of a list up to its closing bracket. -/
def elements (read : Reader α) : (fuel : Nat) → (first : Bool) → Reader (List α)
  | 0, _ => fun ts => .error ⟨.endInList, (front ts).start⟩
  | fuel + 1, first => fun ts => do
    match ← nextElement first ts with
    | none => return ([], (← endList ts))
    | some ts =>
      let (a, ts) ← read ts
      let (as, ts) ← elements read fuel false ts
      return (a :: as, ts)

/-- Reads a list of any length. Every element takes up a token, so there are
fewer of them than tokens. -/
def list (read : Reader α) : Reader (List α) := fun ts =>
  match (front ts).token with
  | .openBracket => elements read ts.length true ts.tail
  | _ => .error (wrongKind "a sequence" (front ts))

/-- Reads the elements of a list of fixed length, of which `count` are still
to come and `found` have been read. -/
def fixedElements (read : Reader α) (wanted : String) :
    (count found : Nat) → Reader (List α)
  | 0, _ => fun ts => do return ([], (← endList ts))
  | count + 1, found => fun ts => do
    match ← nextElement (found == 0) ts with
    | none => throw ⟨.wrongLength found wanted, (front ts).stop⟩
    | some ts =>
      let (a, ts) ← read ts
      let (as, ts) ← fixedElements read wanted count (found + 1) ts
      return (a :: as, ts)

/-- Reads a list of exactly `count` elements. -/
def fixedList (read : Reader α) (wanted : String) (count : Nat) : Reader (List α) := fun ts =>
  match (front ts).token with
  | .openBracket => fixedElements read wanted count 0 ts.tail
  | _ => .error (wrongKind wanted (front ts))

/-! ## Records -/

/-- A field of a record: its key, how its value is read into the record, and
whether it may be left out. -/
structure Field (σ : Type) where
  key : String
  read : σ → Reader σ
  required : Bool

/-- A field that keeps its value when a document leaves it out. -/
def Field.optional (key : String) (read : Reader α) (set : σ → α → σ) : Field σ where
  key := key
  read := fun s ts => (read ts).map fun (a, rest) => (set s a, rest)
  required := false

/-- A field that no document may leave out. -/
def Field.needed (key : String) (read : Reader α) (set : σ → α → σ) : Field σ :=
  { Field.optional key read set with required := true }

/-- Reads the fields of a record that is written as a list. `found` fields
have been read. -/
def positional (wanted : String) : (fields : List (Field σ)) → (found : Nat) → σ → Reader σ
  | [], _, s => fun ts => do return (s, (← endList ts))
  | f :: fields, found, s => fun ts => do
    match ← nextElement (found == 0) ts with
    | none =>
      match (f :: fields).findIdx? (·.required) with
      | some i => throw ⟨.wrongLength (found + i) wanted, (front ts).stop⟩
      | none => return (s, (← endList ts))
    | some ts =>
      let (s, ts) ← f.read s ts
      positional wanted fields (found + 1) s ts

/-- Whether an object goes on: the tokens from its next key on, or nothing at
its end. `first` says that no key has come yet. -/
def nextKey (first : Bool) (ts : List Located) : Except Mark (Option (List Located)) :=
  let t := front ts
  match t.token, first with
  | .closeBrace, _ => .ok none
  | .finish, _ => .error ⟨.endInObject, t.start⟩
  | _, true => .ok (some ts)
  | .comma, false =>
    let next := front ts.tail
    match next.token with
    | .closeBrace => .error ⟨.trailingComma, next.start + 1⟩
    | .finish => .error ⟨.endInValue, next.start⟩
    | _ => .ok (some ts.tail)
  | _, false => .error ⟨.missingObjectSeparator, t.start + 1⟩

/-- Reads a key. A text that cannot be made out is blamed for what it is, and
anything else for not being a text. -/
def key : Reader String := fun ts =>
  let t := front ts
  match t.token with
  | .text (.ok s) => .ok (s, ts.tail)
  | .text (.error m) => .error m
  | .brokenText m _ => .error m
  | _ => .error (refuse .keyNotText .endInObject t)

/-- Reads the colon after a key. -/
def colon (ts : List Located) : Except Mark (List Located) :=
  match (front ts).token with
  | .colon => .ok ts.tail
  | _ => .error (refuse .missingColon .endInObject (front ts))

/-- The mark of an object that is refused as a whole. It shows behind the
closing brace if that comes next, and before whatever else comes. -/
def refuseObject (cause : Cause) (ts : List Located) : Mark :=
  let t := front ts
  match t.token with
  | .closeBrace => ⟨cause, t.stop⟩
  | _ => ⟨cause, t.start⟩

/-- Reads the fields of a record that is written as an object, up to its
closing brace. `seen` holds the keys of the fields that have been read. -/
def members (fields : List (Field σ)) :
    (fuel : Nat) → (first : Bool) → (seen : List String) → σ → Reader σ
  | 0, _, _, _ => fun ts => .error ⟨.endInObject, (front ts).start⟩
  | fuel + 1, first, seen, s => fun ts => do
    match ← nextKey first ts with
    | none =>
      match fields.find? fun f => f.required && !seen.contains f.key with
      | some f => throw (refuseObject (.missingField f.key) ts)
      | none => return (s, ts.tail)
    | some ts =>
      let (k, ts) ← key ts
      match fields.find? fun f => f.key == k with
      | some f =>
        if seen.contains k then throw (refuseObject (.repeatedField k) ts)
        let (s, ts) ← f.read s (← colon ts)
        members fields fuel false (k :: seen) s ts
      | none =>
        let ts ← skip (← colon ts)
        members fields fuel false seen s ts

/-- Reads a record whose fields start out as in `start`. `wanted` names it in
messages, and `wantedList` its form as a list. -/
def record (wanted wantedList : String) (fields : List (Field σ)) (start : σ) : Reader σ :=
  fun ts =>
    match (front ts).token with
    | .openBracket => positional wantedList fields 0 start ts.tail
    | .openBrace => members fields ts.length true [] start ts.tail
    | _ => .error (wrongKind wanted (front ts))

/-! ## Documents -/

/-- Reads a whole document: one value, with nothing but blanks around it. -/
def readDocument (read : Reader α) (text : String) : Except DocumentFlaw α :=
  let bytes := text.toUTF8.toList
  let value : Except Mark α := do
    let (a, ts) ← read (tokens bytes)
    match (front ts).token with
    | .finish => return a
    | _ => throw ⟨.trailingCharacters, (front ts).start + 1⟩
  value.mapError (DocumentFlaw.ofMark bytes)

end Json

end Montage
