import Montage.Codec.Inflate
import Montage.Codec.Png.Rows
/-!
# Reading a PNG

The chunks before the data say what the picture is like (`Preface`). Those of
the data follow each other, and are read only as far as they are needed
(`Pieces`). What comes after them is never looked at, except that something
must begin there.
-/

namespace Montage

namespace Png

/-! ## Chunks -/

/-- The head of a chunk: its length and its name. -/
def openChunk : List UInt8 → Except CodecFlaw (Nat × ChunkName × List UInt8)
  | l3 :: l2 :: l1 :: l0 :: b0 :: b1 :: b2 :: b3 :: rest =>
    .ok (numberOfBytes [l3, l2, l1, l0], ⟨b0, b1, b2, b3⟩, rest)
  | _ => .error .unexpectedEnd

/-- What follows the content of a chunk: its checksum, and the next chunk. -/
def closeChunk : List UInt8 → Except CodecFlaw (Nat × List UInt8)
  | c3 :: c2 :: c1 :: c0 :: rest => .ok (numberOfBytes [c3, c2, c1, c0], rest)
  | _ => .error .unexpectedEnd

/-! ## Before the data -/

/-- What the chunks before the data say. -/
structure Preface where
  head : Option Head
  palette : Option (List UInt8)
  /-- Some colours are transparent. -/
  transparent : Bool

/-- Whether a chunk may come next before the data. -/
def Preface.check (p : Preface) (name : ChunkName) : Except PngFlaw Unit :=
  if p.head.isNone && name != .head then .error (.beforeHead name)
  else if name = .furtherData then .error (.restart name)
  else .ok ()

/-- What is known after a chunk. -/
def Preface.add (p : Preface) (name : ChunkName) (content : List UInt8) :
    Except PngFlaw Preface := do
  if name = .head then
    if p.head.isSome then throw (.repeated name)
    return { p with head := some (← readHead content) }
  else if name = .palette then
    if p.palette.isSome then throw (.repeated name)
    return { p with palette := some content }
  else if name = .last then throw .dataMissing
  else if name.isCritical then throw (.unrecognized name)
  else return { p with transparent := p.transparent || name = .transparency }

/-- A flaw of a PNG among those of all formats. -/
def flawed : Except PngFlaw α → Except CodecFlaw α
  | .ok a => .ok a
  | .error flaw => .error (.png flaw)

/-- Reads the chunks before the data. What comes back begins with the first
chunk of the data. A chunk whose checksum is wrong is passed over if the
picture can be read without it. Each chunk takes up a byte at least, so `fuel`
need not exceed the number of bytes. -/
def readPreface : (fuel : Nat) → Preface → List UInt8 → Except CodecFlaw (Preface × List UInt8)
  | 0, _, _ => .error .unexpectedEnd
  | fuel + 1, preface, bytes => do
    let (length, name, rest) ← openChunk bytes
    flawed (preface.check name)
    if name = .data then return (preface, bytes)
    let content := rest.take length
    let (stored, rest) ← closeChunk (rest.drop length)
    if stored = checkOf name content then
      readPreface fuel (← flawed (preface.add name content)) rest
    else if name.isCritical then throw (.png (.check stored (checkOf name content) name))
    else readPreface fuel preface rest

/-! ## The data -/

/-- What comes after the data. -/
inductive Ending where
  /-- Nothing: the bytes end. -/
  | cut
  /-- A wrong checksum. -/
  | wrongCheck (stored computed : Nat)
  /-- Another chunk. -/
  | chunk

/-- The contents of the chunks of the data, and what comes after them. -/
structure Pieces where
  contents : List (List UInt8)
  ending : Ending

/-- Reads the chunks of the data. Each takes up a byte at least, so `fuel` need
not exceed the number of bytes. -/
def readPieces : (fuel : Nat) → List UInt8 → Pieces
  | 0, _ => ⟨[], .cut⟩
  | fuel + 1, bytes =>
    match openChunk bytes with
    | .error _ => ⟨[], .cut⟩
    | .ok (length, name, rest) =>
      if name ≠ .data then ⟨[], .chunk⟩
      else
        let content := rest.take length
        match closeChunk (rest.drop length) with
        | .error _ => ⟨[content], .cut⟩
        | .ok (stored, rest) =>
          if stored = checkOf name content then
            let others := readPieces fuel rest
            ⟨content :: others.contents, others.ending⟩
          else ⟨[content], .wrongCheck stored (checkOf name content)⟩

/-- The pieces that together have fewer than `count` bytes. -/
def piecesBefore (count : Nat) : List (List UInt8) → List (List UInt8)
  | [] => []
  | piece :: pieces =>
    if piece.length < count then piece :: piecesBefore (count - piece.length) pieces else []

/-- What the pieces hold, as far as it is read. A piece whose data is broken
counts as if it were not there, and the break comes with the answer. -/
def inflatePieces (pieces : List (List UInt8)) : Deflate.Inflated × Option DeflateFlaw :=
  let data := pieces.flatten
  let whole := Deflate.inflate data
  match whole.stop with
  | some (.broken flaw unread) =>
    (Deflate.inflate (piecesBefore (data.length - unread) pieces).flatten, some flaw)
  | _ => (whole, none)

/-- Why the rows are not all there, given what the data holds and what comes
after it. -/
def shortRows (held : Deflate.Inflated) : Ending → CodecFlaw
  | .cut => .unexpectedEnd
  | .wrongCheck stored computed => .png (.check stored computed .data)
  | .chunk => .png (if held.stop.isSome then .compressed .insufficient else .tooFewRows)

/-- The rows of a picture. Data after them need not be in order, but its
chunks must be. -/
def readRows (h : Head) (hasPalette : Bool) (pieces : Pieces) :
    Except CodecFlaw (List PassRows) := do
  let (held, broken) := inflatePieces pieces.contents
  let missing := match broken with
    | some flaw => .png (.compressed flaw)
    | none => shortRows held pieces.ending
  if h.kind = .indexed && !hasPalette then
    match ← flawed (unfilterFirst h held.bytes) with
    | none => throw missing
    | some _ => throw (.png .paletteMissing)
  else
    match ← flawed (unfilterPasses h held.bytes 0 h.passes) with
    | none => throw missing
    | some rows =>
      match pieces.ending with
      | .cut => throw .unexpectedEnd
      | .wrongCheck stored computed => throw (.png (.check stored computed .data))
      | .chunk => return rows

/-! ## Pictures -/

/-- Refuses bytes that do not begin as a PNG does. They are looked at four at a
time. -/
def checkSignature (bytes : List UInt8) : Except CodecFlaw Unit := do
  if bytes.length < 4 then throw .unexpectedEnd
  if bytes.take 4 ≠ Format.pngSignature.take 4 then throw (.png .signature)
  if bytes.length < 8 then throw .unexpectedEnd
  if bytes.take 8 ≠ Format.pngSignature then throw (.png .signature)

/-- The picture whose head and rows are given. -/
def pictureOf (h : Head) (palette : List UInt8) (rows : List PassRows) : Picture :=
  ⟨h.size, h.kind.isColored, h.kind.isTransparent, samples h palette.toArray rows⟩

/-- A PNG as a picture. Colours that are said to be transparent are read as if
they were not. -/
def decode (bytes : List UInt8) : Except CodecFlaw Picture := do
  checkSignature bytes
  let (preface, rest) ← readPreface bytes.length ⟨none, none, false⟩ (bytes.drop 8)
  match preface.head with
  | none => throw .unexpectedEnd
  | some h =>
    if Picture.sizeLimit < h.extent (preface.transparent && !h.kind.isTransparent) then
      throw .tooMuch
    let rows ← readRows h preface.palette.isSome (readPieces rest.length rest)
    return pictureOf h (preface.palette.getD []) rows

end Png

end Montage
