import Montage.Codec.Picture
/-!
# PNM

A PNM begins with its kind, `P1` to `P6`, and the numbers of its header: width,
height and, unless its samples are bits, the greatest sample. One blank ends
each number, more may follow it, and a `#` hides the rest of its line. The
samples follow as bytes or as numbers in text, and whatever comes after them is
ignored.
-/

namespace Montage

namespace Pnm

/-! ## Kinds -/

/-- What the samples stand for. -/
inductive Content where
  /-- A bit a pixel, where one is black. -/
  | bits
  | gray
  | colors

/-- A kind of PNM. -/
structure Kind where
  content : Content
  /-- The samples are numbers in text. -/
  asText : Bool

/-- The kind that a digit stands for. -/
def kindOf? (digit : UInt8) : Option Kind :=
  [((49 : UInt8), ⟨.bits, true⟩), (50, ⟨.gray, true⟩), (51, ⟨.colors, true⟩),
    (52, ⟨.bits, false⟩), (53, ⟨.gray, false⟩), (54, ⟨.colors, false⟩)].lookup digit

/-- Whether a kind is in colour. -/
def Kind.isColored (k : Kind) : Bool :=
  match k.content with
  | .colors => true
  | .bits | .gray => false

/-! ## Numbers -/

/-- Whether a byte separates numbers. -/
def isBlank (b : UInt8) : Bool := b == 32 || (9 ≤ b && b ≤ 13)

/-- Whether a byte ends a line. -/
def endsLine (b : UInt8) : Bool := b == 10 || b == 13

/-- The number whose digits are `value` and a further one, below `limit`.
`sample` tells whether it is a sample. -/
def digit (sample : Bool) (limit : Nat) (value : Option Nat) (b : UInt8) : Except CodecFlaw Nat :=
  if b < 48 || 57 < b then .error (.pnm (.notDigit sample))
  else
    let n := value.getD 0 * 10 + (b.toNat - 48)
    if n < limit then .ok n else .error (.pnm (.tooLarge sample))

/-- Reads a number of the header. `value` is the number read so far, and
`hidden` tells whether a comment is being passed over. -/
def readNumber : (value : Option Nat) → (hidden : Bool) → List UInt8 →
    Except CodecFlaw (Nat × List UInt8)
  | none, _, [] => .error .unexpectedEnd
  | some n, _, [] => .ok (n, [])
  | value, true, b :: rest => readNumber value (!endsLine b) rest
  | value, false, b :: rest =>
    if b == 35 then readNumber value true rest
    else if isBlank b then
      match value with
      | none => readNumber none false rest
      | some n => .ok (n, rest)
    else if 127 < b then .error (.pnm (.notText b))
    else do readNumber (some (← digit false UInt32.size value b)) false rest

/-! ## Headers -/

/-- The greatest sample that fits into two bytes. -/
def wordLimit : Nat := 65535

/-- What the header says. -/
structure Head where
  kind : Kind
  size : Size
  /-- The sample that stands for full light. -/
  greatest : Nat

namespace Head

/-- The bytes that a sample is held in. -/
def sampleBytes (h : Head) : Nat := if h.greatest ≤ 255 then 1 else 2

/-- The number of samples. -/
def count (h : Head) : Nat :=
  h.size.width * h.size.height * Picture.channels h.kind.isColored false

end Head

/-- Reads a header. -/
def readHead (kind : Kind) (bytes : List UInt8) : Except CodecFlaw (Head × List UInt8) := do
  let (width, rest) ← readNumber none false bytes
  let (height, rest) ← readNumber none false rest
  match kind.content with
  | .bits => return (⟨kind, ⟨width, height⟩, 1⟩, rest)
  | .gray | .colors =>
    let (greatest, rest) ← readNumber none false rest
    if wordLimit < greatest then throw (.pnm (.greatest greatest))
    return (⟨kind, ⟨width, height⟩, greatest⟩, rest)

/-- Refuses a picture whose samples would take up too much space. -/
def checkExtent (h : Head) : Except CodecFlaw Unit := do
  if UInt64.size ≤ h.count * h.sampleBytes then throw (.extent .pnm h.size)
  if Picture.sizeLimit < h.count * h.sampleBytes then throw .tooMuch

/-! ## Samples -/

/-- Samples brought to bytes so that the greatest becomes 255. -/
def scaleByte (greatest : Nat) (b : UInt8) : UInt8 :=
  (b.toFloat32 * (255.0 / greatest.toFloat32)).round.toUInt8

/-- Samples brought to words so that the greatest becomes 65535. -/
def scaleWord (greatest : Nat) (w : UInt16) : UInt16 :=
  (w.toFloat32 * (65535.0 / greatest.toFloat32)).round.toUInt16

/-- Samples of a byte or two as a picture holds them. -/
def sampleData (h : Head) (values : Array Nat) : SampleData :=
  if h.greatest = 255 then .bytes (values.map UInt8.ofNat)
  else if h.greatest < 255 then .bytes (values.map fun n => scaleByte h.greatest (UInt8.ofNat n))
  else if h.greatest = wordLimit then .words (values.map UInt16.ofNat)
  else .words (values.map fun n => scaleWord h.greatest (UInt16.ofNat n))

/-- The brightness of a bit. -/
def bitByte (isBlack : Bool) : UInt8 := if isBlack then 0 else 255

/-- The numbers of two bytes each, the highest first. -/
def wordsOf : List UInt8 → List Nat
  | a :: b :: rest => (a.toNat * 256 + b.toNat) :: wordsOf rest
  | _ => []

/-- Samples that are held in bytes. -/
def rawSamples (h : Head) (bytes : List UInt8) : Except CodecFlaw SampleData :=
  match h.kind.content with
  | .bits =>
    -- each row begins with a fresh byte
    let stride := (h.size.width + 7) / 8
    let held := (bytes.take (stride * h.size.height)).toArray
    if held.size < stride * h.size.height then .error .truncated
    else
      .ok (.bytes (Array.ofFn fun i : Fin (h.size.width * h.size.height) =>
        let x := i % h.size.width
        let b := held.getD (i / h.size.width * stride + x / 8) 0
        bitByte (b.toNat >>> (7 - x % 8) % 2 == 1)))
  | .gray | .colors =>
    let held := bytes.take (h.count * h.sampleBytes)
    if held.length < h.count * h.sampleBytes then .error .truncated
    else
      .ok (sampleData h
        (if h.sampleBytes = 1 then held.map UInt8.toNat else wordsOf held).toArray)

/-- Reads a bit in text. -/
def readBit : List UInt8 → Except CodecFlaw (Bool × List UInt8)
  | [] => .error .unexpectedEnd
  | b :: rest =>
    if isBlank b then readBit rest
    else if b == 48 then .ok (false, rest)
    else if b == 49 then .ok (true, rest)
    else .error (.pnm (.notBit b))

/-- Reads `count` bits in text. -/
def readBits : (count : Nat) → (done : Array UInt8) → List UInt8 → Except CodecFlaw (Array UInt8)
  | 0, done, _ => .ok done
  | count + 1, done, bytes =>
    match readBit bytes with
    | .ok (isBlack, rest) => readBits count (done.push (bitByte isBlack)) rest
    | .error flaw => .error flaw

/-- Reads a sample in text. `value` is the number read so far. -/
def readSample : (value : Option Nat) → List UInt8 → Except CodecFlaw (Nat × List UInt8)
  | none, [] => .error .unexpectedEnd
  | some n, [] => .ok (n, [])
  | value, b :: rest =>
    if isBlank b then
      match value with
      | none => readSample none rest
      | some n => .ok (n, rest)
    else if 127 < b then .error (.pnm .sampleNotText)
    else do readSample (some (← digit true UInt16.size value b)) rest

/-- Reads `count` samples in text, each of `limit` at most. -/
def readSamples (limit : Nat) : (count : Nat) → (done : Array Nat) → List UInt8 →
    Except CodecFlaw (Array Nat)
  | 0, done, _ => .ok done
  | count + 1, done, bytes =>
    match readSample none bytes with
    | .ok (n, rest) =>
      if limit < n then .error (.pnm (.sampleTooLarge n))
      else readSamples limit count (done.push n) rest
    | .error flaw => .error flaw

/-- Samples that are numbers in text. -/
def textSamples (h : Head) (bytes : List UInt8) : Except CodecFlaw SampleData :=
  match h.kind.content with
  | .bits => (readBits h.count #[] bytes).map .bytes
  | .gray | .colors =>
    (readSamples (if h.sampleBytes = 1 then 255 else wordLimit) h.count #[] bytes).map
      (sampleData h)

/-! ## Pictures -/

/-- A PNM as a picture. The most general kind, `P7`, is not read. -/
def decode : List UInt8 → Except CodecFlaw Picture
  | 80 :: digit :: rest =>
    match kindOf? digit with
    | none => .error (if digit == 55 then .notRead .pnm else .pnm (.signature [80, digit]))
    | some kind => do
      let (head, rest) ← readHead kind rest
      checkExtent head
      let data ← if kind.asText then textSamples head rest else rawSamples head rest
      return ⟨head.size, kind.isColored, false, data⟩
  | a :: b :: _ => .error (.pnm (.signature [a, b]))
  | _ => .error .truncated

/-- A picture as a PNM. Transparency is left out, and samples are brought to
eight bits. -/
def encode (p : Picture) : List UInt8 :=
  let head := Format.textBytes ((if p.colored then "P6" else "P5") ++ "\n"
    ++ toString p.size.width ++ " " ++ toString p.size.height ++ "\n255\n")
  head ++ p.pixelBytes Picture.redFirst

end Pnm

end Montage
