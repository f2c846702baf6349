import Montage.Codec.Bytes
import Montage.Codec.Picture
/-!
# JPEG

Pictures are written as baseline JPEG without subsampling. Each channel is cut
into squares of eight by eight samples, a square is turned into the amplitudes
of cosine waves, the amplitudes are divided by steps that grow as the quality
falls, and the quotients are written in Huffman codes.

Of a JPEG that is read, only its extent is known: `Jpeg.size?`.
-/

namespace Montage

namespace Jpeg

/-! ## Steps -/

/-- The steps of brightness at middle quality, row by row. -/
def brightnessSteps : Array Nat :=
  #[16, 11, 10, 16, 24, 40, 51, 61, 12, 12, 14, 19, 26, 58, 60, 55,
    14, 13, 16, 24, 40, 57, 69, 56, 14, 17, 22, 29, 51, 87, 80, 62,
    18, 22, 37, 56, 68, 109, 103, 77, 24, 35, 55, 64, 81, 104, 113, 92,
    49, 64, 78, 87, 103, 121, 120, 101, 72, 92, 95, 98, 112, 100, 103, 99]

/-- The steps of colour at middle quality, row by row. -/
def colorSteps : Array Nat :=
  #[17, 18, 24, 47, 99, 99, 99, 99, 18, 21, 26, 66, 99, 99, 99, 99,
    24, 26, 56, 99, 99, 99, 99, 99, 47, 66, 99, 99, 99, 99, 99, 99,
    99, 99, 99, 99, 99, 99, 99, 99, 99, 99, 99, 99, 99, 99, 99, 99,
    99, 99, 99, 99, 99, 99, 99, 99, 99, 99, 99, 99, 99, 99, 99, 99]

/-- The order in which the amplitudes of a square are written: along its
diagonals, the slowest waves first. -/
def diagonalOrder : List Nat :=
  [0, 1, 8, 16, 9, 2, 3, 10, 17, 24, 32, 25, 18, 11, 4, 5,
   12, 19, 26, 33, 40, 48, 41, 34, 27, 20, 13, 6, 7, 14, 21, 28,
   35, 42, 49, 56, 57, 50, 43, 36, 29, 22, 15, 23, 30, 37, 44, 51,
   58, 59, 52, 45, 38, 31, 39, 46, 53, 60, 61, 54, 47, 55, 62, 63]

/-- A step at a quality from 1 to 100. -/
def scaledStep (quality step : Nat) : Nat :=
  let quality := max 1 (min 100 quality)
  let percent := if quality < 50 then 5000 / quality else 200 - 2 * quality
  max 1 (min 255 ((step * percent + 50) / 100))

/-! ## Codes -/

/-- Some bits to be written, the highest first. -/
structure Word where
  value : Nat
  length : Nat

/-- A Huffman code: how many codewords there are of each length from one on,
and the symbols in the order of their codewords. -/
structure Code where
  counts : List Nat
  symbols : List Nat

/-- The codewords of a code, `next` being the first one of the shortest
length. -/
def codewordsFrom (length next : Nat) : List Nat → List Word
  | [] => []
  | n :: counts =>
    (List.range n).map (fun i => ⟨next + i, length⟩)
      ++ codewordsFrom (length + 1) ((next + n) * 2) counts

/-- The codewords of a code by symbol. -/
def Code.words (c : Code) : Array Word :=
  (c.symbols.zip (codewordsFrom 1 0 c.counts)).foldl (fun ws (s, w) => ws.setIfInBounds s w)
    (Array.replicate 256 ⟨0, 0⟩)

/-- The code for the first amplitudes of brightness. -/
def brightnessFirst : Code :=
  ⟨[0, 1, 5, 1, 1, 1, 1, 1, 1, 0, 0, 0, 0, 0, 0, 0], List.range 12⟩

/-- The code for the first amplitudes of colour. -/
def colorFirst : Code :=
  ⟨[0, 3, 1, 1, 1, 1, 1, 1, 1, 1, 1, 0, 0, 0, 0, 0], List.range 12⟩

/-- The code for the further amplitudes of brightness. -/
def brightnessRest : Code :=
  ⟨[0, 2, 1, 3, 3, 2, 4, 3, 5, 5, 4, 4, 0, 0, 1, 125],
   [0x01, 0x02, 0x03, 0x00, 0x04, 0x11, 0x05, 0x12, 0x21, 0x31, 0x41, 0x06, 0x13, 0x51, 0x61, 0x07,
    0x22, 0x71, 0x14, 0x32, 0x81, 0x91, 0xA1, 0x08, 0x23, 0x42, 0xB1, 0xC1, 0x15, 0x52, 0xD1, 0xF0,
    0x24, 0x33, 0x62, 0x72, 0x82, 0x09, 0x0A, 0x16, 0x17, 0x18, 0x19, 0x1A, 0x25, 0x26, 0x27, 0x28,
    0x29, 0x2A, 0x34, 0x35, 0x36, 0x37, 0x38, 0x39, 0x3A, 0x43, 0x44, 0x45, 0x46, 0x47, 0x48, 0x49,
    0x4A, 0x53, 0x54, 0x55, 0x56, 0x57, 0x58, 0x59, 0x5A, 0x63, 0x64, 0x65, 0x66, 0x67, 0x68, 0x69,
    0x6A, 0x73, 0x74, 0x75, 0x76, 0x77, 0x78, 0x79, 0x7A, 0x83, 0x84, 0x85, 0x86, 0x87, 0x88, 0x89,
    0x8A, 0x92, 0x93, 0x94, 0x95, 0x96, 0x97, 0x98, 0x99, 0x9A, 0xA2, 0xA3, 0xA4, 0xA5, 0xA6, 0xA7,
    0xA8, 0xA9, 0xAA, 0xB2, 0xB3, 0xB4, 0xB5, 0xB6, 0xB7, 0xB8, 0xB9, 0xBA, 0xC2, 0xC3, 0xC4, 0xC5,
    0xC6, 0xC7, 0xC8, 0xC9, 0xCA, 0xD2, 0xD3, 0xD4, 0xD5, 0xD6, 0xD7, 0xD8, 0xD9, 0xDA, 0xE1, 0xE2,
    0xE3, 0xE4, 0xE5, 0xE6, 0xE7, 0xE8, 0xE9, 0xEA, 0xF1, 0xF2, 0xF3, 0xF4, 0xF5, 0xF6, 0xF7, 0xF8,
    0xF9, 0xFA]⟩

/-- The code for the further amplitudes of colour. -/
def colorRest : Code :=
  ⟨[0, 2, 1, 2, 4, 4, 3, 4, 7, 5, 4, 4, 0, 1, 2, 119],
   [0x00, 0x01, 0x02, 0x03, 0x11, 0x04, 0x05, 0x21, 0x31, 0x06, 0x12, 0x41, 0x51, 0x07, 0x61, 0x71,
    0x13, 0x22, 0x32, 0x81, 0x08, 0x14, 0x42, 0x91, 0xA1, 0xB1, 0xC1, 0x09, 0x23, 0x33, 0x52, 0xF0,
    0x15, 0x62, 0x72, 0xD1, 0x0A, 0x16, 0x24, 0x34, 0xE1, 0x25, 0xF1, 0x17, 0x18, 0x19, 0x1A, 0x26,
    0x27, 0x28, 0x29, 0x2A, 0x35, 0x36, 0x37, 0x38, 0x39, 0x3A, 0x43, 0x44, 0x45, 0x46, 0x47, 0x48,
    0x49, 0x4A, 0x53, 0x54, 0x55, 0x56, 0x57, 0x58, 0x59, 0x5A, 0x63, 0x64, 0x65, 0x66, 0x67, 0x68,
    0x69, 0x6A, 0x73, 0x74, 0x75, 0x76, 0x77, 0x78, 0x79, 0x7A, 0x82, 0x83, 0x84, 0x85, 0x86, 0x87,
    0x88, 0x89, 0x8A, 0x92, 0x93, 0x94, 0x95, 0x96, 0x97, 0x98, 0x99, 0x9A, 0xA2, 0xA3, 0xA4, 0xA5,
    0xA6, 0xA7, 0xA8, 0xA9, 0xAA, 0xB2, 0xB3, 0xB4, 0xB5, 0xB6, 0xB7, 0xB8, 0xB9, 0xBA, 0xC2, 0xC3,
    0xC4, 0xC5, 0xC6, 0xC7, 0xC8, 0xC9, 0xCA, 0xD2, 0xD3, 0xD4, 0xD5, 0xD6, 0xD7, 0xD8, 0xD9, 0xDA,
    0xE2, 0xE3, 0xE4, 0xE5, 0xE6, 0xE7, 0xE8, 0xE9, 0xEA, 0xF2, 0xF3, 0xF4, 0xF5, 0xF6, 0xF7, 0xF8,
    0xF9, 0xFA]⟩

/-- The number of bits that an amplitude needs without its sign. -/
def magnitude (n : Int) : Nat := if n = 0 then 0 else n.natAbs.log2 + 1

/-- An amplitude in as many bits as it needs; a negative one counts up from
zero. -/
def amplitudeWord (n : Int) : Word :=
  let m := magnitude n
  ⟨(if n < 0 then n + (1 <<< m : Nat) - 1 else n).toNat, m⟩

/-- The words of the amplitudes after the first one. `zeros` zeros have been
passed over. -/
def restWords (code : Array Word) : (zeros : Nat) → List Int → List Word
  | zeros, [] => if zeros = 0 then [] else [code.getD 0 ⟨0, 0⟩]
  | zeros, n :: ns =>
    if n = 0 then restWords code (zeros + 1) ns
    else
      List.replicate (zeros / 16) (code.getD 0xF0 ⟨0, 0⟩)
        ++ [code.getD (zeros % 16 * 16 + magnitude n) ⟨0, 0⟩, amplitudeWord n]
        ++ restWords code 0 ns

/-- The words of a square whose amplitudes are given in their order. The first
one is written as its difference to the first one of the square before. -/
def squareWords (first rest : Array Word) (before : Int) : List Int → List Word
  | [] => []
  | n :: ns =>
    first.getD (magnitude (n - before)) ⟨0, 0⟩ :: amplitudeWord (n - before)
      :: restWords rest 0 ns

/-! ## Bits to bytes -/

/-- A byte of the scan. After a byte of ones comes an empty one, so that no
marker shows. -/
def pushByte (out : Array UInt8) (b : UInt8) : Array UInt8 :=
  if b = 255 then (out.push b).push 0 else out.push b

/-- Moves full bytes from the `count` bits held to the output. -/
def flush : (bytes : Nat) → (out : Array UInt8) → (held count : Nat) → Array UInt8 × Nat × Nat
  | 0, out, held, count => (out, held, count)
  | bytes + 1, out, held, count =>
    if count < 8 then (out, held, count)
    else
      flush bytes (pushByte out (UInt8.ofNat (held >>> (count - 8)))) (held % 1 <<< (count - 8))
        (count - 8)

/-- Appends the bits of a word. -/
def pushWord (s : Array UInt8 × Nat × Nat) (w : Word) : Array UInt8 × Nat × Nat :=
  let count := s.2.2 + w.length
  flush (count / 8) s.1 (s.2.1 <<< w.length + w.value) count

/-! ## Squares -/

/-- The share of sample `i` in wave `k`. -/
def wave (k i : Nat) : Float :=
  let scale := if k = 0 then (0.125 : Float).sqrt else 0.5
  scale * Float.cos ((2 * i + 1).toFloat * k.toFloat * 3.141592653589793 / 16.0)

/-- All shares, wave by wave. -/
def waves : Array Float := Array.ofFn fun i : Fin 64 => wave (i / 8) (i % 8)

/-- The amplitudes of the waves in eight samples. -/
def amplitude (waves : Array Float) (k : Nat) (sample : Nat → Float) : Float :=
  (List.range 8).foldl (fun s i => s + waves.getD (k * 8 + i) 0.0 * sample i) 0.0

/-- The amplitudes of a square, divided by their steps, in the order in which
they are written. -/
def squareAmplitudes (waves : Array Float) (steps : Array Nat) (sample : Nat → Nat → Float) :
    List Int :=
  let across : Array Float := Array.ofFn fun i : Fin 64 =>
    amplitude waves (i % 8) fun x => sample x (i / 8)
  diagonalOrder.map fun place =>
    let a := amplitude waves (place / 8) fun y => across.getD (y * 8 + place % 8) 0.0
    (a / (steps.getD place 1).toFloat).round.toInt64.toInt

/-- A channel of a picture: its samples about zero, its steps and its codes. -/
structure Plane where
  sample : Rgb → Float
  steps : Array Nat
  first : Array Word
  rest : Array Word

/-- The brightness of a colour. -/
def brightness (c : Rgb) : Float :=
  0.299 * c.red.toFloat + 0.587 * c.green.toFloat + 0.114 * c.blue.toFloat - 128.0

/-- How blue a colour is. -/
def blueness (c : Rgb) : Float :=
  -0.168736 * c.red.toFloat - 0.331264 * c.green.toFloat + 0.5 * c.blue.toFloat

/-- How red a colour is. -/
def redness (c : Rgb) : Float :=
  0.5 * c.red.toFloat - 0.418688 * c.green.toFloat - 0.081312 * c.blue.toFloat

/-- The channels that are written: brightness, and blueness and redness where
there is colour. -/
def planes (colored : Bool) (quality : Nat) : List Plane :=
  let bright : Plane := ⟨brightness, brightnessSteps.map (scaledStep quality),
    brightnessFirst.words, brightnessRest.words⟩
  let tint : Plane := ⟨blueness, colorSteps.map (scaledStep quality), colorFirst.words,
    colorRest.words⟩
  if colored then [bright, tint, { tint with sample := redness }] else [bright]

/-- The state of a scan: the bytes and bits so far, and the first amplitude of
the last square of each channel. -/
abbrev Scan := (Array UInt8 × Nat × Nat) × List Int

/-- Writes the square of a channel whose first sample is at `(left, top)`. A
square that reaches over the edge goes on with the last row or column. -/
def writeSquare (waves : Array Float) (photo : Photo) (left top : Nat) (p : Plane)
    (before : Int) (s : Array UInt8 × Nat × Nat) : Int × (Array UInt8 × Nat × Nat) :=
  let amplitudes := squareAmplitudes waves p.steps fun x y =>
    p.sample (photo.getD (min (left + x) (photo.width - 1)) (min (top + y) (photo.height - 1))
      ⟨0, 0, 0⟩)
  (amplitudes.headD 0, (squareWords p.first p.rest before amplitudes).foldl pushWord s)

/-- Writes the squares of all channels at one place. -/
def writePlace (waves : Array Float) (photo : Photo) (left top : Nat) :
    List Plane → List Int → (Array UInt8 × Nat × Nat) → List Int × (Array UInt8 × Nat × Nat)
  | p :: ps, before :: befores, s =>
    let (first, s) := writeSquare waves photo left top p before s
    let (firsts, s) := writePlace waves photo left top ps befores s
    (first :: firsts, s)
  | _, _, s => ([], s)

/-- The samples of a photo in Huffman codes, the last byte filled up with
ones. -/
def scan (photo : Photo) (planes : List Plane) : Array UInt8 :=
  let waves := waves
  let columns := (photo.width + 7) / 8
  let rows := (photo.height + 7) / 8
  let start : Scan := ((#[], 0, 0), planes.map fun _ => 0)
  let (s, _) := (List.range (columns * rows)).foldl (fun ((s, befores) : Scan) i =>
    let (firsts, s) :=
      writePlace waves photo (i % columns * 8) (i / columns * 8) planes befores s
    (s, firsts)) start
  -- between none and seven bits are missing to a full byte
  let missing := 7 - (s.2.2 + 7) % 8
  (pushWord s ⟨1 <<< missing - 1, missing⟩).1

/-! ## Segments -/

/-- A segment: its marker, its length and its content. -/
def segment (marker : UInt8) (content : List UInt8) : List UInt8 :=
  [0xFF, marker] ++ bytes16 (content.length + 2) ++ content

/-- Small numbers as bytes. -/
def smallBytes (ns : List Nat) : List UInt8 := ns.map UInt8.ofNat

/-- The segment that gives the steps number `id`. -/
def stepsSegment (id : Nat) (steps : Array Nat) : List UInt8 :=
  segment 0xDB (smallBytes (id :: diagonalOrder.map fun i => steps.getD i 1))

/-- The segment that gives a code under the number `id`. -/
def codeSegment (id : Nat) (c : Code) : List UInt8 :=
  segment 0xC4 (smallBytes (id :: (c.counts ++ c.symbols)))

/-- The segment that gives the extent and the channels. -/
def frameSegment (size : Size) (count : Nat) : List UInt8 :=
  segment 0xC0 ([8] ++ bytes16 size.height ++ bytes16 size.width ++ smallBytes (count ::
    (List.range count).flatMap fun i => [i + 1, 0x11, min i 1]))

/-- The segment that begins the scan of all channels. -/
def scanSegment (count : Nat) : List UInt8 :=
  segment 0xDA (smallBytes ((count :: (List.range count).flatMap fun i => [i + 1, min i 1 * 0x11])
    ++ [0, 63, 0]))

/-- The segment that names the format: version 1.2, square pixels. -/
def formatSegment : List UInt8 :=
  segment 0xE0 [0x4A, 0x46, 0x49, 0x46, 0, 1, 2, 0, 0, 1, 0, 1, 0, 0]

/-- A picture as a JPEG of a quality from 1 to 100. -/
def encode (quality : Nat) (p : Picture) : Except CodecFlaw (List UInt8) :=
  let s := p.size
  if s.width = 0 || s.height = 0 || CodecFlaw.wordLimit < max s.width s.height then
    .error (.extent .jpeg s)
  else
    let channels := planes p.colored quality
    let count := channels.length
    .ok ([0xFF, 0xD8] ++ formatSegment ++ frameSegment s count
      ++ stepsSegment 0 (brightnessSteps.map (scaledStep quality))
      ++ stepsSegment 1 (colorSteps.map (scaledStep quality))
      ++ codeSegment 0x00 brightnessFirst ++ codeSegment 0x10 brightnessRest
      ++ codeSegment 0x01 colorFirst ++ codeSegment 0x11 colorRest
      ++ scanSegment count ++ (scan p.toPhoto channels).toList ++ [0xFF, 0xD9])

/-! ## The extent of a JPEG -/

/-- Whether a marker begins a frame, whose segment holds the extent. -/
def beginsFrame (marker : UInt8) : Bool :=
  0xC0 ≤ marker && marker ≤ 0xCF && marker != 0xC4 && marker != 0xC8 && marker != 0xCC

/-- Looks for the frame among segments. Each takes up two bytes at least. -/
def sizeFrom : (fuel : Nat) → List UInt8 → Option Size
  | fuel + 1, 0xFF :: marker :: a :: b :: rest =>
    if beginsFrame marker then
      match rest with
      | _ :: h1 :: h0 :: w1 :: w0 :: _ => some ⟨numberOfBytes [w1, w0], numberOfBytes [h1, h0]⟩
      | _ => none
    else sizeFrom fuel (rest.drop (numberOfBytes [a, b] - 2))
  | _, _ => none

/-- The extent of a JPEG. -/
def size? (bytes : List UInt8) : Option Size :=
  match bytes with
  | 0xFF :: 0xD8 :: rest => sizeFrom rest.length rest
  | _ => none

end Jpeg

end Montage
