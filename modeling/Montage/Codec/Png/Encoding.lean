import Montage.Codec.Picture
/-!
# Writing a PNG

Pictures are written with plain rows and without compression, in a single
pass.
-/

namespace Montage

namespace Png

/-- The code of a kind of pixels. -/
def colorType (colored transparent : Bool) : UInt8 :=
  (if colored then 2 else 0) + if transparent then 4 else 0

/-- The samples of a picture as bytes, with the bits of a sample. Fractions
have no such form. -/
def sampleBytes? : SampleData → Option (Nat × List UInt8)
  | .bytes v => some (8, v.toList)
  | .words v => some (16, v.toList.flatMap fun w => bytes16 w.toNat)
  | .fractions _ => none

/-- The content of the head chunk. -/
def headContent (p : Picture) (depth : Nat) : List UInt8 :=
  bytes32 p.size.width ++ bytes32 p.size.height
    ++ [UInt8.ofNat depth, colorType p.colored p.transparent, 0, 0, 0]

/-- Rows of `stride` bytes, `height` of them, each after the byte of a plain
row. -/
def plainRows (stride : Nat) : (height : Nat) → List UInt8 → List UInt8
  | 0, _ => []
  | height + 1, bytes => 0 :: (bytes.take stride ++ plainRows stride height (bytes.drop stride))

/-- The most bytes of compressed data that are put into one chunk. -/
def pieceLimit : Nat := 32768

/-- Data cut into chunks, one more than `full` of them. -/
def dataChunks : (full : Nat) → List UInt8 → List UInt8
  | 0, bytes => chunk .data bytes
  | full + 1, bytes =>
    chunk .data (bytes.take pieceLimit) ++ dataChunks full (bytes.drop pieceLimit)

/-- A picture as a PNG. -/
def encode (p : Picture) : Except CodecFlaw (List UInt8) :=
  match sampleBytes? p.data with
  | none => .error (.pixels .png p.kind)
  | some (depth, bytes) =>
    if p.size.width = 0 || p.size.height = 0 then .error (.extent .png p.size)
    else
      let stride := p.size.width * Picture.channels p.colored p.transparent * (depth / 8)
      -- the data is never empty, as it has a frame of its own
      let data := Deflate.encode (plainRows stride p.size.height bytes)
      .ok (Format.pngSignature ++ chunk .head (headContent p depth)
        ++ dataChunks ((data.length - 1) / pieceLimit) data ++ chunk .last [])

end Png

end Montage
