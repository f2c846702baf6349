import Montage.Codec.Bytes
import Montage.Codec.Picture
/-!
# GIF

A GIF has a palette of up to 256 colours, and the places of its pixels in the
palette, compressed. Pictures are written with a palette that has eight shades
of red and green and four of blue, and without making use of compression. Gray
pictures are not written.
-/

namespace Montage

namespace Gif

/-- One of `count` shades as a byte. -/
def shade (count n : Nat) : UInt8 := UInt8.ofNat (n * 255 / (count - 1))

/-- The palette. -/
def palette : List UInt8 :=
  (List.range 256).flatMap fun n => [shade 8 (n / 32), shade 8 (n / 4 % 8), shade 4 (n % 4)]

/-- The place of a colour in the palette. -/
def place (c : Rgb) : Nat := c.red.toNat / 32 * 32 + c.green.toNat / 32 * 4 + c.blue.toNat / 64

/-- The codes that forget what has been seen, and that end the picture. -/
def forgetCode : Nat := 256
def endCode : Nat := 257

/-- The pixels that may be written before the codes would become longer. -/
def run : Nat := 250

/-- The codes of pixels. What has been seen is forgotten before each run, of
which `left` pixels are still to come. -/
def codes : (left : Nat) → List Nat → List Nat
  | _, [] => [endCode]
  | 0, n :: ns => forgetCode :: n :: codes (run - 1) ns
  | left + 1, n :: ns => n :: codes left ns

/-- Bytes in blocks of up to 255, one more than `full` of them, and the empty
block that ends them. -/
def blocks : (full : Nat) → List UInt8 → List UInt8
  | 0, bytes => UInt8.ofNat bytes.length :: bytes ++ [0]
  | full + 1, bytes => 255 :: bytes.take 255 ++ blocks full (bytes.drop 255)

/-- A picture as a GIF. -/
def encode (p : Picture) : Except CodecFlaw (List UInt8) :=
  if !p.colored then .error (.pixels .gif p.kind)
  else if CodecFlaw.wordLimit < max p.size.width p.size.height then
    .error (.extent .gif p.size)
  else
    let extent := bytesLow 2 p.size.width ++ bytesLow 2 p.size.height
    -- the end code is there even without pixels, so the data is never empty
    let data := packBits ((codes 0 (p.toPhoto.samples.toList.map place)).map fun n => ⟨n, 9⟩)
    .ok (Format.textBytes "GIF89a" ++ extent ++ [0xf7, 0, 0] ++ palette ++ [0x2c]
      ++ bytesLow 4 0 ++ extent ++ [0, 8] ++ blocks ((data.length - 1) / 255) data ++ [0x3b])

end Gif

end Montage
