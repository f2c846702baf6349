import Montage.Codec.Bytes
import Montage.Codec.Picture
/-!
# BMP

A BMP begins with two headers, fourteen bytes about the file and forty about
the picture. A gray picture has a palette of all grays. The rows follow from
the last one up, each filled up to a multiple of four bytes.
-/

namespace Montage

namespace Bmp

/-- The bytes of both headers. -/
def headLength : Nat := 54

/-- The palette of a gray picture. -/
def grays : List UInt8 := (List.range 256).flatMap fun n => List.replicate 3 (UInt8.ofNat n) ++ [0]

/-- Rows of `stride` bytes in reverse order, each filled up by `padding` zeros.
`done` holds those before. -/
def rowsUp (stride padding : Nat) : (rows : Nat) → (done bytes : List UInt8) → List UInt8
  | 0, done, _ => done
  | rows + 1, done, bytes =>
    rowsUp stride padding rows (bytes.take stride ++ List.replicate padding 0 ++ done)
      (bytes.drop stride)

/-- A picture as a BMP. -/
def encode (p : Picture) : List UInt8 :=
  let palette := if p.colored then [] else grays
  let channels := Picture.colorChannels p.colored
  let stride := p.size.width * channels
  let rows := rowsUp stride (3 - (stride + 3) % 4) p.size.height [] (p.pixelBytes Picture.blueFirst)
  let start := headLength + palette.length
  Format.textBytes "BM" ++ bytesLow 4 (start + rows.length) ++ bytesLow 4 0 ++ bytesLow 4 start
    ++ bytesLow 4 40 ++ bytesLow 4 p.size.width ++ bytesLow 4 p.size.height ++ bytesLow 2 1
    ++ bytesLow 2 (8 * channels) ++ bytesLow 4 0 ++ bytesLow 4 rows.length ++ bytesLow 8 0
    ++ bytesLow 4 (palette.length / 4) ++ bytesLow 4 0 ++ palette ++ rows

end Bmp

end Montage
