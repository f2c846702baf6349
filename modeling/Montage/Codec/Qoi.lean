import Montage.Codec.Bytes
import Montage.Codec.Picture
/-!
# QOI

A QOI has a header of fourteen bytes, the pixels, each after a byte that tells
how it is written, and eight bytes at its end. It holds colours only.
-/

namespace Montage

namespace Qoi

/-- The bytes of a header. -/
def headLength : Nat := 14

/-- A colour that is written with all its channels. -/
def pixel (c : Rgb) : List UInt8 := 0xfe :: Picture.redFirst c

/-- A picture as a QOI. -/
def encode (p : Picture) : Except CodecFlaw (List UInt8) :=
  if p.colored then
    .ok (Format.textBytes "qoif" ++ bytes32 p.size.width ++ bytes32 p.size.height ++ [3, 0]
      ++ p.pixelBytes pixel ++ [0, 0, 0, 0, 0, 0, 0, 1])
  else .error (.pixels .qoi p.kind)

end Qoi

end Montage
