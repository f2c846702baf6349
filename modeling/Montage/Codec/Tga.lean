import Montage.Codec.Bytes
import Montage.Codec.Picture
/-!
# TGA

A TGA has a header of eighteen bytes and the samples as they are, from the top
row down.
-/

namespace Montage

namespace Tga

/-- The bytes of a header. -/
def headLength : Nat := 18

/-- Whether pixels of so many bits, some of them for transparency, are known. -/
def knows (bits transparency : Nat) : Bool :=
  [8, 16, 24, 32].contains bits && [0, 8].contains transparency

/-- The bits of a pixel that a header gives, if pixels of that kind are not
known. -/
def unknownBits? (bytes : List UInt8) : Option Nat :=
  let bits := (bytes.getD 16 0).toNat
  if knows bits ((bytes.getD 17 0).toNat % 16) then none else some bits

/-- A picture as a TGA. -/
def encode (p : Picture) : Except CodecFlaw (List UInt8) :=
  if CodecFlaw.wordLimit < max p.size.width p.size.height then
    .error (.extent .tga p.size)
  else
    let kind := if p.colored then 2 else 3
    .ok ([0, 0, kind] ++ bytesLow 5 0 ++ bytesLow 4 0 ++ bytesLow 2 p.size.width
      ++ bytesLow 2 p.size.height ++ [UInt8.ofNat (8 * Picture.colorChannels p.colored), 0x20]
      ++ p.pixelBytes Picture.blueFirst)

end Tga

end Montage
