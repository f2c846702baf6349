import Montage.Codec.Bytes
import Montage.Codec.Picture
/-!
# WebP

Pictures are written as a lossless WebP whose channels have codewords of eight
bits each. Its bits fill each byte from the lowest one on, and a codeword comes
highest bit first.
-/

namespace Montage

namespace WebP

/-- The longest side of a WebP. -/
def sideLimit : Nat := 16384

/-- The lowest `count` bits of a number in reverse order. -/
def reversed : (count : Nat) → Nat → Nat
  | 0, _ => 0
  | count + 1, n => n % 2 * 1 <<< count + reversed count (n / 2)

/-- The code in which each of the first 256 symbols has a codeword of eight
bits: of the codes for lengths only that of eight is there. -/
def evenCode : List BitField :=
  [⟨0, 1⟩, ⟨8, 4⟩] ++ List.replicate 11 ⟨0, 3⟩ ++ [⟨1, 3⟩, ⟨1, 1⟩, ⟨3, 3⟩, ⟨254, 8⟩]

/-- The code of a single symbol, which takes up no bits. -/
def constantCode (symbol : Nat) : List BitField := [⟨1, 1⟩, ⟨0, 1⟩, ⟨1, 1⟩, ⟨symbol, 8⟩]

/-- A channel of a pixel. -/
def channel (b : UInt8) : BitField := ⟨reversed 8 b.toNat, 8⟩

/-- A picture as bits: its size, the codes of green, red, blue, transparency and
distances, and its pixels. -/
def bits (p : Picture) : List BitField :=
  [⟨p.size.width - 1, 14⟩, ⟨p.size.height - 1, 14⟩, ⟨0, 1⟩, ⟨0, 3⟩, ⟨0, 3⟩]
    ++ evenCode ++ evenCode ++ evenCode ++ constantCode 255 ++ constantCode 0
    ++ p.toPhoto.samples.toList.flatMap fun c => [channel c.green, channel c.red, channel c.blue]

/-- A picture as a WebP. -/
def encode (p : Picture) : Except CodecFlaw (List UInt8) :=
  if sideLimit < max p.size.width p.size.height then .error (.extent .webP p.size)
  else
    let content := 0x2f :: packBits (bits p)
    let padding := content.length % 2
    .ok (Format.textBytes "RIFF" ++ bytesLow 4 (content.length + padding + 12)
      ++ Format.textBytes "WEBPVP8L" ++ bytesLow 4 content.length ++ content
      ++ List.replicate padding 0)

end WebP

end Montage
