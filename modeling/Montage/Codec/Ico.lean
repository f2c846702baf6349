import Montage.Codec.Png.Encoding
/-!
# ICO

An ICO lists icons of up to 256 pixels a side. Pictures are written as a single
icon, which is a PNG.
-/

namespace Montage

namespace Ico

/-- Whether a side is that of an icon. -/
def fits (side : Nat) : Bool := 0 < side && side ≤ CodecFlaw.iconLimit

/-- A picture as an ICO. A side of 256 is written as zero. -/
def encode (p : Picture) : Except CodecFlaw (List UInt8) := do
  if !(fits p.size.width && fits p.size.height) then throw (.extent .ico p.size)
  let content ← Png.encode p
  return [0, 0, 1, 0, 1, 0] ++ [UInt8.ofNat p.size.width, UInt8.ofNat p.size.height, 0, 0]
    ++ bytesLow 2 0 ++ bytesLow 2 (8 * Picture.colorChannels p.colored)
    ++ bytesLow 4 content.length ++ bytesLow 4 22 ++ content

end Ico

end Montage
