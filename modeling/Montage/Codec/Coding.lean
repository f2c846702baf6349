import Montage.Codec.Png.Decoding
import Montage.Codec.Png.Encoding
import Montage.Fault
/-!
# Coding — pictures as bytes of any format

PNGs are read and written here. All other formats are left to their own codecs,
whatever these do (`Codecs`). `Picture.decode` reads bytes by how they begin,
`Format.decode` those of a known format, and `Format.encode` writes.
`decodePhoto` and `decodeMask` say which of the two pictures of an operation is
broken.
-/

namespace Montage

/-- The codecs of all formats but PNG. -/
class Codecs where
  /-- Bytes of a format as a picture. -/
  decode : Format → (bytes : List UInt8) → Except CodecFlaw Picture
  /-- A picture as bytes of a format. -/
  encode : Format → Picture → Except CodecFlaw (List UInt8)
  /-- A picture as a JPEG of a quality from 1 to 100. -/
  encodeJpeg : (quality : Nat) → Picture → Except CodecFlaw (List UInt8)

section

variable [Codecs]

namespace Format

/-- Bytes of a format as a picture. -/
def decode (bytes : List UInt8) : Format → Except CodecFlaw Picture
  | .png => Png.decode bytes
  | f => Codecs.decode f bytes

/-- A picture as bytes of a format. -/
def encode (p : Picture) : Format → Except CodecFlaw (List UInt8)
  | .png => Png.encode p
  | f => Codecs.encode f p

end Format

/-- Bytes of any format as a picture. -/
def Picture.decode (bytes : List UInt8) : Except CodecFlaw Picture :=
  match Format.ofBytes? bytes with
  | some f => f.decode bytes
  | none => .error .unknownFormat

/-! ## Pictures of an operation -/

/-- A codec's result for a picture that plays a part in an operation. -/
def inRole (role : Role) : Except CodecFlaw α → Except Fault α
  | .ok a => .ok a
  | .error e => .error (.picture (.decoding role e))

/-- Bytes of any format as a photo. -/
def decodePhoto (bytes : List UInt8) : Except Fault Photo := do
  return (← inRole .photo (Picture.decode bytes)).toPhoto

/-- Bytes of any format as a mask. -/
def decodeMask (bytes : List UInt8) : Except Fault Mask := do
  return (← inRole .mask (Picture.decode bytes)).toMask

/-- A picture as a PNG. -/
def encodePng (p : Picture) : Except Fault (List UInt8) :=
  match Png.encode p with
  | .ok bytes => .ok bytes
  | .error e => .error (.picture (.encoding e))

/-- A photo as a JPEG of a quality from 1 to 100. -/
def encodeJpeg (quality : Nat) (photo : Photo) : Except Fault (List UInt8) :=
  match Codecs.encodeJpeg quality (.ofPhoto photo) with
  | .ok bytes => .ok bytes
  | .error e => .error (.picture (.encodingJpeg e))

end

end Montage
