import Montage.Canvas.Composer
import Montage.Codec.Coding
/-!
# Exchange — operations on encoded pictures

Callers that hold files rather than rasters pass bytes in and take PNGs out.
-/

namespace Montage

/-- Two encoded pictures, a photo and its mask. -/
structure EncodedCut where
  photo : List UInt8
  mask : List UInt8

/-- A photo and its mask as PNGs. -/
def Cut.encode (c : Cut) : Except Fault EncodedCut := do
  let photo ← encodePng (.ofPhoto c.photo)
  let mask ← encodePng (.ofMask c.mask)
  return ⟨photo, mask⟩

variable [Codecs]

/-- A photo and its mask from their bytes. -/
def EncodedCut.decode (e : EncodedCut) : Except Fault Cut := do
  let photo ← decodePhoto e.photo
  let mask ← decodeMask e.mask
  return ⟨photo, mask⟩

/-- **The object of an encoded photo on a new canvas**, as two PNGs. -/
def EncodedCut.reposition (e : EncodedCut) (spec : PlacementSpec) : Except Fault EncodedCut := do
  let c ← e.decode
  (← Montage.reposition c.photo c.mask spec).encode

/-- The composer of an encoded photo and mask. -/
def Composer.ofEncoded (e : EncodedCut) : Except Fault Composer := do
  Composer.ofCut (← e.decode)

end Montage
