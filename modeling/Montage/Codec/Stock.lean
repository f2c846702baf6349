import Montage.Codec.Avif
import Montage.Codec.Bmp
import Montage.Codec.Coding
import Montage.Codec.Gif
import Montage.Codec.Ico
import Montage.Codec.Jpeg
import Montage.Codec.Pnm
import Montage.Codec.Qoi
import Montage.Codec.Tga
import Montage.Codec.Tiff
import Montage.Codec.WebP
/-!
# Stock codecs — the other formats, in the plainest way

The codecs that are there when a program runs without better ones. They write
pictures of most formats, with as little compression as the format allows, and
read those of one format besides PNG.
-/

namespace Montage

namespace Format

/-! ## Reading -/

/-- The bytes of a signature. -/
def signatureLength : Format → Nat
  | .jpeg | .bmp | .tiff | .png | .pnm => 2
  | .webP | .dds | .openExr | .qoi => 4
  | .gif | .ico => 6
  | .farbfeld => 8
  | .hdr => 10
  | .avif | .tga => 0

/-- The bytes that must be there before the signature is looked at. -/
def headLength : Format → Nat
  | .qoi => Qoi.headLength
  | .tga => Tga.headLength
  | f => f.signatureLength

/-- Why bytes are not read in a format in which pictures are only written. The
entries that an ICO begins with are missing in other files. -/
def refusal (f : Format) (bytes : List UInt8) : CodecFlaw :=
  if bytes.length < f.headLength then if f = .gif then .unexpectedEnd else .truncated
  else if ofBytes? bytes = some f then .notRead f
  else
    match f with
    | .avif => .notRead f
    | .ico => .truncated
    | .tga =>
      match Tga.unknownBits? bytes with
      | some bits => .pixels f (.unknown bits)
      | none => .notRead f
    | _ => .signature f (bytes.take f.signatureLength)

/-- Bytes of a format as a picture. -/
def plainDecode (f : Format) (bytes : List UInt8) : Except CodecFlaw Picture :=
  match f with
  | .pnm => Pnm.decode bytes
  | f => .error (f.refusal bytes)

/-! ## Writing -/

/-- The quality of JPEG files. -/
def fileQuality : Nat := 75

/-- A picture as bytes of a format. -/
def plainEncode (f : Format) (p : Picture) : Except CodecFlaw (List UInt8) :=
  match f with
  | .pnm => .ok (Pnm.encode p)
  | .jpeg => Jpeg.encode fileQuality p
  | .avif => .ok (Avif.encode p)
  | .bmp => .ok (Bmp.encode p)
  | .gif => Gif.encode p
  | .ico => Ico.encode p
  | .qoi => Qoi.encode p
  | .tga => Tga.encode p
  | .tiff => .ok (Tiff.encode p)
  | .webP => WebP.encode p
  | .dds => .error (.notWritten .dds)
  -- the others hold wider samples than pictures are saved with
  | f => .error (.pixels f p.kind)

end Format

instance : Codecs where
  decode := Format.plainDecode
  encode := Format.plainEncode
  encodeJpeg := Jpeg.encode

end Montage
