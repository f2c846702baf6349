/-!
# Formats — what pictures are kept in

Bytes tell their format by how they begin (`Format.ofBytes?`), and a file by
its extension (`Format.ofExtension?`). The two may disagree: a file is read in
the format of its extension.
-/

namespace Montage

/-- A format that pictures are kept in. -/
inductive Format where
  | avif
  | bmp
  | dds
  | farbfeld
  | gif
  | hdr
  | ico
  | jpeg
  | openExr
  | png
  | pnm
  | qoi
  | tga
  | tiff
  | webP
deriving DecidableEq

namespace Format

/-- The name of a format in messages. -/
def name : Format → String
  | avif => "Avif"
  | bmp => "Bmp"
  | dds => "Dds"
  | farbfeld => "Farbfeld"
  | gif => "Gif"
  | hdr => "Hdr"
  | ico => "Ico"
  | jpeg => "Jpeg"
  | openExr => "OpenExr"
  | png => "Png"
  | pnm => "Pnm"
  | qoi => "Qoi"
  | tga => "Tga"
  | tiff => "Tiff"
  | webP => "WebP"

/-! ## Extensions -/

/-- The extensions of files, in small letters, with the formats they stand
for. -/
def extensions : List (String × Format) :=
  [("avif", avif), ("jpg", jpeg), ("jpeg", jpeg), ("jfif", jpeg), ("png", png), ("apng", png),
    ("gif", gif), ("webp", webP), ("tif", tiff), ("tiff", tiff), ("tga", tga), ("dds", dds),
    ("bmp", bmp), ("ico", ico), ("hdr", hdr), ("exr", openExr), ("pbm", pnm), ("pam", pnm),
    ("ppm", pnm), ("pgm", pnm), ("pnm", pnm), ("ff", farbfeld), ("qoi", qoi)]

/-- A letter without its case. -/
def smallLetter (c : Char) : Char := if 'A' ≤ c && c ≤ 'Z' then Char.ofNat (c.toNat + 32) else c

/-- The format that an extension stands for. Case does not matter. -/
def ofExtension? (extension : String) : Option Format :=
  extensions.lookup (extension.map smallLetter)

/-! ## Beginnings -/

/-- The bytes of an ASCII text. -/
def textBytes (s : String) : List UInt8 := s.toList.map fun c => UInt8.ofNat c.toNat

/-- Whether bytes begin with a signature. Where the signature has no byte, any
byte will do. -/
def beginsWith : (signature : List (Option UInt8)) → (bytes : List UInt8) → Bool
  | [], _ => true
  | _ :: _, [] => false
  | none :: signature, _ :: bytes => beginsWith signature bytes
  | some b :: signature, c :: bytes => b == c && beginsWith signature bytes

/-- The signature whose bytes are all given. -/
def fixedBytes (bytes : List UInt8) : List (Option UInt8) := bytes.map some

/-- The signature that is an ASCII text. -/
def letters (s : String) : List (Option UInt8) := fixedBytes (textBytes s)

/-- Bytes of a signature that may be anything. -/
def anyBytes (count : Nat) : List (Option UInt8) := List.replicate count none

/-- The bytes that a PNG begins with. -/
def pngSignature : List UInt8 := [0x89, 0x50, 0x4e, 0x47, 0x0d, 0x0a, 0x1a, 0x0a]

/-- The signatures of formats. -/
def signatures : List (List (Option UInt8) × Format) :=
  [(fixedBytes pngSignature, png), (fixedBytes [0xff, 0xd8, 0xff], jpeg), (letters "GIF89a", gif),
    (letters "GIF87a", gif), (letters "RIFF" ++ anyBytes 4 ++ letters "WEBP", webP),
    (fixedBytes [0x4d, 0x4d, 0, 0x2a], tiff), (fixedBytes [0x49, 0x49, 0x2a, 0], tiff),
    (letters "DDS ", dds), (letters "BM", bmp), (fixedBytes [0, 0, 1, 0], ico),
    (letters "#?RADIANCE", hdr), (fixedBytes [0, 0] ++ anyBytes 2 ++ letters "ftypavif", avif),
    (fixedBytes [0x76, 0x2f, 0x31, 0x01], openExr), (letters "qoif", qoi), (letters "P1", pnm),
    (letters "P2", pnm), (letters "P3", pnm), (letters "P4", pnm), (letters "P5", pnm),
    (letters "P6", pnm), (letters "P7", pnm), (letters "farbfeld", farbfeld)]

/-- The format that bytes begin like. -/
def ofBytes? (bytes : List UInt8) : Option Format :=
  (signatures.find? fun (signature, _) => beginsWith signature bytes).map (·.2)

end Format

end Montage
