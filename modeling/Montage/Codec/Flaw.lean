import Montage.Codec.Bytes
import Montage.Codec.Format
import Montage.Codec.Png.Flaw
import Montage.FileTrouble
import Montage.Raster
/-!
# Codec flaws — what can be wrong with the bytes of a picture

A flaw carries the cause, and `CodecFlaw.message` words it. Causes that many
formats share, such as a signature that is not there, are worded by the format.
-/

namespace Montage

/-! ## Kinds of pixels -/

/-- The form of a sample. -/
inductive SampleForm where
  | byte
  | word
  | fraction
deriving DecidableEq

/-- What a pixel is made of. -/
inductive PixelKind where
  /-- One sample for gray or three for colour, and one more for transparency. -/
  | channels (colored transparent : Bool) (form : SampleForm)
  /-- Only the bits are known. -/
  | unknown (bits : Nat)
deriving DecidableEq

/-- The name of a kind in messages. -/
def PixelKind.name : PixelKind → String
  | channels colored transparent form =>
    (if colored then "Rgb" else "L") ++ (if transparent then "a" else "") ++
      match form with
      | .byte => "8"
      | .word => "16"
      | .fraction => "32F"
  | unknown bits => "Unknown(" ++ toString bits ++ ")"

/-! ## Numbers of a byte -/

/-- A byte in base sixteen, with small letters. -/
def smallHex (b : UInt8) : String :=
  String.ofList ([b.toNat / 16, b.toNat % 16].map Nat.digitChar)

/-- A byte in base sixteen, with capital letters. -/
def capitalHex (b : UInt8) : String :=
  String.ofList ([b.toNat / 16, b.toNat % 16].map fun n => (Nat.digitChar n).toUpper)

/-- Texts as a list in messages. -/
def listed (texts : List String) : String := "[" ++ ", ".intercalate texts ++ "]"

/-! ## Flaws of a PNM -/

/-- What breaks a PNM. -/
inductive PnmFlaw where
  /-- The first two bytes name no kind of PNM. -/
  | signature (found : List UInt8)
  /-- A number of the header or of a sample has something else than digits. -/
  | notDigit (sample : Bool)
  /-- A number of the header or of a sample takes up too many bits. -/
  | tooLarge (sample : Bool)
  /-- The header is no ASCII text. -/
  | notText (b : UInt8)
  /-- The samples are no ASCII text. -/
  | sampleNotText
  /-- A sample does not fit into a byte. -/
  | sampleTooLarge (value : Nat)
  /-- A sample is no bit. -/
  | notBit (b : UInt8)
  /-- Samples do not go up that far. -/
  | greatest (value : Nat)

/-- The wording of a flaw of a PNM. -/
def PnmFlaw.message : PnmFlaw → String
  | signature found =>
    "Expected magic constant for PNM: P1..P7, got " ++ listed (found.map ("0x" ++ capitalHex ·))
  | notDigit sample =>
    "Non-ASCII-digit character when parsing number in "
      ++ if sample then "sample" else "number in preamble"
  | tooLarge sample =>
    "Overflow when parsing integer in " ++ if sample then "sample" else "number in preamble"
  | notText b => "Non-ASCII character 0x" ++ capitalHex b ++ " in header"
  | sampleNotText => "Non-ASCII character where sample value was expected"
  | sampleTooLarge n => "Sample value " ++ toString n ++ " outside of bounds"
  | notBit b => "Unexpected character 0x" ++ capitalHex b ++ " within sample raster"
  | greatest n => "Image MAXVAL exceeds 65535: " ++ toString n

/-! ## Flaws of any format -/

/-- Why bytes are no picture, or a picture cannot be written as bytes. -/
inductive CodecFlaw where
  /-- Nothing tells which format the picture is in. -/
  | unknownFormat
  /-- The file's extension belongs to no picture format. -/
  | unknownExtension (extension : String)
  /-- Pictures of the format are not read. -/
  | notRead (format : Format)
  /-- Pictures are not written in the format. -/
  | notWritten (format : Format)
  /-- The format has no pixels of this kind. -/
  | pixels (format : Format) (kind : PixelKind)
  /-- The format has no pictures of this size. -/
  | extent (format : Format) (size : Size)
  /-- The picture is too large to be held. -/
  | tooMuch
  /-- The samples end too early. -/
  | truncated
  /-- The data ends within its structure. -/
  | unexpectedEnd
  /-- The bytes do not begin as the format does. -/
  | signature (format : Format) (found : List UInt8)
  | png (flaw : PngFlaw)
  | pnm (flaw : PnmFlaw)
  /-- The file could not be read or written. -/
  | file (trouble : FileTrouble)
  /-- A flaw in the words of the codec that has found it. -/
  | worded (text : String)

namespace CodecFlaw

/-- A flaw of bytes that should be a picture. -/
def decoding (f : Format) (text : String) : String :=
  "Format error decoding " ++ f.name ++ ": " ++ text

/-- A flaw of a picture that should become bytes. -/
def encoding (f : Format) (text : String) : String :=
  "Format error encoding " ++ f.name ++ ":\n" ++ text

/-- The wording of a missing signature. -/
def signatureText (found : List UInt8) : Format → String
  | .jpeg =>
    "Error parsing image. Illegal start bytes:"
      ++ String.ofList ((Nat.toDigits 16 (numberOfBytes found)).map Char.toUpper)
  | .gif => "malformed GIF header"
  | .webP => "Invalid Chunk header: " ++ listed (found.map smallHex)
  | .tiff => "Format error: TIFF signature not found."
  | .dds => "DDS signature not found"
  | .bmp => "BMP signature not found"
  | .hdr => "Radiance HDR signature not found"
  | .openExr => "file identifier missing"
  | .farbfeld => "Invalid magic: " ++ listed (found.map smallHex)
  | .qoi =>
    "invalid magic: expected 1903126886, got " ++ listed (found.map fun b => toString b.toNat)
  | .avif | .ico | .png | .pnm | .tga => "signature not found"

/-- The wording of a kind of pixels that a format does not have. -/
def pixelsText (kind : PixelKind) : Format → String
  | .hdr => encoding .hdr "hdr format currently only supports the `Rgb32F` color type"
  | .qoi =>
    encoding .qoi
      ("unsupported color type " ++ kind.name ++ ". Supported are Rgba8 and Rgb8.")
  | f =>
    "The encoder or decoder for " ++ f.name ++ " does not support the color type `" ++ kind.name
      ++ "`"

/-- The wording of a size that an icon cannot have. -/
def iconText (side : String) (extent : Nat) : String :=
  "The parameter is malformed: the image " ++ side ++ " must be `1..=256`, instead " ++ side
    ++ " " ++ toString extent ++ " was provided"

/-- The longest side of pictures that give it in two bytes. -/
def wordLimit : Nat := 65535

/-- The longest side of an icon. -/
def iconLimit : Nat := 256

/-- The wording of a size that a format does not have. -/
def extentText (s : Size) : Format → String
  | .jpeg =>
    encoding .jpeg ("Invalid image size (" ++ toString s.width ++ " x " ++ toString s.height
      ++ ") to encode as JPEG: width and height must be >= 1 and <= 65535")
  | .png => if s.width = 0 then "Zero width not allowed" else "Zero height not allowed"
  | .ico =>
    if s.width = 0 || iconLimit < s.width then iconText "width" s.width
    else iconText "height" s.height
  | .tga =>
    encoding .tga (if wordLimit < s.width then "Invalid TGA width: " ++ toString s.width
      else "Invalid TGA height: " ++ toString s.height)
  | .webP => encoding .webP "Invalid dimensions"
  | .pnm =>
    "The decoder for Pnm does not support the format features Image dimensions ("
      ++ toString s.width ++ "x" ++ toString s.height ++ ") are too large"
  | _ => "The Image's dimensions are either too small or too large"

/-- The wording of a codec's flaw. -/
def message : CodecFlaw → String
  | unknownFormat => "The image format could not be determined"
  | unknownExtension e =>
    "The file extension `." ++ quoted e ++ "` was not recognized as an image format"
  | notRead f => "The image format " ++ f.name ++ " is not supported"
  | notWritten f => "The image format `" ++ f.name ++ "` is not supported"
  | pixels f kind => pixelsText kind f
  | extent f s => extentText s f
  | tooMuch => "Memory limit exceeded"
  | truncated => "failed to fill whole buffer"
  | unexpectedEnd => "unexpected end of file"
  | signature f found => decoding f (signatureText found f)
  | png flaw => decoding .png flaw.message
  | pnm flaw => decoding .pnm flaw.message
  | file t => t.message
  | worded text => text

end CodecFlaw

end Montage
