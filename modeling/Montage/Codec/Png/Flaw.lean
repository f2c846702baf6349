import Montage.Codec.Deflate
import Montage.Codec.Png.Chunk
/-!
# Flaws of a PNG
-/

namespace Montage

namespace Png

/-! ## Colours -/

/-- What the samples of a PNG stand for. -/
inductive ColorKind where
  | gray
  | rgb
  /-- Places in a palette. -/
  | indexed
  | grayAlpha
  | rgbAlpha
deriving DecidableEq

namespace ColorKind

/-- The name of a kind in messages. -/
def name : ColorKind → String
  | gray => "Grayscale"
  | rgb => "Rgb"
  | indexed => "Indexed"
  | grayAlpha => "GrayscaleAlpha"
  | rgbAlpha => "Rgba"

/-- The kind of a code. -/
def ofByte? (b : UInt8) : Option ColorKind :=
  [((0 : UInt8), gray), (2, rgb), (3, indexed), (4, grayAlpha), (6, rgbAlpha)].lookup b

/-- The samples that make a pixel. -/
def samples : ColorKind → Nat
  | gray => 1
  | rgb => 3
  | indexed => 1
  | grayAlpha => 2
  | rgbAlpha => 4

/-- Whether a pixel has channels for colour rather than one for gray. -/
def isColored : ColorKind → Bool
  | gray | grayAlpha => false
  | rgb | indexed | rgbAlpha => true

/-- Whether a pixel has a channel for transparency. -/
def isTransparent : ColorKind → Bool
  | grayAlpha | rgbAlpha => true
  | gray | rgb | indexed => false

end ColorKind

/-- The number of bits of a sample. -/
inductive Depth where
  | one
  | two
  | four
  | eight
  | sixteen
deriving DecidableEq

namespace Depth

/-- The name of a depth in messages. -/
def name : Depth → String
  | one => "One"
  | two => "Two"
  | four => "Four"
  | eight => "Eight"
  | sixteen => "Sixteen"

/-- The bits of a sample. -/
def bits : Depth → Nat
  | one => 1
  | two => 2
  | four => 4
  | eight => 8
  | sixteen => 16

/-- The depth of a code. -/
def ofByte? (b : UInt8) : Option Depth :=
  [((1 : UInt8), one), (2, two), (4, four), (8, eight), (16, sixteen)].lookup b

/-- Whether samples of this depth may be of a kind. Less than a byte is for
single samples, and more than a byte is not for places in a palette. -/
def serves (d : Depth) (k : ColorKind) : Bool :=
  match d with
  | one | two | four => k = .gray || k = .indexed
  | eight => true
  | sixteen => k ≠ .indexed

end Depth

/-! ## Flaws -/

end Png

/-- What breaks a PNG. -/
inductive PngFlaw where
  /-- It does not begin as a PNG does. -/
  | signature
  /-- The checksum of a chunk. -/
  | check (stored computed : Nat) (name : Png.ChunkName)
  /-- A chunk is shorter than what it must hold. -/
  | shortChunk (name : Png.ChunkName)
  /-- Something comes before the head. -/
  | beforeHead (name : Png.ChunkName)
  /-- A further picture comes before the first one. -/
  | restart (name : Png.ChunkName)
  /-- A chunk that must be the only one of its name is not. -/
  | repeated (name : Png.ChunkName)
  /-- A chunk without which the picture cannot be read is not known. -/
  | unrecognized (name : Png.ChunkName)
  /-- There is no data. -/
  | dataMissing
  /-- The picture has no pixels. -/
  | noPixels
  | depth (code : UInt8)
  | colorKind (code : UInt8)
  /-- Samples of the kind cannot have this depth. -/
  | combination (kind : Png.ColorKind) (depth : Png.Depth)
  | compression (code : UInt8)
  | filtering (code : UInt8)
  | interlacing (code : UInt8)
  /-- A row is filtered in a way that is not known. -/
  | rowFilter (code : UInt8)
  /-- The samples are places in a palette that is not there. -/
  | paletteMissing
  /-- The data is broken. -/
  | compressed (flaw : DeflateFlaw)
  /-- The data is whole, but has too few rows. -/
  | tooFewRows

namespace PngFlaw

/-- A number in base sixteen. -/
def hex (n : Nat) : String := "0x" ++ String.ofList (Nat.toDigits 16 n)

/-- The wording of a flaw of a PNG. -/
def message : PngFlaw → String
  | signature => "Invalid PNG signature."
  | check stored computed n =>
    "CRC error: expected " ++ hex stored ++ " have " ++ hex computed ++ " while decoding "
      ++ n.described ++ " chunk."
  | shortChunk n => "Chunk length wrong: " ++ n.described
  | beforeHead n => n.described ++ " chunk appeared before IHDR chunk"
  | restart n => "Unexpected restart of " ++ n.described ++ " chunk sequence"
  | repeated n => "Chunk " ++ n.described ++ " must appear at most once."
  | unrecognized n => "Unrecognized critical chunk: " ++ n.described
  | dataMissing => "IDAT or fdAT chunk is missing."
  | noPixels => "Invalid image dimensions"
  | depth b => "Invalid bit depth " ++ toString b.toNat ++ "."
  | colorKind b => "Invalid color type " ++ toString b.toNat ++ "."
  | combination k d => "Invalid color/depth combination in header: " ++ k.name ++ "/" ++ d.name
  | compression b => "Unknown compression method " ++ toString b.toNat ++ "."
  | filtering b => "Unknown filter method " ++ toString b.toNat ++ "."
  | interlacing b => "Unknown interlace method " ++ toString b.toNat ++ "."
  | rowFilter b => "Unknown filter method " ++ toString b.toNat ++ "."
  | paletteMissing => "Missing palette of indexed image."
  | compressed f => "Corrupt deflate stream. " ++ f.message
  | tooFewRows => "IDAT or fDAT chunk does not have enough data for image."

end PngFlaw

end Montage
