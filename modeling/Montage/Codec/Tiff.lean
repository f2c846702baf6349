import Montage.Codec.Bytes
import Montage.Codec.Picture
/-!
# TIFF

A TIFF begins with the place of its directory. Each entry of the directory has
a number, the form of its values, how many there are, and the values, or their
place where they do not fit in. Pictures are written as a single strip without
compression.
-/

namespace Montage

namespace Tiff

/-- The value of an entry of the directory. -/
inductive Value where
  | word (n : Nat)
  | long (n : Nat)
  /-- Words that stand elsewhere. -/
  | wordsAt (count place : Nat)

/-- An entry of the directory. -/
def entry (number : Nat) (value : Value) : List UInt8 :=
  bytesLow 2 number ++
    match value with
    | .word n => bytesLow 2 3 ++ bytesLow 4 1 ++ bytesLow 4 n
    | .long n => bytesLow 2 4 ++ bytesLow 4 1 ++ bytesLow 4 n
    | .wordsAt count place => bytesLow 2 3 ++ bytesLow 4 count ++ bytesLow 4 place

/-- A picture as a TIFF. -/
def encode (p : Picture) : List UInt8 :=
  let strip := p.pixelBytes Picture.redFirst
  let channels := Picture.colorChannels p.colored
  -- the bits of each channel stand after the head, and the strip after them
  let start := 14
  let padding := strip.length % 2
  let directory := start + strip.length + padding
  let entries :=
    [entry 256 (.long p.size.width), entry 257 (.long p.size.height),
      entry 258 (if p.colored then .wordsAt 3 8 else .word 8), entry 259 (.word 1),
      entry 262 (.word (if p.colored then 2 else 1)), entry 273 (.long start),
      entry 277 (.word channels), entry 278 (.long p.size.height),
      entry 279 (.long strip.length)]
  [0x49, 0x49, 0x2a, 0] ++ bytesLow 4 directory ++ [8, 0, 8, 0, 8, 0] ++ strip
    ++ List.replicate padding 0 ++ bytesLow 2 entries.length ++ entries.flatten ++ bytesLow 4 0

end Tiff

end Montage
