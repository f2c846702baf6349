import Montage.Codec.Bytes
import Montage.Codec.Checksum
/-!
# Deflate — compressed data

Compressed data is a sequence of blocks. A block holds its bytes as they are,
or as symbols of Huffman codes: bytes, and copies of what came before. Two
bytes stand before the blocks and a checksum of the plain bytes after them.
This file says what can be wrong with compressed data, and writes blocks of
the first kind.
-/

namespace Montage

/-! ## Flaws -/

/-- What breaks compressed data. -/
inductive DeflateFlaw where
  /-- The two bytes before the blocks ask for what is not there. -/
  | header
  /-- No block is of this kind. -/
  | blockKind
  /-- The two lengths of a plain block disagree. -/
  | blockLength
  /-- A block has codewords for more literals than there are. -/
  | literalCount
  /-- A block has codewords for more distances than there are. -/
  | distanceCount
  /-- A codeword length is repeated before there is one, or too often. -/
  | repetition
  /-- The code for codeword lengths is no complete code. -/
  | lengthCode
  /-- The code for literals is no complete code, or knows no end. -/
  | literalCode
  /-- The code for distances is no complete code. -/
  | distanceCode
  /-- A literal that stands for nothing. -/
  | literal
  /-- A distance that stands for nothing. -/
  | distance
  /-- A copy of what was before the first byte. -/
  | tooFarBack
  /-- The data ends early. -/
  | insufficient
deriving DecidableEq

/-- The wording of a flaw in compressed data. -/
def DeflateFlaw.message : DeflateFlaw → String
  | header => "BadZlibHeader"
  | blockKind => "InvalidBlockType"
  | blockLength => "InvalidUncompressedBlockLength"
  | literalCount => "InvalidHlit"
  | distanceCount => "InvalidHdist"
  | repetition => "InvalidCodeLengthRepeat"
  | lengthCode => "BadCodeLengthHuffmanTree"
  | literalCode => "BadLiteralLengthHuffmanTree"
  | distanceCode => "BadDistanceHuffmanTree"
  | literal => "InvalidLiteralLengthCode"
  | distance => "InvalidDistanceCode"
  | tooFarBack => "DistanceTooFarBack"
  | insufficient => "InsufficientInput"

namespace Deflate

/-! ## Writing -/

/-- The most bytes that a block can hold as they are. -/
def storedLimit : Nat := 65535

/-- A block that holds its bytes as they are. Their number is given twice, the
second time as what is missing to the limit. -/
def storedBlock (last : Bool) (bytes : List UInt8) : List UInt8 :=
  let n := bytes.length
  let m := storedLimit - n
  (if last then 1 else 0) :: UInt8.ofNat n :: UInt8.ofNat (n / 256)
    :: UInt8.ofNat m :: UInt8.ofNat (m / 256) :: bytes

/-- Bytes as blocks that hold them as they are, one more than `full` of them. -/
def storeFrom : (full : Nat) → List UInt8 → List UInt8
  | 0, bytes => storedBlock true bytes
  | full + 1, bytes =>
    storedBlock false (bytes.take storedLimit) ++ storeFrom full (bytes.drop storedLimit)

/-- Bytes as blocks without compression. -/
def store (bytes : List UInt8) : List UInt8 :=
  storeFrom ((bytes.length - 1) / storedLimit) bytes

/-- Bytes as compressed data without compression. -/
def encode (bytes : List UInt8) : List UInt8 :=
  [0x78, 0x01] ++ store bytes ++ bytes32 (Checksum.adler bytes).toNat

end Deflate

end Montage
