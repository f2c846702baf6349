import Montage.Codec.Bytes
import Montage.Codec.Checksum
import Montage.Quotation
/-!
# Chunks — what a PNG is made of

A chunk has a length, a name of four bytes, its content and a checksum of name
and content. The case of the letters of its name says how a chunk is to be
treated by those that do not know it.
-/

namespace Montage

namespace Png

/-- The name of a chunk. -/
structure ChunkName where
  b0 : UInt8
  b1 : UInt8
  b2 : UInt8
  b3 : UInt8
deriving DecidableEq

namespace ChunkName

/-- The chunk that says what the picture is like. -/
def head : ChunkName := ⟨73, 72, 68, 82⟩

/-- A chunk of the picture itself. -/
def data : ChunkName := ⟨73, 68, 65, 84⟩

/-- A chunk of a further picture. -/
def furtherData : ChunkName := ⟨102, 100, 65, 84⟩

/-- The last chunk. -/
def last : ChunkName := ⟨73, 69, 78, 68⟩

/-- The chunk that holds the colours of an indexed picture. -/
def palette : ChunkName := ⟨80, 76, 84, 69⟩

/-- The chunk that says which colours are transparent. -/
def transparency : ChunkName := ⟨116, 82, 78, 83⟩

/-- The bytes of a name. -/
def bytes (n : ChunkName) : List UInt8 := [n.b0, n.b1, n.b2, n.b3]

/-- Whether a byte is marked as small letters are. -/
def isMarked (b : UInt8) : Bool := b / 32 % 2 == 1

/-- Whether the picture cannot be read without the chunk. -/
def isCritical (n : ChunkName) : Bool := !isMarked n.b0

/-- The letters of a name. -/
def letters (n : ChunkName) : String :=
  String.join (n.bytes.map fun b => Quotation.escapedAlone (Char.ofNat b.toNat))

/-- A name as it is described in messages. -/
def described (n : ChunkName) : String :=
  "ChunkType \x7b type: " ++ n.letters ++ ", critical: " ++ toString n.isCritical
    ++ ", private: " ++ toString (isMarked n.b1) ++ ", reserved: " ++ toString (isMarked n.b2)
    ++ ", safecopy: " ++ toString (isMarked n.b3) ++ " \x7d"

end ChunkName

/-- The checksum of a chunk. -/
def checkOf (name : ChunkName) (content : List UInt8) : Nat :=
  (Checksum.crc (name.bytes ++ content)).toNat

/-- A chunk with its length and its checksum. -/
def chunk (name : ChunkName) (content : List UInt8) : List UInt8 :=
  bytes32 content.length ++ name.bytes ++ content ++ bytes32 (checkOf name content)

end Png

end Montage
