/-!
# Checksums

The cyclic redundancy check that closes each chunk of a PNG, and the Adler
sum that closes its compressed data.
-/

namespace Montage

namespace Checksum

/-- One step of the cyclic check for one bit. -/
def crcBit (c : UInt32) : UInt32 :=
  if c % 2 = 1 then (0xEDB88320 : UInt32) ^^^ (c >>> 1) else c >>> 1

/-- One step of the cyclic check for one byte. -/
def crcByte (c : UInt32) (b : UInt8) : UInt32 :=
  crcBit (crcBit (crcBit (crcBit (crcBit (crcBit (crcBit (crcBit (c ^^^ b.toUInt32))))))))

/-- The cyclic redundancy check of bytes. -/
def crc (bytes : List UInt8) : UInt32 := bytes.foldl crcByte (0xFFFFFFFF : UInt32) ^^^ (0xFFFFFFFF : UInt32)

/-- The modulus of the Adler sum, the greatest prime below `2^16`. -/
def adlerModulus : Nat := 65521

/-- The Adler sum of bytes: the sum of the bytes and the sum of its partial
sums, sixteen bits each. -/
def adler (bytes : List UInt8) : UInt32 :=
  let (a, b) := bytes.foldl (fun (a, b) byte =>
    let a := (a + byte.toNat) % adlerModulus
    (a, (b + a) % adlerModulus)) (1, 0)
  UInt32.ofNat (b * 65536 + a)

end Checksum

end Montage
