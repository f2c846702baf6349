/-!
# Bytes — numbers as files hold them

Some formats write the highest byte of a number first, others the lowest.
-/

namespace Montage

/-- A number in four bytes, the highest first. -/
def bytes32 (n : Nat) : List UInt8 :=
  [UInt8.ofNat (n / 16777216), UInt8.ofNat (n / 65536), UInt8.ofNat (n / 256), UInt8.ofNat n]

/-- A number in two bytes, the highest first. -/
def bytes16 (n : Nat) : List UInt8 := [UInt8.ofNat (n / 256), UInt8.ofNat n]

/-- The number that bytes stand for, the highest first. -/
def numberOfBytes (bytes : List UInt8) : Nat := bytes.foldl (fun n b => n * 256 + b.toNat) 0

/-- A number in `count` bytes, the lowest first. -/
def bytesLow : (count : Nat) → Nat → List UInt8
  | 0, _ => []
  | count + 1, n => UInt8.ofNat n :: bytesLow count (n / 256)

/-- A number and the bits that it takes up. -/
structure BitField where
  value : Nat
  width : Nat

/-- Bits as bytes, each byte filled lowest bit first. `held` holds the `count`
bits of the byte that has been begun, and the last byte is filled up with
zeros. -/
def packFrom (held count : Nat) : List BitField → List UInt8
  | [] => if count = 0 then [] else [UInt8.ofNat held]
  | f :: fs =>
    let held := held + f.value <<< count
    let count := count + f.width
    bytesLow (count / 8) held ++ packFrom (held >>> (count / 8 * 8)) (count % 8) fs

/-- Bits as bytes. -/
def packBits (fields : List BitField) : List UInt8 := packFrom 0 0 fields

end Montage
