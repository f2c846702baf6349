import Montage.Codec.Inflate
/-!
# Plain blocks are read back

What `Deflate.encode` writes, `Deflate.inflate` reads. The argument goes block
by block: the head of a block is met at the first bit of a byte
(`readHead_storedBlock`), its content begins at the next byte whatever is left
of that one (`readStored_content`), and after it the bits stand at the first
bit of a byte again. So a block takes the reader from one block to the next
(`readBlocks_storedBlock`), and `readBlocks_storeFrom` puts the blocks together
by induction on their number.
-/

namespace Montage

namespace Deflate

variable {rest bytes : List UInt8} {out : Array UInt8}

/-! ## A block -/

/-- The byte at the head of a plain block holds the flag of the last block and,
in the two bits above it, the kind zero. Five bits of it are left. -/
theorem readHead_storedBlock (last : Bool) (b : UInt8) :
    readHead ⟨(if last then 1 else 0) :: b :: rest, 0, 0⟩ = .ok (last, 0, ⟨b :: rest, 0, 5⟩) := by
  have hhold (a : UInt8) : Bits.hold blockReach ⟨a :: b :: rest, 0, 0⟩ = true := by
    simp [Bits.hold, Bits.bytesFor, blockReach]
  have hlast : Bits.take 1 ⟨(if last then 1 else 0) :: b :: rest, 0, 0⟩
      = .ok (if last then 1 else 0, ⟨b :: rest, 0, 7⟩) := by
    cases last <;> simp [Bits.take, Bits.fill, Except.map]
  have hkind : Bits.take 2 ⟨b :: rest, 0, 7⟩ = .ok (0, ⟨b :: rest, 0, 5⟩) := by
    simp [Bits.take, Bits.fill, Except.map]
  simp only [readHead, hhold, hlast, hkind, bind, Except.bind]
  cases last <;> rfl

/-- A length of at most sixteen bits is read from its two bytes. -/
theorem toNat_twoBytes {n : Nat} (h : n ≤ storedLimit) :
    (UInt8.ofNat n).toNat + (UInt8.ofNat (n / 256)).toNat * 256 = n := by
  simp only [storedLimit] at h
  simp only [UInt8.toNat_ofNat']
  omega

/-- **The content of a plain block is read whole**, and what follows it begins
with a fresh byte. The bits left of the byte before are dropped. -/
theorem readStored_content (h : bytes.length ≤ storedLimit) (held count : Nat) :
    readStored ⟨UInt8.ofNat bytes.length :: UInt8.ofNat (bytes.length / 256)
        :: UInt8.ofNat (storedLimit - bytes.length)
        :: UInt8.ofNat ((storedLimit - bytes.length) / 256) :: (bytes ++ rest), held, count⟩ out
      = (out ++ bytes, .ok ⟨rest, 0, 0⟩) := by
  have hlength := toNat_twoBytes h
  have hmissing := toNat_twoBytes (Nat.sub_le storedLimit bytes.length)
  have hsum : bytes.length + (storedLimit - bytes.length) = storedLimit := by omega
  simp only [readStored, hlength, hmissing, hsum, if_true, List.take_left, List.drop_left]

/-- **A plain block takes the reader to the block after it**, or to the end of
the blocks if it is the last one. -/
theorem readBlocks_storedBlock (last : Bool) (h : bytes.length ≤ storedLimit) (fuel : Nat) :
    readBlocks (fuel + 1) ⟨storedBlock last bytes ++ rest, 0, 0⟩ out
      = if last then (out ++ bytes, .ok ⟨rest, 0, 0⟩)
        else readBlocks fuel ⟨rest, 0, 0⟩ (out ++ bytes) := by
  simp only [storedBlock, List.cons_append, readBlocks, readHead_storedBlock, readContent,
    if_true, readStored_content h]

/-! ## Blocks -/

theorem lt_length_storeFrom (full : Nat) (bytes : List UInt8) :
    full < (storeFrom full bytes).length := by
  induction full generalizing bytes with
  | zero => simp [storeFrom, storedBlock]
  | succ full ih =>
    have := ih (bytes.drop storedLimit)
    simp only [storeFrom, storedBlock, List.length_append, List.length_cons]
    omega

/-- **Plain blocks are read back one after the other.** What came out before
them stays, and what follows them is left. -/
theorem readBlocks_storeFrom {full fuel : Nat} (hfuel : full < fuel)
    (hlength : bytes.length ≤ (full + 1) * storedLimit) :
    readBlocks fuel ⟨storeFrom full bytes ++ rest, 0, 0⟩ out
      = (out ++ bytes, .ok ⟨rest, 0, 0⟩) := by
  obtain ⟨fuel, rfl⟩ : ∃ n, fuel = n + 1 := ⟨fuel - 1, by omega⟩
  induction full generalizing bytes out fuel with
  | zero => simp [storeFrom, readBlocks_storedBlock true (by omega : bytes.length ≤ storedLimit)]
  | succ full ih =>
    have htake : (bytes.take storedLimit).length ≤ storedLimit := List.length_take_le ..
    have hdrop : (bytes.drop storedLimit).length ≤ (full + 1) * storedLimit := by
      rw [List.length_drop]
      rw [Nat.succ_mul] at hlength
      omega
    obtain ⟨fuel, rfl⟩ : ∃ n, fuel = n + 1 := ⟨fuel - 1, by omega⟩
    have hout : out ++ bytes.take storedLimit ++ bytes.drop storedLimit = out ++ bytes := by
      apply Array.toList_inj.mp
      simp only [Array.toList_appendList, List.append_assoc, List.take_append_drop]
    rw [storeFrom, List.append_assoc, readBlocks_storedBlock false htake, if_neg Bool.false_ne_true,
      ih hdrop fuel (by omega), hout]

/-! ## Compressed data -/

theorem length_le_storeFrom (bytes : List UInt8) :
    bytes.length ≤ ((bytes.length - 1) / storedLimit + 1) * storedLimit := by
  have h := Nat.lt_div_mul_add (a := bytes.length - 1) (b := storedLimit) (by decide)
  rw [Nat.succ_mul]
  omega

/-- **Bytes that are kept as they are come back.** The checksum after them is
there, and nothing stops the reader. -/
theorem inflate_encode (bytes : List UInt8) : inflate (encode bytes) = ⟨bytes.toArray, none⟩ := by
  have hfuel : (bytes.length - 1) / storedLimit
      < 8 * (store bytes ++ bytes32 (Checksum.adler bytes).toNat).length + 1 := by
    have := lt_length_storeFrom ((bytes.length - 1) / storedLimit) bytes
    rw [List.length_append, store]
    omega
  have hread : readBlocks (8 * (store bytes ++ bytes32 (Checksum.adler bytes).toNat).length + 1)
      ⟨store bytes ++ bytes32 (Checksum.adler bytes).toNat, 0, 0⟩ #[]
        = (#[] ++ bytes, .ok ⟨bytes32 (Checksum.adler bytes).toNat, 0, 0⟩) :=
    readBlocks_storeFrom hfuel (length_le_storeFrom bytes)
  have hannounced : announces 0x78 0x01 = true := by decide
  have hcheck (n : Nat) : ((bytes32 n).take checkLength).length = checkLength := rfl
  simp only [encode, List.cons_append, List.nil_append, inflate, hannounced, if_true, hread, hcheck]
  simp

end Deflate

end Montage
