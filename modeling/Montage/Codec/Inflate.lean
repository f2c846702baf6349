import Montage.Codec.Deflate
/-!
# Inflate — reading compressed data

`Deflate.inflate` reads all kinds of blocks. What has been read before the
data ends or breaks is not lost: an answer holds the bytes so far and why they
stop.

Bits are taken from each byte lowest first, and the bits of a number come
lowest first as well; only codewords come highest bit first. Some decisions
are put off until more bits are there than they depend on, so data that ends
before that is short rather than broken.
-/

namespace Montage

namespace Deflate

/-- Why reading stops. -/
inductive Stop where
  /-- The data ends. -/
  | starved
  /-- The data is broken. So many bytes have not been looked at. -/
  | broken (flaw : DeflateFlaw) (unread : Nat)

/-! ## Bits -/

/-- The bytes still to be read, and the bits of a byte that has been begun:
their value and their number, which is less than eight. -/
structure Bits where
  rest : List UInt8
  held : Nat
  count : Nat

namespace Bits

/-- The bits with at least `n` of them held. -/
def fill (n : Nat) : (rest : List UInt8) → (held count : Nat) → Except Stop Bits
  | [], held, count => if n ≤ count then .ok ⟨[], held, count⟩ else .error .starved
  | b :: rest, held, count =>
    if n ≤ count then .ok ⟨b :: rest, held, count⟩
    else fill n rest (held + b.toNat <<< count) (count + 8)

/-- The number in the next `n` bits, and the bits after them. -/
def take (n : Nat) (b : Bits) : Except Stop (Nat × Bits) :=
  (fill n b.rest b.held b.count).map fun b =>
    (b.held % 1 <<< n, ⟨b.rest, b.held >>> n, b.count - n⟩)

/-- The number of bytes that hold the next `n` bits, the begun one apart. -/
def bytesFor (n : Nat) (b : Bits) : Nat := (n - b.count + 7) / 8

/-- Whether there are `n` more bits. -/
def hold (n : Nat) (b : Bits) : Bool := (b.rest.take (b.bytesFor n)).length == b.bytesFor n

/-- The break that shows in the next `n` bits, once these are there. -/
def broken (flaw : DeflateFlaw) (n : Nat) (b : Bits) : Stop :=
  if b.hold n then .broken flaw (b.rest.length - b.bytesFor n) else .starved

end Bits

/-! ## Codes -/

/-- A Huffman code: its symbols in the order of their codewords, and the
number of codewords of each length from one up to the greatest. -/
structure Code where
  symbols : Array Nat
  counts : List Nat

namespace Code

/-- The greatest length of a codeword. -/
def longest : Nat := 15

/-- The code in which symbol `i` has a codeword of length `lengths[i]`, or
none where that is zero. Codewords of one length follow each other in the
order of their symbols, and longer ones come after shorter ones. -/
def ofLengths (lengths : List Nat) : Code where
  symbols := ((List.range longest).flatMap fun l =>
    lengths.zipIdx.filterMap fun (n, i) => if n = l + 1 then some i else none).toArray
  counts :=
    (((List.range longest).map fun l => lengths.count (l + 1)).reverse.dropWhile (· == 0)).reverse

/-- Whether each long enough sequence of bits begins with one codeword. With
each bit the sequences double, and those with a codeword drop out. -/
def isComplete (c : Code) : Bool :=
  !c.counts.isEmpty && c.counts.foldl (fun used n => used * 2 + n) 0 == 1 <<< c.counts.length

/-- Reads a codeword. Before this bit a codeword `code` has been read, the
first codeword of that length would be `first`, and `index` symbols have
shorter codewords. The answer is none if no codeword begins like this. -/
def readFrom (c : Code) : (counts : List Nat) → (code first index : Nat) → Bits →
    Except Stop (Option Nat × Bits)
  | [], _, _, _, bits => .ok (none, bits)
  | n :: counts, code, first, index, bits => do
    let (bit, bits) ← bits.take 1
    let code := code * 2 + bit
    let first := first * 2
    if code < first + n then return (some (c.symbols.getD (index + (code - first)) 0), bits)
    else readFrom c counts code (first + n) (index + n) bits

/-- Reads a symbol. -/
def read (c : Code) (bits : Bits) : Except Stop (Option Nat × Bits) :=
  c.readFrom c.counts 0 0 0 bits

end Code

/-- The code of literals that is used where none is given. -/
def fixedLiterals : Code :=
  .ofLengths (List.replicate 144 8 ++ List.replicate 112 9 ++ List.replicate 24 7
    ++ List.replicate 8 8)

/-- The code of copy distances that is used where none is given. -/
def fixedDistances : Code := .ofLengths (List.replicate 32 5)

/-- The least copy length of each length symbol, and its number of further
bits. -/
def lengthBases : Array (Nat × Nat) :=
  #[(3, 0), (4, 0), (5, 0), (6, 0), (7, 0), (8, 0), (9, 0), (10, 0), (11, 1), (13, 1), (15, 1),
    (17, 1), (19, 2), (23, 2), (27, 2), (31, 2), (35, 3), (43, 3), (51, 3), (59, 3), (67, 4),
    (83, 4), (99, 4), (115, 4), (131, 5), (163, 5), (195, 5), (227, 5), (258, 0)]

/-- The least copy distance of each distance symbol, and its number of further
bits. -/
def distanceBases : Array (Nat × Nat) :=
  #[(1, 0), (2, 0), (3, 0), (4, 0), (5, 1), (7, 1), (9, 2), (13, 2), (17, 3), (25, 3), (33, 4),
    (49, 4), (65, 5), (97, 5), (129, 6), (193, 6), (257, 7), (385, 7), (513, 8), (769, 8),
    (1025, 9), (1537, 9), (2049, 10), (3073, 10), (4097, 11), (6145, 11), (8193, 12), (12289, 12),
    (16385, 13), (24577, 13)]

/-! ## Symbols -/

/-- What a block says next. -/
inductive Item where
  | byte (b : UInt8)
  /-- `length` bytes follow that are the same as those from `distance` back. -/
  | copy (distance length : Nat)
  | finish

/-- The bits that must be there before a distance is found to stand for
nothing. -/
def distanceReach : Nat := 10

/-- Reads how far back a copy begins. -/
def readDistance (distances : Code) (bits : Bits) : Except Stop (Nat × Bits) := do
  let (d, after) ← distances.read bits
  match d.bind fun d => distanceBases[d]? with
  | none => throw (bits.broken .distance distanceReach)
  | some (nearest, more) =>
    let (further, after) ← after.take more
    return (nearest + further, after)

/-- Reads an item of a block, before which there have been `behind` bytes. -/
def readItem (literals distances : Code) (behind : Nat) (bits : Bits) :
    Except Stop (Item × Bits) := do
  let (s, bits) ← literals.read bits
  match s with
  | none => throw (bits.broken .literal 0)
  | some s =>
    if s < 256 then return (.byte (UInt8.ofNat s), bits)
    if s = 256 then return (.finish, bits)
    match lengthBases[s - 257]? with
    | none => throw (bits.broken .literal 0)
    | some (base, more) =>
      let (extra, bits) ← bits.take more
      let (distance, bits) ← readDistance distances bits
      if behind < distance then throw (bits.broken .tooFarBack 0)
      return (.copy distance (base + extra), bits)

/-- The bytes after `count` copies from `distance` back. -/
def copyBack (distance : Nat) : (count : Nat) → Array UInt8 → Array UInt8
  | 0, out => out
  | count + 1, out => copyBack distance count (out.push (out.getD (out.size - distance) 0))

/-- Reads the items of a block up to its end. Each takes up a bit at least, so
`fuel` need not exceed their number. -/
def readItems (literals distances : Code) :
    (fuel : Nat) → Bits → Array UInt8 → Array UInt8 × Except Stop Bits
  | 0, _, out => (out, .error .starved)
  | fuel + 1, bits, out =>
    match readItem literals distances out.size bits with
    | .error stop => (out, .error stop)
    | .ok (.byte b, bits) => readItems literals distances fuel bits (out.push b)
    | .ok (.copy distance length, bits) =>
      readItems literals distances fuel bits (copyBack distance length out)
    | .ok (.finish, bits) => (out, .ok bits)

/-! ## The codes of a block -/

/-- The order in which the lengths of the code for lengths are given. -/
def lengthOrder : List Nat :=
  [16, 17, 18, 0, 8, 7, 9, 6, 10, 5, 11, 4, 12, 3, 13, 2, 14, 1, 15]

/-- Reads numbers of three bits each, the lengths of the code for lengths. -/
def readShortLengths : (count : Nat) → Bits → Except Stop (List Nat × Bits)
  | 0, bits => .ok ([], bits)
  | count + 1, bits => do
    let (n, bits) ← bits.take 3
    let (ns, bits) ← readShortLengths count bits
    return (n :: ns, bits)

/-- The bits that must be there before a codeword of the code for lengths is
looked at. -/
def lengthReach : Nat := 7

/-- Reads the lengths of the codewords of a block, last one first: lengths as
they are, and repetitions of the last length or of zero. -/
def readLengths (code : Code) (wanted : Nat) :
    (fuel : Nat) → (lengths : List Nat) → Bits → Except Stop (List Nat × Bits)
  | 0, _, _ => .error .starved
  | fuel + 1, lengths, bits => do
    if wanted ≤ lengths.length then return (lengths, bits)
    if !bits.hold lengthReach then throw .starved
    let (s, bits) ← code.read bits
    let s := s.getD 0
    if s < 16 then readLengths code wanted fuel (s :: lengths) bits
    else
      let (least, more) := if s = 16 then (3, 2) else if s = 17 then (3, 3) else (11, 7)
      let (extra, bits) ← bits.take more
      let repeated := if s = 16 then lengths.head? else some 0
      match repeated with
      | some l =>
        if wanted < lengths.length + (least + extra) then throw (bits.broken .repetition 0)
        readLengths code wanted fuel (List.replicate (least + extra) l ++ lengths) bits
      | none => throw (bits.broken .repetition 0)

/-- The most literals and distances that a block has codewords for. -/
def literalLimit : Nat := 286
def distanceLimit : Nat := 30

/-- Whether codeword lengths make up a code for distances. It may have no
codewords at all, or a single one of one bit. -/
def servesDistances (c : Code) : Bool := c.counts.isEmpty || c.counts == [1] || c.isComplete

/-- Reads the two codes at the head of a block. -/
def readCodes (bits : Bits) : Except Stop (Code × Code × Bits) := do
  let (literalCount, bits) ← bits.take 5
  let (distanceCount, bits) ← bits.take 5
  let (shortCount, bits) ← bits.take 4
  let literalCount := literalCount + 257
  let distanceCount := distanceCount + 1
  if literalLimit < literalCount then throw (bits.broken .literalCount 0)
  if distanceLimit < distanceCount then throw (bits.broken .distanceCount 0)
  let (short, bits) ← readShortLengths (shortCount + 4) bits
  -- lengths that are not given are zero
  let given := lengthOrder.zip short
  let code := Code.ofLengths
    ((List.range 19).map fun i => ((given.find? fun p => p.1 = i).map (·.2)).getD 0)
  if !code.isComplete then throw (bits.broken .lengthCode 0)
  let wanted := literalCount + distanceCount
  let (lengths, bits) ← readLengths code wanted (wanted + 1) [] bits
  let lengths := lengths.reverse
  let literals := Code.ofLengths (lengths.take literalCount)
  let distances := Code.ofLengths (lengths.drop literalCount)
  if lengths.getD 256 0 = 0 || !literals.isComplete then throw (bits.broken .literalCode 0)
  if !servesDistances distances then throw (bits.broken .distanceCode 0)
  return (literals, distances, bits)

/-! ## Blocks -/

/-- Reads a block that holds its bytes as they are. It begins with a fresh
byte, and gives its length twice. -/
def readStored (bits : Bits) (out : Array UInt8) : Array UInt8 × Except Stop Bits :=
  match bits.rest with
  | a :: b :: c :: d :: rest =>
    let length := a.toNat + b.toNat * 256
    if length + (c.toNat + d.toNat * 256) = storedLimit then
      let content := rest.take length
      (out ++ content,
        if content.length = length then .ok ⟨rest.drop length, 0, 0⟩ else .error .starved)
    else (out, .error (.broken .blockLength rest.length))
  | _ => (out, .error .starved)

/-- The bits that must be there before the head of a block is looked at. -/
def blockReach : Nat := 10

/-- Reads the head of a block: whether it is the last one, and its kind. -/
def readHead (bits : Bits) : Except Stop (Bool × Nat × Bits) := do
  if !bits.hold blockReach then throw .starved
  let (last, after) ← bits.take 1
  let (kind, after) ← after.take 2
  if kind = 3 then throw (bits.broken .blockKind blockReach)
  return (last == 1, kind, after)

/-- Reads what a block of the given kind holds. -/
def readContent (kind : Nat) (bits : Bits) (out : Array UInt8) : Array UInt8 × Except Stop Bits :=
  if kind = 0 then readStored bits out
  else
    match if kind = 1 then .ok (fixedLiterals, fixedDistances, bits) else readCodes bits with
    | .error stop => (out, .error stop)
    | .ok (literals, distances, bits) =>
      readItems literals distances (8 * bits.rest.length + 8) bits out

/-- Reads blocks up to the last one. Each takes up a bit at least. -/
def readBlocks : (fuel : Nat) → Bits → Array UInt8 → Array UInt8 × Except Stop Bits
  | 0, _, out => (out, .error .starved)
  | fuel + 1, bits, out =>
    match readHead bits with
    | .error stop => (out, .error stop)
    | .ok (last, kind, bits) =>
      match readContent kind bits out with
      | (out, .ok bits) => if last then (out, .ok bits) else readBlocks fuel bits out
      | stopped => stopped

/-! ## Compressed data -/

/-- What has been read of compressed data. -/
structure Inflated where
  bytes : Array UInt8
  /-- Why no more has been read, unless all has. -/
  stop : Option Stop

/-- Whether two bytes announce compressed data: its kind, a distance limit
that is not too large, no dictionary, and a number that thirty-one divides. -/
def announces (a b : UInt8) : Bool :=
  a % 16 == 8 && a / 16 ≤ 7 && b / 32 % 2 == 0 && (a.toNat * 256 + b.toNat) % 31 == 0

/-- The number of bytes of the checksum. -/
def checkLength : Nat := 4

/-- **Reads compressed data.** The checksum must be there and may be wrong, and
whatever follows it is ignored. -/
def inflate : (bytes : List UInt8) → Inflated
  | a :: b :: rest =>
    if announces a b then
      match readBlocks (8 * rest.length + 1) ⟨rest, 0, 0⟩ #[] with
      | (out, .error stop) => ⟨out, some stop⟩
      | (out, .ok bits) =>
        ⟨out, if (bits.rest.take checkLength).length = checkLength then none else some .starved⟩
    else ⟨#[], some (.broken .header rest.length)⟩
  | _ => ⟨#[], some .starved⟩

end Deflate

end Montage
