import Montage.Codec.Png.Decoding
import Montage.Codec.Png.Encoding
import Montage.Proofs.Codec.Deflate
import Montage.Proofs.Raster
/-!
# A written PNG is read back

`Png.encode` writes a signature, the head chunk, the compressed rows cut into
chunks, and the last chunk. `Png.decode` takes them off in that order, so the
file does as well: chunks (`openChunk_chunk`, `closeChunk_check`), the head
(`readHead_headContent`), the chunks before the data (`readPreface_encode`),
the data (`readPieces_dataChunks`), and its rows (`unfilter_plainRows`).

What is read back is the picture itself, unless its samples take up more than
`Picture.sizeLimit` bytes: such a picture is written all the same and refused
on reading (`decode_encode`).
-/

namespace Montage

namespace Size

/-- Sides of at most thirty-two bits, as a head chunk holds them. -/
structure Addressable (s : Size) : Prop where
  width_lt : s.width < UInt32.size
  height_lt : s.height < UInt32.size

/-- The extent of a picture that can be written: such sides, and a pixel. -/
structure Storable (s : Size) : Prop extends s.Addressable where
  nonempty : s.Nonempty

end Size

namespace Png

/-! ## Chunks -/

/-- A number of at most thirty-two bits is read from its four bytes. -/
theorem numberOfBytes_bytes32 {n : Nat} (h : n < UInt32.size) : numberOfBytes (bytes32 n) = n := by
  simp only [numberOfBytes, bytes32, List.foldl, UInt8.toNat_ofNat', UInt32.size] at h ⊢
  omega

theorem checkOf_lt (name : ChunkName) (content : List UInt8) : checkOf name content < UInt32.size :=
  UInt32.toNat_lt _

/-- A chunk opens with its length and its name. -/
theorem openChunk_chunk {name : ChunkName} {content : List UInt8} (rest : List UInt8)
    (h : content.length < UInt32.size) :
    openChunk (chunk name content ++ rest)
      = .ok (content.length, name, content ++ (bytes32 (checkOf name content) ++ rest)) := by
  have hlength := numberOfBytes_bytes32 h
  simp only [bytes32] at hlength
  simp only [chunk, bytes32, ChunkName.bytes, List.cons_append, List.nil_append,
    List.append_assoc, openChunk, hlength]

/-- It closes with its checksum. -/
theorem closeChunk_check (name : ChunkName) (content rest : List UInt8) :
    closeChunk (bytes32 (checkOf name content) ++ rest) = .ok (checkOf name content, rest) := by
  have hcheck := numberOfBytes_bytes32 (checkOf_lt name content)
  simp only [bytes32] at hcheck
  simp only [bytes32, List.cons_append, List.nil_append, closeChunk, hcheck]

/-! ## Before the data -/

/-- The kind of pixels with eight bits a sample and the given channels. -/
def ColorKind.ofChannels (colored transparent : Bool) : ColorKind :=
  match colored, transparent with
  | false, false => .gray
  | true, false => .rgb
  | false, true => .grayAlpha
  | true, true => .rgbAlpha

/-- The head of a picture that is written with eight bits a sample. -/
def headOf (p : Picture) : Head := ⟨p.size, .ofChannels p.colored p.transparent, .eight, false⟩

theorem samples_ofChannels (colored transparent : Bool) :
    (ColorKind.ofChannels colored transparent).samples = Picture.channels colored transparent := by
  cases colored <;> cases transparent <;> rfl

/-- **The head chunk says what the picture is like.** -/
theorem readHead_headContent {p : Picture} (hsize : p.size.Storable) :
    readHead (headContent p 8) = .ok (headOf p) := by
  have hw := numberOfBytes_bytes32 hsize.width_lt
  have hh := numberOfBytes_bytes32 hsize.height_lt
  have hpixels := hsize.nonempty.has_sides
  obtain ⟨size, colored, transparent, data⟩ := p
  simp only [bytes32] at hw hh
  simp only [headContent, bytes32, List.cons_append, List.nil_append, readHead, List.drop,
    List.take, hw, hh, hpixels]
  cases colored <;> cases transparent <;> rfl

theorem length_headContent (p : Picture) (depth : Nat) : (headContent p depth).length = 13 := rfl

/-- **The chunks before the data of a picture hold its head and nothing
else.** -/
theorem readPreface_encode {p : Picture} {rest content : List UInt8} {length : Nat} (fuel : Nat)
    (hsize : p.size.Storable) (hrest : openChunk rest = .ok (length, .data, content)) :
    readPreface (fuel + 2) ⟨none, none, false⟩ (chunk .head (headContent p 8) ++ rest)
      = .ok (⟨some (headOf p), none, false⟩, rest) := by
  have hlength : (headContent p 8).length < UInt32.size := by
    rw [length_headContent]
    decide
  have hadd : Preface.add ⟨none, none, false⟩ .head (headContent p 8)
      = .ok ⟨some (headOf p), none, false⟩ := by
    rw [Preface.add, readHead_headContent hsize]
    rfl
  have hcheckHead : Preface.check ⟨none, none, false⟩ .head = .ok () := rfl
  have hcheckData : Preface.check ⟨some (headOf p), none, false⟩ .data = .ok () := rfl
  have hother : ChunkName.head ≠ ChunkName.data := by decide
  have hdata : readPreface (fuel + 1) ⟨some (headOf p), none, false⟩ rest
      = .ok (⟨some (headOf p), none, false⟩, rest) := by
    rw [readPreface, hrest]
    simp [bind, Except.bind, hcheckData, flawed, pure, Except.pure]
  rw [readPreface, openChunk_chunk _ hlength]
  simp only [bind, Except.bind, hcheckHead, flawed, hother, if_false, List.drop_left,
    List.take_left, closeChunk_check, if_true, hadd, hdata]

/-! ## The data -/

theorem length_le_dataChunks (data : List UInt8) :
    data.length ≤ ((data.length - 1) / pieceLimit + 1) * pieceLimit := by
  have h := Nat.lt_div_mul_add (a := data.length - 1) (b := pieceLimit) (by decide)
  rw [Nat.succ_mul]
  omega

theorem lt_length_dataChunks (full : Nat) (data : List UInt8) :
    full < (dataChunks full data).length := by
  induction full generalizing data with
  | zero => simp [dataChunks, chunk, bytes32]
  | succ full ih =>
    have := ih (data.drop pieceLimit)
    simp only [dataChunks, chunk, bytes32, List.length_append, List.length_cons]
    omega

/-- The data begins with a chunk of the data. -/
theorem openChunk_dataChunks (full : Nat) (data rest : List UInt8) :
    ∃ length content, openChunk (dataChunks full data ++ rest) = .ok (length, .data, content) := by
  cases full with
  | zero => exact ⟨_, _, rfl⟩
  | succ full => exact ⟨_, _, rfl⟩

/-- A chunk of the data is read as one more piece. -/
theorem readPieces_chunk {content : List UInt8} (rest : List UInt8) (fuel : Nat)
    (h : content.length ≤ pieceLimit) :
    readPieces (fuel + 1) (chunk .data content ++ rest)
      = ⟨content :: (readPieces fuel rest).contents, (readPieces fuel rest).ending⟩ := by
  have hlength : content.length < UInt32.size := by
    simp only [pieceLimit, UInt32.size] at h ⊢
    omega
  rw [readPieces, openChunk_chunk rest hlength]
  simp only [ne_eq, not_true_eq_false, if_false, List.take_left, List.drop_left, closeChunk_check,
    if_true]

/-- The chunk after the data is not looked into. -/
theorem readPieces_last (fuel : Nat) : readPieces (fuel + 1) (chunk .last []) = ⟨[], .chunk⟩ := by
  have hopen : openChunk (chunk .last [] ++ [])
      = .ok (0, .last, [] ++ (bytes32 (checkOf .last []) ++ [])) := openChunk_chunk [] (by decide)
  rw [List.append_nil] at hopen
  rw [readPieces, hopen]
  rfl

/-- **Data that was cut into chunks is put together again**, and another chunk
comes after it. -/
theorem readPieces_dataChunks {full fuel : Nat} {data : List UInt8} (hfuel : full + 1 < fuel)
    (hlength : data.length ≤ (full + 1) * pieceLimit) :
    ∃ contents, readPieces fuel (dataChunks full data ++ chunk .last []) = ⟨contents, .chunk⟩ ∧
      contents.flatten = data := by
  obtain ⟨fuel, rfl⟩ : ∃ n, fuel = n + 2 := ⟨fuel - 2, by omega⟩
  induction full generalizing data fuel with
  | zero =>
    refine ⟨[data], ?_, by simp⟩
    rw [dataChunks, readPieces_chunk _ _ (by omega), readPieces_last]
  | succ full ih =>
    have htake : (data.take pieceLimit).length ≤ pieceLimit := List.length_take_le ..
    have hdrop : (data.drop pieceLimit).length ≤ (full + 1) * pieceLimit := by
      rw [List.length_drop]
      rw [Nat.succ_mul] at hlength
      omega
    obtain ⟨fuel, rfl⟩ : ∃ n, fuel = n + 1 := ⟨fuel - 1, by omega⟩
    obtain ⟨contents, hread, hflat⟩ := ih hdrop fuel (by omega)
    refine ⟨data.take pieceLimit :: contents, ?_, ?_⟩
    · rw [dataChunks, List.append_assoc, readPieces_chunk _ _ htake, hread]
    · rw [List.flatten_cons, hflat, List.take_append_drop]

/-! ## Rows -/

/-- A plain row is left as it is. -/
theorem unfilterRow_plain (step : Nat) (above row : Array UInt8) :
    unfilterRow 0 step above row = row := by
  have hplain (bytes : List UInt8) (out : Array UInt8) :
      bytes.foldl (fun out b => out.push (b + 0)) out = out ++ bytes := by
    induction bytes generalizing out with
    | nil => simp
    | cons b bytes ih =>
      rw [List.foldl_cons, ih]
      apply Array.toList_inj.mp
      simp
  have h := hplain row.toList #[]
  rw [Array.foldl_toList] at h
  simpa [unfilterRow] using h

/-- **Plain rows are the bytes they were cut from.** Those before the row
number `start` have been read, and are in `done`. -/
theorem unfilter_plainRows {stride rows start : Nat} {data before : List UInt8}
    {bytes : Array UInt8} (step : Nat) (above done : Array UInt8)
    (hbytes : bytes.toList = before ++ plainRows stride rows data) (hstart : before.length = start)
    (hdata : data.length = rows * stride) :
    unfilter stride step bytes rows start above done = .ok (some (done ++ data)) := by
  induction rows generalizing data before start above done with
  | zero =>
    have hnil : data = [] := List.length_eq_zero_iff.mp (by rw [hdata, Nat.zero_mul])
    subst hnil
    simp [unfilter]
  | succ rows ih =>
    have htake : (data.take stride).length = stride := by
      rw [List.length_take, hdata, Nat.succ_mul]
      omega
    have hdrop : (data.drop stride).length = rows * stride := by
      rw [List.length_drop, hdata, Nat.succ_mul]
      omega
    have hsize : ¬ bytes.size < start + 1 + stride := by
      rw [← Array.length_toList, hbytes, plainRows]
      simp only [List.length_append, List.length_cons, htake, hstart]
      omega
    have hfilter : bytes.getD start 0 = 0 := by
      rw [Array.getD_eq_getD_getElem?, ← Array.getElem?_toList, hbytes, plainRows, ← hstart]
      simp
    have hrow : bytes.extract (start + 1) (start + 1 + stride) = (data.take stride).toArray := by
      apply Array.toList_inj.mp
      rw [Array.toList_extract, hbytes, plainRows, ← hstart]
      simpa [List.extract_eq_take_drop] using List.take_left' htake
    have hnext : bytes.toList
        = (before ++ 0 :: data.take stride) ++ plainRows stride rows (data.drop stride) := by
      rw [hbytes, plainRows]
      simp
    have hafter : (before ++ 0 :: data.take stride).length = start + 1 + stride := by
      simp only [List.length_append, List.length_cons, htake, hstart]
      omega
    have hdone : done ++ (data.take stride).toArray ++ data.drop stride = done ++ data := by
      apply Array.toList_inj.mp
      simp
    rw [unfilter, if_neg hsize, hfilter, if_neg (by decide), unfilterRow_plain, hrow,
      ih _ _ hnext hafter hdrop, hdone]

/-! ## Pictures -/

/-- A picture with eight bits a sample and all its samples there. -/
structure Plain (p : Picture) (samples : Array UInt8) : Prop where
  data_eq : p.data = .bytes samples
  size_eq : samples.size = p.size.width * p.size.height * Picture.channels p.colored p.transparent

/-- The bytes of a row with eight bits a sample. -/
def rowBytes (p : Picture) : Nat := p.size.width * Picture.channels p.colored p.transparent

theorem stride_headOf (p : Picture) : (headOf p).stride .full = rowBytes p := by
  simp only [Head.stride, headOf, Pass.columns, Pass.full, samples_ofChannels, Depth.bits,
    Nat.sub_zero, Nat.add_sub_cancel, Nat.div_one, rowBytes]
  omega

theorem rows_full {s : Size} (hwidth : 0 < s.width) : Pass.full.rows s = s.height := by
  simp only [Pass.rows, Pass.columns, Pass.full, Nat.sub_zero, Nat.add_sub_cancel, Nat.div_one]
  rw [if_neg (by omega)]

theorem extent_headOf {p : Picture} {samples : Array UInt8} (hp : Plain p samples) :
    (headOf p).extent false = samples.size := by
  rw [hp.size_eq, ← samples_ofChannels]
  obtain ⟨size, colored, transparent, data⟩ := p
  cases colored <;> cases transparent <;> simp [Head.extent, headOf, ColorKind.ofChannels]

/-- **The rows of a picture are read from the chunks they were cut into.** -/
theorem readRows_plain {p : Picture} {samples : Array UInt8} {contents : List (List UInt8)}
    (hp : Plain p samples) (hwidth : 0 < p.size.width)
    (hcontents : contents.flatten
      = Deflate.encode (plainRows (rowBytes p) p.size.height samples.toList)) :
    readRows (headOf p) false ⟨contents, .chunk⟩ = .ok [(.full, samples)] := by
  have hinflate : inflatePieces contents
      = (⟨(plainRows (rowBytes p) p.size.height samples.toList).toArray, none⟩, none) := by
    rw [inflatePieces, hcontents, Deflate.inflate_encode]
  have hlength : samples.toList.length = p.size.height * rowBytes p := by
    rw [Array.length_toList, hp.size_eq, rowBytes, Nat.mul_left_comm, ← Nat.mul_assoc]
  have hrows : unfilter (rowBytes p) (headOf p).step
      (plainRows (rowBytes p) p.size.height samples.toList).toArray p.size.height 0 #[] #[]
        = .ok (some samples) := by
    rw [unfilter_plainRows _ _ _ (List.nil_append _).symm List.length_nil hlength]
    simp
  have hkind : (headOf p).kind ≠ .indexed := by
    obtain ⟨size, colored, transparent, data⟩ := p
    cases colored <;> cases transparent <;> simp [headOf, ColorKind.ofChannels]
  have hpasses : (headOf p).passes = [.full] := rfl
  have hheight : Pass.full.rows (headOf p).size = p.size.height := rows_full hwidth
  have hpass : unfilterPasses (headOf p)
      (plainRows (rowBytes p) p.size.height samples.toList).toArray 0 (headOf p).passes
        = .ok (some [(.full, samples)]) := by
    rw [hpasses]
    simp only [unfilterPasses, stride_headOf, hheight, hrows]
    rfl
  simp only [readRows, hinflate, hkind, hpass]
  rfl

theorem pictureOf_plain {p : Picture} {samples : Array UInt8} (hp : Plain p samples) :
    pictureOf (headOf p) [] [(.full, samples)] = p := by
  obtain ⟨size, colored, transparent, data⟩ := p
  obtain rfl : data = .bytes samples := hp.data_eq
  cases colored <;> cases transparent <;> rfl

/-- Bytes that begin with the signature of a PNG are looked at further. -/
theorem checkSignature_append (rest : List UInt8) :
    checkSignature (Format.pngSignature ++ rest) = .ok () := by
  simp [checkSignature, Format.pngSignature]
  rfl

/-- **What follows the head decides the picture**, unless its samples take up
too much: then the rest is not looked at. -/
theorem decode_headed {p : Picture} {samples : Array UInt8} {rest content : List UInt8}
    {contents : List (List UInt8)} {length : Nat} (hp : Plain p samples)
    (hsize : p.size.Storable)
    (hopen : openChunk rest = .ok (length, .data, content))
    (hpieces : readPieces rest.length rest = ⟨contents, .chunk⟩)
    (hrows : readRows (headOf p) false ⟨contents, .chunk⟩ = .ok [(.full, samples)]) :
    decode (Format.pngSignature ++ (chunk .head (headContent p 8) ++ rest))
      = if Picture.sizeLimit < samples.size then .error .tooMuch else .ok p := by
  have hextent := extent_headOf hp
  have hpreface := readPreface_encode ((headContent p 8).length + 18 + rest.length) hsize hopen
  have hfuel : (Format.pngSignature ++ (chunk .head (headContent p 8) ++ rest)).length
      = (headContent p 8).length + 18 + rest.length + 2 := by
    simp only [Format.pngSignature, chunk, bytes32, ChunkName.bytes, List.length_append,
      List.length_cons, List.length_nil]
    omega
  have hdrop : (Format.pngSignature ++ (chunk .head (headContent p 8) ++ rest)).drop 8
      = chunk .head (headContent p 8) ++ rest := rfl
  simp only [decode, checkSignature_append, hfuel, hdrop, hpreface, bind, Except.bind,
    Bool.false_and, hextent, hpieces, Option.isSome_none, hrows, Option.getD_none,
    pictureOf_plain hp]
  split <;> rfl

/-- **A written picture is read back**, or refused for its extent. -/
theorem decode_encode {p : Picture} {samples : Array UInt8} (hp : Plain p samples)
    (hsize : p.size.Storable) :
    ∃ rest, encode p = .ok (Format.pngSignature ++ rest) ∧
      decode (Format.pngSignature ++ rest)
        = if Picture.sizeLimit < samples.size then .error .tooMuch else .ok p := by
  have hpixels := hsize.nonempty.has_sides
  obtain ⟨data, hdata⟩ : ∃ data,
      data = Deflate.encode (plainRows (rowBytes p) p.size.height samples.toList) := ⟨_, rfl⟩
  obtain ⟨full, hfull⟩ : ∃ full, full = (data.length - 1) / pieceLimit := ⟨_, rfl⟩
  have hencode : encode p = .ok (Format.pngSignature
      ++ (chunk .head (headContent p 8) ++ (dataChunks full data ++ chunk .last []))) := by
    simp only [encode, hp.data_eq, sampleBytes?, hpixels, hfull, hdata, rowBytes]
    simp
  have hlength : data.length ≤ (full + 1) * pieceLimit := by
    rw [hfull]
    exact length_le_dataChunks data
  have hfuel : full + 1 < (dataChunks full data ++ chunk .last []).length := by
    have hchunks := lt_length_dataChunks full data
    have hlast : 0 < (chunk .last []).length := by simp [chunk, bytes32]
    rw [List.length_append]
    omega
  obtain ⟨contents, hpieces, hcontents⟩ := readPieces_dataChunks hfuel hlength
  obtain ⟨length, content, hopen⟩ := openChunk_dataChunks full data (chunk .last [])
  have hrows := readRows_plain hp hsize.nonempty.1 (hcontents.trans hdata)
  exact ⟨_, hencode, decode_headed hp hsize hopen hpieces hrows⟩

end Png

end Montage
