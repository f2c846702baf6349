import Montage.Codec.Picture
import Montage.Codec.Png.Head
/-!
# The rows of a PNG

Each row comes after a byte that tells how it is filtered: as differences to a
prediction from the bytes before it and the row above. `unfilterPasses` undoes
the filters of all rows, and `samples` finds the samples in them.
-/

namespace Montage

namespace Png

/-! ## Filters -/

/-- The prediction of a byte from the ones to the left, above, and above on
the left: the nearest of the three to their linear combination. -/
def paeth (left above corner : UInt8) : UInt8 :=
  let p : Int := left.toNat + above.toNat - corner.toNat
  let da := (p - left.toNat).natAbs
  let db := (p - above.toNat).natAbs
  let dc := (p - corner.toNat).natAbs
  if da ≤ db && da ≤ dc then left else if db ≤ dc then above else corner

/-- Undoes the filter of a row. `step` bytes make a pixel, and `above` is the
row before. -/
def unfilterRow (filter : UInt8) (step : Nat) (above row : Array UInt8) : Array UInt8 :=
  row.foldl (fun out b =>
    let i := out.size
    let left := if i < step then 0 else out.getD (i - step) 0
    let up := above.getD i 0
    let corner := if i < step then 0 else above.getD (i - step) 0
    out.push (b +
      if filter = 1 then left
      else if filter = 2 then up
      else if filter = 3 then UInt8.ofNat ((left.toNat + up.toNat) / 2)
      else if filter = 4 then paeth left up corner
      else 0)) #[]

/-- The last filter that is known. -/
def lastFilter : UInt8 := 4

/-- Undoes the filters of `rows` rows of `stride` bytes, from the byte number
`start` on. `done` holds the bytes of the rows before. The answer is none if
there are too few bytes. -/
def unfilter (stride step : Nat) (bytes : Array UInt8) :
    (rows start : Nat) → (above done : Array UInt8) → Except PngFlaw (Option (Array UInt8))
  | 0, _, _, done => .ok (some done)
  | rows + 1, start, above, done =>
    if bytes.size < start + 1 + stride then .ok none
    else if lastFilter < bytes.getD start 0 then .error (.rowFilter (bytes.getD start 0))
    else
      let row := unfilterRow (bytes.getD start 0) step above
        (bytes.extract (start + 1) (start + 1 + stride))
      unfilter stride step bytes rows (start + 1 + stride) row (done ++ row)

/-- A pass and the bytes of its rows. -/
abbrev PassRows := Pass × Array UInt8

/-- Undoes the filters of the rows of passes, from the byte number `start`
on. -/
def unfilterPasses (h : Head) (bytes : Array UInt8) :
    (start : Nat) → List Pass → Except PngFlaw (Option (List PassRows))
  | _, [] => .ok (some [])
  | start, p :: ps => do
    let stride := h.stride p
    let some plain ← unfilter stride h.step bytes (p.rows h.size) start #[] #[] | return none
    let some others ← unfilterPasses h bytes (start + p.rows h.size * (1 + stride)) ps
      | return none
    return some ((p, plain) :: others)

/-- Undoes the filter of the first row only. The answer is none if it is not
there. -/
def unfilterFirst (h : Head) (bytes : Array UInt8) : Except PngFlaw (Option (Array UInt8)) :=
  unfilter (h.stride (h.passes.headD .full)) h.step bytes 1 0 #[] #[]

/-! ## Samples -/

/-- Sample number `i` of a row that begins at byte number `start`. -/
def sampleOf (depth : Depth) (bytes : Array UInt8) (start i : Nat) : Nat :=
  match depth with
  | .eight => (bytes.getD (start + i) 0).toNat
  | .sixteen =>
    (bytes.getD (start + 2 * i) 0).toNat * 256 + (bytes.getD (start + 2 * i + 1) 0).toNat
  | .one | .two | .four =>
    -- a byte holds several samples, the first one in its highest bits
    let n := depth.bits
    (bytes.getD (start + i * n / 8) 0).toNat >>> (8 - n - i * n % 8) % 1 <<< n

/-- Sample number `k` of the pixel `(x, y)`. -/
def sampleAt (h : Head) (rows : List PassRows) (x y k : Nat) : Nat :=
  match rows.find? fun (p, _) => p.covers x y with
  | none => 0
  | some (p, bytes) =>
    sampleOf h.depth bytes ((y - p.top) / p.down * h.stride p)
      ((x - p.left) / p.across * h.kind.samples + k)

/-- The samples of a picture with `count` of them a pixel, in reading order.
`f x y k` is sample number `k` of a pixel. -/
def gather (s : Size) (count : Nat) (f : Nat → Nat → Nat → α) : Array α :=
  Array.ofFn fun i : Fin (s.width * s.height * count) =>
    f (i / count % s.width) (i / count / s.width) (i % count)

/-- A channel of a colour of a palette. Colours that are not there are
black. -/
def paletteByte (palette : Array UInt8) (place channel : Nat) : UInt8 :=
  if place < palette.size / 3 then palette.getD (place * 3 + channel) 0 else 0

/-- A sample of few bits brought to a byte, so that the greatest becomes
255. -/
def spreadByte (depth : Depth) (n : Nat) : UInt8 := UInt8.ofNat (n * (255 / (1 <<< depth.bits - 1)))

/-- The samples that rows hold. Rows of a single pass with a byte a sample are
the samples themselves. -/
def samples (h : Head) (palette : Array UInt8) (rows : List PassRows) : SampleData :=
  match h.kind, h.depth, rows with
  | .indexed, _, _ =>
    .bytes (gather h.size 3 fun x y k => paletteByte palette (sampleAt h rows x y 0) k)
  | _, .sixteen, _ =>
    .words (gather h.size h.kind.samples fun x y k => UInt16.ofNat (sampleAt h rows x y k))
  | _, .eight, [(_, plain)] => .bytes plain
  | _, .eight, _ =>
    .bytes (gather h.size h.kind.samples fun x y k => UInt8.ofNat (sampleAt h rows x y k))
  | _, _, _ =>
    .bytes (gather h.size h.kind.samples fun x y k => spreadByte h.depth (sampleAt h rows x y k))

end Png

end Montage
