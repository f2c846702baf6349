import Montage.Codec.Png.Flaw
import Montage.Raster
/-!
# The head of a PNG — what its rows are like

The head chunk gives the size of the picture and the kind and depth of its
samples. An interlaced picture comes in passes, each of which has the pixels
on a grid of its own; the rows of a pass are as long as they need to be.
-/

namespace Montage

namespace Png

/-- What the head chunk says of a picture. -/
structure Head where
  size : Size
  kind : ColorKind
  depth : Depth
  interlaced : Bool

/-- The code of an interlace method: all rows at once, or seven passes. -/
def interlaced? (b : UInt8) : Option Bool := [((0 : UInt8), false), (1, true)].lookup b

/-- Reads the content of a head chunk. What it holds after the thirteen bytes of
a head is ignored. -/
def readHead (content : List UInt8) : Except PngFlaw Head :=
  match content.drop 8 with
  | depth :: kind :: compression :: filtering :: interlacing :: _ => do
    let size : Size := ⟨numberOfBytes (content.take 4), numberOfBytes ((content.drop 4).take 4)⟩
    if size.width = 0 || size.height = 0 then throw .noPixels
    let some d := Depth.ofByte? depth | throw (.depth depth)
    let some k := ColorKind.ofByte? kind | throw (.colorKind kind)
    if !d.serves k then throw (.combination k d)
    if compression ≠ 0 then throw (.compression compression)
    if filtering ≠ 0 then throw (.filtering filtering)
    let some i := interlaced? interlacing | throw (.interlacing interlacing)
    return ⟨size, k, d, i⟩
  | _ => .error (.shortChunk .head)

/-! ## Passes -/

/-- The pixels of a pass: every `across`-th column from `left` on, in every
`down`-th row from `top` on. -/
structure Pass where
  left : Nat
  top : Nat
  across : Nat
  down : Nat

namespace Pass

/-- The only pass of a picture that is not interlaced. -/
def full : Pass := ⟨0, 0, 1, 1⟩

/-- The passes of an interlaced picture. Together they have each pixel once. -/
def interlaced : List Pass :=
  [⟨0, 0, 8, 8⟩, ⟨4, 0, 8, 8⟩, ⟨0, 4, 4, 8⟩, ⟨2, 0, 4, 4⟩, ⟨0, 2, 2, 4⟩, ⟨1, 0, 2, 2⟩, ⟨0, 1, 1, 2⟩]

/-- The columns of a pass. -/
def columns (p : Pass) (s : Size) : Nat := (s.width - p.left + p.across - 1) / p.across

/-- The rows of a pass. A pass without columns has none. -/
def rows (p : Pass) (s : Size) : Nat :=
  if p.columns s = 0 then 0 else (s.height - p.top + p.down - 1) / p.down

/-- Whether a pass has a pixel. -/
def covers (p : Pass) (x y : Nat) : Bool :=
  p.left ≤ x && (x - p.left) % p.across == 0 && p.top ≤ y && (y - p.top) % p.down == 0

end Pass

namespace Head

/-- The passes in which the rows of a picture come. -/
def passes (h : Head) : List Pass := if h.interlaced then Pass.interlaced else [.full]

/-- The bytes of a row of a pass. -/
def stride (h : Head) (p : Pass) : Nat :=
  (p.columns h.size * h.kind.samples * h.depth.bits + 7) / 8

/-- The bytes of a pixel, at least one. -/
def step (h : Head) : Nat := max 1 (h.kind.samples * h.depth.bits / 8)

/-- The bytes that the samples take up once they are read. A place in a
palette becomes a colour, and `transparent` tells whether each pixel gets a
sample more. -/
def extent (h : Head) (transparent : Bool) : Nat :=
  let samples := (if h.kind = .indexed then 3 else h.kind.samples) + if transparent then 1 else 0
  h.size.width * h.size.height * samples * if h.depth = .sixteen then 2 else 1

end Head

end Png

end Montage
