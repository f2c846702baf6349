import Montage.Color
import Montage.Fault
/-!
# Bounds of a mask

The bounds of a mask are the least rectangle of pixels that holds all pixels
that are set. A mask without set pixels has none.
-/

namespace Montage

/-- A rectangle of pixels, by its first and last column and its first and
last row. -/
structure Bounds where
  xmin : Nat
  xmax : Nat
  ymin : Nat
  ymax : Nat
deriving DecidableEq

namespace Bounds

/-- The distance from the first to the last column, zero for one column. -/
def width (b : Bounds) : Nat := b.xmax - b.xmin

/-- The distance from the first to the last row, zero for one row. -/
def height (b : Bounds) : Nat := b.ymax - b.ymin

/-- The pixel in the middle, or the one left or above of the middle. The sums
are kept in thirty-two bits, so it lies elsewhere where they do not fit. -/
def center (b : Bounds) : Nat × Nat :=
  ((b.xmax + b.xmin) % UInt32.size / 2, (b.ymax + b.ymin) % UInt32.size / 2)

/-- The rectangle of a single pixel. -/
def around (p : Nat × Nat) : Bounds := ⟨p.1, p.1, p.2, p.2⟩

/-- The least rectangle that holds another one and a pixel. -/
def extend (b : Bounds) (p : Nat × Nat) : Bounds :=
  ⟨min b.xmin p.1, max b.xmax p.1, min b.ymin p.2, max b.ymax p.2⟩

end Bounds

namespace Raster

/-- The pixels where a mask is set, row by row. -/
def setPixels (m : Mask) : List (Nat × Nat) :=
  (List.range (m.width * m.height)).filterMap fun i =>
    if m.getD (i % m.width) (i / m.width) 0 = 0 then none else some (i % m.width, i / m.width)

/-- The bounds of a mask, if any pixel is set. -/
def bounds? (m : Mask) : Option Bounds :=
  match m.setPixels with
  | [] => none
  | p :: rest => some (rest.foldl Bounds.extend (Bounds.around p))

/-- The bounds of a mask. -/
def bounds (m : Mask) : Except Fault Bounds :=
  match m.bounds? with
  | some b => .ok b
  | none => .error .emptyMask

end Raster

end Montage
