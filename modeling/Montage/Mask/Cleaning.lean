import Montage.Color
import Montage.Scalar
/-!
# Cleaning a mask

A mask from a segmentation has faint noise and hard edges. `threshold` drops
the noise, `smooth` softens the edges, and `binarized` keeps only whether a
pixel is set. Smoothing looks past the border of a mask as if the mask were
reflected there, `reflected` being the index that shows.
-/

namespace Montage

/-- The least mask value that a threshold keeps. -/
@[specialize] def cutoff [Scalar α] (threshold : α) : Nat :=
  (Scalar.truncate (Scalar.ofNat 255 * threshold)).toNat

/-- The index in `[0, n)` that shows at `i` when the range is continued by
reflection at its first and last index. -/
def reflected (i : Int) (n : Nat) : Nat :=
  if n ≤ 1 then 0
  else
    let period : Int := 2 * (n - 1)
    let m := i % period
    (if m < n then m else period - m).toNat

namespace Raster

/-- The mask with values below the threshold dropped. -/
@[specialize] def threshold [Scalar α] (t : α) (m : Mask) : Mask :=
  let least := cutoff t
  m.map fun v => if v.toNat < least then 0 else v

/-- The offsets of a window five pixels wide. -/
def window : List Int := [-2, -1, 0, 1, 2]

/-- The sum of a mask over the five by five window around a pixel, reflected
at the border. -/
def windowSum (m : Mask) (x y : Nat) : Nat :=
  let sum := fun ns : List Nat => ns.foldr (· + ·) 0
  sum (window.map fun dy =>
    let row := reflected (y + dy) m.height
    sum (window.map fun dx => (m.getD (reflected (x + dx) m.width) row 0).toNat))

/-- The mask with softened edges: a tenth of the sum over the window around
each pixel, rounded to the nearest value, a half up, and at most 255. -/
def smooth (m : Mask) : Mask :=
  ofFn m.width m.height fun x y => UInt8.ofNat (min 255 ((m.windowSum x y + 5) / 10))

/-- The mask with all set pixels at 255. -/
def binarized (m : Mask) : Mask := m.map fun v => if v = 0 then 0 else 255

/-- The photo with the bits of the mask kept in each channel: unchanged where
the mask is 255, black where it is zero. -/
def masked (photo : Photo) (m : Mask) : Photo :=
  photo.mapPixels fun x y c =>
    let v := m.getD x y 0
    c.mapChannels (· &&& v)

end Raster

end Montage
