import Montage.Color
/-!
# Resampling — photos in another size

A resized photo has at each pixel a weighted mean of the samples around the
corresponding place before. The weights fall off linearly with the
distance and reach zero at one pixel of the larger of the two grids. Columns
are taken together first, then rows, in single precision; only the end is
rounded.
-/

namespace Montage

/-- The weights of neighbouring samples, from the index `first` on. -/
structure Kernel where
  first : Nat
  weights : List Float32

namespace Kernel

/-- The weight at a distance, counted in pixels of the larger grid. -/
def triangle (d : Float32) : Float32 := if d.abs < 1.0 then 1.0 - d.abs else 0.0

/-- A whole number kept within `[low, high]`. -/
def clampInt (low high n : Int) : Int := if n < low then low else if high < n then high else n

/-- The weights that make sample `target` of `new` from `old` samples. -/
def between (old new target : Nat) : Kernel :=
  let ratio := Float32.ofNat old / Float32.ofNat new
  let reach := if ratio < 1.0 then 1.0 else ratio
  let center := (Float32.ofNat target + 0.5) * ratio
  let left := clampInt 0 (old - 1) (center - reach).floor.toInt64.toInt
  let right := clampInt (left + 1) old (center + reach).ceil.toInt64.toInt
  let center := center - 0.5
  let first := left.toNat
  let weights := (List.range (right - left).toNat).map fun i =>
    triangle ((Float32.ofNat (first + i) - center) / reach)
  let sum := weights.foldl (· + ·) 0.0
  ⟨first, weights.map (· / sum)⟩

/-- The weighted sum of samples, added up to `total` in their order. -/
@[specialize] def sumFrom (sample : Nat → Float32) (i : Nat) (total : Float32) :
    List Float32 → Float32
  | [] => total
  | w :: rest => sumFrom sample (i + 1) (total + sample i * w) rest

/-- The weighted sum of samples. -/
@[inline] def sum (k : Kernel) (sample : Nat → Float32) : Float32 :=
  sumFrom sample k.first 0.0 k.weights

end Kernel

/-- The value of a channel nearest to a number, a half away from zero. -/
def nearestChannel (x : Float32) : UInt8 :=
  (if x < 0.0 then 0.0 else if 255.0 < x then 255.0 else x : Float32).round.toUInt8

/-- A photo or a mask together with the weights to resize it by. -/
structure Resampling (α : Type) where
  source : Raster α
  size : Size
  columns : Array Kernel
  rows : Array Kernel

namespace Resampling

variable {α : Type}

/-- The weights that resize a raster to the given extent. -/
def ofRaster (r : Raster α) (s : Size) : Resampling α where
  source := r
  size := s
  columns := (Array.range s.width).map (Kernel.between r.width s.width)
  rows := (Array.range s.height).map (Kernel.between r.height s.height)

/-- The sample of the resized raster at a pixel. A raster that keeps its size
keeps its samples. -/
@[specialize] def sample [Channels α] (r : Resampling α) (x y : Nat) : α :=
  if r.size = r.source.size then r.source.getD x y default
  else
    let column := r.columns.getD x ⟨0, []⟩
    let row := r.rows.getD y ⟨0, []⟩
    Channels.gather fun channel =>
      nearestChannel (column.sum fun i => row.sum fun j =>
        (channel (r.source.getD i j default)).toFloat32)

end Resampling

/-- A raster resized to the given extent. -/
def Raster.resized [Channels α] (r : Raster α) (s : Size) : Raster α :=
  Raster.ofFn s.width s.height (Resampling.ofRaster r s).sample

end Montage
