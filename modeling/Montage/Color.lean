import Montage.Raster
/-!
# Colours, photos and masks

A colour has three channels of eight bits. `Rgb.mixed` blends two colours
under an eight-bit weight, rounding each channel to the nearest value. A
photo is a raster of colours, and a mask a raster of weights: an object is
where its mask is not zero.
-/

namespace Montage

/-- A colour by its red, green and blue channel. -/
structure Rgb where
  red : UInt8
  green : UInt8
  blue : UInt8
deriving DecidableEq, Inhabited

namespace Rgb

def black : Rgb := ⟨0, 0, 0⟩

def white : Rgb := ⟨255, 255, 255⟩

/-- A colour made from one channel at a time. -/
@[inline] def mapChannels (f : UInt8 → UInt8) (c : Rgb) : Rgb := ⟨f c.red, f c.green, f c.blue⟩

/-- A colour made from two, channel by channel. -/
@[inline] def zipChannels (f : UInt8 → UInt8 → UInt8) (c d : Rgb) : Rgb :=
  ⟨f c.red d.red, f c.green d.green, f c.blue d.blue⟩

end Rgb

/-- The value nearest to the mean of `upper` and `lower` in which `upper` has
weight `weight` out of 255. The sum is divided by an odd number, so there is
always a nearest value, and 127 rounds to it. -/
@[inline] def mixChannel (weight upper lower : UInt8) : UInt8 :=
  UInt8.ofNat ((upper.toNat * weight.toNat + lower.toNat * (255 - weight.toNat) + 127) / 255)

/-- The colour `upper` laid over `lower` with the given opacity. -/
@[inline] def Rgb.mixed (weight : UInt8) (upper lower : Rgb) : Rgb :=
  Rgb.zipChannels (mixChannel weight) upper lower

/-- Samples that are made of eight-bit channels. -/
class Channels (α : Type) extends Inhabited α where
  /-- The sample whose every channel is what `f` makes of that channel. -/
  gather : (f : (α → UInt8) → UInt8) → α

instance : Channels UInt8 where
  gather f := f id

instance : Channels Rgb where
  gather f := ⟨f Rgb.red, f Rgb.green, f Rgb.blue⟩

/-- A raster of colours. -/
abbrev Photo := Raster Rgb

/-- A raster of weights, zero where there is no object. -/
abbrev Mask := Raster UInt8

end Montage
