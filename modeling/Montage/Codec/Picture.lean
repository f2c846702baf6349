import Montage.Codec.Flaw
import Montage.Color
/-!
# Pictures — samples of any kind

Files hold pictures in colour or in gray, with or without transparency, in
eight or sixteen bits or as fractions. `Picture.toPhoto` brings all of them to
colours of eight bits a channel: gray goes to all three channels, and
transparency is dropped. A mask is the first channel of that.
-/

namespace Montage

/-- The samples of a picture, channel by channel and pixel by pixel. -/
inductive SampleData where
  | bytes (values : Array UInt8)
  | words (values : Array UInt16)
  | fractions (values : Array Float32)

/-- A picture as a file holds it. -/
structure Picture where
  size : Size
  /-- Three channels for the colour rather than one for gray. -/
  colored : Bool
  /-- One more channel for transparency. -/
  transparent : Bool
  data : SampleData

namespace Picture

/-- The channels of a pixel that carry colour. -/
def colorChannels (colored : Bool) : Nat := if colored then 3 else 1

/-- All channels of a pixel. -/
def channels (colored transparent : Bool) : Nat :=
  colorChannels colored + if transparent then 1 else 0

/-- Sixteen bits brought to eight, to the nearest value. -/
def byteOfWord (w : UInt16) : UInt8 := UInt8.ofNat ((w.toNat + 128) / 257)

/-- A fraction brought to eight bits, to the nearest value and a half away
from zero. What is no number counts as one. -/
def byteOfFraction (x : Float32) : UInt8 :=
  let x : Float32 := if x < 1.0 then (if 0.0 < x then x else 0.0) else 1.0
  (x * 255.0).round.toUInt8

/-- A sample in eight bits, zero where there is none. -/
def sampleByte (p : Picture) (i : Nat) : UInt8 :=
  match p.data with
  | .bytes v => v.getD i 0
  | .words v => byteOfWord (v.getD i 0)
  | .fractions v => byteOfFraction (v.getD i 0.0)

/-- The form of the samples. -/
def form (p : Picture) : SampleForm :=
  match p.data with
  | .bytes _ => .byte
  | .words _ => .word
  | .fractions _ => .fraction

/-- What the pixels are made of. -/
def kind (p : Picture) : PixelKind := .channels p.colored p.transparent p.form

/-- The most bytes of samples that a picture may have to be read. -/
def sizeLimit : Nat := 536870912

/-- A picture as a photo. -/
def toPhoto (p : Picture) : Photo :=
  let n := channels p.colored p.transparent
  Raster.ofFn p.size.width p.size.height fun x y =>
    let first := (y * p.size.width + x) * n
    if p.colored then ⟨p.sampleByte first, p.sampleByte (first + 1), p.sampleByte (first + 2)⟩
    else
      let v := p.sampleByte first
      ⟨v, v, v⟩

/-- The channels of a colour with red first. -/
def redFirst (c : Rgb) : List UInt8 := [c.red, c.green, c.blue]

/-- The channels of a colour with blue first. -/
def blueFirst (c : Rgb) : List UInt8 := [c.blue, c.green, c.red]

/-- The colours of the pixels as bytes, or their gray. -/
def pixelBytes (order : Rgb → List UInt8) (p : Picture) : List UInt8 :=
  let pixels := p.toPhoto.samples.toList
  if p.colored then pixels.flatMap order else pixels.map Rgb.red

/-- A picture as a mask: its first channel. -/
def toMask (p : Picture) : Mask := p.toPhoto.map Rgb.red

/-- A photo as a picture. -/
def ofPhoto (photo : Photo) : Picture where
  size := photo.size
  colored := true
  transparent := false
  data := .bytes (photo.samples.flatMap fun c => #[c.red, c.green, c.blue])

/-- A mask as a picture. -/
def ofMask (mask : Mask) : Picture where
  size := mask.size
  colored := false
  transparent := false
  data := .bytes mask.samples

end Picture

end Montage
