import Montage.Canvas.Reposition
/-!
# Cutouts — an object over a plain background

A cutout lays a photo over a background with its mask for opacity. A
reflection is an inverted copy of the object below it that fades into the
background. It starts some rows below the object's lowest row and reaches
down to the edge of the canvas.
-/

namespace Montage

/-- Each pixel of a photo over a plain background, with the mask for its
opacity. -/
def composite (photo : Photo) (mask : Mask) (background : Rgb) : Photo :=
  photo.mapPixels fun x y c => Rgb.mixed (mask.getD x y 0) c background

/-- The photo over a plain background, with the mask for its opacity. -/
def cutout (photo : Photo) (mask : Mask) (background : Rgb) : Except Fault Photo := do
  requireSameSize photo mask
  return composite photo mask background

/-! ## Reflections -/

/-- The distance from the lowest row of an object to its reflection. -/
def reflectionGap : Nat := 10

/-- The row in which a reflection starts. The sum is kept in thirty-two bits, so
the reflection starts above the object where it does not fit. -/
def reflectionTop (b : Bounds) : Nat := (b.ymax + reflectionGap) % UInt32.size

/-- The least mask value that is reflected. -/
def reflectedValue : UInt8 := 128

/-- The weight of the background in row `row` of a reflection `rows` high. It
runs from what the opacity, in percent, leaves to it up to all of it. -/
def fade [Scalar α] (row rows : Nat) (opacity : α) : UInt8 :=
  let full : α := Scalar.ofNat 255
  let percent : α := Scalar.ofNat 100
  let top := Scalar.floor (full * (percent - opacity) / percent)
  if rows ≤ 1 then 255
  else
    let t := Scalar.ofNat row / Scalar.ofNat (rows - 1)
    UInt8.ofNat (min 255 (Scalar.truncate (top + (full - top) * t)).toNat)

/-- What a reflection shows at a pixel: the row of the object that is
reflected there and the row of the reflection. The object's last column is
left out. -/
def reflectedRow? (b : Bounds) (height x y : Nat) : Option (Nat × Nat) :=
  let k := y - reflectionTop b
  if reflectionTop b ≤ y && y < height && k ≤ b.ymax && b.xmin ≤ x && x < b.xmax then some (b.ymax - k, k)
  else none

/-- A cutout with the reflection of an object painted over it. -/
def paintReflection [Scalar α] (cutout : Photo) (mask : Mask) (b : Bounds) (background : Rgb)
    (opacity : α) : Photo :=
  cutout.mapPixels fun x y c =>
    match reflectedRow? b cutout.height x y with
    | none => c
    | some (row, k) =>
      if mask.getD x row 0 < reflectedValue then c
      else
        let weight := fade k (cutout.height - reflectionTop b) opacity
        Rgb.mixed weight background (cutout.getD x row default)

/-- **A cutout with a reflection below its object.** An opacity of zero leaves
the cutout as it is. -/
def addReflection (cutout : Photo) (mask : Mask) (background : Rgb) (opacity : Float) :
    Except Fault Photo := do
  requireSameSize cutout mask
  if !isPercentage opacity then throw (.invalidSetting (.opacity opacity))
  if opacity == 0.0 then return cutout
  return paintReflection cutout mask (← mask.bounds) background opacity

namespace Cut

/-- The object over a plain background. -/
def cutout (c : Cut) (background : Rgb) : Except Fault Photo :=
  Montage.cutout c.photo c.mask background

/-- The object over a plain background with its reflection. -/
def cutoutWithReflection (c : Cut) (background : Rgb) (opacity : Float) : Except Fault Photo := do
  addReflection (← c.cutout background) c.mask background opacity

end Cut

/-! ## What cutting out comes to

Painting a reflection keeps the extent of a cutout, as laying the photo over a
background does. The extents are all that a cutout looks at; a reflection
looks at the opacity next, and at the bounds of the mask only where the
opacity is not zero. -/

@[simp] theorem size_composite (photo : Photo) (mask : Mask) (background : Rgb) :
    (composite photo mask background).size = photo.size := rfl

@[simp] theorem size_paintReflection [Scalar α] (cutout : Photo) (mask : Mask) (b : Bounds)
    (background : Rgb) (opacity : α) :
    (paintReflection cutout mask b background opacity).size = cutout.size := rfl

theorem cutout_of_size_eq {photo : Photo} {mask : Mask} (h : photo.size = mask.size)
    (background : Rgb) : cutout photo mask background = .ok (composite photo mask background) := by
  rw [cutout, requireSameSize_of_eq h]
  rfl

/-- **The equation of a reflection**, for a cutout and a mask in step. -/
theorem addReflection_of_size_eq {cutout : Photo} {mask : Mask} (h : cutout.size = mask.size)
    (background : Rgb) (opacity : Float) :
    addReflection cutout mask background opacity =
      if isPercentage opacity then
        if opacity == 0.0 then .ok cutout
        else
          match mask.bounds? with
          | some b => .ok (paintReflection cutout mask b background opacity)
          | none => .error .emptyMask
      else .error (.invalidSetting (.opacity opacity)) := by
  rw [addReflection, requireSameSize_of_eq h]
  by_cases hp : isPercentage opacity
  · by_cases hz : opacity == 0.0
    · simp only [hp, hz]
      rfl
    · simp only [hp, hz]
      unfold Raster.bounds
      cases mask.bounds? <;> rfl
  · simp only [hp]
    rfl

theorem Cut.InStep.size_composite {c : Cut} (h : c.InStep) (background : Rgb) :
    (composite c.photo c.mask background).size = c.mask.size := h

/-- A cut that is in step has a reflected cutout whenever its composite has a
reflection, and it is that. -/
theorem Cut.cutoutWithReflection_of_inStep {c : Cut} (h : c.InStep) (background : Rgb)
    (opacity : Float) :
    c.cutoutWithReflection background opacity =
      addReflection (composite c.photo c.mask background) c.mask background opacity := by
  rw [cutoutWithReflection, cutout, cutout_of_size_eq h]
  rfl

end Montage
