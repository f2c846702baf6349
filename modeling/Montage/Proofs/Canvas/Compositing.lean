import Montage.Canvas.Cutout
import Montage.Proofs.Color
import Montage.Proofs.Face.Mask
import Montage.Proofs.Mask.Symmetry
/-!
# Compositing — a photo over a background

A cutout shows at each pixel the photo's colour mixed with the background under
the mask's weight (`get?_composite`), so what `Montage.Proofs.Color` says of one
channel holds of every channel of it. A mask that is greater everywhere moves each
channel on from the background to the photo (`inOrder_composite`). Where a mask
has no weights but none and the full one nothing is mixed, and cutting out once
more changes nothing (`composite_composite`).

`cutout_law` collects this.
-/

namespace Montage

variable {photo : Photo} {mask mask' : Mask} {background c d d' : Rgb} {a : UInt8} {x y : ℕ}

/-- **A pixel of a cutout** is the photo's colour over the background. -/
theorem get?_composite (hc : photo.get? x y = some c) (ha : mask.get? x y = some a)
    (background : Rgb) :
    (composite photo mask background).get? x y = some (Rgb.mixed a c background) := by
  rw [composite, Raster.get?_mapPixels, hc, Raster.getD_eq, ha]
  rfl

/-- Photos and masks of one extent have a colour and a weight at the same pixels. -/
theorem exists_weight (hsize : photo.size = mask.size) (hc : photo.get? x y = some c) :
    ∃ a, mask.get? x y = some a := by
  have hsome := Raster.isSome_get?_congr hsize x y
  rw [hc] at hsome
  exact Option.isSome_iff_exists.mp hsome.symm

/-- **A greater mask moves a cutout on** from the background to the photo. -/
theorem inOrder_composite (hsize : photo.size = mask.size) (hsize' : photo.size = mask'.size)
    (hbelow : mask.Below mask') (hc : photo.get? x y = some c)
    (hd : (composite photo mask background).get? x y = some d)
    (hd' : (composite photo mask' background).get? x y = some d')
    {channel : Rgb → UInt8} (hchannel : channel ∈ Rgb.channels) :
    InOrder (channel background) (channel d) (channel d') (channel c) := by
  obtain ⟨a, ha⟩ := exists_weight hsize hc
  obtain ⟨a', ha'⟩ := exists_weight hsize' hc
  rw [get?_composite hc ha] at hd
  rw [get?_composite hc ha'] at hd'
  cases hd
  cases hd'
  exact Rgb.inOrder_mixed hchannel (hbelow x y a a' ha ha') c background

/-- **Without weights in between, cutting out again changes nothing.** -/
theorem composite_composite (hsize : photo.size = mask.size) (hmask : mask.TwoValued)
    (background : Rgb) :
    composite (composite photo mask background) mask background =
      composite photo mask background := by
  refine Raster.ext_get? rfl fun x y => ?_
  cases hc : photo.get? x y with
  | none => simp only [composite, Raster.get?_mapPixels, hc, Option.map_none]
  | some c =>
    obtain ⟨a, ha⟩ := exists_weight hsize hc
    rw [get?_composite (get?_composite hc ha background) ha, get?_composite hc ha]
    rcases hmask x y a ha with rfl | rfl
    · rw [Rgb.mixed_zero, Rgb.mixed_zero]
    · rw [Rgb.mixed_full, Rgb.mixed_full]

/-- **What a cutout is.** It fails exactly on a photo and a mask of different
extents. Otherwise each channel of it is the whole number nearest to the mean of the
photo and the background under the mask's weight, and lies between them. It is the
background where the mask is zero, and the photo where that is 255. With a mask that
is nowhere less, all channels move on from the background to the photo, and are no
further from the photo than before. If a mask has no values but zero and 255,
cutting out twice is cutting out once. -/
theorem cutout_law (photo : Photo) (mask : Mask) (background : Rgb) :
    (photo.size ≠ mask.size →
      cutout photo mask background = .error (.sizeMismatch photo.size mask.size)) ∧
    (photo.size = mask.size → ∃ out, cutout photo mask background = .ok out ∧
      out.size = photo.size ∧
      (∀ x y c a, photo.get? x y = some c → mask.get? x y = some a →
        ∃ d, out.get? x y = some d ∧
          (∀ channel ∈ Rgb.channels,
            Nearest (channel d).toNat (weightedMean a (channel c) (channel background)) ∧
            (channel background ≤ channel d ∧ channel d ≤ channel c ∨
              channel c ≤ channel d ∧ channel d ≤ channel background)) ∧
          (a = 0 → d = background) ∧ (a = 255 → d = c)) ∧
      (∀ mask', photo.size = mask'.size → mask.Below mask' →
        ∃ out', cutout photo mask' background = .ok out' ∧
          ∀ x y c d d', photo.get? x y = some c → out.get? x y = some d →
            out'.get? x y = some d' → ∀ channel ∈ Rgb.channels,
              InOrder (channel background) (channel d) (channel d') (channel c) ∧
              |((channel d').toNat : ℤ) - (channel c).toNat| ≤
                |((channel d).toNat : ℤ) - (channel c).toNat|) ∧
      (mask.TwoValued → cutout out mask background = .ok out)) := by
  refine ⟨fun hsize => ?_, fun hsize => ?_⟩
  · rw [cutout, requireSameSize, if_neg hsize]
    rfl
  refine ⟨composite photo mask background, cutout_of_size_eq hsize background, rfl, ?_, ?_, ?_⟩
  · intro x y c a hc ha
    refine ⟨_, get?_composite hc ha background, fun channel hchannel => ?_, ?_, ?_⟩
    · rw [Rgb.channel_mixed hchannel]
      exact ⟨mixChannel_nearest a _ _, (inOrder_mixChannel (UInt8.le_refl a) _ _).between⟩
    · rintro rfl
      exact Rgb.mixed_zero c background
    · rintro rfl
      exact Rgb.mixed_full c background
  · intro mask' hsize' hbelow
    refine ⟨_, cutout_of_size_eq hsize' background, fun x y c d d' hc hd hd' channel hchannel => ?_⟩
    have horder := inOrder_composite hsize hsize' hbelow hc hd hd' hchannel
    exact ⟨horder, horder.abs_sub_le⟩
  · intro hmask
    have hout : (composite photo mask background).size = mask.size := hsize
    rw [cutout_of_size_eq hout, composite_composite hsize hmask]

end Montage
