import Montage.Proofs.Canvas.Pasting
import Montage.Proofs.Canvas.Segmentation
import Montage.Proofs.Color
/-!
# Fill — the colour of the canvas never shows

Where nothing is pasted the canvas has its fill colour and the mask is zero.
A weight of zero leaves nothing of the upper colour, whatever that is
(`mixed_zero`), so laying the photo over a background covers the fill up. And
a reflection is made of the cutout, not of the photo.

`Cut.Alike` relates two cuts that differ at most where their mask is zero.
Repositioning on canvases of two colours yields cuts that are alike
(`reposition_alike`), and what is cut out of these is the same
(`cutout_eq`, `cutoutWithReflection_eq`).
-/

namespace Montage

/-! ## Nothing of the upper colour -/

/-- Under a weight of zero, of a pixel that may be there it is only shown whether it
is. -/
theorem Rgb.map_mixed_zero {upper upper' : Option Rgb} (h : upper.isSome = upper'.isSome)
    (lower : Rgb) :
    upper.map (fun c => mixed 0 c lower) = upper'.map (fun c => mixed 0 c lower) := by
  simp only [mixed_zero]
  cases upper with
  | none =>
    cases upper' with
    | none => rfl
    | some c' => cases h
  | some c =>
    cases upper' with
    | none => cases h
    | some c' => rfl

/-! ## Cuts that are alike -/

/-- Two cuts of one extent and one mask whose photos are the same wherever
the mask is not zero. -/
structure Cut.Alike (a b : Cut) : Prop where
  mask : a.mask = b.mask
  size : a.photo.size = b.photo.size
  visible : ∀ x y, a.mask.get? x y ≠ some 0 → a.photo.get? x y = b.photo.get? x y

namespace Cut.Alike

variable {a b : Cut}

/-- **Laid over a background, they are the same.** -/
theorem composite_eq (h : a.Alike b) (background : Rgb) :
    composite a.photo a.mask background = composite b.photo b.mask background := by
  refine Raster.ext_get? h.size fun x y => ?_
  rw [composite, composite, Raster.get?_mapPixels, Raster.get?_mapPixels, ← h.mask]
  by_cases hz : a.mask.get? x y = some 0
  · rw [Raster.getD_eq, hz]
    exact Rgb.map_mixed_zero (Raster.isSome_get?_congr h.size x y) background
  · rw [h.visible x y hz]

theorem requireSameSize_eq (h : a.Alike b) :
    requireSameSize a.photo a.mask = requireSameSize b.photo b.mask := by
  unfold requireSameSize
  rw [h.size, h.mask]

theorem cutout_eq (h : a.Alike b) (background : Rgb) :
    a.cutout background = b.cutout background := by
  unfold Cut.cutout Montage.cutout
  rw [h.requireSameSize_eq, h.composite_eq]

/-- A reflection sees the mask and the cutout, and the photo only through
the latter. -/
theorem cutoutWithReflection_eq (h : a.Alike b) (background : Rgb) (opacity : Float) :
    a.cutoutWithReflection background opacity = b.cutoutWithReflection background opacity := by
  unfold Cut.cutoutWithReflection
  rw [h.cutout_eq, h.mask]

end Cut.Alike

/-! ## Canvases of two colours -/

/-- **The fill colour is seen only where no object is.** -/
theorem Layout.alike_compose (l : Layout) (photo : Photo) (mask : Mask) (canvas : Size)
    (fill fill' : Rgb) :
    Cut.Alike ⟨l.compose photo canvas fill, l.compose mask canvas 0⟩
      ⟨l.compose photo canvas fill', l.compose mask canvas 0⟩ where
  mask := rfl
  size := by rw [size_compose, size_compose]
  visible := by
    intro tx ty hset
    by_cases hin : tx < canvas.width ∧ ty < canvas.height
    · obtain ⟨htx, hty⟩ := hin
      by_cases hjoined : ∃ sx sy, l.x.Joins l.resized.width sx tx ∧
          l.y.Joins l.resized.height sy ty
      · obtain ⟨sx, sy, hx, hy⟩ := hjoined
        obtain ⟨p, hp, hshown⟩ := get?_compose_of_joins photo fill hx hy htx hty
        obtain ⟨p', hp', hshown'⟩ := get?_compose_of_joins photo fill' hx hy htx hty
        have hpp' : some p = some p' := hp.symm.trans hp'
        rw [hshown, hshown', hpp']
      · exact absurd (get?_compose_of_unjoined mask 0 htx hty hjoined) hset
    · rw [Raster.get?_eq_none_of_outside (size_compose ..) hin,
        Raster.get?_eq_none_of_outside (size_compose ..) hin]

/-- **Repositioning on canvases of two colours.** It fails alike, or yields
cuts that are alike. -/
theorem reposition_alike (photo : Photo) (mask : Mask) (spec : PlacementSpec)
    (fill fill' : Rgb) :
    Agree Cut.Alike (reposition photo mask { spec with fill := fill })
      (reposition photo mask { spec with fill := fill' }) := by
  have hflaw (c : Rgb) : PlacementSpec.flaw? { spec with fill := c } = spec.flaw? := rfl
  rw [reposition_eq, reposition_eq, hflaw fill, hflaw fill']
  cases spec.flaw? with
  | some flaw => exact rfl
  | none =>
    by_cases hs : photo.size = mask.size
    · rw [if_pos hs, if_pos hs]
      cases mask.bounds? with
      | none => exact rfl
      | some b => exact Layout.alike_compose _ photo mask spec.canvas fill fill'
    · rw [if_neg hs, if_neg hs]
      exact rfl

namespace Composer

/-- The treatment of a segmented object, on a canvas of any colour. -/
def segmentOn (fill : Rgb) (c : Composer) (spec : SegmentationSpec) : Except Fault Segmented := do
  spec.validate
  let prepared ← c.prepared spec
  let placed ← prepared.reposition { spec.placement prepared.photo.size with fill := fill }
  let cutout ← placed.cutoutWithReflection spec.background spec.reflection
  return { mask := (c.cleaned spec.threshold).mask, placed := placed.toCut, cutout := cutout }

/-- A segmentation takes a black canvas. -/
theorem segment_eq_segmentOn (c : Composer) (spec : SegmentationSpec) :
    c.segment spec = c.segmentOn .black spec := rfl

theorem segmentOn_alike (c : Composer) (spec : SegmentationSpec) (fill fill' : Rgb) :
    Agree (fun s s' => s.mask = s'.mask ∧ s.placed.Alike s'.placed ∧ s.cutout = s'.cutout)
      (c.segmentOn fill spec) (c.segmentOn fill' spec) := by
  unfold segmentOn
  refine Agree.bind (agree_eq_refl _) fun _ _ _ => ?_
  refine Agree.bind (agree_eq_refl _) fun p p' hp => ?_
  subst hp
  have hplaced : Agree (fun a b : Composer => a.toCut.Alike b.toCut)
      (p.reposition { spec.placement p.photo.size with fill := fill })
      (p.reposition { spec.placement p.photo.size with fill := fill' }) := by
    rw [← agree_map_iff, reposition, reposition, map_toCut_apply, map_toCut_apply]
    exact reposition_alike p.photo p.mask _ fill fill'
  refine Agree.bind hplaced fun a b hab => ?_
  rw [hab.cutoutWithReflection_eq]
  refine Agree.bind (agree_eq_refl _) fun cutout cutout' hcutout => ?_
  exact ⟨rfl, hab, hcutout⟩

end Composer

/-- **The fill colour never shows.** Take an object to canvases that differ
in nothing but their colour. Either neither can be done, for the same reason,
or the masks are the same, the photos are too wherever the mask is not zero,
and so are all cutouts, with a reflection or without one. So the black canvas
of a segmentation is as good as any other: what it hands out as its cutout,
or fails for, would have been the same. -/
theorem fill_never_shows (photo : Photo) (mask : Mask) (spec : PlacementSpec)
    (fill fill' : Rgb) :
    Agree (fun a b : Cut => a.mask = b.mask ∧
        (∀ x y, a.mask.get? x y ≠ some 0 → a.photo.get? x y = b.photo.get? x y) ∧
        (∀ background, a.cutout background = b.cutout background) ∧
        ∀ background opacity,
          a.cutoutWithReflection background opacity = b.cutoutWithReflection background opacity)
      (reposition photo mask { spec with fill := fill })
      (reposition photo mask { spec with fill := fill' }) ∧
    ∀ (c : Composer) (settings : SegmentationSpec),
      Agree (fun s s' => s.mask = s'.mask ∧ s.cutout = s'.cutout)
        (c.segment settings) (c.segmentOn fill settings) := by
  constructor
  · refine (reposition_alike photo mask spec fill fill').mono fun a b h => ?_
    exact ⟨h.mask, h.visible, h.cutout_eq, h.cutoutWithReflection_eq⟩
  · intro c settings
    rw [Composer.segment_eq_segmentOn]
    exact (c.segmentOn_alike settings .black fill).mono fun s s' h => ⟨h.1, h.2.2⟩

end Montage
