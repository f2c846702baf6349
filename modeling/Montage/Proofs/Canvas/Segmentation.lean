import Montage.Proofs.Binary64
import Montage.Proofs.Canvas.Steps
import Montage.Proofs.Mask.Cleaning
import Montage.Proofs.Raster
/-!
# Segmentation — settings are tried once

The settings of a segmentation are tried before anything else is done. The
canvas may be left to follow the photo, whose extent the settings do not know,
and is then tried with a single pixel. Any other photo that has pixels would
have come to the same (`validate_placement_eq`). So what is tried again later,
by repositioning and by the reflection, has been accepted already, and what is
left are the faults of the object: no shape fits it, or it vanishes
(`segment_failsOnly`).

Without straightening there is just the second of these. `Composer.Vanishes`
says when, and `segment_outcome` that it is the only way to fail.
-/

namespace Montage

/-! ## What tried settings promise -/

namespace SegmentationSpec

variable {spec : SegmentationSpec}

/-- **One photo with pixels is as good as another** for trying a placement. -/
theorem validate_placement_eq (spec : SegmentationSpec) {photo photo' : Size}
    (h : photo.Nonempty) (h' : photo'.Nonempty) :
    (spec.placement photo).validate = (spec.placement photo').validate := by
  cases hc : spec.canvas with
  | some canvas =>
    -- the photo is not looked at
    rw [placement, placement, hc]
    rfl
  | none =>
    have hflaw : (spec.placement photo).flaw? = (spec.placement photo').flaw? := by
      simp only [PlacementSpec.flaw?, placement, hc, Option.getD_none]
      rw [h.has_sides, h'.has_sides]
      rfl
    rw [PlacementSpec.validate, PlacementSpec.validate, hflaw]

theorem validate_eq_ok_iff :
    spec.validate = .ok () ↔ Scalar.within 0.0 1.0 spec.threshold = true ∧
      isPercentage spec.reflection = true ∧ (spec.placement ⟨1, 1⟩).validate = .ok () := by
  unfold validate
  cases Scalar.within 0.0 1.0 spec.threshold <;> cases isPercentage spec.reflection <;> simp

theorem flaw?_placement_eq_none (hv : spec.validate = .ok ()) {photo : Size}
    (h : photo.Nonempty) : (spec.placement photo).flaw? = none := by
  obtain ⟨-, -, hp⟩ := validate_eq_ok_iff.mp hv
  rw [← PlacementSpec.validate_eq_ok_iff, spec.validate_placement_eq h Size.nonempty_pixel, hp]

end SegmentationSpec

/-! ## What is left to fail for -/

section

variable {photo : Photo} {mask : Mask} {spec : PlacementSpec}

theorem reposition_of_blank (hv : spec.flaw? = none) (hs : photo.size = mask.size)
    (hb : mask.Blank) : reposition photo mask spec = .error .emptyMask := by
  rw [reposition_eq, hv, if_pos hs, Raster.bounds?_eq_none_iff.mpr hb]

theorem reposition_of_not_blank (hv : spec.flaw? = none) (hs : photo.size = mask.size)
    (hb : ¬mask.Blank) : ∃ placed, reposition photo mask spec = .ok placed := by
  obtain ⟨b, hb⟩ := Raster.exists_bounds hb
  rw [reposition_eq, hv, if_pos hs, hb]
  exact ⟨_, rfl⟩

end

namespace Cut

variable {c : Cut} {opacity : Float}

/-- **A reflection that is asked for needs an object.** -/
theorem cutoutWithReflection_of_blank (h : c.InStep) (hp : isPercentage opacity = true)
    (h0 : 0.0 < opacity) (hb : c.mask.Blank) (background : Rgb) :
    c.cutoutWithReflection background opacity = .error .emptyMask := by
  have hz : (opacity == 0.0) = false := (zero_lt_iff_of_isPercentage hp).mp h0
  rw [cutoutWithReflection_of_inStep h, addReflection_of_size_eq (h.size_composite background),
    if_pos hp, hz, Raster.bounds?_eq_none_iff.mpr hb]
  rfl

/-- And needs nothing else. -/
theorem cutoutWithReflection_of_not_blank (h : c.InStep) (hp : isPercentage opacity = true)
    (hb : 0.0 < opacity → ¬c.mask.Blank) (background : Rgb) :
    ∃ p, c.cutoutWithReflection background opacity = .ok p ∧ p.size = c.photo.size := by
  rw [cutoutWithReflection_of_inStep h, addReflection_of_size_eq (h.size_composite background),
    if_pos hp]
  cases hz : opacity == 0.0 with
  | true => exact ⟨_, rfl, size_composite ..⟩
  | false =>
    obtain ⟨b, hb⟩ := Raster.exists_bounds (hb ((zero_lt_iff_of_isPercentage hp).mpr hz))
    rw [hb]
    exact ⟨_, rfl, size_paintReflection ..⟩

end Cut

namespace Composer

variable {c p : Composer} {spec : SegmentationSpec}

theorem apply_failsOnly {P : Fault → Prop} {s : Step} (h : FailsOnly P (s.apply c.toCut)) :
    FailsOnly P (c.apply s) := by
  intro f hf
  apply h
  rw [← map_toCut_apply, hf]
  rfl

theorem size_cleaned (c : Composer) (t : Float) :
    c.photo.size = (c.mask.threshold t).smooth.size := (c.cleaned t).inStep

theorem prepared_failsOnly (c : Composer) (spec : SegmentationSpec) :
    FailsOnly Misfit (c.prepared spec) := by
  unfold prepared
  split
  · exact apply_failsOnly (straighten_failsOnly (c.cleaned spec.threshold).inStep)
  · exact failsOnly_ok _

theorem size_prepared (h : c.prepared spec = .ok p) : p.photo.size = c.photo.size := by
  unfold prepared at h
  split at h
  · exact (Step.inStep_apply (c.cleaned spec.threshold).inStep (apply_toCut_of_apply h)).2
  · cases h
    rfl

/-- **With settings that have been tried, only the object is at fault**: no
shape fits it, or it vanishes. -/
theorem segment_failsOnly (hc : c.photo.size.Nonempty) (hv : spec.validate = .ok ()) :
    FailsOnly (fun f => Misfit f ∨ f = .emptyMask) (c.segment spec) := by
  obtain ⟨-, hr, -⟩ := SegmentationSpec.validate_eq_ok_iff.mp hv
  unfold segment
  rw [hv]
  refine FailsOnly.bind (failsOnly_ok ()) fun _ _ => ?_
  refine FailsOnly.bind ((c.prepared_failsOnly spec).mono fun f => Or.inl) fun p hp => ?_
  refine FailsOnly.bind ?_ fun placed _ => FailsOnly.bind ?_ fun cutout _ => failsOnly_ok _
  · refine apply_failsOnly ((reposition_failsOnly p.inStep _).mono ?_)
    rintro f (⟨flaw, hflaw, -⟩ | rfl)
    · rw [size_prepared hp, SegmentationSpec.flaw?_placement_eq_none hv hc] at hflaw
      cases hflaw
    · exact Or.inr rfl
  · refine (Cut.cutoutWithReflection_failsOnly placed.inStep _ _).mono ?_
    rintro f (⟨hf, -⟩ | rfl)
    · rw [hr] at hf
      cases hf
    · exact Or.inr rfl

/-! ## Without straightening -/

/-- The treatment of a prepared object, part by part. -/
theorem segment_of_prepared (hv : spec.validate = .ok ()) (hp : c.prepared spec = .ok p) :
    c.segment spec = do
      let placed ← Montage.reposition p.photo p.mask (spec.placement p.photo.size)
      let cutout ← placed.cutoutWithReflection spec.background spec.reflection
      return ⟨(c.cleaned spec.threshold).mask, placed, cutout⟩ := by
  unfold segment
  rw [hv, hp]
  exact p.bind_apply (.reposition (spec.placement p.photo.size)) fun placed => do
    let cutout ← placed.cutoutWithReflection spec.background spec.reflection
    return (⟨(c.cleaned spec.threshold).mask, placed, cutout⟩ : Segmented)

theorem segment_of_straighten_eq_false (hv : spec.validate = .ok ())
    (hs : spec.straighten = false) :
    c.segment spec = do
      let cleaned := (c.mask.threshold spec.threshold).smooth
      let placed ← Montage.reposition c.photo cleaned (spec.placement c.photo.size)
      let cutout ← placed.cutoutWithReflection spec.background spec.reflection
      return ⟨cleaned, placed, cutout⟩ := by
  have hp : c.prepared spec = .ok (c.cleaned spec.threshold) := by
    rw [prepared, hs]
    rfl
  rw [segment_of_prepared hv hp]
  rfl

/-- **The object vanishes** when cleaning leaves nothing of it, or when a
reflection is asked for and nothing of it comes to lie on the canvas. -/
def Vanishes (c : Composer) (spec : SegmentationSpec) : Prop :=
  let cleaned := (c.mask.threshold spec.threshold).smooth
  cleaned.Blank ∨
    (0.0 < spec.reflection ∧ ∃ placed,
      Montage.reposition c.photo cleaned (spec.placement c.photo.size) = .ok placed ∧
        placed.mask.Blank)

/-- What a segmentation without straightening yields: the cleaned mask in the
extent of the photo, and all else in the extent of the canvas, which is that
of the photo again where none is given. -/
structure Yields (c : Composer) (spec : SegmentationSpec) (s : Segmented) : Prop where
  mask : s.mask = (c.mask.threshold spec.threshold).smooth
  size_mask : s.mask.size = c.photo.size
  size_placed_photo : s.placed.photo.size = spec.canvas.getD c.photo.size
  size_placed_mask : s.placed.mask.size = spec.canvas.getD c.photo.size
  size_cutout : s.cutout.size = spec.canvas.getD c.photo.size

/-- A mask in which nothing is set vanishes whatever the settings. -/
theorem vanishes_of_blank (h : c.mask.Blank) (spec : SegmentationSpec) : c.Vanishes spec :=
  Or.inl (h.threshold spec.threshold).smooth

section

variable (hc : c.photo.size.Nonempty) (hv : spec.validate = .ok ()) (hs : spec.straighten = false)
include hc hv hs

theorem segment_of_vanishes (h : c.Vanishes spec) : c.segment spec = .error .emptyMask := by
  obtain ⟨-, hr, -⟩ := SegmentationSpec.validate_eq_ok_iff.mp hv
  rw [segment_of_straighten_eq_false hv hs]
  dsimp only
  obtain hblank | ⟨h0, placed, hplaced, hblank⟩ := h
  · rw [reposition_of_blank (SegmentationSpec.flaw?_placement_eq_none hv hc)
      (c.size_cleaned spec.threshold) hblank]
    rfl
  · obtain ⟨hp, hm⟩ := size_of_reposition hplaced
    have hin : placed.InStep := hp.trans hm.symm
    have hfail := Cut.cutoutWithReflection_of_blank hin hr h0 hblank spec.background
    rw [hplaced]
    show (placed.cutoutWithReflection spec.background spec.reflection >>= _) = _
    rw [hfail]
    rfl

theorem segment_of_not_vanishes (h : ¬c.Vanishes spec) :
    ∃ s, c.segment spec = .ok s ∧ c.Yields spec s := by
  obtain ⟨-, hr, -⟩ := SegmentationSpec.validate_eq_ok_iff.mp hv
  obtain ⟨hmask, hcanvas⟩ := not_or.mp h
  have hin := c.size_cleaned spec.threshold
  obtain ⟨placed, hplaced⟩ :=
    reposition_of_not_blank (SegmentationSpec.flaw?_placement_eq_none hv hc) hin hmask
  obtain ⟨hp, hm⟩ := size_of_reposition hplaced
  obtain ⟨cutout, hcutout, hsize⟩ := Cut.cutoutWithReflection_of_not_blank
    (hp.trans hm.symm : placed.InStep) hr
    (fun h0 hblank => hcanvas ⟨h0, placed, hplaced, hblank⟩) spec.background
  refine ⟨⟨(c.mask.threshold spec.threshold).smooth, placed, cutout⟩, ?_,
    ⟨rfl, hin.symm, hp, hm, hsize.trans hp⟩⟩
  rw [segment_of_straighten_eq_false hv hs]
  dsimp only
  rw [hplaced]
  show (placed.cutoutWithReflection spec.background spec.reflection >>= _) = _
  rw [hcutout]
  rfl

end

end Composer

/-! ## Outcomes -/

/-- **What a segmentation comes to**, for a photo that has pixels. Settings
that are flawed are the fault. Settings that are not are never found flawed
later, and the extents are never in the way, whether the object is
straightened or not. If it is not, the segmentation fails exactly when the
object vanishes, and otherwise yields what it should. -/
theorem segment_outcome (c : Composer) (hc : c.photo.size.Nonempty) (spec : SegmentationSpec) :
    (∀ f, spec.validate = .error f → c.segment spec = .error f) ∧
    (∀ photo : Size, photo.Nonempty →
      (spec.placement photo).validate = (spec.placement ⟨1, 1⟩).validate) ∧
    (spec.validate = .ok () →
      isPercentage spec.reflection = true ∧
      (∀ flaw, c.segment spec ≠ .error (.invalidSetting flaw)) ∧
      (∀ image mask, c.segment spec ≠ .error (.sizeMismatch image mask)) ∧
      (spec.straighten = false →
        (c.segment spec = .error .emptyMask ↔ c.Vanishes spec) ∧
        (¬c.Vanishes spec → ∃ s, c.segment spec = .ok s ∧ c.Yields spec s))) := by
  refine ⟨?_, ?_, ?_⟩
  · intro f hf
    rw [Composer.segment, hf]
    rfl
  · intro photo h
    exact spec.validate_placement_eq h Size.nonempty_pixel
  · intro hv
    have hfaults := Composer.segment_failsOnly hc hv
    obtain ⟨-, hr, -⟩ := SegmentationSpec.validate_eq_ok_iff.mp hv
    refine ⟨hr, ?_, ?_, ?_⟩
    · intro flaw h
      obtain hf | hf := hfaults _ h
      · cases hf
      · cases hf
    · intro image mask h
      obtain hf | hf := hfaults _ h
      · cases hf
      · cases hf
    · intro hs
      refine ⟨⟨?_, c.segment_of_vanishes hc hv hs⟩, c.segment_of_not_vanishes hc hv hs⟩
      intro h
      by_contra hvanishes
      obtain ⟨s, hok, -⟩ := c.segment_of_not_vanishes hc hv hs hvanishes
      rw [h] at hok
      cases hok

/-- A composer of one pixel, which is the object if the mask is set there. -/
theorem exists_pixel_composer (v : UInt8) :
    ∃ c, Composer.ofParts (.filled ⟨1, 1⟩ .white) (.filled ⟨1, 1⟩ v) = .ok c ∧
      c.photo.size.Nonempty ∧ c.mask = .filled ⟨1, 1⟩ v := by
  obtain ⟨c, hc⟩ : ∃ c, Composer.ofParts (.filled ⟨1, 1⟩ .white) (.filled ⟨1, 1⟩ v) = .ok c :=
    ⟨_, dif_pos rfl⟩
  have hcut := Composer.toCut_of_ofParts hc
  refine ⟨c, hc, ?_, ?_⟩
  · rw [hcut]
    exact Size.nonempty_pixel
  · rw [hcut]

/-- One pixel without an object, once with the settings that are there by
default and once with a canvas that has no columns, and one pixel that is an object,
on a canvas of three by two. -/
theorem segment_outcome_of_pixel :
    (∃ c, Composer.ofParts (.filled ⟨1, 1⟩ .white) (.filled ⟨1, 1⟩ 0) = .ok c ∧
      c.segment {} = .error .emptyMask ∧
      c.segment { canvas := some ⟨0, 3⟩ } = .error (.invalidSetting (.emptyCanvas ⟨0, 3⟩))) ∧
    ∃ c s, Composer.ofParts (.filled ⟨1, 1⟩ .white) (.filled ⟨1, 1⟩ 255) = .ok c ∧
      c.segment { canvas := some ⟨3, 2⟩ } = .ok s ∧ s.mask.get? 0 0 = some 255 ∧
      s.cutout.size = ⟨3, 2⟩ := by
  constructor
  · obtain ⟨c, hc, hpixel, hmask⟩ := exists_pixel_composer 0
    have hblank : c.mask.Blank := hmask ▸ Raster.blank_filled ⟨1, 1⟩
    obtain ⟨-, -, hvalid⟩ := segment_outcome c hpixel {}
    obtain ⟨-, -, -, hplain⟩ := hvalid rfl
    obtain ⟨hflawed, -⟩ := segment_outcome c hpixel { canvas := some ⟨0, 3⟩ }
    exact ⟨c, hc, (hplain rfl).1.mpr (Composer.vanishes_of_blank hblank {}), hflawed _ rfl⟩
  · obtain ⟨c, hc, hpixel, hmask⟩ := exists_pixel_composer 255
    have hcleaned : (c.mask.threshold (0.5 : Float)).smooth.get? 0 0 = some 255 := by
      rw [hmask]
      decide +kernel
    have hstays : ¬c.Vanishes { canvas := some ⟨3, 2⟩ } := by
      rintro (hblank | ⟨hreflection, -⟩)
      · exact absurd (hblank 0 0 255 hcleaned) (by decide)
      · exact absurd hreflection (by decide)
    obtain ⟨-, -, hvalid⟩ := segment_outcome c hpixel { canvas := some ⟨3, 2⟩ }
    obtain ⟨-, -, -, hplain⟩ := hvalid rfl
    obtain ⟨s, hs, hyields⟩ := (hplain rfl).2 hstays
    exact ⟨c, s, hc, hs, hyields.mask ▸ hcleaned, hyields.size_cutout⟩

end Montage
