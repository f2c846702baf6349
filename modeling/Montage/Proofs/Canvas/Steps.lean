import Montage.Canvas.Composer
import Montage.Proofs.Canvas.Straighten
/-!
# Steps — a photo and its mask stay in step

Four transformations are taken in any order and any number of times, and
those that fail are passed over. Each of them makes its photo and its mask on
their own; `inStep_apply` says that they come out in step if they went in so,
and `inStep_run` carries this along a run.

What follows is that the extents are never the reason for a failure: not for
a step (`step_fits`), nor for a cutout with its reflection
(`cutoutWithReflection_fits`), and a plain cutout does not fail at all.
`run_stays_inStep` says all of it of whatever a run may reach.
-/

namespace Montage

/-! ## What a step can fail for -/

theorem reposition_failsOnly {photo : Photo} {mask : Mask} (h : photo.size = mask.size)
    (spec : PlacementSpec) :
    FailsOnly (fun f => (∃ flaw, spec.flaw? = some flaw ∧ f = .invalidSetting flaw) ∨
      f = .emptyMask) (reposition photo mask spec) := by
  rw [reposition_eq]
  cases spec.flaw? with
  | some flaw => exact failsOnly_error (Or.inl ⟨flaw, rfl, rfl⟩)
  | none =>
    rw [if_pos h]
    cases mask.bounds? with
    | some b => exact failsOnly_ok _
    | none => exact failsOnly_error (Or.inr rfl)

theorem addReflection_failsOnly {cutout : Photo} {mask : Mask} (h : cutout.size = mask.size)
    (background : Rgb) (opacity : Float) :
    FailsOnly (fun f => (isPercentage opacity = false ∧ f = .invalidSetting (.opacity opacity)) ∨
      f = .emptyMask) (addReflection cutout mask background opacity) := by
  rw [addReflection_of_size_eq h]
  cases isPercentage opacity with
  | false => exact failsOnly_error (Or.inl ⟨rfl, rfl⟩)
  | true =>
    rw [if_pos rfl]
    split
    · exact failsOnly_ok _
    · cases mask.bounds? with
      | some b => exact failsOnly_ok _
      | none => exact failsOnly_error (Or.inr rfl)

/-- The fault of a photo and a mask that do not belong together. -/
def Fault.IsMismatch (f : Fault) : Prop := ∃ image mask, f = .sizeMismatch image mask

theorem Misfit.not_isMismatch {f : Fault} (h : Misfit f) : ¬f.IsMismatch := by
  rintro ⟨image, mask, rfl⟩
  cases h

theorem not_isMismatch_of_invalidSetting (flaw : SettingFlaw) :
    ¬(Fault.invalidSetting flaw).IsMismatch := by
  rintro ⟨image, mask, h⟩
  cases h

theorem not_isMismatch_emptyMask : ¬Fault.emptyMask.IsMismatch := by
  rintro ⟨image, mask, h⟩
  cases h

/-! ## In step, no extent is in the way -/

namespace Cut

variable {c : Cut}

/-- A step never fails for the extents. -/
theorem step_fits (h : c.InStep) (s : Step) :
    FailsOnly (fun f => ¬f.IsMismatch) (s.apply c) := by
  cases s with
  | threshold t => exact failsOnly_ok _
  | smooth => exact failsOnly_ok _
  | straighten => exact (straighten_failsOnly h).mono fun f hf => hf.not_isMismatch
  | reposition spec =>
    refine (reposition_failsOnly h spec).mono ?_
    rintro f (⟨flaw, -, rfl⟩ | rfl)
    · exact not_isMismatch_of_invalidSetting flaw
    · exact not_isMismatch_emptyMask

theorem cutout_of_inStep (h : c.InStep) (background : Rgb) :
    c.cutout background = .ok (composite c.photo c.mask background) :=
  cutout_of_size_eq h background

theorem cutoutWithReflection_failsOnly (h : c.InStep) (background : Rgb) (opacity : Float) :
    FailsOnly (fun f => (isPercentage opacity = false ∧ f = .invalidSetting (.opacity opacity)) ∨
      f = .emptyMask) (c.cutoutWithReflection background opacity) := by
  rw [cutoutWithReflection_of_inStep h]
  exact addReflection_failsOnly (h.size_composite background) background opacity

/-- A cutout with a reflection never fails for the extents. -/
theorem cutoutWithReflection_fits (h : c.InStep) (background : Rgb) (opacity : Float) :
    FailsOnly (fun f => ¬f.IsMismatch) (c.cutoutWithReflection background opacity) := by
  refine (cutoutWithReflection_failsOnly h background opacity).mono ?_
  rintro f (⟨-, rfl⟩ | rfl)
  · exact not_isMismatch_of_invalidSetting _
  · exact not_isMismatch_emptyMask

end Cut

/-! ## Runs -/

/-- **A photo and a mask stay in step through every run.** Let a composer be
made of them, and take any steps. Whatever is reached then is in step.
Thresholds and smoothing leave the photo there untouched and keep the extent
of the mask, straightening keeps both extents, and repositioning sets both to
the canvas. So a cutout succeeds there, and neither a cutout with a
reflection nor any further step fails for the extents. -/
theorem run_stays_inStep {photo : Photo} {mask : Mask} {c : Composer}
    (h : Composer.ofParts photo mask = .ok c) (steps : List Step) :
    let reached := Cut.run ⟨photo, mask⟩ steps
    (c.run steps).toCut = reached ∧
    reached.photo.size = reached.mask.size ∧
    (∀ t, ∃ m, (Step.threshold t).apply reached = .ok ⟨reached.photo, m⟩ ∧
      m.size = reached.mask.size) ∧
    (∃ m, Step.smooth.apply reached = .ok ⟨reached.photo, m⟩ ∧ m.size = reached.mask.size) ∧
    (∀ next, Step.straighten.apply reached = .ok next →
      next.photo.size = reached.photo.size ∧ next.mask.size = reached.mask.size) ∧
    (∀ spec next, (Step.reposition spec).apply reached = .ok next →
      next.photo.size = spec.canvas ∧ next.mask.size = spec.canvas) ∧
    (∀ background, ∃ p, reached.cutout background = .ok p) ∧
    (∀ background opacity,
      FailsOnly (fun f => ¬f.IsMismatch) (reached.cutoutWithReflection background opacity)) ∧
    ∀ s : Step, ((c.run steps).apply s).map Composer.toCut = s.apply reached ∧
      FailsOnly (fun f => ¬f.IsMismatch) (s.apply reached) := by
  intro reached
  have hc : c.toCut = ⟨photo, mask⟩ := Composer.toCut_of_ofParts h
  have hin : reached.InStep := Cut.inStep_run (hc ▸ c.inStep) steps
  have hcut : (c.run steps).toCut = reached := by
    rw [Composer.toCut_run, hc]
  refine ⟨hcut, hin, ?_, ⟨_, rfl, rfl⟩, ?_, ?_, ?_, ?_, ?_⟩
  · intro t
    exact ⟨_, rfl, rfl⟩
  · intro next hnext
    exact size_of_straighten hin hnext
  · intro spec next hnext
    exact size_of_reposition hnext
  · intro background
    exact ⟨_, Cut.cutout_of_inStep hin background⟩
  · exact Cut.cutoutWithReflection_fits hin
  · intro s
    refine ⟨?_, Cut.step_fits hin s⟩
    rw [Composer.map_toCut_apply, hcut]

/-- Two white pixels and their full mask, after one step of each kind. -/
theorem run_stays_inStep_of_two_pixels :
    let photo := Raster.filled ⟨2, 1⟩ Rgb.white
    let mask := Raster.filled ⟨2, 1⟩ (255 : UInt8)
    let reached := Cut.run ⟨photo, mask⟩ [.threshold 0.5, .straighten, .reposition {}, .smooth]
    (∃ c, Composer.ofParts photo mask = .ok c) ∧ reached.photo.size = reached.mask.size ∧
      ∃ p, reached.cutout .white = .ok p := by
  intro photo mask reached
  obtain ⟨c, hc⟩ : ∃ c, Composer.ofParts photo mask = .ok c := ⟨_, dif_pos rfl⟩
  obtain ⟨-, hsize, -, -, -, -, hcutout, -⟩ :=
    run_stays_inStep hc [.threshold 0.5, .straighten, .reposition {}, .smooth]
  exact ⟨⟨c, hc⟩, hsize, hcutout .white⟩

end Montage
