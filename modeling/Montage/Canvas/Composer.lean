import Montage.Canvas.Cutout
import Montage.Canvas.Straighten
/-!
# Composing — a photo and its mask transformed together

A `Step` is a transformation of a photo and its mask by name. `Cut.run` takes
steps one after the other, and a step that fails leaves both as they are. No
step brings a photo and a mask that are in step out of it (`inStep_apply`),
so nor do any number of them (`inStep_run`). A `Composer` is a cut together
with that fact.

`Composer.segment` is the whole treatment of a segmented object: clean the
mask, straighten the object if asked to, place it, and cut it out.
-/

namespace Montage

/-! ## Steps -/

/-- A transformation of a photo and its mask. -/
inductive Step where
  /-- Drops mask values below the threshold. -/
  | threshold (t : Float)
  /-- Softens the edges of the mask. -/
  | smooth
  /-- Straightens the object. -/
  | straighten
  /-- Places the object on a new canvas. -/
  | reposition (spec : PlacementSpec)

/-- A photo and its mask after a step. -/
def Step.apply (c : Cut) : Step → Except Fault Cut
  | .threshold t => .ok ⟨c.photo, c.mask.threshold t⟩
  | .smooth => .ok ⟨c.photo, c.mask.smooth⟩
  | .straighten => Montage.straighten c.photo c.mask
  | .reposition spec => Montage.reposition c.photo c.mask spec

/-- The extent that a step makes of the extent before. -/
def Step.resize (before : Size) : Step → Size
  | .reposition spec => spec.canvas
  | _ => before

namespace Cut

/-- A photo and its mask after a step, or as they were if the step fails. -/
def attempt (c : Cut) (s : Step) : Cut :=
  match s.apply c with
  | .ok c' => c'
  | .error _ => c

/-- A photo and its mask after steps taken one after the other. -/
def run (c : Cut) (steps : List Step) : Cut := steps.foldl attempt c

end Cut

/-- **What a step keeps**: a photo and a mask that are in step stay so, in
the extent that the step makes of theirs. -/
theorem Step.inStep_apply {c c' : Cut} {s : Step} (h : c.InStep) (hs : s.apply c = .ok c') :
    c'.InStep ∧ c'.photo.size = s.resize c.photo.size := by
  cases s with
  | threshold t =>
    cases hs
    exact ⟨h, rfl⟩
  | smooth =>
    cases hs
    exact ⟨h, rfl⟩
  | straighten =>
    obtain ⟨hp, hm⟩ := size_of_straighten h hs
    exact ⟨by rw [Cut.InStep, hp, hm, h], hp⟩
  | reposition spec =>
    obtain ⟨hp, hm⟩ := size_of_reposition hs
    exact ⟨by rw [Cut.InStep, hp, hm], hp⟩

theorem Cut.inStep_attempt {c : Cut} (h : c.InStep) (s : Step) : (c.attempt s).InStep := by
  unfold Cut.attempt
  split
  · next hs => exact (Step.inStep_apply h hs).1
  · exact h

/-- **And so do any number of steps**, whether they fail or not. -/
theorem Cut.inStep_run {c : Cut} (h : c.InStep) (steps : List Step) : (c.run steps).InStep := by
  induction steps generalizing c with
  | nil => exact h
  | cons s rest ih => exact ih (Cut.inStep_attempt h s)

/-! ## Composers -/

/-- A photo and a mask of the same extent. -/
structure Composer extends Cut where
  inStep : toCut.InStep

namespace Composer

/-- The composer of a photo and a mask. -/
def ofParts (photo : Photo) (mask : Mask) : Except Fault Composer :=
  if h : photo.size = mask.size then .ok ⟨⟨photo, mask⟩, h⟩
  else .error (.sizeMismatch photo.size mask.size)

/-- The composer of a photo and a mask that come from one operation. -/
def ofCut (c : Cut) : Except Fault Composer := ofParts c.photo c.mask

/-- The composer after a step. -/
def apply (c : Composer) (s : Step) : Except Fault Composer :=
  match h : s.apply c.toCut with
  | .ok cut => .ok ⟨cut, (Step.inStep_apply c.inStep h).1⟩
  | .error f => .error f

/-- The composer after steps taken one after the other. -/
def run (c : Composer) (steps : List Step) : Composer :=
  ⟨c.toCut.run steps, Cut.inStep_run c.inStep steps⟩

/-- Drops mask values below the threshold. -/
def threshold (c : Composer) (t : Float) : Composer := ⟨⟨c.photo, c.mask.threshold t⟩, c.inStep⟩

/-- Softens the edges of the mask. -/
def smooth (c : Composer) : Composer := ⟨⟨c.photo, c.mask.smooth⟩, c.inStep⟩

/-- Straightens the object. -/
def straighten (c : Composer) : Except Fault Composer := c.apply .straighten

/-- Places the object on a new canvas. -/
def reposition (c : Composer) (spec : PlacementSpec) : Except Fault Composer :=
  c.apply (.reposition spec)

/-! ## What a composer comes to -/

theorem toCut_of_ofParts {photo : Photo} {mask : Mask} {c : Composer}
    (h : ofParts photo mask = .ok c) : c.toCut = ⟨photo, mask⟩ := by
  unfold ofParts at h
  split at h
  · cases h
    rfl
  · cases h

theorem apply_of_ok {c : Composer} {s : Step} {cut : Cut} (h : s.apply c.toCut = .ok cut) :
    c.apply s = .ok ⟨cut, (Step.inStep_apply c.inStep h).1⟩ := by
  unfold apply
  split
  · next h' =>
    cases h.symm.trans h'
    rfl
  · next h' => cases h.symm.trans h'

theorem apply_of_error {c : Composer} {s : Step} {f : Fault} (h : s.apply c.toCut = .error f) :
    c.apply s = .error f := by
  unfold apply
  split
  · next h' => cases h.symm.trans h'
  · next h' =>
    cases h.symm.trans h'
    rfl

/-- Thresholds do not fail. -/
theorem apply_threshold (c : Composer) (t : Float) :
    c.apply (.threshold t) = .ok (c.threshold t) := apply_of_ok rfl

/-- Nor does smoothing. -/
theorem apply_smooth (c : Composer) : c.apply .smooth = .ok c.smooth := apply_of_ok rfl

/-- The step of a composer is the step of its cut. -/
theorem map_toCut_apply (c : Composer) (s : Step) :
    (c.apply s).map toCut = s.apply c.toCut := by
  cases h : s.apply c.toCut with
  | ok cut =>
    rw [apply_of_ok h]
    rfl
  | error f =>
    rw [apply_of_error h]
    rfl

theorem apply_toCut_of_apply {c c' : Composer} {s : Step} (h : c.apply s = .ok c') :
    s.apply c.toCut = .ok c'.toCut := by
  rw [← map_toCut_apply, h]
  rfl

/-- What is done next with the cut may as well be done without the composer. -/
theorem bind_apply {β : Type} (c : Composer) (s : Step) (next : Cut → Except Fault β) :
    (c.apply s >>= fun c' => next c'.toCut) = s.apply c.toCut >>= next := by
  rw [← map_toCut_apply]
  cases c.apply s <;> rfl

@[simp] theorem toCut_run (c : Composer) (steps : List Step) :
    (c.run steps).toCut = c.toCut.run steps := rfl

/-! ## Segmentation -/

/-- What the treatment of a segmented object yields. -/
structure Segmented where
  /-- The cleaned mask, in the frame of the photo. -/
  mask : Mask
  /-- The object on its canvas. -/
  placed : Cut
  /-- The placed object over the background. -/
  cutout : Photo

/-- The composer with its mask cleaned. -/
def cleaned (c : Composer) (t : Float) : Composer := (c.threshold t).smooth

/-- The composer with its mask cleaned and, if asked for, its object
straightened. -/
def prepared (c : Composer) (spec : SegmentationSpec) : Except Fault Composer :=
  if spec.straighten then (c.cleaned spec.threshold).straighten
  else .ok (c.cleaned spec.threshold)

/-- **The treatment of a segmented object.** -/
def segment (c : Composer) (spec : SegmentationSpec) : Except Fault Segmented := do
  spec.validate
  let prepared ← c.prepared spec
  let placed ← prepared.reposition (spec.placement prepared.photo.size)
  let cutout ← placed.cutoutWithReflection spec.background spec.reflection
  -- the mask that is handed out is the cleaned one before any straightening
  return { mask := (c.cleaned spec.threshold).mask, placed := placed.toCut, cutout := cutout }

end Composer

end Montage
