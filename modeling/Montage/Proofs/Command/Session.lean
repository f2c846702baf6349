import Montage.Proofs.Command.Disk
import Montage.Proofs.Command.Product
/-!
# Sessions — a command does all of its work or nothing

A command computes before it acts (`Command.splits_execute`). So a fault of the
computation leaves a session as it was, and what fails after that is a failure
of storage (`Failure.OfStorage`), of which the computation has none
(`harmless_product`). Each step of putting things away fails in that way only,
prints nothing, and changes the disk as it should (`PutsAway`).

What a command keeps when it succeeds is then a matter of its product
(`executeIn_eq_ok`).
-/

namespace Montage

/-! ## Failures of the computation -/

/-- A failure to put away what a command has made. -/
def Failure.OfStorage (f : Failure) : Prop :=
  ∃ path, f.activity = some (.writing path) ∨ f.activity = some (.creatingDirectory path)

/-- What fails on its own account is not storage. -/
theorem not_ofStorage_of_none (r : Reason) : ¬Failure.OfStorage ⟨none, r⟩ := by
  rintro ⟨path, h | h⟩
  · cases h
  · cases h

/-- A result that is no failure of storage. -/
def Harmless {α : Type} (r : Except Failure α) : Prop := ∀ f, r = .error f → ¬f.OfStorage

section

variable {α β : Type}

theorem harmless_ok (a : α) : Harmless (.ok a) := by
  intro f h
  cases h

theorem harmless_error {f : Failure} (h : ¬f.OfStorage) :
    Harmless (.error f : Except Failure α) := by
  intro f' hf'
  cases hf'
  exact h

theorem Harmless.bind {r : Except Failure α} {k : α → Except Failure β} (hr : Harmless r)
    (hk : ∀ a, Harmless (k a)) : Harmless (r >>= k) := by
  cases r with
  | error f => exact harmless_error (hr f rfl)
  | ok a => exact hk a

theorem Harmless.map {r : Except Failure α} (hr : Harmless r) (g : α → β) : Harmless (r.map g) := by
  cases r with
  | error f => exact harmless_error (hr f rfl)
  | ok a => exact harmless_ok (g a)

/-- A fault while a command is about something else. -/
theorem harmless_during {a : Activity}
    (ha : ∀ path, a ≠ .writing path ∧ a ≠ .creatingDirectory path) (r : Except Fault α) : Harmless (during a r) := by
  cases r with
  | ok v => exact harmless_ok v
  | error f =>
    refine harmless_error ?_
    rintro ⟨path, h | h⟩
    · exact (ha path).1 (Option.some.inj h)
    · exact (ha path).2 (Option.some.inj h)

theorem harmless_unexplained (r : Except Fault α) : Harmless (unexplained r) := by
  cases r with
  | ok v => exact harmless_ok v
  | error f => exact harmless_error (not_ofStorage_of_none _)

end

theorem harmless_settingsIn (files : Files) (path : Option String) :
    Harmless (settingsIn files path) := by
  cases path with
  | none => exact harmless_ok _
  | some path => exact harmless_during (by simp) _

section

variable [Codecs]

theorem harmless_openedPicture (role : Role) (path : String)
    (content : Except FileTrouble (List UInt8)) : Harmless (openedPicture role path content) := by
  rw [openedPicture]
  cases readPicture path content with
  | ok p => exact harmless_ok p
  | error e => exact harmless_error (not_ofStorage_of_none _)

/-- **Nothing is put away during the computation**, so none of its faults is
one of storage. -/
theorem harmless_product (files : Files) (c : Command) : Harmless (c.product files) := by
  have hphoto : ∀ path, Harmless (photoIn files path) := fun path =>
    (harmless_openedPicture .photo path _).map _
  have hmask : ∀ path, Harmless (maskIn files path) := fun path =>
    (harmless_openedPicture .mask path _).map _
  refine (harmless_settingsIn files c.settings).bind fun settings => ?_
  cases c.job with
  | reposition photo mask outPhoto outMask overrides =>
    refine (hphoto photo).bind fun p => (hmask mask).bind fun m => ?_
    exact (harmless_during (by simp) _).bind fun placed => harmless_ok _
  | fitNgon mask sides =>
    refine (hmask mask).bind fun m => ?_
    exact (harmless_during (by simp) _).bind fun ngon => harmless_ok _
  | fitRect mask =>
    refine (hmask mask).bind fun m => ?_
    exact (harmless_during (by simp) _).bind fun box => harmless_ok _
  | segment photo mask directory straighten reflection overrides =>
    refine (hphoto photo).bind fun p => (hmask mask).bind fun m => ?_
    refine (harmless_unexplained _).bind fun composer => ?_
    exact (harmless_during (by simp) _).bind fun made => harmless_ok _
  | face photo landmarks directory overrides =>
    refine (hphoto photo).bind fun p => (harmless_during (by simp) _).bind fun faces => ?_
    refine (harmless_unexplained _).bind fun m => (harmless_unexplained _).bind fun cut => ?_
    exact (harmless_unexplained _).bind fun placed => harmless_ok _

end

/-! ## Putting things away -/

/-- A step that puts something away in a session. It fails for want of storage
only and prints nothing. Where it succeeds, what it yields and the change of the
disk are as `P` says. -/
def PutsAway {α : Type} (act : ExceptT Failure (StateM Session) α)
    (P : α → Disk → Disk → Prop) : Prop :=
  ∀ s, (act.run.run s).2.printed = s.printed ∧
    match (act.run.run s).1 with
    | .error f => f.OfStorage
    | .ok a => P a s.disk (act.run.run s).2.disk

section

variable {α β : Type} {act : ExceptT Failure (StateM Session) α} {P P' : α → Disk → Disk → Prop}

theorem putsAway_pure (a : α) :
    PutsAway (pure a : ExceptT Failure (StateM Session) α) fun a' d d' => a' = a ∧ d' = d :=
  fun _ => ⟨rfl, rfl, rfl⟩

theorem PutsAway.bind {k : α → ExceptT Failure (StateM Session) β} {Q : β → Disk → Disk → Prop}
    (hact : PutsAway act P) (hk : ∀ a, PutsAway (k a) Q) :
    PutsAway (act >>= k) fun b d d' => ∃ a d₁, P a d d₁ ∧ Q b d₁ d' := by
  intro s
  obtain ⟨hprinted, hout⟩ := hact s
  rw [run_bind]
  rcases hcase : act.run.run s with ⟨f | a, s₁⟩
  · rw [hcase] at hprinted hout
    exact ⟨hprinted, hout⟩
  · rw [hcase] at hprinted hout
    obtain ⟨hprinted₁, hout₁⟩ := hk a s₁
    refine ⟨hprinted₁.trans hprinted, ?_⟩
    simp only
    revert hout₁
    cases ((k a).run.run s₁).1 with
    | error f => exact id
    | ok b => exact fun hout₁ => ⟨a, s₁.disk, hout, hout₁⟩

theorem PutsAway.mono (h : PutsAway act P) (hP : ∀ a d d', P a d d' → P' a d d') :
    PutsAway act P' := by
  intro s
  obtain ⟨hprinted, hout⟩ := h s
  refine ⟨hprinted, ?_⟩
  revert hout
  cases (act.run.run s).1 with
  | error f => exact id
  | ok a => exact hP a _ _

theorem run_liftM_bind (act : StateM Session α) (k : α → ExceptT Failure (StateM Session) β)
    (s : Session) :
    ((liftM act : ExceptT Failure (StateM Session) α) >>= k).run.run s =
      (k (act.run s).1).run.run (act.run s).2 := rfl

end

theorem run_write (path : String) (content : List UInt8) (s : Session) :
    (Storage.write path content : StateM Session _).run s =
      match s.disk.write path content with
      | .ok d => (.ok (), { s with disk := d })
      | .error t => (.error t, s) := rfl

theorem run_createDirectory (path : String) (s : Session) :
    (Storage.createDirectory path : StateM Session _).run s =
      ((s.disk.createDirectory path).1, { s with disk := (s.disk.createDirectory path).2 }) := rfl

theorem putsAway_makeDirectory (path : String) :
    PutsAway (makeDirectory path) fun _ d d' => d.createDirectory path = (.ok (), d') := by
  intro s
  unfold makeDirectory
  simp only [run_liftM_bind, run_createDirectory]
  rcases s.disk.createDirectory path with ⟨t | _, d⟩
  · exact ⟨rfl, path, .inr rfl⟩
  · exact ⟨rfl, rfl⟩

variable [Codecs]

/-- A file that an output is written to: the picture in the format that the path
asks for. -/
def Output.FiledAs (o : Output) (f : String × List UInt8) : Prop :=
  f.1 = o.path ∧ ∃ format, formatFor o.path = .ok format ∧ format.encode o.picture = .ok f.2

/-- **Storing a picture** writes the file for it. -/
theorem putsAway_save (o : Output) :
    PutsAway o.save fun _ d d' => ∃ f, o.FiledAs f ∧ d.write f.1 f.2 = .ok d' := by
  intro s
  unfold Output.save savePicture
  cases hformat : formatFor o.path with
  | error flaw => exact ⟨rfl, o.path, .inl rfl⟩
  | ok format =>
    simp only [run_liftM_bind, run_write]
    cases hencode : format.encode o.picture with
    | error flaw =>
      cases s.disk.write o.path ((Except.error flaw : Except CodecFlaw _).toOption.getD []) with
      | error t => exact ⟨rfl, o.path, .inl rfl⟩
      | ok d => exact ⟨rfl, o.path, .inl rfl⟩
    | ok bytes =>
      cases hwrite : s.disk.write o.path
        ((Except.ok bytes : Except CodecFlaw _).toOption.getD []) with
      | error t => exact ⟨rfl, o.path, .inl rfl⟩
      | ok d => exact ⟨rfl, (o.path, bytes), ⟨rfl, format, hformat, hencode⟩, hwrite⟩

/-- **Storing pictures** writes the files for them, one after the other. -/
theorem putsAway_saveAll (outputs : List Output) :
    PutsAway (saveAll outputs) fun _ d d' =>
      ∃ files, List.Forall₂ Output.FiledAs outputs files ∧ d.writeAll files = .ok d' := by
  induction outputs with
  | nil =>
    refine (putsAway_pure ()).mono fun _ d d' h => ?_
    exact ⟨[], .nil, by rw [h.2]; rfl⟩
  | cons o rest ih =>
    refine ((putsAway_save o).bind fun _ => ih).mono ?_
    rintro _ d d' ⟨_, d₁, ⟨f, hf, hwrite⟩, files, hfiles, hrest⟩
    exact ⟨f :: files, .cons hf hfiles, bind_eq_ok_iff.mpr ⟨d₁, hwrite, hrest⟩⟩

/-- The disk that pictures are stored on, after a directory has been made for
them. -/
def Disk.Stored (d : Disk) (directory : Option String) (outputs : List Output) (d' : Disk) :
    Prop :=
  ∃ d₁ files, (match directory with
      | some path => d.createDirectory path = (.ok (), d₁)
      | none => d₁ = d) ∧
    List.Forall₂ Output.FiledAs outputs files ∧ d₁.writeAll files = .ok d'

theorem putsAway_pictures (directory : Option String) (outputs : List Output) :
    PutsAway (Product.keep (.pictures directory outputs)) fun _ d d' =>
      d.Stored directory outputs d' := by
  cases directory with
  | none =>
    refine (putsAway_saveAll outputs).mono ?_
    rintro _ d d' ⟨files, hfiles, hwrite⟩
    exact ⟨d, files, rfl, hfiles, hwrite⟩
  | some path =>
    refine ((putsAway_makeDirectory path).bind fun _ => putsAway_saveAll outputs).mono ?_
    rintro _ d d' ⟨_, d₁, hmade, files, hfiles, hwrite⟩
    exact ⟨d₁, files, hmade, hfiles, hwrite⟩

/-! ## Executing a command -/

variable {c : Command} {s : Session}

/-- A command whose product cannot be computed leaves a session as it is. -/
theorem executeIn_of_error {f : Failure} (h : c.product s.disk.read = .error f) :
    c.executeIn s = (.error f, s) := by
  rw [Command.executeIn, c.splits_execute s]
  simp only [h]

/-- What a product leaves behind: a report is printed, and pictures are stored. -/
def Product.Kept (s s' : Session) : Product → Prop
  | .report value => s' = { s with printed := s.printed ++ [⟨value.text⟩] }
  | .pictures directory outputs =>
    s'.printed = s.printed ∧ s.disk.Stored directory outputs s'.disk

/-- **A command with a product** keeps it, or fails to store it. -/
theorem executeIn_of_ok {product : Product} (h : c.product s.disk.read = .ok product) :
    match c.executeIn s with
    | (.error f, s') => f.OfStorage ∧ s'.printed = s.printed
    | (.ok (), s') => product.Kept s s' := by
  rw [Command.executeIn, c.splits_execute s]
  simp only [h]
  cases product with
  | report value => rfl
  | pictures directory outputs =>
    obtain ⟨hprinted, hout⟩ := putsAway_pictures directory outputs s
    rcases hcase : (Product.keep (.pictures directory outputs) :
      ExceptT Failure (StateM Session) _).run.run s with ⟨f | _, s'⟩
    · rw [hcase] at hprinted hout
      exact ⟨hout, hprinted⟩
    · rw [hcase] at hprinted hout
      exact ⟨hprinted, hout⟩

/-- **What succeeds has been computed and kept.** -/
theorem executeIn_eq_ok {s' : Session} (h : c.executeIn s = (.ok (), s')) :
    ∃ product, c.product s.disk.read = .ok product ∧ product.Kept s s' := by
  cases hproduct : c.product s.disk.read with
  | error f =>
    rw [executeIn_of_error hproduct] at h
    cases h
  | ok product =>
    have hkept := executeIn_of_ok hproduct
    rw [h] at hkept
    exact ⟨product, rfl, hkept⟩

/-- **What fails has failed to be stored, or has not been computed.** Nothing is
printed in either case. -/
theorem executeIn_eq_error {f : Failure} {s' : Session} (h : c.executeIn s = (.error f, s')) :
    s'.printed = s.printed ∧ (f.OfStorage ∨ c.product s.disk.read = .error f ∧ s' = s) := by
  cases hproduct : c.product s.disk.read with
  | error f' =>
    rw [executeIn_of_error hproduct] at h
    cases h
    exact ⟨rfl, .inr ⟨rfl, rfl⟩⟩
  | ok product =>
    have hkept := executeIn_of_ok hproduct
    rw [h] at hkept
    exact ⟨hkept.2, .inl hkept.1⟩

end Montage
