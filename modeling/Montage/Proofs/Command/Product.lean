import Montage.Command.Disk
/-!
# Products — a command computes before it acts

The steps of a command read files and compute, and then they leave something
behind. Those that read leave a session as it is, and what they come to is a
matter of the files alone (`Reads`). So a command in a session is a computation
on the files of its disk, `Command.product`, and after that the keeping of what
has been computed, `Product.keep`, which reads no more. `Command.splits_execute`
proves this step by step from how the command is executed: each of its first
steps reads (`Reads.splits`), and those that are left keep the product.
-/

namespace Montage

/-- The contents of files, by path. -/
abbrev Files := String → Except FileTrouble (List UInt8)

/-- A picture and the path it is to be stored under. -/
structure Output where
  path : String
  picture : Picture

/-- A photo under a path. -/
def Output.photo (path : String) (p : Photo) : Output := ⟨path, .ofPhoto p⟩

/-- A mask under a path. -/
def Output.mask (path : String) (m : Mask) : Output := ⟨path, .ofMask m⟩

/-- What a command makes. -/
inductive Product where
  /-- A value to be printed. -/
  | report (value : Json.Value)
  /-- Pictures to be stored, after a directory has been made for them. -/
  | pictures (directory : Option String) (outputs : List Output)

/-! ## Steps that read -/

section

variable {α β : Type} {act : ExceptT Failure (StateM Session) α} {r : Files → Except Failure α}

/-- A step that only looks at the files of a session. What it comes to depends
on their contents, and it leaves the session as it is. -/
def Reads (act : ExceptT Failure (StateM Session) α) (r : Files → Except Failure α) : Prop :=
  ∀ s, act.run.run s = (r s.disk.read, s)

/-- A computation does not even look. -/
theorem reads_liftM (r : Except Failure α) :
    Reads (liftM r : ExceptT Failure (StateM Session) α) fun _ => r :=
  fun _ => rfl

theorem reads_read (path : String) :
    Reads (liftM (Storage.read path : StateM Session _)) fun files => .ok (files path) :=
  fun _ => rfl

theorem run_bind (act : ExceptT Failure (StateM Session) α)
    (k : α → ExceptT Failure (StateM Session) β) (s : Session) :
    (act >>= k).run.run s =
      match act.run.run s with
      | (.error f, s₁) => (.error f, s₁)
      | (.ok a, s₁) => (k a).run.run s₁ := by
  rw [ExceptT.run_bind, StateT.run_bind]
  rcases act.run.run s with ⟨_ | _, _⟩ <;> rfl

/-- **What follows a step that reads** goes on in the same session. -/
theorem Reads.run_bind (h : Reads act r) (k : α → ExceptT Failure (StateM Session) β)
    (s : Session) :
    (act >>= k).run.run s =
      match r s.disk.read with
      | .error f => (.error f, s)
      | .ok a => (k a).run.run s := by
  rw [Montage.run_bind, h s]
  cases r s.disk.read <;> rfl

theorem Reads.bind {k : α → ExceptT Failure (StateM Session) β}
    {q : α → Files → Except Failure β} (h : Reads act r) (hk : ∀ a, Reads (k a) (q a)) :
    Reads (act >>= k) fun files => r files >>= fun a => q a files := by
  intro s
  rw [h.run_bind]
  simp only
  cases r s.disk.read with
  | error f => rfl
  | ok a => exact hk a s

end

/-! ## The computation -/

/-- The document in a file, which a command is about. -/
def documentIn {α : Type} (files : Files) (a : Activity) (read : String → Except Fault α)
    (path : String) : Except Failure α :=
  during a (readText read (files path))

/-- The settings in a file, or the default settings. -/
def settingsIn (files : Files) : Option String → Except Failure Settings
  | none => .ok {}
  | some path => documentIn files (.loadingSettings path) Settings.ofDocument path

section

variable [Codecs]

/-- The picture in a file, for the part that it plays. -/
def pictureIn {α : Type} (files : Files) (role : Role) (convert : Picture → α) (path : String) :
    Except Failure α :=
  (openedPicture role path (files path)).map convert

/-- The photo in a file. -/
def photoIn (files : Files) : (path : String) → Except Failure Photo :=
  pictureIn files .photo Picture.toPhoto

/-- The mask in a file. -/
def maskIn (files : Files) : (path : String) → Except Failure Mask :=
  pictureIn files .mask Picture.toMask

/-- What a job makes under the given settings. -/
def Job.product (files : Files) (settings : Settings) : Job → Except Failure Product
  | .reposition photoPath maskPath outPhoto outMask overrides => do
    let photo ← photoIn files photoPath
    let mask ← maskIn files maskPath
    let placed ←
      during .repositioning (Montage.reposition photo mask (overrides.apply settings.placement))
    return .pictures none [.photo outPhoto placed.photo, .mask outMask placed.mask]
  | .fitNgon maskPath sides => do
    let mask ← maskIn files maskPath
    let ngon : Polygon Float ← during (.fittingNgon sides maskPath) (mask.fitNgon sides)
    return .report ngon.reported
  | .fitRect maskPath => do
    let mask ← maskIn files maskPath
    let box : UprightBox Float ← during (.fittingRectangle maskPath) mask.fitBox
    return .report box.reported
  | .segment photoPath maskPath directory straighten reflection overrides => do
    let photo ← photoIn files photoPath
    let mask ← maskIn files maskPath
    let composer ← unexplained (Composer.ofParts photo mask)
    let made ← during .segmenting (composer.segment (overrides.applyToSegmentation
      { settings.segmentation with
        straighten := settings.segmentation.straighten || straighten
        reflection := reflection.getD settings.segmentation.reflection } photo.size))
    return .pictures (some directory)
      [.mask (Path.join directory "mask.png") made.mask,
        .photo (Path.join directory "resized.png") made.placed.photo,
        .mask (Path.join directory "resized_mask.png") made.placed.mask,
        .photo (Path.join directory "cutout.png") made.cutout]
  | .face photoPath landmarks directory overrides => do
    let spec := { settings.face with placement := overrides.apply settings.face.placement }
    let photo ← photoIn files photoPath
    let faces ← documentIn files (.readingLandmarks landmarks) Face.ofDocument landmarks
    let mask ← unexplained (faceMask photo.size (.ok faces) spec)
    let cutout ← unexplained (faceCutout photo mask)
    let placed ← unexplained (repositionFace photo (.ok faces) spec)
    return .pictures (some directory)
      [.mask (Path.join directory "face_mask.png") mask,
        .photo (Path.join directory "face_cutout.png") cutout,
        .photo (Path.join directory "face_resized.png") placed.photo,
        .mask (Path.join directory "face_resized_mask.png") placed.mask]

/-- **What a command makes of its files.** -/
def Command.product (files : Files) (c : Command) : Except Failure Product := do
  c.job.product files (← settingsIn files c.settings)

end

/-! ## Keeping what has been computed -/

section

variable {m : Type → Type} [Monad m] [Storage m] [Console m] [Codecs]

/-- Stores a picture under its path. -/
def Output.save (o : Output) : ExceptT Failure m Unit := savePicture o.path o.picture

/-- Stores pictures, one after the other. -/
def saveAll : List Output → ExceptT Failure m Unit
  | [] => return ()
  | o :: rest => do
    o.save
    saveAll rest

/-- Prints or stores a product. -/
def Product.keep : Product → ExceptT Failure m Unit
  | .report value => printReport value
  | .pictures none outputs => saveAll outputs
  | .pictures (some directory) outputs => do
    makeDirectory directory
    saveAll outputs

end

/-! ## One after the other -/

theorem reads_loadDocument {α : Type} (a : Activity) (read : String → Except Fault α)
    (path : String) : Reads (loadDocument a read path) fun files => documentIn files a read path :=
  (reads_read path).bind fun content => reads_liftM (during a (readText read content))

theorem reads_loadSettings (path : Option String) :
    Reads (loadSettings path) fun files => settingsIn files path := by
  cases path with
  | none => exact reads_liftM _
  | some path => exact reads_loadDocument _ _ path

variable [Codecs]

theorem reads_openPicture {α : Type} (role : Role) (convert : Picture → α) (path : String) :
    Reads (openPicture role convert path) fun files => pictureIn files role convert path := by
  intro s
  rw [openPicture, (reads_read path).run_bind]
  simp only
  rw [(reads_liftM _).run_bind, pictureIn]
  cases openedPicture role path (s.disk.read path) <;> rfl

theorem reads_openPhoto (path : String) :
    Reads (openPhoto path) fun files => photoIn files path :=
  reads_openPicture .photo Picture.toPhoto path

theorem reads_openMask (path : String) : Reads (openMask path) fun files => maskIn files path :=
  reads_openPicture .mask Picture.toMask path

/-- A program that computes a product from files, and after that keeps it. -/
def Splits (act : ExceptT Failure (StateM Session) Unit)
    (product : Files → Except Failure Product) : Prop :=
  ∀ s, act.run.run s =
    match product s.disk.read with
    | .error f => (.error f, s)
    | .ok p => (p.keep : ExceptT Failure (StateM Session) Unit).run.run s

/-- What keeps a product has nothing left to compute. -/
theorem splits_of_keep {act : ExceptT Failure (StateM Session) Unit} {p : Product}
    (h : p.keep = act) : Splits act fun _ => .ok p := by
  subst h
  exact fun _ => rfl

theorem keep_pair (o o' : Output) :
    (Product.pictures none [o, o']).keep =
      (do o.save; o'.save : ExceptT Failure (StateM Session) _) := by
  simp [Product.keep, saveAll]

theorem keep_four (directory : String) (o₁ o₂ o₃ o₄ : Output) :
    (Product.pictures (some directory) [o₁, o₂, o₃, o₄]).keep =
      (do makeDirectory directory; o₁.save; o₂.save; o₃.save; o₄.save :
        ExceptT Failure (StateM Session) _) := by
  simp [Product.keep, saveAll]

/-- **A step that reads comes before a program that splits.** -/
theorem Reads.splits {α : Type} {act : ExceptT Failure (StateM Session) α}
    {r : Files → Except Failure α} {k : α → ExceptT Failure (StateM Session) Unit}
    {q : α → Files → Except Failure Product} (h : Reads act r) (hk : ∀ a, Splits (k a) (q a)) :
    Splits (act >>= k) fun files => r files >>= fun a => q a files := by
  intro s
  rw [h.run_bind]
  simp only
  cases r s.disk.read with
  | error f => rfl
  | ok a => exact hk a s

/-- **Every job computes before it acts.** -/
theorem Job.splits_execute (settings : Settings) (job : Job) :
    Splits (job.execute settings) fun files => job.product files settings := by
  cases job with
  | reposition photoPath maskPath outPhoto outMask overrides =>
    refine (reads_openPhoto photoPath).splits fun photo => ?_
    refine (reads_openMask maskPath).splits fun mask => ?_
    refine (reads_liftM (during .repositioning _)).splits fun placed => ?_
    exact splits_of_keep (keep_pair (.photo outPhoto placed.photo) (.mask outMask placed.mask))
  | fitNgon maskPath sides =>
    refine (reads_openMask maskPath).splits fun mask => ?_
    refine (reads_liftM (during _ _)).splits fun ngon => ?_
    exact splits_of_keep (p := .report ngon.reported) rfl
  | fitRect maskPath =>
    refine (reads_openMask maskPath).splits fun mask => ?_
    refine (reads_liftM (during _ _)).splits fun box => ?_
    exact splits_of_keep (p := .report box.reported) rfl
  | segment photoPath maskPath directory straighten reflection overrides =>
    refine (reads_openPhoto photoPath).splits fun photo => ?_
    refine (reads_openMask maskPath).splits fun mask => ?_
    refine (reads_liftM (unexplained _)).splits fun composer => ?_
    refine (reads_liftM (during .segmenting _)).splits fun made => ?_
    exact splits_of_keep (keep_four directory _ _ _ _)
  | face photoPath landmarks directory overrides =>
    refine (reads_openPhoto photoPath).splits fun photo => ?_
    refine (reads_loadDocument _ _ landmarks).splits fun faces => ?_
    refine (reads_liftM (unexplained _)).splits fun mask => ?_
    refine (reads_liftM (unexplained _)).splits fun cutout => ?_
    refine (reads_liftM (unexplained _)).splits fun placed => ?_
    exact splits_of_keep (keep_four directory _ _ _ _)

/-- **A command computes before it acts.** -/
theorem Command.splits_execute (c : Command) : Splits c.execute fun files => c.product files :=
  (reads_loadSettings c.settings).splits fun settings => c.job.splits_execute settings

end Montage
