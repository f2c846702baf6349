import Montage.Proofs.Codec.Exchange
import Montage.Proofs.Command.Session
/-!
# Outcomes — what a finished job leaves behind

A job that stores pictures changes the files that their paths lead to, makes the
directory for them if it must, and touches nothing else (`Stored.changed`). A
picture's bytes are where it was stored, unless a later one was put in its place
(`Stored.shows`); in a directory of their own, pictures have different names, and
so all of them are there (`Stored.filled`). From a PNG the picture itself is read
back, and so a command works on what the one before it has stored
(`Shows.photoIn_eq`, `Shows.maskIn_eq`).

`Job.Done` lists what is left behind by each job. A command does all of this, or
fails (`execute_all_or_nothing`).
-/

namespace Montage

/-! ## What is stored -/

namespace Disk

/-- What may have changed on a disk: the files that some paths lead to. And a
directory may have been made, with those on the way to it. -/
structure Changed (d : Disk) (directory : Option String) (paths : List String) (d' : Disk) :
    Prop where
  home : d'.home = d.home
  directories : ∀ l, d.entry? l = some .directory → d'.entry? l = some .directory
  entries : ∀ l, d'.entry? l ≠ d.entry? l → (∃ path ∈ paths, d'.locate path = .ok l) ∨
    d.entry? l = none ∧ d'.entry? l = some .directory ∧
      ∃ path ∈ directory, ∃ way, way <+: Path.names path ∧ d'.walk (d.origin path) way = .ok l

variable [Codecs]

/-- A disk has a picture in a file, in a format. The file holds its bytes, and
from a PNG the picture is read back, unless it has too many samples. -/
structure Shows (d : Disk) (path : String) (format : Format) (p : Picture) : Prop where
  content : ∃ bytes, format.encode p = .ok bytes ∧ d.read path = .ok bytes
  reopened : format = .png → p.size.Readable (Picture.channels p.colored p.transparent) →
    readPicture path (d.read path) = .ok p

/-- A directory has received some pictures, each under its name. -/
structure Filled (d : Disk) (directory : String) (pictures : List (String × Picture)) (d' : Disk) :
    Prop where
  changed : d.Changed (some directory) (pictures.map fun p => Path.join directory p.1) d'
  shows : ∀ p ∈ pictures, d'.Shows (Path.join directory p.1) .png p.2

variable {d d' : Disk} {directory : Option String} {outputs before after : List Output}
  {o : Output} {files : List (String × List UInt8)}

/-- **The bytes of a PNG show its picture.** -/
theorem shows_of_read {path : String} {format : Format} {p : Picture} {bytes : List UInt8}
    (hp : p.IsPlain) (hformat : formatFor path = .ok format)
    (hencode : format.encode p = .ok bytes) (hread : d.read path = .ok bytes) :
    d.Shows path format p where
  content := ⟨bytes, hencode, hread⟩
  reopened hpng hreadable := by
    subst hpng
    have hopen : readPicture path (.ok bytes) = Png.decode bytes := by
      simp only [readPicture, ofExtension?_of_formatFor hformat]
      rfl
    rw [hread, hopen]
    exact Png.decode_of_encode hp hencode hreadable

section

variable {path : String} {p : Picture}

/-- **A picture that has been stored as a PNG is opened again**, whatever part it
plays then. -/
theorem Shows.pictureIn_eq {α : Type} (h : d.Shows path .png p)
    (hreadable : p.size.Readable (Picture.channels p.colored p.transparent)) (role : Role)
    (convert : Picture → α) : pictureIn d.read role convert path = .ok (convert p) := by
  rw [pictureIn, openedPicture, h.reopened rfl hreadable]
  rfl

/-- So a photo that one command has stored is the photo of the next one. -/
theorem Shows.photoIn_eq {photo : Photo} (h : d.Shows path .png (.ofPhoto photo))
    (hreadable : photo.size.Readable 3) : photoIn d.read path = .ok photo := by
  rw [photoIn, h.pictureIn_eq hreadable, toPhoto_ofPhoto]

theorem Shows.maskIn_eq {mask : Mask} (h : d.Shows path .png (.ofMask mask))
    (hreadable : mask.size.Readable 1) : maskIn d.read path = .ok mask := by
  rw [maskIn, h.pictureIn_eq hreadable, toMask_ofMask]

end

theorem map_fst_of_filedAs (h : List.Forall₂ Output.FiledAs outputs files) :
    files.map Prod.fst = outputs.map Output.path := by
  induction h with
  | nil => rfl
  | cons hf _ ih => rw [List.map_cons, List.map_cons, hf.1, ih]

/-- An output's file has those of the later outputs behind it. -/
theorem exists_split_of_filedAs (h : List.Forall₂ Output.FiledAs (before ++ o :: after) files) :
    ∃ files₁ f files₂, files = files₁ ++ f :: files₂ ∧ o.FiledAs f ∧
      List.Forall₂ Output.FiledAs after files₂ := by
  induction before generalizing files with
  | nil =>
    cases h with
    | cons hf hafter => exact ⟨[], _, _, rfl, hf, hafter⟩
  | cons first rest ih =>
    cases h with
    | cons _ hrest =>
      obtain ⟨files₁, f, files₂, rfl, hf, hafter⟩ := ih hrest
      exact ⟨_ :: files₁, f, files₂, rfl, hf, hafter⟩

/-- **Storing pictures changes nothing else.** -/
theorem Stored.changed (h : d.Stored directory outputs d') :
    d.Changed directory (outputs.map Output.path) d' := by
  obtain ⟨d₁, files, hmade, hfiles, hwrite⟩ := h
  have hreceived := received_writeAll hwrite
  -- a location has kept what it had when the directory was made, or a file was put there
  have hsplit : ∀ l, d'.entry? l = d₁.entry? l ∨
      ∃ path ∈ outputs.map Output.path, d'.locate path = .ok l := by
    intro l
    by_cases hpath : ∃ f ∈ files, d₁.locate f.1 = .ok l
    · obtain ⟨f, hf, hl⟩ := hpath
      refine .inr ⟨f.1, ?_, (locate_of_directories hreceived.directories f.1).mpr hl⟩
      rw [← map_fst_of_filedAs hfiles]
      exact List.mem_map_of_mem hf
    · exact .inl (hreceived.untouched l fun f hf hl => hpath ⟨f, hf, hl⟩)
  cases directory with
  | none =>
    obtain rfl : d₁ = d := hmade
    exact ⟨hreceived.directories.home, fun l => (hreceived.directories.directory l).mpr,
      fun l hl => .inl ((hsplit l).resolve_left hl)⟩
  | some path =>
    have hfurnished := furnished_createDirectory hmade
    refine ⟨hreceived.directories.home.trans hfurnished.home, fun l hl =>
      (hreceived.directories.directory l).mpr (hfurnished.entry?_eq hl), fun l hl => ?_⟩
    rcases hsplit l with hsame | hpath
    · rw [hsame] at hl
      obtain ⟨hnone, hnew, way, hway, hwalk⟩ := hfurnished.changes l hl
      exact .inr ⟨hnone, hsame.trans hnew, path, rfl, way, hway,
        (walk_of_directories hreceived.directories _ way).mpr hwalk⟩
    · exact .inl hpath

/-- **A stored picture is shown**, unless a later one was put in its place. -/
theorem Stored.shows (before : List Output) (o : Output) (after : List Output)
    (hplain : o.picture.IsPlain)
    (h : d.Stored directory (before ++ o :: after) d')
    (hlater : ∀ l, d'.locate o.path = .ok l → ∀ o' ∈ after, d'.locate o'.path ≠ .ok l) :
    ∃ format, formatFor o.path = .ok format ∧ d'.Shows o.path format o.picture := by
  obtain ⟨d₁, files, -, hfiles, hwrite⟩ := h
  have hreceived := received_writeAll hwrite
  obtain ⟨files₁, f, files₂, rfl, ⟨hpath, format, hformat, hencode⟩, hafter⟩ :=
    exists_split_of_filedAs hfiles
  have hlocate := fun path l => locate_of_directories (l := l) hreceived.directories path
  refine ⟨format, hformat, shows_of_read hplain hformat hencode ?_⟩
  rw [← hpath] at hlater ⊢
  refine hreceived.read_back files₁ f.1 f.2 files₂ rfl fun l hl g hg => ?_
  have hg' : g.1 ∈ after.map Output.path := by
    rw [← map_fst_of_filedAs hafter]
    exact List.mem_map_of_mem hg
  obtain ⟨o', ho', hpath'⟩ := List.mem_map.mp hg'
  rw [← hpath', Ne, ← hlocate]
  exact hlater l ((hlocate f.1 l).mpr hl) o' ho'

/-- **Pictures of different names** fill a directory. -/
theorem Stored.filled {directory : String} {pictures : List (String × Picture)}
    {names : List String}
    (h : d.Stored (some directory) (pictures.map fun p => ⟨Path.join directory p.1, p.2⟩) d')
    (hnames : pictures.map Prod.fst = names) (hpng : ∀ name ∈ names, Path.Png name)
    (hplain : ∀ p ∈ pictures, p.2.IsPlain) (hdistinct : names.Nodup) :
    d.Filled directory pictures d' := by
  have hchanged := h.changed
  rw [List.map_map] at hchanged
  refine ⟨hchanged, fun p hp => ?_⟩
  obtain ⟨before, after, rfl⟩ := List.append_of_mem hp
  rw [List.map_append, List.map_cons] at h hnames
  subst hnames
  have hp' : Path.Png p.1 := hpng p.1 (List.mem_append_right _ List.mem_cons_self)
  obtain ⟨hnew, -⟩ := List.nodup_cons.mp (List.nodup_append.mp hdistinct).2.1
  obtain ⟨format, hformat, hshows⟩ := Stored.shows _ _ _ (hplain p hp) h <| by
    intro l hl o ho
    obtain ⟨q, hq, rfl⟩ := List.mem_map.mp ho
    have hq' : q.1 ∈ after.map Prod.fst := List.mem_map_of_mem hq
    have hne : p.1 ≠ q.1 := fun heq => hnew (heq ▸ hq')
    exact locate_join_ne hp'.toPlain
      (hpng q.1 (List.mem_append_right _ (List.mem_cons_of_mem _ hq'))).toPlain hne hl
  rw [formatFor_join_png directory hp'] at hformat
  cases hformat
  exact hshows

end Disk

/-! ## What a job leaves behind -/

theorem during_eq_ok {α : Type} {a : Activity} {r : Except Fault α} {v : α} :
    during a r = .ok v ↔ r = .ok v := by
  cases r <;> simp [during]

theorem unexplained_eq_ok {α : Type} {r : Except Fault α} {v : α} :
    unexplained r = .ok v ↔ r = .ok v := by
  cases r <;> simp [unexplained]

/-- The names under which segmenting stores its pictures. -/
def segmentNames : List String := ["mask.png", "resized.png", "resized_mask.png", "cutout.png"]

/-- The names under which the pictures of a face are stored. -/
def faceNames : List String :=
  ["face_mask.png", "face_cutout.png", "face_resized.png", "face_resized_mask.png"]

theorem png_of_mem {name : String} (h : name ∈ segmentNames ++ faceNames) : Path.Png name := by
  simp only [segmentNames, faceNames, List.cons_append, List.nil_append, List.mem_cons,
    List.not_mem_nil, or_false] at h
  rcases h with rfl | rfl | rfl | rfl | rfl | rfl | rfl | rfl <;>
    exact ⟨⟨by decide, by decide, by decide, by decide⟩, _, by decide, rfl⟩

variable [Codecs]

/-- **What a job has done** under the given settings, in a session: which values
it has computed from its files, what it has printed, and what it has stored. -/
def Job.Done (settings : Settings) (s s' : Session) : Job → Prop
  | .reposition photo mask outPhoto outMask overrides => ∃ p m placed,
    photoIn s.disk.read photo = .ok p ∧ maskIn s.disk.read mask = .ok m ∧
    Montage.reposition p m (overrides.apply settings.placement) = .ok placed ∧
    s'.printed = s.printed ∧ s.disk.Changed none [outPhoto, outMask] s'.disk ∧
    (∃ format, formatFor outMask = .ok format ∧
      s'.disk.Shows outMask format (.ofMask placed.mask)) ∧
    -- the mask takes the place of the photo if both paths lead there
    ((∀ l, s'.disk.locate outPhoto = .ok l → s'.disk.locate outMask ≠ .ok l) →
      ∃ format, formatFor outPhoto = .ok format ∧
        s'.disk.Shows outPhoto format (.ofPhoto placed.photo))
  | .fitNgon mask sides => ∃ m, ∃ ngon : Polygon Float,
    maskIn s.disk.read mask = .ok m ∧ m.fitNgon sides = .ok ngon ∧
    s' = { s with printed := s.printed ++ [⟨ngon.reported.text⟩] }
  | .fitRect mask => ∃ m, ∃ box : UprightBox Float,
    maskIn s.disk.read mask = .ok m ∧ m.fitBox = .ok box ∧
    s' = { s with printed := s.printed ++ [⟨box.reported.text⟩] }
  | .segment photo mask directory straighten reflection overrides => ∃ p m composer made,
    photoIn s.disk.read photo = .ok p ∧ maskIn s.disk.read mask = .ok m ∧
    Composer.ofParts p m = .ok composer ∧
    composer.segment (overrides.applyToSegmentation
      { settings.segmentation with
        straighten := settings.segmentation.straighten || straighten
        reflection := reflection.getD settings.segmentation.reflection } p.size) = .ok made ∧
    s'.printed = s.printed ∧
    s.disk.Filled directory
      [("mask.png", .ofMask made.mask), ("resized.png", .ofPhoto made.placed.photo),
        ("resized_mask.png", .ofMask made.placed.mask), ("cutout.png", .ofPhoto made.cutout)]
      s'.disk
  | .face photo landmarks directory overrides => ∃ p faces m cut placed,
    photoIn s.disk.read photo = .ok p ∧
    readText Face.ofDocument (s.disk.read landmarks) = .ok faces ∧
    faceMask p.size (.ok faces)
      { settings.face with placement := overrides.apply settings.face.placement } = .ok m ∧
    faceCutout p m = .ok cut ∧
    repositionFace p (.ok faces)
      { settings.face with placement := overrides.apply settings.face.placement } = .ok placed ∧
    s'.printed = s.printed ∧
    s.disk.Filled directory
      [("face_mask.png", .ofMask m), ("face_cutout.png", .ofPhoto cut),
        ("face_resized.png", .ofPhoto placed.photo),
        ("face_resized_mask.png", .ofMask placed.mask)]
      s'.disk

/-- **A job whose product is kept is done.** -/
theorem Job.done_of_kept {settings : Settings} {s s' : Session} {job : Job} {product : Product}
    (h : job.product s.disk.read settings = .ok product) (hkept : product.Kept s s') :
    job.Done settings s s' := by
  cases job with
  | reposition photo mask outPhoto outMask overrides =>
    obtain ⟨p, hp, h⟩ := bind_eq_ok_iff.mp h
    obtain ⟨m, hm, h⟩ := bind_eq_ok_iff.mp h
    obtain ⟨placed, hplaced, h⟩ := bind_eq_ok_iff.mp h
    cases h
    obtain ⟨hprinted, hstored⟩ := hkept
    refine ⟨p, m, placed, hp, hm, during_eq_ok.mp hplaced, hprinted, hstored.changed, ?_, ?_⟩
    · refine Disk.Stored.shows [.photo outPhoto placed.photo] (.mask outMask placed.mask) []
        (isPlain_ofMask placed.mask) hstored ?_
      intro l _ o' ho'
      cases ho'
    · intro hplaces
      refine Disk.Stored.shows [] (.photo outPhoto placed.photo) [.mask outMask placed.mask]
        (isPlain_ofPhoto placed.photo) hstored ?_
      intro l hl o' ho'
      obtain rfl := List.mem_singleton.mp ho'
      exact hplaces l hl
  | fitNgon mask sides =>
    obtain ⟨m, hm, h⟩ := bind_eq_ok_iff.mp h
    obtain ⟨ngon, hngon, h⟩ := bind_eq_ok_iff.mp h
    cases h
    exact ⟨m, ngon, hm, during_eq_ok.mp hngon, hkept⟩
  | fitRect mask =>
    obtain ⟨m, hm, h⟩ := bind_eq_ok_iff.mp h
    obtain ⟨box, hbox, h⟩ := bind_eq_ok_iff.mp h
    cases h
    exact ⟨m, box, hm, during_eq_ok.mp hbox, hkept⟩
  | segment photo mask directory straighten reflection overrides =>
    obtain ⟨p, hp, h⟩ := bind_eq_ok_iff.mp h
    obtain ⟨m, hm, h⟩ := bind_eq_ok_iff.mp h
    obtain ⟨composer, hcomposer, h⟩ := bind_eq_ok_iff.mp h
    obtain ⟨made, hmade, h⟩ := bind_eq_ok_iff.mp h
    cases h
    obtain ⟨hprinted, hstored⟩ := hkept
    refine ⟨p, m, composer, made, hp, hm, unexplained_eq_ok.mp hcomposer, during_eq_ok.mp hmade,
      hprinted, ?_⟩
    exact Disk.Stored.filled hstored (rfl : _ = segmentNames)
      (fun _ h => png_of_mem (List.mem_append_left _ h))
      (by simp [isPlain_ofMask, isPlain_ofPhoto]) (by decide)
  | face photo landmarks directory overrides =>
    obtain ⟨p, hp, h⟩ := bind_eq_ok_iff.mp h
    obtain ⟨faces, hfaces, h⟩ := bind_eq_ok_iff.mp h
    obtain ⟨m, hm, h⟩ := bind_eq_ok_iff.mp h
    obtain ⟨cut, hcut, h⟩ := bind_eq_ok_iff.mp h
    obtain ⟨placed, hplaced, h⟩ := bind_eq_ok_iff.mp h
    cases h
    obtain ⟨hprinted, hstored⟩ := hkept
    refine ⟨p, faces, m, cut, placed, hp, during_eq_ok.mp hfaces, unexplained_eq_ok.mp hm,
      unexplained_eq_ok.mp hcut, unexplained_eq_ok.mp hplaced, hprinted, ?_⟩
    exact Disk.Stored.filled hstored (rfl : _ = faceNames)
      (fun _ h => png_of_mem (List.mem_append_right _ h))
      (by simp [isPlain_ofMask, isPlain_ofPhoto]) (by decide)

/-! ## All or nothing -/

/-- **A command does all of its work or nothing.** Where it fails, nothing has
been printed; and unless the failure is one of storage, nothing has been put
away either, as is so whenever its product cannot be computed. Where it
succeeds, its job is done. -/
theorem execute_all_or_nothing (c : Command) (s : Session) :
    (∀ f s', c.executeIn s = (.error f, s') →
      s'.printed = s.printed ∧ (f.OfStorage ∨ c.product s.disk.read = .error f ∧ s' = s)) ∧
    (∀ f, c.product s.disk.read = .error f → ¬f.OfStorage ∧ c.executeIn s = (.error f, s)) ∧
    (∀ s', c.executeIn s = (.ok (), s') →
      ∃ settings, settingsIn s.disk.read c.settings = .ok settings ∧
        c.job.Done settings s s') := by
  refine ⟨fun f s' h => executeIn_eq_error h, fun f h => ?_, fun s' h => ?_⟩
  · exact ⟨harmless_product s.disk.read c f h, executeIn_of_error h⟩
  · obtain ⟨product, hproduct, hkept⟩ := executeIn_eq_ok h
    obtain ⟨settings, hsettings, hproduct⟩ := bind_eq_ok_iff.mp hproduct
    exact ⟨settings, hsettings, Job.done_of_kept hproduct hkept⟩

end Montage
