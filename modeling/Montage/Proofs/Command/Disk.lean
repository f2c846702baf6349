import Montage.Command.Disk
import Montage.Proofs.Command.Path
import Montage.Proofs.Fault
/-!
# Disks — what is written, and what stays

A path leads through directories, so where it leads depends on the directories
alone (`walk_of_directories`). Writing a file changes none of them. It puts the
file where its path leads (`write_eq_ok`), from where it is read back, and leaves
everything else (`entry?_put`). `Disk.Received` says this for a sequence of
files, of which a later one may take the place of an earlier one.

Making a directory puts directories where nothing was, on the way to it
(`Disk.Furnished`, `furnished_makeAll`).
-/

namespace Montage

namespace Disk

variable {d d' d₁ : Disk} {l l' : Location} {e : Entry} {path name : String}
  {content : List UInt8}

/-! ## Putting something somewhere -/

theorem entry?_of_ne_root (h : l ≠ []) : d.entry? l = d.entries.lookup l :=
  if_neg (by simpa using h)

theorem lookup_filter_of_ne (entries : List (Location × Entry)) (h : l' ≠ l) :
    (entries.filter fun p => p.1 != l).lookup l' = entries.lookup l' := by
  induction entries with
  | nil => rfl
  | cons p rest ih =>
    obtain ⟨k, e⟩ := p
    by_cases hk : k = l
    · subst hk
      rw [List.filter_cons_of_neg (by simp), ih, List.lookup_cons, beq_eq_false_iff_ne.mpr h]
    · rw [List.filter_cons_of_pos (by simpa using hk), List.lookup_cons, List.lookup_cons, ih]

/-- What is put at a location is there, and everything else is where it was. -/
theorem entry?_put (d : Disk) (hl : l ≠ []) (e : Entry) (l' : Location) :
    entry? (d.put l e) l' = if l' = l then some e else d.entry? l' := by
  by_cases hroot : l' = []
  · subst hroot
    rw [if_neg hl.symm]
    rfl
  · rw [entry?_of_ne_root hroot, entry?_of_ne_root hroot, put, List.lookup_cons]
    by_cases h : l' = l
    · rw [if_pos h, beq_iff_eq.mpr h]
    · rw [if_neg h, beq_eq_false_iff_ne.mpr h]
      exact lookup_filter_of_ne d.entries h

theorem entry?_put_self (d : Disk) (hl : l ≠ []) (e : Entry) : entry? (d.put l e) l = some e := by
  rw [entry?_put d hl, if_pos rfl]

theorem entry?_put_of_ne (d : Disk) (hl : l ≠ []) (e : Entry) (h : l' ≠ l) :
    entry? (d.put l e) l' = d.entry? l' := by
  rw [entry?_put d hl, if_neg h]

/-! ## Where paths lead -/

/-- **More directories lead further.** -/
theorem walk_mono (h : ∀ l, d.entry? l = some .directory → d'.entry? l = some .directory)
    {names : List String} (hwalk : d.walk l names = .ok l') : d'.walk l names = .ok l' := by
  induction names generalizing l with
  | nil => exact hwalk
  | cons name rest ih =>
    rw [walk] at hwalk ⊢
    obtain ⟨next, hnext, hwalk⟩ := bind_eq_ok_iff.mp hwalk
    refine bind_eq_ok_iff.mpr ⟨next, hnext, ?_⟩
    split at hwalk
    · next hdirectory =>
      rw [h next hdirectory]
      exact ih hwalk
    · cases hwalk
    · cases hwalk

/-- Two disks with the same directories, and the same working directory. -/
structure SameDirectories (d d' : Disk) : Prop where
  home : d'.home = d.home
  directory : ∀ l, d'.entry? l = some .directory ↔ d.entry? l = some .directory

theorem SameDirectories.refl (d : Disk) : d.SameDirectories d := ⟨rfl, fun _ => Iff.rfl⟩

theorem SameDirectories.trans {d'' : Disk} (h : d.SameDirectories d')
    (h' : d'.SameDirectories d'') : d.SameDirectories d'' :=
  ⟨h'.home.trans h.home, fun l => (h'.directory l).trans (h.directory l)⟩

/-- **Where names lead depends on the directories alone.** -/
theorem walk_of_directories (h : d.SameDirectories d') (l : Location) (names : List String) :
    d'.walk l names = .ok l' ↔ d.walk l names = .ok l' :=
  ⟨walk_mono fun l => (h.directory l).mp, walk_mono fun l => (h.directory l).mpr⟩

theorem start_of_home (h : d'.home = d.home) (path : String) : d'.start path = d.start path := by
  rw [start, start, h]

theorem locate_of_directories (h : d.SameDirectories d') (path : String) :
    d'.locate path = .ok l ↔ d.locate path = .ok l := by
  simp only [locate, above, start_of_home h.home, bind_eq_ok_iff, walk_of_directories h]

/-! ## Files -/

/-- **Writing puts a file where its path leads**, in the place of a file or of
nothing. -/
theorem write_eq_ok (h : d.write path content = .ok d') :
    ∃ l, d.locate path = .ok l ∧ l ≠ [] ∧ d.entry? l ≠ some .directory ∧
      Path.endsInSlash path = false ∧ d' = d.put l (.file content) := by
  obtain ⟨above, habove, h⟩ := bind_eq_ok_iff.mp h
  cases hslash : Path.endsInSlash path with
  | true =>
    rw [hslash] at h
    cases h
  | false =>
    rw [hslash] at h
    obtain ⟨l, hl, h⟩ := bind_eq_ok_iff.mp h
    have hlocate : d.locate path = .ok l := bind_eq_ok_iff.mpr ⟨above, habove, hl⟩
    have hfree : d.entry? l ≠ some .directory := by
      intro hdirectory
      rw [hdirectory] at h
      cases h
    refine ⟨l, hlocate, ?_, hfree, rfl, ?_⟩
    · rintro rfl
      exact hfree rfl
    · split at h
      · cases h
      · exact (Except.ok.inj h).symm

/-- A file changes no directory. -/
theorem sameDirectories_put (hl : l ≠ []) (hfree : d.entry? l ≠ some .directory)
    (content : List UInt8) : d.SameDirectories (d.put l (.file content)) where
  home := rfl
  directory l' := by
    rw [entry?_put d hl]
    split
    · next h =>
      subst h
      simp [hfree]
    · exact Iff.rfl

theorem read_of_locate (hlocate : d.locate path = .ok l) (hslash : Path.endsInSlash path = false)
    (hl : d.entry? l = some (.file content)) : d.read path = .ok content := by
  simp only [read, hlocate, bind, Except.bind, hl, hslash]
  rfl

/-! ## Several files, one after the other -/

/-- The disk with the given files written one after the other. -/
def writeAll (d : Disk) : List (String × List UInt8) → Except FileTrouble Disk
  | [] => .ok d
  | (path, content) :: rest => d.write path content >>= fun d' => d'.writeAll rest

/-- **A disk that has received some files.** No directory has changed, nor has
anything that no path leads to. Each file is read back, unless a later one was
put in its place. -/
structure Received (d : Disk) (files : List (String × List UInt8)) (d' : Disk) : Prop where
  directories : d.SameDirectories d'
  untouched : ∀ l, (∀ f ∈ files, d.locate f.1 ≠ .ok l) → d'.entry? l = d.entry? l
  read_back : ∀ before path content after, files = before ++ (path, content) :: after →
    (∀ l, d.locate path = .ok l → ∀ f ∈ after, d.locate f.1 ≠ .ok l) →
      d'.read path = .ok content

theorem received_nil (d : Disk) : d.Received [] d where
  directories := .refl d
  untouched _ _ := rfl
  read_back before path content after h := by
    have := congrArg List.length h
    simp at this

theorem Received.cons {files : List (String × List UInt8)} (h₁ : d₁.Received files d')
    (h : d.write path content = .ok d₁) : d.Received ((path, content) :: files) d' := by
  obtain ⟨l, hlocate, hl, hfree, hslash, rfl⟩ := write_eq_ok h
  have hsame := sameDirectories_put hl hfree content
  refine ⟨hsame.trans h₁.directories, fun l' hl' => ?_, fun before path' content' after hfiles hlater => ?_⟩
  · have hne : l' ≠ l := by
      rintro rfl
      exact hl' _ List.mem_cons_self hlocate
    rw [h₁.untouched l' fun f hf => mt (locate_of_directories hsame f.1).mp
      (hl' f (List.mem_cons_of_mem _ hf)), entry?_put_of_ne d hl _ hne]
  · cases before with
    | nil =>
      obtain ⟨heq, rfl⟩ := List.cons.inj hfiles
      obtain ⟨rfl, rfl⟩ := Prod.mk.inj heq
      -- no later file is put where this one is
      have hkept := h₁.untouched l fun f hf => mt (locate_of_directories hsame f.1).mp
        (hlater l hlocate f hf)
      rw [entry?_put_self d hl] at hkept
      exact read_of_locate ((locate_of_directories (hsame.trans h₁.directories) path).mpr hlocate)
        hslash hkept
    | cons first before =>
      refine h₁.read_back before path' content' after (List.cons.inj hfiles).2 ?_
      intro l' hl' f hf
      rw [Ne, locate_of_directories hsame]
      exact hlater l' ((locate_of_directories hsame path').mp hl') f hf

theorem received_writeAll {files : List (String × List UInt8)} (h : d.writeAll files = .ok d') :
    d.Received files d' := by
  induction files generalizing d with
  | nil =>
    cases h
    exact received_nil _
  | cons f rest ih =>
    obtain ⟨d₁, hwrite, hrest⟩ := bind_eq_ok_iff.mp h
    exact (ih hrest).cons hwrite

/-! ## Directories -/

/-- **A disk with directories made on a way.** Whatever has changed is a
directory where nothing was, and some of the names on the way lead to it. -/
structure Furnished (d : Disk) (l : Location) (names : List String) (d' : Disk) : Prop where
  home : d'.home = d.home
  changes : ∀ l', d'.entry? l' ≠ d.entry? l' → d.entry? l' = none ∧
    d'.entry? l' = some .directory ∧ ∃ way, way <+: names ∧ d'.walk l way = .ok l'

variable {names names' : List String}

theorem Furnished.refl (d : Disk) (l : Location) (names : List String) : d.Furnished l names d :=
  ⟨rfl, fun _ h => absurd rfl h⟩

/-- What is there stays. -/
theorem Furnished.entry?_eq (h : d.Furnished l names d') {e : Entry}
    (he : d.entry? l' = some e) : d'.entry? l' = some e := by
  by_cases hsame : d'.entry? l' = d.entry? l'
  · rw [hsame, he]
  · rw [(h.changes l' hsame).1] at he
    cases he

theorem Furnished.trans (h : d.Furnished l names d₁) (h₁ : d₁.Furnished l names' d')
    (hnames : names <+: names') : d.Furnished l names' d' := by
  refine ⟨h₁.home.trans h.home, fun l' hl' => ?_⟩
  by_cases hsame : d₁.entry? l' = d.entry? l'
  · rw [← hsame] at hl' ⊢
    exact h₁.changes l' hl'
  · obtain ⟨hnone, hmade, way, hway, hwalk⟩ := h.changes l' hsame
    exact ⟨hnone, h₁.entry?_eq hmade, way, hway.trans hnames,
      walk_mono (fun _ => h₁.entry?_eq) hwalk⟩

theorem Furnished.mono (h : d.Furnished l names d') (hnames : names <+: names') :
    d.Furnished l names' d' :=
  h.trans (.refl d' l names') hnames

theorem walk_concat {above next : Location} (h : d.walk l names = .ok above)
    (hstep : step above name = .ok next) (hnext : d.entry? next = some .directory) :
    d.walk l (names ++ [name]) = .ok next := by
  induction names generalizing l with
  | nil =>
    cases h
    simp only [List.nil_append, walk, hstep, bind, Except.bind, hnext]
  | cons first rest ih =>
    rw [walk] at h
    rw [List.cons_append, walk]
    obtain ⟨l', hl', h⟩ := bind_eq_ok_iff.mp h
    refine bind_eq_ok_iff.mpr ⟨l', hl', ?_⟩
    split at h
    · exact ih h
    · cases h
    · cases h

/-- **A directory is made where nothing was.** -/
theorem furnished_make (h : d.make l names = .ok d') : d.Furnished l names d' := by
  obtain ⟨above, hwalk, h⟩ := bind_eq_ok_iff.mp h
  split at h
  · cases h
  · cases h
  · cases h
  · next name _ _ hlast =>
    obtain ⟨place, hstep, h⟩ := bind_eq_ok_iff.mp h
    split at h
    · cases h
    · next hnone =>
      cases h
      have hplace : place ≠ [] := by
        rintro rfl
        cases hnone
      have hmade := entry?_put_self d hplace .directory
      have hnames : names.dropLast ++ [name] = names := List.dropLast_append_getLast? name hlast
      refine ⟨rfl, fun l' hl' => ?_⟩
      obtain rfl : l' = place := by
        by_contra hne
        exact hl' (entry?_put_of_ne d hplace _ hne)
      refine ⟨hnone, hmade, names, List.prefix_rfl, ?_⟩
      rw [← hnames]
      refine walk_concat (walk_mono (fun k hk => ?_) hwalk) hstep hmade
      rwa [entry?_put_of_ne d hplace]
      rintro rfl
      rw [hnone] at hk
      cases hk

theorem withoutLastDots_isPrefix (names : List String) : Path.withoutLastDots names <+: names := by
  have hsuffix := List.dropWhile_suffix (l := names.reverse) (· == ".")
  rw [← List.reverse_prefix, List.reverse_reverse] at hsuffix
  exact hsuffix

theorem parent_isPrefix (names : List String) : Path.parent names <+: names := by
  refine (withoutLastDots_isPrefix _).trans (List.IsPrefix.trans ?_ (withoutLastDots_isPrefix names))
  exact List.dropLast_prefix _

/-- **Making a directory and those above it**, whether it succeeds or not. -/
theorem furnished_makeAll (l : Location) (fuel : Nat) (names : List String) (d : Disk) :
    d.Furnished l names (makeAll l fuel names d).2 := by
  induction fuel generalizing names d with
  | zero => exact .refl d l names
  | succ fuel ih =>
    rw [makeAll]
    have hsettle : ∀ (t : FileTrouble) (d : Disk),
        (if d.isDirectory l names then (Except.ok (), d) else (Except.error t, d)).2 = d := by
      intro t d
      split <;> rfl
    have hparent := (ih (Path.parent names) d).mono (parent_isPrefix names)
    split
    · next hmake => exact furnished_make hmake
    · split
      · next hrest =>
        rw [hrest] at hparent
        exact hparent
      · next hrest =>
        rw [hrest] at hparent
        split
        · next hmake => exact hparent.trans (furnished_make hmake) List.prefix_rfl
        · rw [hsettle]
          exact hparent
    · rw [hsettle]
      exact .refl d l names

/-- The directory that a path starts at, whether or not it has some text. -/
def origin (d : Disk) (path : String) : Location := if Path.isAbsolute path then [] else d.home

theorem start_eq_ok (h : d.start path = .ok l) : l = d.origin path := by
  rw [start] at h
  split at h
  · cases h
  · split at h
    · cases h
    · exact (Except.ok.inj h).symm

theorem furnished_createDirectory (h : d.createDirectory path = (.ok (), d')) :
    d.Furnished (d.origin path) (Path.names path) d' := by
  rw [createDirectory] at h
  split at h
  · cases h
    exact .refl d _ _
  · cases hstart : d.start path with
    | error t =>
      rw [hstart] at h
      cases h
    | ok l =>
      obtain rfl := start_eq_ok hstart
      have hmade := furnished_makeAll (d.origin path) ((Path.names path).length + 1)
        (Path.names path) d
      rw [hstart] at h
      simp only at h
      rw [h] at hmade
      exact hmade

/-! ## Files in a directory -/

/-- A file in a directory is at its own name below that directory. -/
theorem locate_join {directory : String} (hname : Path.Plain name)
    (h : d.locate (Path.join directory name) = .ok l) :
    ∃ above, d.walk (d.origin directory) (Path.names directory) = .ok above ∧
      l = above ++ [name] := by
  obtain ⟨above, habove, hstep⟩ := bind_eq_ok_iff.mp h
  obtain ⟨start, hstart, hwalk⟩ := bind_eq_ok_iff.mp habove
  rw [start_eq_ok hstart, origin, Path.isAbsolute_join directory hname,
    Path.names_join directory hname, List.dropLast_concat] at hwalk
  rw [Path.names_join directory hname, List.getLast?_concat, Option.getD_some, step,
    if_neg hname.ne_dot, if_neg hname.ne_dots] at hstep
  refine ⟨above, hwalk, ?_⟩
  split at hstep
  · cases hstep
  · exact (Except.ok.inj hstep).symm

/-- **Files of two names are at two places.** -/
theorem locate_join_ne {directory name' : String} (hname : Path.Plain name)
    (hname' : Path.Plain name') (hne : name ≠ name')
    (h : d.locate (Path.join directory name) = .ok l) :
    d.locate (Path.join directory name') ≠ .ok l := by
  intro h'
  obtain ⟨above, habove, rfl⟩ := locate_join hname h
  obtain ⟨above', habove', heq⟩ := locate_join hname' h'
  exact hne (List.cons.inj (List.append_inj' heq rfl).2).1

end Disk

end Montage
