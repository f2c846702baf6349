import Montage.Proofs.Json.Reading
import Montage.Settings.Document
/-!
# Settings — documents that give only some of them

The settings of a document are what they are by default, except for what the
document gives (`settings?`). That holds of each record in them: of a record
that is nested in another, the default is its own, whether it is left out as a
whole or in part.

Reading a document comes to that because each reader agrees with a function on
values (`settings_reads`) and the tokens of a text spell the value that it
writes. So it does not matter how a record is written (`Form.Alike`), and a key
that is given twice spoils the document (`Form.Repeats`).
-/

namespace Montage

namespace Settings

open Json

/-! ## The records and their keys -/

/-- The records that a document is made of. -/
inductive Form where
  | placement
  | segmentation
  | face
  | settings

namespace Form

/-- The keys of a record, in the order in which a list gives their values. -/
def keys : Form → List String
  | placement => ["out_size", "obj_scale", "pos_x", "pos_y", "fill_color"]
  | segmentation =>
    ["mask_threshold", "perspective_correction", "reflection_opacity", "background", "out_size",
      "obj_scale", "pos_x", "pos_y"]
  | face => ["max_faces", "visibility_threshold", "presence_threshold", "reposition"]
  | settings => ["reposition", "segmentation", "face"]

/-- The fields of a record that are records themselves. -/
def parts : Form → List (String × Form)
  | placement | segmentation => []
  | face => [("reposition", placement)]
  | settings => [("reposition", placement), ("segmentation", segmentation), ("face", face)]

/-- Some record gives one of its keys twice. -/
inductive Repeats : Form → Tree → Prop
  | here {f : Form} {ms : List (Option String × Tree)} {k : String} (hk : k ∈ f.keys)
      (h : 2 ≤ (ms.map Prod.fst).count (some k)) : Repeats f (.object ms)
  | within {f g : Form} {t u : Tree} {k : String} {given : String → Option Tree}
      (hpart : (k, g) ∈ f.parts) (hgiven : t.given? f.keys = some given) (hu : given k = some u)
      (h : Repeats g u) : Repeats f t

/-- Two ways to write a record: the members of an object may come in any order,
with members of other keys among them, the first fields may be written as a
list, and all that goes for the records in it as well. -/
inductive Alike : Form → Tree → Tree → Prop
  | refl {f : Form} (t : Tree) : Alike f t t
  | symm {f : Form} {t u : Tree} (h : Alike f t u) : Alike f u t
  | trans {f : Form} {t u v : Tree} (h : Alike f t u) (h' : Alike f u v) : Alike f t v
  | perm {f : Form} {ms ms' : List (Option String × Tree)} (h : ms.Perm ms') :
      Alike f (.object ms) (.object ms')
  | unknown {f : Form} {k : String} (hk : k ∉ f.keys) (t : Tree)
      (ms : List (Option String × Tree)) : Alike f (.object ((some k, t) :: ms)) (.object ms)
  | list {f : Form} {ts : List Tree} (h : ts.length ≤ f.keys.length) :
      Alike f (.list ts) (.object (namedMembers f.keys ts))
  | part {f g : Form} {k : String} {t u : Tree} (hpart : (k, g) ∈ f.parts) (h : Alike g t u)
      (ms : List (Option String × Tree)) :
      Alike f (.object ((some k, t) :: ms)) (.object ((some k, u) :: ms))

end Form

/-! ## What values give -/

/-- A colour: its three channels. -/
def color? : Tree → Option Rgb
  | .list [r, g, b] => do
    let r ← r.natural? UInt8.size
    let g ← g.natural? UInt8.size
    let b ← b.natural? UInt8.size
    return ⟨UInt8.ofNat r, UInt8.ofNat g, UInt8.ofNat b⟩
  | _ => none

/-- The extent of a canvas: its width and its height. -/
def size? : Tree → Option Size
  | .list [w, h] => do return ⟨← w.natural? UInt32.size, ← h.natural? UInt32.size⟩
  | _ => none

/-- A placement: what is given, and else the default. -/
def placement? (t : Tree) : Option PlacementSpec := do
  let given ← t.given? Form.placement.keys
  let default : PlacementSpec := {}
  return {
    canvas := ← givenOr given "out_size" size? default.canvas
    scale := ← givenOr given "obj_scale" Tree.double? default.scale
    posX := ← givenOr given "pos_x" Tree.double? default.posX
    posY := ← givenOr given "pos_y" Tree.double? default.posY
    fill := ← givenOr given "fill_color" color? default.fill }

/-- The treatment of a segmented object: what is given, and else the default. -/
def segmentation? (t : Tree) : Option SegmentationSpec := do
  let given ← t.given? Form.segmentation.keys
  let default : SegmentationSpec := {}
  return {
    threshold := ← givenOr given "mask_threshold" Tree.double? default.threshold
    straighten := ← givenOr given "perspective_correction" Tree.bool? default.straighten
    reflection := ← givenOr given "reflection_opacity" Tree.double? default.reflection
    background := ← givenOr given "background" color? default.background
    canvas := ← givenOr given "out_size" (Tree.nullable? size?) default.canvas
    scale := ← givenOr given "obj_scale" Tree.double? default.scale
    posX := ← givenOr given "pos_x" Tree.double? default.posX
    posY := ← givenOr given "pos_y" Tree.double? default.posY }

/-- The choice of faces: what is given, and else the default. -/
def face? (t : Tree) : Option FaceSpec := do
  let given ← t.given? Form.face.keys
  let default : FaceSpec := {}
  return {
    maxFaces := ← givenOr given "max_faces" (Tree.natural? UInt64.size) default.maxFaces
    visibility := ← givenOr given "visibility_threshold" Tree.single? default.visibility
    presence := ← givenOr given "presence_threshold" Tree.single? default.presence
    placement := ← givenOr given "reposition" placement? default.placement }

/-- All settings: what is given, and else the default. -/
def settings? (t : Tree) : Option Settings := do
  let given ← t.given? Form.settings.keys
  let default : Settings := {}
  return {
    placement := ← givenOr given "reposition" placement? default.placement
    segmentation := ← givenOr given "segmentation" segmentation? default.segmentation
    face := ← givenOr given "face" face? default.face }

/-! ## The same as schemas -/

/-- The fields of a placement. -/
def placementSchema : Schema PlacementSpec where
  slots :=
    [ ⟨"out_size", Size, size?, (·.canvas), fun p v => { p with canvas := v }, fun _ => rfl⟩,
      ⟨"obj_scale", Float, Tree.double?, (·.scale), fun p v => { p with scale := v }, fun _ => rfl⟩,
      ⟨"pos_x", Float, Tree.double?, (·.posX), fun p v => { p with posX := v }, fun _ => rfl⟩,
      ⟨"pos_y", Float, Tree.double?, (·.posY), fun p v => { p with posY := v }, fun _ => rfl⟩,
      ⟨"fill_color", Rgb, color?, (·.fill), fun p v => { p with fill := v }, fun _ => rfl⟩ ]
  distinct := by decide
  independent := by simp [Slot.Commutes]

/-- The fields of the treatment of a segmented object. -/
def segmentationSchema : Schema SegmentationSpec where
  slots :=
    [ ⟨"mask_threshold", Float, Tree.double?, (·.threshold), fun s v => { s with threshold := v },
        fun _ => rfl⟩,
      ⟨"perspective_correction", Bool, Tree.bool?, (·.straighten),
        fun s v => { s with straighten := v }, fun _ => rfl⟩,
      ⟨"reflection_opacity", Float, Tree.double?, (·.reflection),
        fun s v => { s with reflection := v }, fun _ => rfl⟩,
      ⟨"background", Rgb, color?, (·.background), fun s v => { s with background := v },
        fun _ => rfl⟩,
      ⟨"out_size", Option Size, Tree.nullable? size?, (·.canvas),
        fun s v => { s with canvas := v }, fun _ => rfl⟩,
      ⟨"obj_scale", Float, Tree.double?, (·.scale), fun s v => { s with scale := v }, fun _ => rfl⟩,
      ⟨"pos_x", Float, Tree.double?, (·.posX), fun s v => { s with posX := v }, fun _ => rfl⟩,
      ⟨"pos_y", Float, Tree.double?, (·.posY), fun s v => { s with posY := v }, fun _ => rfl⟩ ]
  distinct := by decide
  independent := by simp [Slot.Commutes]

/-- The fields of the choice of faces. -/
def faceSchema : Schema FaceSpec where
  slots :=
    [ ⟨"max_faces", Nat, Tree.natural? UInt64.size, (·.maxFaces),
        fun f v => { f with maxFaces := v }, fun _ => rfl⟩,
      ⟨"visibility_threshold", Float, Tree.single?, (·.visibility),
        fun f v => { f with visibility := v }, fun _ => rfl⟩,
      ⟨"presence_threshold", Float, Tree.single?, (·.presence),
        fun f v => { f with presence := v }, fun _ => rfl⟩,
      ⟨"reposition", PlacementSpec, placement?, (·.placement),
        fun f v => { f with placement := v }, fun _ => rfl⟩ ]
  distinct := by decide
  independent := by simp [Slot.Commutes]

/-- The fields of all settings. -/
def settingsSchema : Schema Settings where
  slots :=
    [ ⟨"reposition", PlacementSpec, placement?, (·.placement),
        fun s v => { s with placement := v }, fun _ => rfl⟩,
      ⟨"segmentation", SegmentationSpec, segmentation?, (·.segmentation),
        fun s v => { s with segmentation := v }, fun _ => rfl⟩,
      ⟨"face", FaceSpec, face?, (·.face), fun s v => { s with face := v }, fun _ => rfl⟩ ]
  distinct := by decide
  independent := by simp [Slot.Commutes]

theorem value?_placementSchema : placementSchema.value? {} = placement? := by
  funext t
  simp only [Schema.value?, placementSchema, fill_cons]
  rfl

theorem value?_segmentationSchema : segmentationSchema.value? {} = segmentation? := by
  funext t
  simp only [Schema.value?, segmentationSchema, fill_cons]
  rfl

theorem value?_faceSchema : faceSchema.value? {} = face? := by
  funext t
  simp only [Schema.value?, faceSchema, fill_cons]
  rfl

theorem value?_settingsSchema : settingsSchema.value? {} = settings? := by
  funext t
  simp only [Schema.value?, settingsSchema, fill_cons]
  rfl

/-! ## Readers -/

theorem color?_eq (t : Tree) : color? t = (t.fixedList? (Tree.natural? UInt8.size) 3).map fun cs =>
    ⟨UInt8.ofNat (cs.getD 0 0), UInt8.ofNat (cs.getD 1 0), UInt8.ofNat (cs.getD 2 0)⟩ := by
  match t with
  | .null | .bool _ | .number _ | .text _ | .object _ | .list [] | .list [_] | .list [_, _]
  | .list (_ :: _ :: _ :: _ :: _) => rfl
  | .list [r, g, b] =>
    simp only [color?, Tree.fixedList?, List.mapM_cons]
    cases r.natural? UInt8.size <;> cases g.natural? UInt8.size <;> cases b.natural? UInt8.size <;>
      rfl

theorem size?_eq (t : Tree) : size? t = (t.fixedList? (Tree.natural? UInt32.size) 2).map fun ss =>
    ⟨ss.getD 0 0, ss.getD 1 0⟩ := by
  match t with
  | .null | .bool _ | .number _ | .text _ | .object _ | .list [] | .list [_]
  | .list (_ :: _ :: _ :: _) => rfl
  | .list [w, h] =>
    simp only [size?, Tree.fixedList?, List.mapM_cons]
    cases w.natural? UInt32.size <;> cases h.natural? UInt32.size <;> rfl

theorem color_reads : Reads color color? := by
  intro t ts rest h
  have hlist := fixedList_reads (natural_reads "u8" UInt8.size) "an array of length 3" 3 t ts rest h
  rw [color, toOption_bind, hlist, color?_eq]
  cases t.fixedList? (Tree.natural? UInt8.size) 3 <;> rfl

theorem size_reads : Reads size size? := by
  intro t ts rest h
  have hlist := fixedList_reads (natural_reads "u32" UInt32.size) "a tuple of size 2" 2 t ts rest h
  rw [size, toOption_bind, hlist, size?_eq]
  cases t.fixedList? (Tree.natural? UInt32.size) 2 <;> rfl

theorem placementSpec_reads : Reads placementSpec placement? := by
  rw [← value?_placementSchema]
  exact record_reads
    (.cons (Field.optional_fits size_reads) (.cons (Field.optional_fits double_reads)
      (.cons (Field.optional_fits double_reads) (.cons (Field.optional_fits double_reads)
        (.cons (Field.optional_fits color_reads) .nil))))) _ _ _

theorem segmentationSpec_reads : Reads segmentationSpec segmentation? := by
  rw [← value?_segmentationSchema]
  exact record_reads
    (.cons (Field.optional_fits double_reads) (.cons (Field.optional_fits bool_reads)
      (.cons (Field.optional_fits double_reads) (.cons (Field.optional_fits color_reads)
        (.cons (Field.optional_fits (nullable_reads size_reads))
          (.cons (Field.optional_fits double_reads) (.cons (Field.optional_fits double_reads)
            (.cons (Field.optional_fits double_reads) .nil)))))))) _ _ _

theorem faceSpec_reads : Reads faceSpec face? := by
  rw [← value?_faceSchema]
  exact record_reads
    (.cons (Field.optional_fits (natural_reads "usize" UInt64.size))
      (.cons (Field.optional_fits single_reads) (.cons (Field.optional_fits single_reads)
        (.cons (Field.optional_fits placementSpec_reads) .nil)))) _ _ _

/-- **Settings are read as what a value gives.** -/
theorem settings_reads : Reads settings settings? := by
  rw [← value?_settingsSchema]
  exact record_reads
    (.cons (Field.optional_fits placementSpec_reads)
      (.cons (Field.optional_fits segmentationSpec_reads)
        (.cons (Field.optional_fits faceSpec_reads) .nil))) _ _ _

/-! ## Other ways to write a record -/

section

variable {given given' : String → Option Tree} {k : String} {t u : Tree} {α : Type}
  {eval : Tree → Option α}

theorem givenOr_congr (h : given k = given' k) (default : α) :
    givenOr given k eval default = givenOr given' k eval default := by
  rw [givenOr, givenOr, h]

theorem givenOr_of_some (h : given k = some t) (default : α) :
    givenOr given k eval default = eval t := by
  rw [givenOr, h]
  rfl

end

namespace Form

/-- What a record is. -/
def Value : Form → Type
  | placement => PlacementSpec
  | segmentation => SegmentationSpec
  | face => FaceSpec
  | settings => Settings

/-- What a value gives for a record. -/
def value? : (f : Form) → Tree → Option f.Value
  | placement => placement?
  | segmentation => segmentation?
  | face => face?
  | settings => settings?

theorem keys_nodup (f : Form) : f.keys.Nodup := by
  cases f <;> decide

theorem part_mem_keys {f g : Form} {k : String} (h : (k, g) ∈ f.parts) : k ∈ f.keys := by
  cases f <;> simp only [parts, List.mem_cons, List.not_mem_nil, Prod.mk.injEq, or_false] at h
  · rw [h.1]
    decide
  · rcases h with ⟨rfl, -⟩ | ⟨rfl, -⟩ | ⟨rfl, -⟩ <;> decide

/-- A record is what its value gives for its keys. -/
theorem value?_congr (f : Form) {t u : Tree} (h : t.given? f.keys = u.given? f.keys) :
    f.value? t = f.value? u := by
  cases f <;> simp only [value?, placement?, segmentation?, face?, settings?, h] <;> rfl

theorem value?_eq_none (f : Form) {t : Tree} (h : t.given? f.keys = none) :
    f.value? t = none := by
  cases f <;> simp only [value?, placement?, segmentation?, face?, settings?, h] <;> rfl

/-- The value of a record within a record may be replaced by one that gives the
same. -/
theorem value?_part {f g : Form} {k : String} (hpart : (k, g) ∈ f.parts) {t u : Tree}
    (h : g.value? t = g.value? u) (ms : List (Option String × Tree)) :
    f.value? (.object ((some k, t) :: ms)) = f.value? (.object ((some k, u) :: ms)) := by
  rcases given?_replace (part_mem_keys hpart) t u ms with
    ⟨ht, hu⟩ | ⟨given, given', ht, hu, hk, hk', hother⟩
  · rw [f.value?_eq_none ht, f.value?_eq_none hu]
  · -- the two differ in what is given for one key, and there they give the same
    have hsame {α : Type} {eval : Tree → Option α} (heval : eval t = eval u) (d : α) :
        givenOr given k eval d = givenOr given' k eval d := by
      rw [givenOr_of_some hk, givenOr_of_some hk', heval]
    have hrest (k' : String) (hne : k' ≠ k) {α : Type} (eval : Tree → Option α) (d : α) :
        givenOr given k' eval d = givenOr given' k' eval d := givenOr_congr (hother k' hne) d
    cases f <;> simp only [parts, List.mem_cons, List.not_mem_nil, Prod.mk.injEq, or_false] at hpart
    · obtain ⟨rfl, rfl⟩ := hpart
      have h : placement? t = placement? u := h
      change face? _ = face? _
      simp only [face?, ht, hu, Option.bind_eq_bind, Option.bind_some, hsame h,
        hrest "max_faces" (by decide), hrest "visibility_threshold" (by decide),
        hrest "presence_threshold" (by decide)]
    · change settings? _ = settings? _
      simp only [settings?, ht, hu, Option.bind_eq_bind, Option.bind_some]
      rcases hpart with ⟨rfl, rfl⟩ | ⟨rfl, rfl⟩ | ⟨rfl, rfl⟩
      · have h : placement? t = placement? u := h
        simp only [hsame h, hrest "segmentation" (by decide), hrest "face" (by decide)]
      · have h : segmentation? t = segmentation? u := h
        simp only [hsame h, hrest "reposition" (by decide), hrest "face" (by decide)]
      · have h : face? t = face? u := h
        simp only [hsame h, hrest "reposition" (by decide), hrest "segmentation" (by decide)]

/-- **A record is the same, however it is written.** -/
theorem Alike.value?_eq {f : Form} {t u : Tree} (h : Alike f t u) : f.value? t = f.value? u := by
  induction h with
  | refl => rfl
  | symm _ ih => exact ih.symm
  | trans _ _ ih ih' => exact ih.trans ih'
  | perm h => exact value?_congr _ (given?_perm h)
  | unknown hk t ms => exact value?_congr _ (given?_unknown hk)
  | list h => exact value?_congr _ (given?_list (keys_nodup _) h)
  | part hpart _ ms ih => exact value?_part hpart ih ms

/-- **A key that is given twice spoils the record, and all records around it.** -/
theorem Repeats.value?_eq_none {f : Form} {t : Tree} (h : Repeats f t) : f.value? t = none := by
  induction h with
  | here hk h => exact Form.value?_eq_none _ (given?_repeated hk h)
  | @within f g t u k given hpart hgiven hu _ ih =>
    cases f <;> simp only [parts, List.mem_cons, List.not_mem_nil, Prod.mk.injEq, or_false] at hpart
    · obtain ⟨rfl, rfl⟩ := hpart
      have hnone : placement? u = none := ih
      change face? t = none
      simp only [face?, hgiven, Option.bind_eq_bind, Option.bind_some, givenOr_of_some hu, hnone,
        Option.bind_none, Option.bind_fun_none]
    · change settings? t = none
      simp only [settings?, hgiven, Option.bind_eq_bind, Option.bind_some]
      rcases hpart with ⟨rfl, rfl⟩ | ⟨rfl, rfl⟩ | ⟨rfl, rfl⟩
      · have hnone : placement? u = none := ih
        simp only [givenOr_of_some hu, hnone, Option.bind_none]
      · have hnone : segmentation? u = none := ih
        simp only [givenOr_of_some hu, hnone, Option.bind_none, Option.bind_fun_none]
      · have hnone : face? u = none := ih
        simp only [givenOr_of_some hu, hnone, Option.bind_none, Option.bind_fun_none]

end Form

/-! ## Documents -/

theorem toOption_mapError {ε ε' α : Type} (x : Except ε α) (f : ε → ε') :
    (x.mapError f).toOption = x.toOption := by
  cases x <;> rfl

/-- **A document that writes a value gives what the value gives.** -/
theorem toOption_ofDocument {t : Tree} {text : String} (h : t.Writes text) :
    (ofDocument text).toOption = settings? t := by
  obtain ⟨ts, n, htokens, hspells⟩ := tokens_writes h
  rw [ofDocument, toOption_mapError, readDocument, toOption_mapError, htokens, toOption_bind,
    settings_reads t ts _ hspells]
  cases settings? t <;> rfl

/-- **A document replaces just the settings that it gives.** It is read as what
its value gives (`settings?`): the settings are as they are by default, except
for those that are given, in each record within them as well, and a value of the
wrong kind is refused. A key that is given twice in one record is refused, and
documents that write the same records in two ways give the same. -/
theorem ofDocument_replaces_given :
    (∀ (t : Tree) (text : String), t.Writes text →
      (ofDocument text).toOption = settings? t) ∧
    (∀ (t : Tree) (text : String), t.Writes text → Form.Repeats .settings t →
      ∃ f, ofDocument text = .error f) ∧
    ∀ (t u : Tree) (text text' : String), t.Writes text → u.Writes text' →
      Form.Alike .settings t u → (ofDocument text).toOption = (ofDocument text').toOption := by
  refine ⟨fun t text ht => toOption_ofDocument ht, ?_, ?_⟩
  · intro t text ht h
    have hnone : (ofDocument text).toOption = none :=
      (toOption_ofDocument ht).trans h.value?_eq_none
    cases hread : ofDocument text with
    | error f => exact ⟨f, rfl⟩
    | ok s =>
      rw [hread] at hnone
      cases hnone
  · intro t u text text' ht hu h
    calc (ofDocument text).toOption
      _ = settings? t := toOption_ofDocument ht
      _ = settings? u := h.value?_eq
      _ = (ofDocument text').toOption := (toOption_ofDocument hu).symm

/-- A document that gives one setting, in a list, beside an unknown key. -/
theorem ofDocument_of_face_list :
    (ofDocument "\x7b\"x\": [null], \"face\": [3]\x7d").toOption
      = some { face := { maxFaces := 3 } } := by
  have hx : Spelling (.text (some "x")) [34, 120, 34] :=
    .text [.plain 'x' (by decide)]
  have hface : Spelling (.text (some "face")) [34, 102, 97, 99, 101, 34] :=
    .text [.plain 'f' (by decide), .plain 'a' (by decide), .plain 'c' (by decide),
      .plain 'e' (by decide)]
  have hthree : Spelling (.number (some (.natural 3))) [51] :=
    .number ⟨false, ⟨[51], by decide, List.forall_mem_singleton.mpr rfl⟩, by decide, none, none⟩
  have hnone : ∀ b ∈ ([] : List UInt8), isBlank b = true := List.forall_mem_nil _
  have hspace : ∀ b ∈ ([32] : List UInt8), isBlank b = true :=
    List.forall_mem_singleton.mpr rfl
  have hwrites : Tree.Writes
      (.object [(some "x", .list [.null]), (some "face", .list [.number (some (.natural 3))])])
      "\x7b\"x\": [null], \"face\": [3]\x7d" := by
    rw [Tree.Writes, byteArray_toList]
    exact .cons hnone .openBrace (.cons hnone hx (.cons hnone .colon (.cons hspace .openBracket
      (.cons hnone .null (.cons hnone .closeBracket (.cons hnone .comma (.cons hspace hface
        (.cons hnone .colon (.cons hspace .openBracket (.cons hnone hthree
          (.cons hnone .closeBracket (.cons hnone .closeBrace (.nil hnone)))))))))))))
  exact (ofDocument_replaces_given.1 _ _ hwrites).trans rfl

end Settings

end Montage
