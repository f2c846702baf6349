import Mathlib.Data.List.Perm.Basic
import Montage.Face.Mask
import Montage.Proofs.Fault
import Montage.Proofs.Raster
/-!
# Face masks — one for all faces, and one for each

The mask of all faces is painted hull after hull on one canvas, the mask of a
face on a canvas of its own. Which pixels a hull covers depends on its points
and on the extent of the canvas (`get?_fillPolygon`), so at each pixel the one
canvas holds whatever some hull has put there (`get?_foldl_fillPolygon`): the
greatest of the values that the separate masks have. For the same reason the
order of the faces does not matter (`faceMask_perm`). A limit on the faces
cuts their list off before any of them is passed over, so a higher limit only
adds masks at the end (`faceMasks_prefix`).

`faceMask_covers_faces` collects this, with what a cutout and a repositioned
face make of the masks.
-/

namespace Montage

/-! ## Painting -/

namespace Raster

variable {α : Type}

theorem size_paint (pixels : List (Nat × Nat)) (a : α) (r : Raster α) :
    (r.paint pixels a).size = r.size := by
  unfold paint
  induction pixels generalizing r with
  | nil => rfl
  | cons p rest ih => rw [List.foldl_cons, ih, size_set]

/-- **Painting puts the sample at the given pixels** and nowhere else. -/
theorem get?_paint (pixels : List (Nat × Nat)) (a : α) (r : Raster α) (x y : Nat) :
    (r.paint pixels a).get? x y =
      if (x, y) ∈ pixels then (r.get? x y).map fun _ => a else r.get? x y := by
  split
  · next hmem =>
    cases hr : r.get? x y with
    | none =>
      have hsome := isSome_get?_congr (size_paint pixels a r) x y
      rw [hr] at hsome
      exact Option.not_isSome_iff_eq_none.mp (by simp [hsome])
    | some v =>
      exact get?_foldl_set_of_mem (fun p : Nat × Nat => p.1) (fun p => p.2) (fun _ => a)
        (by rw [hr]; rfl) ⟨(x, y), hmem, rfl, rfl⟩ fun _ _ _ => rfl
  · next hmem =>
    refine get?_foldl_set_of_forall_ne (fun p : Nat × Nat => p.1) (fun p => p.2) (fun _ => a) _ _ ?_
    rintro p hp ⟨rfl, rfl⟩
    exact hmem hp

theorem size_fillPolygon (m : Mask) (p : Polygon Int) : (m.fillPolygon p).size = m.size :=
  size_paint ..

/-- **A filled polygon is set where it covers a pixel.** -/
theorem get?_fillPolygon (m : Mask) (p : Polygon Int) (x y : Nat) :
    (m.fillPolygon p).get? x y =
      if (x, y) ∈ Filling.pixels m.size p then (m.get? x y).map fun _ => 255 else m.get? x y :=
  get?_paint ..

theorem size_foldl_fillPolygon (hulls : List (List (Point Int))) (m : Mask) :
    (hulls.foldl (fun m hull => m.fillPolygon ⟨hull⟩) m).size = m.size := by
  induction hulls generalizing m with
  | nil => rfl
  | cons hull rest ih => rw [List.foldl_cons, ih, size_fillPolygon]

/-- **Hulls on one canvas leave a pixel set if any of them covers it.** -/
theorem get?_foldl_fillPolygon (hulls : List (List (Point Int))) (m : Mask) (x y : Nat) :
    (hulls.foldl (fun m hull => m.fillPolygon ⟨hull⟩) m).get? x y =
      if ∃ hull ∈ hulls, (x, y) ∈ Filling.pixels m.size ⟨hull⟩ then
        (m.get? x y).map fun _ => 255
      else m.get? x y := by
  induction hulls generalizing m with
  | nil => simp
  | cons hull rest ih =>
    rw [List.foldl_cons, ih, size_fillPolygon, get?_fillPolygon]
    by_cases hfirst : (x, y) ∈ Filling.pixels m.size ⟨hull⟩
    · -- what is set stays set
      simp [hfirst, Function.comp_def]
    · simp [hfirst]

end Raster

/-! ## The masks of faces -/

/-- A mask in which a pixel is fully set or not at all. -/
def Raster.TwoValued (m : Mask) : Prop := ∀ x y v, m.get? x y = some v → v = 0 ∨ v = 255

/-- The mask of one hull. -/
def hullMask (s : Size) (hull : List (Point Int)) : Mask := (emptyMask s).fillPolygon ⟨hull⟩

/-- One mask for all hulls, painted one after the other. -/
def unionMask (s : Size) (hulls : List (List (Point Int))) : Mask :=
  hulls.foldl (fun m hull => m.fillPolygon ⟨hull⟩) (emptyMask s)

section

variable {s : Size} {found : Detection} {spec : FaceSpec} {hulls : List (List (Point Int))}
  {x y : Nat}

theorem faceMask_eq (s : Size) (found : Detection) (spec : FaceSpec) :
    faceMask s found spec = (faceHulls s found spec).map (unionMask s) := by
  rw [faceMask]
  cases faceHulls s found spec <;> rfl

theorem faceMasks_eq (s : Size) (found : Detection) (spec : FaceSpec) :
    faceMasks s found spec = (faceHulls s found spec).map (List.map (hullMask s)) := by
  rw [faceMasks]
  cases faceHulls s found spec <;> rfl

/-- The hulls of faces that were found: those of the first faces, as many as
may count, if one of them has a hull. -/
theorem faceHulls_ok (s : Size) (faces : List (Face Float)) (spec : FaceSpec) :
    faceHulls s (.ok faces) spec =
      if (faces.take spec.maxFaces).filterMap (Face.hull? spec s) = [] then .error .noFaceFound
      else .ok ((faces.take spec.maxFaces).filterMap (Face.hull? spec s)) := by
  cases hhulls : (faces.take spec.maxFaces).filterMap (Face.hull? spec s) <;>
    simp [faceHulls, bind, Except.bind, hhulls] <;> rfl

/-- Hulls are only had if there is one. -/
theorem ne_nil_of_faceHulls (h : faceHulls s found spec = .ok hulls) : hulls ≠ [] := by
  cases found with
  | error f => cases h
  | ok faces =>
    rw [faceHulls_ok] at h
    split at h
    · cases h
    · next hne =>
      cases h
      exact hne

theorem size_unionMask (s : Size) (hulls : List (List (Point Int))) :
    (unionMask s hulls).size = s := by
  rw [unionMask, Raster.size_foldl_fillPolygon, emptyMask, Raster.size_filled]

/-- A pixel of a mask of hulls is set if one of them covers it. -/
theorem get?_unionMask (hulls : List (List (Point Int))) (hin : x < s.width ∧ y < s.height) :
    (unionMask s hulls).get? x y =
      some (if ∃ hull ∈ hulls, (x, y) ∈ Filling.pixels s ⟨hull⟩ then 255 else 0) := by
  have hempty : (emptyMask s).get? x y = some 0 := by
    rw [emptyMask, Raster.filled, Raster.get?_ofFn, if_pos hin]
  rw [unionMask, Raster.get?_foldl_fillPolygon, hempty, emptyMask, Raster.size_filled]
  split <;> rfl

/-- The mask of one hull is a mask of hulls. -/
theorem hullMask_eq (s : Size) (hull : List (Point Int)) : hullMask s hull = unionMask s [hull] :=
  rfl

theorem lt_of_get?_unionMask {v : UInt8} (hv : (unionMask s hulls).get? x y = some v) :
    x < s.width ∧ y < s.height := by
  by_contra hout
  rw [Raster.get?_eq_none_of_outside (size_unionMask s hulls) hout] at hv
  cases hv

theorem twoValued_unionMask (s : Size) (hulls : List (List (Point Int))) :
    (unionMask s hulls).TwoValued := by
  intro x y v hv
  rw [get?_unionMask hulls (lt_of_get?_unionMask hv)] at hv
  cases hv
  split
  · exact .inr rfl
  · exact .inl rfl

/-- A mask of hulls is set exactly where the mask of one of them is. -/
theorem get?_unionMask_eq_full_iff :
    (unionMask s hulls).get? x y = some 255 ↔
      ∃ hull ∈ hulls, (hullMask s hull).get? x y = some 255 := by
  by_cases hin : x < s.width ∧ y < s.height
  · simp only [hullMask_eq, get?_unionMask _ hin]
    simp
  · simp only [hullMask_eq, Raster.get?_eq_none_of_outside (size_unionMask s _) hin]
    simp

/-- **What a mask of hulls has at a pixel is the greatest of what the masks of
the hulls have there.** -/
theorem greatest_unionMask (hne : hulls ≠ []) {v : UInt8}
    (hv : (unionMask s hulls).get? x y = some v) :
    (∃ hull ∈ hulls, (hullMask s hull).get? x y = some v) ∧
      ∀ hull ∈ hulls, ∀ u, (hullMask s hull).get? x y = some u → u ≤ v := by
  rcases twoValued_unionMask s hulls x y v hv with rfl | rfl
  · -- none of the masks is set, and there is one
    have hfree (hull : List (Point Int)) (hmem : hull ∈ hulls) :
        (hullMask s hull).get? x y = some 0 := by
      have hin := lt_of_get?_unionMask hv
      rw [hullMask_eq, get?_unionMask _ hin, if_neg]
      intro hcovered
      have hset : (hullMask s hull).get? x y = some 255 := by
        rw [hullMask_eq, get?_unionMask _ hin, if_pos hcovered]
      rw [get?_unionMask_eq_full_iff.mpr ⟨hull, hmem, hset⟩] at hv
      cases hv
    obtain ⟨hull, hmem⟩ := List.exists_mem_of_ne_nil hulls hne
    refine ⟨⟨hull, hmem, hfree hull hmem⟩, fun hull' hmem' u hu => ?_⟩
    rw [hfree hull' hmem'] at hu
    cases hu
    exact UInt8.le_refl 0
  · refine ⟨get?_unionMask_eq_full_iff.mp hv, fun hull _ u hu => ?_⟩
    rcases twoValued_unionMask s [hull] x y u hu with rfl | rfl
    · decide
    · exact UInt8.le_refl 255

end

/-! ## The order of the faces, and their number -/

section

variable {s : Size} {faces faces' : List (Face Float)} {spec : FaceSpec}

/-- A mask of hulls depends on which hulls there are, not on their order. -/
theorem unionMask_perm {hulls hulls' : List (List (Point Int))} (h : hulls.Perm hulls') :
    unionMask s hulls = unionMask s hulls' := by
  refine Raster.ext_get? ?_ fun x y => ?_
  · rw [size_unionMask, size_unionMask]
  · rw [unionMask, unionMask, Raster.get?_foldl_fillPolygon, Raster.get?_foldl_fillPolygon]
    simp only [h.mem_iff]

/-- **The order of the faces does not matter** if all of them count. -/
theorem faceMask_perm (h : faces.Perm faces') (hall : faces.length ≤ spec.maxFaces) :
    faceMask s (.ok faces) spec = faceMask s (.ok faces') spec := by
  have hhulls := h.filterMap (Face.hull? spec s)
  have hall' : faces'.length ≤ spec.maxFaces := h.length_eq ▸ hall
  rw [faceMask_eq, faceMask_eq, faceHulls_ok, faceHulls_ok, List.take_of_length_le hall,
    List.take_of_length_le hall']
  by_cases hnil : faces.filterMap (Face.hull? spec s) = []
  · rw [hnil] at hhulls
    rw [if_pos hnil, if_pos hhulls.nil_eq.symm]
  · have hnil' : faces'.filterMap (Face.hull? spec s) ≠ [] := by
      intro hnil'
      rw [hnil'] at hhulls
      exact hnil hhulls.eq_nil
    rw [if_neg hnil, if_neg hnil']
    exact congrArg Except.ok (unionMask_perm hhulls)

/-- The masks of faces, none if no face was found. -/
def masksOrNone (r : Except Fault (List Mask)) : List Mask := r.toOption.getD []

theorem masksOrNone_faceMasks (s : Size) (faces : List (Face Float)) (spec : FaceSpec) :
    masksOrNone (faceMasks s (.ok faces) spec) =
      ((faces.take spec.maxFaces).filterMap (Face.hull? spec s)).map (hullMask s) := by
  rw [faceMasks_eq, faceHulls_ok]
  split
  · next hnil =>
    rw [hnil]
    rfl
  · rfl

/-- **A higher limit only adds masks at the end.** -/
theorem faceMasks_prefix (s : Size) (faces : List (Face Float)) (spec : FaceSpec) {k k' : Nat}
    (h : k ≤ k') :
    masksOrNone (faceMasks s (.ok faces) { spec with maxFaces := k }) <+:
      masksOrNone (faceMasks s (.ok faces) { spec with maxFaces := k' }) := by
  rw [masksOrNone_faceMasks, masksOrNone_faceMasks]
  exact ((List.take_prefix_take_left h).filterMap _).map _

/-- Faces that were found have masks, or there is no face among them. -/
theorem faceMasks_ok_failsOnly (s : Size) (faces : List (Face Float)) (spec : FaceSpec) :
    FailsOnly (· = .noFaceFound) (faceMasks s (.ok faces) spec) := by
  rw [faceMasks_eq, faceHulls_ok]
  split
  · exact failsOnly_error rfl
  · exact failsOnly_ok _

end

/-! ## Cutouts -/

theorem and_full (c : UInt8) : c &&& 255 = c := by
  have h : (255 : UInt8) = -1 := by decide
  rw [h, UInt8.and_neg_one]

/-- **A mask of two values keeps a colour or leaves black.** -/
theorem get?_masked {photo : Photo} {m : Mask} (hsize : photo.size = m.size) (h : m.TwoValued)
    (x y : Nat) :
    (Raster.masked photo m).get? x y =
      (photo.get? x y).map fun c => if m.get? x y = some 255 then c else .black := by
  rw [Raster.masked, Raster.get?_mapPixels]
  cases hc : photo.get? x y with
  | none => rfl
  | some c =>
    have hin := Raster.isSome_get?_congr hsize x y
    rw [hc] at hin
    obtain ⟨v, hv⟩ := Option.isSome_iff_exists.mp hin.symm
    rw [Option.map_some, Option.map_some, Raster.getD_eq, hv]
    rcases h x y v hv with rfl | rfl
    · simp [Rgb.mapChannels, Rgb.black]
    · simp [Rgb.mapChannels, and_full]

/-- The face that is repositioned is that of the first mask. -/
theorem repositionFace_eq (photo : Photo) (found : Detection) (spec : FaceSpec) :
    repositionFace photo found spec =
      (faceMasks photo.size found spec >>= fun masks =>
        match masks with
        | [] => .error .noFaceFound
        | first :: _ => reposition photo first spec.placement) := rfl

/-- **One mask for all faces.** The mask of all faces and the masks of the
faces are both had or fail alike. At each pixel the former has the greatest of
what the latter have, and all of them are fully set or not at all, so a cutout
keeps what some face covers and is black elsewhere. The face that is
repositioned is that of the first mask. If all faces count, their order does
not matter, and with a limit on the faces a higher one only adds masks. -/
theorem faceMask_covers_faces (photo : Photo) (found : Detection) (spec : FaceSpec) :
    Agree (fun (m : Mask) (masks : List Mask) =>
        m.size = photo.size ∧ (∀ k ∈ masks, k.size = photo.size) ∧
        (∀ x y v, m.get? x y = some v → (∃ k ∈ masks, k.get? x y = some v) ∧
          ∀ k ∈ masks, ∀ u, k.get? x y = some u → u ≤ v) ∧
        m.TwoValued ∧ (∀ k ∈ masks, k.TwoValued) ∧
        (∃ cutout, faceCutout photo m = .ok cutout ∧ ∀ x y, cutout.get? x y =
          (photo.get? x y).map fun c =>
            if ∃ k ∈ masks, k.get? x y = some 255 then c else .black) ∧
        ∃ first rest, masks = first :: rest ∧
          repositionFace photo found spec = reposition photo first spec.placement)
      (faceMask photo.size found spec) (faceMasks photo.size found spec) ∧
    (∀ f, faceMasks photo.size found spec = .error f →
      repositionFace photo found spec = .error f) ∧
    (∀ faces faces', found = .ok faces → faces.Perm faces' → faces.length ≤ spec.maxFaces →
      faceMask photo.size found spec = faceMask photo.size (.ok faces') spec) ∧
    ∀ k k', k ≤ k' →
      (∀ f, found = .error f →
        faceMasks photo.size found { spec with maxFaces := k } = .error f ∧
        faceMasks photo.size found { spec with maxFaces := k' } = .error f) ∧
      ∀ faces, found = .ok faces →
        (∀ f, faceMasks photo.size found { spec with maxFaces := k } = .error f →
          f = .noFaceFound) ∧
        masksOrNone (faceMasks photo.size found { spec with maxFaces := k }) <+:
          masksOrNone (faceMasks photo.size found { spec with maxFaces := k' }) := by
  refine ⟨?_, ?_, ?_, ?_⟩
  · rw [repositionFace_eq, faceMask_eq, faceMasks_eq, agree_map_iff]
    cases hhulls : faceHulls photo.size found spec with
    | error f => exact rfl
    | ok hulls =>
      have hne := ne_nil_of_faceHulls hhulls
      refine ⟨size_unionMask .., ?_, ?_, twoValued_unionMask _ hulls, ?_, ?_, ?_⟩
      · simp only [List.mem_map, forall_exists_index, and_imp, forall_apply_eq_imp_iff₂]
        exact fun hull _ => size_unionMask photo.size [hull]
      · intro x y v hv
        simpa only [List.mem_map, exists_exists_and_eq_and, forall_exists_index, and_imp,
          forall_apply_eq_imp_iff₂] using greatest_unionMask hne hv
      · simp only [List.mem_map, forall_exists_index, and_imp, forall_apply_eq_imp_iff₂]
        exact fun hull _ => twoValued_unionMask photo.size [hull]
      · have hsize : photo.size = (unionMask photo.size hulls).size := (size_unionMask ..).symm
        refine ⟨photo.masked (unionMask photo.size hulls), ?_, fun x y => ?_⟩
        · rw [faceCutout, requireSameSize_of_eq hsize]
          rfl
        · rw [get?_masked hsize (twoValued_unionMask _ hulls)]
          simp only [get?_unionMask_eq_full_iff, List.mem_map, exists_exists_and_eq_and]
      · obtain ⟨hull, rest, rfl⟩ := List.exists_cons_of_ne_nil hne
        exact ⟨hullMask photo.size hull, rest.map (hullMask photo.size), rfl, rfl⟩
  · intro f hf
    rw [repositionFace_eq, hf]
    rfl
  · rintro faces faces' rfl hperm hall
    exact faceMask_perm hperm hall
  · intro k k' hk
    constructor
    · rintro f rfl
      exact ⟨rfl, rfl⟩
    · rintro faces rfl
      exact ⟨faceMasks_ok_failsOnly _ faces _, faceMasks_prefix _ faces spec hk⟩

end Montage
