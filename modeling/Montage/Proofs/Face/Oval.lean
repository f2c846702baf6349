import Montage.Proofs.Face.Mask
import Montage.Proofs.Shape.Enclosure
/-!
# The oval of a face — which faces have a hull

A face counts unless the pixels of its oval all lie on one line. Sorting the pixels
and dropping repetitions changes neither that nor the hull, so both checks of
`broadHull?` ask the same (`broadHull?_eq_none_iff`), and what passes them surrounds
the pixels (`surrounds_of_broadHull?`). The pixels are those of the photo with their
coordinates kept in thirty-two bits (`exists_inPhoto_of_mem_ovalPixels`), and so are the
vertices of the hulls. They lie in the photo as far as it has no places beyond those
that thirty-two bits with a sign can count (`Face.HasHull.inPhoto`); in a wider one they
need not (`hull_outside_of_cornerFace`).

`faceHulls_surround_faces` collects this for the faces of a search.
-/

namespace Montage

variable {ps hull : List (Point ℤ)} {p : Point ℤ}

/-! ## Hulls of pixels that are listed in any order -/

theorem mem_withoutRepeats : p ∈ withoutRepeats ps ↔ p ∈ ps := by
  induction ps using withoutRepeats.induct with
  | case1 q rest ih =>
    rw [withoutRepeats, if_pos rfl, ih]
    simp only [List.mem_cons, or_self_left]
  | case2 q r rest hne ih =>
    rw [withoutRepeats, if_neg hne, List.mem_cons, ih, List.mem_cons (b := q)]
  | case3 ps hshort =>
    rw [withoutRepeats]
    exact hshort

/-- The pixels from which a hull is made are the given ones. -/
theorem mem_distinct : p ∈ withoutRepeats (ps.mergeSort columnOrder) ↔ p ∈ ps :=
  mem_withoutRepeats.trans List.mem_mergeSort

theorem onOneLine_distinct : OnOneLine (withoutRepeats (ps.mergeSort columnOrder)) ↔ OnOneLine ps :=
  ⟨fun h => h.of_subset fun _ hp => mem_distinct.mpr hp,
    fun h => h.of_subset fun _ hp => mem_distinct.mp hp⟩

/-- The first check rules out nothing that the second one would not. -/
theorem broadHull?_eq (ps : List (Point ℤ)) :
    broadHull? ps =
      if OnOneLine ps then none
      else some (convexHull (withoutRepeats (ps.mergeSort columnOrder))) := by
  rw [broadHull?]
  simp only [length_convexHull_lt_iff, onOneLine_distinct]
  split
  · next hfew => rw [if_pos (onOneLine_distinct.mp (onOneLine_of_length_lt hfew))]
  · rfl

/-- **Pixels have no hull exactly if they all lie on one line.** -/
theorem broadHull?_eq_none_iff : broadHull? ps = none ↔ OnOneLine ps := by
  rw [broadHull?_eq, ite_eq_left_iff]
  exact ⟨fun h => by_contra fun hbroad => Option.some_ne_none _ (h hbroad), fun h hbroad =>
    absurd h hbroad⟩

/-- **The hull of pixels surrounds them.** -/
theorem surrounds_of_broadHull? (h : broadHull? ps = some hull) : Surrounds hull ps := by
  rw [broadHull?_eq] at h
  split at h
  · cases h
  · next hbroad =>
    cases h
    exact (surrounds_convexHull (mt onOneLine_distinct.mp hbroad)).congr fun _ => mem_distinct.symm

/-! ## The pixels of an oval -/

/-- The pixel lies in the photo. -/
def Point.InPhoto (s : Size) (p : Point ℤ) : Prop :=
  (0 ≤ p.x ∧ p.x < s.width) ∧ 0 ≤ p.y ∧ p.y < s.height

section

variable {α : Type} [Scalar α] {s : Size}

/-- A place is that of one of the pixels, kept in thirty-two bits with a sign. -/
theorem exists_pixelIndex_eq (v : α) {n : ℕ} (hpos : 0 < n) :
    ∃ place : ℤ, (0 ≤ place ∧ place < n) ∧ pixelIndex v n = place.bmod UInt32.size := by
  refine ⟨max 0 (min ((n : ℤ) - 1) (Scalar.truncate (Scalar.floor (v * Scalar.ofNat n)))), ?_, rfl⟩
  omega

/-- Places that can be counted in thirty-two bits with a sign are kept as they are. -/
theorem bmod_of_place {place : ℤ} {n : ℕ} (hn : n ≤ 2147483648) (h : 0 ≤ place ∧ place < n) :
    place.bmod UInt32.size = place := by
  refine Int.bmod_eq_of_le_mul_two ?_ ?_ <;>
  · rw [UInt32.size]
    omega

/-- **The pixel of a place** that is given by fractions, in a photo that has pixels. -/
theorem pixelOf?_eq_some_iff {x y : α} : pixelOf? x y s = some p ↔
    (s.width ≠ 0 ∧ s.height ≠ 0) ∧ (isFraction x = true ∧ isFraction y = true) ∧
      p = ⟨pixelIndex x s.width, pixelIndex y s.height⟩ := by
  rw [pixelOf?]
  split
  · next hout =>
    refine iff_of_false nofun ?_
    rintro ⟨⟨hwidth, hheight⟩, ⟨hx, hy⟩, -⟩
    simp [hwidth, hheight, hx, hy] at hout
  · next hin =>
    simp only [Bool.or_eq_true, decide_eq_true_eq, Bool.not_eq_true', not_or,
      Bool.not_eq_false] at hin
    obtain ⟨⟨hsize, hx⟩, hy⟩ := hin
    rw [Option.some.injEq, eq_comm]
    exact ⟨fun h => ⟨hsize, ⟨hx, hy⟩, h⟩, fun h => h.2.2⟩

/-- **The pixels of an oval** are those of the ends of its edges, as far as both
ends of an edge have one. -/
theorem mem_ovalPixels {f : Face α} {visibility presence : α} :
    p ∈ f.ovalPixels s visibility presence ↔
      ∃ e ∈ ovalEdges, ∃ a b, f.pixel? s visibility presence e.1 = some a ∧
        f.pixel? s visibility presence e.2 = some b ∧ (p = a ∨ p = b) := by
  rw [Face.ovalPixels, List.mem_flatMap]
  refine exists_congr fun e => and_congr_right fun _ => ?_
  dsimp only
  split
  · next a b ha hb => simp [ha, hb]
  · next hmissing =>
    refine iff_of_false List.not_mem_nil ?_
    rintro ⟨a, b, ha, hb, -⟩
    exact hmissing a b ha hb

/-- Each pixel of an oval is that of a place given by fractions. -/
theorem exists_pixelOf?_of_mem_ovalPixels {f : Face α} {visibility presence : α}
    (h : p ∈ f.ovalPixels s visibility presence) : ∃ x y : α, pixelOf? x y s = some p := by
  have hpixel : ∀ index a, f.pixel? s visibility presence index = some a →
      ∃ x y : α, pixelOf? x y s = some a := by
    intro index a ha
    obtain ⟨l, -, hl⟩ := Option.bind_eq_some_iff.mp ha
    split at hl
    · exact ⟨l.x, l.y, hl⟩
    · cases hl
  obtain ⟨e, -, a, b, ha, hb, rfl | rfl⟩ := mem_ovalPixels.mp h
  · exact hpixel _ _ ha
  · exact hpixel _ _ hb

/-- A pixel of an oval is one of the photo, with its coordinates kept in thirty-two
bits. -/
theorem exists_inPhoto_of_mem_ovalPixels {f : Face α} {visibility presence : α}
    (h : p ∈ f.ovalPixels s visibility presence) :
    ∃ q : Point ℤ, q.InPhoto s ∧ p = ⟨q.x.bmod UInt32.size, q.y.bmod UInt32.size⟩ := by
  obtain ⟨x, y, hxy⟩ := exists_pixelOf?_of_mem_ovalPixels h
  obtain ⟨⟨hw, hh⟩, -, rfl⟩ := pixelOf?_eq_some_iff.mp hxy
  obtain ⟨column, hcolumn, hx⟩ := exists_pixelIndex_eq x (Nat.pos_of_ne_zero hw)
  obtain ⟨row, hrow, hy⟩ := exists_pixelIndex_eq y (Nat.pos_of_ne_zero hh)
  exact ⟨⟨column, row⟩, ⟨hcolumn, hrow⟩, by rw [hx, hy]⟩

/-- A pixel whose coordinates fit is not changed by that. -/
theorem Point.InPhoto.wrapped {q : Point ℤ} (h : q.InPhoto s) (hwidth : s.width ≤ 2147483648)
    (hheight : s.height ≤ 2147483648) :
    (⟨q.x.bmod UInt32.size, q.y.bmod UInt32.size⟩ : Point ℤ).InPhoto s := by
  rw [bmod_of_place hwidth h.1, bmod_of_place hheight h.2]
  exact h

theorem inPhoto_of_mem_ovalPixels {f : Face α} {visibility presence : α}
    (h : p ∈ f.ovalPixels s visibility presence) (hwidth : s.width ≤ 2147483648)
    (hheight : s.height ≤ 2147483648) : p.InPhoto s := by
  obtain ⟨q, hq, rfl⟩ := exists_inPhoto_of_mem_ovalPixels h
  exact hq.wrapped hwidth hheight

end

/-! ## The faces that count -/

/-- The pixels of the face's oval all lie on one line. -/
def Face.Flat (spec : FaceSpec) (s : Size) (f : Face Float) : Prop :=
  OnOneLine (f.ovalPixels s spec.visibility spec.presence)

instance (spec : FaceSpec) (s : Size) (f : Face Float) : Decidable (f.Flat spec s) :=
  inferInstanceAs (Decidable (OnOneLine _))

/-- The hull surrounds the pixels of the face's oval, and each of its vertices is a
pixel of the photo with its coordinates kept in thirty-two bits. -/
structure Face.HasHull (spec : FaceSpec) (s : Size) (f : Face Float) (hull : List (Point ℤ)) :
    Prop where
  surrounds : Surrounds hull (f.ovalPixels s spec.visibility spec.presence)
  wrapped : ∀ v ∈ hull, ∃ q : Point ℤ, q.InPhoto s ∧
    v = ⟨q.x.bmod UInt32.size, q.y.bmod UInt32.size⟩

variable {spec : FaceSpec} {s : Size} {f : Face Float}

theorem Face.hull?_eq_none_iff : f.hull? spec s = none ↔ f.Flat spec s := broadHull?_eq_none_iff

theorem Face.hasHull_of_hull? (h : f.hull? spec s = some hull) : f.HasHull spec s hull := by
  have hsurrounds := surrounds_of_broadHull? h
  exact ⟨hsurrounds, fun v hv => exists_inPhoto_of_mem_ovalPixels (hsurrounds.subset hv)⟩

/-- In a photo whose places fit in thirty-two bits with a sign, the hull lies in it. -/
theorem Face.HasHull.inPhoto (h : f.HasHull spec s hull) (hwidth : s.width ≤ 2147483648)
    (hheight : s.height ≤ 2147483648) : ∀ v ∈ hull, v.InPhoto s := by
  intro v hv
  obtain ⟨q, hq, rfl⟩ := h.wrapped v hv
  exact hq.wrapped hwidth hheight

/-- The hulls are those of the faces that are not flat, face by face. -/
theorem forall₂_hulls (spec : FaceSpec) (s : Size) (faces : List (Face Float)) :
    List.Forall₂ (Face.HasHull spec s) (faces.filter fun f => ¬f.Flat spec s)
      (faces.filterMap (Face.hull? spec s)) := by
  induction faces with
  | nil => exact .nil
  | cons f rest ih =>
    cases hhull : f.hull? spec s with
    | none =>
      have hflat := Face.hull?_eq_none_iff.mp hhull
      rw [List.filterMap_cons_none hhull, List.filter_cons_of_neg (by simpa using hflat)]
      exact ih
    | some hull =>
      have hbroad : ¬f.Flat spec s := fun hflat => by
        rw [Face.hull?_eq_none_iff.mpr hflat] at hhull
        cases hhull
      rw [List.filterMap_cons_some hhull, List.filter_cons_of_pos (by simpa using hbroad)]
      exact .cons (Face.hasHull_of_hull? hhull) ih

/-- **Hulls surround faces, and only flat faces are passed over.** A search that
fails leaves its fault. Otherwise no face is found exactly if all of the first faces,
as many as may count, are flat: their oval has no pixels or all of them on one line.
If one of them is not, there is a hull for each one that is not, in the order of the
faces. It is a strictly convex polygon of distinct pixels of the oval that encloses
all of these. Its vertices are pixels of the photo with their coordinates kept in
thirty-two bits, so all hulls lie in the photo if no side of it is longer than what
these can count with a sign. -/
theorem faceHulls_surround_faces (s : Size) (found : Detection) (spec : FaceSpec) :
    (∀ fault, found = .error fault → faceHulls s found spec = .error fault) ∧
    ∀ faces, found = .ok faces →
      (faceHulls s found spec = .error .noFaceFound ↔
        ∀ f ∈ faces.take spec.maxFaces, f.Flat spec s) ∧
      ((∃ f ∈ faces.take spec.maxFaces, ¬f.Flat spec s) →
        ∃ hulls, faceHulls s found spec = .ok hulls ∧
          List.Forall₂ (Face.HasHull spec s)
            ((faces.take spec.maxFaces).filter fun f => ¬f.Flat spec s) hulls ∧
          (s.width ≤ 2147483648 → s.height ≤ 2147483648 →
            ∀ hull ∈ hulls, ∀ v ∈ hull, v.InPhoto s)) := by
  refine ⟨?_, ?_⟩
  · rintro fault rfl
    rfl
  · rintro faces rfl
    have hnil : (faces.take spec.maxFaces).filterMap (Face.hull? spec s) = [] ↔
        ∀ f ∈ faces.take spec.maxFaces, f.Flat spec s := by
      simp only [List.filterMap_eq_nil_iff, Face.hull?_eq_none_iff]
    rw [faceHulls_ok]
    refine ⟨?_, ?_⟩
    · rw [← hnil]
      split
      · next hempty => exact iff_of_true rfl hempty
      · next hsome => exact iff_of_false (fun h => by cases h) hsome
    · rintro ⟨f, hf, hbroad⟩
      rw [if_neg fun hempty => hbroad (hnil.mp hempty f hf)]
      refine ⟨_, rfl, forall₂_hulls spec s _, fun hwidth hheight hull hmem => ?_⟩
      obtain ⟨f', -, hhull⟩ := List.mem_filterMap.mp hmem
      exact (Face.hasHull_of_hull? hhull).inPhoto hwidth hheight

section

attribute [local instance] Scalar.exact

/-- A face with three neighbours on the oval in corners of the photo, and all other
landmarks out of it. -/
def cornerFace : Face ℚ :=
  ⟨(List.range 339).map fun i =>
    if i = 10 then { x := 1, y := 0 }
    else if i = 338 then { x := 0, y := 0 }
    else if i = 297 then { x := 0, y := 1 }
    else { x := 2, y := 0 }⟩

/-- **A hull can lie outside a very wide photo.** The last column of the widest photo
is counted as a negative one, and the hull of this face has a vertex there. -/
theorem hull_outside_of_cornerFace :
    cornerFace.ovalPixels ⟨4294967295, 3⟩ (1 / 2) (1 / 2) = [⟨-2, 0⟩, ⟨0, 0⟩, ⟨0, 0⟩, ⟨0, 2⟩] ∧
      broadHull? (cornerFace.ovalPixels ⟨4294967295, 3⟩ (1 / 2) (1 / 2)) =
        some [⟨-2, 0⟩, ⟨0, 0⟩, ⟨0, 2⟩] ∧
      ¬(⟨-2, 0⟩ : Point ℤ).InPhoto ⟨4294967295, 3⟩ := by
  have hpixels : cornerFace.ovalPixels ⟨4294967295, 3⟩ (1 / 2) (1 / 2) =
      [⟨-2, 0⟩, ⟨0, 0⟩, ⟨0, 0⟩, ⟨0, 2⟩] := by decide +kernel
  refine ⟨hpixels, ?_, fun hin => absurd hin.1.1 (by decide)⟩
  rw [hpixels]
  cbv

end

end Montage
