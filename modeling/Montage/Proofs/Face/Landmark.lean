import Mathlib
import Montage.Proofs.Face.Oval
import Montage.Proofs.Lawful
/-!
# Landmarks — which of them count, and how often

A landmark can be used when it is there, sure, and in the photo. The oval is closed,
so each landmark on it has one before it and one after it, and each edge of the oval
is met at both its ends. Counting at the landmarks in place of the edges, a landmark
that can be used gives its pixel once for each neighbour that can be used too
(`ovalPixels_perm`).

Asking for more, or reporting lower scores, leaves fewer landmarks that can be used
and moves none (`Face.pixel?_of_lowered`). In exact arithmetic the place of a fraction
does not go down when the fraction goes up (`pixelIndex_mono`), and it is the whole part
of the product, or the last place (`pixelIndex_of_nonneg`). Places are kept in thirty-two
bits with a sign, so both ask for a photo whose places fit; a photo one pixel wider has a
place that is counted as a negative one.
-/

namespace Montage

/-! ## Neighbours on a closed list -/

section

variable {β γ : Type}

/-- Each element of a closed list between the one before it and the one after it. -/
def neighbours (xs : List β) : List (β × β × β) :=
  (xs.rotate (xs.length - 1)).zip (xs.zip (xs.rotate 1))

/-- With the ones after them, the elements are the edges. -/
theorem map_snd_neighbours (xs : List β) :
    (neighbours xs).map Prod.snd = xs.zip (xs.rotate 1) := by
  refine List.map_snd_zip ?_
  simp

/-- With the ones before them, they are the edges too. -/
theorem map_fst_neighbours_isRotated (xs : List β) :
    (neighbours xs).map (Prod.map id Prod.fst) ~r xs.zip (xs.rotate 1) := by
  have hpairs : (neighbours xs).map (Prod.map id Prod.fst) = (xs.rotate (xs.length - 1)).zip xs := by
    rw [neighbours, ← List.zip_map_right, List.map_fst_zip (by simp)]
  have hturned : (xs.zip (xs.rotate 1)).rotate (xs.length - 1) =
      (xs.rotate (xs.length - 1)).zip xs := by
    rw [List.zip_eq_zipWith, List.zip_eq_zipWith,
      List.zipWith_rotate_distrib _ _ _ _ (List.length_rotate xs 1).symm, List.rotate_rotate]
    cases xs with
    | nil => rfl
    | cons x rest =>
      have hfull : 1 + ((x :: rest).length - 1) = (x :: rest).length := by
        rw [List.length_cons]
        omega
      rw [hfull, List.rotate_length]
  rw [hpairs, ← hturned]
  exact List.IsRotated.symm ⟨_, rfl⟩

/-- **Counting at the elements.** What the edges of a closed list give at their two
ends is what its elements give, each on the edge that leads to it and on the one that
leads from it. -/
theorem flatMap_edges_perm (xs : List β) (start finish : β × β → List γ) :
    ((xs.zip (xs.rotate 1)).flatMap fun e => start e ++ finish e).Perm
      ((neighbours xs).flatMap fun t => finish (t.1, t.2.1) ++ start t.2) := by
  have hstart : (xs.zip (xs.rotate 1)).flatMap start =
      (neighbours xs).flatMap fun t => start t.2 := by
    rw [← map_snd_neighbours, List.flatMap_map]
  have hfinish : ((xs.zip (xs.rotate 1)).flatMap finish).Perm
      ((neighbours xs).flatMap fun t => finish (t.1, t.2.1)) := by
    refine ((map_fst_neighbours_isRotated xs).perm.flatMap_right finish).symm.trans ?_
    rw [List.flatMap_map]
    rfl
  refine (List.flatMap_append_perm _ start finish).symm.trans (.trans ?_
    (List.flatMap_append_perm _ _ _))
  rw [hstart]
  exact List.perm_append_comm.trans (hfinish.append_right _)

end

/-! ## Landmarks that can be used -/

section

variable {α : Type} [Scalar α] {f : Face α} {s : Size} {visibility presence : α} {i : ℕ}
variable {p : Point ℤ}

/-- Whether the landmark at an index can be used: there is one, it is sure, and its
place is given by fractions. -/
def Face.isUsable (f : Face α) (visibility presence : α) (i : ℕ) : Bool :=
  f.landmarks[i]?.any fun l => l.isConfident visibility presence && isFraction l.x && isFraction l.y

theorem Face.isUsable_iff : f.isUsable visibility presence i = true ↔
    ∃ l, f.landmarks[i]? = some l ∧ l.isConfident visibility presence = true ∧
      isFraction l.x = true ∧ isFraction l.y = true := by
  simp only [isUsable, Option.any_eq_true, Bool.and_eq_true, and_assoc]

/-- **The pixel of a landmark** that can be used, in a photo that has pixels. -/
theorem Face.pixel?_eq_some_iff : f.pixel? s visibility presence i = some p ↔
    (s.width ≠ 0 ∧ s.height ≠ 0) ∧ ∃ l, f.landmarks[i]? = some l ∧
      l.isConfident visibility presence = true ∧ (isFraction l.x = true ∧ isFraction l.y = true) ∧
      p = ⟨pixelIndex l.x s.width, pixelIndex l.y s.height⟩ := by
  rw [pixel?, Option.bind_eq_bind, Option.bind_eq_some_iff]
  constructor
  · rintro ⟨l, hl, h⟩
    split at h
    · next hsure =>
      obtain ⟨hsize, hin, hp⟩ := pixelOf?_eq_some_iff.mp h
      exact ⟨hsize, l, hl, hsure, hin, hp⟩
    · cases h
  · rintro ⟨hsize, l, hl, hsure, hin, hp⟩
    refine ⟨l, hl, ?_⟩
    rw [if_pos hsure]
    exact pixelOf?_eq_some_iff.mpr ⟨hsize, hin, hp⟩

/-- In a photo that has pixels, just the landmarks that can be used have one. -/
theorem Face.isSome_pixel? (hwidth : s.width ≠ 0) (hheight : s.height ≠ 0) :
    (f.pixel? s visibility presence i).isSome = f.isUsable visibility presence i := by
  rw [Bool.eq_iff_iff, isUsable_iff, Option.isSome_iff_exists]
  simp only [pixel?_eq_some_iff]
  constructor
  · rintro ⟨p, -, l, hl, hsure, hin, -⟩
    exact ⟨l, hl, hsure, hin⟩
  · rintro ⟨l, hl, hsure, hin⟩
    exact ⟨_, ⟨hwidth, hheight⟩, l, hl, hsure, hin, rfl⟩

theorem Face.pixel?_eq_none_of_size (h : s.width = 0 ∨ s.height = 0) :
    f.pixel? s visibility presence i = none := by
  rw [Option.eq_none_iff_forall_ne_some]
  intro p hp
  obtain ⟨⟨hwidth, hheight⟩, -⟩ := pixel?_eq_some_iff.mp hp
  exact h.elim hwidth hheight

/-! ## Counting the pixels of an oval -/

/-- The pixels of the ends of an edge, if both ends have one. -/
def Face.ends (f : Face α) (s : Size) (visibility presence : α) (e : ℕ × ℕ) : List (Point ℤ) :=
  match f.pixel? s visibility presence e.1, f.pixel? s visibility presence e.2 with
  | some p, some q => [p, q]
  | _, _ => []

theorem ovalPixels_eq (f : Face α) (s : Size) (visibility presence : α) :
    f.ovalPixels s visibility presence = ovalEdges.flatMap (f.ends s visibility presence) := rfl

/-- An edge gives the pixel of each of its ends if the other end can be used. -/
theorem Face.ends_eq (f : Face α) (s : Size) (visibility presence : α) (e : ℕ × ℕ) :
    f.ends s visibility presence e =
      (if f.isUsable visibility presence e.2 then (f.pixel? s visibility presence e.1).toList
        else []) ++
        if f.isUsable visibility presence e.1 then (f.pixel? s visibility presence e.2).toList
        else [] := by
  rw [ends]
  by_cases hsize : s.width = 0 ∨ s.height = 0
  · simp only [pixel?_eq_none_of_size hsize, Option.toList_none, ite_self, List.append_nil]
  · obtain ⟨hwidth, hheight⟩ := not_or.mp hsize
    simp only [← isSome_pixel? (f := f) hwidth hheight]
    cases f.pixel? s visibility presence e.1 <;> cases f.pixel? s visibility presence e.2 <;> rfl

/-- What a landmark, between two others on the oval, gives to the oval's pixels: its
pixel, once for each of the two that can be used. -/
def Face.share (f : Face α) (s : Size) (visibility presence : α) :
    ℕ × ℕ × ℕ → List (Point ℤ)
  | (before, i, after) =>
    ([before, after].filter (f.isUsable visibility presence)).flatMap fun _ =>
      (f.pixel? s visibility presence i).toList

theorem Face.share_eq (f : Face α) (s : Size) (visibility presence : α) (t : ℕ × ℕ × ℕ) :
    f.share s visibility presence t =
      (if f.isUsable visibility presence t.1 then (f.pixel? s visibility presence t.2.1).toList
        else []) ++
        if f.isUsable visibility presence t.2.2 then (f.pixel? s visibility presence t.2.1).toList
        else [] := by
  obtain ⟨before, i, after⟩ := t
  rw [share, List.filter_cons, List.filter_cons, List.filter_nil]
  cases f.isUsable visibility presence before <;> cases f.isUsable visibility presence after <;>
    simp

theorem nodup_ovalIndices : ovalIndices.Nodup := by decide

/-- **The pixels of an oval, landmark by landmark.** -/
theorem ovalPixels_perm (f : Face α) (s : Size) (visibility presence : α) :
    (f.ovalPixels s visibility presence).Perm
      ((neighbours ovalIndices).flatMap (f.share s visibility presence)) := by
  have hedges : ovalEdges = ovalIndices.zip (ovalIndices.rotate 1) := by
    rw [← rotatedBy_one]
    rfl
  rw [ovalPixels_eq, hedges, funext (f.ends_eq s visibility presence),
    funext (f.share_eq s visibility presence)]
  exact flatMap_edges_perm ovalIndices _ _

/-- An edge gives both pixels or none. -/
theorem even_length_ovalPixels (f : Face α) (s : Size) (visibility presence : α) :
    Even (f.ovalPixels s visibility presence).length := by
  rw [ovalPixels_eq]
  induction ovalEdges with
  | nil => exact Even.zero
  | cons e rest ih =>
    rw [List.flatMap_cons, List.length_append]
    refine Even.add ?_ ih
    rw [Face.ends]
    split
    · exact even_two
    · exact Even.zero

end

/-! ## Asking for more, and reporting less -/

section

variable {α : Type} [Geometric α] {f f' : Face α} {l l' : Landmark α} {s : Size} {i : ℕ}
variable {p : Point ℤ} {x y visibility visibility' presence presence' threshold threshold' : α}
variable {score score' : Option α}

/-- The same scalar, or one that is no greater. -/
def Scalar.AtMost (x y : α) : Prop := x = y ∨ Scalar.le x y = true

/-- The score that was reported, or one that is no greater. A score that was not
reported stays so. -/
inductive Lowered : Option α → Option α → Prop
  | unreported : Lowered none none
  | reported {v v' : α} (h : Scalar.AtMost v' v) : Lowered (some v) (some v')

/-- The landmark at the same place, with scores that are no greater. -/
structure Landmark.Lowered (l l' : Landmark α) : Prop where
  x_eq : l'.x = l.x
  y_eq : l'.y = l.y
  visibility : Montage.Lowered l.visibility l'.visibility
  presence : Montage.Lowered l.presence l'.presence

/-- The face with some scores of its landmarks lowered. -/
def Face.Lowered (f f' : Face α) : Prop :=
  List.Forall₂ Landmark.Lowered f.landmarks f'.landmarks

variable [Geometric.Lawful α]

theorem Scalar.AtMost.trans_le (h : Scalar.AtMost x threshold) (hle : Scalar.le threshold y = true) :
    Scalar.le x y = true := by
  rcases h with rfl | h
  · exact hle
  · exact Geometric.Lawful.le_trans _ _ _ h hle

/-- A lowered score that reaches a threshold did so before, and reached any lower
threshold. -/
theorem Lowered.reaches (h : Lowered score score') (hthreshold : Scalar.AtMost threshold threshold')
    (hreaches : Landmark.reaches threshold' score' = true) :
    Landmark.reaches threshold score = true := by
  cases h with
  | unreported => rfl
  | reported h =>
    rcases h with rfl | h
    · exact hthreshold.trans_le hreaches
    · exact hthreshold.trans_le (Geometric.Lawful.le_trans _ _ _ hreaches h)

theorem Landmark.Lowered.isConfident (h : l.Lowered l')
    (hvisibility : Scalar.AtMost visibility visibility')
    (hpresence : Scalar.AtMost presence presence')
    (hsure : l'.isConfident visibility' presence' = true) :
    l.isConfident visibility presence = true := by
  rw [Landmark.isConfident, Bool.and_eq_true] at hsure ⊢
  exact ⟨h.visibility.reaches hvisibility hsure.1, h.presence.reaches hpresence hsure.2⟩

/-- **A landmark that counts with lowered scores or higher thresholds** counted before,
at the same pixel. -/
theorem Face.pixel?_of_lowered (h : f.Lowered f')
    (hvisibility : Scalar.AtMost visibility visibility')
    (hpresence : Scalar.AtMost presence presence')
    (hpixel : f'.pixel? s visibility' presence' i = some p) :
    f.pixel? s visibility presence i = some p := by
  obtain ⟨hsize, l', hl', hsure, hin, rfl⟩ := pixel?_eq_some_iff.mp hpixel
  obtain ⟨hi', rfl⟩ := List.getElem?_eq_some_iff.mp hl'
  have hi : i < f.landmarks.length := h.length_eq ▸ hi'
  have hlowered : f.landmarks[i].Lowered f'.landmarks[i] := h.get hi hi'
  rw [hlowered.x_eq, hlowered.y_eq] at hin ⊢
  exact pixel?_eq_some_iff.mpr ⟨hsize, _, List.getElem?_eq_getElem hi,
    hlowered.isConfident hvisibility hpresence hsure, hin, rfl⟩

/-- **Fewer pixels.** -/
theorem ovalPixels_sublist (h : f.Lowered f') (hvisibility : Scalar.AtMost visibility visibility')
    (hpresence : Scalar.AtMost presence presence') (s : Size) :
    (f'.ovalPixels s visibility' presence').Sublist (f.ovalPixels s visibility presence) := by
  rw [ovalPixels_eq, ovalPixels_eq]
  refine List.Sublist.flatMap_right _ fun e _ => ?_
  rw [Face.ends]
  split
  · next p q hp hq =>
    have hp := Face.pixel?_of_lowered h hvisibility hpresence hp
    have hq := Face.pixel?_of_lowered h hvisibility hpresence hq
    rw [Face.ends, hp, hq]
  · exact List.nil_sublist _

end

/-! ## Places of fractions -/

section

variable {K : Type} [Field K] [LinearOrder K] [FloorRing K]

attribute [local instance] Scalar.exact

variable [IsStrictOrderedRing K] {v w : K} {n : ℕ}

/-- In exact arithmetic, a place is the whole part of the product, moved into the
photo. -/
theorem pixelIndex_exact (v : K) (hpos : 0 < n) (hn : n ≤ 2147483648) :
    pixelIndex v n = max 0 (min ((n : ℤ) - 1) ⌊v * n⌋) := by
  rw [pixelIndex, Scalar.floor_exact, Scalar.truncate_intCast, Scalar.ofNat_exact]
  exact bmod_of_place hn (by omega)

/-- **Places do not go down** when fractions go up. -/
theorem pixelIndex_mono (hpos : 0 < n) (hn : n ≤ 2147483648) (h : v ≤ w) :
    pixelIndex v n ≤ pixelIndex w n := by
  have hfloor : ⌊v * n⌋ ≤ ⌊w * n⌋ :=
    Int.floor_le_floor (mul_le_mul_of_nonneg_right h (Nat.cast_nonneg n))
  rw [pixelIndex_exact v hpos hn, pixelIndex_exact w hpos hn]
  omega

/-- **The place of a fraction.** -/
theorem pixelIndex_of_nonneg (hv : 0 ≤ v) (hpos : 0 < n) (hn : n ≤ 2147483648) :
    pixelIndex v n = min ⌊v * n⌋ (n - 1) := by
  have hfloor : 0 ≤ ⌊v * n⌋ := Int.floor_nonneg.mpr (mul_nonneg hv (Nat.cast_nonneg n))
  rw [pixelIndex_exact v hpos hn]
  omega

theorem isFraction_of_mem (hv : 0 ≤ v) (hone : v ≤ 1) : isFraction v = true := by
  have htolerance : (0 : K) ≤ 1 / 10 ^ 6 := by positivity
  simp only [isFraction, Bool.and_eq_true, Bool.or_eq_true, Scalar.lt_exact, Scalar.le_exact,
    Scalar.zero_exact, Scalar.one_exact, Scalar.abs_exact, fractionTolerance,
    Scalar.ofDecimal_exact, Nat.cast_one]
  constructor
  · rcases hv.lt_or_eq with hlt | rfl
    · exact .inl hlt
    · exact .inr (abs_zero.trans_le htolerance)
  · rcases hone.lt_or_eq with hlt | rfl
    · exact .inl hlt
    · rw [sub_self]
      exact .inr (abs_zero.trans_le htolerance)

variable {x y x' y' : K} {s : Size} {p p' : Point ℤ}

/-- **Pixels move with the fractions**, each coordinate with its own. -/
theorem pixelOf?_mono (hwidth : s.width ≤ 2147483648) (hheight : s.height ≤ 2147483648)
    (hp : pixelOf? x y s = some p) (hp' : pixelOf? x' y' s = some p') :
    (x ≤ x' → p.x ≤ p'.x) ∧ (y ≤ y' → p.y ≤ p'.y) := by
  obtain ⟨⟨hw, hh⟩, -, rfl⟩ := pixelOf?_eq_some_iff.mp hp
  obtain ⟨-, -, rfl⟩ := pixelOf?_eq_some_iff.mp hp'
  exact ⟨pixelIndex_mono (Nat.pos_of_ne_zero hw) hwidth,
    pixelIndex_mono (Nat.pos_of_ne_zero hh) hheight⟩

/-- **The pixel of fractions** from zero to one. -/
theorem pixelOf?_of_mem (hw : 0 < s.width) (hwidth : s.width ≤ 2147483648) (hh : 0 < s.height)
    (hheight : s.height ≤ 2147483648) (hx : 0 ≤ x) (hx' : x ≤ 1) (hy : 0 ≤ y) (hy' : y ≤ 1) :
    pixelOf? x y s =
      some ⟨min ⌊x * s.width⌋ (s.width - 1), min ⌊y * s.height⌋ (s.height - 1)⟩ := by
  refine pixelOf?_eq_some_iff.mpr ⟨⟨hw.ne', hh.ne'⟩,
    ⟨isFraction_of_mem hx hx', isFraction_of_mem hy hy'⟩, ?_⟩
  rw [pixelIndex_of_nonneg hx hw hwidth, pixelIndex_of_nonneg hy hh hheight]

end

/-! ## The pixels of an oval -/

section

attribute [local instance] Scalar.exact

/-- **The pixels of a face's oval.** Their number is even, and each is a pixel of the
photo with its coordinates kept in thirty-two bits. In a photo that has pixels, just
the landmarks that can be used have one. No landmark is met twice around the oval;
each gives its pixel once for each of its two neighbours that can be used, and there
are no other pixels. With higher thresholds or lower scores some are left out, and none
moves. As long as all places of the photo can be counted in thirty-two bits with a
sign, the pixels lie in the photo; in exact arithmetic a pixel then does not go back
when a fraction goes up, and the pixel of fractions from zero to one is at the whole
parts of the products, or at the last place. -/
theorem ovalPixels_law {α : Type} [Geometric α] [Geometric.Lawful α] (K : Type) [Field K]
    [LinearOrder K] [IsStrictOrderedRing K] [FloorRing K] (f : Face α) (s : Size)
    (visibility presence : α) :
    Even (f.ovalPixels s visibility presence).length ∧
    (∀ p ∈ f.ovalPixels s visibility presence,
      ∃ q : Point ℤ, q.InPhoto s ∧ p = ⟨q.x.bmod UInt32.size, q.y.bmod UInt32.size⟩) ∧
    (s.width ≠ 0 → s.height ≠ 0 → ∀ i,
      (f.pixel? s visibility presence i).isSome = f.isUsable visibility presence i) ∧
    ovalIndices.Nodup ∧
    (f.ovalPixels s visibility presence).Perm
      ((neighbours ovalIndices).flatMap (f.share s visibility presence)) ∧
    (∀ f' visibility' presence', f.Lowered f' → Scalar.AtMost visibility visibility' →
      Scalar.AtMost presence presence' →
      (f'.ovalPixels s visibility' presence').Sublist (f.ovalPixels s visibility presence)) ∧
    (s.width ≤ 2147483648 → s.height ≤ 2147483648 →
      (∀ p ∈ f.ovalPixels s visibility presence, p.InPhoto s) ∧
      (∀ (x y x' y' : K) (p p' : Point ℤ), pixelOf? x y s = some p → pixelOf? x' y' s = some p' →
        (x ≤ x' → p.x ≤ p'.x) ∧ (y ≤ y' → p.y ≤ p'.y)) ∧
      ∀ x y : K, 0 < s.width → 0 < s.height → 0 ≤ x → x ≤ 1 → 0 ≤ y → y ≤ 1 →
        pixelOf? x y s =
          some ⟨min ⌊x * s.width⌋ (s.width - 1), min ⌊y * s.height⌋ (s.height - 1)⟩) := by
  refine ⟨even_length_ovalPixels f s visibility presence,
    fun p hp => exists_inPhoto_of_mem_ovalPixels hp, fun hw hh i => Face.isSome_pixel? hw hh,
    nodup_ovalIndices, ovalPixels_perm f s visibility presence, ?_,
    fun hwidth hheight => ⟨?_, ?_, ?_⟩⟩
  · intro f' visibility' presence' h hvisibility hpresence
    exact ovalPixels_sublist h hvisibility hpresence s
  · intro p hp
    exact inPhoto_of_mem_ovalPixels hp hwidth hheight
  · intro x y x' y' p p' hp hp'
    exact pixelOf?_mono hwidth hheight hp hp'
  · intro x y hw hh hx hx' hy hy'
    exact pixelOf?_of_mem hw hwidth hh hheight hx hx' hy hy'

/-- A face with two neighbours on the oval at the right border of the photo, and all
other landmarks out of it. -/
def brink (α : Type) [Scalar α] : Face α :=
  ⟨(List.range 339).map fun i =>
    if i = 10 ∨ i = 338 then { x := Scalar.one, y := Scalar.zero }
    else { x := Scalar.ofNat 2, y := Scalar.zero }⟩

/-- In the widest photo whose places can be counted, the pixels of this face lie in the
photo. -/
theorem ovalPixels_law_of_brink :
    Even ((brink Float).ovalPixels ⟨2147483648, 1⟩ 0.5 0.5).length ∧
      (∀ p ∈ (brink Float).ovalPixels ⟨2147483648, 1⟩ 0.5 0.5, p.InPhoto ⟨2147483648, 1⟩) ∧
      pixelOf? (1 : ℚ) 0 ⟨2147483648, 1⟩ = some ⟨2147483647, 0⟩ := by
  obtain ⟨heven, -, -, -, -, -, hin⟩ := ovalPixels_law ℚ (brink Float) ⟨2147483648, 1⟩ 0.5 0.5
  obtain ⟨hphoto, -, hplace⟩ := hin (by decide) (by decide)
  refine ⟨heven, hphoto, (hplace 1 0 (by decide) (by decide) ?_ ?_ ?_ ?_).trans ?_⟩
  · norm_num
  · norm_num
  · norm_num
  · norm_num
  · norm_num

/-- **In a photo one pixel wider, the last place is counted as a negative one**, which
is none of the photo's. -/
theorem ovalPixels_beyond_photo :
    (brink ℚ).ovalPixels ⟨2147483649, 1⟩ (1 / 2) (1 / 2) =
        [⟨-2147483648, 0⟩, ⟨-2147483648, 0⟩] ∧
      ¬∀ p ∈ (brink ℚ).ovalPixels ⟨2147483649, 1⟩ (1 / 2) (1 / 2), p.InPhoto ⟨2147483649, 1⟩ := by
  have hpixels : (brink ℚ).ovalPixels ⟨2147483649, 1⟩ (1 / 2) (1 / 2) =
      [⟨-2147483648, 0⟩, ⟨-2147483648, 0⟩] := by decide +kernel
  refine ⟨hpixels, fun hall => ?_⟩
  have hfirst := hall ⟨-2147483648, 0⟩ (by rw [hpixels]; exact List.mem_cons_self)
  exact absurd hfirst.1.1 (by decide)

end

end Montage
