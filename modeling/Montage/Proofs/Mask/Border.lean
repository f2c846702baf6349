import Mathlib.Tactic.ByContra
import Montage.Mask.Contour
import Montage.Proofs.Raster
/-!
# Borders — what following one leaves behind

A border is followed over labels. Whatever way it takes, it steps from one
occupied pixel to another, and all it does to a label is to put the number of
the border, with either sign, on an occupied pixel. `Relabels` says this of
the labels before and after; it is kept by each step and so by a whole border
(`follow_relabels`, `trace_relabels`). Hence the pixels of a border are
occupied (`label_of_mem_trace`), and its first pixel is no longer fresh
(`label_start_trace_ne_one`).
-/

namespace Montage

namespace Contour

variable {g g' g'' : Raster Int} {p q start last : Point Int} {number : Nat}

/-! ## Labels -/

/-- The label of a pixel with natural coordinates. -/
@[simp] theorem label_natCast (g : Raster Int) (x y : Nat) :
    label g ⟨x, y⟩ = g.getD x y 0 := by
  simp [label]

/-- **Only pixels of the raster are labelled.** -/
theorem exists_of_label_ne_zero (h : label g p ≠ 0) :
    ∃ x y : Nat, p = ⟨x, y⟩ ∧ g.getD x y 0 ≠ 0 := by
  unfold label at h
  split at h
  · next hp =>
    simp only [Bool.and_eq_true, decide_eq_true_eq] at hp
    exact ⟨p.x.toNat, p.y.toNat, by rw [Int.toNat_of_nonneg hp.1, Int.toNat_of_nonneg hp.2], h⟩
  · exact absurd rfl h

theorem getD_set (r : Raster Int) {x y : Nat} (h : r.getD x y 0 ≠ 0) (a : Int) (x' y' : Nat) :
    (r.set x y a).getD x' y' 0 = if x' = x ∧ y' = y then a else r.getD x' y' 0 := by
  obtain ⟨v, hv, -⟩ := Raster.getD_ne_iff.mp h
  rw [Raster.getD_eq, Raster.getD_eq, Raster.get?_set]
  split
  · rw [hv]
    rfl
  · rfl

/-- A labelled pixel takes a new label, and every other pixel keeps its
own. -/
theorem label_set (h : label g p ≠ 0) (a : Int) (q : Point Int) :
    label (g.set p.x.toNat p.y.toNat a) q = if q = p then a else label g q := by
  obtain ⟨x, y, rfl, hxy⟩ := exists_of_label_ne_zero h
  rw [Int.toNat_natCast, Int.toNat_natCast]
  by_cases hq : 0 ≤ q.x ∧ 0 ≤ q.y
  · obtain ⟨x', hx'⟩ := Int.eq_ofNat_of_zero_le hq.1
    obtain ⟨y', hy'⟩ := Int.eq_ofNat_of_zero_le hq.2
    obtain ⟨qx, qy⟩ := q
    subst hx' hy'
    rw [label_natCast, label_natCast, getD_set g hxy]
    simp only [Point.mk.injEq, Int.natCast_inj]
  · have hne : q ≠ ⟨x, y⟩ := by
      rintro rfl
      exact hq ⟨Int.natCast_nonneg x, Int.natCast_nonneg y⟩
    have houtside (r : Raster Int) : label r q = 0 := if_neg (by simpa using hq)
    rw [if_neg hne, houtside, houtside]

/-! ## Labels before and after -/

/-- The labels `g'` come from `g` by putting a number, with either sign, on
occupied pixels. -/
structure Relabels (number : Nat) (g g' : Raster Int) : Prop where
  size : g'.size = g.size
  label : ∀ p, label g' p = label g p ∨ label g p ≠ 0 ∧ (label g' p).natAbs = number

namespace Relabels

theorem refl (number : Nat) (g : Raster Int) : Relabels number g g := ⟨rfl, fun _ => .inl rfl⟩

theorem trans (h : Relabels number g g') (h' : Relabels number g' g'') :
    Relabels number g g'' where
  size := h'.size.trans h.size
  label p := by
    rcases h'.label p with hkept | ⟨hoccupied, hnew⟩
    · rw [hkept]
      exact h.label p
    · refine .inr ⟨?_, hnew⟩
      rcases h.label p with hkept | ⟨hoccupied', -⟩
      · rwa [← hkept]
      · exact hoccupied'

/-- **The same pixels are occupied.** -/
theorem label_eq_zero_iff (h : Relabels number g g') (hnumber : 2 ≤ number) (p : Point Int) :
    Contour.label g' p = 0 ↔ Contour.label g p = 0 := by
  rcases h.label p with hkept | ⟨hoccupied, hnew⟩
  · rw [hkept]
  · constructor
    · intro hzero
      rw [hzero] at hnew
      change 0 = number at hnew
      omega
    · intro hzero
      exact absurd hzero hoccupied

/-- No pixel becomes fresh. -/
theorem label_eq_one (h : Relabels number g g') (hnumber : 2 ≤ number)
    (hone : Contour.label g' p = 1) : Contour.label g p = 1 := by
  rcases h.label p with hkept | ⟨-, hnew⟩
  · rwa [← hkept]
  · rw [hone] at hnew
    change 1 = number at hnew
    omega

end Relabels

/-- Putting the number of a border on an occupied pixel. -/
theorem relabels_set (h : label g p ≠ 0) {a : Int} (ha : a.natAbs = number) :
    Relabels number g (g.set p.x.toNat p.y.toNat a) where
  size := Raster.size_set ..
  label q := by
    rw [label_set h]
    split
    · next hq =>
      subst hq
      exact .inr ⟨h, ha⟩
    · exact .inl rfl

/-! ## One step -/

theorem passed_relabels (h : label g p ≠ 0) (rightEmpty : Bool) :
    Relabels number g (passed g number p rightEmpty) := by
  unfold passed
  split
  · exact relabels_set h (by omega)
  · split
    · exact relabels_set h (by omega)
    · exact Relabels.refl number g

/-- A pixel that a border has passed is no longer fresh. -/
theorem label_passed_ne_one (h : label g p ≠ 0) (hnumber : 2 ≤ number) (rightEmpty : Bool) :
    label (passed g number p rightEmpty) p ≠ 1 := by
  unfold passed
  split
  · rw [label_set h, if_pos rfl]
    omega
  · split
    · rw [label_set h, if_pos rfl]
      omega
    · next hone =>
      simpa using hone

/-! ## A whole border -/

/-- A border ends at a pixel with no way on. -/
theorem follow_of_find?_eq_none {fuel back : Nat}
    (h : (counterClockwiseAfter back).find? (occupied g p) = none) :
    follow number start last (fuel + 1) g p back = (g, [p]) := by
  rw [follow, h]

/-- One step of a border: the pixel is passed, and the border is closed there
or goes on at the neighbour that was taken. -/
theorem follow_of_find?_eq_some {fuel back taken : Nat}
    (h : (counterClockwiseAfter back).find? (occupied g p) = some taken) :
    follow number start last (fuel + 1) g p back =
      let after := passed g number p (passesRight (counterClockwiseAfter back) taken)
      let rest := follow number start last fuel after (neighbour p taken) ((taken + 4) % 8)
      if neighbour p taken = start ∧ p = last then (after, [p]) else (rest.1, p :: rest.2) := by
  rw [follow, h]
  simp only [Bool.and_eq_true, decide_eq_true_eq]

/-- The neighbour that is taken is occupied. -/
theorem label_neighbour_of_find? {directions : List Nat} {taken : Nat}
    (h : directions.find? (occupied g p) = some taken) : label g (neighbour p taken) ≠ 0 := by
  simpa [occupied] using List.find?_some h

/-- **A border only puts its number on occupied pixels**, and it only passes
such pixels. -/
theorem follow_relabels (hnumber : 2 ≤ number) (fuel : Nat) (h : label g p ≠ 0) (back : Nat) :
    Relabels number g (follow number start last fuel g p back).1 ∧
      ∀ q ∈ (follow number start last fuel g p back).2, label g q ≠ 0 := by
  induction fuel generalizing g p back with
  | zero => exact ⟨Relabels.refl number g, by simp [follow]⟩
  | succ fuel ih =>
    cases hway : (counterClockwiseAfter back).find? (occupied g p) with
    | none =>
      rw [follow_of_find?_eq_none hway]
      exact ⟨Relabels.refl number g, by simpa using h⟩
    | some taken =>
      rw [follow_of_find?_eq_some hway]
      have hpassed : Relabels number g (passed g number p
          (passesRight (counterClockwiseAfter back) taken)) := passed_relabels h _
      have hnext := mt (hpassed.label_eq_zero_iff hnumber _).mp (label_neighbour_of_find? hway)
      obtain ⟨hrest, hmem⟩ := ih hnext ((taken + 4) % 8)
      dsimp only
      split
      · exact ⟨hpassed, by simpa using h⟩
      · refine ⟨hpassed.trans hrest, fun q hq => ?_⟩
        rcases List.mem_cons.mp hq with rfl | hq
        · exact h
        · exact mt (hpassed.label_eq_zero_iff hnumber q).mpr (hmem q hq)

/-- The pixel where a border is taken up is no longer fresh after it, given a
way on from there. -/
theorem label_follow_ne_one (hnumber : 2 ≤ number) (fuel : Nat) (h : label g p ≠ 0) {back : Nat}
    (hway : ∃ d ∈ counterClockwiseAfter back, occupied g p d = true) :
    label (follow number start last (fuel + 1) g p back).1 p ≠ 1 := by
  obtain ⟨taken, htaken⟩ : ∃ taken, (counterClockwiseAfter back).find? (occupied g p) =
      some taken := by
    rwa [← Option.isSome_iff_exists, List.find?_isSome]
  rw [follow_of_find?_eq_some htaken]
  have hpassed : Relabels number g (passed g number p
      (passesRight (counterClockwiseAfter back) taken)) := passed_relabels h _
  have hnext := mt (hpassed.label_eq_zero_iff hnumber _).mp (label_neighbour_of_find? htaken)
  have hfresh : label (passed g number p (passesRight (counterClockwiseAfter back) taken)) p ≠ 1 :=
    label_passed_ne_one h hnumber _
  dsimp only
  split
  · exact hfresh
  · exact mt ((follow_relabels hnumber fuel hnext _).1.label_eq_one hnumber) hfresh

/-- All eight directions are tried. -/
theorem mem_counterClockwiseAfter {back d : Nat} (hd : d < 8) :
    d ∈ counterClockwiseAfter back := by
  simp only [counterClockwiseAfter, List.mem_map, List.mem_range]
  refine ⟨(back + 15 - d) % 8, by omega, ?_⟩
  omega

/-- **Tracing a border only puts its number on occupied pixels.** -/
theorem trace_relabels (hnumber : 2 ≤ number) (h : label g start ≠ 0) (empty : Nat) :
    Relabels number g (trace g number start empty).1 := by
  unfold trace
  split
  · exact relabels_set h (by omega)
  · exact (follow_relabels hnumber _ h _).1

/-- **The pixels of a border are occupied.** -/
theorem label_of_mem_trace (hnumber : 2 ≤ number) (h : label g start ≠ 0) {empty : Nat}
    (hq : q ∈ (trace g number start empty).2) : label g q ≠ 0 := by
  unfold trace at hq
  split at hq
  · rw [List.mem_singleton.mp hq]
    exact h
  · exact (follow_relabels hnumber _ h _).2 q hq

/-- **The pixel where a border starts is no longer fresh after it.** -/
theorem label_start_trace_ne_one (hnumber : 2 ≤ number) (h : label g start ≠ 0) (empty : Nat) :
    label (trace g number start empty).1 start ≠ 1 := by
  unfold trace
  split
  · rw [label_set h, if_pos rfl]
    omega
  · next first hfirst =>
    refine label_follow_ne_one hnumber _ h ⟨first, mem_counterClockwiseAfter ?_, ?_⟩
    · have := List.mem_of_find?_eq_some hfirst
      simp only [clockwiseFrom, List.mem_map, List.mem_range] at this
      omega
    · exact List.find?_some hfirst

end Contour

end Montage
