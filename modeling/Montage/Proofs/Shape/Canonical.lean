import Montage.Proofs.Least
import Montage.Proofs.Shape.Polygon
/-!
# The chosen list of vertices

Walked clockwise from the vertex nearest to the origin, a polygon has one list
of vertices, whichever of its lists was given. The winding is settled by the sign
of the area (`clockwise_isRotated`), and the start by the first of the nearest
vertices (`fromOrigin_of_split`). A list that is chosen so is chosen again
(`canonical_listing`). With an area and a single nearest vertex nothing is left
to depend on where the polygon was begun or which way it was walked.
-/

namespace Montage

namespace Polygon

section

variable {K : Type} [Field K] [LinearOrder K] [FloorRing K]

attribute [local instance] Scalar.exact

variable {p q : Polygon K} {o : Point K} {before after rest vs : List (Point K)}

/-! ## The start -/

/-- Turned to its first nearest vertex, a list is cut before that vertex. -/
theorem fromOrigin_of_split (h : p.vertices = before ++ o :: after)
    (hbefore : ∀ v ∈ before, o.coordSum < v.coordSum)
    (hafter : ∀ v ∈ after, o.coordSum ≤ v.coordSum) :
    p.fromOrigin.vertices = o :: (after ++ before) := by
  have hall : ∀ t ∈ p.vertices.map Point.coordSum, o.coordSum ≤ t := by
    intro t ht
    obtain ⟨v, hv, rfl⟩ := List.mem_map.mp ht
    rw [h, List.mem_append, List.mem_cons] at hv
    rcases hv with hv | rfl | hv
    · exact (hbefore v hv).le
    · exact le_rfl
    · exact hafter v hv
  have hmem : o.coordSum ∈ p.vertices.map Point.coordSum := by
    rw [h]
    exact List.mem_map_of_mem (List.mem_append_right _ List.mem_cons_self)
  have hindex : p.originIndex = before.length := by
    let first := fun s => (p.vertices.map Point.coordSum).all fun t => Scalar.notAfter s t
    have hfirst : first o.coordSum = true :=
      List.all_eq_true.mpr fun t ht => (Scalar.notAfter_exact _ t).mpr (hall t ht)
    have hnot : ∀ s ∈ before.map Point.coordSum, first s = false := by
      intro s hs
      obtain ⟨v, hv, rfl⟩ := List.mem_map.mp hs
      refine List.all_eq_false.mpr ⟨o.coordSum, hmem, ?_⟩
      rw [Scalar.notAfter_exact]
      exact (hbefore v hv).not_ge
    have hnone : (before.map Point.coordSum).findIdx first = (before.map Point.coordSum).length :=
      List.findIdx_eq_length_of_false hnot
    show (p.vertices.map Point.coordSum).findIdx first = before.length
    rw [h, List.map_append, List.map_cons, List.findIdx_append, hnone, if_neg (lt_irrefl _),
      List.findIdx_cons, hfirst, cond_true, Nat.zero_add, List.length_map]
  show rotatedBy p.originIndex p.vertices = o :: (after ++ before)
  rw [hindex, h, rotatedBy, List.drop_left, List.take_left, List.cons_append]

/-- **The start of a polygon** is the first of its vertices nearest to the
origin. -/
theorem exists_split_of_ne_nil (h : p.vertices ≠ []) :
    ∃ before o after, p.vertices = before ++ o :: after ∧
      p.fromOrigin.vertices = o :: (after ++ before) ∧
      (∀ v ∈ before, o.coordSum < v.coordSum) ∧ ∀ v ∈ after, o.coordSum ≤ v.coordSum := by
  obtain ⟨v, vs, hvs⟩ := List.exists_cons_of_ne_nil h
  have hleast : FirstLeast (fun v w : Point K => v.coordSum ≤ w.coordSum) (v :: vs) _ :=
    firstLeast_foldl (fun _ _ _ => le_trans) fun _ _ _ _ => le_total _ _
  obtain ⟨before, after, hsplit, hbefore, hafter⟩ := hleast.exists_split
  rw [← hvs] at hsplit
  have hlt : ∀ w ∈ before, _ < w.coordSum := fun w hw => not_le.mp (hbefore w hw)
  exact ⟨before, _, after, hsplit, fromOrigin_of_split hsplit hlt hafter, hlt, hafter⟩

theorem fromOrigin_of_nil (h : p.vertices = []) : p.fromOrigin = p := by
  obtain ⟨vs⟩ := p
  cases h
  rfl

theorem fromOrigin_fromOrigin (p : Polygon K) : p.fromOrigin.fromOrigin = p.fromOrigin := by
  by_cases h : p.vertices = []
  · rw [fromOrigin_of_nil h, fromOrigin_of_nil h]
  · obtain ⟨before, o, after, -, hturned, hbefore, hafter⟩ := exists_split_of_ne_nil h
    have hagain : p.fromOrigin.fromOrigin.vertices = o :: ((after ++ before) ++ []) :=
      fromOrigin_of_split hturned (fun _ hv => absurd hv List.not_mem_nil) fun v hv =>
        (List.mem_append.mp hv).elim (hafter v) fun hv => (hbefore v hv).le
    rw [List.append_nil, ← hturned] at hagain
    exact congrArg mk hagain

/-- A single nearest vertex stays one when the polygon is begun elsewhere or
walked the other way. -/
theorem exists_isRotated_nearest (h : p.vertices = before ++ o :: after)
    (hlt : ∀ v ∈ before ++ after, o.coordSum < v.coordSum)
    (hvs : vs = p.vertices ∨ vs = p.vertices.reverse) :
    ∃ rest, vs ~r o :: rest ∧ ∀ v ∈ rest, o.coordSum < v.coordSum := by
  rcases hvs with rfl | rfl
  · refine ⟨after ++ before, ?_, fun v hv => hlt v (List.perm_append_comm.mem_iff.mp hv)⟩
    rw [h]
    exact (List.isRotated_append : before ++ o :: after ~r o :: after ++ before)
  · refine ⟨before.reverse ++ after.reverse, ?_, fun v hv => hlt v ?_⟩
    · have hreverse : (before ++ o :: after).reverse = after.reverse ++ o :: before.reverse := by
        simp
      rw [h, hreverse]
      exact (List.isRotated_append :
        after.reverse ++ o :: before.reverse ~r o :: before.reverse ++ after.reverse)
    · simpa only [List.mem_append, List.mem_reverse] using hv

/-! ## The winding -/

variable [IsStrictOrderedRing K]

/-- Clockwise, the area counts positive. -/
theorem signedArea_clockwise (p : Polygon K) : p.clockwise.signedArea = |p.signedArea| := by
  rcases le_or_gt 0 p.signedArea with h | h
  · rw [clockwise_of_nonneg h, abs_of_nonneg h]
  · rw [clockwise_of_neg h, signedArea_reverse, abs_of_neg h]

/-- **One winding.** A polygon with an area is walked the same way, clockwise,
however it was walked. -/
theorem clockwise_isRotated (harea : p.signedArea ≠ 0)
    (h : q.vertices ~r p.vertices ∨ q.vertices ~r p.vertices.reverse) :
    q.clockwise.vertices ~r p.clockwise.vertices := by
  rcases h with h | h
  · have hsame : q.signedArea = p.signedArea := signedArea_of_isRotated h
    rcases le_or_gt 0 p.signedArea with hp | hp
    · rwa [clockwise_of_nonneg hp, clockwise_of_nonneg (hsame ▸ hp)]
    · rw [clockwise_of_neg hp, clockwise_of_neg (hsame ▸ hp)]
      exact h.reverse
  · have hother : q.signedArea = -p.signedArea :=
      (signedArea_of_isRotated h).trans (signedArea_reverse p.vertices)
    rcases lt_or_gt_of_ne harea with hp | hp
    · rw [clockwise_of_neg hp, clockwise_of_nonneg (by linarith)]
      exact h
    · rw [clockwise_of_nonneg hp.le, clockwise_of_neg (by linarith)]
      have := h.reverse
      rwa [List.reverse_reverse] at this

/-! ## One list -/

/-- **The chosen list of a polygon.** It is one of the turned lists of the polygon
or of its reverse, and with it the area counts positive. It is cut from the
clockwise list before the first of the vertices with the least coordinate sum.
Choosing again changes nothing. If the polygon has an area and a single vertex
with the least coordinate sum, all of its turned lists and those of its reverse
lead to the same list. -/
theorem canonical_listing (p : Polygon K) :
    (p.clockwise.fromOrigin.vertices ~r p.vertices ∨
      p.clockwise.fromOrigin.vertices ~r p.vertices.reverse) ∧
    p.clockwise.fromOrigin.signedArea = |p.signedArea| ∧
    (p.vertices = [] ∧ p.clockwise.fromOrigin.vertices = [] ∨
      ∃ before o after, p.clockwise.vertices = before ++ o :: after ∧
        p.clockwise.fromOrigin.vertices = o :: (after ++ before) ∧
        (∀ v ∈ before, o.coordSum < v.coordSum) ∧ ∀ v ∈ after, o.coordSum ≤ v.coordSum) ∧
    p.clockwise.fromOrigin.clockwise.fromOrigin = p.clockwise.fromOrigin ∧
    ∀ before o after, p.signedArea ≠ 0 → p.vertices = before ++ o :: after →
      (∀ v ∈ before ++ after, o.coordSum < v.coordSum) →
      ∀ q : Polygon K, q.vertices ~r p.vertices ∨ q.vertices ~r p.vertices.reverse →
        q.clockwise.fromOrigin = p.clockwise.fromOrigin := by
  have hturned := vertices_fromOrigin_isRotated p.clockwise
  have harea : p.clockwise.fromOrigin.signedArea = |p.signedArea| :=
    (signedArea_of_isRotated hturned).trans (signedArea_clockwise p)
  refine ⟨?_, harea, ?_, ?_, fun before o after hp hsplit hlt q hq => ?_⟩
  · rcases p.clockwise_vertices with h | h
    · exact .inl (h ▸ hturned)
    · exact .inr (h ▸ hturned)
  · by_cases hnil : p.clockwise.vertices = []
    · refine .inl ⟨?_, by rw [fromOrigin_of_nil hnil, hnil]⟩
      rcases p.clockwise_vertices with h | h
      · rw [← h, hnil]
      · exact List.reverse_eq_nil_iff.mp (h ▸ hnil)
    · exact .inr (exists_split_of_ne_nil hnil)
  · rw [clockwise_of_nonneg (harea ▸ abs_nonneg _), fromOrigin_fromOrigin]
  · obtain ⟨rest, hrest, hnearest⟩ := exists_isRotated_nearest hsplit hlt p.clockwise_vertices
    have hq := (clockwise_isRotated hp hq).trans hrest
    have heq : q.clockwise.fromOrigin.vertices = p.clockwise.fromOrigin.vertices := by
      rw [vertices_fromOrigin_of_isRotated hq hnearest,
        vertices_fromOrigin_of_isRotated hrest hnearest]
    exact congrArg mk heq

/-- A square, walked counter-clockwise on screen. -/
def tile : Polygon ℚ := ⟨[⟨1, 1⟩, ⟨1, 0⟩, ⟨0, 0⟩, ⟨0, 1⟩]⟩

theorem canonical_listing_tile :
    tile.signedArea = -1 ∧ tile.clockwise.fromOrigin.vertices = [⟨0, 0⟩, ⟨1, 0⟩, ⟨1, 1⟩, ⟨0, 1⟩] ∧
      ∀ q : Polygon ℚ, q.vertices ~r tile.vertices ∨ q.vertices ~r tile.vertices.reverse →
        q.clockwise.fromOrigin = tile.clockwise.fromOrigin := by
  have harea : tile.signedArea = -1 := by decide +kernel
  obtain ⟨-, -, -, -, hone⟩ := canonical_listing tile
  exact ⟨harea, by decide +kernel, hone [⟨1, 1⟩, ⟨1, 0⟩] ⟨0, 0⟩ [⟨0, 1⟩]
    (by rw [harea]; norm_num) rfl (by decide +kernel)⟩

end

end Polygon

end Montage
