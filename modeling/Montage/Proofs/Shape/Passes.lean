import Montage.Proofs.Least
import Montage.Proofs.Lawful
import Montage.Proofs.Shape.Collapse
/-!
# Passes — a reduction, pass by pass

A reduction goes on as long as there are more vertices than wanted. What it does
to any list of points, in any arithmetic, is told here as a relation: `Passes
sides vs k r` says that `k` passes lead from the points `vs` to the result `r`.
Each pass collapses an edge that can be collapsed and puts one point in the place
of its two ends (`replaced_apply`), so each leaves one point less, and
the number of passes is bounded by that (`Passes.outcome`).

Which edge a pass chooses depends on comparisons of areas. Where these are the
answers of an order, it is one that adds least, the first of them
(`chosen_smallest`): the added areas are roots, and so they are numbers
(`isNumber_triangleArea`).
-/

namespace Montage

namespace Ngon

variable {α : Type} [Geometric α] {vs ws : List (Point α)} {c : Collapse α} {sides : ℕ}

/-! ## Edges that can be collapsed -/

/-- **A collapse of an edge of a closed list of points.** The edge joins the point
with its index to the next one around the list. With the points beside them, the
angles are wide and the prolonged edges meet in the apex. -/
def IsCollapse (vs : List (Point α)) (c : Collapse α) : Prop :=
  ∃ a p q b : Point α, vs[(c.edge + (vs.length - 1)) % vs.length]? = some a ∧
    vs[c.edge]? = some p ∧ vs[(c.edge + 1) % vs.length]? = some q ∧
    vs[(c.edge + 2) % vs.length]? = some b ∧
    Collapsible a p q b c.apex ∧ c.added = triangleArea p c.apex q

theorem IsCollapse.edge_lt (h : IsCollapse vs c) : c.edge < vs.length := by
  obtain ⟨a, p, q, b, -, hp, -⟩ := h
  exact (List.getElem?_eq_some_iff.mp hp).1

/-- **All edges are looked at**, each once and each with its neighbours. -/
theorem mem_collapses_iff_isCollapse : c ∈ collapses vs ↔ IsCollapse vs c := by
  rw [mem_collapses]
  constructor
  · rintro ⟨i, a, p, q, b, ha, hp, hq, hb, hc⟩
    have hi : i < vs.length := (List.getElem?_eq_some_iff.mp hp).1
    obtain ⟨hcollapsible, heq⟩ := collapse?_eq_some_iff.mp hc
    have hedge : c.edge = i := by rw [heq]
    rw [List.getElem?_rotate hi] at ha hq hb
    subst hedge
    exact ⟨a, p, q, b, ha, hp, hq, hb, hcollapsible, congrArg Collapse.added heq⟩
  · rintro ⟨a, p, q, b, ha, hp, hq, hb, hcollapsible, hadded⟩
    have hi : c.edge < vs.length := (List.getElem?_eq_some_iff.mp hp).1
    have heq : c = ⟨c.edge, c.apex, triangleArea p c.apex q⟩ := by rw [← hadded]
    refine ⟨c.edge, a, p, q, b, ?_, hp, ?_, ?_, collapse?_eq_some_iff.mpr ⟨hcollapsible, heq⟩⟩
    · rw [List.getElem?_rotate hi, ha]
    · rw [List.getElem?_rotate hi, hq]
    · rw [List.getElem?_rotate hi, hb]

theorem pairwise_zipIdx {β : Type} (xs : List β) : xs.zipIdx.Pairwise fun x y => x.2 < y.2 := by
  rw [← List.pairwise_map (f := Prod.snd), List.zipIdx_map_snd]
  exact List.pairwise_lt_range' 1

/-- The edges are looked at in their order. -/
theorem pairwise_collapses (vs : List (Point α)) :
    (collapses vs).Pairwise fun c d => c.edge < d.edge := by
  refine List.pairwise_filterMap.mpr ((pairwise_zipIdx _).imp ?_)
  rintro ⟨⟨⟨a, p⟩, q, b⟩, i⟩ ⟨⟨⟨a', p'⟩, q', b'⟩, j⟩ hlt c hc d hd
  obtain ⟨-, hc⟩ := collapse?_eq_some_iff.mp hc
  obtain ⟨-, hd⟩ := collapse?_eq_some_iff.mp hd
  rw [hc, hd]
  exact hlt

/-! ## The chosen edge -/

/-- **Added areas are numbers.** -/
theorem isNumber_triangleArea [Geometric.Lawful α] (a b c : Point α) :
    Scalar.isNumber (triangleArea a b c) = true := by
  unfold triangleArea
  refine Geometric.Lawful.isNumber_sqrt _ ?_ ?_
  · exact (Geometric.Lawful.greatest_zero _).1
  · exact (Geometric.Lawful.greatest_zero _).2

theorem IsCollapse.isNumber_added [Geometric.Lawful α] (h : IsCollapse vs c) :
    Scalar.isNumber c.added = true := by
  obtain ⟨a, p, q, b, -, -, -, -, -, hadded⟩ := h
  rw [hadded]
  exact isNumber_triangleArea p c.apex q

/-- **The edge that a pass chooses.** It can be collapsed. Where comparisons are
those of an order, no edge adds less, and none before it adds as little. -/
structure Chosen (vs : List (Point α)) (c : Collapse α) : Prop where
  isCollapse : IsCollapse vs c
  least : Geometric.Lawful α → ∀ d, IsCollapse vs d →
    Scalar.le c.added d.added = true ∧ (d.edge < c.edge → Scalar.le d.added c.added = false)

theorem smallest_eq_foldl (best : Collapse α) (cs : List (Collapse α)) :
    smallest best cs =
      cs.foldl (fun b c => if Scalar.le b.added c.added = true then b else c) best := by
  induction cs generalizing best with
  | nil => rfl
  | cons c rest ih => exact ih _

/-- **The choice of a pass.** -/
theorem chosen_smallest {best : Collapse α} {rest : List (Collapse α)}
    (h : collapses vs = best :: rest) : Chosen vs (smallest best rest) := by
  have hmem : smallest best rest ∈ collapses vs := h ▸ smallest_mem best rest
  refine ⟨mem_collapses_iff_isCollapse.mp hmem, ?_⟩
  intro hlawful d hd
  have htotal : ∀ c ∈ best :: rest, ∀ d ∈ best :: rest,
      Scalar.le c.added d.added = true ∨ Scalar.le d.added c.added = true := by
    rw [← h]
    intro c hc d hd
    exact Geometric.Lawful.le_total _ _ (mem_collapses_iff_isCollapse.mp hc).isNumber_added
      (mem_collapses_iff_isCollapse.mp hd).isNumber_added
  have hleast : FirstLeast (fun c d : Collapse α => Scalar.le c.added d.added = true)
      (best :: rest) (smallest best rest) := by
    rw [smallest_eq_foldl]
    exact firstLeast_foldl (fun _ _ _ => Geometric.Lawful.le_trans _ _ _) htotal
  have hd := mem_collapses_iff_isCollapse.mpr hd
  refine ⟨hleast.rel_of_mem htotal (h ▸ hd), ?_⟩
  intro hlt
  -- the edges after the chosen one have higher indices
  obtain ⟨before, after, hsplit, hbefore, -⟩ := hleast.exists_split
  have hsorted := pairwise_collapses vs
  rw [h, hsplit] at hd hsorted
  rcases List.mem_append.mp hd with hd | hd
  · exact Bool.eq_false_iff.mpr (hbefore d hd)
  · rcases List.mem_cons.mp hd with rfl | hd
    · exact absurd hlt (lt_irrefl _)
    · have hafter := (List.pairwise_cons.mp (List.pairwise_append.mp hsorted).2.1).1 d hd
      omega

/-! ## The point in the place of two -/

/-- **One point in the place of two.** Listed from the first end of the edge on,
both ends are replaced by the apex and all else stays as it is. A point alone,
whose edge leads back to it, is both ends; it is left out. -/
def Replaced (c : Collapse α) (vs ws : List (Point α)) : Prop :=
  (∃ p q rest, vs.rotate c.edge = p :: q :: rest ∧ ws ~r c.apex :: rest) ∨
    ∃ p, vs = [p] ∧ ws = []

omit [Geometric α] in
theorem replaced_apply (h : c.edge < vs.length) : Replaced c vs (c.apply vs) := by
  by_cases hlen : 2 ≤ vs.length
  · rw [← List.length_rotate vs c.edge] at hlen
    obtain ⟨p, q, rest, hturned⟩ := exists_cons_cons_of_length hlen
    exact .inl ⟨p, q, rest, hturned, eraseIdx_set_isRotated h hturned c.apex⟩
  · have hone : vs.length = 1 := by omega
    obtain ⟨p, rfl⟩ := List.length_eq_one_iff.mp hone
    refine .inr ⟨p, rfl, ?_⟩
    have hedge : c.edge = 0 := by omega
    rw [Collapse.apply, hedge, List.length_singleton, Nat.mod_self]
    rfl

omit [Geometric α] in
/-- One point less. -/
theorem Replaced.length_eq (h : Replaced c vs ws) : vs.length = ws.length + 1 := by
  rcases h with ⟨p, q, rest, hvs, hws⟩ | ⟨p, rfl, rfl⟩
  · rw [hws.perm.length_eq, ← List.length_rotate vs c.edge, hvs]
    rfl
  · rfl

/-! ## Reductions -/

/-- **A reduction in passes.** As long as there are more points than wanted, the
chosen edge is collapsed; the reduction stalls where no edge can be. -/
inductive Passes (sides : ℕ) : List (Point α) → ℕ → Except Fault (List (Point α)) → Prop
  | done {vs : List (Point α)} : vs.length ≤ sides → Passes sides vs 0 (.ok vs)
  | stalled {vs : List (Point α)} : sides < vs.length → (∀ c, ¬IsCollapse vs c) →
      Passes sides vs 0 (.error (.noFitFound vs.length))
  | pass {vs ws : List (Point α)} {c : Collapse α} {k : ℕ} {r : Except Fault (List (Point α))} :
      sides < vs.length → Chosen vs c → Replaced c vs ws → Passes sides ws k r →
      Passes sides vs (k + 1) r

/-- **A reduction is made in passes**, at most as many as there are points too
many. -/
theorem passes_reduce {count : ℕ} (h : vs.length = sides + count) :
    ∃ k ≤ count, Passes sides vs k (reduce count vs) := by
  induction count generalizing vs with
  | zero => exact ⟨0, le_rfl, .done (by omega)⟩
  | succ count ih =>
    have hmore : sides < vs.length := by omega
    rw [reduce]
    cases hc : collapses vs with
    | nil =>
      refine ⟨0, Nat.zero_le _, .stalled hmore ?_⟩
      intro c hcollapse
      have hmem := mem_collapses_iff_isCollapse.mpr hcollapse
      rw [hc] at hmem
      cases hmem
    | cons best rest =>
      have hchosen := chosen_smallest hc
      have hreplaced := replaced_apply hchosen.isCollapse.edge_lt
      have hless := hreplaced.length_eq
      have hcount : ((smallest best rest).apply vs).length = sides + count := by omega
      obtain ⟨k, hk, hpasses⟩ := ih hcount
      exact ⟨k + 1, by omega, .pass hmore hchosen hreplaced hpasses⟩

/-- **What comes of a reduction.** Each pass leaves one point less. In the end
there are as many as wanted, or the reduction stalls with more of them. -/
theorem Passes.outcome {k : ℕ} {r : Except Fault (List (Point α))} (h : Passes sides vs k r)
    (hle : sides ≤ vs.length) :
    (∃ ws, r = .ok ws ∧ ws.length = sides) ∨
      ∃ n, r = .error (.noFitFound n) ∧ sides < n ∧ n ≤ vs.length := by
  induction h with
  | done hless => exact .inl ⟨_, rfl, by omega⟩
  | stalled hmore => exact .inr ⟨_, rfl, hmore, le_rfl⟩
  | pass hmore _ hreplaced _ ih =>
    have hless := hreplaced.length_eq
    refine (ih (by omega)).imp id ?_
    rintro ⟨n, hr, hn, hn'⟩
    exact ⟨n, hr, hn, by omega⟩

/-- **Fitting, pass by pass, in any arithmetic.** Whatever points are given, and
however many vertices are wanted: there are too few points, and just then this is
the fault; or the points are reduced in passes, at most as many as there are
points too many, and the result is listed clockwise from the origin. It has as
many vertices as wanted, or the reduction stalls at a number of points that is
above the wanted one and at most the given one. -/
theorem fit_in_passes (hull : Polygon α) (sides : ℕ) :
    (∀ n m, fit hull sides = .error (.hullTooSmall n m) ↔
      hull.vertices.length < sides ∧ n = hull.vertices.length ∧ m = sides) ∧
    (sides ≤ hull.vertices.length →
      (∃ k r, k ≤ hull.vertices.length - sides ∧ Passes sides hull.vertices k r ∧
        fit hull sides = r.map fun vs => (Polygon.mk vs).clockwise.fromOrigin) ∧
      ((∃ q, fit hull sides = .ok q ∧ q.vertices.length = sides) ∨
        ∃ n, fit hull sides = .error (.noFitFound n) ∧ sides < n ∧ n ≤ hull.vertices.length)) := by
  by_cases hlt : hull.vertices.length < sides
  · refine ⟨fun n m => ?_, fun hle => absurd hlt hle.not_gt⟩
    rw [fit_of_lt hlt]
    constructor
    · intro h
      cases h
      exact ⟨hlt, rfl, rfl⟩
    · rintro ⟨-, rfl, rfl⟩
      rfl
  · have hle : sides ≤ hull.vertices.length := not_lt.mp hlt
    have hcount : hull.vertices.length = sides + (hull.vertices.length - sides) := by omega
    obtain ⟨k, hk, hpasses⟩ := passes_reduce hcount
    have hfit := fit_of_le hle
    have hresult : (∃ q, fit hull sides = .ok q ∧ q.vertices.length = sides) ∨
        ∃ n, fit hull sides = .error (.noFitFound n) ∧ sides < n ∧ n ≤ hull.vertices.length := by
      rw [hfit]
      rcases hpasses.outcome hle with ⟨ws, hok, hws⟩ | ⟨n, herror, hn⟩
      · rw [hok]
        exact .inl ⟨_, rfl, (Polygon.length_canonical _).trans hws⟩
      · rw [herror]
        exact .inr ⟨n, rfl, hn⟩
    refine ⟨fun n m => ?_, fun _ => ⟨⟨k, _, hk, hpasses, hfit⟩, hresult⟩⟩
    constructor
    · intro h
      rw [h] at hresult
      rcases hresult with ⟨q, hq, -⟩ | ⟨n', hn', -⟩
      · cases hq
      · cases hn'
    · rintro ⟨hmore, -, -⟩
      exact absurd hmore hlt

/-- Three points of which one is no number and one is at infinity. -/
def scattered : Polygon Float := ⟨[⟨0.0, 0.0⟩, ⟨0.0 / 0.0, 1.0⟩, ⟨2.0, 1.0 / 0.0⟩]⟩

/-- Doubles have a lawful arithmetic, whichever of them are given. -/
theorem fit_in_passes_scattered :
    Geometric.Lawful Float ∧
      (∃ k r, k ≤ 2 ∧ Passes 1 scattered.vertices k r ∧
        fit scattered 1 = r.map fun vs => (Polygon.mk vs).clockwise.fromOrigin) ∧
      fit scattered 4 = .error (.hullTooSmall 3 4) := by
  obtain ⟨-, hpasses⟩ := fit_in_passes scattered 1
  obtain ⟨hsmall, -⟩ := fit_in_passes scattered 4
  exact ⟨Geometric.lawful_float, (hpasses (by decide)).1, (hsmall 3 4).mpr (by decide)⟩

end Ngon

end Montage
