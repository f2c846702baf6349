import Montage.Proofs.Shape.Polygon
import Montage.Shape.Ngon
/-!
# Collapses — one edge less

One pass of a reduction chooses an edge and puts a point in its place. Seen
from that edge on, the vertices `a, p, q, b, …` become `a, x, b, …`, where the
lines `a p` and `q b` meet in `x`: this is `Collapsed`. A pass does nothing
else, wherever in the list the edge stands (`collapsed_of_mem_collapses`), and
it finds a collapse if any turned list of the vertices begins with an edge
that has one (`collapses_ne_nil`). What each collapse keeps, a whole reduction
keeps (`reduce_keeps`).
-/

namespace Montage

/-! ## Neighbours in a turned list -/

section

variable {α : Type} {vs ws : List α} {a b p q : α} {i k : ℕ}

theorem getElem?_rotate_comm (hi : i < vs.length) (hk : k < vs.length) :
    (vs.rotate k)[i]? = (vs.rotate i)[k]? := by
  rw [List.getElem?_rotate hi, List.getElem?_rotate hk, Nat.add_comm]

/-- A list of four elements and more: three at the front and one at the end. -/
theorem exists_ends_of_length (h : 4 ≤ vs.length) :
    ∃ p q b rest a, vs = p :: q :: b :: (rest ++ [a]) := by
  obtain ⟨p, q, b, c, tail, rfl⟩ := exists_four_of_length h
  exact ⟨p, q, b, (c :: tail).dropLast, (c :: tail).getLast (List.cons_ne_nil c tail),
    by rw [List.dropLast_append_getLast]⟩

/-- The elements around the one at place `i` stand at the ends of the list that
is turned to begin there. -/
theorem getElem?_of_rotate_eq {rest : List α} (hi : i < vs.length)
    (h : vs.rotate i = p :: q :: b :: (rest ++ [a])) :
    (vs.rotate (vs.length - 1))[i]? = some a ∧ vs[i]? = some p ∧
      (vs.rotate 1)[i]? = some q ∧ (vs.rotate 2)[i]? = some b := by
  have hlen : vs.length = rest.length + 4 := by
    have := congrArg List.length h
    simpa using this
  refine ⟨?_, ?_, ?_, ?_⟩
  · rw [getElem?_rotate_comm hi (by omega), h, hlen]
    simp
  · rw [← List.rotate_zero vs, getElem?_rotate_comm hi (by omega), h]
    rfl
  · rw [getElem?_rotate_comm hi (by omega), h]
    rfl
  · rw [getElem?_rotate_comm hi (by omega), h]
    rfl

/-- **An element takes the place of two.** Wherever in the list the two stand,
also if they are its last and its first. -/
theorem eraseIdx_set_isRotated {rest : List α} (hi : i < vs.length)
    (h : vs.rotate i = p :: q :: rest) (x : α) :
    (vs.set i x).eraseIdx ((i + 1) % vs.length) ~r x :: rest := by
  have hlen : vs.length = rest.length + 2 := by
    have := congrArg List.length h
    simpa using this
  rw [List.rotate_eq_drop_append_take hi.le] at h
  obtain ⟨before, after, hvs, hbefore⟩ : ∃ before after, vs = before ++ after ∧ before.length = i :=
    ⟨vs.take i, vs.drop i, (List.take_append_drop i vs).symm, List.length_take_of_le hi.le⟩
  subst hbefore
  subst hvs
  rw [List.drop_left, List.take_left] at h
  rw [List.set_append_right _ _ le_rfl, Nat.sub_self]
  rw [List.length_append] at hi hlen ⊢
  rcases after with _ | ⟨p', _ | ⟨q', after⟩⟩
  · exact absurd hi (lt_irrefl _)
  · -- the edge joins the last element to the first
    cases before with
    | nil => simp at hlen
    | cons q' before =>
      cases h
      rw [List.length_singleton, Nat.mod_self]
      exact List.isRotated_concat x rest
  · cases h
    rw [Nat.mod_eq_of_lt (by simp), List.eraseIdx_append_of_length_le (Nat.le_add_right _ 1),
      Nat.add_sub_cancel_left]
    exact (List.isRotated_append : before ++ x :: after ~r x :: after ++ before)

end

namespace Ngon

variable {α : Type} [Geometric α] {vs ws : List (Point α)} {c : Collapse α}

/-- The edges that can be collapsed, each with the vertices around it. -/
theorem mem_collapses :
    c ∈ collapses vs ↔ ∃ (i : ℕ) (a p q b : Point α), (vs.rotate (vs.length - 1))[i]? = some a ∧
      vs[i]? = some p ∧ (vs.rotate 1)[i]? = some q ∧ (vs.rotate 2)[i]? = some b ∧
      collapse? i a p q b = some c := by
  simp only [collapses, List.mem_filterMap, List.mem_zipIdx_iff_getElem?, Prod.exists,
    List.getElem?_zip_eq_some, rotatedBy_one, rotatedBy_two,
    rotatedBy_eq_rotate (Nat.sub_le vs.length 1)]
  constructor
  · rintro ⟨a, p, q, b, i, ⟨⟨ha, hp⟩, hq, hb⟩, hc⟩
    exact ⟨i, a, p, q, b, ha, hp, hq, hb, hc⟩
  · rintro ⟨i, a, p, q, b, ha, hp, hq, hb, hc⟩
    exact ⟨a, p, q, b, i, ⟨⟨ha, hp⟩, hq, hb⟩, hc⟩

/-- The same, in a list that is turned to the edge. -/
theorem mem_collapses_iff (hlen : 4 ≤ vs.length) :
    c ∈ collapses vs ↔ ∃ i < vs.length, ∃ a p q b rest,
      vs.rotate i = p :: q :: b :: (rest ++ [a]) ∧ collapse? i a p q b = some c := by
  rw [mem_collapses]
  constructor
  · rintro ⟨i, a, p, q, b, ha, hp, hq, hb, hc⟩
    have hi : i < vs.length := (List.getElem?_eq_some_iff.mp hp).1
    rw [← List.length_rotate vs i] at hlen
    obtain ⟨p', q', b', rest, a', hturned⟩ := exists_ends_of_length hlen
    obtain ⟨ha', hp', hq', hb'⟩ := getElem?_of_rotate_eq hi hturned
    obtain rfl := Option.some.inj (ha.symm.trans ha')
    obtain rfl := Option.some.inj (hp.symm.trans hp')
    obtain rfl := Option.some.inj (hq.symm.trans hq')
    obtain rfl := Option.some.inj (hb.symm.trans hb')
    exact ⟨i, hi, a, p, q, b, rest, hturned, hc⟩
  · rintro ⟨i, hi, a, p, q, b, rest, hturned, hc⟩
    obtain ⟨ha, hp, hq, hb⟩ := getElem?_of_rotate_eq hi hturned
    exact ⟨i, a, p, q, b, ha, hp, hq, hb, hc⟩

/-- An edge from `p` to `q` between `a` and `b` has a collapse, with apex `x`. -/
structure Collapsible (a p q b x : Point α) : Prop where
  wide : Scalar.le (angleAt a p q + angleAt p q b) (Geometric.pi + angleSlack) = false
  meets : intersection? a p q b = some x

theorem collapse?_eq_some_iff {i : ℕ} {a p q b : Point α} :
    collapse? i a p q b = some c ↔
      Collapsible a p q b c.apex ∧ c = ⟨i, c.apex, triangleArea p c.apex q⟩ := by
  unfold collapse?
  constructor
  · intro h
    split at h
    · cases h
    · next hwide =>
      obtain ⟨x, hx, rfl⟩ := Option.map_eq_some_iff.mp h
      exact ⟨⟨by simpa using hwide, hx⟩, rfl⟩
  · rintro ⟨⟨hwide, hx⟩, hc⟩
    rw [if_neg (by simp [hwide]), hx, Option.map_some, ← hc]

/-- **One edge less.** Listed from a suitable vertex on, the second and the
third vertex of `vs` are replaced by one where their edges meet. -/
inductive Collapsed (vs ws : List (Point α)) : Prop
  | intro {a p q b x : Point α} {rest : List (Point α)} :
      Collapsible a p q b x → vs ~r a :: p :: q :: b :: rest → ws ~r a :: x :: b :: rest →
      Collapsed vs ws

/-- **A pass collapses an edge and does nothing else.** -/
theorem collapsed_of_mem_collapses (hlen : 4 ≤ vs.length) (hc : c ∈ collapses vs) :
    Collapsed vs (c.apply vs) := by
  obtain ⟨i, hi, a, p, q, b, rest, hturned, hcollapse⟩ := (mem_collapses_iff hlen).mp hc
  obtain ⟨hcollapsible, hc⟩ := collapse?_eq_some_iff.mp hcollapse
  have hedge : c.edge = i := by rw [hc]
  have happly : c.apply vs ~r c.apex :: b :: (rest ++ [a]) := by
    rw [Collapse.apply, hedge]
    exact eraseIdx_set_isRotated hi hturned c.apex
  have hvs : vs ~r p :: q :: b :: (rest ++ [a]) := ⟨i, hturned⟩
  exact ⟨hcollapsible, hvs.trans (List.isRotated_concat a (p :: q :: b :: rest)),
    happly.trans (List.isRotated_concat a (c.apex :: b :: rest))⟩

/-- A pass finds a collapse where there is one. -/
theorem collapses_ne_nil {a p q b x : Point α} {rest : List (Point α)}
    (h : Collapsible a p q b x) (hr : vs ~r a :: p :: q :: b :: rest) : collapses vs ≠ [] := by
  have hlen : vs.length = rest.length + 4 := by
    have := hr.perm.length_eq
    simpa using this
  have hedge : a :: p :: q :: b :: rest ~r p :: q :: b :: (rest ++ [a]) :=
    ⟨1, by rw [List.rotate_cons_succ, List.rotate_zero]; rfl⟩
  obtain ⟨n, hn⟩ := hr.trans hedge
  rw [← List.rotate_mod] at hn
  have hmem : (⟨n % vs.length, x, triangleArea p x q⟩ : Collapse α) ∈ collapses vs := by
    refine (mem_collapses_iff (by omega)).mpr ⟨_, Nat.mod_lt _ (by omega), a, p, q, b, rest, hn, ?_⟩
    exact collapse?_eq_some_iff.mpr ⟨h, rfl⟩
  exact List.ne_nil_of_mem hmem

/-! ## Reductions -/

theorem smallest_mem (best : Collapse α) (cs : List (Collapse α)) :
    smallest best cs ∈ best :: cs := by
  induction cs generalizing best with
  | nil => exact List.mem_cons_self
  | cons c rest ih =>
    rw [smallest]
    split
    · rcases List.mem_cons.mp (ih best) with he | hrest
      · rw [he]
        exact List.mem_cons_self
      · exact List.mem_cons_of_mem _ (List.mem_cons_of_mem _ hrest)
    · exact List.mem_cons_of_mem _ (ih c)

theorem Collapsed.length_eq (h : Collapsed vs ws) : vs.length = ws.length + 1 := by
  obtain ⟨-, hvs, hws⟩ := h
  rw [hvs.perm.length_eq, hws.perm.length_eq]
  rfl

/-- One pass of a reduction: no edge has a collapse, or one is collapsed. -/
theorem reduce_succ (count : ℕ) (hlen : 4 ≤ vs.length) :
    (collapses vs = [] ∧ reduce (count + 1) vs = .error (.noFitFound vs.length)) ∨
      ∃ ws, Collapsed vs ws ∧ reduce (count + 1) vs = reduce count ws := by
  rw [reduce]
  cases hc : collapses vs with
  | nil => exact .inl ⟨rfl, rfl⟩
  | cons c rest =>
    refine .inr ⟨_, collapsed_of_mem_collapses hlen ?_, rfl⟩
    rw [hc]
    exact smallest_mem c rest

/-- **What each collapse keeps, a reduction keeps.** It leaves as many vertices
as there are to be left. -/
theorem reduce_keeps {P : List (Point α) → Prop}
    (hstep : ∀ vs ws, P vs → Collapsed vs ws → P ws) {count : ℕ} (hlen : count + 3 ≤ vs.length)
    (hvs : P vs) (h : reduce count vs = .ok ws) : P ws ∧ ws.length + count = vs.length := by
  induction count generalizing vs with
  | zero =>
    cases h
    exact ⟨hvs, rfl⟩
  | succ count ih =>
    have hfour : 4 ≤ vs.length := by omega
    rcases reduce_succ count hfour with ⟨-, herror⟩ | ⟨ws', hcollapsed, heq⟩
    · rw [herror] at h
      cases h
    · have hless := hcollapsed.length_eq
      rw [heq] at h
      obtain ⟨hws, hcount⟩ := ih (by omega) (hstep vs ws' hvs hcollapsed) h
      exact ⟨hws, by omega⟩

/-! ## Fitting -/

theorem fit_of_lt {p : Polygon α} {sides : ℕ} (h : p.vertices.length < sides) :
    fit p sides = .error (.hullTooSmall p.vertices.length sides) := by
  rw [fit]
  exact if_pos h

theorem fit_of_le {p : Polygon α} {sides : ℕ} (h : sides ≤ p.vertices.length) :
    fit p sides = (reduce (p.vertices.length - sides) p.vertices).map
      fun vs => (Polygon.mk vs).clockwise.fromOrigin := by
  rw [fit]
  exact if_neg h.not_gt

end Ngon

end Montage
