import Montage.Proofs.Shape.Angle
import Montage.Proofs.Shape.Collapse
/-!
# Fitted polygons — convex, and around the hull

An edge that is collapsed lies between wide angles, so the lines beside it
meet past its ends, on the outer side (`Collapsible.past`). The vertices that
the others see there are in the same order as before, which keeps all turns
(`Turning.collapse`); each edge that is left bounds what it bounded, on the
line on which it lay, and the area grows. `Around hull vs` collects this, and
a reduction keeps it (`Around.reduce`).

Collapses prolong edges and give no edge a new direction. From whole numbers
on, directions have whole coordinates (`Graded`), and lines that are not
parallel are never taken for parallel ones. With five vertices and more there
is a wide edge, so that the reduction of a hull stops at four vertices at the
earliest (`reduce_total`).
-/

namespace Montage

open Montage.Polygon

variable {side : ℝ} {a b p q u v x : Point ℝ} {vs ws hull rest : List (Point ℝ)}

/-! ## Prolonged edges -/

namespace Point

/-- `x` lies on the line from `a` to `p`, and past `p`. -/
def Past (a p x : Point ℝ) : Prop :=
  ∃ t > 0, x.x = p.x + t * (p.x - a.x) ∧ x.y = p.y + t * (p.y - a.y)

namespace Past

/-- Along a prolonged edge everything is seen to the same side as along the
edge, in either direction. -/
theorem turn_eq (h : Past a p x) : ∃ t > 0, ∀ v, a.turn x v = t * a.turn p v ∧
    x.turn a v = t * p.turn a v := by
  obtain ⟨t, ht, hx, hy⟩ := h
  refine ⟨1 + t, by linarith, fun v => ⟨?_, ?_⟩⟩
  · rw [turn, turn, hx, hy]
    ring
  · rw [turn, turn, hx, hy]
    ring

theorem turn_pos_iff (h : Past a p x) :
    0 < side * a.turn x v ↔ 0 < side * a.turn p v := by
  obtain ⟨t, ht, heq⟩ := h.turn_eq
  rw [(heq v).1, mul_left_comm, mul_pos_iff_of_pos_left ht]

theorem turn_pos_iff_back (h : Past b q x) :
    0 < side * x.turn b v ↔ 0 < side * q.turn b v := by
  obtain ⟨t, ht, heq⟩ := h.turn_eq
  rw [(heq v).2, mul_left_comm, mul_pos_iff_of_pos_left ht]

theorem turn_nonneg_iff (h : Past a p x) :
    0 ≤ side * a.turn x v ↔ 0 ≤ side * a.turn p v := by
  obtain ⟨t, ht, heq⟩ := h.turn_eq
  rw [(heq v).1, mul_left_comm, mul_nonneg_iff_of_pos_left ht]

theorem turn_nonneg_iff_back (h : Past b q x) :
    0 ≤ side * x.turn b v ↔ 0 ≤ side * q.turn b v := by
  obtain ⟨t, ht, heq⟩ := h.turn_eq
  rw [(heq v).2, mul_left_comm, mul_nonneg_iff_of_pos_left ht]

/-- A line through `a` and `p` goes through `x`. -/
theorem turn_eq_zero (h : Past a p x) (ha : u.turn v a = 0) (hp : u.turn v p = 0) :
    u.turn v x = 0 := by
  obtain ⟨t, -, hx, hy⟩ := h
  rw [turn] at ha hp ⊢
  rw [hx, hy]
  linear_combination (1 + t) * hp - t * ha

end Past

/-- **Four points seen from a fifth.** `x` is joined to `u` through the line
from `a` to `b`, so what lies on one side of a line through `u` at `a` and at
`b` does so at `x`. -/
theorem turn_mul_turn (a b u v x : Point ℝ) :
    a.turn b u * x.turn u v = x.turn b u * a.turn u v + a.turn x u * b.turn u v := by
  simp only [turn]
  ring

end Point

/-! ## The apex of a collapse -/

namespace Ngon

/-- Lines that are not taken for parallel meet where the rule for two
equations in two unknowns puts them. -/
theorem intersection?_eq (a p q b : Point ℝ) :
    intersection? a p q b =
      if |a.spread p q b| < 1 / 10 ^ 12 then none
      else some ⟨p.x + p.turn q b / a.spread p q b * (p.x - a.x),
        p.y + p.turn q b / a.spread p q b * (p.y - a.y)⟩ := by
  have hdet : (a.x - p.x) * (q.y - b.y) - (a.y - p.y) * (q.x - b.x) = a.spread p q b := by
    rw [Point.spread]
    ring
  have hlimit : (parallelLimit : ℝ) = 1 / 10 ^ 12 := by
    rw [parallelLimit, Scalar.ofDecimal_exact, Nat.cast_one]
  simp only [intersection?, hdet, hlimit, Scalar.lt_exact, Scalar.abs_exact]
  split
  · rfl
  · next hwide =>
    have hne : a.spread p q b ≠ 0 := by
      intro h0
      rw [h0, abs_zero] at hwide
      exact hwide (by positivity)
    congr 2
    · rw [div_eq_iff hne, add_mul, div_mul_eq_mul_div, div_mul_cancel₀ _ hne, Point.turn,
        Point.spread]
      ring
    · rw [div_eq_iff hne, add_mul, div_mul_eq_mul_div, div_mul_cancel₀ _ hne, Point.turn,
        Point.spread]
      ring

/-- **The apex lies past both ends of the edge.** -/
theorem Collapsible.past (hside : |side| = 1) (hp : 0 < side * a.turn p q)
    (hq : 0 < side * p.turn q b) (h : Collapsible a p q b x) :
    a.Past p x ∧ b.Past q x := by
  obtain ⟨hwide, hmeets⟩ := h
  have hsum : Real.pi < angleAt a p q + angleAt p q b := by
    have hslack := angleSlack_pos
    have hnot := not_le.mp (mt (Scalar.le_exact _ _).mpr (ne_true_of_eq_false hwide))
    rw [Geometric.pi_real] at hnot
    linarith
  have hspread := spread_pos_of_wide hside hp hq hsum
  have hside0 : side ≠ 0 := left_ne_zero_of_mul hspread.ne'
  have hne : a.spread p q b ≠ 0 := right_ne_zero_of_mul hspread.ne'
  have hs : 0 < p.turn q b / a.spread p q b := by
    rw [← mul_div_mul_left _ _ hside0]
    exact div_pos hq hspread
  have ht : 0 < a.turn p q / a.spread p q b := by
    rw [← mul_div_mul_left _ _ hside0]
    exact div_pos hp hspread
  rw [intersection?_eq] at hmeets
  split at hmeets
  · cases hmeets
  · obtain rfl := Option.some.inj hmeets
    refine ⟨⟨_, hs, rfl, rfl⟩, _, ht, ?_, ?_⟩
    · dsimp only
      rw [← sub_eq_zero]
      field_simp
      rw [Point.turn, Point.turn, Point.spread]
      ring
    · dsimp only
      rw [← sub_eq_zero]
      field_simp
      rw [Point.turn, Point.turn, Point.spread]
      ring

/-- **A collapse of a strictly convex polygon**: the apex lies past both ends
of the edge that it replaces. -/
theorem Collapsed.past (hside : |side| = 1) (h : Turning side vs) (hc : Collapsed vs ws) :
    ∃ a p q b x rest, vs ~r a :: p :: q :: b :: rest ∧ ws ~r a :: x :: b :: rest ∧
      a.Past p x ∧ b.Past q x := by
  obtain ⟨hcollapsible, hvs, hws⟩ := hc
  have hturned := h.of_isRotated hvs
  obtain ⟨hax, hbx⟩ := hcollapsible.past hside hturned.first_pos hturned.tail.first_pos
  exact ⟨_, _, _, _, _, _, hvs, hws, hax, hbx⟩

end Ngon

/-! ## What a collapse keeps -/

/-- **The order of the vertices around the polygon.** With the apex in the
place of the edge, all triples turn as before. -/
theorem Polygon.Turning.collapse (h : Turning side (a :: p :: q :: b :: rest))
    (hax : a.Past p x) (hbx : b.Past q x) : Turning side (a :: x :: b :: rest) := by
  obtain ⟨ha, hpqb⟩ := List.triplewise_cons.mp h
  obtain ⟨hp, hqb⟩ := List.triplewise_cons.mp hpqb
  obtain ⟨hq, hb⟩ := List.triplewise_cons.mp hqb
  have hab := (List.pairwise_cons.mp (List.pairwise_cons.mp ha).2).2
  -- `x` is seen from `a` before all that `p` was, and sees `b` before all that `q` did
  have hx : ∀ v ∈ b :: rest, 0 < side * a.turn x v := fun v hv =>
    hax.turn_pos_iff.mpr ((List.pairwise_cons.mp ha).1 v (List.mem_cons_of_mem q hv))
  have hxb : ∀ v ∈ rest, 0 < side * x.turn b v := fun v hv =>
    hbx.turn_pos_iff_back.mpr ((List.pairwise_cons.mp hq).1 v hv)
  have hrest : rest.Pairwise fun u v => 0 < side * x.turn u v := by
    have hpairs := (List.pairwise_cons.mp hab).2.and (List.triplewise_cons.mp hb).1
    refine hpairs.imp_of_mem fun {u v} hu hv huv => ?_
    have hau := (List.pairwise_cons.mp hab).1 u hu
    have hpos : 0 < side * a.turn b u * (side * x.turn u v) := by
      calc 0 < side * x.turn b u * (side * a.turn u v) + side * a.turn x u * (side * b.turn u v) :=
            add_pos (mul_pos (hxb u hu) huv.1)
              (mul_pos (hx u (List.mem_cons_of_mem b hu)) huv.2)
        _ = side * a.turn b u * (side * x.turn u v) := by
            linear_combination -(side * side) * Point.turn_mul_turn a b u v x
    exact pos_of_mul_pos_right hpos hau.le
  exact List.triplewise_cons.mpr ⟨List.pairwise_cons.mpr ⟨hx, hab⟩,
    List.triplewise_cons.mpr ⟨List.pairwise_cons.mpr ⟨hxb, hrest⟩, hb⟩⟩

theorem Polygon.Turning.collapsed (hside : |side| = 1) (h : Turning side vs)
    (hc : Ngon.Collapsed vs ws) : Turning side ws := by
  obtain ⟨a, p, q, b, x, rest, hvs, hws, hax, hbx⟩ := hc.past hside h
  exact ((h.of_isRotated hvs).collapse hax hbx).of_isRotated hws.symm

/-- The edges after a collapse: those that were there, and the two that meet
in the apex. -/
theorem Polygon.mem_edges_collapse {e : Point ℝ × Point ℝ}
    (he : e ∈ (mk (a :: x :: b :: rest)).edges) :
    e = (a, x) ∨ e = (x, b) ∨ e ∈ (mk (a :: p :: q :: b :: rest)).edges := by
  rw [edges_cons] at he ⊢
  simp only [List.cons_append, List.zip_cons_cons, List.mem_cons] at he ⊢
  tauto

/-- The triangle that a collapse adds. -/
theorem Polygon.signedArea_collapse (h : Turning side (a :: p :: q :: b :: rest))
    (hax : a.Past p x) (hbx : b.Past q x) :
    side * (mk (a :: p :: q :: b :: rest)).signedArea ≤
      side * (mk (a :: x :: b :: rest)).signedArea := by
  obtain ⟨s, hs, hx, hy⟩ := hax
  obtain ⟨t, -, hx', hy'⟩ := hbx
  have hpq := h.first_pos
  have hturn : a.turn x b = a.turn q b + (1 + s) * a.turn p q := by
    simp only [Point.turn]
    linear_combination (b.y - q.y) * hx' - (b.x - q.x) * hy' + (q.y - a.y) * hx - (q.x - a.x) * hy
  rw [signedArea_ear a p q, signedArea_ear a q b, signedArea_ear a x b, hturn]
  linarith [mul_pos hs hpq]

/-! ## Around a hull -/

/-- **A strictly convex polygon around a hull.** All of the hull lies on the
inner side of each of its edges, which is part of a line along an edge of the
hull. -/
structure Around (side : ℝ) (hull vs : List (Point ℝ)) : Prop where
  turning : Turning side vs
  inside : ∀ v ∈ hull, ∀ e ∈ (mk vs).edges, 0 ≤ side * e.1.turn e.2 v
  area : (mk hull).area ≤ side * (mk vs).signedArea
  lines : ∀ e ∈ (mk vs).edges, ∃ f ∈ (mk hull).edges,
    f.1.turn f.2 e.1 = 0 ∧ f.1.turn f.2 e.2 = 0

namespace Around

theorem refl (hside : |side| = 1) (h : Turning side hull) (hlen : 3 ≤ hull.length) :
    Around side hull hull where
  turning := h
  inside _ hv _ he := h.side_of_mem_edges (Nat.le_of_succ_le hlen) he hv
  area := by
    rw [Polygon.area, Scalar.abs_exact, ← abs_of_pos (h.signedArea_pos hlen), abs_mul, hside,
      one_mul]
  lines e he := ⟨e, he, Point.turn_self_ends _ _, Point.turn_self_right _ _⟩

theorem of_isRotated (h : Around side hull vs) (hr : vs ~r ws) : Around side hull ws where
  turning := h.turning.of_isRotated hr
  inside v hv e he := h.inside v hv e ((mem_edges_of_isRotated hr).mpr he)
  area := by rw [← signedArea_of_isRotated hr]; exact h.area
  lines e he := h.lines e ((mem_edges_of_isRotated hr).mpr he)

/-- Walked the other way, it turns to the other side. -/
theorem reverse (h : Around side hull vs) : Around (-side) hull vs.reverse where
  turning := h.turning.reverse
  inside v hv e he := by
    have hswap := h.inside v hv e.swap (mem_edges_reverse.mp he)
    rwa [Prod.fst_swap, Prod.snd_swap, Point.turn_swap_left, mul_neg, ← neg_mul] at hswap
  area := by
    rw [signedArea_reverse, neg_mul_neg]
    exact h.area
  lines e he := by
    obtain ⟨f, hf, hfst, hsnd⟩ := h.lines e.swap (mem_edges_reverse.mp he)
    exact ⟨f, hf, hsnd, hfst⟩

theorem collapse (h : Around side hull (a :: p :: q :: b :: rest)) (hax : a.Past p x)
    (hbx : b.Past q x) : Around side hull (a :: x :: b :: rest) where
  turning := h.turning.collapse hax hbx
  inside v hv e he := by
    rcases mem_edges_collapse he with rfl | rfl | hold
    · exact hax.turn_nonneg_iff.mpr (h.inside v hv (a, p) (by simp [edges_cons]))
    · exact hbx.turn_nonneg_iff_back.mpr (h.inside v hv (q, b) (by simp [edges_cons]))
    · exact h.inside v hv e hold
  area := h.area.trans (signedArea_collapse h.turning hax hbx)
  lines e he := by
    rcases mem_edges_collapse he with rfl | rfl | hold
    · obtain ⟨f, hf, ha, hp⟩ := h.lines (a, p) (by simp [edges_cons])
      exact ⟨f, hf, ha, hax.turn_eq_zero ha hp⟩
    · obtain ⟨f, hf, hq, hb⟩ := h.lines (q, b) (by simp [edges_cons])
      exact ⟨f, hf, hbx.turn_eq_zero hb hq, hb⟩
    · exact h.lines e hold

theorem collapsed (hside : |side| = 1) (h : Around side hull vs) (hc : Ngon.Collapsed vs ws) :
    Around side hull ws := by
  obtain ⟨a, p, q, b, x, rest, hvs, hws, hax, hbx⟩ := hc.past hside h.turning
  exact ((h.of_isRotated hvs).collapse hax hbx).of_isRotated hws.symm

/-- **A reduction stays around the hull** that it starts from. -/
theorem reduce {count : ℕ} (hside : |side| = 1) (hlen : count + 3 ≤ vs.length)
    (h : Around side hull vs) (hok : Ngon.reduce count vs = .ok ws) :
    Around side hull ws ∧ ws.length + count = vs.length :=
  Ngon.reduce_keeps (fun _ _ hvs hc => hvs.collapsed hside hc) hlen h hok

end Around

/-! ## Whole directions -/

namespace Point

/-- The step from `a` to `b` is a step with whole coordinates, prolonged. -/
def WholeStep (a b : Point ℝ) : Prop :=
  ∃ t : ℝ, 1 ≤ t ∧ ∃ m n : ℤ, b.x - a.x = t * m ∧ b.y - a.y = t * n

theorem WholeStep.symm (h : WholeStep a b) : WholeStep b a := by
  obtain ⟨t, ht, m, n, hx, hy⟩ := h
  refine ⟨t, ht, -m, -n, ?_, ?_⟩
  · rw [Int.cast_neg, mul_neg, ← hx, neg_sub]
  · rw [Int.cast_neg, mul_neg, ← hy, neg_sub]

theorem WholeStep.past (h : WholeStep a p) (hx : a.Past p x) : WholeStep a x := by
  obtain ⟨t, ht, m, n, hpx, hpy⟩ := h
  obtain ⟨s, hs, hxx, hxy⟩ := hx
  refine ⟨(1 + s) * t, by nlinarith, m, n, ?_, ?_⟩
  · rw [hxx]
    linear_combination (1 + s) * hpx
  · rw [hxy]
    linear_combination (1 + s) * hpy

/-- **Whole directions that are not parallel are far from it.** -/
theorem one_le_abs_spread (hap : WholeStep a p) (hqb : WholeStep q b)
    (h : a.spread p q b ≠ 0) : 1 ≤ |a.spread p q b| := by
  obtain ⟨s, hs, m, n, hpx, hpy⟩ := hap
  obtain ⟨t, ht, m', n', hbx, hby⟩ := hqb
  have heq : a.spread p q b = s * t * ((m * n' - n * m' : ℤ) : ℝ) := by
    rw [spread, hpx, hpy, hbx, hby]
    push_cast
    ring
  have hwhole : m * n' - n * m' ≠ 0 := by
    intro h0
    rw [heq, h0, Int.cast_zero, mul_zero] at h
    exact h rfl
  have hcast : (1 : ℝ) ≤ |((m * n' - n * m' : ℤ) : ℝ)| := by
    rw [← Int.cast_abs]
    exact_mod_cast Int.one_le_abs hwhole
  rw [heq, abs_mul, abs_of_pos (by positivity)]
  exact one_le_mul_of_one_le_of_one_le (one_le_mul_of_one_le_of_one_le hs ht) hcast

end Point

/-- **Edges with whole directions**, as long as these and longer. -/
def Graded (vs : List (Point ℝ)) : Prop := ∀ e ∈ (mk vs).edges, e.1.WholeStep e.2

/-- Polygons through pixels have whole edges. -/
theorem graded_ofPixels (ps : List (Point ℤ)) :
    Graded (Polygon.ofPixels ps : Polygon ℝ).vertices := by
  intro e he
  obtain ⟨hfst, hsnd⟩ := mem_of_mem_edges he
  obtain ⟨p, -, hp⟩ := List.mem_map.mp hfst
  obtain ⟨q, -, hq⟩ := List.mem_map.mp hsnd
  refine ⟨1, le_rfl, q.x - p.x, q.y - p.y, ?_, ?_⟩
  · rw [← hp, ← hq]
    simp [Point.ofPixel]
  · rw [← hp, ← hq]
    simp [Point.ofPixel]

namespace Graded

theorem of_isRotated (h : Graded vs) (hr : vs ~r ws) : Graded ws :=
  fun e he => h e ((mem_edges_of_isRotated hr).mpr he)

theorem collapse (h : Graded (a :: p :: q :: b :: rest)) (hax : a.Past p x) (hbx : b.Past q x) :
    Graded (a :: x :: b :: rest) := by
  intro e he
  rcases mem_edges_collapse he with rfl | rfl | hold
  · exact (h (a, p) (by simp [edges_cons])).past hax
  · exact ((h (q, b) (by simp [edges_cons])).symm.past hbx).symm
  · exact h e hold

theorem collapsed (hside : |side| = 1) (ht : Turning side vs) (h : Graded vs)
    (hc : Ngon.Collapsed vs ws) : Graded ws := by
  obtain ⟨a, p, q, b, x, rest, hvs, hws, hax, hbx⟩ := hc.past hside ht
  exact ((h.of_isRotated hvs).collapse hax hbx).of_isRotated hws.symm

end Graded

namespace Ngon

/-- **A pass over five vertices and more finds an edge.** The edge is wide, and
the lines beside it are not taken for parallel. -/
theorem exists_collapse (hside : |side| = 1) (h : Turning side vs) (hg : Graded vs)
    (hlen : 5 ≤ vs.length) : collapses vs ≠ [] := by
  obtain ⟨a, p, q, b, rest, hvs, hwide⟩ := exists_wide_edge hside h hlen
  have hturned := h.of_isRotated hvs
  have hspread := spread_pos_of_wide hside hturned.first_pos hturned.tail.first_pos
    (by linarith [angleSlack_pos])
  have hgraded := hg.of_isRotated hvs
  have hfar : 1 ≤ |a.spread p q b| :=
    Point.one_le_abs_spread (hgraded (a, p) (by simp [edges_cons]))
      (hgraded (q, b) (by simp [edges_cons])) (right_ne_zero_of_mul hspread.ne')
  have hmeets : ∃ x, intersection? a p q b = some x := by
    rw [intersection?_eq, if_neg]
    · exact ⟨_, rfl⟩
    · have hlimit : (1 : ℝ) / 10 ^ 12 ≤ 1 := by norm_num
      exact not_lt.mpr (hlimit.trans hfar)
  obtain ⟨x, hx⟩ := hmeets
  refine collapses_ne_nil (x := x) ⟨?_, hx⟩ hvs
  rw [← Bool.not_eq_true, Scalar.le_exact, not_le]
  exact hwide

/-- **A reduction of a strictly convex polygon with whole edges** comes down to
three vertices, or it stops at four. -/
theorem reduce_total (count : ℕ) (hside : |side| = 1) (h : Turning side vs) (hg : Graded vs)
    (hlen : count + 3 ≤ vs.length) :
    (∃ ws, reduce count vs = .ok ws) ∨
      (count + 3 = vs.length ∧ reduce count vs = .error (.noFitFound 4)) := by
  induction count generalizing vs with
  | zero => exact .inl ⟨vs, rfl⟩
  | succ count ih =>
    have hfour : 4 ≤ vs.length := by omega
    rcases reduce_succ count hfour with ⟨hnone, herror⟩ | ⟨ws, hc, heq⟩
    · have heq : vs.length = 4 := by
        by_contra hne
        exact exists_collapse hside h hg (by omega) hnone
      rw [herror, heq]
      exact .inr ⟨by omega, rfl⟩
    · have hless := hc.length_eq
      rw [heq]
      rcases ih (h.collapsed hside hc) (hg.collapsed hside h hc) (by omega) with
        hok | ⟨hcount, herror⟩
      · exact .inl hok
      · exact .inr ⟨by omega, herror⟩

end Ngon

end Montage
