import Montage.Proofs.Shape.Fitting
/-!
# Hulls — what they surround

What lies between points lies in each half-plane that holds these
(`Between.le`) and on each line (`Between.eq`). So a hull of three vertices or more
has all its points on the inner side of each edge, and a hull of fewer only comes
from points on one line (`length_convexHull_lt_iff`). Pixels that do not all lie on
one line are surrounded by their hull (`surrounds_convexHull`): a strictly convex
polygon through some of them, with all of them inside.
-/

namespace Montage

namespace Hull

variable {vs : List (Point ℤ)} {q : Point ℤ}

/-! ## Half-planes -/

theorem isLinearMap_side (m n : ℝ) : IsLinearMap ℝ fun v : ℝ × ℝ => m * v.1 + n * v.2 := by
  refine ⟨fun v w => ?_, fun c v => ?_⟩
  · rw [Prod.fst_add, Prod.snd_add]
    ring
  · rw [Prod.smul_fst, Prod.smul_snd, smul_eq_mul, smul_eq_mul, smul_eq_mul]
    ring

theorem convex_halfPlane (m n k : ℝ) : Convex ℝ {v : ℝ × ℝ | k ≤ m * v.1 + n * v.2} :=
  convex_halfSpace_ge (isLinearMap_side m n) k

/-- A half-plane that holds points holds what lies between them. -/
theorem Between.le (h : Between vs q) {m n k : ℝ} (hvs : ∀ v ∈ vs, k ≤ m * v.x + n * v.y) :
    k ≤ m * q.x + n * q.y :=
  h _ (convex_halfPlane m n k) hvs

/-- A line that holds points holds what lies between them. -/
theorem Between.eq (h : Between vs q) {m n k : ℤ} (hvs : ∀ v ∈ vs, m * v.x + n * v.y = k) :
    m * q.x + n * q.y = k := by
  have hreal : ∀ v ∈ vs, (m * v.x + n * v.y : ℝ) = k := fun v hv => by exact_mod_cast hvs v hv
  have hge : (k : ℝ) ≤ m * q.x + n * q.y := h.le fun v hv => (hreal v hv).ge
  have hle : (-k : ℝ) ≤ -m * q.x + -n * q.y := by
    refine h.le fun v hv => ?_
    rw [← hreal v hv]
    linarith
  have heq : (m * q.x + n * q.y : ℝ) = k := by linarith
  exact_mod_cast heq

end Hull

variable {ps qs hull : List (Point ℤ)}

/-! ## Points on one line -/

/-- All the points lie on one line. No point at all does as well. -/
def OnOneLine (ps : List (Point ℤ)) : Prop :=
  ∃ m n k : ℤ, (m ≠ 0 ∨ n ≠ 0) ∧ ∀ p ∈ ps, m * p.x + n * p.y = k

/-- Points that lie between points on one line lie on it. -/
theorem OnOneLine.of_between (h : OnOneLine qs) (hps : ∀ p ∈ ps, Hull.Between qs p) :
    OnOneLine ps := by
  obtain ⟨m, n, k, hmn, hline⟩ := h
  exact ⟨m, n, k, hmn, fun p hp => (hps p hp).eq hline⟩

theorem OnOneLine.of_subset (h : OnOneLine qs) (hsub : ps ⊆ qs) : OnOneLine ps :=
  h.of_between fun _ hp => Hull.between_of_mem (hsub hp)

/-- Two points lie on one line. -/
theorem onOneLine_pair (p q : Point ℤ) : OnOneLine [p, q] := by
  by_cases hpq : p = q
  · subst hpq
    exact ⟨1, 0, p.x, .inl one_ne_zero, by simp⟩
  · refine ⟨q.y - p.y, p.x - q.x, (q.y - p.y) * p.x + (p.x - q.x) * p.y, ?_, ?_⟩
    · by_contra hzero
      rw [not_or, not_not, not_not, sub_eq_zero, sub_eq_zero] at hzero
      exact hpq (congrArg₂ Point.mk hzero.2 hzero.1.symm)
    · refine List.forall_mem_cons.mpr ⟨rfl, List.forall_mem_singleton.mpr ?_⟩
      ring

theorem onOneLine_of_length_lt (h : ps.length < 3) : OnOneLine ps := by
  match ps with
  | [] => exact (onOneLine_pair ⟨0, 0⟩ ⟨0, 0⟩).of_subset (List.nil_subset _)
  | [p] => exact (onOneLine_pair p p).of_subset (by simp)
  | [p, q] => exact onOneLine_pair p q
  | _ :: _ :: _ :: _ => exact absurd h (by simp)

/-- Three points on one line do not turn. -/
theorem bend_eq_zero_of_onOneLine {a b c : Point ℤ} (h : OnOneLine [a, b, c]) :
    Hull.bend a b c = 0 := by
  obtain ⟨m, n, k, hmn, hline⟩ := h
  have ha := hline a (by simp)
  have hb := hline b (by simp)
  have hc := hline c (by simp)
  rcases hmn with hm | hn
  · refine (mul_eq_zero.mp (?_ : m * Hull.bend a b c = 0)).resolve_left hm
    rw [Hull.bend]
    linear_combination (b.y - a.y) * (hc - hb) - (c.y - b.y) * (hb - ha)
  · refine (mul_eq_zero.mp (?_ : n * Hull.bend a b c = 0)).resolve_left hn
    rw [Hull.bend]
    linear_combination (c.x - b.x) * (hb - ha) - (b.x - a.x) * (hc - hb)

/-- **A hull has fewer than three vertices when all points lie on one line**, and
only then. -/
theorem length_convexHull_lt_iff : (convexHull ps).length < 3 ↔ OnOneLine ps := by
  refine ⟨fun hlt => ?_, fun hline => ?_⟩
  · exact (onOneLine_of_length_lt hlt).of_between fun p hp => between_convexHull hp
  · by_contra hlen
    obtain ⟨a, b, c, rest, heq⟩ := exists_three_of_length (not_lt.mp hlen)
    have hsub : [a, b, c] ⊆ ps := fun v hv => mem_of_mem_convexHull (by
      rw [heq]
      exact List.mem_append_left rest hv)
    have hpos := turning_convexHull (K := ℝ) ps
    rw [heq] at hpos
    have hfirst := hpos.first_pos
    rw [turn_ofPixel, bend_eq_zero_of_onOneLine (hline.of_subset hsub), neg_zero, Int.cast_zero,
      mul_zero] at hfirst
    exact lt_irrefl _ hfirst

instance : Decidable (OnOneLine ps) := decidable_of_iff _ length_convexHull_lt_iff

/-! ## Points inside -/

/-- **A polygon around pixels**, as it is needed for drawing them. -/
structure Surrounds (hull ps : List (Point ℤ)) : Prop where
  length_le : 3 ≤ hull.length
  nodup : hull.Nodup
  /-- It is not closed by its first vertex once more. -/
  head?_ne_getLast? : hull.head? ≠ hull.getLast?
  /-- It turns clockwise on screen at each vertex. -/
  turns_pos : ∀ t ∈ (Polygon.ofPixels hull : Polygon ℝ).turns, 0 < t
  /-- So do any three of its vertices, in their order. -/
  strictlyConvex : (Polygon.ofPixels hull : Polygon ℝ).StrictlyConvex
  subset : hull ⊆ ps
  encloses : ∀ p ∈ ps, (Polygon.ofPixels hull : Polygon ℝ).Encloses (Point.ofPixel p)

/-- Which pixels there are matters, not their order. -/
theorem Surrounds.congr (h : Surrounds hull qs) (hmem : ∀ p, p ∈ ps ↔ p ∈ qs) :
    Surrounds hull ps where
  __ := h
  subset := fun v hv => (hmem v).mpr (h.subset hv)
  encloses := fun p hp => h.encloses p ((hmem p).mp hp)

/-- What lies between the vertices of a strictly convex polygon lies inside it. -/
theorem encloses_of_between {q : Point ℤ}
    (hturn : Polygon.Turning (1 : ℝ) (Polygon.ofPixels hull).vertices) (hlen : 3 ≤ hull.length)
    (h : Hull.Between hull q) : (Polygon.ofPixels hull : Polygon ℝ).Encloses (Point.ofPixel q) := by
  intro e he
  -- the inner side of the edge is a half-plane
  have hside : ∀ v : Point ℤ, e.1.turn e.2 (Point.ofPixel v) =
      (e.1.y - e.2.y) * v.x + (e.2.x - e.1.x) * v.y -
        ((e.1.y - e.2.y) * e.2.x + (e.2.x - e.1.x) * e.2.y) := by
    intro v
    simp only [Point.turn, Point.ofPixel, Scalar.ofInt_exact]
    ring
  rw [hside]
  refine sub_nonneg.mpr (h.le fun v hv => ?_)
  have hlen' : 2 ≤ (Polygon.ofPixels hull : Polygon ℝ).vertices.length := by
    rw [Polygon.ofPixels, List.length_map]
    exact Nat.le_of_succ_le hlen
  have hvertex := hturn.side_of_mem_edges hlen' he (List.mem_map_of_mem hv)
  rw [one_mul, hside] at hvertex
  exact sub_nonneg.mp hvertex

/-- **Pixels that do not all lie on one line are surrounded by their hull.** -/
theorem surrounds_convexHull (h : ¬OnOneLine ps) : Surrounds (convexHull ps) ps := by
  have hlen : 3 ≤ (convexHull ps).length := not_lt.mp (mt length_convexHull_lt_iff.mp h)
  have hturn := turning_convexHull (K := ℝ) ps
  have hlen' : 3 ≤ (Polygon.ofPixels (convexHull ps) : Polygon ℝ).vertices.length :=
    hlen.trans_eq (List.length_map _).symm
  have hnodup : (convexHull ps).Nodup := (hturn.nodup hlen').of_map _
  refine ⟨hlen, hnodup, ?_, fun t ht => ?_, ⟨hlen', .inl hturn⟩,
    fun v hv => mem_of_mem_convexHull hv, fun p hp => ?_⟩
  · obtain ⟨a, b, rest, heq⟩ := exists_cons_cons_of_length (Nat.le_of_succ_le hlen)
    rw [heq] at hnodup ⊢
    rw [List.head?_cons, List.getLast?_cons_cons]
    intro hsame
    exact (List.nodup_cons.mp hnodup).1 (List.mem_of_getLast? hsame.symm)
  · have hpos := hturn.of_mem_turns hlen' ht
    rwa [one_mul] at hpos
  · exact encloses_of_between hturn hlen (between_convexHull hp)

end Montage
