import Montage.Proofs.Shape.Convexity
import Montage.Proofs.Shape.Hull
import Montage.Proofs.Shape.Ngon
/-!
# Fitting — polygons of few sides around a hull

What `Ngon.fit` yields is a reduced hull, walked clockwise from the origin. It
is an `Outline` of the hull: strictly convex, with the wanted number of sides,
around all of the hull and on its lines (`fit_outlines`). On strictly convex
polygons through pixels, such as the hulls of masks are, the reduction finds an
edge in every pass over five vertices and more, so that four sides and more can
always be had (`fit_never_stalls`).
-/

namespace Montage

open Montage.Polygon

variable {side : ℝ} {vs hull : List (Point ℝ)}

/-! ## Outlines -/

/-- The point lies on the line through two others. -/
def Point.OnLine (v : Point ℝ) (f : Point ℝ × Point ℝ) : Prop := f.1.turn f.2 v = 0

/-- The point lies inside a polygon that winds clockwise, or on its boundary:
on the inner side of each edge. -/
def Polygon.Encloses (p : Polygon ℝ) (v : Point ℝ) : Prop := ∀ e ∈ p.edges, 0 ≤ e.1.turn e.2 v

/-- **A polygon of few sides around a convex one.** -/
structure Polygon.Outline (p : Polygon ℝ) (sides : ℕ) (q : Polygon ℝ) : Prop where
  /-- Any three vertices turn clockwise on screen, in their order. -/
  turning : Turning 1 q.vertices
  /-- It passes the test for convexity. -/
  isConvex : q.isConvex = true
  length_eq : q.vertices.length = sides
  encloses : ∀ v ∈ p.vertices, q.Encloses v
  area_le : p.area ≤ q.area
  /-- Each edge lies on the line of an edge of the hull. -/
  onLines : ∀ e ∈ q.edges, ∃ f ∈ p.edges, f.1 ≠ f.2 ∧ e.1.OnLine f ∧ e.2.OnLine f
  /-- It winds clockwise on screen. -/
  signedArea_pos : 0 < q.signedArea
  /-- The first vertex is one that is nearest to the origin. -/
  coordSum_le : ∀ o ∈ q.vertices.head?, ∀ v ∈ q.vertices, o.coordSum ≤ v.coordSum

/-- A polygon around a hull, walked clockwise from the origin, is still around
the hull. -/
theorem Around.canonical (hside : |side| = 1) (h : Around side hull vs) (hlen : 3 ≤ vs.length) :
    Around 1 hull (Polygon.mk vs).clockwise.fromOrigin.vertices := by
  have harea := h.turning.signedArea_pos hlen
  rcases eq_or_eq_neg_of_abs_eq hside with rfl | rfl
  · rw [one_mul] at harea
    rw [clockwise_of_nonneg harea.le]
    exact h.of_isRotated (vertices_fromOrigin_isRotated _).symm
  · rw [neg_one_mul, neg_pos] at harea
    rw [clockwise_of_neg harea]
    have hreverse := h.reverse
    rw [neg_neg] at hreverse
    exact hreverse.of_isRotated (vertices_fromOrigin_isRotated _).symm

namespace Ngon

/-- A strictly convex polygon turns to one of the two sides. -/
theorem exists_side_of_strictlyConvex {p : Polygon ℝ} (h : p.StrictlyConvex) :
    ∃ side : ℝ, |side| = 1 ∧ Turning side p.vertices := by
  rcases h.2 with hright | hleft
  · exact ⟨1, abs_one, hright⟩
  · exact ⟨-1, by rw [abs_neg, abs_one], hleft⟩

/-- What a fitted polygon is. -/
theorem exists_reduce_of_fit {p q : Polygon ℝ} {sides : ℕ} (h : fit p sides = .ok q) :
    sides ≤ p.vertices.length ∧ ∃ ws, reduce (p.vertices.length - sides) p.vertices = .ok ws ∧
      (mk ws).clockwise.fromOrigin = q := by
  have hle : sides ≤ p.vertices.length := by
    by_contra hlt
    rw [fit_of_lt (not_le.mp hlt)] at h
    cases h
  rw [fit_of_le hle] at h
  exact ⟨hle, map_eq_ok_iff.mp h⟩

/-! ## Polygons through pixels -/

theorem length_ofPixels (ps : List (Point ℤ)) :
    (Polygon.ofPixels ps : Polygon ℝ).vertices.length = ps.length := List.length_map _

/-- A square of which one corner is cut off. -/
def cutSquare : List (Point ℤ) := [⟨10, 0⟩, ⟨40, 0⟩, ⟨40, 40⟩, ⟨0, 40⟩, ⟨0, 10⟩]

theorem strictlyConvex_cutSquare : (Polygon.ofPixels cutSquare : Polygon ℝ).StrictlyConvex := by
  refine ⟨by decide, .inl ?_⟩
  simp [Polygon.ofPixels, cutSquare, Turning, List.triplewise_cons, Point.ofPixel, Point.turn]
  norm_num

/-- A strictly convex polygon through pixels can be reduced to any number of
sides from four to its own. -/
theorem exists_fit {ps : List (Point ℤ)} {sides : ℕ}
    (hp : (Polygon.ofPixels ps : Polygon ℝ).StrictlyConvex) (hsides : 4 ≤ sides)
    (hle : sides ≤ ps.length) :
    ∃ q : Polygon ℝ, fit (Polygon.ofPixels ps) sides = .ok q := by
  obtain ⟨side, hside, hturning⟩ := exists_side_of_strictlyConvex hp
  rw [← length_ofPixels] at hle
  rw [fit_of_le hle]
  rcases reduce_total ((Polygon.ofPixels ps : Polygon ℝ).vertices.length - sides) hside hturning
    (graded_ofPixels ps) (by omega) with ⟨ws, hws⟩ | ⟨hcount, -⟩
  · rw [hws]
    exact ⟨_, rfl⟩
  · omega

/-! ## Fitted polygons -/

/-- **A fitted polygon outlines the hull.** Whatever strictly convex polygon is
reduced to three sides or more, in whichever way it winds: if the reduction
comes to an end, it yields a strictly convex polygon with so many vertices,
clockwise from a vertex nearest to the origin. It has all of the hull inside
or on its boundary, and each of its edges lies on the line of an edge of the
hull. -/
theorem fit_outlines {p q : Polygon ℝ} {sides : ℕ} (hsides : 3 ≤ sides) (hp : p.StrictlyConvex)
    (h : fit p sides = .ok q) : p.Outline sides q := by
  obtain ⟨side, hside, hturning⟩ := exists_side_of_strictlyConvex hp
  obtain ⟨hle, ws, hws, rfl⟩ := exists_reduce_of_fit h
  obtain ⟨haround, hcount⟩ :=
    (Around.refl hside hturning hp.1).reduce hside (by omega) hws
  have hlen : (mk ws).clockwise.fromOrigin.vertices.length = sides := by
    rw [length_canonical]
    exact (by omega : ws.length = sides)
  have hq := haround.canonical hside (by omega)
  have harea := hq.turning.signedArea_pos (by omega)
  rw [one_mul] at harea
  refine ⟨hq.turning, hq.turning.isConvex (by omega), hlen, ?_, ?_, ?_, harea, ?_⟩
  · intro v hv e he
    have := hq.inside v hv e he
    rwa [one_mul] at this
  · have := hq.area
    rw [one_mul] at this
    exact this.trans (le_abs_self _)
  · intro e he
    obtain ⟨f, hf, hfst, hsnd⟩ := hq.lines e he
    exact ⟨f, hf, hturning.ne_of_mem_edges hp.1 hf, hfst, hsnd⟩
  · intro o ho v hv
    obtain ⟨rest, hrest⟩ : ∃ rest, (mk ws).clockwise.fromOrigin.vertices = o :: rest :=
      ⟨_, List.eq_cons_of_mem_head? ho⟩
    exact coordSum_le_of_fromOrigin hrest ((vertices_fromOrigin_isRotated _).mem_iff.mp hv)

/-- The square without a corner, reduced to four sides, has an outline. -/
theorem fit_outlines_cutSquare : (Polygon.ofPixels cutSquare : Polygon ℝ).StrictlyConvex ∧
    ∃ q : Polygon ℝ, fit (Polygon.ofPixels cutSquare) 4 = .ok q ∧
      (Polygon.ofPixels cutSquare).Outline 4 q := by
  obtain ⟨q, hq⟩ := exists_fit strictlyConvex_cutSquare le_rfl (by decide)
  exact ⟨strictlyConvex_cutSquare, q, hq, fit_outlines (by decide) strictlyConvex_cutSquare hq⟩

/-- **The reduction of a hull never stalls above four vertices.** Take a strictly
convex polygon through pixels; the hull of any mask is one as soon as it has
three vertices. For four sides or more, there are too few vertices or there is
a fitted polygon. The reason is that each pass over five vertices and more
finds an edge to collapse; pass number `k` is the one over `k` vertices less
than the hull has. If three sides are wanted, the reduction may stop at the
last pass, over four vertices, and at no other. -/
theorem fit_never_stalls {ps : List (Point ℤ)}
    (hp : (Polygon.ofPixels ps : Polygon ℝ).StrictlyConvex) :
    (∀ (m : Mask) (hull : List (Point ℤ)), m.hull = .ok hull → 3 ≤ hull.length →
      (Polygon.ofPixels hull : Polygon ℝ).StrictlyConvex) ∧
    (∀ sides, 4 ≤ sides →
      if ps.length < sides then
        fit (Polygon.ofPixels ps : Polygon ℝ) sides = .error (.hullTooSmall ps.length sides)
      else ∃ q : Polygon ℝ, fit (Polygon.ofPixels ps) sides = .ok q) ∧
    (∀ k ws, k + 5 ≤ ps.length →
      reduce k (Polygon.ofPixels ps : Polygon ℝ).vertices = .ok ws →
        ws.length + k = ps.length ∧ collapses ws ≠ []) ∧
    (∀ f, fit (Polygon.ofPixels ps : Polygon ℝ) 3 = .error f → f = .noFitFound 4) := by
  obtain ⟨side, hside, hturning⟩ := exists_side_of_strictlyConvex hp
  have hgraded := graded_ofPixels ps
  refine ⟨fun _ _ => Raster.strictlyConvex_hull, fun sides hsides => ?_, fun k ws hk hws => ?_,
    fun f hf => ?_⟩
  · split
    · next hlt =>
      rw [← length_ofPixels]
      exact fit_of_lt (by rwa [length_ofPixels])
    · next hge => exact exists_fit hp hsides (not_lt.mp hge)
  · rw [← length_ofPixels] at hk ⊢
    obtain ⟨⟨hturning', hgraded'⟩, hcount⟩ :=
      reduce_keeps (P := fun vs => Turning side vs ∧ Graded vs)
        (fun _ _ h hc => ⟨h.1.collapsed hside hc, h.2.collapsed hside h.1 hc⟩) (by omega)
        ⟨hturning, hgraded⟩ hws
    exact ⟨hcount, exists_collapse hside hturning' hgraded' (by omega)⟩
  · rw [fit_of_le hp.1] at hf
    have hthree := hp.1
    rcases reduce_total ((Polygon.ofPixels ps : Polygon ℝ).vertices.length - 3) hside hturning
      hgraded (by omega) with ⟨ws, hws⟩ | ⟨-, herror⟩
    · rw [hws] at hf
      cases hf
    · rw [herror] at hf
      exact (Except.error.inj hf).symm

/-- The square without a corner has four sides but not six, and its first pass
finds an edge. -/
theorem fit_never_stalls_cutSquare :
    (Polygon.ofPixels cutSquare : Polygon ℝ).StrictlyConvex ∧
      fit (Polygon.ofPixels cutSquare : Polygon ℝ) 6 = .error (.hullTooSmall 5 6) ∧
      (∃ q : Polygon ℝ, fit (Polygon.ofPixels cutSquare) 4 = .ok q) ∧
      collapses (Polygon.ofPixels cutSquare : Polygon ℝ).vertices ≠ [] ∧
      ∀ f, fit (Polygon.ofPixels cutSquare : Polygon ℝ) 3 = .error f → f = .noFitFound 4 := by
  obtain ⟨-, hfit, hpass, hthree⟩ := fit_never_stalls strictlyConvex_cutSquare
  exact ⟨strictlyConvex_cutSquare, hfit 6 (by decide), hfit 4 le_rfl,
    (hpass 0 _ (by decide) rfl).2, hthree⟩

end Ngon

end Montage
