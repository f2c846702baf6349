import Mathlib.Analysis.Convex.Extreme
import Montage.Proofs.Shape.Enclosure
import Montage.Proofs.Shape.Frame
/-!
# Hulls — the extreme points, in one order

A vertex of a strictly convex polygon lies strictly on one side of all others, seen
along the line through its two neighbours (`Turning.exposed`). What lies between the
vertices is therefore beyond it, or the vertex itself, and so the vertex is an extreme
point (`mem_extremePoints_of_exposed`). An extreme point that is no vertex could be
left out, and what is left would hold all vertices all the same
(`exists_vertex_of_mem_extremePoints`). So the vertices of a hull are the extreme points
of the least convex set that the points lie in (`vertices_convexHull`).

That set is told by which points there are. The start is as well, and the order in
which a walk meets what is ahead of its start. Hence points that are given in another
order, or more often, have the same hull (`convexHull_congr`).
-/

namespace Montage

/-! ## Extreme points of a polygon -/

/-- A point, with all that is strictly on one side of a line through it. -/
theorem convex_beyond (m n : ℝ) (o : ℝ × ℝ) :
    Convex ℝ {z : ℝ × ℝ | z = o ∨ m * o.1 + n * o.2 < m * z.1 + n * z.2} := by
  refine convex_iff_forall_pos.mpr fun z hz w hw a b ha hb hab => ?_
  have hlinear := Hull.isLinearMap_side m n
  have hmean : m * (a • z + b • w).1 + n * (a • z + b • w).2 =
      a * (m * z.1 + n * z.2) + b * (m * w.1 + n * w.2) :=
    (hlinear.map_add _ _).trans (congrArg₂ _ (hlinear.map_smul a z) (hlinear.map_smul b w))
  have hsum : a * (m * o.1 + n * o.2) + b * (m * o.1 + n * o.2) = m * o.1 + n * o.2 := by
    rw [← add_mul, hab, one_mul]
  rcases hz with rfl | hz
  · rcases hw with rfl | hw
    · exact .inl (Convex.combo_self hab _)
    · refine .inr ?_
      rw [hmean]
      linarith [mul_lt_mul_of_pos_left hw hb]
  · refine .inr ?_
    rw [hmean]
    have hz' := mul_lt_mul_of_pos_left hz ha
    rcases hw with rfl | hw
    · linarith
    · linarith [mul_lt_mul_of_pos_left hw hb]

namespace Polygon

variable {p : Polygon ℝ} {vs : List (Point ℝ)} {v : Point ℝ} {z : ℝ × ℝ}

theorem convex_region (p : Polygon ℝ) : Convex ℝ p.region :=
  fun _ hz _ hw _ _ ha hb hab s hs hall => hs (hz s hs hall) (hw s hs hall) ha hb hab

theorem pair_mem_region (h : v ∈ p.vertices) : v.pair ∈ p.region := fun _ _ hall => hall v h

/-- **An extreme point is a vertex.** -/
theorem exists_vertex_of_mem_extremePoints (h : z ∈ p.region.extremePoints ℝ) :
    ∃ v ∈ p.vertices, v.pair = z := by
  obtain ⟨hz, hrest⟩ := p.convex_region.mem_extremePoints_iff_convex_sdiff.mp h
  by_contra hnone
  have hleft := hz _ hrest fun v hv => ⟨pair_mem_region hv, fun heq => hnone ⟨v, hv, heq⟩⟩
  exact hleft.2 rfl

/-- A point with all others strictly on one side of a line through it. -/
def Exposed (vs : List (Point ℝ)) (v : Point ℝ) : Prop :=
  ∃ m n : ℝ, ∀ w ∈ vs, w = v ∨ m * v.x + n * v.y < m * w.x + n * w.y

/-- **An exposed vertex is an extreme point.** -/
theorem mem_extremePoints_of_exposed (hv : v ∈ p.vertices) (h : Exposed p.vertices v) :
    v.pair ∈ p.region.extremePoints ℝ := by
  obtain ⟨m, n, hside⟩ := h
  have hbeyond : ∀ z ∈ p.region, z = v.pair ∨ m * v.x + n * v.y < m * z.1 + n * z.2 :=
    fun z hz => hz _ (convex_beyond m n v.pair) fun w hw => (hside w hw).imp_left (congrArg _)
  -- what is left without the vertex lies strictly on that side
  have hrest : p.region \ {v.pair} =
      p.region ∩ {z | m * v.x + n * v.y < m * z.1 + n * z.2} := by
    ext z
    refine and_congr_right fun hz => ⟨fun hne => (hbeyond z hz).resolve_left hne, ?_⟩
    rintro hlt rfl
    exact lt_irrefl (m * v.x + n * v.y) hlt
  refine p.convex_region.mem_extremePoints_iff_convex_sdiff.mpr ⟨pair_mem_region hv, ?_⟩
  rw [hrest]
  exact p.convex_region.inter (convex_halfSpace_gt (Hull.isLinearMap_side m n) _)

theorem exposed_of_isRotated {ws : List (Point ℝ)} (hr : vs ~r ws) (h : Exposed ws v) :
    Exposed vs v := by
  obtain ⟨m, n, hside⟩ := h
  exact ⟨m, n, fun w hw => hside w (hr.mem_iff.mp hw)⟩

/-- The first vertex of a strictly convex polygon is exposed, along the line through
the second and the last. -/
theorem Turning.exposed_head {next last : Point ℝ} {middle : List (Point ℝ)}
    (h : Turning 1 (v :: next :: (middle ++ [last]))) :
    Exposed (v :: next :: (middle ++ [last])) v := by
  have haround := (List.triplewise_cons.mp h).1
  simp only [one_mul] at haround
  have hnext := (List.pairwise_cons.mp haround).1
  have hlast : ∀ w ∈ next :: middle, 0 < v.turn w last := fun w hw =>
    (List.pairwise_append.mp haround).2.2 w hw last (List.mem_singleton_self last)
  have hsides : ∀ w ∈ next :: (middle ++ [last]), 0 < v.turn next w + v.turn w last := by
    intro w hw
    rcases List.mem_cons.mp hw with rfl | hw
    · rw [Point.turn_self_right, zero_add]
      exact hlast w List.mem_cons_self
    · rcases List.mem_append.mp hw with hmiddle | hw
      · exact add_pos (hnext w hw) (hlast w (List.mem_cons_of_mem next hmiddle))
      · rw [List.mem_singleton.mp hw, Point.turn_self_right, add_zero]
        exact hlast next List.mem_cons_self
  refine ⟨last.y - next.y, next.x - last.x, fun w hw => (List.mem_cons.mp hw).imp_right fun hw => ?_⟩
  have hpos := hsides w hw
  simp only [Point.turn] at hpos
  linarith

/-- **All vertices of a strictly convex polygon are exposed.** -/
theorem Turning.exposed (h : Turning 1 vs) (hlen : 3 ≤ vs.length) (hv : v ∈ vs) :
    Exposed vs v := by
  obtain ⟨k, hk⟩ := exists_head?_rotate_of_mem hv
  rw [← List.length_rotate vs k] at hlen
  obtain ⟨first, next, third, rest, hturned⟩ := exists_three_of_length hlen
  obtain ⟨middle, last, hlast⟩ :=
    (third :: rest).eq_nil_or_concat'.resolve_left (List.cons_ne_nil _ _)
  rw [hlast] at hturned
  have hr : vs ~r first :: next :: (middle ++ [last]) := ⟨k, hturned⟩
  rw [hturned] at hk
  cases hk
  exact exposed_of_isRotated hr (h.of_isRotated hr).exposed_head

/-- So is either end of a segment, across its direction. -/
theorem exposed_pair {a b : Point ℝ} (h : a ≠ b) : Exposed [a, b] a := by
  have hpos : 0 < a.squaredGap b := Point.squaredGap_pos_of_ne h
  refine ⟨b.x - a.x, b.y - a.y, List.forall_mem_cons.mpr ⟨.inl rfl, ?_⟩⟩
  refine List.forall_mem_singleton.mpr (.inr ?_)
  rw [Point.squaredGap] at hpos
  linarith

end Polygon

/-! ## What a hull spans -/

namespace Hull

variable {s p q v : Point ℤ} {vs : List (Point ℤ)}

theorem coordinates_injective : Function.Injective coordinates := by
  intro p q h
  obtain ⟨hx, hy⟩ := Prod.mk.inj h
  exact congrArg₂ Point.mk (Int.cast_inj.mp hx) (Int.cast_inj.mp hy)

theorem between_iff_mem_region :
    Between vs q ↔ coordinates q ∈ (Polygon.ofPixels vs : Polygon ℝ).region := by
  refine forall₂_congr fun s _ => imp_congr_left ?_
  exact (List.forall_mem_map (P := fun v : Point ℝ => v.pair ∈ s) (f := Point.ofPixel)).symm

/-- Between points that are all the same there is no other one. -/
theorem Between.eq_of_forall_eq (h : Between vs q) (hall : ∀ w ∈ vs, w = v) : q = v :=
  coordinates_injective (h {coordinates v} (convex_singleton _) fun w hw => by rw [hall w hw]; rfl)

/-- Of two points, only one is the better start. -/
theorem Ahead.antisymm (h : Ahead s p) (h' : Ahead p s) : s = p := by
  rw [Ahead] at h h'
  have hx : s.x = p.x := by omega
  have hy : s.y = p.y := by omega
  exact congrArg₂ Point.mk hx hy

end Hull

variable {ps qs : List (Point ℤ)} {v : Point ℤ}

theorem region_congr (hmem : ∀ p, p ∈ ps ↔ p ∈ qs) :
    (Polygon.ofPixels ps : Polygon ℝ).region = (Polygon.ofPixels qs : Polygon ℝ).region := by
  simp only [Polygon.region, Polygon.ofPixels, List.forall_mem_map, hmem]

/-- **A hull spans what the points span.** -/
theorem region_convexHull (ps : List (Point ℤ)) :
    (Polygon.ofPixels (convexHull ps) : Polygon ℝ).region =
      (Polygon.ofPixels ps : Polygon ℝ).region := by
  refine Set.Subset.antisymm (fun z hz s hs hall => hz s hs ?_) fun z hz s hs hall => hz s hs ?_
  · rw [Polygon.ofPixels, List.forall_mem_map] at hall ⊢
    exact fun v hv => hall v (mem_of_mem_convexHull hv)
  · rw [Polygon.ofPixels, List.forall_mem_map] at hall ⊢
    exact fun v hv => between_convexHull hv s hs hall

/-! ## Points that are not all the same -/

/-- Two of the points differ. -/
def Varied (ps : List (Point ℤ)) : Prop := ∃ p ∈ ps, ∃ q ∈ ps, p ≠ q

theorem Varied.ne_nil (h : Varied ps) : ps ≠ [] := List.ne_nil_of_mem h.choose_spec.1

theorem not_forall_eq_convexHull (h : Varied ps) (v : Point ℤ) :
    ¬∀ w ∈ convexHull ps, w = v := by
  obtain ⟨p, hp, q, hq, hpq⟩ := h
  intro hall
  exact hpq (((between_convexHull hp).eq_of_forall_eq hall).trans
    ((between_convexHull hq).eq_of_forall_eq hall).symm)

/-- With fewer than three vertices the hull is a segment. -/
theorem convexHull_eq_pair (h : Varied ps) (hlt : (convexHull ps).length < 3) :
    ∃ a b, convexHull ps = [a, b] ∧ a ≠ b := by
  have hnot := not_forall_eq_convexHull h
  match hhull : convexHull ps with
  | [] =>
    rw [hhull] at hnot
    exact absurd (List.forall_mem_nil _) (hnot ⟨0, 0⟩)
  | [a] =>
    rw [hhull] at hnot
    exact absurd (fun w hw => List.mem_singleton.mp hw) (hnot a)
  | [a, b] =>
    rw [hhull] at hnot
    refine ⟨a, b, rfl, fun hab => hnot b ?_⟩
    exact List.forall_mem_cons.mpr ⟨hab, List.forall_mem_singleton.mpr rfl⟩
  | _ :: _ :: _ :: _ =>
    rw [hhull] at hlt
    exact absurd hlt (by simp)

theorem two_le_length_convexHull (h : Varied ps) : 2 ≤ (convexHull ps).length := by
  by_contra hlt
  obtain ⟨a, b, hhull, -⟩ := convexHull_eq_pair h (by omega)
  rw [hhull] at hlt
  exact hlt le_rfl

/-- With three vertices or more the hull surrounds the points. -/
theorem surrounds_of_three_le (hlen : 3 ≤ (convexHull ps).length) : Surrounds (convexHull ps) ps :=
  surrounds_convexHull fun hline => (length_convexHull_lt_iff.mpr hline).not_ge hlen

/-- **No vertex of a hull is listed twice.** -/
theorem nodup_convexHull (h : Varied ps) : (convexHull ps).Nodup := by
  rcases Nat.lt_or_ge (convexHull ps).length 3 with hlt | hlen
  · obtain ⟨a, b, hhull, hab⟩ := convexHull_eq_pair h hlt
    rw [hhull]
    exact List.nodup_cons.mpr ⟨fun ha => hab (List.mem_singleton.mp ha), List.nodup_singleton b⟩
  · exact (surrounds_of_three_le hlen).nodup

/-! ## The vertices -/

theorem exposed_of_mem_convexHull (h : Varied ps) (hv : v ∈ convexHull ps) :
    Polygon.Exposed (Polygon.ofPixels (convexHull ps) : Polygon ℝ).vertices (Point.ofPixel v) := by
  rcases Nat.lt_or_ge (convexHull ps).length 3 with hlt | hlen
  · obtain ⟨a, b, hhull, hab⟩ := convexHull_eq_pair h hlt
    have hne : (Point.ofPixel a : Point ℝ) ≠ Point.ofPixel b := fun heq =>
      hab (Hull.coordinates_injective (congrArg Point.pair heq))
    rw [hhull] at hv ⊢
    rcases List.mem_cons.mp hv with rfl | hv
    · exact Polygon.exposed_pair hne
    · rw [List.mem_singleton.mp hv]
      have hturned : ([Point.ofPixel a, Point.ofPixel b] : List (Point ℝ)) ~r
          [Point.ofPixel b, Point.ofPixel a] := ⟨1, rfl⟩
      exact Polygon.exposed_of_isRotated hturned (Polygon.exposed_pair hne.symm)
  · have hlen' := (surrounds_of_three_le hlen).strictlyConvex.1
    exact (turning_convexHull (K := ℝ) ps).exposed hlen' (List.mem_map_of_mem hv)

/-- **The vertices of a hull are the extreme points** of what the points span. -/
theorem vertices_convexHull (h : Varied ps) :
    {z | ∃ v ∈ convexHull ps, Hull.coordinates v = z} =
      (Polygon.ofPixels ps : Polygon ℝ).region.extremePoints ℝ := by
  rw [← region_convexHull]
  ext z
  constructor
  · rintro ⟨v, hv, rfl⟩
    exact Polygon.mem_extremePoints_of_exposed (List.mem_map_of_mem hv)
      (exposed_of_mem_convexHull h hv)
  · intro hz
    obtain ⟨w, hw, rfl⟩ := Polygon.exists_vertex_of_mem_extremePoints hz
    obtain ⟨v, hv, rfl⟩ := List.mem_map.mp hw
    exact ⟨v, hv, rfl⟩

theorem mem_convexHull_iff (h : Varied ps) :
    v ∈ convexHull ps ↔
      Hull.coordinates v ∈ (Polygon.ofPixels ps : Polygon ℝ).region.extremePoints ℝ := by
  rw [← vertices_convexHull h]
  constructor
  · exact fun hv => ⟨v, hv, rfl⟩
  · rintro ⟨w, hw, heq⟩
    rwa [← Hull.coordinates_injective heq]

/-- **The hull is told by which points there are**: not by their order, nor by how often
one is given. -/
theorem convexHull_congr (h : Varied ps) (hmem : ∀ p, p ∈ qs ↔ p ∈ ps) :
    convexHull qs = convexHull ps := by
  have h' : Varied qs := by simpa only [Varied, hmem] using h
  have hvertices : ∀ v, v ∈ convexHull qs ↔ v ∈ convexHull ps := fun v => by
    rw [mem_convexHull_iff h, mem_convexHull_iff h', region_congr hmem]
  have hnodup := nodup_convexHull h
  have hnodup' := nodup_convexHull h'
  obtain ⟨first, rest, rfl⟩ := List.exists_cons_of_ne_nil h.ne_nil
  obtain ⟨first', rest', rfl⟩ := List.exists_cons_of_ne_nil h'.ne_nil
  obtain ⟨s, ws, heq, hwalk, hsub, hahead, -⟩ := exists_walk_convexHull first rest
  obtain ⟨s', ws', heq', hwalk', hsub', hahead', -⟩ := exists_walk_convexHull first' rest'
  -- both walks begin at the best start
  have hs : s' = s := (hahead' s ((hmem s).mpr (hsub List.mem_cons_self))).antisymm
    (hahead s' ((hmem s').mp (hsub' List.mem_cons_self)))
  subst hs
  rw [heq, List.nodup_cons, List.mem_reverse, List.nodup_reverse] at hnodup
  rw [heq', List.nodup_cons, List.mem_reverse, List.nodup_reverse] at hnodup'
  simp only [heq, heq', List.mem_cons, List.mem_reverse] at hvertices
  have hperm : List.Perm ws' ws := by
    refine (List.perm_ext_iff_of_nodup hnodup'.2 hnodup.2).mpr fun v => ⟨fun hv => ?_, fun hv => ?_⟩
    · refine ((hvertices v).mp (.inr hv)).resolve_left ?_
      rintro rfl
      exact hnodup'.1 hv
    · refine ((hvertices v).mpr (.inr hv)).resolve_left ?_
      rintro rfl
      exact hnodup.1 hv
  -- and go on in the one order in which the others are met
  have hsame : ws' = ws := by
    refine List.Perm.eq_of_pairwise (fun a b _ _ hab hba => ?_) hwalk'.around hwalk.around hperm
    rw [Hull.bend_swap] at hab
    omega
  rw [heq, heq', hsame]

/-- **What the hull of pixels is.** For pixels that are not all the same, it lists some of
them, none twice, and these are the extreme points of the least convex set that the pixels
lie in. It has two vertices exactly when all pixels lie on one line. With three or more
it turns clockwise on screen at each of them, as it does at any three in their order,
and has all pixels on the inner side of each edge. The least convex set around its
vertices is that around the pixels, so all of them lie in it. Pixels in another order, or
given more often, have the same hull. And the hull of a mask holds all of the mask's
contour. -/
theorem hull_of_pixels (ps : List (Point ℤ)) :
    (Varied ps →
      (convexHull ps).Nodup ∧ convexHull ps ⊆ ps ∧
      {z | ∃ v ∈ convexHull ps, Hull.coordinates v = z} =
        (Polygon.ofPixels ps : Polygon ℝ).region.extremePoints ℝ ∧
      2 ≤ (convexHull ps).length ∧ ((convexHull ps).length = 2 ↔ OnOneLine ps) ∧
      (3 ≤ (convexHull ps).length → Surrounds (convexHull ps) ps) ∧
      (Polygon.ofPixels (convexHull ps) : Polygon ℝ).region =
        (Polygon.ofPixels ps : Polygon ℝ).region ∧
      (∀ p ∈ ps, Hull.coordinates p ∈ (Polygon.ofPixels (convexHull ps) : Polygon ℝ).region) ∧
      ∀ qs, (∀ p, p ∈ qs ↔ p ∈ ps) → convexHull qs = convexHull ps) ∧
    ∀ m : Mask, m.largestContour = .ok ps → ∃ hull, m.hull = .ok hull ∧
      ∀ p ∈ ps, Hull.coordinates p ∈ (Polygon.ofPixels hull : Polygon ℝ).region := by
  have hinside : ∀ p ∈ ps,
      Hull.coordinates p ∈ (Polygon.ofPixels (convexHull ps) : Polygon ℝ).region :=
    fun p hp => Hull.between_iff_mem_region.mp (between_convexHull hp)
  refine ⟨fun h => ?_, fun m hm => ⟨convexHull ps, by rw [Raster.hull, hm]; rfl, hinside⟩⟩
  have htwo := two_le_length_convexHull h
  refine ⟨nodup_convexHull h, fun v hv => mem_of_mem_convexHull hv, vertices_convexHull h, htwo, ?_,
    surrounds_of_three_le, region_convexHull ps, hinside, fun qs hmem => convexHull_congr h hmem⟩
  rw [← length_convexHull_lt_iff]
  omega

end Montage
