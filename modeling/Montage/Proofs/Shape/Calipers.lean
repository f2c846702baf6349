import Montage.Proofs.Shape.Frame
/-!
# Calipers — the rectangle of least area around points

`Box.around` tries the direction of each edge. In a frame with that direction, a
rectangle is tight around points when they reach just from one end of its sides to
the other, `Frame.Spans`. This fixes the sides and the centre (`spans_iff`), so
there is one tight rectangle in each direction, and none that holds the points
has a lesser area (`IsCaliper.area_le`). The boxes along the edges are these
rectangles (`isCaliper_of_alongEdge?`). Which one is taken, `FirstLeast` tells.

A rectangle has two directions, and both ways along each. `exists_frame_of_side`
chooses the frame of a rectangle that points along a given side.
-/

namespace Montage

open Montage.Polygon

/-- Two edges in the same direction, or in opposite ones. -/
def Parallel (e f : Point ℝ × Point ℝ) : Prop :=
  (f.2.x - f.1.x) * (e.2.y - e.1.y) = (f.2.y - f.1.y) * (e.2.x - e.1.x)

namespace Box

/-- The area of a box. -/
def area (b : Box ℝ) : ℝ := b.width * b.height

/-- The outline of a box. -/
noncomputable def outline (b : Box ℝ) : Polygon ℝ := ⟨b.corners⟩

/-- **A rectangle around points.** -/
structure Encloses (b : Box ℝ) (ps : List (Point ℝ)) : Prop where
  width_nonneg : 0 ≤ b.width
  height_nonneg : 0 ≤ b.height
  holds : ∀ v ∈ ps, v.pair ∈ b.outline.region

/-- **A tight rectangle.** It lies around the points, and each of its sides has a
point on it. -/
structure Tight (b : Box ℝ) (ps : List (Point ℝ)) : Prop extends b.Encloses ps where
  touches : ∀ f ∈ b.outline.edges, ∃ v ∈ ps, v.pair ∈ segment ℝ f.1.pair f.2.pair

/-- A side with a length is parallel to the given edge. -/
def HasSideAlong (b : Box ℝ) (e : Point ℝ × Point ℝ) : Prop :=
  ∃ f ∈ b.outline.edges, f.1 ≠ f.2 ∧ Parallel e f

end Box

variable {F G : Frame} {ps : List (Point ℝ)} {p q v : Point ℝ} {x y a b m w h : ℝ}

/-! ## How far points reach -/

namespace Box

theorem exists_greatest (hne : ps ≠ []) (x y : ℝ) :
    ∃ v ∈ ps, v.x * x + v.y * y = Scalar.greatestOf (ps.map fun p => p.x * x + p.y * y) :=
  List.mem_map.mp (Scalar.greatestOf_mem (mt List.map_eq_nil_iff.mp hne))

theorem exists_least (hne : ps ≠ []) (x y : ℝ) :
    ∃ v ∈ ps, v.x * x + v.y * y = Scalar.leastOf (ps.map fun p => p.x * x + p.y * y) :=
  List.mem_map.mp (Scalar.leastOf_mem (mt List.map_eq_nil_iff.mp hne))

/-- Two points are no farther apart in a direction than points reach. -/
theorem sub_le_extent (hp : p ∈ ps) (hq : q ∈ ps) (x y : ℝ) :
    (q.x * x + q.y * y) - (p.x * x + p.y * y) ≤ extent ps x y := by
  obtain ⟨hleast, -⟩ := within_reach hp x y
  obtain ⟨-, hgreatest⟩ := within_reach hq x y
  rw [extent]
  linarith

theorem extent_nonneg (hp : p ∈ ps) (x y : ℝ) : 0 ≤ extent ps x y := by
  have := sub_le_extent hp hp x y
  linarith

end Box

namespace Frame

open Box

theorem along_eq (F : Frame) (v : Point ℝ) :
    F.along v = (v.x * F.x + v.y * F.y) - (F.center.x * F.x + F.center.y * F.y) := by
  rw [along]
  ring

/-- The points reach from one end of a side along the direction to the other. -/
structure Spans (F : Frame) (ps : List (Point ℝ)) (m : ℝ) : Prop where
  within : ∀ v ∈ ps, |F.along v| ≤ m / 2
  low : ∃ v ∈ ps, F.along v = -(m / 2)
  high : ∃ v ∈ ps, F.along v = m / 2

/-- Points between the ends of a side reach no farther than its length. -/
theorem extent_le (hne : ps ≠ []) (hwithin : ∀ v ∈ ps, |F.along v| ≤ m / 2) :
    extent ps F.x F.y ≤ m := by
  obtain ⟨p, hp, hleast⟩ := exists_least hne F.x F.y
  obtain ⟨q, hq, hgreatest⟩ := exists_greatest hne F.x F.y
  have hlow := (abs_le.mp (hwithin p hp)).1
  have hhigh := (abs_le.mp (hwithin q hq)).2
  rw [along_eq] at hlow hhigh
  rw [extent, ← hleast, ← hgreatest]
  linarith

theorem spans_quarter : F.quarter.Spans ps m ↔ (∀ v ∈ ps, |F.across v| ≤ m / 2) ∧
    (∃ v ∈ ps, F.across v = -(m / 2)) ∧ ∃ v ∈ ps, F.across v = m / 2 := by
  constructor
  · rintro ⟨hwithin, hlow, hhigh⟩
    simp only [along_quarter] at hwithin hlow hhigh
    exact ⟨hwithin, hlow, hhigh⟩
  · rintro ⟨hwithin, hlow, hhigh⟩
    simp only [← along_quarter] at hwithin hlow hhigh
    exact ⟨hwithin, hlow, hhigh⟩

/-- **The ends that points reach** fix the length of the side and the place of the
centre. -/
theorem spans_iff (hne : ps ≠ []) :
    F.Spans ps m ↔ m = extent ps F.x F.y ∧
      F.center.x * F.x + F.center.y * F.y = middle ps F.x F.y := by
  have hends : Scalar.greatestOf (ps.map fun p => p.x * F.x + p.y * F.y) =
      middle ps F.x F.y + extent ps F.x F.y / 2 ∧
      Scalar.leastOf (ps.map fun p => p.x * F.x + p.y * F.y) =
      middle ps F.x F.y - extent ps F.x F.y / 2 := by
    rw [middle, extent]
    constructor <;> ring
  obtain ⟨hgreatest, hleast⟩ := hends
  constructor
  · rintro ⟨hwithin, ⟨p, hp, hlow⟩, q, hq, hhigh⟩
    have hplace : ∀ v ∈ ps.map fun p => p.x * F.x + p.y * F.y,
        |v - (F.center.x * F.x + F.center.y * F.y)| ≤ m / 2 := by
      intro v hv
      obtain ⟨u, hu, rfl⟩ := List.mem_map.mp hv
      rw [← along_eq]
      exact hwithin u hu
    rw [along_eq] at hlow hhigh
    have hlast := Scalar.greatestOf_eq (List.mem_map_of_mem hq) fun v hv => by
      have := (abs_le.mp (hplace v hv)).2
      linarith
    have hfirst := Scalar.leastOf_eq (List.mem_map_of_mem hp) fun v hv => by
      have := (abs_le.mp (hplace v hv)).1
      linarith
    constructor <;> linarith
  · rintro ⟨rfl, hcenter⟩
    obtain ⟨p, hp, hfirst⟩ := exists_least hne F.x F.y
    obtain ⟨q, hq, hlast⟩ := exists_greatest hne F.x F.y
    refine ⟨fun v hv => ?_, ⟨p, hp, ?_⟩, q, hq, ?_⟩
    · obtain ⟨hfrom, hto⟩ := within_reach hv F.x F.y
      rw [along_eq, abs_le]
      constructor <;> linarith
    · rw [along_eq]
      linarith
    · rw [along_eq]
      linarith

/-! ## Tight rectangles -/

theorem edges_corners (F : Frame) (m n : ℝ) : (Polygon.mk (F.corners m n)).edges =
    [(F.point (-m) (-n), F.point m (-n)), (F.point m (-n), F.point m n),
      (F.point m n, F.point (-m) n), (F.point (-m) n, F.point (-m) (-n))] := rfl

/-- Points of a side along the direction have one place across it. -/
theorem across_of_mem_segment (hv : v.pair ∈ segment ℝ (F.point a m).pair (F.point b m).pair) :
    F.across v = m := by
  obtain ⟨s, t, -, -, hst, heq⟩ := hv
  obtain ⟨hx, hy⟩ := Prod.mk.inj heq
  simp only [Point.pair, point, smul_eq_mul, Prod.smul_mk] at hx hy
  rw [across, ← hx, ← hy]
  linear_combination (F.center.y * F.x - F.center.x * F.y + m * (F.x * F.x + F.y * F.y)) * hst +
    m * F.unit

/-- Points between the ends of a side touch it as soon as they reach as far across
the direction. -/
theorem touches_along_iff (hwithin : ∀ v ∈ ps, |F.along v| ≤ a) :
    (∃ v ∈ ps, v.pair ∈ segment ℝ (F.point (-a) m).pair (F.point a m).pair) ↔
      ∃ v ∈ ps, F.across v = m := by
  constructor
  · rintro ⟨v, hv, hmem⟩
    exact ⟨v, hv, F.across_of_mem_segment hmem⟩
  · rintro ⟨v, hv, rfl⟩
    have hmem := F.point_mem_segment_along (b := F.across v) (hwithin v hv)
    rw [F.point_along_across] at hmem
    exact ⟨v, hv, hmem⟩

theorem touches_across_iff (hwithin : ∀ v ∈ ps, |F.across v| ≤ a) :
    (∃ v ∈ ps, v.pair ∈ segment ℝ (F.point m (-a)).pair (F.point m a).pair) ↔
      ∃ v ∈ ps, F.along v = m := by
  have hquarter : ∀ v ∈ ps, |F.quarter.along v| ≤ a := by
    simpa only [along_quarter] using hwithin
  have htouches := F.quarter.touches_along_iff (m := -m) hquarter
  simp only [point_quarter, neg_neg, across_quarter, neg_inj] at htouches
  exact htouches

/-- A segment along the direction that has a length tells the direction. -/
theorem parallel_of_segment (hne : F.point a m ≠ F.point b m)
    (hpar : Parallel (p, q) (F.point a m, F.point b m)) :
    F.x * (q.y - p.y) = F.y * (q.x - p.x) := by
  have hab : b - a ≠ 0 := by
    intro hzero
    rw [sub_eq_zero.mp hzero] at hne
    exact hne rfl
  refine mul_left_cancel₀ hab ?_
  simp only [Parallel, point] at hpar
  linear_combination hpar

/-- **Along a direction parallel to that of a frame**, the frame itself or the one
after half a turn points. -/
theorem eq_or_eq_half_turn (hxy : x * x + y * y = 1) (hpar : F.x * y = F.y * x) :
    F.x = x ∧ F.y = y ∨ F.quarter.quarter.x = x ∧ F.quarter.quarter.y = y := by
  have hsquare : (F.x * x + F.y * y) * (F.x * x + F.y * y) = 1 := by
    linear_combination F.unit + (F.x * F.x + F.y * F.y) * hxy - (F.x * y - F.y * x) * hpar
  have hx : x = F.x * (F.x * x + F.y * y) := by
    linear_combination -x * F.unit - F.y * hpar
  have hy : y = F.y * (F.x * x + F.y * y) := by
    linear_combination -y * F.unit + F.x * hpar
  rcases mul_self_eq_one_iff.mp hsquare with hone | hone
  · rw [hone, mul_one] at hx hy
    exact .inl ⟨hx.symm, hy.symm⟩
  · rw [hone, mul_neg_one] at hx hy
    exact .inr ⟨hx.symm, hy.symm⟩

end Frame

namespace Box

variable {b r : Box ℝ} {e : Point ℝ × Point ℝ} {c : ℝ × Box ℝ}

/-- **A box in a frame**, with its sides along the direction and across it. -/
structure InFrame (b : Box ℝ) (F : Frame) (w h : ℝ) : Prop where
  corners : b.corners ~r F.corners (w / 2) (h / 2)
  sides : b.width = w ∧ b.height = h ∨ b.width = h ∧ b.height = w

theorem inFrame_frame (b : Box ℝ) : b.InFrame b.frame b.width b.height where
  corners := by rw [corners_eq_frame]
  sides := .inl ⟨rfl, rfl⟩

theorem inFrame_canonical (F : Frame) (w h : ℝ) :
    (canonical F.center w h (Geometric.degrees (Geometric.atan2 F.y F.x))).InFrame F w h where
  corners := by
    have hturned := corners_canonical (turnsFit_atan2 F.x F.y) F.center w h
    rwa [F.ofAngle_atan2] at hturned
  sides := (isCanonical_canonicalBy _ _ w h _).sides

namespace InFrame

theorem quarter (hb : b.InFrame F w h) : b.InFrame F.quarter h w where
  corners := by
    rw [Frame.corners_quarter]
    exact hb.corners.trans (List.IsRotated.forall _ 1).symm
  sides := hb.sides.symm

theorem area_eq (hb : b.InFrame F w h) : b.area = w * h := by
  rcases hb.sides with ⟨hw, hh⟩ | ⟨hw, hh⟩
  · rw [area, hw, hh]
  · rw [area, hw, hh, mul_comm]

theorem sides_nonneg (hb : b.InFrame F w h) :
    0 ≤ b.width ∧ 0 ≤ b.height ↔ 0 ≤ w ∧ 0 ≤ h := by
  rcases hb.sides with ⟨hw, hh⟩ | ⟨hw, hh⟩
  · rw [hw, hh]
  · rw [hw, hh, and_comm]

theorem mem_edges_iff (hb : b.InFrame F w h) :
    e ∈ b.outline.edges ↔ e ∈ (Polygon.mk (F.corners (w / 2) (h / 2))).edges :=
  mem_edges_of_isRotated hb.corners

theorem encloses_iff (hb : b.InFrame F w h) :
    b.Encloses ps ↔ 0 ≤ w ∧ 0 ≤ h ∧ ∀ v ∈ ps, |F.along v| ≤ w / 2 ∧ |F.across v| ≤ h / 2 := by
  have hregion : b.outline.region = (Polygon.mk (F.corners (w / 2) (h / 2))).region :=
    region_of_isRotated hb.corners
  constructor
  · rintro ⟨hwidth, hheight, hholds⟩
    obtain ⟨hw, hh⟩ := hb.sides_nonneg.mp ⟨hwidth, hheight⟩
    refine ⟨hw, hh, fun v hv => ?_⟩
    rw [← F.mem_region_corners (div_nonneg hw zero_le_two) (div_nonneg hh zero_le_two),
      ← hregion]
    exact hholds v hv
  · rintro ⟨hw, hh, hwithin⟩
    obtain ⟨hwidth, hheight⟩ := hb.sides_nonneg.mpr ⟨hw, hh⟩
    refine ⟨hwidth, hheight, fun v hv => ?_⟩
    rw [hregion, F.mem_region_corners (div_nonneg hw zero_le_two) (div_nonneg hh zero_le_two)]
    exact hwithin v hv

/-- **A tight box** is one whose points reach from end to end both ways. -/
theorem tight_iff (hb : b.InFrame F w h) (hne : ps ≠ []) :
    b.Tight ps ↔ F.Spans ps w ∧ F.quarter.Spans ps h := by
  -- a point touches a side when it reaches as far as the side lies from the centre
  have hsides : (∀ v ∈ ps, |F.along v| ≤ w / 2) → (∀ v ∈ ps, |F.across v| ≤ h / 2) →
      ((∀ f ∈ b.outline.edges, ∃ v ∈ ps, v.pair ∈ segment ℝ f.1.pair f.2.pair) ↔
        (∃ v ∈ ps, F.across v = -(h / 2)) ∧ (∃ v ∈ ps, F.along v = w / 2) ∧
        (∃ v ∈ ps, F.across v = h / 2) ∧ ∃ v ∈ ps, F.along v = -(w / 2)) := by
    intro halong hacross
    simp only [hb.mem_edges_iff, Frame.edges_corners, List.forall_mem_cons, List.not_mem_nil,
      false_implies, implies_true, and_true]
    rw [F.touches_along_iff halong, F.touches_across_iff hacross, segment_symm,
      F.touches_along_iff halong]
    rw [segment_symm, F.touches_across_iff hacross]
  rw [Frame.spans_quarter]
  constructor
  · rintro ⟨hencloses, htouches⟩
    obtain ⟨-, -, hwithin⟩ := hb.encloses_iff.mp hencloses
    have halong := fun v hv => (hwithin v hv).1
    have hacross := fun v hv => (hwithin v hv).2
    obtain ⟨habove, hright, hbelow, hleft⟩ := (hsides halong hacross).mp htouches
    exact ⟨⟨halong, hleft, hright⟩, hacross, habove, hbelow⟩
  · rintro ⟨⟨halong, hleft, hright⟩, hacross, habove, hbelow⟩
    obtain ⟨v, hv⟩ := List.exists_mem_of_ne_nil ps hne
    have hw : 0 ≤ w := by linarith [(abs_nonneg _).trans (halong v hv)]
    have hh : 0 ≤ h := by linarith [(abs_nonneg _).trans (hacross v hv)]
    exact ⟨hb.encloses_iff.mpr ⟨hw, hh, fun v hv => ⟨halong v hv, hacross v hv⟩⟩,
      (hsides halong hacross).mpr ⟨habove, hright, hbelow, hleft⟩⟩

/-- A box in a frame that points along an edge has a side along it. -/
theorem hasSideAlong (hb : b.InFrame F w h) (hw : w ≠ 0)
    (hpar : F.x * (q.y - p.y) = F.y * (q.x - p.x)) : b.HasSideAlong (p, q) := by
  refine ⟨(F.point (-(w / 2)) (-(h / 2)), F.point (w / 2) (-(h / 2))), ?_, fun heq => hw ?_, ?_⟩
  · rw [hb.mem_edges_iff, Frame.edges_corners]
    exact List.mem_cons_self
  · have hplaces := congrArg F.along heq
    simp only [Frame.along_point] at hplaces
    linarith
  · simp only [Parallel, Frame.point]
    linear_combination w * hpar

end InFrame

/-- **The frame of a side.** A box with a side along an edge lies in a frame that
points the way of the edge. -/
theorem exists_frame_of_side (hb : b.HasSideAlong (p, q)) (hxy : x * x + y * y = 1) (hm : m ≠ 0)
    (hx : q.x - p.x = m * x) (hy : q.y - p.y = m * y) :
    ∃ F w h, b.InFrame F w h ∧ F.x = x ∧ F.y = y := by
  -- the frame of the box, or the one after a quarter turn, is parallel to the edge
  have hparallel : ∃ F w h, b.InFrame F w h ∧ F.x * (q.y - p.y) = F.y * (q.x - p.x) := by
    obtain ⟨f, hf, hne, hpar⟩ := hb
    have hquarter : ∀ u v, b.frame.point u v = b.frame.quarter.point v (-u) := by
      intro u v
      rw [Frame.point_quarter, neg_neg]
    rw [b.inFrame_frame.mem_edges_iff, Frame.edges_corners] at hf
    simp only [List.mem_cons, List.not_mem_nil, or_false] at hf
    rcases hf with rfl | rfl | rfl | rfl
    · exact ⟨_, _, _, b.inFrame_frame, Frame.parallel_of_segment hne hpar⟩
    · rw [hquarter, hquarter] at hne hpar
      exact ⟨_, _, _, b.inFrame_frame.quarter, Frame.parallel_of_segment hne hpar⟩
    · exact ⟨_, _, _, b.inFrame_frame, Frame.parallel_of_segment hne hpar⟩
    · rw [hquarter, hquarter] at hne hpar
      exact ⟨_, _, _, b.inFrame_frame.quarter, Frame.parallel_of_segment hne hpar⟩
  obtain ⟨F, w, h, hframe, hpar⟩ := hparallel
  rw [hx, hy] at hpar
  have hdirection : F.x * y = F.y * x := by
    refine mul_left_cancel₀ hm ?_
    linear_combination hpar
  rcases Frame.eq_or_eq_half_turn hxy hdirection with heq | heq
  · exact ⟨F, w, h, hframe, heq⟩
  · exact ⟨F.quarter.quarter, w, h, hframe.quarter.quarter, heq⟩

/-! ## The rectangle of an edge -/

/-- **The caliper of an edge.** It is tight and has a side along the edge. No other
rectangle with such a side has a lesser area if it lies around the points, and
none but this one is tight. -/
structure IsCaliper (b : Box ℝ) (ps : List (Point ℝ)) (e : Point ℝ × Point ℝ) : Prop
    extends b.Tight ps where
  side : b.HasSideAlong e
  area_le : ∀ r : Box ℝ, r.Encloses ps → r.HasSideAlong e → b.area ≤ r.area
  unique : ∀ r : Box ℝ, r.Tight ps → r.HasSideAlong e → r.corners ~r b.corners

/-- Half-way between the ends that points reach along a direction and across it. -/
noncomputable def tightFrame (ps : List (Point ℝ)) (x y : ℝ) (hxy : x * x + y * y = 1) : Frame where
  center :=
    ⟨middle ps x y * x + middle ps (-y) x * -y, middle ps x y * y + middle ps (-y) x * x⟩
  x := x
  y := y
  unit := hxy

theorem tightFrame_spans (hne : ps ≠ []) (hxy : x * x + y * y = 1) :
    (tightFrame ps x y hxy).Spans ps (extent ps x y) ∧
      (tightFrame ps x y hxy).quarter.Spans ps (extent ps (-y) x) := by
  refine ⟨(Frame.spans_iff hne).mpr ⟨rfl, ?_⟩, (Frame.spans_iff hne).mpr ⟨rfl, ?_⟩⟩
  · simp only [tightFrame]
    linear_combination middle ps x y * hxy
  · simp only [tightFrame, Frame.quarter]
    linear_combination middle ps (-y) x * hxy

/-- A frame in whose middle the points lie is told by its direction. -/
theorem eq_tightFrame (hne : ps ≠ []) (hxy : F.x * F.x + F.y * F.y = 1) (hw : F.Spans ps w)
    (hh : F.quarter.Spans ps h) :
    F = tightFrame ps F.x F.y hxy ∧ w = extent ps F.x F.y ∧ h = extent ps (-F.y) F.x := by
  obtain ⟨hw, halong⟩ := (Frame.spans_iff hne).mp hw
  obtain ⟨hh, hacross⟩ := (Frame.spans_iff hne).mp hh
  refine ⟨Frame.ext ?_ rfl rfl, hw, hh⟩
  simp only [Frame.quarter] at hacross
  rw [tightFrame, ← halong, ← hacross]
  obtain ⟨⟨cx, cy⟩, fx, fy, hunit⟩ := F
  simp only [Point.mk.injEq]
  constructor
  · linear_combination -cx * hunit
  · linear_combination -cy * hunit

/-- **The box along an edge** is the caliper of that edge, and comes with its
area. -/
theorem isCaliper_of_alongEdge? (hp : p ∈ ps) (hq : q ∈ ps) (hpos : 0 < p.distance q)
    (halong : alongEdge? ps p q = some c) : c.2.IsCaliper ps (p, q) ∧ c.1 = c.2.area := by
  have hne : ps ≠ [] := List.ne_nil_of_mem hp
  obtain ⟨x, y, hxy, hx, hy, rfl⟩ := alongEdge?_eq halong
  have hframe := inFrame_canonical (tightFrame ps x y hxy) (extent ps x y) (extent ps (-y) x)
  have hspans := tightFrame_spans hne hxy
  have hextent : 0 < extent ps x y := by
    have hreach := sub_le_extent hp hq x y
    have hlength : (q.x * x + q.y * y) - (p.x * x + p.y * y) = p.distance q := by
      linear_combination x * hx + y * hy + p.distance q * hxy
    linarith
  refine ⟨⟨(hframe.tight_iff hne).mpr hspans, ?_, ?_, ?_⟩, hframe.area_eq.symm⟩
  · refine hframe.hasSideAlong hextent.ne' ?_
    simp only [tightFrame]
    rw [hx, hy]
    ring
  · intro r hr hside
    obtain ⟨G, w, h, hG, rfl, rfl⟩ := exists_frame_of_side hside hxy hpos.ne' hx hy
    obtain ⟨hw, -, hwithin⟩ := hG.encloses_iff.mp hr
    have hwidth : extent ps G.x G.y ≤ w := Frame.extent_le hne fun v hv => (hwithin v hv).1
    have hheight : extent ps (-G.y) G.x ≤ h :=
      Frame.extent_le (F := G.quarter) hne fun v hv => by
        rw [G.along_quarter]
        exact (hwithin v hv).2
    rw [hG.area_eq]
    exact hframe.area_eq.trans_le (mul_le_mul hwidth hheight (extent_nonneg hp _ _) hw)
  · intro r hr hside
    obtain ⟨G, w, h, hG, rfl, rfl⟩ := exists_frame_of_side hside hxy hpos.ne' hx hy
    obtain ⟨hw, hh⟩ := (hG.tight_iff hne).mp hr
    obtain ⟨heq, rfl, rfl⟩ := eq_tightFrame hne hxy hw hh
    have hcorners := hG.corners
    rw [heq] at hcorners
    exact hcorners.trans hframe.corners.symm

/-! ## The box around a polygon -/

/-- Each edge that is not short has a caliper. -/
theorem exists_caliper {poly : Polygon ℝ} (h : 1 / 10 ^ 12 ≤ e.1.distance e.2)
    (he : e ∈ poly.edges) :
    ∃ c, alongEdge? poly.vertices e.1 e.2 = some c ∧
      c.2.IsCaliper poly.vertices e ∧ c.1 = c.2.area := by
  obtain ⟨c, hc⟩ := exists_alongEdge poly.vertices h
  obtain ⟨hfst, hsnd⟩ := mem_of_mem_edges he
  have hpos : 0 < e.1.distance e.2 := lt_of_lt_of_le (by positivity) h
  exact ⟨c, hc, isCaliper_of_alongEdge? hfst hsnd hpos hc⟩

/-- An edge that has a box is not short. -/
theorem le_distance_of_alongEdge? (h : alongEdge? ps p q = some c) :
    1 / 10 ^ 12 ≤ p.distance q := by
  by_contra hshort
  simp only [alongEdge?, Scalar.lt_exact, shortEdge_real, if_pos (not_le.mp hshort)] at h
  cases h

/-- **Rotating calipers.** Around a polygon with an edge that is not short, the box
is a tight rectangle, with its angle below a quarter turn. Along each such edge there
is a tight rectangle, and no rectangle around the vertices that has a side along one
of them has a lesser area than the box. The box is the tight rectangle of the first
of these edges along which its area is reached: along those before, all rectangles
around the vertices have a greater area. -/
theorem around_isCaliper {poly : Polygon ℝ}
    (hlong : ∃ e ∈ poly.edges, 1 / 10 ^ 12 ≤ e.1.distance e.2) :
    (around poly).Tight poly.vertices ∧
      (0 ≤ (around poly).angle ∧ (around poly).angle < 90) ∧
      (∀ e ∈ poly.edges, 1 / 10 ^ 12 ≤ e.1.distance e.2 →
        (∃ r : Box ℝ, r.Tight poly.vertices ∧ r.HasSideAlong e) ∧
          ∀ r : Box ℝ, r.Encloses poly.vertices → r.HasSideAlong e →
            (around poly).area ≤ r.area) ∧
      ∃ before e after, poly.edges = before ++ e :: after ∧
        1 / 10 ^ 12 ≤ e.1.distance e.2 ∧ (around poly).HasSideAlong e ∧
        (∀ r : Box ℝ, r.Tight poly.vertices → r.HasSideAlong e →
          r.corners ~r (around poly).corners) ∧
        ∀ f ∈ before, 1 / 10 ^ 12 ≤ f.1.distance f.2 → ∀ r : Box ℝ,
          r.Encloses poly.vertices → r.HasSideAlong f → (around poly).area < r.area := by
  obtain ⟨c, hleast, haround⟩ := firstLeast_around hlong
  obtain ⟨before, e, after, hedges, hc, hbefore⟩ := hleast.of_filterMap
  have he : e ∈ poly.edges := by
    rw [hedges]
    exact List.mem_append_right _ List.mem_cons_self
  have helong := le_distance_of_alongEdge? hc
  obtain ⟨c', hc', hcaliper, harea⟩ := exists_caliper helong he
  obtain rfl : c' = c := Option.some.inj (hc'.symm.trans hc)
  obtain ⟨_, _, _, _, _, _, _, hcanonical⟩ := around_spec hlong
  rw [← haround] at hcaliper harea
  refine ⟨hcaliper.toTight, ⟨hcanonical.angle_nonneg, hcanonical.angle_lt⟩, ?_, before, e, after,
    hedges, helong, hcaliper.side, hcaliper.unique, ?_⟩
  · intro f hf hflong
    obtain ⟨d, hd, hfcaliper, hdarea⟩ := exists_caliper hflong hf
    refine ⟨⟨d.2, hfcaliper.toTight, hfcaliper.side⟩, fun r hr hside => ?_⟩
    have hle := hleast.rel_of_mem (fun c _ d _ => ?_) (List.mem_filterMap.mpr ⟨f, hf, hd⟩)
    · rw [Scalar.le_exact, harea, hdarea] at hle
      exact hle.trans (hfcaliper.area_le r hr hside)
    · rw [Scalar.le_exact, Scalar.le_exact]
      exact le_total c.1 d.1
  · intro f hf hflong r hr hside
    have hfmem : f ∈ poly.edges := by
      rw [hedges]
      exact List.mem_append_left _ hf
    obtain ⟨d, hd, hfcaliper, hdarea⟩ := exists_caliper hflong hfmem
    have hgreater := hbefore f hf d hd
    rw [Scalar.le_exact, harea, hdarea, not_le] at hgreater
    exact hgreater.trans_le (hfcaliper.area_le r hr hside)

/-- Half of the unit square. -/
def halfSquare : Polygon ℝ := ⟨[⟨0, 0⟩, ⟨1, 0⟩, ⟨0, 1⟩]⟩

theorem around_isCaliper_halfSquare :
    (∃ e ∈ halfSquare.edges, 1 / 10 ^ 12 ≤ e.1.distance e.2) ∧
      (around halfSquare).Tight halfSquare.vertices ∧
      0 ≤ (around halfSquare).angle ∧ (around halfSquare).angle < 90 := by
  have hlong : ∃ e ∈ halfSquare.edges, 1 / 10 ^ 12 ≤ e.1.distance e.2 := by
    refine ⟨(⟨0, 0⟩, ⟨1, 0⟩), List.mem_cons_self, ?_⟩
    rw [distance_real]
    norm_num
  obtain ⟨htight, hangle, -⟩ := around_isCaliper hlong
  exact ⟨hlong, htight, hangle⟩

end Box

end Montage
