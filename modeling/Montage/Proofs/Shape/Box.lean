import Mathlib
import Montage.Proofs.Least
import Montage.Proofs.Shape.Polygon
import Montage.Shape.Box
/-!
# Boxes — in line with the canvas

Whatever the angle of a box, `Box.canonical` brings it below a quarter turn
and keeps or exchanges the sides. The direction of the longer side is told up to half
turns, and `Box.longAngle` is its one name below half a turn (`longAngle_eq_toIcoMod`).
Turning the corners is turning the angle (`corners_turned`), and the turn that
`Box.upright` takes leaves a whole number of quarter turns: none, one or two. So the
corners are those of an upright rectangle, listed from one of them on, and the chosen
order makes the top left corner the first (`corners_upright`).

The box around a polygon has positive sides as soon as the polygon has an area:
points that lie on one line have none (`signedArea_eq_zero_of_forall`).
-/

namespace Montage

open Montage.Polygon

/-! ## Upright rectangles -/

namespace Polygon

/-- The corners of an upright rectangle with the given half sides, clockwise on
screen from the top left one. -/
def rectangle (c : Point ℝ) (a b : ℝ) : List (Point ℝ) :=
  [⟨c.x - a, c.y - b⟩, ⟨c.x + a, c.y - b⟩, ⟨c.x + a, c.y + b⟩, ⟨c.x - a, c.y + b⟩]

variable {c : Point ℝ} {a b : ℝ} {vs : List (Point ℝ)}

theorem signedArea_rectangle (c : Point ℝ) (a b : ℝ) :
    (mk (rectangle c a b)).signedArea = 4 * a * b := by
  rw [signedArea_eq, rectangle, edges_cons]
  simp only [List.cons_append, List.nil_append, List.zip_cons_cons, List.zip_nil_right,
    List.map_cons, List.map_nil, List.sum_cons, List.sum_nil, Point.cross]
  ring

/-- **An upright rectangle in the chosen order.** From whichever corner and in
whichever direction its corners are listed, they come clockwise from the top
left one. -/
theorem canonical_of_rectangle (ha : 0 < a) (hb : 0 < b)
    (h : vs ~r rectangle c a b ∨ vs ~r (rectangle c a b).reverse) :
    (mk vs).clockwise.fromOrigin.vertices = rectangle c a b := by
  have hclockwise : (mk vs).clockwise.vertices ~r rectangle c a b := by
    rcases h with h | h
    · have harea : 0 ≤ (mk vs).signedArea := by
        rw [signedArea_of_isRotated h, signedArea_rectangle]
        positivity
      rwa [clockwise_of_nonneg harea]
    · have harea : (mk vs).signedArea < 0 := by
        rw [signedArea_of_isRotated h, signedArea_reverse, signedArea_rectangle]
        have := mul_pos ha hb
        linarith
      rw [clockwise_of_neg harea]
      have := h.reverse
      rwa [List.reverse_reverse] at this
  refine vertices_fromOrigin_of_isRotated hclockwise ?_
  simp only [List.forall_mem_cons, Point.coordSum]
  refine ⟨by linarith, by linarith, by linarith, ?_⟩
  simp

end Polygon

namespace Box

/-! ## Angles -/

/-- **A canonical box** has its angle below a quarter turn, and its sides are
the given ones, in this or the other order. -/
structure IsCanonical (b : Box ℝ) (center : Point ℝ) (width height : ℝ) : Prop where
  center_eq : b.center = center
  angle_nonneg : 0 ≤ b.angle
  angle_lt : b.angle < 90
  sides : b.width = width ∧ b.height = height ∨ b.width = height ∧ b.height = width

namespace IsCanonical

variable {b : Box ℝ} {center : Point ℝ} {width height : ℝ}

theorem sides_pos (hb : b.IsCanonical center width height) (hw : 0 < width) (hh : 0 < height) :
    0 < b.width ∧ 0 < b.height := by
  rcases hb.sides with ⟨h₁, h₂⟩ | ⟨h₁, h₂⟩
  · exact ⟨h₁ ▸ hw, h₂ ▸ hh⟩
  · exact ⟨h₁ ▸ hh, h₂ ▸ hw⟩

theorem max_sides (hb : b.IsCanonical center width height) :
    max b.width b.height = max width height := by
  rcases hb.sides with ⟨h₁, h₂⟩ | ⟨h₁, h₂⟩
  · rw [h₁, h₂]
  · rw [h₁, h₂, max_comm]

theorem min_sides (hb : b.IsCanonical center width height) :
    min b.width b.height = min width height := by
  rcases hb.sides with ⟨h₁, h₂⟩ | ⟨h₁, h₂⟩
  · rw [h₁, h₂]
  · rw [h₁, h₂, min_comm]

end IsCanonical

/-- The quarter turns that are taken off are those that the angle holds. -/
theorem canonicalBy_eq (count : ℝ → ℤ) (center : Point ℝ) (width height angle : ℝ) :
    canonicalBy count center width height angle =
      if count ⌊angle / 90⌋ % 2 = 1 then ⟨center, height, width, angle - ⌊angle / 90⌋ * 90⟩
      else ⟨center, width, height, angle - ⌊angle / 90⌋ * 90⟩ := by
  have hlt := Int.lt_floor_add_one (angle / 90)
  have hbelow : angle - ⌊angle / 90⌋ * 90 < 90 := by linarith
  have hnot : ¬Scalar.le (90 : ℝ) (angle - ⌊angle / 90⌋ * 90) = true := by
    rw [Scalar.le_exact]
    exact hbelow.not_ge
  simp only [canonicalBy, Scalar.ofNat_exact, Scalar.floor_exact, Nat.cast_ofNat, if_neg hnot,
    beq_iff_eq]

/-- However the turns are counted, the angle comes below a quarter turn. -/
theorem isCanonical_canonicalBy (count : ℝ → ℤ) (center : Point ℝ) (width height angle : ℝ) :
    (canonicalBy count center width height angle).IsCanonical center width height := by
  have hfloor := Int.floor_le (angle / 90)
  have hlt := Int.lt_floor_add_one (angle / 90)
  have hnonneg : 0 ≤ angle - ⌊angle / 90⌋ * 90 := by linarith
  have hbelow : angle - ⌊angle / 90⌋ * 90 < 90 := by linarith
  rw [canonicalBy_eq]
  split
  · exact ⟨rfl, hnonneg, hbelow, .inr ⟨rfl, rfl⟩⟩
  · exact ⟨rfl, hnonneg, hbelow, .inl ⟨rfl, rfl⟩⟩

/-- The quarter turns of an angle can be counted in sixty-four bits with a sign. -/
def TurnsFit (angle : ℝ) : Prop :=
  -9223372036854775808 ≤ ⌊angle / 90⌋ ∧ ⌊angle / 90⌋ ≤ 9223372036854775807

/-- **Turns that can be counted** are counted as they are. -/
theorem canonical_of_turnsFit {angle : ℝ} (h : TurnsFit angle) (center : Point ℝ)
    (width height : ℝ) :
    canonical center width height angle =
      canonicalBy Scalar.truncate center width height angle := by
  have hcount : Scalar.truncateInt64 ((⌊angle / 90⌋ : ℤ) : ℝ) = ⌊angle / 90⌋ := by
    rw [Scalar.truncateInt64, Scalar.truncate_intCast, min_eq_right h.2, max_eq_right h.1]
  rw [canonical, canonicalBy_eq, canonicalBy_eq, hcount, Scalar.truncate_intCast]

/-- The direction of the longer side in degrees, and of the `height` side if neither is
longer. -/
noncomputable def longDirection (b : Box ℝ) : ℝ :=
  if b.height < b.width then b.angle else b.angle + 90

theorem half_turn_pos : (0 : ℝ) < 180 := by norm_num

theorem modulo_half_turn (x : ℝ) : Scalar.modulo x 180 = toIcoMod half_turn_pos 0 x := by
  rw [Scalar.modulo_exact, toIcoMod, toIcoDiv_eq_floor, sub_zero, zsmul_eq_mul, mul_comm]

/-- **The long angle** of any box is the direction of its longer side, with the half
turns taken off. -/
theorem longAngle_eq_toIcoMod (b : Box ℝ) :
    b.longAngle = toIcoMod half_turn_pos 0 b.longDirection := by
  simp only [longAngle, longDirection, Scalar.ofNat_exact, Nat.cast_ofNat, Scalar.lt_exact,
    modulo_half_turn]
  split
  · exact toIcoMod_add_right half_turn_pos 0 b.angle
  · rfl

theorem longAngle_mem (b : Box ℝ) : 0 ≤ b.longAngle ∧ b.longAngle < 180 := by
  rw [longAngle_eq_toIcoMod]
  exact toIcoMod_mem_Ico' half_turn_pos b.longDirection

/-- Below a quarter turn, there are no half turns to take off. -/
theorem longAngle_eq {b : Box ℝ} (h0 : 0 ≤ b.angle) (h90 : b.angle < 90) :
    b.longAngle = if b.height < b.width then b.angle else b.angle + 90 := by
  change b.longAngle = b.longDirection
  rw [longAngle_eq_toIcoMod, toIcoMod_eq_self, longDirection]
  split
  · exact ⟨h0, by linarith⟩
  · exact ⟨by linarith, by linarith⟩

/-! ## Turned corners -/

/-- The corners of a box, with the sine and the cosine of its angle. -/
theorem corners_eq (b : Box ℝ) :
    b.corners =
      let c := Real.cos (b.angle * (Real.pi / 180))
      let s := Real.sin (b.angle * (Real.pi / 180))
      let u : Point ℝ := ⟨c * b.width / 2, s * b.width / 2⟩
      let v : Point ℝ := ⟨-s * b.height / 2, c * b.height / 2⟩
      [ ⟨b.center.x - u.x - v.x, b.center.y - u.y - v.y⟩,
        ⟨b.center.x + u.x - v.x, b.center.y + u.y - v.y⟩,
        ⟨b.center.x + u.x + v.x, b.center.y + u.y + v.y⟩,
        ⟨b.center.x - u.x + v.x, b.center.y - u.y + v.y⟩ ] := by
  simp only [corners, Geometric.radians_real, Geometric.sin_real, Geometric.cos_real,
    Scalar.ofNat_exact, Nat.cast_ofNat]

/-- **Turning the corners is turning the box.** -/
theorem corners_turned (b : Box ℝ) (degrees : ℝ) :
    b.corners.map (fun p => p.rotateAbout b.center degrees) =
      Box.corners { b with angle := b.angle - degrees } := by
  have hangle : (b.angle - degrees) * (Real.pi / 180) =
      b.angle * (Real.pi / 180) - degrees * (Real.pi / 180) := by ring
  simp only [corners_eq, hangle, Real.cos_sub, Real.sin_sub, List.map_cons, List.map_nil,
    Point.rotateAbout, Geometric.radians_real, Geometric.sin_real, Geometric.cos_real,
    List.cons.injEq, Point.mk.injEq, and_true]
  refine ⟨⟨?_, ?_⟩, ⟨?_, ?_⟩, ⟨?_, ?_⟩, ?_, ?_⟩ <;> ring

theorem corners_of_angle_zero {b : Box ℝ} (h : b.angle = 0) :
    b.corners = rectangle b.center (b.width / 2) (b.height / 2) := by
  rw [corners_eq, h, zero_mul, Real.cos_zero, Real.sin_zero, rectangle]
  simp only [List.cons.injEq, Point.mk.injEq, and_true]
  refine ⟨⟨?_, ?_⟩, ⟨?_, ?_⟩, ⟨?_, ?_⟩, ?_, ?_⟩ <;> ring

theorem corners_of_angle_quarter {b : Box ℝ} (h : b.angle = 90) :
    b.corners = (rectangle b.center (b.height / 2) (b.width / 2)).rotate 1 := by
  have hquarter : (90 : ℝ) * (Real.pi / 180) = Real.pi / 2 := by ring
  rw [corners_eq, h, hquarter, Real.cos_pi_div_two, Real.sin_pi_div_two]
  simp only [rectangle, List.rotate_cons_succ, List.rotate_zero, List.cons_append, List.nil_append,
    List.cons.injEq, Point.mk.injEq, and_true]
  refine ⟨⟨?_, ?_⟩, ⟨?_, ?_⟩, ⟨?_, ?_⟩, ?_, ?_⟩ <;> ring

theorem corners_of_angle_half {b : Box ℝ} (h : b.angle = 180) :
    b.corners = (rectangle b.center (b.width / 2) (b.height / 2)).rotate 2 := by
  have hhalf : (180 : ℝ) * (Real.pi / 180) = Real.pi := by ring
  rw [corners_eq, h, hhalf, Real.cos_pi, Real.sin_pi]
  simp only [rectangle, List.rotate_cons_succ, List.rotate_zero, List.cons_append, List.nil_append,
    List.cons.injEq, Point.mk.injEq, and_true]
  refine ⟨⟨?_, ?_⟩, ⟨?_, ?_⟩, ⟨?_, ?_⟩, ?_, ?_⟩ <;> ring

/-- **A box in line with its canvas.** The longer side lies across a canvas
that is wider than high, and stands upright on any other. -/
theorem corners_upright {b : Box ℝ} (h0 : 0 ≤ b.angle) (h90 : b.angle < 90) (hw : 0 < b.width)
    (hh : 0 < b.height) (canvas : Size) :
    (b.upright canvas).corners =
      if canvas.height < canvas.width then
        rectangle b.center (max b.width b.height / 2) (min b.width b.height / 2)
      else rectangle b.center (min b.width b.height / 2) (max b.width b.height / 2) := by
  have hcorners : (b.upright canvas).corners = (Polygon.mk (Box.corners { b with
      angle := b.angle - uprightRotation b.longAngle canvas })).clockwise.fromOrigin.vertices := by
    rw [← corners_turned]
    rfl
  have hw2 : 0 < b.width / 2 := by linarith
  have hh2 : 0 < b.height / 2 := by linarith
  rw [hcorners, longAngle_eq h0 h90]
  simp only [uprightRotation, Scalar.ofNat_exact, Nat.cast_ofNat]
  by_cases hlong : b.height < b.width
  · rw [if_pos hlong, max_eq_left hlong.le, min_eq_right hlong.le]
    split
    · refine canonical_of_rectangle hw2 hh2 (.inl ?_)
      rw [corners_of_angle_half (by ring)]
      exact List.IsRotated.forall _ _
    · refine canonical_of_rectangle hh2 hw2 (.inl ?_)
      rw [corners_of_angle_quarter (by ring)]
      exact List.IsRotated.forall _ _
  · rw [if_neg hlong, max_eq_right (not_lt.mp hlong), min_eq_left (not_lt.mp hlong)]
    split
    · refine canonical_of_rectangle hh2 hw2 (.inl ?_)
      rw [corners_of_angle_quarter (by ring)]
      exact List.IsRotated.forall _ _
    · refine canonical_of_rectangle hw2 hh2 (.inl ?_)
      rw [corners_of_angle_zero (by ring)]

end Box

/-- **A box in line with a canvas.** Its corners are those of an upright
rectangle around its centre, clockwise from the top left one, with the longer
side across a canvas that is wider than high and upright on any other. -/
structure UprightBox.InLine (r : UprightBox ℝ) (canvas : Size) : Prop where
  angle_nonneg : 0 ≤ r.angle
  angle_lt : r.angle < 180
  corners_eq : ∃ a b : ℝ, 0 < a ∧ 0 < b ∧
    r.corners = [⟨r.center.x - a, r.center.y - b⟩, ⟨r.center.x + a, r.center.y - b⟩,
      ⟨r.center.x + a, r.center.y + b⟩, ⟨r.center.x - a, r.center.y + b⟩] ∧
    (2 * a = r.width ∧ 2 * b = r.height ∨ 2 * a = r.height ∧ 2 * b = r.width) ∧
    if canvas.height < canvas.width then 2 * a = max r.width r.height
    else 2 * b = max r.width r.height

namespace Box

theorem inLine_upright {b : Box ℝ} (h0 : 0 ≤ b.angle) (h90 : b.angle < 90) (hw : 0 < b.width)
    (hh : 0 < b.height) (canvas : Size) : (b.upright canvas).InLine canvas := by
  have hcorners := corners_upright h0 h90 hw hh canvas
  have hmax : 0 < max b.width b.height := lt_max_of_lt_left hw
  have hmin : 0 < min b.width b.height := lt_min hw hh
  have hsides : max b.width b.height = b.width ∧ min b.width b.height = b.height ∨
      max b.width b.height = b.height ∧ min b.width b.height = b.width := by
    rcases le_total b.height b.width with h | h
    · exact .inl ⟨max_eq_left h, min_eq_right h⟩
    · exact .inr ⟨max_eq_right h, min_eq_left h⟩
  refine ⟨b.longAngle_mem.1, b.longAngle_mem.2, ?_⟩
  by_cases hwide : canvas.height < canvas.width
  · rw [if_pos hwide] at hcorners
    refine ⟨_, _, by positivity, by positivity, hcorners, ?_, ?_⟩
    · rw [mul_div_cancel₀ _ two_ne_zero, mul_div_cancel₀ _ two_ne_zero]
      exact hsides
    · rw [if_pos hwide, mul_div_cancel₀ _ two_ne_zero]
      rfl
  · rw [if_neg hwide] at hcorners
    refine ⟨_, _, by positivity, by positivity, hcorners, ?_, ?_⟩
    · rw [mul_div_cancel₀ _ two_ne_zero, mul_div_cancel₀ _ two_ne_zero]
      exact hsides.symm.imp And.symm And.symm
    · rw [if_neg hwide, mul_div_cancel₀ _ two_ne_zero]
      rfl

/-! ## The box along an edge -/

/-- How far points reach in a direction. -/
noncomputable def extent (ps : List (Point ℝ)) (x y : ℝ) : ℝ :=
  Scalar.greatestOf (ps.map fun p => p.x * x + p.y * y) -
    Scalar.leastOf (ps.map fun p => p.x * x + p.y * y)

/-- The place half-way between the ends that points reach in a direction. -/
noncomputable def middle (ps : List (Point ℝ)) (x y : ℝ) : ℝ :=
  (Scalar.leastOf (ps.map fun p => p.x * x + p.y * y) +
    Scalar.greatestOf (ps.map fun p => p.x * x + p.y * y)) / 2

/-- A box with a side in the direction of a vector of length one, as tight
around points as can be. -/
def IsAlong (b : Box ℝ) (ps : List (Point ℝ)) (x y : ℝ) : Prop :=
  b.IsCanonical
    ⟨middle ps x y * x + middle ps (-y) x * -y, middle ps x y * y + middle ps (-y) x * x⟩
    (extent ps x y) (extent ps (-y) x)

variable {ps : List (Point ℝ)} {p q : Point ℝ} {c : ℝ × Box ℝ}

/-- Every point is within reach. -/
theorem within_reach (hp : p ∈ ps) (x y : ℝ) :
    Scalar.leastOf (ps.map fun p => p.x * x + p.y * y) ≤ p.x * x + p.y * y ∧
      p.x * x + p.y * y ≤ Scalar.greatestOf (ps.map fun p => p.x * x + p.y * y) := by
  have hmem : p.x * x + p.y * y ∈ ps.map fun p => p.x * x + p.y * y :=
    List.mem_map_of_mem (f := fun p : Point ℝ => p.x * x + p.y * y) hp
  exact ⟨Scalar.leastOf_le hmem, Scalar.le_greatestOf hmem⟩

theorem distance_real (p q : Point ℝ) :
    p.distance q = Real.sqrt ((p.x - q.x) ^ 2 + (p.y - q.y) ^ 2) := rfl

theorem shortEdge_real : (shortEdge : ℝ) = 1 / 10 ^ 12 := by
  rw [shortEdge, Scalar.ofDecimal_exact, Nat.cast_one]

/-- An edge that is not short has a box. -/
theorem exists_alongEdge (ps : List (Point ℝ)) (h : 1 / 10 ^ 12 ≤ p.distance q) :
    ∃ c, alongEdge? ps p q = some c := by
  simp only [alongEdge?, Scalar.lt_exact, shortEdge_real, if_neg h.not_gt]
  exact ⟨_, rfl⟩

/-- **The box along an edge**, with its area. -/
theorem alongEdge?_eq (h : alongEdge? ps p q = some c) :
    ∃ x y : ℝ, x * x + y * y = 1 ∧ q.x - p.x = p.distance q * x ∧ q.y - p.y = p.distance q * y ∧
      c = (extent ps x y * extent ps (-y) x, canonical
        ⟨middle ps x y * x + middle ps (-y) x * -y, middle ps x y * y + middle ps (-y) x * x⟩
        (extent ps x y) (extent ps (-y) x) (Geometric.degrees (Geometric.atan2 y x))) := by
  simp only [alongEdge?, Scalar.lt_exact, Scalar.ofNat_exact, Nat.cast_ofNat, shortEdge_real] at h
  split at h
  · cases h
  · next hlong =>
    have hpos : 0 < p.distance q := lt_of_lt_of_le (by positivity) (not_lt.mp hlong)
    have hsq : p.distance q * p.distance q =
        (q.x - p.x) * (q.x - p.x) + (q.y - p.y) * (q.y - p.y) := by
      rw [distance_real, Real.mul_self_sqrt (by positivity)]
      ring
    refine ⟨(q.x - p.x) / p.distance q, (q.y - p.y) / p.distance q, ?_, ?_, ?_, ?_⟩
    · rw [div_mul_div_comm, div_mul_div_comm, ← add_div, ← hsq, div_self (by positivity)]
    · rw [mul_div_cancel₀ _ hpos.ne']
    · rw [mul_div_cancel₀ _ hpos.ne']
    · exact (Option.some.inj h).symm

theorem alongEdge?_spec (h : alongEdge? ps p q = some c) :
    ∃ x y : ℝ, x * x + y * y = 1 ∧ q.x - p.x = p.distance q * x ∧ q.y - p.y = p.distance q * y ∧
      c.2.IsAlong ps x y := by
  obtain ⟨x, y, hxy, hx, hy, rfl⟩ := alongEdge?_eq h
  exact ⟨x, y, hxy, hx, hy, isCanonical_canonicalBy _ _ _ _ _⟩

theorem smallest_eq_foldl (best : ℝ × Box ℝ) (cs : List (ℝ × Box ℝ)) :
    smallest best cs =
      (cs.foldl (fun b c => if Scalar.le b.1 c.1 = true then b else c) best).2 := by
  induction cs generalizing best with
  | nil => rfl
  | cons c rest ih => exact ih _

/-- **The box around a polygon** is the first of the least among those along its
edges, as soon as one of them is not short. -/
theorem firstLeast_around {p : Polygon ℝ} (h : ∃ e ∈ p.edges, 1 / 10 ^ 12 ≤ e.1.distance e.2) :
    ∃ c, FirstLeast (fun c d : ℝ × Box ℝ => Scalar.le c.1 d.1 = true)
      (p.edges.filterMap fun (a, b) => alongEdge? p.vertices a b) c ∧ around p = c.2 := by
  obtain ⟨e, he, hlong⟩ := h
  obtain ⟨c, hc⟩ := exists_alongEdge p.vertices hlong
  have hmem : c ∈ p.edges.filterMap fun (a, b) => alongEdge? p.vertices a b :=
    List.mem_filterMap.mpr ⟨e, he, hc⟩
  rw [around]
  split
  · next hnil =>
    have hfst : e.1 ∈ p.vertices := (mem_of_mem_edges he).1
    rw [hnil] at hfst
    cases hfst
  · split
    · next hnil =>
      rw [hnil] at hmem
      cases hmem
    · next best rest hcons =>
      rw [hcons]
      refine ⟨_, firstLeast_foldl ?_ ?_, smallest_eq_foldl best rest⟩
      · intro b c d hbc hcd
        rw [Scalar.le_exact] at hbc hcd ⊢
        exact hbc.trans hcd
      · intro c _ d _
        rw [Scalar.le_exact, Scalar.le_exact]
        exact le_total c.1 d.1

theorem around_spec {p : Polygon ℝ} (h : ∃ e ∈ p.edges, 1 / 10 ^ 12 ≤ e.1.distance e.2) :
    ∃ e ∈ p.edges, ∃ x y : ℝ, x * x + y * y = 1 ∧ e.2.x - e.1.x = e.1.distance e.2 * x ∧
      e.2.y - e.1.y = e.1.distance e.2 * y ∧ (around p).IsAlong p.vertices x y := by
  obtain ⟨d, hleast, heq⟩ := firstLeast_around h
  obtain ⟨f, hf, hfd⟩ := List.mem_filterMap.mp hleast.mem
  obtain ⟨x, y, hxy, hx, hy, halong⟩ := alongEdge?_spec hfd
  rw [← heq] at halong
  exact ⟨f, hf, x, y, hxy, hx, hy, halong⟩

/-! ## Boxes of polygons with an area -/

/-- **Points with an area reach somewhere in every direction.** -/
theorem extent_pos {vs : List (Point ℝ)} {x y : ℝ} (hxy : x * x + y * y = 1)
    (harea : (Polygon.mk vs).signedArea ≠ 0) : 0 < extent vs x y := by
  by_contra hnone
  refine harea (signedArea_eq_zero_of_forall (m := x) (n := y)
    (k := Scalar.leastOf (vs.map fun p => p.x * x + p.y * y)) (by rw [hxy]; exact one_ne_zero) ?_)
  intro v hv
  obtain ⟨hleast, hgreatest⟩ := within_reach hv x y
  rw [extent] at hnone
  linarith

/-- Two pixels are one apart at least. -/
theorem one_le_distance {p q : Point ℤ} (h : p ≠ q) :
    1 ≤ (Point.ofPixel p : Point ℝ).distance (Point.ofPixel q) := by
  have hsum : 1 ≤ (p.x - q.x) ^ 2 + (p.y - q.y) ^ 2 := by
    by_contra hzero
    have hx : p.x - q.x = 0 := by nlinarith [sq_nonneg (p.x - q.x), sq_nonneg (p.y - q.y)]
    have hy : p.y - q.y = 0 := by nlinarith [sq_nonneg (p.x - q.x), sq_nonneg (p.y - q.y)]
    obtain ⟨px, py⟩ := p
    obtain ⟨qx, qy⟩ := q
    exact h (congrArg₂ Point.mk (sub_eq_zero.mp hx) (sub_eq_zero.mp hy))
  rw [distance_real, Real.one_le_sqrt]
  simp only [Point.ofPixel, Scalar.ofInt_exact]
  exact_mod_cast hsum

/-- A polygon through pixels that has an area has an edge that is not short. -/
theorem exists_edge_of_area {ps : List (Point ℤ)}
    (harea : (Polygon.ofPixels ps : Polygon ℝ).signedArea ≠ 0) :
    ∃ e ∈ (Polygon.ofPixels ps : Polygon ℝ).edges, 1 / 10 ^ 12 ≤ e.1.distance e.2 := by
  by_contra hnone
  push Not at hnone
  refine harea ?_
  -- short edges have both ends at one pixel, so each term of the area vanishes
  have hzero : ∀ e ∈ (Polygon.ofPixels ps : Polygon ℝ).edges, e.1.cross e.2 = 0 := by
    intro e he
    have hends := mem_of_mem_edges he
    obtain ⟨p, -, hp⟩ := List.mem_map.mp hends.1
    obtain ⟨q, -, hq⟩ := List.mem_map.mp hends.2
    have hpq : p = q := by
      by_contra hne
      have hone := one_le_distance hne
      have hshort := hnone e he
      rw [← hp, ← hq] at hshort
      norm_num at hshort
      linarith
    rw [← hp, ← hq, hpq, Point.cross, sub_self]
  rw [signedArea_eq, List.map_congr_left hzero, List.map_const', List.sum_replicate, smul_zero,
    zero_div]

/-- The box around a polygon through pixels that has an area is in line with
its canvas after the turn. -/
theorem inLine_around {ps : List (Point ℤ)}
    (harea : (Polygon.ofPixels ps : Polygon ℝ).signedArea ≠ 0) (canvas : Size) :
    ((around (Polygon.ofPixels ps : Polygon ℝ)).upright canvas).InLine canvas := by
  obtain ⟨e, -, x, y, hxy, -, -, halong⟩ := around_spec (exists_edge_of_area harea)
  have hyx : -y * -y + x * x = 1 := by
    rw [neg_mul_neg, add_comm]
    exact hxy
  obtain ⟨hw, hh⟩ := halong.sides_pos (extent_pos hxy harea) (extent_pos hyx harea)
  exact inLine_upright halong.angle_nonneg halong.angle_lt hw hh canvas

end Box

/-! ## Boxes of masks -/

namespace Raster

variable {m : Mask} {hull : List (Point ℤ)}

theorem fitBox_of_hull (h : m.hull = .ok hull) :
    (m.fitBox : Except Fault (UprightBox ℝ)) =
      .ok ((Box.around (Polygon.ofPixels hull)).upright m.size) := by
  rw [fitBox, h]
  rfl

/-- **The box of an object is in line with the canvas.** Whatever mask has a
hull with an area, and at whatever angle: there is a box, its angle is below
half a turn, and its corners are those of an upright rectangle around its
centre, from the top left one clockwise, with the sides of the box, the longer
one in the direction of the canvas. -/
theorem fitBox_inLine (h : m.hull = .ok hull)
    (harea : 0 < (Polygon.ofPixels hull : Polygon ℝ).area) :
    ∃ r : UprightBox ℝ, m.fitBox = .ok r ∧ r.InLine m.size :=
  ⟨_, fitBox_of_hull h, Box.inLine_around (abs_pos.mp harea) m.size⟩

/-- Three pixels at a corner of which one is missing. -/
def wedge : Mask := ofFn 4 3 fun x y => if 1 ≤ x ∧ 1 ≤ y ∧ x + y ≤ 3 then 255 else 0

theorem hull_wedge : wedge.hull = .ok [⟨1, 1⟩, ⟨2, 1⟩, ⟨1, 2⟩] := by cbv

theorem fitBox_inLine_wedge :
    wedge.hull = .ok [⟨1, 1⟩, ⟨2, 1⟩, ⟨1, 2⟩] ∧
      0 < (Polygon.ofPixels [⟨1, 1⟩, ⟨2, 1⟩, ⟨1, 2⟩] : Polygon ℝ).area ∧
      ∃ r : UprightBox ℝ, wedge.fitBox = .ok r ∧ r.InLine ⟨4, 3⟩ := by
  have harea : 0 < (Polygon.ofPixels [⟨1, 1⟩, ⟨2, 1⟩, ⟨1, 2⟩] : Polygon ℝ).area := by
    refine abs_pos.mpr ?_
    rw [Polygon.ofPixels, List.map_cons, List.map_cons, List.map_cons, List.map_nil,
      signedArea_ear, signedArea_pair]
    norm_num [Point.turn, Point.ofPixel]
  exact ⟨hull_wedge, harea, fitBox_inLine hull_wedge harea⟩

end Raster

end Montage
