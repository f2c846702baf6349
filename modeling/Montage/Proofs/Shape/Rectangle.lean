import Montage.Proofs.Shape.Box
import Montage.Proofs.Shape.Fitting
import Montage.Canvas.Straighten
/-!
# Rectangles — objects that stand straight

For an object whose hull is an upright rectangle, the quadrilateral and the box
that a straightening starts from are found by different means, but both list
the corners from the top left one clockwise. The quadrilateral is the hull in
the chosen order. The box is along some edge of the hull, and it makes no
difference along which: a rectangle reaches equally far to both sides of its
centre (`greatest_of_corners`, `least_of_corners`), so the box has the centre
and the sides of the hull in any case (`isCanonical_around`). Whether the two
agree then depends on the canvas alone.
-/

namespace Montage

open Montage.Polygon

variable {c v : Point ℝ} {a b x y : ℝ} {vs : List (Point ℝ)}

/-- Whether sides lie in the direction of a canvas: an object that is not higher
than wide on a canvas that is wider than high, and one that is not wider than
high on any other. -/
def Size.Along {α : Type} [LE α] (canvas : Size) (width height : α) : Prop :=
  if canvas.height < canvas.width then height ≤ width else width ≤ height

instance {α : Type} [LE α] [DecidableLE α] (canvas : Size) (width height : α) :
    Decidable (canvas.Along width height) :=
  inferInstanceAs
    (Decidable (if canvas.height < canvas.width then height ≤ width else width ≤ height))

/-! ## How far a rectangle reaches -/

theorem Polygon.mem_rectangle : v ∈ rectangle c a b ↔
    (v.x = c.x - a ∨ v.x = c.x + a) ∧ (v.y = c.y - b ∨ v.y = c.y + b) := by
  obtain ⟨vx, vy⟩ := v
  simp only [rectangle, List.mem_cons, Point.mk.injEq, List.not_mem_nil, or_false]
  tauto

namespace Box

/-- How far an upright rectangle reaches from its centre in a direction. -/
def reach (a b x y : ℝ) : ℝ := a * |x| + b * |y|

theorem reach_neg (a b x y : ℝ) : reach a b (-x) (-y) = reach a b x y := by
  rw [reach, reach, abs_neg, abs_neg]

theorem le_reach (ha : 0 < a) (hb : 0 < b) (hv : v ∈ rectangle c a b) (x y : ℝ) :
    v.x * x + v.y * y ≤ c.x * x + c.y * y + reach a b x y := by
  have hx := mul_le_mul_of_nonneg_left (le_abs_self x) ha.le
  have hx' := mul_le_mul_of_nonneg_left (neg_le_abs x) ha.le
  have hy := mul_le_mul_of_nonneg_left (le_abs_self y) hb.le
  have hy' := mul_le_mul_of_nonneg_left (neg_le_abs y) hb.le
  obtain ⟨hvx | hvx, hvy | hvy⟩ := mem_rectangle.mp hv <;>
  · rw [hvx, hvy, reach]
    linarith

theorem exists_reach (c : Point ℝ) (a b x y : ℝ) :
    ∃ v ∈ rectangle c a b, v.x * x + v.y * y = c.x * x + c.y * y + reach a b x y := by
  have hside : ∀ m r t : ℝ, ∃ u, (u = m - r ∨ u = m + r) ∧ u * t = m * t + r * |t| := by
    intro m r t
    rcases abs_choice t with ht | ht
    · exact ⟨m + r, .inr rfl, by rw [ht]; ring⟩
    · exact ⟨m - r, .inl rfl, by rw [ht]; ring⟩
  obtain ⟨u, hu, hux⟩ := hside c.x a x
  obtain ⟨w, hw, hwy⟩ := hside c.y b y
  refine ⟨⟨u, w⟩, mem_rectangle.mpr ⟨hu, hw⟩, ?_⟩
  rw [hux, hwy, reach]
  ring

variable (ha : 0 < a) (hb : 0 < b) (hcorners : ∀ v, v ∈ vs ↔ v ∈ rectangle c a b)

include ha hb hcorners

theorem greatest_of_corners (x y : ℝ) :
    Scalar.greatestOf (vs.map fun p => p.x * x + p.y * y) =
      c.x * x + c.y * y + reach a b x y := by
  obtain ⟨v, hv, heq⟩ := exists_reach c a b x y
  refine Scalar.greatestOf_eq (List.mem_map.mpr ⟨v, (hcorners v).mpr hv, heq⟩) ?_
  rw [List.forall_mem_map]
  exact fun w hw => le_reach ha hb ((hcorners w).mp hw) x y

theorem least_of_corners (x y : ℝ) :
    Scalar.leastOf (vs.map fun p => p.x * x + p.y * y) =
      c.x * x + c.y * y - reach a b x y := by
  obtain ⟨v, hv, heq⟩ := exists_reach c a b (-x) (-y)
  rw [reach_neg] at heq
  refine Scalar.leastOf_eq (List.mem_map.mpr ⟨v, (hcorners v).mpr hv, by linarith⟩) ?_
  rw [List.forall_mem_map]
  intro w hw
  have hle := le_reach ha hb ((hcorners w).mp hw) (-x) (-y)
  rw [reach_neg] at hle
  linarith

theorem extent_of_corners (x y : ℝ) : extent vs x y = 2 * reach a b x y := by
  rw [extent, greatest_of_corners ha hb hcorners, least_of_corners ha hb hcorners]
  ring

theorem middle_of_corners (x y : ℝ) : middle vs x y = c.x * x + c.y * y := by
  rw [middle, greatest_of_corners ha hb hcorners, least_of_corners ha hb hcorners]
  ring

/-! ## The box around a rectangle -/

/-- A box along either axis has the centre and the sides of the rectangle. -/
theorem isCanonical_of_isAlong {r : Box ℝ} (hxy : x * x + y * y = 1) (haxis : x = 0 ∨ y = 0)
    (h : r.IsAlong vs x y) : r.IsCanonical c (2 * a) (2 * b) := by
  obtain ⟨hcenter, h0, h90, hsides⟩ := h
  simp only [extent_of_corners ha hb hcorners, middle_of_corners ha hb hcorners, reach,
    abs_neg] at hcenter hsides
  refine ⟨?_, h0, h90, ?_⟩
  · rw [hcenter]
    refine congrArg₂ Point.mk ?_ ?_
    · linear_combination c.x * hxy
    · linear_combination c.y * hxy
  · rcases haxis with rfl | rfl
    · rw [mul_zero, zero_add] at hxy
      have hy : |y| = 1 := (abs_eq zero_le_one).mpr (mul_self_eq_one_iff.mp hxy)
      rw [hy, abs_zero, mul_zero, mul_zero, mul_one, mul_one, zero_add, add_zero] at hsides
      exact hsides.symm
    · rw [mul_zero, add_zero] at hxy
      have hx : |x| = 1 := (abs_eq zero_le_one).mpr (mul_self_eq_one_iff.mp hxy)
      rw [hx, abs_zero, mul_zero, mul_zero, mul_one, mul_one, zero_add, add_zero] at hsides
      exact hsides

omit hcorners

/-- The edges of a rectangle run along the axes and are not points. -/
theorem axis_of_mem_edges (h : vs ~r rectangle c a b ∨ vs ~r (rectangle c a b).reverse)
    {e : Point ℝ × Point ℝ} (he : e ∈ (Polygon.mk vs).edges) :
    e.1.x = e.2.x ∧ e.1.y ≠ e.2.y ∨ e.1.y = e.2.y ∧ e.1.x ≠ e.2.x := by
  have hx : c.x - a ≠ c.x + a := by linarith
  have hy : c.y - b ≠ c.y + b := by linarith
  have hforward : ∀ f ∈ (Polygon.mk (rectangle c a b)).edges,
      f.1.x = f.2.x ∧ f.1.y ≠ f.2.y ∨ f.1.y = f.2.y ∧ f.1.x ≠ f.2.x := by
    rw [rectangle, edges_cons]
    simp only [List.cons_append, List.nil_append, List.zip_cons_cons, List.zip_nil_right,
      List.forall_mem_cons]
    exact ⟨.inr ⟨trivial, hx⟩, .inl ⟨trivial, hy⟩, .inr ⟨trivial, hx.symm⟩,
      .inl ⟨trivial, hy.symm⟩, List.forall_mem_nil _⟩
  rcases h with h | h
  · exact hforward e ((mem_edges_of_isRotated h).mp he)
  · have hswap := hforward e.swap (mem_edges_reverse.mp ((mem_edges_of_isRotated h).mp he))
    exact hswap.imp (And.imp Eq.symm Ne.symm) (And.imp Eq.symm Ne.symm)

/-- **The box around an upright rectangle** has its centre and its sides,
whichever edge the box is along. -/
theorem isCanonical_around (h : vs ~r rectangle c a b ∨ vs ~r (rectangle c a b).reverse)
    (hlong : ∃ e ∈ (Polygon.mk vs).edges, 1 / 10 ^ 12 ≤ e.1.distance e.2) :
    (around (Polygon.mk vs)).IsCanonical c (2 * a) (2 * b) := by
  obtain ⟨e, he, x, y, hxy, hx, hy, halong⟩ := around_spec hlong
  refine isCanonical_of_isAlong ha hb ?_ hxy ?_ halong
  · intro v
    rcases h with h | h
    · exact h.mem_iff
    · rw [h.mem_iff, List.mem_reverse]
  · rcases axis_of_mem_edges ha hb h he with ⟨heq, hne⟩ | ⟨heq, hne⟩
    · have hstep := sub_ne_zero.mpr hne.symm
      rw [hy] at hstep
      rw [heq, sub_self, zero_eq_mul] at hx
      exact .inl (hx.resolve_left (left_ne_zero_of_mul hstep))
    · have hstep := sub_ne_zero.mpr hne.symm
      rw [hx] at hstep
      rw [heq, sub_self, zero_eq_mul] at hy
      exact .inr (hy.resolve_left (left_ne_zero_of_mul hstep))

/-- The box around an upright rectangle, turned in line with a canvas, is the
rectangle again, or the one with its sides exchanged. -/
theorem corners_around (h : vs ~r rectangle c a b ∨ vs ~r (rectangle c a b).reverse)
    (hlong : ∃ e ∈ (Polygon.mk vs).edges, 1 / 10 ^ 12 ≤ e.1.distance e.2) (canvas : Size) :
    (canvas.Along a b →
      ((around (Polygon.mk vs)).upright canvas).corners = rectangle c a b) ∧
    (¬canvas.Along a b →
      ((around (Polygon.mk vs)).upright canvas).corners = rectangle c b a) := by
  have hbox := isCanonical_around ha hb h hlong
  obtain ⟨hw, hh⟩ := hbox.sides_pos (mul_pos two_pos ha) (mul_pos two_pos hb)
  rw [corners_upright hbox.angle_nonneg hbox.angle_lt hw hh, hbox.center_eq, hbox.max_sides,
    hbox.min_sides, ← mul_max_of_nonneg _ _ zero_le_two, ← mul_min_of_nonneg _ _ zero_le_two,
    mul_div_cancel_left₀ _ two_ne_zero, mul_div_cancel_left₀ _ two_ne_zero, Size.Along]
  split
  · refine ⟨fun hle => ?_, fun hnot => ?_⟩
    · rw [max_eq_left hle, min_eq_right hle]
    · rw [max_eq_right (not_le.mp hnot).le, min_eq_left (not_le.mp hnot).le]
  · refine ⟨fun hle => ?_, fun hnot => ?_⟩
    · rw [min_eq_left hle, max_eq_right hle]
    · rw [min_eq_right (not_le.mp hnot).le, max_eq_left (not_le.mp hnot).le]

end Box

/-- The quadrilateral around a rectangle is the rectangle. -/
theorem Ngon.fit_of_rectangle (ha : 0 < a) (hb : 0 < b)
    (h : vs ~r rectangle c a b ∨ vs ~r (rectangle c a b).reverse) :
    fit (Polygon.mk vs) 4 = .ok (Polygon.mk (rectangle c a b)) := by
  have hlen : vs.length = 4 := by
    rcases h with h | h
    · exact h.perm.length_eq
    · exact h.perm.length_eq
  rw [fit_of_le hlen.ge]
  simp only [hlen, Nat.sub_self, reduce]
  exact congrArg (fun ws => Except.ok (Polygon.mk ws)) (canonical_of_rectangle ha hb h)

/-! ## Hulls of straight objects -/

theorem Size.along_half (canvas : Size) (w h : ℤ) :
    canvas.Along (w / 2 : ℝ) (h / 2 : ℝ) ↔ canvas.Along w h := by
  simp only [Along, div_le_div_iff_of_pos_right (two_pos : (0 : ℝ) < 2), Int.cast_le]

namespace Polygon

/-- The corners of an upright rectangle of pixels, clockwise on screen from the
top left one. -/
def pixelRectangle (x y w h : ℤ) : List (Point ℤ) :=
  [⟨x, y⟩, ⟨x + w, y⟩, ⟨x + w, y + h⟩, ⟨x, y + h⟩]

theorem vertices_pixelRectangle (x y w h : ℤ) :
    (Polygon.ofPixels (pixelRectangle x y w h) : Polygon ℝ).vertices =
      rectangle ⟨x + w / 2, y + h / 2⟩ (w / 2) (h / 2) := by
  simp only [Polygon.ofPixels, pixelRectangle, rectangle, List.map_cons, List.map_nil,
    Point.ofPixel, Scalar.ofInt_exact, Int.cast_add, List.cons.injEq, Point.mk.injEq, and_true]
  refine ⟨⟨?_, ?_⟩, ⟨?_, ?_⟩, ⟨?_, ?_⟩, ?_, ?_⟩ <;> ring

/-- However the pixels are listed, the corners are those of the rectangle. -/
theorem vertices_ofPixels_of_rectangle {hull : List (Point ℤ)} {x y w h : ℤ}
    (hhull : hull ~r pixelRectangle x y w h ∨ hull ~r (pixelRectangle x y w h).reverse) :
    (Polygon.ofPixels hull : Polygon ℝ).vertices ~r
        rectangle ⟨x + w / 2, y + h / 2⟩ (w / 2) (h / 2) ∨
      (Polygon.ofPixels hull : Polygon ℝ).vertices ~r
        (rectangle ⟨x + w / 2, y + h / 2⟩ (w / 2) (h / 2)).reverse := by
  rw [← vertices_pixelRectangle]
  refine hhull.imp (fun h => h.map _) fun h => ?_
  have hmap := h.map (Point.ofPixel : Point ℤ → Point ℝ)
  rwa [List.map_reverse] at hmap

end Polygon

namespace Raster

variable {m : Mask} {hull : List (Point ℤ)}

/-- The quadrilateral around the object of a mask, and the corners of the box
that it is to become. -/
def quads [Geometric α] (m : Mask) : Except Fault (Polygon α × Polygon α) := do
  let quad ← m.fitNgon 4
  let box ← m.fitBox
  return (quad, ⟨box.corners⟩)

/-- The two are what a straightening starts from: it takes the corners of the
one to those of the other, in their order. -/
theorem straightening_eq (m : Mask) :
    m.straightening = m.quads >>= fun q => Projection.between q.1 q.2 := by
  rw [straightening, quads]
  cases (m.fitNgon 4 : Except Fault (Polygon Float)) with
  | error f => rfl
  | ok quad => cases (m.fitBox : Except Fault (UprightBox Float)) <;> rfl

theorem fitNgon_of_hull (h : m.hull = .ok hull) {sides : ℕ} (hsides : 3 ≤ sides) :
    (m.fitNgon sides : Except Fault (Polygon ℝ)) = Ngon.fit (Polygon.ofPixels hull) sides := by
  rw [fitNgon, if_neg (by omega), h]
  rfl

/-- **The quadrilateral and the box of a straight object.** Take any mask whose
hull consists of the corners of an upright rectangle of pixels, from whichever
corner and in whichever direction they are listed. The quadrilateral around
the object has the corners from the top left one clockwise. If the longer side
of the rectangle is in the direction of the canvas, the box has the same
corners in the same order, so that straightening takes each corner to itself;
if not, the box is the rectangle with the same centre and its sides exchanged,
its corners in that same order. -/
theorem quads_of_rectangle {x y w h : ℤ} (hw : 0 < w) (hh : 0 < h) (hm : m.hull = .ok hull)
    (hhull : hull ~r pixelRectangle x y w h ∨ hull ~r (pixelRectangle x y w h).reverse) :
    let corners : Polygon ℝ := Polygon.ofPixels (pixelRectangle x y w h)
    m.fitNgon 4 = .ok corners ∧
      ∃ r : UprightBox ℝ, m.fitBox = .ok r ∧ m.quads = .ok (corners, ⟨r.corners⟩) ∧
        (m.size.Along w h → r.corners = corners.vertices ∧ m.quads = .ok (corners, corners)) ∧
        (¬m.size.Along w h → r.corners = rectangle ⟨x + w / 2, y + h / 2⟩ (h / 2) (w / 2)) := by
  intro corners
  have hw2 : (0 : ℝ) < w / 2 := by positivity
  have hh2 : (0 : ℝ) < h / 2 := by positivity
  have hrectangle := vertices_ofPixels_of_rectangle hhull
  have hfit : m.fitNgon 4 = .ok corners := by
    rw [fitNgon_of_hull hm (by decide), Ngon.fit_of_rectangle hw2 hh2 hrectangle,
      ← vertices_pixelRectangle]
  have harea : (Polygon.ofPixels hull : Polygon ℝ).signedArea ≠ 0 := by
    have hpos : (Polygon.mk (rectangle ⟨x + w / 2, y + h / 2⟩ (w / 2) (h / 2))).signedArea ≠ 0 := by
      rw [signedArea_rectangle]
      positivity
    rcases hrectangle with hr | hr
    · exact (signedArea_of_isRotated hr).trans_ne hpos
    · rw [← neg_ne_zero, ← signedArea_reverse] at hpos
      exact (signedArea_of_isRotated hr).trans_ne hpos
  obtain ⟨hsame, hturned⟩ :=
    Box.corners_around hw2 hh2 hrectangle (Box.exists_edge_of_area harea) m.size
  rw [Size.along_half, ← vertices_pixelRectangle] at hsame
  rw [Size.along_half] at hturned
  have hquads : m.quads = .ok (corners,
      Polygon.mk ((Box.around (Polygon.ofPixels hull)).upright m.size).corners) := by
    rw [quads, hfit, fitBox_of_hull hm]
    rfl
  refine ⟨hfit, _, fitBox_of_hull hm, hquads, fun halong => ⟨hsame halong, ?_⟩, hturned⟩
  rw [hquads]
  exact congrArg (fun ws => Except.ok (corners, Polygon.mk ws)) (hsame halong)

/-- A slab of three by two pixels. -/
def slab : Mask := ofFn 5 3 fun x y => if 1 ≤ x ∧ x ≤ 3 ∧ 1 ≤ y then 255 else 0

theorem hull_slab : slab.hull = .ok (pixelRectangle 1 1 2 1) := by cbv

/-- The slab lies in the direction of its canvas. -/
theorem quads_of_rectangle_slab :
    slab.hull = .ok (pixelRectangle 1 1 2 1) ∧
      let corners : Polygon ℝ := Polygon.ofPixels (pixelRectangle 1 1 2 1)
      slab.fitNgon 4 = .ok corners ∧ slab.quads = .ok (corners, corners) := by
  obtain ⟨hfit, r, -, -, halong, -⟩ := quads_of_rectangle (by decide) (by decide) hull_slab
    (.inl (List.IsRotated.refl _))
  exact ⟨hull_slab, hfit, (halong (by decide)).2⟩

end Raster

end Montage
