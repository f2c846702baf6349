import Mathlib.Algebra.Order.BigOperators.Group.List
import Mathlib.Analysis.Real.Pi.Bounds
import Montage.Proofs.Shape.Polygon
import Montage.Shape.Ngon
/-!
# Angles of a convex polygon

The angle at a vertex is the argument of a complex number, its `corner`, and
corners multiply: two angles side by side add up to one (`angleAt_add`), and
the three of a triangle to half a turn (`angleAt_triangle`). Cutting off an ear
therefore takes half a turn away, so that the angles of a strictly convex
polygon add up to two right angles for each vertex but two
(`sum_angles`). With five vertices and more, there are neighbouring angles
that exceed half a turn together (`exists_wide_edge`).
-/

namespace Montage

open Ngon Montage.Polygon

variable {side : ℝ} {a b c d p q v x : Point ℝ} {vs : List (Point ℝ)}

/-! ## Arguments of products -/

/-- The sum of two arguments is told by the product up to a full turn. -/
theorem im_mul_eq_sin_arg_add (z w : ℂ) :
    (z * w).im = ‖z‖ * ‖w‖ * Real.sin (z.arg + w.arg) := by
  have hre := Complex.norm_mul_cos_arg z
  have him := Complex.norm_mul_sin_arg z
  have hre' := Complex.norm_mul_cos_arg w
  have him' := Complex.norm_mul_sin_arg w
  rw [Complex.mul_im, Real.sin_add, ← hre, ← him, ← hre', ← him']
  ring

theorem arg_pos_of_im_pos {z : ℂ} (h : 0 < z.im) : 0 < z.arg ∧ z.arg < Real.pi := by
  constructor
  · refine lt_of_le_of_ne (Complex.arg_nonneg_iff.mpr h.le) fun h0 => ?_
    rw [eq_comm, Complex.arg_eq_zero_iff] at h0
    exact h.ne' h0.2
  · exact Complex.arg_lt_pi_iff.mpr (.inr h.ne')

/-- Two arguments add up to the argument of the product as long as none of the
three numbers lies below the real line. -/
theorem arg_mul_of_im_pos {z w : ℂ} (hz : 0 < z.im) (hw : 0 < w.im) (hzw : 0 < (z * w).im) :
    (z * w).arg = z.arg + w.arg := by
  obtain ⟨hz0, hzpi⟩ := arg_pos_of_im_pos hz
  obtain ⟨hw0, hwpi⟩ := arg_pos_of_im_pos hw
  have hz' : z ≠ 0 := fun h => by simp [h] at hz
  have hw' : w ≠ 0 := fun h => by simp [h] at hw
  refine Complex.arg_mul hz' hw' ⟨by linarith, ?_⟩
  by_contra hgt
  have hsin : Real.sin (z.arg + w.arg) ≤ 0 := by
    rw [← Real.sin_sub_two_pi]
    exact Real.sin_nonpos_of_nonpos_of_neg_pi_le (by linarith) (by linarith)
  rw [im_mul_eq_sin_arg_add] at hzw
  exact absurd hzw (not_lt.mpr (mul_nonpos_of_nonneg_of_nonpos (by positivity) hsin))

/-- Two arguments that add up to more than half a turn have a product below
the real line. -/
theorem im_mul_neg_of_pi_lt {z w : ℂ} (hz : 0 < z.im) (hw : 0 < w.im)
    (h : Real.pi < z.arg + w.arg) : (z * w).im < 0 := by
  obtain ⟨-, hzpi⟩ := arg_pos_of_im_pos hz
  obtain ⟨-, hwpi⟩ := arg_pos_of_im_pos hw
  have hz' : z ≠ 0 := fun h => by simp [h] at hz
  have hw' : w ≠ 0 := fun h => by simp [h] at hw
  have hsin : Real.sin (z.arg + w.arg) < 0 := by
    rw [← Real.sin_sub_two_pi]
    exact Real.sin_neg_of_neg_of_neg_pi_lt (by linarith) (by linarith)
  rw [im_mul_eq_sin_arg_add]
  exact mul_neg_of_pos_of_neg (mul_pos (norm_pos_iff.mpr hz') (norm_pos_iff.mpr hw')) hsin

theorem arg_neg_conj_of_im_pos {z : ℂ} (h : 0 < z.im) :
    (-(starRingEnd ℂ) z).arg = Real.pi - z.arg := by
  have hne : z.arg ≠ Real.pi := (arg_pos_of_im_pos h).2.ne
  rw [Complex.arg_neg_eq_arg_add_pi_of_im_neg (by simpa using h), Complex.arg_conj, if_neg hne]
  ring

/-! ## Corners -/

namespace Point

/-- The corner at `v` between `a` and `b` as a complex number. Its argument is
the angle there, for a polygon that turns to the given side. -/
noncomputable def corner (side : ℝ) (a v b : Point ℝ) : ℂ :=
  ⟨(a.x - v.x) * (b.x - v.x) + (a.y - v.y) * (b.y - v.y), side * a.turn v b⟩

@[simp] theorem im_corner (side : ℝ) (a v b : Point ℝ) :
    (corner side a v b).im = side * a.turn v b := rfl

theorem angleAt_eq_arg (hside : |side| = 1) (h : 0 ≤ side * a.turn v b) :
    angleAt a v b = (corner side a v b).arg := by
  have habs : |(a.x - v.x) * (b.y - v.y) - (a.y - v.y) * (b.x - v.x)| = side * a.turn v b := by
    calc |(a.x - v.x) * (b.y - v.y) - (a.y - v.y) * (b.x - v.x)| = |a.turn v b| := by
          rw [← abs_neg, turn]
          congr 1
          ring
      _ = |side * a.turn v b| := by rw [abs_mul, hside, one_mul]
      _ = side * a.turn v b := abs_of_nonneg h
  show Complex.arg ⟨_, |(a.x - v.x) * (b.y - v.y) - (a.y - v.y) * (b.x - v.x)|⟩ = _
  rw [habs]
  rfl

/-- The square of the distance of two points. -/
def squaredGap (p q : Point ℝ) : ℝ := (p.x - q.x) ^ 2 + (p.y - q.y) ^ 2

theorem squaredGap_pos_of_ne (h : p ≠ q) : 0 < squaredGap p q := by
  refine (add_nonneg (sq_nonneg _) (sq_nonneg _)).lt_of_ne fun h0 => h ?_
  obtain ⟨hx, hy⟩ := (add_eq_zero_iff_of_nonneg (sq_nonneg _) (sq_nonneg _)).mp h0.symm
  rw [sq_eq_zero_iff, sub_eq_zero] at hx hy
  exact congrArg₂ mk hx hy

theorem squaredGap_pos (h : a.turn p q ≠ 0) : 0 < squaredGap p q := by
  refine squaredGap_pos_of_ne fun hpq => h ?_
  rw [hpq, turn_self_right]

/-- The cross product of the steps from `a` to `p` and from `q` to `b`. -/
def spread (a p q b : Point ℝ) : ℝ := (p.x - a.x) * (b.y - q.y) - (p.y - a.y) * (b.x - q.x)

/-- Corners side by side. -/
theorem corner_mul (hside : side * side = 1) (a v b c : Point ℝ) :
    corner side a v b * corner side b v c = (squaredGap v b : ℝ) * corner side a v c := by
  refine Complex.ext ?_ ?_
  · simp only [corner, squaredGap, turn, Complex.mul_re, Complex.ofReal_re, Complex.ofReal_im]
    linear_combination (-((v.x - a.x) * (b.y - v.y) - (v.y - a.y) * (b.x - v.x)) *
      ((v.x - b.x) * (c.y - v.y) - (v.y - b.y) * (c.x - v.x))) * hside
  · simp only [corner, squaredGap, turn, Complex.mul_im, Complex.ofReal_re, Complex.ofReal_im]
    ring

/-- The corners at both ends of an edge. -/
theorem im_corner_mul_corner (side : ℝ) (a p q b : Point ℝ) :
    (corner side a p q * corner side p q b).im =
      -squaredGap p q * (side * spread a p q b) := by
  simp only [corner, squaredGap, spread, turn, Complex.mul_im]
  ring

theorem corner_triangle (hside : side * side = 1) (a b c : Point ℝ) :
    corner side a b c * corner side b c a =
      (squaredGap b c : ℝ) * -(starRingEnd ℂ) (corner side c a b) := by
  refine Complex.ext ?_ ?_
  · simp only [corner, squaredGap, turn, Complex.mul_re, Complex.neg_re, Complex.neg_im,
      Complex.conj_re, Complex.conj_im, Complex.ofReal_re, Complex.ofReal_im]
    linear_combination (-((b.x - a.x) * (c.y - b.y) - (b.y - a.y) * (c.x - b.x)) *
      ((c.x - b.x) * (a.y - c.y) - (c.y - b.y) * (a.x - c.x))) * hside
  · simp only [corner, squaredGap, turn, Complex.mul_im, Complex.neg_re, Complex.neg_im,
      Complex.conj_re, Complex.conj_im, Complex.ofReal_re, Complex.ofReal_im]
    ring

end Point

/-! ## Angles -/

theorem side_mul_self (hside : |side| = 1) : side * side = 1 := by
  rw [← abs_mul_abs_self, hside, one_mul]

/-- **Two angles side by side.** The direction from `v` to `b` lies between
those to `a` and to `c`. -/
theorem angleAt_add (hside : |side| = 1) (hab : 0 < side * a.turn v b)
    (hbc : 0 < side * b.turn v c) (hac : 0 < side * a.turn v c) :
    angleAt a v c = angleAt a v b + angleAt b v c := by
  have hmul := Point.corner_mul (side_mul_self hside) a v b c
  have hgap : 0 < Point.squaredGap v b := Point.squaredGap_pos (right_ne_zero_of_mul hab.ne')
  have him : 0 < (Point.corner side a v b * Point.corner side b v c).im := by
    rw [hmul, Complex.im_ofReal_mul, Point.im_corner]
    exact mul_pos hgap hac
  rw [Point.angleAt_eq_arg hside hab.le, Point.angleAt_eq_arg hside hbc.le,
    Point.angleAt_eq_arg hside hac.le, ← arg_mul_of_im_pos hab hbc him, hmul,
    Complex.arg_real_mul _ hgap]

/-- **The angles of a triangle** add up to half a turn. -/
theorem angleAt_triangle (hside : |side| = 1) (h : 0 < side * a.turn b c) :
    angleAt a b c + angleAt b c a + angleAt c a b = Real.pi := by
  have hbca : 0 < side * b.turn c a := by rwa [Point.turn_rotate]
  have hcab : 0 < side * c.turn a b := by rwa [Point.turn_rotate, Point.turn_rotate]
  have hmul := Point.corner_triangle (side_mul_self hside) a b c
  have hgap : 0 < Point.squaredGap b c := Point.squaredGap_pos (right_ne_zero_of_mul h.ne')
  have him : 0 < (Point.corner side a b c * Point.corner side b c a).im := by
    rw [hmul, Complex.im_ofReal_mul, Complex.neg_im, Complex.conj_im, neg_neg, Point.im_corner]
    exact mul_pos hgap hcab
  have hsum : angleAt a b c + angleAt b c a = Real.pi - angleAt c a b := by
    rw [Point.angleAt_eq_arg hside h.le, Point.angleAt_eq_arg hside hbca.le,
      Point.angleAt_eq_arg hside hcab.le, ← arg_mul_of_im_pos h hbca him, hmul,
      Complex.arg_real_mul _ hgap, arg_neg_conj_of_im_pos hcab]
  rw [hsum]
  ring

/-- **Wide angles at the ends of an edge.** Together they exceed half a turn,
and so the edges beside it, prolonged, come nearer to each other. -/
theorem spread_pos_of_wide (hside : |side| = 1) (hp : 0 < side * a.turn p q)
    (hq : 0 < side * p.turn q b) (h : Real.pi < angleAt a p q + angleAt p q b) :
    0 < side * Point.spread a p q b := by
  rw [Point.angleAt_eq_arg hside hp.le, Point.angleAt_eq_arg hside hq.le] at h
  have him := im_mul_neg_of_pi_lt hp hq h
  rw [Point.im_corner_mul_corner, neg_mul, neg_lt_zero] at him
  exact pos_of_mul_pos_right him (Point.squaredGap_pos (right_ne_zero_of_mul hp.ne')).le

/-! ## The angles of a polygon -/

namespace Polygon

/-- The angles at the vertices of a polygon, that at the second vertex first. -/
noncomputable def angles (p : Polygon ℝ) : List ℝ :=
  List.zipWith (fun (a, b) c => angleAt a b c) p.edges (rotatedBy 2 p.vertices)

theorem angles_rotate (vs : List (Point ℝ)) (n : ℕ) :
    (mk (vs.rotate n)).angles = (mk vs).angles.rotate n := zipWith_edges_rotate _ vs n

theorem length_angles (vs : List (Point ℝ)) : (mk vs).angles.length = vs.length := by
  rw [angles, List.length_zipWith, length_edges, rotatedBy_two, List.length_rotate, Nat.min_self]

/-- An ear changes the angles at its own three vertices and no other. -/
theorem angles_ear (e a b c : Point ℝ) (vs : List (Point ℝ)) : ∃ d ∈ vs ++ [e], ∃ rest,
    (mk (e :: a :: b :: c :: vs)).angles =
        angleAt e a b :: angleAt a b c :: angleAt b c d :: rest ∧
      (mk (e :: a :: c :: vs)).angles = angleAt e a c :: angleAt a c d :: rest := by
  cases vs with
  | nil => exact ⟨e, List.mem_cons_self, _, rfl, rfl⟩
  | cons d vs => exact ⟨d, List.mem_cons_self, _, rfl, rfl⟩

theorem sum_angles_ear (hside : |side| = 1) {e : Point ℝ}
    (h : Turning side (e :: a :: b :: c :: vs)) :
    (mk (e :: a :: b :: c :: vs)).angles.sum = (mk (e :: a :: c :: vs)).angles.sum + Real.pi := by
  obtain ⟨d, hd, rest, hwhole, hcut⟩ := angles_ear e a b c vs
  have hturned : Turning side (a :: b :: c :: (vs ++ [e])) :=
    h.of_isRotated ⟨1, by rw [List.rotate_cons_succ, List.rotate_zero]; rfl⟩
  obtain ⟨ha, hrest⟩ := List.triplewise_cons.mp hturned
  obtain ⟨hab, hac⟩ := List.pairwise_cons.mp ha
  have habc := hab c List.mem_cons_self
  have habe := hab e (by simp)
  have hacd := (List.pairwise_cons.mp hac).1 d hd
  have hace := (List.pairwise_cons.mp hac).1 e (by simp)
  have hbcd := (List.pairwise_cons.mp (List.triplewise_cons.mp hrest).1).1 d hd
  -- the angle at `a` loses the one of the ear there, and so does that at `c`
  have hata : angleAt e a b = angleAt e a c + angleAt c a b := by
    refine angleAt_add hside ?_ ?_ ?_
    · rwa [← Point.turn_rotate]
    · rwa [Point.turn_rotate, Point.turn_rotate]
    · rwa [← Point.turn_rotate]
  have hatc : angleAt b c d = angleAt b c a + angleAt a c d :=
    angleAt_add hside (by rwa [Point.turn_rotate]) hacd hbcd
  have htriangle := angleAt_triangle hside habc
  rw [hwhole, hcut]
  simp only [List.sum_cons]
  linarith

/-- **The sum of the angles** of a strictly convex polygon. -/
theorem sum_angles (hside : |side| = 1) (h : Turning side (a :: b :: c :: vs)) :
    (mk (a :: b :: c :: vs)).angles.sum = (vs.length + 1) * Real.pi := by
  induction vs generalizing c with
  | nil =>
    have htriangle := angleAt_triangle hside (List.triplewise_triple.mp h)
    have hangles : (mk [a, b, c]).angles = [angleAt a b c, angleAt b c a, angleAt c a b] := rfl
    rw [hangles]
    simp only [List.sum_cons, List.sum_nil, List.length_nil, Nat.cast_zero]
    linarith
  | cons d vs ih =>
    have hear : Turning side (a :: b :: d :: vs) :=
      h.sublist (.cons_cons a (.cons_cons b (List.sublist_cons_self c (d :: vs))))
    rw [sum_angles_ear hside h, ih hear, List.length_cons]
    push_cast
    ring

end Polygon

/-! ## Wide edges -/

/-- If no two neighbours in a closed list exceed a bound together, then twice
the sum does not exceed the bound for each element. -/
theorem two_mul_sum_le {xs : List ℝ} {bound : ℝ} (hlen : 2 ≤ xs.length)
    (h : ∀ n x y rest, xs.rotate n = x :: y :: rest → x + y ≤ bound) :
    2 * xs.sum ≤ xs.length * bound := by
  have hturned : xs.length = (xs.rotate 1).length := (List.length_rotate xs 1).symm
  let pairs := List.zipWith (· + ·) xs (xs.rotate 1)
  have hsum : pairs.sum = 2 * xs.sum := by
    rw [← List.sum_add_sum_eq_sum_zipWith_of_length_eq _ _ hturned,
      (List.rotate_perm xs 1).sum_eq]
    ring
  have hbound : ∀ s ∈ pairs, s ≤ bound := by
    intro s hs
    obtain ⟨n, hn⟩ := exists_head?_rotate_of_mem hs
    rw [List.zipWith_rotate_distrib _ _ _ _ hturned, List.rotate_rotate, Nat.add_comm,
      ← List.rotate_rotate] at hn
    rw [← List.length_rotate xs n] at hlen
    obtain ⟨x, y, rest, hxs⟩ := exists_cons_cons_of_length hlen
    rw [hxs] at hn
    cases hn
    exact h n x y rest hxs
  have hcard := List.sum_le_card_nsmul pairs bound hbound
  have hpairs : pairs.length = xs.length := by
    rw [List.length_zipWith, ← hturned, Nat.min_self]
  rw [hsum, hpairs, nsmul_eq_mul] at hcard
  exact hcard

theorem angleSlack_real : (angleSlack : ℝ) = 1 / 10 ^ 9 := by
  rw [angleSlack, Scalar.ofDecimal_exact, Nat.cast_one]

theorem angleSlack_pos : (0 : ℝ) < angleSlack := by
  rw [angleSlack_real]
  positivity

/-- **A strictly convex polygon with five vertices and more has a wide edge.**
All angles together are too many for each edge to have only half a turn. -/
theorem exists_wide_edge (hside : |side| = 1) (h : Turning side vs) (hlen : 5 ≤ vs.length) :
    ∃ a p q b rest, vs ~r a :: p :: q :: b :: rest ∧
      Real.pi + angleSlack < angleAt a p q + angleAt p q b := by
  by_contra hnone
  push Not at hnone
  have hbound : ∀ n x y rest, (mk vs).angles.rotate n = x :: y :: rest →
      x + y ≤ Real.pi + angleSlack := by
    intro n x y rest hxy
    have hfour : 4 ≤ (vs.rotate n).length := by
      rw [List.length_rotate]
      omega
    obtain ⟨a, p, q, b, rest', hturned⟩ := exists_four_of_length hfour
    rw [← angles_rotate, hturned] at hxy
    cases hxy
    exact hnone a p q b rest' ⟨n, hturned⟩
  have hsum := two_mul_sum_le (by rw [length_angles]; omega) hbound
  obtain ⟨a, p, q, b, rest, rfl⟩ := exists_four_of_length (Nat.le_of_succ_le hlen)
  have hrest : (1 : ℝ) ≤ rest.length := by
    rw [Nat.one_le_cast]
    simpa using hlen
  have hpi := Real.pi_gt_three
  rw [sum_angles hside h, length_angles, angleSlack_real] at hsum
  simp only [List.length_cons] at hsum
  push_cast at hsum
  nlinarith

end Montage
