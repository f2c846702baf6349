import Mathlib.Analysis.Convex.Combination
import Mathlib.Data.Prod.Lex
import Mathlib.Data.Rat.Lemmas
import Montage.Proofs.Fault
import Montage.Proofs.Shape.Polygon
import Montage.Mask.Contour
/-!
# Hulls — a walk that turns one way and leaves nothing outside

The hull of pixels is walked from its start, above which and before which there
is none, so all other points lie in the half-plane ahead of it. There, the order
in which they are met is a total one (`metBefore_iff`): first by direction, then
by distance. A `Walk` keeps this order and turns the same way at any three of its
points. Both survive a step to the next point met (`Walk.push`), because the
points at which the path would not turn are dropped before. So a hull of three
vertices or more is a strictly convex polygon (`Raster.strictlyConvex_hull`).

A point that is dropped lies in a triangle of points that are not
(`between_triangle`), so what has been met stays between the points of the walk
(`between_unwind`). In the end all points lie between the vertices of the hull, which
are some of them (`between_convexHull`, `mem_of_mem_convexHull`).
-/

namespace Montage

namespace Hull

variable {s p q a b c : Point ℤ} {vs ps : List (Point ℤ)}

/-! ## The half-plane ahead of the start -/

/-- The point is no better a start than `s`: it is further down, or at the same
height and not further left. -/
def Ahead (s p : Point ℤ) : Prop := s.y < p.y ∨ s.y = p.y ∧ s.x ≤ p.x

theorem ahead_of_startsBefore_eq_false (h : startsBefore p s = false) : Ahead s p := by
  simp only [startsBefore, Bool.or_eq_false_iff, Bool.and_eq_false_iff, decide_eq_false_iff_not,
    beq_eq_false_iff_ne] at h
  rw [Ahead]
  omega

theorem Ahead.of_startsBefore (h : startsBefore p s = true) (hq : Ahead s q) : Ahead p q := by
  simp only [startsBefore, Bool.or_eq_true, Bool.and_eq_true, decide_eq_true_eq, beq_iff_eq] at h
  rw [Ahead] at hq ⊢
  omega

theorem Ahead.height_le (h : Ahead s p) : s.y ≤ p.y := h.elim le_of_lt fun h => h.1.le

theorem ahead_refl (s : Point ℤ) : Ahead s s := .inr ⟨rfl, le_rfl⟩

/-- The direction from the start to a point ahead, as a number that grows as
the direction turns. Along the top row there is none. -/
def direction (s p : Point ℤ) : WithBot ℚ :=
  if p.y = s.y then ⊥ else (((s.x - p.x : ℤ) / (p.y - s.y : ℤ) : ℚ) : WithBot ℚ)

/-- The order of meeting: by direction, then by distance. -/
def bearing (s p : Point ℤ) : WithBot ℚ ×ₗ ℤ := toLex (direction s p, squaredDistance s p)

theorem direction_of_eq (h : s.y = p.y) : direction s p = ⊥ := if_pos h.symm

theorem bot_lt_direction (h : s.y < p.y) : ⊥ < direction s p := by
  rw [direction, if_neg h.ne']
  exact WithBot.bot_lt_coe _

theorem bend_eq (s p q : Point ℤ) :
    bend s p q = (p.y - s.y) * (q.x - s.x) - (p.x - s.x) * (q.y - s.y) := by
  rw [bend]
  ring

theorem metBefore_eq_true_iff : metBefore s p q = true ↔
    bend s p q < 0 ∨ bend s p q = 0 ∧ squaredDistance s p ≤ squaredDistance s q := by
  simp only [metBefore, Bool.or_eq_true, Bool.and_eq_true, decide_eq_true_eq, beq_iff_eq]

theorem squaredDistance_pos (h : s.y < p.y) : 0 < squaredDistance s p := by
  have hy : 0 < (s.y - p.y) * (s.y - p.y) := mul_self_pos.mpr (sub_neg.mpr h).ne
  have hx := mul_self_nonneg (s.x - p.x)
  rw [squaredDistance]
  linarith

theorem squaredDistance_self (s : Point ℤ) : squaredDistance s s = 0 := by
  simp only [squaredDistance, sub_self, mul_zero, add_zero]

theorem squaredDistance_nonneg (s p : Point ℤ) : 0 ≤ squaredDistance s p :=
  add_nonneg (mul_self_nonneg _) (mul_self_nonneg _)

/-- Below the top row, the smaller direction is the one to turn from. -/
theorem direction_lt_iff (hp : s.y < p.y) (hq : s.y < q.y) :
    direction s p < direction s q ↔ bend s p q < 0 := by
  have hp' : (0 : ℚ) < (p.y - s.y : ℤ) := Int.cast_pos.mpr (sub_pos.mpr hp)
  have hq' : (0 : ℚ) < (q.y - s.y : ℤ) := Int.cast_pos.mpr (sub_pos.mpr hq)
  rw [direction, direction, if_neg hp.ne', if_neg hq.ne', WithBot.coe_lt_coe,
    div_lt_div_iff₀ hp' hq', ← Int.cast_mul, ← Int.cast_mul, Int.cast_lt, bend_eq]
  constructor <;>
  · intro h
    linarith

theorem direction_eq_iff (hp : s.y < p.y) (hq : s.y < q.y) :
    direction s p = direction s q ↔ bend s p q = 0 := by
  have hp' : ((p.y - s.y : ℤ) : ℚ) ≠ 0 := Int.cast_ne_zero.mpr (sub_pos.mpr hp).ne'
  have hq' : ((q.y - s.y : ℤ) : ℚ) ≠ 0 := Int.cast_ne_zero.mpr (sub_pos.mpr hq).ne'
  rw [direction, direction, if_neg hp.ne', if_neg hq.ne', WithBot.coe_inj,
    div_eq_div_iff hp' hq', ← Int.cast_mul, ← Int.cast_mul, Int.cast_inj, bend_eq]
  constructor <;>
  · intro h
    linarith

/-- From the top row, all turns to what lies below go one way. -/
theorem bend_neg_of_eq (hpy : s.y = p.y) (hpx : s.x ≤ p.x) (hq : s.y < q.y) :
    bend s p q < 0 ∨ p = s := by
  rcases hpx.lt_or_eq with hlt | heq
  · refine .inl ?_
    rw [bend_eq, ← hpy, sub_self, zero_mul, zero_sub, neg_lt_zero]
    exact mul_pos (sub_pos.mpr hlt) (sub_pos.mpr hq)
  · exact .inr (congrArg₂ Point.mk heq.symm hpy.symm)

theorem bend_swap (s p q : Point ℤ) : bend s q p = -bend s p q := by
  rw [bend_eq, bend_eq]
  ring

/-- **Ahead of the start, the order of meeting is a total one.** -/
theorem metBefore_iff (hp : Ahead s p) (hq : Ahead s q) :
    metBefore s p q = true ↔ bearing s p ≤ bearing s q := by
  rw [metBefore_eq_true_iff, bearing, bearing, Prod.Lex.toLex_le_toLex]
  rcases hp with hp | ⟨hpy, hpx⟩ <;> rcases hq with hq | ⟨hqy, hqx⟩
  · rw [direction_lt_iff hp hq, direction_eq_iff hp hq]
  · -- from below there is no turn to the top row, and no equal direction
    rw [direction_of_eq hqy]
    have hbelow := bot_lt_direction hp
    refine iff_of_false ?_ ?_
    · have hpos := squaredDistance_pos hp
      rcases bend_neg_of_eq hqy hqx hp with hneg | rfl
      · rw [bend_swap] at hneg
        omega
      · rw [squaredDistance_self]
        rintro (hlt | ⟨-, hle⟩)
        · simp [bend_eq] at hlt
        · omega
    · rintro (hlt | ⟨heq, -⟩)
      · exact not_lt_bot hlt
      · exact hbelow.ne' heq
  · rw [direction_of_eq hpy]
    refine iff_of_true ?_ (.inl (bot_lt_direction hq))
    rcases bend_neg_of_eq hpy hpx hq with hneg | rfl
    · exact .inl hneg
    · refine .inr ⟨by simp [bend_eq], ?_⟩
      rw [squaredDistance_self]
      exact squaredDistance_nonneg _ _
  · have hbend : bend s p q = 0 := by
      rw [bend_eq, ← hpy, ← hqy, sub_self, zero_mul, mul_zero, sub_zero]
    rw [direction_of_eq hpy, direction_of_eq hqy, hbend]
    simp

/-- The points ahead, sorted by the order of meeting. -/
theorem pairwise_mergeSort_metBefore (h : ∀ p ∈ ps, Ahead s p) :
    (ps.mergeSort (metBefore s)).Pairwise fun p q => metBefore s p q = true := by
  let sooner := fun p q => decide (bearing s p ≤ bearing s q)
  have hsame : ∀ p ∈ ps, ∀ q ∈ ps, metBefore s p q = sooner (id p) (id q) := fun p hp q hq =>
    Bool.eq_iff_iff.mpr ((metBefore_iff (h p hp) (h q hq)).trans decide_eq_true_iff.symm)
  have hsort := List.map_mergeSort hsame
  rw [List.map_id, List.map_id] at hsort
  have hsorted : (ps.mergeSort sooner).Pairwise fun p q => sooner p q = true := by
    refine List.pairwise_mergeSort (fun p q r hpq hqr => ?_) (fun p q => ?_) ps
    · exact decide_eq_true ((of_decide_eq_true hpq).trans (of_decide_eq_true hqr))
    · rw [Bool.or_eq_true]
      exact (le_total (bearing s p) (bearing s q)).imp decide_eq_true decide_eq_true
  rw [hsort]
  refine hsorted.imp_of_mem fun hp hq hpq => ?_
  rw [List.mem_mergeSort] at hp hq
  exact (hsame _ hp _ hq).trans hpq

/-! ## Turns around the start -/

theorem below_of_bend_neg (hp : Ahead s p) (hq : Ahead s q) (h : bend s p q < 0) : s.y < q.y := by
  rcases hq with hq | ⟨hqy, hqx⟩
  · exact hq
  · rw [bend_eq, ← hqy, sub_self, mul_zero, sub_zero] at h
    exact absurd h (mul_nonneg (sub_nonneg.mpr hp.height_le) (sub_nonneg.mpr hqx)).not_gt

/-- What is met later than a point that is met later is met later. -/
theorem bend_neg_trans {r : Point ℤ} (hp : Ahead s p) (hq : Ahead s q) (hr : Ahead s r)
    (hpq : bend s p q < 0) (hqr : bend s q r < 0) : bend s p r < 0 := by
  have hpy : 0 ≤ p.y - s.y := sub_nonneg.mpr hp.height_le
  have hqy : 0 < q.y - s.y := sub_pos.mpr (below_of_bend_neg hp hq hpq)
  have hry : 0 < r.y - s.y := sub_pos.mpr (below_of_bend_neg hq hr hqr)
  have hexchange : bend s p r * (q.y - s.y) =
      bend s q r * (p.y - s.y) + bend s p q * (r.y - s.y) := by
    simp only [bend_eq]
    ring
  have hneg : bend s p r * (q.y - s.y) < 0 := by
    rw [hexchange]
    exact add_neg_of_nonpos_of_neg (mul_nonpos_of_nonpos_of_nonneg hqr.le hpy)
      (mul_neg_of_neg_of_pos hpq hry)
  exact neg_of_mul_neg_left hneg hqy.le

/-- Of two points in one direction, the one that is no nearer is no higher. -/
theorem height_le_of_squaredDistance_le (hb : s.y < b.y) (hp : s.y ≤ p.y) (hzero : bend s b p = 0)
    (hle : squaredDistance s b ≤ squaredDistance s p) : b.y - s.y ≤ p.y - s.y := by
  have hparallel : (b.y - s.y) * (p.x - s.x) = (b.x - s.x) * (p.y - s.y) := by
    rw [bend_eq] at hzero
    exact sub_eq_zero.mp hzero
  have hscaled : squaredDistance s p * ((b.y - s.y) * (b.y - s.y)) =
      (p.y - s.y) * (p.y - s.y) * squaredDistance s b := by
    simp only [squaredDistance]
    linear_combination
      ((b.y - s.y) * (p.x - s.x) + (b.x - s.x) * (p.y - s.y)) * hparallel
  have hmul := mul_le_mul_of_nonneg_right hle (mul_self_nonneg (b.y - s.y))
  rw [hscaled, mul_comm] at hmul
  have hsquares := le_of_mul_le_mul_right hmul (squaredDistance_pos hb)
  exact (mul_self_le_mul_self_iff (sub_nonneg.mpr hb.le) (sub_nonneg.mpr hp)).mpr hsquares

/-- On the way to a point in the direction of `b` that is no nearer, a path over
`a` and `b` does not turn at `b`. -/
theorem bend_nonneg_of_eq_zero (ha : Ahead s a) (hb : Ahead s b) (hp : Ahead s p)
    (hab : bend s a b < 0) (hzero : bend s b p = 0)
    (hle : squaredDistance s b ≤ squaredDistance s p) : 0 ≤ bend a b p := by
  have hby := below_of_bend_neg ha hb hab
  have hheight := height_le_of_squaredDistance_le hby hp.height_le hzero hle
  have hturn : (b.y - s.y) * bend a b p =
      (p.y - s.y - (b.y - s.y)) * -bend s a b + (b.y - a.y) * bend s b p := by
    simp only [bend]
    ring
  refine nonneg_of_mul_nonneg_right ?_ (sub_pos.mpr hby)
  rw [hturn, hzero, mul_zero, add_zero]
  exact mul_nonneg (sub_nonneg.mpr hheight) (neg_pos.mpr hab).le

/-! ## What lies between points -/

/-- A pixel as a point of the plane. -/
def coordinates (p : Point ℤ) : ℝ × ℝ := (p.x, p.y)

/-- The point lies between others: every convex set that holds these holds it. -/
def Between (vs : List (Point ℤ)) (q : Point ℤ) : Prop :=
  ∀ s : Set (ℝ × ℝ), Convex ℝ s → (∀ v ∈ vs, coordinates v ∈ s) → coordinates q ∈ s

theorem between_of_mem (h : q ∈ vs) : Between vs q := fun _ _ hall => hall q h

theorem Between.trans {ws : List (Point ℤ)} (h : Between vs q) (hvs : ∀ v ∈ vs, Between ws v) :
    Between ws q := fun s hs hall => h s hs fun v hv => hvs v hv s hs hall

/-- A weighted mean of three points lies between them. -/
theorem between_of_weights {k m n : ℤ} (hk : 0 ≤ k) (hm : 0 ≤ m) (hn : 0 ≤ n)
    (hpos : 0 < k + m + n) (hx : (k + m + n) * b.x = k * s.x + m * a.x + n * p.x)
    (hy : (k + m + n) * b.y = k * s.y + m * a.y + n * p.y) : Between [s, a, p] b := by
  intro S hS hall
  have hpos' : (0 : ℝ) < k + m + n := by exact_mod_cast hpos
  have hx' : ((k + m + n) * b.x : ℝ) = k * s.x + m * a.x + n * p.x := by exact_mod_cast hx
  have hy' : ((k + m + n) * b.y : ℝ) = k * s.y + m * a.y + n * p.y := by exact_mod_cast hy
  have hmean := hS.sum_mem (t := Finset.univ)
    (w := ![k / (k + m + n : ℝ), m / (k + m + n : ℝ), n / (k + m + n : ℝ)])
    (z := ![coordinates s, coordinates a, coordinates p]) ?_ ?_ ?_
  · convert hmean using 1
    simp only [Fin.sum_univ_three, Matrix.cons_val, coordinates, Prod.smul_mk, smul_eq_mul,
      Prod.mk_add_mk, Prod.mk.injEq]
    constructor
    · field_simp
      linarith
    · field_simp
      linarith
  · intro i _
    fin_cases i
    · exact div_nonneg (by exact_mod_cast hk) hpos'.le
    · exact div_nonneg (by exact_mod_cast hm) hpos'.le
    · exact div_nonneg (by exact_mod_cast hn) hpos'.le
  · simp only [Fin.sum_univ_three, Matrix.cons_val]
    field_simp
  · intro i _
    fin_cases i
    · exact hall s (by simp)
    · exact hall a (by simp)
    · exact hall p (by simp)

/-- A point at which a walk around the start would turn back lies in the triangle
that is left when it is dropped. -/
theorem between_triangle (hsab : bend s a b < 0) (hsbp : bend s b p ≤ 0) (habp : 0 ≤ bend a b p) :
    Between [s, a, p] b := by
  refine between_of_weights habp (neg_nonneg.mpr hsbp) (neg_nonneg.mpr hsab.le) (by omega) ?_ ?_
  · simp only [bend]
    ring
  · simp only [bend]
    ring

/-- A point in the direction of another one that is no nearer lies on the way to
that. -/
theorem between_of_bend_eq_zero (hb : Ahead s b) (hp : Ahead s p) (hzero : bend s b p = 0)
    (hle : squaredDistance s b ≤ squaredDistance s p) : Between [s, s, p] b := by
  rcases hb with hby | ⟨hby, hbx⟩
  · have hheight := height_le_of_squaredDistance_le hby hp.height_le hzero hle
    rw [bend_eq] at hzero
    refine between_of_weights (k := 0) (m := p.y - b.y) (n := b.y - s.y) le_rfl (by omega)
      (by omega) (by omega) ?_ ?_
    · linear_combination -hzero
    · ring
  · rcases hp with hpy | ⟨hpy, hpx⟩
    · rcases bend_neg_of_eq hby hbx hpy with hneg | rfl
      · exact absurd hzero hneg.ne
      · exact between_of_mem List.mem_cons_self
    · -- all three lie in the top row
      rcases hpx.eq_or_lt with hsp | hsp
      · have hdistance : squaredDistance s p = 0 := by
          simp only [squaredDistance, hsp, hpy, sub_self, mul_zero, add_zero]
        have hsame : b.x = s.x := by
          rw [hdistance, squaredDistance, hby, sub_self, mul_zero, add_zero] at hle
          have := mul_self_eq_zero.mp (le_antisymm hle (mul_self_nonneg (s.x - b.x)))
          omega
        have hb : b = s := congrArg₂ Point.mk hsame hby.symm
        exact hb ▸ between_of_mem List.mem_cons_self
      · have hbp : b.x - s.x ≤ p.x - s.x := by
          refine (mul_self_le_mul_self_iff (sub_nonneg.mpr hbx) (sub_nonneg.mpr hsp.le)).mpr ?_
          simp only [squaredDistance, ← hby, ← hpy] at hle
          linarith
        refine between_of_weights (k := 0) (m := p.x - b.x) (n := b.x - s.x) le_rfl (by omega)
          (by omega) (by omega) ?_ ?_
        · ring
        · rw [← hby, ← hpy]
          ring

/-! ## Walks -/

/-- **A walk around the start**, without the start and last point first. It goes
on turning around the start, and it turns the same way at any three points. -/
structure Walk (s : Point ℤ) (vs : List (Point ℤ)) : Prop where
  around : vs.Pairwise fun c b => bend s b c < 0
  turning : vs.Triplewise fun c b a => bend a b c < 0

theorem Walk.nil (s : Point ℤ) : Walk s [] := ⟨List.Pairwise.nil, List.Triplewise.nil⟩

theorem Walk.suffix {ws : List (Point ℤ)} (h : Walk s vs) (hws : ws <:+ vs) : Walk s ws := by
  obtain ⟨dropped, rfl⟩ := hws
  exact ⟨(List.pairwise_append.mp h.around).2.1, (List.triplewise_append.mp h.turning).2.1⟩

/-- The last point of a path is dropped or not, as the path turns there. -/
theorem unwind_cons (s p b : Point ℤ) (mid : List (Point ℤ)) :
    unwind p (b :: mid ++ [s]) =
      if bend (mid.headD s) b p < 0 then b :: mid ++ [s] else unwind p (mid ++ [s]) := by
  cases mid <;> rfl

/-- What is left of a path on the way to the next point: if anything but the
start, the path turns there. -/
theorem unwind_spec (s p : Point ℤ) (vs : List (Point ℤ)) :
    ∃ ws, ws <:+ vs ∧ unwind p (vs ++ [s]) = ws ++ [s] ∧
      ∀ b mid, ws = b :: mid → bend (mid.headD s) b p < 0 := by
  induction vs with
  | nil => exact ⟨[], List.nil_suffix, rfl, by simp⟩
  | cons b mid ih =>
    by_cases hturn : bend (mid.headD s) b p < 0
    · refine ⟨b :: mid, List.suffix_rfl, by rw [unwind_cons, if_pos hturn], ?_⟩
      rintro _ _ ⟨⟩
      exact hturn
    · obtain ⟨ws, hws, heq, htop⟩ := ih
      exact ⟨ws, hws.trans (List.suffix_cons b mid), by rw [unwind_cons, if_neg hturn, heq], htop⟩

theorem start_mem_unwind (s p : Point ℤ) (vs : List (Point ℤ)) : s ∈ unwind p (vs ++ [s]) := by
  obtain ⟨ws, -, hunwind, -⟩ := unwind_spec s p vs
  rw [hunwind]
  exact List.mem_append_right ws (List.mem_singleton_self s)

/-- A walk turns strictly at its last point on the way to the next one, seen
from the start as well. -/
theorem Walk.bend_last (h : Walk s (b :: vs)) (hvs : ∀ v ∈ b :: vs, Ahead s v) (hp : Ahead s p)
    (hmet : metBefore s b p = true) (htop : bend (vs.headD s) b p < 0) : bend s b p < 0 := by
  rcases metBefore_eq_true_iff.mp hmet with hneg | ⟨hzero, hle⟩
  · exact hneg
  · refine absurd htop (not_lt.mpr ?_)
    cases vs with
    | nil => exact hzero.ge
    | cons a rest =>
      have hab : bend s a b < 0 := (List.pairwise_cons.mp h.around).1 a List.mem_cons_self
      exact bend_nonneg_of_eq_zero (hvs a (by simp)) (hvs b (by simp)) hp hab hzero hle

/-- A path from `s` over `x`, `a` and `b` to `p` that turns at `b` as seen from
`a` turns there as seen from `x`. -/
theorem bend_neg_at {x : Point ℤ} (hsab : bend s a b < 0) (hxab : bend x a b < 0)
    (hsbp : bend s b p < 0) (hsxb : bend s x b < 0) (habp : bend a b p < 0) :
    bend x b p < 0 := by
  have hexchange : bend s a b * bend x b p =
      bend x a b * bend s b p + bend s x b * bend a b p := by
    simp only [bend]
    ring
  have hpos := add_pos (mul_pos_of_neg_of_neg hxab hsbp) (mul_pos_of_neg_of_neg hsxb habp)
  rw [← hexchange] at hpos
  exact neg_of_mul_pos_right hpos hsab.le

/-- A path from `s` over `x`, `y` and `b` to `p` that turns at `b` turns at `y`
also if `b` is left out. -/
theorem bend_neg_before {x y : Point ℤ} (hsyb : bend s y b < 0) (hsyp : bend s y p < 0)
    (hxyb : bend x y b < 0) (hybp : bend y b p < 0) (hsxy : bend s x y < 0) :
    bend x y p < 0 := by
  have hexchange : bend s y b * bend x y p =
      bend s y p * bend x y b + bend y b p * bend s x y := by
    simp only [bend]
    ring
  have hpos := add_pos (mul_pos_of_neg_of_neg hsyp hxyb) (mul_pos_of_neg_of_neg hybp hsxy)
  rw [← hexchange] at hpos
  exact neg_of_mul_pos_right hpos hsyb.le

/-- **A step of a walk.** A point that is met after all points of a walk, and at
which the walk turns, continues it. -/
theorem Walk.push (h : Walk s vs) (hvs : ∀ v ∈ vs, Ahead s v) (hp : Ahead s p)
    (hmet : ∀ v ∈ vs, metBefore s v p = true)
    (htop : ∀ b mid, vs = b :: mid → bend (mid.headD s) b p < 0) : Walk s (p :: vs) := by
  cases vs with
  | nil => exact ⟨List.pairwise_singleton _ _, List.triplewise_singleton _ _⟩
  | cons b mid =>
    have hlast := htop b mid rfl
    have hb := h.bend_last hvs hp (hmet b List.mem_cons_self) hlast
    obtain ⟨haround, haround'⟩ := List.pairwise_cons.mp h.around
    obtain ⟨hturning, hturning'⟩ := List.triplewise_cons.mp h.turning
    have hmid : ∀ v ∈ mid, bend s v p < 0 := fun v hv =>
      bend_neg_trans (hvs v (List.mem_cons_of_mem _ hv)) (hvs b List.mem_cons_self) hp
        (haround v hv) hb
    -- the walk turns at `b` whichever point it is seen from
    have hat : ∀ x ∈ mid, bend x b p < 0 := by
      cases mid with
      | nil => exact List.forall_mem_nil _
      | cons a rest =>
        refine List.forall_mem_cons.mpr ⟨hlast, fun x hx => ?_⟩
        refine bend_neg_at (haround a List.mem_cons_self) ?_ hb ?_ hlast
        · exact (List.pairwise_cons.mp hturning).1 x hx
        · exact haround x (List.mem_cons_of_mem a hx)
    have hbefore : mid.Pairwise fun y x => bend x y p < 0 := by
      refine (hturning.and haround').imp_of_mem fun {y x} hy hx hyx => ?_
      exact bend_neg_before (haround y hy) (hmid y hy) hyx.1 (hat y hy) hyx.2
    refine ⟨List.pairwise_cons.mpr ⟨?_, h.around⟩, List.triplewise_cons.mpr ⟨?_, h.turning⟩⟩
    · exact List.forall_mem_cons.mpr ⟨hb, hmid⟩
    · exact List.pairwise_cons.mpr ⟨hat, hbefore⟩

/-- A step leaves nothing outside: the points that are dropped lie between those that
are not and the next one. -/
theorem between_unwind (h : Walk s vs) (hvs : ∀ v ∈ vs, Ahead s v) (hp : Ahead s p)
    (hmet : ∀ v ∈ vs, metBefore s v p = true) :
    ∀ v ∈ vs, Between (p :: unwind p (vs ++ [s])) v := by
  induction vs with
  | nil => exact List.forall_mem_nil _
  | cons b mid ih =>
    rw [unwind_cons]
    split
    · intro v hv
      exact between_of_mem (List.mem_cons_of_mem p (List.mem_append_left [s] hv))
    · next hturn =>
      obtain ⟨hb, hmid⟩ := List.forall_mem_cons.mp hvs
      obtain ⟨hmetb, hmetmid⟩ := List.forall_mem_cons.mp hmet
      have hrest := ih (h.suffix (List.suffix_cons b mid)) hmid hmetmid
      have hs : Between (p :: unwind p (mid ++ [s])) s :=
        between_of_mem (List.mem_cons_of_mem p (start_mem_unwind s p mid))
      have hp' : Between (p :: unwind p (mid ++ [s])) p := between_of_mem List.mem_cons_self
      refine List.forall_mem_cons.mpr ⟨?_, hrest⟩
      have hbp := metBefore_eq_true_iff.mp hmetb
      cases mid with
      | nil =>
        have hzero : bend s b p = 0 ∧ squaredDistance s b ≤ squaredDistance s p :=
          hbp.resolve_left hturn
        refine (between_of_bend_eq_zero hb hp hzero.1 hzero.2).trans ?_
        exact List.forall_mem_cons.mpr ⟨hs, List.forall_mem_cons.mpr
          ⟨hs, List.forall_mem_singleton.mpr hp'⟩⟩
      | cons a rest =>
        have hab : bend s a b < 0 := (List.pairwise_cons.mp h.around).1 a List.mem_cons_self
        have hle : bend s b p ≤ 0 := hbp.elim le_of_lt fun hzero => hzero.1.le
        refine (between_triangle hab hle (not_lt.mp hturn)).trans ?_
        exact List.forall_mem_cons.mpr ⟨hs, List.forall_mem_cons.mpr
          ⟨hrest a List.mem_cons_self, List.forall_mem_singleton.mpr hp'⟩⟩

/-- **A run of a walk** over points in the order of meeting. It walks over some of
them, and all of them lie between those. -/
theorem Walk.foldl (h : Walk s vs) (hvs : ∀ v ∈ vs, Ahead s v) (hps : ∀ p ∈ ps, Ahead s p)
    (hmet : ∀ v ∈ vs, ∀ p ∈ ps, metBefore s v p = true)
    (hsorted : ps.Pairwise fun p q => metBefore s p q = true) :
    ∃ ws, ps.foldl (fun path p => p :: unwind p path) (vs ++ [s]) = ws ++ [s] ∧ Walk s ws ∧
      ws ⊆ vs ++ ps ∧ ∀ q ∈ vs ++ ps, Between (ws ++ [s]) q := by
  induction ps generalizing vs with
  | nil =>
    rw [List.append_nil]
    refine ⟨vs, rfl, h, List.Subset.refl vs, fun q hq => ?_⟩
    exact between_of_mem (List.mem_append_left [s] hq)
  | cons p ps ih =>
    obtain ⟨ws, hws, hunwind, htop⟩ := unwind_spec s p vs
    obtain ⟨hp, hps⟩ := List.forall_mem_cons.mp hps
    obtain ⟨hlater, hsorted⟩ := List.pairwise_cons.mp hsorted
    have hmetp : ∀ v ∈ vs, metBefore s v p = true := fun v hv => hmet v hv p List.mem_cons_self
    have hahead : ∀ v ∈ ws, Ahead s v := fun v hv => hvs v (hws.subset hv)
    have hpush : Walk s (p :: ws) := (h.suffix hws).push hahead hp
      (fun v hv => hmetp v (hws.subset hv)) htop
    have hheld := between_unwind h hvs hp hmetp
    rw [hunwind] at hheld
    rw [List.foldl_cons, hunwind, ← List.cons_append]
    obtain ⟨us, hus, hwalk, hsub, hbetween⟩ := ih hpush (List.forall_mem_cons.mpr ⟨hp, hahead⟩) hps
      (List.forall_mem_cons.mpr ⟨hlater, fun v hv q hq =>
        hmet v (hws.subset hv) q (List.mem_cons_of_mem p hq)⟩) hsorted
    refine ⟨us, hus, hwalk, fun u hu => ?_, fun q hq => ?_⟩
    · have := hsub hu
      rw [List.mem_append, List.mem_cons] at this ⊢
      rcases this with (rfl | hu) | hu
      · exact .inr (.inl rfl)
      · exact .inl (hws.subset hu)
      · exact .inr (.inr hu)
    · -- what lay between the points of the path still does when some of them are dropped
      have hpath : ∀ v ∈ p :: ws ++ [s], Between (us ++ [s]) v := by
        intro v hv
        rcases List.mem_append.mp hv with hv | hv
        · exact hbetween v (List.mem_append_left ps hv)
        · exact between_of_mem (List.mem_append_right us hv)
      rcases List.mem_append.mp hq with hq | hq
      · exact (hheld q hq).trans hpath
      · refine hbetween q ?_
        rcases List.mem_cons.mp hq with rfl | hq
        · exact List.mem_append_left ps List.mem_cons_self
        · exact List.mem_append_right (p :: ws) hq

/-! ## The start -/

/-- The start is one of the points, and no other is a better one. -/
theorem startIndex_spec (before : List (Point ℤ)) {best : Point ℤ} (bestIndex : ℕ)
    (hbest : (before ++ ps)[bestIndex]? = some best) (hbefore : ∀ q ∈ before, Ahead best q) :
    ∃ s, (before ++ ps)[startIndex best bestIndex before.length ps]? = some s ∧
      ∀ q ∈ before ++ ps, Ahead s q := by
  induction ps generalizing before best bestIndex with
  | nil =>
    rw [List.append_nil] at hbest ⊢
    exact ⟨best, hbest, hbefore⟩
  | cons p rest ih =>
    have hlength : (before ++ [p]).length = before.length + 1 := List.length_append
    rw [startIndex, ← hlength]
    rw [List.append_cons] at hbest ⊢
    split
    · next hbetter =>
      refine ih (before ++ [p]) _ (by simp) (List.forall_mem_append.mpr ⟨fun q hq => ?_, ?_⟩)
      · exact (hbefore q hq).of_startsBefore hbetter
      · exact List.forall_mem_singleton.mpr (ahead_refl p)
    · next hworse =>
      refine ih (before ++ [p]) _ hbest (List.forall_mem_append.mpr ⟨hbefore, ?_⟩)
      exact List.forall_mem_singleton.mpr
        (ahead_of_startsBefore_eq_false (Bool.eq_false_of_not_eq_true hworse))

theorem mem_of_mem_others {first : Point ℤ} {rest : List (Point ℤ)} {index : ℕ}
    (h : p ∈ others first rest index) : p ∈ first :: rest := by
  cases index with
  | zero => exact List.mem_cons_of_mem _ h
  | succ i =>
    rcases List.mem_or_eq_of_mem_set h with hrest | rfl
    · exact List.mem_cons_of_mem _ hrest
    · exact List.mem_cons_self

/-- No point but the start is left out. -/
theorem mem_others {first : Point ℤ} {rest : List (Point ℤ)} {index : ℕ}
    (hs : (first :: rest)[index]? = some s) (h : p ∈ first :: rest) :
    p = s ∨ p ∈ others first rest index := by
  cases index with
  | zero =>
    cases hs
    exact List.mem_cons.mp h
  | succ i =>
    rw [List.getElem?_cons_succ] at hs
    obtain ⟨hi, hget⟩ := List.getElem?_eq_some_iff.mp hs
    rcases List.mem_cons.mp h with rfl | h
    · exact .inr (List.mem_set hi p)
    · obtain ⟨j, hj, rfl⟩ := List.mem_iff_getElem.mp h
      by_cases hij : i = j
      · subst hij
        exact .inl hget
      · have hj' : j < (rest.set i first).length := hj.trans_eq List.length_set.symm
        exact .inr (List.mem_iff_getElem.mpr ⟨j, hj', List.getElem_set_of_ne hij first hj'⟩)

end Hull

/-- **A hull is a walk** from the best start, over some of the points and around all
of them. -/
theorem exists_walk_convexHull (p : Point ℤ) (ps : List (Point ℤ)) :
    ∃ s ws, convexHull (p :: ps) = s :: ws.reverse ∧ Hull.Walk s ws ∧ s :: ws ⊆ p :: ps ∧
      (∀ q ∈ p :: ps, Hull.Ahead s q) ∧ ∀ q ∈ p :: ps, Hull.Between (s :: ws) q := by
  obtain ⟨s, hs, hahead⟩ := Hull.startIndex_spec [p] 0 rfl
    (List.forall_mem_singleton.mpr (Hull.ahead_refl p))
  have hothers : ∀ q ∈ Hull.others p ps (Hull.startIndex p 0 1 ps), Hull.Ahead s q :=
    fun q hq => hahead q (Hull.mem_of_mem_others hq)
  have hsorted := Hull.pairwise_mergeSort_metBefore hothers
  obtain ⟨ws, hws, hwalk, hsub, hbetween⟩ := (Hull.Walk.nil s).foldl (List.forall_mem_nil _)
    (fun q hq => hothers q (List.mem_mergeSort.mp hq)) (List.forall_mem_nil _) hsorted
  have hstart : (p :: ps).getD (Hull.startIndex p 0 1 ps) p = s := by
    rw [List.getD_eq_getElem?_getD]
    exact congrArg (fun o => o.getD p) hs
  have hpath : ∀ v ∈ ws ++ [s], Hull.Between (s :: ws) v := fun v hv =>
    Hull.between_of_mem (List.mem_cons.mpr ((List.mem_append.mp hv).symm.imp_left
      List.mem_singleton.mp))
  refine ⟨s, ws, ?_, hwalk, ?_, hahead, fun q hq => ?_⟩
  · simp only [convexHull, hstart]
    exact (congrArg List.reverse hws).trans List.reverse_append
  · refine List.cons_subset.mpr ⟨List.mem_of_getElem? hs, fun v hv => ?_⟩
    exact Hull.mem_of_mem_others (List.mem_mergeSort.mp (hsub hv))
  · rcases Hull.mem_others hs hq with rfl | hq
    · exact Hull.between_of_mem List.mem_cons_self
    · exact (hbetween q (List.mem_mergeSort.mpr hq)).trans hpath

/-- The vertices of a hull are some of the points. -/
theorem mem_of_mem_convexHull {ps : List (Point ℤ)} {v : Point ℤ} (h : v ∈ convexHull ps) :
    v ∈ ps := by
  cases ps with
  | nil => exact h
  | cons p ps =>
    obtain ⟨s, ws, heq, -, hsub, -⟩ := exists_walk_convexHull p ps
    rw [heq, List.mem_cons, List.mem_reverse, ← List.mem_cons] at h
    exact hsub h

/-- **All points lie between the vertices of their hull.** -/
theorem between_convexHull {ps : List (Point ℤ)} {q : Point ℤ} (h : q ∈ ps) :
    Hull.Between (convexHull ps) q := by
  cases ps with
  | nil => exact absurd h List.not_mem_nil
  | cons p ps =>
    obtain ⟨s, ws, heq, -, -, -, hbetween⟩ := exists_walk_convexHull p ps
    refine (hbetween q h).trans fun v hv => Hull.between_of_mem ?_
    rwa [heq, List.mem_cons, List.mem_reverse, ← List.mem_cons]

section

variable {K : Type} [Field K] [LinearOrder K] [FloorRing K]

attribute [local instance] Scalar.exact

theorem turn_ofPixel (a b c : Point ℤ) :
    (Point.ofPixel a : Point K).turn (.ofPixel b) (.ofPixel c) = ((-Hull.bend a b c : ℤ) : K) := by
  simp only [Point.turn, Point.ofPixel, Scalar.ofInt_exact, Hull.bend]
  push_cast
  ring

variable [IsStrictOrderedRing K]

/-- **Hulls turn one way**: clockwise on screen at any three of their vertices. -/
theorem turning_convexHull (ps : List (Point ℤ)) :
    Polygon.Turning (1 : K) (Polygon.ofPixels (convexHull ps)).vertices := by
  cases ps with
  | nil => exact List.Triplewise.nil
  | cons p ps =>
    obtain ⟨s, ws, heq, hwalk, -, -⟩ := exists_walk_convexHull p ps
    have hbend : (convexHull (p :: ps)).Triplewise fun a b c => Hull.bend a b c < 0 := by
      rw [heq]
      refine List.triplewise_cons.mpr ⟨List.pairwise_reverse.mpr hwalk.around, ?_⟩
      exact List.triplewise_reverse.mpr hwalk.turning
    refine List.Triplewise.map (fun {a b c} habc => ?_) hbend
    rw [one_mul, turn_ofPixel, Int.cast_pos, neg_pos]
    exact habc

/-- The hull of the object of a mask is strictly convex, as soon as it has three
vertices. -/
theorem Raster.strictlyConvex_hull {m : Mask} {hull : List (Point ℤ)} (h : m.hull = .ok hull)
    (hlen : 3 ≤ hull.length) : (Polygon.ofPixels hull : Polygon K).StrictlyConvex := by
  obtain ⟨ps, -, rfl⟩ := map_eq_ok_iff.mp h
  exact ⟨hlen.trans_eq (List.length_map _).symm, .inl (turning_convexHull ps)⟩

end

end Montage
