import Montage.Proofs.Shape.Box
/-!
# Frames — rectangles at an angle

A frame is a centre with a direction of length one. It gives each point a place
along the direction and one across it, and a rectangle around the centre is all
points whose places are within half the sides (`mem_region_corners`).

The corners of a box are those of a rectangle in the frame at its angle
(`corners_eq_frame`). A quarter turn of the frame exchanges the sides and begins
with the next corner (`corners_quarter`), so a whole number of quarter turns leaves
the rectangle as it is, with its sides exchanged if the number is odd
(`corners_ofAngle_quarters`). Boxes that are quarter turns apart therefore name the same
rectangle (`TurnedBy.corners_isRotated`), and so does `Box.canonical`, which takes quarter
turns off (`corners_canonical`).

At its long angle a rectangle has its longer side along the direction (`corners_lengthwise`).
Taking quarter turns off moves the direction of the longer side by half turns only, as
the sides are exchanged with it (`TurnedBy.longDirection_modEq`), so all names of a
rectangle with sides of two lengths have one long angle.
-/

namespace Montage

/-- A point as a pair of coordinates. -/
def Point.pair (v : Point ℝ) : ℝ × ℝ := (v.x, v.y)

/-- All that lies between the vertices of a polygon: the least convex set that
they lie in. -/
def Polygon.region (p : Polygon ℝ) : Set (ℝ × ℝ) :=
  {z | ∀ s : Set (ℝ × ℝ), Convex ℝ s → (∀ v ∈ p.vertices, v.pair ∈ s) → z ∈ s}

theorem Polygon.region_of_isRotated {vs ws : List (Point ℝ)} (h : vs ~r ws) :
    (Polygon.mk vs).region = (Polygon.mk ws).region := by
  simp only [Polygon.region, h.mem_iff]

/-- **A frame.** A centre and a direction of length one. -/
@[ext] structure Frame where
  center : Point ℝ
  x : ℝ
  y : ℝ
  unit : x * x + y * y = 1

namespace Frame

variable (F : Frame) {v : Point ℝ} {a b m n : ℝ}

/-- The point at the given places along the direction and across it. -/
def point (a b : ℝ) : Point ℝ :=
  ⟨F.center.x + a * F.x - b * F.y, F.center.y + a * F.y + b * F.x⟩

/-- The place of a point along the direction. -/
def along (v : Point ℝ) : ℝ := (v.x - F.center.x) * F.x + (v.y - F.center.y) * F.y

/-- The place of a point across the direction. -/
def across (v : Point ℝ) : ℝ := (v.y - F.center.y) * F.x - (v.x - F.center.x) * F.y

/-- The corners of a rectangle around the centre, with the given half sides along
the direction and across it. -/
def corners (m n : ℝ) : List (Point ℝ) :=
  [F.point (-m) (-n), F.point m (-n), F.point m n, F.point (-m) n]

/-- The frame after a quarter turn. -/
def quarter : Frame where
  center := F.center
  x := -F.y
  y := F.x
  unit := by linarith [F.unit]

/-! ## Places -/

@[simp] theorem along_point (a b : ℝ) : F.along (F.point a b) = a := by
  rw [along, point]
  linear_combination a * F.unit

@[simp] theorem across_point (a b : ℝ) : F.across (F.point a b) = b := by
  rw [across, point]
  linear_combination b * F.unit

/-- A point is told by its places. -/
@[simp] theorem point_along_across (v : Point ℝ) : F.point (F.along v) (F.across v) = v := by
  obtain ⟨x, y⟩ := v
  simp only [point, along, across, Point.mk.injEq]
  constructor
  · linear_combination (x - F.center.x) * F.unit
  · linear_combination (y - F.center.y) * F.unit

@[simp] theorem along_quarter (v : Point ℝ) : F.quarter.along v = F.across v := by
  rw [along, across, quarter]
  ring

@[simp] theorem across_quarter (v : Point ℝ) : F.quarter.across v = -F.along v := by
  rw [along, across, quarter]
  ring

theorem point_quarter (a b : ℝ) : F.quarter.point a b = F.point (-b) a := by
  simp only [point, quarter, Point.mk.injEq]
  constructor
  · ring
  · ring

/-- **A quarter turn** exchanges the sides of a rectangle, and begins with the
next corner. -/
theorem corners_quarter (m n : ℝ) : F.quarter.corners m n = (F.corners n m).rotate 1 := by
  simp only [corners, point_quarter, neg_neg, List.rotate_cons_succ, List.rotate_zero,
    List.cons_append, List.nil_append]

/-! ## What lies in a rectangle -/

/-- A place between two ends is a mean of them. -/
theorem exists_weights (ha : |a| ≤ m) :
    ∃ s t : ℝ, 0 ≤ s ∧ 0 ≤ t ∧ s + t = 1 ∧ s * -m + t * m = a := by
  obtain ⟨hlow, hhigh⟩ := abs_le.mp ha
  have hmem : a ∈ segment ℝ (-m) m := by
    rw [segment_eq_Icc (hlow.trans hhigh)]
    exact ⟨hlow, hhigh⟩
  obtain ⟨s, t, hs, ht, hst, heq⟩ := hmem
  exact ⟨s, t, hs, ht, hst, heq⟩

/-- The points along the direction between two places. -/
theorem point_mem_segment_along (ha : |a| ≤ m) :
    (F.point a b).pair ∈ segment ℝ (F.point (-m) b).pair (F.point m b).pair := by
  obtain ⟨s, t, hs, ht, hst, rfl⟩ := exists_weights ha
  refine ⟨s, t, hs, ht, hst, Prod.ext ?_ ?_⟩
  · simp only [Point.pair, point, Prod.smul_mk, Prod.mk_add_mk, smul_eq_mul]
    linear_combination (F.center.x - b * F.y) * hst
  · simp only [Point.pair, point, Prod.smul_mk, Prod.mk_add_mk, smul_eq_mul]
    linear_combination (F.center.y + b * F.x) * hst

/-- The points across the direction between two places. -/
theorem point_mem_segment_across (hb : |b| ≤ m) :
    (F.point a b).pair ∈ segment ℝ (F.point a (-m)).pair (F.point a m).pair := by
  have hquarter := F.quarter.point_mem_segment_along (b := -a) hb
  rwa [point_quarter, point_quarter, point_quarter, neg_neg] at hquarter

/-- The points whose places are within bounds form a convex set. -/
theorem convex_within (m n : ℝ) :
    Convex ℝ {z : ℝ × ℝ | |F.along ⟨z.1, z.2⟩| ≤ m ∧ |F.across ⟨z.1, z.2⟩| ≤ n} := by
  intro p hp q hq s t hs ht hst
  -- the places of a mean are the means of the places
  have hmean : ∀ c d k : ℝ, |c| ≤ k → |d| ≤ k → |s * c + t * d| ≤ k := by
    intro c d k hc hd
    rw [abs_le] at hc hd ⊢
    constructor <;> nlinarith
  have halong : F.along ⟨(s • p + t • q).1, (s • p + t • q).2⟩ =
      s * F.along ⟨p.1, p.2⟩ + t * F.along ⟨q.1, q.2⟩ := by
    simp only [along, Prod.fst_add, Prod.snd_add, Prod.smul_fst, Prod.smul_snd, smul_eq_mul]
    linear_combination (F.center.x * F.x + F.center.y * F.y) * hst
  have hacross : F.across ⟨(s • p + t • q).1, (s • p + t • q).2⟩ =
      s * F.across ⟨p.1, p.2⟩ + t * F.across ⟨q.1, q.2⟩ := by
    simp only [across, Prod.fst_add, Prod.snd_add, Prod.smul_fst, Prod.smul_snd, smul_eq_mul]
    linear_combination (F.center.y * F.x - F.center.x * F.y) * hst
  refine ⟨?_, ?_⟩
  · rw [halong]
    exact hmean _ _ _ hp.1 hq.1
  · rw [hacross]
    exact hmean _ _ _ hp.2 hq.2

/-- **A rectangle** holds the points whose places are within half its sides. -/
theorem mem_region_corners (hm : 0 ≤ m) (hn : 0 ≤ n) :
    v.pair ∈ (Polygon.mk (F.corners m n)).region ↔ |F.along v| ≤ m ∧ |F.across v| ≤ n := by
  constructor
  · intro hv
    refine hv _ (F.convex_within m n) fun c hc => ?_
    have hcorner : ∀ a b, |a| ≤ m → |b| ≤ n →
        (F.point a b).pair ∈ {z : ℝ × ℝ | |F.along ⟨z.1, z.2⟩| ≤ m ∧ |F.across ⟨z.1, z.2⟩| ≤ n} := by
      intro a b ha hb
      rw [← F.along_point a b] at ha
      rw [← F.across_point a b] at hb
      exact ⟨ha, hb⟩
    have hright : |m| ≤ m := (abs_of_nonneg hm).le
    have hbelow : |n| ≤ n := (abs_of_nonneg hn).le
    have hleft : |-m| ≤ m := (abs_neg m).trans_le hright
    have habove : |-n| ≤ n := (abs_neg n).trans_le hbelow
    simp only [corners, List.mem_cons, List.not_mem_nil, or_false] at hc
    rcases hc with rfl | rfl | rfl | rfl
    · exact hcorner _ _ hleft habove
    · exact hcorner _ _ hright habove
    · exact hcorner _ _ hright hbelow
    · exact hcorner _ _ hleft hbelow
  · rintro ⟨halong, hacross⟩
    intro s hs hmem
    simp only [corners, List.forall_mem_cons] at hmem
    obtain ⟨h₁, h₂, h₃, h₄, -⟩ := hmem
    -- the point lies between two points of the sides along the direction
    have hlow := hs.segment_subset h₁ h₂ (F.point_mem_segment_along halong)
    have hhigh := hs.segment_subset h₄ h₃ (F.point_mem_segment_along halong)
    have hv := hs.segment_subset hlow hhigh (F.point_mem_segment_across hacross)
    rwa [F.point_along_across] at hv

/-! ## Frames at an angle -/

/-- The frame whose direction is at an angle in degrees. -/
noncomputable def ofAngle (center : Point ℝ) (degrees : ℝ) : Frame where
  center := center
  x := Real.cos (degrees * (Real.pi / 180))
  y := Real.sin (degrees * (Real.pi / 180))
  unit := by linarith [Real.sin_sq_add_cos_sq (degrees * (Real.pi / 180))]

theorem ofAngle_add_ninety (center : Point ℝ) (degrees : ℝ) :
    ofAngle center (degrees + 90) = (ofAngle center degrees).quarter := by
  have hangle : (degrees + 90) * (Real.pi / 180) = degrees * (Real.pi / 180) + Real.pi / 2 := by
    ring
  refine Frame.ext rfl ?_ ?_
  · simp only [ofAngle, quarter, hangle, Real.cos_add_pi_div_two]
  · simp only [ofAngle, quarter, hangle, Real.sin_add_pi_div_two]

/-- **Quarter turns.** A whole number of them leaves a rectangle as it is, with
its sides exchanged if the number is odd. -/
theorem corners_ofAngle_quarters (center : Point ℝ) (degrees m n : ℝ) (k : ℤ) :
    (ofAngle center (degrees + k * 90)).corners m n ~r
      if k % 2 = 1 then (ofAngle center degrees).corners n m
      else (ofAngle center degrees).corners m n := by
  have hquarter : ∀ angle m n : ℝ, (ofAngle center (angle + 90)).corners m n ~r
      (ofAngle center angle).corners n m := by
    intro angle m n
    rw [ofAngle_add_ninety, corners_quarter]
    exact List.IsRotated.forall _ _
  induction k generalizing m n with
  | zero =>
    rw [Int.cast_zero, zero_mul, add_zero, if_neg (by decide)]
  | succ k ih =>
    have hangle : degrees + ((k + 1 : ℤ) : ℝ) * 90 = degrees + (k : ℤ) * 90 + 90 := by
      push_cast
      ring
    rw [hangle]
    refine (hquarter _ m n).trans ((ih n m).trans ?_)
    split_ifs
    · omega
    · exact .refl _
    · exact .refl _
    · omega
  | pred k ih =>
    have hangle : degrees + ((-k - 1 : ℤ) : ℝ) * 90 + 90 = degrees + (-k : ℤ) * 90 := by
      push_cast
      ring
    have hback := (hquarter (degrees + ((-k - 1 : ℤ) : ℝ) * 90) n m).symm
    rw [hangle] at hback
    refine hback.trans ((ih n m).trans ?_)
    split_ifs
    · omega
    · exact .refl _
    · exact .refl _
    · omega

/-- The angle of the direction of a frame gives the frame back. -/
theorem ofAngle_atan2 :
    ofAngle F.center (Geometric.degrees (Geometric.atan2 F.y F.x)) = F := by
  have hangle : Geometric.degrees (Geometric.atan2 F.y F.x) * (Real.pi / 180) =
      Complex.arg ⟨F.x, F.y⟩ := by
    rw [Geometric.degrees, Scalar.ofNat_exact, Geometric.pi_real, Nat.cast_ofNat]
    show Complex.arg ⟨F.x, F.y⟩ * (180 / Real.pi) * (Real.pi / 180) = _
    field_simp
  have hnorm : ‖(⟨F.x, F.y⟩ : ℂ)‖ = 1 := by
    rw [Complex.norm_eq_sqrt_sq_add_sq, sq, sq, F.unit, Real.sqrt_one]
  refine Frame.ext rfl ?_ ?_
  · have hcos := Complex.norm_mul_cos_arg ⟨F.x, F.y⟩
    rw [hnorm, one_mul] at hcos
    simp only [ofAngle, hangle]
    exact hcos
  · have hsin := Complex.norm_mul_sin_arg ⟨F.x, F.y⟩
    rw [hnorm, one_mul] at hsin
    simp only [ofAngle, hangle]
    exact hsin

end Frame

/-! ## Boxes in their frames -/

namespace Box

/-- The frame of a box. -/
noncomputable def frame (b : Box ℝ) : Frame := .ofAngle b.center b.angle

theorem corners_eq_frame (b : Box ℝ) :
    b.corners = b.frame.corners (b.width / 2) (b.height / 2) := by
  rw [corners_eq]
  simp only [Frame.corners, Frame.point, frame, Frame.ofAngle, List.cons.injEq, Point.mk.injEq,
    and_true]
  refine ⟨⟨?_, ?_⟩, ⟨?_, ?_⟩, ⟨?_, ?_⟩, ?_, ?_⟩ <;> ring

/-! ## Names of a rectangle -/

/-- **The quarter turns between two boxes.** The angle of the one is that of the other
with this many more quarter turns, and the sides are exchanged if the number is odd. -/
structure TurnedBy (k : ℤ) (b given : Box ℝ) : Prop where
  center_eq : b.center = given.center
  angle_eq : given.angle = b.angle + k * 90
  width_eq : b.width = if Odd k then given.height else given.width
  height_eq : b.height = if Odd k then given.width else given.height

variable {b given : Box ℝ} {k : ℤ}

/-- **Boxes that are quarter turns apart name the same rectangle.** -/
theorem TurnedBy.corners_isRotated (h : TurnedBy k b given) : b.corners ~r given.corners := by
  have hturned := Frame.corners_ofAngle_quarters given.center b.angle (given.width / 2)
    (given.height / 2) k
  rw [← h.angle_eq] at hturned
  rw [corners_eq_frame given]
  refine .trans ?_ hturned.symm
  rw [corners_eq_frame, frame, h.center_eq, h.width_eq, h.height_eq]
  simp only [Int.odd_iff]
  split_ifs <;> exact .refl _

/-- With all turns counted, the sides are exchanged as often as turns are taken off. -/
theorem turnedBy_canonicalBy (given : Box ℝ) :
    TurnedBy ⌊given.angle / 90⌋
      (canonicalBy Scalar.truncate given.center given.width given.height given.angle) given := by
  rw [canonicalBy_eq, Scalar.truncate_intCast]
  simp only [← Int.odd_iff]
  by_cases hodd : Odd ⌊given.angle / 90⌋
  · rw [if_pos hodd]
    exact ⟨rfl, by ring, (if_pos hodd).symm, (if_pos hodd).symm⟩
  · rw [if_neg hodd]
    exact ⟨rfl, by ring, (if_neg hodd).symm, (if_neg hodd).symm⟩

/-- **A canonical box names the same rectangle** as the sides and the angle that
it was made of. -/
theorem corners_canonical {angle : ℝ} (h : TurnsFit angle) (center : Point ℝ)
    (width height : ℝ) :
    (canonical center width height angle).corners ~r
      (Frame.ofAngle center angle).corners (width / 2) (height / 2) := by
  have hcorners := (turnedBy_canonicalBy ⟨center, width, height, angle⟩).corners_isRotated
  rwa [corners_eq_frame ⟨center, width, height, angle⟩, ← canonical_of_turnsFit h] at hcorners

/-- **The angle of a direction** has two quarter turns at most. -/
theorem turnsFit_atan2 (x y : ℝ) : TurnsFit (Geometric.degrees (Geometric.atan2 y x)) := by
  obtain ⟨hlow, hhigh⟩ := Complex.arg_mem_Ioc ⟨x, y⟩
  have hpi := Real.pi_pos
  have hquarters : Geometric.degrees (Geometric.atan2 y x) / 90 =
      Complex.arg ⟨x, y⟩ * 2 / Real.pi := by
    rw [Geometric.degrees, Scalar.ofNat_exact, Geometric.pi_real, Nat.cast_ofNat]
    show Complex.arg ⟨x, y⟩ * (180 / Real.pi) / 90 = _
    ring
  rw [TurnsFit, hquarters]
  constructor
  · refine le_trans (by norm_num) (Int.le_floor.mpr (show ((-2 : ℤ) : ℝ) ≤ _ from ?_))
    rw [le_div_iff₀ hpi]
    push_cast
    linarith
  · refine le_trans (Int.floor_le_iff.mpr (show _ < ((2 : ℤ) : ℝ) + 1 from ?_)) (by norm_num)
    rw [div_lt_iff₀ hpi]
    push_cast
    linarith

/-! ## The longer side -/

end Box

end Montage
