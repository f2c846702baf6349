import Montage.Proofs.Canvas.Placement
import Montage.Canvas.Reposition
/-!
# Factors — what holds of every object and every canvas

The factor by which a photo is resized is the wanted one, moved into the range
of factors. An object with extent wants a number and one without wants infinity,
so in exact arithmetic with infinities there is always a factor, and it is a
number of that range (`exists_resizeRatio`). It does not go down when more of
the canvas is asked for (`resizeRatio_mono`).

Which side limits an object is settled by the longer side of the object, and for
a square object by the longer side of the canvas (`limitingSides_eq`). Read that
way the rule does not tell the axes apart, and so neither does the factor
(`resizeRatio_transpose`). A photo that is resized keeps at least one pixel and
grows tenfold at most (`resizedSize_bounds`).
-/

namespace Montage

variable {b : Bounds} {canvas : Size}

/-! ## Exchanged axes -/

/-- The bounds with the axes exchanged. -/
def Bounds.transpose (b : Bounds) : Bounds := ⟨b.ymin, b.ymax, b.xmin, b.xmax⟩

/-- The extent with the axes exchanged. -/
def Size.transpose (s : Size) : Size := ⟨s.height, s.width⟩

@[simp] theorem Bounds.width_transpose (b : Bounds) : b.transpose.width = b.height := rfl

@[simp] theorem Bounds.height_transpose (b : Bounds) : b.transpose.height = b.width := rfl

/-- **The limiting side.** It is the longer side of the object, beside the same
side of the canvas; beside a square object it is the longer side of the canvas. -/
theorem limitingSides_eq (b : Bounds) (canvas : Size) :
    limitingSides b canvas =
      if b.width < b.height then (b.height, canvas.height)
      else if b.height < b.width then (b.width, canvas.width)
      else (b.width, max canvas.width canvas.height) := by
  unfold limitingSides limitedByHeight
  rcases Nat.lt_trichotomy b.width b.height with h | h | h
  · rw [if_pos h, if_pos (by simp [h])]
  · rw [if_neg h.not_lt, if_neg h.not_gt]
    rcases Nat.lt_or_ge canvas.width canvas.height with hc | hc
    · rw [if_pos (by simp [h, hc]), max_eq_right hc.le, h]
    · rw [if_neg (by simp [h, hc]), max_eq_left hc]
  · rw [if_neg h.not_gt, if_pos h, if_neg (by simp [h.ne, h.not_gt])]

/-- **The limiting side is the same on exchanged axes.** -/
theorem limitingSides_transpose (b : Bounds) (canvas : Size) :
    limitingSides b.transpose canvas.transpose = limitingSides b canvas := by
  rw [limitingSides_eq, limitingSides_eq, b.width_transpose, b.height_transpose]
  rcases Nat.lt_trichotomy b.width b.height with h | h | h
  · rw [if_neg h.not_gt, if_pos h, if_pos h]
    rfl
  · rw [if_neg h.not_gt, if_neg h.not_lt, if_neg h.not_lt, if_neg h.not_gt, h]
    exact congrArg (Prod.mk b.height) (max_comm canvas.height canvas.width)
  · rw [if_pos h, if_neg h.not_gt, if_pos h]
    rfl

/-- **The factor is the same on exchanged axes**, whatever is taken for a scale. -/
theorem resizeRatio_transpose {α : Type} [Scalar α] (b : Bounds) (canvas : Size) (scale : α) :
    resizeRatio b.transpose canvas.transpose scale = resizeRatio b canvas scale := by
  rw [resizeRatio_eq, resizeRatio_eq, wantedRatio, wantedRatio, limitingSides_transpose]

/-! ## The range of factors -/

section

variable {K : Type} [Field K] [LinearOrder K] [FloorRing K] [IsStrictOrderedRing K]
variable {scale scale' r : K}

open Extended

/-- The factor is the wanted number, moved into the range. -/
theorem resizeRatio_of_wanted {w : K} (h : wantedRatio b canvas (number scale) = number w) :
    resizeRatio b canvas (number scale) = number (max (1 / 10) (min 10 w)) := by
  rw [resizeRatio_eq, h, leastRatio_extended, greatestRatio_extended, clamp_number (by norm_num)]

/-- An object with extent wants a number. -/
theorem resizeRatio_of_extent (h : (limitingSides b canvas).1 ≠ 0) :
    resizeRatio b canvas (number scale) =
      number (max (1 / 10)
        (min 10 ((limitingSides b canvas).2 / (limitingSides b canvas).1 * scale))) :=
  resizeRatio_of_wanted (wantedRatio_number h)

/-- **There is always a factor**, and it is a number of the range. -/
theorem exists_resizeRatio (hw : 1 ≤ canvas.width) (hh : 1 ≤ canvas.height) (hscale : 0 < scale)
    (b : Bounds) :
    ∃ r : K, resizeRatio b canvas (number scale) = number r ∧ 1 / 10 ≤ r ∧ r ≤ 10 := by
  by_cases hzero : (limitingSides b canvas).1 = 0
  · exact ⟨10, resizeRatio_infinity hzero (limitingSides_pos hw hh b) hscale, by norm_num, le_rfl⟩
  · exact ⟨_, resizeRatio_of_extent hzero, le_max_left _ _,
      max_le (by norm_num) (min_le_left _ _)⟩

/-- **A larger scale has no smaller factor.** -/
theorem resizeRatio_mono (hw : 1 ≤ canvas.width) (hh : 1 ≤ canvas.height) (hscale : 0 < scale)
    (h : scale ≤ scale') (hr : resizeRatio b canvas (number scale) = number r) :
    ∃ r' : K, resizeRatio b canvas (number scale') = number r' ∧ r ≤ r' := by
  by_cases hzero : (limitingSides b canvas).1 = 0
  · have hcanvas := limitingSides_pos hw hh b
    rw [resizeRatio_infinity hzero hcanvas hscale] at hr
    cases hr
    exact ⟨10, resizeRatio_infinity hzero hcanvas (hscale.trans_le h), le_rfl⟩
  · rw [resizeRatio_of_extent hzero] at hr
    cases hr
    refine ⟨_, resizeRatio_of_extent hzero, max_le_max le_rfl (min_le_min le_rfl ?_)⟩
    exact mul_le_mul_of_nonneg_left h (div_nonneg (Nat.cast_nonneg _) (Nat.cast_nonneg _))

omit [IsStrictOrderedRing K] in
/-- What an object with extent wants makes its limiting side as long as was asked
for. -/
theorem mul_limiting_eq (h : (limitingSides b canvas).1 ≠ 0) (scale : K) :
    (limitingSides b canvas).2 / (limitingSides b canvas).1 * scale * (limitingSides b canvas).1
      = scale * (limitingSides b canvas).2 := by
  have hside : ((limitingSides b canvas).1 : K) ≠ 0 := Nat.cast_ne_zero.mpr h
  field_simp

/-! ## Resized photos -/

/-- The whole part of a length times a factor, or one pixel. -/
def wholeLength (n : ℕ) (r : K) : ℕ := max 1 ⌊(n : K) * r⌋.toNat

/-- A length that is resized is the whole one, as far as this fits in thirty-two
bits. -/
theorem resizedLength_number (n : ℕ) (hr : 0 ≤ r) :
    resizedLength n (number r) = min (UInt32.size - 1) (wholeLength n r) := by
  have hnonneg : 0 ≤ (n : K) * r := mul_nonneg (Nat.cast_nonneg n) hr
  have htruncate : Scalar.truncate (number ((n : K) * r)) = ⌊(n : K) * r⌋ := if_pos hnonneg
  rw [resizedLength, ofNat_extended, number_mul, Scalar.truncateUInt32, htruncate, wholeLength,
    UInt32.size]
  omega

/-- A factor of ten at most makes a length ten times as long at most. -/
theorem wholeLength_bounds {n : ℕ} (hn : 1 ≤ n) (hten : r ≤ 10) :
    1 ≤ wholeLength n r ∧ wholeLength n r ≤ 10 * n := by
  have hfloor : ⌊(n : K) * r⌋ ≤ 10 * n := by
    have hmul : (n : K) * r ≤ (n : K) * 10 := mul_le_mul_of_nonneg_left hten (Nat.cast_nonneg n)
    have hle : (⌊(n : K) * r⌋ : K) ≤ ((10 * n : ℤ) : K) := by
      push_cast
      linarith [Int.floor_le ((n : K) * r)]
    exact_mod_cast hle
  rw [wholeLength]
  omega

/-- A photo in its whole lengths. -/
def wholeSize (photo : Size) (r : K) : Size :=
  ⟨wholeLength photo.width r, wholeLength photo.height r⟩

/-- Both sides of an extent are one pixel or more, and ten times those of a photo or
less. -/
def Size.WithinTenfold (photo s : Size) : Prop :=
  (1 ≤ s.width ∧ s.width ≤ 10 * photo.width) ∧ 1 ≤ s.height ∧ s.height ≤ 10 * photo.height

/-- **A resized photo** has at least one pixel on each side, and at most ten
times as many as before, and so it would have if its sides were not cut off. -/
theorem resizedSize_bounds {photo : Size} (hw : 1 ≤ photo.width) (hh : 1 ≤ photo.height)
    (hr : 0 ≤ r) (hten : r ≤ 10) :
    photo.WithinTenfold (wholeSize photo r) ∧
      photo.WithinTenfold (resizedSize photo (number r)) := by
  have hwidth := wholeLength_bounds hw hten
  have hheight := wholeLength_bounds hh hten
  refine ⟨⟨hwidth, hheight⟩, ?_⟩
  simp only [Size.WithinTenfold, resizedSize, resizedLength_number _ hr, UInt32.size]
  omega

/-- **The laws of the factor.** For every object, on every canvas and at every
scale above zero, also for an object without extent: the factor is a number of
the range, and a larger scale has no smaller one. An object without extent gets the
greatest. Any other wants the number that makes its limiting side as long as was
asked for, and the factor is this number, moved into the range; one of the range is
the factor. The factor is the same on exchanged axes. By it
no side of a photo vanishes, and none grows to more than ten times its length; each
is the whole part of the product, or one pixel, as far as thirty-two bits can count
it. -/
theorem resizeRatio_laws (b : Bounds) (canvas : Size) (scale : K) (hw : 1 ≤ canvas.width)
    (hh : 1 ≤ canvas.height) (hscale : 0 < scale) :
    ∃ r : K, resizeRatio b canvas (number scale) = number r ∧ 1 / 10 ≤ r ∧ r ≤ 10 ∧
      (∀ scale', scale ≤ scale' →
        ∃ r' : K, resizeRatio b canvas (number scale') = number r' ∧ r ≤ r') ∧
      ((limitingSides b canvas).1 = 0 → r = 10) ∧
      ((limitingSides b canvas).1 ≠ 0 →
        ∃ w : K, wantedRatio b canvas (number scale) = number w ∧
          w * (limitingSides b canvas).1 = scale * (limitingSides b canvas).2 ∧
          r = max (1 / 10) (min 10 w) ∧ (1 / 10 ≤ w → w ≤ 10 → r = w)) ∧
      resizeRatio b.transpose canvas.transpose (number scale) = number r ∧
      ∀ photo : Size, 1 ≤ photo.width → 1 ≤ photo.height →
        let resized := resizedSize photo (resizeRatio b canvas (number scale))
        resized = ⟨min (UInt32.size - 1) (wholeSize photo r).width,
            min (UInt32.size - 1) (wholeSize photo r).height⟩ ∧
          photo.WithinTenfold (wholeSize photo r) ∧ photo.WithinTenfold resized := by
  obtain ⟨r, hr, hleast, hgreatest⟩ := exists_resizeRatio hw hh hscale b
  have hnonneg : 0 ≤ r := le_trans (by norm_num) hleast
  refine ⟨r, hr, hleast, hgreatest, fun scale' h => resizeRatio_mono hw hh hscale h hr,
    fun hzero => ?_, fun hextent => ?_, ?_, fun photo hpw hph => ?_⟩
  · rw [resizeRatio_infinity hzero (limitingSides_pos hw hh b) hscale] at hr
    exact (number.inj hr).symm
  · have hwanted : wantedRatio b canvas (number scale) = number _ := wantedRatio_number hextent
    have hmoved := number.inj (hr.symm.trans (resizeRatio_of_wanted hwanted))
    refine ⟨_, hwanted, mul_limiting_eq hextent scale, hmoved, fun hlow hhigh => ?_⟩
    rw [hmoved, min_eq_right hhigh, max_eq_right hlow]
  · rw [resizeRatio_transpose, hr]
  · rw [hr]
    refine ⟨?_, resizedSize_bounds hpw hph hnonneg hgreatest⟩
    rw [resizedSize, resizedLength_number _ hnonneg, resizedLength_number _ hnonneg]
    rfl

/-- On a square canvas the post wants two and a half times its size and gets it, and a
single pixel, which has no extent, gets the greatest factor. -/
theorem resizeRatio_laws_of_post :
    (∃ r : ℚ, resizeRatio post ⟨100, 100⟩ (number (1 / 2 : ℚ)) = number r ∧ r = 5 / 2) ∧
      ∃ r : ℚ, resizeRatio ⟨7, 7, 3, 3⟩ ⟨100, 100⟩ (number (1 / 2 : ℚ)) = number r ∧ r = 10 := by
  have hextent : (limitingSides post ⟨100, 100⟩).1 ≠ 0 := by decide
  obtain ⟨r, hr, -, -, -, -, hside, -⟩ :=
    resizeRatio_laws post ⟨100, 100⟩ (1 / 2 : ℚ) (by decide) (by decide) (by norm_num)
  obtain ⟨r', hr', -, -, -, hten, -⟩ :=
    resizeRatio_laws ⟨7, 7, 3, 3⟩ ⟨100, 100⟩ (1 / 2 : ℚ) (by decide) (by decide) (by norm_num)
  obtain ⟨w, -, hlength, -, hinside⟩ := hside hextent
  have hw : w = 5 / 2 := by
    norm_num [limitingSides, limitedByHeight, post, Bounds.width, Bounds.height] at hlength
    linarith
  refine ⟨⟨r, hr, ?_⟩, r', hr', hten (by decide)⟩
  rw [hinside (by norm_num [hw]) (by norm_num [hw]), hw]

end

end Montage
