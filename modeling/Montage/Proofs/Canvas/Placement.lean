import Montage.Proofs.Extended
import Montage.Canvas.Placement
/-!
# Placement — what fits a canvas, and where it comes to lie

The first part is about the factor by which a photo is resized, in exact
arithmetic with infinities. The side that limits an object always fits the
canvas; `resizeRatio_fits` says when the other one does too.

The second part is about the stretch that is put on a canvas, in exact
arithmetic. Its coordinates are truncated one by one, but only the fraction
`canvas * pos` is no whole number, and there are two cases. Where the centre
lies beyond that fraction the stretch begins at the front of the canvas
(`placeAxis_of_le`), and where it lies before the stretch begins at the front
of the photo (`placeAxis_of_lt`). What remains is arithmetic of whole numbers.
-/

namespace Montage

/-! ## The two sides of an object -/

/-- The side that limits the size of an object, and that side of the canvas. -/
def limitingSides (b : Bounds) (canvas : Size) : Nat × Nat :=
  if limitedByHeight b canvas then (b.height, canvas.height) else (b.width, canvas.width)

/-- The other side of an object, and that side of the canvas. -/
def otherSides (b : Bounds) (canvas : Size) : Nat × Nat :=
  if limitedByHeight b canvas then (b.width, canvas.width) else (b.height, canvas.height)

/-- The factor that an object asks for, before it is moved into the range of
factors. -/
def wantedRatio {α : Type} [Scalar α] (b : Bounds) (canvas : Size) (scale : α) : α :=
  Scalar.ofNat (limitingSides b canvas).2 / Scalar.ofNat (limitingSides b canvas).1 * scale

theorem resizeRatio_eq {α : Type} [Scalar α] (b : Bounds) (canvas : Size) (scale : α) :
    resizeRatio b canvas scale =
      Scalar.clamp leastRatio greatestRatio (wantedRatio b canvas scale) := by
  rw [resizeRatio, wantedRatio, limitingSides]
  cases limitedByHeight b canvas <;> rfl

/-- No side of an object is longer than the one that limits it. -/
theorem otherSides_le (b : Bounds) (canvas : Size) :
    (otherSides b canvas).1 ≤ (limitingSides b canvas).1 := by
  rw [otherSides, limitingSides, limitedByHeight]
  split
  · next h =>
    simp only [Bool.or_eq_true, Bool.and_eq_true, decide_eq_true_eq, beq_iff_eq] at h
    show b.width ≤ b.height
    omega
  · next h =>
    simp only [Bool.or_eq_true, Bool.and_eq_true, decide_eq_true_eq, beq_iff_eq] at h
    show b.height ≤ b.width
    omega

theorem limitingSides_pos {canvas : Size} (hw : 1 ≤ canvas.width) (hh : 1 ≤ canvas.height)
    (b : Bounds) : 0 < (limitingSides b canvas).2 := by
  rw [limitingSides]
  split
  · exact hh
  · exact hw

section

variable {K : Type} [Field K] [LinearOrder K] [FloorRing K]
variable {b : Bounds} {canvas : Size} {scale : K}

open Extended

theorem leastRatio_extended : (leastRatio : Extended K) = number (1 / 10) := by
  show number (((1 : ℕ) : K) / 10 ^ 1) = number (1 / 10)
  rw [Nat.cast_one, pow_one]

theorem greatestRatio_extended : (greatestRatio : Extended K) = number 10 := by
  rw [greatestRatio, ofNat_extended, Nat.cast_ofNat]

/-- An object with extent asks for a number. -/
theorem wantedRatio_number (h : (limitingSides b canvas).1 ≠ 0) :
    wantedRatio b canvas (number scale) =
      number ((limitingSides b canvas).2 / (limitingSides b canvas).1 * scale) := by
  rw [wantedRatio, ofNat_extended, ofNat_extended, number_div (Nat.cast_ne_zero.mpr h), number_mul]

/-- Whichever side limits an object, it fits a canvas when both of them do. -/
theorem fits_of_sides {K : Type} [Semiring K] [LE K] {r : K}
    (hlimiting : r * (limitingSides b canvas).1 ≤ (limitingSides b canvas).2)
    (hother : r * (otherSides b canvas).1 ≤ (otherSides b canvas).2) :
    r * b.width ≤ canvas.width ∧ r * b.height ≤ canvas.height := by
  rw [limitingSides] at hlimiting
  rw [otherSides] at hother
  cases h : limitedByHeight b canvas with
  | true =>
    simp only [h, if_true] at hlimiting hother
    exact ⟨hother, hlimiting⟩
  | false =>
    simp only [h, Bool.false_eq_true, if_false] at hlimiting hother
    exact ⟨hlimiting, hother⟩

variable [IsStrictOrderedRing K]

/-- An object without extent asks for infinity. -/
theorem wantedRatio_infinity (h : (limitingSides b canvas).1 = 0)
    (hcanvas : 0 < (limitingSides b canvas).2) (hscale : 0 < scale) :
    wantedRatio b canvas (number scale) = infinity true := by
  rw [wantedRatio, ofNat_extended, ofNat_extended, h, Nat.cast_zero,
    number_div_zero (Nat.cast_pos.mpr hcanvas), infinity_mul hscale]

/-- The factor for an object with extent that asks for the least one or more. -/
theorem resizeRatio_number (h : (limitingSides b canvas).1 ≠ 0)
    (hleast : Scalar.le leastRatio (wantedRatio b canvas (number scale)) = true) :
    resizeRatio b canvas (number scale) =
      number (min 10 ((limitingSides b canvas).2 / (limitingSides b canvas).1 * scale)) := by
  rw [wantedRatio_number h, leastRatio_extended, le_number] at hleast
  rw [resizeRatio_eq, wantedRatio_number h, leastRatio_extended, greatestRatio_extended,
    clamp_number (by norm_num), max_eq_right (le_min (by norm_num) hleast)]

/-- The factor for an object without extent. -/
theorem resizeRatio_infinity (h : (limitingSides b canvas).1 = 0)
    (hcanvas : 0 < (limitingSides b canvas).2) (hscale : 0 < scale) :
    resizeRatio b canvas (number scale) = number 10 := by
  rw [resizeRatio_eq, wantedRatio_infinity h hcanvas hscale, leastRatio_extended,
    greatestRatio_extended, clamp_infinity]

omit [FloorRing K] in
/-- A side that is to take up at most all of a side of the canvas fits it. -/
theorem limiting_fits {l l' : K} (hl : 0 < l) (hl' : 0 ≤ l') (hone : scale ≤ 1) :
    min 10 (l' / l * scale) * l ≤ l' :=
  calc min 10 (l' / l * scale) * l
      ≤ l' / l * scale * l := mul_le_mul_of_nonneg_right (min_le_right _ _) hl.le
    _ = l' * scale := by field_simp
    _ ≤ l' := mul_le_of_le_one_right hl' hone

omit [FloorRing K] in
/-- When the other side of an object, `o`, fits the other side of a canvas. -/
theorem other_fits_iff {l l' o o' : K} (hl : 0 < l) (ho : 0 ≤ o) :
    min 10 (l' / l * scale) * o ≤ o' ↔ 10 * o ≤ o' ∨ scale * l' * o ≤ o' * l := by
  have hwanted : l' / l * scale * o = scale * l' * o / l := by ring
  rw [min_mul_of_nonneg _ _ ho, min_le_iff, hwanted, div_le_iff₀ hl]

/-- **What fits a canvas.** Take an object that asks for at least the least
factor, to fill a fraction of a canvas that is above zero and at most one. The
side that limits it fits the canvas. The other one does exactly when it fits at
the greatest factor, or when `scale` times the limiting side of the canvas is, to
the other side of the canvas, in no greater proportion than these sides of the
object are. So the whole object fits a canvas that is at least as long in the
other direction, in proportion, as the object is. -/
theorem resizeRatio_fits (b : Bounds) (canvas : Size) (scale : K) (hw : 1 ≤ canvas.width)
    (hh : 1 ≤ canvas.height) (hscale : 0 < scale) (hone : scale ≤ 1)
    (hleast : Scalar.le leastRatio (wantedRatio b canvas (number scale)) = true) :
    ∃ r : K, resizeRatio b canvas (number scale) = number r ∧
      r * (limitingSides b canvas).1 ≤ (limitingSides b canvas).2 ∧
      (r * (otherSides b canvas).1 ≤ (otherSides b canvas).2 ↔
        (10 : K) * (otherSides b canvas).1 ≤ (otherSides b canvas).2 ∨
        scale * (limitingSides b canvas).2 * (otherSides b canvas).1 ≤
          ((otherSides b canvas).2 * (limitingSides b canvas).1 : K)) ∧
      ((limitingSides b canvas).2 * (otherSides b canvas).1 ≤
          (otherSides b canvas).2 * (limitingSides b canvas).1 →
        r * b.width ≤ canvas.width ∧ r * b.height ≤ canvas.height) := by
  have hcanvas := limitingSides_pos hw hh b
  have hle := otherSides_le b canvas
  by_cases hzero : (limitingSides b canvas).1 = 0
  · -- an object without extent fits at any factor
    have hother : (otherSides b canvas).1 = 0 := by omega
    have hfits : (10 : K) * (limitingSides b canvas).1 ≤ (limitingSides b canvas).2 := by
      rw [hzero, Nat.cast_zero, mul_zero]
      exact Nat.cast_nonneg _
    have hfits' : (10 : K) * (otherSides b canvas).1 ≤ (otherSides b canvas).2 := by
      rw [hother, Nat.cast_zero, mul_zero]
      exact Nat.cast_nonneg _
    exact ⟨10, resizeRatio_infinity hzero hcanvas hscale, hfits,
      iff_of_true hfits' (.inl hfits'), fun _ => fits_of_sides hfits hfits'⟩
  · refine ⟨_, resizeRatio_number hzero hleast, ?_⟩
    have hpos : (0 : K) < (limitingSides b canvas).1 := Nat.cast_pos.mpr (Nat.pos_of_ne_zero hzero)
    have hother : (0 : K) ≤ (otherSides b canvas).1 := Nat.cast_nonneg _
    have hlong : (0 : K) ≤ (limitingSides b canvas).2 := Nat.cast_nonneg _
    have hfits := limiting_fits hpos hlong hone
    refine ⟨hfits, other_fits_iff hpos hother, fun hshape => ?_⟩
    refine fits_of_sides hfits ((other_fits_iff hpos hother).mpr (.inr ?_))
    calc scale * (limitingSides b canvas).2 * (otherSides b canvas).1
        = scale * ((limitingSides b canvas).2 * (otherSides b canvas).1) := mul_assoc ..
      _ ≤ (limitingSides b canvas).2 * (otherSides b canvas).1 :=
          mul_le_of_le_one_left (mul_nonneg hlong hother) hone
      _ ≤ (otherSides b canvas).2 * (limitingSides b canvas).1 := by exact_mod_cast hshape

/-- An object that is twice as tall as wide. -/
def post : Bounds := ⟨0, 10, 0, 20⟩

theorem resizeRatio_fits_of_post :
    Scalar.le leastRatio (wantedRatio post ⟨100, 100⟩ (number (1 / 2 : ℚ))) = true ∧
      ∃ r : ℚ, resizeRatio post ⟨100, 100⟩ (number (1 / 2)) = number r ∧
        r * post.width ≤ 100 ∧ r * post.height ≤ 100 := by
  have hleast : Scalar.le leastRatio (wantedRatio post ⟨100, 100⟩ (number (1 / 2 : ℚ))) = true := by
    decide +kernel
  obtain ⟨r, hr, -, -, hfits⟩ := resizeRatio_fits post ⟨100, 100⟩ (1 / 2 : ℚ) (by decide)
    (by decide) (by norm_num) (by norm_num) hleast
  exact ⟨hleast, r, hr, hfits (by decide)⟩

/-- **The whole object may overhang.** On a narrow canvas the tall object is as
tall as the canvas, and five times as wide. -/
theorem post_overhangs :
    Scalar.le leastRatio (wantedRatio post ⟨10, 100⟩ (number (1 : ℚ))) = true ∧
      resizeRatio post ⟨10, 100⟩ (number (1 : ℚ)) = number 5 ∧
      ¬(5 : ℚ) * post.width ≤ 10 := by
  refine ⟨?_, ?_, ?_⟩ <;> decide +kernel

end

/-! ## Truncated coordinates -/

section

variable {K : Type} [Field K] {center : ℤ} {canvas resized : ℕ} {pos : K}

/-- The place on a canvas that a fraction leads to. -/
def place (canvas : ℕ) (pos : K) : K := canvas * pos

/-- What a place leaves of the canvas. -/
theorem place_one_sub (canvas : ℕ) (pos : K) :
    place canvas (1 - pos) = canvas - place canvas pos := by
  rw [place, place, mul_sub, mul_one]

variable [LinearOrder K]

/-- **A stretch that is in place.** It lies within the photo and within the
canvas. It takes the centre to less than one pixel from its place, and it covers
all of the canvas that the photo reaches, but for the last coordinate where the
place of the centre has a fraction that the photo does not begin before. -/
structure Window.InPlace (w : Window) (center : ℤ) (canvas : ℕ) (pos : K) (resized : ℕ) :
    Prop where
  source_nonneg : 0 ≤ w.source
  target_nonneg : 0 ≤ w.target
  target_le : w.target ≤ canvas
  within : 0 < w.length → w.source + w.length ≤ resized ∧ w.target + w.length ≤ canvas
  centered : |((center - w.source + w.target : ℤ) : K) - place canvas pos| < 1
  covers : ∀ t : ℤ, 0 ≤ t → t < canvas →
    0 ≤ t - w.target + w.source → t - w.target + w.source < resized →
    w.target ≤ t ∧ t < w.target + w.length ∨
      t = canvas - 1 ∧ center < place canvas pos ∧ ∀ n : ℤ, place canvas pos - center ≠ n

/-- Of a stretch that is in place no pair is passed over. -/
theorem Window.InPlace.pairs_eq {w : Window} (h : w.InPlace center canvas pos resized) :
    w.pairs resized canvas =
      (List.range w.length.toNat).map fun (i : ℕ) => ((w.source + i).toNat, (w.target + i).toNat) := by
  have hsource := h.source_nonneg
  have htarget := h.target_nonneg
  rw [pairs, ← List.filterMap_eq_map]
  refine List.filterMap_congr fun i hi => ?_
  have hi := List.mem_range.mp hi
  have hwithin := h.within (by omega)
  refine if_neg ?_
  simp only [Bool.or_eq_true, decide_eq_true_eq]
  omega

variable [IsStrictOrderedRing K]

theorem place_nonneg (canvas : ℕ) (h : 0 ≤ pos) : 0 ≤ place canvas pos :=
  mul_nonneg (Nat.cast_nonneg _) h

variable [FloorRing K]

/-- The whole numbers on either side of a place. -/
theorem place_bounds (canvas : ℕ) (hzero : 0 ≤ pos) (hone : pos ≤ 1) :
    0 ≤ ⌊place canvas pos⌋ ∧ ⌊place canvas pos⌋ ≤ ⌈place canvas pos⌉ ∧
      ⌈place canvas pos⌉ ≤ ⌊place canvas pos⌋ + 1 ∧ ⌈place canvas pos⌉ ≤ canvas := by
  refine ⟨Int.floor_nonneg.mpr (place_nonneg canvas hzero), Int.floor_le_ceil _,
    Int.ceil_le_floor_add_one _, Int.ceil_le.mpr ?_⟩
  rw [Int.cast_natCast]
  exact mul_le_of_le_one_right (Nat.cast_nonneg _) hone

attribute [local instance] Scalar.exact

omit [IsStrictOrderedRing K] in
theorem mul_eq_place (canvas : ℕ) (pos : K) : (canvas : K) * pos = place canvas pos := rfl

/-- Where a stretch ends in the photo, if the photo does not end before. -/
theorem truncate_stop (hcenter : 0 ≤ center) (hpos : pos ≤ 1) :
    Scalar.truncate (min ((center : K) + place canvas (1 - pos)) (resized : K)) =
      min (center + canvas - ⌈place canvas pos⌉) resized := by
  have hcenter : (0 : K) ≤ center := Int.cast_nonneg hcenter
  have hend : 0 ≤ (center : K) + place canvas (1 - pos) :=
    add_nonneg hcenter (place_nonneg canvas (sub_nonneg.mpr hpos))
  have hplace : (center : K) + place canvas (1 - pos) =
      ((center + canvas : ℤ) : K) + -place canvas pos := by
    rw [place_one_sub]
    push_cast
    ring
  rw [Scalar.truncate_of_nonneg (le_min hend (Nat.cast_nonneg _)), Int.floor_mono.map_min,
    Int.floor_natCast, hplace, Int.floor_intCast_add, Int.floor_neg, sub_eq_add_neg]

/-- A stretch whose centre lies at or beyond its place on the canvas begins at
the front of the canvas. -/
theorem placeAxis_of_le (hcenter : 0 ≤ center) (hpos : pos ≤ 1)
    (h : place canvas pos ≤ center) :
    placeAxis center canvas pos resized =
      { source := center - ⌈place canvas pos⌉
        target := 0
        length := max (min (center + canvas - ⌈place canvas pos⌉) resized -
          (center - ⌈place canvas pos⌉)) 0 } := by
  have hsource : Scalar.truncate (max ((center : K) - place canvas pos) 0) =
      center - ⌈place canvas pos⌉ := by
    rw [max_eq_left (sub_nonneg.mpr h), Scalar.truncate_of_nonneg (sub_nonneg.mpr h),
      sub_eq_add_neg, Int.floor_intCast_add, Int.floor_neg, sub_eq_add_neg]
  have htarget : Scalar.truncate
      (place canvas pos - ((center - (center - ⌈place canvas pos⌉) : ℤ) : K)) = 0 := by
    refine Scalar.truncate_of_abs_lt_one ?_
    rw [sub_sub_cancel, abs_lt]
    have hlow := Int.ceil_lt_add_one (place canvas pos)
    have hhigh := Int.le_ceil (place canvas pos)
    constructor <;> linarith
  simp only [placeAxis, Scalar.ofNat_exact, Scalar.ofInt_exact, Scalar.one_exact,
    Scalar.zero_exact, Scalar.greatest_exact, Scalar.least_exact, mul_eq_place, hsource, htarget,
    truncate_stop hcenter hpos]

/-- A stretch whose centre lies before its place on the canvas begins at the
front of the photo. -/
theorem placeAxis_of_lt (hcenter : 0 ≤ center) (hpos : pos ≤ 1)
    (h : center < place canvas pos) :
    placeAxis center canvas pos resized =
      { source := 0
        target := ⌊place canvas pos⌋ - center
        length := max (min (center + canvas - ⌈place canvas pos⌉) resized - 0) 0 } := by
  have hsource : Scalar.truncate (max ((center : K) - place canvas pos) 0) = 0 := by
    rw [max_eq_right (sub_nonpos.mpr h.le), Scalar.truncate_of_nonneg le_rfl, Int.floor_zero]
  have htarget : Scalar.truncate (place canvas pos - ((center - 0 : ℤ) : K)) =
      ⌊place canvas pos⌋ - center := by
    rw [sub_zero, Scalar.truncate_of_nonneg (sub_nonneg.mpr h.le), Int.floor_sub_intCast]
  simp only [placeAxis, Scalar.ofNat_exact, Scalar.ofInt_exact, Scalar.one_exact,
    Scalar.zero_exact, Scalar.greatest_exact, Scalar.least_exact, mul_eq_place, hsource, htarget,
    truncate_stop hcenter hpos]

/-- **Placement on one axis.** The stretch that puts a centre at a fraction of
the canvas is in place, whatever is cut off where, and none of its pairs is
passed over. -/
theorem placeAxis_inPlace (hcenter : 0 ≤ center) (hzero : 0 ≤ pos) (hone : pos ≤ 1)
    (canvas resized : ℕ) :
    (placeAxis center canvas pos resized).InPlace center canvas pos resized ∧
      (placeAxis center canvas pos resized).pairs resized canvas =
        (List.range (placeAxis center canvas pos resized).length.toNat).map fun (i : ℕ) =>
          (((placeAxis center canvas pos resized).source + i).toNat,
            ((placeAxis center canvas pos resized).target + i).toNat) := by
  suffices h : (placeAxis center canvas pos resized).InPlace center canvas pos resized from
    ⟨h, h.pairs_eq⟩
  obtain ⟨hfloor, hle, hceil, hcanvas⟩ := place_bounds canvas hzero hone
  have hlow := Int.floor_le (place canvas pos)
  have hlow' := Int.lt_floor_add_one (place canvas pos)
  have hhigh := Int.le_ceil (place canvas pos)
  have hhigh' := Int.ceil_lt_add_one (place canvas pos)
  rcases le_or_gt (place canvas pos) center with h | h
  · -- the stretch begins at the front of the canvas
    have hbefore : ⌈place canvas pos⌉ ≤ center := Int.ceil_le.mpr h
    rw [placeAxis_of_le hcenter hone h]
    refine ⟨sub_nonneg.mpr hbefore, le_rfl, Nat.cast_nonneg _, ?_, ?_, ?_⟩
    · simp only
      omega
    · rw [abs_lt]
      push_cast
      constructor <;> linarith
    · intro t ht ht' hs hs'
      simp only at hs hs' ⊢
      omega
  · -- the stretch begins at the front of the photo
    have hbefore : center ≤ ⌊place canvas pos⌋ := Int.le_floor.mpr h.le
    rw [placeAxis_of_lt hcenter hone h]
    refine ⟨le_rfl, sub_nonneg.mpr hbefore, ?_, ?_, ?_, ?_⟩
    · simp only
      omega
    · simp only
      omega
    · rw [abs_lt]
      push_cast
      constructor <;> linarith
    · intro t ht ht' hs hs'
      simp only at hs hs' ⊢
      rcases hceil.lt_or_eq with hwhole | hfraction
      · left
        omega
      · by_cases hlast : t = canvas - 1
        · refine .inr ⟨hlast, h, fun n hn => ?_⟩
          -- a whole number has its floor and its ceiling in one
          have hplace : place canvas pos = ((center + n : ℤ) : K) := by
            push_cast
            linarith
          rw [hplace, Int.ceil_intCast, Int.floor_intCast] at hfraction
          omega
        · left
          omega

theorem placeAxis_inPlace_of_fraction :
    (placeAxis 3 10 (7 / 20 : ℚ) 50).InPlace 3 10 (7 / 20 : ℚ) 50 ∧
      placeAxis 3 10 (7 / 20 : ℚ) 50 = ⟨0, 0, 9⟩ :=
  ⟨(placeAxis_inPlace (by decide) (by norm_num) (by norm_num) 10 50).1, by decide +kernel⟩

end

end Montage
