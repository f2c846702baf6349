import Montage.Proofs.Exact
import Montage.Proofs.Canvas.Reflection
/-!
# Fading — how a reflection runs out into the background

A painted pixel shows the background mixed over the colour that it mirrors
(`PaintedFrom.get?_paintReflection`), and no other pixel changes
(`get?_paintReflection_of_not_painted`). As the weight of the background grows, each
channel moves from that colour to the background and stays between them
(`PaintedFrom.movesOn`). This is so in any arithmetic, since it looks at nothing but
the weights.

In exact arithmetic, what the background is short of its full weight in a row is a
product: what it is short of it at the top, and the part of the rows that is still to
come (`toNat_fade`). Neither factor is negative. The first one shrinks as the opacity
falls and the second one from row to row, and cutting off a fraction keeps order. So
the weight grows down the reflection and with a falling opacity (`fade_le_fade`), from
what the opacity leaves at the top (`fade_first`) to the full weight in the last row
(`fade_last`).

`reflection_fades` collects this.
-/

namespace Montage

/-! ## Painted pixels -/

/-- The rows that a reflection has room for, down to the end of the canvas. -/
def reflectionRows (mask : Mask) (b : Bounds) : ℕ := mask.height - reflectionTop b

/-- A pixel of the canvas is painted, in row `k` of a reflection, over a colour of
the object: it mirrors a pixel of that colour, and is not in the object's last
column. -/
structure PaintedFrom (cutout : Photo) (mask : Mask) (b : Bounds) (c : Rgb) (x y k : ℕ) :
    Prop where
  mirrors : mask.Mirrors b x y k
  column : x ≠ b.xmax
  source : cutout.get? x (b.ymax - k) = some c

/-- Of two pixels that are painted over one colour both lie between it and the
background in each channel, and the second one is nowhere farther from the
background. -/
def MovesOn (c background : Rgb) (first second : Option Rgb) : Prop :=
  ∃ d d', first = some d ∧ second = some d' ∧ ∀ channel ∈ Rgb.channels,
    InOrder (channel c) (channel d) (channel d') (channel background)

section

variable {cutout : Photo} {mask : Mask} {b : Bounds} {c : Rgb} {x y k x' y' k' : ℕ}
variable {α : Type} [Scalar α]

theorem PaintedFrom.lt_rows (h : PaintedFrom cutout mask b c x y k) :
    k < reflectionRows mask b :=
  lt_of_lt_of_le h.mirrors.2.1 (min_le_left _ _)

/-- **A painted pixel** shows the background over the colour that it mirrors. -/
theorem PaintedFrom.get?_paintReflection (h : PaintedFrom cutout mask b c x y k)
    (hsize : cutout.size = mask.size) (hb : b.Least mask.setPixels) (background : Rgb)
    (opacity : α) :
    (paintReflection cutout mask b background opacity).get? x y =
      some (Rgb.mixed (fade k (reflectionRows mask b) opacity) background c) := by
  obtain ⟨c', hc', hshown⟩ :=
    get?_paintReflection_of_mirrors hsize hb h.mirrors h.column background opacity
  rw [h.source] at hc'
  cases hc'
  exact hshown

/-- All other pixels stay as they were. -/
theorem get?_paintReflection_of_not_painted (h : ∀ c k, ¬PaintedFrom cutout mask b c x y k)
    (hsize : cutout.size = mask.size) (hb : b.Least mask.setPixels) (background : Rgb)
    (opacity : α) :
    (paintReflection cutout mask b background opacity).get? x y = cutout.get? x y := by
  refine get?_paintReflection_of_unpainted hsize ?_ background opacity
  by_cases hx : x = b.xmax
  · exact .inl hx
  · refine .inr fun k hmirrors => ?_
    obtain ⟨c, hc, -⟩ :=
      get?_paintReflection_of_mirrors hsize hb hmirrors hx background opacity
    exact h c k ⟨hmirrors, hx, hc⟩

/-- **As the weight grows a painted pixel moves on** to the background. -/
theorem PaintedFrom.movesOn (h : PaintedFrom cutout mask b c x y k)
    (h' : PaintedFrom cutout mask b c x' y' k') (hsize : cutout.size = mask.size)
    (hb : b.Least mask.setPixels) (background : Rgb) {opacity opacity' : α}
    (hweight : fade k (reflectionRows mask b) opacity ≤
      fade k' (reflectionRows mask b) opacity') :
    MovesOn c background ((paintReflection cutout mask b background opacity).get? x y)
      ((paintReflection cutout mask b background opacity').get? x' y') := by
  refine ⟨_, _, h.get?_paintReflection hsize hb background opacity,
    h'.get?_paintReflection hsize hb background opacity', fun channel hchannel => ?_⟩
  exact Rgb.inOrder_mixed hchannel hweight background c

end

/-! ## Weights -/

section

variable {K : Type} [Field K] [LinearOrder K] [IsStrictOrderedRing K] [FloorRing K]
variable {rows row row' : ℕ} {opacity opacity' : K}

/-- The weight that the opacity leaves to the background at the top of a
reflection. -/
def topWeight (opacity : K) : ℤ := ⌊255 * (100 - opacity) / 100⌋

theorem topWeight_nonneg (hhigh : opacity ≤ 100) : 0 ≤ topWeight opacity :=
  Int.floor_nonneg.mpr (by linarith)

theorem topWeight_le (hlow : 0 ≤ opacity) : topWeight opacity ≤ 255 := by
  have hle : ⌊255 * (100 - opacity) / 100⌋ ≤ ⌊(255 : K)⌋ := Int.floor_mono (by linarith)
  rwa [Int.floor_ofNat] at hle

theorem topWeight_antitone : Antitone (topWeight : K → ℤ) := by
  intro opacity' opacity h
  exact Int.floor_mono (by linarith)

/-- The part of the rows of a reflection that is still to come. -/
def partToCome (K : Type) [Field K] (row rows : ℕ) : K := 1 - row / (rows - 1 : ℕ)

theorem partToCome_nonneg (hrow : row < rows) : 0 ≤ partToCome K row rows := by
  have hle : (row : K) ≤ (rows - 1 : ℕ) := Nat.cast_le.mpr (Nat.le_sub_one_of_lt hrow)
  exact sub_nonneg.mpr (div_le_one_of_le₀ hle (Nat.cast_nonneg _))

theorem partToCome_le (hrow : row ≤ row') : partToCome K row' rows ≤ partToCome K row rows :=
  sub_le_sub_left (div_le_div_of_nonneg_right (Nat.cast_le.mpr hrow) (Nat.cast_nonneg _)) 1

attribute [local instance] Scalar.exact

/-- A reflection that is one row high is all background, in any arithmetic. -/
theorem fade_of_le_one {α : Type} [Scalar α] (h : rows ≤ 1) (row : ℕ) (opacity : α) :
    fade row rows opacity = 255 := if_pos h

/-- **The weight in a row** is the full one but for a part of what it is short of at
the top. -/
theorem toNat_fade (hrows : 1 < rows) (row : ℕ) (opacity : K) :
    (fade row rows opacity).toNat =
      min 255 ⌊255 - (255 - topWeight opacity) * partToCome K row rows⌋₊ := by
  have hline : (topWeight opacity : K) + (255 - topWeight opacity) * (row / (rows - 1 : ℕ)) =
      255 - (255 - topWeight opacity) * partToCome K row rows := by
    rw [partToCome]
    ring
  rw [← hline, ← Scalar.toNat_truncate]
  simp only [fade, if_neg (Nat.not_le.mpr hrows), Scalar.ofNat_exact, Scalar.floor_exact,
    Nat.cast_ofNat]
  exact UInt8.toNat_ofNat_of_lt' (Nat.lt_succ_of_le (min_le_left 255 _))

/-- **The weight grows** down the reflection, and as the opacity falls. -/
theorem fade_le_fade (hrow : row ≤ row') (hrow' : row' < rows) (hlow : 0 ≤ opacity)
    (hfalls : opacity' ≤ opacity) : fade row rows opacity ≤ fade row' rows opacity' := by
  rcases Nat.lt_or_ge 1 rows with hrows | hrows
  · have htop : (topWeight opacity : K) ≤ topWeight opacity' :=
      Int.cast_le.mpr (topWeight_antitone hfalls)
    have hfull : (topWeight opacity : K) ≤ 255 := by exact_mod_cast topWeight_le hlow
    -- no weight at the top is more than full, and the later row is one of the
    -- reflection, so that neither factor is negative
    have hshort : (255 - topWeight opacity') * partToCome K row' rows ≤
        (255 - topWeight opacity) * partToCome K row rows :=
      mul_le_mul (by linarith) (partToCome_le hrow) (partToCome_nonneg hrow') (by linarith)
    rw [UInt8.le_iff_toNat_le, toNat_fade hrows, toNat_fade hrows]
    exact min_le_min_left 255 (Nat.floor_mono (by linarith))
  · rw [fade_of_le_one hrows, fade_of_le_one hrows]
    exact UInt8.le_refl 255

/-- **In the first row it is what the opacity leaves.** -/
theorem fade_first (hrows : 1 < rows) (hlow : 0 ≤ opacity) (hhigh : opacity ≤ 100) :
    ((fade 0 rows opacity).toNat : ℤ) = topWeight opacity := by
  have hline : 255 - (255 - topWeight opacity) * partToCome K 0 rows = topWeight opacity := by
    rw [partToCome]
    ring
  have hnonneg := topWeight_nonneg hhigh
  have hle := topWeight_le hlow
  rw [toNat_fade hrows, hline, ← Int.floor_toNat, Int.floor_intCast]
  omega

/-- **In the last row it is the full one.** -/
theorem fade_last (rows : ℕ) (opacity : K) : fade (rows - 1) rows opacity = 255 := by
  rcases Nat.lt_or_ge 1 rows with hrows | hrows
  · have hne : ((rows - 1 : ℕ) : K) ≠ 0 := Nat.cast_ne_zero.mpr (by omega)
    have hline : 255 - (255 - topWeight opacity) * partToCome K (rows - 1) rows = (255 : K) := by
      rw [partToCome, div_self hne, sub_self, mul_zero, sub_zero]
    rw [← UInt8.toNat_inj, toNat_fade hrows, hline, Nat.floor_ofNat]
    rfl
  · exact fade_of_le_one hrows _ _

/-! ## The law -/

/-- **A reflection fades into the background.** In exact arithmetic, and with at least
two rows, the weight of the background is in the first row what the opacity leaves to
it, full in the last row, and between the two in all others. It shrinks neither from
row to row nor as the opacity falls.

Take a cutout, a mask of its extent that is not blank, and the least rectangle that
holds the object. At every opacity above zero the reflection is painted, and pixels
that are not painted stay as they were. Of two pixels that are painted over the same
colour, in any arithmetic, the one with the greater weight has moved on to the
background in each channel, and not past it. So, in exact arithmetic, has the one that
is farther down, or painted with less opacity. -/
theorem reflection_fades :
    (∀ rows : ℕ, 2 ≤ rows → ∀ opacity : K, 0 ≤ opacity → opacity ≤ 100 →
      (∀ row ≤ rows - 1,
        ⌊255 * (100 - opacity) / 100⌋ ≤ ((fade row rows opacity).toNat : ℤ) ∧
          (fade row rows opacity).toNat ≤ 255) ∧
      ((fade 0 rows opacity).toNat : ℤ) = ⌊255 * (100 - opacity) / 100⌋ ∧
      (fade (rows - 1) rows opacity).toNat = 255 ∧
      (∀ row row', row ≤ row' → row' ≤ rows - 1 →
        fade row rows opacity ≤ fade row' rows opacity) ∧
      ∀ opacity', opacity ≤ opacity' → opacity' ≤ 100 → ∀ row ≤ rows - 1,
        fade row rows opacity' ≤ fade row rows opacity) ∧
    ∀ (cutout : Photo) (mask : Mask), cutout.size = mask.size → ¬mask.Blank →
      ∃ b : Bounds, b.Least mask.setPixels ∧ ∀ background : Rgb,
        (∀ opacity : Float, 0.0 < opacity → opacity ≤ 100.0 →
          addReflection cutout mask background opacity =
            .ok (paintReflection cutout mask b background opacity)) ∧
        (∀ (α : Type) [Scalar α] (opacity : α) (x y : ℕ),
          (∀ c k, ¬PaintedFrom cutout mask b c x y k) →
          (paintReflection cutout mask b background opacity).get? x y = cutout.get? x y) ∧
        ∀ c x y k x' y' k', PaintedFrom cutout mask b c x y k →
          PaintedFrom cutout mask b c x' y' k' →
          (∀ (α : Type) [Scalar α] (opacity opacity' : α),
            fade k (reflectionRows mask b) opacity ≤
              fade k' (reflectionRows mask b) opacity' →
            MovesOn c background ((paintReflection cutout mask b background opacity).get? x y)
              ((paintReflection cutout mask b background opacity').get? x' y')) ∧
          ∀ opacity opacity' : K, k ≤ k' → 0 ≤ opacity' → opacity' ≤ opacity → opacity ≤ 100 →
            MovesOn c background ((paintReflection cutout mask b background opacity).get? x y)
              ((paintReflection cutout mask b background opacity').get? x' y') := by
  refine ⟨fun rows hrows opacity hlow hhigh => ?_, fun cutout mask hsize hmask => ?_⟩
  · have hfirst : ((fade 0 rows opacity).toNat : ℤ) = ⌊255 * (100 - opacity) / 100⌋ :=
      fade_first hrows hlow hhigh
    refine ⟨fun row hrow => ⟨?_, weight_le _⟩, hfirst, ?_, ?_, ?_⟩
    · have hgrown : fade 0 rows opacity ≤ fade row rows opacity :=
        fade_le_fade (Nat.zero_le row) (by omega) hlow le_rfl
      rw [← hfirst]
      exact_mod_cast UInt8.le_iff_toNat_le.mp hgrown
    · exact congrArg UInt8.toNat (fade_last rows opacity)
    · intro row row' hrow hrow'
      exact fade_le_fade hrow (by omega) hlow le_rfl
    · intro opacity' hfalls _ row hrow
      exact fade_le_fade le_rfl (by omega) (hlow.trans hfalls) hfalls
  · obtain ⟨b, hb⟩ := Raster.exists_bounds hmask
    have hleast := Raster.least_bounds hb
    refine ⟨b, hleast, fun background => ⟨fun opacity hlow hhigh => ?_, ?_, ?_⟩⟩
    · exact addReflection_of_pos hsize hb background hlow hhigh
    · intro α _ opacity x y hnone
      exact get?_paintReflection_of_not_painted hnone hsize hleast background opacity
    intro c x y k x' y' k' h h'
    refine ⟨fun α _ opacity opacity' hweight => ?_, fun opacity opacity' hk hlow hfalls _ => ?_⟩
    · exact h.movesOn h' hsize hleast background hweight
    · refine h.movesOn h' hsize hleast background ?_
      exact fade_le_fade hk h'.lt_rows (hlow.trans hfalls) hfalls

/-- At half the opacity a reflection of eleven rows starts with a weight of 127. The red
pixel of the stripe is painted, and moves on to white as the opacity falls. -/
theorem reflection_fades_of_stripe :
    (fade 0 11 (50 : ℚ)).toNat = 127 ∧ (fade 10 11 (50 : ℚ)).toNat = 255 ∧
      fade 3 11 (100 : ℚ) ≤ fade 3 11 (50 : ℚ) ∧
      (∃ out, addReflection (stripe 2) (stripeMask 2) .white 25.0 = .ok out ∧
        MovesOn ⟨255, 0, 0⟩ .white (out.get? 0 10) (out.get? 0 10)) ∧
      MovesOn ⟨255, 0, 0⟩ .white
        ((paintReflection (stripe 2) (stripeMask 2) ⟨0, 1, 0, 0⟩ .white (100 : ℚ)).get? 0 10)
        ((paintReflection (stripe 2) (stripeMask 2) ⟨0, 1, 0, 0⟩ .white (50 : ℚ)).get? 0 10) := by
  obtain ⟨hweights, hpainted⟩ := reflection_fades (K := ℚ)
  obtain ⟨-, hfirst, hlast, -, hfalls⟩ :=
    hweights 11 (by decide) 50 (by norm_num) (by norm_num)
  have htop : ⌊255 * (100 - (50 : ℚ)) / 100⌋ = 127 := by decide +kernel
  rw [htop] at hfirst
  have hblank : ¬(stripeMask 2).Blank := fun h => absurd (h 0 0 255 rfl) (by decide)
  obtain ⟨b, hb, hall⟩ := hpainted (stripe 2) (stripeMask 2) rfl hblank
  obtain rfl : b = ⟨0, 1, 0, 0⟩ := hb.unique (Raster.least_bounds rfl)
  obtain ⟨hreflection, -, hmoves⟩ := hall .white
  have hfrom : PaintedFrom (stripe 2) (stripeMask 2) ⟨0, 1, 0, 0⟩ ⟨255, 0, 0⟩ 0 10 0 :=
    ⟨⟨rfl, by decide, 255, rfl, by decide⟩, by decide, rfl⟩
  obtain ⟨hany, hexact⟩ := hmoves _ _ _ _ _ _ _ hfrom hfrom
  refine ⟨by exact_mod_cast hfirst, hlast, hfalls 100 (by norm_num) le_rfl 3 (by decide), ?_, ?_⟩
  · exact ⟨_, hreflection 25.0 (by decide) (by decide), hany Float 25.0 25.0 (UInt8.le_refl _)⟩
  · exact hexact 100 50 le_rfl (by norm_num) (by norm_num) le_rfl

end

end Montage
