import Montage.Command.Override
/-!
# Overrides — two ways to one placement

Overrides replace fields of a placement, or of the treatment of an object, from which
its placement follows once the photo is known. Both ways lead to one placement
(`placement_applyToSegmentation`). A side of the canvas that is not given is read from
different places on the two ways, and it is the same side: a treatment with overrides
asks for the overridden sides of the canvas that it would have had
(`getD_canvas_applyToSegmentation`), also when it leaves the canvas to the photo.

Overrides that follow others replace what these gave, so two of them are one
(`Overrides.followedBy`), on both ways.
-/

namespace Montage

namespace Overrides

variable {o o' : Overrides} {p : PlacementSpec} {s : SegmentationSpec} {photo : Size}

/-- The overrides with later ones behind them. A field that is given twice has its
later value. -/
def followedBy (o o' : Overrides) : Overrides where
  width := o'.width.or o.width
  height := o'.height.or o.height
  scale := o'.scale.or o.scale
  posX := o'.posX.or o.posX
  posY := o'.posY.or o.posY

/-! ## The canvas -/

theorem fixesCanvas_eq_false_iff : o.fixesCanvas = false ↔ o.width = none ∧ o.height = none := by
  rw [fixesCanvas, Bool.or_eq_false_iff, Option.isSome_eq_false_iff, Option.isSome_eq_false_iff,
    Option.isNone_iff_eq_none, Option.isNone_iff_eq_none]

/-- A canvas is fixed as soon as one of two overrides does so. -/
theorem fixesCanvas_followedBy (o o' : Overrides) :
    (o.followedBy o').fixesCanvas = (o.fixesCanvas || o'.fixesCanvas) := by
  simp only [fixesCanvas, followedBy, Option.isSome_or]
  ac_rfl

/-- A canvas that is not fixed is the one that was asked for before. -/
theorem canvas_of_not_fixes (h : o.fixesCanvas = false) :
    (o.applyToSegmentation s photo).canvas = s.canvas := by
  rw [applyToSegmentation, h]
  rfl

/-- A canvas that is fixed has the given sides, and the other ones of the canvas that
it would have been. -/
theorem canvas_of_fixes (h : o.fixesCanvas = true) :
    (o.applyToSegmentation s photo).canvas = some
      ⟨o.width.getD (s.canvas.getD photo).width, o.height.getD (s.canvas.getD photo).height⟩ := by
  rw [applyToSegmentation, h]
  rfl

/-- **The canvas of a treatment with overrides**, fixed or not. -/
theorem getD_canvas_applyToSegmentation (o : Overrides) (s : SegmentationSpec) (photo : Size) :
    (o.applyToSegmentation s photo).canvas.getD photo =
      ⟨o.width.getD (s.canvas.getD photo).width, o.height.getD (s.canvas.getD photo).height⟩ := by
  cases hfixed : o.fixesCanvas with
  | true => rw [canvas_of_fixes hfixed, Option.getD_some]
  | false =>
    obtain ⟨hwidth, hheight⟩ := fixesCanvas_eq_false_iff.mp hfixed
    rw [canvas_of_not_fixes hfixed, hwidth, hheight]
    rfl

/-- Nothing but a given side fixes a canvas that was left to the photo. -/
theorem canvas_applyToSegmentation_eq_none_iff :
    (o.applyToSegmentation s photo).canvas = none ↔
      s.canvas = none ∧ o.width = none ∧ o.height = none := by
  rw [← fixesCanvas_eq_false_iff]
  cases hfixed : o.fixesCanvas with
  | true => simp [canvas_of_fixes hfixed]
  | false => simp [canvas_of_not_fixes hfixed]

/-! ## One way and the other -/

/-- **Both ways lead to one placement.** -/
theorem placement_applyToSegmentation (o : Overrides) (s : SegmentationSpec) (photo : Size) :
    (o.applyToSegmentation s photo).placement photo = o.apply (s.placement photo) := by
  rw [SegmentationSpec.placement, getD_canvas_applyToSegmentation]
  rfl

/-! ## One after the other -/

theorem apply_apply (o o' : Overrides) (p : PlacementSpec) :
    o'.apply (o.apply p) = (o.followedBy o').apply p := by
  simp only [apply, followedBy, Option.getD_or]

theorem canvas_applyToSegmentation_followedBy (o o' : Overrides) (s : SegmentationSpec)
    (photo : Size) :
    (o'.applyToSegmentation (o.applyToSegmentation s photo) photo).canvas =
      ((o.followedBy o').applyToSegmentation s photo).canvas := by
  have hboth := fixesCanvas_followedBy o o'
  cases hfixed : o'.fixesCanvas with
  | true =>
    -- the later overrides read the sides that they leave open from the earlier canvas
    rw [hfixed, Bool.or_true] at hboth
    rw [canvas_of_fixes hfixed, canvas_of_fixes hboth, getD_canvas_applyToSegmentation]
    simp only [followedBy, Option.getD_or]
  | false =>
    obtain ⟨hwidth, hheight⟩ := fixesCanvas_eq_false_iff.mp hfixed
    rw [hfixed, Bool.or_false] at hboth
    rw [canvas_of_not_fixes hfixed]
    cases hearlier : o.fixesCanvas with
    | true =>
      rw [canvas_of_fixes hearlier, canvas_of_fixes (hboth.trans hearlier)]
      simp only [followedBy, hwidth, hheight, Option.none_or]
    | false => rw [canvas_of_not_fixes hearlier, canvas_of_not_fixes (hboth.trans hearlier)]

theorem applyToSegmentation_applyToSegmentation (o o' : Overrides) (s : SegmentationSpec)
    (photo : Size) :
    o'.applyToSegmentation (o.applyToSegmentation s photo) photo =
      (o.followedBy o').applyToSegmentation s photo := by
  have hcanvas := canvas_applyToSegmentation_followedBy o o' s photo
  simp only [applyToSegmentation] at hcanvas ⊢
  rw [hcanvas]
  simp only [followedBy, Option.getD_or]

/-- **Overrides lead to one placement on both ways.** Whatever fields they give, and
for every photo: the placement of an object that is treated with overrides is the
placement of the object with the same overrides. What belongs to no placement stays as
it is in the treatment, and so does the canvas if no side of it is given; it is left to
the photo only if it was so before and no side is given. On both ways overrides that
follow others come to the overrides that take each field from the later ones where
these give it, and from the earlier ones where they do not. -/
theorem overrides_commute (o : Overrides) (s : SegmentationSpec) (photo : Size) :
    (o.applyToSegmentation s photo).placement photo = o.apply (s.placement photo) ∧
    ((o.applyToSegmentation s photo).threshold = s.threshold ∧
      (o.applyToSegmentation s photo).straighten = s.straighten ∧
      (o.applyToSegmentation s photo).reflection = s.reflection ∧
      (o.applyToSegmentation s photo).background = s.background) ∧
    (o.width = none → o.height = none → (o.applyToSegmentation s photo).canvas = s.canvas) ∧
    ((o.applyToSegmentation s photo).canvas = none ↔
      s.canvas = none ∧ o.width = none ∧ o.height = none) ∧
    ∀ o' : Overrides,
      (∀ p, o'.apply (o.apply p) = (o.followedBy o').apply p) ∧
      o'.applyToSegmentation (o.applyToSegmentation s photo) photo =
        (o.followedBy o').applyToSegmentation s photo := by
  refine ⟨placement_applyToSegmentation o s photo, ⟨rfl, rfl, rfl, rfl⟩, fun hwidth hheight => ?_,
    canvas_applyToSegmentation_eq_none_iff, fun o' => ⟨apply_apply o o', ?_⟩⟩
  · exact canvas_of_not_fixes (fixesCanvas_eq_false_iff.mpr ⟨hwidth, hheight⟩)
  · exact applyToSegmentation_applyToSegmentation o o' s photo

/-- A width alone, on a photo of 64 by 48 pixels, and a height and another width after
it. Overrides without sides leave the canvas to the photo. -/
theorem overrides_commute_of_sides :
    (Overrides.applyToSegmentation { width := some 30 } {} ⟨64, 48⟩).placement ⟨64, 48⟩ =
        Overrides.apply { width := some 30 } (SegmentationSpec.placement {} ⟨64, 48⟩) ∧
      (Overrides.applyToSegmentation { scale := some 0.5 } {} ⟨64, 48⟩).canvas = none ∧
      Overrides.applyToSegmentation { width := some 20, height := some 10 }
          (Overrides.applyToSegmentation { width := some 30 } {} ⟨64, 48⟩) ⟨64, 48⟩ =
        Overrides.applyToSegmentation { width := some 20, height := some 10 } {} ⟨64, 48⟩ := by
  obtain ⟨hways, -, -, -, htwo⟩ := overrides_commute { width := some 30 } {} ⟨64, 48⟩
  obtain ⟨-, -, hleft, -⟩ := overrides_commute { scale := some 0.5 } {} ⟨64, 48⟩
  exact ⟨hways, hleft rfl rfl, (htwo { width := some 20, height := some 10 }).2⟩

end Overrides

end Montage
