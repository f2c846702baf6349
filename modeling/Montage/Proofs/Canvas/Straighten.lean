import Montage.Canvas.Straighten
import Montage.Proofs.Fault
/-!
# Straightening — why it fails

A photo and a mask that are in step can be straightened unless no shape fits
the object: there is none, its hull does not come down to four sides, or the
four sides lie in no plane that can be seen from the front. Neither settings
nor extents are among the reasons (`straighten_failsOnly`).
-/

namespace Montage

/-- The faults of fitting a shape to an object. -/
inductive Misfit : Fault → Prop
  | noObjectFound : Misfit .noObjectFound
  | noFitFound (remaining : Nat) : Misfit (.noFitFound remaining)
  | hullTooSmall (vertices sides : Nat) : Misfit (.hullTooSmall vertices sides)
  | degenerateQuad : Misfit (.picture .degenerateQuad)

theorem Raster.hull_failsOnly (m : Mask) : FailsOnly Misfit m.hull := by
  refine FailsOnly.map _ ?_
  unfold largestContour
  cases m.binarized.objectBorders.map Contour.Border.points with
  | nil => exact failsOnly_error .noObjectFound
  | cons ps rest => exact failsOnly_ok _

/-! ## Quadrilateral, box and projection -/

namespace Ngon

variable {α : Type} [Geometric α] {P : Fault → Prop}

theorem reduce_failsOnly (hfit : ∀ n, P (.noFitFound n)) (count : Nat) (vs : List (Point α)) :
    FailsOnly P (reduce count vs) := by
  induction count generalizing vs with
  | zero => exact failsOnly_ok vs
  | succ count ih =>
    unfold reduce
    cases collapses vs with
    | nil => exact failsOnly_error (hfit _)
    | cons c rest => exact ih _

/-- A fit has two reasons to fail. -/
theorem fit_failsOnly (hfit : ∀ n, P (.noFitFound n)) (hsmall : ∀ v n, P (.hullTooSmall v n))
    (hull : Polygon α) (sides : Nat) : FailsOnly P (fit hull sides) := by
  unfold fit
  dsimp only
  split
  · exact failsOnly_error (hsmall _ _)
  · exact FailsOnly.map _ (reduce_failsOnly hfit _ _)

end Ngon

theorem Raster.fitNgon_failsOnly (α : Type) [Geometric α] (m : Mask) {sides : Nat}
    (h : 3 ≤ sides) : FailsOnly Misfit (m.fitNgon sides : Except Fault (Polygon α)) := by
  unfold fitNgon
  rw [if_neg (by omega)]
  exact FailsOnly.bind m.hull_failsOnly fun hull _ =>
    Ngon.fit_failsOnly .noFitFound .hullTooSmall _ sides

theorem Raster.fitBox_failsOnly (α : Type) [Geometric α] (m : Mask) :
    FailsOnly Misfit (m.fitBox : Except Fault (UprightBox α)) :=
  FailsOnly.bind m.hull_failsOnly fun _ _ => failsOnly_ok _

theorem Projection.corners_failsOnly (p : Polygon Float) : FailsOnly Misfit (corners p) := by
  unfold corners
  split
  · exact failsOnly_ok _
  · exact failsOnly_error (.noFitFound _)

theorem Projection.between_failsOnly (source target : Polygon Float) :
    FailsOnly Misfit (between source target) := by
  refine FailsOnly.bind (corners_failsOnly source) fun s _ => ?_
  refine FailsOnly.bind (corners_failsOnly target) fun t _ => ?_
  dsimp only
  split
  · exact failsOnly_ok _
  · exact failsOnly_error .degenerateQuad

theorem Raster.straightening_failsOnly (m : Mask) : FailsOnly Misfit m.straightening := by
  refine FailsOnly.bind (m.fitNgon_failsOnly Float (by omega)) fun quad _ => ?_
  exact FailsOnly.bind (m.fitBox_failsOnly Float) fun box _ => Projection.between_failsOnly _ _

/-- **Straightening fails only for want of a fitting shape.** -/
theorem straighten_failsOnly {photo : Photo} {mask : Mask} (h : photo.size = mask.size) :
    FailsOnly Misfit (straighten photo mask) := by
  rw [straighten_of_size_eq h]
  exact FailsOnly.map _ mask.straightening_failsOnly

end Montage
