import Montage.Mask.Cleaning
import Montage.Proofs.Mask.Bounds
/-!
# Cleaning — a blank mask stays blank

A threshold only drops values, and smoothing makes a value of those around
it. So nothing comes of a mask in which nothing is set.
-/

namespace Montage

namespace Raster

variable {m : Mask}

theorem Blank.getD_eq_zero (h : m.Blank) (x y : Nat) : m.getD x y 0 = 0 := by
  rw [getD_eq]
  cases hv : m.get? x y with
  | none => rfl
  | some v => exact h x y v hv

theorem Blank.threshold (h : m.Blank) (t : Float) : (m.threshold t).Blank := by
  intro x y v hv
  unfold Raster.threshold at hv
  rw [get?_map, Option.map_eq_some_iff] at hv
  obtain ⟨u, hu, rfl⟩ := hv
  rw [h x y u hu]
  exact ite_self 0

/-- A window over a blank mask sums up to nothing. -/
theorem Blank.windowSum_eq_zero (h : m.Blank) (x y : Nat) : m.windowSum x y = 0 := by
  simp only [windowSum, h.getD_eq_zero]
  rfl

theorem Blank.smooth (h : m.Blank) : m.smooth.Blank := by
  intro x y v hv
  rw [Raster.smooth, get?_ofFn] at hv
  split at hv
  · cases hv
    rw [h.windowSum_eq_zero]
    rfl
  · cases hv

end Raster

end Montage
