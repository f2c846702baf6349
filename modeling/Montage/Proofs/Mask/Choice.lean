import Montage.Proofs.Mask.Contour
import Montage.Shape.Box
/-!
# Contours — which border is taken

Of the borders that a scan finds, those of objects that nothing encloses count, and
of these the longest is taken, the first found of equal ones. That is the first of
the least in the sense of `Montage.Proofs.Least`, for the order in which the longer
list comes first (`firstLeast_longest`).

The scan is made of the binarized mask, and bounds only ask which values are zero.
So masks of one extent with the same pixels set are the same to a contour and to all
that is made of it (`binarized_congr`, `bounds_congr`), whatever their values.
-/

namespace Montage

open Contour

/-- The border of an object that no other border encloses. -/
def Contour.Border.OfObject (b : Border) : Prop := b.outer = true ∧ b.parent = none

namespace Raster

variable {m m' : Mask} {ps : List (Point ℤ)}

/-! ## The longest border -/

/-- The points of a border that counts. -/
def objectPoints? (b : Border) : Option (List (Point ℤ)) :=
  if b.outer && b.parent.isNone then some b.points else none

theorem objectPoints?_eq_some_iff {b : Border} :
    objectPoints? b = some ps ↔ b.OfObject ∧ b.points = ps := by
  simp [objectPoints?, Border.OfObject]

theorem map_points_objectBorders (m : Mask) :
    m.objectBorders.map Border.points = m.borders.filterMap objectPoints? := by
  rw [objectBorders, ← List.filterMap_eq_filter, List.map_filterMap]
  refine List.filterMap_congr fun b _ => ?_
  rw [objectPoints?, Option.guard]
  split <;> rfl

/-- **The choice of a contour**, from the borders of the binarized mask. -/
theorem exists_split_of_largestContour (h : m.largestContour = .ok ps) :
    ∃ before b after, m.binarized.borders = before ++ b :: after ∧ b.OfObject ∧ b.points = ps ∧
      (∀ c ∈ before, c.OfObject → c.points.length < ps.length) ∧
      ∀ c ∈ after, c.OfObject → c.points.length ≤ ps.length := by
  rw [largestContour, map_points_objectBorders] at h
  cases hobjects : m.binarized.borders.filterMap objectPoints? with
  | nil =>
    rw [hobjects] at h
    cases h
  | cons best rest =>
    rw [hobjects] at h
    cases h
    have hfirst := firstLeast_longest best rest
    have hlongest : ∀ c ∈ m.binarized.borders, c.OfObject →
        c.points.length ≤ (longest best rest).length := by
      intro c hc hobject
      refine hfirst.rel_of_mem (fun b _ qs _ => Nat.le_total qs.length b.length) ?_
      rw [← hobjects]
      exact List.mem_filterMap.mpr ⟨c, hc, objectPoints?_eq_some_iff.mpr ⟨hobject, rfl⟩⟩
    rw [← hobjects] at hfirst
    obtain ⟨before, b, after, hsplit, hb, hbefore⟩ := hfirst.of_filterMap
    obtain ⟨hobject, hpoints⟩ := objectPoints?_eq_some_iff.mp hb
    refine ⟨before, b, after, hsplit, hobject, hpoints, fun c hc hobject => ?_, fun c hc => ?_⟩
    · exact not_le.mp (hbefore c hc _ (objectPoints?_eq_some_iff.mpr ⟨hobject, rfl⟩))
    · refine hlongest c ?_
      rw [hsplit]
      exact List.mem_append_right _ (List.mem_cons_of_mem _ hc)

/-- Without an object there is no choice. -/
theorem forall_not_ofObject_of_largestContour {f : Fault} (h : m.largestContour = .error f) :
    f = .noObjectFound ∧ ∀ b ∈ m.binarized.borders, ¬b.OfObject := by
  obtain ⟨rfl, hnone⟩ := largestContour_eq_error_iff.mp h
  refine ⟨rfl, fun b hb hobject => ?_⟩
  rw [← objectBorders_binarized] at hnone
  have hmem : b ∈ m.binarized.objectBorders := mem_objectBorders.mpr ⟨hb, hobject⟩
  rw [hnone] at hmem
  exact List.not_mem_nil hmem

/-! ## Values that are not zero -/

/-- **Binarized, masks with the same pixels set are the same.** -/
theorem binarized_congr (hsize : m.size = m'.size)
    (hset : ∀ x y, m.getD x y 0 = 0 ↔ m'.getD x y 0 = 0) : m.binarized = m'.binarized := by
  refine ext_get? hsize fun x y => ?_
  rw [binarized, binarized, get?_map, get?_map]
  have hsome := isSome_get?_congr hsize x y
  have hzero := hset x y
  rw [getD_eq, getD_eq] at hzero
  cases hm : m.get? x y with
  | none =>
    rw [hm] at hsome
    rw [Option.not_isSome_iff_eq_none.mp (Bool.eq_false_iff.mp hsome.symm)]
  | some v =>
    rw [hm] at hsome hzero
    obtain ⟨v', hv'⟩ := Option.isSome_iff_exists.mp hsome.symm
    rw [hv'] at hzero ⊢
    exact congrArg some (if_congr hzero rfl rfl)

/-- **And they have the same bounds.** -/
theorem bounds_congr (hsize : m.size = m'.size)
    (hset : ∀ x y, m.getD x y 0 = 0 ↔ m'.getD x y 0 = 0) : m.bounds = m'.bounds := by
  have hwidth : m.width = m'.width := congrArg Size.width hsize
  have hheight : m.height = m'.height := congrArg Size.height hsize
  have hpixels : m.setPixels = m'.setPixels := by
    rw [setPixels, setPixels, hwidth, hheight]
    exact List.filterMap_congr fun i _ => if_congr (hset _ _) rfl rfl
  rw [bounds, bounds, bounds?, bounds?, hpixels]

/-- **Which contour a mask has.** If one of the borders found is that of an object that
nothing encloses, the contour is the longest of these, and longer than any of them
that is found before it. If there is none, there is no contour. Two masks of one
extent with the same pixels set have the same contour, hull, fitted polygons, box
and bounds. -/
theorem largestContour_choice (m : Mask) :
    ((∃ before b after, m.binarized.borders = before ++ b :: after ∧ b.OfObject ∧
        m.largestContour = .ok b.points ∧
        (∀ c ∈ before, c.OfObject → c.points.length < b.points.length) ∧
        ∀ c ∈ after, c.OfObject → c.points.length ≤ b.points.length) ∨
      m.largestContour = .error .noObjectFound ∧ ∀ b ∈ m.binarized.borders, ¬b.OfObject) ∧
    ∀ m' : Mask, m.size = m'.size → (∀ x y, m.getD x y 0 = 0 ↔ m'.getD x y 0 = 0) →
      m.largestContour = m'.largestContour ∧ m.hull = m'.hull ∧
      (∀ (α : Type) [Geometric α] (sides : ℕ),
        (m.fitNgon sides : Except Fault (Polygon α)) = m'.fitNgon sides) ∧
      (∀ (α : Type) [Geometric α], (m.fitBox : Except Fault (UprightBox α)) = m'.fitBox) ∧
      m.bounds = m'.bounds := by
  refine ⟨?_, fun m' hsize hset => ?_⟩
  · cases hm : m.largestContour with
    | error f =>
      obtain ⟨rfl, hnone⟩ := forall_not_ofObject_of_largestContour hm
      exact .inr ⟨rfl, hnone⟩
    | ok ps =>
      obtain ⟨before, b, after, hsplit, hobject, rfl, hbefore, hafter⟩ :=
        exists_split_of_largestContour hm
      exact .inl ⟨before, b, after, hsplit, hobject, rfl, hbefore, hafter⟩
  · have hcontour : m.largestContour = m'.largestContour := by
      rw [largestContour, largestContour, binarized_congr hsize hset]
    have hhull : m.hull = m'.hull := by rw [hull, hull, hcontour]
    refine ⟨hcontour, hhull, fun α _ sides => ?_, fun α _ => ?_, bounds_congr hsize hset⟩
    · rw [fitNgon, fitNgon, hhull]
    · rw [fitBox, fitBox, hhull, hsize]

end Raster

end Montage
