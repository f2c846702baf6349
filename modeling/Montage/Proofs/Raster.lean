import Montage.Raster
/-!
# Rasters — reading past the edge, writing one pixel after the other

Loops over pixels write into a raster as they go. What such a loop leaves at
a pixel depends only on the writes that end there: nothing has changed where
there are none (`get?_foldl_set_of_forall_ne`), and where all of them write
the same sample it is that (`get?_foldl_set_of_mem`).
-/

namespace Montage

/-- An extent that has pixels. -/
def Size.Nonempty (s : Size) : Prop := 0 < s.width ∧ 0 < s.height

theorem Size.Nonempty.has_sides {s : Size} (h : s.Nonempty) :
    (decide (s.width = 0) || decide (s.height = 0)) = false := by
  obtain ⟨hw, hh⟩ := h
  rw [decide_eq_false (Nat.ne_of_gt hw), decide_eq_false (Nat.ne_of_gt hh)]
  rfl

theorem Size.nonempty_pixel : (⟨1, 1⟩ : Size).Nonempty := ⟨Nat.one_pos, Nat.one_pos⟩

namespace Raster

variable {α β : Type}

/-- Reading past a raster yields the value that stands for the outside, so a
sample that differs from it is the sample of a pixel. -/
theorem getD_ne_iff {r : Raster α} {x y : Nat} {a : α} :
    r.getD x y a ≠ a ↔ ∃ v, r.get? x y = some v ∧ v ≠ a := by
  rw [getD_eq]
  cases r.get? x y with
  | none => simp
  | some v => simp

/-- Rasters of one extent have the same pixels. -/
theorem isSome_get?_congr {r : Raster α} {s : Raster β} (h : r.size = s.size) (x y : Nat) :
    (r.get? x y).isSome = (s.get? x y).isSome := by
  have hwidth : r.width = s.width := congrArg Size.width h
  have hheight : r.height = s.height := congrArg Size.height h
  rw [Bool.eq_iff_iff, isSome_get?, isSome_get?, hwidth, hheight]

theorem get?_eq_none_of_outside {r : Raster α} {s : Size} (hs : r.size = s) {x y : Nat}
    (h : ¬(x < s.width ∧ y < s.height)) : r.get? x y = none := by
  subst hs
  exact Option.not_isSome_iff_eq_none.mp (mt (isSome_get? r x y).mp h)

@[simp] theorem size_set (r : Raster α) (x y : Nat) (a : α) : (r.set x y a).size = r.size := rfl

theorem isSome_get?_set (r : Raster α) (x y : Nat) (a : α) (x' y' : Nat) :
    ((r.set x y a).get? x' y').isSome = (r.get? x' y').isSome :=
  isSome_get?_congr (size_set r x y a) x' y'

theorem get?_set_self {r : Raster α} {x y : Nat} (h : (r.get? x y).isSome) (a : α) :
    (r.set x y a).get? x y = some a := by
  obtain ⟨b, hb⟩ := Option.isSome_iff_exists.mp h
  rw [get?_set, if_pos ⟨rfl, rfl⟩, hb]
  rfl

theorem get?_set_of_ne (r : Raster α) {x y x' y' : Nat} (a : α) (h : ¬(x = x' ∧ y = y')) :
    (r.set x y a).get? x' y' = r.get? x' y' := by
  rw [get?_set, if_neg fun he => h ⟨he.1.symm, he.2.symm⟩]

/-- **A pixel that is not written keeps its sample.** -/
theorem get?_foldl_set_of_forall_ne (x y : β → Nat) (a : β → α) {x' y' : Nat} (ws : List β)
    (r : Raster α) (h : ∀ w ∈ ws, ¬(x w = x' ∧ y w = y')) :
    (ws.foldl (fun c w => c.set (x w) (y w) (a w)) r).get? x' y' = r.get? x' y' := by
  induction ws generalizing r with
  | nil => rfl
  | cons w rest ih =>
    rw [List.foldl_cons, ih _ fun w' hw' => h w' (List.mem_cons_of_mem w hw'),
      get?_set_of_ne r _ (h w List.mem_cons_self)]

/-- **A pixel whose writes agree holds what they write.** -/
theorem get?_foldl_set_of_mem (x y : β → Nat) (a : β → α) {x' y' : Nat} {v : α} {ws : List β}
    {r : Raster α} (hin : (r.get? x' y').isSome) (hmem : ∃ w ∈ ws, x w = x' ∧ y w = y')
    (hv : ∀ w ∈ ws, x w = x' ∧ y w = y' → a w = v) :
    (ws.foldl (fun c w => c.set (x w) (y w) (a w)) r).get? x' y' = some v := by
  induction ws generalizing r with
  | nil =>
    obtain ⟨w, hw, -⟩ := hmem
    cases hw
  | cons w rest ih =>
    rw [List.foldl_cons]
    have hrest : ∀ w' ∈ rest, x w' = x' ∧ y w' = y' → a w' = v := fun w' hw' =>
      hv w' (List.mem_cons_of_mem w hw')
    by_cases hlater : ∃ w' ∈ rest, x w' = x' ∧ y w' = y'
    · exact ih (by rw [isSome_get?_set]; exact hin) hlater hrest
    · -- `w` is the last write that ends at the pixel
      have hne : ∀ w' ∈ rest, ¬(x w' = x' ∧ y w' = y') := fun w' hw' he => hlater ⟨w', hw', he⟩
      have hw : x w = x' ∧ y w = y' := by
        obtain ⟨w', hw', he⟩ := hmem
        rcases List.mem_cons.mp hw' with rfl | hw'
        · exact he
        · exact absurd he (hne w' hw')
      obtain ⟨rfl, rfl⟩ := hw
      rw [get?_foldl_set_of_forall_ne x y a rest _ hne, get?_set_self hin,
        hv w List.mem_cons_self ⟨rfl, rfl⟩]

/-! ## Rasters that are built -/

/-- A raster that is built from the samples of another, row by row, is that
raster. -/
theorem ofFn_eq {r : Raster α} {f : Nat → Nat → α}
    (h : ∀ x y a, r.samples[y * r.width + x]? = some a → f x y = a) :
    ofFn r.width r.height f = r := by
  refine ext_get? rfl fun x y => ?_
  rw [get?_ofFn]
  by_cases hin : x < r.width ∧ y < r.height
  · obtain ⟨a, ha⟩ := Option.isSome_iff_exists.mp ((isSome_get? r x y).mpr hin)
    rw [if_pos hin, ha]
    rw [get?, if_pos hin.1] at ha
    rw [h x y a ha]
  · rw [if_neg hin, get?_eq_none_of_outside rfl hin]

theorem map_ofFn (w h : Nat) (f : Nat → Nat → α) (g : α → β) :
    (ofFn w h f).map g = ofFn w h fun x y => g (f x y) := by
  refine ext_get? rfl fun x y => ?_
  rw [get?_map, get?_ofFn, get?_ofFn]
  split <;> rfl

/-- Only what a view says inside the raster counts. -/
theorem ofFn_congr {w h : Nat} {f g : Nat → Nat → α}
    (hfg : ∀ x y, x < w → y < h → f x y = g x y) : ofFn w h f = ofFn w h g := by
  refine ext_get? rfl fun x y => ?_
  rw [get?_ofFn, get?_ofFn]
  split
  · next hin => rw [hfg x y hin.1 hin.2]
  · rfl

theorem getD_ofFn {w h : Nat} (f : Nat → Nat → α) {x y : Nat} (hx : x < w) (hy : y < h) (a : α) :
    (ofFn w h f).getD x y a = f x y := by
  rw [getD_eq, get?_ofFn, if_pos ⟨hx, hy⟩, Option.getD_some]

end Raster

end Montage
