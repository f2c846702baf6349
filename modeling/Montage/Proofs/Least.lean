import Mathlib.Data.List.Basic
/-!
# The first of the least

Where a least element is looked for, the first of equal ones is taken. A scan
that keeps the best element so far, and goes over to the next one unless the best
is below it, finds that element (`firstLeast_foldl`). The relation need only
compare the elements of the list in one direction or the other, and be
transitive.
-/

namespace Montage

variable {α β : Type} {r : α → α → Prop} {xs : List α} {x y : α}

/-- **The first of the least.** An element that is below all that come after it
in a list, and that none before it is below. -/
inductive FirstLeast (r : α → α → Prop) : List α → α → Prop
  | head {x : α} {xs : List α} : (∀ y ∈ xs, r x y) → FirstLeast r (x :: xs) x
  | tail {x y : α} {xs : List α} : ¬r y x → FirstLeast r xs x → FirstLeast r (y :: xs) x

namespace FirstLeast

theorem mem (h : FirstLeast r xs x) : x ∈ xs := by
  induction h with
  | head => exact List.mem_cons_self
  | tail _ _ ih => exact List.mem_cons_of_mem _ ih

/-- The list, cut at the first of the least. -/
theorem exists_split (h : FirstLeast r xs x) :
    ∃ before after, xs = before ++ x :: after ∧ (∀ y ∈ before, ¬r y x) ∧ ∀ y ∈ after, r x y := by
  induction h with
  | @head x xs hall => exact ⟨[], xs, rfl, fun _ h => absurd h List.not_mem_nil, hall⟩
  | @tail x y xs hy _ ih =>
    obtain ⟨before, after, rfl, hbefore, hafter⟩ := ih
    exact ⟨y :: before, after, rfl, List.forall_mem_cons.mpr ⟨hy, hbefore⟩, hafter⟩

/-- Where any two elements compare, the first of the least is below all. -/
theorem rel_of_mem (h : FirstLeast r xs x) (htotal : ∀ y ∈ xs, ∀ z ∈ xs, r y z ∨ r z y) (hy : y ∈ xs) :
    r x y := by
  have hx := h.mem
  obtain ⟨before, after, rfl, hbefore, hafter⟩ := h.exists_split
  rcases List.mem_append.mp hy with hmem | hmem
  · exact (htotal x hx y hy).resolve_right (hbefore y hmem)
  · rcases List.mem_cons.mp hmem with rfl | hmem
    · exact (htotal y hx y hx).elim id id
    · exact hafter y hmem

/-- The first of the least among the values of some elements is the value of an
element. Those before it have values that are not below. -/
theorem of_filterMap {f : β → Option α} {ys : List β} (h : FirstLeast r (ys.filterMap f) x) :
    ∃ before y after, ys = before ++ y :: after ∧ f y = some x ∧
      ∀ z ∈ before, ∀ w, f z = some w → ¬r w x := by
  obtain ⟨before, after, hys, hbefore, -⟩ := h.exists_split
  obtain ⟨front, tail, rfl, hfront, htail⟩ := List.filterMap_eq_append_iff.mp hys
  obtain ⟨skipped, y, rest, rfl, hskipped, hy, -⟩ := List.filterMap_eq_cons_iff.mp htail
  refine ⟨front ++ skipped, y, rest, (List.append_assoc ..).symm, hy, fun z hz w hw => ?_⟩
  rcases List.mem_append.mp hz with hz | hz
  · exact hbefore w (hfront ▸ List.mem_filterMap.mpr ⟨z, hz, hw⟩)
  · rw [hskipped z hz] at hw
    cases hw

/-- What the first element is below does not change what comes first after it. -/
theorem skip (htrans : ∀ x y z, r x y → r y z → r x z) (hxy : r x y) {m : α}
    (h : FirstLeast r (x :: xs) m) : FirstLeast r (x :: y :: xs) m := by
  cases h with
  | head hall => exact .head (List.forall_mem_cons.mpr ⟨hxy, hall⟩)
  | tail hx hrest => exact .tail hx (.tail (fun hy => hx (htrans x y m hxy hy)) hrest)

end FirstLeast

/-- **A scan finds the first of the least.** -/
theorem firstLeast_foldl [DecidableRel r] (htrans : ∀ x y z, r x y → r y z → r x z)
    (htotal : ∀ y ∈ x :: xs, ∀ z ∈ x :: xs, r y z ∨ r z y) :
    FirstLeast r (x :: xs) (xs.foldl (fun best y => if r best y then best else y) x) := by
  induction xs generalizing x with
  | nil => exact .head fun _ h => absurd h List.not_mem_nil
  | cons y rest ih =>
    have hkept : x :: rest ⊆ x :: y :: rest := List.cons_subset_cons x (List.subset_cons_self y rest)
    have hnext : y :: rest ⊆ x :: y :: rest := List.subset_cons_self x _
    rw [List.foldl_cons]
    split
    · next hxy => exact (ih fun z hz w hw => htotal z (hkept hz) w (hkept hw)).skip htrans hxy
    · next hxy =>
      have htotal' : ∀ z ∈ y :: rest, ∀ w ∈ y :: rest, r z w ∨ r w z :=
        fun z hz w hw => htotal z (hnext hz) w (hnext hw)
      have hrest := ih htotal'
      have hbelow := hrest.rel_of_mem htotal' List.mem_cons_self
      exact .tail (fun hx => hxy (htrans x _ y hx hbelow)) hrest

end Montage
