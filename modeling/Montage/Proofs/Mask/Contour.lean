import Mathlib.Order.Interval.Finset.Nat
import Montage.Proofs.Canvas.Straighten
import Montage.Proofs.Least
import Montage.Proofs.Mask.Bounds
import Montage.Proofs.Mask.Border
/-!
# Contours — which masks have one

A scan starts borders and does nothing else to the labels, so throughout it
the occupied pixels are the set pixels of the mask, the labels are the numbers
of the borders found, and all pixels of these borders are set
(`Progress.Sound`). An object counts if it has an outer border that nothing
encloses. Such a border starts at the first set pixel of a row that no border
has passed before, right of the left edge: `Opens`. If there is such a row
there is such a border (`exists_objectBorder`), and without one every outer
border has something around it (`parented_scanned`), if only the border of an
object that touches the left edge.

So a mask has a contour exactly when a row opens, and `contour_of_mask` sets
this beside the bounds, which a mask has exactly when a pixel of it is set.
The two agree when the first set pixel, row by row, is not in the first
column. They part when an object touches the left edge, as
`no_contour_of_speck` shows.
-/

namespace Montage

namespace Contour

variable {g : Raster Int} {s : Progress} {p : Point Int} {x y : Nat}

/-! ## Scans in good order -/

/-- What holds of a scan of the raster `g`, in which set pixels have a one. -/
structure Progress.Sound (g : Raster Int) (s : Progress) : Prop where
  size : s.labels.size = g.size
  occupied : ∀ p, label s.labels p = 0 ↔ label g p = 0
  /-- A pixel is empty, or fresh, or has the number of a border. -/
  numbered : ∀ p, label s.labels p = 0 ∨ label s.labels p = 1 ∨
    2 ≤ (label s.labels p).natAbs ∧ (label s.labels p).natAbs ≤ s.borders.length + 1
  met : 1 ≤ s.met ∧ s.met ≤ s.borders.length + 1
  points : ∀ b ∈ s.borders, ∀ p ∈ b.points, label g p ≠ 0

/-- Every outer border has something around it. -/
def Progress.Parented (s : Progress) : Prop :=
  ∀ b ∈ s.borders, b.outer = true → b.parent ≠ none

namespace Progress

/-- The scan after the border that starts at an occupied pixel, if one
does. -/
def begun (s : Progress) (x y : Nat) : Progress :=
  let v := s.labels.getD x y 0
  if v == 1 && 0 < x && s.labels.getD (x - 1) y 0 == 0 then s.start ⟨x, y⟩ true s.met
  else if 0 < v && x + 1 < s.labels.width && s.labels.getD (x + 1) y 0 == 0 then
    s.start ⟨x, y⟩ false (if 1 < v then v else s.met)
  else s

/-- The scan with the number of the border at a pixel as the one met last,
unless the pixel is fresh. -/
def meet (s : Progress) (x y : Nat) : Progress :=
  let v := s.labels.getD x y 0
  if v == 1 then s else { s with met := v.natAbs }

/-! ### What one pixel does -/

theorem visit_of_empty (h : s.labels.getD x y 0 = 0) : s.visit x y = s := by
  simp [visit, h]

theorem visit_of_occupied (h : s.labels.getD x y 0 ≠ 0) :
    s.visit x y = (s.begun x y).meet x y := by
  rw [visit]
  dsimp only
  rw [if_neg (by simpa using h)]
  rfl

/-- A fresh pixel behind an empty one starts an outer border. -/
theorem begun_of_entry (h : s.labels.getD x y 0 = 1) (hx : 0 < x)
    (hleft : s.labels.getD (x - 1) y 0 = 0) : s.begun x y = s.start ⟨x, y⟩ true s.met := by
  simp [begun, h, hx, hleft]

/-- **What a pixel does to a scan.** Nothing if it is empty. If not, it may
start a border, an outer one only if it is fresh and behind an empty pixel,
and then it is met. -/
theorem visit_cases (s : Progress) (x y : Nat) :
    s.labels.getD x y 0 = 0 ∧ s.visit x y = s ∨
      s.labels.getD x y 0 ≠ 0 ∧
        ((s.labels.getD x y 0 = 1 ∧ 0 < x ∧ s.labels.getD (x - 1) y 0 = 0 ∧
            s.visit x y = (s.start ⟨x, y⟩ true s.met).meet x y) ∨
          s.visit x y = (s.start ⟨x, y⟩ false
            (if 1 < s.labels.getD x y 0 then s.labels.getD x y 0 else s.met)).meet x y ∨
          ¬(0 < s.labels.getD x y 0 ∧ x + 1 < s.labels.width ∧
              s.labels.getD (x + 1) y 0 = 0) ∧
            s.visit x y = s.meet x y) := by
  by_cases hempty : s.labels.getD x y 0 = 0
  · exact .inl ⟨hempty, visit_of_empty hempty⟩
  · refine .inr ⟨hempty, ?_⟩
    rw [visit_of_occupied hempty, begun]
    simp only [beq_iff_eq, Bool.and_eq_true, decide_eq_true_eq, and_assoc]
    split
    · next hleft => exact .inl ⟨hleft.1, hleft.2.1, hleft.2.2, rfl⟩
    · split
      · exact .inr (.inl rfl)
      · next hright => exact .inr (.inr ⟨hright, rfl⟩)

/-! ### What a border does -/

theorem labels_start (s : Progress) (p : Point Int) (outer : Bool) (met : Int) :
    (s.start p outer met).labels =
      (trace s.labels s.nextNumber p (if outer then 0 else right)).1 := rfl

theorem borders_start (s : Progress) (p : Point Int) (outer : Bool) (met : Int) :
    (s.start p outer met).borders =
      ⟨(trace s.labels s.nextNumber p (if outer then 0 else right)).2, outer,
        s.enclosing met outer⟩ :: s.borders := rfl

theorem two_le_nextNumber (s : Progress) : 2 ≤ s.nextNumber := by
  unfold nextNumber
  omega

theorem label_start_ne_one (h : label s.labels p ≠ 0) (outer : Bool) (met : Int) :
    label (s.start p outer met).labels p ≠ 1 :=
  label_start_trace_ne_one s.two_le_nextNumber h _

theorem label_start_ne_zero (h : label s.labels p ≠ 0) (outer : Bool) (met : Int) :
    label (s.start p outer met).labels p ≠ 0 :=
  mt ((trace_relabels s.two_le_nextNumber h _).label_eq_zero_iff s.two_le_nextNumber p).mp h

theorem Sound.start (hs : s.Sound g) (h : label s.labels p ≠ 0) (outer : Bool) {met : Int}
    (hmet : 1 ≤ met ∧ met ≤ s.borders.length + 1) : (s.start p outer met).Sound g := by
  have htwo := s.two_le_nextNumber
  have htrace := trace_relabels htwo h (if outer then 0 else right)
  constructor
  · rw [labels_start, htrace.size, hs.size]
  · intro q
    rw [labels_start, htrace.label_eq_zero_iff htwo, hs.occupied]
  · intro q
    rw [labels_start, borders_start, List.length_cons]
    rcases htrace.label q with hkept | ⟨-, hnew⟩
    · rw [hkept]
      have := hs.numbered q
      omega
    · rw [hnew]
      unfold nextNumber
      omega
  · rw [borders_start, List.length_cons]
    change 1 ≤ met ∧ met ≤ _
    omega
  · rw [borders_start]
    intro b hb q hq
    rcases List.mem_cons.mp hb with rfl | hb
    · exact mt (hs.occupied q).mpr (label_of_mem_trace htwo h hq)
    · exact hs.points b hb q hq

theorem Sound.meet (hs : s.Sound g) (h : s.labels.getD x y 0 ≠ 0) : (s.meet x y).Sound g := by
  unfold Progress.meet
  dsimp only
  split
  · exact hs
  · next hfresh =>
    rw [beq_iff_eq] at hfresh
    have hnumber := hs.numbered ⟨x, y⟩
    rw [label_natCast] at hnumber
    refine ⟨hs.size, hs.occupied, hs.numbered, ?_, hs.points⟩
    dsimp only
    omega

theorem Sound.visit (hs : s.Sound g) (x y : Nat) : (s.visit x y).Sound g := by
  rcases s.visit_cases x y with ⟨-, heq⟩ | ⟨hset, ⟨-, -, -, heq⟩ | heq | ⟨-, heq⟩⟩
  · rwa [heq]
  · rw [heq]
    rw [← label_natCast] at hset
    refine (hs.start hset true hs.met).meet ?_
    rw [← label_natCast]
    exact label_start_ne_zero hset true s.met
  · rw [heq]
    have hnumber := hs.numbered ⟨x, y⟩
    rw [label_natCast] at hnumber
    have hmet := hs.met
    rw [← label_natCast] at hset
    refine (hs.start hset false ?_).meet ?_
    · split <;> omega
    · rw [← label_natCast]
      exact label_start_ne_zero hset false _
  · rw [heq]
    exact hs.meet hset

/-! ### What encloses a border -/

/-- The number of a border that has been found finds it. -/
theorem exists_border? (number : Nat) (h2 : 2 ≤ number) (hle : number ≤ s.borders.length + 1) :
    ∃ b ∈ s.borders, s.border? number = some b := by
  have hi : s.borders.length + 1 - number < s.borders.length := by omega
  exact ⟨s.borders[s.borders.length + 1 - number], List.getElem_mem hi,
    List.getElem?_eq_getElem hi⟩

theorem enclosing_of_le_one {met : Int} (h : met ≤ 1) (outer : Bool) :
    s.enclosing met outer = none := if_pos h

/-- An outer border behind another border is enclosed, if all outer borders
are. -/
theorem enclosing_ne_none (hs : s.Sound g) (hp : s.Parented) (h : 1 < s.met) :
    s.enclosing s.met true ≠ none := by
  have hmet := hs.met
  obtain ⟨b, hb, hnumber⟩ := s.exists_border? s.met.toNat (by omega) (by omega)
  rw [enclosing, if_neg (by omega), hnumber]
  cases houter : b.outer with
  | false => simp [houter]
  | true => simpa [houter] using hp b hb houter

theorem Parented.start (hp : s.Parented) (p : Point Int) (outer : Bool) (met : Int)
    (h : outer = true → s.enclosing met outer ≠ none) : (s.start p outer met).Parented := by
  intro b hb
  rcases List.mem_cons.mp hb with rfl | hb
  · exact h
  · exact hp b hb

theorem borders_meet (s : Progress) (x y : Nat) : (s.meet x y).borders = s.borders := by
  unfold meet
  dsimp only
  split <;> rfl

theorem Parented.meet (hp : s.Parented) (x y : Nat) : (s.meet x y).Parented := by
  unfold Parented
  rw [borders_meet]
  exact hp

/-- **All outer borders stay enclosed** at a pixel that does not start one
with no border met. -/
theorem Parented.visit (hs : s.Sound g) (hp : s.Parented)
    (h : s.labels.getD x y 0 = 1 → 0 < x → s.labels.getD (x - 1) y 0 = 0 → 1 < s.met) :
    (s.visit x y).Parented := by
  rcases s.visit_cases x y with ⟨-, heq⟩ | ⟨-, ⟨hfresh, hx, hleft, heq⟩ | heq | ⟨-, heq⟩⟩
  · rwa [heq]
  · rw [heq]
    exact (hp.start _ true s.met fun _ =>
      enclosing_ne_none hs hp (h hfresh hx hleft)).meet x y
  · rw [heq]
    exact (hp.start _ false _ fun hfalse => by cases hfalse).meet x y
  · rw [heq]
    exact hp.meet x y

/-- Borders that have been found stay. -/
theorem subset_visit (s : Progress) (x y : Nat) : s.borders ⊆ (s.visit x y).borders := by
  rcases s.visit_cases x y with ⟨-, heq⟩ | ⟨-, ⟨-, -, -, heq⟩ | heq | ⟨-, heq⟩⟩
  · rw [heq]
    exact List.Subset.refl _
  · rw [heq, borders_meet, borders_start]
    exact List.subset_cons_self ..
  · rw [heq, borders_meet, borders_start]
    exact List.subset_cons_self ..
  · rw [heq, borders_meet]
    exact List.Subset.refl _

/-! ### Rows -/

/-- The scan at the start of a row, where no border has been met. -/
def afresh (s : Progress) : Progress := { s with met := 1 }

theorem labels_afresh (s : Progress) : s.afresh.labels = s.labels := rfl

/-- The scan of row `y` up to column `x`. -/
def row (s : Progress) (y x : Nat) : Progress :=
  (List.range x).foldl (fun s x => s.visit x y) s.afresh

theorem visitRow_eq_row (s : Progress) (y : Nat) : s.visitRow y = s.row y s.labels.width := rfl

theorem row_succ (s : Progress) (y x : Nat) : s.row y (x + 1) = (s.row y x).visit x y := by
  rw [row, row, List.range_succ, List.foldl_append]
  rfl

theorem Sound.row (hs : s.Sound g) (y x : Nat) : (s.row y x).Sound g := by
  induction x with
  | zero =>
    have hmet := hs.met
    exact ⟨hs.size, hs.occupied, hs.numbered, ⟨le_rfl, by change 1 ≤ _; omega⟩, hs.points⟩
  | succ x ih =>
    rw [row_succ]
    exact ih.visit x y

theorem subset_row {x x' : Nat} (s : Progress) (y : Nat) (h : x ≤ x') :
    (s.row y x).borders ⊆ (s.row y x').borders := by
  induction x', h using Nat.le_induction with
  | base => exact List.Subset.refl _
  | succ x' _ ih =>
    rw [row_succ]
    exact List.Subset.trans ih (subset_visit ..)

/-- A pixel that is met, and is not fresh, leaves a border met. -/
theorem one_lt_met_meet (hs : s.Sound g) (h : s.labels.getD x y 0 ≠ 0)
    (hfresh : s.labels.getD x y 0 ≠ 1) : 1 < (s.meet x y).met := by
  have hnumber := hs.numbered ⟨x, y⟩
  rw [label_natCast] at hnumber
  rw [meet, if_neg (by simpa using hfresh)]
  change 1 < ((s.labels.getD x y 0).natAbs : Int)
  omega

/-- A pixel that starts a border leaves it met. -/
theorem one_lt_met_start (hs : s.Sound g) (h : s.labels.getD x y 0 ≠ 0) (outer : Bool) {met : Int}
    (hmet : 1 ≤ met ∧ met ≤ s.borders.length + 1) :
    1 < ((s.start ⟨x, y⟩ outer met).meet x y).met := by
  rw [← label_natCast] at h
  refine one_lt_met_meet (hs.start h outer hmet) ?_ ?_
  · rw [← label_natCast]
    exact label_start_ne_zero h outer met
  · rw [← label_natCast]
    exact label_start_ne_one h outer met

/-- **As long as no border is met, nothing has happened.** The pixel was
empty, or a fresh one inside of an object. -/
theorem visit_of_met_le_one (hs : s.Sound g) (h : (s.visit x y).met ≤ 1) :
    s.visit x y = s ∧ (s.labels.getD x y 0 ≠ 0 → x + 1 < s.labels.width →
      s.labels.getD (x + 1) y 0 ≠ 0) := by
  have hnumber := hs.numbered ⟨x, y⟩
  rw [label_natCast] at hnumber
  have hmet := hs.met
  rcases s.visit_cases x y with ⟨hempty, heq⟩ | ⟨hset, ⟨-, -, -, heq⟩ | heq | ⟨hright, heq⟩⟩
  · exact ⟨heq, fun hset => absurd hempty hset⟩
  · rw [heq] at h
    have := one_lt_met_start hs hset true hs.met
    omega
  · rw [heq] at h
    have hfrom : 1 ≤ (if 1 < s.labels.getD x y 0 then s.labels.getD x y 0 else s.met) ∧
        (if 1 < s.labels.getD x y 0 then s.labels.getD x y 0 else s.met)
          ≤ s.borders.length + 1 := by
      split <;> omega
    have := one_lt_met_start hs hset false hfrom
    omega
  · rw [heq] at h ⊢
    by_cases hfresh : s.labels.getD x y 0 = 1
    · refine ⟨by simp [meet, hfresh], fun _ hx hr => hright ⟨by omega, hx, hr⟩⟩
    · have := one_lt_met_meet hs hset hfresh
      omega

/-- **As long as no border is met in a row, nothing has happened in it**, and
no object has ended in it. -/
theorem row_of_met_le_one (hs : s.Sound g) (h : (s.row y x).met ≤ 1) :
    s.row y x = s.afresh ∧ ∀ x' < x, s.labels.getD x' y 0 ≠ 0 →
      x' + 1 < s.labels.width → s.labels.getD (x' + 1) y 0 ≠ 0 := by
  induction x with
  | zero => exact ⟨rfl, fun x' hx' => absurd hx' (Nat.not_lt_zero x')⟩
  | succ x ih =>
    rw [row_succ] at h ⊢
    obtain ⟨hsame, hgoesOn⟩ := visit_of_met_le_one (hs.row y x) h
    rw [hsame] at h ⊢
    obtain ⟨hrow, hbefore⟩ := ih h
    refine ⟨hrow, fun x' hx' => ?_⟩
    rcases Nat.lt_succ_iff_lt_or_eq.mp hx' with hx' | rfl
    · exact hbefore x' hx'
    · rwa [hrow] at hgoesOn

/-- A row in which no border is met before a set pixel behind an empty one is
empty up to there. -/
theorem empty_of_met_le_one (hs : s.Sound g) (h : (s.row y x).met ≤ 1) (hx : x < s.labels.width)
    (hleft : s.labels.getD (x - 1) y 0 = 0) : ∀ x' < x, s.labels.getD x' y 0 = 0 := by
  obtain ⟨-, hgoesOn⟩ := row_of_met_le_one hs h
  -- downwards from the pixel on the left: an object would have to end
  have hbefore : ∀ k, k < x → s.labels.getD (x - 1 - k) y 0 = 0 := by
    intro k
    induction k with
    | zero => exact fun _ => hleft
    | succ k ih =>
      intro hk
      by_contra hset
      refine hgoesOn (x - 1 - (k + 1)) (by omega) hset (by omega) ?_
      rw [show x - 1 - (k + 1) + 1 = x - 1 - k by omega]
      exact ih (by omega)
  intro x' hx'
  have := hbefore (x - 1 - x') (by omega)
  rwa [show x - 1 - (x - 1 - x') = x' by omega] at this

/-- A row up to its first set pixel does nothing. -/
theorem row_of_empty (h : ∀ x' < x, s.labels.getD x' y 0 = 0) :
    s.row y x = s.afresh := by
  induction x with
  | zero => rfl
  | succ x ih =>
    rw [row_succ, ih fun x' hx' => h x' (Nat.lt_succ_of_lt hx')]
    exact visit_of_empty (h x (Nat.lt_succ_self x))

end Progress

end Contour

namespace Raster

open Contour

variable {m : Mask} {x y : Nat}

/-! ## Rows that open -/

/-- The labels that a scan begins with: one for set pixels. -/
def freshLabels (m : Mask) : Raster Int := m.map fun v => if v = 0 then 0 else 1

/-- The scan of the first rows of a mask. -/
def scanned (m : Mask) (rows : Nat) : Progress :=
  (List.range rows).foldl Progress.visitRow ⟨m.freshLabels, [], 1⟩

/-- A row opens at a pixel if that is its first set pixel, not in the first
column, and no border that starts in the rows above passes it. -/
def Opens (m : Mask) (x y : Nat) : Prop :=
  0 < x ∧ (∀ x' < x, m.getD x' y 0 = 0) ∧ (m.scanned y).labels.getD x y 0 = 1

theorem getD_freshLabels (m : Mask) (x y : Nat) :
    m.freshLabels.getD x y 0 = if m.getD x y 0 = 0 then 0 else 1 := by
  rw [getD_eq, getD_eq, freshLabels, get?_map]
  cases m.get? x y <;> rfl

theorem getD_freshLabels_eq_zero_iff : m.freshLabels.getD x y 0 = 0 ↔ m.getD x y 0 = 0 := by
  rw [getD_freshLabels]
  split <;> simp [*]

theorem scanned_succ (m : Mask) (rows : Nat) :
    m.scanned (rows + 1) = (m.scanned rows).visitRow rows := by
  rw [scanned, scanned, List.range_succ, List.foldl_append]
  rfl

theorem borders_eq (m : Mask) : m.borders = (m.scanned m.height).borders.reverse := rfl

theorem sound_scanned (m : Mask) (rows : Nat) : (m.scanned rows).Sound m.freshLabels := by
  induction rows with
  | zero =>
    refine ⟨rfl, fun _ => Iff.rfl, fun p => ?_, ⟨le_rfl, le_rfl⟩, by simp [scanned]⟩
    by_cases h : label m.freshLabels p = 0
    · exact .inl h
    · obtain ⟨x, y, rfl, hxy⟩ := exists_of_label_ne_zero h
      refine .inr (.inl ?_)
      change label m.freshLabels _ = 1
      rw [label_natCast, getD_freshLabels, if_neg (mt getD_freshLabels_eq_zero_iff.mpr hxy)]
  | succ rows ih =>
    rw [scanned_succ]
    exact ih.row rows _

theorem width_scanned (m : Mask) (rows : Nat) : (m.scanned rows).labels.width = m.width :=
  congrArg Size.width (m.sound_scanned rows).size

theorem getD_scanned_eq_zero_iff (m : Mask) (rows x y : Nat) :
    (m.scanned rows).labels.getD x y 0 = 0 ↔ m.getD x y 0 = 0 := by
  rw [← label_natCast, (m.sound_scanned rows).occupied, label_natCast,
    getD_freshLabels_eq_zero_iff]

theorem subset_scanned {rows rows' : Nat} (m : Mask) (h : rows ≤ rows') :
    (m.scanned rows).borders ⊆ (m.scanned rows').borders := by
  induction rows', h using Nat.le_induction with
  | base => exact List.Subset.refl _
  | succ rows' _ ih =>
    rw [scanned_succ]
    exact List.Subset.trans ih (Progress.subset_row _ rows' (Nat.zero_le _))

/-- **A row that opens has the border of an object** that nothing encloses. -/
theorem exists_objectBorder (h : m.Opens x y) :
    ∃ b ∈ m.borders, b.outer = true ∧ b.parent = none := by
  obtain ⟨hx, hempty, hfresh⟩ := h
  have hset : m.getD x y 0 ≠ 0 := by
    rw [Ne, ← m.getD_scanned_eq_zero_iff y, hfresh]
    decide
  obtain ⟨hwidth, hheight⟩ := lt_of_getD_ne_zero hset
  have hleft (x' : Nat) (hx' : x' < x) : (m.scanned y).labels.getD x' y 0 = 0 :=
    (m.getD_scanned_eq_zero_iff y x' y).mpr (hempty x' hx')
  have hrow := Progress.row_of_empty hleft
  -- the border that starts at the pixel, with no border met before it
  have hstart : ∃ b ∈ ((m.scanned y).row y (x + 1)).borders, b.outer = true ∧ b.parent = none := by
    have hbegun := Progress.begun_of_entry (s := (m.scanned y).afresh) hfresh hx
      (hleft (x - 1) (by omega))
    have hlabel : (m.scanned y).afresh.labels.getD x y 0 ≠ 0 := by
      rw [Progress.labels_afresh, hfresh]
      decide
    rw [Progress.row_succ, hrow, Progress.visit_of_occupied hlabel, hbegun,
      Progress.borders_meet, Progress.borders_start]
    exact ⟨_, List.mem_cons_self, rfl,
      Progress.enclosing_of_le_one (s := (m.scanned y).afresh) le_rfl true⟩
  obtain ⟨b, hb, hkind⟩ := hstart
  refine ⟨b, ?_, hkind⟩
  rw [borders_eq, List.mem_reverse]
  refine m.subset_scanned (Nat.succ_le_of_lt hheight) ?_
  rw [scanned_succ, Progress.visitRow_eq_row, width_scanned]
  exact Progress.subset_row _ y (Nat.succ_le_of_lt hwidth) hb

/-- **If no row opens, every outer border has something around it.** -/
theorem parented_scanned (h : ¬∃ x y, m.Opens x y) (rows : Nat) : (m.scanned rows).Parented := by
  induction rows with
  | zero => simp [scanned, Progress.Parented]
  | succ rows ih =>
    have hs := m.sound_scanned rows
    have hrow : ∀ x, ((m.scanned rows).row rows x).Parented := by
      intro x
      induction x with
      | zero => exact ih
      | succ x ihx =>
        rw [Progress.row_succ]
        refine Progress.Parented.visit (hs.row rows x) ihx fun hfresh hx hleft => ?_
        by_contra hmet
        have hsame := (Progress.row_of_met_le_one hs (not_lt.mp hmet)).1
        rw [hsame, Progress.labels_afresh] at hfresh hleft
        have hset : m.getD x rows 0 ≠ 0 := by
          rw [Ne, ← m.getD_scanned_eq_zero_iff rows, hfresh]
          decide
        have hwidth : x < (m.scanned rows).labels.width := by
          rw [width_scanned]
          exact (lt_of_getD_ne_zero hset).1
        have hempty := Progress.empty_of_met_le_one hs (not_lt.mp hmet) hwidth hleft
        exact h ⟨x, rows, hx, fun x' hx' => (m.getD_scanned_eq_zero_iff rows x' rows).mp
          (hempty x' hx'), hfresh⟩
    rw [scanned_succ, Progress.visitRow_eq_row]
    exact hrow _

theorem borders_binarized (m : Mask) : m.binarized.borders = m.borders := by
  have hlabels : m.binarized.freshLabels = m.freshLabels := by
    refine ext_get? rfl fun x y => ?_
    rw [freshLabels, freshLabels, binarized, get?_map, get?_map, get?_map]
    cases m.get? x y with
    | none => rfl
    | some v => by_cases hv : v = 0 <;> simp [hv]
  have hscanned (rows : Nat) : m.binarized.scanned rows = m.scanned rows := by
    rw [scanned, scanned, hlabels]
  rw [borders_eq, borders_eq, hscanned]
  rfl

/-! ## Contours -/

theorem mem_objectBorders {b : Border} :
    b ∈ m.objectBorders ↔ b ∈ m.borders ∧ b.outer = true ∧ b.parent = none := by
  simp [objectBorders]

/-- **There are objects exactly when a row opens.** -/
theorem objectBorders_eq_nil_iff : m.objectBorders = [] ↔ ¬∃ x y, m.Opens x y := by
  rw [List.eq_nil_iff_forall_not_mem]
  constructor
  · rintro h ⟨x, y, hopens⟩
    obtain ⟨b, hb⟩ := exists_objectBorder hopens
    exact h b (mem_objectBorders.mpr hb)
  · intro h b hb
    obtain ⟨hmem, houter, hparent⟩ := mem_objectBorders.mp hb
    rw [borders_eq, List.mem_reverse] at hmem
    exact parented_scanned h m.height b hmem houter hparent

theorem longest_eq_foldl (best : List (Point Int)) (rest : List (List (Point Int))) :
    longest best rest = rest.foldl (fun b ps => if ps.length ≤ b.length then b else ps) best := by
  induction rest generalizing best with
  | nil => rfl
  | cons ps rest ih =>
    rw [longest, ih, List.foldl_cons]
    simp only [← Nat.not_le, ite_not]

/-- **The longest list is the first of those than which none is longer.** -/
theorem firstLeast_longest (best : List (Point Int)) (rest : List (List (Point Int))) :
    FirstLeast (fun b ps => ps.length ≤ b.length) (best :: rest) (longest best rest) := by
  rw [longest_eq_foldl]
  exact firstLeast_foldl (fun _ _ _ hxy hyz => hyz.trans hxy)
    fun b _ ps _ => Nat.le_total ps.length b.length

theorem objectBorders_binarized (m : Mask) : m.binarized.objectBorders = m.objectBorders := by
  rw [objectBorders, borders_binarized, objectBorders]

/-- A mask has no contour when it has no objects, and for no other reason. -/
theorem largestContour_eq_error_iff {f : Fault} :
    m.largestContour = .error f ↔ f = .noObjectFound ∧ m.objectBorders = [] := by
  rw [largestContour, objectBorders_binarized]
  cases m.objectBorders with
  | nil => simp [eq_comm]
  | cons b rest => simp

/-- A contour is that of an object. -/
theorem exists_border_of_largestContour {ps : List (Point Int)}
    (h : m.largestContour = .ok ps) : ∃ b ∈ m.borders, b.points = ps := by
  rw [largestContour, objectBorders_binarized] at h
  cases hobjects : m.objectBorders with
  | nil =>
    rw [hobjects] at h
    cases h
  | cons b rest =>
    rw [hobjects] at h
    cases h
    have hmem := (firstLeast_longest b.points (rest.map Border.points)).mem
    rw [← List.map_cons, ← hobjects] at hmem
    obtain ⟨b', hb', heq⟩ := List.mem_map.mp hmem
    exact ⟨b', (mem_objectBorders.mp hb').1, heq⟩

/-- **The pixels of a contour are set**, and so they lie in the mask. -/
theorem set_of_mem_largestContour {ps : List (Point Int)} (h : m.largestContour = .ok ps)
    {p : Point Int} (hp : p ∈ ps) : ∃ x y : Nat, p = ⟨x, y⟩ ∧ (x, y) ∈ m.setPixels := by
  obtain ⟨b, hb, rfl⟩ := exists_border_of_largestContour h
  rw [borders_eq, List.mem_reverse] at hb
  have hlabel := (m.sound_scanned m.height).points b hb p hp
  obtain ⟨x, y, rfl, hxy⟩ := exists_of_label_ne_zero hlabel
  refine ⟨x, y, rfl, mem_setPixels.mpr ?_⟩
  rw [← getD_ne_iff]
  exact mt getD_freshLabels_eq_zero_iff.mpr hxy

/-! ## Where contours and bounds agree -/

/-- What stands before a number in a range. -/
theorem eq_range_of_range_eq {n i : Nat} {before after : List Nat}
    (h : List.range n = before ++ i :: after) : before = List.range i := by
  rw [List.range_eq_range', List.range'_eq_append_iff] at h
  obtain ⟨k, -, rfl, h⟩ := h
  obtain ⟨hi, -, -⟩ := List.range'_eq_cons_iff.mp h.symm
  rw [List.range_eq_range', ← hi, Nat.zero_add, Nat.mul_one]

/-- The first set pixel is the one with the least index, row by row. -/
theorem exists_index_of_head {p : Nat × Nat} (h : m.setPixels.head? = some p) :
    ∃ i, p = (i % m.width, i / m.width) ∧ m.getD p.1 p.2 0 ≠ 0 ∧
      ∀ x y, x < m.width → y * m.width + x < i → m.getD x y 0 = 0 := by
  obtain ⟨rest, hrest⟩ := List.head?_eq_some_iff.mp h
  obtain ⟨before, i, after, hrange, hnone, hi, -⟩ := List.filterMap_eq_cons_iff.mp hrest
  split at hi
  · cases hi
  · next hset =>
    cases hi
    refine ⟨i, rfl, hset, fun x y hx hlt => ?_⟩
    have hmem : y * m.width + x ∈ before := by
      rw [eq_range_of_range_eq hrange]
      exact List.mem_range.mpr hlt
    have := hnone _ hmem
    rw [index_mod hx, index_div hx] at this
    by_contra hne
    rw [if_neg hne] at this
    cases this

/-- **Nothing is set before the first set pixel**, not in its row, and not in
the rows above. -/
theorem empty_before_head {p : Nat × Nat} (h : m.setPixels.head? = some p) :
    (∀ x < p.1, m.getD x p.2 0 = 0) ∧ ∀ y < p.2, ∀ x, m.getD x y 0 = 0 := by
  obtain ⟨i, rfl, hset, hempty⟩ := exists_index_of_head h
  have hwidth : i % m.width < m.width := (lt_of_getD_ne_zero hset).1
  have hindex : i / m.width * m.width + i % m.width = i := Nat.div_add_mod' i m.width
  constructor
  · intro x hx
    have hx : x < i % m.width := hx
    exact hempty x (i / m.width) (by omega) (by omega)
  · intro y hy x
    by_contra hne
    have hx := (lt_of_getD_ne_zero hne).1
    have hrows := Nat.mul_le_mul_right m.width (Nat.succ_le_of_lt hy)
    rw [Nat.succ_mul] at hrows
    have hrows : y * m.width + m.width ≤ i / m.width * m.width := hrows
    exact hne (hempty x y hx (by omega))

/-- Rows in which nothing is set leave a scan as it began. -/
theorem scanned_of_empty {rows : Nat} (h : ∀ y < rows, ∀ x, m.getD x y 0 = 0) :
    m.scanned rows = m.scanned 0 := by
  induction rows with
  | zero => rfl
  | succ rows ih =>
    have hsame := ih fun y hy => h y (Nat.lt_succ_of_lt hy)
    rw [scanned_succ, Progress.visitRow_eq_row, Progress.row_of_empty, hsame]
    · rfl
    · intro x _
      rw [getD_scanned_eq_zero_iff]
      exact h rows (Nat.lt_succ_self rows) x

/-- **The row of the first set pixel opens** unless that pixel touches the left
edge. -/
theorem opens_of_head {p : Nat × Nat} (h : m.setPixels.head? = some p) (hp : 0 < p.1) :
    m.Opens p.1 p.2 := by
  obtain ⟨hrow, habove⟩ := empty_before_head h
  refine ⟨hp, hrow, ?_⟩
  obtain ⟨v, hv, hset⟩ := mem_setPixels.mp (List.mem_of_head? h)
  have hne : m.getD p.1 p.2 0 ≠ 0 := getD_ne_iff.mpr ⟨v, hv, hset⟩
  rw [scanned_of_empty habove]
  change m.freshLabels.getD p.1 p.2 0 = 1
  rw [getD_freshLabels, if_neg hne]

theorem not_blank_of_opens (h : m.Opens x y) : ¬m.Blank := by
  rw [← setPixels_eq_nil_iff]
  refine List.ne_nil_of_mem (a := (x, y)) (mem_setPixels.mpr (getD_ne_iff.mp ?_))
  rw [Ne, ← m.getD_scanned_eq_zero_iff y, h.2.2]
  decide

/-! ## Shapes of an object -/

theorem hull_eq_error_iff : m.hull = .error .noObjectFound ↔
    m.largestContour = .error .noObjectFound := by
  rw [hull]
  cases m.largestContour <;> simp [Except.map]

/-- What is made of a hull fails for want of an object only if the hull
does. -/
theorem bind_hull_eq_error_iff {β : Type} {k : List (Point Int) → Except Fault β}
    (hk : ∀ hull, FailsOnly (· ≠ .noObjectFound) (k hull)) :
    (m.hull >>= k) = .error .noObjectFound ↔ m.largestContour = .error .noObjectFound := by
  rw [← hull_eq_error_iff]
  cases m.hull with
  | error f => simp [bind, Except.bind]
  | ok hull =>
    have hok := fun h => hk hull .noObjectFound h rfl
    simpa [bind, Except.bind] using hok

theorem fitBox_eq_error_iff (α : Type) [Geometric α] :
    (m.fitBox : Except Fault (UprightBox α)) = .error .noObjectFound ↔
      m.largestContour = .error .noObjectFound :=
  bind_hull_eq_error_iff fun _ => failsOnly_ok _

theorem fitNgon_eq_error_iff (α : Type) [Geometric α] {sides : Nat} (h : 3 ≤ sides) :
    (m.fitNgon sides : Except Fault (Polygon α)) = .error .noObjectFound ↔
      m.largestContour = .error .noObjectFound := by
  rw [fitNgon, if_neg (by omega)]
  exact bind_hull_eq_error_iff fun hull => Ngon.fit_failsOnly (by simp) (by simp) _ sides

/-- **Which masks have a contour.** A mask has bounds exactly when a pixel of
it is set. It lacks a contour, and for want of that a hull, a box and fitted
polygons, exactly when none of its rows opens. Where the first set pixel, row
by row, is not in the first column, that is the case exactly when no pixel is
set. A row that opens has a set pixel in any case, and the pixels of a contour
are set pixels of the mask. -/
theorem contour_of_mask (m : Mask) :
    (m.bounds = .error .emptyMask ↔ m.Blank) ∧
    (m.largestContour = .error .noObjectFound ↔ ¬∃ x y, m.Opens x y) ∧
    (m.hull = .error .noObjectFound ↔ ¬∃ x y, m.Opens x y) ∧
    (∀ (α : Type) [Geometric α], (m.fitBox : Except Fault (UprightBox α)) =
      .error .noObjectFound ↔ ¬∃ x y, m.Opens x y) ∧
    (∀ (α : Type) [Geometric α] (sides : Nat), 3 ≤ sides →
      ((m.fitNgon sides : Except Fault (Polygon α)) = .error .noObjectFound ↔
        ¬∃ x y, m.Opens x y)) ∧
    ((∀ p ∈ m.setPixels.head?, 0 < p.1) → ((¬∃ x y, m.Opens x y) ↔ m.Blank)) ∧
    ((∃ x y, m.Opens x y) → ¬m.Blank) ∧
    ∀ ps, m.largestContour = .ok ps →
      ∀ p ∈ ps, ∃ x y : Nat, p = ⟨x, y⟩ ∧ (x, y) ∈ m.setPixels := by
  have hcontour : m.largestContour = .error .noObjectFound ↔ ¬∃ x y, m.Opens x y := by
    rw [largestContour_eq_error_iff, objectBorders_eq_nil_iff]
    simp
  refine ⟨bounds_eq_error_iff, hcontour, ?_, ?_, ?_, ?_, ?_, ?_⟩
  · rw [hull_eq_error_iff, hcontour]
  · intro α _
    rw [fitBox_eq_error_iff, hcontour]
  · intro α _ sides hsides
    rw [fitNgon_eq_error_iff α hsides, hcontour]
  · intro hhead
    constructor
    · intro hclosed
      rw [← setPixels_eq_nil_iff, ← List.head?_eq_none_iff]
      by_contra hne
      obtain ⟨p, hp⟩ := Option.ne_none_iff_exists'.mp hne
      exact hclosed ⟨p.1, p.2, opens_of_head hp (hhead p hp)⟩
    · rintro hblank ⟨x, y, hopens⟩
      exact not_blank_of_opens hopens hblank
  · rintro ⟨x, y, hopens⟩
    exact not_blank_of_opens hopens
  · intro ps hps p hp
    exact set_of_mem_largestContour hps hp

/-- A single set pixel at the left edge. -/
def speck : Mask := ofFn 3 3 fun x y => if x = 0 ∧ y = 1 then 255 else 0

/-- **An object at the left edge may be missed.** The mask has bounds, but its
only border is that of a hole. -/
theorem no_contour_of_speck :
    speck.largestContour = .error .noObjectFound ∧ speck.bounds = .ok ⟨0, 0, 1, 1⟩ := by
  refine ⟨largestContour_eq_error_iff.mpr ⟨rfl, objectBorders_eq_nil_iff.mpr ?_⟩, rfl⟩
  rintro ⟨x, y, hx, -, hfresh⟩
  -- its only set pixel is in the first column
  have hempty : speck.getD x y 0 = 0 := by
    have hright : ¬(x = 0 ∧ y = 1) := fun h => hx.ne' h.1
    rw [getD_eq, speck, get?_ofFn]
    simp only [hright, if_false]
    split <;> rfl
  rw [(speck.getD_scanned_eq_zero_iff y x y).mpr hempty] at hfresh
  cases hfresh

end Raster

end Montage
