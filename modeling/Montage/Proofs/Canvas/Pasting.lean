import Mathlib.Data.List.ProdSigma
import Montage.Canvas.Reposition
import Montage.Proofs.Mask.Bounds
import Montage.Proofs.Raster
/-!
# Pasting — what the loops leave on a canvas

A window joins each coordinate of the canvas to at most one coordinate of the
resized raster (`Window.Joins`). The loops of `paste` run over the joined rows
and, in each, over the joined columns (`mem_pairs`). So a pixel of the canvas
that is joined on both axes shows the pixel of the raster that it is joined to
(`get?_paste_of_joins`), and every other one stays as it was
(`get?_paste_of_unjoined`).

`pasteChecked` is the same pair of loops with every access checked.
`pasteChecked_eq` says that none of them leaves its raster, whatever the
windows are. `reposition_pixel_law` collects this for a photo and its mask,
which go through the same windows.
-/

namespace Montage

variable {α : Type}

/-! ## The coordinates that a window joins -/

/-- A window joins the coordinate `s` of a raster of length `resized` to the
coordinate `t` of the canvas when `t` lies in its stretch of the canvas and
`s` is as far into its stretch of the raster as `t` is into that. The raster
has to reach as far as `s`. -/
def Window.Joins (w : Window) (resized s t : Nat) : Prop :=
  w.target ≤ t ∧ t < w.target + w.length ∧ (s : Int) = t - w.target + w.source ∧ s < resized

/-- Two coordinates of a raster that are joined to one of the canvas are the
same. -/
theorem Window.Joins.unique {w : Window} {resized s s' t : Nat} (h : w.Joins resized s t)
    (h' : w.Joins resized s' t) : s = s' := by
  obtain ⟨-, -, hs, -⟩ := h
  obtain ⟨-, -, hs', -⟩ := h'
  omega

/-- **The loops run over the joined coordinates**, those on the canvas. -/
theorem Window.mem_pairs {w : Window} {resized canvas s t : Nat} :
    (s, t) ∈ w.pairs resized canvas ↔ w.Joins resized s t ∧ t < canvas := by
  simp only [pairs, Joins, List.mem_filterMap, List.mem_range]
  constructor
  · rintro ⟨i, hi, h⟩
    split at h
    · cases h
    · next hin =>
      simp only [Bool.or_eq_true, decide_eq_true_eq] at hin
      simp only [Option.some.injEq, Prod.mk.injEq] at h
      omega
  · rintro ⟨⟨hlow, hhigh, hs, hresized⟩, hcanvas⟩
    refine ⟨(t - w.target).toNat, by omega, ?_⟩
    rw [if_neg (by simp only [Bool.or_eq_true, decide_eq_true_eq]; omega)]
    simp only [Option.some.injEq, Prod.mk.injEq]
    omega

/-! ## What the loops leave -/

/-- The copies that the two loops make, in their order: a row with each of
the columns, row by row. -/
theorem paste_eq_foldl [Channels α] (r : Resampling α) (x y : Window) (canvas : Raster α) :
    paste r x y canvas =
      ((y.pairs r.size.height canvas.height) ×ˢ (x.pairs r.size.width canvas.width)).foldl
        (fun c p => c.set p.2.2 p.1.2 (r.sample p.2.1 p.1.1)) canvas := by
  unfold paste
  generalize y.pairs r.size.height canvas.height = rows
  generalize x.pairs r.size.width canvas.width = columns
  induction rows generalizing canvas with
  | nil => rfl
  | cons row rest ih =>
    rw [List.foldl_cons, ih, List.product_cons, List.foldl_append, List.foldl_map]
    rfl

section

variable [Channels α] {r : Resampling α} {x y : Window} {canvas : Raster α} {tx ty : Nat}

/-- **A pixel that is joined on both axes shows what it is joined to.** -/
theorem get?_paste_of_joins {sx sy : Nat} (hx : x.Joins r.size.width sx tx)
    (hy : y.Joins r.size.height sy ty) (htx : tx < canvas.width) (hty : ty < canvas.height) :
    (paste r x y canvas).get? tx ty = some (r.sample sx sy) := by
  rw [paste_eq_foldl]
  refine Raster.get?_foldl_set_of_mem _ _ _ ((Raster.isSome_get? ..).mpr ⟨htx, hty⟩) ?_ ?_
  · refine ⟨((sy, ty), (sx, tx)), List.mem_product.mpr ⟨?_, ?_⟩, rfl, rfl⟩
    · exact Window.mem_pairs.mpr ⟨hy, hty⟩
    · exact Window.mem_pairs.mpr ⟨hx, htx⟩
  · -- no other copy ends here: a window joins a coordinate to one at most
    rintro ⟨⟨sy', ty'⟩, ⟨sx', tx'⟩⟩ hp ⟨rfl, rfl⟩
    obtain ⟨hrow, hcolumn⟩ := List.mem_product.mp hp
    have hsx : sx' = sx := (Window.mem_pairs.mp hcolumn).1.unique hx
    have hsy : sy' = sy := (Window.mem_pairs.mp hrow).1.unique hy
    rw [hsx, hsy]

/-- **A pixel that is not joined on both axes stays as it was.** -/
theorem get?_paste_of_unjoined
    (h : ¬∃ sx sy, x.Joins r.size.width sx tx ∧ y.Joins r.size.height sy ty) :
    (paste r x y canvas).get? tx ty = canvas.get? tx ty := by
  rw [paste_eq_foldl]
  refine Raster.get?_foldl_set_of_forall_ne _ _ _ _ _ ?_
  rintro ⟨⟨sy, ty'⟩, ⟨sx, tx'⟩⟩ hp ⟨rfl, rfl⟩
  obtain ⟨hrow, hcolumn⟩ := List.mem_product.mp hp
  exact h ⟨sx, sy, (Window.mem_pairs.mp hcolumn).1, (Window.mem_pairs.mp hrow).1⟩

end

/-! ## No access leaves its raster

The loops once more, now between two rasters and with every access checked:
they come to nothing as soon as one of them leaves its raster. -/

/-- The raster with another sample at a pixel, or nothing if it has no such
pixel. -/
def Raster.put? (r : Raster α) (x y : Nat) (a : α) : Option (Raster α) :=
  if x < r.width ∧ y < r.height then some (r.set x y a) else none

/-- A canvas with one pixel of a raster copied to it, if both pixels exist. -/
def copyChecked (source : Raster α) (row : Nat × Nat) (canvas : Raster α) (column : Nat × Nat) :
    Option (Raster α) := do
  let a ← source.get? column.1 row.1
  canvas.put? column.2 row.2 a

/-- The loops of pasting with every access checked. -/
def pasteChecked (source : Raster α) (x y : Window) (canvas : Raster α) : Option (Raster α) :=
  (y.pairs source.height canvas.height).foldlM (fun c row =>
    (x.pairs source.width canvas.width).foldlM (copyChecked source row) c) canvas

/-- A loop whose steps succeed where an invariant holds, and keep it, is the
loop of what they yield. -/
theorem foldlM_eq_some_foldl {β γ : Type} {f : β → γ → Option β} {g : β → γ → β} (I : β → Prop)
    {l : List γ} (step : ∀ b, I b → ∀ a ∈ l, f b a = some (g b a) ∧ I (g b a)) {b : β}
    (hb : I b) : l.foldlM f b = some (l.foldl g b) := by
  induction l generalizing b with
  | nil => rfl
  | cons a rest ih =>
    obtain ⟨hstep, hI⟩ := step b hb a List.mem_cons_self
    rw [List.foldlM_cons, hstep, List.foldl_cons]
    exact ih (fun b hb a ha => step b hb a (List.mem_cons_of_mem _ ha)) hI

theorem Raster.get?_resized [Channels α] (r : Raster α) {s : Size} {x y : Nat} (hx : x < s.width)
    (hy : y < s.height) : (r.resized s).get? x y = some ((Resampling.ofRaster r s).sample x y) := by
  rw [resized, get?_ofFn, if_pos ⟨hx, hy⟩]

/-- **No access of the loops leaves its raster**, whatever the two windows
are: checked or not, they leave the same canvas. -/
theorem pasteChecked_eq [Channels α] (r : Raster α) (s : Size) (x y : Window)
    (canvas : Raster α) :
    pasteChecked (r.resized s) x y canvas = some (paste (.ofRaster r s) x y canvas) := by
  refine foldlM_eq_some_foldl (fun c => c.size = canvas.size) ?_ rfl
  rintro c hc ⟨sy, ty⟩ hrow
  obtain ⟨⟨-, -, -, hsy⟩, hty⟩ := Window.mem_pairs.mp hrow
  have hcopy : ∀ c' : Raster α, c'.size = canvas.size →
      ∀ column ∈ x.pairs (r.resized s).width canvas.width,
      copyChecked (r.resized s) (sy, ty) c' column =
          some (c'.set column.2 ty ((Resampling.ofRaster r s).sample column.1 sy)) ∧
        (c'.set column.2 ty ((Resampling.ofRaster r s).sample column.1 sy)).size =
          canvas.size := by
    rintro c' hc' ⟨sx, tx⟩ hcolumn
    obtain ⟨⟨-, -, -, hsx⟩, htx⟩ := Window.mem_pairs.mp hcolumn
    have hwidth : c'.width = canvas.width := congrArg Size.width hc'
    have hheight : c'.height = canvas.height := congrArg Size.height hc'
    refine ⟨?_, hc'⟩
    rw [copyChecked, Raster.get?_resized r hsx hsy]
    exact if_pos ⟨by rw [hwidth]; exact htx, by rw [hheight]; exact hty⟩
  exact ⟨foldlM_eq_some_foldl _ hcopy hc, by rw [size_pasteRow]; exact hc⟩

/-! ## A photo and its mask in lockstep -/

/-- **The pixel law of a layout.** A photo and a mask fill the canvas. A pixel
that both windows join shows the pixel of the resized photo and, of the
resized mask, the *same* pixel; every other one shows the fill colour, and no
object. -/
structure Layout.PixelLaw (l : Layout) (photo : Photo) (mask : Mask) (spec : PlacementSpec)
    (c : Cut) : Prop where
  size_photo : c.photo.size = spec.canvas
  size_mask : c.mask.size = spec.canvas
  joined : ∀ tx ty sx sy, tx < spec.canvas.width → ty < spec.canvas.height →
    l.x.Joins l.resized.width sx tx → l.y.Joins l.resized.height sy ty →
    ∃ p m, (photo.resized l.resized).get? sx sy = some p ∧ c.photo.get? tx ty = some p ∧
      (mask.resized l.resized).get? sx sy = some m ∧ c.mask.get? tx ty = some m
  unjoined : ∀ tx ty, tx < spec.canvas.width → ty < spec.canvas.height →
    (¬∃ sx sy, l.x.Joins l.resized.width sx tx ∧ l.y.Joins l.resized.height sy ty) →
    c.photo.get? tx ty = some spec.fill ∧ c.mask.get? tx ty = some 0

section

variable [Channels α] {l : Layout} {canvas : Size} {tx ty : Nat}

theorem Layout.get?_compose_of_joins (r : Raster α) (fill : α) {sx sy : Nat}
    (hx : l.x.Joins l.resized.width sx tx) (hy : l.y.Joins l.resized.height sy ty)
    (htx : tx < canvas.width) (hty : ty < canvas.height) :
    ∃ a, (r.resized l.resized).get? sx sy = some a ∧
      (l.compose r canvas fill).get? tx ty = some a :=
  ⟨_, Raster.get?_resized r hx.2.2.2 hy.2.2.2, get?_paste_of_joins hx hy htx hty⟩

theorem Layout.get?_compose_of_unjoined (r : Raster α) (fill : α) (htx : tx < canvas.width)
    (hty : ty < canvas.height)
    (h : ¬∃ sx sy, l.x.Joins l.resized.width sx tx ∧ l.y.Joins l.resized.height sy ty) :
    (l.compose r canvas fill).get? tx ty = some fill := by
  rw [compose, get?_paste_of_unjoined h, Raster.filled, Raster.get?_ofFn, if_pos ⟨htx, hty⟩]

end

theorem Layout.pixelLaw_compose (l : Layout) (photo : Photo) (mask : Mask)
    (spec : PlacementSpec) :
    l.PixelLaw photo mask spec
      ⟨l.compose photo spec.canvas spec.fill, l.compose mask spec.canvas 0⟩ where
  size_photo := size_compose ..
  size_mask := size_compose ..
  joined := by
    intro tx ty sx sy htx hty hx hy
    obtain ⟨p, hp, hp'⟩ := get?_compose_of_joins photo spec.fill hx hy htx hty
    obtain ⟨m, hm, hm'⟩ := get?_compose_of_joins mask 0 hx hy htx hty
    exact ⟨p, m, hp, hp', hm, hm'⟩
  unjoined := by
    intro tx ty htx hty h
    exact ⟨get?_compose_of_unjoined photo _ htx hty h, get?_compose_of_unjoined mask _ htx hty h⟩

/-- **Repositioning, pixel by pixel.** It fails for flawed settings, else for
unequal extents, else for a blank mask, and for nothing else. Otherwise the
photo and the mask that it yields obey the pixel law of one layout; and no
access of the loops that make them leaves its raster, whatever the windows
are. -/
theorem reposition_pixel_law (photo : Photo) (mask : Mask) (spec : PlacementSpec) :
    (∀ f, reposition photo mask spec = .error f ↔
      (∃ flaw, spec.validate = .error (.invalidSetting flaw) ∧ f = .invalidSetting flaw) ∨
      (spec.validate = .ok () ∧ photo.size ≠ mask.size ∧
        f = .sizeMismatch photo.size mask.size) ∨
      (spec.validate = .ok () ∧ photo.size = mask.size ∧ mask.Blank ∧ f = .emptyMask)) ∧
    (spec.validate = .ok () → photo.size = mask.size → ¬mask.Blank →
      ∃ b c, mask.bounds? = some b ∧ reposition photo mask spec = .ok c ∧
        (Layout.ofBounds b photo.size spec).PixelLaw photo mask spec c) ∧
    (∀ (s : Size) (x y : Window) (canvas : Photo),
      pasteChecked (photo.resized s) x y canvas = some (paste (.ofRaster photo s) x y canvas)) ∧
    ∀ (s : Size) (x y : Window) (canvas : Mask),
      pasteChecked (mask.resized s) x y canvas = some (paste (.ofRaster mask s) x y canvas) := by
  refine ⟨fun f => ?_, fun hv hs hm => ?_, pasteChecked_eq photo, pasteChecked_eq mask⟩
  · rw [reposition_eq, PlacementSpec.validate_eq_ok_iff]
    simp only [PlacementSpec.validate_eq_error_iff]
    cases spec.flaw? with
    | some flaw => simp [eq_comm]
    | none =>
      by_cases hs : photo.size = mask.size
      · by_cases hm : mask.Blank
        · simp [hs, hm, Raster.bounds?_eq_none_iff.mpr hm, eq_comm]
        · obtain ⟨b, hb⟩ := Raster.exists_bounds hm
          simp [hs, hm, hb]
      · simp [hs, eq_comm]
  · obtain ⟨b, hb⟩ := Raster.exists_bounds hm
    refine ⟨b, _, hb, ?_, Layout.pixelLaw_compose _ photo mask spec⟩
    rw [reposition_eq, PlacementSpec.validate_eq_ok_iff.mp hv, if_pos hs, hb]

end Montage
