import Mathlib.Data.List.Rotate
import Mathlib.Data.List.Triplewise
import Mathlib.Tactic.LinearCombination
import Montage.Proofs.Exact
import Montage.Shape.Polygon
/-!
# Polygons — what does not depend on the first vertex

Turning the vertex list of a polygon turns its edges with it, and reversing it
reverses each edge. So the signed area is the same from any vertex on
(`signedArea_of_isRotated`) and changes its sign when the polygon is walked
the other way (`signedArea_reverse`). An ear that is cut off takes away just
its triangle (`signedArea_ear`).

A polygon is strictly convex when any three of its vertices, in their order,
turn to the same side: `Turning side vs`. Then all of it lies on that side of
each edge (`Turning.side_of_mem_edges`), and the area has the sign of the side
(`Turning.signedArea_pos`). The chosen order, clockwise from the origin, is
one of the turned lists of a polygon or of its reverse, and the only one if a
single vertex is nearest to the origin (`vertices_fromOrigin_of_isRotated`).
-/

namespace Montage

/-! ## Lists that are turned -/

section

variable {α : Type} {vs ws : List α} {a b : α}

theorem rotatedBy_eq_rotate {n : ℕ} (h : n ≤ vs.length) : rotatedBy n vs = vs.rotate n :=
  (List.rotate_eq_drop_append_take h).symm

theorem rotatedBy_one (vs : List α) : rotatedBy 1 vs = vs.rotate 1 := by
  cases vs with
  | nil => rfl
  | cons a rest => exact rotatedBy_eq_rotate (Nat.succ_pos _)

theorem rotatedBy_two (vs : List α) : rotatedBy 2 vs = vs.rotate 2 := by
  match vs with
  | [] => rfl
  | [a] => exact (List.rotate_singleton a 2).symm
  | _ :: _ :: rest => exact rotatedBy_eq_rotate (Nat.le_add_left 2 rest.length)

theorem rotatedBy_isRotated (n : ℕ) (vs : List α) : rotatedBy n vs ~r vs := by
  have h : vs.drop n ++ vs.take n ~r vs.take n ++ vs.drop n := List.isRotated_append
  rwa [List.take_append_drop] at h

/-- Two lists that are turned into each other and begin with an element that
comes once are the same. -/
theorem eq_of_isRotated_cons (h : a :: vs ~r a :: ws) (ha : a ∉ ws) : vs = ws := by
  obtain ⟨n, hn⟩ := h.symm
  rw [← List.rotate_mod] at hn
  have hlt : n % (a :: ws).length < (a :: ws).length := Nat.mod_lt _ (Nat.succ_pos _)
  cases hk : n % (a :: ws).length with
  | zero =>
    rw [hk, List.rotate_zero] at hn
    exact (List.cons.inj hn).2.symm
  | succ k =>
    -- the first element of the turned list stood at place `k` of `ws`
    rw [hk] at hn hlt
    have hhead : ((a :: ws).rotate (k + 1))[0]? = some a := by rw [hn]; rfl
    rw [List.getElem?_rotate (Nat.succ_pos _), Nat.zero_add, Nat.mod_eq_of_lt hlt,
      List.getElem?_cons_succ] at hhead
    exact absurd (List.mem_of_getElem? hhead) ha

/-- A list of two elements and more begins with two. -/
theorem exists_cons_cons_of_length (h : 2 ≤ vs.length) : ∃ a b rest, vs = a :: b :: rest := by
  obtain ⟨a, tail, rfl⟩ := List.exists_cons_of_length_pos (Nat.lt_of_lt_of_le Nat.zero_lt_two h)
  rw [List.length_cons] at h
  obtain ⟨b, rest, rfl⟩ := List.exists_cons_of_length_pos (Nat.lt_of_succ_lt_succ h)
  exact ⟨a, b, rest, rfl⟩

theorem exists_three_of_length (h : 3 ≤ vs.length) : ∃ a b c rest, vs = a :: b :: c :: rest := by
  obtain ⟨a, b, tail, rfl⟩ := exists_cons_cons_of_length (Nat.le_of_succ_le h)
  obtain ⟨c, rest, rfl⟩ := List.exists_cons_of_length_pos
    (Nat.le_of_succ_le_succ (Nat.le_of_succ_le_succ h))
  exact ⟨a, b, c, rest, rfl⟩

theorem exists_four_of_length (h : 4 ≤ vs.length) :
    ∃ a b c d rest, vs = a :: b :: c :: d :: rest := by
  obtain ⟨a, b, tail, rfl⟩ := exists_cons_cons_of_length (Nat.le_of_add_right_le (k := 2) h)
  obtain ⟨c, d, rest, rfl⟩ :=
    exists_cons_cons_of_length (Nat.le_of_succ_le_succ (Nat.le_of_succ_le_succ h))
  exact ⟨a, b, c, d, rest, rfl⟩

/-- Each element of a list comes first when the list is turned. -/
theorem exists_head?_rotate_of_mem (h : a ∈ vs) : ∃ n, (vs.rotate n).head? = some a := by
  obtain ⟨n, hn, rfl⟩ := List.mem_iff_getElem.mp h
  exact ⟨n, by rw [List.head?_rotate hn, List.getElem?_eq_getElem hn]⟩

end

namespace Polygon

/-! ## Edges -/

section

variable {α : Type} {vs ws : List (Point α)} {a b : Point α}

theorem edges_eq_zip (vs : List (Point α)) : (mk vs).edges = vs.zip (vs.rotate 1) := by
  rw [edges, rotatedBy_one]

theorem edges_cons (a : Point α) (vs : List (Point α)) :
    (mk (a :: vs)).edges = (a :: vs).zip (vs ++ [a]) := by
  rw [edges_eq_zip, List.rotate_cons_succ, List.rotate_zero]

theorem edges_rotate (vs : List (Point α)) (n : ℕ) :
    (mk (vs.rotate n)).edges = (mk vs).edges.rotate n := by
  rw [edges_eq_zip, edges_eq_zip, List.zip_eq_zipWith, List.zip_eq_zipWith,
    List.zipWith_rotate_distrib _ _ _ _ (List.length_rotate vs 1).symm, List.rotate_rotate,
    List.rotate_rotate, Nat.add_comm]

theorem length_edges (vs : List (Point α)) : (mk vs).edges.length = vs.length := by
  rw [edges_eq_zip, List.length_zip, List.length_rotate, Nat.min_self]

/-- What is read off each edge and the vertex after it turns with the polygon. -/
theorem zipWith_edges_rotate {β : Type} (f : Point α × Point α → Point α → β)
    (vs : List (Point α)) (n : ℕ) :
    List.zipWith f (mk (vs.rotate n)).edges (rotatedBy 2 (vs.rotate n)) =
      (List.zipWith f (mk vs).edges (rotatedBy 2 vs)).rotate n := by
  have hlen : (mk vs).edges.length = (vs.rotate 2).length := by
    rw [length_edges, List.length_rotate]
  rw [edges_rotate, rotatedBy_two, rotatedBy_two, List.zipWith_rotate_distrib _ _ _ _ hlen,
    List.rotate_rotate, List.rotate_rotate, Nat.add_comm]

theorem edges_isRotated (h : vs ~r ws) : (mk vs).edges ~r (mk ws).edges := by
  obtain ⟨n, rfl⟩ := h
  exact ⟨n, (edges_rotate vs n).symm⟩

theorem mem_edges_of_isRotated (h : vs ~r ws) {e : Point α × Point α} :
    e ∈ (mk vs).edges ↔ e ∈ (mk ws).edges := (edges_isRotated h).mem_iff

theorem mem_of_mem_edges {e : Point α × Point α} (h : e ∈ (mk vs).edges) :
    e.1 ∈ vs ∧ e.2 ∈ vs := by
  rw [edges_eq_zip] at h
  obtain ⟨hfst, hsnd⟩ := List.of_mem_zip h
  exact ⟨hfst, List.mem_rotate.mp hsnd⟩

/-- Walked the other way, a polygon has its edges the other way round. -/
theorem edges_reverse_perm (vs : List (Point α)) :
    List.Perm (mk vs.reverse).edges ((mk vs).edges.map Prod.swap) := by
  cases vs with
  | nil => exact List.Perm.refl _
  | cons a rest =>
    -- the reversed list, turned by one, is the reverse of the list turned by one
    have hone : (a :: rest).rotate 1 = rest ++ [a] := by
      rw [List.rotate_cons_succ, List.rotate_zero]
    have hturned : (a :: rest).reverse ~r (rest ++ [a]).reverse :=
      List.IsRotated.reverse ⟨1, hone⟩
    have hzip : (mk (rest ++ [a]).reverse).edges = ((a :: rest).zip (rest ++ [a])).reverse.map
        Prod.swap := by
      have hlen : (a :: rest).length = (rest ++ [a]).length := by simp
      rw [List.zip_eq_zipWith, List.reverse_zipWith hlen, ← List.zip_eq_zipWith, List.zip_swap]
      rw [List.reverse_append, List.reverse_cons, List.reverse_nil, List.nil_append,
        List.cons_append, List.nil_append, edges_cons, List.reverse_cons]
    refine (edges_isRotated hturned).perm.trans ?_
    rw [hzip, edges_cons]
    exact (List.reverse_perm _).map _

theorem mem_edges_reverse {e : Point α × Point α} :
    e ∈ (mk vs.reverse).edges ↔ e.swap ∈ (mk vs).edges := by
  rw [(edges_reverse_perm vs).mem_iff, List.mem_map]
  constructor
  · rintro ⟨e', he', rfl⟩
    rwa [Prod.swap_swap]
  · intro h
    exact ⟨e.swap, h, Prod.swap_swap e⟩

/-- A polygon can be listed from any of its edges on. -/
theorem exists_isRotated_of_mem_edges {e : Point α × Point α} (h : e ∈ (mk vs).edges)
    (hlen : 2 ≤ vs.length) : ∃ rest, vs ~r e.1 :: e.2 :: rest := by
  obtain ⟨n, hn⟩ := exists_head?_rotate_of_mem h
  rw [← edges_rotate] at hn
  rw [← List.length_rotate vs n] at hlen
  obtain ⟨a, b, rest, hturned⟩ := exists_cons_cons_of_length hlen
  rw [hturned] at hn
  cases hn
  exact ⟨rest, n, hturned⟩

end

/-! ## The chosen list, in any arithmetic -/

section

variable {α : Type} [Scalar α]

theorem clockwise_vertices (p : Polygon α) :
    p.clockwise.vertices = p.vertices ∨ p.clockwise.vertices = p.vertices.reverse := by
  rw [clockwise]
  split
  · exact .inr rfl
  · exact .inl rfl

theorem vertices_fromOrigin_isRotated (p : Polygon α) : p.fromOrigin.vertices ~r p.vertices :=
  rotatedBy_isRotated _ _

theorem length_canonical (p : Polygon α) :
    p.clockwise.fromOrigin.vertices.length = p.vertices.length := by
  rw [(vertices_fromOrigin_isRotated _).perm.length_eq]
  rcases p.clockwise_vertices with h | h
  · rw [h]
  · rw [h, List.length_reverse]

end

end Polygon

/-! ## Turns -/

section

variable {K : Type} [Field K] [LinearOrder K] [FloorRing K]

attribute [local instance] Scalar.exact

namespace Point

/-- Twice the area of the triangle between the origin and two points. -/
def cross (a b : Point K) : K := a.x * b.y - b.x * a.y

theorem turn_eq_cross (a b c : Point K) : a.turn b c = a.cross b + b.cross c + c.cross a := by
  simp only [turn, cross]
  ring

theorem turn_rotate (a b c : Point K) : b.turn c a = a.turn b c := by
  simp only [turn]
  ring

theorem turn_swap (a b c : Point K) : c.turn b a = -a.turn b c := by
  simp only [turn]
  ring

theorem turn_swap_left (a b c : Point K) : b.turn a c = -a.turn b c := by
  simp only [turn]
  ring

@[simp] theorem turn_self_left (a c : Point K) : a.turn a c = 0 := by
  simp only [turn]
  ring

@[simp] theorem turn_self_right (a b : Point K) : a.turn b b = 0 := by
  simp only [turn]
  ring

@[simp] theorem turn_self_ends (a b : Point K) : a.turn b a = 0 := by
  simp only [turn]
  ring

end Point

namespace Polygon

variable {vs ws : List (Point K)} {a b c : Point K} {side : K}

/-! ## Areas -/

theorem signedArea_eq (p : Polygon K) :
    p.signedArea = (p.edges.map fun e => e.1.cross e.2).sum / 2 := by
  rw [signedArea, Scalar.sum_exact, Scalar.ofNat_exact]
  rfl

theorem signedArea_of_isRotated (h : vs ~r ws) : (mk vs).signedArea = (mk ws).signedArea := by
  rw [signedArea_eq, signedArea_eq, ((edges_isRotated h).map _).perm.sum_eq]

theorem signedArea_reverse (vs : List (Point K)) :
    (mk vs.reverse).signedArea = -(mk vs).signedArea := by
  have hswap : ∀ e : Point K × Point K, e.swap.1.cross e.swap.2 = -e.1.cross e.2 := by
    intro e
    simp only [Point.cross, Prod.fst_swap, Prod.snd_swap]
    ring
  have hsum : ((mk vs.reverse).edges.map fun e => e.1.cross e.2).sum =
      -((mk vs).edges.map fun e => e.1.cross e.2).sum := by
    rw [((edges_reverse_perm vs).map _).sum_eq, List.map_map, List.sum_neg, List.map_map]
    exact congrArg List.sum (List.map_congr_left fun e _ => hswap e)
  rw [signedArea_eq, signedArea_eq, hsum, neg_div]

theorem signedArea_pair (a b : Point K) : (mk [a, b]).signedArea = 0 := by
  rw [signedArea_eq, edges_cons]
  simp [Point.cross]

/-- **An ear of a polygon.** A vertex that is left out takes the triangle with
its neighbours away. -/
theorem signedArea_ear (a b c : Point K) (vs : List (Point K)) :
    (mk (a :: b :: c :: vs)).signedArea = (mk (a :: c :: vs)).signedArea + a.turn b c / 2 := by
  rw [signedArea_eq, signedArea_eq, edges_cons, edges_cons]
  simp only [List.cons_append, List.zip_cons_cons, List.map_cons, List.sum_cons,
    Point.turn_eq_cross, Point.cross]
  ring

/-- A step around a polygon that is taken back. -/
theorem sum_edges_sub (f : Point K → K) (vs : List (Point K)) :
    ((mk vs).edges.map fun e => f e.2 - f e.1).sum = 0 := by
  have hfst : (mk vs).edges.map (fun e => f e.1) = vs.map f := by
    rw [edges_eq_zip, ← Function.comp_def, ← List.map_map, List.map_fst_zip]
    exact (List.length_rotate vs 1).ge
  have hsnd : (mk vs).edges.map (fun e => f e.2) = (vs.rotate 1).map f := by
    rw [edges_eq_zip, ← Function.comp_def, ← List.map_map, List.map_snd_zip]
    exact (List.length_rotate vs 1).le
  have hsum : ((mk vs).edges.map fun e => f e.2 - f e.1).sum + (vs.map f).sum =
      ((vs.rotate 1).map f).sum := by
    rw [← hfst, ← hsnd, ← List.sum_map_add]
    simp only [sub_add_cancel]
  rwa [((List.rotate_perm vs 1).map f).sum_eq, add_eq_right] at hsum

/-- **Points on one line** have no area. -/
theorem signedArea_eq_zero_of_forall {m n k : K} (hmn : m * m + n * n ≠ 0)
    (h : ∀ v ∈ vs, m * v.x + n * v.y = k) : (mk vs).signedArea = 0 := by
  have hcross : ∀ e ∈ (mk vs).edges, e.1.cross e.2 =
      k / (m * m + n * n) * ((m * e.2.y - n * e.2.x) - (m * e.1.y - n * e.1.x)) := by
    intro e he
    obtain ⟨hfst, hsnd⟩ := mem_of_mem_edges he
    have hcleared : (m * m + n * n) * e.1.cross e.2 =
        k * ((m * e.2.y - n * e.2.x) - (m * e.1.y - n * e.1.x)) := by
      rw [Point.cross]
      linear_combination (m * e.2.y - n * e.2.x) * h e.1 hfst - (m * e.1.y - n * e.1.x) * h e.2 hsnd
    rw [div_mul_eq_mul_div, ← hcleared, mul_div_cancel_left₀ _ hmn]
  rw [signedArea_eq, List.map_congr_left hcross, List.sum_map_mul_left,
    sum_edges_sub (fun v => m * v.y - n * v.x), mul_zero, zero_div]

/-! ## Strict convexity -/

/-- Any three points of a list turn to the given side, in their order. -/
def Turning (side : K) (vs : List (Point K)) : Prop :=
  vs.Triplewise fun a b c => 0 < side * a.turn b c

/-- **A strictly convex polygon.** It has at least three vertices, and any
three of them, in their order, turn to the same side. -/
def StrictlyConvex (p : Polygon K) : Prop :=
  3 ≤ p.vertices.length ∧ (Turning 1 p.vertices ∨ Turning (-1) p.vertices)

namespace Turning

/-- The turn at the second point. -/
theorem first_pos (h : Turning side (a :: b :: c :: vs)) : 0 < side * a.turn b c :=
  (List.pairwise_cons.mp (List.triplewise_cons.mp h).1).1 c List.mem_cons_self

theorem tail (h : Turning side (a :: vs)) : Turning side vs := (List.triplewise_cons.mp h).2

theorem rotate (h : Turning side vs) (n : ℕ) : Turning side (vs.rotate n) := by
  induction n generalizing vs with
  | zero => rwa [List.rotate_zero]
  | succ n ih =>
    cases vs with
    | nil => rwa [List.rotate_nil]
    | cons a rest =>
      rw [List.rotate_cons_succ]
      obtain ⟨hfirst, hrest⟩ := List.triplewise_cons.mp h
      refine ih (List.triplewise_append.mpr ⟨hrest, List.triplewise_singleton _ _, ?_, ?_⟩)
      · intro x _
        exact List.pairwise_singleton _ _
      · intro y hy
        obtain rfl := List.mem_singleton.mp hy
        refine hfirst.imp fun {p q} hpq => ?_
        rwa [Point.turn_rotate]

theorem of_isRotated (h : Turning side vs) (hr : vs ~r ws) : Turning side ws := by
  obtain ⟨n, rfl⟩ := hr
  exact h.rotate n

/-- Points that are left out leave the turns of the others as they are. -/
theorem sublist (h : Turning side vs) (hsub : ws.Sublist vs) : Turning side ws := by
  induction hsub with
  | slnil => exact h
  | cons a _ ih => exact ih h.tail
  | cons_cons a hsub ih =>
    obtain ⟨hfirst, hrest⟩ := List.triplewise_cons.mp h
    exact List.triplewise_cons.mpr ⟨hfirst.sublist hsub, ih hrest⟩

theorem reverse (h : Turning side vs) : Turning (-side) vs.reverse := by
  refine List.triplewise_reverse.mpr (List.Triplewise.imp (fun {a b c} habc => ?_) h)
  rwa [Point.turn_swap, neg_mul_neg]

/-- Each edge of a strictly convex polygon has all vertices on one side. -/
theorem side_of_mem_edges (h : Turning side vs) (hlen : 2 ≤ vs.length)
    {e : Point K × Point K} (he : e ∈ (mk vs).edges) {v : Point K} (hv : v ∈ vs) :
    0 ≤ side * e.1.turn e.2 v := by
  obtain ⟨rest, hr⟩ := exists_isRotated_of_mem_edges he hlen
  have hfirst := (List.triplewise_cons.mp (h.of_isRotated hr)).1
  rcases List.mem_cons.mp (hr.mem_iff.mp hv) with rfl | hv
  · rw [Point.turn_self_ends, mul_zero]
  · rcases List.mem_cons.mp hv with rfl | hv
    · rw [Point.turn_self_right, mul_zero]
    · exact ((List.pairwise_cons.mp hfirst).1 v hv).le

/-- The area of a strictly convex polygon has the sign of the side to which
it turns: each ear adds to it. -/
theorem signedArea_pos [IsStrictOrderedRing K] (h : Turning side vs) (hlen : 3 ≤ vs.length) :
    0 < side * (mk vs).signedArea := by
  obtain ⟨a, b, c, rest, rfl⟩ := exists_three_of_length hlen
  clear hlen
  induction rest generalizing b c with
  | nil =>
    rw [signedArea_ear, signedArea_pair, zero_add, mul_div_assoc']
    exact div_pos h.first_pos two_pos
  | cons d rest ih =>
    have hear : Turning side (a :: c :: d :: rest) :=
      h.sublist (.cons_cons a (List.sublist_cons_self b (c :: d :: rest)))
    rw [signedArea_ear, mul_add, mul_div_assoc']
    exact add_pos (ih c d hear) (div_pos h.first_pos two_pos)

/-- The vertices of a strictly convex polygon are pairwise distinct. -/
theorem nodup (h : Turning side vs) (hlen : 3 ≤ vs.length) : vs.Nodup := by
  obtain ⟨a, b, c, rest, rfl⟩ := exists_three_of_length hlen
  have hfirst := (List.triplewise_cons.mp h).1
  refine List.nodup_cons.mpr ⟨fun ha => ?_, hfirst.imp fun {p q} hpos heq => ?_⟩
  · have hsecond := (List.pairwise_cons.mp hfirst).1
    rcases List.mem_cons.mp ha with rfl | ha
    · have hpos := hsecond c List.mem_cons_self
      rw [Point.turn_self_left, mul_zero] at hpos
      exact lt_irrefl _ hpos
    · have hpos := hsecond a ha
      rw [Point.turn_self_ends, mul_zero] at hpos
      exact lt_irrefl _ hpos
  · rw [heq, Point.turn_self_right, mul_zero] at hpos
    exact lt_irrefl _ hpos

/-- An edge of a strictly convex polygon has two ends. -/
theorem ne_of_mem_edges (h : Turning side vs) (hlen : 3 ≤ vs.length) {e : Point K × Point K}
    (he : e ∈ (mk vs).edges) : e.1 ≠ e.2 := by
  obtain ⟨rest, hr⟩ := exists_isRotated_of_mem_edges he (Nat.le_of_succ_le hlen)
  rw [hr.perm.length_eq] at hlen
  obtain ⟨a, b, c, rest', heq⟩ := exists_three_of_length hlen
  cases heq
  intro hsame
  have hpos := (h.of_isRotated hr).first_pos
  rw [hsame, Point.turn_self_left, mul_zero] at hpos
  exact lt_irrefl _ hpos

end Turning

/-! ## The chosen winding and the chosen start -/

theorem clockwise_of_nonneg {p : Polygon K} (h : 0 ≤ p.signedArea) : p.clockwise = p := by
  rw [clockwise, if_neg]
  rw [Scalar.lt_exact, Scalar.zero_exact]
  exact h.not_gt

theorem clockwise_of_neg {p : Polygon K} (h : p.signedArea < 0) :
    p.clockwise = mk p.vertices.reverse := by
  rw [clockwise, if_pos]
  rwa [Scalar.lt_exact, Scalar.zero_exact]

/-- **No vertex is nearer to the origin than the first.** -/
theorem coordSum_le_of_fromOrigin {p : Polygon K} {o : Point K} {rest : List (Point K)}
    (h : p.fromOrigin.vertices = o :: rest) {v : Point K} (hv : v ∈ p.vertices) :
    o.coordSum ≤ v.coordSum := by
  let sums := p.vertices.map Point.coordSum
  let first := fun s => sums.all fun t => Scalar.notAfter s t
  have hsums : sums ≠ [] := List.ne_nil_of_mem (List.mem_map_of_mem hv)
  have hfirst : ∀ s, first s = true ↔ ∀ t ∈ sums, s ≤ t := by
    intro s
    simp only [first, List.all_eq_true, Scalar.notAfter_exact]
  have hex : ∃ s ∈ sums, first s = true :=
    ⟨Scalar.leastOf sums, Scalar.leastOf_mem hsums,
      (hfirst _).mpr fun t ht => Scalar.leastOf_le ht⟩
  have hlt : sums.findIdx first < sums.length := List.findIdx_lt_length_of_exists hex
  have hleast := (hfirst _).mp (List.findIdx_getElem (w := hlt)) v.coordSum (List.mem_map_of_mem hv)
  have hindex : p.originIndex < p.vertices.length := by
    rw [← List.length_map Point.coordSum]
    exact hlt
  have hhead : p.vertices[p.originIndex] = o := by
    have hrotate : p.vertices.rotate p.originIndex = o :: rest := by
      rw [← rotatedBy_eq_rotate hindex.le]
      exact h
    have := List.head?_rotate hindex
    rw [hrotate, List.head?_cons, List.getElem?_eq_getElem hindex] at this
    exact (Option.some.inj this).symm
  calc o.coordSum = p.vertices[p.originIndex].coordSum := by rw [hhead]
    _ = sums[sums.findIdx first] := (List.getElem_map _).symm
    _ ≤ v.coordSum := hleast

/-- **With a single vertex nearest to the origin there is one start**, from
wherever the vertices were listed. -/
theorem vertices_fromOrigin_of_isRotated {p : Polygon K} {o : Point K} {rest : List (Point K)}
    (h : p.vertices ~r o :: rest) (hlt : ∀ v ∈ rest, o.coordSum < v.coordSum) :
    p.fromOrigin.vertices = o :: rest := by
  have hr : p.fromOrigin.vertices ~r o :: rest := p.vertices_fromOrigin_isRotated.trans h
  obtain ⟨o', rest', heq⟩ := List.exists_cons_of_ne_nil (l := p.fromOrigin.vertices) (by
    intro hnil
    rw [hnil] at hr
    exact absurd hr.perm.length_eq (by simp))
  rw [heq] at hr ⊢
  have hle : o'.coordSum ≤ o.coordSum :=
    coordSum_le_of_fromOrigin heq (h.mem_iff.mpr List.mem_cons_self)
  have ho : o' = o := by
    rcases List.mem_cons.mp (hr.mem_iff.mp List.mem_cons_self) with he | hrest
    · exact he
    · exact absurd (hlt o' hrest) hle.not_gt
  subst ho
  rw [eq_of_isRotated_cons hr fun hmem => lt_irrefl _ (hlt o' hmem)]

end Polygon

end

end Montage
