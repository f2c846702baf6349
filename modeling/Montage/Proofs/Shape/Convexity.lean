import Montage.Proofs.Shape.Polygon
/-!
# Convexity — what the test for it asks

The test passes over straight runs, keeps the sign of the first turn that is none,
and compares the other signs with it. They all agree with the first exactly if no
two of them differ, so the test asks whether two turns go different ways, and
nothing about the order in which they are met (`isConvex_iff`).

A turn is at three vertices in a row (`mem_turns_iff`). So it does not matter from
which vertex on a polygon is listed, and walked the other way it takes each turn the
other way (`mem_turns_reverse`). A vertex put on an edge adds a straight run and makes
the turns at the ends of the edge smaller (`exists_scaled_of_onEdge`).
-/

namespace Montage

section

variable {K : Type} [Field K] [LinearOrder K] [FloorRing K]

attribute [local instance] Scalar.exact

/-! ## Signs -/

namespace Scalar

variable {x y : K}

theorem sign_of_pos (h : 0 < x) : sign x = 1 := by
  rw [sign, if_neg, if_pos, one_exact]
  · rwa [lt_exact, zero_exact]
  · rw [lt_exact, zero_exact]
    exact h.not_gt

theorem sign_of_neg (h : x < 0) : sign x = -1 := by
  rw [sign, if_pos, one_exact]
  rwa [lt_exact, zero_exact]

@[simp] theorem same_exact (x y : K) : same x y = true ↔ x = y := by
  rw [same, Bool.and_eq_true, le_exact, le_exact, le_antisymm_iff]

/-- Signs that agree with the first one agree with each other. -/
theorem all_same_iff (signs : List K) :
    (match signs with
      | [] => true
      | s :: rest => rest.all fun t => same t s) = true ↔
      ∀ s ∈ signs, ∀ t ∈ signs, s = t := by
  cases signs with
  | nil => simp
  | cons u rest =>
    simp only [List.all_eq_true, same_exact]
    constructor
    · intro h
      have hall : ∀ s ∈ u :: rest, s = u := List.forall_mem_cons.mpr ⟨rfl, h⟩
      intro s hs t ht
      rw [hall s hs, hall t ht]
    · intro h t ht
      exact h t (List.mem_cons_of_mem u ht) u List.mem_cons_self

end Scalar

/-- The point lies on the edge from `a` to `b`, strictly between its ends. -/
def Point.OnEdge (m a b : Point K) : Prop :=
  ∃ k : K, 0 < k ∧ k < 1 ∧ m = ⟨a.x + k * (b.x - a.x), a.y + k * (b.y - a.y)⟩

namespace Polygon

variable {vs ws rest : List (Point K)} {a b c m : Point K} {p : Polygon K} {s t : K}
variable {ts us : List K}

theorem straightTurn_exact : (straightTurn : K) = 1 / 10 ^ 9 := by
  rw [straightTurn, Scalar.ofDecimal_exact, Nat.cast_one]

theorem straightTurn_pos [IsStrictOrderedRing K] : (0 : K) < straightTurn := by
  rw [straightTurn_exact]
  positivity

/-! ## Turns by their vertices -/

/-- The vertex at a place, counted around the polygon. -/
def vertexAt (p : Polygon K) (i : ℕ) : Point K :=
  p.vertices.getD (i % p.vertices.length) ⟨0, 0⟩

/-- The turn of the path from the vertex at a place through the next two. -/
def turnAt (p : Polygon K) (i : ℕ) : K :=
  (p.vertexAt i).turn (p.vertexAt (i + 1)) (p.vertexAt (i + 2))

omit [LinearOrder K] [FloorRing K] in
theorem vertexAt_eq_getElem_rotate {i k : ℕ} (h : i < (vs.rotate k).length) :
    (mk vs).vertexAt (i + k) = (vs.rotate k)[i] := by
  have hpos : 0 < vs.length := by
    rw [List.length_rotate] at h
    exact Nat.zero_lt_of_lt h
  have hlt : (i + k) % vs.length < vs.length := Nat.mod_lt _ hpos
  rw [vertexAt, List.getElem_rotate, List.getD_eq_getElem?_getD, List.getElem?_eq_getElem hlt,
    Option.getD_some]

/-- **The turns of a polygon** are those at its places. -/
theorem turns_eq (p : Polygon K) : p.turns = (List.range p.vertices.length).map p.turnAt := by
  obtain ⟨vs⟩ := p
  refine List.ext_getElem ?_ fun i hi hi' => ?_
  · rw [turns, List.length_zipWith, length_edges, rotatedBy_two, List.length_rotate,
      List.length_map, List.length_range, Nat.min_self]
  · have hlt : i < vs.length := by simpa using hi'
    have hvertex : ∀ k (h : i < (vs.rotate k).length), (vs.rotate k)[i] = (mk vs).vertexAt (i + k) :=
      fun k h => (vertexAt_eq_getElem_rotate h).symm
    have hzero : vs[i] = (mk vs).vertexAt i := by
      simpa using hvertex 0 (by rwa [List.length_rotate])
    simp only [turns, edges_eq_zip, rotatedBy_two, List.getElem_zipWith, List.getElem_zip,
      List.getElem_map, List.getElem_range, turnAt, hvertex, hzero]

theorem turns_rotate (vs : List (Point K)) (n : ℕ) :
    (mk (vs.rotate n)).turns = (mk vs).turns.rotate n := zipWith_edges_rotate _ vs n

/-- **A turn** is at three vertices in a row. -/
theorem mem_turns_iff (hlen : 3 ≤ vs.length) :
    t ∈ (mk vs).turns ↔ ∃ a b c rest, vs ~r a :: b :: c :: rest ∧ a.turn b c = t := by
  constructor
  · intro ht
    obtain ⟨n, hn⟩ := exists_head?_rotate_of_mem ht
    rw [← turns_rotate] at hn
    rw [← List.length_rotate vs n] at hlen
    obtain ⟨a, b, c, rest, hturned⟩ := exists_three_of_length hlen
    rw [hturned] at hn
    exact ⟨a, b, c, rest, ⟨n, hturned⟩, Option.some.inj hn⟩
  · rintro ⟨a, b, c, rest, ⟨n, hturned⟩, rfl⟩
    have hfirst : a.turn b c ∈ (mk (vs.rotate n)).turns := by
      rw [hturned]
      exact List.mem_cons_self
    rwa [turns_rotate, List.mem_rotate] at hfirst

/-- A strictly convex polygon has all its turns to one side. -/
theorem Turning.of_mem_turns {side : K} (h : Turning side vs) (hlen : 3 ≤ vs.length)
    (ht : t ∈ (mk vs).turns) : 0 < side * t := by
  obtain ⟨a, b, c, rest, hrow, rfl⟩ := (mem_turns_iff hlen).mp ht
  exact (h.of_isRotated hrow).first_pos

/-- From wherever it is listed, a polygon has the same turns. -/
theorem mem_turns_of_isRotated (h : vs ~r ws) : t ∈ (mk vs).turns ↔ t ∈ (mk ws).turns := by
  obtain ⟨n, rfl⟩ := h
  rw [turns_rotate, List.mem_rotate]

theorem neg_mem_turns_reverse (hlen : 3 ≤ vs.length) (ht : t ∈ (mk vs).turns) :
    -t ∈ (mk vs.reverse).turns := by
  obtain ⟨a, b, c, rest, hrow, rfl⟩ := (mem_turns_iff hlen).mp ht
  have hback : vs.reverse ~r c :: b :: a :: rest.reverse := by
    have hreverse := hrow.reverse
    have hsplit : (a :: b :: c :: rest).reverse = rest.reverse ++ [c, b, a] := by simp
    rw [hsplit] at hreverse
    exact hreverse.trans List.isRotated_append
  rw [mem_turns_iff (by rwa [List.length_reverse])]
  exact ⟨c, b, a, rest.reverse, hback, Point.turn_swap a b c⟩

/-- Walked the other way, a polygon takes each turn the other way. -/
theorem mem_turns_reverse (hlen : 3 ≤ vs.length) :
    t ∈ (mk vs.reverse).turns ↔ -t ∈ (mk vs).turns := by
  constructor
  · intro ht
    have hagain := neg_mem_turns_reverse (by rwa [List.length_reverse]) ht
    rwa [List.reverse_reverse] at hagain
  · intro ht
    have hback := neg_mem_turns_reverse hlen ht
    rwa [neg_neg] at hback

/-! ## Vertices put on edges -/

/-- A vertex put between two others takes part in three turns, and leaves those that
are neither at the edge's ends as they are. -/
theorem exists_turns_insert (a b c : Point K) (rest : List (Point K)) :
    ∃ (z : Point K) (others : List K),
      (mk (a :: b :: c :: rest)).turns = a.turn b c :: (others ++ [z.turn a b]) ∧
      ∀ m, (mk (a :: m :: b :: c :: rest)).turns =
        a.turn m b :: m.turn b c :: (others ++ [z.turn a m]) := by
  obtain ⟨before, z, hlast⟩ : ∃ before z, b :: c :: rest = before ++ [z] :=
    ⟨_, _, (List.dropLast_append_getLast (List.cons_ne_nil b (c :: rest))).symm⟩
  have hlen : before.length = (c :: rest).length := by
    have := congrArg List.length hlast
    simpa using this.symm
  let turnOf : Point K × Point K → Point K → K := fun e v => e.1.turn e.2 v
  let others := List.zipWith turnOf (before.zip (c :: rest)) (rest ++ [a])
  -- of the turns from `b` on, only the last depends on what follows `a`
  have htail : ∀ v, List.zipWith turnOf ((b :: c :: rest).zip (c :: rest ++ [a])) (rest ++ [a, v]) =
      others ++ [z.turn a v] := by
    intro v
    have hsplit : rest ++ [a, v] = (rest ++ [a]) ++ [v] := by simp
    rw [hlast, List.zip_append hlen, hsplit, List.zipWith_append]
    · rfl
    · simp [hlen]
  refine ⟨z, others, ?_, fun m => ?_⟩
  · rw [← htail b, turns, edges_cons, rotatedBy_two]
    rfl
  · rw [← htail m, turns, edges_cons, rotatedBy_two]
    rfl

variable [IsStrictOrderedRing K]

/-- **A vertex put on an edge** makes no turn greater: each turn is a fraction of one
that was there, and has its direction. -/
theorem exists_scaled_of_onEdge (hm : m.OnEdge a b) (hlen : 3 ≤ vs.length)
    (hvs : vs ~r a :: b :: rest) (hws : ws ~r a :: m :: b :: rest) (hs : s ∈ (mk ws).turns) :
    ∃ t ∈ (mk vs).turns, ∃ k, 0 ≤ k ∧ k ≤ 1 ∧ s = k * t := by
  obtain ⟨_, _, c, rest, hrow⟩ := exists_three_of_length (hvs.perm.length_eq ▸ hlen)
  cases hrow
  obtain ⟨k, hpos, hlt, rfl⟩ := hm
  obtain ⟨z, others, hold, hnew⟩ := exists_turns_insert a b c rest
  rw [mem_turns_of_isRotated hws, hnew] at hs
  simp only [mem_turns_of_isRotated hvs, hold, List.mem_cons, List.mem_append, List.not_mem_nil,
    or_false] at hs ⊢
  rcases hs with rfl | rfl | hs | rfl
  · refine ⟨_, .inl rfl, 0, le_rfl, zero_le_one, ?_⟩
    simp only [Point.turn]
    ring
  · refine ⟨_, .inl rfl, 1 - k, by linarith, by linarith, ?_⟩
    simp only [Point.turn]
    ring
  · exact ⟨s, .inr (.inl hs), 1, zero_le_one, le_rfl, (one_mul s).symm⟩
  · refine ⟨_, .inr (.inr rfl), k, hpos.le, hlt.le, ?_⟩
    simp only [Point.turn]
    ring

/-! ## The test -/

/-- No turn to the one side meets a turn to the other, straight runs apart. -/
def OneWay (ts : List K) : Prop :=
  ∀ s ∈ ts, ∀ t ∈ ts, ¬(straightTurn ≤ s ∧ t ≤ -straightTurn)

/-- The signs that the test compares are those of the turns that are no straight
runs. -/
theorem mem_signs_iff :
    s ∈ (p.turns.filter fun t => !Scalar.lt (Scalar.abs t) straightTurn).map Scalar.sign ↔
      (s = 1 ∧ ∃ t ∈ p.turns, straightTurn ≤ t) ∨ (s = -1 ∧ ∃ t ∈ p.turns, t ≤ -straightTurn) := by
  have hpos : (0 : K) < straightTurn := straightTurn_pos
  simp only [List.mem_map, List.mem_filter, Bool.not_eq_true', ← Bool.not_eq_true,
    Scalar.lt_exact, Scalar.abs_exact, not_lt, le_abs]
  constructor
  · rintro ⟨t, ⟨ht, hright | hleft⟩, rfl⟩
    · exact .inl ⟨Scalar.sign_of_pos (hpos.trans_le hright), t, ht, hright⟩
    · exact .inr ⟨Scalar.sign_of_neg (by linarith), t, ht, by linarith⟩
  · rintro (⟨rfl, t, ht, hright⟩ | ⟨rfl, t, ht, hleft⟩)
    · exact ⟨t, ⟨ht, .inl hright⟩, Scalar.sign_of_pos (hpos.trans_le hright)⟩
    · exact ⟨t, ⟨ht, .inr (by linarith)⟩, Scalar.sign_of_neg (by linarith)⟩

/-- **The test for convexity** asks for three vertices, and for turns that all go one
way. -/
theorem isConvex_iff : p.isConvex = true ↔ 3 ≤ p.vertices.length ∧ OneWay p.turns := by
  rw [isConvex, Bool.and_eq_true, decide_eq_true_iff]
  refine and_congr_right fun _ => (Scalar.all_same_iff _).trans ?_
  simp only [mem_signs_iff]
  constructor
  · rintro h s hs t ht ⟨hright, hleft⟩
    have hone : (1 : K) = -1 := h 1 (.inl ⟨rfl, s, hs, hright⟩) (-1) (.inr ⟨rfl, t, ht, hleft⟩)
    linarith
  · rintro h _ (⟨rfl, s, hs, hright⟩ | ⟨rfl, s, hs, hleft⟩) _
      (⟨rfl, t, ht, hright'⟩ | ⟨rfl, t, ht, hleft'⟩)
    · rfl
    · exact absurd ⟨hright, hleft'⟩ (h s hs t ht)
    · exact absurd ⟨hright', hleft⟩ (h t ht s hs)
    · rfl

/-- A polygon that turns clockwise at all triples passes the test. -/
theorem Turning.isConvex (h : Turning 1 vs) (hlen : 3 ≤ vs.length) : (mk vs).isConvex = true := by
  refine isConvex_iff.mpr ⟨hlen, fun _ _ t ht hways => ?_⟩
  have hpos := h.of_mem_turns hlen ht
  rw [one_mul] at hpos
  linarith [hways.2, straightTurn_pos (K := K)]

/-- Turns that are fractions of turns that go one way do so too. -/
theorem OneWay.of_scaled (h : OneWay us)
    (hscaled : ∀ s ∈ ts, ∃ t ∈ us, ∃ k, 0 ≤ k ∧ k ≤ 1 ∧ s = k * t) : OneWay ts := by
  -- a fraction that is beyond straight runs is one of something beyond them
  have hbeyond : ∀ k t : K, 0 ≤ k → k ≤ 1 → straightTurn ≤ k * t → straightTurn ≤ t := by
    intro k t hk hone hbig
    have hpos : 0 < k * t := straightTurn_pos.trans_le hbig
    exact hbig.trans (mul_le_of_le_one_left (pos_of_mul_pos_right hpos hk).le hone)
  intro s' hs' t' ht' hways
  obtain ⟨s, hs, k, hk, hone, rfl⟩ := hscaled s' hs'
  obtain ⟨t, ht, l, hl, hone', rfl⟩ := hscaled t' ht'
  have hright := hbeyond k s hk hone hways.1
  have hleft := hbeyond l (-t) hl hone' (by linarith)
  exact h s hs t ht ⟨hright, by linarith⟩

/-- Turns that are all taken the other way go one way if they did. -/
theorem OneWay.of_neg (h : OneWay us) (hneg : ∀ s ∈ ts, -s ∈ us) : OneWay ts := by
  rintro s hs t ht ⟨hright, hleft⟩
  exact h (-t) (hneg t ht) (-s) (hneg s hs) ⟨by linarith, by linarith⟩

/-! ## What does not change the answer -/

theorem isConvex_of_isRotated (h : vs ~r ws) : (mk vs).isConvex = (mk ws).isConvex := by
  have hturns : OneWay (mk vs).turns ↔ OneWay (mk ws).turns := by
    simp only [OneWay, mem_turns_of_isRotated h]
  rw [Bool.eq_iff_iff, isConvex_iff, isConvex_iff, hturns, h.perm.length_eq]

theorem isConvex_reverse (vs : List (Point K)) : (mk vs.reverse).isConvex = (mk vs).isConvex := by
  have hturns : 3 ≤ vs.length → (OneWay (mk vs.reverse).turns ↔ OneWay (mk vs).turns) := by
    intro hlen
    constructor
    · intro h
      refine h.of_neg fun s hs => (mem_turns_reverse hlen).mpr ?_
      rwa [neg_neg]
    · intro h
      exact h.of_neg fun s hs => (mem_turns_reverse hlen).mp hs
  rw [Bool.eq_iff_iff, isConvex_iff, isConvex_iff, List.length_reverse]
  exact and_congr_right hturns

/-- **A vertex put on an edge** leaves a convex polygon convex. -/
theorem isConvex_of_onEdge (hm : m.OnEdge a b) (hvs : vs ~r a :: b :: rest)
    (hws : ws ~r a :: m :: b :: rest) (h : (mk vs).isConvex = true) : (mk ws).isConvex = true := by
  obtain ⟨hlen, hway⟩ := isConvex_iff.mp h
  refine isConvex_iff.mpr ⟨?_, hway.of_scaled fun s hs =>
    exists_scaled_of_onEdge hm hlen hvs hws hs⟩
  have hold := hvs.perm.length_eq
  have hnew := hws.perm.length_eq
  change 3 ≤ vs.length at hlen
  change 3 ≤ ws.length
  rw [hold, List.length_cons, List.length_cons] at hlen
  rw [hnew, List.length_cons, List.length_cons, List.length_cons]
  omega

/-- **What the test for convexity tells.** A polygon passes it exactly if it has at
least three vertices and no two places at which it turns, beyond straight runs, to
different sides. The test says the same from whichever vertex on the polygon is
listed, and in both directions. A vertex put on an edge, the closing one included,
leaves a convex polygon convex. -/
theorem isConvex_law (p : Polygon K) :
    (p.isConvex = true ↔ 3 ≤ p.vertices.length ∧
      ¬∃ i < p.vertices.length, ∃ j < p.vertices.length,
        1 / 10 ^ 9 ≤ p.turnAt i ∧ p.turnAt j ≤ -(1 / 10 ^ 9)) ∧
    (∀ q : Polygon K, q.vertices ~r p.vertices ∨ q.vertices ~r p.vertices.reverse →
      q.isConvex = p.isConvex) ∧
    ∀ a m b rest, m.OnEdge a b → p.vertices ~r a :: b :: rest →
      ∀ q : Polygon K, q.vertices ~r a :: m :: b :: rest →
        p.isConvex = true → q.isConvex = true := by
  refine ⟨?_, ?_, fun a m b rest hm hp q hq => isConvex_of_onEdge hm hp hq⟩
  · rw [isConvex_iff, OneWay, turns_eq, straightTurn_exact]
    refine and_congr_right fun _ => ?_
    simp only [List.mem_map, List.mem_range, forall_exists_index, and_imp,
      forall_apply_eq_imp_iff₂, not_exists, not_and]
  · rintro q (h | h)
    · exact isConvex_of_isRotated h
    · exact (isConvex_of_isRotated h).trans (isConvex_reverse p.vertices)

/-- A square. -/
def slate : Polygon ℚ := ⟨[⟨0, 0⟩, ⟨2, 0⟩, ⟨2, 2⟩, ⟨0, 2⟩]⟩

/-- The square has a vertex put on its closing edge, and is listed from another corner
and the other way. -/
theorem isConvex_law_of_slate :
    slate.isConvex = true ∧ (Point.mk 0 1).OnEdge (⟨0, 2⟩ : Point ℚ) ⟨0, 0⟩ ∧
      (Polygon.mk [⟨2, 2⟩, ⟨2, 0⟩, ⟨0, 0⟩, ⟨0, 2⟩] : Polygon ℚ).isConvex = true ∧
      (Polygon.mk [⟨0, 0⟩, ⟨2, 0⟩, ⟨2, 2⟩, ⟨0, 2⟩, ⟨0, 1⟩] : Polygon ℚ).isConvex = true := by
  have hconvex : slate.isConvex = true := by decide +kernel
  have hedge : (Point.mk 0 1).OnEdge (⟨0, 2⟩ : Point ℚ) ⟨0, 0⟩ :=
    ⟨1 / 2, by norm_num, by norm_num, by norm_num⟩
  obtain ⟨-, hlisted, hput⟩ := isConvex_law slate
  refine ⟨hconvex, hedge, ?_, ?_⟩
  · exact (hlisted _ (.inr ⟨3, rfl⟩)).trans hconvex
  · exact hput _ _ _ [⟨2, 0⟩, ⟨2, 2⟩] hedge ⟨3, rfl⟩ _ ⟨3, rfl⟩ hconvex

end Polygon

end

end Montage
