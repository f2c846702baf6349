import Mathlib.Data.List.Nodup
import Montage.Proofs.Json.Tree
/-!
# JSON — records as values give them

A record is written as an object or as the list of its first fields. Either way
the value gives, for some of the keys, a value of their own (`Tree.given?`), and
that is all that is asked of it: the record starts out as it is by default, and
what is given for a field replaces that field (`Schema.value?`).

The fields of a schema are independent, so it does not matter in which order
they are replaced. Hence replacing them in the order of the members
(`Schema.ofMembers?`) or of the elements (`Schema.ofElements?`) comes to the
same as replacing them in the order of the schema.
-/

namespace Montage

namespace Json

/-! ## What is given -/

/-- The element that belongs to a key. -/
def listed (keys : List String) (ts : List Tree) (k : String) : Option Tree :=
  (keys.zip ts).lookup k

/-- The member that belongs to a key. -/
def named (ms : List (Option String × Tree)) (k : String) : Option Tree := ms.lookup (some k)

/-- What a value gives for each of the keys of a record. The elements of a list
belong to the keys in their order, and there may be fewer of them. The members
of an object say what they belong to, so their keys have to be proper texts. A
member with another key belongs to nothing, and none of the keys may have two
members. -/
def Tree.given? (keys : List String) : Tree → Option (String → Option Tree)
  | .list ts =>
    if ts.length ≤ keys.length then some (listed keys ts) else none
  | .object ms =>
    if (∀ m ∈ ms, m.1.isSome) ∧ ∀ k ∈ keys, (ms.map Prod.fst).count (some k) ≤ 1 then
      some fun k => if k ∈ keys then named ms k else none
    else none
  | _ => none

/-- The members of a record that is written as an object rather than as a
list. -/
def namedMembers (keys : List String) (ts : List Tree) : List (Option String × Tree) :=
  (keys.map some).zip ts

/-! ## Schemas -/

/-- A field of a record: its key, what it makes of a value, what the record has
there, and how that is replaced. -/
structure Slot (σ : Type) where
  key : String
  α : Type
  eval : Tree → Option α
  get : σ → α
  set : σ → α → σ
  set_get (s : σ) : set s (get s) = s

namespace Slot

variable {σ : Type}

/-- The record after a value has been put into a field. -/
def put (x : Slot σ) (s : σ) (t : Tree) : Option σ := (x.eval t).map (x.set s)

/-- Two fields that do not overwrite each other. -/
def Commutes (x y : Slot σ) : Prop := ∀ s a b, y.set (x.set s a) b = x.set (y.set s b) a

theorem Commutes.put {x y : Slot σ} (h : x.Commutes y) (s : σ) (t u : Tree) :
    ((x.put s t).bind fun s => y.put s u) = (y.put s u).bind fun s => x.put s t := by
  unfold Slot.put
  cases x.eval t with
  | none => cases y.eval u <;> rfl
  | some a =>
    cases y.eval u with
    | none => rfl
    | some b => exact congrArg some (h s a b)

end Slot

/-- The fields of a record: different keys, and none overwrites another. -/
structure Schema (σ : Type) where
  slots : List (Slot σ)
  distinct : (slots.map Slot.key).Nodup
  independent : slots.Pairwise Slot.Commutes

/-- The record in which each field that something is given for is replaced. -/
def fill {σ : Type} (given : String → Option Tree) : List (Slot σ) → σ → Option σ
  | [], s => some s
  | x :: xs, s =>
    match given x.key with
    | none => fill given xs s
    | some t => (x.put s t).bind fun s => fill given xs s

/-- What a field comes to: what is made of the value that is given for it, or
what it is by default. -/
def givenOr {α : Type} (given : String → Option Tree) (key : String) (eval : Tree → Option α)
    (default : α) : Option α :=
  (given key).elim (some default) eval

/-- A field that nothing is given for is replaced by itself. -/
theorem fill_cons {σ : Type} (given : String → Option Tree) (x : Slot σ) (xs : List (Slot σ))
    (s : σ) : fill given (x :: xs) s =
      (givenOr given x.key x.eval (x.get s)).bind fun a => fill given xs (x.set s a) := by
  rw [fill, givenOr]
  cases given x.key with
  | none =>
    simp only [Option.elim_none, Option.bind_some]
    rw [x.set_get]
  | some t => exact Option.bind_map

namespace Schema

variable {σ : Type}

/-- The keys of the fields. -/
def keys (r : Schema σ) : List String := r.slots.map Slot.key

/-- **The record that a value gives**: as it is by default, except for the fields
that something is given for. -/
def value? (r : Schema σ) (default : σ) (t : Tree) : Option σ :=
  (t.given? r.keys).bind fun given => fill given r.slots default

end Schema

/-! ## Filling in any order -/

section

variable {σ : Type} {xs : List (Slot σ)} {given given' : String → Option Tree}

/-- Only what is given for the keys of the fields matters. -/
theorem fill_congr (h : ∀ x ∈ xs, given x.key = given' x.key) (s : σ) :
    fill given xs s = fill given' xs s := by
  induction xs generalizing s with
  | nil => rfl
  | cons x xs ih =>
    have hrest := ih fun y hy => h y (List.mem_cons_of_mem x hy)
    rw [fill, fill, ← h x List.mem_cons_self]
    cases given x.key with
    | none => exact hrest s
    | some t => simp only [hrest]

theorem fill_none (h : ∀ x ∈ xs, given x.key = none) (s : σ) : fill given xs s = some s := by
  induction xs with
  | nil => rfl
  | cons x xs ih =>
    rw [fill, h x List.mem_cons_self]
    exact ih fun y hy => h y (List.mem_cons_of_mem x hy)

/-- **What is given for a field may be put into it first.** -/
theorem fill_put_first {x : Slot σ} {t : Tree} (hx : x ∈ xs) (hkeys : (xs.map Slot.key).Nodup)
    (hcommute : xs.Pairwise Slot.Commutes) (hsome : given' x.key = some t)
    (hnone : given x.key = none) (hother : ∀ k, k ≠ x.key → given' k = given k) (s : σ) :
    fill given' xs s = (x.put s t).bind fun s => fill given xs s := by
  induction xs generalizing s with
  | nil => cases hx
  | cons y xs ih =>
    obtain ⟨hnew, hkeys⟩ := List.nodup_cons.mp hkeys
    obtain ⟨hcommute, hrest⟩ := List.pairwise_cons.mp hcommute
    rcases List.mem_cons.mp hx with rfl | hx
    · have hagree : ∀ z ∈ xs, given' z.key = given z.key := fun z hz =>
        hother z.key fun he => hnew (he ▸ List.mem_map_of_mem hz)
      rw [fill, hsome]
      simp only [fill, hnone, fill_congr hagree]
    · have hy : y.key ≠ x.key := fun he => hnew (he ▸ List.mem_map_of_mem hx)
      have hrest := ih hx hkeys hrest
      rw [fill, hother y.key hy]
      cases hu : given y.key with
      | none => simp only [fill, hu, hrest]
      | some u =>
        -- the value of the first field is put in after this one, and may as well be before
        simp only [fill, hu, hrest]
        rw [← Option.bind_assoc, ← Option.bind_assoc, (hcommute x hx).put]

/-! ## Lists -/

/-- The record after elements have been put into its first fields. -/
def ofElements? : List (Slot σ) → List Tree → σ → Option σ
  | _, [], s => some s
  | [], _ :: _, _ => none
  | x :: xs, t :: ts, s => (x.put s t).bind (ofElements? xs ts)

theorem listed_cons_self (k : String) (keys : List String) (t : Tree) (ts : List Tree) :
    listed (k :: keys) (t :: ts) k = some t := by
  rw [listed, List.zip_cons_cons, List.lookup_cons, beq_self_eq_true]

theorem listed_cons_of_ne {k k' : String} (h : k' ≠ k) (keys : List String) (t : Tree)
    (ts : List Tree) : listed (k :: keys) (t :: ts) k' = listed keys ts k' := by
  rw [listed, List.zip_cons_cons, List.lookup_cons, beq_eq_false_iff_ne.mpr h, listed]

/-- **A list gives each field its element.** -/
theorem ofElements?_eq (hkeys : (xs.map Slot.key).Nodup) (ts : List Tree) (s : σ) :
    ofElements? xs ts s =
      if ts.length ≤ xs.length then fill (listed (xs.map Slot.key) ts) xs s else none := by
  induction xs generalizing ts s with
  | nil => cases ts <;> rfl
  | cons x xs ih =>
    obtain ⟨hnew, hkeys⟩ := List.nodup_cons.mp hkeys
    cases ts with
    | nil => exact (fill_none (fun _ _ => rfl) s).symm
    | cons t ts =>
      have hagree : ∀ z ∈ xs, listed ((x :: xs).map Slot.key) (t :: ts) z.key
          = listed (xs.map Slot.key) ts z.key := fun z hz =>
        listed_cons_of_ne (fun he => hnew (List.mem_map.mpr ⟨z, hz, he⟩)) _ t ts
      have hrest : ofElements? xs ts = fun s =>
          if ts.length ≤ xs.length then fill (listed (xs.map Slot.key) ts) xs s else none :=
        funext fun s => ih hkeys ts s
      rw [ofElements?, hrest, List.length_cons, List.length_cons]
      by_cases hlength : ts.length ≤ xs.length
      · rw [if_pos (Nat.succ_le_succ hlength), fill, List.map_cons, listed_cons_self,
          ← List.map_cons]
        simp only [hlength, if_true, fill_congr hagree]
      · rw [if_neg (mt Nat.le_of_succ_le_succ hlength)]
        simp only [hlength, if_false]
        cases x.put s t <;> rfl

/-! ## Objects -/

/-- The record after members have been put into their fields. A field whose key
is among those seen may not be given again. -/
def ofMembers? (xs : List (Slot σ)) : List (Option String × Tree) → List String → σ → Option σ
  | [], _, s => some s
  | (none, _) :: _, _, _ => none
  | (some k, t) :: ms, seen, s =>
    match xs.find? fun x => x.key == k with
    | some x => if seen.contains k then none else (x.put s t).bind (ofMembers? xs ms (k :: seen))
    | none => ofMembers? xs ms seen s

/-- No key is a text with a flaw, and none is given twice, those that have been
seen included. -/
def Clean (keys seen : List String) (ms : List (Option String × Tree)) : Prop :=
  (∀ m ∈ ms, m.1.isSome) ∧ ∀ k ∈ keys, seen.count k + (ms.map Prod.fst).count (some k) ≤ 1

instance (keys seen : List String) (ms : List (Option String × Tree)) :
    Decidable (Clean keys seen ms) :=
  inferInstanceAs (Decidable (_ ∧ _))

variable {keys seen : List String} {ms : List (Option String × Tree)} {k : String} {t : Tree}

theorem not_clean_none : ¬ Clean keys seen ((none, t) :: ms) := fun h => by
  cases h.1 _ List.mem_cons_self

/-- A member with another key makes no difference. -/
theorem clean_unknown (hk : k ∉ keys) :
    Clean keys seen ((some k, t) :: ms) ↔ Clean keys seen ms := by
  have hcount {k' : String} (hk' : k' ∈ keys) :
      (((some k, t) :: ms).map Prod.fst).count (some k') = (ms.map Prod.fst).count (some k') := by
    have hne : some k ≠ some k' := fun he => hk (Option.some.inj he ▸ hk')
    rw [List.map_cons, List.count_cons_of_ne hne]
  unfold Clean
  simp only [List.mem_cons, forall_eq_or_imp, Option.isSome_some, true_and]
  exact and_congr_right fun _ => forall₂_congr fun k' hk' => by rw [hcount hk']

/-- A member that is read is one of those seen. -/
theorem clean_known : Clean keys seen ((some k, t) :: ms) ↔ Clean keys (k :: seen) ms := by
  have hcount (k' : String) :
      seen.count k' + (((some k, t) :: ms).map Prod.fst).count (some k')
        = (k :: seen).count k' + (ms.map Prod.fst).count (some k') := by
    rw [List.map_cons]
    by_cases h : k = k'
    · subst h
      rw [List.count_cons_self, List.count_cons_self]
      omega
    · rw [List.count_cons_of_ne h, List.count_cons_of_ne (mt Option.some.inj h)]
  unfold Clean
  simp only [hcount, List.mem_cons, forall_eq_or_imp, Option.isSome_some, true_and]

theorem not_clean_seen (hk : k ∈ keys) (hseen : seen.contains k) :
    ¬ Clean keys seen ((some k, t) :: ms) := fun h => by
  have hpos : 0 < seen.count k := List.count_pos_iff.mpr (List.contains_iff_mem.mp hseen)
  have := h.2 k hk
  rw [List.map_cons, List.count_cons_self] at this
  omega

/-- In what is clean, a key that has been seen is not given again. -/
theorem Clean.named_seen (h : Clean keys (k :: seen) ms) (hk : k ∈ keys) : named ms k = none := by
  have hcount := h.2 k hk
  rw [List.count_cons_self] at hcount
  have hnot : some k ∉ ms.map Prod.fst := List.count_eq_zero.mp (by omega)
  refine List.lookup_eq_none_iff.mpr fun m hm => ?_
  exact bne_iff_ne.mpr fun he => hnot (he ▸ List.mem_map_of_mem hm)

theorem named_cons_self (k : String) (t : Tree) (ms : List (Option String × Tree)) :
    named ((some k, t) :: ms) k = some t := by
  rw [named, List.lookup_cons, beq_self_eq_true]

theorem named_cons_of_ne {k' : String} (h : k' ≠ k) (t : Tree) (ms : List (Option String × Tree)) :
    named ((some k, t) :: ms) k' = named ms k' := by
  rw [named, List.lookup_cons, beq_eq_false_iff_ne.mpr (mt Option.some.inj h), named]

theorem key_not_mem (h : xs.find? (fun x => x.key == k) = none) : k ∉ xs.map Slot.key := by
  intro hk
  obtain ⟨x, hx, he⟩ := List.mem_map.mp hk
  exact List.find?_eq_none.mp h x hx (beq_iff_eq.mpr he)

/-- **Members give each field its value**, in whatever order they come. -/
theorem ofMembers?_eq (hkeys : (xs.map Slot.key).Nodup) (hcommute : xs.Pairwise Slot.Commutes)
    (ms : List (Option String × Tree)) {seen : List String} (hseen : seen.Nodup) (s : σ) :
    ofMembers? xs ms seen s =
      if Clean (xs.map Slot.key) seen ms then fill (named ms) xs s else none := by
  induction ms generalizing seen s with
  | nil =>
    have hclean : Clean (xs.map Slot.key) seen [] :=
      ⟨fun _ h => (List.not_mem_nil h).elim, fun k _ => List.nodup_iff_count_le_one.mp hseen k⟩
    rw [ofMembers?, if_pos hclean, fill_none fun _ _ => rfl]
  | cons m ms ih =>
    obtain ⟨k, t⟩ := m
    cases k with
    | none => rw [ofMembers?, if_neg not_clean_none]
    | some k =>
      rw [ofMembers?]
      cases hfind : xs.find? fun x => x.key == k with
      | none =>
        have hk := key_not_mem hfind
        have hagree : ∀ x ∈ xs, named ((some k, t) :: ms) x.key = named ms x.key := fun x hx =>
          named_cons_of_ne (fun he => hk (List.mem_map.mpr ⟨x, hx, he⟩)) t ms
        simp only [clean_unknown hk, ih hseen, fill_congr hagree]
      | some x =>
        have hmem : x ∈ xs := List.mem_of_find?_eq_some hfind
        have hkey : x.key = k := beq_iff_eq.mp (List.find?_some hfind :)
        subst hkey
        have hk : x.key ∈ xs.map Slot.key := List.mem_map_of_mem hmem
        by_cases hagain : seen.contains x.key = true
        · simp only [hagain, if_true]
          rw [if_neg (not_clean_seen hk hagain)]
        · have hseen' := List.nodup_cons.mpr ⟨mt List.contains_iff_mem.mpr hagain, hseen⟩
          have hrest : ofMembers? xs ms (x.key :: seen) = fun s =>
              if Clean (xs.map Slot.key) (x.key :: seen) ms then fill (named ms) xs s else none :=
            funext fun s => ih hseen' s
          simp only [hagain, Bool.false_eq_true, if_false, clean_known, hrest]
          -- the member is put in first here, and in its field's turn by `fill`
          by_cases hclean : Clean (xs.map Slot.key) (x.key :: seen) ms
          · simp only [hclean, if_true]
            exact (fill_put_first hmem hkeys hcommute (named_cons_self x.key t ms)
              (hclean.named_seen hk) (fun k' hk' => named_cons_of_ne hk' t ms) s).symm
          · simp only [hclean, if_false]
            cases x.put s t <;> rfl

end

/-! ## Records -/

section

variable {σ : Type} {keys : List String} {ms : List (Option String × Tree)}

theorem given?_object_of_clean (h : Clean keys [] ms) :
    (Tree.object ms).given? keys = some fun k => if k ∈ keys then named ms k else none := by
  rw [Tree.given?, if_pos]
  simpa [Clean] using h

theorem given?_object_of_not_clean (h : ¬ Clean keys [] ms) :
    (Tree.object ms).given? keys = none := by
  rw [Tree.given?, if_neg]
  simpa [Clean] using h

/-- **A list gives each field its element.** -/
theorem Schema.value?_list (r : Schema σ) (start : σ) (ts : List Tree) :
    r.value? start (.list ts) = ofElements? r.slots ts start := by
  rw [ofElements?_eq r.distinct, Schema.value?, Tree.given?, Schema.keys, List.length_map]
  split <;> rfl

/-- **An object gives each field the value of its member.** -/
theorem Schema.value?_object (r : Schema σ) (start : σ) (ms : List (Option String × Tree)) :
    r.value? start (.object ms) = ofMembers? r.slots ms [] start := by
  have hfill : fill (fun k => if k ∈ r.keys then named ms k else none) r.slots start
      = fill (named ms) r.slots start :=
    fill_congr (fun x hx => if_pos (List.mem_map_of_mem hx : x.key ∈ r.keys)) start
  rw [ofMembers?_eq r.distinct r.independent ms List.nodup_nil, Schema.value?,
    show r.slots.map Slot.key = r.keys from rfl]
  by_cases h : Clean r.keys [] ms
  · rw [given?_object_of_clean h, Option.bind_some, hfill, if_pos h]
  · rw [given?_object_of_not_clean h, Option.bind_none, if_neg h]

end

/-! ## Writing a record differently -/

section

variable {keys : List String} {ms ms' : List (Option String × Tree)} {k : String} {t : Tree}

/-- In what is clean, a key has the one member that is there. -/
theorem Clean.named_eq_some_iff (h : Clean keys [] ms) (hk : k ∈ keys) :
    named ms k = some t ↔ (some k, t) ∈ ms := by
  have hcount : (ms.map Prod.fst).count (some k) ≤ 1 := by simpa using h.2 k hk
  clear h
  induction ms with
  | nil => simp [named]
  | cons m ms ih =>
    obtain ⟨k', u⟩ := m
    by_cases he : k' = some k
    · subst he
      rw [List.map_cons, List.count_cons_self] at hcount
      have hnot : (some k, t) ∉ ms := fun h => by
        have := List.count_pos_iff.mpr (List.mem_map.mpr ⟨_, h, rfl⟩ : some k ∈ ms.map Prod.fst)
        omega
      rw [named_cons_self, List.mem_cons, Prod.mk.injEq]
      simp only [hnot, or_false, true_and, Option.some.injEq, eq_comm]
    · rw [List.map_cons, List.count_cons_of_ne he] at hcount
      rw [named, List.lookup_cons, beq_eq_false_iff_ne.mpr (Ne.symm he), List.mem_cons,
        Prod.mk.injEq]
      simp only [Ne.symm he, false_and, false_or]
      exact ih hcount

theorem Clean.perm (h : ms.Perm ms') : Clean keys [] ms ↔ Clean keys [] ms' := by
  unfold Clean
  simp only [h.mem_iff, (h.map Prod.fst).count_eq]

/-- **A key that is given twice spoils the record.** -/
theorem given?_repeated (hk : k ∈ keys) (h : 2 ≤ (ms.map Prod.fst).count (some k)) :
    (Tree.object ms).given? keys = none := by
  refine given?_object_of_not_clean fun hclean => ?_
  have := hclean.2 k hk
  omega

/-- Two objects give the same if they are clean alike and have the same members
for each key. -/
theorem given?_congr (hclean : Clean keys [] ms ↔ Clean keys [] ms')
    (hnamed : Clean keys [] ms → ∀ k ∈ keys, named ms k = named ms' k) :
    (Tree.object ms).given? keys = (Tree.object ms').given? keys := by
  by_cases h : Clean keys [] ms
  · rw [given?_object_of_clean h, given?_object_of_clean (hclean.mp h)]
    refine congrArg some (funext fun k => ?_)
    by_cases hk : k ∈ keys
    · rw [if_pos hk, if_pos hk, hnamed h k hk]
    · rw [if_neg hk, if_neg hk]
  · rw [given?_object_of_not_clean h, given?_object_of_not_clean (mt hclean.mpr h)]

/-- **The order of the members does not matter.** -/
theorem given?_perm (h : ms.Perm ms') :
    (Tree.object ms).given? keys = (Tree.object ms').given? keys := by
  refine given?_congr (Clean.perm h) fun hclean k hk => Option.ext fun t => ?_
  rw [hclean.named_eq_some_iff hk, ((Clean.perm h).mp hclean).named_eq_some_iff hk, h.mem_iff]

/-- **A member with another key does not matter.** -/
theorem given?_unknown (hk : k ∉ keys) :
    (Tree.object ((some k, t) :: ms)).given? keys = (Tree.object ms).given? keys :=
  given?_congr (clean_unknown hk) fun _ k' hk' =>
    named_cons_of_ne (fun he : k' = k => hk (he ▸ hk')) t ms

theorem namedMembers_cons (k : String) (keys : List String) (t : Tree) (ts : List Tree) :
    namedMembers (k :: keys) (t :: ts) = (some k, t) :: namedMembers keys ts := rfl

theorem count_namedMembers (keys : List String) (ts : List Tree) (k : String) :
    ((namedMembers keys ts).map Prod.fst).count (some k) ≤ keys.count k := by
  induction keys generalizing ts with
  | nil => exact Nat.le_refl 0
  | cons k' keys ih =>
    cases ts with
    | nil => exact Nat.zero_le _
    | cons t ts =>
      rw [namedMembers_cons, List.map_cons]
      by_cases h : k' = k
      · subst h
        rw [List.count_cons_self, List.count_cons_self]
        exact Nat.succ_le_succ (ih ts)
      · rw [List.count_cons_of_ne h, List.count_cons_of_ne (mt Option.some.inj h)]
        exact ih ts

theorem named_namedMembers (keys : List String) (ts : List Tree) (k : String) :
    named (namedMembers keys ts) k = listed keys ts k := by
  induction keys generalizing ts with
  | nil => rfl
  | cons k' keys ih =>
    cases ts with
    | nil => rfl
    | cons t ts =>
      rw [namedMembers_cons]
      by_cases h : k = k'
      · subst h
        rw [named_cons_self, listed_cons_self]
      · rw [named_cons_of_ne h, listed_cons_of_ne h, ih]

theorem listed_eq_none (h : k ∉ keys) (ts : List Tree) : listed keys ts k = none :=
  List.lookup_eq_none_iff.mpr fun _ hm =>
    bne_iff_ne.mpr fun he => h (he ▸ (List.of_mem_zip hm).1)

/-- **A list gives what the object with its first keys gives.** -/
theorem given?_list {ts : List Tree} (hkeys : keys.Nodup) (h : ts.length ≤ keys.length) :
    (Tree.list ts).given? keys = (Tree.object (namedMembers keys ts)).given? keys := by
  have hclean : Clean keys [] (namedMembers keys ts) := by
    refine ⟨fun m hm => ?_, fun k _ => ?_⟩
    · obtain ⟨k, -, hk⟩ := List.mem_map.mp (List.of_mem_zip hm).1
      exact hk ▸ rfl
    · rw [List.count_nil, Nat.zero_add]
      exact Nat.le_trans (count_namedMembers keys ts k) (List.nodup_iff_count_le_one.mp hkeys k)
  rw [given?_object_of_clean hclean, Tree.given?, if_pos h]
  refine congrArg some (funext fun k => ?_)
  by_cases hk : k ∈ keys
  · rw [if_pos hk, named_namedMembers]
  · rw [if_neg hk, listed_eq_none hk]

/-- The value of one member may be replaced by another. -/
theorem given?_replace (hk : k ∈ keys) (t u : Tree) (ms : List (Option String × Tree)) :
    ((Tree.object ((some k, t) :: ms)).given? keys = none ∧
      (Tree.object ((some k, u) :: ms)).given? keys = none) ∨
    ∃ g g', (Tree.object ((some k, t) :: ms)).given? keys = some g ∧
      (Tree.object ((some k, u) :: ms)).given? keys = some g' ∧
      g k = some t ∧ g' k = some u ∧ ∀ k', k' ≠ k → g k' = g' k' := by
  by_cases h : Clean keys [k] ms
  · refine .inr ⟨_, _, given?_object_of_clean (clean_known.mpr h),
      given?_object_of_clean (clean_known.mpr h), ?_, ?_, fun k' hk' => ?_⟩
    · rw [if_pos hk, named_cons_self]
    · rw [if_pos hk, named_cons_self]
    · rw [named_cons_of_ne hk', named_cons_of_ne hk']
  · exact .inl ⟨given?_object_of_not_clean (mt clean_known.mp h),
      given?_object_of_not_clean (mt clean_known.mp h)⟩

end

end Json

end Montage
