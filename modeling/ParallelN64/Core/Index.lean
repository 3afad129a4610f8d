import Mathlib.Algebra.BigOperators.Group.List.Basic
import Mathlib.Data.List.AList
import Mathlib.Data.List.Zip
import ParallelN64.Core.FirstLeast

/-!
# Position indexes of a growing list

A list that only grows is indexed by a partial key of its elements. Each is specified by the
occurrences of the key in the list, and each has one lemma saying that the update made for an
appended element keeps the specification.
-/

namespace ParallelN64.Core

/-- A hash table. -/
abbrev Table (κ : Type) (β : Type) := AList fun _ : κ => β

variable {α κ β : Type} [DecidableEq κ]

/-- The elements with key `k`, each with its position, in list order. -/
def occurrences (key : α → Option κ) (xs : List α) (k : κ) : List (α × Nat) :=
  xs.zipIdx.filter fun p => key p.1 = some k

/-- The positions of the elements with key `k`, in increasing order. -/
def positions (key : α → Option κ) (xs : List α) (k : κ) : List Nat :=
  (occurrences key xs k).map Prod.snd

@[simp] theorem occurrences_nil (key : α → Option κ) (k : κ) :
    occurrences key [] k = [] := rfl

@[simp] theorem positions_nil (key : α → Option κ) (k : κ) : positions key [] k = [] := rfl

theorem occurrences_append_singleton (key : α → Option κ) (xs : List α) (x : α) (k : κ) :
    occurrences key (xs ++ [x]) k =
      occurrences key xs k ++ if key x = some k then [(x, xs.length)] else [] := by
  rw [occurrences, List.zipIdx_append, List.filter_append]
  by_cases h : key x = some k <;> simp [h, occurrences, List.zipIdx_cons]

theorem positions_append_singleton (key : α → Option κ) (xs : List α) (x : α) (k : κ) :
    positions key (xs ++ [x]) k =
      positions key xs k ++ if key x = some k then [xs.length] else [] := by
  rw [positions, occurrences_append_singleton, List.map_append]
  by_cases h : key x = some k <;> simp [h, positions]

variable {key : α → Option κ} {xs : List α} {k : κ}

theorem mem_occurrences {p : α × Nat} :
    p ∈ occurrences key xs k ↔ xs[p.2]? = some p.1 ∧ key p.1 = some k := by
  simp only [occurrences, List.mem_filter, decide_eq_true_eq, List.mem_zipIdx_iff_getElem?]

theorem mem_positions {i : Nat} :
    i ∈ positions key xs k ↔ ∃ x, xs[i]? = some x ∧ key x = some k := by
  simp only [positions, List.mem_map, mem_occurrences]
  constructor
  · rintro ⟨⟨x, j⟩, h, rfl⟩
    exact ⟨x, h⟩
  · rintro ⟨x, h⟩
    exact ⟨(x, i), h, rfl⟩

theorem lt_length_of_mem_positions {i : Nat} (h : i ∈ positions key xs k) : i < xs.length := by
  obtain ⟨x, hx, _⟩ := mem_positions.mp h
  exact (List.getElem?_eq_some_iff.mp hx).1

theorem positions_nodup (key : α → Option κ) (xs : List α) (k : κ) :
    (positions key xs k).Nodup := by
  have hn : (xs.zipIdx.map Prod.snd).Nodup := by
    rw [List.zipIdx_map_snd]
    exact List.nodup_range'
  exact hn.sublist (List.filter_sublist.map Prod.snd)

variable {x : α}

theorem count_positions (key : α → Option κ) (xs : List α) (k : κ) {i : Nat}
    (hx : xs[i]? = some x) : (positions key xs k).count i = if key x = some k then 1 else 0 := by
  by_cases h : key x = some k
  · rw [if_pos h]
    exact List.count_eq_one_of_mem (positions_nodup key xs k) (mem_positions.mpr ⟨x, hx, h⟩)
  · rw [if_neg h]
    refine List.count_eq_zero.mpr fun hi => h ?_
    obtain ⟨y, hy, hk⟩ := mem_positions.mp hi
    rwa [Option.some.inj (hx.symm.trans hy)]

theorem occurrences_map_fst (key : α → Option κ) (xs : List α) (k : κ) :
    (occurrences key xs k).map Prod.fst = xs.filter fun x => key x = some k := by
  induction xs using List.reverseRecOn with
  | nil => rfl
  | append_singleton xs x ih =>
    rw [occurrences_append_singleton, List.map_append, ih, List.filter_append]
    by_cases h : key x = some k <;> simp [h]

theorem length_occurrences (key : α → Option κ) (xs : List α) (k : κ) :
    (occurrences key xs k).length = (xs.filter fun x => key x = some k).length := by
  rw [← occurrences_map_fst, List.length_map]

/-- Appends to the group of a key. -/
def Table.push (m : Table κ (List β)) (k : κ) (b : β) : Table κ (List β) :=
  m.insert k ((m.lookup k).getD [] ++ [b])

/-- The table lists the positions of every key, and has no key without positions. -/
structure GroupIndex (m : Table κ (List Nat)) (key : α → Option κ) (xs : List α) : Prop where
  /-- Exactly the keys that occur are present, with all their positions in order. -/
  lookup : ∀ k, m.lookup k =
    if positions key xs k = [] then none else some (positions key xs k)

theorem GroupIndex.empty (key : α → Option κ) : GroupIndex (∅ : Table κ (List Nat)) key [] :=
  ⟨fun k => by simp⟩

theorem GroupIndex.getD {m : Table κ (List Nat)} (h : GroupIndex m key xs) (k : κ) :
    (m.lookup k).getD [] = positions key xs k := by
  rw [h.lookup]
  split
  next he => simp [he]
  next => rfl

theorem GroupIndex.of_lookup {m : Table κ (List Nat)} (h : GroupIndex m key xs) {is : List Nat}
    (hk : m.lookup k = some is) : is = positions key xs k := by
  have hd := h.getD k
  rwa [hk] at hd

/-- A pushed element joins the group of its key. -/
theorem GroupIndex.push {m : Table κ (List Nat)} (h : GroupIndex m key xs) (hx : key x = some k) :
    GroupIndex (m.push k xs.length) key (xs ++ [x]) := by
  refine ⟨fun k' => ?_⟩
  rw [positions_append_singleton, hx, Table.push]
  by_cases he : k' = k
  · subst k'
    rw [AList.lookup_insert, h.getD]
    simp
  · rw [AList.lookup_insert_ne he, h.lookup]
    have hne : ¬ some k = some k' := fun hk => he (Option.some.inj hk).symm
    simp [hne]

theorem GroupIndex.skip {m : Table κ (List Nat)} (h : GroupIndex m key xs) (hx : key x = none) :
    GroupIndex m key (xs ++ [x]) := by
  refine ⟨fun k => ?_⟩
  rw [positions_append_singleton, hx, h.lookup]
  simp

variable {ρ : Type} [LinearOrder ρ]

/-- The first least occurrence of a key. -/
def leastOccurrence (rank : α → ρ) (key : α → Option κ) (xs : List α) (k : κ) :
    Option (α × Nat) :=
  (occurrences key xs k).argmin fun p => rank p.1

/-- The table maps each key that occurs to its first least position. -/
structure LeastIndex (m : Table κ Nat) (rank : α → ρ) (key : α → Option κ)
    (xs : List α) : Prop where
  /-- Exactly the keys that occur are present, at their first least position. -/
  lookup : ∀ k, m.lookup k = (leastOccurrence rank key xs k).map Prod.snd

theorem LeastIndex.empty (rank : α → ρ) (key : α → Option κ) :
    LeastIndex (∅ : Table κ Nat) rank key [] :=
  ⟨fun k => by simp [leastOccurrence]⟩

variable {m : Table κ Nat} {rank : α → ρ}

theorem LeastIndex.of_lookup (h : LeastIndex m rank key xs) {i : Nat} (hk : m.lookup k = some i) :
    ∃ x, leastOccurrence rank key xs k = some (x, i) ∧ xs[i]? = some x ∧ key x = some k := by
  rw [h.lookup, Option.map_eq_some_iff] at hk
  obtain ⟨⟨x, j⟩, ha, rfl⟩ := hk
  exact ⟨x, ha, mem_occurrences.mp (List.argmin_mem ha)⟩

theorem LeastIndex.mem_iff (h : LeastIndex m rank key xs) (k : κ) :
    k ∈ m ↔ ∃ x ∈ xs, key x = some k := by
  rw [← AList.lookup_isSome, h.lookup, Option.isSome_map]
  constructor
  · intro hs
    obtain ⟨p, hp⟩ := Option.isSome_iff_exists.mp hs
    obtain ⟨hx, hk⟩ := mem_occurrences.mp (List.argmin_mem hp)
    exact ⟨p.1, List.mem_of_getElem? hx, hk⟩
  · rintro ⟨x, hx, hk⟩
    obtain ⟨i, hi⟩ := List.mem_iff_getElem?.mp hx
    have hmem : (x, i) ∈ occurrences key xs k := mem_occurrences.mpr ⟨hi, hk⟩
    rw [Option.isSome_iff_ne_none]
    intro hn
    rw [leastOccurrence, List.argmin_eq_none] at hn
    simp [hn] at hmem

theorem LeastIndex.insert_new (h : LeastIndex m rank key xs) (hx : key x = some k)
    (hk : m.lookup k = none) : LeastIndex (m.insert k xs.length) rank key (xs ++ [x]) := by
  refine ⟨fun k' => ?_⟩
  rw [leastOccurrence, occurrences_append_singleton, hx]
  by_cases he : k' = k
  · subst k'
    have hn : leastOccurrence rank key xs k = none := by
      rwa [h.lookup, Option.map_eq_none_iff] at hk
    rw [leastOccurrence] at hn
    rw [AList.lookup_insert, if_pos rfl, List.argmin_concat, hn]
    rfl
  · rw [AList.lookup_insert_ne he, h.lookup, if_neg fun hk => he (Option.some.inj hk).symm,
      List.append_nil, leastOccurrence]

/-- A smaller element takes the place of the least. -/
theorem LeastIndex.insert_less (h : LeastIndex m rank key xs) {x y : α} {i : Nat}
    (hx : key x = some k) (hk : m.lookup k = some i) (hy : xs[i]? = some y)
    (hlt : rank x < rank y) : LeastIndex (m.insert k xs.length) rank key (xs ++ [x]) := by
  refine ⟨fun k' => ?_⟩
  rw [leastOccurrence, occurrences_append_singleton, hx]
  by_cases he : k' = k
  · subst k'
    obtain ⟨z, hz, hzi, _⟩ := h.of_lookup hk
    obtain rfl : z = y := Option.some.inj (hzi.symm.trans hy)
    rw [leastOccurrence] at hz
    rw [AList.lookup_insert, if_pos rfl, List.argmin_concat, hz]
    simp [hlt]
  · rw [AList.lookup_insert_ne he, h.lookup, if_neg fun hk => he (Option.some.inj hk).symm,
      List.append_nil, leastOccurrence]

/-- An element that is not smaller changes nothing. -/
theorem LeastIndex.keep (h : LeastIndex m rank key xs) {x y : α} {i : Nat} (hx : key x = some k)
    (hk : m.lookup k = some i) (hy : xs[i]? = some y) (hge : ¬ rank x < rank y) :
    LeastIndex m rank key (xs ++ [x]) := by
  refine ⟨fun k' => ?_⟩
  rw [leastOccurrence, occurrences_append_singleton, hx]
  by_cases he : k' = k
  · subst k'
    obtain ⟨z, hz, hzi, _⟩ := h.of_lookup hk
    obtain rfl : z = y := Option.some.inj (hzi.symm.trans hy)
    rw [leastOccurrence] at hz
    rw [hk, if_pos rfl, List.argmin_concat, hz]
    simp [hge]
  · rw [h.lookup, if_neg fun hk => he (Option.some.inj hk).symm, List.append_nil, leastOccurrence]

theorem LeastIndex.skip (h : LeastIndex m rank key xs) (hx : key x = none) :
    LeastIndex m rank key (xs ++ [x]) := by
  refine ⟨fun k => ?_⟩
  rw [leastOccurrence, occurrences_append_singleton, hx, h.lookup, leastOccurrence]
  simp

theorem leastOccurrence_map_fst (rank : α → ρ) (key : α → Option κ) (xs : List α) (k : κ) :
    (leastOccurrence rank key xs k).map Prod.fst =
      (xs.filter fun x => key x = some k).argmin rank := by
  rw [← occurrences_map_fst, leastOccurrence, argmin_map]

variable {ν : Type}

/-- Counts a key once more. -/
def Table.tick (m : Table κ ν) (first : ν) (next : ν → ν) (k : κ) : Table κ ν :=
  m.insert k (((m.lookup k).map next).getD first)

/-- A key with `n ≥ 2` occurrences holds the counter of its `n - 1` later ones. -/
structure RepeatIndex (m : Table κ ν) (first : ν) (next : ν → ν) (key : α → Option κ)
    (xs : List α) : Prop where
  /-- A key that occurs at most once is absent. -/
  lookup : ∀ k, m.lookup k = if 2 ≤ (occurrences key xs k).length then
    some (next^[(occurrences key xs k).length - 2] first) else none

theorem RepeatIndex.empty (first : ν) (next : ν → ν) (key : α → Option κ) :
    RepeatIndex (∅ : Table κ ν) first next key [] :=
  ⟨fun k => by simp⟩

theorem RepeatIndex.first_seen {m : Table κ ν} {first : ν} {next : ν → ν}
    (h : RepeatIndex m first next key xs) (hx : key x = some k) (hk : occurrences key xs k = []) :
    RepeatIndex m first next key (xs ++ [x]) := by
  refine ⟨fun k' => ?_⟩
  rw [h.lookup, occurrences_append_singleton, hx]
  by_cases he : k' = k
  · subst k'
    simp [hk]
  · have hne : ¬ some k = some k' := fun hk => he (Option.some.inj hk).symm
    simp [hne]

theorem RepeatIndex.seen_again {m : Table κ ν} {first : ν} {next : ν → ν}
    (h : RepeatIndex m first next key xs) (hx : key x = some k) (hk : occurrences key xs k ≠ []) :
    RepeatIndex (m.tick first next k) first next key (xs ++ [x]) := by
  refine ⟨fun k' => ?_⟩
  rw [occurrences_append_singleton, hx, Table.tick]
  by_cases he : k' = k
  · subst k'
    have hpos : 0 < (occurrences key xs k).length := List.length_pos_of_ne_nil hk
    rw [AList.lookup_insert, h.lookup, if_pos rfl, List.length_append, List.length_singleton,
      if_pos (show 2 ≤ (occurrences key xs k).length + 1 by omega)]
    by_cases htwo : 2 ≤ (occurrences key xs k).length
    · obtain ⟨n, hn⟩ : ∃ n, (occurrences key xs k).length = n + 2 := ⟨_, (Nat.sub_add_cancel htwo).symm⟩
      rw [if_pos htwo, hn, show n + 2 + 1 - 2 = n + 1 by omega, Function.iterate_succ_apply']
      rfl
    · rw [if_neg htwo, show (occurrences key xs k).length + 1 - 2 = 0 by omega]
      rfl
  · have hne : ¬ some k = some k' := fun hk => he (Option.some.inj hk).symm
    rw [AList.lookup_insert_ne he, h.lookup]
    simp [hne]

theorem RepeatIndex.skip {m : Table κ ν} {first : ν} {next : ν → ν}
    (h : RepeatIndex m first next key xs) (hx : key x = none) :
    RepeatIndex m first next key (xs ++ [x]) := by
  refine ⟨fun k => ?_⟩
  rw [occurrences_append_singleton, hx, h.lookup]
  simp

variable {σ : Type} [LinearOrder σ]

/-- The table lists, for each key, the attributes of its elements in increasing order. -/
structure SetIndex (m : Table κ (List σ)) (key : α → Option κ) (attr : α → σ)
    (xs : List α) : Prop where
  /-- No attribute is listed twice, and the list increases. -/
  sorted : ∀ k, ((m.lookup k).getD []).Pairwise (· < ·)
  /-- Exactly the attributes that occur under the key are listed. -/
  mem_iff : ∀ k s, s ∈ (m.lookup k).getD [] ↔ ∃ x ∈ xs, key x = some k ∧ attr x = s

theorem SetIndex.empty (key : α → Option κ) (attr : α → σ) :
    SetIndex (∅ : Table κ (List σ)) key attr [] :=
  ⟨fun k => by simp, fun k s => by simp⟩

theorem SetIndex.insert {m : Table κ (List σ)} {attr : α → σ} (h : SetIndex m key attr xs)
    (hx : key x = some k) {l : List σ} (hs : l.Pairwise (· < ·))
    (hm : ∀ s, s ∈ l ↔ s = attr x ∨ s ∈ (m.lookup k).getD []) :
    SetIndex (m.insert k l) key attr (xs ++ [x]) := by
  constructor
  · intro k'
    by_cases he : k' = k
    · subst k'
      simpa only [AList.lookup_insert, Option.getD_some] using hs
    · simpa only [AList.lookup_insert_ne he] using h.sorted k'
  · intro k' s
    by_cases he : k' = k
    · subst k'
      rw [AList.lookup_insert, Option.getD_some, hm, h.mem_iff]
      simp only [List.mem_append, List.mem_singleton]
      constructor
      · rintro (rfl | ⟨y, hy, hk⟩)
        · exact ⟨x, Or.inr rfl, hx, rfl⟩
        · exact ⟨y, Or.inl hy, hk⟩
      · rintro ⟨y, hy | rfl, hk, ha⟩
        · exact Or.inr ⟨y, hy, hk, ha⟩
        · exact Or.inl ha.symm
    · rw [AList.lookup_insert_ne he, h.mem_iff]
      simp only [List.mem_append, List.mem_singleton]
      constructor
      · rintro ⟨y, hy, hk⟩
        exact ⟨y, Or.inl hy, hk⟩
      · rintro ⟨y, hy | rfl, hk, ha⟩
        · exact ⟨y, hy, hk, ha⟩
        · exact absurd (Option.some.inj (hk.symm.trans hx)) he

theorem SetIndex.skip {m : Table κ (List σ)} {attr : α → σ} (h : SetIndex m key attr xs)
    (hx : key x = none) : SetIndex m key attr (xs ++ [x]) := by
  refine ⟨h.sorted, fun k s => ?_⟩
  rw [h.mem_iff]
  simp only [List.mem_append, List.mem_singleton]
  constructor
  · rintro ⟨y, hy, hk⟩
    exact ⟨y, Or.inl hy, hk⟩
  · rintro ⟨y, hy | rfl, hk, ha⟩
    · exact ⟨y, hy, hk, ha⟩
    · rw [hx] at hk
      cases hk

/-- The sum of all counts. -/
def Table.total [Add ν] [Zero ν] (m : Table κ ν) : ν := (m.entries.map Sigma.snd).sum

theorem Table.length_keys_insert_of_mem (m : Table κ ν) (b : ν) (h : k ∈ m) :
    (m.insert k b).keys.length = m.keys.length := by
  rw [AList.keys_insert, List.length_cons, List.length_erase_of_mem (AList.mem_keys.mp h)]
  have hp : 0 < m.keys.length := List.length_pos_of_mem (AList.mem_keys.mp h)
  omega

theorem Table.length_keys_insert_of_notMem (m : Table κ ν) (b : ν) (h : k ∉ m) :
    (m.insert k b).keys.length = m.keys.length + 1 := by
  rw [AList.keys_insert, List.length_cons, List.erase_of_not_mem (mt AList.mem_keys.mpr h)]

theorem Table.total_tick [AddCommMonoid ν] (m : Table κ ν) (one : ν) (k : κ) :
    (m.tick one (· + one) k).total = m.total + one := by
  rw [Table.tick, Table.total, Table.total, AList.entries_insert, List.map_cons, List.sum_cons]
  cases hk : m.lookup k with
  | none =>
    have hn : k ∉ m.entries.keys := AList.lookup_eq_none.mp hk
    rw [List.kerase_of_notMem_keys hn]
    exact add_comm _ _
  | some v =>
    have hmem : k ∈ m.entries.keys := AList.lookup_isSome.mp (by rw [hk]; rfl)
    obtain ⟨b, l₁, l₂, hl₁, hm, he⟩ := List.exists_of_kerase hmem
    have hv : v = b := by
      have hb : (⟨k, b⟩ : Sigma fun _ : κ => ν) ∈ m.entries := by rw [hm]; simp
      have hb' := (List.mem_dlookup_iff m.nodupKeys).mpr hb
      exact Option.some.inj (hk.symm.trans hb')
    subst hv
    rw [he, hm]
    simp only [Option.map_some, Option.getD_some, List.map_append, List.map_cons, List.sum_append,
      List.sum_cons]
    ac_rfl

end ParallelN64.Core
