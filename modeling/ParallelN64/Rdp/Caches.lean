import Mathlib.Data.List.Basic
import Mathlib.Data.List.Nodup
import Mathlib.Data.List.Infix

/-!
# The caches of a batch

The renderer gathers what the primitives of a batch need in arrays of fixed size. A stream
cache appends one element for each primitive. A state cache keeps every state once: it tries
the index it returned last, then searches its elements from the end, and appends the state
only where it finds none.
-/

namespace ParallelN64.Rdp

theorem getElem?_of_prefix {α : Type} {l l' : List α} (h : l <+: l') {i : Nat} {a : α}
    (ha : l[i]? = some a) : l'[i]? = some a := by
  obtain ⟨tail, rfl⟩ := h
  exact (List.getElem?_append_left (List.getElem?_eq_some_iff.mp ha).1).trans ha

/-- An array of at most `N` elements that are appended one by one. -/
structure StreamCache (α : Type) (N : Nat) where
  elements : List α := []
  length_le : elements.length ≤ N := by exact Nat.zero_le _

namespace StreamCache

variable {α : Type} {N : Nat}

def size (c : StreamCache α N) : Nat := c.elements.length

def full (c : StreamCache α N) : Bool := c.size == N

def add (c : StreamCache α N) (t : α) : Option (StreamCache α N) :=
  if h : c.elements.length < N then
    some ⟨c.elements ++ [t], by rw [List.length_append, List.length_singleton]; exact h⟩
  else none

theorem exists_add {c : StreamCache α N} (h : c.size < N) (t : α) :
    ∃ c', c.add t = some c' ∧ c'.elements = c.elements ++ [t] :=
  ⟨_, dif_pos h, rfl⟩

def addAll (c : StreamCache α N) (ts : List α) : Option (StreamCache α N) := ts.foldlM add c

theorem exists_addAll {c : StreamCache α N} {ts : List α} (h : c.size + ts.length ≤ N) :
    ∃ c', c.addAll ts = some c' ∧ c'.elements = c.elements ++ ts := by
  induction ts generalizing c with
  | nil => exact ⟨c, rfl, (List.append_nil _).symm⟩
  | cons t ts ih =>
    rw [List.length_cons] at h
    obtain ⟨first, hadd, hfirst⟩ := exists_add (show c.size < N by omega) t
    have hsize : first.size = c.size + 1 := by
      rw [size, hfirst, List.length_append, List.length_singleton, size]
    obtain ⟨last, haddAll, hlast⟩ := ih (c := first) (by omega)
    refine ⟨last, ?_, ?_⟩
    · rw [addAll, List.foldlM_cons, hadd]
      exact haddAll
    · rw [hlast, hfirst, List.append_assoc, List.singleton_append]

end StreamCache

/-- An array of at most `N` different states, and the index that was returned last. -/
structure StateCache (α : Type) (N : Nat) where
  elements : List α := []
  cachedIndex : Option Nat := none
  length_le : elements.length ≤ N := by exact Nat.zero_le _
  nodup : elements.Nodup := by exact List.nodup_nil
  cached_lt : ∀ i ∈ cachedIndex, i < elements.length := by exact nofun

namespace StateCache

variable {α : Type} {N : Nat}

def size (c : StateCache α N) : Nat := c.elements.length

def full (c : StateCache α N) : Bool := c.size == N

variable [DecidableEq α]

def cachedHit (c : StateCache α N) (t : α) : Option Nat :=
  c.cachedIndex.filter fun i => c.elements[i]? = some t

def search (c : StateCache α N) (t : α) : Option Nat :=
  (List.range c.elements.length).reverse.find? fun i => c.elements[i]? = some t

variable {c : StateCache α N}

theorem getElem?_of_search {t : α} {i : Nat} (h : c.search t = some i) :
    c.elements[i]? = some t := by
  rw [search] at h
  simpa using List.find?_some h

theorem notMem_of_search {t : α} (h : c.search t = none) : t ∉ c.elements := by
  intro hmem
  obtain ⟨i, hi, hget⟩ := List.mem_iff_getElem.mp hmem
  have hnone := List.find?_eq_none.mp h i (List.mem_reverse.mpr (List.mem_range.mpr hi))
  exact hnone (decide_eq_true (List.getElem?_eq_some_iff.mpr ⟨hi, hget⟩))

/-- The index of a state, which is appended if the cache does not hold it; there a full cache
fails its assertion. -/
def add (c : StateCache α N) (t : α) : Option (Nat × StateCache α N) :=
  match c.cachedHit t with
  | some i => some (i, c)
  | none =>
    match hsearch : c.search t with
    | some i =>
      some (i, { c with
        cachedIndex := some i
        cached_lt := fun _ hj => Option.some.inj hj ▸
          (List.getElem?_eq_some_iff.mp (getElem?_of_search hsearch)).1 })
    | none =>
      if h : c.elements.length < N then
        some (c.elements.length,
          { elements := c.elements ++ [t]
            cachedIndex := some c.elements.length
            length_le := by rw [List.length_append, List.length_singleton]; exact h
            nodup := List.concat_eq_append ▸ c.nodup.concat (notMem_of_search hsearch)
            cached_lt := fun _ hj => by simp [← Option.some.inj hj] })
      else none

def checkedAdd (c : StateCache α N) (t : α) : Option (Nat × StateCache α N) :=
  if c.full then none else c.add t

theorem exists_add (h : c.size < N) (t : α) :
    ∃ i c', c.add t = some (i, c') ∧ c'.elements[i]? = some t ∧
      c.elements <+: c'.elements ∧ c'.size ≤ c.size + 1 := by
  unfold add
  split
  next i hhit =>
    have hget := (Option.filter_eq_some_iff.mp hhit).2
    exact ⟨i, c, rfl, of_decide_eq_true hget, List.prefix_rfl, Nat.le_succ _⟩
  next =>
    split
    next i hsearch =>
      exact ⟨i, _, rfl, getElem?_of_search hsearch, List.prefix_rfl, Nat.le_succ _⟩
    next =>
      refine ⟨c.elements.length, _, dif_pos h, ?_, List.prefix_append _ _, ?_⟩
      · exact List.getElem?_concat_length
      · exact (List.length_append).le

theorem checkedAdd_of_lt (h : c.size < N) (t : α) : c.checkedAdd t = c.add t := by
  have hfull : c.full ≠ true := by
    rw [full, Ne, beq_iff_eq]
    exact h.ne
  exact if_neg hfull

/-- Indices of states that are added one by one. -/
def addAll (c : StateCache α N) : List α → Option (List Nat × StateCache α N)
  | [] => some ([], c)
  | t :: ts => do
    let (i, c) ← c.checkedAdd t
    let (indices, c) ← c.addAll ts
    some (i :: indices, c)

theorem exists_addAll {ts : List α} (h : c.size + ts.length ≤ N) :
    ∃ indices c', c.addAll ts = some (indices, c') ∧
      List.Forall₂ (fun i t => c'.elements[i]? = some t) indices ts ∧
      c.elements <+: c'.elements ∧ c'.size ≤ c.size + ts.length := by
  induction ts generalizing c with
  | nil => exact ⟨[], c, rfl, List.Forall₂.nil, List.prefix_rfl, Nat.le_refl _⟩
  | cons t ts ih =>
    rw [List.length_cons] at h ⊢
    have hlt : c.size < N := by omega
    obtain ⟨i, first, hadd, hget, hfirst, hsize⟩ := exists_add hlt t
    obtain ⟨indices, last, haddAll, hindices, hlast, hsizes⟩ := ih (c := first) (by omega)
    have hkept : last.elements[i]? = some t := getElem?_of_prefix hlast hget
    refine ⟨i :: indices, last, ?_, hindices.cons hkept, hfirst.trans hlast, by omega⟩
    simp only [addAll, checkedAdd_of_lt hlt, hadd, haddAll, Option.bind_eq_bind, Option.bind_some]

end StateCache

end ParallelN64.Rdp
