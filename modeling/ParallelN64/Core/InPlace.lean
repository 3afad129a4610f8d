import Mathlib.Data.List.Basic
import Mathlib.Logic.Function.Basic
import Mathlib.Order.Lattice

/-!
# Loops that change an array in place

A loop that stores one element after the other, from the first to the last, may read what
it has not stored yet. It then computes the same as a map. A loop that changes elements
several times makes each of them what its own changes make of it.
-/

namespace ParallelN64.Core

section InPlace

variable {ι κ α : Type*} [DecidableEq ι]

theorem foldl_update_of_notMem {target : κ → ι} {value : κ → (ι → α) → α} {l : List κ} {j : ι}
    (h : j ∉ l.map target) (a : ι → α) :
    l.foldl (fun a i => Function.update a (target i) (value i a)) a j = a j := by
  induction l generalizing a with
  | nil => rfl
  | cons i l ih =>
    rw [List.map_cons, List.mem_cons, not_or] at h
    rw [List.foldl_cons, ih h.2, Function.update_of_ne h.1]

/-- In an update from low to high places no value reads one already changed. -/
theorem foldl_update_of_mem [LinearOrder ι] {target : κ → ι} {value : κ → (ι → α) → α}
    (hlater : ∀ i a b, (∀ j, target i ≤ j → a j = b j) → value i a = value i b) {l : List κ}
    (hsorted : l.Pairwise fun i i' => target i < target i') {i : κ} (hi : i ∈ l) (a : ι → α) :
    l.foldl (fun a i => Function.update a (target i) (value i a)) a (target i) = value i a := by
  induction l generalizing a with
  | nil => exact absurd hi List.not_mem_nil
  | cons i' l ih =>
    obtain ⟨hfirst, hrest⟩ := List.pairwise_cons.mp hsorted
    rw [List.foldl_cons]
    rcases List.mem_cons.mp hi with rfl | hi
    · rw [foldl_update_of_notMem, Function.update_self]
      intro hmem
      obtain ⟨k, hk, heq⟩ := List.mem_map.mp hmem
      exact absurd heq (hfirst k hk).ne'
    · rw [ih hrest hi]
      refine hlater i _ _ fun j hj => ?_
      exact Function.update_of_ne ((hfirst i hi).trans_le hj).ne' _ _

theorem foldl_update_self (target : κ → ι) (change : κ → α → α) (l : List κ) (a : ι → α) (j : ι) :
    l.foldl (fun a i => Function.update a (target i) (change i (a (target i)))) a j =
      (l.filter fun i => target i = j).foldl (fun v i => change i v) (a j) := by
  induction l generalizing a with
  | nil => rfl
  | cons i l ih =>
    rw [List.foldl_cons, ih]
    by_cases h : target i = j
    · rw [List.filter_cons_of_pos (by simpa using h), List.foldl_cons, h, Function.update_self]
    · rw [List.filter_cons_of_neg (by simpa using h), Function.update_of_ne (Ne.symm h)]

end InPlace

/-! ## A snapshot of a memory and its marked pages

A snapshot of a memory is brought up to date page by page: only marked pages are copied. When every
index at which the two differ lies in a marked page, the copy is complete.
-/

section Snapshots

variable {α : Type*}

/-- Takes the marked pages from memory and the others from a snapshot. -/
def refresh (size : Nat) (marked : Nat → Bool) (snapshot memory : Nat → α) : Nat → α :=
  fun i => if marked (i / size) then memory i else snapshot i

/-- Below a limit, an index at which the memory differs from its snapshot lies in a marked page,
and the page before is marked too. -/
def Marked (size limit : Nat) (marked : Nat → Bool) (snapshot memory : Nat → α) : Prop :=
  ∀ i < limit, snapshot i ≠ memory i →
    marked (i / size) = true ∧ (size ≤ i → marked (i / size - 1) = true)

section Refresh

variable {size limit : Nat} {marked : Nat → Bool} {snapshot memory : Nat → α} {i : Nat}

end Refresh

section Folds

variable {σ β : Type*} {step : σ → β → σ} {P : σ → Prop}

end Folds

end Snapshots

end ParallelN64.Core
