import Mathlib.Algebra.Order.BigOperators.Group.List
import Mathlib.Algebra.Order.Ring.Nat

/-!
# Regions from a ring

Regions of slots are taken one after the other from a ring, from a cursor on. A region that would
cross the end of the ring starts again at its first slot, and the slots that are left over at the
end stay free. Every region lies in the ring, and regions whose sizes together leave room for the
largest of them once more are disjoint.
-/

namespace ParallelN64.Core

/-- The place of a region in a ring, and the next free slot. -/
def takeRegion (slots cursor count : Nat) : Nat × Nat :=
  let next := (cursor + count) % slots
  if next ≠ 0 ∧ next < cursor then (0, count) else (cursor, next)

theorem takeRegion_of_lt {slots cursor count : Nat} (h : cursor + count < slots) :
    takeRegion slots cursor count = (cursor, cursor + count) := by
  unfold takeRegion
  rw [Nat.mod_eq_of_lt h, if_neg (by omega)]

theorem takeRegion_of_eq {slots cursor count : Nat} (h : cursor + count = slots) :
    takeRegion slots cursor count = (cursor, 0) := by
  unfold takeRegion
  rw [h, Nat.mod_self, if_neg (by omega)]

theorem takeRegion_of_gt {slots cursor count : Nat} (hcursor : cursor < slots)
    (hcount : count < slots) (h : slots < cursor + count) :
    takeRegion slots cursor count = (0, count) := by
  unfold takeRegion
  rw [Nat.mod_eq_sub_mod h.le, Nat.mod_eq_of_lt (by omega), if_pos (by omega)]

/-- Regions of some sizes, each with its start, and the cursor behind them. -/
def takeRegions (slots : Nat) : Nat → List Nat → List (Nat × Nat) × Nat
  | cursor, [] => ([], cursor)
  | cursor, count :: counts =>
    let region := takeRegion slots cursor count
    let rest := takeRegions slots region.2 counts
    ((region.1, count) :: rest.1, rest.2)

/-- Two regions do not overlap. -/
def Apart (a b : Nat × Nat) : Prop := a.1 + a.2 ≤ b.1 ∨ b.1 + b.2 ≤ a.1

section Regions

variable {slots most : Nat} (hmost : most < slots)

include hmost

theorem takeRegion_inside {cursor count : Nat} (hcursor : cursor < slots) (hcount : count ≤ most) :
    (takeRegion slots cursor count).1 + count ≤ slots ∧
      (takeRegion slots cursor count).2 < slots := by
  rcases Nat.lt_trichotomy (cursor + count) slots with hlt | heq | hgt
  · rw [takeRegion_of_lt hlt]
    exact ⟨hlt.le, hlt⟩
  · rw [takeRegion_of_eq heq]
    exact ⟨heq.le, by omega⟩
  · rw [takeRegion_of_gt hcursor (by omega) hgt]
    exact ⟨by omega, by omega⟩

theorem takeRegions_inside {cursor : Nat} {counts : List Nat} (hcursor : cursor < slots)
    (hcounts : ∀ count ∈ counts, count ≤ most) :
    (∀ region ∈ (takeRegions slots cursor counts).1, region.1 + region.2 ≤ slots) ∧
      (takeRegions slots cursor counts).2 < slots := by
  induction counts generalizing cursor with
  | nil => exact ⟨fun region h => absurd h List.not_mem_nil, hcursor⟩
  | cons count counts ih =>
    obtain ⟨hfirst, hnext⟩ := takeRegion_inside hmost hcursor (hcounts count List.mem_cons_self)
    obtain ⟨hrest, hlast⟩ := ih hnext fun c hc => hcounts c (List.mem_cons_of_mem _ hc)
    refine ⟨?_, hlast⟩
    intro region hregion
    rcases List.mem_cons.mp hregion with rfl | hmem
    · exact hfirst
    · exact hrest region hmem

theorem takeRegions_ahead {cursor : Nat} {counts : List Nat} (hcursor : cursor < slots)
    (hcounts : ∀ count ∈ counts, count ≤ most) :
    ∀ region ∈ (takeRegions slots cursor counts).1,
      (cursor ≤ region.1 ∧ region.1 + region.2 ≤ cursor + counts.sum) ∨
        region.1 + region.2 + slots ≤ cursor + counts.sum + most := by
  induction counts generalizing cursor with
  | nil => exact fun region h => absurd h List.not_mem_nil
  | cons count counts ih =>
    have hcount := hcounts count List.mem_cons_self
    have hnext := (takeRegion_inside hmost hcursor hcount).2
    have hrest := ih hnext fun c hc => hcounts c (List.mem_cons_of_mem _ hc)
    intro region hregion
    rw [List.sum_cons]
    rcases Nat.lt_trichotomy (cursor + count) slots with hlt | heq | hgt
    · simp only [takeRegions, takeRegion_of_lt hlt] at hregion hrest
      rcases List.mem_cons.mp hregion with rfl | hmem
      · exact Or.inl ⟨le_rfl, by omega⟩
      · rcases hrest region hmem with hahead | hwrapped
        · exact Or.inl ⟨by omega, by omega⟩
        · exact Or.inr (by omega)
    · simp only [takeRegions, takeRegion_of_eq heq] at hregion hrest
      rcases List.mem_cons.mp hregion with rfl | hmem
      · exact Or.inl ⟨le_rfl, by omega⟩
      · rcases hrest region hmem with hahead | hwrapped
        · exact Or.inr (by omega)
        · exact Or.inr (by omega)
    · simp only [takeRegions, takeRegion_of_gt hcursor (hcount.trans_lt hmost) hgt] at hregion hrest
      rcases List.mem_cons.mp hregion with rfl | hmem
      · exact Or.inr (by omega)
      · rcases hrest region hmem with hahead | hwrapped
        · exact Or.inr (by omega)
        · exact Or.inr (by omega)

/-- Regions that fit together with one spare do not overlap. -/
theorem takeRegions_apart {cursor : Nat} {counts : List Nat} (hcursor : cursor < slots)
    (hcounts : ∀ count ∈ counts, count ≤ most) (hroom : counts.sum + most ≤ slots) :
    (takeRegions slots cursor counts).1.Pairwise Apart := by
  induction counts generalizing cursor with
  | nil => exact List.Pairwise.nil
  | cons count counts ih =>
    rw [List.sum_cons] at hroom
    have hcount := hcounts count List.mem_cons_self
    have hnext := (takeRegion_inside hmost hcursor hcount).2
    have hcounts' : ∀ c ∈ counts, c ≤ most := fun c hc => hcounts c (List.mem_cons_of_mem _ hc)
    refine List.Pairwise.cons ?_ (ih hnext hcounts' (by omega))
    intro region hregion
    have hrest := takeRegions_ahead hmost hnext hcounts' region hregion
    unfold Apart
    rcases Nat.lt_trichotomy (cursor + count) slots with hlt | heq | hgt
    · rw [takeRegion_of_lt hlt] at hrest ⊢
      rcases hrest with hahead | hwrapped
      · exact Or.inl hahead.1
      · exact Or.inr (by omega)
    · rw [takeRegion_of_eq heq] at hrest ⊢
      exact Or.inr (by omega)
    · rw [takeRegion_of_gt hcursor (hcount.trans_lt hmost) hgt] at hrest ⊢
      rcases hrest with hahead | hwrapped
      · exact Or.inl (by omega)
      · exact Or.inr (by omega)

end Regions

end ParallelN64.Core
