import Mathlib.Data.Option.Basic
import Mathlib.Order.Basic

/-!
# Loops that may not end

A loop of a condition and a step, taken a bounded number of turns. It has a result when it ends
within its turns. A measure that goes down with each turn makes it end, and a property that the
step keeps and that forces another turn makes it go on for ever.
-/

namespace ParallelN64.Core

section Loop

variable {α : Type*} (go : α → Bool) (next : α → α)

/-- The states in which a loop goes on, within a number of turns. -/
def visits : Nat → α → Option (List α)
  | 0, s => if go s then none else some []
  | turns + 1, s => if go s then (visits turns (next s)).map (s :: ·) else some []

/-- The state in which a loop is left, within a number of turns. -/
def leaves : Nat → α → Option α
  | 0, s => if go s then none else some s
  | turns + 1, s => if go s then leaves turns (next s) else some s

variable {go next}

theorem isSome_leaves (turns : Nat) (s : α) :
    (leaves go next turns s).isSome = (visits go next turns s).isSome := by
  induction turns generalizing s with
  | zero =>
    simp only [leaves, visits]
    split_ifs <;> rfl
  | succ turns ih =>
    simp only [leaves, visits]
    split_ifs
    · rw [ih, Option.isSome_map]
    · rfl

/-- What every turn keeps holds where the loop is left. -/
theorem leaves_induct {P : α → Prop} (hkeep : ∀ s, P s → go s = true → P (next s)) (turns : Nat)
    {s t : α} (h : P s) (hleaves : leaves go next turns s = some t) : P t ∧ ¬ go t = true := by
  induction turns generalizing s with
  | zero =>
    by_cases hgo : go s = true
    · rw [leaves, if_pos hgo] at hleaves
      exact absurd hleaves (Option.some_ne_none t).symm
    · rw [leaves, if_neg hgo, Option.some.injEq] at hleaves
      exact hleaves ▸ ⟨h, hgo⟩
  | succ turns ih =>
    by_cases hgo : go s = true
    · rw [leaves, if_pos hgo] at hleaves
      exact ih (hkeep s h hgo) hleaves
    · rw [leaves, if_neg hgo, Option.some.injEq] at hleaves
      exact hleaves ▸ ⟨h, hgo⟩

theorem visits_of_stop (turns : Nat) {s : α} (h : ¬ go s = true) :
    visits go next turns s = some [] := by
  cases turns with
  | zero => rw [visits, if_neg h]
  | succ turns => rw [visits, if_neg h]

theorem mem_visits_self {turns : Nat} {s : α} {l : List α} (hgo : go s = true)
    (h : visits go next turns s = some l) : s ∈ l := by
  cases turns with
  | zero =>
    rw [visits, if_pos hgo] at h
    exact absurd h (Option.some_ne_none l).symm
  | succ turns =>
    rw [visits, if_pos hgo] at h
    obtain ⟨rest, -, rfl⟩ := Option.map_eq_some_iff.mp h
    exact List.mem_cons_self

theorem visits_eq_none {P : α → Prop} (hgo : ∀ s, P s → go s = true) (hkeep : ∀ s, P s → P (next s))
    (turns : Nat) {s : α} (h : P s) : visits go next turns s = none := by
  induction turns generalizing s with
  | zero => rw [visits, if_pos (hgo s h)]
  | succ turns ih => rw [visits, if_pos (hgo s h), ih (hkeep s h), Option.map_none]

/-- A loop with a falling measure ends within it. -/
theorem visits_of_measure {P : α → Prop} {measure : α → Nat}
    (hpos : ∀ s, P s → go s = true → 0 < measure s)
    (hkeep : ∀ s, P s → go s = true → P (next s) ∧ measure (next s) < measure s)
    (turns : Nat) {s : α} (h : P s) (hturns : measure s ≤ turns) :
    ∃ l, visits go next turns s = some l ∧ ∀ t ∈ l, P t ∧ go t = true := by
  induction turns generalizing s with
  | zero =>
    have hstop : ¬ go s = true := fun hgo => by have := hpos s h hgo; omega
    exact ⟨[], visits_of_stop 0 hstop, fun t ht => absurd ht List.not_mem_nil⟩
  | succ turns ih =>
    by_cases hgo : go s = true
    · obtain ⟨hnext, hless⟩ := hkeep s h hgo
      obtain ⟨l, hl, hmem⟩ := ih hnext (by omega)
      refine ⟨s :: l, by rw [visits, if_pos hgo, hl, Option.map_some], ?_⟩
      intro t ht
      rcases List.mem_cons.mp ht with rfl | ht
      · exact ⟨h, hgo⟩
      · exact hmem t ht
    · exact ⟨[], visits_of_stop _ hgo, fun t ht => absurd ht List.not_mem_nil⟩

end Loop

section DoWhile

variable {α β : Type*} (ended : α → Bool) (next : α → α)

/-- A loop that tests after its turn ends in a state. -/
def Ends (s t : α) : Prop := ∃ turns, leaves (fun s => !ended s) next turns (next s) = some t

variable {ended next} {s t : α}

theorem ends_of_over (h : ended (next s) = true) : Ends ended next s t ↔ t = next s := by
  have hleaves (turns : Nat) : leaves (fun s => !ended s) next turns (next s) = some (next s) := by
    cases turns <;> simp [leaves, h]
  constructor
  · rintro ⟨turns, hturns⟩
    rw [hleaves] at hturns
    exact (Option.some.inj hturns).symm
  · rintro rfl
    exact ⟨0, hleaves 0⟩

theorem ends_of_again (h : ended (next s) = false) :
    Ends ended next s t ↔ Ends ended next (next s) t := by
  constructor
  · rintro ⟨turns, hturns⟩
    cases turns with
    | zero => simp [leaves, h] at hturns
    | succ turns => exact ⟨turns, by simpa [leaves, h] using hturns⟩
  · rintro ⟨turns, hturns⟩
    exact ⟨turns + 1, by simpa [leaves, h] using hturns⟩

theorem not_ends_of_keep {P : α → Prop} (hkeep : ∀ s, P s → P (next s) ∧ ended (next s) = false)
    (h : P s) : ¬ Ends ended next s t := by
  rintro ⟨turns, hturns⟩
  have hvisits : visits (fun s => !ended s) next turns (next s) = none :=
    visits_eq_none (P := fun s => P s ∧ ended s = false) (fun s hs => by simp [hs.2])
      (fun s hs => hkeep s hs.1) turns (hkeep s h)
  have hsome : (leaves (fun s => !ended s) next turns (next s)).isSome =
      (visits (fun s => !ended s) next turns (next s)).isSome := isSome_leaves turns (next s)
  rw [hturns, hvisits] at hsome
  exact Bool.noConfusion hsome

theorem Ends.over_next (h : Ends ended next s t) : ended t = true ∧ ∃ s', t = next s' := by
  obtain ⟨turns, hturns⟩ := h
  obtain ⟨hnext, hover⟩ := leaves_induct (P := fun t => ∃ s', t = next s')
    (fun s _ _ => ⟨s, rfl⟩) turns ⟨s, rfl⟩ hturns
  exact ⟨by simpa using hover, hnext⟩

variable (ended' : β → Bool) (next' : β → β) {R S : α → β → Prop}

/-- A simulated loop ends in a related state. -/
theorem Ends.simulate (hturn : ∀ s s', R s s' → S (next s) (next' s'))
    (hover : ∀ s s', S s s' → ended s = ended' s')
    (hagain : ∀ s s', S s s' → ended s = false → R s s') {s' : β} (h : R s s')
    (hends : Ends ended next s t) : ∃ t', Ends ended' next' s' t' ∧ S t t' := by
  obtain ⟨turns, hturns⟩ := hends
  suffices hrun : ∀ turns s s', S s s' → leaves (fun s => !ended s) next turns s = some t →
      ∃ t', leaves (fun s => !ended' s) next' turns s' = some t' ∧ S t t' by
    obtain ⟨t', ht', hS⟩ := hrun turns _ _ (hturn s s' h) hturns
    exact ⟨t', ⟨turns, ht'⟩, hS⟩
  intro turns
  induction turns with
  | zero =>
    intro s s' hS hleaves
    cases hs : ended s with
    | false => simp [leaves, hs] at hleaves
    | true =>
      obtain rfl : s = t := by simpa [leaves, hs] using hleaves
      exact ⟨s', by simp [leaves, ← hover s s' hS, hs], hS⟩
  | succ turns ih =>
    intro s s' hS hleaves
    cases hs : ended s with
    | false =>
      obtain ⟨t', ht', hS'⟩ := ih _ _ (hturn s s' (hagain s s' hS hs))
        (by simpa [leaves, hs] using hleaves)
      exact ⟨t', by simpa [leaves, ← hover s s' hS, hs] using ht', hS'⟩
    | true =>
      obtain rfl : s = t := by simpa [leaves, hs] using hleaves
      exact ⟨s', by simp [leaves, ← hover s s' hS, hs], hS⟩

theorem ends_congr {next' : α → α} {P : α → Prop} (hnext : ∀ s, P s → next s = next' s)
    (hkeep : ∀ s, P s → ended (next s) = false → P (next s)) (h : P s) :
    Ends ended next s t ↔ Ends ended next' s t := by
  constructor
  · intro hends
    obtain ⟨t', ht', rfl, -⟩ := Ends.simulate ended next'
      (R := fun s s' => s = s' ∧ P s) (S := fun s s' => s = s' ∧ (ended s = false → P s))
      (fun s s' hs => ⟨hs.1 ▸ hnext s hs.2, hkeep s hs.2⟩) (fun s s' hs => by rw [hs.1])
      (fun s s' hs hover => ⟨hs.1, hs.2 hover⟩) ⟨rfl, h⟩ hends
    exact ht'
  · intro hends
    obtain ⟨t', ht', rfl, -⟩ := Ends.simulate ended next
      (R := fun s s' => s = s' ∧ P s) (S := fun s s' => s = s' ∧ (ended s = false → P s))
      (fun s s' hs => by
        obtain ⟨rfl, hs⟩ := hs
        exact ⟨(hnext s hs).symm, hnext s hs ▸ hkeep s hs⟩) (fun s s' hs => by rw [hs.1])
      (fun s s' hs hover => ⟨hs.1, hs.2 hover⟩) ⟨rfl, h⟩ hends
    exact ht'

end DoWhile

end ParallelN64.Core
