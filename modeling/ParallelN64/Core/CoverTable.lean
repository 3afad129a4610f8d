import Mathlib.Logic.Function.Basic

/-!
# Tables kept along with overlapping entries

Every entry of a store covers some keys, and assigns values to some of those it covers. A
table is kept by uncovering the keys of an entry that is replaced and storing the values of
the new one. What the table holds is always assigned by an entry; an assigned key is missing
exactly when an entry that covered it too was replaced later.
-/

namespace ParallelN64.Core

/-- The keys that an entry covers, and the values that it assigns. -/
structure Coverage (ε κ ν : Type*) where
  covers : ε → κ → Prop
  assigns : ε → κ → Option ν
  covers_of_assigns : ∀ {e k v}, assigns e k = some v → covers e k

/-- Entries with the table that is kept along with them. The keys that an entry has lost to
the replacement of others are a ghost. -/
structure CoverTable (ι ε κ ν : Type*) where
  entries : ι → ε
  table : κ → Option ν
  lost : ι → κ → Prop

section Cover

variable {ι ε κ ν : Type*} {c : Coverage ε κ ν} {t t' : CoverTable ι ε κ ν}

/-- One entry is replaced. -/
structure Replaces (c : Coverage ε κ ν) (t t' : CoverTable ι ε κ ν) (i : ι) (e : ε) : Prop where
  self : t'.entries i = e
  other : ∀ j, j ≠ i → t'.entries j = t.entries j
  stored : ∀ k v, c.assigns e k = some v → t'.table k = some v
  uncovered : ∀ k, c.assigns e k = none → c.covers (t.entries i) k → t'.table k = none
  kept : ∀ k, c.assigns e k = none → ¬ c.covers (t.entries i) k → t'.table k = t.table k
  lost : ∀ j k, t'.lost j k ↔ j ≠ i ∧ (t.lost j k ∨ c.covers (t.entries i) k)

/-- The table holds what entries assign, and nothing that an entry assigns is missing
unless it was lost. -/
structure Mirrors (c : Coverage ε κ ν) (t : CoverTable ι ε κ ν) : Prop where
  sound : ∀ k v, t.table k = some v → ∃ i, c.assigns (t.entries i) k = some v ∧ ¬ t.lost i k
  complete : ∀ i k v, c.assigns (t.entries i) k = some v → ¬ t.lost i k → t.table k ≠ none

/-- A mirror stays one when an entry is replaced. -/
theorem Mirrors.replaces (h : Mirrors c t) {i : ι} {e : ε} (hreplaces : Replaces c t t' i e) :
    Mirrors c t' := by
  have hself : ∀ k, ¬ t'.lost i k := fun k hlost => ((hreplaces.lost i k).mp hlost).1 rfl
  refine ⟨?_, ?_⟩
  · intro k v hv
    cases hassigns : c.assigns e k with
    | some w =>
      refine ⟨i, ?_, hself k⟩
      rw [hreplaces.self, hassigns, ← hreplaces.stored k w hassigns, hv]
    | none =>
      by_cases hcovers : c.covers (t.entries i) k
      · rw [hreplaces.uncovered k hassigns hcovers] at hv
        exact absurd hv.symm (Option.some_ne_none v)
      · rw [hreplaces.kept k hassigns hcovers] at hv
        obtain ⟨j, hj, hkept⟩ := h.sound k v hv
        have hne : j ≠ i := fun heq => hcovers (heq ▸ c.covers_of_assigns hj)
        refine ⟨j, by rw [hreplaces.other j hne, hj], ?_⟩
        rw [hreplaces.lost]
        exact fun hlost => hlost.2.elim hkept hcovers
  · intro j k v hj hkept
    cases hassigns : c.assigns e k with
    | some w =>
      rw [hreplaces.stored k w hassigns]
      exact Option.some_ne_none w
    | none =>
      have hne : j ≠ i := by
        rintro rfl
        rw [hreplaces.self, hassigns] at hj
        exact absurd hj.symm (Option.some_ne_none v)
      rw [hreplaces.lost] at hkept
      have hnot : ¬ t.lost j k ∧ ¬ c.covers (t.entries i) k :=
        not_or.mp fun hor => hkept ⟨hne, hor⟩
      rw [hreplaces.kept k hassigns hnot.2]
      rw [hreplaces.other j hne] at hj
      exact h.complete j k v hj hnot.1

/-- What one entry assigns no other one covers. -/
def NoOverlap (c : Coverage ε κ ν) (entries : ι → ε) : Prop :=
  ∀ i j k v, c.assigns (entries i) k = some v → c.covers (entries j) k → i = j

/-- No assignment has been lost to another entry. -/
def Unlost (c : Coverage ε κ ν) (t : CoverTable ι ε κ ν) : Prop :=
  ∀ i k v, c.assigns (t.entries i) k = some v → ¬ t.lost i k

/-- While the entries do not overlap, a replacement loses nothing. -/
theorem Unlost.replaces (h : Unlost c t) (hover : NoOverlap c t.entries) {i : ι} {e : ε}
    (hreplaces : Replaces c t t' i e) : Unlost c t' := by
  intro j k v hj hlost
  obtain ⟨hne, hlost'⟩ := (hreplaces.lost j k).mp hlost
  rw [hreplaces.other j hne] at hj
  rcases hlost' with hbefore | hcovers
  · exact h j k v hj hbefore
  · exact hne (hover j i k v hj hcovers)

/-- Where nothing is lost the table knows exactly what some entry assigns. -/
theorem Mirrors.table_ne_none_iff (h : Mirrors c t) (hunlost : Unlost c t) {k : κ} :
    t.table k ≠ none ↔ ∃ i v, c.assigns (t.entries i) k = some v := by
  constructor
  · intro hne
    obtain ⟨v, hv⟩ := Option.ne_none_iff_exists'.mp hne
    obtain ⟨i, hi, -⟩ := h.sound k v hv
    exact ⟨i, v, hi⟩
  · rintro ⟨i, v, hi⟩
    exact h.complete i k v hi (hunlost i k v hi)

theorem Mirrors.table_ne_none_iff_kept (h : Mirrors c t) {k : κ} :
    t.table k ≠ none ↔ ∃ i v, c.assigns (t.entries i) k = some v ∧ ¬ t.lost i k := by
  constructor
  · intro hne
    obtain ⟨v, hv⟩ := Option.ne_none_iff_exists'.mp hne
    obtain ⟨i, hi, hkept⟩ := h.sound k v hv
    exact ⟨i, v, hi, hkept⟩
  · rintro ⟨i, v, hi, hkept⟩
    exact h.complete i k v hi hkept

end Cover

end ParallelN64.Core
