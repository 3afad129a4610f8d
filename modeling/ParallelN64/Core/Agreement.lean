import Mathlib.Data.List.Basic

/-!
# Runs that put values under keys

A state holds a value under some keys. A run puts values one after the other and fails as soon as
a key has another value already. It succeeds exactly when the values of each key agree, and then
every key has its own.
-/

namespace ParallelN64.Core

universe u

theorem except_bind_eq_ok_iff {ε : Type*} {α β : Type u} {x : Except ε α} {f : α → Except ε β} {b : β} :
    x >>= f = .ok b ↔ ∃ a, x = .ok a ∧ f a = .ok b := by
  cases x with
  | error e =>
    refine iff_of_false (fun h => by cases h) ?_
    rintro ⟨a, ha, -⟩
    cases ha
  | ok a =>
    constructor
    · exact fun h => ⟨a, rfl, h⟩
    · rintro ⟨a', ha, hf⟩
      cases ha
      exact hf

theorem mapM_eq_ok_iff {ε α β : Type} {f : α → Except ε β} {l : List α} {bs : List β} :
    l.mapM f = .ok bs ↔ l.map f = bs.map Except.ok := by
  induction l generalizing bs with
  | nil =>
    cases bs with
    | nil => exact iff_of_true rfl rfl
    | cons b bs => exact iff_of_false (fun h => by cases h) (fun h => by cases h)
  | cons a l ih =>
    rw [List.mapM_cons, except_bind_eq_ok_iff, List.map_cons]
    constructor
    · rintro ⟨b, hb, hrest⟩
      obtain ⟨bs', hbs, heq⟩ := except_bind_eq_ok_iff.mp hrest
      cases heq
      rw [hb, ih.mp hbs, List.map_cons]
    · intro h
      cases bs with
      | nil => cases h
      | cons b bs =>
        obtain ⟨hb, hbs⟩ := List.cons.inj h
        exact ⟨b, hb, except_bind_eq_ok_iff.mpr ⟨bs, ih.mpr hbs, rfl⟩⟩

section Agreement

variable {σ κ β ε : Type*} [DecidableEq β] (get : σ → κ → Option β) (set : σ → κ → β → σ)
  (conflict : κ → ε)

/-- Sets a key, unless another value stands under it. -/
def putAgreeing (s : σ) (entry : κ × β) : Except ε σ :=
  if ∃ v ∈ get s entry.1, v ≠ entry.2 then .error (conflict entry.1)
  else .ok (set s entry.1 entry.2)

/-- The values under one key are the same, among the entries and in the state. -/
structure Agreeing (s : σ) (entries : List (κ × β)) : Prop where
  among : ∀ a : κ × β, a ∈ entries → ∀ b : κ × β, b ∈ entries → a.1 = b.1 → a.2 = b.2
  state : ∀ a : κ × β, a ∈ entries → ∀ v ∈ get s a.1, v = a.2

variable {get set conflict}

theorem putAgreeing_eq_ok_iff {s t : σ} {entry : κ × β} :
    putAgreeing get set conflict s entry = .ok t ↔
      (∀ v ∈ get s entry.1, v = entry.2) ∧ set s entry.1 entry.2 = t := by
  unfold putAgreeing
  split_ifs with h
  · obtain ⟨v, hv, hne⟩ := h
    simp only [false_iff, not_and]
    exact fun hall _ => hne (hall v hv)
  · rw [Except.ok.injEq]
    refine (and_iff_right ?_).symm
    intro v hv
    by_contra hne
    exact h ⟨v, hv, hne⟩

theorem foldlM_putAgreeing_cons {s t : σ} {entry : κ × β} {entries : List (κ × β)} :
    (entry :: entries).foldlM (putAgreeing get set conflict) s = .ok t ↔
      (∀ v ∈ get s entry.1, v = entry.2) ∧
        entries.foldlM (putAgreeing get set conflict) (set s entry.1 entry.2) = .ok t := by
  rw [List.foldlM_cons, except_bind_eq_ok_iff]
  constructor
  · rintro ⟨u, hput, hrest⟩
    obtain ⟨hfirst, rfl⟩ := putAgreeing_eq_ok_iff.mp hput
    exact ⟨hfirst, hrest⟩
  · rintro ⟨hfirst, hrest⟩
    exact ⟨_, putAgreeing_eq_ok_iff.mpr ⟨hfirst, rfl⟩, hrest⟩

variable (hself : ∀ s k v, get (set s k v) k = some v)
  (hother : ∀ s k v k', k' ≠ k → get (set s k v) k' = get s k')

include hself hother

omit [DecidableEq β] in
theorem agreeing_cons_iff {s : σ} {entry : κ × β} {entries : List (κ × β)} :
    Agreeing get s (entry :: entries) ↔
      (∀ v ∈ get s entry.1, v = entry.2) ∧ Agreeing get (set s entry.1 entry.2) entries := by
  constructor
  · intro h
    refine ⟨h.state entry List.mem_cons_self, ?_, ?_⟩
    · exact fun a ha b hb => h.among a (List.mem_cons_of_mem _ ha) b (List.mem_cons_of_mem _ hb)
    · intro a ha v hv
      by_cases hkey : a.1 = entry.1
      · rw [hkey, hself, Option.mem_some_iff] at hv
        rw [← hv]
        exact h.among entry List.mem_cons_self a (List.mem_cons_of_mem _ ha) hkey.symm
      · rw [hother _ _ _ _ hkey] at hv
        exact h.state a (List.mem_cons_of_mem _ ha) v hv
  · rintro ⟨hfirst, hrest⟩
    have hsame : ∀ a ∈ entries, entry.1 = a.1 → entry.2 = a.2 := by
      intro a ha hkey
      refine hrest.state a ha entry.2 ?_
      rw [← hkey, hself]
      rfl
    refine ⟨?_, ?_⟩
    · intro a ha b hb hkey
      rcases List.mem_cons.mp ha with hfst | hmem
      · rcases List.mem_cons.mp hb with hfst' | hmem'
        · rw [hfst, hfst']
        · rw [hfst] at hkey ⊢
          exact hsame b hmem' hkey
      · rcases List.mem_cons.mp hb with hfst' | hmem'
        · rw [hfst'] at hkey ⊢
          exact (hsame a hmem hkey.symm).symm
        · exact hrest.among a hmem b hmem' hkey
    · intro a ha v hv
      rcases List.mem_cons.mp ha with rfl | ha
      · exact hfirst v hv
      · by_cases hkey : a.1 = entry.1
        · rw [hkey] at hv
          rw [hfirst v hv]
          exact hsame a ha hkey.symm
        · refine hrest.state a ha v ?_
          rw [hother _ _ _ _ hkey]
          exact hv

/-- All entries are set exactly when no two of them disagree on a key. -/
theorem putAgreeing_ok_iff {s : σ} {entries : List (κ × β)} :
    (∃ t, entries.foldlM (putAgreeing get set conflict) s = .ok t) ↔ Agreeing get s entries := by
  induction entries generalizing s with
  | nil =>
    refine iff_of_true ⟨s, rfl⟩ ⟨?_, ?_⟩
    · exact fun a ha => absurd ha List.not_mem_nil
    · exact fun a ha => absurd ha List.not_mem_nil
  | cons entry entries ih =>
    simp only [agreeing_cons_iff hself hother, ← ih, foldlM_putAgreeing_cons, exists_and_left]

/-- What has been set can be read back. -/
theorem get_of_putAgreeing {s t : σ} {entries : List (κ × β)}
    (h : entries.foldlM (putAgreeing get set conflict) s = .ok t) :
    ∀ a ∈ entries, get t a.1 = some a.2 := by
  have hkept : ∀ (rest : List (κ × β)) (s t : σ) (k : κ) (v : β),
      rest.foldlM (putAgreeing get set conflict) s = .ok t → get s k = some v →
        get t k = some v := by
    intro rest
    induction rest with
    | nil =>
      intro s t k v h hk
      cases h
      exact hk
    | cons entry rest ih =>
      intro s t k v h hk
      obtain ⟨hfirst, hrest⟩ := foldlM_putAgreeing_cons.mp h
      refine ih _ t k v hrest ?_
      by_cases hkey : k = entry.1
      · rw [hkey] at hk
        rw [hkey, hself, hfirst v hk]
      · rw [hother _ _ _ _ hkey]
        exact hk
  induction entries generalizing s with
  | nil => exact fun a ha => absurd ha List.not_mem_nil
  | cons entry entries ih =>
    obtain ⟨-, hrest⟩ := foldlM_putAgreeing_cons.mp h
    intro a ha
    rcases List.mem_cons.mp ha with rfl | ha
    · exact hkept entries _ t a.1 a.2 hrest (hself s a.1 a.2)
    · exact ih hrest a ha

end Agreement

/-- What no single set changes is unchanged by all of them. -/
theorem view_of_putAgreeing {σ κ β ε γ : Type*} [DecidableEq β] {get : σ → κ → Option β}
    {set : σ → κ → β → σ} {conflict : κ → ε} {s t : σ} {entries : List (κ × β)} (view : σ → γ)
    (hview : ∀ s, ∀ a ∈ entries, view (set s a.1 a.2) = view s)
    (h : entries.foldlM (putAgreeing get set conflict) s = .ok t) : view t = view s := by
  induction entries generalizing s with
  | nil =>
    cases h
    rfl
  | cons entry entries ih =>
    obtain ⟨-, hrest⟩ := foldlM_putAgreeing_cons.mp h
    rw [ih (fun s a ha => hview s a (List.mem_cons_of_mem _ ha)) hrest]
    exact hview s entry List.mem_cons_self

end ParallelN64.Core
