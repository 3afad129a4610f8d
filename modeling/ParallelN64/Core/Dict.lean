import Mathlib.Data.List.Nodup

/-!
# Insertion-ordered dictionaries

A dictionary is the list of its entries in the order in which their keys were first
inserted. Assigning replaces the value of a key in place; setting a default keeps the value
that is there. Looking a key up is the only observation the laws speak of, together with
membership in dictionaries whose keys are distinct.
-/

namespace ParallelN64.Core

variable {κ α : Type} [DecidableEq κ]

/-- A dictionary in the order of insertion. -/
abbrev Dict (κ α : Type) := List (κ × α)

namespace Dict

/-- The value under a key. -/
def get? : Dict κ α → κ → Option α
  | [], _ => none
  | (k, v) :: d, key => if k = key then some v else get? d key

/-- Assignment keeps the place of a key that is there. -/
def assign : Dict κ α → κ → α → Dict κ α
  | [], key, value => [(key, value)]
  | (k, v) :: d, key, value =>
    if k = key then (k, value) :: d else (k, v) :: assign d key value

/-- A value for a key that has none. -/
def setDefault (d : Dict κ α) (key : κ) (value : α) : Dict κ α :=
  match d.get? key with
  | some _ => d
  | none => d ++ [(key, value)]

/-- No key stands twice. -/
def Distinct (d : Dict κ α) : Prop := (d.map Prod.fst).Nodup

omit [DecidableEq κ] in
theorem distinct_nil : Distinct ([] : Dict κ α) := List.nodup_nil

@[simp] theorem get?_nil (key : κ) : get? ([] : Dict κ α) key = none := rfl

variable {d : Dict κ α}

theorem get?_eq_none_iff {key : κ} : d.get? key = none ↔ key ∉ d.map Prod.fst := by
  induction d with
  | nil => simp
  | cons entry d ih =>
    obtain ⟨k, v⟩ := entry
    rw [get?, List.map_cons, List.mem_cons, not_or]
    by_cases hk : k = key
    · simp [hk]
    · rw [if_neg hk, ih]
      simp [Ne.symm hk]

theorem get?_append (d d' : Dict κ α) (key : κ) :
    get? (d ++ d') key = (d.get? key).or (d'.get? key) := by
  induction d with
  | nil => rfl
  | cons entry d ih =>
    obtain ⟨k, v⟩ := entry
    rw [List.cons_append, get?, get?]
    by_cases hk : k = key
    · rw [if_pos hk, if_pos hk]
      rfl
    · rw [if_neg hk, if_neg hk, ih]

/-- An assignment is read under its own key only. -/
theorem get?_assign (d : Dict κ α) (key key' : κ) (value : α) :
    (d.assign key value).get? key' = if key' = key then some value else d.get? key' := by
  induction d with
  | nil => simp [assign, get?, eq_comm]
  | cons entry d ih =>
    obtain ⟨k, v⟩ := entry
    rw [assign]
    by_cases hk : k = key
    · subst hk
      by_cases hkey : key' = k
      · simp [get?, hkey]
      · simp [get?, hkey, Ne.symm hkey]
    · rw [if_neg hk, get?, get?, ih]
      by_cases hkey : k = key'
      · subst hkey
        simp [hk]
      · rw [if_neg hkey, if_neg hkey]

/-- The first value of a key stays. -/
theorem get?_setDefault (d : Dict κ α) (key key' : κ) (value : α) :
    (d.setDefault key value).get? key' =
      if key' = key then some ((d.get? key).getD value) else d.get? key' := by
  unfold setDefault
  cases hget : d.get? key with
  | some v =>
    by_cases hkey : key' = key
    · simp [hkey, hget]
    · simp [hkey]
  | none =>
    dsimp only
    rw [get?_append]
    by_cases hkey : key' = key
    · simp [hkey, hget, get?]
    · simp [hkey, get?, Ne.symm hkey]

theorem Distinct.assign (h : d.Distinct) (key : κ) (value : α) : (d.assign key value).Distinct := by
  induction d with
  | nil => simp [Dict.assign, Distinct]
  | cons entry d ih =>
    obtain ⟨k, v⟩ := entry
    obtain ⟨hnotin, hd⟩ := List.nodup_cons.mp h
    rw [Dict.assign]
    by_cases hk : k = key
    · rw [if_pos hk]
      exact h
    · rw [if_neg hk]
      refine List.nodup_cons.mpr ⟨?_, ih hd⟩
      rw [← get?_eq_none_iff, get?_assign, if_neg hk]
      exact get?_eq_none_iff.mpr hnotin

theorem Distinct.setDefault (h : d.Distinct) (key : κ) (value : α) :
    (d.setDefault key value).Distinct := by
  unfold Dict.setDefault
  cases hget : d.get? key with
  | some v => exact h
  | none =>
    dsimp only
    rw [Distinct, List.map_append]
    refine List.nodup_append.mpr ⟨h, List.nodup_singleton key, ?_⟩
    intro k hk k' hk' heq
    obtain rfl := List.mem_singleton.mp hk'
    subst heq
    exact get?_eq_none_iff.mp hget hk

/-- The entries are what the look-ups find. -/
theorem mem_iff_get? (h : d.Distinct) {key : κ} {value : α} :
    (key, value) ∈ d ↔ d.get? key = some value := by
  induction d with
  | nil => simp
  | cons entry d ih =>
    obtain ⟨k, v⟩ := entry
    obtain ⟨hnotin, hd⟩ := List.nodup_cons.mp h
    rw [List.mem_cons, ih hd, get?, Prod.mk.injEq]
    by_cases hk : k = key
    · subst hk
      have hnone := get?_eq_none_iff.mpr hnotin
      simp [hnone, eq_comm]
    · simp [hk, Ne.symm hk]

section Accumulate

variable {β : Type} (key : β → κ) (init : β → α) (update : β → α → α)

/-- Takes an element into the value of its key. -/
def accumulate (d : Dict κ α) (b : β) : Dict κ α :=
  d.assign (key b) (update b ((d.get? (key b)).getD (init b)))

/-- A key accumulates its own elements in order. -/
theorem get?_foldl_accumulate (d : Dict κ α) (l : List β) (k : κ) :
    (l.foldl (accumulate key init update) d).get? k =
      (l.filter fun b => decide (key b = k)).foldl
        (fun found b => some (update b (found.getD (init b)))) (d.get? k) := by
  induction l generalizing d with
  | nil => rfl
  | cons b l ih =>
    rw [List.foldl_cons, ih, List.filter_cons, accumulate, get?_assign]
    by_cases hk : key b = k
    · subst hk
      simp
    · rw [if_neg (Ne.symm hk)]
      simp [hk]

theorem get?_accumulated_nil {l : List β} {k : κ}
    (h : (l.filter fun b => decide (key b = k)) = []) :
    (l.foldl (accumulate key init update) []).get? k = none := by
  rw [get?_foldl_accumulate, h]
  rfl

theorem get?_accumulated_cons {l : List β} {k : κ} {b : β} {rest : List β}
    (h : (l.filter fun b => decide (key b = k)) = b :: rest) :
    (l.foldl (accumulate key init update) []).get? k =
      some (rest.foldl (fun a c => update c a) (update b (init b))) := by
  rw [get?_foldl_accumulate, h, List.foldl_cons, get?_nil, Option.getD_none]
  have hsome : ∀ (rest : List β) (a : α),
      rest.foldl (fun found b => some (update b (found.getD (init b)))) (some a) =
        some (rest.foldl (fun a c => update c a) a) := by
    intro rest
    induction rest with
    | nil => exact fun a => rfl
    | cons c rest ih => exact fun a => ih (update c a)
  exact hsome rest _

theorem Distinct.foldl_accumulate (h : d.Distinct) (l : List β) :
    Distinct (l.foldl (accumulate key init update) d) := by
  induction l generalizing d with
  | nil => exact h
  | cons b l ih => exact ih (h.assign _ _)

end Accumulate

theorem mem_assign {key : κ} {value : α} {entry : κ × α} (h : entry ∈ d.assign key value) :
    entry ∈ d ∨ entry = (key, value) := by
  induction d with
  | nil => exact .inr (List.mem_singleton.mp h)
  | cons first d ih =>
    obtain ⟨k, v⟩ := first
    rw [Dict.assign] at h
    split_ifs at h with hk
    · rcases List.mem_cons.mp h with rfl | hmem
      · rw [hk]
        exact .inr rfl
      · exact .inl (List.mem_cons_of_mem _ hmem)
    · rcases List.mem_cons.mp h with rfl | hmem
      · exact .inl List.mem_cons_self
      · exact (ih hmem).imp_left (List.mem_cons_of_mem _)

theorem mem_keys_assign {key key' : κ} {value : α} :
    key' ∈ (d.assign key value).map Prod.fst ↔ key' = key ∨ key' ∈ d.map Prod.fst := by
  rw [← not_iff_not, ← get?_eq_none_iff, get?_assign, not_or, ← get?_eq_none_iff]
  by_cases hkey : key' = key
  · simp [hkey]
  · simp [hkey]

theorem mem_keys_setDefault {key key' : κ} {value : α} :
    key' ∈ (d.setDefault key value).map Prod.fst ↔ key' = key ∨ key' ∈ d.map Prod.fst := by
  rw [← not_iff_not, ← get?_eq_none_iff, get?_setDefault, not_or, ← get?_eq_none_iff]
  by_cases hkey : key' = key
  · simp [hkey]
  · simp [hkey]

end Dict

omit [DecidableEq κ] in
theorem filter_flatMap_key {γ : Type} {key : α → κ} {l : List α} (hnodup : (l.map key).Nodup)
    {made : α → List γ} {p : κ → γ → Bool}
    (hmade : ∀ a ∈ l, ∀ k, ∀ c ∈ made a, p k c = true → key a = k) {a : α} (ha : a ∈ l) :
    (l.flatMap made).filter (p (key a)) = (made a).filter (p (key a)) := by
  induction l with
  | nil => cases ha
  | cons b l ih =>
    rw [List.map_cons, List.nodup_cons] at hnodup
    rw [List.flatMap_cons, List.filter_append]
    rcases List.mem_cons.mp ha with rfl | ha
    · have hrest : (l.flatMap made).filter (p (key a)) = [] := by
        rw [List.filter_eq_nil_iff]
        intro c hc hp
        obtain ⟨b, hb, hc⟩ := List.mem_flatMap.mp hc
        apply hnodup.1
        rw [← hmade b (List.mem_cons_of_mem _ hb) _ c hc hp]
        exact List.mem_map_of_mem hb
      rw [hrest, List.append_nil]
    · have hfirst : (made b).filter (p (key a)) = [] := by
        rw [List.filter_eq_nil_iff]
        intro c hc hp
        apply hnodup.1
        rw [hmade b List.mem_cons_self _ c hc hp]
        exact List.mem_map_of_mem ha
      rw [hfirst, List.nil_append]
      exact ih hnodup.2 (fun b hb => hmade b (List.mem_cons_of_mem _ hb)) ha

theorem filter_key_eq_singleton {key : α → κ} {l : List α} (hnodup : (l.map key).Nodup) {a : α}
    (ha : a ∈ l) : (l.filter fun b => key b == key a) = [a] := by
  induction l with
  | nil => cases ha
  | cons b l ih =>
    rw [List.map_cons, List.nodup_cons] at hnodup
    rw [List.filter_cons]
    rcases List.mem_cons.mp ha with rfl | ha
    · rw [beq_self_eq_true, if_pos rfl, List.cons.injEq]
      refine ⟨rfl, ?_⟩
      rw [List.filter_eq_nil_iff]
      intro c hc hkey
      rw [beq_iff_eq] at hkey
      apply hnodup.1
      rw [← hkey]
      exact List.mem_map_of_mem hc
    · have hne : key b ≠ key a := by
        intro hkey
        apply hnodup.1
        rw [hkey]
        exact List.mem_map_of_mem ha
      rw [if_neg (by simpa using hne)]
      exact ih hnodup.2 ha

end ParallelN64.Core
