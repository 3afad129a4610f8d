import Mathlib.Data.List.FinRange
import Mathlib.Data.List.MinMax
import Mathlib.Data.List.Sort

/-!
# First least elements and reorderings

The first least element of a list under a rank depends only on the order of
elements that the rank cannot tell apart. Two lists that agree class by class,
for a class determined by the rank, have the same first least element.
-/

namespace ParallelN64.Core

variable {α β γ ρ : Type} [LinearOrder ρ]

theorem argmin_map (f : β → ρ) (g : α → β) (l : List α) :
    (l.map g).argmin f = (l.argmin fun x => f (g x)).map g := by
  induction l using List.reverseRecOn with
  | nil => rfl
  | append_singleton l x ih =>
    rw [List.map_append, List.map_singleton, List.argmin_concat, List.argmin_concat, ih]
    cases List.argmin (fun x => f (g x)) l with
    | none => rfl
    | some c => by_cases h : f (g x) < f (g c) <;> simp [h]

theorem argmin_filter {f : α → ρ} {l : List α} {p : α → Bool} {a : α}
    (ha : l.argmin f = some a) (hp : p a = true) : (l.filter p).argmin f = some a := by
  induction l using List.reverseRecOn generalizing a with
  | nil => cases ha
  | append_singleton l x ih =>
    rw [List.argmin_concat] at ha
    rw [List.filter_append]
    cases hl : l.argmin f with
    | none =>
      obtain rfl : l = [] := List.argmin_eq_none.mp hl
      obtain rfl : x = a := by simpa using ha
      simp [hp]
    | some c =>
      rw [hl] at ha
      by_cases hlt : f x < f c
      · obtain rfl : x = a := by simpa [hlt] using ha
        rw [List.filter_cons_of_pos hp, List.filter_nil, List.argmin_concat]
        cases hd : (l.filter p).argmin f with
        | none => rfl
        | some d =>
          have hcd : f c ≤ f d :=
            List.le_of_mem_argmin (List.mem_of_mem_filter (List.argmin_mem hd)) hl
          simp [lt_of_lt_of_le hlt hcd]
      · obtain rfl : c = a := by simpa [hlt] using ha
        have hc := ih hl hp
        by_cases hx : p x = true
        · rw [List.filter_cons_of_pos hx, List.filter_nil, List.argmin_concat, hc]
          simp [hlt]
        · rw [List.filter_cons_of_neg hx, List.filter_nil, List.append_nil, hc]

/-- The first least element depends on the order within each class only. -/
theorem argmin_eq_of_filter_eq [DecidableEq γ] {f : α → ρ} {c : α → γ}
    (hc : ∀ a b, f a = f b → c a = c b) {l₁ l₂ : List α}
    (h : ∀ v, (l₁.filter fun x => c x = v) = l₂.filter fun x => c x = v) :
    l₁.argmin f = l₂.argmin f := by
  have hmem : ∀ x, x ∈ l₁ ↔ x ∈ l₂ := by
    intro x
    have hx : x ∈ (l₁.filter fun y => c y = c x) ↔ x ∈ l₂.filter fun y => c y = c x := by rw [h]
    simpa using hx
  cases h₁ : l₁.argmin f with
  | none =>
    obtain rfl : l₁ = [] := List.argmin_eq_none.mp h₁
    have hn : l₂ = [] := List.eq_nil_iff_forall_not_mem.mpr fun x hx => by
      simpa using (hmem x).mpr hx
    rw [hn]
    rfl
  | some a =>
    cases h₂ : l₂.argmin f with
    | none =>
      obtain rfl : l₂ = [] := List.argmin_eq_none.mp h₂
      exact absurd ((hmem a).mp (List.argmin_mem h₁)) (by simp)
    | some b =>
      have hab : f a ≤ f b := List.le_of_mem_argmin ((hmem b).mpr (List.argmin_mem h₂)) h₁
      have hba : f b ≤ f a := List.le_of_mem_argmin ((hmem a).mp (List.argmin_mem h₁)) h₂
      have hcl : c a = c b := hc a b (le_antisymm hab hba)
      have ha := argmin_filter (p := fun x => c x = c b) h₁ (by simpa using hcl)
      have hb := argmin_filter (p := fun x => c x = c b) h₂ (by simp)
      rw [h, hb] at ha
      exact ha.symm

theorem filter_ofFn_perm [DecidableEq γ] (c : α → γ) (l : List α) (σ : Equiv.Perm (Fin l.length))
    (h : ∀ i j, i < j → c (l.get (σ i)) = c (l.get (σ j)) → σ i < σ j) (v : γ) :
    ((List.ofFn fun i => l.get (σ i)).filter fun x => c x = v) = l.filter fun x => c x = v := by
  let indices := List.finRange l.length
  have hperm : ((indices.map σ).filter fun i => c (l.get i) = v).Perm
      (indices.filter fun i => c (l.get i) = v) := σ.map_finRange_perm.filter _
  have hsorted : (indices.filter fun i => c (l.get i) = v).Pairwise (· < ·) :=
    (List.pairwise_lt_finRange _).filter _
  have hsorted' : ((indices.map σ).filter fun i => c (l.get i) = v).Pairwise (· < ·) := by
    rw [List.filter_map, List.pairwise_map]
    refine ((List.pairwise_lt_finRange _).filter _).imp_of_mem fun hi hj hij => h _ _ hij ?_
    simp only [List.mem_filter, Function.comp_apply, decide_eq_true_eq] at hi hj
    rw [hi.2, hj.2]
  have hindices := hperm.eq_of_pairwise' hsorted' hsorted
  have hl : l = indices.map l.get := (List.map_get_finRange l).symm
  calc ((List.ofFn fun i => l.get (σ i)).filter fun x => c x = v)
      = (((indices.map σ).map l.get).filter fun x => c x = v) := by
        rw [List.ofFn_eq_map, List.map_map]; rfl
    _ = ((indices.map σ).filter fun i => c (l.get i) = v).map l.get := by
        rw [List.filter_map]; rfl
    _ = (indices.filter fun i => c (l.get i) = v).map l.get := by rw [hindices]
    _ = (indices.map l.get).filter fun x => c x = v := by rw [List.filter_map]; rfl
    _ = l.filter fun x => c x = v := by rw [← hl]

theorem argmin_of_split {f : α → ρ} {before after : List α} {a : α}
    (hbefore : ∀ b ∈ before, f a < f b) (hafter : ∀ b ∈ after, f a ≤ f b) :
    (before ++ a :: after).argmin f = some a := by
  induction before with
  | nil =>
    rw [List.nil_append, List.argmin_cons]
    cases h : after.argmin f with
    | none => rfl
    | some b => exact if_neg (not_lt.mpr (hafter b (List.argmin_mem h)))
  | cons b before ih =>
    rw [List.cons_append, List.argmin_cons,
      ih fun c hc => hbefore c (List.mem_cons_of_mem _ hc)]
    exact if_pos (hbefore b List.mem_cons_self)

section Tier

variable {p q : α → Bool} {a : α}

/-- The rank of an element by two preferences. -/
def tier (p q : α → Bool) (a : α) : Nat := if p a then 0 else if q a then 1 else 2

theorem tier_first (h : p a = true) : tier p q a = 0 := if_pos h

theorem tier_second (hp : p a = false) (hq : q a = true) : tier p q a = 1 := by
  rw [tier, hp, hq]
  rfl

theorem tier_neither (hp : p a = false) (hq : q a = false) : tier p q a = 2 := by
  rw [tier, hp, hq]
  rfl

theorem one_le_tier (hp : p a = false) : 1 ≤ tier p q a := by
  cases hq : q a with
  | true => exact (tier_second hp hq).ge
  | false =>
    rw [tier_neither hp hq]
    exact Nat.le_succ 1

/-- The first least by tier is the first that is preferred. -/
theorem argmin_tier (p q : α → Bool) (l : List α) :
    l.argmin (tier p q) = (l.find? p <|> l.find? q <|> l.head?) := by
  cases hfirst : l.find? p with
  | some a =>
    obtain ⟨ha, before, after, rfl, hbefore⟩ := List.find?_eq_some_iff_append.mp hfirst
    have hzero : tier p q a = 0 := tier_first ha
    refine argmin_of_split (fun b hb => ?_) fun b _ => hzero ▸ Nat.zero_le _
    exact hzero ▸ one_le_tier (by simpa using hbefore b hb)
  | none =>
    have hp : ∀ b ∈ l, p b = false := by simpa using hfirst
    cases hsecond : l.find? q with
    | some a =>
      obtain ⟨ha, before, after, rfl, hbefore⟩ := List.find?_eq_some_iff_append.mp hsecond
      have hone : tier p q a = 1 :=
        tier_second (hp a (List.mem_append_right _ List.mem_cons_self)) ha
      refine argmin_of_split (fun b hb => ?_) fun b hb => ?_
      · rw [hone, tier_neither (hp b (List.mem_append_left _ hb)) (by simpa using hbefore b hb)]
        exact Nat.lt_succ_self 1
      · exact hone ▸ one_le_tier (hp b (List.mem_append_right _ (List.mem_cons_of_mem _ hb)))
    | none =>
      have hq : ∀ b ∈ l, q b = false := by simpa using hsecond
      have htwo : ∀ b ∈ l, tier p q b = 2 := fun b hb => tier_neither (hp b hb) (hq b hb)
      cases l with
      | nil => rfl
      | cons a l =>
        have hbefore : ∀ b ∈ ([] : List α), tier p q a < tier p q b := List.forall_mem_nil _
        refine argmin_of_split hbefore fun b hb => ?_
        rw [htwo a List.mem_cons_self, htwo b (List.mem_cons_of_mem _ hb)]

end Tier

end ParallelN64.Core
