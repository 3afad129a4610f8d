import Mathlib.Data.List.Basic

/-!
# Runs and what holds all along them

A run folds a step function over a list of actions. An invariant that the steps keep under
a condition on each of them holds all along a run whose steps meet their conditions. When
an observable consequence of the invariant in turn forces the condition of the last step,
that consequence holds all along a run exactly when every step meets its condition.
Two machines in lockstep show an observer the same all along exactly the runs that spare
their corners.
-/

namespace ParallelN64.Core

section Runs

variable {σ α : Type*} {step : σ → α → σ}
variable (inv post : σ → Prop) (cond : σ → α → Prop)

/-- An invariant that the steps keep under a condition holds at the end of the run. -/
theorem foldl_invariant {s : σ} {l : List α} (hinit : inv s)
    (hkeep : ∀ s, ∀ a ∈ l, inv s → cond s a → inv (step s a))
    (hcond : ∀ first a rest, l = first ++ a :: rest → cond (first.foldl step s) a) :
    inv (l.foldl step s) := by
  induction l generalizing s with
  | nil => exact hinit
  | cons a l ih =>
    have ha : cond s a := hcond [] a l rfl
    refine ih (hkeep s a List.mem_cons_self hinit ha)
      (fun t b hb => hkeep t b (List.mem_cons_of_mem _ hb)) fun first b rest hl => ?_
    exact hcond (a :: first) b rest (by rw [hl, List.cons_append])

/-- Such an invariant holds after every part of the run. -/
theorem foldl_prefix_invariant {s : σ} {l : List α} (hinit : inv s)
    (hkeep : ∀ s, ∀ a ∈ l, inv s → cond s a → inv (step s a))
    (hcond : ∀ first a rest, l = first ++ a :: rest → cond (first.foldl step s) a)
    {first rest : List α} (hl : l = first ++ rest) : inv (first.foldl step s) := by
  refine foldl_invariant inv cond hinit
    (fun t a ha => hkeep t a (hl ▸ List.mem_append_left _ ha)) fun first' a rest' hfirst => ?_
  exact hcond first' a (rest' ++ rest) (by rw [hl, hfirst, List.append_assoc, List.cons_append])

/-- Where the condition is also forced, the run is right exactly if it always holds. -/
theorem foldl_prefix_iff {s : σ} {l : List α} (hinit : inv s)
    (hkeep : ∀ s, ∀ a ∈ l, inv s → cond s a → inv (step s a))
    (hpost : ∀ s, inv s → post s)
    (hforce : ∀ s, ∀ a ∈ l, inv s → post (step s a) → cond s a) :
    (∀ first rest, l = first ++ rest → post (first.foldl step s)) ↔
      ∀ first a rest, l = first ++ a :: rest → cond (first.foldl step s) a := by
  constructor
  · intro hall
    induction l generalizing s with
    | nil =>
      intro first a rest hl
      exact absurd hl.symm (List.append_ne_nil_of_right_ne_nil _ (List.cons_ne_nil _ _))
    | cons b l ih =>
      have hb : cond s b := hforce s b List.mem_cons_self hinit (hall [b] l rfl)
      have hrest := ih (hkeep s b List.mem_cons_self hinit hb)
        (fun t a ha => hkeep t a (List.mem_cons_of_mem _ ha))
        (fun t a ha => hforce t a (List.mem_cons_of_mem _ ha))
        fun first rest hl => hall (b :: first) rest (by rw [hl, List.cons_append])
      intro first a rest hl
      cases first with
      | nil =>
        obtain ⟨rfl, -⟩ := List.cons.inj hl
        exact hb
      | cons c first =>
        obtain ⟨rfl, htail⟩ := List.cons.inj hl
        exact hrest first a rest htail
  · intro hcond first rest hl
    exact hpost _ (foldl_prefix_invariant inv cond hinit hkeep hcond hl)

variable (step)

/-- A condition on the states before the steps of a run. -/
def AllAlong (cond : σ → α → Prop) : σ → List α → Prop
  | _, [] => True
  | s, a :: l => cond s a ∧ AllAlong cond (step s a) l

instance decidableAllAlong [∀ s a, Decidable (cond s a)] :
    ∀ s l, Decidable (AllAlong step cond s l)
  | _, [] => inferInstanceAs (Decidable True)
  | s, a :: l => @instDecidableAnd _ _ _ (decidableAllAlong (step s a) l)

variable {step} {cond}

theorem AllAlong.at {s : σ} {l : List α} (h : AllAlong step cond s l) {first rest : List α} {a : α}
    (hl : l = first ++ a :: rest) : cond (first.foldl step s) a := by
  subst hl
  induction first generalizing s with
  | nil => exact h.1
  | cons b first ih => exact ih h.2

end Runs

section FallibleRuns

variable {σ α ε : Type*} {step : σ → α → Except ε σ}

theorem foldlM_ok_induction {P : List α → σ → Prop} {s t : σ} {l : List α} (hinit : P [] s)
    (hstep : ∀ done a s t, a ∈ l → P done s → step s a = .ok t → P (done ++ [a]) t)
    (hrun : l.foldlM step s = .ok t) : P l t := by
  have hall : ∀ (rest done : List α) (s : σ), l = done ++ rest → P done s →
      rest.foldlM step s = .ok t → P l t := by
    intro rest
    induction rest with
    | nil =>
      intro done s hl hP hrun
      cases hrun
      rw [hl, List.append_nil]
      exact hP
    | cons a rest ih =>
      intro done s hl hP hrun
      rw [List.foldlM_cons] at hrun
      cases ha : step s a with
      | error e =>
        rw [ha] at hrun
        cases hrun
      | ok u =>
        rw [ha] at hrun
        have hmem : a ∈ l := by
          rw [hl]
          exact List.mem_append_right _ List.mem_cons_self
        exact ih (done ++ [a]) u (by rw [hl, List.append_assoc, List.singleton_append])
          (hstep done a s u hmem hP ha) hrun
  exact hall l [] s rfl hinit hrun

/-- A run that succeeds is followed by a related one. -/
theorem foldlM_ok_simulation {τ : Type*} {step' : τ → α → Except ε τ} (R : σ → τ → Prop)
    (hstep : ∀ s t a s', R s t → step s a = .ok s' → ∃ t', step' t a = .ok t' ∧ R s' t')
    {s s' : σ} {t : τ} {l : List α} (hR : R s t) (hrun : l.foldlM step s = .ok s') :
    ∃ t', l.foldlM step' t = .ok t' ∧ R s' t' := by
  induction l generalizing s t with
  | nil =>
    cases hrun
    exact ⟨t, rfl, hR⟩
  | cons a l ih =>
    rw [List.foldlM_cons] at hrun
    cases ha : step s a with
    | error e =>
      rw [ha] at hrun
      cases hrun
    | ok u =>
      rw [ha] at hrun
      obtain ⟨v, hv, hnext⟩ := hstep s t a u hR ha
      obtain ⟨t', ht', hlast⟩ := ih hnext hrun
      refine ⟨t', ?_, hlast⟩
      rw [List.foldlM_cons, hv]
      exact ht'

end FallibleRuns

section Lockstep

variable {ι σ τ ω : Type*}

/-- The states after the instructions, one after the other. -/
def trace (step : σ → ι → Option σ) : σ → List ι → Option (List σ)
  | _, [] => some []
  | s, i :: is => (step s i).bind fun s => (trace step s is).map (s :: ·)

/-- A run that never meets a corner. -/
def Spares (step : σ → ι → Option σ) (corner : σ → ι → Prop) : σ → List ι → Prop
  | _, [] => True
  | s, i :: is => ¬corner s i ∧ ∀ s', step s i = some s' → Spares step corner s' is

variable {step : σ → ι → Option σ} {step' : τ → ι → Option τ}

/-- Both machines have a run, and an observer sees the same all along. -/
def SameTraces (step : σ → ι → Option σ) (step' : τ → ι → Option τ) (view : σ → ω) (view' : τ → ω)
    (s : σ) (t : τ) (is : List ι) : Prop :=
  ∃ ss ts, trace step s is = some ss ∧ trace step' t is = some ts ∧ ss.map view = ts.map view'

variable {R : σ → τ → Prop} {corner : σ → ι → Prop} {view : σ → ω} {view' : τ → ω}

/-- What two steps have to do. -/
structure Lockstep (step : σ → ι → Option σ) (step' : τ → ι → Option τ) (R : σ → τ → Prop)
    (corner : σ → ι → Prop) (view : σ → ω) (view' : τ → ω) (s : σ) (t : τ) (i : ι) (s' : σ)
    (t' : τ) : Prop where
  left : step s i = some s'
  right : step' t i = some t'
  same_iff : view s' = view' t' ↔ ¬corner s i
  related : ¬corner s i → R s' t'

theorem sameTraces_cons_iff {s s' : σ} {t t' : τ} {i : ι} (hs : step s i = some s')
    (ht : step' t i = some t') (is : List ι) :
    SameTraces step step' view view' s t (i :: is) ↔
      view s' = view' t' ∧ SameTraces step step' view view' s' t' is := by
  rw [SameTraces, trace, trace, hs, ht, Option.bind_some, Option.bind_some]
  constructor
  · rintro ⟨ss, ts, hss, hts, hsame⟩
    obtain ⟨ss, hss', rfl⟩ := Option.map_eq_some_iff.mp hss
    obtain ⟨ts, hts', rfl⟩ := Option.map_eq_some_iff.mp hts
    obtain ⟨hview, hrest⟩ := List.cons.inj hsame
    exact ⟨hview, ss, ts, hss', hts', hrest⟩
  · rintro ⟨hview, ss, ts, hss, hts, hrest⟩
    refine ⟨s' :: ss, t' :: ts, ?_, ?_, ?_⟩
    · rw [hss, Option.map_some]
    · rw [hts, Option.map_some]
    · rw [List.map_cons, List.map_cons, hview, hrest]

/-- Two machines in lockstep show the same exactly while no corner is met. -/
theorem sameTraces_iff
    (hstep : ∀ s t i, R s t → ∃ s' t', Lockstep step step' R corner view view' s t i s' t')
    {s : σ} {t : τ} (h : R s t) (is : List ι) :
    SameTraces step step' view view' s t is ↔ Spares step corner s is := by
  induction is generalizing s t with
  | nil => exact iff_of_true ⟨[], [], rfl, rfl, rfl⟩ trivial
  | cons i is ih =>
    obtain ⟨s', t', hleft, hright, hsame, hrelated⟩ := hstep s t i h
    rw [sameTraces_cons_iff hleft hright, Spares, hsame]
    refine and_congr_right fun hspared => ?_
    rw [ih (hrelated hspared)]
    constructor
    · intro hrest u hu
      rwa [← Option.some.inj (hleft.symm.trans hu)]
    · intro hrest
      exact hrest s' hleft

end Lockstep

end ParallelN64.Core
