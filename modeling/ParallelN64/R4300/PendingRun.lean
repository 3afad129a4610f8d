import ParallelN64.R4300.PendingBits

/-!
# Pending interrupts over whole runs

A run keeps track of the timer interrupt from its dispatch to its acknowledgement. As long
as every call is safe, pending interrupts show in Cause.
-/

namespace ParallelN64.R4300

section Run

variable (cfg : Config)

/-- Whether the timer is pending after an action: from the dispatch of COMPARE_INT until software
writes Compare or Cause. -/
def timerAfter (s : Interpreter) (timer : Bool) : Action → Bool
  | .call =>
    match s.todo with
    | .poll :: _ => timer || s.device.dispatched = some .compareInt
    | .writeCompare _ :: _ => false
    | .writeCause _ :: _ => false
    | _ => timer
  | _ => timer

def timedStep (s : Interpreter × Bool) (a : Action) : Interpreter × Bool :=
  (s.1.step cfg a, timerAfter s.1 s.2 a)

def timedRun (actions : List Action) : Interpreter × Bool :=
  actions.foldl (timedStep cfg) (poweredOn cfg, false)

theorem timedRun_fst (actions : List Action) : (timedRun cfg actions).1 = run cfg actions := by
  have hfold (s : Interpreter × Bool) : (actions.foldl (timedStep cfg) s).1 =
      actions.foldl (Interpreter.step cfg) s.1 := by
    induction actions generalizing s with
    | nil => rfl
    | cons a actions ih => exact ih (timedStep cfg s a)
  exact hfold (poweredOn cfg, false)

def SafeStep (s : Interpreter × Bool) : Action → Prop
  | .call => ∀ c ∈ s.1.todo.head?, SafeCall cfg s.1.device s.2 c
  | _ => True

instance decidableSafeStep (s : Interpreter × Bool) : ∀ a, Decidable (SafeStep cfg s a)
  | .call => inferInstanceAs (Decidable (∀ c ∈ s.1.todo.head?, SafeCall cfg s.1.device s.2 c))
  | .fetch _ _ | .resetSoft | .requestResetHard | .drive _ => inferInstanceAs (Decidable True)

/-- The exceptions that write Cause as a whole. -/
def Call.IsException : Call → Prop
  | .tlbRefill _ => True
  | .cop1Unusable => True
  | .syscall => True
  | _ => False

/-- A pending timer shows in IP7, or is about to be raised by its handler; and IP2 tells whether
the MIPS interface asks for an interrupt, but for the moment before an interrupt check. -/
structure PendingShown (s : Interpreter × Bool) : Prop where
  timer : s.2 = true → s.1.device.TimerSet ∨ s.1.todo.head? = some .raiseTimer
  synced : ChecksNext s.1.todo ∨ s.1.device.Synced

variable {cfg}

variable {s : Interpreter} {timer : Bool} {c : Call}

theorem PendingShown.fetched {todo : List Call} (h : PendingShown (s, timer))
    (hchecks : ¬ChecksNext s.todo) (hhead : s.todo.head? ≠ some .raiseTimer) :
    PendingShown (⟨s.device, todo⟩, timer) :=
  ⟨fun htimer => Or.inl ((h.timer htimer).resolve_right hhead), Or.inr (h.synced.resolve_left hchecks)⟩

theorem PendingShown.outside {d : Device} (h : PendingShown (s, timer))
    (hkeeps : KeepsPending s.device d) : PendingShown (⟨d, s.todo⟩, timer) :=
  ⟨fun htimer => (h.timer htimer).imp_left hkeeps.timer, h.synced.imp_right hkeeps.synced⟩

theorem timerAfter_of_none {rest : List Call} (htodo : s.todo = c :: rest)
    (hcall : s.device.call cfg c = none) : timerAfter s timer .call = timer := by
  rw [timerAfter, htodo]
  cases c with
  | poll => exact absurd hcall (Option.some_ne_none _)
  | writeCompare value => exact absurd hcall (Option.some_ne_none _)
  | writeCause value => exact absurd hcall (Option.some_ne_none _)
  | _ => rfl

theorem PendingShown.timer_call {rest more : List Call} {d' : Device}
    (h : PendingShown (s, timer)) (htodo : s.todo = c :: rest)
    (hcall : s.device.call cfg c = some (d', more)) (hsafe : SafeCall cfg s.device timer c)
    (hafter : timerAfter s timer .call = true) :
    d'.TimerSet ∨ (more ++ rest).head? = some .raiseTimer := by
  have hkeep (htimer : timer = true) (hack : ¬c.AcksTimer) (hc : c ≠ .raiseTimer) : d'.TimerSet := by
    have hhead : s.todo.head? ≠ some .raiseTimer := by simpa [htodo] using hc
    exact (call_keeps hcall hsafe).2 htimer hack ((h.timer htimer).resolve_right hhead)
  rw [timerAfter, htodo] at hafter
  cases c with
  | poll =>
    rcases Bool.or_eq_true_iff.mp hafter with htimer | hdispatched
    · exact Or.inl (hkeep htimer id nofun)
    · have hpoll := @poll_of_dispatched cfg _ _ (of_decide_eq_true hdispatched)
      obtain ⟨-, rfl⟩ := Prod.mk.inj (hpoll.symm.trans (Option.some.inj hcall))
      exact Or.inr rfl
  | raiseTimer =>
    exact of_call hcall (Or.inl raiseTimer_timer)
  | writeCompare value => exact absurd hafter Bool.false_ne_true
  | writeCause value => exact absurd hafter Bool.false_ne_true
  | _ => exact Or.inl (hkeep hafter id nofun)

theorem PendingShown.step {s : Interpreter × Bool} (h : PendingShown s) (a : Action)
    (hsafe : SafeStep cfg s a) : PendingShown (timedStep cfg s a) := by
  obtain ⟨s, timer⟩ := s
  cases a with
  | fetch misses instruction =>
    change PendingShown (s.step cfg (.fetch misses instruction), timer)
    rw [Interpreter.step]
    split
    · next htodo =>
      split
      · exact h
      · exact h.fetched (by rw [htodo]; exact id) (by rw [htodo]; nofun)
    · next rest htodo => exact h.fetched (by rw [htodo]; exact id) (by rw [htodo]; nofun)
    · exact h
  | call =>
    cases htodo : s.todo with
    | nil =>
      have hstep : s.step cfg .call = s := by
        rw [Interpreter.step, htodo]
      have htimer : timerAfter s timer .call = timer := by
        rw [timerAfter, htodo]
      rw [timedStep, hstep, htimer]
      exact h
    | cons c rest =>
      cases hcall : s.device.call cfg c with
      | none =>
        have hstep : s.step cfg .call = s := by
          rw [Interpreter.step, htodo]
          simp only [hcall]
        rw [timedStep, hstep, timerAfter_of_none htodo hcall]
        exact h
      | some result =>
        have hhead : SafeCall cfg s.device timer c := hsafe c (by simp [htodo])
        obtain ⟨d', more⟩ := result
        have hstep : s.step cfg .call = ⟨d', more ++ rest⟩ := by
          rw [Interpreter.step, htodo]
          simp only [hcall]
        rw [timedStep, hstep]
        refine ⟨h.timer_call htodo hcall hhead, ?_⟩
        have hsynced : ChecksNext (c :: rest) ∨ s.device.Synced := htodo ▸ h.synced
        rcases (call_keeps hcall hhead).1 with hmore | hkeep
        · exact Or.inl (hmore.append rest)
        · exact Or.inr (hkeep (hsynced.imp_left ChecksNext.head))
  | resetSoft => exact h.outside (KeepsPending.of_eq rfl rfl)
  | requestResetHard => exact h.outside (KeepsPending.of_eq rfl rfl)
  | drive transfer => exact h.outside (KeepsPending.of_eq rfl rfl)

theorem pendingShown_poweredOn : PendingShown (poweredOn cfg, false) := by
  have hcause : (poweredOn cfg).device.cause = 0x5C#32 := rfl
  have hmask : (poweredOn cfg).device.mi .intrMask = 0#32 := rfl
  have hpending : (poweredOn cfg).device.miPending = false := by
    simp [Device.miPending, hmask]
  refine ⟨fun htimer => absurd htimer Bool.false_ne_true, Or.inr ?_⟩
  rw [Device.Synced, hcause, hpending]
  decide

theorem exception_fields {d d' : Device} {more : List Call}
    (hcall : d.call cfg c = some (d', more)) (hsafe : SafeCall cfg d timer c) (hc : c.IsException) :
    d'.cause &&& ~~~exceptionFields = d.cause &&& ~~~exceptionFields := by
  cases c with
  | tlbRefill miss =>
    exact of_call hcall ((tlbRefillException_fields miss).1.trans hsafe.symm)
  | cop1Unusable =>
    exact of_call hcall ((exceptionCode_fields rfl).trans hsafe.symm)
  | syscall =>
    exact of_call hcall ((exceptionCode_fields rfl).trans hsafe.symm)
  | _ => exact hc.elim

variable (cfg)

/-- In a run of safe steps a dispatched timer shows in IP7 until software acknowledges it, IP2
tells between instructions whether the MIPS interface asks for an interrupt, and the exceptions
that write Cause change only its exception fields. -/
theorem run_shows_pending (actions : List Action)
    (hsafe : Core.AllAlong (timedStep cfg) (SafeStep cfg) (poweredOn cfg, false) actions)
    (first rest : List Action) (hactions : actions = first ++ rest) :
    ((timedRun cfg first).2 = true → (run cfg first).device.TimerSet ∨
        (run cfg first).todo.head? = some .raiseTimer) ∧
      (¬ChecksNext (run cfg first).todo → (run cfg first).device.Synced) ∧
      ∀ c todo after, rest = .call :: after → (run cfg first).todo = c :: todo →
        c.IsException → (run cfg (first ++ [.call])).device.cause &&& ~~~exceptionFields =
          (run cfg first).device.cause &&& ~~~exceptionFields := by
  have hshown : PendingShown (timedRun cfg first) :=
    Core.foldl_prefix_invariant PendingShown (SafeStep cfg) pendingShown_poweredOn
      (fun _ a _ h hc => h.step a hc) (fun _ _ _ hl => hsafe.at hl) hactions
  have hrun := timedRun_fst cfg first
  refine ⟨hrun ▸ hshown.timer, ?_, ?_⟩
  · intro hchecks
    rw [← hrun] at hchecks ⊢
    exact hshown.synced.resolve_left hchecks
  · intro c todo after hrest htodo hc
    subst hrest
    have hsafe' : SafeStep cfg (timedRun cfg first) .call := hsafe.at hactions
    have hcall : SafeCall cfg (run cfg first).device (timedRun cfg first).2 c := by
      rw [← hrun] at htodo ⊢
      exact hsafe' c (by simp [htodo])
    have hstep : run cfg (first ++ [.call]) = (run cfg first).step cfg .call := by
      rw [run, List.foldl_append]
      rfl
    rw [hstep, Interpreter.step, htodo]
    dsimp only
    split
    · rfl
    · next d' more hresult => exact exception_fields hresult hcall hc

end Run

/-- After power on the timer is set to the Count of this moment, and a branch that is not taken
checks for interrupts. -/
def timerRun : List Action :=
  .fetch [] ⟨false, .mtc0 .compare 0x5000#32⟩ :: List.replicate 4 .call ++
    .fetch [] ⟨false, .jump ⟨0#32, false, true⟩⟩ :: List.replicate 6 .call

/-- The timer of that run shows in IP7. -/
theorem run_timerRun_shows_timer : (run sampleConfig timerRun).device.TimerSet ∨
    (run sampleConfig timerRun).todo.head? = some .raiseTimer :=
  (run_shows_pending sampleConfig timerRun (by decide +kernel) timerRun []
    (List.append_nil timerRun).symm).1 (by decide +kernel)

/-- A system call loses a timer interrupt that no software acknowledged. -/
theorem syscall_loses_timer :
    (timedRun sampleConfig timerRun).2 = true ∧
      (run sampleConfig timerRun).device.cause &&& cp0CauseIP7 ≠ 0#32 ∧
      (run sampleConfig timerRun).todo = [] ∧
      (timedRun sampleConfig (timerRun ++
        [.fetch [] ⟨false, .syscall⟩, .call, .call])).2 = true ∧
      (run sampleConfig (timerRun ++
        [.fetch [] ⟨false, .syscall⟩, .call, .call])).device.cause = cp0CauseExcCodeSYS := by
  decide +kernel

end ParallelN64.R4300
