import Mathlib.Data.Nat.Bitwise
import ParallelN64.Rdp.CoherencyRun
import ParallelN64.Rdp.Timeline

/-!
# Waiting for the timeline

A signal arrives at the worker behind everything that was submitted for the commands before it.
The value that the worker has published therefore marks a place behind which no pushed operation
carries draws of those commands.

The ring loses commands once its counters wrap around, so this holds for runs that write fewer
than `2 ^ 64` words.
-/

namespace ParallelN64.Rdp

variable (value : UInt64) {words : List UInt32}

theorem commandTimelineValue_signalCommand :
    commandTimelineValue (signalCommand value) = value := by
  apply UInt64.toNat_inj.mp
  have hlow : value.toUInt32.toUInt64.toNat = value.toNat % 2 ^ 32 := by simp
  have hhigh : ((value >>> 32).toUInt32.toUInt64 <<< 32).toNat =
      2 ^ 32 * (value.toNat / 2 ^ 32) := by
    have hlt := value.toNat_lt
    simp [UInt64.toNat_shiftLeft, UInt64.toNat_shiftRight, Nat.shiftRight_eq_div_pow,
      Nat.shiftLeft_eq]
    omega
  rw [commandTimelineValue, signalCommand]
  simp only [List.getD_cons_succ, List.getD_cons_zero]
  rw [UInt64.toNat_or, hlow, hhigh, Nat.or_comm,
    ← Nat.two_pow_add_eq_or_of_lt (Nat.mod_lt _ (by decide))]
  exact Nat.div_add_mod _ _

theorem commandOp_signalCommand : commandOp (signalCommand value) = metaSignalTimeline := by
  show (metaSignalTimeline <<< 24 >>> 24) &&& 63 = metaSignalTimeline
  decide

theorem MainCommand.commandOp_ne (h : MainCommand words) :
    commandOp words ≠ metaSignalTimeline := by
  rcases h with hdraw | rfl | ⟨quirks, rfl⟩
  · intro hsignal
    rw [hsignal] at hdraw
    exact absurd hdraw (by decide)
  · decide
  · show (metaSetQuirks <<< 24 >>> 24) &&& 63 ≠ metaSignalTimeline
    decide

theorem MainCommand.ne_nil (h : MainCommand words) : words ≠ [] := by
  rintro rfl
  rcases h with hdraw | hflush | ⟨quirks, hquirks⟩
  · exact absurd hdraw (by decide)
  · exact absurd hflush.symm (List.cons_ne_nil _ _)
  · exact absurd hquirks.symm (List.cons_ne_nil _ _)

theorem signal_notMem_actions (draw : DrawAction) (value : UInt64) :
    .signal value ∉ draw.actions := by
  cases draw <;> simp [DrawAction.actions, flushAndSignal]

theorem signal_notMem_enqueueCommandDirect (hop : commandOp words ≠ metaSignalTimeline)
    (f : Flush) (enough : Bool) (draws : List DrawAction) (value : UInt64) :
    .signal value ∉ enqueueCommandDirect words f enough draws := by
  rw [enqueueCommandDirect, if_neg hop]
  split
  next => simp [flushAndSignal]
  next =>
    split
    next =>
      rw [notifyIdleCommandThread]
      split <;> simp [flushAndSignal]
    next =>
      split
      next => exact List.not_mem_nil
      next =>
        intro hmem
        obtain ⟨draw, -, hdraw⟩ := List.mem_flatMap.mp hmem
        exact signal_notMem_actions draw value hdraw

theorem enqueueCommandDirect_signalCommand (f : Flush) (enough : Bool) (draws : List DrawAction) :
    enqueueCommandDirect (signalCommand value) f enough draws =
      [.call (.flushQueues f), .call .submitToQueue, .signal value] := by
  rw [enqueueCommandDirect, if_pos (commandOp_signalCommand value),
    commandTimelineValue_signalCommand]
  rfl

namespace SubmitState

def WaitsOrPends (result : SubmitState × List RendererStep) : Prop :=
  .enqueueFenceWait ∈ result.2 ∨ result.1.pendingRenderPasses ≠ 0

variable {q : SubmitState}

theorem fenceWait_mem_submitToQueue (h : q.pendingRenderPasses ≠ 0) (numPages : Nat) :
    .enqueueFenceWait ∈ (q.submitToQueue numPages).2 := by
  rw [submitToQueue]
  split
  next => simp only [List.mem_append, List.mem_cons, true_or, or_true]
  next => simp only [List.mem_singleton]

theorem maintainQueues_waitsOrPends (h : q.pendingRenderPasses ≠ 0) (numPages : Nat) (due : Bool) :
    WaitsOrPends (q.maintainQueues numPages due) := by
  rw [maintainQueues]
  split
  next => exact Or.inl (fenceWait_mem_submitToQueue h numPages)
  next => exact Or.inr h

theorem upscaledPass_waitsOrPends (h : q.pendingRenderPasses ≠ 0) (numPages : Nat) (f : Flush) :
    WaitsOrPends (q.upscaledPass numPages f) := by
  rw [upscaledPass]
  split
  next => exact maintainQueues_waitsOrPends h numPages f.dueUpscaled
  next => exact Or.inr h

theorem flushQueues_waitsOrPends (q : SubmitState) (numPages : Nat) {f : Flush}
    (hdraws : f.isEmpty = false) : WaitsOrPends (q.flushQueues numPages f) := by
  rw [flushQueues, if_neg (by rw [hdraws]; exact Bool.false_ne_true)]
  dsimp only
  have hbegun : (q.beginPass numPages).1.pendingRenderPasses ≠ 0 := Nat.succ_ne_zero _
  rcases upscaledPass_waitsOrPends hbegun numPages f with hwaits | hpends
  · exact Or.inl (by simp [hwaits])
  · have hlast := maintainQueues_waitsOrPends
      (q := ((q.beginPass numPages).1.upscaledPass numPages f).1.beginNewContext) hpends numPages
      f.due
    rcases hlast with hwaits | hpends
    · exact Or.inl (by simp [hwaits])
    · exact Or.inr hpends

end SubmitState

theorem CoherencyState.perform_workQueue (s : CoherencyState) (step : RendererStep) :
    (s.perform step).performing = s.performing ∧
    ∃ ops, (s.perform step).workQueue = s.workQueue ++ ops ∧
      (∀ op ∈ ops, op.fence = true ∧ op.timelineValue = 0) ∧
      (step = .enqueueFenceWait → ops ≠ []) := by
  cases step with
  | markPage page =>
    have hsame : (s.markPage page).workQueue = s.workQueue ∧
        (s.markPage page).performing = s.performing := by
      rw [markPage]
      split <;> exact ⟨rfl, rfl⟩
    exact ⟨hsame.2, [], hsame.1.trans (List.append_nil _).symm, List.forall_mem_nil _,
      RendererStep.noConfusion⟩
  | countPage page =>
    have hsame : (s.countPage page).workQueue = s.workQueue ∧
        (s.countPage page).performing = s.performing := by
      rw [countPage]
      split <;> exact ⟨rfl, rfl⟩
    exact ⟨hsame.2, [], hsame.1.trans (List.append_nil _).symm, List.forall_mem_nil _,
      RendererStep.noConfusion⟩
  | lockPage page | copyPage page =>
    exact ⟨rfl, [], (List.append_nil _).symm, List.forall_mem_nil _, RendererStep.noConfusion⟩
  | enqueueFenceWait =>
    refine ⟨rfl, [{ fence := true }], rfl, ?_, fun _ => List.cons_ne_nil _ _⟩
    intro op hop
    rw [List.mem_singleton.mp hop]
    exact ⟨rfl, rfl⟩
  | enqueueCopies =>
    rw [perform, enqueueCopies]
    split
    next =>
      exact ⟨rfl, [], (List.append_nil _).symm, List.forall_mem_nil _, RendererStep.noConfusion⟩
    next =>
      refine ⟨rfl, [{ fence := true, copies := bitRanges s.building }], rfl, ?_,
        RendererStep.noConfusion⟩
      intro op hop
      rw [List.mem_singleton.mp hop]
      exact ⟨rfl, rfl⟩

namespace TimelineState

variable {s : TimelineState}

theorem rendererStep_spec {step : RendererStep} {todo : List RendererStep}
    (htodo : s.coherency.todo = step :: todo) :
    s.rendererStep.coherency.todo = todo ∧
      s.rendererStep.coherency.submit = s.coherency.submit ∧
      s.rendererStep.coherency.performing = s.coherency.performing ∧
      s.rendererStep.coherency.workQueue = s.coherency.workQueue ++ s.pushedNext ∧
      (∀ op ∈ s.pushedNext, op.fence = true ∧ op.timelineValue = 0) ∧
      (step = .enqueueFenceWait → s.pushedNext ≠ []) := by
  have hstep : s.coherency.rendererStep =
      CoherencyState.perform { s.coherency with todo } step := by
    rw [CoherencyState.rendererStep, htodo]
  obtain ⟨htail, hsubmit, -⟩ := CoherencyState.perform_frame { s.coherency with todo } step
  obtain ⟨hperforming, ops, hqueue, hops, hfence⟩ :=
    CoherencyState.perform_workQueue { s.coherency with todo } step
  have hpushed : s.pushedNext = ops := by
    rw [pushedNext, hstep, hqueue, List.drop_left]
  rw [rendererStep, hpushed, hstep]
  exact ⟨htail, hsubmit, hperforming, hqueue, hops, hfence⟩

/-- The ring holds the signals in their order. -/
structure Signalled (s : TimelineState) : Prop where
  size_eq : s.ring.ring.size = commandRingSize
  ring : s.ring.Consistent
  commands : ∀ n words, s.ring.enqueued[n]? = some words →
    MainCommand words ∨ ∃ value, words = signalCommand value ∧ (value, n) ∈ s.signals
  timelineValue_eq : s.timelineValue.toNat = s.signals.length
  length_signals_le : s.signals.length ≤ s.ring.enqueued.length
  before : ∀ signal ∈ s.signals, signal.1 ≠ 0 ∧ signal.1 ≤ s.timelineValue ∧
    signal.2 < s.ring.enqueued.length
  ordered : ∀ signal ∈ s.signals, ∀ later ∈ s.signals, signal.1 ≤ later.1 → signal.2 ≤ later.2

/-- The commands received are those processed and the one whose processing uses the renderer. -/
structure InOrder (s : TimelineState) : Prop where
  command : s.user = some .command →
    ∃ words, s.ring.consumer = .holding words ∧ s.ring.received = s.processed ++ [words]
  other : s.user ≠ some .command → s.ring.consumer = .waiting ∧ s.ring.received = s.processed
  unused : s.user = none → s.actions = [] ∧ s.coherency.todo = []
  drained : s.user = some .scanout → s.ring.ring.writeCount = s.ring.ring.readCount

/-- A value is pushed as the last action of its signal, when nothing is left to submit. -/
def Signalling (s : TimelineState) : Prop :=
  ∀ value, .signal value ∈ s.actions →
    ∃ n, (value, n) ∈ s.signals ∧ s.ring.received.length = n + 1 ∧
      ((∃ f, s.actions = [.call (.flushQueues f), .call .submitToQueue, .signal value]) ∨
        s.actions = [.call .submitToQueue, .signal value] ∧ s.batch = [] ∨
        s.actions = [.signal value] ∧ s.batch = [] ∧ s.recorded = [])

/-- From some pushed operation on, no draws of the first commands are carried any more. -/
structure Settles (s : TimelineState) (n k : Nat) : Prop where
  received : n < s.ring.received.length
  batch : ∀ i ∈ s.batch, n ≤ i
  recorded : ∀ i ∈ s.recorded, n ≤ i
  carried : s.coherency.todo ≠ [] → ∀ i ∈ s.carried, n ≤ i
  pushed : ∀ p ∈ s.pushed.drop k, ∀ i ∈ p.commands, n ≤ i

/-- The worker performs what was pushed, and every value that it finds or has published settles
the commands before its signal. -/
structure Queued (s : TimelineState) : Prop where
  unperformed_eq : s.unperformed.map PushedOperation.operation =
    s.work.toList ++ s.coherency.workQueue
  performed_le : s.performed ≤ s.pushed.length
  idle : s.work = none → s.coherency.performing = []
  notSentinel : ∀ p ∈ s.pushed, p.operation.isSentinel = false
  signals : ∀ k p, s.pushed[k]? = some p → p.operation.timelineValue ≠ 0 →
    ∃ n, (p.operation.timelineValue, n) ∈ s.signals ∧ s.Settles n k
  published : s.threadTimelineValue ≠ 0 →
    ∃ n, (s.threadTimelineValue, n) ∈ s.signals ∧ s.Settles n s.performed

/-- Every command that put something in a batch is still there, is recorded, is being submitted,
or has an operation that waits for a fence. -/
structure Accounted (s : TimelineState) : Prop where
  pends : s.recorded ≠ [] → s.coherency.submit.pendingRenderPasses ≠ 0
  drawn : ∀ i ∈ s.drawn, i ∈ s.batch ∨ i ∈ s.recorded ∨
    .enqueueFenceWait ∈ s.coherency.todo ∧ i ∈ s.carried ∨
    ∃ p ∈ s.pushed, p.operation.fence = true ∧ i ∈ p.commands

/-- What holds between any two steps. -/
structure Ordered (s : TimelineState) : Prop where
  signalled : s.Signalled
  inOrder : s.InOrder
  signalling : s.Signalling
  queued : s.Queued
  accounted : s.Accounted

variable {k : Nat} {s' : TimelineState} {rest : List RendererAction} {c : CoherencyCall} {n : Nat}
variable {processed : List (List UInt32)}

theorem drop_append_pushed (hk : k ≤ s.pushed.length) (new : List PushedOperation) :
    (s.pushed ++ new).drop k = s.pushed.drop k ++ new :=
  List.drop_append_of_le_length hk

theorem Queued.append (h : s.Queued) (new : List PushedOperation)
    (hpushed : s'.pushed = s.pushed ++ new) (hwork : s'.work = s.work)
    (hperforming : s'.coherency.performing = s.coherency.performing)
    (hqueue : s'.coherency.workQueue =
      s.coherency.workQueue ++ new.map PushedOperation.operation)
    (hperformed : s'.performed = s.performed)
    (hthread : s'.threadTimelineValue = s.threadTimelineValue) (hsignals : s.signals ⊆ s'.signals)
    (hnew : ∀ p ∈ new, p.operation.isSentinel = false)
    (hsettles : ∀ n k, k ≤ s.pushed.length → s.Settles n k → s'.Settles n k)
    (hsignal : ∀ k p, new[k]? = some p → p.operation.timelineValue ≠ 0 →
      ∃ n, (p.operation.timelineValue, n) ∈ s'.signals ∧ s'.Settles n (s.pushed.length + k)) :
    s'.Queued where
  unperformed_eq := by
    rw [unperformed, hperformed, hpushed, drop_append_pushed h.performed_le, List.map_append,
      hwork, hqueue, ← List.append_assoc, ← h.unperformed_eq]
    rfl
  performed_le := by
    rw [hperformed, hpushed, List.length_append]
    exact h.performed_le.trans (Nat.le_add_right _ _)
  idle := by
    rw [hwork, hperforming]
    exact h.idle
  notSentinel := by
    intro p hp
    rw [hpushed] at hp
    rcases List.mem_append.mp hp with hold | hlast
    · exact h.notSentinel p hold
    · exact hnew p hlast
  signals := by
    intro k p hp hvalue
    rw [hpushed] at hp
    rcases Nat.lt_or_ge k s.pushed.length with hold | hlast
    · rw [List.getElem?_append_left hold] at hp
      obtain ⟨n, hn, hsettled⟩ := h.signals k p hp hvalue
      exact ⟨n, hsignals hn, hsettles n k hold.le hsettled⟩
    · rw [List.getElem?_append_right hlast] at hp
      have hlater := hsignal _ p hp hvalue
      rwa [Nat.add_sub_cancel' hlast] at hlater
  published := by
    intro hvalue
    rw [hthread] at hvalue
    obtain ⟨n, hn, hsettled⟩ := h.published hvalue
    rw [hthread, hperformed]
    exact ⟨n, hsignals hn, hsettles n _ h.performed_le hsettled⟩

theorem Queued.frame (h : s.Queued) (hpushed : s'.pushed = s.pushed) (hwork : s'.work = s.work)
    (hperforming : s'.coherency.performing = s.coherency.performing)
    (hqueue : s'.coherency.workQueue = s.coherency.workQueue)
    (hperformed : s'.performed = s.performed)
    (hthread : s'.threadTimelineValue = s.threadTimelineValue) (hsignals : s.signals ⊆ s'.signals)
    (hsettles : ∀ n k, k ≤ s.pushed.length → s.Settles n k → s'.Settles n k) : s'.Queued :=
  h.append [] (hpushed.trans (List.append_nil _).symm) hwork hperforming
    (hqueue.trans (List.append_nil _).symm) hperformed hthread hsignals (List.forall_mem_nil _)
    hsettles (fun _ _ hp => absurd hp (by simp))

theorem Signalled.enqueue (h : s.Signalled) (words : List UInt32)
    (hlength : words.length < 2 ^ 32)
    (hroom : canEnqueueRingWords s.ring.ring.writeCount s.ring.ring.readCount s.ring.ring.size
      (UInt32.ofNat words.length))
    (hcount : (streamWords (s.ring.enqueued ++ [words])).length < 2 ^ 64) :
    (s.ring.enqueueCommand words).Consistent ∧
      ∀ n words', (s.ring.enqueued ++ [words])[n]? = some words' →
        s.ring.enqueued[n]? = some words' ∨ n = s.ring.enqueued.length ∧ words' = words := by
  refine ⟨h.ring.enqueueCommand (k := 12) (by rw [h.size_eq]; rfl) hlength hroom hcount, ?_⟩
  intro n words' hn
  rcases Nat.lt_or_ge n s.ring.enqueued.length with hold | hlast
  · rw [List.getElem?_append_left hold] at hn
    exact Or.inl hn
  · rw [List.getElem?_append_right hlast, List.getElem?_singleton] at hn
    split at hn
    next hzero => exact Or.inr ⟨by omega, (Option.some.inj hn).symm⟩
    next => exact absurd hn.symm (Option.some_ne_none _)

theorem Signalled.enqueueCommand (h : s.Signalled) {words : List UInt32}
    (hcommand : MainCommand words) (hlength : words.length < 2 ^ 32)
    (hroom : canEnqueueRingWords s.ring.ring.writeCount s.ring.ring.readCount s.ring.ring.size
      (UInt32.ofNat words.length))
    (hcount : (streamWords (s.ring.enqueued ++ [words])).length < 2 ^ 64) :
    (s.enqueueCommand words).Signalled := by
  obtain ⟨hring, hcommands⟩ := h.enqueue words hlength hroom hcount
  have hlonger : (s.ring.enqueueCommand words).enqueued.length = s.ring.enqueued.length + 1 :=
    List.length_append
  refine ⟨h.size_eq, hring, ?_, h.timelineValue_eq, ?_, ?_, h.ordered⟩
  · intro n words' hn
    rcases hcommands n words' hn with hold | ⟨-, rfl⟩
    · exact h.commands n words' hold
    · exact Or.inl hcommand
  · rw [TimelineState.enqueueCommand, hlonger]
    exact Nat.le_succ_of_le h.length_signals_le
  · intro signal hsignal
    obtain ⟨hne, hle, hlt⟩ := h.before signal hsignal
    refine ⟨hne, hle, ?_⟩
    rw [TimelineState.enqueueCommand, hlonger]
    exact Nat.lt_succ_of_lt hlt

theorem length_le_length_streamWords (commands : List (List UInt32)) :
    commands.length ≤ (streamWords commands).length := by
  induction commands with
  | nil => exact Nat.le_refl 0
  | cons words commands ih =>
    have hcons : streamWords (words :: commands) = commandWords words ++ streamWords commands := rfl
    rw [hcons, List.length_append, length_commandWords, List.length_cons]
    omega

theorem Signalled.signalTimeline (h : s.Signalled)
    (hroom : canEnqueueRingWords s.ring.ring.writeCount s.ring.ring.readCount s.ring.ring.size 3)
    (hcount : (streamWords s.signalTimeline.ring.enqueued).length < 2 ^ 64) :
    s.signalTimeline.Signalled := by
  have hlength := length_le_length_streamWords s.signalTimeline.ring.enqueued
  have hlonger : s.signalTimeline.ring.enqueued.length = s.ring.enqueued.length + 1 :=
    List.length_append
  have hvalue : (s.timelineValue + 1).toNat = s.timelineValue.toNat + 1 := by
    apply toNat_add_one
    rw [h.timelineValue_eq]
    have hle := h.length_signals_le
    omega
  have hlater : s.timelineValue < s.timelineValue + 1 := by
    rw [UInt64.lt_iff_toNat_lt, hvalue]
    exact Nat.lt_succ_self _
  obtain ⟨hring, hcommands⟩ := h.enqueue (signalCommand (s.timelineValue + 1))
    (show 3 < 2 ^ 32 by decide) hroom hcount
  refine ⟨h.size_eq, hring, ?_, ?_, ?_, ?_, ?_⟩
  · intro n words hn
    rcases hcommands n words hn with hold | ⟨rfl, rfl⟩
    · rcases h.commands n words hold with hmain | ⟨value, hwords, hsignal⟩
      · exact Or.inl hmain
      · exact Or.inr ⟨value, hwords, List.mem_append_left _ hsignal⟩
    · exact Or.inr ⟨_, rfl, List.mem_append_right _ List.mem_cons_self⟩
  · rw [TimelineState.signalTimeline, List.length_append, ← h.timelineValue_eq]
    exact hvalue
  · rw [hlonger, TimelineState.signalTimeline, List.length_append]
    exact Nat.succ_le_succ h.length_signals_le
  · intro signal hsignal
    rw [hlonger]
    rcases List.mem_append.mp hsignal with hold | hlast
    · obtain ⟨hne, hle, hlt⟩ := h.before signal hold
      exact ⟨hne, UInt64.le_trans hle (UInt64.le_of_lt hlater), Nat.lt_succ_of_lt hlt⟩
    · rw [List.mem_singleton.mp hlast]
      refine ⟨?_, UInt64.le_refl _, Nat.lt_succ_self _⟩
      intro (hzero : s.timelineValue + 1 = 0)
      rw [hzero] at hvalue
      exact absurd hvalue (Nat.succ_ne_zero _).symm
  · intro signal hsignal later hlast hle
    rcases List.mem_append.mp hsignal with hold | hnew
    · rcases List.mem_append.mp hlast with hlast | hlast
      · exact h.ordered signal hold later hlast hle
      · rw [List.mem_singleton.mp hlast]
        exact (h.before signal hold).2.2.le
    · rw [List.mem_singleton.mp hnew] at hle ⊢
      rcases List.mem_append.mp hlast with hlast | hlast
      · have hbefore := (h.before later hlast).2.1
        exact absurd (UInt64.lt_of_lt_of_le hlater (UInt64.le_trans hle hbefore))
          (UInt64.lt_irrefl _)
      · rw [List.mem_singleton.mp hlast]

theorem Ordered.enqueueCommand (h : s.Ordered) {words : List UInt32}
    (hcommand : MainCommand words) (hlength : words.length < 2 ^ 32)
    (hmain : s.user ≠ some .scanout)
    (hroom : canEnqueueRingWords s.ring.ring.writeCount s.ring.ring.readCount s.ring.ring.size
      (UInt32.ofNat words.length))
    (hcount : (streamWords (s.ring.enqueued ++ [words])).length < 2 ^ 64) :
    (s.enqueueCommand words).Ordered where
  signalled := h.signalled.enqueueCommand hcommand hlength hroom hcount
  inOrder := ⟨h.inOrder.command, h.inOrder.other, h.inOrder.unused,
    fun hscanout => absurd hscanout hmain⟩
  signalling := h.signalling
  queued := h.queued.frame rfl rfl rfl rfl rfl rfl (List.Subset.refl _) fun _ _ _ hsettled =>
      { hsettled with }
  accounted := ⟨h.accounted.pends, h.accounted.drawn⟩

theorem Ordered.signalTimeline (h : s.Ordered) (hmain : s.user ≠ some .scanout)
    (hroom : canEnqueueRingWords s.ring.ring.writeCount s.ring.ring.readCount s.ring.ring.size 3)
    (hcount : (streamWords s.signalTimeline.ring.enqueued).length < 2 ^ 64) :
    s.signalTimeline.Ordered where
  signalled := h.signalled.signalTimeline hroom hcount
  inOrder := ⟨h.inOrder.command, h.inOrder.other, h.inOrder.unused,
    fun hscanout => absurd hscanout hmain⟩
  signalling := by
    intro value hvalue
    obtain ⟨n, hn, hstage⟩ := h.signalling value hvalue
    exact ⟨n, List.mem_append_left _ hn, hstage⟩
  queued := h.queued.frame rfl rfl rfl rfl rfl rfl (List.subset_append_left _ _)
    fun _ _ _ hsettled =>
      { hsettled with }
  accounted := ⟨h.accounted.pends, h.accounted.drawn⟩

theorem Ordered.scanout (h : s.Ordered) (f : Flush) (r : PageRange) (huser : s.user = none)
    (hdrained : s.ring.ring.writeCount = s.ring.ring.completedCount) :
    (s.scanout f r).Ordered := by
  obtain ⟨hwaiting, hreceived⟩ :=
    h.inOrder.other (by rw [huser]; exact (Option.some_ne_none _).symm)
  have hcounts := h.signalled.ring.writeCount_eq_readCount (h.signalled.ring.drained hdrained).1
  refine ⟨{ h.signalled with }, ⟨?_, fun _ => ⟨hwaiting, hreceived⟩, ?_, fun _ => hcounts⟩, ?_, ?_,
    { h.accounted with }⟩
  · exact fun hcommand => absurd (Option.some.inj hcommand) RendererUser.noConfusion
  · exact fun hnone => absurd hnone (Option.some_ne_none _)
  · intro value hvalue
    exact absurd hvalue (by simp [TimelineState.scanout, flushAndSignal])
  · exact h.queued.frame rfl rfl rfl rfl rfl rfl (List.Subset.refl _) fun _ _ _ hsettled =>
      { hsettled with }

theorem Signalled.readCommand (h : s.Signalled)
    (hunread : s.ring.ring.writeCount > s.ring.ring.readCount) :
    ∃ words, s.ring.enqueued[s.ring.received.length]? = some words ∧
      s.ring.readCommand.received = s.ring.received ++ [words] ∧
      s.ring.readCommand.consumer = .holding words := by
  obtain ⟨words, rest, henqueued, hwords, -⟩ :=
    h.ring.readRingCommand_eq (k := 12) (by rw [h.size_eq]; rfl) hunread
  have hnext : s.ring.enqueued[s.ring.received.length]? = some words := by
    rw [henqueued, List.getElem?_append_right (Nat.le_refl _), Nat.sub_self]
    rfl
  have hne : words.isEmpty = false := by
    rw [List.isEmpty_eq_false_iff]
    rcases h.commands _ _ hnext with hmain | ⟨value, rfl, -⟩
    · exact hmain.ne_nil
    · exact List.cons_ne_nil _ _
  refine ⟨words, hnext, ?_, ?_⟩
  · rw [RingRun.readCommand, hwords]
  · simp only [RingRun.readCommand, hwords, hne, Bool.false_eq_true, if_false]

theorem Ordered.receiveCommand (h : s.Ordered) (f : Flush) (enough : Bool)
    (draws : List DrawAction) (huser : s.user = none)
    (hunread : s.ring.ring.writeCount > s.ring.ring.readCount) :
    (s.receiveCommand f enough draws).Ordered := by
  obtain ⟨words, hnext, hreceived, hholding⟩ := h.signalled.readCommand hunread
  obtain ⟨-, hprocessed⟩ := h.inOrder.other (by rw [huser]; exact (Option.some_ne_none _).symm)
  obtain ⟨-, htodo⟩ := h.inOrder.unused huser
  have hlonger : s.ring.readCommand.received.length = s.ring.received.length + 1 := by
    rw [hreceived, List.length_append]
    rfl
  rw [TimelineState.receiveCommand, hholding]
  refine ⟨?_, ⟨fun _ => ⟨words, hholding, ?_⟩, fun hother => absurd rfl hother, ?_, ?_⟩, ?_, ?_,
    { h.accounted with }⟩
  · exact { h.signalled with
      ring := h.signalled.ring.readCommand (k := 12) (by rw [h.signalled.size_eq]; rfl) hunread }
  · rw [hreceived, hprocessed]
  · exact fun hnone => absurd hnone (Option.some_ne_none _)
  · exact fun hscanout => absurd (Option.some.inj hscanout) RendererUser.noConfusion
  · intro value hvalue
    rcases h.signalled.commands _ _ hnext with hmain | ⟨signalled, rfl, hsignal⟩
    · exact absurd hvalue
        (signal_notMem_enqueueCommandDirect hmain.commandOp_ne f enough draws value)
    · dsimp only at hvalue ⊢
      rw [enqueueCommandDirect_signalCommand] at hvalue ⊢
      have hsame : value = signalled := by simpa using hvalue
      rw [hsame]
      exact ⟨_, hsignal, hlonger, Or.inl ⟨f, rfl⟩⟩
  · refine h.queued.frame rfl rfl rfl rfl rfl rfl (List.Subset.refl _) fun n k _ hsettled =>
      ⟨?_, hsettled.batch, hsettled.recorded, hsettled.carried, hsettled.pushed⟩
    dsimp only
    rw [hlonger]
    exact Nat.lt_succ_of_lt hsettled.received

theorem Ordered.notifyIdle (h : s.Ordered) (f : Flush) (enough : Bool) (huser : s.user = none) :
    (s.notifyIdle f enough).Ordered := by
  obtain ⟨hwaiting, hprocessed⟩ :=
    h.inOrder.other (by rw [huser]; exact (Option.some_ne_none _).symm)
  refine ⟨{ h.signalled with }, ⟨?_, fun _ => ⟨hwaiting, hprocessed⟩, ?_, ?_⟩, ?_, ?_,
    { h.accounted with }⟩
  · exact fun hcommand => absurd (Option.some.inj hcommand) RendererUser.noConfusion
  · exact fun hnone => absurd hnone (Option.some_ne_none _)
  · exact fun hscanout => absurd (Option.some.inj hscanout) RendererUser.noConfusion
  · intro value hvalue
    rw [TimelineState.notifyIdle, notifyIdleCommandThread] at hvalue
    split at hvalue
    next => exact absurd hvalue (by simp [flushAndSignal])
    next => exact absurd hvalue List.not_mem_nil
  · exact h.queued.frame rfl rfl rfl rfl rfl rfl (List.Subset.refl _) fun _ _ _ hsettled =>
      { hsettled with }

theorem Ordered.record (h : s.Ordered) (hactions : s.actions = .record :: rest) :
    ({ s with actions := rest }.beginAction .record).Ordered := by
  have hused : s.user ≠ none := by
    intro hnone
    have hnil := (h.inOrder.unused hnone).1
    rw [hactions] at hnil
    exact absurd hnil (List.cons_ne_nil _ _)
  refine ⟨{ h.signalled with },
    ⟨h.inOrder.command, h.inOrder.other, fun hnone => absurd hnone hused, h.inOrder.drained⟩,
    ?_, ?_, h.accounted.pends, ?_⟩
  · intro value hvalue
    have hmem : .signal value ∈ s.actions := by
      rw [hactions]
      exact List.mem_cons_of_mem _ hvalue
    obtain ⟨n, -, -, ⟨f, hstage⟩ | ⟨hstage, -⟩ | ⟨hstage, -⟩⟩ := h.signalling value hmem
    all_goals
      rw [hactions] at hstage
      exact absurd (List.cons.inj hstage).1 RendererAction.noConfusion
  · refine h.queued.frame rfl rfl rfl rfl rfl rfl (List.Subset.refl _) fun n k _ hsettled =>
      ⟨hsettled.received, ?_, hsettled.recorded, hsettled.carried, hsettled.pushed⟩
    intro i hi
    rcases List.mem_append.mp hi with hold | hnew
    · exact hsettled.batch i hold
    · rw [List.mem_singleton.mp hnew]
      exact Nat.le_sub_one_of_lt hsettled.received
  · intro i hi
    rcases List.mem_append.mp hi with hold | hnew
    · rcases h.accounted.drawn i hold with hbatch | hlater
      · exact Or.inl (List.mem_append_left _ hbatch)
      · exact Or.inr hlater
    · exact Or.inl (List.mem_append_right _ hnew)

theorem beginCall_spec (htodo : s.coherency.todo = []) (c : CoherencyCall) :
    let next := s.coherency.submit.call s.coherency.numPages (s.callOf c)
    (s.beginCall c).coherency.submit = next.1 ∧
      (.enqueueFenceWait ∈ s.stepsOf c ↔ .enqueueFenceWait ∈ next.2) ∧
      (s.beginCall c).coherency.performing = s.coherency.performing ∧
      (s.beginCall c).coherency.workQueue = s.coherency.workQueue := by
  have hbegin : s.coherency.beginCall (s.callOf c) =
      { s.coherency with
        submit := (s.coherency.submit.call s.coherency.numPages (s.callOf c)).1
        todo := (s.coherency.submit.call s.coherency.numPages (s.callOf c)).2
        readbackAtCall := s.coherency.pageToPendingReadback } := by
    rw [CoherencyState.beginCall, htodo]
    rfl
  rw [TimelineState.beginCall, stepsOf, hbegin]
  refine ⟨rfl, ?_, rfl, rfl⟩
  split
  next => simp
  next => exact Iff.rfl

theorem Accounted.waitsOrPends (h : s.Accounted) (htodo : s.coherency.todo = [])
    (c : CoherencyCall) (hrecorded : s.recordedBy c ≠ []) :
    .enqueueFenceWait ∈ s.stepsOf c ∨
      (s.beginCall c).coherency.submit.pendingRenderPasses ≠ 0 := by
  obtain ⟨hsubmit, hsteps, -⟩ := beginCall_spec htodo c
  rw [hsubmit, hsteps]
  cases c with
  | loadTile r => exact Or.inr (h.pends hrecorded)
  | submitToQueue => exact Or.inl (SubmitState.fenceWait_mem_submitToQueue (h.pends hrecorded) _)
  | resolveCoherencyExternal r =>
    refine Or.inr ?_
    rw [callOf, SubmitState.call]
    split <;> exact h.pends hrecorded
  | flushQueues f =>
    cases hbatch : s.batch.isEmpty with
    | false => exact SubmitState.flushQueues_waitsOrPends _ _ hbatch
    | true =>
      refine Or.inr ?_
      rw [recordedBy, List.isEmpty_iff.mp hbatch, List.append_nil] at hrecorded
      rw [callOf, SubmitState.call, SubmitState.flushQueues, if_pos hbatch]
      exact h.pends hrecorded

theorem Accounted.recorded_submitToQueue (h : s.Accounted) (htodo : s.coherency.todo = []) :
    (s.beginCall .submitToQueue).recorded = [] := by
  obtain ⟨-, hsteps, -⟩ := beginCall_spec htodo .submitToQueue
  by_contra hne
  have hwaits : .enqueueFenceWait ∈ s.stepsOf .submitToQueue := by
    rw [hsteps]
    refine SubmitState.fenceWait_mem_submitToQueue (h.pends fun hnil => hne ?_) _
    rw [TimelineState.beginCall, recordedBy, hnil, ite_self]
  exact hne (if_pos hwaits)

theorem mem_recordedBy {i : Nat} (hi : i ∈ s.recordedBy c) : i ∈ s.recorded ∨ i ∈ s.batch := by
  cases c with
  | flushQueues f => exact List.mem_append.mp hi
  | loadTile _ | submitToQueue | resolveCoherencyExternal _ => exact Or.inl hi

theorem mem_batchAfter {i : Nat} (hi : i ∈ s.batchAfter c) : i ∈ s.batch := by
  cases c with
  | flushQueues f => exact absurd hi List.not_mem_nil
  | loadTile _ | submitToQueue | resolveCoherencyExternal _ => exact hi

theorem Settles.beginCall (h : s.Settles n k) (c : CoherencyCall) :
    (s.beginCall c).Settles n k := by
  have hrecorded : ∀ i ∈ s.recordedBy c, n ≤ i := by
    intro i hi
    rcases mem_recordedBy hi with hi | hi
    · exact h.recorded i hi
    · exact h.batch i hi
  refine ⟨h.received, fun i hi => h.batch i (mem_batchAfter hi), ?_, fun _ => hrecorded, h.pushed⟩
  intro i hi
  rw [TimelineState.beginCall] at hi
  dsimp only at hi
  split at hi
  next => exact absurd hi List.not_mem_nil
  next => exact hrecorded i hi

theorem Accounted.beginCall (h : s.Accounted) (htodo : s.coherency.todo = []) (c : CoherencyCall) :
    (s.beginCall c).Accounted := by
  constructor
  · intro hrecorded
    by_cases hwaits : .enqueueFenceWait ∈ s.stepsOf c
    · exact absurd (if_pos hwaits) hrecorded
    · have hsame : (s.beginCall c).recorded = s.recordedBy c := if_neg hwaits
      exact (h.waitsOrPends htodo c (hsame ▸ hrecorded)).resolve_left hwaits
  · have hrecorded : ∀ i ∈ s.recordedBy c, i ∈ (s.beginCall c).recorded ∨
        .enqueueFenceWait ∈ (s.beginCall c).coherency.todo ∧ i ∈ (s.beginCall c).carried := by
      intro i hi
      by_cases hwaits : .enqueueFenceWait ∈ s.stepsOf c
      · exact Or.inr ⟨hwaits, hi⟩
      · have hsame : (s.beginCall c).recorded = s.recordedBy c := if_neg hwaits
        exact Or.inl (hsame ▸ hi)
    intro i hi
    rcases h.drawn i hi with hbatch | hrec | ⟨hwaits, -⟩ | hpushed
    · cases c with
      | flushQueues f =>
        exact Or.inr ((hrecorded i (List.mem_append_right _ hbatch)).imp_right Or.inl)
      | loadTile _ | submitToQueue | resolveCoherencyExternal _ => exact Or.inl hbatch
    · refine Or.inr ((hrecorded i ?_).imp_right Or.inl)
      cases c with
      | flushQueues f => exact List.mem_append_left _ hrec
      | loadTile _ | submitToQueue | resolveCoherencyExternal _ => exact hrec
    · rw [htodo] at hwaits
      exact absurd hwaits List.not_mem_nil
    · exact Or.inr (Or.inr (Or.inr hpushed))

theorem Signalling.beginCall (h : s.Signalling) (haccounted : s.Accounted)
    (hactions : s.actions = .call c :: rest) (htodo : s.coherency.todo = []) :
    ({ s with actions := rest }.beginCall c).Signalling := by
  intro value hvalue
  have hmem : .signal value ∈ s.actions := by
    rw [hactions]
    exact List.mem_cons_of_mem _ hvalue
  obtain ⟨n, hn, hreceived, ⟨f, hstage⟩ | ⟨hstage, hbatch⟩ | ⟨hstage, -⟩⟩ := h value hmem
  · rw [hactions] at hstage
    obtain ⟨hcall, rfl⟩ := List.cons.inj hstage
    obtain rfl := RendererAction.call.inj hcall
    exact ⟨n, hn, hreceived, Or.inr (Or.inl ⟨rfl, rfl⟩)⟩
  · rw [hactions] at hstage
    obtain ⟨hcall, rfl⟩ := List.cons.inj hstage
    obtain rfl := RendererAction.call.inj hcall
    refine ⟨n, hn, hreceived, Or.inr (Or.inr ⟨rfl, hbatch, ?_⟩)⟩
    exact Accounted.recorded_submitToQueue { haccounted with } htodo
  · rw [hactions] at hstage
    exact absurd (List.cons.inj hstage).1 RendererAction.noConfusion

theorem Ordered.used (h : s.Ordered) {action : RendererAction}
    (hactions : s.actions = action :: rest) : s.user ≠ none := by
  intro hnone
  have hnil := (h.inOrder.unused hnone).1
  rw [hactions] at hnil
  exact absurd hnil (List.cons_ne_nil _ _)

theorem Ordered.call (h : s.Ordered) (hactions : s.actions = .call c :: rest)
    (htodo : s.coherency.todo = []) :
    ({ s with actions := rest }.beginAction (.call c)).Ordered := by
  have hused := h.used hactions
  refine ⟨{ h.signalled with },
    ⟨h.inOrder.command, h.inOrder.other, fun hnone => absurd hnone hused, h.inOrder.drained⟩,
    h.signalling.beginCall h.accounted hactions htodo, ?_, ?_⟩
  · obtain ⟨-, -, hperforming, hqueue⟩ := beginCall_spec (s := { s with actions := rest }) htodo c
    refine h.queued.frame rfl rfl hperforming hqueue rfl rfl (List.Subset.refl _)
      fun n k _ hsettled => ?_
    exact Settles.beginCall (s := { s with actions := rest }) { hsettled with } c
  · exact Accounted.beginCall (s := { s with actions := rest }) { h.accounted with } htodo c

theorem Ordered.signal (h : s.Ordered) {value : UInt64}
    (hactions : s.actions = .signal value :: rest) (htodo : s.coherency.todo = []) :
    ({ s with actions := rest }.beginAction (.signal value)).Ordered := by
  have hused := h.used hactions
  obtain ⟨n, hn, hreceived, ⟨f, hstage⟩ | ⟨hstage, -⟩ | ⟨hstage, hbatch, hrecorded⟩⟩ :=
    h.signalling value (by rw [hactions]; exact List.mem_cons_self)
  · rw [hactions] at hstage
    exact absurd (List.cons.inj hstage).1 RendererAction.noConfusion
  · rw [hactions] at hstage
    exact absurd (List.cons.inj hstage).1 RendererAction.noConfusion
  rw [hactions] at hstage
  obtain ⟨-, rfl⟩ := List.cons.inj hstage
  have hvalue := (h.signalled.before _ hn).1
  refine ⟨{ h.signalled with },
    ⟨h.inOrder.command, h.inOrder.other, fun hnone => absurd hnone hused, h.inOrder.drained⟩,
    fun _ hmem => absurd hmem List.not_mem_nil, ?_, ⟨h.accounted.pends, ?_⟩⟩
  · refine h.queued.append _ rfl rfl rfl rfl rfl rfl (List.Subset.refl _) ?_ ?_ ?_
    · intro p hp
      rw [List.mem_singleton.mp hp]
      simpa [CoherencyOperation.isSentinel] using hvalue
    · intro m k hk hsettled
      refine ⟨hsettled.received, hsettled.batch, hsettled.recorded, hsettled.carried, ?_⟩
      intro p hp
      dsimp only [beginAction, pushSignal] at hp
      rw [drop_append_pushed hk] at hp
      rcases List.mem_append.mp hp with hold | hnew
      · exact hsettled.pushed p hold
      · rw [List.mem_singleton.mp hnew]
        exact List.forall_mem_nil _
    · intro k p hp _
      rw [List.getElem?_singleton] at hp
      split at hp
      next =>
        rw [← Option.some.inj hp]
        refine ⟨n, hn, ?_, ?_, ?_, fun hbusy => absurd htodo hbusy, ?_⟩
        · rw [beginAction, pushSignal, hreceived]
          exact Nat.lt_succ_self n
        · rw [beginAction, pushSignal, hbatch]
          exact List.forall_mem_nil _
        · rw [beginAction, pushSignal, hrecorded]
          exact List.forall_mem_nil _
        · intro q hq
          dsimp only [beginAction, pushSignal] at hq
          rw [List.drop_append, List.drop_eq_nil_of_le (Nat.le_add_right _ _),
            List.nil_append] at hq
          rw [List.mem_singleton.mp (List.mem_of_mem_drop hq)]
          exact List.forall_mem_nil _
      next => exact absurd hp.symm (Option.some_ne_none _)
  · intro i hi
    rcases h.accounted.drawn i hi with hbatch | hrec | ⟨hwaits, -⟩ | ⟨p, hp, hdone⟩
    · exact Or.inl hbatch
    · exact Or.inr (Or.inl hrec)
    · rw [htodo] at hwaits
      exact absurd hwaits List.not_mem_nil
    · exact Or.inr (Or.inr (Or.inr ⟨p, List.mem_append_left _ hp, hdone⟩))

theorem Settles.rendererStep (h : s.Settles n k) (hk : k ≤ s.pushed.length)
    (htodo : s.coherency.todo ≠ []) : s.rendererStep.Settles n k := by
  refine ⟨h.received, h.batch, h.recorded, fun _ => h.carried htodo, ?_⟩
  intro p hp
  rw [TimelineState.rendererStep] at hp
  dsimp only at hp
  rw [drop_append_pushed hk] at hp
  rcases List.mem_append.mp hp with hold | hnew
  · exact h.pushed p hold
  · obtain ⟨op, -, rfl⟩ := List.mem_map.mp hnew
    exact h.carried htodo

theorem Ordered.rendererStep (h : s.Ordered) (htodo : s.coherency.todo ≠ []) :
    s.rendererStep.Ordered := by
  obtain ⟨step, todo, hstep⟩ := List.exists_cons_of_ne_nil htodo
  obtain ⟨htail, hsubmit, hperforming, hqueue, hops, hfence⟩ := rendererStep_spec hstep
  have hused : s.user ≠ none := fun hnone => htodo (h.inOrder.unused hnone).2
  refine ⟨{ h.signalled with },
    ⟨h.inOrder.command, h.inOrder.other, fun hnone => absurd hnone hused, h.inOrder.drained⟩,
    h.signalling, ?_, ⟨?_, ?_⟩⟩
  · refine h.queued.append (s.pushedNext.map fun op => ⟨op, s.carried⟩) rfl rfl hperforming
      ?_ rfl rfl (List.Subset.refl _) ?_ (fun n k hk hsettled => hsettled.rendererStep hk htodo) ?_
    · rw [hqueue, List.map_map]
      exact congrArg _ (List.map_id _).symm
    · intro p hp
      obtain ⟨op, hop, rfl⟩ := List.mem_map.mp hp
      simp [CoherencyOperation.isSentinel, (hops op hop).1]
    · intro k p hp hvalue
      obtain ⟨op, hop, rfl⟩ := List.mem_map.mp (List.mem_of_getElem? hp)
      exact absurd (hops op hop).2 hvalue
  · rw [hsubmit]
    exact h.accounted.pends
  · intro i hi
    rcases h.accounted.drawn i hi with hbatch | hrec | ⟨hwaits, hcarried⟩ | ⟨p, hp, hdone⟩
    · exact Or.inl hbatch
    · exact Or.inr (Or.inl hrec)
    · rw [hstep] at hwaits
      rcases List.mem_cons.mp hwaits with hnow | hlater
      · obtain ⟨op, hop⟩ := List.exists_mem_of_ne_nil _ (hfence hnow.symm)
        refine Or.inr (Or.inr (Or.inr ⟨⟨op, s.carried⟩, ?_, (hops op hop).1, hcarried⟩))
        exact List.mem_append_right _ (List.mem_map.mpr ⟨op, hop, rfl⟩)
      · refine Or.inr (Or.inr (Or.inl ⟨?_, hcarried⟩))
        rw [htail]
        exact hlater
    · exact Or.inr (Or.inr (Or.inr ⟨p, List.mem_append_left _ hp, hdone⟩))

theorem Ordered.finish (h : s.Ordered) (hactions : s.actions = [])
    (htodo : s.coherency.todo = []) : s.finish.Ordered := by
  rw [TimelineState.finish]
  split
  next words huser hholding =>
    obtain ⟨words', hsame, hreceived⟩ := h.inOrder.command huser
    obtain rfl := Consumer.holding.inj (hholding.symm.trans hsame)
    refine ⟨{ h.signalled with ring := h.signalled.ring.publishCompleted },
      ⟨fun hcommand => absurd hcommand.symm (Option.some_ne_none _), fun _ => ⟨rfl, hreceived⟩,
        fun _ => ⟨hactions, htodo⟩, fun hscanout => absurd hscanout.symm (Option.some_ne_none _)⟩,
      h.signalling, ?_, { h.accounted with }⟩
    exact h.queued.frame rfl rfl rfl rfl rfl rfl (List.Subset.refl _) fun _ _ _ hsettled =>
      { hsettled with }
  next hnot =>
    have hother : s.user ≠ some .command := by
      intro hcommand
      obtain ⟨words, hholding, -⟩ := h.inOrder.command hcommand
      exact hnot words hcommand hholding
    refine ⟨{ h.signalled with },
      ⟨fun hcommand => absurd hcommand.symm (Option.some_ne_none _),
        fun _ => h.inOrder.other hother, fun _ => ⟨hactions, htodo⟩,
        fun hscanout => absurd hscanout.symm (Option.some_ne_none _)⟩,
      h.signalling, ?_, { h.accounted with }⟩
    exact h.queued.frame rfl rfl rfl rfl rfl rfl (List.Subset.refl _) fun _ _ _ hsettled =>
      { hsettled with }

theorem Ordered.workPages (h : s.Ordered) {next : CoherencyState} (work : Option CoherencyOperation)
    (htodo : next.todo = s.coherency.todo) (hsubmit : next.submit = s.coherency.submit)
    (hidle : work = none → next.performing = [])
    (hqueue : work.toList ++ next.workQueue = s.work.toList ++ s.coherency.workQueue) :
    ({ s with coherency := next, work := work } : TimelineState).Ordered := by
  have hsettles : ∀ n k, s.Settles n k →
      ({ s with coherency := next, work := work } : TimelineState).Settles n k := by
    intro n k hsettled
    refine ⟨hsettled.received, hsettled.batch, hsettled.recorded, ?_, hsettled.pushed⟩
    rw [htodo]
    exact hsettled.carried
  refine ⟨{ h.signalled with },
    ⟨h.inOrder.command, h.inOrder.other, ?_, h.inOrder.drained⟩, h.signalling, ⟨?_,
      h.queued.performed_le, hidle, h.queued.notSentinel, ?_, ?_⟩, ⟨?_, ?_⟩⟩
  · rw [htodo]
    exact h.inOrder.unused
  · rw [hqueue]
    exact h.queued.unperformed_eq
  · intro k p hp hvalue
    obtain ⟨n, hn, hsettled⟩ := h.queued.signals k p hp hvalue
    exact ⟨n, hn, hsettles n k hsettled⟩
  · intro hvalue
    obtain ⟨n, hn, hsettled⟩ := h.queued.published hvalue
    exact ⟨n, hn, hsettles n _ hsettled⟩
  · rw [hsubmit]
    exact h.accounted.pends
  · rw [htodo]
    exact h.accounted.drawn

theorem Queued.getElem?_performed (h : s.Queued) {op : CoherencyOperation}
    {rest : List CoherencyOperation} (hnext : s.work.toList ++ s.coherency.workQueue = op :: rest) :
    ∃ p, s.pushed[s.performed]? = some p ∧ p.operation = op := by
  have hfirst := congrArg (fun ops => ops[0]?) (h.unperformed_eq.trans hnext)
  simp only [unperformed, List.getElem?_map, List.getElem?_drop, Nat.add_zero,
    List.getElem?_cons_zero, Option.map_eq_some_iff] at hfirst
  exact hfirst

theorem Settles.notifyWork (h : s.Settles n k) (op : CoherencyOperation) :
    (s.notifyWork op).Settles n k :=
  { h with }

theorem Settles.succ (h : s.Settles n k) : s.Settles n (k + 1) := by
  refine ⟨h.received, h.batch, h.recorded, h.carried, fun p hp => h.pushed p ?_⟩
  rw [← List.drop_drop] at hp
  exact List.mem_of_mem_drop hp

theorem Ordered.notifyWork (h : s.Ordered) {op : CoherencyOperation} (hwork : s.work = some op)
    (hperforming : s.coherency.performing = []) : (s.notifyWork op).Ordered := by
  obtain ⟨p, hp, hop⟩ := h.queued.getElem?_performed
    (show s.work.toList ++ s.coherency.workQueue = op :: s.coherency.workQueue by rw [hwork]; rfl)
  have hqueue := h.queued.unperformed_eq
  refine ⟨{ h.signalled with },
    ⟨h.inOrder.command, h.inOrder.other, h.inOrder.unused, h.inOrder.drained⟩, h.signalling,
    ⟨?_, ?_, fun _ => hperforming, h.queued.notSentinel, ?_, ?_⟩, { h.accounted with }⟩
  · rw [hwork] at hqueue
    have htail := congrArg List.tail hqueue
    rw [← List.map_tail, unperformed, List.tail_drop] at htail
    exact htail
  · exact (List.getElem?_eq_some_iff.mp hp).1
  · intro k q hq hvalue
    obtain ⟨n, hn, hsettled⟩ := h.queued.signals k q hq hvalue
    exact ⟨n, hn, hsettled.notifyWork op⟩
  · intro hvalue
    have hpublished : ∃ n, ((s.notifyWork op).threadTimelineValue, n) ∈ s.signals ∧
        s.Settles n (s.performed + 1) := by
      rw [TimelineState.notifyWork] at hvalue ⊢
      dsimp only at hvalue ⊢
      split
      next hsignal =>
        rw [← hop] at hsignal ⊢
        obtain ⟨n, hn, hsettled⟩ := h.queued.signals _ p hp hsignal
        exact ⟨n, hn, hsettled.succ⟩
      next hsignal =>
        rw [if_neg hsignal] at hvalue
        obtain ⟨n, hn, hsettled⟩ := h.queued.published hvalue
        exact ⟨n, hn, hsettled.succ⟩
    obtain ⟨n, hn, hsettled⟩ := hpublished
    exact ⟨n, hn, hsettled.notifyWork op⟩

theorem Ordered.workerStep (h : s.Ordered) : s.workerStep.Ordered := by
  rw [TimelineState.workerStep]
  split
  next _ _ op hwork =>
    split
    next hidle => exact h.notifyWork hwork (List.isEmpty_iff.mp hidle)
    next hbusy =>
      obtain ⟨page, performing, hperforming⟩ :=
        List.exists_cons_of_ne_nil fun hnil => hbusy (List.isEmpty_iff.mpr hnil)
      rw [CoherencyState.workerStep, hperforming]
      refine h.workPages s.work rfl rfl (fun hnone => ?_) rfl
      exact absurd (hwork.symm.trans hnone) (Option.some_ne_none _)
  next => exact h
  next _ _ op rest hwork hqueue =>
    have hnext : s.work.toList ++ s.coherency.workQueue = op :: rest := by
      rw [hwork, hqueue]
      rfl
    obtain ⟨p, hp, rfl⟩ := h.queued.getElem?_performed hnext
    have hwork' := h.queued.notSentinel p (List.mem_of_getElem? hp)
    rw [if_neg (by rw [hwork']; exact Bool.false_ne_true), CoherencyState.workerStep,
      h.queued.idle hwork, hqueue]
    exact h.workPages (some p.operation) rfl rfl
      (fun hnone => absurd hnone (Option.some_ne_none _)) hnext.symm

theorem prefix_enqueued_of_step (hstep : TimelineStep s s') :
    s.ring.enqueued <+: s'.ring.enqueued := by
  cases hstep with
  | enqueueCommand words => exact List.prefix_append _ _
  | signalTimeline => exact List.prefix_append _ _
  | scanout f r => exact List.prefix_rfl
  | receiveCommand f enough draws =>
    rw [receiveCommand]
    split <;> exact List.prefix_rfl
  | notifyIdle f enough => exact List.prefix_rfl
  | beginAction action rest =>
    cases action <;> exact List.prefix_rfl
  | rendererStep => exact List.prefix_rfl
  | finish =>
    rw [finish]
    split <;> exact List.prefix_rfl
  | worker =>
    rw [workerStep]
    split
    next => split <;> exact List.prefix_rfl
    next => exact List.prefix_rfl
    next => split <;> exact List.prefix_rfl

theorem ordered_start (isHostCoherent : Bool) (logPages : Nat) (hostAllocation : Bool) :
    (start isHostCoherent logPages hostAllocation).Ordered where
  signalled := by
    refine ⟨rfl, ?_, fun n words hn => absurd hn (by simp [start]), rfl, Nat.le_refl 0,
      List.forall_mem_nil _, List.forall_mem_nil _⟩
    exact RingReachable.consistent (k := 12) rfl .init (Nat.two_pow_pos 64)
  inOrder := ⟨fun hcommand => absurd hcommand.symm (Option.some_ne_none _), fun _ => ⟨rfl, rfl⟩,
    fun _ => ⟨rfl, rfl⟩, fun _ => rfl⟩
  signalling := fun _ hvalue => absurd hvalue List.not_mem_nil
  queued := ⟨rfl, Nat.le_refl 0, fun _ => rfl, List.forall_mem_nil _,
    fun _ _ hp => absurd hp (by simp [start]), fun hvalue => absurd rfl hvalue⟩
  accounted := ⟨fun hrecorded => absurd rfl hrecorded, List.forall_mem_nil _⟩

theorem Ordered.step (h : s.Ordered) (hstep : TimelineStep s s')
    (hcount : (streamWords s'.ring.enqueued).length < 2 ^ 64) : s'.Ordered := by
  cases hstep with
  | enqueueCommand words hcommand hlength hmain hroom =>
    exact h.enqueueCommand hcommand hlength hmain hroom hcount
  | signalTimeline hmain hroom => exact h.signalTimeline hmain hroom hcount
  | scanout f r huser hdrained => exact h.scanout f r huser hdrained
  | receiveCommand f enough draws huser _ hunread =>
    exact h.receiveCommand f enough draws huser hunread
  | notifyIdle f enough huser => exact h.notifyIdle f enough huser
  | beginAction action rest hactions htodo =>
    cases action with
    | record => exact h.record hactions
    | call c => exact h.call hactions htodo
    | signal value => exact h.signal hactions htodo
  | rendererStep htodo => exact h.rendererStep htodo
  | finish _ hactions htodo => exact h.finish hactions htodo
  | worker => exact h.workerStep

theorem ordered_of_reachable {isHostCoherent : Bool} {logPages : Nat} {hostAllocation : Bool}
    (hreachable : TimelineReachable isHostCoherent logPages hostAllocation s)
    (hcount : (streamWords s.ring.enqueued).length < 2 ^ 64) : s.Ordered := by
  induction hreachable with
  | start => exact ordered_start isHostCoherent logPages hostAllocation
  | step _ hstep ih =>
    have hle := length_streamWords_le (prefix_enqueued_of_step hstep)
    exact (ih (by omega)).step hstep hcount

theorem Ordered.prefix_processed (h : s.Ordered) (hn : n < s.ring.received.length) :
    s.ring.enqueued.take n <+: s.processed := by
  have hprocessed : s.processed <+: s.ring.received ∧ n ≤ s.processed.length := by
    by_cases hcommand : s.user = some .command
    · obtain ⟨words, -, hreceived⟩ := h.inOrder.command hcommand
      rw [hreceived, List.length_append] at hn
      exact ⟨hreceived ▸ List.prefix_append _ _, Nat.le_of_lt_succ hn⟩
    · obtain ⟨-, hreceived⟩ := h.inOrder.other hcommand
      rw [hreceived] at hn
      exact ⟨hreceived ▸ List.prefix_rfl, hn.le⟩
  have henqueued := hprocessed.1.trans h.signalled.ring.prefix_enqueued
  refine List.prefix_of_prefix_length_le (List.take_prefix _ _) henqueued ?_
  exact (List.length_take_le _ _).trans hprocessed.2

/-- In every interleaving that writes fewer than `2 ^ 64` words to the ring, when a wait for a
value of `signal_timeline` returns, the commands enqueued before that signal have been processed,
nothing that they drew is in the batch, recorded or being submitted, all that they drew was
submitted with a fence, and the worker has performed every operation submitted for them. No
operation that was ever pushed stops the worker. -/
theorem waitForTimeline {isHostCoherent : Bool} {logPages : Nat} {hostAllocation : Bool}
    (hreachable : TimelineReachable isHostCoherent logPages hostAllocation s)
    (hcount : (streamWords s.ring.enqueued).length < 2 ^ 64) :
    (∀ value n, (value, n) ∈ s.signals → s.waitReturns value →
      s.ring.enqueued.take n <+: s.processed ∧
        (∀ i < n, i ∉ s.batch ∧ i ∉ s.recorded ∧ (s.coherency.todo ≠ [] → i ∉ s.carried)) ∧
        (∀ i < n, i ∈ s.drawn → ∃ p ∈ s.pushed, p.operation.fence = true ∧ i ∈ p.commands) ∧
        ∀ i < n, ∀ p ∈ s.unperformed, i ∉ p.commands) ∧
      ∀ p ∈ s.pushed, p.operation.isSentinel = false := by
  have h := ordered_of_reachable hreachable hcount
  refine ⟨?_, h.queued.notSentinel⟩
  intro value n hsignal hreturns
  have hpositive : s.threadTimelineValue ≠ 0 := by
    intro hzero
    rw [waitReturns, hzero] at hreturns
    exact (h.signalled.before _ hsignal).1 (UInt64.le_zero_iff.mp hreturns)
  obtain ⟨later, hlater, hsettled⟩ := h.queued.published hpositive
  have hle : n ≤ later := h.signalled.ordered _ hsignal _ hlater hreturns
  have hleft : ∀ i < n, i ∉ s.batch ∧ i ∉ s.recorded ∧
      (s.coherency.todo ≠ [] → i ∉ s.carried) := by
    intro i hi
    have hnot : ¬later ≤ i := not_le.mpr (hi.trans_le hle)
    exact ⟨fun hmem => hnot (hsettled.batch i hmem), fun hmem => hnot (hsettled.recorded i hmem),
      fun hbusy hmem => hnot (hsettled.carried hbusy i hmem)⟩
  refine ⟨h.prefix_processed (hle.trans_lt hsettled.received), hleft, ?_, ?_⟩
  · intro i hi hdrawn
    obtain ⟨hbatch, hrecorded, hcarried⟩ := hleft i hi
    rcases h.accounted.drawn i hdrawn with hmem | hmem | ⟨hwaits, hmem⟩ | hpushed
    · exact absurd hmem hbatch
    · exact absurd hmem hrecorded
    · exact absurd hmem (hcarried (List.ne_nil_of_mem hwaits))
    · exact hpushed
  · intro i hi p hp hmem
    exact not_le.mpr (hi.trans_le hle) (hsettled.pushed p hp i hmem)

def quiet (ring : RingRun) (timelineValue : UInt64) (signals : List (UInt64 × Nat))
    (processed : List (List UInt32)) : TimelineState :=
  { start false 0 true with ring, timelineValue, signals, processed }

theorem exists_published (ring : RingRun) {signals : List (UInt64 × Nat)}
    (hwaiting : ring.consumer = .waiting) (hunread : ring.ring.writeCount > ring.ring.readCount)
    (hholding : ring.readCommand.consumer = .holding (signalCommand 1))
    (hreachable : TimelineReachable false 0 true (quiet ring 1 signals processed)) :
    ∃ s, TimelineReachable false 0 true s ∧ s.waitReturns 1 ∧ s.signals = signals ∧
      s.processed = processed ∧ s.ring.enqueued = ring.enqueued := by
  have hreceive : (quiet ring 1 signals processed).receiveCommand {} false [] =
      { quiet ring.readCommand 1 signals processed with
        user := some .command
        actions := [.call (.flushQueues {}), .call .submitToQueue, .signal 1] } := by
    simp only [receiveCommand, quiet, hholding, enqueueCommandDirect_signalCommand]
  have hread := hreachable.step (.receiveCommand {} false [] rfl hwaiting hunread)
  rw [hreceive] at hread
  have hflush := hread.step (.beginAction _ _ rfl rfl)
  have hsubmit := hflush.step (.beginAction _ _ rfl rfl)
  have hsignal := hsubmit.step (.beginAction _ _ rfl rfl)
  have htake := hsignal.step (.worker rfl)
  have hpublish := htake.step (.worker rfl)
  refine ⟨_, hpublish, ?_, rfl, rfl, rfl⟩
  exact UInt64.le_refl 1

def syncLoadCommand : List UInt32 := [0x26000000]

theorem mainCommand_syncLoad : MainCommand syncLoadCommand := Or.inl (by decide)

theorem enqueueCommandDirect_syncLoad :
    enqueueCommandDirect syncLoadCommand {} false [] = [] := by
  decide

theorem reachable_completed (ring : RingRun) (hwaiting : ring.consumer = .waiting)
    (hunread : ring.ring.writeCount > ring.ring.readCount)
    (hholding : ring.readCommand.consumer = .holding syncLoadCommand)
    (hreachable : TimelineReachable false 0 true (quiet ring 0 [] processed)) :
    TimelineReachable false 0 true
      (quiet ring.readCommand.publishCompleted 0 [] (processed ++ [syncLoadCommand])) := by
  have hreceive : (quiet ring 0 [] processed).receiveCommand {} false [] =
      { quiet ring.readCommand 0 [] processed with user := some .command } := by
    simp only [receiveCommand, quiet, hholding, enqueueCommandDirect_syncLoad]
    rfl
  have hread := hreachable.step (.receiveCommand {} false [] rfl hwaiting hunread)
  rw [hreceive] at hread
  have hfinish := hread.step (.finish (Option.some_ne_none _) rfl rfl)
  have hdone : finish { quiet ring.readCommand 0 [] processed with user := some .command } =
      quiet ring.readCommand.publishCompleted 0 [] (processed ++ [syncLoadCommand]) := by
    simp only [finish, quiet, hholding]
    rfl
  rw [hdone] at hfinish
  exact hfinish

theorem canEnqueueRingWords_one {writeCount readCount : UInt64}
    (h : (writeCount.toNat + 2) % 2 ^ 64 ≤ (readCount.toNat + 4096) % 2 ^ 64) :
    canEnqueueRingWords writeCount readCount commandRingSize 1 := by
  rw [canEnqueueRingWords, UInt64.le_iff_toNat_le]
  have hleft : (writeCount + (1 : UInt32).toUInt64 + 1).toNat =
      (writeCount.toNat + 2) % 2 ^ 64 := by
    rw [UInt64.add_assoc, UInt64.toNat_add]
    rfl
  have hright : (readCount + commandRingSize).toNat = (readCount.toNat + 4096) % 2 ^ 64 := by
    rw [UInt64.toNat_add]
    rfl
  rw [hleft, hright]
  exact h

theorem exists_processed {rounds : Nat} (hrounds : rounds < 2 ^ 63 - 2048) :
    ∃ ring processed, TimelineReachable false 0 true (quiet ring 0 [] processed) ∧
      ring.consumer = .waiting ∧ ring.received = ring.enqueued ∧ processed.length = rounds ∧
      (streamWords ring.enqueued).length = 2 * rounds := by
  induction rounds with
  | zero => exact ⟨_, _, .start, rfl, rfl, rfl, rfl⟩
  | succ rounds ih =>
    obtain ⟨ring, processed, hreachable, hwaiting, hreceived, hprocessed, hstream⟩ := ih (by omega)
    have hring := (ordered_of_reachable hreachable (by rw [quiet]; dsimp only; omega)).signalled
    have hequal : ring.ring.writeCount = ring.ring.readCount :=
      hring.ring.writeCount_eq_readCount hreceived
    have hwrite : ring.ring.writeCount.toNat = 2 * rounds := hring.ring.writeCount_eq.trans hstream
    have hsize : ring.ring.size = commandRingSize := hring.size_eq
    have hroom : canEnqueueRingWords ring.ring.writeCount ring.ring.readCount ring.ring.size 1 := by
      rw [hsize, ← hequal]
      apply canEnqueueRingWords_one
      rw [hwrite]
      omega
    have hstream' : (streamWords (ring.enqueued ++ [syncLoadCommand])).length =
        2 * (rounds + 1) := by
      rw [streamWords_append, streamWords_singleton, List.length_append, length_commandWords,
        hstream]
      rfl
    have henqueue : TimelineReachable false 0 true
        (quiet (ring.enqueueCommand syncLoadCommand) 0 [] processed) :=
      hreachable.step (.enqueueCommand syncLoadCommand mainCommand_syncLoad (by decide)
        (Option.some_ne_none _).symm hroom)
    have hring' := (ordered_of_reachable henqueue (show (streamWords
      (ring.enqueued ++ [syncLoadCommand])).length < 2 ^ 64 by omega)).signalled
    have hwrite' : (ring.enqueueCommand syncLoadCommand).ring.writeCount.toNat = 2 * (rounds + 1) :=
      hring'.ring.writeCount_eq.trans hstream'
    have hunread : (ring.enqueueCommand syncLoadCommand).ring.writeCount > ring.ring.readCount := by
      rw [gt_iff_lt, UInt64.lt_iff_toNat_lt, hwrite', ← hequal, hwrite]
      omega
    obtain ⟨words, hnext, hreceived', hholding⟩ := hring'.readCommand hunread
    have hlast : (ring.enqueued ++ [syncLoadCommand])[ring.received.length]? = some words := hnext
    rw [hreceived, List.getElem?_append_right (Nat.le_refl _), Nat.sub_self] at hlast
    obtain rfl : syncLoadCommand = words := Option.some.inj hlast
    refine ⟨_, _, reachable_completed (ring.enqueueCommand syncLoadCommand) hwaiting hunread
      hholding henqueue, rfl, ?_, ?_, hstream'⟩
    · show (ring.enqueueCommand syncLoadCommand).readCommand.received =
        ring.enqueued ++ [syncLoadCommand]
      rw [← hreceived]
      exact hreceived'
    · rw [List.length_append, hprocessed]
      rfl

def lastCount : UInt64 := 0xFFFFFFFFFFFFEFFE

theorem exists_enqueued {ring : RingRun}
    (hreachable : TimelineReachable false 0 true (quiet ring 0 [] processed))
    (hwaiting : ring.consumer = .waiting) (hsize : ring.ring.size = commandRingSize)
    (hread : ring.ring.readCount = lastCount) (hwrite : ring.ring.writeCount = lastCount)
    (count : Nat) :
    ∃ ring', TimelineReachable false 0 true (quiet ring' 0 [] processed) ∧
      ring'.consumer = .waiting ∧ ring'.ring.size = commandRingSize ∧
      ring'.ring.readCount = lastCount ∧
      ring'.ring.writeCount = lastCount + UInt64.ofNat (2 * count) ∧
      ring'.enqueued.length = ring.enqueued.length + count := by
  induction count with
  | zero => exact ⟨ring, hreachable, hwaiting, hsize, hread, hwrite, rfl⟩
  | succ count ih =>
    obtain ⟨ring', hreachable', hwaiting', hsize', hread', hwrite', hlength⟩ := ih
    have hnext : ring'.ring.writeCount + 1 + 1 = lastCount + UInt64.ofNat (2 * (count + 1)) := by
      rw [hwrite', Nat.mul_succ, UInt64.ofNat_add, UInt64.add_assoc, UInt64.add_assoc]
      rfl
    have hroom : canEnqueueRingWords ring'.ring.writeCount ring'.ring.readCount
        ring'.ring.size 1 := by
      rw [hsize']
      apply canEnqueueRingWords_one
      have hlast : lastCount.toNat = 2 ^ 64 - 4098 := rfl
      rw [hwrite', hread', UInt64.toNat_add, hlast, UInt64.toNat_ofNat']
      omega
    refine ⟨ring'.enqueueCommand syncLoadCommand, ?_, hwaiting', hsize', hread', hnext, ?_⟩
    · exact hreachable'.step (.enqueueCommand syncLoadCommand mainCommand_syncLoad (by decide)
        (Option.some_ne_none _).symm hroom)
    · show (ring'.enqueued ++ [syncLoadCommand]).length = ring.enqueued.length + (count + 1)
      rw [List.length_append, hlength]
      rfl

theorem readCommand_signalCommand {ring : RingRun} (hsize : ring.ring.size = commandRingSize)
    (hread : ring.ring.readCount = lastCount) (hwrite : ring.ring.writeCount = lastCount) :
    (ring.enqueueCommand (signalCommand 1)).readCommand.consumer = .holding (signalCommand 1) := by
  have hwritten : (ring.enqueueCommand (signalCommand 1)).ring.ring =
      Function.update (Function.update (Function.update (Function.update ring.ring.ring 4094 3)
        4095 (metaSignalTimeline <<< 24)) 0 1) 1 0 := by
    simp only [RingRun.enqueueCommand, CommandRing.mask, hsize, hwrite]
    rfl
  have hcommand : readRingCommand (ring.enqueueCommand (signalCommand 1)).ring.mask
      (ring.enqueueCommand (signalCommand 1)).ring.ring
      (ring.enqueueCommand (signalCommand 1)).ring.readCount =
        (signalCommand 1, lastCount + 4) := by
    rw [hwritten]
    have hmask : (ring.enqueueCommand (signalCommand 1)).ring.mask = 4095 := by
      show ring.ring.size - 1 = 4095
      rw [hsize]
      rfl
    have hcount : (ring.enqueueCommand (signalCommand 1)).ring.readCount = lastCount := hread
    rw [hmask, hcount]
    rfl
  rw [RingRun.readCommand, hcommand]
  rfl

/-- Behind commands that were lost a signal is published, although they were never processed. -/
theorem not_waitForTimeline :
    ∃ s, TimelineReachable false 0 true s ∧ ∃ value n, (value, n) ∈ s.signals ∧
      s.waitReturns value ∧ ¬s.ring.enqueued.take n <+: s.processed := by
  have hrounds : 2 ^ 63 - 2049 < 2 ^ 63 - 2048 := by decide
  obtain ⟨ring, processed, hreachable, hwaiting, hreceived, hprocessed, hstream⟩ :=
    exists_processed hrounds
  have hring := (ordered_of_reachable hreachable (by rw [quiet]; dsimp only; omega)).signalled
  have hequal : ring.ring.writeCount = ring.ring.readCount :=
    hring.ring.writeCount_eq_readCount hreceived
  have hwrite : ring.ring.writeCount = lastCount := by
    apply UInt64.toNat_inj.mp
    exact hring.ring.writeCount_eq.trans hstream
  obtain ⟨ring', hreachable', hwaiting', hsize', hread', hwrite', hlength⟩ :=
    exists_enqueued hreachable hwaiting hring.size_eq (hequal ▸ hwrite) hwrite (2 ^ 63)
  have hwrapped : ring'.ring.writeCount = lastCount := hwrite'
  have hroom : canEnqueueRingWords ring'.ring.writeCount ring'.ring.readCount
      ring'.ring.size 3 := by
    rw [hsize', hread', hwrapped]
    decide
  have hsignal : TimelineReachable false 0 true
      (quiet (ring'.enqueueCommand (signalCommand 1)) 1 [(1, ring'.enqueued.length)] processed) :=
    hreachable'.step (.signalTimeline (Option.some_ne_none _).symm hroom)
  have hunread : (ring'.enqueueCommand (signalCommand 1)).ring.writeCount >
      ring'.ring.readCount := by
    rw [hread']
    show lastCount < ring'.ring.writeCount + 1 + 1 + 1 + 1
    rw [hwrapped]
    decide
  obtain ⟨s, hs, hreturns, hsignals, hsame, henqueued⟩ :=
    exists_published (ring'.enqueueCommand (signalCommand 1)) hwaiting' hunread
      (readCommand_signalCommand hsize' hread' hwrapped) hsignal
  refine ⟨s, hs, 1, ring'.enqueued.length, hsignals ▸ List.mem_cons_self, hreturns, ?_⟩
  intro hprefix
  have hle := hprefix.length_le
  have hcommands : s.ring.enqueued = ring'.enqueued ++ [signalCommand 1] := henqueued
  rw [hcommands, List.take_left, hsame, hlength, hprocessed] at hle
  omega

/-- A command is processed, and the wait for the signal behind it returns. -/
theorem exists_waitForTimeline :
    ∃ s, TimelineReachable false 0 true s ∧ (1, 1) ∈ s.signals ∧ s.waitReturns 1 ∧
      s.ring.enqueued = [syncLoadCommand, signalCommand 1] ∧
      s.ring.enqueued.take 1 <+: s.processed ∧ ∀ p ∈ s.pushed, p.operation.isSentinel = false := by
  have hstart : TimelineReachable false 0 true (quiet (start false 0 true).ring 0 [] []) := .start
  have henqueue : TimelineReachable false 0 true
      (quiet ((start false 0 true).ring.enqueueCommand syncLoadCommand) 0 [] []) :=
    hstart.step (.enqueueCommand syncLoadCommand mainCommand_syncLoad (by decide)
      (Option.some_ne_none _).symm (by decide))
  have hdone := reachable_completed _ rfl (by decide) rfl henqueue
  have hsignal : TimelineReachable false 0 true (quiet (((start false 0 true).ring.enqueueCommand
      syncLoadCommand).readCommand.publishCompleted.enqueueCommand (signalCommand 1)) 1 [(1, 1)]
      [syncLoadCommand]) :=
    hdone.step (.signalTimeline (Option.some_ne_none _).symm (by decide))
  obtain ⟨s, hs, hreturns, hsignals, -, henqueued⟩ :=
    exists_published _ rfl (by decide) rfl hsignal
  have hcommands : s.ring.enqueued = [syncLoadCommand, signalCommand 1] := henqueued
  have hmem : (1, 1) ∈ s.signals := hsignals ▸ List.mem_cons_self
  obtain ⟨hwait, hpushed⟩ := waitForTimeline hs (by rw [hcommands]; decide)
  exact ⟨s, hs, hmem, hreturns, hcommands, (hwait 1 1 hmem hreturns).1, hpushed⟩

end TimelineState

end ParallelN64.Rdp
