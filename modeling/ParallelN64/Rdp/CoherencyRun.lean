import ParallelN64.Core.Runs
import ParallelN64.Rdp.Coherency

/-!
# Counting and copying along coherency runs

Whatever order the steps of the renderer and of the worker come in, the counter of a page is the
number of operations that will still write it, and a page is overwritten from host memory only where
nothing was pending for it.
-/

namespace ParallelN64.Rdp

open ParallelN64.Core

/-- Between calls few render passes are pending, and the buffer instances in use are the last
ones. -/
structure SubmitState.Settled (q : SubmitState) : Prop where
  pendingRenderPasses_lt : q.pendingRenderPasses < maxPendingRenderPassesBeforeFlush
  bufferInstance_lt : q.bufferInstance < numSyncStates
  idle : q.cmd = false →
    q.pendingRenderPasses = 0 ∧ ∀ i, q.syncIndicesNeedsFlush i = false
  recent : ∀ i, q.syncIndicesNeedsFlush i = true → i < numSyncStates ∧
    1 ≤ (q.bufferInstance + numSyncStates - i) % numSyncStates ∧
    (q.bufferInstance + numSyncStates - i) % numSyncStates ≤ q.pendingRenderPasses + 1

/-- Order of the steps of a call. -/
def RendererStep.rank : RendererStep → Nat
  | .markPage _ => 0
  | .lockPage _ => 1
  | .copyPage _ => 2
  | .countPage _ | .enqueueFenceWait | .enqueueCopies => 3

/-- Every page that is counted is enqueued later on. -/
def EnqueuesCounted : List RendererStep → Prop
  | [] => True
  | .countPage _ :: steps => .enqueueCopies ∈ steps ∧ EnqueuesCounted steps
  | .markPage _ :: steps | .lockPage _ :: steps | .copyPage _ :: steps
  | .enqueueFenceWait :: steps | .enqueueCopies :: steps => EnqueuesCounted steps

variable {steps rest : List RendererStep}

theorem EnqueuesCounted.of_rank_lt (h : ∀ step ∈ steps, step.rank < 3)
    (hrest : EnqueuesCounted rest) : EnqueuesCounted (steps ++ rest) := by
  induction steps with
  | nil => exact hrest
  | cons step steps ih =>
    have htail := ih fun other hother => h other (List.mem_cons_of_mem _ hother)
    cases step with
    | markPage _ | lockPage _ | copyPage _ => exact htail
    | countPage _ | enqueueFenceWait | enqueueCopies =>
      exact absurd (h _ List.mem_cons_self) (Nat.lt_irrefl 3)

theorem EnqueuesCounted.append (h : EnqueuesCounted steps) (hrest : EnqueuesCounted rest) :
    EnqueuesCounted (steps ++ rest) := by
  induction steps with
  | nil => exact hrest
  | cons step steps ih =>
    cases step with
    | markPage _ | lockPage _ | copyPage _ | enqueueFenceWait | enqueueCopies => exact ih h
    | countPage _ => exact ⟨List.mem_append_left _ h.1, ih h.2⟩

theorem enqueuesCounted_counts (pages : List Nat) :
    EnqueuesCounted (pages.map .countPage ++ [.enqueueFenceWait, .enqueueCopies]) := by
  induction pages with
  | nil => trivial
  | cons page pages ih => exact ⟨by simp, ih⟩

/-- Steps that only submit. -/
structure Submits (steps : List RendererStep) : Prop where
  rank_eq : ∀ step ∈ steps, step.rank = 3
  counted : EnqueuesCounted steps

theorem submits_nil : Submits [] := ⟨List.forall_mem_nil _, trivial⟩

theorem Submits.append (h : Submits steps) (hrest : Submits rest) : Submits (steps ++ rest) :=
  ⟨fun step hstep => (List.mem_append.mp hstep).elim (h.rank_eq step) (hrest.rank_eq step),
    h.counted.append hrest.counted⟩

namespace SubmitState

variable {q : SubmitState} {numPages : Nat}

theorem submitToQueue_submits (q : SubmitState) (numPages : Nat) :
    Submits (q.submitToQueue numPages).2 := by
  rw [submitToQueue]
  split
  next =>
    dsimp only
    split
    next =>
      refine ⟨fun step hstep => ?_, enqueuesCounted_counts _⟩
      obtain hcount | hlast := List.mem_append.mp hstep
      · obtain ⟨page, -, rfl⟩ := List.mem_map.mp hcount
        rfl
      · simp only [List.mem_cons, List.not_mem_nil, or_false] at hlast
        obtain rfl | rfl := hlast <;> rfl
    next => exact submits_nil
  next =>
    dsimp only
    split
    next => exact ⟨fun step hstep => List.mem_singleton.mp hstep ▸ rfl, trivial⟩
    next => exact submits_nil

theorem maintainQueues_submits (q : SubmitState) (numPages : Nat) (due : Bool) :
    Submits (q.maintainQueues numPages due).2 := by
  rw [maintainQueues]
  split
  next => exact q.submitToQueue_submits numPages
  next => exact submits_nil

/-- Within a flush the instances in use reach back as far as there are render passes. -/
structure InUse (q : SubmitState) : Prop where
  pendingRenderPasses_le : q.pendingRenderPasses ≤ maxPendingRenderPassesBeforeFlush
  bufferInstance_lt : q.bufferInstance < numSyncStates
  cmd : q.cmd = true
  recent : ∀ i, q.syncIndicesNeedsFlush i = true → i < numSyncStates ∧
    (q.bufferInstance + numSyncStates - i) % numSyncStates ≤ q.pendingRenderPasses

theorem useInstance_recent {back : Nat} (hlt : q.bufferInstance < numSyncStates)
    (h : ∀ i, q.syncIndicesNeedsFlush i = true → i < numSyncStates ∧
      (q.bufferInstance + numSyncStates - i) % numSyncStates ≤ back) (i : Nat)
    (hi : q.useInstance.syncIndicesNeedsFlush i = true) :
    i < numSyncStates ∧ (q.bufferInstance + numSyncStates - i) % numSyncStates ≤ back := by
  by_cases hsame : i = q.bufferInstance
  · subst hsame
    refine ⟨hlt, ?_⟩
    rw [Nat.add_sub_cancel_left, Nat.mod_self]
    exact Nat.zero_le back
  · have hother : Function.update q.syncIndicesNeedsFlush q.bufferInstance true i =
        q.syncIndicesNeedsFlush i := Function.update_of_ne hsame _ _
    exact h i (hother.symm.trans hi)

theorem submitToQueue_of_cmd (h : q.cmd = true) (numPages : Nat) :
    (q.submitToQueue numPages).1 = { bufferInstance := q.bufferInstance } := by
  rw [submitToQueue, if_pos h]

theorem settled_of_bufferInstance_lt {bufferInstance : Nat} (h : bufferInstance < numSyncStates) :
    Settled { bufferInstance := bufferInstance } :=
  ⟨Nat.zero_lt_succ _, h, fun _ => ⟨rfl, fun _ => rfl⟩, fun _ hi => absurd hi Bool.false_ne_true⟩

theorem Settled.submitToQueue (h : q.Settled) (numPages : Nat) :
    (q.submitToQueue numPages).1.Settled := by
  cases hcmd : q.cmd with
  | true =>
    rw [submitToQueue_of_cmd hcmd]
    exact settled_of_bufferInstance_lt h.bufferInstance_lt
  | false =>
    obtain ⟨-, hnone⟩ := h.idle hcmd
    rw [SubmitState.submitToQueue, hcmd]
    refine ⟨Nat.zero_lt_succ _, h.bufferInstance_lt, fun _ => ⟨rfl, hnone⟩, fun i hi => ?_⟩
    exact absurd ((hnone i).symm.trans hi) Bool.false_ne_true

theorem Settled.beginPass (h : q.Settled) (numPages : Nat) :
    (q.beginPass numPages).2 = [] ∧ (q.beginPass numPages).1.InUse := by
  have hfree : ¬q.syncIndicesNeedsFlush q.bufferInstance = true := by
    intro hbusy
    have hback := (h.recent _ hbusy).2.1
    rw [Nat.add_sub_cancel_left, Nat.mod_self] at hback
    exact absurd hback (by decide)
  simp only [SubmitState.beginPass, if_neg hfree]
  exact ⟨trivial, h.pendingRenderPasses_lt, h.bufferInstance_lt, rfl,
    useInstance_recent h.bufferInstance_lt fun i hi => ⟨(h.recent i hi).1, (h.recent i hi).2.2⟩⟩

theorem InUse.upscaledPass (h : q.InUse) (numPages : Nat) (f : Flush) :
    (q.upscaledPass numPages f).1.InUse := by
  have hpass : (q.upscaledPass numPages f).1 =
      if f.upscaled then (q.maintainQueues numPages f.dueUpscaled).1.useInstance else q := by
    rw [SubmitState.upscaledPass]
    split <;> rfl
  rw [hpass, maintainQueues]
  split
  next =>
    split
    next =>
      rw [submitToQueue_of_cmd h.cmd]
      exact ⟨Nat.zero_le _, h.bufferInstance_lt, rfl, useInstance_recent h.bufferInstance_lt
        fun i hi => absurd hi Bool.false_ne_true⟩
    next =>
      exact ⟨h.pendingRenderPasses_le, h.bufferInstance_lt, rfl,
        useInstance_recent h.bufferInstance_lt h.recent⟩
  next => exact h

theorem InUse.endPass (h : q.InUse) (numPages : Nat) (due : Bool) :
    (q.beginNewContext.maintainQueues numPages due).1.Settled := by
  have hlt : (q.bufferInstance + 1) % numSyncStates < numSyncStates := Nat.mod_lt _ (by decide)
  rw [maintainQueues]
  split
  next =>
    rw [submitToQueue_of_cmd (q := q.beginNewContext) h.cmd]
    exact settled_of_bufferInstance_lt hlt
  next hfew =>
    rw [Bool.or_eq_true, decide_eq_true_eq, not_or] at hfew
    refine ⟨not_le.mp hfew.1, hlt, fun hidle => absurd (h.cmd.symm.trans hidle) (by decide), ?_⟩
    intro i hi
    obtain ⟨hi, hback⟩ := h.recent i hi
    have hle := h.pendingRenderPasses_le
    have hb := h.bufferInstance_lt
    simp only [beginNewContext, numSyncStates, maxPendingRenderPassesBeforeFlush] at *
    exact ⟨hi, by omega, by omega⟩

theorem Settled.flushQueues (h : q.Settled) (numPages : Nat) (f : Flush) :
    (q.flushQueues numPages f).1.Settled ∧
      ((q.flushQueues numPages f).2 = [] ∨ ∃ last, Submits last ∧
        (q.flushQueues numPages f).2 =
          markPagesForGpuRead f.color numPages ++ markPagesForGpuRead f.depth numPages ++
            lockPagesForGpuWrite f.color numPages ++ lockPagesForGpuWrite f.depth numPages ++
            resolveCoherencyHostToGpu numPages ++ last) := by
  obtain ⟨hbusy, hbegun⟩ := h.beginPass numPages
  have hupscaled : Submits ((q.beginPass numPages).1.upscaledPass numPages f).2 := by
    rw [SubmitState.upscaledPass]
    split
    next => exact maintainQueues_submits _ numPages f.dueUpscaled
    next => exact submits_nil
  have hlast := maintainQueues_submits
    ((q.beginPass numPages).1.upscaledPass numPages f).1.beginNewContext numPages f.due
  rw [SubmitState.flushQueues]
  split
  next => exact ⟨h, Or.inl rfl⟩
  next =>
    dsimp only
    refine ⟨(hbegun.upscaledPass numPages f).endPass numPages f.due,
      Or.inr ⟨_, hupscaled.append hlast, ?_⟩⟩
    rw [hbusy, List.append_nil, List.append_assoc _ (Prod.snd _) (Prod.snd _)]

end SubmitState

/-- The steps that remain of a call come in their order: pages that are locked are copied before
they are counted, and pages that are counted are enqueued. -/
structure Orderly (todo : List RendererStep) : Prop where
  ordered : todo.Pairwise fun a b => a.rank ≤ b.rank
  counted : EnqueuesCounted todo
  copied : ∀ page, .lockPage page ∈ todo → .copyPage page ∈ todo

theorem Orderly.rank_le {step : RendererStep} {todo : List RendererStep}
    (h : Orderly (step :: todo)) : ∀ other ∈ todo, step.rank ≤ other.rank :=
  (List.pairwise_cons.mp h.ordered).1

theorem Orderly.tail {step : RendererStep} {todo : List RendererStep}
    (h : Orderly (step :: todo)) : Orderly todo := by
  refine ⟨(List.pairwise_cons.mp h.ordered).2, ?_, fun page hpage => ?_⟩
  · have hcounted := h.counted
    cases step with
    | countPage page => exact hcounted.2
    | markPage _ | lockPage _ | copyPage _ | enqueueFenceWait | enqueueCopies => exact hcounted
  · have hcopy := h.copied page (List.mem_cons_of_mem _ hpage)
    refine List.mem_of_ne_of_mem (fun hstep => ?_) hcopy
    have hrank := h.rank_le _ hpage
    rw [← hstep] at hrank
    exact absurd hrank (by simp [RendererStep.rank])

theorem pairwise_of_rank_eq {rank : Nat} (h : ∀ step ∈ steps, step.rank = rank) :
    steps.Pairwise fun a b => a.rank ≤ b.rank :=
  List.pairwise_of_forall_mem_list fun a ha b hb => ((h a ha).trans (h b hb).symm).le

theorem orderly_of_phases (marks locks copies last : List RendererStep)
    (hmarks : ∀ step ∈ marks, step.rank = 0) (hlocks : ∀ step ∈ locks, step.rank = 1)
    (hcopies : ∀ step ∈ copies, step.rank = 2) (hlast : Submits last)
    (hcopied : ∀ page, .lockPage page ∈ locks → .copyPage page ∈ copies) :
    Orderly (marks ++ locks ++ copies ++ last) := by
  have hbefore : ∀ step ∈ marks ++ locks, step.rank ≤ 1 := by
    intro step hstep
    obtain h | h := List.mem_append.mp hstep
    · exact (hmarks step h).trans_le (Nat.zero_le 1)
    · exact (hlocks step h).le
  have hcopy : ∀ step ∈ marks ++ locks ++ copies, step.rank ≤ 2 := by
    intro step hstep
    obtain h | h := List.mem_append.mp hstep
    · exact (hbefore step h).trans (Nat.le_succ 1)
    · exact (hcopies step h).le
  refine ⟨?_, ?_, fun page hpage => ?_⟩
  · refine List.pairwise_append.mpr ⟨List.pairwise_append.mpr ⟨List.pairwise_append.mpr
      ⟨pairwise_of_rank_eq hmarks, pairwise_of_rank_eq hlocks, ?_⟩, pairwise_of_rank_eq hcopies,
      ?_⟩, pairwise_of_rank_eq hlast.rank_eq, ?_⟩
    · exact fun a ha b _ => (hmarks a ha).le.trans (Nat.zero_le _)
    · exact fun a ha b hb => ((hbefore a ha).trans (Nat.le_succ 1)).trans (hcopies b hb).ge
    · exact fun a ha b hb => ((hcopy a ha).trans (Nat.le_succ 2)).trans (hlast.rank_eq b hb).ge
  · exact EnqueuesCounted.of_rank_lt (fun step hstep => Nat.lt_succ_of_le (hcopy step hstep))
      hlast.counted
  · refine List.mem_append_left _ (List.mem_append_right _ (hcopied page ?_))
    obtain hpage | hpage := List.mem_append.mp hpage
    · obtain hpage | hpage := List.mem_append.mp hpage
      · obtain hpage | hpage := List.mem_append.mp hpage
        · exact absurd (hmarks _ hpage) (by simp [RendererStep.rank])
        · exact hpage
      · exact absurd (hcopies _ hpage) (by simp [RendererStep.rank])
    · exact absurd (hlast.rank_eq _ hpage) (by simp [RendererStep.rank])

theorem rank_of_mem_markPages (r : PageRange) (numPages : Nat) :
    ∀ step ∈ markPagesForGpuRead r numPages, step.rank = 0 := by
  intro step hstep
  obtain ⟨page, -, rfl⟩ := List.mem_map.mp hstep
  rfl

theorem rank_of_mem_lockPages (r : PageRange) (numPages : Nat) :
    ∀ step ∈ lockPagesForGpuWrite r numPages, step.rank = 1 := by
  intro step hstep
  obtain ⟨page, -, rfl⟩ := List.mem_map.mp hstep
  rfl

theorem rank_of_mem_copyPages (numPages : Nat) :
    ∀ step ∈ resolveCoherencyHostToGpu numPages, step.rank = 2 := by
  intro step hstep
  obtain ⟨page, -, rfl⟩ := List.mem_map.mp hstep
  rfl

theorem copyPage_of_lockPage {r : PageRange} {numPages page : Nat} (hpos : 0 < numPages)
    (h : .lockPage page ∈ lockPagesForGpuWrite r numPages) :
    .copyPage page ∈ resolveCoherencyHostToGpu numPages := by
  obtain ⟨locked, hlocked, hpage⟩ := List.mem_map.mp h
  obtain rfl := RendererStep.lockPage.inj hpage
  refine List.mem_map.mpr ⟨locked, List.mem_range.mpr ?_, rfl⟩
  rw [PageRange.lockedPages] at hlocked
  split at hlocked
  next => exact absurd hlocked List.not_mem_nil
  next =>
    obtain ⟨page, -, rfl⟩ := List.mem_map.mp hlocked
    exact Nat.mod_lt page hpos

theorem SubmitState.Settled.call {q : SubmitState} (h : q.Settled) {numPages : Nat}
    (hpos : 0 < numPages) (c : CoherencyCall) :
    (q.call numPages c).1.Settled ∧ Orderly (q.call numPages c).2 := by
  have hnone : ∀ page, RendererStep.lockPage page ∈ ([] : List RendererStep) →
      RendererStep.copyPage page ∈ ([] : List RendererStep) :=
    fun page hpage => absurd hpage List.not_mem_nil
  have hempty : Orderly [] := ⟨List.Pairwise.nil, trivial, hnone⟩
  cases c with
  | loadTile r =>
    refine ⟨h, ?_⟩
    have hphases := orderly_of_phases (markPagesForGpuRead r numPages) [] [] []
      (rank_of_mem_markPages r numPages) (List.forall_mem_nil _) (List.forall_mem_nil _)
      submits_nil hnone
    rw [List.append_nil, List.append_nil, List.append_nil] at hphases
    exact hphases
  | flushQueues f =>
    obtain ⟨hsettled, hsteps | ⟨last, hlast, hsteps⟩⟩ := h.flushQueues numPages f
    · exact ⟨hsettled, hsteps ▸ hempty⟩
    · refine ⟨hsettled, ?_⟩
      rw [SubmitState.call, hsteps, List.append_assoc (markPagesForGpuRead f.color numPages ++ _)
        (lockPagesForGpuWrite f.color numPages)]
      refine orderly_of_phases _ _ _ _
        (List.forall_mem_append.mpr ⟨rank_of_mem_markPages _ _, rank_of_mem_markPages _ _⟩)
        (List.forall_mem_append.mpr ⟨rank_of_mem_lockPages _ _, rank_of_mem_lockPages _ _⟩)
        (rank_of_mem_copyPages _) hlast fun page hpage => ?_
      obtain hpage | hpage := List.mem_append.mp hpage
      · exact copyPage_of_lockPage hpos hpage
      · exact copyPage_of_lockPage hpos hpage
  | submitToQueue =>
    have hsubmits := submitToQueue_submits q numPages
    exact ⟨h.submitToQueue numPages, orderly_of_phases [] [] [] _ (List.forall_mem_nil _)
      (List.forall_mem_nil _) (List.forall_mem_nil _) hsubmits hnone⟩
  | resolveCoherencyExternal r =>
    rw [SubmitState.call]
    split
    next => exact ⟨h, hempty⟩
    next =>
      have hphases := orderly_of_phases (markPagesForGpuRead r numPages) []
        (resolveCoherencyHostToGpu numPages) [] (rank_of_mem_markPages r numPages)
        (List.forall_mem_nil _) (rank_of_mem_copyPages numPages) submits_nil
        fun page hpage => absurd hpage List.not_mem_nil
      rw [List.append_nil, List.append_nil] at hphases
      exact ⟨h, hphases⟩

namespace CoherencyState

variable {s : CoherencyState} {step : RendererStep} {todo : List RendererStep}

/-- Nothing is pending for a page that is marked for a direct copy, apart from what the current
call will draw to it after it copied the page. -/
structure Marked (s : CoherencyState) : Prop where
  counters : ∀ p, s.pageToDirectCopy p = true → s.pendingWritesForPage p = 0
  readbacks : ∀ p, s.pageToDirectCopy p = true → s.readbackAtCall p = false
  copied : ∀ p, s.pageToDirectCopy p = true → s.pageToPendingReadback p = true →
    .copyPage p ∈ s.todo
  marking : ∀ p, .markPage p ∈ s.todo → s.pageToPendingReadback = s.readbackAtCall
  directCopies : ∀ c ∈ s.directCopies, c.pendingReadbackAtCall = false ∧ c.pendingWrites = 0

theorem notMem_of_rank_lt (horder : Orderly (step :: todo)) {other : RendererStep}
    (h : other.rank < step.rank) : other ∉ todo :=
  fun hmem => absurd (horder.rank_le other hmem) (not_le.mpr h)

theorem mem_of_rank_ne {other : RendererStep} (h : other ∈ s.todo) (htodo : s.todo = step :: todo)
    (hrank : other.rank ≠ step.rank) : other ∈ todo := by
  rw [htodo] at h
  exact List.mem_of_ne_of_mem (fun heq => hrank (congrArg RendererStep.rank heq)) h

variable {page p : Nat}

theorem eq_or_of_update_true {pages : Nat → Bool} (h : Function.update pages page true p = true) :
    p = page ∨ pages p = true := by
  by_cases hsame : p = page
  · exact Or.inl hsame
  · rw [Function.update_of_ne hsame] at h
    exact Or.inr h

theorem ne_and_of_update_false {pages : Nat → Bool}
    (h : Function.update pages page false p = true) : p ≠ page ∧ pages p = true := by
  by_cases hsame : p = page
  · subst hsame
    rw [Function.update_self] at h
    exact absurd h Bool.false_ne_true
  · rw [Function.update_of_ne hsame] at h
    exact ⟨hsame, h⟩

theorem Marked.markPage (h : s.Marked) (htodo : s.todo = .markPage page :: todo) :
    ({ s with todo }.markPage page).Marked := by
  have hcopied : ∀ p, s.pageToDirectCopy p = true → s.pageToPendingReadback p = true →
      RendererStep.copyPage p ∈ todo := fun p hp hread =>
    mem_of_rank_ne (h.copied p hp hread) htodo (Nat.succ_ne_zero 1)
  have hmarking : ∀ p, RendererStep.markPage p ∈ todo →
      s.pageToPendingReadback = s.readbackAtCall := fun p hp =>
    h.marking p (htodo ▸ List.mem_cons_of_mem _ hp)
  rw [CoherencyState.markPage]
  split
  next => exact ⟨h.counters, h.readbacks, hcopied, hmarking, h.directCopies⟩
  next hpending =>
    simp only [Bool.or_eq_true, bne_iff_ne, not_or, Bool.not_eq_true, ne_eq, not_not] at hpending
    obtain ⟨hread, hzero⟩ := hpending
    have hstart : s.pageToPendingReadback = s.readbackAtCall :=
      h.marking page (htodo ▸ List.mem_cons_self)
    refine ⟨fun p hp => ?_, fun p hp => ?_, fun p hp hpread => ?_, hmarking, h.directCopies⟩
    · obtain rfl | hp := eq_or_of_update_true hp
      · exact hzero
      · exact h.counters p hp
    · obtain rfl | hp := eq_or_of_update_true hp
      · exact hstart ▸ hread
      · exact h.readbacks p hp
    · obtain rfl | hp := eq_or_of_update_true hp
      · exact absurd (hread.symm.trans hpread) Bool.false_ne_true
      · exact hcopied p hp hpread

theorem Marked.lockPage (h : s.Marked) (horder : Orderly s.todo)
    (htodo : s.todo = .lockPage page :: todo) : ({ s with todo }.lockPage page).Marked := by
  refine ⟨h.counters, h.readbacks, fun p hp hread => ?_, fun p hp => ?_, h.directCopies⟩
  · obtain rfl | hread := eq_or_of_update_true hread
    · have hcopy := horder.copied p (htodo ▸ List.mem_cons_self)
      exact mem_of_rank_ne hcopy htodo (Nat.succ_ne_self 1)
    · exact mem_of_rank_ne (h.copied p hp hread) htodo (Nat.succ_ne_self 1)
  · rw [htodo] at horder
    exact absurd hp (notMem_of_rank_lt horder (Nat.zero_lt_one))

theorem Marked.copyPage (h : s.Marked) (horder : Orderly s.todo)
    (htodo : s.todo = .copyPage page :: todo) : ({ s with todo }.copyPage page).Marked := by
  rw [htodo] at horder
  refine ⟨fun p hp => h.counters p (ne_and_of_update_false hp).2,
    fun p hp => h.readbacks p (ne_and_of_update_false hp).2, fun p hp hread => ?_, fun p hp => ?_, ?_⟩
  · obtain ⟨hne, hp⟩ := ne_and_of_update_false hp
    refine List.mem_of_ne_of_mem (fun heq => hne (RendererStep.copyPage.inj heq)) ?_
    exact htodo ▸ h.copied p hp hread
  · exact absurd hp (notMem_of_rank_lt horder (Nat.zero_lt_two))
  · rw [CoherencyState.copyPage]
    dsimp only
    split
    next hcopies =>
      have hpage : s.pageToDirectCopy page = true := (Bool.and_eq_true_iff.mp hcopies).1
      intro c hc
      obtain hc | hc := List.mem_append.mp hc
      · exact h.directCopies c hc
      · rw [List.mem_singleton.mp hc]
        exact ⟨h.readbacks page hpage, h.counters page hpage⟩
    next => exact h.directCopies

theorem Marked.not_direct (h : s.Marked) (horder : Orderly s.todo) (htodo : s.todo = step :: todo)
    (hrank : step.rank = 3) (hread : s.pageToPendingReadback p = true) :
    s.pageToDirectCopy p = false := by
  rw [Bool.eq_false_iff]
  intro hdirect
  have hcopy := h.copied p hdirect hread
  rw [htodo] at hcopy horder
  obtain rfl | hcopy := List.mem_cons.mp hcopy
  · exact absurd hrank (by simp [RendererStep.rank])
  · exact notMem_of_rank_lt horder (hrank ▸ Nat.lt_succ_self 2) hcopy

theorem Marked.of_rank_eq (h : s.Marked) (horder : Orderly s.todo) (htodo : s.todo = step :: todo)
    (hrank : step.rank = 3) {s' : CoherencyState} (htail : s'.todo = todo)
    (hdirect : s'.pageToDirectCopy = s.pageToDirectCopy)
    (hcounter : ∀ p, s.pageToDirectCopy p = true →
      s'.pendingWritesForPage p = s.pendingWritesForPage p)
    (hread : ∀ p, s'.pageToPendingReadback p = true → s.pageToPendingReadback p = true)
    (hstart : s'.readbackAtCall = s.readbackAtCall)
    (hcopies : s'.directCopies = s.directCopies) : s'.Marked := by
  have horder' := htodo ▸ horder
  refine ⟨fun p hp => ?_, fun p hp => ?_, fun p hp hpread => ?_, fun p hp => ?_,
    hcopies ▸ h.directCopies⟩
  · rw [hdirect] at hp
    rw [hcounter p hp]
    exact h.counters p hp
  · rw [hstart]
    exact h.readbacks p (hdirect ▸ hp)
  · have hnone := h.not_direct horder htodo hrank (hread p hpread)
    rw [hdirect, hnone] at hp
    exact absurd hp Bool.false_ne_true
  · rw [htail] at hp
    exact absurd hp (notMem_of_rank_lt horder' (hrank ▸ Nat.succ_pos 2))

theorem Marked.perform (h : s.Marked) (horder : Orderly s.todo) (htodo : s.todo = step :: todo) :
    ({ s with todo }.perform step).Marked := by
  cases step with
  | markPage page => exact h.markPage htodo
  | lockPage page => exact h.lockPage horder htodo
  | copyPage page => exact h.copyPage horder htodo
  | countPage page =>
    rw [CoherencyState.perform, CoherencyState.countPage]
    split
    next hread =>
      have hdirect := h.not_direct horder htodo rfl hread
      refine h.of_rank_eq horder htodo rfl rfl rfl (fun p hp => ?_) (fun p hp => ?_) rfl rfl
      · refine Function.update_of_ne ?_ _ _
        rintro rfl
        exact absurd (hdirect.symm.trans hp) Bool.false_ne_true
      · exact (ne_and_of_update_false hp).2
    next => exact h.of_rank_eq horder htodo rfl rfl rfl (fun _ _ => rfl) (fun _ hp => hp) rfl rfl
  | enqueueFenceWait =>
    exact h.of_rank_eq horder htodo rfl rfl rfl (fun _ _ => rfl) (fun _ hp => hp) rfl rfl
  | enqueueCopies =>
    rw [CoherencyState.perform, CoherencyState.enqueueCopies]
    split <;>
      exact h.of_rank_eq horder htodo rfl rfl rfl (fun _ _ => rfl) (fun _ hp => hp) rfl rfl

/-- The counters count what will still be written, and an operation that is being built will be
enqueued before its pages are locked again. -/
structure Counted (s : CoherencyState) : Prop where
  enqueued : s.building ≠ [] → .enqueueCopies ∈ s.todo ∧ ∀ p, .lockPage p ∉ s.todo
  building_read : ∀ p ∈ s.building, s.pageToPendingReadback p = false
  building_nodup : s.building.Nodup
  workQueue_nodup : ∀ op ∈ s.workQueue, op.pages.Nodup
  performing_nodup : s.performing.Nodup
  counter_eq : ∀ p, s.pendingWritesForPage p = UInt32.ofNat (s.outstanding p)

theorem Counted.frame (h : s.Counted) {s' : CoherencyState} (hbuilding : s'.building = s.building)
    (hqueue : s'.workQueue = s.workQueue) (hperforming : s'.performing = s.performing)
    (hcounter : s'.pendingWritesForPage = s.pendingWritesForPage)
    (henqueued : s.building ≠ [] → .enqueueCopies ∈ s'.todo ∧ ∀ p, .lockPage p ∉ s'.todo)
    (hread : ∀ p ∈ s.building, s'.pageToPendingReadback p = false) : s'.Counted where
  enqueued := hbuilding ▸ henqueued
  building_read := hbuilding ▸ hread
  building_nodup := hbuilding ▸ h.building_nodup
  workQueue_nodup := hqueue ▸ h.workQueue_nodup
  performing_nodup := hperforming ▸ h.performing_nodup
  counter_eq := fun p => by
    rw [outstanding, hbuilding, hqueue, hperforming, hcounter]
    exact h.counter_eq p

theorem Counted.enqueued_tail (h : s.Counted) (htodo : s.todo = step :: todo)
    (hstep : step ≠ .enqueueCopies) (hbuilding : s.building ≠ []) :
    .enqueueCopies ∈ todo ∧ ∀ p, .lockPage p ∉ todo := by
  obtain ⟨henqueue, hlock⟩ := h.enqueued hbuilding
  rw [htodo] at henqueue hlock
  exact ⟨List.mem_of_ne_of_mem hstep.symm henqueue,
    fun p hp => hlock p (List.mem_cons_of_mem _ hp)⟩

theorem Counted.countPage (h : s.Counted) (horder : Orderly s.todo)
    (htodo : s.todo = .countPage page :: todo) : ({ s with todo }.countPage page).Counted := by
  rw [CoherencyState.countPage]
  split
  next hread =>
    have hnew : page ∉ s.building := fun hmem =>
      absurd ((h.building_read page hmem).symm.trans hread) Bool.false_ne_true
    rw [htodo] at horder
    refine ⟨fun _ => ⟨horder.counted.1, fun p => ?_⟩, fun p hp => ?_, ?_, h.workQueue_nodup,
      h.performing_nodup, fun p => ?_⟩
    · exact notMem_of_rank_lt horder (Nat.lt_of_sub_eq_succ rfl)
    · dsimp only
      by_cases hsame : p = page
      · subst hsame
        exact Function.update_self _ _ _
      · rw [Function.update_of_ne hsame]
        exact h.building_read p ((List.mem_append.mp hp).resolve_right
          fun hlast => hsame (List.mem_singleton.mp hlast))
    · exact List.concat_eq_append ▸ h.building_nodup.concat hnew
    · dsimp only [outstanding]
      by_cases hsame : p = page
      · subst hsame
        have hcounter := h.counter_eq p
        rw [outstanding, if_neg hnew, Nat.zero_add] at hcounter
        rw [Function.update_self, if_pos (List.mem_append_right _ (List.mem_singleton_self _)),
          hcounter, Nat.add_assoc, Nat.add_comm 1]
        exact (UInt32.ofNat_add _ 1).symm
      · have hmem : p ∈ s.building ++ [page] ↔ p ∈ s.building := by
          rw [List.mem_append, List.mem_singleton]
          exact or_iff_left hsame
        rw [Function.update_of_ne hsame, if_congr hmem rfl rfl]
        exact h.counter_eq p
  next =>
    exact h.frame rfl rfl rfl rfl (h.enqueued_tail htodo nofun) h.building_read

theorem Counted.enqueueFenceWait (h : s.Counted) (htodo : s.todo = .enqueueFenceWait :: todo) :
    ({ s with todo }.enqueue { fence := true }).Counted where
  enqueued := h.enqueued_tail htodo nofun
  building_read := h.building_read
  building_nodup := h.building_nodup
  workQueue_nodup := fun op hop => by
    obtain hop | hop := List.mem_append.mp hop
    · exact h.workQueue_nodup op hop
    · rw [List.mem_singleton.mp hop]
      exact List.nodup_nil
  performing_nodup := h.performing_nodup
  counter_eq := fun p => by
    have hcount : (s.workQueue ++ [({ fence := true } : CoherencyOperation)]).countP
        (fun op => decide (p ∈ op.pages)) = s.workQueue.countP fun op => decide (p ∈ op.pages) := by
      rw [List.countP_append]
      rfl
    dsimp only [enqueue, outstanding]
    rw [hcount]
    exact h.counter_eq p

theorem Counted.enqueueCopies (h : s.Counted) (todo : List RendererStep) :
    { s with todo }.enqueueCopies.Counted := by
  rw [CoherencyState.enqueueCopies]
  split
  next hempty =>
    have hbuilding : s.building = [] := List.isEmpty_iff.mp hempty
    exact h.frame rfl rfl rfl rfl (fun hne => absurd hbuilding hne) h.building_read
  next =>
    have hpages : CoherencyOperation.pages { fence := true, copies := bitRanges s.building } =
        s.building := flatMap_pages_bitRanges s.building
    refine ⟨fun hne => absurd rfl hne, List.forall_mem_nil _, List.nodup_nil, fun op hop => ?_,
      h.performing_nodup, fun p => ?_⟩
    · obtain hop | hop := List.mem_append.mp hop
      · exact h.workQueue_nodup op hop
      · rw [List.mem_singleton.mp hop, hpages]
        exact h.building_nodup
    · dsimp only [enqueue, outstanding]
      rw [if_neg List.not_mem_nil, List.countP_append, List.countP_singleton, hpages]
      rw [h.counter_eq p, outstanding, Nat.zero_add, Nat.add_comm (List.countP _ _)]
      simp only [decide_eq_true_eq]

theorem Counted.perform (h : s.Counted) (horder : Orderly s.todo) (htodo : s.todo = step :: todo) :
    ({ s with todo }.perform step).Counted := by
  cases step with
  | markPage page =>
    rw [CoherencyState.perform, CoherencyState.markPage]
    split <;> exact h.frame rfl rfl rfl rfl (h.enqueued_tail htodo nofun) h.building_read
  | lockPage page =>
    have hbuilding : s.building = [] := by
      by_contra hne
      exact (h.enqueued hne).2 page (htodo ▸ List.mem_cons_self)
    refine h.frame rfl rfl rfl rfl (h.enqueued_tail htodo nofun) ?_
    rw [hbuilding]
    exact List.forall_mem_nil _
  | copyPage page => exact h.frame rfl rfl rfl rfl (h.enqueued_tail htodo nofun) h.building_read
  | countPage page => exact h.countPage horder htodo
  | enqueueFenceWait => exact h.enqueueFenceWait htodo
  | enqueueCopies => exact h.enqueueCopies todo

theorem Counted.takeWork (h : s.Counted) (hperforming : s.performing = [])
    {op : CoherencyOperation} {workQueue : List CoherencyOperation}
    (hqueue : s.workQueue = op :: workQueue) :
    Counted { s with performing := op.pages, workQueue } where
  enqueued := h.enqueued
  building_read := h.building_read
  building_nodup := h.building_nodup
  workQueue_nodup := fun other hother =>
    h.workQueue_nodup other (hqueue ▸ List.mem_cons_of_mem _ hother)
  performing_nodup := h.workQueue_nodup op (hqueue ▸ List.mem_cons_self)
  counter_eq := fun p => by
    have hcounter := h.counter_eq p
    rw [outstanding, hperforming, hqueue, List.countP_cons, if_neg List.not_mem_nil] at hcounter
    rw [hcounter, outstanding]
    simp only [decide_eq_true_eq, Nat.add_zero, Nat.add_assoc]

theorem Counted.outstanding_pos (h : s.Counted) {performing : List Nat}
    (hperforming : s.performing = page :: performing) :
    s.outstanding page = { s with performing }.outstanding page + 1 := by
  have hnew : page ∉ performing := (List.nodup_cons.mp (hperforming ▸ h.performing_nodup)).1
  simp only [outstanding, hperforming, List.mem_cons_self, if_true, if_neg hnew, Nat.add_zero]

theorem Counted.releasePage (h : s.Counted) {performing : List Nat}
    (hperforming : s.performing = page :: performing) :
    ({ s with performing }.releasePage page).Counted where
  enqueued := h.enqueued
  building_read := h.building_read
  building_nodup := h.building_nodup
  workQueue_nodup := h.workQueue_nodup
  performing_nodup := (List.nodup_cons.mp (hperforming ▸ h.performing_nodup)).2
  counter_eq := fun p => by
    dsimp only [CoherencyState.releasePage]
    by_cases hsame : p = page
    · subst hsame
      rw [Function.update_self, h.counter_eq p, h.outstanding_pos hperforming, UInt32.ofNat_add]
      exact UInt32.add_sub_cancel _ _
    · have hmem : p ∈ s.performing ↔ p ∈ performing := by
        rw [hperforming, List.mem_cons]
        exact or_iff_right hsame
      rw [Function.update_of_ne hsame, h.counter_eq p, outstanding, if_congr hmem rfl rfl]
      rfl

/-- What holds between any two events. -/
structure Coherent (s : CoherencyState) : Prop where
  settled : s.submit.Settled
  orderly : Orderly s.todo
  marked : s.Marked
  counted : s.Counted
  underflow : s.underflow = false

theorem Coherent.beginCall (h : s.Coherent) (c : CoherencyCall) : (s.beginCall c).Coherent := by
  rw [CoherencyState.beginCall]
  split
  next hidle =>
    have htodo : s.todo = [] := List.isEmpty_iff.mp hidle
    have hbuilding : s.building = [] := by
      by_contra hne
      have henqueue := (h.counted.enqueued hne).1
      rw [htodo] at henqueue
      exact absurd henqueue List.not_mem_nil
    have hread : ∀ p, s.pageToDirectCopy p = true → s.pageToPendingReadback p = false := by
      intro p hp
      rw [Bool.eq_false_iff]
      intro hpread
      have hcopy := h.marked.copied p hp hpread
      rw [htodo] at hcopy
      exact absurd hcopy List.not_mem_nil
    have hpos : 0 < s.numPages := Nat.two_pow_pos s.logPages
    obtain ⟨hsettled, horderly⟩ := h.settled.call hpos c
    refine ⟨hsettled, horderly, ⟨h.marked.counters, hread, fun p hp hpread => ?_, fun _ _ => rfl,
      h.marked.directCopies⟩, ?_, h.underflow⟩
    · exact absurd ((hread p hp).symm.trans hpread) Bool.false_ne_true
    · exact h.counted.frame rfl rfl rfl rfl (fun hne => absurd hbuilding hne)
        h.counted.building_read
  next => exact h

theorem perform_frame (s : CoherencyState) (step : RendererStep) :
    (s.perform step).todo = s.todo ∧ (s.perform step).submit = s.submit ∧
      (s.perform step).underflow = s.underflow := by
  cases step with
  | markPage page =>
    rw [perform, CoherencyState.markPage]
    split <;> exact ⟨rfl, rfl, rfl⟩
  | countPage page =>
    rw [perform, CoherencyState.countPage]
    split <;> exact ⟨rfl, rfl, rfl⟩
  | enqueueCopies =>
    rw [perform, CoherencyState.enqueueCopies]
    split <;> exact ⟨rfl, rfl, rfl⟩
  | lockPage page | copyPage page | enqueueFenceWait => exact ⟨rfl, rfl, rfl⟩

theorem Coherent.rendererStep (h : s.Coherent) : s.rendererStep.Coherent := by
  rw [CoherencyState.rendererStep]
  split
  next => exact h
  next step todo htodo =>
    obtain ⟨htail, hsubmit, hunderflow⟩ := perform_frame { s with todo } step
    refine ⟨?_, ?_, h.marked.perform h.orderly htodo, h.counted.perform h.orderly htodo,
      hunderflow.trans h.underflow⟩
    · rw [hsubmit]
      exact h.settled
    · rw [htail]
      exact (htodo ▸ h.orderly).tail

theorem Counted.counter_toNat (h : s.Counted) (hbound : s.outstanding p < 2 ^ 32) :
    (s.pendingWritesForPage p).toNat = s.outstanding p := by
  rw [h.counter_eq p, UInt32.toNat_ofNat']
  exact Nat.mod_eq_of_lt hbound

theorem Coherent.workerStep (h : s.Coherent) (hbound : ∀ p, s.outstanding p < 2 ^ 32) :
    s.workerStep.Coherent := by
  rw [CoherencyState.workerStep]
  split
  next page performing hperforming =>
    have hpositive : s.pendingWritesForPage page ≠ 0 := by
      intro hzero
      have hcounter := h.counted.counter_toNat (hbound page)
      rw [hzero, h.counted.outstanding_pos hperforming] at hcounter
      exact absurd hcounter (Nat.succ_ne_zero _).symm
    refine ⟨h.settled, h.orderly, ⟨fun p hp => ?_, h.marked.readbacks, h.marked.copied,
      h.marked.marking, h.marked.directCopies⟩, h.counted.releasePage hperforming, ?_⟩
    · have hne : p ≠ page := by
        rintro rfl
        exact hpositive (h.marked.counters p hp)
      exact (Function.update_of_ne hne _ _).trans (h.marked.counters p hp)
    · dsimp only [CoherencyState.releasePage]
      rw [h.underflow, Bool.false_or, beq_eq_false_iff_ne]
      exact hpositive
  next hperforming =>
    split
    next => exact h
    next op workQueue hqueue =>
      exact ⟨h.settled, h.orderly, ⟨h.marked.counters, h.marked.readbacks, h.marked.copied,
        h.marked.marking, h.marked.directCopies⟩, h.counted.takeWork hperforming hqueue,
        h.underflow⟩

theorem coherent_start (logPages : Nat) (hostAllocation : Bool) :
    Coherent { logPages := logPages, hostAllocation := hostAllocation } where
  settled := SubmitState.settled_of_bufferInstance_lt (Nat.zero_lt_succ _)
  orderly := ⟨List.Pairwise.nil, trivial, fun _ hp => absurd hp List.not_mem_nil⟩
  marked := ⟨fun _ _ => rfl, fun _ _ => rfl, fun _ hp => absurd hp Bool.false_ne_true,
    fun _ _ => rfl, List.forall_mem_nil _⟩
  counted := ⟨fun hne => absurd rfl hne, List.forall_mem_nil _, List.nodup_nil,
    List.forall_mem_nil _, List.nodup_nil, fun _ => rfl⟩
  underflow := rfl

/-- In a run in which fewer than `2 ^ 32` operations will write a page at any time, every counter
is the number of operations that will write its page, no counter underflows, and a page is
overwritten from host memory only where its counter is zero and where no readback was pending
when the call began that overwrites it. -/
theorem run_coherent (logPages : Nat) (hostAllocation : Bool) (events : List CoherencyEvent)
    (hbound : ∀ first rest, events = first ++ rest → ∀ p,
      (run { logPages := logPages, hostAllocation := hostAllocation } first).outstanding p <
        2 ^ 32) :
    ∀ first rest, events = first ++ rest →
      let s := run { logPages := logPages, hostAllocation := hostAllocation } first
      (∀ p, (s.pendingWritesForPage p).toNat = s.outstanding p) ∧ s.underflow = false ∧
        ∀ c ∈ s.directCopies, c.pendingReadbackAtCall = false ∧ c.pendingWrites = 0 := by
  intro first rest hevents
  have hcoherent : (run { logPages := logPages, hostAllocation := hostAllocation } first).Coherent :=
    foldl_prefix_invariant CoherencyState.Coherent (fun s _ => ∀ p, s.outstanding p < 2 ^ 32)
      (coherent_start logPages hostAllocation) (fun s event _ h hbound => by
        cases event with
        | call c => exact h.beginCall c
        | renderer => exact h.rendererStep
        | worker => exact h.workerStep hbound)
      (fun first event rest hsplit => hbound first (event :: rest) hsplit) hevents
  exact ⟨fun p => hcoherent.counted.counter_toNat (hbound first rest hevents p),
    hcoherent.underflow, hcoherent.marked.directCopies⟩

theorem outstanding_le (s : CoherencyState) (p : Nat) :
    s.outstanding p ≤ s.workQueue.length + 2 := by
  have hcount := s.workQueue.countP_le_length (p := fun op => decide (p ∈ op.pages))
  rw [outstanding]
  split <;> split <;> omega

theorem length_workQueue_apply_le (s : CoherencyState) (event : CoherencyEvent) :
    (event.apply s).workQueue.length ≤ s.workQueue.length + 1 := by
  cases event with
  | call c =>
    rw [CoherencyEvent.apply, CoherencyState.beginCall]
    split <;> exact Nat.le_succ _
  | renderer =>
    rw [CoherencyEvent.apply, CoherencyState.rendererStep]
    split
    next => exact Nat.le_succ _
    next step todo htodo =>
      cases step with
      | markPage page =>
        rw [perform, CoherencyState.markPage]
        split <;> exact Nat.le_succ _
      | countPage page =>
        rw [perform, CoherencyState.countPage]
        split <;> exact Nat.le_succ _
      | enqueueCopies =>
        rw [perform, CoherencyState.enqueueCopies]
        split
        next => exact Nat.le_succ _
        next => exact List.length_append.le
      | enqueueFenceWait => exact List.length_append.le
      | lockPage page | copyPage page => exact Nat.le_succ _
  | worker =>
    rw [CoherencyEvent.apply, CoherencyState.workerStep]
    split
    next => exact Nat.le_succ _
    next =>
      split
      next => exact Nat.le_succ _
      next hqueue =>
        rw [hqueue, List.length_cons]
        dsimp only
        omega

theorem length_workQueue_run_le (s : CoherencyState) (events : List CoherencyEvent) :
    (s.run events).workQueue.length ≤ s.workQueue.length + events.length := by
  induction events generalizing s with
  | nil => exact Nat.le_refl _
  | cons event events ih =>
    have hfirst := length_workQueue_apply_le s event
    have hrest := ih (event.apply s)
    rw [List.length_cons]
    exact hrest.trans (by omega)

def firstPageFlush : Flush := { color := { byteCount := 1 }, due := true }

def drawFirstPage (steps : Nat) : List CoherencyEvent :=
  .call (.flushQueues firstPageFlush) :: List.replicate steps .renderer

/-- A flush that draws to a page copies the page and counts it. -/
theorem run_drawFirstPage_coherent :
    (run { logPages := 2, hostAllocation := true } (drawFirstPage 12)).directCopies.length = 1 ∧
      let s := run { logPages := 2, hostAllocation := true } (drawFirstPage 12)
      (∀ p, (s.pendingWritesForPage p).toNat = s.outstanding p) ∧ s.underflow = false ∧
        ∀ c ∈ s.directCopies, c.pendingReadbackAtCall = false ∧ c.pendingWrites = 0 := by
  refine ⟨by decide, run_coherent 2 true (drawFirstPage 12) (fun first rest hevents p => ?_)
    (drawFirstPage 12) [] (List.append_nil _).symm⟩
  have hlength := congrArg List.length hevents
  rw [List.length_append] at hlength
  have hqueue := length_workQueue_run_le { logPages := 2, hostAllocation := true } first
  have hle := outstanding_le (run { logPages := 2, hostAllocation := true } first) p
  simp [drawFirstPage] at hlength hqueue
  omega

/-- A memory of one page that so many operations will write, while nothing else is under way. -/
structure Waiting (s : CoherencyState) (n : Nat) : Prop where
  logPages : s.logPages = 0
  todo : s.todo = []
  building : s.building = []
  performing : s.performing = []
  submit : ∃ i, s.submit = { bufferInstance := i }
  outstanding : s.outstanding 0 = n
  counter : s.pendingWritesForPage 0 = UInt32.ofNat n

theorem call_firstPageFlush (i : Nat) :
    SubmitState.call { bufferInstance := i } 1 (.flushQueues firstPageFlush) =
      ({ bufferInstance := (i + 1) % numSyncStates },
        [.lockPage 0, .copyPage 0, .countPage 0, .enqueueFenceWait, .enqueueCopies]) := by
  have hlocked : lockPagesForGpuWrite firstPageFlush.color 1 = [.lockPage 0] := by decide
  have hnone : markPagesForGpuRead firstPageFlush.color 1 = [] ∧
      markPagesForGpuRead firstPageFlush.depth 1 = [] ∧
      lockPagesForGpuWrite firstPageFlush.depth 1 = [] := by decide
  rw [SubmitState.call, SubmitState.flushQueues, hlocked, hnone.1, hnone.2.1, hnone.2.2]
  rfl

theorem Waiting.drawFirstPage {s : CoherencyState} {n : Nat} (h : s.Waiting n) :
    (s.run (drawFirstPage 5)).Waiting (n + 1) := by
  obtain ⟨i, hsubmit⟩ := h.submit
  have hbegin : s.beginCall (.flushQueues firstPageFlush) =
      { s with
        submit := { bufferInstance := (i + 1) % numSyncStates }
        todo := [.lockPage 0, .copyPage 0, .countPage 0, .enqueueFenceWait, .enqueueCopies]
        readbackAtCall := s.pageToPendingReadback } := by
    rw [beginCall, if_pos (List.isEmpty_iff.mpr h.todo), numPages, h.logPages, hsubmit,
      Nat.pow_zero, call_firstPageFlush]
  rw [run, CoherencyState.drawFirstPage, List.foldl_cons, CoherencyEvent.apply, hbegin]
  simp only [List.replicate, List.foldl_cons, List.foldl_nil, CoherencyEvent.apply, rendererStep,
    perform, lockPage, copyPage, countPage, enqueue, enqueueCopies, Function.update_self, if_true,
    h.building, List.nil_append, List.isEmpty_cons, Bool.false_eq_true, if_false]
  have hcount := h.outstanding
  simp only [CoherencyState.outstanding, h.building, h.performing, List.not_mem_nil, if_false,
    Nat.zero_add, Nat.add_zero] at hcount
  refine ⟨h.logPages, rfl, rfl, h.performing, ⟨_, rfl⟩, ?_, ?_⟩
  · simp only [CoherencyState.outstanding, h.performing, List.not_mem_nil, if_false, Nat.zero_add,
      Nat.add_zero, List.countP_append, hcount]
    rfl
  · rw [h.counter]
    exact (UInt32.ofNat_add n 1).symm

/-- The bit of a page that a flush draws to is set when the flush copies the page, and after
`2 ^ 32` render passes without a step of the worker the counter of their page is zero. -/
theorem not_run_coherent :
    (∃ c ∈ (run { logPages := 2, hostAllocation := true } (drawFirstPage 12)).directCopies,
      c.pendingReadback = true) ∧
    ∃ events, ((run { logPages := 0, hostAllocation := true } events).pendingWritesForPage 0).toNat ≠
      (run { logPages := 0, hostAllocation := true } events).outstanding 0 := by
  refine ⟨by decide, ?_⟩
  have hrounds : ∀ n, ∃ events,
      (run { logPages := 0, hostAllocation := true } events).Waiting n := by
    intro n
    induction n with
    | zero => exact ⟨[], rfl, rfl, rfl, rfl, ⟨0, rfl⟩, rfl, rfl⟩
    | succ n ih =>
      obtain ⟨events, hwaiting⟩ := ih
      refine ⟨events ++ drawFirstPage 5, ?_⟩
      rw [run, List.foldl_append]
      exact hwaiting.drawFirstPage
  obtain ⟨events, hwaiting⟩ := hrounds (2 ^ 32)
  refine ⟨events, ?_⟩
  rw [hwaiting.counter, hwaiting.outstanding]
  decide

end CoherencyState

end ParallelN64.Rdp
