import ParallelN64.Rdp.CommandRing

/-!
# The command ring over several initialisations

`init` can be called again on a used ring. It ends the consumer thread with an empty command, resets
two of the three counters and starts a new thread.
-/

namespace ParallelN64.Rdp

/-- A ring with its thread since the last `init`. -/
structure RingSession where
  run : RingRun
  joinable : Bool
  ending : Bool
  handed : Bool
  passed : List (List UInt32)
  published : Bool

/-- A ring that has just been constructed, before its first `init`. -/
def RingSession.constructed : RingSession where
  run := { ring := { ring := fun _ => 0, size := 0 }, consumer := .stopped }
  joinable := false
  ending := false
  handed := false
  passed := []
  published := false

/-- `ring.resize(count)`, and the counters that `init` resets. -/
def CommandRing.resize (ring : CommandRing) (count : UInt32) : CommandRing :=
  { ring with
    ring := fun i => if i < ring.size.toNat then ring.ring i else 0
    size := count.toUInt64
    writeCount := 0
    readCount := 0 }

/-- The end of `init`: a new thread on a resized ring. -/
def RingSession.start (s : RingSession) (count : UInt32) : RingSession where
  run := { ring := s.run.ring.resize count }
  joinable := true
  ending := false
  handed := false
  passed := []
  published := false

/-- `teardown_thread`, up to the join. -/
def RingSession.endThread (s : RingSession) : RingSession :=
  { s with run := s.run.enqueueCommand [], ending := true }

def RingSession.pass (s : RingSession) (words : List UInt32) : RingSession :=
  { s with handed := true, passed := s.passed ++ [words] }

/-- The consumer stores `completed_count`. -/
def RingSession.publish (s : RingSession) : RingSession :=
  { s with run := s.run.publishCompleted, handed := false, published := true }

/-- A step of the caller or of the consumer thread. -/
inductive SessionAction where
  | init (count : UInt32)
  | teardown
  | join (count : UInt32)
  | enqueueCommand (words : List UInt32)
  | drain
  | readCommand
  | metaIdle
  | pass
  | publishCompleted

/-- What the caller and the consumer thread can do. `init` is one step without a thread; with
one it waits for room for the empty command and then for the end of the thread. -/
inductive SessionStep (s : RingSession) : SessionAction → RingSession → Prop where
  | init (count : UInt32) (hjoinable : s.joinable = false) (hcount : count &&& (count - 1) = 0) :
      SessionStep s (.init count) (s.start count)
  | teardown (hjoinable : s.joinable = true) (hending : s.ending = false)
      (hroom : canEnqueueRingWords s.run.ring.writeCount s.run.ring.readCount s.run.ring.size 0) :
      SessionStep s .teardown s.endThread
  | join (count : UInt32) (hending : s.ending = true) (hstopped : s.run.consumer = .stopped)
      (hcount : count &&& (count - 1) = 0) : SessionStep s (.join count) (s.start count)
  | enqueueCommand (words : List UInt32) (hending : s.ending = false)
      (hwords : words.length < 2 ^ 32)
      (hroom : canEnqueueRingWords s.run.ring.writeCount s.run.ring.readCount s.run.ring.size
        (UInt32.ofNat words.length)) :
      SessionStep s (.enqueueCommand words) { s with run := s.run.enqueueCommand words }
  | drain (hending : s.ending = false)
      (hcompleted : s.run.ring.writeCount = s.run.ring.completedCount) : SessionStep s .drain s
  | readCommand (hwaiting : s.run.consumer = .waiting)
      (hunread : s.run.ring.writeCount > s.run.ring.readCount) :
      SessionStep s .readCommand { s with run := s.run.readCommand }
  | metaIdle (hwaiting : s.run.consumer = .waiting)
      (hnone : ¬ s.run.ring.writeCount > s.run.ring.readCount) : SessionStep s .metaIdle s
  | pass (words : List UInt32) (hholding : s.run.consumer = .holding words)
      (hhanded : s.handed = false) : SessionStep s .pass (s.pass words)
  | publishCompleted (words : List UInt32) (hholding : s.run.consumer = .holding words)
      (hhanded : s.handed = true) : SessionStep s .publishCompleted s.publish

/-- The states of a ring in every interleaving of its calls and its consumers. -/
inductive SessionReachable : RingSession → Prop where
  | constructed : SessionReachable .constructed
  | step {s s' : RingSession} {a : SessionAction} (hreachable : SessionReachable s)
      (hstep : SessionStep s a s') : SessionReachable s'

/-- The ring as if `init` had reset all three counters. -/
def RingSession.fresh (s : RingSession) : RingRun :=
  if s.published then s.run
  else { s.run with ring := { s.run.ring with completedCount := 0 } }

/-- The commands the processor has got are those read, but for one that is held or empty. -/
def RingSession.Passed (s : RingSession) : Prop :=
  match s.run.consumer with
  | .waiting => s.run.received = s.passed ∧ s.handed = false
  | .holding words =>
    if s.handed then s.run.received = s.passed else s.run.received = s.passed ++ [words]
  | .stopped => s.handed = false

/-- What holds of a session in which fewer than `2 ^ 64` words were written. -/
structure RingSession.Sound (s : RingSession) : Prop where
  size : (s.run.ring.size = 0 ∧ s.run.enqueued = []) ∨ ∃ k, s.run.ring.size.toNat = 2 ^ k
  consistent : s.fresh.Consistent
  passed : s.Passed
  stopped : s.run.consumer = .stopped →
    (s.run.ring.size = 0 ∧ s.run.enqueued = [] ∧ s.passed = []) ∨
      s.fresh.ring.completedCount < s.run.ring.readCount
  first : s.published = false → if s.handed then s.passed.length = 1 else s.passed = []

namespace RingSession

variable {s s' : RingSession}

variable {count : UInt32} {words : List UInt32}

theorem eq_two_pow_of_and (h : count &&& (count - 1) = 0) :
    count = 0 ∨ ∃ k, count.toNat = 2 ^ k := by
  by_cases hzero : count = 0
  · exact .inl hzero
  · have hne : count.toNat ≠ 0 := fun heq => hzero (UInt32.toNat_inj.mp heq)
    have hone : 1 ≤ count := by
      rw [UInt32.le_iff_toNat_le]
      exact Nat.pos_of_ne_zero hne
    have hand : count.toNat &&& (count.toNat - 1) = 0 := by
      have hnat := congrArg UInt32.toNat h
      rwa [UInt32.toNat_and, UInt32.toNat_sub_of_le _ _ hone] at hnat
    exact .inr ((Nat.and_sub_one_eq_zero_iff_isPowerOfTwo hne).mp hand)

theorem size_start (h : count &&& (count - 1) = 0) :
    ((s.start count).run.ring.size = 0 ∧ (s.start count).run.enqueued = []) ∨
      ∃ k, (s.start count).run.ring.size.toNat = 2 ^ k := by
  rcases eq_two_pow_of_and h with rfl | ⟨k, hk⟩
  · exact .inl ⟨rfl, rfl⟩
  · exact .inr ⟨k, (UInt32.toNat_toUInt64 count).trans hk⟩

theorem sound_start (h : count &&& (count - 1) = 0) : (s.start count).Sound := by
  constructor
  case size => exact size_start h
  case consistent =>
    exact ⟨List.prefix_rfl, nofun, rfl, rfl, UInt64.le_refl _, nofun, Nat.zero_le _, nofun⟩
  case passed => exact ⟨rfl, rfl⟩
  case stopped => exact nofun
  case first => exact fun _ => rfl

theorem sound_constructed : constructed.Sound := by
  constructor
  case size => exact .inl ⟨rfl, rfl⟩
  case consistent =>
    exact ⟨List.prefix_rfl, nofun, rfl, rfl, UInt64.le_refl _, nofun, Nat.zero_le _, nofun⟩
  case passed => exact rfl
  case stopped => exact fun _ => .inl ⟨rfl, rfl, rfl⟩
  case first => exact fun _ => rfl

theorem fresh_enqueueCommand (words : List UInt32) :
    { s with run := s.run.enqueueCommand words }.fresh = s.fresh.enqueueCommand words := by
  rw [fresh, fresh]
  split <;> rfl

theorem fresh_readCommand : { s with run := s.run.readCommand }.fresh = s.fresh.readCommand := by
  rw [fresh, fresh]
  split <;> rfl

theorem fresh_publish : s.publish.fresh = s.fresh.publishCompleted := by
  rw [fresh, fresh, publish, if_pos rfl]
  split <;> rfl

theorem fresh_eq (s : RingSession) :
    ∃ completedCount, s.fresh = { s.run with ring := { s.run.ring with completedCount } } := by
  rw [fresh]
  split
  · exact ⟨s.run.ring.completedCount, rfl⟩
  · exact ⟨0, rfl⟩

theorem exists_two_pow (h : s.Sound) {n : UInt32}
    (hroom : canEnqueueRingWords s.run.ring.writeCount s.run.ring.readCount s.run.ring.size n) :
    ∃ k, s.run.ring.size.toNat = 2 ^ k := by
  rcases h.size with ⟨hsize, hnone⟩ | hsize
  · obtain ⟨completedCount, hfresh⟩ := fresh_eq s
    have hconsistent := h.consistent
    rw [hfresh] at hconsistent
    have hwrite : s.run.ring.writeCount = 0 := by
      apply UInt64.toNat_inj.mp
      exact hconsistent.writeCount_eq.trans (by rw [hnone]; rfl)
    have hreceived : s.run.received = [] := by
      have hprefix := hconsistent.prefix_enqueued
      rw [hnone] at hprefix
      exact List.prefix_nil.mp hprefix
    have hread : s.run.ring.readCount = 0 := by
      apply UInt64.toNat_inj.mp
      exact hconsistent.readCount_eq.trans (by rw [hreceived]; rfl)
    rw [hwrite, hread, hsize, canEnqueueRingWords, UInt64.le_iff_toNat_le, UInt64.zero_add,
      UInt64.add_zero] at hroom
    have hlt := n.toNat_lt
    rw [toNat_add_one _ (by rw [UInt32.toNat_toUInt64]; omega)] at hroom
    exact absurd hroom (Nat.not_succ_le_zero _)
  · exact hsize

theorem exists_two_pow_of_unread (h : s.Sound)
    (hunread : s.run.ring.writeCount > s.run.ring.readCount) :
    ∃ k, s.run.ring.size.toNat = 2 ^ k := by
  rcases h.size with ⟨-, hnone⟩ | hsize
  · obtain ⟨completedCount, hfresh⟩ := fresh_eq s
    have hconsistent := h.consistent
    rw [hfresh] at hconsistent
    have hwrite : s.run.ring.writeCount.toNat = 0 :=
      hconsistent.writeCount_eq.trans (by rw [hnone]; rfl)
    rw [gt_iff_lt, UInt64.lt_iff_toNat_lt, hwrite] at hunread
    exact absurd hunread (Nat.not_lt_zero _)
  · exact hsize

theorem Sound.enqueueCommand (h : s.Sound) (hwords : words.length < 2 ^ 32)
    (hroom : canEnqueueRingWords s.run.ring.writeCount s.run.ring.readCount s.run.ring.size
      (UInt32.ofNat words.length))
    (hcount : (streamWords (s.run.enqueueCommand words).enqueued).length < 2 ^ 64) :
    { s with run := s.run.enqueueCommand words }.Sound := by
  obtain ⟨k, hsize⟩ := exists_two_pow h hroom
  obtain ⟨completedCount, hfresh⟩ := fresh_eq s
  constructor
  case size => exact .inr ⟨k, hsize⟩
  case consistent =>
    rw [fresh_enqueueCommand]
    have hconsistent := h.consistent
    rw [hfresh] at hconsistent ⊢
    exact hconsistent.enqueueCommand hsize hwords hroom hcount
  case passed => exact h.passed
  case stopped =>
    intro hstopped
    rcases h.stopped hstopped with ⟨hzero, -⟩ | hlt
    · rw [hzero] at hsize
      exact absurd hsize (Nat.two_pow_pos k).ne
    · rw [fresh_enqueueCommand]
      exact .inr hlt
  case first => exact h.first

theorem Sound.readCommand (h : s.Sound) (hwaiting : s.run.consumer = .waiting)
    (hunread : s.run.ring.writeCount > s.run.ring.readCount) :
    { s with run := s.run.readCommand }.Sound := by
  obtain ⟨k, hsize⟩ := exists_two_pow_of_unread h hunread
  obtain ⟨completedCount, hfresh⟩ := fresh_eq s
  have hpassed := h.passed
  rw [Passed, hwaiting] at hpassed
  constructor
  case size => exact .inr ⟨k, hsize⟩
  case consistent =>
    rw [fresh_readCommand]
    have hconsistent := h.consistent
    rw [hfresh] at hconsistent ⊢
    exact hconsistent.readCommand hsize hunread
  case passed =>
    rw [Passed, RingRun.readCommand]
    dsimp only
    by_cases hempty : (readRingCommand s.run.ring.mask s.run.ring.ring
        s.run.ring.readCount).1.isEmpty = true
    · rw [if_pos hempty]
      exact hpassed.2
    · rw [if_neg hempty]
      dsimp only
      rw [hpassed.2, hpassed.1]
      rfl
  case stopped =>
    intro _
    have hle := h.consistent.completedCount_le
    have hread := (h.consistent.readRingCommand_eq (by rw [hfresh]; exact hsize)
      (by rw [hfresh]; exact hunread))
    obtain ⟨words, rest, -, -, hend⟩ := hread
    rw [fresh_readCommand]
    rw [hfresh] at hle hend ⊢
    refine .inr ?_
    rw [UInt64.le_iff_toNat_le] at hle
    rw [UInt64.lt_iff_toNat_lt]
    exact hle.trans_lt (hend.symm ▸ (by dsimp only; omega))
  case first => exact h.first

theorem Sound.pass (h : s.Sound) (hholding : s.run.consumer = .holding words)
    (hhanded : s.handed = false) : (s.pass words).Sound := by
  have hpassed := h.passed
  rw [Passed, hholding, hhanded] at hpassed
  constructor
  case size => exact h.size
  case consistent =>
    have hconsistent := h.consistent
    rw [fresh] at hconsistent ⊢
    exact hconsistent
  case passed =>
    rw [Passed, RingSession.pass]
    dsimp only
    rw [hholding]
    exact hpassed
  case stopped => exact fun hstopped => absurd (hholding.symm.trans hstopped) nofun
  case first =>
    intro hpublished
    have hfirst := h.first hpublished
    rw [hhanded] at hfirst
    rw [RingSession.pass, if_pos rfl, List.length_append, (hfirst : s.passed = [])]
    rfl

theorem Sound.publish (h : s.Sound) (hholding : s.run.consumer = .holding words)
    (hhanded : s.handed = true) : s.publish.Sound := by
  have hpassed := h.passed
  rw [Passed, hholding, hhanded] at hpassed
  constructor
  case size => exact h.size
  case consistent =>
    rw [fresh_publish]
    exact h.consistent.publishCompleted
  case passed => exact ⟨hpassed, rfl⟩
  case stopped => exact nofun
  case first => exact fun hpublished => absurd hpublished (Bool.noConfusion)

theorem Sound.step {a : SessionAction} (h : s.Sound) (hstep : SessionStep s a s')
    (hcount : (streamWords s'.run.enqueued).length < 2 ^ 64) : s'.Sound := by
  cases hstep with
  | init count _ hpower => exact sound_start hpower
  | teardown _ _ hroom =>
    have hnil : ([] : List UInt32).length < 2 ^ 32 := by decide
    have hsound := h.enqueueCommand hnil hroom hcount
    exact ⟨hsound.size, hsound.consistent, hsound.passed, hsound.stopped, hsound.first⟩
  | join count _ _ hpower => exact sound_start hpower
  | enqueueCommand words _ hwords hroom => exact h.enqueueCommand hwords hroom hcount
  | drain _ _ => exact h
  | readCommand hwaiting hunread => exact h.readCommand hwaiting hunread
  | metaIdle _ _ => exact h
  | pass words hholding hhanded => exact h.pass hholding hhanded
  | publishCompleted words hholding hhanded => exact h.publish hholding hhanded

theorem enqueued_step {a : SessionAction} (hstep : SessionStep s a s') :
    (∃ count : UInt32, count &&& (count - 1) = 0 ∧ s' = s.start count) ∨
      s.run.enqueued <+: s'.run.enqueued := by
  cases hstep with
  | init count _ hcount => exact .inl ⟨count, hcount, rfl⟩
  | join count _ _ hcount => exact .inl ⟨count, hcount, rfl⟩
  | teardown _ _ _ => exact .inr (List.prefix_append ..)
  | enqueueCommand words _ _ _ => exact .inr (List.prefix_append ..)
  | _ => exact .inr List.prefix_rfl

end RingSession

variable {s : RingSession}

theorem SessionReachable.sound (h : SessionReachable s)
    (hcount : (streamWords s.run.enqueued).length < 2 ^ 64) : s.Sound := by
  induction h with
  | constructed => exact RingSession.sound_constructed
  | step hreachable hstep ih =>
    rcases RingSession.enqueued_step hstep with ⟨count, hpower, rfl⟩ | hprefix
    · exact RingSession.sound_start hpower
    · exact (ih ((length_streamWords_le hprefix).trans_lt hcount)).step hstep hcount

/-- The command handed to the processor is the only one written since the last `init`. -/
def RingSession.HandedOnly (s : RingSession) : Prop :=
  s.handed = true ∧ s.run.enqueued.length = 1

theorem RingSession.Sound.passed_of_none (h : s.Sound) (hnone : s.run.enqueued = []) :
    s.passed = [] := by
  obtain ⟨completedCount, hfresh⟩ := RingSession.fresh_eq s
  have hconsistent := h.consistent
  have hpassed := h.passed
  have hstopped := h.stopped
  rw [hfresh] at hconsistent hstopped
  have hreceived : s.run.received = [] := by
    have hprefix := hconsistent.prefix_enqueued
    rw [hnone] at hprefix
    exact List.prefix_nil.mp hprefix
  rw [Passed, hreceived] at hpassed
  cases hconsumer : s.run.consumer with
  | waiting =>
    rw [hconsumer] at hpassed
    exact hpassed.1.symm
  | holding words =>
    rw [hconsumer] at hpassed
    dsimp only at hpassed
    split_ifs at hpassed
    · exact hpassed.symm
    · exact absurd hpassed.symm (List.append_ne_nil_of_right_ne_nil _ (List.cons_ne_nil _ _))
  | stopped =>
    rcases hstopped hconsumer with ⟨-, -, hnil⟩ | hlt
    · exact hnil
    · have hread : s.run.ring.readCount.toNat = 0 :=
        hconsistent.readCount_eq.trans (by rw [hreceived]; rfl)
      rw [UInt64.lt_iff_toNat_lt, hread] at hlt
      exact absurd hlt (Nat.not_lt_zero _)

theorem RingSession.Sound.passed_of_published (h : s.Sound) (hpublished : s.published = true)
    (hcompleted : s.run.ring.writeCount = s.run.ring.completedCount) :
    s.passed = s.run.enqueued := by
  have hfresh : s.fresh = s.run := if_pos hpublished
  have hconsistent := h.consistent
  have hpassed := h.passed
  have hstopped := h.stopped
  rw [hfresh] at hconsistent hstopped
  obtain ⟨hreceived, hholding⟩ := hconsistent.drained hcompleted
  rw [Passed] at hpassed
  cases hconsumer : s.run.consumer with
  | waiting =>
    rw [hconsumer] at hpassed
    exact hpassed.1.symm.trans hreceived
  | holding words => exact absurd hconsumer (hholding words)
  | stopped =>
    rcases hstopped hconsumer with ⟨-, hnone, hnil⟩ | hlt
    · rw [hnone, hnil]
    · have hread : s.run.ring.readCount.toNat = s.run.ring.writeCount.toNat := by
        rw [hconsistent.readCount_eq, hconsistent.writeCount_eq, hreceived]
      rw [UInt64.lt_iff_toNat_lt, hread, hcompleted] at hlt
      exact absurd hlt (Nat.lt_irrefl _)

theorem RingSession.Sound.passed_of_handedOnly (h : s.Sound) (hpublished : s.published = false)
    (honly : s.HandedOnly) : s.passed = s.run.enqueued := by
  obtain ⟨completedCount, hfresh⟩ := RingSession.fresh_eq s
  have hprefix := h.consistent.prefix_enqueued
  have hpassed := h.passed
  have hfirst := h.first hpublished
  rw [hfresh] at hprefix
  rw [if_pos honly.1] at hfirst
  rw [Passed, honly.1] at hpassed
  have hreceived : s.run.received = s.passed := by
    cases hconsumer : s.run.consumer with
    | waiting =>
      rw [hconsumer] at hpassed
      exact hpassed.1
    | holding words =>
      rw [hconsumer] at hpassed
      exact hpassed
    | stopped =>
      rw [hconsumer] at hpassed
      exact absurd hpassed (Bool.noConfusion)
  rw [← hreceived] at hfirst ⊢
  exact hprefix.eq_of_length (hfirst.trans honly.2.symm)

/-- When `drain` returns, everything written since the last `init` has been handed to the
processor exactly when the completed count has been stored since, or nothing has been written,
or only the command that the processor has just got. -/
theorem drain_means_drained_iff {s s' : RingSession} (h : SessionReachable s)
    (hdrain : SessionStep s .drain s') (hcount : (streamWords s.run.enqueued).length < 2 ^ 64) :
    s'.passed = s'.run.enqueued ↔
      s.published = true ∨ s.run.enqueued = [] ∨ s.HandedOnly := by
  cases hdrain with | drain hending hcompleted =>
  have hsound := h.sound hcount
  constructor
  · intro hpassed
    cases hpublished : s.published with
    | true => exact .inl rfl
    | false =>
      have hfirst := hsound.first hpublished
      cases hhanded : s.handed with
      | true =>
        rw [if_pos hhanded, hpassed] at hfirst
        exact .inr (.inr ⟨hhanded, hfirst⟩)
      | false =>
        rw [if_neg (Bool.not_eq_true _ ▸ hhanded), hpassed] at hfirst
        exact .inr (.inl hfirst)
  · rintro (hpublished | hnone | honly)
    · exact hsound.passed_of_published hpublished hcompleted
    · rw [hnone]
      exact hsound.passed_of_none hnone
    · cases hpublished : s.published with
      | true => exact hsound.passed_of_published hpublished hcompleted
      | false => exact hsound.passed_of_handedOnly hpublished honly

def RingSession.write (s : RingSession) (words : List UInt32) : RingSession :=
  { s with run := s.run.enqueueCommand words }

def RingSession.read (s : RingSession) : RingSession := { s with run := s.run.readCommand }

def RingSession.round (s : RingSession) (words : List UInt32) : RingSession :=
  ((s.write words).read.pass words).publish

def usedRing : RingSession := ((RingSession.constructed.start 4).round [7]).endThread.read.start 4

theorem usedRing_first : SessionReachable ((RingSession.constructed.start 4).round [7]) := by
  have hinit : SessionReachable (RingSession.constructed.start 4) :=
    .step .constructed (.init 4 rfl (by decide))
  have hwrite : SessionReachable ((RingSession.constructed.start 4).write [7]) :=
    hinit.step (.enqueueCommand [7] rfl (by decide) (by decide))
  have hread := hwrite.step (.readCommand rfl (by decide))
  have hpass := hread.step (.pass [7] rfl rfl)
  exact hpass.step (.publishCompleted [7] rfl rfl)

theorem usedRing_reachable : SessionReachable usedRing := by
  have hending : SessionReachable ((RingSession.constructed.start 4).round [7]).endThread :=
    usedRing_first.step (.teardown rfl rfl (by decide))
  have hstopped := hending.step (.readCommand rfl (by decide))
  exact hstopped.step (.join 4 rfl rfl (by decide))

/-- In the second session a command that is completed has been handed to the processor when the
drain returns. -/
theorem usedRing_round_drained : (usedRing.round [8]).passed = [[8]] := by
  have hwrite : SessionReachable (usedRing.write [8]) :=
    usedRing_reachable.step (.enqueueCommand [8] rfl (by decide) (by decide))
  have hread := hwrite.step (.readCommand rfl (by decide))
  have hpass := hread.step (.pass [8] rfl rfl)
  have hpublish : SessionReachable (usedRing.round [8]) :=
    hpass.step (.publishCompleted [8] rfl rfl)
  have hdrain : SessionStep (usedRing.round [8]) .drain (usedRing.round [8]) := .drain rfl (by decide)
  exact (drain_means_drained_iff hpublish hdrain (by decide)).mpr (.inl rfl)

/-- In the second session a drain returns although the processor has got nothing: the completed
count is that of the first session. -/
theorem usedRing_write_not_drained :
    ¬ ∀ s s' : RingSession, SessionReachable s → SessionStep s .drain s' →
      s'.passed = s'.run.enqueued := by
  intro hall
  have hwrite : SessionReachable (usedRing.write [8]) :=
    usedRing_reachable.step (.enqueueCommand [8] rfl (by decide) (by decide))
  have hdrain : SessionStep (usedRing.write [8]) .drain (usedRing.write [8]) := .drain rfl (by decide)
  exact absurd (hall _ _ hwrite hdrain) (by decide)

end ParallelN64.Rdp
