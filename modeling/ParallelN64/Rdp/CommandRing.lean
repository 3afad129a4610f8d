import Mathlib.Data.UInt
import ParallelN64.Core.Window

/-!
# The command ring

Producers write each command behind its length word into a ring of words, and the
consumer thread reads whole commands back. Both counters only grow, and a count is
reduced to a ring index by a mask.
-/

namespace ParallelN64.Rdp

open ParallelN64.Core

def canEnqueueRingWords (writeCount readCount ringSize : UInt64) (numWords : UInt32) : Prop :=
  writeCount + numWords.toUInt64 + 1 ≤ readCount + ringSize

instance (writeCount readCount ringSize : UInt64) (numWords : UInt32) :
    Decidable (canEnqueueRingWords writeCount readCount ringSize numWords) :=
  inferInstanceAs (Decidable (_ ≤ _))

def ringIndex (mask count : UInt64) : Nat := (count &&& mask).toNat

/-- Write words to the ring one after the other. -/
def writeRingWords (mask : UInt64) :
    (Nat → UInt32) → UInt64 → List UInt32 → (Nat → UInt32) × UInt64
  | ring, writeCount, [] => (ring, writeCount)
  | ring, writeCount, word :: words =>
    writeRingWords mask (Function.update ring (ringIndex mask writeCount) word) (writeCount + 1) words

/-- Write a command: its number of words, then the words. -/
def writeRingCommand (mask : UInt64) (ring : Nat → UInt32) (writeCount : UInt64)
    (words : List UInt32) : (Nat → UInt32) × UInt64 :=
  let numWords := UInt32.ofNat words.length
  writeRingWords mask (Function.update ring (ringIndex mask writeCount) numWords) (writeCount + 1)
    words

/-- Read words from the ring one after the other. -/
def readRingWords (mask : UInt64) (ring : Nat → UInt32) : UInt64 → Nat → List UInt32 × UInt64
  | readCount, 0 => ([], readCount)
  | readCount, count + 1 =>
    let rest := readRingWords mask ring (readCount + 1) count
    (ring (ringIndex mask readCount) :: rest.1, rest.2)

def readRingCommand (mask : UInt64) (ring : Nat → UInt32) (readCount : UInt64) :
    List UInt32 × UInt64 :=
  let numWords := ring (ringIndex mask readCount)
  readRingWords mask ring (readCount + 1) numWords.toNat

/-- The ring, its counters and its size. -/
structure CommandRing where
  ring : Nat → UInt32
  size : UInt64
  writeCount : UInt64 := 0
  readCount : UInt64 := 0
  completedCount : UInt64 := 0

def CommandRing.mask (ring : CommandRing) : UInt64 := ring.size - 1

/-- What the consumer thread is doing: waiting for the lock, holding a command that it has read
and not completed, or stopped by an empty command. -/
inductive Consumer where
  | waiting
  | holding (words : List UInt32)
  | stopped

/-- The ring and its consumer, with the commands enqueued and read so far. -/
structure RingRun where
  ring : CommandRing
  consumer : Consumer := .waiting
  enqueued : List (List UInt32) := []
  received : List (List UInt32) := []

/-- A producer writes a command to the ring. -/
def RingRun.enqueueCommand (s : RingRun) (words : List UInt32) : RingRun :=
  let written := writeRingCommand s.ring.mask s.ring.ring s.ring.writeCount words
  { s with
    ring := { s.ring with ring := written.1, writeCount := written.2 }
    enqueued := s.enqueued ++ [words] }

/-- The consumer reads a command from the ring; an empty one stops it. -/
def RingRun.readCommand (s : RingRun) : RingRun :=
  let read := readRingCommand s.ring.mask s.ring.ring s.ring.readCount
  { s with
    ring := { s.ring with readCount := read.2 }
    consumer := if read.1.isEmpty then .stopped else .holding read.1
    received := s.received ++ [read.1] }

def RingRun.publishCompleted (s : RingRun) : RingRun :=
  { s with ring := { s.ring with completedCount := s.ring.readCount }, consumer := .waiting }

/-- A critical section of a producer or of the consumer thread. -/
inductive RingStep (s : RingRun) : RingRun → Prop where
  /-- A producer waits for room and enqueues a command. -/
  | enqueueCommand (words : List UInt32) (hwords : words.length < 2 ^ 32)
      (hroom : canEnqueueRingWords s.ring.writeCount s.ring.readCount s.ring.size
        (UInt32.ofNat words.length)) :
      RingStep s (s.enqueueCommand words)
  /-- The consumer waits for a command and reads it. -/
  | readCommand (hwaiting : s.consumer = .waiting) (hunread : s.ring.writeCount > s.ring.readCount) :
      RingStep s s.readCommand
  /-- The wait of the consumer times out and it tells the processor that it is idle. -/
  | metaIdle (hwaiting : s.consumer = .waiting) (hnone : ¬s.ring.writeCount > s.ring.readCount) :
      RingStep s s
  /-- The consumer has handed its command to the processor. -/
  | publishCompleted (words : List UInt32) (hholding : s.consumer = .holding words) :
      RingStep s s.publishCompleted

/-- The runs that `init` starts with some buffer contents and a size. -/
inductive RingReachable (ring : Nat → UInt32) (size : UInt64) : RingRun → Prop where
  | init : RingReachable ring size { ring := { ring, size } }
  | step {s s' : RingRun} (hreachable : RingReachable ring size s) (hstep : RingStep s s') :
      RingReachable ring size s'

variable {size : UInt64} {k : Nat} {s : RingRun}

theorem ringIndex_eq (hsize : size.toNat = 2 ^ k) (count : UInt64) :
    ringIndex (size - 1) count = count.toNat % size.toNat := by
  have hpos : 0 < 2 ^ k := Nat.two_pow_pos k
  have hone : (1 : UInt64) ≤ size := by
    rw [UInt64.le_iff_toNat_le, hsize]
    exact hpos
  rw [ringIndex, UInt64.toNat_and, UInt64.toNat_sub_of_le _ _ hone, hsize]
  exact Nat.and_two_pow_sub_one_eq_mod _ k

theorem toNat_add_one (count : UInt64) (h : count.toNat + 1 < 2 ^ 64) :
    (count + 1).toNat = count.toNat + 1 := by
  rw [UInt64.toNat_add]
  exact Nat.mod_eq_of_lt h

theorem writeRingWords_eq (hsize : size.toNat = 2 ^ k) (ring : Nat → UInt32) (writeCount : UInt64)
    (words : List UInt32) (hcount : writeCount.toNat + words.length < 2 ^ 64) :
    (writeRingWords (size - 1) ring writeCount words).1 =
        writeFrom size.toNat ring writeCount.toNat words ∧
      (writeRingWords (size - 1) ring writeCount words).2.toNat =
        writeCount.toNat + words.length := by
  induction words generalizing ring writeCount with
  | nil => exact ⟨rfl, rfl⟩
  | cons word words ih =>
    rw [List.length_cons] at hcount
    have hnext := toNat_add_one writeCount (by omega)
    obtain ⟨hring, hend⟩ := ih (Function.update ring (ringIndex (size - 1) writeCount) word)
      (writeCount + 1) (by omega)
    rw [writeRingWords, writeFrom]
    refine ⟨?_, ?_⟩
    · rw [hring, hnext, ringIndex_eq hsize]
    · rw [hend, hnext, List.length_cons]
      omega

theorem readRingWords_eq (hsize : size.toNat = 2 ^ k) (ring : Nat → UInt32) (readCount : UInt64)
    (count : Nat) (hcount : readCount.toNat + count < 2 ^ 64) :
    (readRingWords (size - 1) ring readCount count).1 =
        readFrom size.toNat ring readCount.toNat count ∧
      (readRingWords (size - 1) ring readCount count).2.toNat = readCount.toNat + count := by
  induction count generalizing readCount with
  | zero => exact ⟨rfl, rfl⟩
  | succ count ih =>
    have hnext := toNat_add_one readCount (by omega)
    obtain ⟨hwords, hend⟩ := ih (readCount + 1) (by omega)
    rw [readRingWords, readFrom]
    refine ⟨?_, ?_⟩
    · rw [hwords, hnext, ringIndex_eq hsize]
    · rw [hend, hnext]
      omega

def commandWords (words : List UInt32) : List UInt32 := UInt32.ofNat words.length :: words

def streamWords (commands : List (List UInt32)) : List UInt32 := commands.flatMap commandWords

@[simp] theorem length_commandWords (words : List UInt32) :
    (commandWords words).length = words.length + 1 := rfl

@[simp] theorem streamWords_append (commands commands' : List (List UInt32)) :
    streamWords (commands ++ commands') = streamWords commands ++ streamWords commands' :=
  List.flatMap_append ..

@[simp] theorem streamWords_singleton (words : List UInt32) :
    streamWords [words] = commandWords words :=
  List.append_nil _

theorem streamWords_eq_nil {commands : List (List UInt32)} (hnil : streamWords commands = []) :
    commands = [] := by
  cases commands with
  | nil => rfl
  | cons words commands => exact absurd hnil (List.cons_ne_nil _ _)

theorem writeRingCommand_eq (mask : UInt64) (ring : Nat → UInt32) (writeCount : UInt64)
    (words : List UInt32) :
    writeRingCommand mask ring writeCount words =
      writeRingWords mask ring writeCount (commandWords words) := rfl

/-- What holds in a run whose counters have not wrapped around. -/
structure RingRun.Consistent (s : RingRun) : Prop where
  prefix_enqueued : s.received <+: s.enqueued
  length_lt : ∀ words ∈ s.enqueued, words.length < 2 ^ 32
  writeCount_eq : s.ring.writeCount.toNat = (streamWords s.enqueued).length
  readCount_eq : s.ring.readCount.toNat = (streamWords s.received).length
  completedCount_le : s.ring.completedCount ≤ s.ring.readCount
  completedCount_lt : ∀ words, s.consumer = .holding words → s.ring.completedCount < s.ring.readCount
  writeCount_le : s.ring.writeCount.toNat ≤ s.ring.readCount.toNat + s.ring.size.toNat
  window : Window s.ring.size.toNat s.ring.ring (streamWords s.enqueued) s.ring.readCount.toNat

theorem CommandRing.room_of_canEnqueue {ring : CommandRing} {words : List UInt32}
    (hwords : words.length < 2 ^ 32) (hcount : ring.writeCount.toNat + words.length + 1 < 2 ^ 64)
    (hroom : canEnqueueRingWords ring.writeCount ring.readCount ring.size
      (UInt32.ofNat words.length)) :
    ring.writeCount.toNat + words.length + 1 ≤ ring.readCount.toNat + ring.size.toNat := by
  have hlength : (UInt32.ofNat words.length).toUInt64.toNat = words.length := by
    rw [UInt32.toNat_toUInt64, UInt32.toNat_ofNat']
    exact Nat.mod_eq_of_lt hwords
  have hleft : (ring.writeCount + (UInt32.ofNat words.length).toUInt64 + 1).toNat =
      ring.writeCount.toNat + words.length + 1 := by
    rw [toNat_add_one, UInt64.toNat_add, hlength, Nat.mod_eq_of_lt (by omega)]
    rw [UInt64.toNat_add, hlength, Nat.mod_eq_of_lt (by omega)]
    omega
  have hright : (ring.readCount + ring.size).toNat ≤ ring.readCount.toNat + ring.size.toNat := by
    rw [UInt64.toNat_add]
    exact Nat.mod_le ..
  rw [canEnqueueRingWords, UInt64.le_iff_toNat_le, hleft] at hroom
  omega

section Steps

variable {s : RingRun} {k : Nat}

theorem RingRun.Consistent.enqueueCommand (hs : s.Consistent) (hsize : s.ring.size.toNat = 2 ^ k)
    {words : List UInt32} (hwords : words.length < 2 ^ 32)
    (hroom : canEnqueueRingWords s.ring.writeCount s.ring.readCount s.ring.size
      (UInt32.ofNat words.length))
    (hcount : (streamWords (s.enqueued ++ [words])).length < 2 ^ 64) :
    (s.enqueueCommand words).Consistent := by
  rw [streamWords_append, streamWords_singleton, List.length_append, length_commandWords,
    ← hs.writeCount_eq] at hcount
  have hfits := CommandRing.room_of_canEnqueue hwords (by omega) hroom
  obtain ⟨hring, hend⟩ := writeRingWords_eq hsize s.ring.ring s.ring.writeCount
    (commandWords words) (by rw [length_commandWords]; omega)
  have hwindow := hs.window.write (commandWords words)
    (by rw [← hs.writeCount_eq, length_commandWords]; omega)
  rw [← hs.writeCount_eq] at hwindow
  rw [RingRun.enqueueCommand]
  refine ⟨hs.prefix_enqueued.trans (List.prefix_append ..), ?_, ?_, hs.readCount_eq,
    hs.completedCount_le, hs.completedCount_lt, ?_, ?_⟩
  · intro words' hmem
    cases List.mem_append.mp hmem with
    | inl hold => exact hs.length_lt words' hold
    | inr hnew => exact (List.mem_singleton.mp hnew) ▸ hwords
  · dsimp only
    rw [writeRingCommand_eq, CommandRing.mask, hend, streamWords_append, streamWords_singleton,
      List.length_append, hs.writeCount_eq]
  · dsimp only
    rw [writeRingCommand_eq, CommandRing.mask, hend, length_commandWords]
    omega
  · dsimp only
    rw [writeRingCommand_eq, CommandRing.mask, hring, streamWords_append, streamWords_singleton]
    exact hwindow

theorem RingRun.Consistent.readRingCommand_eq (hs : s.Consistent)
    (hsize : s.ring.size.toNat = 2 ^ k) (hunread : s.ring.writeCount > s.ring.readCount) :
    ∃ words rest, s.enqueued = s.received ++ words :: rest ∧
      (readRingCommand s.ring.mask s.ring.ring s.ring.readCount).1 = words ∧
      (readRingCommand s.ring.mask s.ring.ring s.ring.readCount).2.toNat =
        s.ring.readCount.toNat + (words.length + 1) := by
  obtain ⟨unread, hunread'⟩ := hs.prefix_enqueued
  cases unread with
  | nil =>
    rw [List.append_nil] at hunread'
    rw [gt_iff_lt, UInt64.lt_iff_toNat_lt, hs.writeCount_eq, hs.readCount_eq, hunread'] at hunread
    exact absurd hunread (Nat.lt_irrefl _)
  | cons words rest =>
    refine ⟨words, rest, hunread'.symm, ?_⟩
    have hlength := hs.length_lt words (by rw [← hunread']; simp)
    have hstream : streamWords s.enqueued =
        streamWords s.received ++ commandWords words ++ streamWords rest := by
      rw [← hunread', streamWords_append, List.append_assoc]
      rfl
    have hbound : s.ring.readCount.toNat + (words.length + 1) < 2 ^ 64 := by
      have hlast := s.ring.writeCount.toNat_lt
      have hle := congrArg List.length hstream
      rw [List.length_append, List.length_append, length_commandWords, ← hs.writeCount_eq,
        ← hs.readCount_eq] at hle
      omega
    have hwindow := hs.window
    rw [hstream] at hwindow
    have hread := hwindow.read (by rw [hs.readCount_eq])
    rw [← hs.readCount_eq, length_commandWords, readFrom, commandWords] at hread
    obtain ⟨hhead, htail⟩ := List.cons.inj hread
    have hnumWords : (s.ring.ring (ringIndex s.ring.mask s.ring.readCount)).toNat = words.length := by
      rw [CommandRing.mask, ringIndex_eq hsize, hhead, UInt32.toNat_ofNat']
      exact Nat.mod_eq_of_lt hlength
    have hnext := toNat_add_one s.ring.readCount (by omega)
    obtain ⟨hwords, hend⟩ := readRingWords_eq hsize s.ring.ring
      (s.ring.readCount + 1) words.length (by omega)
    rw [readRingCommand, hnumWords, CommandRing.mask, hwords, hend, hnext, htail]
    exact ⟨rfl, by omega⟩

theorem RingRun.Consistent.readCommand (hs : s.Consistent) (hsize : s.ring.size.toNat = 2 ^ k)
    (hunread : s.ring.writeCount > s.ring.readCount) : s.readCommand.Consistent := by
  obtain ⟨words, rest, henqueued, hwords, hend⟩ := hs.readRingCommand_eq hsize hunread
  have hwrite := hs.writeCount_le
  have hcompleted := UInt64.le_iff_toNat_le.mp hs.completedCount_le
  simp only [RingRun.readCommand, hwords]
  refine ⟨?_, hs.length_lt, hs.writeCount_eq, ?_, ?_, ?_, ?_, ?_⟩
  · exact ⟨rest, by rw [henqueued, List.append_assoc, List.singleton_append]⟩
  · dsimp only
    rw [hend, streamWords_append, streamWords_singleton, List.length_append, hs.readCount_eq,
      length_commandWords]
  · dsimp only
    rw [UInt64.le_iff_toNat_le, hend]
    omega
  · intro _ _
    dsimp only
    rw [UInt64.lt_iff_toNat_lt, hend]
    omega
  · dsimp only
    omega
  · exact hs.window.mono (by dsimp only; omega)

theorem RingRun.Consistent.publishCompleted (hs : s.Consistent) :
    s.publishCompleted.Consistent :=
  { hs with
    completedCount_le := UInt64.le_refl _
    completedCount_lt := nofun }

variable {s' : RingRun}

theorem RingStep.frame (hstep : RingStep s s') :
    s'.ring.size = s.ring.size ∧ s.enqueued <+: s'.enqueued := by
  cases hstep with
  | enqueueCommand => exact ⟨rfl, List.prefix_append ..⟩
  | readCommand => exact ⟨rfl, List.prefix_rfl⟩
  | metaIdle => exact ⟨rfl, List.prefix_rfl⟩
  | publishCompleted => exact ⟨rfl, List.prefix_rfl⟩

theorem RingRun.Consistent.unread_eq (hs : s.Consistent) (hsize : s.ring.size.toNat = 2 ^ k)
    (hstep : RingStep s s') (hcount : (streamWords s'.enqueued).length < 2 ^ 64) {pos : Nat}
    (hread : s.ring.readCount.toNat ≤ pos) (hwrite : pos < s.ring.writeCount.toNat) :
    s'.ring.ring (pos % s.ring.size.toNat) = s.ring.ring (pos % s.ring.size.toNat) := by
  cases hstep with
  | enqueueCommand words hwords hroom =>
    rw [RingRun.enqueueCommand, streamWords_append, streamWords_singleton, List.length_append, length_commandWords,
      ← hs.writeCount_eq] at hcount
    have hfits := CommandRing.room_of_canEnqueue hwords (by omega) hroom
    have hring := (writeRingWords_eq hsize s.ring.ring s.ring.writeCount
      (commandWords words) (by rw [length_commandWords]; omega)).1
    rw [RingRun.enqueueCommand, writeRingCommand_eq, CommandRing.mask, hring]
    exact writeFrom_of_lt _ _ _ hwrite (by rw [length_commandWords]; omega)
  | readCommand => rfl
  | metaIdle => rfl
  | publishCompleted => rfl

theorem RingRun.Consistent.step (hs : s.Consistent) (hsize : s.ring.size.toNat = 2 ^ k)
    (hstep : RingStep s s') (hcount : (streamWords s'.enqueued).length < 2 ^ 64) :
    s'.Consistent := by
  cases hstep with
  | enqueueCommand words hwords hroom => exact hs.enqueueCommand hsize hwords hroom hcount
  | readCommand _ hunread => exact hs.readCommand hsize hunread
  | metaIdle => exact hs
  | publishCompleted => exact hs.publishCompleted

end Steps

theorem length_streamWords_le {commands commands' : List (List UInt32)}
    (hcommands : commands <+: commands') :
    (streamWords commands).length ≤ (streamWords commands').length := by
  obtain ⟨rest, rfl⟩ := hcommands
  rw [streamWords_append, List.length_append]
  omega

theorem RingReachable.size_eq {ring : Nat → UInt32} (hreachable : RingReachable ring size s) :
    s.ring.size = size := by
  induction hreachable with
  | init => rfl
  | step _ hstep ih => rw [hstep.frame.1, ih]

theorem RingReachable.consistent {ring : Nat → UInt32} (hsize : size.toNat = 2 ^ k)
    (hreachable : RingReachable ring size s) (hcount : (streamWords s.enqueued).length < 2 ^ 64) :
    s.Consistent := by
  induction hreachable with
  | init =>
    exact ⟨List.prefix_rfl, nofun, rfl, rfl, UInt64.le_refl _, nofun, Nat.zero_le _, nofun⟩
  | step hreachable hstep ih =>
    have hle := length_streamWords_le hstep.frame.2
    exact (ih (by omega)).step (by rw [hreachable.size_eq, hsize]) hstep hcount

/-- The ring is a FIFO in every interleaving of its producers and its consumer, as long as fewer
than `2 ^ 64` words have been written: the counters are ordered and at most the size apart, every
unread word is in the ring and the next step does not overwrite it, and the commands read are the
first ones enqueued, with the same words. -/
theorem RingReachable.fifo {ring : Nat → UInt32} {size : UInt64} {k : Nat}
    (hsize : size.toNat = 2 ^ k) {s : RingRun} (hreachable : RingReachable ring size s)
    (hcount : (streamWords s.enqueued).length < 2 ^ 64) :
    s.ring.completedCount ≤ s.ring.readCount ∧
      s.ring.readCount ≤ s.ring.writeCount ∧
      s.ring.writeCount.toNat ≤ s.ring.readCount.toNat + size.toNat ∧
      s.received <+: s.enqueued ∧
      s.ring.writeCount.toNat = (streamWords s.enqueued).length ∧
      (∀ pos, s.ring.readCount.toNat ≤ pos → ∀ h : pos < (streamWords s.enqueued).length,
        s.ring.ring (pos % size.toNat) = (streamWords s.enqueued)[pos]) ∧
      ∀ s', RingStep s s' → (streamWords s'.enqueued).length < 2 ^ 64 →
        ∀ pos, s.ring.readCount.toNat ≤ pos → pos < s.ring.writeCount.toNat →
          s'.ring.ring (pos % size.toNat) = s.ring.ring (pos % size.toNat) := by
  have hs := hreachable.consistent hsize hcount
  have hwindow := hs.window
  have hwrite := hs.writeCount_le
  rw [hreachable.size_eq] at hwindow hwrite
  refine ⟨hs.completedCount_le, ?_, hwrite, hs.prefix_enqueued, hs.writeCount_eq, hwindow, ?_⟩
  · rw [UInt64.le_iff_toNat_le, hs.readCount_eq, hs.writeCount_eq]
    exact length_streamWords_le hs.prefix_enqueued
  · intro s' hstep hcount' pos hread hpos
    have hunread := hs.unread_eq (by rw [hreachable.size_eq, hsize]) hstep hcount' hread hpos
    rwa [hreachable.size_eq] at hunread

/-- A command of one word enqueued in a ring of two words and read back by the consumer. -/
def oneCommandRun : RingRun where
  ring :=
    { ring := Function.update (Function.update (fun _ => 0) 0 1) 1 7
      size := 2
      writeCount := 2
      readCount := 2 }
  consumer := .holding [7]
  enqueued := [[7]]
  received := [[7]]

theorem oneCommandRun_reachable : RingReachable (fun _ => 0) 2 oneCommandRun := by
  have hinit : RingReachable (fun _ => 0) 2 { ring := { ring := fun _ => 0, size := 2 } } := .init
  have henqueue := hinit.step (.enqueueCommand [7] (by decide) (by decide))
  have hread := henqueue.step (.readCommand rfl (by decide))
  exact hread

/-- In that run the consumer has read exactly the command enqueued. -/
theorem oneCommandRun_fifo : oneCommandRun.received <+: oneCommandRun.enqueued ∧
    oneCommandRun.ring.readCount ≤ oneCommandRun.ring.writeCount :=
  have hfifo := RingReachable.fifo (k := 1) rfl oneCommandRun_reachable (by decide)
  ⟨hfifo.2.2.2.1, hfifo.2.1⟩

theorem RingRun.Consistent.drained (hs : s.Consistent)
    (hdrained : s.ring.writeCount = s.ring.completedCount) :
    s.received = s.enqueued ∧ ∀ words, s.consumer ≠ .holding words := by
  have hcompleted := UInt64.le_iff_toNat_le.mp hs.completedCount_le
  have hle := length_streamWords_le hs.prefix_enqueued
  rw [← hs.writeCount_eq, ← hs.readCount_eq, hdrained] at hle
  refine ⟨?_, ?_⟩
  · obtain ⟨unread, hunread⟩ := hs.prefix_enqueued
    have hlength := congrArg List.length (congrArg streamWords hunread)
    rw [streamWords_append, List.length_append, ← hs.writeCount_eq, ← hs.readCount_eq,
      hdrained] at hlength
    have hnil : streamWords unread = [] := List.eq_nil_of_length_eq_zero (by omega)
    rw [← hunread, streamWords_eq_nil hnil, List.append_nil]
  · intro words hholding
    have hlt := UInt64.lt_iff_toNat_lt.mp (hs.completedCount_lt words hholding)
    omega

theorem canEnqueueRingWords_two (count : UInt64) : canEnqueueRingWords count count 2 1 := by
  rw [canEnqueueRingWords, UInt64.add_assoc]
  exact UInt64.le_refl _

theorem RingRun.Consistent.writeCount_eq_readCount (hs : s.Consistent)
    (hreceived : s.received = s.enqueued) : s.ring.writeCount = s.ring.readCount := by
  apply UInt64.toNat_inj.mp
  rw [hs.writeCount_eq, hs.readCount_eq, hreceived]

theorem exists_reachable_rounds {rounds : Nat} (hrounds : rounds < 2 ^ 63) :
    ∃ s, RingReachable (fun _ => 0) 2 s ∧ s.consumer = .waiting ∧ s.received = s.enqueued ∧
      (streamWords s.enqueued).length = 2 * rounds := by
  induction rounds with
  | zero => exact ⟨_, .init, rfl, rfl, rfl⟩
  | succ rounds ih =>
    obtain ⟨s, hreachable, hwaiting, hreceived, hlength⟩ := ih (by omega)
    have hsize : s.ring.size.toNat = 2 ^ 1 := by
      rw [hreachable.size_eq]
      rfl
    have hs := hreachable.consistent (k := 1) rfl (by omega)
    have hequal := hs.writeCount_eq_readCount hreceived
    have hroom : canEnqueueRingWords s.ring.writeCount s.ring.readCount s.ring.size 1 := by
      rw [hequal, hreachable.size_eq]
      exact canEnqueueRingWords_two _
    have henqueue := hreachable.step (.enqueueCommand [0] (by decide) hroom)
    have hlength' : (streamWords (s.enqueueCommand [0]).enqueued).length = 2 * (rounds + 1) := by
      rw [RingRun.enqueueCommand, streamWords_append, streamWords_singleton, List.length_append,
        length_commandWords, hlength]
      rfl
    have hs' := henqueue.consistent (k := 1) rfl (by omega)
    have hunread : (s.enqueueCommand [0]).ring.writeCount > (s.enqueueCommand [0]).ring.readCount := by
      have hread : (s.enqueueCommand [0]).ring.readCount = s.ring.readCount := rfl
      rw [gt_iff_lt, UInt64.lt_iff_toNat_lt, hs'.writeCount_eq, hlength', hread, ← hequal,
        hs.writeCount_eq, hlength]
      omega
    obtain ⟨words, rest, hrest, hwords, -⟩ := hs'.readRingCommand_eq hsize hunread
    have hhead : [0] = words ∧ [] = rest := by
      have happend : s.enqueued ++ [[0]] = s.received ++ words :: rest := hrest
      rw [hreceived] at happend
      exact List.cons.inj (List.append_cancel_left happend)
    rw [← hhead.1] at hwords
    have hholding : (s.enqueueCommand [0]).readCommand.consumer = .holding [0] := by
      simp only [RingRun.readCommand, hwords]
      rfl
    have hread := henqueue.step (.readCommand hwaiting hunread)
    refine ⟨_, hread.step (.publishCompleted [0] hholding), rfl, ?_, hlength'⟩
    simp only [RingRun.publishCompleted, RingRun.readCommand, hwords]
    rw [RingRun.enqueueCommand, hreceived]

/-- The counters of a ring that keeps running wrap around, and the write count is then below the
read count. -/
theorem not_readCount_le_writeCount :
    ¬∀ (ring : Nat → UInt32) (size : UInt64) (k : Nat) (s : RingRun), size.toNat = 2 ^ k →
      RingReachable ring size s → s.ring.readCount ≤ s.ring.writeCount := by
  intro hordered
  have hrounds : 2 ^ 63 - 1 < 2 ^ 63 := by decide
  obtain ⟨s, hreachable, -, hreceived, hlength⟩ := exists_reachable_rounds hrounds
  have hs := hreachable.consistent (k := 1) rfl (by omega)
  have hequal := hs.writeCount_eq_readCount hreceived
  have hroom : canEnqueueRingWords s.ring.writeCount s.ring.readCount s.ring.size 1 := by
    rw [hequal, hreachable.size_eq]
    exact canEnqueueRingWords_two _
  have henqueue := hreachable.step (.enqueueCommand [0] (by decide) hroom)
  have hle := UInt64.le_iff_toNat_le.mp (hordered _ 2 1 _ rfl henqueue)
  have hcount : s.ring.writeCount = 0xFFFFFFFFFFFFFFFE := by
    apply UInt64.toNat_inj.mp
    rw [hs.writeCount_eq, hlength]
    rfl
  have hwrite : (s.enqueueCommand [0]).ring.writeCount = s.ring.writeCount + 1 + 1 := rfl
  have hread : (s.enqueueCommand [0]).ring.readCount = s.ring.readCount := rfl
  rw [hwrite, hread, ← hequal, hcount] at hle
  exact absurd hle (by decide)

end ParallelN64.Rdp
