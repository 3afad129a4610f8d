import ParallelN64.Rdp.CommandRing
import ParallelN64.Rdp.IngestRun

/-!
# Commands on their way to the processor

A call of the ingest enqueues its commands one after the other, each when the ring has room, while
the consumer thread reads. Other producers put their own commands, of lower opcodes, in between.
-/

namespace ParallelN64.Rdp

open ParallelN64.Core

/-- The parser and the ring, with the commands that the call in progress has still to enqueue, and
the quadwords of the calls that dropped none. -/
structure CommandPath where
  parser : CommandIngestState
  run : RingRun
  pending : List (List UInt32) := []
  stream : List Qword := []

/-- The parser calls back from a range of registers. -/
def CommandPath.ingest (p : CommandPath) (input : IngestInput) : CommandPath :=
  let result := processCommandIngest p.parser input
  { p with
    parser := result.state
    pending := result.hookCalls.filterMap HookCall.enqueuedWords
    stream := if result.exit = .bufferOverflow then p.stream else p.stream ++ input.chunk }

def wordsOpcode (words : List UInt32) : UInt32 := opcode (words.headD 0)

/-- A call, or a critical section of a producer or of the consumer thread. -/
inductive CommandPathStep (p : CommandPath) : CommandPath → Prop where
  | ingest (input : IngestInput) (hfrontend : input.hooks.frontendAvailable = true)
      (henqueue : input.hooks.enqueueCommand = true) (hdone : p.pending = []) :
      CommandPathStep p (p.ingest input)
  | enqueueCommand (words : List UInt32) (rest : List (List UInt32))
      (hpending : p.pending = words :: rest)
      (hstep : RingStep p.run (p.run.enqueueCommand words)) :
      CommandPathStep p { p with run := p.run.enqueueCommand words, pending := rest }
  /-- `flush`, `signal_timeline` and `set_quirks`. -/
  | enqueueMeta (words : List UInt32) (hmeta : ¬8 ≤ wordsOpcode words)
      (hstep : RingStep p.run (p.run.enqueueCommand words)) :
      CommandPathStep p { p with run := p.run.enqueueCommand words }
  | consume (run : RingRun) (hstep : RingStep p.run run) (hsame : run.enqueued = p.run.enqueued) :
      CommandPathStep p { p with run }

def CommandPath.start (ring : Nat → UInt32) (size : UInt64) (data : Nat → UInt32) :
    CommandPath where
  parser := .initial data
  run := { ring := { ring, size } }

inductive CommandPathReachable (ring : Nat → UInt32) (size : UInt64) : CommandPath → Prop where
  | init (data : Nat → UInt32) : CommandPathReachable ring size (.start ring size data)
  | step {p p' : CommandPath} (hreachable : CommandPathReachable ring size p)
      (hstep : CommandPathStep p p') : CommandPathReachable ring size p'

/-- The commands that quadwords have for the processor, as words. -/
def processorCommands (stream : List Qword) : List (List UInt32) :=
  ((frames commandExtra stream).1.filter fun frame => 8 ≤ frameOpcode frame).map qwordWords

theorem wordsOpcode_of_mem {stream : List Qword} {words : List UInt32}
    (h : words ∈ processorCommands stream) : 8 ≤ wordsOpcode words := by
  obtain ⟨frame, hframe, rfl⟩ := List.mem_map.mp h
  have hopcode := of_decide_eq_true (List.mem_filter.mp hframe).2
  cases frame with
  | nil => exact absurd hopcode (by decide)
  | cons qword qwords => exact hopcode

theorem processorCommands_append (xs ys : List Qword) : processorCommands (xs ++ ys) =
    processorCommands xs ++ processorCommands ((frames commandExtra xs).2 ++ ys) := by
  rw [processorCommands, frames_append, List.filter_append, List.map_append]
  rfl

def processorOnly (commands : List (List UInt32)) : List (List UInt32) :=
  commands.filter fun words => 8 ≤ wordsOpcode words

theorem processCommandIngest_dropped {state : CommandIngestState} (hready : state.Ready)
    {input : IngestInput} (hexit : (processCommandIngest state input).exit = .bufferOverflow) :
    (processCommandIngest state input).state = state ∧
      (processCommandIngest state input).hookCalls = [] := by
  by_cases hempty : input.registers.chunkLength = 0
  · rw [processCommandIngest_of_empty state hempty]
    exact ⟨rfl, rfl⟩
  · by_cases hfits : state.cmdPtr + input.registers.chunkLength ≤ 0x7fff
    · exact absurd hexit (processCommandIngest_of_fits hready hempty hfits).1.exit_ne
    · rw [processCommandIngest_of_overflow hready hempty (by omega)]
      exact ⟨rfl, rfl⟩

/-- What is enqueued and pending is what the quadwords so far say, and the parser has the rest. -/
structure CommandPath.Faithful (p : CommandPath) : Prop where
  holds : ∃ backlog, p.parser.Holds backlog
  parser_eq : p.parser.pending = (frames commandExtra p.stream).2
  commands_eq : processorOnly p.run.enqueued ++ p.pending = processorCommands p.stream

variable {p p' : CommandPath}

theorem CommandPath.Faithful.ingest (h : p.Faithful) {input : IngestInput}
    (hfrontend : input.hooks.frontendAvailable = true)
    (henqueue : input.hooks.enqueueCommand = true) (hdone : p.pending = []) :
    (p.ingest input).Faithful := by
  obtain ⟨backlog, hholds⟩ := h.holds
  have hcommands := h.commands_eq
  rw [hdone, List.append_nil] at hcommands
  by_cases hexit : (processCommandIngest p.parser input).exit = .bufferOverflow
  · obtain ⟨hstate, hcalls⟩ := processCommandIngest_dropped hholds.toReady hexit
    refine ⟨⟨_, processCommandIngest_holds hholds input⟩, ?_, ?_⟩
    · simp only [CommandPath.ingest, if_pos hexit, hstate, h.parser_eq]
    · simp only [CommandPath.ingest, if_pos hexit, hcalls, List.filterMap_nil, List.append_nil,
        hcommands]
  · obtain ⟨hcalls, hpending⟩ := processCommandIngest_framed hholds.toReady hexit
    rw [h.parser_eq] at hcalls hpending
    refine ⟨⟨_, processCommandIngest_holds hholds input⟩, ?_, ?_⟩
    · simp only [CommandPath.ingest, if_neg hexit, hpending]
      exact (congrArg Prod.snd (frames_append commandExtra p.stream input.chunk)).symm
    · have hne : ∀ frame ∈ (frames commandExtra (p.parser.pending ++ input.chunk)).1,
          frame ≠ [] := by
        intro frame hframe
        obtain ⟨qword, qwords, rfl, -⟩ := exists_cons_of_mem_frames commandExtra hframe
        exact List.cons_ne_nil qword qwords
      rw [h.parser_eq] at hne
      have hnew := filterMap_enqueuedWords hfrontend henqueue hne
      simp only [CommandPath.ingest, if_neg hexit, hcalls, hnew, hcommands]
      rw [processorCommands_append]
      rfl

theorem CommandPath.Faithful.step (h : p.Faithful) (hstep : CommandPathStep p p') :
    p'.Faithful := by
  have hcommands := h.commands_eq
  cases hstep with
  | ingest input hfrontend henqueue hdone => exact h.ingest hfrontend henqueue hdone
  | enqueueCommand words rest hpending _ =>
    refine ⟨h.holds, h.parser_eq, ?_⟩
    have hwords : 8 ≤ wordsOpcode words := by
      refine @wordsOpcode_of_mem p.stream words ?_
      rw [← hcommands, hpending]
      exact List.mem_append_right _ List.mem_cons_self
    rw [← hcommands, hpending, RingRun.enqueueCommand, processorOnly, List.filter_append,
      List.filter_singleton, decide_eq_true hwords, List.append_assoc]
    rfl
  | enqueueMeta words hmeta _ =>
    refine ⟨h.holds, h.parser_eq, ?_⟩
    rw [← hcommands, RingRun.enqueueCommand, processorOnly, List.filter_append,
      List.filter_singleton, decide_eq_false hmeta]
    exact congrArg (· ++ _) (List.append_nil _)
  | consume run _ hsame =>
    refine ⟨h.holds, h.parser_eq, ?_⟩
    rw [← hcommands, hsame]

variable {ring : Nat → UInt32} {size : UInt64}

theorem CommandPathReachable.faithful (h : CommandPathReachable ring size p) : p.Faithful := by
  induction h with
  | init data =>
    have hnil : frames commandExtra [] = ([], []) := frames_nil commandExtra
    have hnone : processorCommands [] = [] := by
      rw [processorCommands, hnil]
      rfl
    exact ⟨⟨{}, CommandIngestState.initial_holds data⟩, (congrArg Prod.snd hnil).symm, hnone.symm⟩
  | step _ hstep ih => exact ih.step hstep

theorem CommandPathReachable.ringReachable (h : CommandPathReachable ring size p) :
    RingReachable ring size p.run := by
  induction h with
  | init data => exact .init
  | step _ hstep ih =>
    cases hstep with
    | ingest => exact ih
    | enqueueCommand words rest _ hstep => exact ih.step hstep
    | enqueueMeta words _ hstep => exact ih.step hstep
    | consume run hstep _ => exact ih.step hstep

theorem commandPath_delivers {k : Nat} (hsize : size.toNat = 2 ^ k)
    (h : CommandPathReachable ring size p) (hcount : (streamWords p.run.enqueued).length < 2 ^ 64) :
    processorOnly p.run.received <+: processorCommands p.stream ∧
      (p.run.ring.writeCount = p.run.ring.completedCount → p.pending = [] →
        processorOnly p.run.received = processorCommands p.stream) := by
  have hcommands := h.faithful.commands_eq
  have hconsistent := h.ringReachable.consistent hsize hcount
  constructor
  · have hprefix := hconsistent.prefix_enqueued.filter fun words => 8 ≤ wordsOpcode words
    rw [← hcommands]
    exact hprefix.trans (List.prefix_append ..)
  · intro hdrained hdone
    rw [(hconsistent.drained hdrained).1, ← hcommands, hdone, List.append_nil]

/-- A range that DMEM holds a pipe synchronisation in. -/
def syncPipeInput : IngestInput where
  hooks := asynchronousHooks
  dram := fun _ => 0
  spDmem := fun _ => 0x27000000
  registers := { startReg := 0, endReg := 8, currentReg := 0, statusReg := dpStatusXbusDma }

theorem commandPath_delivers_syncPipe : ∃ p : CommandPath, p.pending = [] ∧
    p.run.received = [[0x02000000], [0x27000000, 0x27000000]] ∧
      processorOnly p.run.received = processorCommands p.stream := by
  have hinit : CommandPathReachable (fun _ => 0) 8 _ := .init fun _ => 0
  have hcall := hinit.step (.ingest syncPipeInput rfl rfl rfl)
  have hflush := hcall.step (.enqueueMeta [0x02000000] (by decide)
    (.enqueueCommand _ (by decide) (by decide)))
  have hpending : ((CommandPath.start (fun _ => 0) 8 fun _ => 0).ingest syncPipeInput).pending =
      [[0x27000000, 0x27000000]] := by
    decide +kernel
  have hsync := hflush.step (.enqueueCommand [0x27000000, 0x27000000] [] hpending
    (.enqueueCommand _ (by decide) (by decide)))
  have hfirst := hsync.step (.consume _ (.readCommand rfl (by decide)) rfl)
  have hdone := hfirst.step (.consume _ (.publishCompleted [0x02000000] rfl) rfl)
  have hsecond := hdone.step (.consume _ (.readCommand rfl (by decide)) rfl)
  have hlast := hsecond.step (.consume _ (.publishCompleted [0x27000000, 0x27000000] rfl) rfl)
  exact ⟨_, rfl, rfl, (commandPath_delivers (k := 3) rfl hlast (by decide)).2 (by decide) rfl⟩

end ParallelN64.Rdp
