import ParallelN64.Rdp.CommandIngest

/-!
# Runs of the RDP command ingest

Over any sequence of calls the parser does what framing the concatenated chunks
does, as long as every chunk is accepted. Whether a chunk is accepted depends on
the quadwords received since a chunk last ended on a command boundary, because the
buffer is rewound only there.
-/

namespace ParallelN64.Rdp

open ParallelN64.Core

/-- What the chunks received so far leave behind. -/
structure Backlog where
  tail : List Qword := []
  received : Nat := 0

/-- The backlog after one more chunk; a chunk that does not fit behind the received quadwords
is dropped. -/
def Backlog.ingest (backlog : Backlog) (chunk : List Qword) : Backlog :=
  if backlog.received + chunk.length ≤ 0x7fff then
    let tail := (frames commandExtra (backlog.tail ++ chunk)).2
    { tail, received := if tail = [] then 0 else backlog.received + chunk.length }
  else backlog

def backlogOf (inputs : List IngestInput) : Backlog :=
  inputs.foldl (fun backlog input => backlog.ingest input.chunk) {}

/-- A parser state holds a backlog. -/
structure CommandIngestState.Holds (state : CommandIngestState) (backlog : Backlog) : Prop
    extends state.Ready where
  pending_eq : state.pending = backlog.tail
  ptr_eq : state.cmdPtr = backlog.received

def CommandIngestState.initial (data : Nat → UInt32) : CommandIngestState := { cmdData := data }

theorem CommandIngestState.initial_holds (data : Nat → UInt32) : (initial data).Holds {} where
  cur_le := Nat.le_refl 0
  ptr_le := Nat.zero_le _
  frames_pending := frames_nil commandExtra
  ptr_eq_zero _ := rfl
  pending_eq := rfl
  ptr_eq := rfl

variable {state : CommandIngestState} {backlog : Backlog} {hooks : CommandIngestHooks}

theorem Backlog.ingest_nil (hholds : state.Holds backlog) : backlog.ingest [] = backlog := by
  have hfits : backlog.received + ([] : List Qword).length ≤ 0x7fff := by
    rw [← hholds.ptr_eq]
    exact hholds.ptr_le
  have hframes := hholds.frames_pending
  have hzero := hholds.ptr_eq_zero
  rw [hholds.pending_eq] at hframes hzero
  rw [hholds.ptr_eq] at hzero
  have hreceived : (if backlog.tail = [] then 0 else backlog.received) = backlog.received := by
    split
    case isTrue htail => exact (hzero htail).symm
    case isFalse => rfl
  rw [ingest, if_pos hfits, List.append_nil, hframes]
  simp only [List.length_nil, Nat.add_zero, hreceived]

theorem processCommandIngest_holds (hholds : state.Holds backlog) (input : IngestInput) :
    (processCommandIngest state input).state.Holds (backlog.ingest input.chunk) := by
  by_cases hempty : input.registers.chunkLength = 0
  · have hchunk : input.chunk = [] :=
      List.eq_nil_of_length_eq_zero (by rw [input.length_chunk, hempty])
    rw [processCommandIngest_of_empty state hempty, hchunk, Backlog.ingest_nil hholds]
    exact hholds
  · by_cases hfits : state.cmdPtr + input.registers.chunkLength ≤ 0x7fff
    · obtain ⟨hconsumes, hcur, hptr⟩ :=
        processCommandIngest_of_fits hholds.toReady hempty hfits
      have hpending := hconsumes.pending_eq
      rw [Backlog.ingest, if_pos (by rwa [← hholds.ptr_eq, input.length_chunk]),
        ← hholds.pending_eq, ← hholds.ptr_eq, input.length_chunk]
      refine ⟨⟨hcur, ?_, ?_, ?_⟩, hpending, hptr⟩
      · rw [hptr]
        split <;> omega
      · rw [hpending]
        exact frames_tail commandExtra _
      · intro hnil
        rw [hptr, if_pos (by rw [← hpending, hnil])]
    · rw [processCommandIngest_of_overflow hholds.toReady hempty (by omega), Backlog.ingest,
        if_neg (by rwa [← hholds.ptr_eq, input.length_chunk])]
      exact hholds

theorem runIngest_holds (hholds : state.Holds backlog) (inputs : List IngestInput) :
    (runIngest state inputs).1.Holds
      (inputs.foldl (fun backlog input => backlog.ingest input.chunk) backlog) := by
  induction inputs generalizing state backlog with
  | nil => exact hholds
  | cons input inputs ih => exact ih (processCommandIngest_holds hholds input)

theorem processCommandIngest_framed (hready : state.Ready) {input : IngestInput}
    (hexit : (processCommandIngest state input).exit ≠ .bufferOverflow) :
    (processCommandIngest state input).hookCalls =
        (frames commandExtra (state.pending ++ input.chunk)).1.flatMap (frameCalls input.hooks) ∧
      (processCommandIngest state input).state.pending =
        (frames commandExtra (state.pending ++ input.chunk)).2 := by
  by_cases hempty : input.registers.chunkLength = 0
  · have hchunk : input.chunk = [] :=
      List.eq_nil_of_length_eq_zero (by rw [input.length_chunk, hempty])
    rw [processCommandIngest_of_empty state hempty, hchunk, List.append_nil,
      hready.frames_pending]
    exact ⟨rfl, rfl⟩
  · by_cases hfits : state.cmdPtr + input.registers.chunkLength ≤ 0x7fff
    · obtain ⟨hconsumes, -, -⟩ := processCommandIngest_of_fits hready hempty hfits
      exact ⟨hconsumes.hookCalls_eq, hconsumes.pending_eq⟩
    · rw [processCommandIngest_of_overflow hready hempty (by omega)] at hexit
      exact absurd rfl hexit

theorem runIngest_framed (hholds : state.Holds backlog) {inputs : List IngestInput}
    (hhooks : ∀ input ∈ inputs, input.hooks = hooks)
    (hexit : ∀ result ∈ (runIngest state inputs).2, result.exit ≠ .bufferOverflow) :
    (runIngest state inputs).2.flatMap IngestResult.hookCalls =
      (frames commandExtra (state.pending ++ inputs.flatMap IngestInput.chunk)).1.flatMap
        (frameCalls hooks) := by
  induction inputs generalizing state backlog with
  | nil => simp [runIngest, hholds.frames_pending]
  | cons input inputs ih =>
    obtain ⟨hcalls, hpending⟩ := processCommandIngest_framed hholds.toReady
      (hexit _ List.mem_cons_self)
    rw [hhooks input List.mem_cons_self] at hcalls
    have hih := ih (processCommandIngest_holds hholds input)
      (fun input hinput => hhooks input (List.mem_cons_of_mem _ hinput))
      (fun result hresult => hexit result (List.mem_cons_of_mem _ hresult))
    rw [hpending] at hih
    rw [List.flatMap_cons, ← List.append_assoc, frames_append, List.flatMap_append, ← hcalls, ← hih]
    rfl

theorem Backlog.received_ingest_le (backlog : Backlog) (chunk : List Qword) :
    (backlog.ingest chunk).received ≤ backlog.received + chunk.length := by
  rw [ingest]
  split
  · dsimp only
    split <;> omega
  · omega

theorem runIngest_exit_ne (hholds : state.Holds backlog) {inputs : List IngestInput}
    (hfits : backlog.received + (inputs.flatMap IngestInput.chunk).length ≤ 0x7fff) :
    ∀ result ∈ (runIngest state inputs).2, result.exit ≠ .bufferOverflow := by
  induction inputs generalizing state backlog with
  | nil => exact fun result hresult => absurd hresult List.not_mem_nil
  | cons input inputs ih =>
    rw [List.flatMap_cons, List.length_append, input.length_chunk] at hfits
    intro result hresult
    cases List.mem_cons.mp hresult with
    | inl hhead =>
      by_cases hempty : input.registers.chunkLength = 0
      · rw [hhead, processCommandIngest_of_empty state hempty]
        exact nofun
      · rw [hhead]
        have hptr := hholds.ptr_eq
        exact (processCommandIngest_of_fits hholds.toReady hempty (by omega)).1.exit_ne
    | inr hrest =>
      have hgrows := backlog.received_ingest_le input.chunk
      rw [input.length_chunk] at hgrows
      exact ih (processCommandIngest_holds hholds input) (by omega) result hrest

def frameOpcode : List Qword → UInt32
  | [] => 0
  | qword :: _ => opcode qword.1

def HookCall.enqueuedWords : HookCall → Option (List UInt32)
  | .enqueueCommand words => some words
  | _ => none

@[simp] theorem filterMap_enqueuedWords_syncFullCalls (hooks : CommandIngestHooks) :
    (syncFullCalls hooks).filterMap HookCall.enqueuedWords = [] := by
  rw [syncFullCalls]
  split <;> split <;> rfl

@[simp] theorem count_raiseDpInterrupt_syncFullCalls (hraise : hooks.raiseDpInterrupt = true) :
    (syncFullCalls hooks).count .raiseDpInterrupt = 1 := by
  rw [syncFullCalls, if_pos hraise]
  split <;> rfl

theorem filterMap_enqueuedWords (hfrontend : hooks.frontendAvailable = true)
    (henqueue : hooks.enqueueCommand = true) {commands : List (List Qword)}
    (hne : ∀ frame ∈ commands, frame ≠ []) :
    (commands.flatMap (frameCalls hooks)).filterMap HookCall.enqueuedWords =
      (commands.filter fun frame => 8 ≤ frameOpcode frame).map qwordWords := by
  induction commands with
  | nil => rfl
  | cons frame commands ih =>
    have hhead : (frameCalls hooks frame).filterMap HookCall.enqueuedWords =
        if 8 ≤ frameOpcode frame then [qwordWords frame] else [] := by
      cases frame with
      | nil => exact absurd rfl (hne [] List.mem_cons_self)
      | cons qword qwords =>
        simp only [frameCalls, commandCalls, frameOpcode, hfrontend, henqueue, and_true]
        by_cases henqueued : 8 ≤ opcode qword.1 <;> by_cases hsync : opcode qword.1 = 0x29 <;>
          simp [henqueued, hsync, HookCall.enqueuedWords]
    rw [List.flatMap_cons, List.filterMap_append, hhead,
      ih fun frame hframe => hne frame (List.mem_cons_of_mem _ hframe)]
    by_cases h : 8 ≤ frameOpcode frame <;> simp [h]

theorem count_raiseDpInterrupt (hraise : hooks.raiseDpInterrupt = true)
    (commands : List (List Qword)) :
    (commands.flatMap (frameCalls hooks)).count .raiseDpInterrupt =
      commands.countP fun frame => frameOpcode frame = 0x29 := by
  induction commands with
  | nil => rfl
  | cons frame commands ih =>
    have hhead : (frameCalls hooks frame).count .raiseDpInterrupt =
        if frameOpcode frame = 0x29 then 1 else 0 := by
      cases frame with
      | nil => rfl
      | cons qword qwords =>
        rw [frameCalls, commandCalls, frameOpcode, List.count_append]
        have hnone : (if 8 ≤ opcode qword.1 ∧ hooks.frontendAvailable = true ∧
            hooks.enqueueCommand = true then [HookCall.enqueueCommand (qwordWords (qword :: qwords))]
            else []).count .raiseDpInterrupt = 0 := by
          split <;> rfl
        rw [hnone, Nat.zero_add]
        by_cases hsync : opcode qword.1 = 0x29
        · rw [if_pos hsync, if_pos hsync, count_raiseDpInterrupt_syncFullCalls hraise]
        · rw [if_neg hsync, if_neg hsync]
          rfl
    rw [List.flatMap_cons, List.count_append, hhead, ih, List.countP_cons]
    simp [Nat.add_comm]

theorem length_of_mem_commands {stream frame : List Qword}
    (hframe : frame ∈ (frames commandExtra stream).1) :
    frame.length = cmdLength (frameOpcode frame) := by
  obtain ⟨qword, qwords, rfl, hlength⟩ := exists_cons_of_mem_frames commandExtra hframe
  have hpos := cmdLength_pos (opcode qword.1)
  rw [List.length_cons, hlength, commandExtra, frameOpcode]
  omega

theorem length_tail_lt {stream : List Qword} (hne : (frames commandExtra stream).2 ≠ []) :
    (frames commandExtra stream).2.length <
      cmdLength (frameOpcode (frames commandExtra stream).2) := by
  obtain ⟨qword, qwords, htail⟩ := List.exists_cons_of_ne_nil hne
  have hlt := frames_tail_lt commandExtra htail
  rw [commandExtra] at hlt
  rw [htail, List.length_cons, frameOpcode]
  omega

/-- Chunking invariance. When calls with the same hooks drop no chunk, the callbacks of all
calls together are those of the commands that the concatenated chunks frame. -/
theorem runIngest_chunking (hooks : CommandIngestHooks) (data : Nat → UInt32)
    (inputs : List IngestInput) (hhooks : ∀ input ∈ inputs, input.hooks = hooks)
    (hexit : ∀ result ∈ (runIngest (.initial data) inputs).2, result.exit ≠ .bufferOverflow) :
    let stream := inputs.flatMap IngestInput.chunk
    let commands := (frames commandExtra stream).1
    let tail := (frames commandExtra stream).2
    let calls := (runIngest (.initial data) inputs).2.flatMap IngestResult.hookCalls
    calls = commands.flatMap (frameCalls hooks) ∧
      (∀ (data' : Nat → UInt32) (single : IngestInput), single.hooks = hooks → single.chunk = stream →
        (processCommandIngest (.initial data') single).exit ≠ .bufferOverflow →
        (processCommandIngest (.initial data') single).hookCalls = calls) ∧
      commands.flatten ++ tail = stream ∧
      (∀ frame ∈ commands, frame.length = cmdLength (frameOpcode frame)) ∧
      (tail ≠ [] → tail.length < cmdLength (frameOpcode tail)) ∧
      (hooks.frontendAvailable = true → hooks.enqueueCommand = true →
        calls.filterMap HookCall.enqueuedWords =
          (commands.filter fun frame => 8 ≤ frameOpcode frame).map qwordWords) ∧
      (hooks.raiseDpInterrupt = true →
        calls.count .raiseDpInterrupt = commands.countP fun frame => frameOpcode frame = 0x29) := by
  intro stream commands tail calls
  have hcalls : calls = commands.flatMap (frameCalls hooks) :=
    runIngest_framed (CommandIngestState.initial_holds data) hhooks hexit
  refine ⟨hcalls, ?_, flatten_frames_append_tail commandExtra stream, ?_, ?_, ?_, ?_⟩
  · intro data' single hsame hchunk hsingle
    have hframed := (processCommandIngest_framed
      (CommandIngestState.initial_holds data').toReady hsingle).1
    rw [hframed, hcalls, hchunk, hsame]
    rfl
  · exact fun frame hframe => length_of_mem_commands hframe
  · exact fun hne => length_tail_lt hne
  · intro hfrontend henqueue
    rw [hcalls]
    exact filterMap_enqueuedWords hfrontend henqueue fun frame hframe => by
      obtain ⟨qword, qwords, rfl, -⟩ := exists_cons_of_mem_frames commandExtra hframe
      exact List.cons_ne_nil qword qwords
  · intro hraise
    rw [hcalls]
    exact count_raiseDpInterrupt hraise commands

/-- Every callback set, on a frontend that is not synchronous. -/
def asynchronousHooks : CommandIngestHooks where
  frontendAvailable := true
  synchronous := false
  enqueueCommand := true
  signalTimeline := true
  waitForTimeline := true
  raiseDpInterrupt := true

/-- A range that DMEM holds the first quadword of a triangle command in. -/
def triangleHeadInput : IngestInput where
  hooks := asynchronousHooks
  dram := fun _ => 0
  spDmem := fun _ => 0x08000000
  registers := { startReg := 0, endReg := 8, currentReg := 0, statusReg := dpStatusXbusDma }

/-- A range of DRAM with the rest of that command and a full synchronisation. -/
def triangleRestInput : IngestInput where
  hooks := asynchronousHooks
  dram := fun offset => if offset = 0x20 then 0x29000000 else 0x11111111
  spDmem := fun _ => 0
  registers := { startReg := 8, endReg := 0x28, currentReg := 8, statusReg := 0 }

/-- A triangle cut after its first quadword and read from both memories is enqueued once. -/
theorem runIngest_chunking_triangle :
    (runIngest (.initial fun _ => 0)
      [triangleHeadInput, triangleRestInput]).2.flatMap IngestResult.hookCalls =
      [.enqueueCommand [0x08000000, 0x08000000, 0x11111111, 0x11111111, 0x11111111, 0x11111111,
        0x11111111, 0x11111111], .enqueueCommand [0x29000000, 0x11111111], .raiseDpInterrupt] := by
  have hfits : ({} : Backlog).received +
      ([triangleHeadInput, triangleRestInput].flatMap IngestInput.chunk).length ≤ 0x7fff := by decide
  have hexit := runIngest_exit_ne (CommandIngestState.initial_holds fun _ => 0) hfits
  rw [(runIngest_chunking asynchronousHooks (fun _ => 0) _ (by simp [triangleHeadInput, triangleRestInput]) hexit).1]
  decide +kernel

/-- The promise of a call: a nonempty chunk that fits together with the pending quadwords is
consumed. -/
def KeepsRoom (state : CommandIngestState) (input : IngestInput) :
    Prop :=
  input.registers.chunkLength ≠ 0 →
    state.cmdPtr - state.cmdCur + input.registers.chunkLength ≤ 0x7fff →
      ConsumesChunk state input (processCommandIngest state input)

theorem keepsRoom_iff (hholds : state.Holds backlog) (input : IngestInput) :
    KeepsRoom state input ↔
      backlog.received + input.chunk.length ≤ 0x7fff ∨
        0x7fff < backlog.tail.length + input.chunk.length := by
  have htail : state.cmdPtr - state.cmdCur = backlog.tail.length := by
    rw [← hholds.pending_eq, state.length_pending]
  have hptr := hholds.ptr_le
  rw [KeepsRoom, htail, ← hholds.ptr_eq, input.length_chunk]
  constructor
  · intro hkeeps
    by_contra hneither
    have hover : 0x7fff < state.cmdPtr + input.registers.chunkLength := by omega
    have hconsumes := hkeeps (by omega) (by omega)
    apply hconsumes.exit_ne
    rw [processCommandIngest_of_overflow hholds.toReady (by omega) hover]
  · intro hroom hchunk hfits
    exact (processCommandIngest_of_fits hholds.toReady hchunk (by omega)).1

/-- In every run, the next call keeps the promise exactly when its chunk fits behind the quadwords
received since a chunk last ended on a command boundary, or does not fit behind the incomplete
tail either. -/
theorem runIngest_keepsRoom_iff (data : Nat → UInt32) (inputs : List IngestInput) (input : IngestInput) :
    KeepsRoom (runIngest (.initial data) inputs).1 input ↔
      (backlogOf inputs).received + input.chunk.length ≤ 0x7fff ∨
        0x7fff < (backlogOf inputs).tail.length + input.chunk.length :=
  keepsRoom_iff (runIngest_holds (CommandIngestState.initial_holds data) inputs) input

theorem readQwords_const (word mask : UInt32) (length : Nat) (offset : UInt32) :
    readQwords (fun _ => word) mask length offset = List.replicate length (word, word) := by
  induction length generalizing offset with
  | zero => rfl
  | succ length ih => rw [readQwords, ih, List.replicate_succ]

theorem frames_tail_replicate_odd {qword : Qword} (hextra : commandExtra qword = 1) (n : Nat) :
    (frames commandExtra (List.replicate (2 * n + 1) qword)).2 = [qword] := by
  induction n with
  | zero =>
    rw [List.replicate_succ, frames_cons_of_lt commandExtra (by simp [hextra])]
    rfl
  | succ n ih =>
    have hdouble : 2 * (n + 1) + 1 = 2 * n + 1 + 1 + 1 := by omega
    rw [hdouble, List.replicate_succ,
      frames_cons_of_le commandExtra (by rw [hextra, List.length_replicate]; omega), hextra,
      List.drop_replicate]
    exact ih

theorem Backlog.ingest_replicate_odd {qword : Qword} (hextra : commandExtra qword = 1) {n : Nat}
    (hfits : 2 * n + 1 ≤ 0x7fff) :
    ({} : Backlog).ingest (List.replicate (2 * n + 1) qword) =
      { tail := [qword], received := 2 * n + 1 } := by
  rw [ingest, if_pos (by rw [List.length_replicate, Nat.zero_add]; exact hfits), List.nil_append,
    frames_tail_replicate_odd hextra, List.length_replicate, Nat.zero_add]
  rfl

/-- A range of DRAM that holds rectangle commands only. -/
def rectanglesInput (current last : UInt32) : IngestInput where
  hooks := asynchronousHooks
  dram := fun _ => 0x24000000
  spDmem := fun _ => 0
  registers := { startReg := current, endReg := last, currentReg := current, statusReg := 0 }

/-- After `0x7fff` quadwords of rectangle commands one quadword is pending, and the call that
brings its second half is turned away. -/
theorem not_keepsRoom :
    ¬∀ (data : Nat → UInt32) (inputs : List IngestInput)
      (input : IngestInput), KeepsRoom (runIngest (.initial data) inputs).1 input := by
  intro hkeeps
  have hlength : (rectanglesInput 0 0x3fff8).registers.chunkLength = 2 * 0x3fff + 1 := by decide
  have hfirst : (rectanglesInput 0 0x3fff8).chunk =
      List.replicate (2 * 0x3fff + 1) (0x24000000, 0x24000000) := by
    have hdram : ¬(rectanglesInput 0 0x3fff8).registers.statusReg &&& dpStatusXbusDma ≠ 0 := by
      decide
    rw [← hlength, IngestInput.chunk, if_neg hdram]
    exact readQwords_const 0x24000000 0xFFFFF8 _ _
  have hsecond : (rectanglesInput 0x3fff8 0x40000).chunk.length = 1 := by
    rw [IngestInput.length_chunk]
    decide
  have hbacklog : ({} : Backlog).ingest (rectanglesInput 0 0x3fff8).chunk =
      { tail := [(0x24000000, 0x24000000)], received := 2 * 0x3fff + 1 } := by
    rw [hfirst]
    exact Backlog.ingest_replicate_odd (by decide) (by decide)
  have hholds := runIngest_holds (CommandIngestState.initial_holds fun _ => 0)
    [rectanglesInput 0 0x3fff8]
  rw [List.foldl_cons, List.foldl_nil, hbacklog] at hholds
  have hcases := (keepsRoom_iff hholds (rectanglesInput 0x3fff8 0x40000)).mp
    (hkeeps (fun _ => 0) [rectanglesInput 0 0x3fff8] _)
  rw [hsecond] at hcases
  cases hcases with
  | inl hroom => exact absurd hroom (by decide)
  | inr htail => exact absurd htail (by decide)

end ParallelN64.Rdp
