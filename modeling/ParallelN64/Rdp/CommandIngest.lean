import ParallelN64.Core.Framing
import ParallelN64.Core.Word

/-!
# RDP command ingest

`processCommandIngest` copies the range from DPC_CURRENT to DPC_END into a command
buffer and hands every complete command over. An incomplete command stays in the
buffer for the next call.
-/

namespace ParallelN64.Rdp

open ParallelN64.Core

abbrev Qword := UInt32 × UInt32

def dpStatusXbusDma : UInt32 := 0x01

def dpStatusFreeze : UInt32 := 0x02

/-- The length of each command in quadwords, by opcode. -/
def cmdLenLut : List Nat := [
  1, 1, 1, 1, 1, 1, 1, 1, 4, 6, 12, 14, 12, 14, 20, 22,
  1, 1, 1, 1, 1, 1, 1, 1, 1, 1, 1, 1, 1, 1, 1, 1,
  1, 1, 1, 1, 2, 2, 1, 1, 1, 1, 1, 1, 1, 1, 1, 1,
  1, 1, 1, 1, 1, 1, 1, 1, 1, 1, 1, 1, 1, 1, 1, 1]

def opcode (w1 : UInt32) : UInt32 := (w1 >>> 24) &&& 63

def cmdLength (command : UInt32) : Nat := cmdLenLut.getD command.toNat 1

/-- The parser state that survives a call, and the buffer it points into. -/
structure CommandIngestState where
  cmdCur : Nat := 0
  cmdPtr : Nat := 0
  cmdData : Nat → UInt32

/-- The flags given to a call and which of the callbacks are set. -/
structure CommandIngestHooks where
  frontendAvailable : Bool := false
  synchronous : Bool := false
  enqueueCommand : Bool := false
  signalTimeline : Bool := false
  waitForTimeline : Bool := false
  raiseDpInterrupt : Bool := false

/-- A callback as the parser invokes it; a wait is for the timeline signalled just before. -/
inductive HookCall where
  | enqueueCommand (words : List UInt32)
  | signalTimeline
  | waitForTimeline
  | raiseDpInterrupt
  deriving DecidableEq, Repr

/-- The DPC registers. -/
structure DpcRegisters where
  startReg : UInt32
  endReg : UInt32
  currentReg : UInt32
  statusReg : UInt32

/-- What a call is given: the hooks, both memories by byte offset, and the registers. -/
structure IngestInput where
  hooks : CommandIngestHooks
  dram : UInt32 → UInt32
  spDmem : UInt32 → UInt32
  registers : DpcRegisters

/-- The return statement at which a call ends. -/
inductive IngestExit where
  | emptyRange
  | bufferOverflow
  | outsideDram
  | incompleteCommand
  | consumed
  deriving DecidableEq, Repr

/-- What a call leaves behind, with the callbacks it made in order. -/
structure IngestResult where
  state : CommandIngestState
  registers : DpcRegisters
  hookCalls : List HookCall := []
  exit : IngestExit

def DpcRegisters.dpCurrent (registers : DpcRegisters) : UInt32 := registers.currentReg &&& 0x00FFFFF8

def DpcRegisters.dpEnd (registers : DpcRegisters) : UInt32 := registers.endReg &&& 0x00FFFFF8

def DpcRegisters.unfreeze (registers : DpcRegisters) : DpcRegisters :=
  { registers with statusReg := registers.statusReg &&& ~~~dpStatusFreeze }

def DpcRegisters.moveToEnd (registers : DpcRegisters) : DpcRegisters :=
  { registers with startReg := registers.endReg, currentReg := registers.endReg }

/-- Put one quadword behind the buffered ones. -/
def CommandIngestState.push (state : CommandIngestState) (qword : Qword) : CommandIngestState where
  cmdCur := state.cmdCur
  cmdPtr := state.cmdPtr + 1
  cmdData := fun i =>
    if i = 2 * state.cmdPtr then qword.1
    else if i = 2 * state.cmdPtr + 1 then qword.2 else state.cmdData i

variable (state : CommandIngestState) {length : Nat} (registers : DpcRegisters)
variable {input : IngestInput}

@[simp] theorem CommandIngestState.cmdPtr_push (qword : Qword) :
    (state.push qword).cmdPtr = state.cmdPtr + 1 := rfl

/-- The copy loop: each offset is masked before its two words are read. -/
def copyQwords (memory : UInt32 → UInt32) (mask : UInt32) :
    Nat → UInt32 → CommandIngestState → CommandIngestState
  | 0, _, state => state
  | length + 1, offset, state =>
    let masked := offset &&& mask
    copyQwords memory mask length (masked + 8) (state.push (memory masked, memory (masked + 4)))

/-- The callbacks for a full synchronisation: a synchronous frontend is waited for before the
interrupt. -/
def syncFullCalls (hooks : CommandIngestHooks) : List HookCall :=
  (if hooks.synchronous ∧ hooks.frontendAvailable ∧ hooks.signalTimeline ∧ hooks.waitForTimeline
    then [.signalTimeline, .waitForTimeline] else []) ++
  if hooks.raiseDpInterrupt then [.raiseDpInterrupt] else []

/-- The callbacks for one complete command. -/
def commandCalls (hooks : CommandIngestHooks) (command : UInt32) (words : List UInt32) :
    List HookCall :=
  (if 8 ≤ command ∧ hooks.frontendAvailable ∧ hooks.enqueueCommand then
    [.enqueueCommand words] else []) ++
  if command = 0x29 then syncFullCalls hooks else []

theorem cmdLength_pos (command : UInt32) : 0 < cmdLength command := by
  have hall : ∀ length ∈ cmdLenLut, 0 < length := by decide
  rw [cmdLength, List.getD_eq_getElem?_getD]
  cases hget : cmdLenLut[command.toNat]? with
  | none => simp
  | some length => exact hall length (List.mem_of_getElem? hget)

/-- The parse loop, with the callbacks made and whether it ran out of complete commands. -/
def parseCommands (hooks : CommandIngestHooks) (state : CommandIngestState) :
    CommandIngestState × List HookCall × IngestExit :=
  if state.cmdCur < state.cmdPtr then
    let w1 := state.cmdData (2 * state.cmdCur)
    let command := opcode w1
    let length := cmdLength command
    if state.cmdPtr < state.cmdCur + length then (state, [], .incompleteCommand)
    else
      let words := (List.range (length * 2)).map fun i => state.cmdData (2 * state.cmdCur + i)
      match parseCommands hooks { state with cmdCur := state.cmdCur + length } with
      | (parsed, calls, exit) => (parsed, commandCalls hooks command words ++ calls, exit)
  else ({ state with cmdPtr := 0, cmdCur := 0 }, [], .consumed)
termination_by state.cmdPtr - state.cmdCur
decreasing_by
  rename_i hmore _
  exact Nat.sub_lt_sub_left hmore (Nat.lt_add_of_pos_right (cmdLength_pos _))

/-- One call of the command ingest. -/
def processCommandIngest (state : CommandIngestState) (input : IngestInput) : IngestResult :=
  let registers := input.registers.unfreeze
  let length := (registers.dpEnd - registers.dpCurrent).toInt32
  if length ≤ 0 then { state, registers, exit := .emptyRange }
  else
    let length := (length.toUInt32 >>> 3).toNat
    if (state.cmdPtr + length) &&& 0xFFFF8000 ≠ 0 then { state, registers, exit := .bufferOverflow }
    else if registers.statusReg &&& dpStatusXbusDma ≠ 0 then
      parse input.hooks registers (copyQwords input.spDmem 0xFF8 length registers.dpCurrent state)
    else if registers.dpEnd > 0x7ffffff ∨ registers.dpCurrent > 0x7ffffff then
      { state, registers, exit := .outsideDram }
    else parse input.hooks registers (copyQwords input.dram 0xFFFFF8 length registers.dpCurrent state)
where
  /-- The part of a call after the copy; both returns move the range to its end. -/
  parse (hooks : CommandIngestHooks) (registers : DpcRegisters) (state : CommandIngestState) :
      IngestResult :=
    let parsed := parseCommands hooks state
    { state := parsed.1
      registers := registers.moveToEnd
      hookCalls := parsed.2.1
      exit := parsed.2.2 }

/-- The results of successive calls, each on the parser state the one before it left. -/
def runIngest : CommandIngestState → List IngestInput → CommandIngestState × List IngestResult
  | state, [] => (state, [])
  | state, input :: inputs =>
    let result := processCommandIngest state input
    let rest := runIngest result.state inputs
    (rest.1, result :: rest.2)

def CommandIngestState.qwordAt (state : CommandIngestState) (index : Nat) : Qword :=
  (state.cmdData (2 * index), state.cmdData (2 * index + 1))

def CommandIngestState.pending (state : CommandIngestState) : List Qword :=
  (List.range' state.cmdCur (state.cmdPtr - state.cmdCur)).map state.qwordAt

@[simp] theorem CommandIngestState.length_pending :
    state.pending.length = state.cmdPtr - state.cmdCur := by
  simp [pending]

theorem CommandIngestState.pending_skip (hlength : state.cmdCur + length ≤ state.cmdPtr) :
    ({ state with cmdCur := state.cmdCur + length } : CommandIngestState).pending =
      state.pending.drop length := by
  have hsplit : List.range' state.cmdCur (state.cmdPtr - state.cmdCur) =
      List.range' state.cmdCur length ++
        List.range' (state.cmdCur + length) (state.cmdPtr - (state.cmdCur + length)) := by
    rw [List.range'_append_1]
    congr 1
    omega
  have hpending : state.pending = (List.range' state.cmdCur length).map state.qwordAt ++
      ({ state with cmdCur := state.cmdCur + length } : CommandIngestState).pending := by
    rw [pending, hsplit, List.map_append]
    rfl
  rw [hpending, List.drop_left' (by simp)]

theorem CommandIngestState.take_pending (hlength : state.cmdCur + length ≤ state.cmdPtr) :
    state.pending.take length = (List.range' state.cmdCur length).map state.qwordAt := by
  rw [pending, ← List.map_take, List.take_range'_of_length_ge (by omega)]

theorem CommandIngestState.pending_push (qword : Qword) (hcur : state.cmdCur ≤ state.cmdPtr) :
    (state.push qword).pending = state.pending ++ [qword] := by
  have hsucc : state.cmdPtr + 1 - state.cmdCur = state.cmdPtr - state.cmdCur + 1 := by omega
  have hlast : state.cmdCur + (state.cmdPtr - state.cmdCur) = state.cmdPtr := by omega
  have hold : ∀ i ∈ List.range' state.cmdCur (state.cmdPtr - state.cmdCur),
      (state.push qword).qwordAt i = state.qwordAt i := by
    intro i hi
    have hlt : i < state.cmdPtr := by
      have := (List.mem_range'_1.mp hi).2
      omega
    have h₀ : 2 * i ≠ 2 * state.cmdPtr := by omega
    have h₁ : 2 * i ≠ 2 * state.cmdPtr + 1 := by omega
    have h₂ : 2 * i + 1 ≠ 2 * state.cmdPtr := by omega
    have h₃ : 2 * i + 1 ≠ 2 * state.cmdPtr + 1 := by omega
    simp only [qwordAt, push, if_neg h₀, if_neg h₁, if_neg h₂, if_neg h₃]
  have hnew : (state.push qword).qwordAt state.cmdPtr = qword := by
    simp [qwordAt, push]
  calc (state.push qword).pending
      = (List.range' state.cmdCur (state.cmdPtr - state.cmdCur + 1)).map
          (state.push qword).qwordAt := by rw [← hsucc]; rfl
    _ = (List.range' state.cmdCur (state.cmdPtr - state.cmdCur)).map
          (state.push qword).qwordAt ++ [qword] := by
        rw [List.range'_1_concat, List.map_append, hlast, List.map_singleton, hnew]
    _ = state.pending ++ [qword] := by rw [List.map_congr_left hold]; rfl

/-- The quadwords that the copy loop reads. -/
def readQwords (memory : UInt32 → UInt32) (mask : UInt32) : Nat → UInt32 → List Qword
  | 0, _ => []
  | length + 1, offset =>
    (memory (offset &&& mask), memory ((offset &&& mask) + 4)) ::
      readQwords memory mask length ((offset &&& mask) + 8)

@[simp] theorem length_readQwords (memory : UInt32 → UInt32) (mask : UInt32) (length : Nat)
    (offset : UInt32) : (readQwords memory mask length offset).length = length := by
  induction length generalizing offset with
  | zero => rfl
  | succ length ih => simp [readQwords, ih]

theorem copyQwords_spec (memory : UInt32 → UInt32) (mask : UInt32) (length : Nat) (offset : UInt32)
    (state : CommandIngestState) (hcur : state.cmdCur ≤ state.cmdPtr) :
    (copyQwords memory mask length offset state).cmdCur = state.cmdCur ∧
      (copyQwords memory mask length offset state).cmdPtr = state.cmdPtr + length ∧
      (copyQwords memory mask length offset state).pending =
        state.pending ++ readQwords memory mask length offset := by
  induction length generalizing offset state with
  | zero => simp [copyQwords, readQwords]
  | succ length ih =>
    rw [copyQwords, readQwords]
    obtain ⟨hcur', hptr', hpending'⟩ := ih ((offset &&& mask) + 8)
      (state.push (memory (offset &&& mask), memory ((offset &&& mask) + 4)))
      (Nat.le_succ_of_le hcur)
    refine ⟨hcur', ?_, ?_⟩
    · rw [hptr', CommandIngestState.cmdPtr_push]
      omega
    · rw [hpending', state.pending_push _ hcur]
      simp

def commandExtra (qword : Qword) : Nat := cmdLength (opcode qword.1) - 1

def qwordWords (qwords : List Qword) : List UInt32 := qwords.flatMap fun qword => [qword.1, qword.2]

def frameCalls (hooks : CommandIngestHooks) : List Qword → List HookCall
  | [] => []
  | qword :: qwords => commandCalls hooks (opcode qword.1) (qwordWords (qword :: qwords))

theorem words_eq_qwordWords (length : Nat) :
    (List.range (length * 2)).map (fun i => state.cmdData (2 * state.cmdCur + i)) =
      qwordWords ((List.range' state.cmdCur length).map state.qwordAt) := by
  induction length with
  | zero => rfl
  | succ length ih =>
    have hdouble : (length + 1) * 2 = length * 2 + 1 + 1 := by omega
    have hindex : 2 * state.cmdCur + length * 2 = 2 * (state.cmdCur + length) := by omega
    rw [hdouble, List.range_succ, List.range_succ, List.range'_1_concat]
    simp only [List.map_append, List.map_cons, List.map_nil, ih, qwordWords, List.flatMap_append,
      List.flatMap_cons, List.flatMap_nil, List.append_assoc, List.append_nil, List.cons_append,
      List.nil_append, CommandIngestState.qwordAt]
    rw [← Nat.add_assoc, hindex]

theorem parseCommands_incomplete (hooks : CommandIngestHooks) {state : CommandIngestState}
    (hmore : state.cmdCur < state.cmdPtr)
    (hshort : state.cmdPtr < state.cmdCur + cmdLength (opcode (state.qwordAt state.cmdCur).1)) :
    parseCommands hooks state = (state, [], .incompleteCommand) := by
  rw [parseCommands, if_pos hmore]
  exact if_pos hshort

theorem parseCommands_complete (hooks : CommandIngestHooks) {state : CommandIngestState}
    (hmore : state.cmdCur < state.cmdPtr)
    (hlength : cmdLength (opcode (state.qwordAt state.cmdCur).1) = length)
    (hlong : state.cmdCur + length ≤ state.cmdPtr) :
    parseCommands hooks state =
      let rest := parseCommands hooks { state with cmdCur := state.cmdCur + length }
      (rest.1, frameCalls hooks (state.pending.take length) ++ rest.2.1, rest.2.2) := by
  have hpos : 0 < length := hlength ▸ cmdLength_pos _
  obtain ⟨extra, rfl⟩ := Nat.exists_eq_add_one_of_ne_zero hpos.ne'
  rw [parseCommands, if_pos hmore]
  simp only [CommandIngestState.qwordAt] at hlength
  simp only [hlength]
  rw [if_neg (by omega), words_eq_qwordWords, state.take_pending hlong, List.range'_succ]
  rfl

theorem CommandIngestState.pending_eq_cons (hmore : state.cmdCur < state.cmdPtr) :
    state.pending = state.qwordAt state.cmdCur :: state.pending.drop 1 := by
  rw [← state.pending_skip (by omega)]
  have hsucc : state.cmdPtr - state.cmdCur = state.cmdPtr - (state.cmdCur + 1) + 1 := by omega
  rw [pending, hsucc, List.range'_succ]
  rfl

theorem parseCommands_spec (hooks : CommandIngestHooks) (state : CommandIngestState)
    (hcur : state.cmdCur ≤ state.cmdPtr) :
    (parseCommands hooks state).2.1 =
        (frames commandExtra state.pending).1.flatMap (frameCalls hooks) ∧
      (parseCommands hooks state).1.pending = (frames commandExtra state.pending).2 ∧
      (parseCommands hooks state).1.cmdCur ≤ (parseCommands hooks state).1.cmdPtr ∧
      ((frames commandExtra state.pending).2 = [] →
        (parseCommands hooks state).1.cmdPtr = 0 ∧
          (parseCommands hooks state).2.2 = .consumed) ∧
      ((frames commandExtra state.pending).2 ≠ [] →
        (parseCommands hooks state).1.cmdPtr = state.cmdPtr ∧
          (parseCommands hooks state).2.2 = .incompleteCommand) := by
  induction hremaining : state.cmdPtr - state.cmdCur using Nat.strong_induction_on
    generalizing state with
  | _ remaining ih =>
    by_cases hmore : state.cmdCur < state.cmdPtr
    · have hpending := state.pending_eq_cons hmore
      have hpos := cmdLength_pos (opcode (state.qwordAt state.cmdCur).1)
      by_cases hshort :
          state.cmdPtr < state.cmdCur + cmdLength (opcode (state.qwordAt state.cmdCur).1)
      · have hframes : frames commandExtra state.pending = ([], state.pending) := by
          rw [hpending]
          apply frames_cons_of_lt
          simp only [List.length_drop, CommandIngestState.length_pending, commandExtra]
          omega
        have hne : state.pending ≠ [] := by
          rw [hpending]
          exact List.cons_ne_nil _ _
        rw [parseCommands_incomplete hooks hmore hshort, hframes]
        simp [hcur, hne]
      · have hlong : state.cmdCur + cmdLength (opcode (state.qwordAt state.cmdCur).1) ≤
            state.cmdPtr := by omega
        generalize hlength : cmdLength (opcode (state.qwordAt state.cmdCur).1) = length at hlong hpos
        have hextra : commandExtra (state.qwordAt state.cmdCur) + 1 = length := by
          rw [commandExtra, hlength]
          omega
        have hframes : frames commandExtra state.pending =
            (state.pending.take length :: (frames commandExtra (state.pending.drop length)).1,
              (frames commandExtra (state.pending.drop length)).2) := by
          have hhead : state.pending.head? = some (state.qwordAt state.cmdCur) := by
            rw [hpending]
            rfl
          have hle : commandExtra (state.qwordAt state.cmdCur) + 1 ≤ state.pending.length := by
            rw [state.length_pending]
            omega
          rw [frames_of_head? commandExtra hhead hle, hextra]
        have hih := ih (state.cmdPtr - (state.cmdCur + length)) (by omega)
          { state with cmdCur := state.cmdCur + length } hlong rfl
        rw [state.pending_skip hlong] at hih
        rw [parseCommands_complete hooks hmore hlength hlong, hframes]
        simpa using hih
    · have hempty : state.pending = [] := by
        apply List.eq_nil_of_length_eq_zero
        rw [state.length_pending]
        omega
      rw [parseCommands, if_neg hmore, hempty]
      simp [CommandIngestState.pending]

def DpcRegisters.chunkLength (registers : DpcRegisters) : Nat :=
  if (registers.dpEnd - registers.dpCurrent).toInt32 ≤ 0 then 0
  else ((registers.dpEnd - registers.dpCurrent).toInt32.toUInt32 >>> 3).toNat

def IngestInput.chunk (input : IngestInput) : List Qword :=
  if input.registers.statusReg &&& dpStatusXbusDma ≠ 0 then
    readQwords input.spDmem 0xFF8 input.registers.chunkLength input.registers.dpCurrent
  else readQwords input.dram 0xFFFFF8 input.registers.chunkLength input.registers.dpCurrent

@[simp] theorem IngestInput.length_chunk (input : IngestInput) :
    input.chunk.length = input.registers.chunkLength := by
  rw [chunk]
  split <;> exact length_readQwords ..

theorem toNat_and_rangeMask (reg : UInt32) :
    (reg &&& 0x00FFFFF8).toNat = reg.toNat / 2 ^ 3 % 2 ^ 21 * 2 ^ 3 := by
  rw [UInt32.toNat_and]
  exact and_ones_mul_two_pow reg.toNat 21 3

theorem toInt32_sub_nonpos_iff {a b : UInt32} (ha : a.toNat < 2 ^ 24) (hb : b.toNat < 2 ^ 24) :
    (a - b).toInt32 ≤ 0 ↔ a.toNat ≤ b.toNat := by
  have hsub := UInt32.toNat_sub a b
  have hbmod : (a - b).toInt32.toInt = Int.bmod (a - b).toNat (2 ^ 32) := by
    rw [Int32.toInt, BitVec.toInt_eq_toNat_bmod]
    rfl
  rw [Int32.le_iff_toInt_le, hbmod, Int32.toInt_zero, hsub]
  simp only [Int.bmod]
  omega

theorem DpcRegisters.chunkLength_eq :
    registers.chunkLength = (registers.dpEnd.toNat - registers.dpCurrent.toNat) / 8 := by
  have hend := toNat_and_rangeMask registers.endReg
  have hcurrent := toNat_and_rangeMask registers.currentReg
  have hend' : registers.dpEnd.toNat < 2 ^ 24 := by rw [dpEnd]; omega
  have hcurrent' : registers.dpCurrent.toNat < 2 ^ 24 := by rw [dpCurrent]; omega
  rw [chunkLength]
  split
  case isTrue h =>
    rw [toInt32_sub_nonpos_iff hend' hcurrent'] at h
    omega
  case isFalse h =>
    rw [toInt32_sub_nonpos_iff hend' hcurrent'] at h
    have hsub := UInt32.toNat_sub registers.dpEnd registers.dpCurrent
    have hshift : (3 : UInt32).toNat % 32 = 3 := by decide
    rw [UInt32.toUInt32_toInt32, UInt32.toNat_shiftRight, hsub, hshift, Nat.shiftRight_eq_div_pow]
    omega

theorem DpcRegisters.chunkLength_eq_zero_iff :
    registers.chunkLength = 0 ↔ (registers.dpEnd - registers.dpCurrent).toInt32 ≤ 0 := by
  have hend := toNat_and_rangeMask registers.endReg
  have hcurrent := toNat_and_rangeMask registers.currentReg
  rw [registers.chunkLength_eq, toInt32_sub_nonpos_iff (by rw [dpEnd]; omega)
    (by rw [dpCurrent]; omega)]
  rw [dpEnd, dpCurrent]
  omega

theorem DpcRegisters.chunkLength_lt : registers.chunkLength < 2 ^ 21 := by
  have hend := toNat_and_rangeMask registers.endReg
  rw [registers.chunkLength_eq, dpEnd]
  omega

theorem overflow_iff {qwords : Nat} (h : qwords < 2 ^ 32) :
    qwords &&& 0xFFFF8000 ≠ 0 ↔ 0x7fff < qwords := by
  have hmask := and_ones_mul_two_pow qwords 17 15
  have hvalue : (2 ^ 17 - 1) * 2 ^ 15 = 0xFFFF8000 := by decide
  rw [hvalue] at hmask
  omega

theorem DpcRegisters.xbusDma_unfreeze :
    registers.unfreeze.statusReg &&& dpStatusXbusDma = registers.statusReg &&& dpStatusXbusDma := by
  rw [unfreeze, UInt32.and_assoc]
  rfl

theorem DpcRegisters.not_outsideDram :
    ¬(registers.dpEnd > 0x7ffffff ∨ registers.dpCurrent > 0x7ffffff) := by
  have hend := toNat_and_rangeMask registers.endReg
  have hcurrent := toNat_and_rangeMask registers.currentReg
  have hlimit : (0x7ffffff : UInt32).toNat = 0x7ffffff := by decide
  rw [dpEnd, dpCurrent, gt_iff_lt, gt_iff_lt, UInt32.lt_iff_toNat_lt, UInt32.lt_iff_toNat_lt,
    hlimit]
  omega

theorem processCommandIngest_of_empty (hempty : input.registers.chunkLength = 0) :
    processCommandIngest state input =
      { state, registers := input.registers.unfreeze, exit := .emptyRange } := by
  rw [DpcRegisters.chunkLength_eq_zero_iff] at hempty
  exact if_pos hempty

theorem processCommandIngest_of_nonempty (hchunk : input.registers.chunkLength ≠ 0) :
    processCommandIngest state input =
      if (state.cmdPtr + input.registers.chunkLength) &&& 0xFFFF8000 ≠ 0 then
        { state, registers := input.registers.unfreeze, exit := .bufferOverflow }
      else if input.registers.statusReg &&& dpStatusXbusDma ≠ 0 then
        processCommandIngest.parse input.hooks input.registers.unfreeze
          (copyQwords input.spDmem 0xFF8 input.registers.chunkLength input.registers.dpCurrent state)
      else
        processCommandIngest.parse input.hooks input.registers.unfreeze
          (copyQwords input.dram 0xFFFFF8 input.registers.chunkLength input.registers.dpCurrent
            state) := by
  rw [Ne, DpcRegisters.chunkLength_eq_zero_iff] at hchunk
  have hlength : ((input.registers.dpEnd - input.registers.dpCurrent).toInt32.toUInt32 >>> 3).toNat =
      input.registers.chunkLength := by rw [DpcRegisters.chunkLength, if_neg hchunk]
  rw [← input.registers.xbusDma_unfreeze, ← hlength]
  refine (if_neg hchunk).trans ?_
  refine if_congr Iff.rfl rfl (if_congr Iff.rfl rfl ?_)
  exact if_neg input.registers.not_outsideDram

/-- What a call leaves when it accepts its chunk. -/
structure ConsumesChunk (state : CommandIngestState) (input : IngestInput) (result : IngestResult) :
    Prop where
  exit_ne : result.exit ≠ .bufferOverflow
  registers_eq : result.registers = input.registers.unfreeze.moveToEnd
  hookCalls_eq : result.hookCalls =
    (frames commandExtra (state.pending ++ input.chunk)).1.flatMap (frameCalls input.hooks)
  pending_eq : result.state.pending = (frames commandExtra (state.pending ++ input.chunk)).2

/-- A parser state between two calls. -/
structure CommandIngestState.Ready (state : CommandIngestState) : Prop where
  cur_le : state.cmdCur ≤ state.cmdPtr
  ptr_le : state.cmdPtr ≤ 0x7fff
  frames_pending : frames commandExtra state.pending = ([], state.pending)
  ptr_eq_zero : state.pending = [] → state.cmdPtr = 0

theorem processCommandIngest_of_overflow {state : CommandIngestState} (hstate : state.Ready)
    (hchunk : input.registers.chunkLength ≠ 0)
    (hover : 0x7fff < state.cmdPtr + input.registers.chunkLength) :
    processCommandIngest state input =
      { state, registers := input.registers.unfreeze, exit := .bufferOverflow } := by
  have hptr := hstate.ptr_le
  have hlt := input.registers.chunkLength_lt
  rw [processCommandIngest_of_nonempty state hchunk, if_pos]
  rw [overflow_iff (by omega)]
  exact hover

theorem processCommandIngest_of_fits {state : CommandIngestState} (hstate : state.Ready)
    (hchunk : input.registers.chunkLength ≠ 0)
    (hfits : state.cmdPtr + input.registers.chunkLength ≤ 0x7fff) :
    ConsumesChunk state input (processCommandIngest state input) ∧
      (processCommandIngest state input).state.cmdCur ≤
        (processCommandIngest state input).state.cmdPtr ∧
      (processCommandIngest state input).state.cmdPtr =
        if (frames commandExtra (state.pending ++ input.chunk)).2 = [] then 0
        else state.cmdPtr + input.registers.chunkLength := by
  have hlt := input.registers.chunkLength_lt
  have hno : ¬((state.cmdPtr + input.registers.chunkLength) &&& 0xFFFF8000 ≠ 0) := by
    rw [overflow_iff (by omega)]
    omega
  obtain ⟨copied, hresult, hcur, hptr, hpending⟩ : ∃ copied : CommandIngestState,
      processCommandIngest state input =
        processCommandIngest.parse input.hooks input.registers.unfreeze copied ∧
      copied.cmdCur = state.cmdCur ∧
      copied.cmdPtr = state.cmdPtr + input.registers.chunkLength ∧
      copied.pending = state.pending ++ input.chunk := by
    rw [processCommandIngest_of_nonempty state hchunk, if_neg hno, IngestInput.chunk]
    split <;> exact ⟨_, rfl, copyQwords_spec _ _ _ _ _ hstate.cur_le⟩
  have hle : copied.cmdCur ≤ copied.cmdPtr := by
    have := hstate.cur_le
    omega
  obtain ⟨hcalls, htail, hbound, hdone, hmore⟩ := parseCommands_spec input.hooks copied hle
  rw [hpending] at hcalls htail hdone hmore
  rw [hresult, processCommandIngest.parse]
  refine ⟨⟨?_, rfl, hcalls, htail⟩, hbound, ?_⟩
  · by_cases hempty : (frames commandExtra (state.pending ++ input.chunk)).2 = []
    · simp [(hdone hempty).2]
    · simp [(hmore hempty).2]
  · split
    case isTrue hempty => exact (hdone hempty).1
    case isFalse hne => rw [(hmore hne).1, hptr]

end ParallelN64.Rdp
