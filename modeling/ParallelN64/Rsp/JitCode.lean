import ParallelN64.Core.InPlace
import ParallelN64.Rsp.SpDma

/-!
# The code cache of the RSP JIT

paraLLEl compiles the instruction memory in blocks. A block is found by its first word: through a
table of pointers, else through the hash of its words. The pointers of a code block of 256 bytes
are dropped when the words of this code block or of the next one may have changed.
-/

namespace ParallelN64.Rsp

open ParallelN64.Core

abbrev Imem := Nat → UInt32

def hostWord (bytes : Place SpRegion → UInt8) (p : Place SpRegion) : UInt32 :=
  (bytes p).toUInt32 ||| (bytes (p.at 1)).toUInt32 <<< 8 |||
    (bytes (p.at 2)).toUInt32 <<< 16 ||| (bytes (p.at 3)).toUInt32 <<< 24

/-- `state.imem`: the words of the upper memory of the RSP. -/
def SpMachine.imem (m : SpMachine) : Imem :=
  fun w => hostWord m.buffers.bytes ⟨.sp, 0x1000 + 4 * w⟩

def imemWords (imem : Imem) (pc count : Nat) : List UInt32 :=
  (List.range count).map fun i => imem (pc + i)

/-- What a word means for the flow of control, with the targets as words of the IMEM. -/
inductive Flow where
  | next
  | register
  | halt
  | jump (target : Nat)
  | branch (target : Nat)
  deriving DecidableEq, Repr

/-- The decoding that `analyze_static_end` and `jit_mark_block_entries` share, for the word at
`pc`. -/
def flow (pc : Nat) (instr : UInt32) : Flow :=
  if instr >>> 25 = 0x25 then .next
  else match (instr >>> 26).toNat with
    | 0 => match (instr &&& 63).toNat with
      | 8 => .register
      | 9 => .register
      | 13 => .halt
      | _ => .next
    | 1 => match ((instr >>> 16) &&& 31).toNat with
      | 0 => .branch ((UInt32.ofNat (pc + 1) + instr) &&& 0x3FF).toNat
      | 1 => .branch ((UInt32.ofNat (pc + 1) + instr) &&& 0x3FF).toNat
      | 16 => .branch ((UInt32.ofNat (pc + 1) + instr) &&& 0x3FF).toNat
      | 17 => .branch ((UInt32.ofNat (pc + 1) + instr) &&& 0x3FF).toNat
      | _ => .next
    | 2 => .jump (instr &&& 0x3FF).toNat
    | 3 => .jump (instr &&& 0x3FF).toNat
    | 4 => .branch ((UInt32.ofNat (pc + 1) + instr) &&& 0x3FF).toNat
    | 5 => .branch ((UInt32.ofNat (pc + 1) + instr) &&& 0x3FF).toNat
    | 6 => .branch ((UInt32.ofNat (pc + 1) + instr) &&& 0x3FF).toNat
    | 7 => .branch ((UInt32.ofNat (pc + 1) + instr) &&& 0x3FF).toNat
    | _ => .next

/-- The loop of `CPU::analyze_static_end` from word `pc + i` on. -/
def staticEndLoop (imem : Imem) (pc stop : Nat) : Nat → Nat → Nat → Nat
  | 0, _, maxStaticPc => maxStaticPc
  | n + 1, i, maxStaticPc =>
    let forwardGoto := decide (pc + i + 1 < maxStaticPc)
    let maxStaticPc := if pc + i + 1 ≥ maxStaticPc then pc + i + 1 else maxStaticPc
    match flow (pc + i) (imem (pc + i)) with
    | .next => staticEndLoop imem pc stop n (i + 1) maxStaticPc
    | .register =>
      if !forwardGoto then max (pc + i + 2) maxStaticPc
      else staticEndLoop imem pc stop n (i + 1) maxStaticPc
    | .halt =>
      if !forwardGoto then maxStaticPc else staticEndLoop imem pc stop n (i + 1) maxStaticPc
    | .branch target =>
      if pc ≤ target ∧ target < stop then
        staticEndLoop imem pc stop n (i + 1) (max maxStaticPc (target + 1))
      else staticEndLoop imem pc stop n (i + 1) maxStaticPc
    | .jump target =>
      if pc ≤ target ∧ target < stop then
        if !forwardGoto then max (pc + i + 2) maxStaticPc
        else staticEndLoop imem pc stop n (i + 1) (max maxStaticPc (target + 1))
      else if !forwardGoto then max (pc + i + 2) maxStaticPc
      else staticEndLoop imem pc stop n (i + 1) maxStaticPc

/-- `CPU::analyze_static_end`. -/
def analyzeStaticEnd (imem : Imem) (pc stop : Nat) : Nat :=
  min (staticEndLoop imem pc stop (stop - pc) 0 pc) stop

/-- A compiled block with the words it was compiled from. -/
structure Block where
  pc : Nat
  words : List UInt32
  deriving DecidableEq, Repr

/-- `CPU::jit_region`: the code depends on the words of the region and where it begins. -/
def jitRegion (pcWord : Nat) (words : List UInt32) : Block := ⟨pcWord, words⟩

/-- `CPU::hash_imem`. -/
def hashImem (pc : Nat) (data : List UInt32) : UInt64 :=
  let h : UInt64 := 0xCBF29CE484222325
  let h := (h * 0x100000001B3) ^^^ UInt64.ofNat pc
  let h := (h * 0x100000001B3) ^^^ UInt64.ofNat data.length
  data.foldl (fun h word => (h * 0x100000001B3) ^^^ word.toUInt64) h

/-- A block was entered for an address, while the IMEM held these words. -/
structure Entry where
  pc : UInt32
  block : Block
  imem : Imem

/-- The state of the CPU that finds blocks. The contents that were hashed and the entries are
ghosts. -/
structure Cpu where
  state : SpMachine
  cachedImem : Imem
  blocks : Nat → Option Block
  cachedBlocks : Nat → UInt64 → Option Block
  hashed : List (Nat × List UInt32)
  entered : List Entry

/-- The CPU before its first task. -/
def Cpu.init (state : SpMachine) : Cpu where
  state := { state with dirtyBlocks := 0 }
  cachedImem := fun _ => 0
  blocks := fun _ => none
  cachedBlocks := fun _ _ => none
  hashed := []
  entered := []

/-- `state.dirty_blocks & (1 << i)`. -/
def isDirty (dirtyBlocks : UInt32) (i : Nat) : Bool := dirtyBlocks.toNat.testBit i

section Cpu

variable (c : Cpu)

/-- `CPU::invalidate_imem`. -/
def invalidateImem : Cpu :=
  { c with state := { c.state with
      dirtyBlocks := (List.range 16).foldl (fun dirty i =>
        if (List.range 64).any fun k => c.cachedImem (i * 64 + k) != c.state.imem (i * 64 + k) then
          dirty ||| ((3 <<< UInt32.ofNat i) >>> 1)
        else dirty) c.state.dirtyBlocks } }

/-- `CPU::invalidate_code`. -/
def invalidateCode : Cpu :=
  if c.state.dirtyBlocks = 0 then c
  else { c with
    blocks := fun pc => if isDirty c.state.dirtyBlocks (pc / 64) then none else c.blocks pc
    cachedImem := refresh 64 (isDirty c.state.dirtyBlocks) c.cachedImem c.state.imem
    state := { c.state with dirtyBlocks := 0 } }

/-- `CPU::get_jit_block`. -/
def getJitBlock (pc : UInt32) : Block × Cpu :=
  let pc := (pc &&& 0xFFF).toNat
  let wordPc := pc >>> 2
  match c.blocks wordPc with
  | some block => (block, c)
  | none =>
    let stop := ((pc + 512) >>> 8) <<< 6
    let stop := min stop 1024
    let stop := analyzeStaticEnd c.state.imem wordPc stop
    let words := imemWords c.state.imem wordPc (stop - wordPc)
    let hash := hashImem wordPc words
    let c := { c with hashed := (wordPc, words) :: c.hashed }
    match c.cachedBlocks wordPc hash with
    | some block => (block, { c with blocks := Function.update c.blocks wordPc (some block) })
    | none =>
      let block := jitRegion wordPc words
      (block, { c with
        blocks := Function.update c.blocks wordPc (some block)
        cachedBlocks := Function.update c.cachedBlocks wordPc
          (Function.update (c.cachedBlocks wordPc) hash (some block)) })

/-- `rsp_enter`: every way from one block to another leads through it. -/
def rspEnter (pc : UInt32) : Cpu :=
  let found := getJitBlock c pc
  { found.2 with entered := ⟨pc, found.1, c.state.imem⟩ :: found.2.entered }

end Cpu

/-- Who is running: the host, the loop over `CPU::run`, or compiled code. -/
inductive Phase where
  | host
  | task
  | code
  deriving DecidableEq, Repr

/-- The CPU and who is running. -/
structure JitState where
  cpu : Cpu
  phase : Phase

/-- What happens next. -/
inductive Action where
  /-- The host changes memories and registers. -/
  | host (state : SpMachine)
  | doRspCycles
  | run
  /-- Compiled code goes on at an address outside its block, or begins there. -/
  | enter (pc : UInt32)
  /-- Instructions change registers, the DMEM and the RDRAM. No store leaves the DMEM. -/
  | instructions (state : SpMachine)
  /-- An `MTC0` starts a DMA into the memory of the RSP. -/
  | readLength (val : UInt32)
  /-- Compiled code returns to `CPU::run`, which returns. -/
  | leave
  /-- The loop over `CPU::run` ends. -/
  | finish

def inImem (p : Place SpRegion) : Bool := p.region == .sp && decide (0x1000 ≤ p.index)

/-- Another machine with the IMEM and the dirty blocks of this one. -/
def SpMachine.withImemOf (state old : SpMachine) : SpMachine :=
  { state with
    dirtyBlocks := old.dirtyBlocks
    buffers := { state.buffers with
      bytes := fun p => if inImem p then old.buffers.bytes p else state.buffers.bytes p } }

/-- `parallelRSPDoRspCycles`, `CPU::run` and what compiled code does, one piece at a time. An
action at the wrong time is no step. -/
def JitState.step (s : JitState) (a : Action) : Option JitState :=
  match s.phase, a with
  | .host, .host state =>
    some { s with cpu := { s.cpu with
      state := { state with dirtyBlocks := s.cpu.state.dirtyBlocks } } }
  | .host, .doRspCycles =>
    if s.cpu.state.status &&& 3 ≠ 0 then some s
    else some ⟨invalidateImem s.cpu, .task⟩
  | .task, .run =>
    if s.cpu.state.status &&& 1 ≠ 0 then none else some ⟨invalidateCode s.cpu, .code⟩
  | .task, .finish => some { s with phase := .host }
  | .code, .enter pc => some { s with cpu := rspEnter s.cpu pc }
  | .code, .instructions state =>
    some { s with cpu := { s.cpu with state := state.withImemOf s.cpu.state } }
  | .code, .readLength val =>
    let state := rspMtc0ReadLength s.cpu.state val
    -- `MODE_CHECK_FLAGS` leaves the compiled code at once
    some ⟨{ s.cpu with state := state }, if state.dirtyBlocks ≠ 0 then .task else .code⟩
  | .code, .leave => some { s with phase := .task }
  | _, _ => none

def JitState.run (state : SpMachine) (actions : List Action) : Option JitState :=
  actions.foldlM JitState.step ⟨Cpu.init state, .host⟩

end ParallelN64.Rsp
