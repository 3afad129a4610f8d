import ParallelN64.Rsp.ScalarUnit

/-!
# The scalar unit as paraLLEl compiles it

`jit_instruction` emits host operations on 64-bit registers. A MIPS register lives in the low half
of its host register; a load from the register cache takes it as it is or extends it by zeros or by
its sign. The data memory is read as a little-endian host reads it, except for unaligned accesses,
which call functions of the emulator.
-/

namespace ParallelN64.Rsp.Jit

/-- The host registers that an instruction uses, and the slots of the frame. -/
inductive HostReg where
  | mips (r : RegNum)
  | scratch0
  | scratch1
  | condBranchTaken
  | indirectPc
  | illegalCondBranchTaken
  | illegalIndirect
  deriving DecidableEq, Repr

/-- A host word that an operation reads: a MIPS register as the cache loads it, or a host
register. -/
inductive Operand where
  | noext (r : RegNum)
  | sext (r : RegNum)
  | zext (r : RegNum)
  | host (reg : HostReg)
  deriving DecidableEq, Repr

/-- The operations of the code generator on two words. -/
inductive Alu where
  | add | sub | and | or | xor | lsh | rsh | rshU | lt | ltU | le | gt | ge | eq | ne
  deriving DecidableEq, Repr

/-- The widths of host loads and stores. -/
inductive Access where
  | c | uc | s | us | i
  deriving DecidableEq, Repr

/-- The functions `rsp_unaligned_*` called for unaligned accesses. Bytes are never unaligned. -/
inductive UnalignedOp where
  | nullptr | lh | lw | lhu | sh | sw
  deriving DecidableEq, Repr

inductive HostOp where
  | movi (d : HostReg) (imm : BitVec 64)
  | movr (d : HostReg) (a : Operand)
  | alui (op : Alu) (d : HostReg) (a : Operand) (imm : BitVec 64)
  | alur (op : Alu) (d : HostReg) (a b : Operand)
  | ldxr (access : Access) (d addr : HostReg)
  | stxr (access : Access) (addr : HostReg) (a : Operand)
  | callLoad (f : UnalignedOp) (d addr : HostReg)
  | callStore (f : UnalignedOp) (addr : HostReg) (a : Operand)
  deriving DecidableEq, Repr

/-- Emitted code: an operation, or a test of the bits of a mask that jumps over the first part to
the call. -/
inductive Emitted where
  | op (o : HostOp)
  | bmsi (reg : HostReg) (mask : BitVec 64) (aligned : List HostOp) (call : HostOp)
  deriving DecidableEq, Repr

structure Host where
  regs : HostReg → BitVec 64
  dmem : Dmem

variable (h : Host)

def Host.setReg (d : HostReg) (v : BitVec 64) : Host :=
  { h with regs := Function.update h.regs d v }

def Host.mipsReg (r : RegNum) : BitVec 64 := if r = 0 then 0 else h.regs (.mips r)

def Host.read : Operand → BitVec 64
  | .noext r => h.mipsReg r
  | .sext r => ((h.mipsReg r).setWidth 32).signExtend 64
  | .zext r => ((h.mipsReg r).setWidth 32).setWidth 64
  | .host reg => h.regs reg

def flag (b : Bool) : BitVec 64 := if b then 1 else 0

def Alu.eval (a b : BitVec 64) : Alu → BitVec 64
  | .add => a + b
  | .sub => a - b
  | .and => a &&& b
  | .or => a ||| b
  | .xor => a ^^^ b
  | .lsh => a <<< b.toNat
  | .rsh => a.sshiftRight b.toNat
  | .rshU => a >>> b.toNat
  | .lt => flag (a.slt b)
  | .ltU => flag (a.ult b)
  | .le => flag (a.sle b)
  | .gt => flag (b.slt a)
  | .ge => flag (b.sle a)
  | .eq => flag (a == b)
  | .ne => flag (a != b)

def hostHalf (dmem : Dmem) (offset : Nat) : BitVec 16 := dmem (offset + 1) ++ dmem offset

def hostWord (dmem : Dmem) (offset : Nat) : BitVec 32 :=
  dmem (offset + 3) ++ dmem (offset + 2) ++ (dmem (offset + 1) ++ dmem offset)

def Access.load (dmem : Dmem) (offset : Nat) : Access → BitVec 64
  | .c => (dmem offset).signExtend 64
  | .uc => (dmem offset).setWidth 64
  | .s => (hostHalf dmem offset).signExtend 64
  | .us => (hostHalf dmem offset).setWidth 64
  | .i => (hostWord dmem offset).signExtend 64

def Access.bytes : Access → Nat
  | .c => 1
  | .uc => 1
  | .s => 2
  | .us => 2
  | .i => 4

def Access.store (dmem : Dmem) (offset : Nat) (data : BitVec 64) (access : Access) : Dmem :=
  fun i => if offset ≤ i ∧ i < offset + access.bytes then data.extractLsb' (8 * (i - offset)) 8
    else dmem i

/-- `BYTE_ENDIAN_FIXUP`. -/
def byteEndianFixup (x off : BitVec 64) : Nat := (((x + off) ^^^ 3) &&& 0xFFF).toNat

def rspUnalignedLh (dram : Dmem) (addr : BitVec 64) : BitVec 64 :=
  let off0 := byteEndianFixup addr 0
  let off1 := byteEndianFixup addr 1
  (((dram off0).setWidth 32 <<< 8 ||| (dram off1).setWidth 32 <<< 0).setWidth 16).signExtend 64

def rspUnalignedLw (dram : Dmem) (addr : BitVec 64) : BitVec 64 :=
  let off0 := byteEndianFixup addr 0
  let off1 := byteEndianFixup addr 1
  let off2 := byteEndianFixup addr 2
  let off3 := byteEndianFixup addr 3
  ((dram off0).setWidth 32 <<< 24 ||| (dram off1).setWidth 32 <<< 16 |||
    (dram off2).setWidth 32 <<< 8 ||| (dram off3).setWidth 32 <<< 0).signExtend 64

def rspUnalignedLhu (dram : Dmem) (addr : BitVec 64) : BitVec 64 :=
  let off0 := byteEndianFixup addr 0
  let off1 := byteEndianFixup addr 1
  (((dram off0).setWidth 32 <<< 8 ||| (dram off1).setWidth 32 <<< 0).setWidth 16).setWidth 64

def rspUnalignedSh (dram : Dmem) (addr data : BitVec 64) : Dmem :=
  let off0 := byteEndianFixup addr 0
  let off1 := byteEndianFixup addr 1
  let dram := Function.update dram off0 (((data.sshiftRight 8) &&& 0xFF).setWidth 8)
  Function.update dram off1 (((data.sshiftRight 0) &&& 0xFF).setWidth 8)

def rspUnalignedSw (dram : Dmem) (addr data : BitVec 64) : Dmem :=
  let off0 := byteEndianFixup addr 0
  let off1 := byteEndianFixup addr 1
  let off2 := byteEndianFixup addr 2
  let off3 := byteEndianFixup addr 3
  let dram := Function.update dram off0 (((data.sshiftRight 24) &&& 0xFF).setWidth 8)
  let dram := Function.update dram off1 (((data.sshiftRight 16) &&& 0xFF).setWidth 8)
  let dram := Function.update dram off2 (((data.sshiftRight 8) &&& 0xFF).setWidth 8)
  Function.update dram off3 (((data.sshiftRight 0) &&& 0xFF).setWidth 8)

def UnalignedOp.load (dram : Dmem) (addr : BitVec 64) : UnalignedOp → BitVec 64
  | .lh => rspUnalignedLh dram addr
  | .lw => rspUnalignedLw dram addr
  | .lhu => rspUnalignedLhu dram addr
  | _ => 0

def UnalignedOp.store (dram : Dmem) (addr data : BitVec 64) : UnalignedOp → Dmem
  | .sh => rspUnalignedSh dram addr data
  | .sw => rspUnalignedSw dram addr data
  | _ => dram

def HostOp.run : HostOp → Host
  | .movi d imm => h.setReg d imm
  | .movr d a => h.setReg d (h.read a)
  | .alui op d a imm => h.setReg d (op.eval (h.read a) imm)
  | .alur op d a b => h.setReg d (op.eval (h.read a) (h.read b))
  | .ldxr access d addr => h.setReg d (access.load h.dmem (h.regs addr).toNat)
  | .stxr access addr a =>
    { h with dmem := access.store h.dmem (h.regs addr).toNat (h.read a) }
  | .callLoad f d addr => h.setReg d (f.load h.dmem (h.regs addr))
  | .callStore f addr a => { h with dmem := f.store h.dmem (h.regs addr) (h.read a) }

def Emitted.run : Emitted → Host
  | .op o => o.run h
  | .bmsi reg mask aligned call =>
    if h.regs reg &&& mask = 0 then aligned.foldl HostOp.run h else call.run h

structure InstructionInfo where
  branchTarget : BitVec 32 := 0
  indirect : Bool := false
  branch : Bool := false
  conditional : Bool := false
  deriving DecidableEq, Repr

abbrev Emission := List Emitted × InstructionInfo

def code (ops : List HostOp) : List Emitted := ops.map .op

def plain (ops : List HostOp) : Emission := (code ops, {})

def jitSaveIndirectRegister (r : RegNum) : HostOp := .movr .indirectPc (.noext r)

/-- `FLUSH_IMPOSSIBLE_DELAY_SLOT`: a branch in a delay slot keeps what the first one decided. -/
def flushImpossibleDelaySlot (lastInfo : InstructionInfo) : List HostOp :=
  (if lastInfo.branch && lastInfo.conditional then
    [.movr .illegalCondBranchTaken (.host .condBranchTaken)] else []) ++
  (if lastInfo.branch && lastInfo.indirect then
    [.movr .illegalIndirect (.host .indirectPc)] else [])

section Instruction

variable (pc instr : BitVec 32) (lastInfo : InstructionInfo) (nextInstructionIsBranchTarget : Bool)

def simm : BitVec 64 := (immOf instr).signExtend 64

def uimm : BitVec 64 := (immOf instr).setWidth 64

def targetPc : BitVec 32 :=
  let offset := instr <<< 2
  (pc + 4 + offset) &&& 0xFFC

def jumpTarget : BitVec 32 := (instr &&& 0x3FF) <<< 2

def linkValue : BitVec 64 := ((pc + 8) &&& 0xFFC).setWidth 64

/-- The address in scratch register 0, and the access or the call. -/
def jitEmitStoreOperation (access : Access) (unalignedOp : UnalignedOp) (endianFlip : BitVec 32) :
    Emission :=
  let alignMask := 3 - endianFlip
  let flip : List HostOp :=
    if endianFlip ≠ 0 then [.alui .xor .scratch0 (.host .scratch0) (endianFlip.setWidth 64)]
    else []
  let aligned := flip ++ [.stxr access .scratch0 (.noext (rtOf instr))]
  let address : List HostOp :=
    [.alui .add .scratch0 (.noext (rsOf instr)) (simm instr),
      .alui .and .scratch0 (.host .scratch0) 0xFFF]
  if alignMask ≠ 0 then
    (code address ++ [.bmsi .scratch0 (alignMask.setWidth 64) aligned
      (.callStore unalignedOp .scratch0 (.noext (rtOf instr)))], {})
  else plain (address ++ aligned)

def jitEmitLoadOperation (access : Access) (unalignedOp : UnalignedOp) (endianFlip : BitVec 32) :
    Emission :=
  let alignMask := endianFlip ^^^ 3
  if rtOf instr = 0 then plain []
  else
    let flip : List HostOp :=
      if endianFlip ≠ 0 then [.alui .xor .scratch0 (.host .scratch0) (endianFlip.setWidth 64)]
      else []
    let aligned := flip ++ [.ldxr access .scratch1 .scratch0]
    let address : List HostOp :=
      [.alui .add .scratch0 (.noext (rsOf instr)) (simm instr),
        .alui .and .scratch0 (.host .scratch0) 0xFFF]
    let result : HostOp := .movr (.mips (rtOf instr)) (.host .scratch1)
    if alignMask ≠ 0 then
      (code address ++ [.bmsi .scratch0 (alignMask.setWidth 64) aligned
        (.callLoad unalignedOp .scratch1 .scratch0), .op result], {})
    else plain (address ++ aligned ++ [result])

/-- `NOP_IF_RD_ZERO`. -/
def nopIfRdZero (ops : List HostOp) : Emission :=
  plain (if rdOf instr = 0 then [] else ops)

/-- `NOP_IF_RT_ZERO`. -/
def nopIfRtZero (ops : List HostOp) : Emission :=
  plain (if rtOf instr = 0 then [] else ops)

/-- `THREE_REG_OP`. -/
def threeRegOp (op : Alu) (ext : RegNum → Operand) : Emission :=
  nopIfRdZero instr [.alur op (.mips (rdOf instr)) (ext (rsOf instr)) (ext (rtOf instr))]

/-- `TWO_REG_IMM_OP`. -/
def twoRegImmOp (op : Alu) (imm : BitVec 64) (ext : RegNum → Operand) : Emission :=
  nopIfRtZero instr [.alui op (.mips (rtOf instr)) (ext (rsOf instr)) imm]

def shiftOp (op : Alu) (ext : RegNum → Operand) : Emission :=
  nopIfRdZero instr
    [.alui op (.mips (rdOf instr)) (ext (rtOf instr)) ((saOf instr).setWidth 64)]

def shiftRegOp (op : Alu) (ext : RegNum → Operand) : Emission :=
  nopIfRdZero instr
    [.alui .and .scratch0 (.noext (rsOf instr)) 31,
      .alur op (.mips (rdOf instr)) (ext (rtOf instr)) (.host .scratch0)]

/-- If someone can branch to the delay slot, an unconditional branch becomes a conditional one. -/
def unconditional (ops : List HostOp) (info : InstructionInfo) : Emission :=
  if nextInstructionIsBranchTarget then
    (code (ops ++ [.movi .condBranchTaken 1]), { info with branch := true, conditional := true })
  else (code (ops ++ [.movi .condBranchTaken 0]), { info with branch := true })

def conditional (ops : List HostOp) : Emission :=
  (code (flushImpossibleDelaySlot lastInfo ++ ops),
    { branch := true, conditional := true, branchTarget := targetPc pc instr })

def jitSpecial : Emission :=
  let rd := rdOf instr
  let rs := rsOf instr
  let rt := rtOf instr
  match functOf instr with
  | 0o00 => shiftOp instr .lsh .noext
  | 0o02 => shiftOp instr .rshU .zext
  | 0o03 => shiftOp instr .rsh .sext
  | 0o04 => shiftRegOp instr .lsh .noext
  | 0o06 => shiftRegOp instr .rshU .zext
  | 0o07 => shiftRegOp instr .rsh .sext
  | 0o10 =>
    unconditional nextInstructionIsBranchTarget
      (flushImpossibleDelaySlot lastInfo ++ [jitSaveIndirectRegister rs]) { indirect := true }
  | 0o11 =>
    let link : List HostOp := if rd ≠ 0 then [.movi (.mips rd) (linkValue pc)] else []
    unconditional nextInstructionIsBranchTarget
      (flushImpossibleDelaySlot lastInfo ++ [jitSaveIndirectRegister rs] ++ link)
      { indirect := true }
  | 0o40 => threeRegOp instr .add .noext
  | 0o41 => threeRegOp instr .add .noext
  | 0o42 => threeRegOp instr .sub .noext
  | 0o43 => threeRegOp instr .sub .noext
  | 0o44 => threeRegOp instr .and .noext
  | 0o45 => threeRegOp instr .or .noext
  | 0o46 => threeRegOp instr .xor .noext
  | 0o47 =>
    nopIfRdZero instr
      [.alur .or (.mips rd) (.noext rt) (.noext rs), .alui .xor (.mips rd) (.noext rd) (-1)]
  | 0o52 => threeRegOp instr .lt .sext
  | 0o53 => threeRegOp instr .ltU .zext
  | _ => plain []

def jitRegimm : Emission :=
  let rs := rsOf instr
  match (rtOf instr).toNat with
  | 0o20 =>
    conditional pc instr lastInfo
      [.alui .lt .condBranchTaken (.sext rs) 0, .movi (.mips 31) (linkValue pc)]
  | 0o00 => conditional pc instr lastInfo [.alui .lt .condBranchTaken (.sext rs) 0]
  | 0o21 =>
    conditional pc instr lastInfo
      [.alui .ge .condBranchTaken (.sext rs) 0, .movi (.mips 31) (linkValue pc)]
  | 0o01 => conditional pc instr lastInfo [.alui .ge .condBranchTaken (.sext rs) 0]
  | _ => plain []

/-- `jit_instruction` on a word of the scalar unit other than `BREAK`. -/
def jitInstruction : Emission :=
  let rs := rsOf instr
  let rt := rtOf instr
  match opcodeOf instr with
  | 0o00 => jitSpecial pc instr lastInfo nextInstructionIsBranchTarget
  | 0o01 => jitRegimm pc instr lastInfo
  | 0o03 =>
    unconditional nextInstructionIsBranchTarget
      (flushImpossibleDelaySlot lastInfo ++ [.movi (.mips 31) (linkValue pc)])
      { branchTarget := jumpTarget instr }
  | 0o02 =>
    unconditional nextInstructionIsBranchTarget (flushImpossibleDelaySlot lastInfo)
      { branchTarget := jumpTarget instr }
  | 0o04 =>
    conditional pc instr lastInfo [.alur .eq .condBranchTaken (.sext rs) (.sext rt)]
  | 0o05 =>
    conditional pc instr lastInfo [.alur .ne .condBranchTaken (.sext rs) (.sext rt)]
  | 0o06 =>
    -- On register 0 it is unconditional, and no decision is computed.
    if rs ≠ 0 then conditional pc instr lastInfo [.alui .le .condBranchTaken (.sext rs) 0]
    else (code (flushImpossibleDelaySlot lastInfo),
      { branch := true, branchTarget := targetPc pc instr })
  | 0o07 =>
    if rs = 0 then plain (flushImpossibleDelaySlot lastInfo)
    else conditional pc instr lastInfo [.alui .gt .condBranchTaken (.sext rs) 0]
  | 0o10 =>
    if rs = 0 then nopIfRtZero instr [.movi (.mips rt) (simm instr)]
    else twoRegImmOp instr .add (simm instr) .noext
  | 0o11 =>
    if rs = 0 then nopIfRtZero instr [.movi (.mips rt) (simm instr)]
    else twoRegImmOp instr .add (simm instr) .noext
  | 0o12 => twoRegImmOp instr .lt (simm instr) .sext
  | 0o13 => twoRegImmOp instr .ltU (simm instr) .sext
  | 0o14 => twoRegImmOp instr .and (uimm instr) .noext
  | 0o15 =>
    if rs = 0 then nopIfRtZero instr [.movi (.mips rt) (uimm instr)]
    else twoRegImmOp instr .or (uimm instr) .noext
  | 0o16 => twoRegImmOp instr .xor (uimm instr) .noext
  | 0o17 =>
    nopIfRtZero instr [.movi (.mips rt) (((immOf instr).setWidth 32 <<< 16).signExtend 64)]
  | 0o40 => jitEmitLoadOperation instr .c .nullptr 3
  | 0o41 => jitEmitLoadOperation instr .s .lh 2
  | 0o43 => jitEmitLoadOperation instr .i .lw 0
  | 0o44 => jitEmitLoadOperation instr .uc .nullptr 3
  | 0o45 => jitEmitLoadOperation instr .us .lhu 2
  | 0o50 => jitEmitStoreOperation instr .c .nullptr 3
  | 0o51 => jitEmitStoreOperation instr .s .sh 2
  | 0o53 => jitEmitStoreOperation instr .i .sw 0
  | _ => plain []

/-- The registers after the emitted code, and the target of a taken branch: an indirect one is
looked up as a word of the instruction memory. -/
def retire : Retired :=
  let (ops, info) := jitInstruction pc instr lastInfo nextInstructionIsBranchTarget
  let final := ops.foldl Emitted.run h
  { sr := fun r => (final.regs (.mips r)).setWidth 32
    dmem := final.dmem
    target :=
      if info.branch ∧ (info.conditional → final.regs .condBranchTaken ≠ 0) then
        some (if info.indirect then (final.regs .indirectPc).setWidth 32 &&& 0xFFC
          else info.branchTarget)
      else none }

end Instruction

end ParallelN64.Rsp.Jit
