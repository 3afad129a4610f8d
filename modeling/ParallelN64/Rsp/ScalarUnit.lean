import Mathlib.Logic.Function.Basic

/-!
# The scalar unit as cxd4 interprets it

An instruction word is decoded and executed on 32 registers of 32 bits and the 4096 bytes of the
data memory, whose words are in host order. A branch sets `temp_PC`; the loop goes on there after
the delay slot.
-/

namespace ParallelN64.Rsp

abbrev RegNum := BitVec 5

abbrev Dmem := Nat → BitVec 8

def opcodeOf (instr : BitVec 32) : Nat := (instr >>> 26).toNat

def rsOf (instr : BitVec 32) : RegNum := instr.extractLsb' 21 5

def rtOf (instr : BitVec 32) : RegNum := instr.extractLsb' 16 5

def rdOf (instr : BitVec 32) : RegNum := instr.extractLsb' 11 5

def saOf (instr : BitVec 32) : BitVec 5 := instr.extractLsb' 6 5

def functOf (instr : BitVec 32) : Nat := (instr &&& 63).toNat

def immOf (instr : BitVec 32) : BitVec 16 := instr.setWidth 16

/-- What an instruction leaves: the registers, the data memory and the target of a taken
branch. -/
structure Retired where
  sr : RegNum → BitVec 32
  dmem : Dmem
  target : Option (BitVec 32)

namespace Su

def ra : RegNum := 31

def zero : RegNum := 0

def fitImem (pc : BitVec 32) : BitVec 32 := pc &&& 0xFFF &&& 0xFFC

def slotOff : BitVec 32 := 0

def linkOff : BitVec 32 := 4

structure State where
  sr : RegNum → BitVec 32
  dmem : Dmem
  tempPc : BitVec 32

variable (s : State)

def State.setPc (address : BitVec 32) : State :=
  { s with tempPc := 0x04001000 + fitImem address }

def State.setReg (r : RegNum) (v : BitVec 32) : State :=
  { s with sr := Function.update s.sr r v }

/-- `SR[zero] = 0`. -/
def State.clearZero : State := s.setReg zero 0

def j (inst : BitVec 32) : State := s.setPc (4 * inst)

def jal (inst PC : BitVec 32) : State :=
  (s.setReg ra (fitImem (PC + linkOff))).setPc (4 * inst)

def branchIf (taken : Bool) (inst PC : BitVec 32) : State × Bool :=
  if taken then (s.setPc (PC + 4 * inst + slotOff), true) else (s, false)

def beq (inst PC : BitVec 32) : State × Bool :=
  branchIf s (s.sr (rsOf inst) == s.sr (rtOf inst)) inst PC

def bne (inst PC : BitVec 32) : State × Bool :=
  branchIf s (s.sr (rsOf inst) != s.sr (rtOf inst)) inst PC

def blez (inst PC : BitVec 32) : State × Bool :=
  branchIf s ((s.sr (rsOf inst)).sle 0) inst PC

def bgtz (inst PC : BitVec 32) : State × Bool :=
  branchIf s ((0 : BitVec 32).slt (s.sr (rsOf inst))) inst PC

def flag (b : Bool) : BitVec 32 := if b then 1 else 0

def andi (inst : BitVec 32) : State :=
  (s.setReg (rtOf inst) (s.sr (rsOf inst) &&& (immOf inst).setWidth 32)).clearZero

def ori (inst : BitVec 32) : State :=
  (s.setReg (rtOf inst) (s.sr (rsOf inst) ||| (immOf inst).setWidth 32)).clearZero

def xori (inst : BitVec 32) : State :=
  (s.setReg (rtOf inst) (s.sr (rsOf inst) ^^^ (immOf inst).setWidth 32)).clearZero

def lui (inst : BitVec 32) : State :=
  (s.setReg (rtOf inst) ((immOf inst).setWidth 32 <<< 16)).clearZero

def addiu (inst : BitVec 32) : State :=
  (s.setReg (rtOf inst) (s.sr (rsOf inst) + (immOf inst).signExtend 32)).clearZero

def slti (inst : BitVec 32) : State :=
  (s.setReg (rtOf inst)
    (flag ((s.sr (rsOf inst)).slt ((immOf inst).signExtend 32)))).clearZero

def sltiu (inst : BitVec 32) : State :=
  (s.setReg (rtOf inst)
    (flag ((s.sr (rsOf inst)).ult ((immOf inst).setWidth 32)))).clearZero

def bes (address : BitVec 32) : BitVec 32 := address ^^^ 3

/-- `DMEM[BES(address) & 0x00000FFF]`. -/
def dmemIndex (address : BitVec 32) : Nat := (bes address &&& 0xFFF).toNat

def addressOf (inst : BitVec 32) : BitVec 32 :=
  s.sr (rsOf inst) + (immOf inst).signExtend 32

/-- `SR_B(scalar, i)`: byte 0 is the top byte. -/
def srB (x : BitVec 32) (i : Nat) : BitVec 8 := x.extractLsb' (8 * (3 - i)) 8

def setSrB (x : BitVec 32) (i : Nat) (b : BitVec 8) : BitVec 32 :=
  (x &&& ~~~((0xFF : BitVec 32) <<< (8 * (3 - i)))) ||| b.setWidth 32 <<< (8 * (3 - i))

def State.loadByte (r : RegNum) (i : Nat) (address : BitVec 32) : State :=
  s.setReg r (setSrB (s.sr r) i (s.dmem (dmemIndex address)))

def State.storeByte (address : BitVec 32) (b : BitVec 8) : State :=
  { s with dmem := Function.update s.dmem (dmemIndex address) b }

def lb (inst : BitVec 32) : State :=
  let addr := addressOf s inst
  let s := s.setReg (rtOf inst) ((s.dmem (dmemIndex addr)).setWidth 32)
  (s.setReg (rtOf inst) (((s.sr (rtOf inst)).setWidth 8).signExtend 32)).clearZero

def halfAt (addr : BitVec 32) : BitVec 32 :=
  (s.dmem (dmemIndex (addr + 0))).setWidth 32 <<< 8 |||
    (s.dmem (dmemIndex (addr + 1))).setWidth 32 <<< 0

def lh (inst : BitVec 32) : State :=
  let addr := addressOf s inst
  let s := s.setReg (rtOf inst) (halfAt s addr)
  (s.setReg (rtOf inst) (((s.sr (rtOf inst)).setWidth 16).signExtend 32)).clearZero

def lw (inst : BitVec 32) : State :=
  let addr := addressOf s inst
  let s := s.loadByte (rtOf inst) 0 (addr + 0)
  let s := s.loadByte (rtOf inst) 1 (addr + 1)
  let s := s.loadByte (rtOf inst) 2 (addr + 2)
  (s.loadByte (rtOf inst) 3 (addr + 3)).clearZero

def lbu (inst : BitVec 32) : State :=
  let addr := addressOf s inst
  (s.setReg (rtOf inst) ((s.dmem (dmemIndex addr)).setWidth 32)).clearZero

def lhu (inst : BitVec 32) : State :=
  let addr := addressOf s inst
  (s.setReg (rtOf inst) (halfAt s addr)).clearZero

def sb (inst : BitVec 32) : State :=
  s.storeByte (addressOf s inst) ((s.sr (rtOf inst) &&& 0xFF).setWidth 8)

def sh (inst : BitVec 32) : State :=
  let addr := addressOf s inst
  let s := s.storeByte (addr + 0) (srB (s.sr (rtOf inst)) 2)
  s.storeByte (addr + 1) (srB (s.sr (rtOf inst)) 3)

def sw (inst : BitVec 32) : State :=
  let addr := addressOf s inst
  let s := s.storeByte (addr + 0) (srB (s.sr (rtOf inst)) 0)
  let s := s.storeByte (addr + 1) (srB (s.sr (rtOf inst)) 1)
  let s := s.storeByte (addr + 2) (srB (s.sr (rtOf inst)) 2)
  s.storeByte (addr + 3) (srB (s.sr (rtOf inst)) 3)

def maskSa (sa : BitVec 32) : Nat := (sa &&& 31).toNat

/-- `SR[rd] = v; SR[zero] = 0`. -/
def State.setRd (inst v : BitVec 32) : State := (s.setReg (rdOf inst) v).clearZero

/-- The result is 1 for a jump and -1 for a halt, whose status bits are not the scalar unit's. -/
def special (inst PC : BitVec 32) : State × Int :=
  let rs := rsOf inst
  let rt := rtOf inst
  match functOf inst with
  | 0o00 => (s.setRd inst (s.sr rt <<< maskSa (inst >>> 6)), 0)
  | 0o02 => (s.setRd inst (s.sr rt >>> maskSa (inst >>> 6)), 0)
  | 0o03 => (s.setRd inst ((s.sr rt).sshiftRight (maskSa (inst >>> 6))), 0)
  | 0o04 => (s.setRd inst (s.sr rt <<< maskSa (s.sr rs)), 0)
  | 0o06 => (s.setRd inst (s.sr rt >>> maskSa (s.sr rs)), 0)
  | 0o07 => (s.setRd inst ((s.sr rt).sshiftRight (maskSa (s.sr rs))), 0)
  | 0o11 =>
    -- JALR writes its link and falls through to JR.
    let s := s.setRd inst (fitImem (PC + linkOff))
    (s.setPc (s.sr rs), 1)
  | 0o10 => (s.setPc (s.sr rs), 1)
  | 0o15 => (s, -1)
  | 0o40 => (s.setRd inst (s.sr rs + s.sr rt), 0)
  | 0o41 => (s.setRd inst (s.sr rs + s.sr rt), 0)
  | 0o42 => (s.setRd inst (s.sr rs - s.sr rt), 0)
  | 0o43 => (s.setRd inst (s.sr rs - s.sr rt), 0)
  | 0o44 => (s.setRd inst (s.sr rs &&& s.sr rt), 0)
  | 0o45 => (s.setRd inst (s.sr rs ||| s.sr rt), 0)
  | 0o46 => (s.setRd inst (s.sr rs ^^^ s.sr rt), 0)
  | 0o47 => (s.setRd inst (~~~(s.sr rs ||| s.sr rt)), 0)
  | 0o52 => (s.setRd inst (flag ((s.sr rs).slt (s.sr rt))), 0)
  | 0o53 => (s.setRd inst (flag ((s.sr rs).ult (s.sr rt))), 0)
  | _ => (s, 0)

def regimm (inst PC : BitVec 32) : State × Bool :=
  let base := rsOf inst
  match (rtOf inst).toNat with
  | 0o20 =>
    -- BLTZAL writes its link and falls through to BLTZ.
    let s := s.setReg ra (fitImem (PC + linkOff))
    branchIf s ((s.sr base).slt 0) inst PC
  | 0o00 => branchIf s ((s.sr base).slt 0) inst PC
  | 0o21 =>
    let s := s.setReg ra (fitImem (PC + linkOff))
    branchIf s ((0 : BitVec 32).sle (s.sr base)) inst PC
  | 0o01 => branchIf s ((0 : BitVec 32).sle (s.sr base)) inst PC
  | _ => (s, true)

/-- One turn of the loop of `run_task` on a word of the scalar unit; `PC` is already past it. -/
def step (inst PC : BitVec 32) : State × Bool :=
  match opcodeOf inst with
  | 0o00 => ((special s inst PC).1, (special s inst PC).2 == 1)
  | 0o01 => regimm s inst PC
  | 0o02 => (j s inst, true)
  | 0o03 => (jal s inst PC, true)
  | 0o04 => beq s inst PC
  | 0o05 => bne s inst PC
  | 0o06 => blez s inst PC
  | 0o07 => bgtz s inst PC
  | 0o10 => (addiu s inst, false)
  | 0o11 => (addiu s inst, false)
  | 0o12 => (slti s inst, false)
  | 0o13 => (sltiu s inst, false)
  | 0o14 => (andi s inst, false)
  | 0o15 => (ori s inst, false)
  | 0o16 => (xori s inst, false)
  | 0o17 => (lui s inst, false)
  | 0o40 => (lb s inst, false)
  | 0o41 => (lh s inst, false)
  | 0o43 => (lw s inst, false)
  | 0o44 => (lbu s inst, false)
  | 0o45 => (lhu s inst, false)
  | 0o50 => (sb s inst, false)
  | 0o51 => (sh s inst, false)
  | 0o53 => (sw s inst, false)
  | _ => (s, false)

/-- The word at `pc` executed outside a delay slot: a jump goes on at `FIT_IMEM(temp_PC)`. -/
def retire (pc inst : BitVec 32) : Retired :=
  let (next, jump) := step s inst (pc + 4)
  { sr := next.sr, dmem := next.dmem
    target := if jump then some (fitImem next.tempPc) else none }

end Su

end ParallelN64.Rsp
