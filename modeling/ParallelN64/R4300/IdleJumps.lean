import ParallelN64.R4300.IdleCount
import ParallelN64.R4300.RefillEntry

/-!
# Jumps and their idle variants

`DECLARE_JUMP` makes two functions of each jump: the jump itself, and one for a jump to itself
with an empty delay slot, which moves Count up to the next interrupt at once. The interpreter
chooses between them each time it meets the jump. The cached interpreter has the same two, with
its blocks in place of addresses.
-/

namespace ParallelN64.R4300

open ParallelN64.Core

abbrev Gpr := BitVec 5 → BitVec 64

/-- The arguments of `DECLARE_JUMP`. A condition looks at the general registers and FCR31, and
link register 0 stands for none. -/
structure JumpDeclaration where
  destination : Word → Word
  condition : Gpr → Word → Bool
  link : BitVec 5
  likely : Bool
  cop1 : Bool

def rsOf (op : Word) : BitVec 5 := op.extractLsb' 21 5
def rtOf (op : Word) : BitVec 5 := op.extractLsb' 16 5
def imm16sOf (op : Word) : Word := (op.setWidth 16).signExtend 32
def jumpOf (op : Word) : Word := op &&& 0x3FFFFFF#32

def fcr31CmpBit : Word := 0x800000#32

/-- The jumps that have an idle variant. -/
inductive JumpName where
  | j | jal
  | beq | bne | blez | bgtz
  | beql | bnel | blezl | bgtzl
  | bc1f | bc1t | bc1fl | bc1tl
  | bltz | bgez | bltzl | bgezl
  | bltzal | bgezal | bltzall | bgezall
  deriving DecidableEq

section Declarations

variable (op : Word)

/-- A jump inside its segment. -/
def absoluteJump (link : BitVec 5) : JumpDeclaration where
  destination pcaddr := (jumpOf op <<< 2) ||| ((pcaddr + 4#32) &&& 0xF0000000#32)
  condition _ _ := true
  link := link
  likely := false
  cop1 := false

/-- A jump from its delay slot. -/
def relativeJump (condition : Gpr → Word → Bool) (link : BitVec 5)
    (likely cop1 : Bool) : JumpDeclaration where
  destination pcaddr := pcaddr + (imm16sOf op + 1#32) * 4#32
  condition := condition
  link := link
  likely := likely
  cop1 := cop1

/-- The conditions. -/
def irsEqIrt (reg : Gpr) (_ : Word) : Bool := decide (reg (rsOf op) = reg (rtOf op))
def irsNeIrt (reg : Gpr) (_ : Word) : Bool := decide (reg (rsOf op) ≠ reg (rtOf op))
def irsLe (reg : Gpr) (_ : Word) : Bool := decide ((reg (rsOf op)).toInt ≤ 0)
def irsGt (reg : Gpr) (_ : Word) : Bool := decide ((reg (rsOf op)).toInt > 0)
def irsLt (reg : Gpr) (_ : Word) : Bool := decide ((reg (rsOf op)).toInt < 0)
def irsGe (reg : Gpr) (_ : Word) : Bool := decide ((reg (rsOf op)).toInt ≥ 0)
def cmpClear (_ : Gpr) (fcr31 : Word) : Bool := decide (fcr31 &&& fcr31CmpBit = 0#32)
def cmpSet (_ : Gpr) (fcr31 : Word) : Bool := decide (fcr31 &&& fcr31CmpBit ≠ 0#32)

/-- The declarations of the jumps. -/
def JumpName.declaration : JumpName → JumpDeclaration
  | .j => absoluteJump op 0#5
  | .jal => absoluteJump op 31#5
  | .beq => relativeJump op (irsEqIrt op) 0#5 false false
  | .bne => relativeJump op (irsNeIrt op) 0#5 false false
  | .blez => relativeJump op (irsLe op) 0#5 false false
  | .bgtz => relativeJump op (irsGt op) 0#5 false false
  | .beql => relativeJump op (irsEqIrt op) 0#5 true false
  | .bnel => relativeJump op (irsNeIrt op) 0#5 true false
  | .blezl => relativeJump op (irsLe op) 0#5 true false
  | .bgtzl => relativeJump op (irsGt op) 0#5 true false
  | .bc1f => relativeJump op cmpClear 0#5 false true
  | .bc1t => relativeJump op cmpSet 0#5 false true
  | .bc1fl => relativeJump op cmpClear 0#5 true true
  | .bc1tl => relativeJump op cmpSet 0#5 true true
  | .bltz => relativeJump op (irsLt op) 0#5 false false
  | .bgez => relativeJump op (irsGe op) 0#5 false false
  | .bltzl => relativeJump op (irsLt op) 0#5 true false
  | .bgezl => relativeJump op (irsGe op) 0#5 true false
  | .bltzal => relativeJump op (irsLt op) 31#5 false false
  | .bgezal => relativeJump op (irsGe op) 31#5 false false
  | .bltzall => relativeJump op (irsLt op) 31#5 true false
  | .bgezall => relativeJump op (irsGe op) 31#5 true false

/-- The jumps in the switch of `InterpretOpcode`. -/
def namedJump : Option JumpName :=
  match (op >>> 26).toNat with
  | 1 =>
    match (rtOf op).toNat with
    | 0 => some .bltz
    | 1 => some .bgez
    | 2 => some .bltzl
    | 3 => some .bgezl
    | 16 => some .bltzal
    | 17 => some .bgezal
    | 18 => some .bltzall
    | 19 => some .bgezall
    | _ => none
  | 2 => some .j
  | 3 => some .jal
  | 4 => some .beq
  | 5 => some .bne
  | 6 => some .blez
  | 7 => some .bgtz
  | 17 =>
    if rsOf op = 8#5 then
      match ((op >>> 16) &&& 3#32).toNat with
      | 0 => some .bc1f
      | 1 => some .bc1t
      | 2 => some .bc1fl
      | _ => some .bc1tl
    else none
  | 20 => some .beql
  | 21 => some .bnel
  | 22 => some .blezl
  | 23 => some .bgtzl
  | _ => none

/-- The part of `IS_ABSOLUTE_IDLE_LOOP` and `IS_RELATIVE_IDLE_LOOP` about the jump itself. -/
def JumpName.loops (addr : Word) : JumpName → Bool
  | .j | .jal =>
    decide (jumpOf op = (addr &&& 0x0FFFFFFF#32) >>> 2) &&
      decide (addr &&& 0x0FFFFFFF#32 ≠ 0x0FFFFFFC#32)
  | _ => decide (imm16sOf op = -1#32)

end Declarations

/-- The processor in front of the interrupt check of a jump, and whether an interrupt is due. -/
structure Visit (ρ μ : Type) where
  cpu : Cpu ρ μ
  due : Bool

section Jumps

variable {ρ μ : Type} (b : Board ρ μ) (fcr31 : Word) (other : Option Word → Cpu ρ μ → Cpu ρ μ)
  (j : JumpDeclaration) (s : Cpu ρ μ)

def Cpu.interpretOther : Option Word → Cpu ρ μ
  | some 0#32 => s.addToPc
  | word => other word s

/-- `InterpretOpcode` in a delay slot. -/
def Cpu.interpretSlot : Cpu ρ μ :=
  let (s, word) := s.fastMemAccess b s.device.pc
  s.interpretOther other word

def Cpu.link (link : BitVec 5) : Cpu ρ μ :=
  if link ≠ 0#5 then s.setGpr link ((s.device.pc + 8#32).signExtend 64) else s

def Cpu.enterSlot : Cpu ρ μ :=
  let s := s.addToPc
  { s with device := { s.device with delaySlot := true } }

/-- The delay slot is run, and then the jump is carried out unless an exception came first. -/
def Cpu.runSlot (takeJump : Bool) (jumpTarget : Word) : Cpu ρ μ :=
  let s := s.enterSlot.interpretSlot b other
  let d := { s.device.cp0UpdateCount b.cfg with delaySlot := false }
  { s with device := if takeJump && d.skipJump = 0#32 then { d with pc := jumpTarget } else d }

def Cpu.skipSlot : Cpu ρ μ :=
  { s with device := { s.device with pc := s.device.pc + 8#32 }.cp0UpdateCount b.cfg }

def Cpu.finishTurn : Visit ρ μ :=
  let d := { s.device with lastAddr := s.device.pc }
  ⟨{ s with device := d }, d.interruptDue⟩

/-- The function `name` of a declaration. -/
def JumpDeclaration.run : Visit ρ μ :=
  let takeJump := j.condition s.gpr fcr31
  let jumpTarget := j.destination s.device.pc
  if j.cop1 && s.cop1Unusable then ⟨s.raiseCop1Unusable b, false⟩
  else
    let s := s.link j.link
    if !j.likely || takeJump then (s.runSlot b other takeJump jumpTarget).finishTurn
    else (s.skipSlot b).finishTurn

/-- The function `name_IDLE`. -/
def JumpDeclaration.runIdle : Visit ρ μ :=
  let takeJump := j.condition s.gpr fcr31
  if j.cop1 && s.cop1Unusable then ⟨s.raiseCop1Unusable b, false⟩
  else if takeJump then
    let d := s.device.cp0UpdateCount b.cfg
    let skip := d.interrupts.nextInterrupt - d.count
    if 3 < skip.toInt then ⟨{ s with device := d.advanceCount (skip &&& 0xFFFFFFFC#32) }, false⟩
    else j.run b fcr31 other { s with device := d }
  else j.run b fcr31 other s

/-- `InterpretOpcode`, with the idle variants or without them. -/
def Cpu.interpretOpcode (shortcut : Bool) : Visit ρ μ :=
  match s.fastMemAccess b s.device.pc with
  | (s, some op) =>
    match namedJump op with
    | some name =>
      let j := name.declaration op
      if shortcut && name.loops op s.device.pc then
        match s.fastMemAccess b (s.device.pc + 4#32) with
        | (s, some 0#32) => j.runIdle b fcr31 other s
        | (s, _) => j.run b fcr31 other s
      else j.run b fcr31 other s
    | none => ⟨s.interpretOther other (some op), false⟩
  | (s, none) => ⟨other none s, false⟩

/-- What is left where a loop ends: the registers, Count among them, and the event that is
dispatched. -/
structure Ending where
  gpr : Gpr
  fpr : BitVec 5 → BitVec 64
  cp0 : Cp0Reg → Word
  pc : Word
  event : Option EventType

/-- What a visit leaves. -/
def Visit.ending (v : Visit ρ μ) : Ending where
  gpr := v.cpu.gpr
  fpr := v.cpu.fpr
  cp0 := v.cpu.device.cp0
  pc := v.cpu.device.pc
  event := if v.due then v.cpu.device.dispatched else none

def Visit.ended (addr : Word) (v : Visit ρ μ) : Bool := v.due || decide (v.cpu.device.pc ≠ addr)

def Cpu.RunEnds (shortcut : Bool) : Visit ρ μ → Prop :=
  Ends (Visit.ended s.device.pc) (fun v => v.cpu.interpretOpcode b fcr31 other shortcut) ⟨s, false⟩

def Cpu.ShortcutInvisible : Prop :=
  ∀ e, (∃ v, s.RunEnds b fcr31 other false v ∧ v.ending = e) ↔
    ∃ v, s.RunEnds b fcr31 other true v ∧ v.ending = e

end Jumps

end ParallelN64.R4300
