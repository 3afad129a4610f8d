import ParallelN64.Rsp.RegisterLedger
import ParallelN64.Rsp.ScalarJit

/-!
# The register cache as the JIT uses it

`jit_instruction` and the functions around it make calls of the register cache, one after the
other; the code they emit in between writes host registers and calls functions. From no locks each
of them ends with no locks, and all their operations are issued. What the emitted code computes is
left open.
-/

namespace ParallelN64.Rsp

namespace Issue

open Jit (InstructionInfo linkValue simm uimm)

/-- What emitted code computes when it runs. -/
structure Values (n : Nat) where
  result : Nat → BitVec 64
  hosts : Nat → Fin n → BitVec 64
  called : BitVec 32

section Instruction

variable {n : Nat} (x : Values n) (rNum : Nat) (pc instr : BitVec 32) (lastInfo : InstructionInfo)
  (nextInstructionIsBranchTarget : Bool)

def rs : Nat := (rsOf instr).toNat
def rt : Nat := (rtOf instr).toNat
def rd : Nat := (rdOf instr).toNat

/-- `jit_save_indirect_register`. -/
def jitSaveIndirectRegister (r : Nat) : List (CacheOp n) := [.load .noext r, .unlock r]

/-- `jit_save_illegal_cond_branch_taken`. -/
def jitSaveIllegalCondBranchTaken : List (CacheOp n) :=
  [.load .noext condBranchTaken, .unlock condBranchTaken]

/-- `FLUSH_IMPOSSIBLE_DELAY_SLOT`. The indirect register is only copied within the frame. -/
def flushImpossibleDelaySlot : List (CacheOp n) :=
  if lastInfo.branch && lastInfo.conditional then jitSaveIllegalCondBranchTaken else []

/-- A store, with a call where the address may be unaligned. -/
def jitEmitStoreOperation (endianFlip : BitVec 32) : List (CacheOp n) :=
  let alignMask := 3 - endianFlip
  [.load .noext (rt instr), .load .noext (rs instr), .modify scratchRegister0,
    .clobber (x.hosts 0)] ++
  if alignMask ≠ 0 then
    [.unlock (rt instr), .unlock (rs instr), .unlock scratchRegister0,
      .flushCallerSaveRegisters rNum, .clobber (x.hosts 1)]
  else
    [.clobber (x.hosts 1), .unlock (rt instr), .unlock (rs instr), .unlock scratchRegister0]

/-- A load. -/
def jitEmitLoadOperation (endianFlip : BitVec 32) : List (CacheOp n) :=
  let alignMask := endianFlip ^^^ 3
  if rt instr = 0 then []
  else
    [.load .noext (rs instr), .modify scratchRegister0, .clobber (x.hosts 0),
      .modify scratchRegister1] ++
    (if alignMask ≠ 0 then
      [.unlock (rs instr), .unlock scratchRegister0, .unlock scratchRegister1,
        .flushCallerSaveRegisters rNum, .clobber (x.hosts 1)]
    else
      [.clobber (x.hosts 1), .unlock (rs instr), .unlock scratchRegister0,
        .unlock scratchRegister1]) ++
    [.modify (rt instr), .write (rt instr) (x.result 0), .unlock (rt instr)]

/-- A shift by a constant. -/
def shiftOp (ext : LoadExt) : List (CacheOp n) :=
  if rd instr = 0 then []
  else
    [.load ext (rt instr), .modify (rd instr), .write (rd instr) (x.result 0),
      .unlock (rt instr), .unlock (rd instr)]

/-- A shift by a register. -/
def shiftRegOp (ext : LoadExt) : List (CacheOp n) :=
  if rd instr = 0 then []
  else
    [.load ext (rt instr), .load .noext (rs instr), .modify scratchRegister0,
      .clobber (x.hosts 0), .unlock (rs instr), .modify (rd instr),
      .write (rd instr) (x.result 0), .unlock (rt instr), .unlock (rd instr),
      .unlock scratchRegister0]

/-- `THREE_REG_OP`. -/
def threeRegOp (ext : LoadExt) : List (CacheOp n) :=
  if rd instr = 0 then []
  else
    [.load ext (rs instr), .load ext (rt instr), .modify (rd instr),
      .write (rd instr) (x.result 0), .unlock (rs instr), .unlock (rt instr),
      .unlock (rd instr)]

/-- `NOR` loads the other way round and writes its result in two steps. -/
def norOp : List (CacheOp n) :=
  if rd instr = 0 then []
  else
    [.load .noext (rt instr), .load .noext (rs instr), .modify (rd instr),
      .write (rd instr) (x.result 0), .write (rd instr) (x.result 1), .unlock (rt instr),
      .unlock (rs instr), .unlock (rd instr)]

/-- `TWO_REG_IMM_OP`. -/
def twoRegImmOp (ext : LoadExt) : List (CacheOp n) :=
  if rt instr = 0 then []
  else
    [.load ext (rs instr), .modify (rt instr), .write (rt instr) (x.result 0),
      .unlock (rs instr), .unlock (rt instr)]

/-- A constant goes into `rt`. -/
def immediateOp (value : BitVec 64) : List (CacheOp n) :=
  if rt instr = 0 then [] else [.immediate (rt instr) value, .unlock (rt instr)]

/-- The decision of a branch that is always taken: it is needed where the delay slot is a branch
target. -/
def unconditional : CacheOp n :=
  .immediate condBranchTaken (if nextInstructionIsBranchTarget then 1 else 0)

def branchOn (r : Nat) : List (CacheOp n) :=
  flushImpossibleDelaySlot lastInfo ++
    [.load .sext r, .modify condBranchTaken, .write condBranchTaken (x.result 0), .unlock r,
      .unlock condBranchTaken]

/-- A decision on two registers. -/
def branchOnBoth : List (CacheOp n) :=
  flushImpossibleDelaySlot lastInfo ++
    [.load .sext (rs instr), .load .sext (rt instr), .modify condBranchTaken,
      .write condBranchTaken (x.result 0), .unlock (rs instr), .unlock (rt instr),
      .unlock condBranchTaken]

def link : List (CacheOp n) := [.immediate 31 (linkValue pc), .unlock 31]

def jitSpecial : List (CacheOp n) :=
  match functOf instr with
  | 0o00 => shiftOp x instr .noext
  | 0o02 => shiftOp x instr .zext
  | 0o03 => shiftOp x instr .sext
  | 0o04 => shiftRegOp x instr .noext
  | 0o06 => shiftRegOp x instr .zext
  | 0o07 => shiftRegOp x instr .sext
  | 0o10 =>
    flushImpossibleDelaySlot lastInfo ++ jitSaveIndirectRegister (rs instr) ++
      [unconditional nextInstructionIsBranchTarget, .unlock condBranchTaken]
  | 0o11 =>
    flushImpossibleDelaySlot lastInfo ++ jitSaveIndirectRegister (rs instr) ++
      (if rd instr ≠ 0 then [.immediate (rd instr) (linkValue pc), .unlock (rd instr)] else []) ++
      [unconditional nextInstructionIsBranchTarget, .unlock condBranchTaken]
  | 0o15 => [.flushRegisterWindow]
  | 0o40 | 0o41 | 0o42 | 0o43 | 0o44 | 0o45 | 0o46 => threeRegOp x instr .noext
  | 0o47 => norOp x instr
  | 0o52 => threeRegOp x instr .sext
  | 0o53 => threeRegOp x instr .zext
  | _ => []

def jitRegimm : List (CacheOp n) :=
  match rt instr with
  | 0o20 | 0o21 => branchOn x lastInfo (rs instr) ++ link pc
  | 0o00 | 0o01 => branchOn x lastInfo (rs instr)
  | _ => []

/-- `MFC0` and `MTC0` flush everything; the call reads or writes the register file. -/
def jitCop0 : List (CacheOp n) :=
  match rs instr with
  | 0o00 => [.flushRegisterWindow, .clobber (x.hosts 0)] ++
      if rt instr = 0 then [] else [.call (rt instr) x.called]
  | 0o04 => [.flushRegisterWindow, .clobber (x.hosts 0)]
  | _ => []

/-- Only one register is flushed for moves of the vector unit. -/
def jitCop2 : List (CacheOp n) :=
  match rs instr with
  | 0o00 | 0o02 =>
    [.flushCallerSaveRegisters rNum, .flushMipsRegister (rt instr), .clobber (x.hosts 0)] ++
      if rt instr = 0 then [] else [.call (rt instr) x.called]
  | 0o04 | 0o06 =>
    [.flushCallerSaveRegisters rNum, .flushMipsRegister (rt instr), .clobber (x.hosts 0)]
  | _ => []

/-- Loads and stores of the vector unit, where there is one of the number. -/
def jitVectorAccess (count : Nat) (hole : Option Nat) : List (CacheOp n) :=
  if rd instr < count ∧ hole ≠ some (rd instr) then
    [.flushCallerSaveRegisters rNum, .flushMipsRegister (rs instr), .clobber (x.hosts 0)]
  else []

/-- `jit_instruction`. -/
def jitInstruction : List (CacheOp n) :=
  if instr >>> 25 = 0x25 then [.flushCallerSaveRegisters rNum, .clobber (x.hosts 0)]
  else
    match opcodeOf instr with
    | 0o00 => jitSpecial x pc instr lastInfo nextInstructionIsBranchTarget
    | 0o01 => jitRegimm x pc instr lastInfo
    | 0o03 =>
      flushImpossibleDelaySlot lastInfo ++
        [.immediate 31 (linkValue pc), unconditional nextInstructionIsBranchTarget, .unlock 31,
          .unlock condBranchTaken]
    | 0o02 =>
      flushImpossibleDelaySlot lastInfo ++
        [unconditional nextInstructionIsBranchTarget, .unlock condBranchTaken]
    | 0o04 | 0o05 => branchOnBoth x instr lastInfo
    | 0o06 | 0o07 =>
      if rs instr ≠ 0 then branchOn x lastInfo (rs instr) else flushImpossibleDelaySlot lastInfo
    | 0o10 | 0o11 =>
      if rs instr = 0 then immediateOp instr (simm instr) else twoRegImmOp x instr .noext
    | 0o12 | 0o13 => twoRegImmOp x instr .sext
    | 0o14 | 0o16 => twoRegImmOp x instr .noext
    | 0o15 => if rs instr = 0 then immediateOp instr (uimm instr) else twoRegImmOp x instr .noext
    | 0o17 => immediateOp instr (((immOf instr).setWidth 32 <<< 16).signExtend 64)
    | 0o20 => jitCop0 x instr
    | 0o22 => jitCop2 x rNum instr
    | 0o40 | 0o44 => jitEmitLoadOperation x rNum instr 3
    | 0o41 | 0o45 => jitEmitLoadOperation x rNum instr 2
    | 0o43 | 0o47 => jitEmitLoadOperation x rNum instr 0
    | 0o50 => jitEmitStoreOperation x rNum instr 3
    | 0o51 => jitEmitStoreOperation x rNum instr 2
    | 0o53 => jitEmitStoreOperation x rNum instr 0
    | 0o62 => jitVectorAccess x rNum instr 12 (some 10)
    | 0o72 => jitVectorAccess x rNum instr 12 none
    | _ => []

end Instruction

section Region

variable {n : Nat} (x : Values n) (lastInfo : InstructionInfo)

/-- `jit_end_of_block`, and the flush before it. -/
def jitEndOfBlock : List (CacheOp n) :=
  [.flushRegisterWindow] ++
  (if lastInfo.branch && lastInfo.conditional then
    [.load .noext condBranchTaken, .unlock condBranchTaken] else []) ++
  [.modify scratchRegister0, .unlock scratchRegister0, .flushRegisterWindow, .clobber (x.hosts 0)]

/-- `jit_handle_impossible_delay_slot`. -/
def jitHandleImpossibleDelaySlot : List (CacheOp n) :=
  [.load .noext condBranchTaken, .modify scratchRegister0, .modify scratchRegister1,
    .unlock condBranchTaken, .unlock scratchRegister0, .unlock scratchRegister1,
    .flushRegisterWindow, .clobber (x.hosts 0)]

/-- `jit_handle_delay_slot`. -/
def jitHandleDelaySlot : List (CacheOp n) :=
  if lastInfo.conditional then
    [.load .noext condBranchTaken, .modify condBranchTaken, .modify scratchRegister0,
      .clobber (x.hosts 0), .write condBranchTaken 0, .unlock condBranchTaken,
      .unlock condBranchTaken, .unlock scratchRegister0, .flushRegisterWindow,
      .clobber (x.hosts 1)]
  else
    [.modify condBranchTaken, .write condBranchTaken 0, .unlock condBranchTaken,
      .flushRegisterWindow, .clobber (x.hosts 0)]

def jitCheckLatentDelaySlot : List (CacheOp n) :=
  [.modify scratchRegister0, .clobber (x.hosts 0), .unlock scratchRegister0, .flushRegisterWindow]

/-- `jit_handle_latent_delay_slot`. -/
def jitHandleLatentDelaySlot : List (CacheOp n) :=
  (if lastInfo.branch && lastInfo.conditional then
    [.load .noext condBranchTaken, .unlock condBranchTaken] else []) ++
  [.flushRegisterWindow, .clobber (x.hosts 0)]

def enterBlock : List (CacheOp n) := [.flushRegisterWindow, .reset]

end Region

/-- What the code of a region is put together from. A path through it runs such pieces. -/
inductive Piece (n : Nat) where
  | enterBlock
  | instruction (x : Values n) (pc instr : BitVec 32) (lastInfo : InstructionInfo)
      (nextInstructionIsBranchTarget : Bool)
  | checkLatentDelaySlot (x : Values n)
  | impossibleDelaySlot (x : Values n)
  | delaySlot (x : Values n) (lastInfo : InstructionInfo)
  | endOfBlock (x : Values n) (lastInfo : InstructionInfo)
  | latentDelaySlot (x : Values n) (lastInfo : InstructionInfo)

def Piece.ops {n : Nat} (rNum : Nat) : Piece n → List (CacheOp n)
  | .enterBlock => Issue.enterBlock
  | .instruction x pc instr lastInfo next => jitInstruction x rNum pc instr lastInfo next
  | .checkLatentDelaySlot x => jitCheckLatentDelaySlot x
  | .impossibleDelaySlot x => jitHandleImpossibleDelaySlot x
  | .delaySlot x lastInfo => jitHandleDelaySlot x lastInfo
  | .endOfBlock x lastInfo => jitEndOfBlock x lastInfo
  | .latentDelaySlot x lastInfo => jitHandleLatentDelaySlot x lastInfo

section Served

open CacheState

variable {n : Nat} {L : Ledger} {instr : BitVec 32}

theorem rs_le : rs instr ≤ condBranchTaken := (rsOf instr).isLt.le

theorem rt_le : rt instr ≤ condBranchTaken := (rtOf instr).isLt.le

theorem rd_le : rd instr ≤ condBranchTaken := (rdOf instr).isLt.le

theorem signExtend_lowWord (x : BitVec 32) :
    x.signExtend 64 = (lowWord (x.signExtend 64)).signExtend 64 := by
  rw [show lowWord (x.signExtend 64) = x from lowWord_extend .sext x]

variable (hn : 3 ≤ n)
include hn

variable {r : Nat} (x : Values n) (ext : LoadExt) (pc : BitVec 32) (rNum : Nat)

theorem serves_saveIndirect (hr : r ≤ condBranchTaken) :
    Serves (n := n) Ledger.idle (jitSaveIndirectRegister r) Ledger.idle := by
  apply Serves.load hn .noext hr (by simp)
  exact Serves.unlocks

theorem serves_flushImpossible (lastInfo : InstructionInfo) :
    Serves (n := n) Ledger.idle (flushImpossibleDelaySlot lastInfo) Ledger.idle := by
  unfold flushImpossibleDelaySlot
  split
  · exact serves_saveIndirect hn le_rfl
  · exact Serves.refl

theorem serves_shiftOp : Serves Ledger.idle (shiftOp x instr ext) Ledger.idle := by
  unfold shiftOp
  split
  · exact Serves.refl
  · rename_i hrd
    apply Serves.load hn ext rt_le (by simp)
    apply Serves.modify hn (Nat.pos_of_ne_zero hrd) (by simp)
    apply Serves.cons (allows_write rfl)
    exact Serves.unlocks

theorem serves_shiftRegOp : Serves Ledger.idle (shiftRegOp x instr ext) Ledger.idle := by
  unfold shiftRegOp
  split
  · exact Serves.refl
  · rename_i hrd
    apply Serves.load hn ext rt_le (by simp)
    apply Serves.load hn .noext rs_le (by simp)
    apply Serves.scratch hn (by decide) (by simp)
    apply Serves.cons (allows_clobber _)
    apply Serves.cons (allows_unlock (List.Perm.swap (rs instr) (rt instr) [scratchRegister0]) rfl)
    apply Serves.modify hn (Nat.pos_of_ne_zero hrd) (by simp)
    apply Serves.cons (allows_write rfl)
    apply Serves.cons (allows_unlock (List.Perm.refl [rt instr, scratchRegister0, rd instr]) rfl)
    apply Serves.cons (allows_unlock (List.Perm.swap (rd instr) scratchRegister0 []) rfl)
    exact Serves.unlocks

theorem serves_threeRegOp : Serves Ledger.idle (threeRegOp x instr ext) Ledger.idle := by
  unfold threeRegOp
  split
  · exact Serves.refl
  · rename_i hrd
    apply Serves.load hn ext rs_le (by simp)
    apply Serves.load hn ext rt_le (by simp)
    apply Serves.modify hn (Nat.pos_of_ne_zero hrd) (by simp)
    apply Serves.cons (allows_write rfl)
    exact Serves.unlocks

theorem serves_norOp : Serves Ledger.idle (norOp x instr) Ledger.idle := by
  unfold norOp
  split
  · exact Serves.refl
  · rename_i hrd
    apply Serves.load hn .noext rt_le (by simp)
    apply Serves.load hn .noext rs_le (by simp)
    apply Serves.modify hn (Nat.pos_of_ne_zero hrd) (by simp)
    apply Serves.cons (allows_write rfl)
    apply Serves.cons (allows_write rfl)
    exact Serves.unlocks

theorem serves_twoRegImmOp : Serves Ledger.idle (twoRegImmOp x instr ext) Ledger.idle := by
  unfold twoRegImmOp
  split
  · exact Serves.refl
  · rename_i hrt
    apply Serves.load hn ext rs_le (by simp)
    apply Serves.modify hn (Nat.pos_of_ne_zero hrt) (by simp)
    apply Serves.cons (allows_write rfl)
    exact Serves.unlocks

theorem serves_immediate {value : BitVec 64} (hpos : 0 < r) (hr : r ≤ condBranchTaken)
    (hvalue : value = (lowWord value).signExtend 64) :
    Serves (n := n) Ledger.idle [.immediate r value, .unlock r] Ledger.idle := by
  apply Serves.cons (allows_immediate hpos hr hvalue (by simp [Ledger.idle]; omega) rfl)
  exact Serves.unlocks

theorem serves_immediateOp {value : BitVec 64} (hvalue : value = (lowWord value).signExtend 64) :
    Serves (n := n) Ledger.idle (immediateOp instr value) Ledger.idle := by
  unfold immediateOp
  split
  · exact Serves.refl
  · rename_i hrt
    exact serves_immediate hn (Nat.pos_of_ne_zero hrt) rt_le hvalue

omit hn in
theorem flag_signExtend (b : Bool) : (if b then 1 else 0 : BitVec 64) =
    (lowWord (if b then 1 else 0)).signExtend 64 := by
  cases b <;> rfl

omit hn in
theorem linkValue_signExtend : linkValue pc = (lowWord (linkValue pc)).signExtend 64 := by
  have hlow : lowWord (linkValue pc) = (pc + 8) &&& 0xFFC :=
    BitVec.setWidth_setWidth_of_le _ (by decide)
  rw [hlow, linkValue, BitVec.signExtend_eq_setWidth_of_msb_false]
  rw [BitVec.msb_and]
  exact Bool.and_false _

omit hn in
theorem simm_signExtend (instr : BitVec 32) :
    simm instr = (lowWord (simm instr)).signExtend 64 := by
  have hlow : lowWord (simm instr) = (immOf instr).signExtend 32 := by
    ext k hk
    have hk' : k < 64 := by omega
    rw [lowWord, simm, BitVec.getElem_setWidth, BitVec.getLsbD_signExtend,
      BitVec.getElem_signExtend]
    simp only [hk', decide_true, Bool.true_and]
    split <;> rfl
  rw [hlow, simm]
  apply BitVec.eq_of_toInt_eq
  simp only [BitVec.toInt_signExtend_of_le, Nat.reduceLeDiff]

omit hn in
theorem uimm_signExtend (instr : BitVec 32) :
    uimm instr = (lowWord (uimm instr)).signExtend 64 := by
  have hlow : lowWord (uimm instr) = (immOf instr).setWidth 32 :=
    BitVec.setWidth_setWidth_of_le _ (by decide)
  rw [hlow, uimm, BitVec.signExtend_eq_setWidth_of_msb_false]
  · exact (BitVec.setWidth_setWidth (by decide)).symm
  · rw [BitVec.msb_setWidth'']
    exact BitVec.getLsbD_of_ge _ _ (by decide)

theorem serves_unconditional (next : Bool) : Serves (n := n) Ledger.idle
    [unconditional next, .unlock condBranchTaken] Ledger.idle :=
  serves_immediate hn (by decide) le_rfl (flag_signExtend next)

theorem serves_link : Serves (n := n) Ledger.idle (link pc) Ledger.idle :=
  serves_immediate hn (by decide) (by decide) (linkValue_signExtend pc)

theorem serves_branchOn (lastInfo : InstructionInfo) (hr : r ≤ condBranchTaken) :
    Serves Ledger.idle (branchOn x lastInfo r) Ledger.idle := by
  apply (serves_flushImpossible hn lastInfo).append
  apply Serves.load hn .sext hr (by simp)
  apply Serves.modify hn (by decide) (by simp)
  apply Serves.cons (allows_write rfl)
  exact Serves.unlocks

theorem serves_branchOnBoth (lastInfo : InstructionInfo) :
    Serves Ledger.idle (branchOnBoth x instr lastInfo) Ledger.idle := by
  apply (serves_flushImpossible hn lastInfo).append
  apply Serves.load hn .sext rs_le (by simp)
  apply Serves.load hn .sext rt_le (by simp)
  apply Serves.modify hn (by decide) (by simp)
  apply Serves.cons (allows_write rfl)
  exact Serves.unlocks

theorem serves_store (endianFlip : BitVec 32) :
    Serves Ledger.idle (jitEmitStoreOperation x rNum instr endianFlip) Ledger.idle := by
  apply Serves.load hn .noext rt_le (by simp)
  apply Serves.load hn .noext rs_le (by simp)
  apply Serves.scratch hn (by decide) (by simp)
  apply Serves.cons (allows_clobber _)
  split
  · refine Serves.unlocks.append ?_
    apply Serves.cons (allows_flushCallerSaveRegisters rNum rfl rfl)
    apply Serves.cons (allows_clobber _)
    exact Serves.done
  · apply Serves.cons (allows_clobber _)
    exact Serves.unlocks

theorem serves_result (hpos : 0 < r) : Serves (n := n) Ledger.idle
    [.modify r, .write r (x.result 0), .unlock r] Ledger.idle := by
  apply Serves.modify hn hpos (by simp)
  apply Serves.cons (allows_write rfl)
  exact Serves.unlocks

theorem serves_load (endianFlip : BitVec 32) :
    Serves Ledger.idle (jitEmitLoadOperation x rNum instr endianFlip) Ledger.idle := by
  unfold jitEmitLoadOperation
  split
  · exact Serves.refl
  rename_i hrt
  refine Serves.append ?_ (serves_result hn x (Nat.pos_of_ne_zero hrt))
  apply Serves.load hn .noext rs_le (by simp)
  apply Serves.scratch hn (by decide) (by simp)
  apply Serves.cons (allows_clobber _)
  apply Serves.scratch hn (by decide) (by simp)
  split
  · refine Serves.unlocks.append ?_
    apply Serves.cons (allows_flushCallerSaveRegisters rNum rfl rfl)
    apply Serves.cons (allows_clobber _)
    exact Serves.done
  · apply Serves.cons (allows_clobber _)
    exact Serves.unlocks

omit hn in
theorem serves_cop0 (x : Values n) : Serves Ledger.idle (jitCop0 x instr) Ledger.idle := by
  unfold jitCop0
  split
  · apply Serves.cons (allows_flushRegisterWindow rfl rfl)
    apply Serves.cons (allows_clobber _)
    split
    · exact Serves.done
    · apply Serves.cons (allows_call trivial)
      exact Serves.done
  · apply Serves.cons (allows_flushRegisterWindow rfl rfl)
    apply Serves.cons (allows_clobber _)
    exact Serves.done
  · exact Serves.refl

omit hn in
theorem serves_cop2 (x : Values n) (rNum : Nat) :
    Serves Ledger.idle (jitCop2 x rNum instr) Ledger.idle := by
  have hmove : Serves Ledger.idle ([.flushCallerSaveRegisters rNum, .flushMipsRegister (rt instr),
      .clobber (x.hosts 0)] ++ if rt instr = 0 then [] else [.call (rt instr) x.called])
      Ledger.idle := by
    apply Serves.cons (allows_flushCallerSaveRegisters rNum rfl rfl)
    apply Serves.cons (allows_flushMipsRegister rfl rfl)
    apply Serves.cons (allows_clobber _)
    split
    · exact Serves.done
    · refine Serves.cons (allows_call ?_) Serves.done
      exact Or.inr rfl
  have hread : Serves Ledger.idle [.flushCallerSaveRegisters rNum, .flushMipsRegister (rt instr),
      .clobber (x.hosts 0)] Ledger.idle := by
    apply Serves.cons (allows_flushCallerSaveRegisters rNum rfl rfl)
    apply Serves.cons (allows_flushMipsRegister rfl rfl)
    apply Serves.cons (allows_clobber _)
    exact Serves.done
  unfold jitCop2
  split
  · exact hmove
  · exact hmove
  · exact hread
  · exact hread
  · exact Serves.refl

omit hn in
theorem serves_vectorAccess (x : Values n) (rNum count : Nat) (hole : Option Nat) :
    Serves Ledger.idle (jitVectorAccess x rNum instr count hole) Ledger.idle := by
  unfold jitVectorAccess
  split
  · apply Serves.cons (allows_flushCallerSaveRegisters rNum rfl rfl)
    apply Serves.cons (allows_flushMipsRegister rfl rfl)
    apply Serves.cons (allows_clobber _)
    exact Serves.done
  · exact Serves.refl

theorem serves_special (lastInfo : InstructionInfo) (next : Bool) :
    Serves Ledger.idle (jitSpecial x pc instr lastInfo next) Ledger.idle := by
  have hjump : Serves Ledger.idle (flushImpossibleDelaySlot lastInfo ++
      jitSaveIndirectRegister (rs instr)) Ledger.idle (n := n) :=
    (serves_flushImpossible hn lastInfo).append (serves_saveIndirect hn rs_le)
  unfold jitSpecial
  split
  · exact serves_shiftOp hn x _
  · exact serves_shiftOp hn x _
  · exact serves_shiftOp hn x _
  · exact serves_shiftRegOp hn x _
  · exact serves_shiftRegOp hn x _
  · exact serves_shiftRegOp hn x _
  · exact hjump.append (serves_unconditional hn next)
  · refine (hjump.append ?_).append (serves_unconditional hn next)
    split
    · rename_i hrd
      exact serves_immediate hn (Nat.pos_of_ne_zero hrd) rd_le (linkValue_signExtend pc)
    · exact Serves.refl
  · apply Serves.cons (allows_flushRegisterWindow rfl rfl)
    exact Serves.done
  any_goals exact serves_threeRegOp hn x _
  · exact serves_norOp hn x
  · exact Serves.refl

theorem serves_regimm (lastInfo : InstructionInfo) :
    Serves Ledger.idle (jitRegimm x pc instr lastInfo) Ledger.idle := by
  have hrs : rs instr ≤ condBranchTaken := rs_le
  have hbranch := serves_branchOn hn x lastInfo hrs
  unfold jitRegimm
  split
  · exact hbranch.append (serves_link hn pc)
  · exact hbranch.append (serves_link hn pc)
  · exact hbranch
  · exact hbranch
  · exact Serves.refl

theorem serves_instruction (pc instr : BitVec 32) (lastInfo : InstructionInfo) (next : Bool) :
    Serves Ledger.idle (jitInstruction x rNum pc instr lastInfo next) Ledger.idle := by
  have hflush := serves_flushImpossible hn lastInfo
  unfold jitInstruction
  split
  · apply Serves.cons (allows_flushCallerSaveRegisters rNum rfl rfl)
    apply Serves.cons (allows_clobber _)
    exact Serves.done
  split
  · exact serves_special hn x pc lastInfo next
  · exact serves_regimm hn x pc lastInfo
  · apply hflush.append
    apply Serves.cons (allows_immediate (by decide) (by decide) (linkValue_signExtend pc)
      (by simp [Ledger.idle]; omega) rfl)
    apply Serves.cons (allows_immediate (by decide) le_rfl (flag_signExtend next)
      (by simp [Ledger.idle]; omega) rfl)
    exact Serves.unlocks
  · exact hflush.append (serves_unconditional hn next)
  · exact serves_branchOnBoth hn x lastInfo
  · exact serves_branchOnBoth hn x lastInfo
  iterate 2
    · split
      · exact serves_branchOn hn x lastInfo rs_le
      · exact hflush
  iterate 2
    · split
      · exact serves_immediateOp hn (simm_signExtend instr)
      · exact serves_twoRegImmOp hn x _
  · exact serves_twoRegImmOp hn x _
  · exact serves_twoRegImmOp hn x _
  · exact serves_twoRegImmOp hn x _
  · exact serves_twoRegImmOp hn x _
  · split
    · exact serves_immediateOp hn (uimm_signExtend instr)
    · exact serves_twoRegImmOp hn x _
  · exact serves_immediateOp hn (signExtend_lowWord _)
  · exact serves_cop0 x
  · exact serves_cop2 x rNum
  iterate 6 exact serves_load hn x rNum _
  iterate 3 exact serves_store hn x rNum _
  · exact serves_vectorAccess x rNum _ _
  · exact serves_vectorAccess x rNum _ _
  · exact Serves.refl

theorem serves_condBranchTaken (lastInfo : InstructionInfo) : Serves (n := n) Ledger.idle
    (if lastInfo.branch && lastInfo.conditional then
      [.load .noext condBranchTaken, .unlock condBranchTaken] else []) Ledger.idle :=
  serves_flushImpossible hn lastInfo

theorem serves_endOfBlock (lastInfo : InstructionInfo) :
    Serves Ledger.idle (jitEndOfBlock x lastInfo) Ledger.idle := by
  have hflush : Serves (n := n) Ledger.idle [.flushRegisterWindow] Ledger.idle :=
    Serves.cons (allows_flushRegisterWindow rfl rfl) Serves.done
  apply (hflush.append (serves_condBranchTaken hn lastInfo)).append
  apply Serves.scratch hn (by decide) (by simp)
  refine Serves.unlocks.append ?_
  apply Serves.cons (allows_flushRegisterWindow rfl rfl)
  apply Serves.cons (allows_clobber _)
  exact Serves.done

theorem serves_impossibleDelaySlot :
    Serves Ledger.idle (jitHandleImpossibleDelaySlot x) Ledger.idle := by
  apply Serves.load hn .noext le_rfl (by simp)
  apply Serves.scratch hn (by decide) (by simp)
  apply Serves.scratch hn (by decide) (by simp)
  refine Serves.unlocks.append ?_
  apply Serves.cons (allows_flushRegisterWindow rfl rfl)
  apply Serves.cons (allows_clobber _)
  exact Serves.done

theorem serves_delaySlot (lastInfo : InstructionInfo) :
    Serves Ledger.idle (jitHandleDelaySlot x lastInfo) Ledger.idle := by
  unfold jitHandleDelaySlot
  split
  · apply Serves.load hn .noext le_rfl (by simp)
    apply Serves.modify hn (by decide) (by simp)
    apply Serves.scratch hn (by decide) (by simp)
    apply Serves.cons (allows_clobber _)
    apply Serves.cons (allows_write rfl)
    refine Serves.unlocks.append ?_
    apply Serves.cons (allows_flushRegisterWindow rfl rfl)
    apply Serves.cons (allows_clobber _)
    exact Serves.done
  · apply Serves.modify hn (by decide) (by simp)
    apply Serves.cons (allows_write rfl)
    refine Serves.unlocks.append ?_
    apply Serves.cons (allows_flushRegisterWindow rfl rfl)
    apply Serves.cons (allows_clobber _)
    exact Serves.done

theorem serves_checkLatentDelaySlot :
    Serves Ledger.idle (jitCheckLatentDelaySlot x) Ledger.idle := by
  apply Serves.scratch hn (by decide) (by simp)
  apply Serves.cons (allows_clobber _)
  refine Serves.unlocks.append ?_
  apply Serves.cons (allows_flushRegisterWindow rfl rfl)
  exact Serves.done

theorem serves_latentDelaySlot (lastInfo : InstructionInfo) :
    Serves Ledger.idle (jitHandleLatentDelaySlot x lastInfo) Ledger.idle := by
  apply (serves_condBranchTaken hn lastInfo).append
  apply Serves.cons (allows_flushRegisterWindow rfl rfl)
  apply Serves.cons (allows_clobber _)
  exact Serves.done

omit hn in
theorem serves_enterBlock : Serves (n := n) Ledger.idle enterBlock Ledger.idle := by
  apply Serves.cons (allows_flushRegisterWindow rfl rfl)
  apply Serves.cons (allows_reset rfl rfl fun _ => trivial)
  exact Serves.done

theorem serves_piece (piece : Piece n) : Serves Ledger.idle (piece.ops rNum) Ledger.idle := by
  cases piece with
  | enterBlock => exact serves_enterBlock
  | instruction x pc instr lastInfo next =>
    exact serves_instruction hn x rNum pc instr lastInfo next
  | checkLatentDelaySlot x => exact serves_checkLatentDelaySlot hn x
  | impossibleDelaySlot x => exact serves_impossibleDelaySlot hn x
  | delaySlot x lastInfo => exact serves_delaySlot hn x lastInfo
  | endOfBlock x lastInfo => exact serves_endOfBlock hn x lastInfo
  | latentDelaySlot x lastInfo => exact serves_latentDelaySlot hn x lastInfo

end Served

end Issue

def Assigned.start (sr : Nat → BitVec 32) : Assigned where
  value := sr
  pending := fun _ => false

namespace CacheState

variable {n : Nat}

/-- An empty cache. -/
def start (host : Fin n → BitVec 64) (sr : Nat → BitVec 32) : CacheState n where
  entries := fun _ => {}
  timestamp := 0
  host := host
  sr := sr

theorem agrees_start (host : Fin n → BitVec 64) (sr : Nat → BitVec 32) :
    Agrees Ledger.idle (start host sr) (Assigned.start sr) := by
  have hgone (j : Fin n) (r : Nat) : ¬ (start host sr).Holds j r :=
    fun hj => Bool.false_ne_true hj.1
  have hseen (j : Fin n) (r : Nat) : ¬ (start host sr).Seen none j r := fun hj => hgone j r hj.2
  refine ⟨?_, fun j r hj => absurd hj (hgone j r), fun r hr => absurd hr List.not_mem_nil,
    fun r hr => absurd hr Bool.false_ne_true, fun r hr => absurd hr.symm (Option.some_ne_none r),
    fun _ hfalse => hfalse.elim⟩
  constructor
  · exact fun j _ r hj => absurd hj (hseen j r)
  · exact fun _ _ _ => rfl
  · exact fun j r hj => absurd hj (hseen j r)
  · exact fun j r hj => absurd hj (hseen j r)
  · exact fun j r hj => absurd hj (hseen j r)
  · exact fun _ _ _ _ _ => rfl
  · exact fun j hj => absurd hj (hseen j 0)
  · exact fun j r hj => absurd hj (hseen j r)
  · exact fun r hr => absurd hr Bool.false_ne_true

/-- What holds of the cache at a point of a sequence. -/
structure Sound (s : CacheState n) (a : Assigned) : Prop where
  /-- At most one entry is live for a register. -/
  unique : ∀ i j r, s.Holds i r → s.Holds j r → i = j
  /-- The extension that an entry claims is true of its host register. -/
  tag : ∀ i r, s.Holds i r → TagTrue (s.entries i).sign (s.host i)
  /-- A host register has the last value that was written to it. -/
  host : ∀ i r, s.Holds i r → 0 < r → r ≤ condBranchTaken → a.pending r = false →
    lowWord (s.host i) = a.value r
  /-- Memory has the last value unless a modified entry holds the register. -/
  memory : ∀ r, 0 < r → r ≤ condBranchTaken →
    (∀ i, s.Holds i r → (s.entries i).modified = false) → s.sr r = a.value r
  /-- The next operation passes its assertions and keeps what is locked. -/
  next : ∀ op, s.Issued a op → ∃ s', s.step op = some s' ∧ Kept s s'
  /-- After a flush memory has all last values. -/
  flushed : s.Issued a .flushRegisterWindow → ∃ s', s.flushRegisterWindow = some s' ∧
    ∀ r, 0 < r → r ≤ condBranchTaken → s'.sr r = a.value r
  /-- An entry is found while one is not locked, and a locked one only for its own register. -/
  found : s.lockedCount < n → ∀ r, ∃ i, s.findRegister r = some i ∧
    (s.Holds i r ∨ ((s.entries i).isLive = true → (s.entries i).numLocks = 0))

variable {s : CacheState n} {a : Assigned}

theorem Coherent.sound (h : Coherent s a) : Sound s a where
  unique _ _ _ hi hj := h.unique hi hj
  tag i r hi := h.tag i r (seen_none.mpr hi)
  host i r hi := h.value i r (seen_none.mpr hi)
  memory r hpos hle hclean := by
    by_cases hheld : ∃ i, s.Holds i r
    · obtain ⟨i, hi⟩ := hheld
      exact h.clean i r (seen_none.mpr hi) hpos hle (hclean i hi)
    · refine h.away r hpos hle hpos.ne' fun j hj => hheld ⟨j, seen_none.mp hj⟩
  next op hop := by
    obtain ⟨s', hstep, -, hkept⟩ := h.step hop
    exact ⟨s', hstep, hkept⟩
  flushed hop := by
    obtain ⟨s', hflush, hcoherent, hflushed⟩ := h.flushRegisterWindow hop
    refine ⟨s', hflush, fun r hpos hle => hcoherent.away r hpos hle hpos.ne' fun j hj => ?_⟩
    have hlive := hj.2.1
    rw [hflushed.cleared j trivial] at hlive
    exact Bool.false_ne_true hlive
  found hcount r := by
    obtain ⟨i, hi⟩ := exists_findRegister hcount r
    refine ⟨i, hi, ?_⟩
    rcases findRegister_cases hi with hholds | ⟨-, hunlocked⟩
    · exact .inl hholds
    · exact .inr hunlocked

theorem Coherent.run {ops : List (CacheOp n)} (h : Coherent s a) (hops : IssuedAll ops s a) :
    ∃ s', s.run ops = some s' ∧ Coherent s' (CacheOp.assignAll ops a) := by
  induction ops generalizing s a with
  | nil => exact ⟨s, rfl, h⟩
  | cons op ops ih =>
    obtain ⟨s₁, hstep, hcoherent, -⟩ := h.step hops.1
    obtain ⟨s', hrun, hcoherent'⟩ := ih hcoherent (hops.2 s₁ hstep)
    refine ⟨s', ?_, hcoherent'⟩
    rw [CacheState.run, hstep]
    exact hrun

theorem issuedAll_of_append {ops ops' : List (CacheOp n)} (h : IssuedAll (ops ++ ops') s a) :
    IssuedAll ops s a := by
  induction ops generalizing s a with
  | nil => trivial
  | cons op ops ih => exact ⟨h.1, fun s' hstep => ih (h.2 s' hstep)⟩

/-- From an empty cache every issued sequence is coherent at its end, and at every point of any
sequence of the pieces that the JIT puts together the operations have been issued. -/
theorem registerCache_coherent (host : Fin n → BitVec 64) (sr : Nat → BitVec 32) :
    (∀ ops, IssuedAll ops (start host sr) (Assigned.start sr) →
      ∃ s', (start host sr).run ops = some s' ∧
        Sound s' (CacheOp.assignAll ops (Assigned.start sr))) ∧
    (3 ≤ n → ∀ (rNum : Nat) (pieces : List (Issue.Piece n)) (ops : List (CacheOp n)),
      ops <+: pieces.flatMap (Issue.Piece.ops rNum) →
        IssuedAll ops (start host sr) (Assigned.start sr)) := by
  have hstart := agrees_start host sr
  constructor
  · intro ops hops
    obtain ⟨s', hrun, hcoherent⟩ := hstart.coherent.run hops
    exact ⟨s', hrun, hcoherent.sound⟩
  · rintro hn rNum pieces ops ⟨rest, hrest⟩
    have hserves : Serves Ledger.idle (pieces.flatMap (Issue.Piece.ops rNum)) Ledger.idle :=
      Serves.flatMap fun piece _ => Issue.serves_piece hn rNum piece
    have hissued := (hserves _ _ hstart).1
    rw [← hrest] at hissued
    exact issuedAll_of_append hissued

end CacheState

end ParallelN64.Rsp
