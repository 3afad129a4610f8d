import ParallelN64.Core.Runs
import ParallelN64.Rsp.VectorAccumulate
import ParallelN64.Rsp.VectorCompare
import ParallelN64.Rsp.VectorDivide

/-!
# Programs of the vector unit in two cores

A program mixes all instructions that both cores have, with the registers, accumulators, flags and
latches that one leaves for the next. The cores go through the same states until an instruction
meets a corner, and there they part.
-/

namespace ParallelN64.Rsp

attribute [local instance] neZeroLanes neZeroElements

section Operands

/-- `_mm_shuffle_epi8`. -/
def shuffleEpi8 (a key : M128i) : M128i := fun i =>
  let byte (k : BitVec 8) : BitVec 8 :=
    if k.msb then 0#8 else (a (Fin.ofNat 8 (k.toNat % 16 / 2))).extractLsb' (8 * (k.toNat % 2)) 8
  byte ((key i).extractLsb' 8 8) ++ byte ((key i).extractLsb' 0 8)

/-- `shuffle_keys`. -/
def shuffleKeys : Fin 16 → M128i :=
  let whole : M128i := ![0x0100, 0x0302, 0x0504, 0x0706, 0x0908, 0x0B0A, 0x0D0C, 0x0F0E]
  ![whole, whole,
    ![0x0100, 0x0100, 0x0504, 0x0504, 0x0908, 0x0908, 0x0D0C, 0x0D0C],
    ![0x0302, 0x0302, 0x0706, 0x0706, 0x0B0A, 0x0B0A, 0x0F0E, 0x0F0E],
    ![0x0100, 0x0100, 0x0100, 0x0100, 0x0908, 0x0908, 0x0908, 0x0908],
    ![0x0302, 0x0302, 0x0302, 0x0302, 0x0B0A, 0x0B0A, 0x0B0A, 0x0B0A],
    ![0x0504, 0x0504, 0x0504, 0x0504, 0x0D0C, 0x0D0C, 0x0D0C, 0x0D0C],
    ![0x0706, 0x0706, 0x0706, 0x0706, 0x0F0E, 0x0F0E, 0x0F0E, 0x0F0E],
    fun _ => 0x0100, fun _ => 0x0302, fun _ => 0x0504, fun _ => 0x0706,
    fun _ => 0x0908, fun _ => 0x0B0A, fun _ => 0x0D0C, fun _ => 0x0F0E]

/-- `rsp_vect_load_and_shuffle_operand`. -/
def loadAndShuffleOperand (src : M128i) (element : Fin 16) : M128i :=
  shuffleEpi8 src (shuffleKeys element)

/-- `_mm_shufflelo_epi16` after `_mm_shufflehi_epi16`, with the same order of lanes. -/
def shuffleHalves (a : M128i) (w x y z : Fin 4) : M128i :=
  let lo (k : Fin 4) := a (k.castAdd 4)
  let hi (k : Fin 4) := a (k.natAdd 4)
  ![lo w, lo x, lo y, lo z, hi w, hi x, hi y, hi z]

/-- The second operand of `COP2_C2`, and `shuffle_temporary`, which keeps what it had in the odd
lanes. -/
def loadTarget (shuffleTemporary vt : M128i) (e : Fin 16) : M128i × M128i :=
  let lane (k : Nat) : BitVec 16 := vt (Fin.ofNat 8 k)
  if e.val < 2 then (vt, shuffleTemporary)
  else if e.val < 4 then
    let temporary : M128i := fun i =>
      if i.val % 2 = 0 then lane (i + (e - 2)) else shuffleTemporary i
    (shuffleHalves temporary 0 0 2 2, temporary)
  else if e.val < 8 then
    let target : M128i := ![lane (e - 4), 0, 0, 0, lane (4 + (e - 4)), 0, 0, 0]
    (shuffleHalves target 0 0 0 0, shuffleTemporary)
  else (fun _ => lane (e - 8), shuffleTemporary)

/-- The lane that an element selects for a lane. -/
def elementLane (e : Fin 16) (i : Fin 8) : Fin 8 :=
  if e.val < 2 then i
  else if e.val < 4 then Fin.ofNat 8 (i / 2 * 2 + (e - 2))
  else if e.val < 8 then Fin.ofNat 8 (i / 4 * 4 + (e - 4))
  else Fin.ofNat 8 (e - 8)

theorem shuffleKeys_apply : ∀ (e : Fin 16) (i : Fin 8),
    shuffleKeys e i = BitVec.ofNat 16 (514 * elementLane e i + 256) := by
  decide +kernel

theorem shuffleEpi8_apply {a key : M128i} {i k : Fin 8}
    (h : key i = BitVec.ofNat 16 (514 * k + 256)) : shuffleEpi8 a key i = a k := by
  rw [shuffleEpi8, h]
  clear h
  generalize ha : a k = x
  have hbytes (y : BitVec 16) : y.extractLsb' 8 8 ++ y.extractLsb' 0 8 = y := by
    ext j hj
    rw [BitVec.getElem_append]
    split <;> simp <;> grind
  subst ha
  revert k
  intro k
  fin_cases k <;> exact hbytes _

theorem loadAndShuffleOperand_eq (src : M128i) (e : Fin 16) :
    loadAndShuffleOperand src e = src ∘ elementLane e :=
  funext fun i => shuffleEpi8_apply (shuffleKeys_apply e i)

theorem loadTarget_eq (shuffleTemporary vt : M128i) (e : Fin 16) :
    (loadTarget shuffleTemporary vt e).1 = vt ∘ elementLane e := by
  funext i
  fin_cases e <;> fin_cases i <;> rfl

end Operands

/-- The instructions that work on the bits of lanes. -/
inductive LogicalOp where
  | vand | vnand | vor | vnor | vxor | vnxor
  deriving DecidableEq

section Logical

variable (vs vt : M128i)

/-- `rsp_vand` and the others. -/
def LogicalOp.execute (op : LogicalOp) : M128i :=
  let ones : M128i := fun _ => BitVec.allOnes 16
  match op with
  | vand => andSi128 vs vt
  | vnand => xorSi128 (andSi128 vs vt) ones
  | vor => orSi128 vs vt
  | vnor => xorSi128 (orSi128 vs vt) ones
  | vxor => xorSi128 vs vt
  | vnxor => xorSi128 (xorSi128 vs vt) ones

/-- `VAND` and the others. -/
def LogicalOp.executeCxd4 (op : LogicalOp) : M128i :=
  let ones := cmpeqEpi16 vs vs
  match op with
  | vand => andSi128 vs vt
  | vnand => xorSi128 ones (andSi128 vt vs)
  | vor => orSi128 vs vt
  | vnor => xorSi128 ones (orSi128 vt vs)
  | vxor => xorSi128 vs vt
  | vnxor => xorSi128 ones (xorSi128 vt vs)

theorem LogicalOp.executeCxd4_eq (op : LogicalOp) : op.executeCxd4 vs vt = op.execute vs vt := by
  have hones : cmpeqEpi16 vs vs = fun _ => BitVec.allOnes 16 := by
    funext i
    rw [cmpeqEpi16, beq_self_eq_true]
    rfl
  funext i
  cases op with
  | vand | vor | vxor => rfl
  | vnand =>
    rw [executeCxd4, hones, execute, xorSi128, xorSi128, andSi128, andSi128, BitVec.xor_comm,
      BitVec.and_comm]
  | vnor =>
    rw [executeCxd4, hones, execute, xorSi128, xorSi128, orSi128, orSi128, BitVec.xor_comm,
      BitVec.or_comm]
  | vnxor =>
    rw [executeCxd4, hones, execute]
    simp only [xorSi128]
    rw [BitVec.xor_comm, BitVec.xor_comm (vt i)]

end Logical

/-- The instructions that work lane by lane, or on the registers alone. -/
inductive LaneOp where
  | mac (op : MacOp)
  | add (op : AddOp)
  | compare (op : CompareOp)
  | logical (op : LogicalOp)
  | vmrg | vsar | vmov | vnop

/-- What an instruction leaves in its register, the accumulators and the flags. -/
structure VectorOutcome where
  result : M128i
  acc : Acc
  flags : CompareFlags M128i

section Lanes

-- The register that is written, the operands, and the elements that an instruction names.
variable (vd vs vt : M128i) (e : Fin 16) (de : Fin 8) (acc : Acc) (flags : CompareFlags M128i)

/-- `RSP_VSAR`. -/
def rspVsar : M128i :=
  if e = 8 then acc.hi else if e = 9 then acc.md else if e = 10 then acc.lo else rspVzero

/-- `RSP_VMULF` and the others. -/
def LaneOp.execute (op : LaneOp) : VectorOutcome :=
  match op with
  | .mac op =>
    let (result, acc) := op.execute vs vt acc
    ⟨result, acc, flags⟩
  | .add op =>
    let outcome := op.execute vs vt flags.co flags.ne
    ⟨outcome.result, { acc with lo := outcome.accLo },
      { flags with co := outcome.co, ne := outcome.ne }⟩
  | .compare op =>
    let outcome := op.execute vs vt flags
    ⟨outcome.result, { acc with lo := outcome.accLo }, outcome.flags⟩
  | .logical op => ⟨op.execute vs vt, { acc with lo := op.execute vs vt }, flags⟩
  | .vmrg =>
    let result := selectSi128 vs vt flags.le
    ⟨result, { acc with lo := result }, { flags with co := rspVzero, ne := rspVzero }⟩
  | .vsar => ⟨rspVsar e acc, acc, flags⟩
  | .vmov => ⟨Function.update vd de (vt de), { acc with lo := vt }, flags⟩
  | .vnop => ⟨vd, acc, flags⟩

/-- `VSAW`. -/
def vsaw : M128i :=
  match e.val ^^^ 8 with
  | 0 => acc.hi
  | 1 => acc.md
  | 2 => acc.lo
  | _ => rspVzero

/-- `VMULF` and the others. Merging leaves the carries, and a move takes the lane of its element
from the operand, which has been shuffled already. -/
def LaneOp.executeCxd4 (op : LaneOp) : VectorOutcome :=
  match op with
  | .mac op =>
    let (result, acc) := op.executeCxd4 vs vt acc
    ⟨result, acc, flags⟩
  | .add op =>
    let outcome := op.executeCxd4 vs vt flags.co flags.ne
    ⟨outcome.result, { acc with lo := outcome.accLo },
      { flags with co := outcome.co, ne := outcome.ne }⟩
  | .compare op =>
    let outcome := op.executeCxd4 vs vt flags
    ⟨outcome.result, { acc with lo := outcome.accLo }, outcome.flags⟩
  | .logical op => ⟨op.executeCxd4 vs vt, { acc with lo := op.executeCxd4 vs vt }, flags⟩
  | .vmrg =>
    let result : M128i := fun i => merge (flags.le i) (vs i) (vt i)
    ⟨result, { acc with lo := result }, flags⟩
  | .vsar => ⟨vsaw e acc, acc, flags⟩
  | .vmov => ⟨Function.update vd de (vt (Fin.ofNat 8 e)), { acc with lo := vt }, flags⟩
  | .vnop => ⟨vd, acc, flags⟩

/-- Where the cores part. -/
def LaneOp.Corner (op : LaneOp) : Prop :=
  match op with
  | .mac op => ∃ i, op.MissesClamp (op.next (vs i) (vt i) (acc.value i))
  | .add op => op = .vabs ∧ ∃ i, vt i = 0x8000#16
  | .compare op => ∃ i, op.Corner (vs i) (vt i)
  | .vmrg => ∃ i, flags.co i ≠ 0#16 ∨ flags.ne i ≠ 0#16
  | .vmov => vt de ≠ vt (Fin.ofNat 8 e)
  | .logical _ | .vsar | .vnop => False

def VectorOutcome.asFlags (outcome : VectorOutcome) : VectorOutcome :=
  { outcome with flags := outcome.flags.map fun mask i => mask i &&& 1#16 }

end Lanes

section Agree

variable (vd vs vt : M128i) (e : Fin 16) (de : Fin 8) (acc : Acc)

theorem laneMask_and_one (p : Bool) : laneMask p &&& 1#16 = flagWord p := by
  revert p
  decide

theorem MacOp.result_iff (op : MacOp) :
    (op.executeCxd4 vs vt acc).1 = (op.execute vs vt acc).1 ↔
      ∀ i, ¬op.MissesClamp (op.next (vs i) (vt i) (acc.value i)) := by
  rw [funext_iff]
  refine forall_congr' fun i => ?_
  have hdelivers := MacOp.executeCxd4_delivers_iff op vs vt acc i
  rw [executeCxd4_acc, MacOp.execute_value] at hdelivers
  rw [← hdelivers, MacOp.execute_delivers, MacOp.execute_value]

theorem rspVsar_eq : vsaw e acc = rspVsar e acc := by
  fin_cases e <;> rfl

theorem asFlags_encodeFlags (b : Fin 8 → CompareFlags Bool) :
    (encodeFlags laneMask b).map (fun mask i => mask i &&& 1#16) = encodeFlags flagWord b := by
  simp only [CompareFlags.map, encodeFlags, laneMask_and_one]

/-- Flags stay masks of truth values, and the cores leave the same unless a corner is met. -/
theorem LaneOp.executeCxd4_iff (op : LaneOp) (b : Fin 8 → CompareFlags Bool) :
    ∃ b' : Fin 8 → CompareFlags Bool,
      (op.execute vd vs vt e de acc (encodeFlags laneMask b)).flags = encodeFlags laneMask b' ∧
        (op.executeCxd4 vd vs vt e de acc (encodeFlags flagWord b) =
            (op.execute vd vs vt e de acc (encodeFlags laneMask b)).asFlags ↔
          ¬op.Corner vs vt e de acc (encodeFlags laneMask b)) := by
  have hflags := asFlags_encodeFlags b
  cases op with
  | mac op =>
    refine ⟨b, rfl, ?_⟩
    rw [executeCxd4, execute, VectorOutcome.asFlags, VectorOutcome.mk.injEq, executeCxd4_acc,
      hflags, op.result_iff, Corner, not_exists]
    exact and_iff_left ⟨rfl, rfl⟩
  | add op =>
    let exact := op.exact vs vt (fun i => (b i).co) fun i => (b i).ne
    have hp : op.execute vs vt (encodeFlags laneMask b).co (encodeFlags laneMask b).ne =
        exact.encode laneMask := op.execute_exact ..
    have hmeant : (execute vd vs vt e de acc (encodeFlags laneMask b) (.add op)).asFlags =
        ⟨exact.result, { acc with lo := exact.accLo },
          { encodeFlags flagWord b with
            co := fun i => flagWord (exact.co i), ne := fun i => flagWord (exact.ne i) }⟩ := by
      rw [execute, hp]
      simp only [VectorOutcome.asFlags, CompareFlags.map, ExactOutcome.encode, encodeFlags,
        laneMask_and_one]
    refine ⟨fun i => { b i with co := exact.co i, ne := exact.ne i }, ?_, ?_⟩
    · rw [execute, hp]
      rfl
    · have hcorner : ¬(LaneOp.add op).Corner vs vt e de acc (encodeFlags laneMask b) ↔
          (op = .vabs → ∀ i, vt i ≠ 0x8000#16) := by
        rw [Corner, not_and, not_exists]
      rw [hmeant, hcorner, ← op.executeCxd4_exact_iff vs vt (fun i => (b i).co) fun i => (b i).ne]
      constructor
      · intro h
        injection h with hresult hacc hflags
        exact AddOutcome.ext hresult (congrArg Acc.lo hacc) (congrArg CompareFlags.co hflags)
          (congrArg CompareFlags.ne hflags)
      · intro h
        exact congrArg (fun o : AddOutcome => (⟨o.result, { acc with lo := o.accLo },
          { encodeFlags flagWord b with co := o.co, ne := o.ne }⟩ : VectorOutcome)) h
  | compare op =>
    have hp := op.execute_meant vs vt b
    refine ⟨fun i => (op.meant (vs i) (vt i) (b i)).2, congrArg CompareOutcome.flags hp, ?_⟩
    have hmeant : (execute vd vs vt e de acc (encodeFlags laneMask b) (.compare op)).asFlags =
        (fun o : CompareOutcome =>
          (⟨o.result, { acc with lo := o.accLo }, o.flags⟩ : VectorOutcome))
          (op.encode flagWord vs vt b) := by
      rw [execute, hp]
      exact congrArg (VectorOutcome.mk _ _) (asFlags_encodeFlags _)
    rw [hmeant, Corner, not_exists, ← op.executeCxd4_meant_iff vs vt b]
    constructor
    · intro h
      injection h with hresult hacc hflags
      exact CompareOutcome.ext hresult (congrArg Acc.lo hacc) hflags
    · intro h
      exact congrArg (fun o : CompareOutcome =>
        (⟨o.result, { acc with lo := o.accLo }, o.flags⟩ : VectorOutcome)) h
  | logical op =>
    refine ⟨b, rfl, iff_of_true ?_ not_false⟩
    rw [executeCxd4, execute, VectorOutcome.asFlags, hflags, op.executeCxd4_eq]
  | vmrg =>
    let cleared i : CompareFlags Bool := { b i with co := false, ne := false }
    have hmerge : (fun i => merge (flagWord (b i).le) (vs i) (vt i)) =
        selectSi128 vs vt (encodeFlags laneMask b).le := by
      funext i
      simp only [selectSi128, orSi128, andSi128, andnotSi128, encodeFlags, not_laneMask,
        select_word, merge_word]
    have hzero (p : Bool) : flagWord p = flagWord false ↔ ¬laneMask p ≠ 0#16 := by
      revert p
      decide
    have hcorner : encodeFlags flagWord b = encodeFlags flagWord cleared ↔
        ¬LaneOp.vmrg.Corner vs vt e de acc (encodeFlags laneMask b) := by
      simp only [Corner, not_exists, encodeFlags, CompareFlags.mk.injEq, funext_iff, cleared, hzero,
        not_or, forall_and, true_and, and_comm]
    refine ⟨cleared, rfl, ?_⟩
    rw [← hcorner]
    constructor
    · intro h
      exact (congrArg VectorOutcome.flags h).trans (asFlags_encodeFlags cleared)
    · intro h
      rw [executeCxd4, execute, ← hmerge]
      exact congrArg (VectorOutcome.mk _ _) (h.trans (asFlags_encodeFlags cleared).symm)
  | vsar =>
    refine ⟨b, rfl, iff_of_true ?_ not_false⟩
    rw [executeCxd4, execute, VectorOutcome.asFlags, hflags, rspVsar_eq]
  | vmov =>
    refine ⟨b, rfl, ?_⟩
    rw [executeCxd4, execute, VectorOutcome.asFlags, hflags, VectorOutcome.mk.injEq, Corner,
      not_ne_iff, eq_comm]
    refine (and_iff_left ⟨rfl, rfl⟩).trans ⟨fun h => ?_, fun h => by rw [h]⟩
    have hlane : Function.update vd de (vt de) de =
        Function.update vd de (vt (Fin.ofNat 8 e)) de := congrFun h de
    rwa [Function.update_self, Function.update_self] at hlane
  | vnop =>
    refine ⟨b, rfl, iff_of_true ?_ not_false⟩
    rw [executeCxd4, execute, VectorOutcome.asFlags, hflags]

end Agree

/-- An instruction of `COP2` with its registers and its element. -/
structure C2Instr where
  op : LaneOp ⊕ DivideOp
  vd : Fin 32
  vs : Fin 32
  vt : Fin 32
  e : Fin 16

def C2Instr.divide (instr : C2Instr) (op : DivideOp) : DivideInstr :=
  ⟨op, instr.vd, instr.vs, instr.vt, instr.e⟩

/-- The registers and latches of one core, with the rest of its accumulators and its flags. -/
structure VectorUnit extends Cp2 where
  accMd : M128i
  accHi : M128i
  flags : CompareFlags M128i

/-- The registers of the other core, and what its last shuffle left behind. -/
structure VectorUnitCxd4 extends Cp2Cxd4 where
  accMd : M128i
  accHi : M128i
  flags : CompareFlags M128i
  shuffleTemporary : M128i

/-- What a program can see: registers, accumulators, and flags as ones and zeros. -/
structure VectorView where
  regs : VectorRegs
  acc : Acc
  flags : CompareFlags M128i

def VectorOutcome.view (regs : VectorRegs) (vd : Fin 32) (outcome : VectorOutcome) : VectorView :=
  ⟨Function.update regs vd outcome.result, outcome.acc, outcome.flags⟩

theorem VectorOutcome.view_inj {regs : VectorRegs} {vd : Fin 32} {a b : VectorOutcome} :
    a.view regs vd = b.view regs vd ↔ a = b := by
  refine ⟨fun h => ?_, congrArg (view regs vd)⟩
  have hresult : Function.update regs vd a.result vd = Function.update regs vd b.result vd :=
    congrFun (congrArg VectorView.regs h) vd
  rw [Function.update_self, Function.update_self] at hresult
  rw [view, view, VectorView.mk.injEq] at h
  rw [VectorOutcome.mk.injEq]
  exact ⟨hresult, h.2⟩

section Machines

variable (rom : Fin 1024 → BitVec 16)

def VectorUnit.acc (u : VectorUnit) : Acc := ⟨u.accLo, u.accMd, u.accHi⟩

def VectorUnitCxd4.acc (u : VectorUnitCxd4) : Acc := ⟨u.accLo, u.accMd, u.accHi⟩

def VectorUnit.view (u : VectorUnit) : VectorView :=
  ⟨u.regs, u.acc, u.flags.map fun mask i => mask i &&& 1#16⟩

def VectorUnitCxd4.view (u : VectorUnitCxd4) : VectorView := ⟨u.regs, u.acc, u.flags⟩

/-- What an instruction leaves of its operands, after `LOAD_VS` and `LOAD_VT`. -/
def VectorUnit.outcome (u : VectorUnit) (instr : C2Instr) (op : LaneOp) : VectorOutcome :=
  op.execute (u.regs instr.vd) (u.regs instr.vs) (loadAndShuffleOperand (u.regs instr.vt) instr.e)
    instr.e (Fin.ofNat 8 instr.vs) u.acc u.flags

/-- One instruction. -/
def VectorUnit.step (u : VectorUnit) (instr : C2Instr) : Option VectorUnit :=
  match instr.op with
  | .inl op =>
    let outcome := u.outcome instr op
    some
      { u with
        regs := Function.update u.regs instr.vd outcome.result
        accLo := outcome.acc.lo
        accMd := outcome.acc.md
        accHi := outcome.acc.hi
        flags := outcome.flags }
  | .inr op => (u.toCp2.step rom elementLane (instr.divide op)).map fun s => { u with toCp2 := s }

/-- What an instruction of `COP2_C2` leaves of a target. -/
def VectorUnitCxd4.outcome (u : VectorUnitCxd4) (instr : C2Instr) (op : LaneOp) (target : M128i) :
    VectorOutcome :=
  op.executeCxd4 (u.regs instr.vd) (u.regs instr.vs) target instr.e (Fin.ofNat 8 instr.vs) u.acc
    u.flags

/-- `COP2`. -/
def VectorUnitCxd4.step (turns : Nat) (u : VectorUnitCxd4) (instr : C2Instr) :
    Option VectorUnitCxd4 :=
  let (target, shuffleTemporary) := loadTarget u.shuffleTemporary (u.regs instr.vt) instr.e
  match instr.op with
  | .inl op =>
    let outcome := u.outcome instr op target
    some
      { u with
        regs := Function.update u.regs instr.vd outcome.result
        accLo := outcome.acc.lo
        accMd := outcome.acc.md
        accHi := outcome.acc.hi
        flags := outcome.flags
        shuffleTemporary }
  | .inr op =>
    (u.toCp2Cxd4.step rom elementLane turns (instr.divide op)).map fun s =>
      { u with toCp2Cxd4 := s, shuffleTemporary }

/-- The cores have the same registers and latches, and flags of the same truth values. -/
structure VectorUnit.Related (u : VectorUnit) (c : VectorUnitCxd4) : Prop where
  cp2 : u.toCp2.Related c.toCp2Cxd4
  accMd : u.accMd = c.accMd
  accHi : u.accHi = c.accHi
  flags : ∃ b, u.flags = encodeFlags laneMask b ∧ c.flags = encodeFlags flagWord b

/-- An instruction meets a corner. No reciprocal has one. -/
def VectorUnit.Corner (u : VectorUnit) (instr : C2Instr) : Prop :=
  match instr.op with
  | .inl op =>
    op.Corner (u.regs instr.vs) (u.regs instr.vt ∘ elementLane instr.e) instr.e
      (Fin.ofNat 8 instr.vs) u.acc u.flags
  | .inr _ => False

variable {u : VectorUnit} {c : VectorUnitCxd4}

theorem VectorUnit.Related.acc (h : u.Related c) : u.acc = c.acc := by
  rw [VectorUnit.acc, VectorUnitCxd4.acc, h.cp2.accLo, h.accMd, h.accHi]

theorem VectorUnit.Related.view (h : u.Related c) : u.view = c.view := by
  obtain ⟨b, hu, hc⟩ := h.flags
  rw [VectorUnit.view, VectorUnitCxd4.view, h.cp2.regs, h.acc, hu, hc, asFlags_encodeFlags]

/-- Both units finish an instruction and stay related, and show the same, unless it meets a
corner. -/
theorem VectorUnit.Related.step (h : u.Related c) (extra : Nat) (instr : C2Instr) :
    ∃ u' c', Core.Lockstep (VectorUnit.step rom) (VectorUnitCxd4.step rom (32 + extra))
      VectorUnit.Related VectorUnit.Corner VectorUnit.view VectorUnitCxd4.view u c instr u' c' := by
  obtain ⟨op, vd, vs, vt, e⟩ := instr
  cases op with
  | inr op =>
    obtain ⟨p', c', hp, hc, hrelated⟩ := h.cp2.step rom elementLane extra ⟨op, vd, vs, vt, e⟩
    have hnext : VectorUnit.Related { u with toCp2 := p' } { c with
        toCp2Cxd4 := c'
        shuffleTemporary := (loadTarget c.shuffleTemporary (c.regs vt) e).2 } :=
      ⟨hrelated, h.accMd, h.accHi, h.flags⟩
    exact ⟨_, _, congrArg (Option.map _) hp, congrArg (Option.map _) hc,
      iff_of_true hnext.view not_false, fun _ => hnext⟩
  | inl op =>
    obtain ⟨b, hu, hc⟩ := h.flags
    let de : Fin 8 := Fin.ofNat 8 vs
    obtain ⟨b', hflags, hsame⟩ := op.executeCxd4_iff (u.regs vd) (u.regs vs)
      (u.regs vt ∘ elementLane e) e de u.acc b
    have hleft : u.outcome ⟨.inl op, vd, vs, vt, e⟩ op = op.execute (u.regs vd) (u.regs vs)
        (u.regs vt ∘ elementLane e) e de u.acc (encodeFlags laneMask b) := by
      rw [outcome, loadAndShuffleOperand_eq, hu]
    have hright : c.outcome ⟨.inl op, vd, vs, vt, e⟩ op
          (loadTarget c.shuffleTemporary (c.regs vt) e).1 =
        op.executeCxd4 (u.regs vd) (u.regs vs) (u.regs vt ∘ elementLane e) e de u.acc
          (encodeFlags flagWord b) := by
      rw [VectorUnitCxd4.outcome, loadTarget_eq, hc, h.cp2.regs, h.acc]
    have hcorner : u.Corner ⟨.inl op, vd, vs, vt, e⟩ ↔ op.Corner (u.regs vs)
        (u.regs vt ∘ elementLane e) e de u.acc (encodeFlags laneMask b) := by
      rw [Corner, hu]
    rw [← hcorner, ← hleft, ← hright] at hsame
    rw [← hleft] at hflags
    refine ⟨_, _, rfl, rfl, ?_, fun hspared => ?_⟩
    · rw [← hsame, eq_comm, ← VectorOutcome.view_inj, h.cp2.regs]
      exact Iff.rfl
    · have heq := hsame.mpr hspared
      have hregs := congrArg (Function.update c.regs vd) (congrArg VectorOutcome.result heq)
      have hacc := congrArg VectorOutcome.acc heq
      refine ⟨⟨?_, (congrArg Acc.lo hacc).symm, h.cp2.flag, h.cp2.divOut, h.cp2.divIn⟩,
        (congrArg Acc.md hacc).symm, (congrArg Acc.hi hacc).symm, b', hflags, ?_⟩
      · rw [h.cp2.regs]
        exact hregs.symm
      · exact (congrArg VectorOutcome.flags heq).trans
          ((congrArg (CompareFlags.map _) hflags).trans (asFlags_encodeFlags b'))

/-- From every related pair of states both units finish: the look-ups of the reciprocals stay in the
table, and the loop that normalises ends. -/
theorem VectorUnit.Related.finishes (h : u.Related c) (extra : Nat) (instr : C2Instr) :
    (u.step rom instr).isSome ∧ (c.step rom (32 + extra) instr).isSome := by
  obtain ⟨u', c', hstep⟩ := h.step rom extra instr
  exact ⟨Option.isSome_of_eq_some hstep.left, Option.isSome_of_eq_some hstep.right⟩

/-- The two vector units show the same registers, accumulators and flags after every instruction of
a program exactly when no instruction of it meets a corner. -/
theorem vectorUnits_agree_iff (h : u.Related c) (extra : Nat) (program : List C2Instr) :
    Core.SameTraces (VectorUnit.step rom) (VectorUnitCxd4.step rom (32 + extra)) VectorUnit.view
        VectorUnitCxd4.view u c program ↔
      Core.Spares (VectorUnit.step rom) VectorUnit.Corner u program :=
  Core.sameTraces_iff (fun _ _ instr hrelated => hrelated.step rom extra instr) h program

/-- A comparison, a merge by its flags and a reciprocal meet no corner. -/
theorem vectorUnits_agree_merge :
    let u : VectorUnit := ⟨⟨fun r _ => r, rspVzero, 0, 0, false⟩, rspVzero, rspVzero,
      encodeFlags laneMask fun _ => ⟨false, false, false, false, false⟩⟩
    let c : VectorUnitCxd4 := ⟨⟨fun r _ => r, rspVzero, 0, 0, false⟩, rspVzero, rspVzero,
      encodeFlags flagWord fun _ => ⟨false, false, false, false, false⟩, rspVzero⟩
    let program : List C2Instr := [⟨.inl (.compare .vlt), 3, 1, 2, 9⟩, ⟨.inl .vmrg, 4, 3, 1, 3⟩,
      ⟨.inr .vrcp, 5, 0, 4, 0⟩]
    Core.SameTraces (VectorUnit.step fun _ => 0xFFFF#16)
      (VectorUnitCxd4.step (fun _ => 0xFFFF#16) (32 + 0)) VectorUnit.view VectorUnitCxd4.view u c
      program := by
  intro u c program
  have hzero : 0#16 = BitVec.extractLsb' 16 16 0#32 := rfl
  have hrelated : u.Related c := ⟨⟨rfl, rfl, rfl, hzero, nofun⟩, rfl, rfl, _, rfl, rfl⟩
  refine (vectorUnits_agree_iff _ hrelated 0 program).mpr ⟨?_, fun u₁ h₁ => ⟨?_, fun _ _ => ?_⟩⟩
  · rintro ⟨_, h⟩
    exact h
  · obtain rfl := Option.some.inj h₁
    rintro ⟨i, h | h⟩
    · exact h rfl
    · exact h rfl
  · exact ⟨id, fun _ _ => trivial⟩

end Machines

end ParallelN64.Rsp
