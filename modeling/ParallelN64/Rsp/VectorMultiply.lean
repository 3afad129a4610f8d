import ParallelN64.Rsp.Lanes

/-!
# Multiplying and accumulating

The accumulator of a lane has three words, which three host vectors hold for all lanes. An
instruction multiplies two vectors, sets or adds to the accumulators, and delivers a vector that
is clamped from them. The operands are those that the instruction has loaded.
-/

namespace ParallelN64.Rsp

/-- The accumulators of the lanes. -/
structure Acc where
  lo : M128i
  md : M128i
  hi : M128i

section Clamps

variable (val accMd accHi zero : M128i)

/-- `rsp_sclamp_acc_tomd`. -/
def rspSclampAccTomd : M128i :=
  let l := unpackloEpi16 accMd accHi
  let h := unpackhiEpi16 accMd accHi
  packsEpi32 l h

/-- `rsp_uclamp_acc`, without `_mm_blendv_epi8`. -/
def rspUclampAcc : M128i :=
  let hiNegative := sraiEpi16 accHi 15
  let mdNegative := sraiEpi16 accMd 15
  let hiSignCheck := cmpeqEpi16 hiNegative accHi
  let mdSignCheck := cmpeqEpi16 hiNegative mdNegative
  let clampMask := andSi128 mdSignCheck hiSignCheck
  let clampedVal := cmpeqEpi16 hiNegative zero
  let tmp := andSi128 clampMask val
  let val := andnotSi128 clampMask clampedVal
  orSi128 val tmp

/-- `rsp_uclamp_acc`, with `_mm_blendv_epi8`. -/
def rspUclampAccBlend : M128i :=
  let hiNegative := sraiEpi16 accHi 15
  let mdNegative := sraiEpi16 accMd 15
  let hiSignCheck := cmpeqEpi16 hiNegative accHi
  let mdSignCheck := cmpeqEpi16 hiNegative mdNegative
  let clampMask := andSi128 mdSignCheck hiSignCheck
  let clampedVal := cmpeqEpi16 hiNegative zero
  blendvEpi8 clampedVal val clampMask

theorem rspUclampAccBlend_eq :
    rspUclampAccBlend val accMd accHi zero = rspUclampAcc val accMd accHi zero := by
  funext i
  have hmask (p : Bool) : (if (laneMask p).getLsbD 15 then 0xFF00#16 else 0#16) |||
      (if (laneMask p).getLsbD 7 then 0x00FF#16 else 0#16) = laneMask p := by
    revert p
    decide
  simp only [rspUclampAccBlend, rspUclampAcc, blendvEpi8, andSi128_apply, orSi128_apply,
    andnotSi128_apply, cmpeqEpi16_apply, laneMask_and_laneMask, hmask]
  exact BitVec.or_comm _ _

end Clamps

section Instructions

variable (vs vt zero : M128i) (acc : Acc)

/-- `rsp_vmulf_vmulu`. -/
def rspVmulfVmulu (vmulu : Bool) : M128i × Acc :=
  let lo := mulloEpi16 vs vt
  let round := cmpeqEpi16 zero zero
  let sign1 := srliEpi16 lo 15
  let lo := addEpi16 lo lo
  let round := slliEpi16 round 15
  let hi := mulhiEpi16 vs vt
  let sign2 := srliEpi16 lo 15
  let accLo := addEpi16 round lo
  let sign1 := addEpi16 sign1 sign2
  let hi := slliEpi16 hi 1
  let eq := cmpeqEpi16 vs vt
  let neq := eq
  let accMd := addEpi16 hi sign1
  let neg := sraiEpi16 accMd 15
  if vmulu then
    let accHi := andnotSi128 eq neg
    let hi := orSi128 accMd neg
    (andnotSi128 accHi hi, ⟨accLo, accMd, accHi⟩)
  else
    let eq := andSi128 eq neg
    let accHi := andnotSi128 neq neg
    (addEpi16 accMd eq, ⟨accLo, accMd, accHi⟩)

/-- `rsp_vmacf_vmacu`. -/
def rspVmacfVmacu (vmacu : Bool) : M128i × Acc :=
  let lo := mulloEpi16 vs vt
  let hi := mulhiEpi16 vs vt
  let md := slliEpi16 hi 1
  let carry := srliEpi16 lo 15
  let hi := sraiEpi16 hi 15
  let md := orSi128 md carry
  let lo := slliEpi16 lo 1
  let overflowMask := addsEpu16 acc.lo lo
  let accLo := addEpi16 acc.lo lo
  let overflowMask := cmpeqEpi16 accLo overflowMask
  let overflowMask := cmpeqEpi16 overflowMask zero
  -- a carry into a middle word of ones goes all the way up
  let md := subEpi16 md overflowMask
  let carry := cmpeqEpi16 md zero
  let carry := andSi128 carry overflowMask
  let hi := subEpi16 hi carry
  let overflowMask := addsEpu16 acc.md md
  let accMd := addEpi16 acc.md md
  let overflowMask := cmpeqEpi16 accMd overflowMask
  let overflowMask := cmpeqEpi16 overflowMask zero
  let accHi := addEpi16 acc.hi hi
  let accHi := subEpi16 accHi overflowMask
  if vmacu then
    let overflowHiMask := sraiEpi16 accHi 15
    let overflowMdMask := sraiEpi16 accMd 15
    let md := orSi128 overflowMdMask accMd
    let overflowMask := cmpgtEpi16 accHi zero
    let md := andnotSi128 overflowHiMask md
    (orSi128 overflowMask md, ⟨accLo, accMd, accHi⟩)
  else (rspSclampAccTomd accMd accHi, ⟨accLo, accMd, accHi⟩)

/-- `rsp_vmadl_vmudl`. -/
def rspVmadlVmudl (vmadl : Bool) : M128i × Acc :=
  let hi := mulhiEpu16 vs vt
  if vmadl then
    let overflowMask := addsEpu16 acc.lo hi
    let accLo := addEpi16 acc.lo hi
    let overflowMask := cmpeqEpi16 accLo overflowMask
    let overflowMask := cmpeqEpi16 overflowMask zero
    let hi := subEpi16 zero overflowMask
    let overflowMask := addsEpu16 acc.md hi
    let accMd := addEpi16 acc.md hi
    let overflowMask := cmpeqEpi16 accMd overflowMask
    let overflowMask := cmpeqEpi16 overflowMask zero
    let accHi := subEpi16 acc.hi overflowMask
    (rspUclampAcc accLo accMd accHi zero, ⟨accLo, accMd, accHi⟩)
  else (hi, ⟨hi, zero, zero⟩)

/-- What `rsp_vmadm_vmudm` and `rsp_vmadn_vmudn` add up of a product with a signed upper word. -/
def accumulateSigned (lo hi : M128i) : Acc :=
  let overflowMask := addsEpu16 acc.lo lo
  let accLo := addEpi16 acc.lo lo
  let overflowMask := cmpeqEpi16 accLo overflowMask
  let overflowMask := cmpeqEpi16 overflowMask zero
  let hi := subEpi16 hi overflowMask
  let overflowMask := addsEpu16 acc.md hi
  let accMd := addEpi16 acc.md hi
  let overflowMask := cmpeqEpi16 accMd overflowMask
  let overflowMask := cmpeqEpi16 overflowMask zero
  let accHi := addEpi16 acc.hi (sraiEpi16 hi 15)
  let accHi := subEpi16 accHi overflowMask
  ⟨accLo, accMd, accHi⟩

/-- `rsp_vmadm_vmudm`: the operand that is fixed up is `vs`. -/
def rspVmadmVmudm (vmadm : Bool) : M128i × Acc :=
  let lo := mulloEpi16 vs vt
  let hi := mulhiEpu16 vs vt
  let sign := sraiEpi16 vs 15
  let vt := andSi128 vt sign
  let hi := subEpi16 hi vt
  if vmadm then
    let acc := accumulateSigned zero acc lo hi
    (rspSclampAccTomd acc.md acc.hi, acc)
  else (hi, ⟨lo, hi, sraiEpi16 hi 15⟩)

/-- `rsp_vmadn_vmudn`: the operand that is fixed up is `vt`. -/
def rspVmadnVmudn (vmadn : Bool) : M128i × Acc :=
  let lo := mulloEpi16 vs vt
  let hi := mulhiEpu16 vs vt
  let sign := sraiEpi16 vt 15
  let vs := andSi128 vs sign
  let hi := subEpi16 hi vs
  if vmadn then
    let acc := accumulateSigned zero acc lo hi
    (rspUclampAcc acc.lo acc.md acc.hi zero, acc)
  else (lo, ⟨lo, hi, sraiEpi16 hi 15⟩)

/-- `rsp_vmadh_vmudh`. -/
def rspVmadhVmudh (vmadh : Bool) : M128i × Acc :=
  let lo := mulloEpi16 vs vt
  let hi := mulhiEpi16 vs vt
  let acc : Acc :=
    if vmadh then
      let overflowMask := addsEpu16 acc.md lo
      let accMd := addEpi16 acc.md lo
      let overflowMask := cmpeqEpi16 accMd overflowMask
      let overflowMask := cmpeqEpi16 overflowMask zero
      let hi := subEpi16 hi overflowMask
      ⟨acc.lo, accMd, addEpi16 acc.hi hi⟩
    else ⟨zero, lo, hi⟩
  (rspSclampAccTomd acc.md acc.hi, acc)

end Instructions

/-- The instructions that multiply and accumulate. -/
inductive MacOp where
  | vmulf | vmulu | vmacf | vmacu
  | vmudl | vmudm | vmudn | vmudh
  | vmadl | vmadm | vmadn | vmadh
  deriving DecidableEq, Repr

/-- `RSP_VMULF` and the others: the vector that is stored and the accumulators. -/
def MacOp.execute (op : MacOp) (vs vt : M128i) (acc : Acc) : M128i × Acc :=
  match op with
  | vmulf => rspVmulfVmulu vs vt rspVzero false
  | vmulu => rspVmulfVmulu vs vt rspVzero true
  | vmacf => rspVmacfVmacu vs vt rspVzero acc false
  | vmacu => rspVmacfVmacu vs vt rspVzero acc true
  | vmudl => rspVmadlVmudl vs vt rspVzero acc false
  | vmudm => rspVmadmVmudm vs vt rspVzero acc false
  | vmudn => rspVmadnVmudn vs vt rspVzero acc false
  | vmudh => rspVmadhVmudh vs vt rspVzero acc false
  | vmadl => rspVmadlVmudl vs vt rspVzero acc true
  | vmadm => rspVmadmVmudm vs vt rspVzero acc true
  | vmadn => rspVmadnVmudn vs vt rspVzero acc true
  | vmadh => rspVmadhVmudh vs vt rspVzero acc true

/-- An instruction with the operands it has loaded. -/
structure MacInstr where
  op : MacOp
  vs : M128i
  vt : M128i

/-- A sequence of instructions: what each stores, and the accumulators at the end. -/
def runMac : Acc → List MacInstr → List M128i × Acc
  | acc, [] => ([], acc)
  | acc, instr :: instrs =>
    let (result, acc) := instr.op.execute instr.vs instr.vt acc
    let (results, acc) := runMac acc instrs
    (result :: results, acc)

end ParallelN64.Rsp
