import ParallelN64.Core.HostWord
import ParallelN64.Core.Word
import ParallelN64.Rsp.ScalarJit

/-!
# The scalar units of the two cores

The compiled code of a word and a turn of the interpreter leave the same registers, the same data
memory and the same branch, except for four kinds of words: reserved branches, `SLTIU` with a
negative immediate, and links that overwrite the register that decides the branch.
-/

namespace ParallelN64.Rsp

open ParallelN64.Core Jit

/-- The host registers carry the registers, and both have the same data memory. -/
structure Matches (h : Host) (s : Su.State) : Prop where
  regs : ∀ r, Carries (h.regs (.mips r)) (s.sr r)
  dmem : h.dmem = s.dmem
  zero : s.sr 0 = 0

section Matches

variable {h : Host} {s : Su.State}

theorem Matches.mipsReg (hm : Matches h s) (r : RegNum) : Carries (h.mipsReg r) (s.sr r) := by
  unfold Host.mipsReg
  split_ifs with hr
  · rw [hr, hm.zero]
    rfl
  · exact hm.regs r

theorem Matches.noext (hm : Matches h s) (r : RegNum) :
    Carries (h.read (.noext r)) (s.sr r) :=
  hm.mipsReg r

theorem Matches.sext (hm : Matches h s) (r : RegNum) :
    h.read (.sext r) = (s.sr r).signExtend 64 :=
  congrArg (BitVec.signExtend 64) (hm.mipsReg r)

theorem Matches.zext (hm : Matches h s) (r : RegNum) :
    h.read (.zext r) = (s.sr r).setWidth 64 :=
  congrArg (BitVec.setWidth 64) (hm.mipsReg r)

@[simp] theorem Jit.Host.setReg_regs_self (d : HostReg) (v : BitVec 64) :
    (h.setReg d v).regs d = v :=
  Function.update_self ..

theorem Jit.Host.setReg_regs_of_ne {d reg : HostReg} (hne : reg ≠ d) (v : BitVec 64) :
    (h.setReg d v).regs reg = h.regs reg :=
  Function.update_of_ne hne ..

theorem Matches.setTemp (hm : Matches h s) {d : HostReg} (hd : ∀ r, d ≠ .mips r)
    (v : BitVec 64) : Matches (h.setReg d v) s := by
  refine ⟨?_, hm.dmem, hm.zero⟩
  intro r
  rw [Host.setReg_regs_of_ne (hd r).symm]
  exact hm.regs r

theorem Matches.setReg (hm : Matches h s) {r : RegNum} (hr : r ≠ 0) {v : BitVec 64}
    {w : BitVec 32} (hv : Carries v w) : Matches (h.setReg (.mips r) v) (s.setReg r w) := by
  refine ⟨?_, hm.dmem, ?_⟩
  · intro r'
    unfold Su.State.setReg
    by_cases heq : r' = r
    · rw [heq, Host.setReg_regs_self]
      simpa using hv
    · rw [Host.setReg_regs_of_ne (by simpa using heq)]
      simpa [heq] using hm.regs r'
  · change Function.update s.sr r w 0 = 0
    rw [Function.update_of_ne hr.symm]
    exact hm.zero

@[simp] theorem Su.setReg_sr_self (r : RegNum) (w : BitVec 32) : (s.setReg r w).sr r = w :=
  Function.update_self ..

@[simp] theorem Su.setReg_setReg (r : RegNum) (v w : BitVec 32) :
    (s.setReg r v).setReg r w = s.setReg r w := by
  unfold Su.State.setReg
  rw [Function.update_idem]

theorem Su.clearZero_setReg (hzero : s.sr 0 = 0) (r : RegNum) (w : BitVec 32) :
    (s.setReg r w).clearZero = if r = 0 then s else s.setReg r w := by
  have hself : ∀ sr : RegNum → BitVec 32, sr 0 = 0 → Function.update sr 0 0 = sr := by
    intro sr hsr
    rw [← hsr]
    exact Function.update_eq_self ..
  unfold Su.State.clearZero Su.State.setReg Su.zero
  split_ifs with hr
  · rw [hr, Function.update_idem, hself _ hzero]
  · rw [hself]
    change Function.update s.sr r w 0 = 0
    rwa [Function.update_of_ne (Ne.symm hr)]

theorem Matches.result (hm : Matches h s) {r : RegNum} {ops : List HostOp} {w : BitVec 32}
    (hops : r ≠ 0 → Matches (ops.foldl HostOp.run h) (s.setReg r w)) :
    Matches ((if r = 0 then [] else ops).foldl HostOp.run h) (s.setReg r w).clearZero := by
  rw [Su.clearZero_setReg hm.zero]
  split_ifs with hr
  · exact hm
  · exact hops hr

end Matches

theorem foldl_code (h : Host) (ops : List HostOp) :
    (code ops).foldl Emitted.run h = ops.foldl HostOp.run h := by
  unfold code
  rw [List.foldl_map]
  rfl

section Retire

variable {h : Host} {s : Su.State} {pc instr : BitVec 32} {lastInfo : InstructionInfo}
  {isTarget : Bool}

/-- The target of a taken branch of the compiled code. -/
def Jit.InstructionInfo.target (info : InstructionInfo) (final : Host) : Option (BitVec 32) :=
  if info.branch ∧ (info.conditional → final.regs .condBranchTaken ≠ 0) then
    some (if info.indirect then (final.regs .indirectPc).setWidth 32 &&& 0xFFC
      else info.branchTarget)
  else none

theorem retire_eq_iff {emitted : List Emitted} {info : InstructionInfo} {next : Su.State}
    {jump : Bool}
    (hjit : jitInstruction pc instr lastInfo isTarget = (emitted, info))
    (hsu : Su.step s instr (pc + 4) = (next, jump))
    (hmatches : Matches (emitted.foldl Emitted.run h) next) :
    Jit.retire h pc instr lastInfo isTarget = Su.retire s pc instr ↔
      info.target (emitted.foldl Emitted.run h) =
        if jump then some (Su.fitImem next.tempPc) else none := by
  unfold Jit.retire Su.retire
  rw [hjit, hsu]
  dsimp only
  rw [Retired.mk.injEq]
  have hsr : (fun r => ((emitted.foldl Emitted.run h).regs (.mips r)).setWidth 32) = next.sr :=
    funext hmatches.regs
  constructor
  · rintro ⟨-, -, htarget⟩
    exact htarget
  · intro htarget
    exact ⟨hsr, hmatches.dmem, htarget⟩

theorem retire_eq_of_plain {ops : List HostOp} {next : Su.State}
    (hjit : jitInstruction pc instr lastInfo isTarget = plain ops)
    (hsu : Su.step s instr (pc + 4) = (next, false))
    (hmatches : Matches (ops.foldl HostOp.run h) next) :
    Jit.retire h pc instr lastInfo isTarget = Su.retire s pc instr := by
  rw [retire_eq_iff hjit hsu]
  · rfl
  · rwa [foldl_code]

end Retire

section Alu

variable {h : Host} {s : Su.State} {pc instr : BitVec 32} {lastInfo : InstructionInfo}
  {isTarget : Bool}

theorem carries_flag (b : Bool) : Carries (Jit.flag b) (Su.flag b) := by
  cases b <;> rfl

theorem flag_inj {a b : Bool} (heq : Su.flag a = Su.flag b) : a = b := by
  cases a <;> cases b <;> first | rfl | exact absurd heq (by decide)

theorem carries_not {x : BitVec 64} {u : BitVec 32} (hx : Carries x u) :
    Carries (x ^^^ (-1 : BitVec 64)) (~~~u) := by
  unfold Carries at *
  rw [BitVec.setWidth_xor, hx]
  exact BitVec.xor_allOnes

theorem toNat_saOf (instr : BitVec 32) :
    ((saOf instr).setWidth 64).toNat = Su.maskSa (instr >>> 6) := by
  unfold saOf Su.maskSa
  rw [BitVec.toNat_setWidth_of_le (by decide), BitVec.extractLsb'_toNat, BitVec.toNat_and,
    BitVec.toNat_ushiftRight]
  exact (Nat.and_two_pow_sub_one_eq_mod _ 5).symm

theorem toNat_shiftAmount {x : BitVec 64} {u : BitVec 32} (hx : Carries x u) :
    (x &&& 31).toNat = Su.maskSa u := by
  unfold Su.maskSa
  unfold Carries at hx
  rw [← hx, BitVec.toNat_and, BitVec.toNat_and, BitVec.toNat_setWidth]
  change _ &&& (2 ^ 5 - 1) = _ &&& (2 ^ 5 - 1)
  rw [Nat.and_two_pow_sub_one_eq_mod, Nat.and_two_pow_sub_one_eq_mod]
  omega

variable {op : Alu} {ext : RegNum → Operand} {w : BitVec 32}

theorem Matches.threeRegOp (hm : Matches h s)
    (hv : Carries (op.eval (h.read (ext (rsOf instr))) (h.read (ext (rtOf instr)))) w) :
    Matches ((if rdOf instr = 0 then [] else
      [.alur op (.mips (rdOf instr)) (ext (rsOf instr)) (ext (rtOf instr))]).foldl HostOp.run h)
      (s.setRd instr w) :=
  hm.result fun hrd => hm.setReg hrd hv

theorem Matches.shiftOp (hm : Matches h s)
    (hv : Carries (op.eval (h.read (ext (rtOf instr))) ((saOf instr).setWidth 64)) w) :
    Matches ((if rdOf instr = 0 then [] else
      [.alui op (.mips (rdOf instr)) (ext (rtOf instr)) ((saOf instr).setWidth 64)]).foldl
        HostOp.run h) (s.setRd instr w) :=
  hm.result fun hrd => hm.setReg hrd hv

theorem Matches.shiftRegOp (hm : Matches h s)
    (hv : ∀ h', Matches h' s → h'.regs .scratch0 = h.read (.noext (rsOf instr)) &&& 31 →
      Carries (op.eval (h'.read (ext (rtOf instr))) (h'.regs .scratch0)) w) :
    Matches ((if rdOf instr = 0 then [] else
      [.alui .and .scratch0 (.noext (rsOf instr)) 31,
        .alur op (.mips (rdOf instr)) (ext (rtOf instr)) (.host .scratch0)]).foldl
        HostOp.run h) (s.setRd instr w) := by
  refine hm.result fun hrd => ?_
  have htemp := hm.setTemp (d := .scratch0) (by simp) (h.read (.noext (rsOf instr)) &&& 31)
  exact htemp.setReg hrd (hv _ htemp (Host.setReg_regs_self _ _))

theorem Matches.nor (hm : Matches h s) :
    Matches ((if rdOf instr = 0 then [] else
      [.alur .or (.mips (rdOf instr)) (.noext (rtOf instr)) (.noext (rsOf instr)),
        .alui .xor (.mips (rdOf instr)) (.noext (rdOf instr)) (-1)]).foldl HostOp.run h)
      (s.setRd instr (~~~(s.sr (rsOf instr) ||| s.sr (rtOf instr)))) := by
  refine hm.result fun hrd => ?_
  have hor := hm.setReg hrd ((hm.noext (rtOf instr)).or (hm.noext (rsOf instr)))
  have hxor := hor.setReg hrd (carries_not (hor.noext (rdOf instr)))
  rw [Su.setReg_sr_self, Su.setReg_setReg] at hxor
  rw [BitVec.or_comm]
  exact hxor

theorem special_agree (hm : Matches h s) (hop : opcodeOf instr = 0o00)
    (hjr : functOf instr ≠ 0o10) (hjalr : functOf instr ≠ 0o11) (hbreak : functOf instr ≠ 0o15) :
    Jit.retire h pc instr lastInfo isTarget = Su.retire s pc instr := by
  have hjit : jitInstruction pc instr lastInfo isTarget =
      jitSpecial pc instr lastInfo isTarget := by
    simp only [jitInstruction, hop]
  have hsu : Su.step s instr (pc + 4) =
      ((Su.special s instr (pc + 4)).1, (Su.special s instr (pc + 4)).2 == 1) := by
    simp only [Su.step, hop]
  have hrs := hm.noext (rsOf instr)
  have hrt := hm.noext (rtOf instr)
  have hamount : ∀ h' : Host, h'.regs .scratch0 = h.read (.noext (rsOf instr)) &&& 31 →
      (h'.regs .scratch0).toNat = Su.maskSa (s.sr (rsOf instr)) := by
    intro h' heq
    rw [heq, toNat_shiftAmount hrs]
  generalize hfunct : functOf instr = funct at *
  unfold jitSpecial at hjit
  unfold Su.special at hsu
  rw [hfunct] at hjit hsu
  dsimp only at hjit hsu
  split at hjit
  · refine retire_eq_of_plain hjit hsu (hm.shiftOp ?_)
    rw [← toNat_saOf]
    exact hrt.shiftLeft (by decide) _
  · refine retire_eq_of_plain hjit hsu (hm.shiftOp ?_)
    rw [← toNat_saOf, hm.zext]
    exact Carries.ushiftRight (by decide) _ _
  · refine retire_eq_of_plain hjit hsu (hm.shiftOp ?_)
    rw [← toNat_saOf, hm.sext]
    exact Carries.sshiftRight (by decide) _ _
  · refine retire_eq_of_plain hjit hsu (hm.shiftRegOp fun h' hm' heq => ?_)
    rw [← hamount h' heq]
    exact (hm'.noext _).shiftLeft (by decide) _
  · refine retire_eq_of_plain hjit hsu (hm.shiftRegOp fun h' hm' heq => ?_)
    rw [← hamount h' heq, hm'.zext]
    exact Carries.ushiftRight (by decide) _ _
  · refine retire_eq_of_plain hjit hsu (hm.shiftRegOp fun h' hm' heq => ?_)
    rw [← hamount h' heq, hm'.sext]
    exact Carries.sshiftRight (by decide) _ _
  · exact absurd rfl hjr
  · exact absurd rfl hjalr
  · exact retire_eq_of_plain hjit hsu (hm.threeRegOp (hrs.add (by decide) hrt))
  · exact retire_eq_of_plain hjit hsu (hm.threeRegOp (hrs.add (by decide) hrt))
  · exact retire_eq_of_plain hjit hsu (hm.threeRegOp (hrs.sub (by decide) hrt))
  · exact retire_eq_of_plain hjit hsu (hm.threeRegOp (hrs.sub (by decide) hrt))
  · exact retire_eq_of_plain hjit hsu (hm.threeRegOp (hrs.and hrt))
  · exact retire_eq_of_plain hjit hsu (hm.threeRegOp (hrs.or hrt))
  · exact retire_eq_of_plain hjit hsu (hm.threeRegOp (hrs.xor hrt))
  · exact retire_eq_of_plain hjit hsu hm.nor
  · refine retire_eq_of_plain hjit hsu (hm.threeRegOp ?_)
    rw [hm.sext, hm.sext, Alu.eval, signExtend_slt (by decide)]
    exact carries_flag _
  · refine retire_eq_of_plain hjit hsu (hm.threeRegOp ?_)
    rw [hm.zext, hm.zext, Alu.eval, setWidth_ult (by decide)]
    exact carries_flag _
  · refine retire_eq_of_plain hjit (hsu.trans ?_) hm
    split
    all_goals first | contradiction | rfl

theorem Matches.twoRegImmOp (hm : Matches h s) {imm : BitVec 64}
    (hv : Carries (op.eval (h.read (ext (rsOf instr))) imm) w) :
    Matches ((if rtOf instr = 0 then [] else
      [.alui op (.mips (rtOf instr)) (ext (rsOf instr)) imm]).foldl HostOp.run h)
      (s.setReg (rtOf instr) w).clearZero :=
  hm.result fun hrt => hm.setReg hrt hv

theorem Matches.movi (hm : Matches h s) {imm : BitVec 64} (hv : Carries imm w) :
    Matches ((if rtOf instr = 0 then [] else [.movi (.mips (rtOf instr)) imm]).foldl HostOp.run h)
      (s.setReg (rtOf instr) w).clearZero :=
  hm.result fun hrt => hm.setReg hrt hv

theorem simm_eq (instr : BitVec 32) :
    simm instr = ((immOf instr).signExtend 32).signExtend 64 :=
  (signExtend_signExtend (by decide) (by decide) _).symm

theorem carries_simm (instr : BitVec 32) : Carries (simm instr) ((immOf instr).signExtend 32) :=
  Carries.signExtend (by decide) _

theorem carries_uimm (instr : BitVec 32) : Carries (uimm instr) ((immOf instr).setWidth 32) :=
  Carries.setWidth (by decide) _

theorem addi_agree (hm : Matches h s)
    (hjit : jitInstruction pc instr lastInfo isTarget =
      if rsOf instr = 0 then nopIfRtZero instr [.movi (.mips (rtOf instr)) (simm instr)]
      else twoRegImmOp instr .add (simm instr) .noext)
    (hsu : Su.step s instr (pc + 4) = (Su.addiu s instr, false)) :
    Jit.retire h pc instr lastInfo isTarget = Su.retire s pc instr := by
  split_ifs at hjit with hzero
  · refine retire_eq_of_plain hjit hsu (hm.movi ?_)
    rw [hzero, hm.zero, show (0 : BitVec 32) = 0#32 from rfl, BitVec.zero_add]
    exact carries_simm instr
  · exact retire_eq_of_plain hjit hsu
      (hm.twoRegImmOp ((hm.noext _).add (by decide) (carries_simm instr)))

theorem immediate_agree (hm : Matches h s) (hlow : 0o10 ≤ opcodeOf instr)
    (hhigh : opcodeOf instr ≤ 0o17) (hsltiu : opcodeOf instr ≠ 0o13) :
    Jit.retire h pc instr lastInfo isTarget = Su.retire s pc instr := by
  have hrs := hm.noext (rsOf instr)
  have himm := carries_uimm instr
  have hjit : jitInstruction pc instr lastInfo isTarget = _ := rfl
  have hsu : Su.step s instr (pc + 4) = _ := rfl
  conv_rhs at hjit => unfold jitInstruction
  conv_rhs at hsu => unfold Su.step
  generalize opcodeOf instr = opcode at *
  interval_cases opcode
  · exact addi_agree hm hjit hsu
  · exact addi_agree hm hjit hsu
  · refine retire_eq_of_plain hjit hsu (hm.twoRegImmOp ?_)
    rw [hm.sext, simm_eq, Alu.eval, signExtend_slt (by decide)]
    exact carries_flag _
  · exact absurd rfl hsltiu
  · exact retire_eq_of_plain hjit hsu (hm.twoRegImmOp (hrs.and himm))
  · by_cases hzero : rsOf instr = 0
    · refine retire_eq_of_plain (hjit.trans (if_pos hzero)) hsu (hm.movi ?_)
      rw [hzero, hm.zero, show (0 : BitVec 32) = 0#32 from rfl, BitVec.zero_or]
      exact himm
    · exact retire_eq_of_plain (hjit.trans (if_neg hzero)) hsu (hm.twoRegImmOp (hrs.or himm))
  · exact retire_eq_of_plain hjit hsu (hm.twoRegImmOp (hrs.xor himm))
  · exact retire_eq_of_plain hjit hsu (hm.movi (Carries.of_signExtend (by decide) _))

theorem ult_signExtend_iff (x : BitVec 32) (imm : BitVec 16) :
    x.ult (imm.signExtend 32) = x.ult (imm.setWidth 32) ↔
      imm.toNat < 0x8000 ∨ x.toNat < imm.toNat ∨ 0xFFFF0000 + imm.toNat ≤ x.toNat := by
  have himm := imm.isLt
  have hx := x.isLt
  rw [BitVec.ult_eq_decide, BitVec.ult_eq_decide, BitVec.toNat_signExtend,
    BitVec.toNat_setWidth_of_le (by decide), BitVec.msb_eq_decide, decide_eq_decide]
  simp only [decide_eq_true_eq]
  split_ifs <;> omega

theorem sltiu_agree_iff (hm : Matches h s) (hop : opcodeOf instr = 0o13) :
    Jit.retire h pc instr lastInfo isTarget = Su.retire s pc instr ↔
      (rtOf instr ≠ 0 → (immOf instr).toNat < 0x8000 ∨
        (s.sr (rsOf instr)).toNat < (immOf instr).toNat ∨
        0xFFFF0000 + (immOf instr).toNat ≤ (s.sr (rsOf instr)).toNat) := by
  rw [← ult_signExtend_iff]
  have hjit : jitInstruction pc instr lastInfo isTarget =
      twoRegImmOp instr .ltU (simm instr) .sext := by
    simp only [jitInstruction, hop]
  have hsu : Su.step s instr (pc + 4) = (Su.sltiu s instr, false) := by
    simp only [Su.step, hop]
  have hv : Alu.ltU.eval (h.read (.sext (rsOf instr))) (simm instr) =
      Jit.flag ((s.sr (rsOf instr)).ult ((immOf instr).signExtend 32)) := by
    rw [hm.sext, simm_eq, Alu.eval, signExtend_ult (by decide)]
  constructor
  · intro heq hrt
    have hsr := congrFun (congrArg Retired.sr heq) (rtOf instr)
    unfold Jit.retire Su.retire at hsr
    rw [hjit, hsu] at hsr
    dsimp only [twoRegImmOp, nopIfRtZero, plain] at hsr
    rw [if_neg hrt, foldl_code, Su.sltiu, Su.clearZero_setReg hm.zero, if_neg hrt,
      Su.setReg_sr_self] at hsr
    change (Host.regs (h.setReg _ _) _).setWidth 32 = _ at hsr
    rw [Host.setReg_regs_self, hv] at hsr
    exact flag_inj ((carries_flag _).symm.trans hsr)
  · intro hsame
    refine retire_eq_of_plain hjit hsu (hm.result fun hrt => hm.setReg hrt ?_)
    rw [hv, hsame hrt]
    exact carries_flag _

end Alu

end ParallelN64.Rsp
