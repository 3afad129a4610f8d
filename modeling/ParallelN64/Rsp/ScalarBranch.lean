import ParallelN64.Rsp.ScalarAccess

/-!
# Branches of the scalar units

Both cores compute the same targets modulo the size of the instruction memory. The compiled code
reads the registers that decide a branch before it writes the link; the interpreter writes the link
first.
-/

namespace ParallelN64.Rsp

open ParallelN64.Core Jit

section Branch

variable {h : Host} {s : Su.State} {pc instr : BitVec 32} {lastInfo : InstructionInfo}
  {isTarget : Bool}

theorem toNat_and_ffc (x : BitVec 32) : (x &&& 0xFFC).toNat = x.toNat % 4096 / 4 * 4 := by
  rw [BitVec.toNat_and]
  change x.toNat &&& ((2 ^ 10 - 1) * 2 ^ 2) = _
  rw [and_ones_mul_two_pow]
  omega

theorem fitImem_eq (x : BitVec 32) : Su.fitImem x = x &&& 0xFFC := by
  unfold Su.fitImem
  rw [BitVec.and_assoc]
  rfl

theorem fitImem_tempPc (x : BitVec 32) : Su.fitImem (0x04001000 + Su.fitImem x) = x &&& 0xFFC := by
  have hx := toNat_and_ffc x
  apply BitVec.eq_of_toNat_eq
  rw [fitImem_eq, fitImem_eq, toNat_and_ffc, BitVec.toNat_add, hx,
    show (0x04001000 : BitVec 32).toNat = 0x04001000 from rfl]
  omega

theorem targetPc_eq (pc instr : BitVec 32) :
    targetPc pc instr = (pc + 4 + 4 * instr + Su.slotOff) &&& 0xFFC := by
  unfold targetPc Su.slotOff
  dsimp only
  rw [BitVec.shiftLeft_eq_mul_twoPow, BitVec.mul_comm instr, show BitVec.twoPow 32 2 = 4 from rfl,
    show (0 : BitVec 32) = 0#32 from rfl, BitVec.add_zero]

theorem jumpTarget_eq (instr : BitVec 32) : jumpTarget instr = (4 * instr) &&& 0xFFC := by
  apply BitVec.eq_of_toNat_eq
  unfold jumpTarget
  rw [toNat_and_ffc, BitVec.toNat_shiftLeft, BitVec.toNat_and, Nat.shiftLeft_eq]
  change (instr.toNat &&& (2 ^ 10 - 1)) * 2 ^ 2 % 2 ^ 32 = _
  rw [Nat.and_two_pow_sub_one_eq_mod, BitVec.toNat_mul, show (4 : BitVec 32).toNat = 4 from rfl]
  omega

theorem carries_link (pc : BitVec 32) :
    Carries (linkValue pc) (Su.fitImem (pc + 4 + Su.linkOff)) := by
  have heq : Su.fitImem (pc + 4 + Su.linkOff) = (pc + 8) &&& 0xFFC := by
    rw [fitImem_eq]
    unfold Su.linkOff
    rw [BitVec.add_assoc]
    rfl
  rw [heq]
  exact Carries.of_setWidth (by decide) _

theorem run_flush (lastInfo : InstructionInfo) (hm : Matches h s) :
    Matches ((flushImpossibleDelaySlot lastInfo).foldl HostOp.run h) s := by
  unfold flushImpossibleDelaySlot
  rw [List.foldl_append]
  have hkeep : ∀ {h' : Host} {c : Bool} {d : HostReg} {a : Operand}, Matches h' s →
      (∀ r, d ≠ .mips r) → Matches ((if c then [.movr d a] else []).foldl HostOp.run h') s := by
    intro h' c d a hm' hd
    split_ifs
    · exact hm'.setTemp hd _
    · exact hm'
  exact hkeep (hkeep hm (by simp)) (by simp)

theorem flag_ne_zero (b : Bool) : Jit.flag b ≠ 0 ↔ b = true := by
  cases b <;> decide

theorem conditional_agree_iff {ops : List HostOp} {next : Su.State} {b b' : Bool}
    (hjit : jitInstruction pc instr lastInfo isTarget =
      conditional pc instr lastInfo ops)
    (hsu : Su.step s instr (pc + 4) = Su.branchIf next b' instr (pc + 4))
    (hmatches : Matches ((flushImpossibleDelaySlot lastInfo ++ ops).foldl HostOp.run h) next)
    (hcond : ((flushImpossibleDelaySlot lastInfo ++ ops).foldl HostOp.run h).regs
      .condBranchTaken = Jit.flag b) :
    Jit.retire h pc instr lastInfo isTarget = Su.retire s pc instr ↔
      b = b' := by
  unfold conditional at hjit
  unfold Su.branchIf at hsu
  have htaken : InstructionInfo.target
      { branch := true, conditional := true, branchTarget := targetPc pc instr }
      ((flushImpossibleDelaySlot lastInfo ++ ops).foldl HostOp.run h) =
      if b then some (targetPc pc instr) else none := by
    unfold InstructionInfo.target
    rw [hcond]
    simp only [true_and, forall_const, flag_ne_zero, Bool.false_eq_true, if_false]
  cases b' with
  | false =>
    rw [retire_eq_iff hjit hsu (by rwa [foldl_code]), foldl_code, htaken]
    cases b <;> simp
  | true =>
    rw [retire_eq_iff hjit hsu, foldl_code, htaken]
    · unfold Su.State.setPc
      rw [fitImem_tempPc, targetPc_eq]
      cases b <;> simp
    · rw [foldl_code]
      exact ⟨hmatches.regs, hmatches.dmem, hmatches.zero⟩

theorem branch_agree {op : HostOp} {b : Bool} (hm : Matches h s)
    (hjit : jitInstruction pc instr lastInfo isTarget =
      conditional pc instr lastInfo [op])
    (hsu : Su.step s instr (pc + 4) = Su.branchIf s b instr (pc + 4))
    (hop : ∀ h', Matches h' s → op.run h' = h'.setReg .condBranchTaken (Jit.flag b)) :
    Jit.retire h pc instr lastInfo isTarget = Su.retire s pc instr := by
  have hflush := run_flush lastInfo hm
  refine (conditional_agree_iff hjit hsu ?_ ?_).mpr rfl
  · rw [List.foldl_append]
    change Matches (op.run _) _
    rw [hop _ hflush]
    exact hflush.setTemp (by simp) _
  · rw [List.foldl_append]
    change Host.regs (op.run _) _ = _
    rw [hop _ hflush]
    exact Host.setReg_regs_self _ _

theorem sext_eq_iff (hm : Matches h s) :
    (h.read (.sext (rsOf instr)) == h.read (.sext (rtOf instr))) =
      (s.sr (rsOf instr) == s.sr (rtOf instr)) := by
  rw [hm.sext, hm.sext, Bool.eq_iff_iff, beq_iff_eq, beq_iff_eq]
  exact signExtend_inj (by decide)

theorem sext_lt_zero (hm : Matches h s) (r : RegNum) :
    (h.read (.sext r)).slt 0 = (s.sr r).slt 0 := by
  rw [hm.sext]
  exact signExtend_slt (by decide) (s.sr r) 0

theorem sext_le_zero (hm : Matches h s) (r : RegNum) :
    (h.read (.sext r)).sle 0 = (s.sr r).sle 0 := by
  rw [hm.sext]
  exact signExtend_sle (by decide) (s.sr r) 0

theorem zero_lt_sext (hm : Matches h s) (r : RegNum) :
    (0 : BitVec 64).slt (h.read (.sext r)) = (0 : BitVec 32).slt (s.sr r) := by
  rw [hm.sext]
  exact signExtend_slt (by decide) 0 (s.sr r)

theorem zero_le_sext (hm : Matches h s) (r : RegNum) :
    (0 : BitVec 64).sle (h.read (.sext r)) = (0 : BitVec 32).sle (s.sr r) := by
  rw [hm.sext]
  exact signExtend_sle (by decide) 0 (s.sr r)

theorem branches_agree (hm : Matches h s) (hlow : 0o04 ≤ opcodeOf instr)
    (hhigh : opcodeOf instr ≤ 0o07) :
    Jit.retire h pc instr lastInfo isTarget = Su.retire s pc instr := by
  have hjit : jitInstruction pc instr lastInfo isTarget = _ := rfl
  have hsu : Su.step s instr (pc + 4) = _ := rfl
  conv_rhs at hjit => unfold jitInstruction
  conv_rhs at hsu => unfold Su.step
  generalize opcodeOf instr = opcode at *
  interval_cases opcode
  · refine branch_agree hm hjit hsu fun h' hm' => ?_
    rw [← sext_eq_iff hm']
    rfl
  · refine branch_agree hm hjit hsu fun h' hm' => ?_
    rw [bne, ← sext_eq_iff hm']
    rfl
  · by_cases hzero : rsOf instr = 0
    · have hflush := run_flush lastInfo hm
      have htaken : Su.blez s instr (pc + 4) =
          (s.setPc (pc + 4 + 4 * instr + Su.slotOff), true) := by
        unfold Su.blez
        rw [hzero, hm.zero]
        rfl
      refine (retire_eq_iff (hjit.trans (if_neg (not_not.mpr hzero))) (hsu.trans htaken) ?_).mpr ?_
      · rw [foldl_code]
        exact ⟨hflush.regs, hflush.dmem, hflush.zero⟩
      · unfold Su.State.setPc
        rw [fitImem_tempPc, ← targetPc_eq]
        rfl
    · refine branch_agree hm (hjit.trans (if_pos hzero)) hsu fun h' hm' => ?_
      rw [← sext_le_zero hm']
      rfl
  · by_cases hzero : rsOf instr = 0
    · have hnot : Su.bgtz s instr (pc + 4) = (s, false) := by
        unfold Su.bgtz
        rw [hzero, hm.zero]
        rfl
      exact retire_eq_of_plain (hjit.trans (if_pos hzero)) (hsu.trans hnot) (run_flush lastInfo hm)
    · refine branch_agree hm (hjit.trans (if_neg hzero)) hsu fun h' hm' => ?_
      rw [← zero_lt_sext hm']
      rfl

theorem unconditional_agree_iff {ops : List HostOp} {info : InstructionInfo} {next : Su.State}
    (hjit : jitInstruction pc instr lastInfo isTarget =
      unconditional isTarget ops info)
    (hinfo : info.conditional = false)
    (hsu : Su.step s instr (pc + 4) = (next, true))
    (hmatches : Matches (ops.foldl HostOp.run h) next) :
    Jit.retire h pc instr lastInfo isTarget = Su.retire s pc instr ↔
      (if info.indirect then
        ((ops.foldl HostOp.run h).regs .indirectPc).setWidth 32 &&& 0xFFC
      else info.branchTarget) = Su.fitImem next.tempPc := by
  have hrun : ∀ v, (ops ++ [HostOp.movi .condBranchTaken v]).foldl HostOp.run h =
      (ops.foldl HostOp.run h).setReg .condBranchTaken v := by
    intro v
    rw [List.foldl_append]
    rfl
  have hindirect : ∀ v, ((ops.foldl HostOp.run h).setReg .condBranchTaken v).regs .indirectPc =
      (ops.foldl HostOp.run h).regs .indirectPc := by
    intro v
    exact Host.setReg_regs_of_ne (by simp) v
  unfold unconditional at hjit
  split_ifs at hjit
  · rw [retire_eq_iff hjit hsu, foldl_code, hrun]
    · unfold InstructionInfo.target
      rw [Host.setReg_regs_self, hindirect, if_pos (by simp), if_pos rfl, Option.some.injEq]
    · rw [foldl_code, hrun]
      exact hmatches.setTemp (by simp) _
  · rw [retire_eq_iff hjit hsu, foldl_code, hrun]
    · unfold InstructionInfo.target
      rw [hindirect, if_pos (by simp [hinfo]), if_pos rfl, Option.some.injEq]
    · rw [foldl_code, hrun]
      exact hmatches.setTemp (by simp) _

theorem jumps_agree (hm : Matches h s) (hop : opcodeOf instr ∈ [0o02, 0o03]) :
    Jit.retire h pc instr lastInfo isTarget = Su.retire s pc instr := by
  have hjit : jitInstruction pc instr lastInfo isTarget = _ := rfl
  have hsu : Su.step s instr (pc + 4) = _ := rfl
  conv_rhs at hjit => unfold jitInstruction
  conv_rhs at hsu => unfold Su.step
  generalize opcodeOf instr = opcode at *
  have hflush := run_flush lastInfo hm
  simp only [List.mem_cons, List.not_mem_nil, or_false] at hop
  rcases hop with rfl | rfl
  · refine (unconditional_agree_iff hjit rfl hsu ?_).mpr ?_
    · exact ⟨hflush.regs, hflush.dmem, hflush.zero⟩
    · exact (jumpTarget_eq instr).trans (fitImem_tempPc _).symm
  · refine (unconditional_agree_iff hjit rfl hsu ?_).mpr ?_
    · rw [List.foldl_append]
      have hlink := hflush.setReg (show (31 : RegNum) ≠ 0 by decide) (carries_link pc)
      exact ⟨hlink.regs, hlink.dmem, hlink.zero⟩
    · exact (jumpTarget_eq instr).trans (fitImem_tempPc _).symm

end Branch

end ParallelN64.Rsp
