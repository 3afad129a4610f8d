import ParallelN64.Rsp.ScalarBranch

/-!
# The scalar units of the two cores

The compiled code of a word and a turn of the interpreter leave the same registers, the same data
memory and the same branch, except for four kinds of words: reserved branches, `SLTIU` with a
negative immediate, and links that overwrite the register that decides the branch or its target.
-/

namespace ParallelN64.Rsp

open ParallelN64.Core Jit

section Agree

variable {h : Host} {s : Su.State} {pc instr : BitVec 32} {lastInfo : InstructionInfo}
  {isTarget : Bool}

theorem run_saveIndirect (lastInfo : InstructionInfo) (instr : BitVec 32) (hm : Matches h s)
    (ops : List HostOp)
    (hops : ∀ h', (ops.foldl HostOp.run h').regs .indirectPc = h'.regs .indirectPc) :
    Carries (((flushImpossibleDelaySlot lastInfo ++
      [jitSaveIndirectRegister (rsOf instr)] ++ ops).foldl HostOp.run h).regs .indirectPc)
      (s.sr (rsOf instr)) := by
  have hflush := run_flush lastInfo hm
  rw [List.foldl_append, hops, List.foldl_append]
  change Carries (Host.regs (Host.setReg _ _ _) _) _
  rw [Host.setReg_regs_self]
  exact hflush.noext _

theorem jr_agree (hm : Matches h s) (hop : opcodeOf instr = 0o00) (hfunct : functOf instr = 0o10) :
    Jit.retire h pc instr lastInfo isTarget = Su.retire s pc instr := by
  have hjit : jitInstruction pc instr lastInfo isTarget =
      unconditional isTarget
        (flushImpossibleDelaySlot lastInfo ++ [jitSaveIndirectRegister (rsOf instr)])
        { indirect := true } := by
    simp only [jitInstruction, jitSpecial, hop, hfunct]
  have hsu : Su.step s instr (pc + 4) = (s.setPc (s.sr (rsOf instr)), true) := by
    simp only [Su.step, Su.special, hop, hfunct]
    rfl
  have hflush := run_flush lastInfo hm
  have hsaved := run_saveIndirect lastInfo instr hm []
    fun _ => rfl
  rw [List.append_nil] at hsaved
  unfold Carries at hsaved
  refine (unconditional_agree_iff hjit rfl hsu ?_).mpr ?_
  · rw [List.foldl_append]
    have htemp := hflush.setTemp (d := .indirectPc) (by simp)
      (Host.read ((flushImpossibleDelaySlot lastInfo).foldl HostOp.run h) (.noext (rsOf instr)))
    exact ⟨htemp.regs, htemp.dmem, htemp.zero⟩
  · unfold Su.State.setPc
    rw [fitImem_tempPc, if_pos rfl, hsaved]

theorem jalr_agree_iff (hm : Matches h s) (hop : opcodeOf instr = 0o00)
    (hfunct : functOf instr = 0o11) :
    Jit.retire h pc instr lastInfo isTarget = Su.retire s pc instr ↔
      (rdOf instr = rsOf instr → rdOf instr ≠ 0 →
        s.sr (rsOf instr) &&& 0xFFC = (pc + 8) &&& 0xFFC) := by
  have hjit : jitInstruction pc instr lastInfo isTarget =
      unconditional isTarget
        (flushImpossibleDelaySlot lastInfo ++ [jitSaveIndirectRegister (rsOf instr)] ++
          if rdOf instr ≠ 0 then [HostOp.movi (.mips (rdOf instr)) (linkValue pc)] else [])
        { indirect := true } := by
    simp only [jitInstruction, jitSpecial, hop, hfunct]
  have hsu : Su.step s instr (pc + 4) =
      ((s.setRd instr (Su.fitImem (pc + 4 + Su.linkOff))).setPc
        ((s.setRd instr (Su.fitImem (pc + 4 + Su.linkOff))).sr (rsOf instr)), true) := by
    simp only [Su.step, Su.special, hop, hfunct]
    rfl
  have hsaved := run_saveIndirect lastInfo instr hm
    (if rdOf instr ≠ 0 then [HostOp.movi (.mips (rdOf instr)) (linkValue pc)] else []) (by
      intro h'
      split_ifs
      · exact Host.setReg_regs_of_ne (by simp) _
      · rfl)
  have hmatches : Matches ((flushImpossibleDelaySlot lastInfo ++
      [jitSaveIndirectRegister (rsOf instr)] ++
        if rdOf instr ≠ 0 then [HostOp.movi (.mips (rdOf instr)) (linkValue pc)] else []).foldl
          HostOp.run h) (s.setRd instr (Su.fitImem (pc + 4 + Su.linkOff))) := by
    have hflush := run_flush lastInfo hm
    have htemp := hflush.setTemp (d := .indirectPc) (by simp)
      (Host.read ((flushImpossibleDelaySlot lastInfo).foldl HostOp.run h) (.noext (rsOf instr)))
    rw [List.foldl_append, List.foldl_append, ite_not]
    exact htemp.result fun hrd => htemp.setReg hrd (carries_link pc)
  unfold Carries at hsaved
  rw [unconditional_agree_iff hjit rfl hsu ⟨hmatches.regs, hmatches.dmem, hmatches.zero⟩,
    if_pos rfl, hsaved]
  change _ = Su.fitImem (0x04001000 + Su.fitImem _) ↔ _
  rw [fitImem_tempPc]
  unfold Su.State.setRd
  rw [Su.clearZero_setReg hm.zero]
  by_cases hrd : rdOf instr = 0
  · simp [hrd]
  · rw [if_neg hrd]
    by_cases hsame : rdOf instr = rsOf instr
    · have hlink : Su.fitImem (pc + 4 + Su.linkOff) &&& 0xFFC = (pc + 8) &&& 0xFFC := by
        rw [fitImem_eq, Su.linkOff, BitVec.add_assoc, BitVec.and_assoc]
        rfl
      rw [hsame, Su.setReg_sr_self, hlink]
      rw [hsame] at hrd
      exact ⟨fun heq _ _ => heq, fun heq => heq rfl hrd⟩
    · have hkeep : (s.setReg (rdOf instr) (Su.fitImem (pc + 4 + Su.linkOff))).sr (rsOf instr) =
          s.sr (rsOf instr) := Function.update_of_ne (Ne.symm hsame) ..
      rw [hkeep]
      simp [hsame]

theorem link_nonneg (pc : BitVec 32) :
    (Su.fitImem (pc + 4 + Su.linkOff)).slt 0 = false ∧
      (0 : BitVec 32).sle (Su.fitImem (pc + 4 + Su.linkOff)) = true := by
  have hlt : (Su.fitImem (pc + 4 + Su.linkOff)).toNat < 4096 := by
    rw [fitImem_eq, toNat_and_ffc]
    omega
  have hint : (Su.fitImem (pc + 4 + Su.linkOff)).toInt =
      (Su.fitImem (pc + 4 + Su.linkOff)).toNat :=
    BitVec.toInt_eq_toNat_of_lt (by omega)
  rw [BitVec.slt_eq_decide, BitVec.sle_eq_decide, hint, show (0 : BitVec 32).toInt = 0 from rfl]
  constructor
  · exact decide_eq_false (by omega)
  · exact decide_eq_true (by omega)

theorem sr_link_of_ne (v : BitVec 32) {r : RegNum} (hr : r ≠ 31) :
    (s.setReg Su.ra v).sr r = s.sr r :=
  Function.update_of_ne hr ..

theorem branchAndLink_agree_iff {op : HostOp} {b b' : Bool} (hm : Matches h s)
    (hjit : jitInstruction pc instr lastInfo isTarget =
      conditional pc instr lastInfo [op, .movi (.mips 31) (linkValue pc)])
    (hsu : Su.step s instr (pc + 4) =
      Su.branchIf (s.setReg Su.ra (Su.fitImem (pc + 4 + Su.linkOff))) b' instr (pc + 4))
    (hop : ∀ h', Matches h' s → op.run h' = h'.setReg .condBranchTaken (Jit.flag b)) :
    Jit.retire h pc instr lastInfo isTarget = Su.retire s pc instr ↔
      b = b' := by
  have hflush := run_flush lastInfo hm
  have hrun : (flushImpossibleDelaySlot lastInfo ++
      [op, .movi (.mips 31) (linkValue pc)]).foldl HostOp.run h =
      (((flushImpossibleDelaySlot lastInfo).foldl HostOp.run h).setReg .condBranchTaken
        (Jit.flag b)).setReg (.mips 31) (linkValue pc) := by
    rw [List.foldl_append, ← hop _ hflush]
    rfl
  refine conditional_agree_iff hjit hsu ?_ ?_
  · rw [hrun]
    exact (hflush.setTemp (by simp) _).setReg (by decide) (carries_link pc)
  · rw [hrun, Host.setReg_regs_of_ne (by simp), Host.setReg_regs_self]

theorem regimm_agree_iff (hm : Matches h s) (hop : opcodeOf instr = 0o01) :
    Jit.retire h pc instr lastInfo isTarget = Su.retire s pc instr ↔
      ((rtOf instr).toNat = 0o00 ∨ (rtOf instr).toNat = 0o01 ∨
        ((rtOf instr).toNat = 0o20 ∨ (rtOf instr).toNat = 0o21) ∧
          (rsOf instr = 31 → (s.sr 31).slt 0 = false)) := by
  have hjit : jitInstruction pc instr lastInfo isTarget =
      jitRegimm pc instr lastInfo := by
    simp only [jitInstruction, hop]
  have hsu : Su.step s instr (pc + 4) = Su.regimm s instr (pc + 4) := by
    simp only [Su.step, hop]
  obtain ⟨hlink, hlink'⟩ := link_nonneg pc
  have hle : ∀ x : BitVec 32, (0 : BitVec 32).sle x = !x.slt 0 := by
    intro x
    rw [BitVec.sle_eq_decide, BitVec.slt_eq_decide, ← decide_not, decide_eq_decide, not_lt]
  unfold jitRegimm at hjit
  unfold Su.regimm at hsu
  generalize (rtOf instr).toNat = rt at *
  dsimp only at hjit hsu
  split at hjit
  · rw [branchAndLink_agree_iff (b := (s.sr (rsOf instr)).slt 0) hm hjit hsu fun h' hm' => by
      rw [← sext_lt_zero hm']
      rfl]
    by_cases hra : rsOf instr = 31
    · rw [hra, show (31 : RegNum) = Su.ra from rfl, Su.setReg_sr_self, hlink]
      simp
    · rw [sr_link_of_ne _ hra]
      exact iff_of_true rfl (.inr (.inr ⟨.inl rfl, fun heq => absurd heq hra⟩))
  · refine iff_of_true ?_ (.inl rfl)
    refine branch_agree hm hjit hsu fun h' hm' => ?_
    rw [← sext_lt_zero hm']
    rfl
  · rw [branchAndLink_agree_iff (b := (0 : BitVec 32).sle (s.sr (rsOf instr))) hm hjit hsu
      fun h' hm' => by
        rw [← zero_le_sext hm']
        rfl]
    by_cases hra : rsOf instr = 31
    · rw [hra, show (31 : RegNum) = Su.ra from rfl, Su.setReg_sr_self, hlink', hle]
      simp
    · rw [sr_link_of_ne _ hra]
      exact iff_of_true rfl (.inr (.inr ⟨.inr rfl, fun heq => absurd heq hra⟩))
  · refine iff_of_true ?_ (.inr (.inl rfl))
    refine branch_agree hm hjit hsu fun h' hm' => ?_
    rw [← zero_le_sext hm']
    rfl
  · rename_i hbltzal hbltz hbgezal hbgez
    have hreserved : Su.step s instr (pc + 4) = (s, true) := by
      refine hsu.trans ?_
      split
      · exact absurd rfl hbltzal
      · exact absurd rfl hbltz
      · exact absurd rfl hbgezal
      · exact absurd rfl hbgez
      · rfl
    rw [retire_eq_iff hjit hreserved hm]
    refine iff_of_false ?_ ?_
    · rw [if_pos rfl]
      exact Option.some_ne_none _ ∘ Eq.symm
    · rintro (heq | heq | ⟨heq | heq, -⟩)
      · exact hbltz heq
      · exact hbgez heq
      · exact hbltzal heq
      · exact hbgezal heq

/-- The words of the scalar unit other than `BREAK`. -/
def IsScalar (instr : BitVec 32) : Prop :=
  opcodeOf instr ≤ 0o17 ∧ ¬(opcodeOf instr = 0o00 ∧ functOf instr = 0o15) ∨
    opcodeOf instr ∈ [0o40, 0o41, 0o43, 0o44, 0o45, 0o50, 0o51, 0o53]

/-- The link does not overwrite the target before the jump, the immediate of `SLTIU` decides the
same as a halfword and as a negative word, the branch is not reserved, and its link does not
overwrite a negative register that it tests. -/
def Undisputed (s : Su.State) (pc instr : BitVec 32) : Prop :=
  (opcodeOf instr = 0o00 → functOf instr = 0o11 → rdOf instr = rsOf instr → rdOf instr ≠ 0 →
    s.sr (rsOf instr) &&& 0xFFC = (pc + 8) &&& 0xFFC) ∧
  (opcodeOf instr = 0o01 → (rtOf instr).toNat = 0o00 ∨ (rtOf instr).toNat = 0o01 ∨
    ((rtOf instr).toNat = 0o20 ∨ (rtOf instr).toNat = 0o21) ∧
      (rsOf instr = 31 → (s.sr 31).slt 0 = false)) ∧
  (opcodeOf instr = 0o13 → rtOf instr ≠ 0 → (immOf instr).toNat < 0x8000 ∨
    (s.sr (rsOf instr)).toNat < (immOf instr).toNat ∨
    0xFFFF0000 + (immOf instr).toNat ≤ (s.sr (rsOf instr)).toNat)

instance (s : Su.State) (pc instr : BitVec 32) : Decidable (Undisputed s pc instr) :=
  inferInstanceAs (Decidable (_ ∧ _ ∧ _))

/-- Of a word of the scalar unit the compiled code and the interpreter leave the same registers,
data memory and branch exactly when the word is undisputed. -/
theorem scalarUnits_agree_iff (hm : Matches h s) (hscalar : IsScalar instr) :
    Jit.retire h pc instr lastInfo isTarget = Su.retire s pc instr ↔
      Undisputed s pc instr := by
  unfold Undisputed
  by_cases hspecial : opcodeOf instr = 0o00
  · have hbreak : functOf instr ≠ 0o15 := by
      rcases hscalar with ⟨-, hnot⟩ | hmem
      · exact fun hf => hnot ⟨hspecial, hf⟩
      · simp [hspecial] at hmem
    by_cases hjalr : functOf instr = 0o11
    · rw [jalr_agree_iff hm hspecial hjalr]
      simp [hspecial, hjalr]
    · refine iff_of_true ?_ (by simp [hspecial, hjalr])
      by_cases hjr : functOf instr = 0o10
      · exact jr_agree hm hspecial hjr
      · exact special_agree hm hspecial hjr hjalr hbreak
  by_cases hregimm : opcodeOf instr = 0o01
  · rw [regimm_agree_iff hm hregimm]
    simp [hregimm]
  by_cases hsltiu : opcodeOf instr = 0o13
  · rw [sltiu_agree_iff hm hsltiu]
    simp [hsltiu]
  refine iff_of_true ?_ (by simp [hspecial, hregimm, hsltiu])
  rcases hscalar with ⟨hlow, -⟩ | hmem
  · by_cases hjump : opcodeOf instr ≤ 0o03
    · refine jumps_agree hm ?_
      simp only [List.mem_cons, List.not_mem_nil, or_false]
      omega
    · by_cases hbranch : opcodeOf instr ≤ 0o07
      · exact branches_agree hm (by omega) hbranch
      · exact immediate_agree hm (by omega) hlow hsltiu
  · simp only [List.mem_cons, List.not_mem_nil, or_false] at hmem
    by_cases hload : opcodeOf instr ≤ 0o45
    · refine loads_agree hm ?_
      simp only [List.mem_cons, List.not_mem_nil, or_false]
      omega
    · refine stores_agree hm ?_
      simp only [List.mem_cons, List.not_mem_nil, or_false]
      omega

end Agree

/-- A state of the interpreter on the host, with every register extended by ones. -/
def Su.State.toHost (s : Su.State) : Host :=
  { regs := fun reg => match reg with
      | .mips r => (-1 : BitVec 32) ++ s.sr r
      | _ => 0
    dmem := s.dmem }

theorem Su.State.matches_toHost {s : Su.State} (hzero : s.sr 0 = 0) : Matches s.toHost s :=
  ⟨fun _ => BitVec.setWidth_append_eq_right, rfl, hzero⟩

def halfwordState : Su.State :=
  { sr := fun r => if r = 2 then 0x8000 else 0, dmem := fun _ => 0, tempPc := 0 }

/-- A comparison with a halfword that is not negative is the same on both cores. -/
theorem sltiu_positive_agree :
    Jit.retire halfwordState.toHost 0x100 0x2C417FFF {} false =
      Su.retire halfwordState 0x100 0x2C417FFF :=
  (scalarUnits_agree_iff (Su.State.matches_toHost rfl) (by unfold IsScalar; decide)).mpr (by decide)

/-- A comparison of 0x8000 with the immediate 0x8000 is not. -/
theorem sltiu_negative_not_agree :
    Jit.retire halfwordState.toHost 0x100 0x2C418000 {} false ≠
      Su.retire halfwordState 0x100 0x2C418000 := by
  intro heq
  exact absurd (congrFun (congrArg Retired.sr heq) 1) (by decide)

end ParallelN64.Rsp
