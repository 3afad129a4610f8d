import ParallelN64.Rsp.ScalarAlu

/-!
# Loads and stores of the scalar units

The interpreter reads each byte of the big-endian data memory at its mirrored place. The compiled
code makes one host access at the flipped address when it is aligned, and else calls a function
that reads the bytes at the same places.
-/

namespace ParallelN64.Rsp

open ParallelN64.Core Jit

def mirror (a : Nat) : Nat := 4 * (a / 4) + (3 - a % 4)

theorem dmemIndex_eq (address : BitVec 32) :
    Su.dmemIndex address = mirror (address.toNat % 4096) := by
  unfold Su.dmemIndex Su.bes mirror
  rw [BitVec.toNat_and, BitVec.toNat_xor]
  change (address.toNat ^^^ 3) &&& (2 ^ 12 - 1) = _
  rw [Nat.and_two_pow_sub_one_eq_mod, xor_three]
  omega

theorem byteEndianFixup_eq (x off : BitVec 64) :
    byteEndianFixup x off = mirror ((x.toNat + off.toNat) % 4096) := by
  unfold byteEndianFixup mirror
  rw [BitVec.toNat_and, BitVec.toNat_xor, BitVec.toNat_add]
  change (_ ^^^ 3) &&& (2 ^ 12 - 1) = _
  rw [Nat.and_two_pow_sub_one_eq_mod, xor_three]
  omega

theorem flip_two {x : BitVec 64} (hlt : x.toNat < 4096) (hbits : x &&& 1 = 0) :
    mirror ((x.toNat + 1) % 4096) = (x ^^^ 2).toNat ∧
      mirror (x.toNat % 4096) = (x ^^^ 2).toNat + 1 := by
  have heven : x.toNat % 2 = 0 := by
    have hand := congrArg BitVec.toNat hbits
    rw [BitVec.toNat_and] at hand
    change x.toNat &&& (2 ^ 1 - 1) = 0 at hand
    rwa [Nat.and_two_pow_sub_one_eq_mod] at hand
  unfold mirror
  rw [BitVec.toNat_xor, show (2 : BitVec 64).toNat = 2 from rfl, xor_two]
  omega

theorem mirror_word {x : BitVec 64} (hlt : x.toNat < 4096) (hbits : x &&& 3 = 0) {k : Nat}
    (hk : k < 4) : mirror ((x.toNat + k) % 4096) = x.toNat + (3 - k) := by
  have hfour : x.toNat % 4 = 0 := by
    have hand := congrArg BitVec.toNat hbits
    rw [BitVec.toNat_and] at hand
    change x.toNat &&& (2 ^ 2 - 1) = 0 at hand
    rwa [Nat.and_two_pow_sub_one_eq_mod] at hand
  unfold mirror
  omega

section Access

variable {h : Host} {s : Su.State} {pc instr : BitVec 32} {lastInfo : InstructionInfo}
  {isTarget : Bool}

def hostAddress (h : Host) (instr : BitVec 32) : BitVec 64 :=
  (h.read (.noext (rsOf instr)) + simm instr) &&& 0xFFF

theorem toNat_hostAddress (instr : BitVec 32) (hm : Matches h s) :
    (hostAddress h instr).toNat = (Su.addressOf s instr).toNat % 4096 := by
  have hsum := (hm.noext (rsOf instr)).add (by decide) (carries_simm instr)
  unfold hostAddress Su.addressOf
  unfold Carries at hsum
  rw [← hsum, BitVec.toNat_and, BitVec.toNat_setWidth]
  change _ &&& (2 ^ 12 - 1) = _
  rw [Nat.and_two_pow_sub_one_eq_mod]
  omega

theorem dmemIndex_add (x : BitVec 64) (hx : x.toNat = (Su.addressOf s instr).toNat % 4096)
    (k : Nat) :
    Su.dmemIndex (Su.addressOf s instr + BitVec.ofNat 32 k) =
      mirror ((x.toNat + k) % 4096) := by
  rw [dmemIndex_eq, BitVec.toNat_add, BitVec.toNat_ofNat, hx]
  congr 1
  omega

theorem run_address (hm : Matches h s) :
    ∃ h', [HostOp.alui .add .scratch0 (.noext (rsOf instr)) (simm instr),
        .alui .and .scratch0 (.host .scratch0) 0xFFF].foldl HostOp.run h = h' ∧
      h'.regs .scratch0 = hostAddress h instr ∧ Matches h' s := by
  refine ⟨_, rfl, ?_, ?_⟩
  · change Host.regs (Host.setReg _ _ (Host.regs (Host.setReg _ _ _) _ &&& 0xFFF)) _ = _
    rw [Host.setReg_regs_self, Host.setReg_regs_self]
    rfl
  · exact (hm.setTemp (by simp) _).setTemp (by simp) _

theorem run_flip (hm : Matches h s) (endianFlip : BitVec 32) :
    ∃ h', (if endianFlip ≠ 0 then
        [HostOp.alui .xor .scratch0 (.host .scratch0) (endianFlip.setWidth 64)] else []).foldl
          HostOp.run h = h' ∧
      h'.regs .scratch0 = h.regs .scratch0 ^^^ endianFlip.setWidth 64 ∧ Matches h' s := by
  refine ⟨_, rfl, ?_⟩
  split_ifs with hflip
  · exact ⟨Host.setReg_regs_self _ _, hm.setTemp (by simp) _⟩
  · rw [not_not.mp hflip]
    exact ⟨BitVec.xor_zero.symm, hm⟩

theorem load_agree (hm : Matches h s) {access : Access} {unalignedOp : UnalignedOp}
    {endianFlip : BitVec 32} {w : BitVec 32}
    (hjit : jitInstruction pc instr lastInfo isTarget =
      jitEmitLoadOperation instr access unalignedOp endianFlip)
    (hsu : Su.step s instr (pc + 4) = ((s.setReg (rtOf instr) w).clearZero, false))
    (haligned : ∀ x : BitVec 64, x.toNat = (Su.addressOf s instr).toNat % 4096 →
      x &&& (endianFlip ^^^ 3).setWidth 64 = 0 →
      Carries (access.load s.dmem (x ^^^ endianFlip.setWidth 64).toNat) w)
    (hcall : ∀ x : BitVec 64, x.toNat = (Su.addressOf s instr).toNat % 4096 →
      endianFlip ^^^ 3 ≠ 0 → Carries (unalignedOp.load s.dmem x) w) :
    Jit.retire h pc instr lastInfo isTarget = Su.retire s pc instr := by
  unfold jitEmitLoadOperation at hjit
  dsimp only at hjit
  rw [Su.clearZero_setReg hm.zero] at hsu
  by_cases hrt : rtOf instr = 0
  · rw [if_pos hrt] at hjit hsu
    exact retire_eq_of_plain hjit hsu hm
  rw [if_neg hrt] at hjit hsu
  obtain ⟨ha, haddress, hreg, hma⟩ := run_address hm
  have hx := toNat_hostAddress instr hm
  obtain ⟨hf, hflip, hregf, hmf⟩ := run_flip hma endianFlip
  have halignedRun : hostAddress h instr &&& (endianFlip ^^^ 3).setWidth 64 = 0 →
      Matches ((hf.setReg .scratch1
        (access.load hf.dmem (hf.regs .scratch0).toNat)).setReg (.mips (rtOf instr))
          ((hf.setReg .scratch1 (access.load hf.dmem (hf.regs .scratch0).toNat)).regs .scratch1))
        (s.setReg (rtOf instr) w) := by
    intro hmask
    refine (hmf.setTemp (by simp) _).setReg hrt ?_
    rw [Host.setReg_regs_self, hmf.dmem, hregf, hreg]
    exact haligned _ hx hmask
  by_cases hmask : endianFlip ^^^ 3 ≠ 0
  · rw [if_pos hmask] at hjit
    refine (retire_eq_iff hjit hsu ?_).mpr rfl
    rw [List.foldl_append, foldl_code, haddress]
    simp only [List.foldl_cons, List.foldl_nil, Emitted.run]
    rw [hreg, List.foldl_append, hflip]
    split_ifs with hbits
    · exact halignedRun hbits
    · refine (hma.setTemp (by simp) _).setReg hrt ?_
      change Carries (Host.regs (Host.setReg _ _ _) _) _
      rw [Host.setReg_regs_self, hma.dmem, hreg]
      exact hcall _ hx hmask
  · rw [if_neg hmask] at hjit
    refine retire_eq_of_plain hjit hsu ?_
    rw [List.foldl_append, List.foldl_append, haddress, List.foldl_append, hflip]
    refine halignedRun ?_
    rw [not_not.mp hmask]
    exact BitVec.and_zero

theorem Matches.setDmem (hm : Matches h s) {dmem dmem' : Dmem} (heq : dmem = dmem') :
    Matches { h with dmem := dmem } { s with dmem := dmem' } :=
  ⟨hm.regs, heq, hm.zero⟩

theorem store_agree (hm : Matches h s) {access : Access} {unalignedOp : UnalignedOp}
    {endianFlip : BitVec 32} {dmem : Dmem}
    (hjit : jitInstruction pc instr lastInfo isTarget =
      jitEmitStoreOperation instr access unalignedOp endianFlip)
    (hsu : Su.step s instr (pc + 4) = ({ s with dmem := dmem }, false))
    (haligned : ∀ x data : BitVec 64, x.toNat = (Su.addressOf s instr).toNat % 4096 →
      Carries data (s.sr (rtOf instr)) → x &&& (3 - endianFlip).setWidth 64 = 0 →
      access.store s.dmem (x ^^^ endianFlip.setWidth 64).toNat data = dmem)
    (hcall : ∀ x data : BitVec 64, x.toNat = (Su.addressOf s instr).toNat % 4096 →
      Carries data (s.sr (rtOf instr)) → 3 - endianFlip ≠ 0 →
      unalignedOp.store s.dmem x data = dmem) :
    Jit.retire h pc instr lastInfo isTarget = Su.retire s pc instr := by
  unfold jitEmitStoreOperation at hjit
  dsimp only at hjit
  obtain ⟨ha, haddress, hreg, hma⟩ := run_address hm
  have hx := toNat_hostAddress instr hm
  obtain ⟨hf, hflip, hregf, hmf⟩ := run_flip hma endianFlip
  have halignedRun : hostAddress h instr &&& (3 - endianFlip).setWidth 64 = 0 →
      Matches
        { hf with
          dmem := access.store hf.dmem (hf.regs .scratch0).toNat (hf.read (.noext (rtOf instr))) }
        { s with dmem := dmem } := by
    intro hmask
    refine hmf.setDmem ?_
    rw [hmf.dmem, hregf, hreg]
    exact haligned _ _ hx (hmf.noext _) hmask
  by_cases hmask : 3 - endianFlip ≠ 0
  · rw [if_pos hmask] at hjit
    refine (retire_eq_iff hjit hsu ?_).mpr rfl
    rw [List.foldl_append, foldl_code, haddress]
    simp only [List.foldl_cons, List.foldl_nil, Emitted.run]
    rw [hreg, List.foldl_append, hflip]
    split_ifs with hbits
    · exact halignedRun hbits
    · refine hma.setDmem ?_
      rw [hma.dmem, hreg]
      exact hcall _ _ hx (hma.noext _) hmask
  · rw [if_neg hmask] at hjit
    refine retire_eq_of_plain hjit hsu ?_
    rw [List.foldl_append, haddress, List.foldl_append, hflip]
    refine halignedRun ?_
    rw [not_not.mp hmask]
    exact BitVec.and_zero

theorem half_eq (b0 b1 : BitVec 8) :
    (b0.setWidth 32 <<< 8 ||| b1.setWidth 32 <<< 0 : BitVec 32) = (b0 ++ b1).setWidth 32 := by
  rw [BitVec.shiftLeft_zero, BitVec.setWidth_append_eq_shiftLeft_setWidth_or]

theorem half_setWidth (b : BitVec 16) : (b.setWidth 32).setWidth 16 = b := by
  rw [BitVec.setWidth_setWidth_of_le _ (by decide), BitVec.setWidth_eq]

theorem word_eq (b0 b1 b2 b3 : BitVec 8) :
    (b0.setWidth 32 <<< 24 ||| b1.setWidth 32 <<< 16 ||| b2.setWidth 32 <<< 8 |||
      b3.setWidth 32 <<< 0 : BitVec 32) = b0 ++ b1 ++ (b2 ++ b3) := by
  have hself : (b0 ++ b1 ++ (b2 ++ b3)).setWidth 32 = b0 ++ b1 ++ (b2 ++ b3) :=
    BitVec.setWidth_eq _
  rw [← hself]
  simp only [BitVec.setWidth_append_eq_shiftLeft_setWidth_or, BitVec.shiftLeft_or_distrib,
    ← BitVec.shiftLeft_add, BitVec.shiftLeft_zero, BitVec.or_assoc]

theorem getLsbD_setSrB (x : BitVec 32) {i : Nat} (b : BitVec 8) {j : Nat} (hj : j < 32) :
    (Su.setSrB x i b).getLsbD j =
      if 8 * (3 - i) ≤ j ∧ j < 8 * (3 - i) + 8 then b.getLsbD (j - 8 * (3 - i))
      else x.getLsbD j := by
  have hones : ∀ k, (0xFF : BitVec 32).getLsbD k = decide (k < 8) := by
    intro k
    change (BitVec.ofNat 32 (2 ^ 8 - 1)).getLsbD k = _
    rw [BitVec.getLsbD_ofNat, Nat.testBit_two_pow_sub_one]
    by_cases hk : k < 8
    · simp [hk, show k < 32 by omega]
    · simp [hk]
  unfold Su.setSrB
  rw [BitVec.getLsbD_or, BitVec.getLsbD_and, BitVec.getLsbD_not, BitVec.getLsbD_shiftLeft,
    BitVec.getLsbD_shiftLeft, BitVec.getLsbD_setWidth, hones]
  by_cases hlow : j < 8 * (3 - i)
  · simp [hj, hlow, show ¬8 * (3 - i) ≤ j by omega]
  · by_cases hhigh : j < 8 * (3 - i) + 8
    · simp [hj, hlow, hhigh, show 8 * (3 - i) ≤ j by omega, show j - 8 * (3 - i) < 8 by omega,
        show j - 8 * (3 - i) < 32 by omega]
    · have hout : b.getLsbD (j - 8 * (3 - i)) = false :=
        BitVec.getLsbD_of_ge _ _ (by omega)
      simp [hj, hlow, hhigh, hout, show ¬j - 8 * (3 - i) < 8 by omega]

theorem setSrB_word (x : BitVec 32) (b0 b1 b2 b3 : BitVec 8) :
    Su.setSrB (Su.setSrB (Su.setSrB (Su.setSrB x 0 b0) 1 b1) 2 b2) 3 b3 =
      b0 ++ b1 ++ (b2 ++ b3) := by
  apply BitVec.eq_of_getLsbD_eq
  intro j hj
  rw [getLsbD_setSrB _ _ hj, getLsbD_setSrB _ _ hj, getLsbD_setSrB _ _ hj,
    getLsbD_setSrB _ _ hj, BitVec.getLsbD_append, BitVec.getLsbD_append, BitVec.getLsbD_append]
  split_ifs <;> first | omega | congr 1

theorem lb_eq (s : Su.State) (instr : BitVec 32) :
    Su.lb s instr = (s.setReg (rtOf instr)
      ((s.dmem (Su.dmemIndex (Su.addressOf s instr))).signExtend 32)).clearZero := by
  unfold Su.lb
  dsimp only
  rw [Su.setReg_sr_self, Su.setReg_setReg, BitVec.setWidth_setWidth_of_le _ (by decide),
    BitVec.setWidth_eq]

theorem lh_eq (s : Su.State) (instr : BitVec 32) :
    Su.lh s instr = (s.setReg (rtOf instr)
      (((Su.halfAt s (Su.addressOf s instr)).setWidth 16).signExtend 32)).clearZero := by
  unfold Su.lh
  dsimp only
  rw [Su.setReg_sr_self, Su.setReg_setReg]

theorem lw_eq (s : Su.State) (instr : BitVec 32) :
    Su.lw s instr = (s.setReg (rtOf instr)
      (s.dmem (Su.dmemIndex (Su.addressOf s instr + 0)) ++
        s.dmem (Su.dmemIndex (Su.addressOf s instr + 1)) ++
        (s.dmem (Su.dmemIndex (Su.addressOf s instr + 2)) ++
          s.dmem (Su.dmemIndex (Su.addressOf s instr + 3))))).clearZero := by
  have hdmem : ∀ (t : Su.State) (r : RegNum) (v : BitVec 32), (t.setReg r v).dmem = t.dmem :=
    fun _ _ _ => rfl
  unfold Su.lw
  dsimp only [Su.State.loadByte]
  simp only [Su.setReg_sr_self, Su.setReg_setReg, hdmem, setSrB_word]

theorem rspUnalignedLw_eq (s : Su.State) (x : BitVec 64) :
    rspUnalignedLw s.dmem x =
      (s.dmem (mirror (x.toNat % 4096)) ++ s.dmem (mirror ((x.toNat + 1) % 4096)) ++
        (s.dmem (mirror ((x.toNat + 2) % 4096)) ++
          s.dmem (mirror ((x.toNat + 3) % 4096)))).signExtend 64 := by
  unfold rspUnalignedLw
  dsimp only
  rw [word_eq, byteEndianFixup_eq, byteEndianFixup_eq, byteEndianFixup_eq, byteEndianFixup_eq]
  rfl

section Loads

variable {x : BitVec 64} (hx : x.toNat = (Su.addressOf s instr).toNat % 4096)

include hx

theorem halfAt_eq : Su.halfAt s (Su.addressOf s instr) =
    (s.dmem (mirror (x.toNat % 4096)) ++ s.dmem (mirror ((x.toNat + 1) % 4096))).setWidth 32 := by
  have hfirst : Su.dmemIndex (Su.addressOf s instr + 0) = mirror (x.toNat % 4096) :=
    dmemIndex_add x hx 0
  have hsecond : Su.dmemIndex (Su.addressOf s instr + 1) = mirror ((x.toNat + 1) % 4096) :=
    dmemIndex_add x hx 1
  unfold Su.halfAt
  rw [half_eq, hfirst, hsecond]

theorem hostHalf_eq (hbits : x &&& 1 = 0) :
    hostHalf s.dmem (x ^^^ 2).toNat =
      s.dmem (mirror (x.toNat % 4096)) ++ s.dmem (mirror ((x.toNat + 1) % 4096)) := by
  obtain ⟨hlow, hhigh⟩ := flip_two (x := x) (by omega) hbits
  rw [hlow, hhigh]
  rfl

theorem hostWord_eq (hbits : x &&& 3 = 0) :
    Jit.hostWord s.dmem x.toNat =
      s.dmem (mirror (x.toNat % 4096)) ++ s.dmem (mirror ((x.toNat + 1) % 4096)) ++
        (s.dmem (mirror ((x.toNat + 2) % 4096)) ++ s.dmem (mirror ((x.toNat + 3) % 4096))) := by
  have hplace : ∀ {k : Nat}, k < 4 → mirror ((x.toNat + k) % 4096) = x.toNat + (3 - k) :=
    mirror_word (by omega) hbits
  have hfirst : mirror (x.toNat % 4096) = x.toNat + 3 := @hplace 0 (by decide)
  rw [hfirst, hplace (by decide), hplace (by decide), hplace (by decide)]
  rfl

theorem unalignedHalf_eq :
    ((s.dmem (byteEndianFixup x 0)).setWidth 32 <<< 8 |||
      (s.dmem (byteEndianFixup x 1)).setWidth 32 <<< 0 : BitVec 32) =
      Su.halfAt s (Su.addressOf s instr) := by
  rw [halfAt_eq hx, half_eq, byteEndianFixup_eq, byteEndianFixup_eq]
  rfl

theorem wordAt_eq :
    s.dmem (Su.dmemIndex (Su.addressOf s instr + 0)) ++
        s.dmem (Su.dmemIndex (Su.addressOf s instr + 1)) ++
        (s.dmem (Su.dmemIndex (Su.addressOf s instr + 2)) ++
          s.dmem (Su.dmemIndex (Su.addressOf s instr + 3))) =
      s.dmem (mirror (x.toNat % 4096)) ++ s.dmem (mirror ((x.toNat + 1) % 4096)) ++
        (s.dmem (mirror ((x.toNat + 2) % 4096)) ++ s.dmem (mirror ((x.toNat + 3) % 4096))) := by
  have hplace : ∀ k : Nat, Su.dmemIndex (Su.addressOf s instr + BitVec.ofNat 32 k) =
      mirror ((x.toNat + k) % 4096) := dmemIndex_add x hx
  exact congrArg₂ (· ++ ·) (congrArg₂ (· ++ ·) (congrArg s.dmem (hplace 0))
    (congrArg s.dmem (hplace 1))) (congrArg₂ (· ++ ·) (congrArg s.dmem (hplace 2))
    (congrArg s.dmem (hplace 3)))

theorem byteIndex_eq : (x ^^^ 3).toNat = Su.dmemIndex (Su.addressOf s instr) := by
  have hlt : x.toNat < 4096 := by omega
  rw [dmemIndex_eq, ← hx, BitVec.toNat_xor, show (3 : BitVec 64).toNat = 3 from rfl, xor_three]
  rfl

end Loads

theorem loads_agree (hm : Matches h s) (hop : opcodeOf instr ∈ [0o40, 0o41, 0o43, 0o44, 0o45]) :
    Jit.retire h pc instr lastInfo isTarget = Su.retire s pc instr := by
  have hjit : jitInstruction pc instr lastInfo isTarget = _ := rfl
  have hsu : Su.step s instr (pc + 4) = _ := rfl
  conv_rhs at hjit => unfold jitInstruction
  conv_rhs at hsu => unfold Su.step
  generalize opcodeOf instr = opcode at *
  simp only [List.mem_cons, List.not_mem_nil, or_false] at hop
  rcases hop with rfl | rfl | rfl | rfl | rfl
  · refine load_agree hm hjit (hsu.trans (congrArg (·, false) (lb_eq s instr))) ?_ ?_
    · intro x hx _
      rw [Access.load, show (3 : BitVec 32).setWidth 64 = 3 from rfl, byteIndex_eq hx]
      exact Carries.signExtend (by decide) _
    · exact fun _ _ hmask => absurd rfl hmask
  · refine load_agree hm hjit (hsu.trans (congrArg (·, false) (lh_eq s instr))) ?_ ?_
    · intro x hx hbits
      rw [Access.load, show (2 : BitVec 32).setWidth 64 = 2 from rfl, hostHalf_eq hx hbits,
        halfAt_eq hx, half_setWidth]
      exact Carries.signExtend (by decide) _
    · intro x hx _
      rw [UnalignedOp.load, rspUnalignedLh, unalignedHalf_eq hx]
      exact Carries.signExtend (by decide) _
  · refine load_agree hm hjit (hsu.trans (congrArg (·, false) (lw_eq s instr))) ?_ ?_
    · intro x hx hbits
      rw [Access.load, show (0 : BitVec 32).setWidth 64 = 0#64 from rfl, BitVec.xor_zero,
        hostWord_eq hx hbits, wordAt_eq hx]
      exact Carries.of_signExtend (by decide) _
    · intro x hx _
      rw [UnalignedOp.load, rspUnalignedLw_eq, wordAt_eq hx]
      exact Carries.of_signExtend (by decide) _
  · refine load_agree hm hjit hsu ?_ ?_
    · intro x hx _
      rw [Access.load, show (3 : BitVec 32).setWidth 64 = 3 from rfl, byteIndex_eq hx]
      exact Carries.setWidth (by decide) _
    · exact fun _ _ hmask => absurd rfl hmask
  · refine load_agree hm hjit hsu ?_ ?_
    · intro x hx hbits
      rw [Access.load, show (2 : BitVec 32).setWidth 64 = 2 from rfl, hostHalf_eq hx hbits,
        halfAt_eq hx]
      exact Carries.setWidth (by decide) _
    · intro x hx _
      rw [UnalignedOp.load, rspUnalignedLhu, unalignedHalf_eq hx, halfAt_eq hx, half_setWidth]
      exact Carries.setWidth (by decide) _

theorem storedByte_eq {x : BitVec 64} {u : BitVec 32} (hx : Carries x u) {k : Nat}
    (hk : k + 8 ≤ 32) : ((x.sshiftRight k) &&& 0xFF).setWidth 8 = u.extractLsb' k 8 := by
  rw [← hx.extractLsb' hk]
  ext i hi
  rw [BitVec.getElem_setWidth, BitVec.getLsbD_and, BitVec.getLsbD_sshiftRight,
    BitVec.getElem_extractLsb']
  have hones : (0xFF : BitVec 64).getLsbD i = true := by
    interval_cases i <;> rfl
  rw [hones, Bool.and_true]
  simp [show ¬64 ≤ i by omega, show k + i < 64 by omega]

theorem lowByte_eq (u : BitVec 32) : (u &&& 0xFF).setWidth 8 = u.extractLsb' 0 8 := by
  ext i hi
  rw [BitVec.getElem_setWidth, BitVec.getLsbD_and, BitVec.getElem_extractLsb', Nat.zero_add]
  have hones : (0xFF : BitVec 32).getLsbD i = true := by
    interval_cases i <;> rfl
  rw [hones, Bool.and_true]

@[simp] theorem Su.storeByte_sr (s : Su.State) (address : BitVec 32) (b : BitVec 8) :
    (s.storeByte address b).sr = s.sr := rfl

section Stores

variable {x data : BitVec 64} (hx : x.toNat = (Su.addressOf s instr).toNat % 4096)
  (hdata : Carries data (s.sr (rtOf instr)))

include hx hdata

theorem storeHalf_eq (hbits : x &&& 1 = 0) :
    Access.store s.dmem (x ^^^ 2).toNat data .s = (Su.sh s instr).dmem := by
  obtain ⟨hlow, hhigh⟩ := flip_two (x := x) (by omega) hbits
  have hfirst : Su.dmemIndex (Su.addressOf s instr + 0) = (x ^^^ 2).toNat + 1 :=
    (dmemIndex_add x hx 0).trans hhigh
  have hsecond : Su.dmemIndex (Su.addressOf s instr + 1) = (x ^^^ 2).toNat :=
    (dmemIndex_add x hx 1).trans hlow
  change _ = Function.update (Function.update s.dmem _ _) _ _
  rw [hfirst, hsecond]
  funext i
  change (if _ ≤ i ∧ i < _ + 2 then _ else _) = _
  by_cases h0 : i = (x ^^^ 2).toNat
  · subst h0
    rw [if_pos (by omega), Function.update_self, Nat.sub_self]
    exact hdata.extractLsb' (by decide)
  · rw [Function.update_of_ne h0]
    by_cases h1 : i = (x ^^^ 2).toNat + 1
    · subst h1
      rw [if_pos (by omega), Function.update_self, Nat.add_sub_cancel_left]
      exact hdata.extractLsb' (by decide)
    · rw [if_neg (by omega), Function.update_of_ne h1]

theorem storeWord_eq (hbits : x &&& 3 = 0) :
    Access.store s.dmem x.toNat data .i = (Su.sw s instr).dmem := by
  have hplace : ∀ k : Nat, k < 4 →
      Su.dmemIndex (Su.addressOf s instr + BitVec.ofNat 32 k) = x.toNat + (3 - k) :=
    fun k hk => (dmemIndex_add x hx k).trans (mirror_word (by omega) hbits hk)
  change _ = Function.update (Function.update (Function.update (Function.update s.dmem
    (Su.dmemIndex (_ + BitVec.ofNat 32 0)) _) (Su.dmemIndex (_ + BitVec.ofNat 32 1)) _)
    (Su.dmemIndex (_ + BitVec.ofNat 32 2)) _) (Su.dmemIndex (_ + BitVec.ofNat 32 3)) _
  rw [hplace 0 (by decide), hplace 1 (by decide), hplace 2 (by decide), hplace 3 (by decide)]
  funext i
  change (if _ ≤ i ∧ i < _ + 4 then _ else _) = _
  have hbyte : ∀ k, k < 4 → data.extractLsb' (8 * (x.toNat + k - x.toNat)) 8 =
      Su.srB (s.sr (rtOf instr)) (3 - k) := by
    intro k hk
    rw [Nat.add_sub_cancel_left, Su.srB, show 3 - (3 - k) = k by omega]
    exact hdata.extractLsb' (by omega)
  by_cases hin : x.toNat ≤ i ∧ i < x.toNat + 4
  · rw [if_pos hin]
    obtain ⟨k, rfl⟩ := Nat.exists_eq_add_of_le hin.1
    have hk : k < 4 := by omega
    rw [hbyte k hk]
    interval_cases k <;> simp
  · rw [if_neg hin, Function.update_of_ne (by omega), Function.update_of_ne (by omega),
      Function.update_of_ne (by omega), Function.update_of_ne (by omega)]

theorem rspUnalignedSh_eq : rspUnalignedSh s.dmem x data = (Su.sh s instr).dmem := by
  change Function.update (Function.update s.dmem _ _) _ _ =
    Function.update (Function.update s.dmem (Su.dmemIndex (_ + BitVec.ofNat 32 0)) _)
      (Su.dmemIndex (_ + BitVec.ofNat 32 1)) _
  rw [byteEndianFixup_eq, byteEndianFixup_eq, dmemIndex_add x hx, dmemIndex_add x hx,
    storedByte_eq hdata (by decide), storedByte_eq hdata (by decide)]
  rfl

theorem rspUnalignedSw_eq : rspUnalignedSw s.dmem x data = (Su.sw s instr).dmem := by
  change Function.update (Function.update (Function.update (Function.update s.dmem _ _) _ _) _ _)
    _ _ = Function.update (Function.update (Function.update (Function.update s.dmem
    (Su.dmemIndex (_ + BitVec.ofNat 32 0)) _) (Su.dmemIndex (_ + BitVec.ofNat 32 1)) _)
    (Su.dmemIndex (_ + BitVec.ofNat 32 2)) _) (Su.dmemIndex (_ + BitVec.ofNat 32 3)) _
  simp only [byteEndianFixup_eq, dmemIndex_add x hx, storedByte_eq hdata (by decide : 24 + 8 ≤ 32),
    storedByte_eq hdata (by decide : 16 + 8 ≤ 32), storedByte_eq hdata (by decide : 8 + 8 ≤ 32),
    storedByte_eq hdata (by decide : 0 + 8 ≤ 32)]
  rfl

theorem storeByte_eq : Access.store s.dmem (x ^^^ 3).toNat data .c = (Su.sb s instr).dmem := by
  change _ = Function.update s.dmem _ _
  rw [byteIndex_eq hx, lowByte_eq]
  funext i
  change (if _ ≤ i ∧ i < _ + 1 then _ else _) = _
  by_cases h0 : i = Su.dmemIndex (Su.addressOf s instr)
  · subst h0
    rw [if_pos (by omega), Function.update_self, Nat.sub_self]
    exact hdata.extractLsb' (by decide)
  · rw [if_neg (by omega), Function.update_of_ne h0]

end Stores

theorem stores_agree (hm : Matches h s) (hop : opcodeOf instr ∈ [0o50, 0o51, 0o53]) :
    Jit.retire h pc instr lastInfo isTarget = Su.retire s pc instr := by
  have hjit : jitInstruction pc instr lastInfo isTarget = _ := rfl
  have hsu : Su.step s instr (pc + 4) = _ := rfl
  conv_rhs at hjit => unfold jitInstruction
  conv_rhs at hsu => unfold Su.step
  generalize opcodeOf instr = opcode at *
  simp only [List.mem_cons, List.not_mem_nil, or_false] at hop
  rcases hop with rfl | rfl | rfl
  · refine store_agree hm hjit (hsu.trans rfl) ?_ ?_
    · exact fun x data hx hdata _ => storeByte_eq hx hdata
    · exact fun _ _ _ _ hmask => absurd rfl hmask
  · refine store_agree hm hjit (hsu.trans rfl) ?_ ?_
    · exact fun x data hx hdata hbits => storeHalf_eq hx hdata hbits
    · exact fun x data hx hdata _ => rspUnalignedSh_eq hx hdata
  · refine store_agree hm hjit (hsu.trans rfl) ?_ ?_
    · intro x data hx hdata hbits
      rw [show (0 : BitVec 32).setWidth 64 = 0#64 from rfl, BitVec.xor_zero]
      exact storeWord_eq hx hdata hbits
    · exact fun x data hx hdata _ => rspUnalignedSw_eq hx hdata

end Access

end ParallelN64.Rsp
