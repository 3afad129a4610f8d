import ParallelN64.Pi.Dma

/-!
# The copy loops

Which bytes the two loops of the peripheral interface move. Main memory repeats in 64 MiB,
of which the first 8 MiB are there, and no transfer is longer than 16 MiB, so that a loop
meets no byte of main memory twice.
-/

namespace ParallelN64.Pi

open ParallelN64.Core R4300

theorem xor_three_injective : Function.Injective fun n : Nat => n ^^^ 3 := by
  intro a b h
  have hback : a ^^^ 3 ^^^ 3 = b ^^^ 3 ^^^ 3 := congrArg (· ^^^ 3) h
  simpa [Nat.xor_assoc] using hback

theorem xor_three_lt_iff {n size : Nat} (h : size % 4 = 0) : n ^^^ 3 < size ↔ n < size := by
  have hdiv := xor_three_div_four n
  omega

theorem xor_three_lt {n size : Nat} (h : n < size / 4 * 4) : n ^^^ 3 < size := by
  have hdiv := xor_three_div_four n
  omega

variable (addr : Word) {index : Nat} {value : Word}

theorem toNat_xor_s8 : (addr ^^^ s8).toNat = addr.toNat ^^^ 3 :=
  BitVec.toNat_xor ..

theorem guarded_xor (region : Region) (size addr : Word) :
    guarded region size (addr ^^^ s8) =
      if addr.toNat ^^^ 3 < size.toNat then some ⟨region, addr.toNat ^^^ 3⟩ else none := by
  simp only [guarded, BitVec.lt_def, toNat_xor_s8]

theorem toNat_and_rdramMask : (addr &&& 0x3FFFFFF#32).toNat = addr.toNat % 2 ^ 26 := by
  rw [BitVec.toNat_and]
  exact Nat.and_two_pow_sub_one_eq_mod addr.toNat 26

theorem rdramSafe_xor :
    rdramSafe (addr ^^^ s8) =
      if addr.toNat % 2 ^ 26 < rdramSize then some ⟨.rdram, addr.toNat % 2 ^ 26 ^^^ 3⟩
      else none := by
  have hmask : ((addr ^^^ s8) &&& 0x3FFFFFF#32).toNat = addr.toNat % 2 ^ 26 ^^^ 3 := by
    rw [toNat_and_rdramMask, toNat_xor_s8, Nat.xor_mod_two_pow]
  have hlt : addr.toNat % 2 ^ 26 ^^^ 3 < rdramSize ↔ addr.toNat % 2 ^ 26 < rdramSize :=
    xor_three_lt_iff rfl
  simp only [rdramSafe, BitVec.lt_def, hmask]
  exact if_congr hlt rfl rfl

theorem toNat_add_mod (i : Nat) :
    (addr + BitVec.ofNat 32 i).toNat % 2 ^ 26 = (addr.toNat + i) % 2 ^ 26 := by
  rw [BitVec.toNat_add, BitVec.toNat_ofNat, Nat.add_mod_mod]
  exact Nat.mod_mod_of_dvd _ (by decide)

theorem toNat_add_of_lt {addr : Word} {i : Nat} (h : addr.toNat + i < 2 ^ 32) :
    (addr + BitVec.ofNat 32 i).toNat = addr.toNat + i := by
  rw [BitVec.toNat_add, BitVec.toNat_ofNat, Nat.add_mod_mod, Nat.mod_eq_of_lt h]

section ReadMoves

variable {region : Region} {size address dram length : Word}

variable {i : Nat} {p : Place Region}

theorem dst_readMove_eq_some_iff :
    rdramSafe ((dram + BitVec.ofNat 32 i) ^^^ s8) = some p ↔
      (dram.toNat + i) % 2 ^ 26 < rdramSize ∧
        p = ⟨.rdram, (dram.toNat + i) % 2 ^ 26 ^^^ 3⟩ := by
  rw [rdramSafe_xor, toNat_add_mod]
  by_cases h : (dram.toNat + i) % 2 ^ 26 < rdramSize
  · rw [if_pos h, Option.some_inj, eq_comm]
    exact (and_iff_right h).symm
  · rw [if_neg h]
    exact iff_of_false (Option.some_ne_none p).symm fun hp => h hp.1

theorem eq_of_mod_eq {n j count : Nat} (hcount : count ≤ 2 ^ 26) (hi : i < count) (hj : j < count)
    (h : (n + i) % 2 ^ 26 = (n + j) % 2 ^ 26) : i = j := by
  omega

theorem bytes_readMoves_of_ne (b : Buffers Region) (h : p.region ≠ .rdram) :
    (b.moves (readMoves region size address dram length)).bytes p = b.bytes p := by
  apply Buffers.bytes_loop_of_ne
  intro i _ heq
  obtain ⟨_, rfl⟩ := dst_readMove_eq_some_iff.mp heq
  exact h rfl

theorem bytes_readMoves_of_forall_ne (b : Buffers Region) {a : Nat}
    (h : ∀ i < length.toNat, (dram.toNat + i) % 2 ^ 26 ≠ a) :
    (b.moves (readMoves region size address dram length)).bytes ⟨.rdram, a ^^^ 3⟩ =
      b.bytes ⟨.rdram, a ^^^ 3⟩ := by
  apply Buffers.bytes_loop_of_ne
  intro i hi heq
  obtain ⟨_, hp⟩ := dst_readMove_eq_some_iff.mp heq
  exact h i hi (xor_three_injective (congrArg Place.index hp)).symm

theorem bytes_readMoves (b : Buffers Region) (hregion : region ≠ .rdram)
    (hlength : length.toNat ≤ 2 ^ 26) {i : Nat} (hi : i < length.toNat)
    (hin : (dram.toNat + i) % 2 ^ 26 < rdramSize) :
    (b.moves (readMoves region size address dram length)).bytes
        ⟨.rdram, (dram.toNat + i) % 2 ^ 26 ^^^ 3⟩ =
      if (address + BitVec.ofNat 32 i).toNat ^^^ 3 < size.toNat then
        b.bytes ⟨region, (address + BitVec.ofNat 32 i).toNat ^^^ 3⟩
      else 0 := by
  refine (Buffers.bytes_loop_of_eq hi (dst_readMove_eq_some_iff.mpr ⟨hin, rfl⟩) ?_ ?_).trans ?_
  · intro j hj heq
    obtain ⟨_, hp⟩ := dst_readMove_eq_some_iff.mp heq
    have hmod := xor_three_injective (congrArg Place.index hp)
    exact (eq_of_mod_eq hlength hi hj hmod).symm
  · intro q hq j _ heq
    obtain ⟨_, rfl⟩ := dst_readMove_eq_some_iff.mp heq
    rw [readMove, guarded_xor] at hq
    split_ifs at hq
    exact hregion (congrArg Place.region (Option.some.inj hq))
  · rw [Buffers.value, readMove, guarded_xor]
    split_ifs with h <;> rfl

theorem places_readMoves (h : p ∈ (readMoves region size address dram length).flatMap Move.places) :
    (p.region = .rdram ∧ p.index < rdramSize) ∨
      ∃ i < length.toNat, p = ⟨region, (address + BitVec.ofNat 32 i).toNat ^^^ 3⟩ ∧
        p.index < size.toNat := by
  obtain ⟨move, hmove, hp⟩ := List.mem_flatMap.mp h
  obtain ⟨i, hi, rfl⟩ := mem_loop.mp hmove
  rcases List.mem_append.mp hp with hsrc | hdst
  · rw [readMove, guarded_xor, Option.mem_toList] at hsrc
    split_ifs at hsrc with hlt
    obtain rfl := Option.some.inj hsrc
    exact .inr ⟨i, hi, rfl, hlt⟩
  · obtain ⟨hin, rfl⟩ := dst_readMove_eq_some_iff.mp (Option.mem_toList.mp hdst)
    exact .inl ⟨rfl, (xor_three_lt_iff rfl).mpr hin⟩

end ReadMoves

section WriteMoves

variable {region : Region} {size address dram length : Word}

variable {i : Nat} {p : Place Region}

theorem dst_writeMove_eq_some_iff :
    (writeMove region size address dram i).dst = some p ↔
      (address + BitVec.ofNat 32 i).toNat ^^^ 3 < size.toNat ∧
        p = ⟨region, (address + BitVec.ofNat 32 i).toNat ^^^ 3⟩ := by
  rw [writeMove, guarded_xor]
  split_ifs with h
  · exact Option.some_inj.trans (eq_comm.trans (and_iff_right h).symm)
  · exact iff_of_false id fun hp => h hp.1

theorem src_writeMove_eq_some_iff :
    (writeMove region size address dram i).src = some p ↔
      (address + BitVec.ofNat 32 i).toNat ^^^ 3 < size.toNat ∧
        (dram.toNat + i) % 2 ^ 26 < rdramSize ∧
          p = ⟨.rdram, (dram.toNat + i) % 2 ^ 26 ^^^ 3⟩ := by
  rw [writeMove, guarded_xor]
  split_ifs with h
  · exact dst_readMove_eq_some_iff.trans (and_iff_right h).symm
  · exact iff_of_false id fun hp => h hp.1

theorem bytes_writeMoves_of_ne (b : Buffers Region) (h : p.region ≠ region) :
    (b.moves (writeMoves region size address dram length)).bytes p = b.bytes p := by
  apply Buffers.bytes_loop_of_ne
  intro i _ heq
  obtain ⟨_, rfl⟩ := dst_writeMove_eq_some_iff.mp heq
  exact h rfl

theorem bytes_writeMoves_of_forall_ne (b : Buffers Region)
    (hwrap : address.toNat + length.toNat < 2 ^ 32) {a : Nat}
    (h : ∀ i < length.toNat, address.toNat + i ≠ a) :
    (b.moves (writeMoves region size address dram length)).bytes ⟨region, a ^^^ 3⟩ =
      b.bytes ⟨region, a ^^^ 3⟩ := by
  apply Buffers.bytes_loop_of_ne
  intro i hi heq
  obtain ⟨_, hp⟩ := dst_writeMove_eq_some_iff.mp heq
  have hindex := xor_three_injective (congrArg Place.index hp)
  rw [toNat_add_of_lt (by omega)] at hindex
  exact h i hi hindex.symm

theorem bytes_writeMoves (m : PiMachine) (hregion : region ≠ .rdram)
    (hwrap : address.toNat + length.toNat < 2 ^ 32) (hi : i < length.toNat)
    (hin : (address.toNat + i) ^^^ 3 < size.toNat) :
    (m.buffers.moves (writeMoves region size address dram length)).bytes
        ⟨region, (address.toNat + i) ^^^ 3⟩ =
      m.rdramAt (dram.toNat + i) := by
  have hsum : ∀ j < length.toNat, (address + BitVec.ofNat 32 j).toNat = address.toNat + j :=
    fun j hj => toNat_add_of_lt (by omega)
  refine (Buffers.bytes_loop_of_eq hi (dst_writeMove_eq_some_iff.mpr ?_) ?_ ?_).trans ?_
  · rw [hsum i hi]
    exact ⟨hin, rfl⟩
  · intro j hj heq
    obtain ⟨_, hp⟩ := dst_writeMove_eq_some_iff.mp heq
    have hindex := xor_three_injective (congrArg Place.index hp)
    rw [hsum j hj] at hindex
    exact (Nat.add_left_cancel hindex).symm
  · intro q hq j _ heq
    obtain ⟨_, rfl⟩ := dst_writeMove_eq_some_iff.mp heq
    obtain ⟨_, _, hp⟩ := src_writeMove_eq_some_iff.mp hq
    exact hregion (congrArg Place.region hp)
  · rw [Buffers.value, writeMove, guarded_xor, hsum i hi, if_pos hin, rdramSafe_xor,
      toNat_add_mod, PiMachine.rdramAt]
    by_cases hram : (dram.toNat + i) % 2 ^ 26 < rdramSize
    · rw [if_pos hram, if_pos hram]
      rfl
    · rw [if_neg hram, if_neg hram]

theorem places_writeMoves
    (h : p ∈ (writeMoves region size address dram length).flatMap Move.places) :
    (p.region = .rdram ∧ p.index < rdramSize) ∨ (p.region = region ∧ p.index < size.toNat) := by
  obtain ⟨move, hmove, hp⟩ := List.mem_flatMap.mp h
  obtain ⟨i, _, rfl⟩ := mem_loop.mp hmove
  rcases List.mem_append.mp hp with hsrc | hdst
  · obtain ⟨_, hin, rfl⟩ := src_writeMove_eq_some_iff.mp (Option.mem_toList.mp hsrc)
    exact .inl ⟨rfl, (xor_three_lt_iff rfl).mpr hin⟩
  · obtain ⟨hin, rfl⟩ := dst_writeMove_eq_some_iff.mp (Option.mem_toList.mp hdst)
    exact .inr ⟨rfl, hin⟩

end WriteMoves

theorem xor_three_eq (a : Nat) : a ^^^ 3 = a / 4 * 4 + (3 - a % 4) := by
  have hmod : (a ^^^ 3) % 2 ^ 2 = a % 4 ^^^ 3 := by rw [Nat.xor_mod_two_pow]
  have hlow : ∀ r < 4, r ^^^ 3 = 3 - r := by decide
  rw [hlow (a % 4) (Nat.mod_lt a (by decide))] at hmod
  have hdiv := xor_three_div_four a
  omega

theorem bytes_storeWord_of_ne (b : Buffers Region) {p : Place Region}
    (h : p.region = .rdram → p.index < index ∨ index + 4 ≤ p.index) :
    (b.moves (storeWord index value)).bytes p = b.bytes p := by
  apply Buffers.bytes_loop_of_ne
  rintro i hi heq
  obtain rfl := Option.some.inj heq
  rcases h rfl with hlt | hle
  · exact absurd hlt (by simp)
  · exact absurd hle (by simpa using hi)

theorem bytes_storeWord (b : Buffers Region) {i : Nat} (hi : i < 4) :
    (b.moves (storeWord index value)).bytes ⟨.rdram, index + i⟩ =
      ⟨(value >>> (8 * i)).setWidth 8⟩ := by
  refine Buffers.bytes_loop_of_eq hi rfl ?_ ?_
  · intro j _ heq
    have hindex := congrArg Place.index (Option.some.inj heq)
    exact Nat.add_left_cancel hindex
  · intro q hq
    exact absurd hq (Option.some_ne_none q).symm

theorem places_storeWord {p : Place Region} (h : p ∈ (storeWord index value).flatMap Move.places) :
    p.region = .rdram ∧ index ≤ p.index ∧ p.index < index + 4 := by
  obtain ⟨move, hmove, hp⟩ := List.mem_flatMap.mp h
  obtain ⟨i, hi, rfl⟩ := mem_loop.mp hmove
  obtain rfl := List.mem_singleton.mp hp
  exact ⟨rfl, Nat.le_add_right .., Nat.add_lt_add_left hi index⟩

section Targets

variable (cfg : PiConfig) (m : PiMachine) {p : Place Region}

theorem bytes_imageLoop_of_ne (b : Buffers Region) {region : Region}
    {size address dram length : Word} (P : Prop) [Decidable P] (h : p.region ≠ .rdram) :
    (b.moves (readMoves region size address dram length ++
      if P then sizeHackMoves cfg else [])).bytes p = b.bytes p := by
  rw [Buffers.moves_append]
  split_ifs
  · exact (bytes_storeWord_of_ne _ fun heq => absurd heq h).trans (bytes_readMoves_of_ne b h)
  · exact bytes_readMoves_of_ne b h

theorem bytes_dmaReadFlashram_of_ne (h : p.region ≠ .rdram) :
    m.dmaReadFlashram.buffers.bytes p = m.buffers.bytes p := by
  rw [PiMachine.dmaReadFlashram]
  cases m.flashram.mode with
  | status =>
    refine (congrArg (fun b => b.bytes p) (Buffers.moves_append ..)).trans ?_
    exact (bytes_storeWord_of_ne _ fun heq => absurd heq h).trans
      (bytes_storeWord_of_ne _ fun heq => absurd heq h)
  | read => exact bytes_readMoves_of_ne _ h
  | _ => rfl

theorem bytes_dmaPiWriteData_of_ne (h : p.region ≠ .rdram) :
    (m.dmaPiWriteData cfg).buffers.bytes p = m.buffers.bytes p := by
  rw [PiMachine.dmaPiWriteData]
  split_ifs
  · exact bytes_readMoves_of_ne _ h
  · exact bytes_dmaReadFlashram_of_ne m h
  · rw [PiMachine.moves_buffers, PiMachine.ddBufferMoves]
    split_ifs
    · exact bytes_readMoves_of_ne _ h
    · exact bytes_readMoves_of_ne _ h
    · rfl
  · rfl
  · rfl
  · rw [PiMachine.moves_buffers, PiMachine.iplMoves]
    split
    · rfl
    · exact bytes_imageLoop_of_ne cfg _ _ h
  · rw [PiMachine.moves_buffers, PiMachine.cartMoves]
    split
    · rfl
    · exact bytes_imageLoop_of_ne cfg _ _ h

theorem bytes_dmaPiReadData_of_ne (hsram : p.region ≠ .sram) (hsec : p.region ≠ .secBuf) :
    (m.dmaPiReadData cfg).buffers.bytes p = m.buffers.bytes p := by
  rw [PiMachine.dmaPiReadData]
  dsimp only
  split_ifs
  · exact bytes_writeMoves_of_ne _ hsec
  · rfl
  · exact bytes_writeMoves_of_ne _ hsram
  · rw [PiMachine.dmaWriteFlashram]
    split <;> rfl
  · rfl

theorem bytes_writePiRegs_of_ne (reg : PiReg) (value mask : Word) (hram : p.region ≠ .rdram)
    (hsram : p.region ≠ .sram) (hsec : p.region ≠ .secBuf) :
    (m.writePiRegs cfg reg value mask).1.buffers.bytes p = m.buffers.bytes p := by
  cases reg with
  | rdLen => exact bytes_dmaPiReadData_of_ne cfg _ hsram hsec
  | wrLen => exact bytes_dmaPiWriteData_of_ne cfg _ hram
  | _ => rfl

end Targets

end ParallelN64.Pi
