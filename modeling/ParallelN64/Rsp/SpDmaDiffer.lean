import ParallelN64.Rsp.SpDmaAgree

/-!
# Where the three DMAs differ

For every transfer on which the three implementations do not move the same pairs there are
contents of the memories that show it. Together with their agreement on the others this decides
for every length word whether a microcode sees the same memories under all three.
-/

namespace ParallelN64.Rsp

open ParallelN64.Core

/-- Contents of both memories. -/
def contents (sp rdram : Nat → UInt8) : Buffers SpRegion where
  bytes p := match p.region with
    | .sp => sp p.index
    | .rdram => rdram p.index
  used := []

section Differ

variable (t : Transfer)

theorem src_ne_dst_cxd4 {dir : Direction} :
    ∀ m ∈ cxd4Moves dir t.memAddr t.dramAddr t.length t.count t.skip, ∀ q, m.src = some q →
      ∀ m' ∈ cxd4Moves dir t.memAddr t.dramAddr t.length t.count t.skip, m'.dst ≠ some q := by
  intro m hm q hq m' hm'
  obtain ⟨j, -, n, -, rfl⟩ := (mem_cxd4Moves t).mp hm
  obtain ⟨j', -, n', -, rfl⟩ := (mem_cxd4Moves t).mp hm'
  exact src_ne_dst hq

theorem exists_crossing (h : ¬ t.Fits) :
    ∃ j < t.count, ∃ n < t.length,
      (t.memAddr + j * t.length + n) % 8192 = (1 - t.memAddr / 4096) * 4096 := by
  have hlt := t.memAddr_lt
  have hfits : ¬ t.memAddr % 4096 + t.count * t.length ≤ 4096 := h
  have hdivmod := Nat.div_add_mod (4096 - t.memAddr % 4096) t.length
  rw [Nat.mul_comm] at hdivmod
  refine ⟨(4096 - t.memAddr % 4096) / t.length, ?_, (4096 - t.memAddr % 4096) % t.length,
    Nat.mod_lt _ t.length_pos, ?_⟩
  · rw [Nat.div_lt_iff_lt_mul t.length_pos]
    omega
  · omega

/-- From ones in the memory of the RSP and zeros in the other, the core and cxd4 make different
memories. -/
def OnesDiffer (dir : Direction) (length : Nat) : Prop :=
  ((contents (fun _ => 1) fun _ => 0).moves
      (coreMoves dir t.memAddr t.dramAddr length t.count t.skip)).bytes ≠
    ((contents (fun _ => 1) fun _ => 0).moves
      (cxd4Moves dir t.memAddr t.dramAddr t.length t.count t.skip)).bytes

theorem differ_read_crossing (h : ¬ t.Fits) :
    OnesDiffer t .read t.length := by
  have hlt := t.memAddr_lt
  intro heq
  have hplace := congrFun heq ⟨.sp, (1 - t.memAddr / 4096) * 4096⟩
  obtain ⟨j, hj, n, hn, hcross⟩ := exists_crossing t h
  have hcxd4 : ((contents (fun _ => 1) fun _ => 0).moves
      (cxd4Moves .read t.memAddr t.dramAddr t.length t.count t.skip)).bytes
        ⟨.sp, (1 - t.memAddr / 4096) * 4096⟩ = 0 := by
    apply Buffers.bytes_moves_of_forall_value _ (src_ne_dst_cxd4 t)
    · exact ⟨_, (mem_cxd4Moves t).mpr ⟨j, hj, n, hn, rfl⟩, by rw [← hcross]; rfl⟩
    · intro m hm
      obtain ⟨j', -, n', -, rfl⟩ := (mem_cxd4Moves t).mp hm
      rfl
  have hcore : ((contents (fun _ => 1) fun _ => 0).moves
      (coreMoves .read t.memAddr t.dramAddr t.length t.count t.skip)).bytes
        ⟨.sp, (1 - t.memAddr / 4096) * 4096⟩ = 1 := by
    rw [Buffers.bytes_moves_of_forall_ne]
    · rfl
    · intro m hm hdst
      obtain ⟨j', -, i, -, rfl⟩ := (mem_coreMoves t.memAddr_lt fun j hj => t.row_le hj).mp hm
      have hindex := congrArg Place.index (Option.some.inj hdst)
      change t.memAddr / 4096 * 4096 + _ % 4096 = (1 - t.memAddr / 4096) * 4096 at hindex
      omega
  rw [hcore, hcxd4] at hplace
  exact absurd hplace (by decide)

theorem differ_write_crossing (h : ¬ t.Fits) {length : Nat} (hlength : length ≤ t.length) :
    ∃ b : Buffers SpRegion,
      (b.moves (coreMoves .write t.memAddr t.dramAddr length t.count t.skip)).bytes ≠
        (b.moves (cxd4Moves .write t.memAddr t.dramAddr t.length t.count t.skip)).bytes := by
  have hlt := t.memAddr_lt
  have hrange : ∀ j < t.count, t.dramAddr + j * (length + t.skip) + length ≤ 0x800000 := by
    intro j hj
    have hrow := t.row_le hj
    have hle : j * (length + t.skip) ≤ j * (t.length + t.skip) :=
      Nat.mul_le_mul_left _ (by omega)
    omega
  obtain ⟨j, hj, n, hn, hcross⟩ := exists_crossing t h
  let b := contents (fun a => if a / 4096 = t.memAddr / 4096 then 0 else 1) fun _ => 2
  let p : Place SpRegion := ⟨.rdram, (t.dramAddr + j * (t.length + t.skip)) / 8 * 8 + n⟩
  refine ⟨b, fun heq => ?_⟩
  have hplace := congrFun heq p
  have hcxd4 : (b.moves (cxd4Moves .write t.memAddr t.dramAddr t.length t.count t.skip)).bytes p =
      1 := by
    have hmem : Direction.write.pair ((t.memAddr + j * t.length + n) % 8192)
        ((t.dramAddr + j * (t.length + t.skip)) / 8 * 8 + n) ∈
          cxd4Moves .write t.memAddr t.dramAddr t.length t.count t.skip :=
      (mem_cxd4Moves t).mpr ⟨j, hj, n, hn, rfl⟩
    rw [Buffers.bytes_moves_of_mem hmem rfl]
    · change (if (t.memAddr + j * t.length + n) % 8192 / 4096 = t.memAddr / 4096 then (0 : UInt8)
        else 1) = 1
      rw [if_neg (by omega)]
    · intro m hm hdst
      obtain ⟨j', hj', n', hn', rfl⟩ := (mem_cxd4Moves t).mp hm
      have hindex := congrArg Place.index (Option.some.inj hdst)
      obtain ⟨rfl, rfl⟩ := row_unique t.dramAddr (Nat.le_add_right _ _) t.length_mod hn' hn hindex
      rfl
    · exact src_ne_dst_cxd4 t _ hmem
  have hcore : (b.moves (coreMoves .write t.memAddr t.dramAddr length t.count t.skip)).bytes p ≠
      1 := by
    have hvalue : ∀ m ∈ coreMoves .write t.memAddr t.dramAddr length t.count t.skip,
        b.value m = 0 := by
      intro m hm
      obtain ⟨j', -, i, -, rfl⟩ := (mem_coreMoves hlt hrange).mp hm
      change (if (t.memAddr / 4096 * 4096 + _ % 4096) / 4096 = t.memAddr / 4096 then (0 : UInt8)
        else 1) = 0
      rw [if_pos (by omega)]
    have hsrc : ∀ m ∈ coreMoves .write t.memAddr t.dramAddr length t.count t.skip, ∀ q,
        m.src = some q → ∀ m' ∈ coreMoves .write t.memAddr t.dramAddr length t.count t.skip,
          m'.dst ≠ some q := by
      intro m hm q hq m' hm'
      obtain ⟨_, -, _, -, rfl⟩ := (mem_coreMoves hlt hrange).mp hm
      obtain ⟨_, -, _, -, rfl⟩ := (mem_coreMoves hlt hrange).mp hm'
      exact src_ne_dst hq
    by_cases hp : ∃ m ∈ coreMoves .write t.memAddr t.dramAddr length t.count t.skip,
        m.dst = some p
    · rw [Buffers.bytes_moves_of_forall_value hvalue hsrc hp]
      decide
    · rw [Buffers.bytes_moves_of_forall_ne fun m hm hdst => hp ⟨m, hm, hdst⟩]
      exact (by decide : (2 : UInt8) ≠ 1)
  rw [hcxd4] at hplace
  exact hcore hplace

theorem differ_read_skip (h : t.Fits) (hcount : 1 < t.count) (hskip : t.skip % 8 ≠ 0) :
    ∃ b : Buffers SpRegion,
      (b.moves (coreMoves .read t.memAddr t.dramAddr t.length t.count t.skip)).bytes ≠
        (b.moves (cxd4Moves .read t.memAddr t.dramAddr t.length t.count t.skip)).bytes := by
  have hlength := t.length_mod
  have hdram := t.dramAddr_mod
  have hpos := t.length_pos
  have hmem := t.memAddr_mod
  let start := (t.dramAddr + 1 * (t.length + t.skip)) / 8 * 8 + 3
  let b := contents (fun _ => 0) fun a => if a = start then 1 else 0
  let p : Place SpRegion := ⟨.sp, t.memAddr + 1 * t.length + 3⟩
  refine ⟨b, fun heq => ?_⟩
  have hplace := congrFun heq p
  have hcxd4 : (b.moves (cxd4Moves .read t.memAddr t.dramAddr t.length t.count t.skip)).bytes p =
      1 := by
    have hpair : Direction.read.pair (t.memAddr + 1 * t.length + 3)
        ((t.dramAddr + 1 * (t.length + t.skip)) / 8 * 8 + 3) ∈
          cxd4Moves .read t.memAddr t.dramAddr t.length t.count t.skip :=
      (h.mem_cxd4Moves t).mpr ⟨1, hcount, 3, by omega, rfl⟩
    rw [Buffers.bytes_moves_of_mem hpair rfl]
    · exact if_pos rfl
    · exact fun m hm hdst => h.cxd4_once t hpair hm hdst
    · exact src_ne_dst_cxd4 t _ hpair
  have hcore : (b.moves (coreMoves .read t.memAddr t.dramAddr t.length t.count t.skip)).bytes p =
      0 := by
    have hpair : Direction.read.pair (t.memAddr + 1 * t.length + 3)
        ((t.dramAddr + (1 * (t.length + t.skip) + (3 ^^^ 3))) ^^^ 3) ∈
          coreMoves .read t.memAddr t.dramAddr t.length t.count t.skip :=
      (h.mem_coreMoves t).mpr ⟨1, hcount, 3, by omega, rfl⟩
    rw [Buffers.bytes_moves_of_mem hpair rfl]
    · have hne : (t.dramAddr + (1 * (t.length + t.skip) + (3 ^^^ 3))) ^^^ 3 ≠ start := by
        change _ ≠ (t.dramAddr + 1 * (t.length + t.skip)) / 8 * 8 + 3
        rw [Nat.xor_self, xor_three]
        omega
      exact if_neg hne
    · intro m hm hdst
      obtain ⟨j', hj', n', hn', rfl⟩ := (h.mem_coreMoves t).mp hm
      have hindex := congrArg Place.index (Option.some.inj hdst)
      change t.memAddr + j' * t.length + n' = t.memAddr + 1 * t.length + 3 at hindex
      have hrows := t.rows_mod j'
      have hsame : j' = 1 ∧ n' = 3 :=
        row_unique t.memAddr le_rfl t.length_mod hn' (by omega) (by omega)
      rw [hsame.1, hsame.2]
    · intro q hq m hm
      obtain ⟨j', -, n', -, rfl⟩ := (h.mem_coreMoves t).mp hm
      exact src_ne_dst hq
  rw [hcore, hcxd4] at hplace
  exact absurd hplace (by decide)

theorem differ_write {length a : Nat} (hlength : length ≤ t.length)
    (hcxd4 : ∃ j < t.count, ∃ n < t.length,
      (t.dramAddr + j * (t.length + t.skip)) / 8 * 8 + n = a ^^^ 3)
    (hcore : ∀ j < t.count, ∀ i < length, t.dramAddr + (j * (length + t.skip) + i) ≠ a) :
    OnesDiffer t .write length := by
  intro heq
  have hplace := congrFun heq ⟨.rdram, a ^^^ 3⟩
  have hrange : ∀ j < t.count, t.dramAddr + j * (length + t.skip) + length ≤ 0x800000 := by
    intro j hj
    have hrow := t.row_le hj
    have hle : j * (length + t.skip) ≤ j * (t.length + t.skip) :=
      Nat.mul_le_mul_left _ (by omega)
    omega
  have hwritten : ((contents (fun _ => 1) fun _ => 0).moves
      (cxd4Moves .write t.memAddr t.dramAddr t.length t.count t.skip)).bytes
        ⟨.rdram, a ^^^ 3⟩ = 1 := by
    obtain ⟨j, hj, n, hn, ha⟩ := hcxd4
    apply Buffers.bytes_moves_of_forall_value _ (src_ne_dst_cxd4 t)
    · exact ⟨_, (mem_cxd4Moves t).mpr ⟨j, hj, n, hn, rfl⟩, by rw [← ha]; rfl⟩
    · intro m hm
      obtain ⟨j', -, n', -, rfl⟩ := (mem_cxd4Moves t).mp hm
      rfl
  have hkept : ((contents (fun _ => 1) fun _ => 0).moves
      (coreMoves .write t.memAddr t.dramAddr length t.count t.skip)).bytes
        ⟨.rdram, a ^^^ 3⟩ = 0 := by
    rw [Buffers.bytes_moves_of_forall_ne]
    · rfl
    · intro m hm hdst
      obtain ⟨j, hj, i, hi, rfl⟩ := (mem_coreMoves t.memAddr_lt hrange).mp hm
      have hindex := congrArg Place.index (Option.some.inj hdst)
      change (t.dramAddr + (j * (length + t.skip) + i)) ^^^ 3 = a ^^^ 3 at hindex
      rw [xor_three, xor_three a] at hindex
      exact hcore j hj i hi (by omega)
  rw [hkept, hwritten] at hplace
  exact absurd hplace (by decide)

theorem differ_write_skip (hcount : 1 < t.count) (hskip : t.skip % 8 ≠ 0) :
    OnesDiffer t .write t.length := by
  have hlength := t.length_mod
  have hdram := t.dramAddr_mod
  have hpos := t.length_pos
  apply differ_write t (a := (t.dramAddr + (t.length + t.skip)) / 8 * 8) le_rfl
  · refine ⟨1, hcount, 3, by omega, ?_⟩
    rw [Nat.one_mul, xor_three]
    omega
  · intro j hj i hi heq
    rcases Nat.eq_zero_or_pos j with rfl | hpos
    · omega
    · have hmul : 1 * (t.length + t.skip) ≤ j * (t.length + t.skip) := Nat.mul_le_mul_right _ hpos
      omega

theorem differ_write_length (hcount : 0 < t.count) {length : Nat} (hlength : length < t.length) :
    OnesDiffer t .write length := by
  have hmod := t.length_mod
  have hdram := t.dramAddr_mod
  by_cases hskip : t.skip = 0
  · have hmul : t.count * length < t.count * t.length := Nat.mul_lt_mul_of_pos_left hlength hcount
    have hrows := t.rows_mod t.count
    apply differ_write t (a := t.dramAddr + t.count * length) hlength.le
    · have hlt : (t.count * length) ^^^ 3 < t.count * t.length := by
        rw [xor_three]
        omega
      have hdivmod := Nat.div_add_mod ((t.count * length) ^^^ 3) t.length
      rw [Nat.mul_comm] at hdivmod
      refine ⟨((t.count * length) ^^^ 3) / t.length, ?_, ((t.count * length) ^^^ 3) % t.length,
        Nat.mod_lt _ t.length_pos, ?_⟩
      · rw [Nat.div_lt_iff_lt_mul t.length_pos]
        exact hlt
      · have hrow := t.rows_mod (((t.count * length) ^^^ 3) / t.length)
        have hsum : (t.dramAddr + t.count * length) ^^^ 3 =
            t.dramAddr + ((t.count * length) ^^^ 3) := by
          rw [xor_three, xor_three (t.count * length)]
          omega
        rw [hsum, hskip, Nat.add_zero]
        omega
    · intro j hj i hi heq
      rw [hskip, Nat.add_zero] at heq
      have hle : (j + 1) * length ≤ t.count * length := Nat.mul_le_mul_right _ hj
      rw [Nat.succ_mul] at hle
      omega
  · apply differ_write t (a := t.dramAddr + length) hlength.le
    · have hlt : length ^^^ 3 < t.length := by
        rw [xor_three]
        omega
      refine ⟨0, hcount, length ^^^ 3, hlt, ?_⟩
      rw [Nat.zero_mul, xor_three, xor_three]
      omega
    · intro j hj i hi heq
      rcases Nat.eq_zero_or_pos j with rfl | hpos
      · omega
      · have hle : 1 * (length + t.skip) ≤ j * (length + t.skip) := Nat.mul_le_mul_right _ hpos
        omega

end Differ

/-- A length word leaves the same memories under the core, paraLLEl and cxd4, whatever they
held. -/
def Agree (dir : Direction) (m : SpMachine) (w : UInt32) : Prop :=
  ∀ b : Buffers SpRegion,
    let m := { m with buffers := b }
    match dir with
    | .read => (writeRdLen m w 0xFFFFFFFF).buffers.bytes = (rspMtc0ReadLength m w).buffers.bytes ∧
        (rspMtc0ReadLength m w).buffers.bytes = (mtDmaReadLength m w).buffers.bytes
    | .write =>
        (writeWrLen m w 0xFFFFFFFF).buffers.bytes = (rspMtc0WriteLength m w).buffers.bytes ∧
        (rspMtc0WriteLength m w).buffers.bytes = (mtDmaWriteLength m w).buffers.bytes

/-- The transfer of a length word. -/
def transferOf (m : SpMachine) (w : UInt32) (hmem : m.memAddr &&& 0x1FF8 = m.memAddr)
    (hdram : m.dramAddr &&& 0xFFFFF8 = m.dramAddr)
    (hrange : m.dramAddr.toNat + (rowCount w - 1) * (rowBytes w + rowSkip w) + rowBytes w ≤
      0x800000) : Transfer where
  memAddr := m.memAddr.toNat
  dramAddr := m.dramAddr.toNat
  length := rowBytes w
  count := rowCount w
  skip := rowSkip w
  memAddr_lt := by
    have heq : m.memAddr.toNat &&& 0x1FF8 = m.memAddr.toNat := congrArg UInt32.toNat hmem
    rw [and_1ff8] at heq
    omega
  memAddr_mod := by
    have heq : m.memAddr.toNat &&& 0x1FF8 = m.memAddr.toNat := congrArg UInt32.toNat hmem
    rw [and_1ff8] at heq
    omega
  dramAddr_mod := by
    have heq : m.dramAddr.toNat &&& 0xFFFFF8 = m.dramAddr.toNat := congrArg UInt32.toNat hdram
    rw [and_fffff8] at heq
    omega
  length_mod := by
    rw [rowBytes_eq]
    omega
  length_pos := by
    rw [rowBytes_eq]
    omega
  range := hrange

theorem writeBytes_lt_iff (w : UInt32) : writeBytes w < rowBytes w ↔ w.toNat % 8 ≠ 7 := by
  rw [writeBytes, rowBytes_eq, and_fff]
  omega

theorem writeBytes_le (w : UInt32) : writeBytes w ≤ rowBytes w := by
  rw [writeBytes, rowBytes_eq, and_fff]
  omega

/-- The three implementations agree on a length word exactly when all rows stay in the memory of
the RSP the transfer starts in, there is one row or a skip of whole eights, and the length of a
write is rounded already. -/
theorem agree_iff (dir : Direction) (m : SpMachine) (w : UInt32)
    (hmem : m.memAddr &&& 0x1FF8 = m.memAddr) (hdram : m.dramAddr &&& 0xFFFFF8 = m.dramAddr)
    (hrange : m.dramAddr.toNat + (rowCount w - 1) * (rowBytes w + rowSkip w) + rowBytes w ≤
      0x800000) :
    Agree dir m w ↔ (dir = .write → w.toNat % 8 = 7) ∧
      m.memAddr.toNat % 0x1000 + rowCount w * rowBytes w ≤ 0x1000 ∧
      (rowCount w = 1 ∨ rowSkip w % 8 = 0) := by
  let t := transferOf m w hmem hdram hrange
  have hcount : 0 < rowCount w := Nat.succ_pos _
  have hread : ∀ b, (mtDmaReadLength { m with buffers := b } w).buffers =
      b.moves (cxd4Moves .read t.memAddr t.dramAddr t.length t.count t.skip) :=
    fun b => buffers_mtDmaReadLength { m with buffers := b } w t rfl rfl rfl rfl rfl
  constructor
  · intro h
    have hlow : dir = .write → w.toNat % 8 = 7 := by
      rintro rfl
      by_contra hlow
      have heq := (h (contents (fun _ => 1) fun _ => 0)).1.trans (h _).2
      rw [buffers_writeWrLen, buffers_mtDmaWriteLength] at heq
      exact differ_write_length t hcount ((writeBytes_lt_iff w).mpr hlow) heq
    have hfits : t.Fits := by
      by_contra hfits
      cases dir with
      | read =>
        have heq := (h (contents (fun _ => 1) fun _ => 0)).1.trans (h _).2
        rw [buffers_writeRdLen, hread] at heq
        exact differ_read_crossing t hfits heq
      | write =>
        obtain ⟨b, hb⟩ := differ_write_crossing t hfits (writeBytes_le w)
        have heq := (h b).1.trans (h b).2
        rw [buffers_writeWrLen, buffers_mtDmaWriteLength] at heq
        exact hb heq
    refine ⟨hlow, hfits, ?_⟩
    by_contra hskip
    obtain ⟨hmany, hmod⟩ := not_or.mp hskip
    cases dir with
    | read =>
      obtain ⟨b, hb⟩ := differ_read_skip t hfits (show 1 < rowCount w by omega) hmod
      have heq := (h b).1.trans (h b).2
      rw [buffers_writeRdLen, hread] at heq
      exact hb heq
    | write =>
      have hbytes : writeBytes w = rowBytes w := by
        have hlt := (writeBytes_lt_iff w).not.mpr (not_not.mpr (hlow rfl))
        have hle := writeBytes_le w
        omega
      have heq := (h (contents (fun _ => 1) fun _ => 0)).1.trans (h _).2
      rw [buffers_writeWrLen, buffers_mtDmaWriteLength, hbytes] at heq
      exact differ_write_skip t (show 1 < rowCount w by omega) hmod heq
  · rintro ⟨hlow, hfits, hskip⟩ b
    have hrow : m.memAddr.toNat % 4096 + rowBytes w ≤ 4096 := by
      have hmul : 1 * rowBytes w ≤ rowCount w * rowBytes w := Nat.mul_le_mul_right _ hcount
      omega
    have hagree : t.Fits := hfits
    cases dir with
    | read =>
      change _ = _ ∧ _ = _
      rw [hread b, buffers_writeRdLen, buffers_rspMtc0ReadLength { m with buffers := b } w hrow]
      exact hagree.agree t hskip .read b
    | write =>
      have hbytes : writeBytes w = rowBytes w := by
        have hlt := (writeBytes_lt_iff w).not.mpr (not_not.mpr (hlow rfl))
        have hle := writeBytes_le w
        omega
      change _ = _ ∧ _ = _
      rw [buffers_writeWrLen, buffers_mtDmaWriteLength,
        buffers_rspMtc0WriteLength { m with buffers := b } w hrow, hbytes]
      exact hagree.agree t hskip .write b

def machineAt (memAddr dramAddr : UInt32) : SpMachine :=
  ⟨memAddr, dramAddr, 0, 0, 0, 0, 0, contents (fun _ => 0) fun _ => 0⟩

/-- Two rows of sixteen bytes with eight bytes between them. -/
theorem agree_two_rows : Agree .write (machineAt 0x1FE0 0x100) 0x0080100F :=
  (agree_iff .write (machineAt 0x1FE0 0x100) 0x0080100F (by decide) (by decide) (by decide)).mpr
    ⟨by decide, by decide, by decide⟩

/-- Sixteen bytes from the last eight of the DMEM on, and a write of one byte. -/
theorem not_agree : ¬ Agree .read (machineAt 0xFF8 0) 0xF ∧ ¬ Agree .write (machineAt 0 0) 0 := by
  constructor
  · intro h
    have heq := (h (contents (fun _ => 1) fun _ => 0)).1.trans (h _).2
    exact absurd (congrFun heq ⟨.sp, 0x1000⟩) (by decide)
  · intro h
    have heq := (h (contents (fun _ => 1) fun _ => 0)).1.trans (h _).2
    exact absurd (congrFun heq ⟨.rdram, 0⟩) (by decide)

end ParallelN64.Rsp
