import ParallelN64.Rsp.SpDmaMoves

/-!
# When the three DMAs agree

The core wraps a transfer around in the memory it starts in, paraLLEl cuts its rows off at the end
of this memory and cxd4 goes on into the other one. The core takes a skip as it is and the others
in eights, and only the core does not round the length of a write. The three leave the same bytes
exactly when none of this makes a difference.
-/

namespace ParallelN64.Rsp

open ParallelN64.Core

section Buffers

variable (m : SpMachine) (w : UInt32)

theorem maskedWrite_all (old value : UInt32) : maskedWrite old value 0xFFFFFFFF = value := by
  apply UInt32.toBitVec_inj.mp
  simp only [maskedWrite, UInt32.toBitVec_or, UInt32.toBitVec_and, UInt32.toBitVec_not]
  change old.toBitVec &&& ~~~BitVec.allOnes 32 ||| value.toBitVec &&& BitVec.allOnes 32 = _
  rw [BitVec.not_allOnes, BitVec.and_zero, BitVec.zero_or, BitVec.and_allOnes]

def writeBytes (w : UInt32) : Nat := (w.toNat &&& 0xFFF) + 1

theorem buffers_writeRdLen : (writeRdLen m w 0xFFFFFFFF).buffers =
    m.buffers.moves (coreMoves .read m.memAddr.toNat m.dramAddr.toNat (rowBytes w) (rowCount w)
      (rowSkip w)) := by
  unfold writeRdLen
  rw [maskedWrite_all]
  rfl

theorem buffers_writeWrLen : (writeWrLen m w 0xFFFFFFFF).buffers =
    m.buffers.moves (coreMoves .write m.memAddr.toNat m.dramAddr.toNat (writeBytes w) (rowCount w)
      (rowSkip w)) := by
  unfold writeWrLen
  rw [maskedWrite_all]
  rfl

theorem rowLength_eq (h : m.memAddr.toNat % 4096 + rowBytes w ≤ 4096) :
    rowLength m w.toNat = rowBytes w := by
  unfold rowLength
  rw [and_fff m.memAddr.toNat]
  exact if_neg (not_lt.mpr h)

theorem skip_eq : (w.toNat >>> 20) &&& 0xFF8 = rowSkip w / 8 * 8 := by
  have hlt := w.toNat_lt
  rw [rowSkip_eq, and_ff8, Nat.shiftRight_eq_div_pow]
  omega

theorem buffers_rspMtc0ReadLength (h : m.memAddr.toNat % 4096 + rowBytes w ≤ 4096) :
    (rspMtc0ReadLength m w).buffers = m.buffers.moves (parallelMoves .read m.memAddr.toNat
      m.dramAddr.toNat (rowBytes w) (rowCount w) (rowSkip w / 8 * 8)) := by
  rw [← skip_eq, ← rowLength_eq m w h]
  rfl

theorem buffers_rspMtc0WriteLength (h : m.memAddr.toNat % 4096 + rowBytes w ≤ 4096) :
    (rspMtc0WriteLength m w).buffers = m.buffers.moves (parallelMoves .write m.memAddr.toNat
      m.dramAddr.toNat (rowBytes w) (rowCount w) (rowSkip w / 8 * 8)) := by
  rw [← skip_eq, ← rowLength_eq m w h]
  rfl

theorem buffers_mtDmaWriteLength : (mtDmaWriteLength m w).buffers = m.buffers.moves
    (cxd4Moves .write m.memAddr.toNat m.dramAddr.toNat (rowBytes w) (rowCount w) (rowSkip w)) := by
  obtain ⟨hlength, hcount, hskip⟩ := corrected_fields w
  rw [← hlength, ← hcount, ← hskip]
  rfl

theorem readDram_of_lt {offC offD : Nat} (hlt : offD < 0x800000) (hmod : offD % 8 = 0) :
    readDram offC offD = copy 8 ⟨.sp, offC⟩ ⟨.rdram, offD⟩ := by
  unfold readDram
  rw [and_ff800007 hlt hmod]
  exact if_neg (not_not.mpr rfl)

theorem buffers_mtDmaReadLength (t : Transfer) (hmem : t.memAddr = m.memAddr.toNat)
    (hdram : t.dramAddr = m.dramAddr.toNat) (hlength : t.length = rowBytes w)
    (hcount : t.count = rowCount w) (hskip : t.skip = rowSkip w) :
    (mtDmaReadLength m w).buffers =
      m.buffers.moves (cxd4Moves .read t.memAddr t.dramAddr t.length t.count t.skip) := by
  obtain ⟨hlength', hcount', hskip'⟩ := corrected_fields w
  unfold mtDmaReadLength spDmaRead SpMachine.dmaDone
  dsimp only
  rw [hlength', hcount', hskip', ← hlength, ← hcount, ← hskip, ← hmem, ← hdram]
  congr 1
  unfold cxd4Moves rowsDown rows
  apply List.flatMap_congr
  intro j hj
  apply List.flatMap_congr
  intro i hi
  have hrow := t.row_le (List.mem_range.mp (List.mem_reverse.mp hj))
  have hturn : 8 * i < t.length := by
    have hlt := List.mem_range.mp hi
    obtain ⟨n, hn⟩ := Nat.dvd_of_mod_eq_zero t.length_mod
    have hpos := t.length_pos
    rw [hn, turns_mul (by decide) (by omega)] at hlt
    omega
  have hcomm : j * (t.skip + t.length) = j * (t.length + t.skip) := by rw [Nat.add_comm t.skip]
  have hsmall : (j * (t.skip + t.length) + t.dramAddr + 8 * i) &&& 0xFFFFF8 < 0x800000 := by
    rw [and_fffff8, hcomm]
    omega
  have hmod : ((j * (t.skip + t.length) + t.dramAddr + 8 * i) &&& 0xFFFFF8) % 8 = 0 := by
    rw [and_fffff8]
    omega
  rw [readDram_of_lt hsmall hmod]
  rfl

end Buffers

def Transfer.Fits (t : Transfer) : Prop := t.memAddr % 4096 + t.count * t.length ≤ 4096

section Agreement

variable (t : Transfer) {dir : Direction} {m : Move SpRegion}

theorem Transfer.row_lt {j n : Nat} (hj : j < t.count) (hn : n < t.length) :
    j * t.length + n < t.count * t.length := by
  have hmul : (j + 1) * t.length ≤ t.count * t.length := Nat.mul_le_mul_right _ hj
  rw [Nat.succ_mul] at hmul
  omega

theorem exists_xor_iff {length : Nat} (hmod : length % 4 = 0) {P : Nat → Prop} :
    (∃ i < length, P i) ↔ ∃ n < length, P (n ^^^ 3) := by
  have htwice : ∀ n : Nat, n ^^^ 3 ^^^ 3 = n := fun n => by
    rw [Nat.xor_assoc, Nat.xor_self, Nat.xor_zero]
  have hlt : ∀ n < length, n ^^^ 3 < length := by
    intro n hn
    rw [xor_three]
    omega
  constructor
  · rintro ⟨i, hi, hP⟩
    exact ⟨i ^^^ 3, hlt i hi, (htwice i).symm ▸ hP⟩
  · rintro ⟨n, hn, hP⟩
    exact ⟨n ^^^ 3, hlt n hn, hP⟩

theorem Transfer.Fits.mem_coreMoves (h : t.Fits) :
    m ∈ coreMoves dir t.memAddr t.dramAddr t.length t.count t.skip ↔
      ∃ j < t.count, ∃ n < t.length, m = dir.pair (t.memAddr + j * t.length + n)
        ((t.dramAddr + (j * (t.length + t.skip) + (n ^^^ 3))) ^^^ 3) := by
  have hlength := t.length_mod
  have hmem := t.memAddr_mod
  rw [Rsp.mem_coreMoves t.memAddr_lt fun j hj => t.row_le hj]
  refine exists_congr fun j => and_congr_right fun hj => ?_
  rw [exists_xor_iff (by omega)]
  refine exists_congr fun n => and_congr_right fun hn => ?_
  have hrow := t.row_lt hj hn
  have hrows := t.rows_mod j
  have hfits : t.memAddr % 4096 + t.count * t.length ≤ 4096 := h
  have hsp : t.memAddr / 4096 * 4096 +
      ((t.memAddr % 4096 + (j * t.length + (n ^^^ 3))) ^^^ 3) % 4096 =
        t.memAddr + j * t.length + n := by
    rw [xor_three, xor_three n]
    omega
  rw [hsp]

theorem Transfer.Fits.mem_cxd4Moves (h : t.Fits) :
    m ∈ cxd4Moves dir t.memAddr t.dramAddr t.length t.count t.skip ↔
      ∃ j < t.count, ∃ n < t.length, m = dir.pair (t.memAddr + j * t.length + n)
        ((t.dramAddr + j * (t.length + t.skip)) / 8 * 8 + n) := by
  rw [Rsp.mem_cxd4Moves]
  refine exists_congr fun j => and_congr_right fun hj => ?_
  refine exists_congr fun n => and_congr_right fun hn => ?_
  have hrow := t.row_lt hj hn
  have hlt := t.memAddr_lt
  have hfits : t.memAddr % 4096 + t.count * t.length ≤ 4096 := h
  rw [Nat.mod_eq_of_lt (show t.memAddr + j * t.length + n < 8192 by omega)]

theorem Transfer.Fits.mem_parallelMoves (h : t.Fits) :
    m ∈ parallelMoves dir t.memAddr t.dramAddr t.length t.count (t.skip / 8 * 8) ↔
      ∃ j < t.count, ∃ n < t.length, m = dir.pair (t.memAddr + j * t.length + n)
        (t.dramAddr + j * (t.length + t.skip / 8 * 8) + n) := by
  rw [Rsp.mem_parallelMoves]
  refine exists_congr fun j => and_congr_right fun hj => ?_
  refine exists_congr fun n => and_congr_right fun hn => ?_
  have hrow := t.row_lt hj hn
  have hlt := t.memAddr_lt
  have hfits : t.memAddr % 4096 + t.count * t.length ≤ 4096 := h
  rw [Nat.mod_eq_of_lt (show t.memAddr + j * t.length + n < 8192 by omega)]

theorem src_ne_dst {dir : Direction} {sp rdram sp' rdram' : Nat} {q : Place SpRegion}
    (hq : (dir.pair sp rdram).src = some q) : (dir.pair sp' rdram').dst ≠ some q := by
  cases dir with
  | read =>
    obtain rfl := Option.some.inj hq
    exact fun h => nomatch h
  | write =>
    obtain rfl := Option.some.inj hq
    exact fun h => nomatch h

theorem row_unique (start : Nat) {pitch length j j' n n' : Nat} (hpitch : length ≤ pitch)
    (hlength : length % 8 = 0) (hn : n < length) (hn' : n' < length)
    (h : (start + j * pitch) / 8 * 8 + n = (start + j' * pitch) / 8 * 8 + n') :
    j = j' ∧ n = n' := by
  have hstep : ∀ k k' : Nat, k < k' → k * pitch + pitch ≤ k' * pitch := by
    intro k k' hlt
    have hmul : (k + 1) * pitch ≤ k' * pitch := Nat.mul_le_mul_right _ hlt
    rwa [Nat.succ_mul] at hmul
  rcases Nat.lt_trichotomy j j' with hlt | rfl | hlt
  · have hle := hstep j j' hlt
    omega
  · exact ⟨rfl, by omega⟩
  · have hle := hstep j' j hlt
    omega

theorem Transfer.Fits.same_moves (h : t.Fits) (hskip : t.count = 1 ∨ t.skip % 8 = 0) :
    (m ∈ coreMoves dir t.memAddr t.dramAddr t.length t.count t.skip ↔
        m ∈ cxd4Moves dir t.memAddr t.dramAddr t.length t.count t.skip) ∧
      (m ∈ parallelMoves dir t.memAddr t.dramAddr t.length t.count (t.skip / 8 * 8) ↔
        m ∈ cxd4Moves dir t.memAddr t.dramAddr t.length t.count t.skip) := by
  rw [h.mem_coreMoves, h.mem_cxd4Moves, h.mem_parallelMoves]
  have hdram := t.dramAddr_mod
  have hpitch : ∀ j < t.count, (j * (t.length + t.skip)) % 8 = 0 ∧
      j * (t.length + t.skip / 8 * 8) = j * (t.length + t.skip) := by
    intro j hj
    rcases hskip with hone | hmod
    · obtain rfl : j = 0 := by omega
      simp
    · have hlength := t.length_mod
      refine ⟨?_, by rw [show t.skip / 8 * 8 = t.skip by omega]⟩
      rw [Nat.mul_mod, show (t.length + t.skip) % 8 = 0 by omega, Nat.mul_zero, Nat.zero_mod]
  constructor
  · refine exists_congr fun j => and_congr_right fun hj => ?_
    refine exists_congr fun n => and_congr_right fun hn => ?_
    have hmod := (hpitch j hj).1
    have hrdram : (t.dramAddr + (j * (t.length + t.skip) + (n ^^^ 3))) ^^^ 3 =
        (t.dramAddr + j * (t.length + t.skip)) / 8 * 8 + n := by
      rw [xor_three, xor_three n]
      omega
    rw [hrdram]
  · refine exists_congr fun j => and_congr_right fun hj => ?_
    refine exists_congr fun n => and_congr_right fun hn => ?_
    obtain ⟨hmod, heq⟩ := hpitch j hj
    rw [heq, show (t.dramAddr + j * (t.length + t.skip)) / 8 * 8 =
      t.dramAddr + j * (t.length + t.skip) by omega]

theorem Transfer.Fits.cxd4_once (h : t.Fits) {m m' : Move SpRegion}
    (hm : m ∈ cxd4Moves dir t.memAddr t.dramAddr t.length t.count t.skip)
    (hm' : m' ∈ cxd4Moves dir t.memAddr t.dramAddr t.length t.count t.skip)
    (hdst : m'.dst = m.dst) : m' = m := by
  obtain ⟨j, hj, n, hn, rfl⟩ := (h.mem_cxd4Moves t).mp hm
  obtain ⟨j', hj', n', hn', rfl⟩ := (h.mem_cxd4Moves t).mp hm'
  have hsame : j' = j ∧ n' = n := by
    cases dir with
    | read =>
      have hindex := congrArg Place.index (Option.some.inj hdst)
      change t.memAddr + j' * t.length + n' = t.memAddr + j * t.length + n at hindex
      have hmem := t.memAddr_mod
      have hrows := t.rows_mod j
      have hrows' := t.rows_mod j'
      exact row_unique t.memAddr le_rfl t.length_mod hn' hn (by omega)
    | write =>
      have hindex := congrArg Place.index (Option.some.inj hdst)
      exact row_unique t.dramAddr (Nat.le_add_right _ _) t.length_mod hn' hn hindex
  rw [hsame.1, hsame.2]

theorem Transfer.Fits.agree (h : t.Fits) (hskip : t.count = 1 ∨ t.skip % 8 = 0)
    (dir : Direction) (b : Buffers SpRegion) :
    (b.moves (coreMoves dir t.memAddr t.dramAddr t.length t.count t.skip)).bytes =
        (b.moves (parallelMoves dir t.memAddr t.dramAddr t.length t.count
          (t.skip / 8 * 8))).bytes ∧
      (b.moves (parallelMoves dir t.memAddr t.dramAddr t.length t.count
          (t.skip / 8 * 8))).bytes =
        (b.moves (cxd4Moves dir t.memAddr t.dramAddr t.length t.count t.skip)).bytes := by
  have honce : ∀ m ∈ cxd4Moves dir t.memAddr t.dramAddr t.length t.count t.skip,
      ∀ m' ∈ cxd4Moves dir t.memAddr t.dramAddr t.length t.count t.skip,
        m.dst ≠ none → m'.dst = m.dst → m' = m :=
    fun m hm m' hm' _ hdst => h.cxd4_once t hm hm' hdst
  have hsrc : ∀ m ∈ cxd4Moves dir t.memAddr t.dramAddr t.length t.count t.skip,
      ∀ q, m.src = some q → ∀ m' ∈ cxd4Moves dir t.memAddr t.dramAddr t.length t.count t.skip,
        m'.dst ≠ some q := by
    intro m hm q hq m' hm'
    obtain ⟨j, -, n, -, rfl⟩ := (h.mem_cxd4Moves t).mp hm
    obtain ⟨j', -, n', -, rfl⟩ := (h.mem_cxd4Moves t).mp hm'
    exact src_ne_dst hq
  have hcore := Buffers.bytes_moves_congr (b := b)
    (fun m => (h.same_moves t hskip (m := m)).1.symm) honce hsrc
  have hparallel := Buffers.bytes_moves_congr (b := b)
    (fun m => (h.same_moves t hskip (m := m)).2.symm) honce hsrc
  exact ⟨hcore.symm.trans hparallel, hparallel.symm⟩

end Agreement

end ParallelN64.Rsp
