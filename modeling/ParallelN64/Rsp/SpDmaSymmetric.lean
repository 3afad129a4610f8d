import ParallelN64.Rsp.SpDmaDiffer

/-!
# The two ways of the SP DMA

`SP_RD_LEN` and `SP_WR_LEN` go over rows of bytes of both memories, each by its own loops and with a
length that it decodes on its own. Where both go over the same pairs of bytes, bytes that were read
are written back to where they came from.
-/

namespace ParallelN64.Rsp

open ParallelN64.Core

/-- The bytes of both memories that the loops of the core go over, one pair a turn. -/
def corePairs (memAddr dramAddr length count skip : Nat) : List (Nat × Nat) :=
  (List.range count).flatMap fun j => (List.range length).map fun i =>
    ((memAddr &&& 0x1000) + ((((memAddr &&& 0xFFF) + (j * length + i)) ^^^ 3) &&& 0xFFF),
      ((dramAddr &&& 0xFFFFFF) + (j * (length + skip) + i)) ^^^ 3)

section Pairs

variable (m : SpMachine) (w : UInt32)

def rdPairs : List (Nat × Nat) :=
  corePairs m.memAddr.toNat m.dramAddr.toNat (rowBytes w) (rowCount w) (rowSkip w)

def wrPairs : List (Nat × Nat) :=
  corePairs m.memAddr.toNat m.dramAddr.toNat (writeBytes w) (rowCount w) (rowSkip w)

/-- The pairs of a length word: rows of whole eights, which wrap around in the memory of the RSP
where they start, with a skip between them in the RDRAM. -/
def Touches (p : Nat × Nat) : Prop :=
  ∃ j < rowCount w, ∃ i < rowBytes w,
    p = (m.memAddr.toNat / 4096 % 2 * 4096 +
          ((m.memAddr.toNat % 4096 + (j * rowBytes w + i)) ^^^ 3) % 4096,
        (m.dramAddr.toNat % 16777216 + (j * (rowBytes w + rowSkip w) + i)) ^^^ 3)

/-- Both ways go over the pairs of the length word, and one way and back leaves the RDRAM as it
was when the range of the RSP does not wrap onto itself. -/
structure Symmetric : Prop where
  rd : ∀ p, p ∈ rdPairs m w ↔ Touches m w p
  wr : ∀ p, p ∈ wrPairs m w ↔ Touches m w p
  back : rowCount w * rowBytes w ≤ 4096 → ∀ b : Buffers SpRegion, ∀ k < 0x800000,
    (writeWrLen (writeRdLen { m with buffers := b } w 0xFFFFFFFF) w 0xFFFFFFFF).buffers.bytes
      ⟨.rdram, k⟩ = b.bytes ⟨.rdram, k⟩

end Pairs

theorem coreMoves_eq (dir : Direction) (memAddr dramAddr length count skip : Nat) :
    coreMoves dir memAddr dramAddr length count skip =
      (corePairs memAddr dramAddr length count skip).map fun p =>
        dir.join (some ⟨.sp, p.1⟩) (rdramSafe p.2) := by
  simp only [coreMoves, corePairs, rows, loop, List.map_flatMap, List.map_map, Function.comp_def]

theorem mem_corePairs {memAddr dramAddr length count skip : Nat} {p : Nat × Nat} :
    p ∈ corePairs memAddr dramAddr length count skip ↔ ∃ j < count, ∃ i < length,
      p = (memAddr / 4096 % 2 * 4096 + ((memAddr % 4096 + (j * length + i)) ^^^ 3) % 4096,
        (dramAddr % 16777216 + (j * (length + skip) + i)) ^^^ 3) := by
  simp only [corePairs, List.mem_flatMap, List.mem_map, List.mem_range, and_1000, and_fff,
    and_ffffff, eq_comm]

theorem mem_rdPairs (m : SpMachine) (w : UInt32) (p : Nat × Nat) :
    p ∈ rdPairs m w ↔ Touches m w p :=
  mem_corePairs

theorem eq_of_xor_three {n k : Nat} (h : n ^^^ 3 = k ^^^ 3) : n = k := by
  rw [xor_three, xor_three] at h
  omega

theorem eq_of_wrapped {start n k : Nat} (hn : n < 4096) (hk : k < 4096)
    (h : ((start + n) ^^^ 3) % 4096 = ((start + k) ^^^ 3) % 4096) : n = k := by
  rw [xor_three, xor_three] at h
  omega

theorem row_eq_of_add_eq {length j j' i i' : Nat} (hi : i < length) (hi' : i' < length)
    (h : j * length + i = j' * length + i') : j = j' ∧ i = i' := by
  have hlength : 0 < length := by omega
  have hj : (j * length + i) / length = j := by
    rw [Nat.add_comm, Nat.add_mul_div_right _ _ hlength, Nat.div_eq_of_lt hi, Nat.zero_add]
  have hj' : (j' * length + i') / length = j' := by
    rw [Nat.add_comm, Nat.add_mul_div_right _ _ hlength, Nat.div_eq_of_lt hi', Nat.zero_add]
  rw [h, hj'] at hj
  subst hj
  exact ⟨rfl, by omega⟩

theorem length_le_of_same {memAddr dramAddr length length' count skip : Nat} (hcount : 0 < count)
    (hlength : 0 < length)
    (h : ∀ p ∈ corePairs memAddr dramAddr length count skip,
      p ∈ corePairs memAddr dramAddr length' count skip) : length ≤ length' := by
  have hlast := h _ (mem_corePairs.mpr ⟨count - 1, by omega, length - 1, by omega, rfl⟩)
  obtain ⟨j, hj, i, hi, heq⟩ := mem_corePairs.mp hlast
  have hrdram := eq_of_xor_three (congrArg Prod.snd heq)
  by_contra hlt
  have hrows : j * (length' + skip) ≤ (count - 1) * (length + skip) :=
    Nat.mul_le_mul (by omega) (by omega)
  omega

section Back

variable {memAddr dramAddr length count skip : Nat}

theorem snd_unique (hfits : count * length ≤ 4096) {p p' : Nat × Nat}
    (hp : p ∈ corePairs memAddr dramAddr length count skip)
    (hp' : p' ∈ corePairs memAddr dramAddr length count skip) (h : p.1 = p'.1) : p.2 = p'.2 := by
  obtain ⟨j, hj, i, hi, rfl⟩ := mem_corePairs.mp hp
  obtain ⟨j', hj', i', hi', rfl⟩ := mem_corePairs.mp hp'
  have hrow {k n : Nat} (hk : k < count) (hn : n < length) : k * length + n < 4096 := by
    have hle : (k + 1) * length ≤ count * length := Nat.mul_le_mul_right _ hk
    rw [Nat.succ_mul] at hle
    omega
  obtain ⟨rfl, rfl⟩ := row_eq_of_add_eq hi hi'
    (eq_of_wrapped (hrow hj hi) (hrow hj' hi') (Nat.add_left_cancel h))
  rfl

theorem dst_ne_rdram_read {p : Nat × Nat} {k : Nat} :
    (Direction.read.join (some ⟨.sp, p.1⟩) (rdramSafe p.2)).dst ≠ some ⟨.rdram, k⟩ :=
  fun h => SpRegion.noConfusion (congrArg Place.region (Option.some.inj h))

theorem region_rdramSafe {addr : Nat} {q : Place SpRegion} (h : rdramSafe addr = some q) :
    q.region = .rdram := by
  unfold rdramSafe at h
  dsimp only at h
  split_ifs at h
  exact (congrArg Place.region (Option.some.inj h)).symm

theorem src_ne_dst_core (dir : Direction) :
    ∀ m ∈ coreMoves dir memAddr dramAddr length count skip, ∀ q, m.src = some q →
      ∀ m' ∈ coreMoves dir memAddr dramAddr length count skip, m'.dst ≠ some q := by
  rw [coreMoves_eq]
  intro m hm q hq m' hm' hdst
  obtain ⟨p, -, rfl⟩ := List.mem_map.mp hm
  obtain ⟨p', -, rfl⟩ := List.mem_map.mp hm'
  cases dir with
  | read =>
    obtain rfl := Option.some.inj hdst
    exact SpRegion.noConfusion (region_rdramSafe hq)
  | write =>
    obtain rfl := Option.some.inj hq
    exact SpRegion.noConfusion (region_rdramSafe hdst)

theorem bytes_sp_of_read (hfits : count * length ≤ 4096) (b : Buffers SpRegion) {p : Nat × Nat}
    (hp : p ∈ corePairs memAddr dramAddr length count skip) {k : Nat}
    (hk : rdramSafe p.2 = some ⟨.rdram, k⟩) :
    (b.moves (coreMoves .read memAddr dramAddr length count skip)).bytes ⟨.sp, p.1⟩ =
      b.bytes ⟨.rdram, k⟩ := by
  apply Buffers.bytes_moves_of_forall_dst _ (src_ne_dst_core .read)
  · rw [coreMoves_eq]
    exact ⟨_, List.mem_map_of_mem hp, rfl⟩
  · rw [coreMoves_eq]
    intro m hm hdst
    obtain ⟨p', hp', rfl⟩ := List.mem_map.mp hm
    have hsame : p'.2 = p.2 :=
      snd_unique hfits hp' hp (congrArg Place.index (Option.some.inj hdst))
    rw [hsame, Direction.join, hk]
    rfl

theorem bytes_rdram_of_read (b : Buffers SpRegion) (k : Nat) :
    (b.moves (coreMoves .read memAddr dramAddr length count skip)).bytes ⟨.rdram, k⟩ =
      b.bytes ⟨.rdram, k⟩ := by
  apply Buffers.bytes_moves_of_forall_ne
  rw [coreMoves_eq]
  intro m hm
  obtain ⟨p, -, rfl⟩ := List.mem_map.mp hm
  exact dst_ne_rdram_read

theorem bytes_rdram_of_back (hfits : count * length ≤ 4096) (b : Buffers SpRegion) (k : Nat) :
    ((b.moves (coreMoves .read memAddr dramAddr length count skip)).moves
      (coreMoves .write memAddr dramAddr length count skip)).bytes ⟨.rdram, k⟩ =
        b.bytes ⟨.rdram, k⟩ := by
  by_cases hstored : ∃ m ∈ coreMoves .write memAddr dramAddr length count skip,
      m.dst = some ⟨.rdram, k⟩
  · apply Buffers.bytes_moves_of_forall_dst _ (src_ne_dst_core .write) hstored
    rw [coreMoves_eq .write]
    intro m hm hdst
    obtain ⟨p, hp, rfl⟩ := List.mem_map.mp hm
    exact bytes_sp_of_read hfits b hp hdst
  · rw [Buffers.bytes_moves_of_forall_ne fun m hm hdst => hstored ⟨m, hm, hdst⟩]
    exact bytes_rdram_of_read b k

end Back

theorem writeBytes_eq_iff (w : UInt32) : writeBytes w = rowBytes w ↔ w &&& 7 = 7 := by
  have hlow : w &&& 7 = 7 ↔ w.toNat % 8 = 7 := by
    rw [← UInt32.toNat_inj, UInt32.toNat_and]
    have hmod : w.toNat &&& (7 : UInt32).toNat = w.toNat % 8 :=
      Nat.and_two_pow_sub_one_eq_mod w.toNat 3
    rw [hmod]
    rfl
  rw [hlow, writeBytes, rowBytes_eq, and_fff]
  omega

/-- The two ways of the SP DMA are symmetric, whatever the addresses are, exactly for the length
words of whole eights: the length of a write is not rounded. -/
theorem symmetric_iff (m : SpMachine) (w : UInt32) : Symmetric m w ↔ w &&& 7 = 7 := by
  rw [← writeBytes_eq_iff]
  have hcount : 0 < rowCount w := Nat.succ_pos _
  constructor
  · intro h
    have hrd : rowBytes w ≤ writeBytes w :=
      length_le_of_same hcount (Nat.succ_pos _) fun p hp => (h.wr p).mpr ((h.rd p).mp hp)
    have hwr : writeBytes w ≤ rowBytes w :=
      length_le_of_same hcount (Nat.succ_pos _) fun p hp => (h.rd p).mpr ((h.wr p).mp hp)
    exact Nat.le_antisymm hwr hrd
  · intro h
    refine ⟨mem_rdPairs m w, fun p => ?_, fun hfits b k _ => ?_⟩
    · rw [wrPairs, h]
      exact mem_rdPairs m w p
    · rw [buffers_writeWrLen, buffers_writeRdLen, h]
      exact bytes_rdram_of_back hfits b k

/-- Rows of one byte with a byte between them: the second byte that comes back is not stored where it
was. -/
theorem short_rows_are_not_symmetric :
    (writeWrLen (writeRdLen { machineAt 0 0 with buffers := contents (fun _ => 0) UInt8.ofNat }
        0x00101000 0xFFFFFFFF) 0x00101000 0xFFFFFFFF).buffers.bytes ⟨.rdram, 1⟩ = 2 ∧
      ¬ Symmetric (machineAt 0 0) 0x00101000 := by
  have hchanged : (writeWrLen (writeRdLen
      { machineAt 0 0 with buffers := contents (fun _ => 0) UInt8.ofNat }
        0x00101000 0xFFFFFFFF) 0x00101000 0xFFFFFFFF).buffers.bytes ⟨.rdram, 1⟩ = 2 := by
    decide
  refine ⟨hchanged, fun h => ?_⟩
  have hback := h.back (by decide) (contents (fun _ => 0) UInt8.ofNat) 1 (by decide)
  exact absurd (hchanged.symm.trans hback) (by decide)

end ParallelN64.Rsp
