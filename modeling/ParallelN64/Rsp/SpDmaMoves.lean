import ParallelN64.Core.Word
import ParallelN64.Rsp.SpDma

/-!
# The bytes an SP DMA moves

Each implementation moves pairs of a byte of the RSP and a byte of the RDRAM, one way or the
other. Their masks and alignments are worked out here: which pairs each of them moves, for any
length, count and skip.
-/

namespace ParallelN64.Rsp

open ParallelN64.Core

theorem xor_three (n : Nat) : n ^^^ 3 = n / 4 * 4 + (3 - n % 4) := by
  have hdiv : (n ^^^ 3) / 4 = n / 4 ^^^ 0 := Nat.xor_div_two_pow (n := 2)
  have hmod : (n ^^^ 3) % 4 = n % 4 ^^^ 3 := Nat.xor_mod_two_pow (n := 2)
  have hlow : ∀ r < 4, r ^^^ 3 = 3 - r := by decide
  rw [hlow (n % 4) (Nat.mod_lt _ (by decide))] at hmod
  rw [Nat.xor_zero] at hdiv
  omega

theorem or_seven (n : Nat) : n ||| 7 = n / 8 * 8 + 7 := by
  have hdiv : (n ||| 7) / 8 = n / 8 ||| 0 := Nat.or_div_two_pow (n := 3)
  have hmod : (n ||| 7) % 8 = n % 8 ||| 7 := Nat.or_mod_two_pow (n := 3)
  have hlow : ∀ r < 8, r ||| 7 = 7 := by decide
  rw [hlow (n % 8) (Nat.mod_lt _ (by decide))] at hmod
  rw [Nat.or_zero] at hdiv
  omega

section Masks

variable (n : Nat)

theorem and_fff : n &&& 0xFFF = n % 4096 := Nat.and_two_pow_sub_one_eq_mod n 12

theorem and_ffffff : n &&& 0xFFFFFF = n % 16777216 := Nat.and_two_pow_sub_one_eq_mod n 24

theorem and_3ffffff : n &&& 0x3FFFFFF = n % 67108864 := Nat.and_two_pow_sub_one_eq_mod n 26

theorem and_ff : n &&& 0xFF = n % 256 := Nat.and_two_pow_sub_one_eq_mod n 8

theorem and_1000 : n &&& 0x1000 = n / 4096 % 2 * 4096 := and_ones_mul_two_pow n 1 12

theorem and_ff8 : n &&& 0xFF8 = n / 8 % 512 * 8 := and_ones_mul_two_pow n 9 3

theorem and_1ffc : n &&& 0x1FFC = n / 4 % 2048 * 4 := and_ones_mul_two_pow n 11 2

theorem and_1ff8 : n &&& 0x1FF8 = n / 8 % 1024 * 8 := and_ones_mul_two_pow n 10 3

theorem and_7ffffc : n &&& 0x7FFFFC = n / 4 % 2097152 * 4 := and_ones_mul_two_pow n 21 2

theorem and_fffff8 : n &&& 0xFFFFF8 = n / 8 % 2097152 * 8 := and_ones_mul_two_pow n 21 3

theorem and_ff000 : n &&& 0xFF000 = n / 4096 % 256 * 4096 := and_ones_mul_two_pow n 8 12

theorem and_fff00000 : n &&& 0xFFF00000 = n / 1048576 % 4096 * 1048576 :=
  and_ones_mul_two_pow n 12 20

theorem and_ff800007 {n : Nat} (hlt : n < 0x800000) (halign : n % 8 = 0) :
    n &&& 0xFF800007 = 0 := by
  have hhigh : n &&& 0xFF800000 = n / 8388608 % 512 * 8388608 := and_ones_mul_two_pow n 9 23
  have hlow : n &&& 7 = n % 8 := Nat.and_two_pow_sub_one_eq_mod n 3
  rw [show 0xFF800007 = 0xFF800000 ||| 7 from rfl, Nat.and_or_distrib_left, hhigh, hlow, halign,
    Nat.div_eq_of_lt hlt]
  rfl

end Masks

def rowBytes (w : UInt32) : Nat := ((w.toNat &&& 0xFFF) ||| 7) + 1

def rowCount (w : UInt32) : Nat := ((w.toNat >>> 12) &&& 0xFF) + 1

def rowSkip (w : UInt32) : Nat := (w.toNat >>> 20) &&& 0xFFF

section Fields

variable (w : UInt32)

theorem rowBytes_eq : rowBytes w = 8 * (w.toNat % 4096 / 8 + 1) := by
  rw [rowBytes, or_seven, and_fff]
  omega

theorem rowCount_eq : rowCount w = w.toNat / 4096 % 256 + 1 := by
  rw [rowCount, and_ff, Nat.shiftRight_eq_div_pow]

theorem rowSkip_eq : rowSkip w = w.toNat / 1048576 := by
  have hlt := w.toNat_lt
  rw [rowSkip, and_fff, Nat.shiftRight_eq_div_pow]
  omega

theorem toNat_or_seven : (w ||| 7).toNat = w.toNat / 8 * 8 + 7 := by
  rw [UInt32.toNat_or, show (7 : UInt32).toNat = 7 from rfl, or_seven]

theorem corrected_fields :
    ((w ||| 7).toNat &&& 0xFFF) + 1 = rowBytes w ∧
      (((w ||| 7).toNat &&& 0xFF000) >>> 12) + 1 = rowCount w ∧
      ((w ||| 7).toNat &&& 0xFFF00000) >>> 20 = rowSkip w := by
  have hlt := w.toNat_lt
  rw [rowBytes_eq, rowCount_eq, rowSkip_eq, toNat_or_seven, and_fff, and_ff000, and_fff00000,
    Nat.shiftRight_eq_div_pow, Nat.shiftRight_eq_div_pow]
  refine ⟨by omega, by omega, by omega⟩

end Fields

/-- The way a DMA goes. -/
inductive Direction where
  | read
  | write
  deriving DecidableEq, Repr

def Direction.join (dir : Direction) (sp rdram : Option (Place SpRegion)) : Move SpRegion :=
  match dir with
  | .read => ⟨rdram, sp, 0⟩
  | .write => ⟨sp, rdram, 0⟩

def Direction.pair (dir : Direction) (sp rdram : Nat) : Move SpRegion :=
  dir.join (some ⟨.sp, sp⟩) (some ⟨.rdram, rdram⟩)

section Moves

variable (dir : Direction) (memAddr dramAddr length count skip : Nat)

/-- The moves of the core. -/
def coreMoves : List (Move SpRegion) :=
  rows count fun j => loop length fun i => dir.join
    (some ⟨.sp, (memAddr &&& 0x1000) +
      ((((memAddr &&& 0xFFF) + (j * length + i)) ^^^ 3) &&& 0xFFF)⟩)
    (rdramSafe (((dramAddr &&& 0xFFFFFF) + (j * (length + skip) + i)) ^^^ 3))

def parallelMoves : List (Move SpRegion) :=
  rows count fun i => rows (turns 4 length) fun k => loop 4 fun byte => dir.join
    (some ((spWord ((memAddr + i * length + 4 * k) &&& 0x1FFC)).at byte))
    (some ((rdramWord ((dramAddr + i * (length + skip) + 4 * k) &&& 0x7FFFFC)).at byte))

def cxd4Moves : List (Move SpRegion) :=
  rowsDown count fun count => rows (turns 8 length) fun i => loop 8 fun byte => dir.join
    (some (Place.at ⟨.sp, (count * length + memAddr + 8 * i) &&& 0x1FF8⟩ byte))
    (some (Place.at ⟨.rdram, (count * (skip + length) + dramAddr + 8 * i) &&& 0xFFFFF8⟩ byte))

end Moves

/-- The range of a transfer: whole eights, and a last row below the limit of the RDRAM. -/
structure Transfer where
  memAddr : Nat
  dramAddr : Nat
  length : Nat
  count : Nat
  skip : Nat
  memAddr_lt : memAddr < 8192
  memAddr_mod : memAddr % 8 = 0
  dramAddr_mod : dramAddr % 8 = 0
  length_mod : length % 8 = 0
  length_pos : 0 < length
  range : dramAddr + (count - 1) * (length + skip) + length ≤ 0x800000

theorem Transfer.row_le (t : Transfer) {j : Nat} (hj : j < t.count) :
    t.dramAddr + j * (t.length + t.skip) + t.length ≤ 0x800000 := by
  have hmul : j * (t.length + t.skip) ≤ (t.count - 1) * (t.length + t.skip) :=
    Nat.mul_le_mul_right _ (by omega)
  have hrange := t.range
  omega

theorem Transfer.rows_mod (t : Transfer) (j : Nat) : (j * t.length) % 8 = 0 := by
  rw [Nat.mul_mod, t.length_mod, Nat.mul_zero, Nat.zero_mod]

theorem exists_step_iff {step length : Nat} (hstep : 0 < step) (hlength : 0 < length)
    (hmod : length % step = 0) {P : Nat → Nat → Prop} :
    (∃ k < turns step length, ∃ byte < step, P (step * k) byte) ↔
      ∃ n < length, P (n / step * step) (n % step) := by
  obtain ⟨count, rfl⟩ := Nat.dvd_of_mod_eq_zero hmod
  have hcount : 0 < count := Nat.pos_of_mul_pos_left hlength
  rw [turns_mul hstep hcount]
  constructor
  · rintro ⟨k, hk, byte, hbyte, hP⟩
    refine ⟨step * k + byte, ?_, ?_⟩
    · have hle : step * (k + 1) ≤ step * count := Nat.mul_le_mul_left _ hk
      rw [Nat.mul_succ] at hle
      omega
    · rw [Nat.mul_add_div hstep, Nat.div_eq_of_lt hbyte, Nat.mul_add_mod, Nat.mod_eq_of_lt hbyte,
        Nat.add_zero, Nat.mul_comm k step]
      exact hP
  · rintro ⟨n, hn, hP⟩
    refine ⟨n / step, Nat.div_lt_of_lt_mul hn, n % step, Nat.mod_lt _ hstep, ?_⟩
    rw [Nat.mul_comm]
    exact hP

section Members

variable {dir : Direction} {m : Move SpRegion}

theorem mem_cxd4Moves (t : Transfer) :
    m ∈ cxd4Moves dir t.memAddr t.dramAddr t.length t.count t.skip ↔
      ∃ j < t.count, ∃ n < t.length, m = dir.pair ((t.memAddr + j * t.length + n) % 8192)
        ((t.dramAddr + j * (t.length + t.skip)) / 8 * 8 + n) := by
  have hmem := t.memAddr_mod
  simp only [cxd4Moves, mem_rowsDown, mem_rows, mem_loop, Place.at]
  refine exists_congr fun j => and_congr_right fun hj => ?_
  rw [exists_step_iff (by decide) t.length_pos t.length_mod (P := fun start byte =>
    dir.join (some ⟨.sp, ((j * t.length + t.memAddr + start) &&& 0x1FF8) + byte⟩)
      (some ⟨.rdram, ((j * (t.skip + t.length) + t.dramAddr + start) &&& 0xFFFFF8) + byte⟩) = m)]
  refine exists_congr fun n => and_congr_right fun hn => ?_
  have hrow := t.row_le hj
  have hrows := t.rows_mod j
  have hcomm : j * (t.skip + t.length) = j * (t.length + t.skip) := by rw [Nat.add_comm t.skip]
  have hsp : (j * t.length + t.memAddr + n / 8 * 8) / 8 % 1024 * 8 + n % 8 =
      (t.memAddr + j * t.length + n) % 8192 := by omega
  have hrdram : (j * (t.length + t.skip) + t.dramAddr + n / 8 * 8) / 8 % 2097152 * 8 + n % 8 =
      (t.dramAddr + j * (t.length + t.skip)) / 8 * 8 + n := by omega
  rw [and_1ff8, and_fffff8, hcomm, eq_comm, Direction.pair, hsp, hrdram]

theorem spWord_of_aligned {addr : Nat} (hlt : addr < 8192) (hmod : addr % 4 = 0) :
    spWord addr = ⟨.sp, addr⟩ := by
  unfold spWord
  rw [and_1000, and_fff, Nat.shiftRight_eq_div_pow, Nat.shiftRight_eq_div_pow]
  split
  · rw [show 4096 + 4 * (addr % 4096 / 2 ^ 2) = addr by omega]
  · rw [show 4 * (addr / 2 ^ 2) = addr by omega]

theorem rdramWord_of_aligned {addr : Nat} (hmod : addr % 4 = 0) :
    rdramWord addr = ⟨.rdram, addr⟩ := by
  unfold rdramWord
  rw [Nat.shiftRight_eq_div_pow, show 4 * (addr / 2 ^ 2) = addr by omega]

theorem mem_parallelMoves (t : Transfer) :
    m ∈ parallelMoves dir t.memAddr t.dramAddr t.length t.count (t.skip / 8 * 8) ↔
      ∃ j < t.count, ∃ n < t.length, m = dir.pair ((t.memAddr + j * t.length + n) % 8192)
        (t.dramAddr + j * (t.length + t.skip / 8 * 8) + n) := by
  have hmem := t.memAddr_mod
  have hdram := t.dramAddr_mod
  have hmod : t.length % 4 = 0 := by
    have hlength := t.length_mod
    omega
  simp only [parallelMoves, mem_rows, mem_loop, Place.at]
  refine exists_congr fun j => and_congr_right fun hj => ?_
  rw [exists_step_iff (by decide) t.length_pos hmod (P := fun start byte =>
    dir.join (some ⟨(spWord ((t.memAddr + j * t.length + start) &&& 0x1FFC)).region,
        (spWord ((t.memAddr + j * t.length + start) &&& 0x1FFC)).index + byte⟩)
      (some ⟨(rdramWord ((t.dramAddr + j * (t.length + t.skip / 8 * 8) + start) &&&
          0x7FFFFC)).region,
        (rdramWord ((t.dramAddr + j * (t.length + t.skip / 8 * 8) + start) &&&
          0x7FFFFC)).index + byte⟩) = m)]
  refine exists_congr fun n => and_congr_right fun hn => ?_
  have hrow := t.row_le hj
  have hrows := t.rows_mod j
  have hskip : (j * (t.length + t.skip / 8 * 8)) % 8 = 0 := by
    rw [Nat.mul_add, ← Nat.mul_assoc]
    omega
  have hle : j * (t.length + t.skip / 8 * 8) ≤ j * (t.length + t.skip) :=
    Nat.mul_le_mul_left _ (by omega)
  rw [and_1ffc, and_7ffffc, spWord_of_aligned (by omega) (by omega),
    rdramWord_of_aligned (by omega), eq_comm, Direction.pair]
  have hsp : (t.memAddr + j * t.length + n / 4 * 4) / 4 % 2048 * 4 + n % 4 =
      (t.memAddr + j * t.length + n) % 8192 := by omega
  have hrdram : (t.dramAddr + j * (t.length + t.skip / 8 * 8) + n / 4 * 4) / 4 % 2097152 * 4 +
      n % 4 = t.dramAddr + j * (t.length + t.skip / 8 * 8) + n := by omega
  rw [hsp, hrdram]

theorem rdramSafe_of_lt {n : Nat} (h : n < 0x800000) :
    rdramSafe (n ^^^ 3) = some ⟨.rdram, n ^^^ 3⟩ := by
  have hlt : n ^^^ 3 < 0x800000 := by
    rw [xor_three]
    omega
  unfold rdramSafe
  rw [and_3ffffff, Nat.mod_eq_of_lt (by omega)]
  exact if_pos hlt

theorem mem_coreMoves {memAddr dramAddr length count skip : Nat} (hmem : memAddr < 8192)
    (hrange : ∀ j < count, dramAddr + j * (length + skip) + length ≤ 0x800000) :
    m ∈ coreMoves dir memAddr dramAddr length count skip ↔
      ∃ j < count, ∃ i < length, m = dir.pair
        (memAddr / 4096 * 4096 + ((memAddr % 4096 + (j * length + i)) ^^^ 3) % 4096)
        ((dramAddr + (j * (length + skip) + i)) ^^^ 3) := by
  simp only [coreMoves, mem_rows, mem_loop]
  refine exists_congr fun j => and_congr_right fun hj => ?_
  refine exists_congr fun i => and_congr_right fun hi => ?_
  have hrow := hrange j hj
  rw [and_1000, and_fff, and_fff, and_ffffff, Nat.mod_eq_of_lt (show dramAddr < 16777216 by omega),
    rdramSafe_of_lt (by omega), eq_comm, Nat.mod_eq_of_lt (show memAddr / 4096 < 2 by omega)]
  rfl

end Members

end ParallelN64.Rsp
