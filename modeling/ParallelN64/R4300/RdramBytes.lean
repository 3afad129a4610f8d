import ParallelN64.R4300.LoadStore

/-!
# The bytes of RDRAM

RDRAM is seen as bytes in the order of the guest. A virtual address leads to a byte when reads
and writes find the same place for it; the bytes of one aligned word or doubleword lie together.
-/

namespace ParallelN64.R4300

open ParallelN64.Core
open Tlb (direct direct_iff)

theorem toNat_and_mask (x mask : Word) {n : Nat} (h : mask.toNat = 2 ^ n - 1) :
    (x &&& mask).toNat = x.toNat % 2 ^ n := by
  rw [BitVec.toNat_and, h, Nat.and_two_pow_sub_one_eq_mod]

theorem toNat_and_not_mask (x mask : Word) {n : Nat} (hn : n ≤ 32)
    (h : mask.toNat = 2 ^ 32 - 2 ^ n) : (x &&& mask).toNat = x.toNat - x.toNat % 2 ^ n := by
  have hpow : 2 ^ n ≤ 2 ^ 32 := Nat.pow_le_pow_right (by decide) hn
  have hnot : mask = ~~~(BitVec.ofNat 32 (2 ^ n - 1)) := by
    apply BitVec.eq_of_toNat_eq
    rw [h, BitVec.toNat_not, BitVec.toNat_ofNat, Nat.mod_eq_of_lt (by omega)]
    have hpos := Nat.two_pow_pos n
    omega
  have hlow : (x &&& BitVec.ofNat 32 (2 ^ n - 1)).toNat = x.toNat % 2 ^ n := by
    refine toNat_and_mask x _ ?_
    rw [BitVec.toNat_ofNat, Nat.mod_eq_of_lt (by omega)]
  have hsum : (x &&& mask) + (x &&& BitVec.ofNat 32 (2 ^ n - 1)) = x := by
    rw [hnot, BitVec.add_eq_or_of_and_eq_zero, ← BitVec.and_or_distrib_left]
    · rw [BitVec.not_or_self]
      exact BitVec.and_allOnes
    · ext j hj
      simp only [BitVec.getElem_and, BitVec.getElem_not, BitVec.getElem_zero]
      cases (BitVec.ofNat 32 (2 ^ n - 1))[j] with | _ => simp
  have htotal := congrArg BitVec.toNat hsum
  rw [BitVec.toNat_add, hlow] at htotal
  have hle : (x &&& mask).toNat ≤ x.toNat := by
    rw [BitVec.toNat_and]
    exact Nat.and_le_left
  have hmod := Nat.mod_le x.toNat (2 ^ n)
  have hx := x.isLt
  omega

namespace Size

variable (z : Size) (a : Word)

theorem bits_eq : z.bits = 8 * z.bytes := by cases z with | _ => rfl

theorem bytes_pos : 0 < z.bytes := by cases z with | _ => decide

theorem bits_le : z.bits ≤ 64 := by cases z with | _ => decide

theorem toNat_low : (a &&& z.low).toNat = a.toNat % z.bytes := by
  cases z with
  | word => exact toNat_and_mask a _ (n := 2) rfl
  | dword => exact toNat_and_mask a _ (n := 3) rfl

theorem toNat_aligned : (a &&& z.aligned).toNat = a.toNat - a.toNat % z.bytes := by
  cases z with
  | word => exact toNat_and_not_mask a _ (n := 2) (by decide) rfl
  | dword => exact toNat_and_not_mask a _ (n := 3) (by decide) rfl

theorem low_eq_zero_iff : a &&& z.low = 0#32 ↔ a.toNat % z.bytes = 0 := by
  rw [← toNat_low, ← BitVec.toNat_inj]
  rfl

theorem low_eq_low_iff : a &&& z.low = z.low ↔ a.toNat % z.bytes = z.bytes - 1 := by
  rw [← toNat_low, ← BitVec.toNat_inj]
  cases z with | _ => rfl

end Size

def Dram.byte (dram : Dram) (q : Nat) : BitVec 8 := byteAt (dram (BitVec.ofNat 21 (q / 4))) (q % 4)

variable {p : Word} (dram : Dram)

theorem inRdram_iff :
    inRdram p ↔
      (0x80000000 ≤ p.toNat ∧ p.toNat < 0xC0000000) ∧ p.toNat % 0x20000000 < 0x800000 := by
  rw [inRdram, direct_iff, BitVec.lt_def, toNat_and_mask p _ (n := 29) rfl]
  rfl

theorem dramIndex_of_lt (h : p.toNat % 0x4000000 < 0x800000) :
    dramIndex p = some (BitVec.ofNat 21 (p.toNat % 0x4000000 / 4)) := by
  have hindex : ((p &&& 0x3FFFFFF#32) >>> 2).toNat = p.toNat % 0x4000000 / 4 := by
    rw [BitVec.toNat_ushiftRight, toNat_and_mask p _ (n := 26) rfl, Nat.shiftRight_eq_div_pow]
    rfl
  have hlt : (p &&& 0x3FFFFFF#32) >>> 2 < 0x200000#32 := by
    rw [BitVec.lt_def, hindex]
    exact Nat.div_lt_of_lt_mul h
  rw [dramIndex, if_pos hlt]
  apply congrArg some
  apply BitVec.eq_of_toNat_eq
  rw [BitVec.toNat_setWidth, hindex, BitVec.toNat_ofNat]

theorem dramIndex_of_inRdram (h : inRdram p) :
    dramIndex p = some (BitVec.ofNat 21 (p.toNat % 0x800000 / 4)) := by
  rw [inRdram_iff] at h
  rw [dramIndex_of_lt (by omega), show p.toNat % 0x4000000 = p.toNat % 0x800000 by omega]

theorem dramIndex_add_four (h : inRdram p) (haligned : p.toNat % 8 = 0) :
    dramIndex (p + 4#32) = some (BitVec.ofNat 21 (p.toNat % 0x800000 / 4 + 1)) := by
  rw [inRdram_iff] at h
  have hsum : (p + 4#32).toNat = p.toNat + 4 := by
    rw [BitVec.toNat_add, BitVec.toNat_ofNat]
    omega
  rw [dramIndex_of_lt (by omega), hsum]
  exact congrArg (fun k => some (BitVec.ofNat 21 k)) (by omega)

theorem byteAt_readRdram (z : Size) (h : inRdram p) (haligned : p.toNat % z.bytes = 0) {k : Nat}
    (hk : k < z.bytes) :
    byteAt ((readRdram dram p z.width).setWidth z.bits) k = dram.byte (p.toNat % 0x800000 + k) := by
  cases z with
  | word =>
    simp only [Size.bytes] at haligned hk
    have hword : (readRdram dram p Size.word.width).setWidth Size.word.bits =
        dram (BitVec.ofNat 21 (p.toNat % 0x800000 / 4)) := by
      simp only [Size.width, Size.bits, readRdram, rdramSafeReadWord, dramIndex_of_inRdram h,
        Option.elim]
      exact BitVec.setWidth_setWidth_of_le _ (by decide)
    rw [hword, Dram.byte, show (p.toNat % 0x800000 + k) / 4 = p.toNat % 0x800000 / 4 by omega,
      show (p.toNat % 0x800000 + k) % 4 = k by omega]
    rfl
  | dword =>
    simp only [Size.bytes] at haligned hk
    simp only [Size.width, Size.bits, readRdram, rdramSafeReadWord, dramIndex_of_inRdram h,
      dramIndex_add_four h haligned, Option.elim, BitVec.setWidth_eq]
    rw [byteAt_or_shiftLeft (p := 4) (q := 4) rfl rfl rfl _ _ hk, Dram.byte]
    split
    · next hlt =>
      rw [show (p.toNat % 0x800000 + k) / 4 = p.toNat % 0x800000 / 4 by omega,
        show (p.toNat % 0x800000 + k) % 4 = k by omega]
    · next hge =>
      rw [show (p.toNat % 0x800000 + k) / 4 = p.toNat % 0x800000 / 4 + 1 by omega,
        show (p.toNat % 0x800000 + k) % 4 = k - 4 by omega]

theorem maskedWrite_ones (old value : Word) : maskedWrite old value 0xFFFFFFFF#32 = value := by
  rw [maskedWrite, show (0xFFFFFFFF#32 : Word) = BitVec.allOnes 32 from rfl, BitVec.not_allOnes,
    BitVec.and_zero, BitVec.and_allOnes, BitVec.zero_or]

theorem byte_update (j : Nat) (hj : j < 0x200000) (word : Word) {q : Nat} (hq : q < 0x800000) :
    Dram.byte (Function.update dram (BitVec.ofNat 21 j) word) q =
      if q / 4 = j then byteAt word (q % 4) else dram.byte q := by
  have hindex : BitVec.ofNat 21 (q / 4) = BitVec.ofNat 21 j ↔ q / 4 = j := by
    rw [← BitVec.toNat_inj, BitVec.toNat_ofNat, BitVec.toNat_ofNat, Nat.mod_eq_of_lt (by omega),
      Nat.mod_eq_of_lt (by omega)]
  by_cases h : q / 4 = j
  · rw [Dram.byte, hindex.mpr h, Function.update_self, if_pos h]
  · rw [Dram.byte, Function.update_of_ne (mt hindex.mp h), if_neg h, Dram.byte]

theorem byte_writeRdram (z : Size) (h : inRdram p) (haligned : p.toNat % z.bytes = 0)
    (value : BitVec 64) {q : Nat} (hq : q < 0x800000) :
    Dram.byte (writeRdram dram p value z.width) q =
      if q / z.bytes = p.toNat % 0x800000 / z.bytes then
        byteAt (value.setWidth z.bits) (q % z.bytes)
      else dram.byte q := by
  cases z with
  | word =>
    simp only [Size.width, writeRdram, rdramSafeMaskedWriteWord, dramIndex_of_inRdram h,
      Option.elim, maskedWrite_ones]
    exact byte_update dram _ (by omega) _ hq
  | dword =>
    simp only [Size.bytes] at haligned
    change Dram.byte (writeRdram dram p value .dword) q =
      if q / 8 = p.toNat % 0x800000 / 8 then byteAt (value.setWidth 64) (q % 8) else dram.byte q
    simp only [writeRdram, rdramSafeMaskedWriteWord, dramIndex_of_inRdram h,
      dramIndex_add_four h haligned, Option.elim, maskedWrite_ones]
    rw [byte_update _ _ (by omega) _ hq, byte_update _ _ (by omega) _ hq, BitVec.setWidth_eq]
    by_cases hlow : q / 4 = p.toNat % 0x800000 / 4 + 1
    · rw [if_pos hlow, if_pos (by omega),
        byteAt_setWidth (p := 4) (q := 4) rfl rfl value (Nat.mod_lt _ (by decide))]
      exact congrArg (byteAt value) (by omega)
    · rw [if_neg hlow]
      by_cases hhigh : q / 4 = p.toNat % 0x800000 / 4
      · rw [if_pos hhigh, if_pos (by omega),
          byteAt_setWidth_ushiftRight (p := 4) (q := 4) rfl rfl value rfl
            (Nat.mod_lt _ (by decide))]
        exact congrArg (byteAt value) (by omega)
      · rw [if_neg hhigh, if_neg (by omega)]

theorem dram_ext {dram dram' : Dram} (h : ∀ q < 0x800000, dram.byte q = dram'.byte q) :
    dram = dram' := by
  funext j
  refine eq_of_byteAt (n := 4) rfl fun k hk => ?_
  have hj := j.isLt
  have hbyte := h (4 * j.toNat + k) (by omega)
  simp only [Dram.byte, show (4 * j.toNat + k) / 4 = j.toNat by omega,
    show (4 * j.toNat + k) % 4 = k by omega, BitVec.ofNat_toNat, BitVec.setWidth_eq] at hbyte
  exact hbyte

theorem writeRdram_eq_self_iff (z : Size) (hp : inRdram p) (haligned : p.toNat % z.bytes = 0)
    (value : BitVec 64) :
    writeRdram dram p value z.width = dram ↔
      value.setWidth z.bits = (readRdram dram p z.width).setWidth z.bits := by
  have hpos := z.bytes_pos
  have hbase : p.toNat % 0x800000 % z.bytes = 0 := by
    cases z with | _ => simp only [Size.bytes] at haligned ⊢; omega
  constructor
  · intro hsame
    refine eq_of_byteAt z.bits_eq fun k hk => ?_
    have hq : p.toNat % 0x800000 + k < 0x800000 := by
      cases z with | _ => simp only [Size.bytes] at hk hbase; omega
    have hbyte := byte_writeRdram dram z hp haligned value hq
    rw [if_pos, Nat.add_mod, hbase, Nat.zero_add, Nat.mod_mod, Nat.mod_eq_of_lt hk, hsame] at hbyte
    · rw [byteAt_readRdram dram z hp haligned hk, hbyte]
    · cases z with | _ => simp only [Size.bytes] at hk hbase ⊢; omega
  · intro hsame
    refine dram_ext fun q hq => ?_
    rw [byte_writeRdram dram z hp haligned value hq, hsame]
    split_ifs with hblock
    · rw [byteAt_readRdram dram z hp haligned (Nat.mod_lt q hpos)]
      have hdiv := Nat.div_add_mod q z.bytes
      have hdiv' := Nat.div_add_mod (p.toNat % 0x800000) z.bytes
      rw [hblock] at hdiv
      exact congrArg dram.byte (by omega)
    · rfl

section Places

variable {ρ μ : Type} (b : Board ρ μ) (s : Cpu ρ μ)

def Cpu.rdramAt (a : Word) : Option Nat :=
  (s.resolve b .read a).bind fun p =>
    if s.resolve b .write a = some p ∧ inRdram p then some (p.toNat % 0x800000) else none

variable {b s}

variable {a : Word} {q : Nat} {p : Word}

theorem rdramAt_eq_some_iff :
    s.rdramAt b a = some q ↔ ∃ p, s.resolve b .read a = some p ∧ s.resolve b .write a = some p ∧
      inRdram p ∧ p.toNat % 0x800000 = q := by
  rw [Cpu.rdramAt, Option.bind_eq_some_iff]
  refine exists_congr fun p => and_congr_right fun _ => ?_
  rw [Option.ite_none_right_eq_some, and_assoc, Option.some_inj]

theorem not_inRdram_of_goldenEye {h : RomHacks} (hp : h.goldenEye a = some p) : ¬inRdram p := by
  rw [RomHacks.goldenEye, Option.ite_none_right_eq_some, Option.some_inj] at hp
  obtain ⟨-, rfl⟩ := hp
  have hlow := toNat_and_mask a 0xFFFFFF#32 (n := 24) rfl
  rw [inRdram_iff]
  split <;> rw [BitVec.toNat_add, hlow, BitVec.toNat_ofNat] <;> omega

theorem goldenEye_eq_none_iff {h : RomHacks} :
    h.goldenEye a = none ↔
      ¬(h.specialRom = .goldenEye ∧ 0x7F000000 ≤ a.toNat ∧ a.toNat < 0x80000000) := by
  rw [RomHacks.goldenEye, ite_eq_right_iff]
  simp only [reduceCtorEq, imp_false]
  exact Iff.rfl

theorem toNat_or_page (v a : Word) :
    ((v &&& 0xFFFFF000#32) ||| (a &&& 0xFFF#32)).toNat =
      v.toNat - v.toNat % 0x1000 + a.toNat % 0x1000 := by
  have hpage := toNat_and_not_mask v 0xFFFFF000#32 (n := 12) (by decide) rfl
  have hoffset := toNat_and_mask a 0xFFF#32 (n := 12) rfl
  have hdisjoint : (v &&& 0xFFFFF000#32) &&& (a &&& 0xFFF#32) = 0#32 := by
    rw [BitVec.and_assoc, BitVec.and_comm a, ← BitVec.and_assoc _ _ a,
      show (0xFFFFF000#32 &&& 0xFFF#32 : Word) = 0#32 from rfl, BitVec.zero_and, BitVec.and_zero]
  rw [← BitVec.add_eq_or_of_and_eq_zero _ _ hdisjoint, BitVec.toNat_add, hpage, hoffset]
  have hv := v.isLt
  omega

variable {access : TlbAccess}

theorem resolve_direct (hp : direct p) : s.resolve b access p = some p :=
  if_pos hp

theorem ne_zero_of_direct (hp : direct p) : p ≠ 0#32 := by
  rintro rfl
  exact absurd hp (by decide)

section Page

variable {a a' : Word}

theorem direct_page (hpage : a.toNat / 0x1000 = a'.toNat / 0x1000) : direct a' ↔ direct a := by
  rw [direct_iff, direct_iff]
  omega

theorem tlbPage_page (hpage : a.toNat / 0x1000 = a'.toNat / 0x1000) :
    Tlb.page a' = Tlb.page a := by
  apply BitVec.eq_of_toNat_eq
  rw [Tlb.toNat_page, Tlb.toNat_page, hpage]

theorem goldenEye_page (hpage : a.toNat / 0x1000 = a'.toNat / 0x1000) (h : RomHacks) :
    h.goldenEye a' = none ↔ h.goldenEye a = none := by
  rw [goldenEye_eq_none_iff, goldenEye_eq_none_iff]
  refine not_congr (and_congr_right fun _ => ?_)
  omega

theorem resolve_eq_none_iff :
    s.resolve b access a = none ↔ ¬direct a ∧ b.hacks.goldenEye a = none ∧
      s.tlb.luts.of access.table (Tlb.page a) = 0#32 := by
  rw [Cpu.resolve, Translation.resolve]
  by_cases hd : direct a
  · simp [hd]
  · simp [hd, Translation.physical]

theorem resolve_eq_none_page (hpage : a.toNat / 0x1000 = a'.toNat / 0x1000) :
    s.resolve b access a' = none ↔ s.resolve b access a = none := by
  rw [resolve_eq_none_iff, resolve_eq_none_iff, direct_page hpage, goldenEye_page hpage,
    tlbPage_page hpage]

end Page

theorem resolve_same_page {a' : Word} (hpage : a.toNat / 0x1000 = a'.toNat / 0x1000)
    (h : s.resolve b access a = some p) (hp : inRdram p) :
    p.toNat % 0x1000 = a.toNat % 0x1000 ∧
      ∃ p', s.resolve b access a' = some p' ∧ p'.toNat / 0x1000 = p.toNat / 0x1000 ∧
        p'.toNat % 0x1000 = a'.toNat % 0x1000 := by
  rw [Cpu.resolve, Translation.resolve] at h ⊢
  by_cases hd : direct a
  · rw [if_pos hd] at h
    obtain rfl := Option.some.inj h
    exact ⟨rfl, a', if_pos ((direct_page hpage).mpr hd), hpage.symm, rfl⟩
  · rw [if_neg hd, Translation.physical] at h
    rw [if_neg (mt (direct_page hpage).mp hd), Translation.physical, tlbPage_page hpage]
    cases hgolden : b.hacks.goldenEye a with
    | some p₀ =>
      rw [hgolden, Option.some_or] at h
      obtain rfl := Option.some.inj h
      exact absurd hp (not_inRdram_of_goldenEye hgolden)
    | none =>
      rw [hgolden, Option.none_or, Option.ite_none_right_eq_some, Option.some_inj] at h
      obtain ⟨hvalue, rfl⟩ := h
      rw [(goldenEye_page hpage _).mpr hgolden, Option.none_or, if_pos hvalue]
      refine ⟨?_, _, rfl, ?_, ?_⟩ <;> simp only [toNat_or_page] <;> omega

theorem rdramAt_aligned (z : Size) (h : s.rdramAt b a = some q) :
    q < 0x800000 ∧ q % z.bytes = a.toNat % z.bytes ∧
      ∃ p, s.resolve b .read (a &&& z.aligned) = some p ∧
        s.resolve b .write (a &&& z.aligned) = some p ∧ inRdram p ∧ p.toNat % z.bytes = 0 ∧
        p.toNat % 0x800000 = q - q % z.bytes := by
  obtain ⟨p, hread, hwrite, hp, rfl⟩ := rdramAt_eq_some_iff.mp h
  have hbytes : 0x1000 % z.bytes = 0 ∧ z.bytes ≤ 8 ∧ 0 < z.bytes := by
    cases z with | _ => decide
  have haddress := z.toNat_aligned a
  have hpage : a.toNat / 0x1000 = (a &&& z.aligned).toNat / 0x1000 := by
    rw [haddress]
    cases z with | _ => simp only [Size.bytes]; omega
  obtain ⟨hoffset, p', hread', hdiv, hmod⟩ := resolve_same_page hpage hread hp
  obtain ⟨-, p'', hwrite', hdiv', hmod'⟩ := resolve_same_page hpage hwrite hp
  obtain rfl : p'' = p' := by
    apply BitVec.eq_of_toNat_eq
    omega
  rw [haddress] at hmod
  rw [inRdram_iff] at hp
  have hp' : inRdram p'' := by
    rw [inRdram_iff]
    omega
  refine ⟨Nat.mod_lt _ (by decide), ?_, p'', hread', hwrite', hp', ?_, ?_⟩ <;>
    cases z with | _ => simp only [Size.bytes] at hmod ⊢; omega

theorem rdramAt_page (h : s.rdramAt b a = some q) : q % 0x1000 = a.toNat % 0x1000 := by
  obtain ⟨p, hread, -, hp, rfl⟩ := rdramAt_eq_some_iff.mp h
  obtain ⟨hoffset, -⟩ := resolve_same_page rfl hread hp
  omega

theorem rdramAt_block (z : Size) {a' : Word} {q' : Nat} (h : s.rdramAt b a = some q)
    (h' : s.rdramAt b a' = some q') (hblock : a &&& z.aligned = a' &&& z.aligned) :
    q / z.bytes = q' / z.bytes := by
  obtain ⟨-, -, p, hread, -, -, -, hplace⟩ := rdramAt_aligned z h
  obtain ⟨-, -, p', hread', -, -, -, hplace'⟩ := rdramAt_aligned z h'
  rw [hblock, hread'] at hread
  obtain rfl := Option.some.inj hread
  rw [hplace, ← Nat.div_mul_self_eq_mod_sub_self, ← Nat.div_mul_self_eq_mod_sub_self] at hplace'
  exact Nat.eq_of_mul_eq_mul_right z.bytes_pos hplace'

theorem places_spec (z : Size) {place : Nat → Nat}
    (hplace : ∀ k < z.bytes, s.rdramAt b (a + BitVec.ofNat 32 k) = some (place k)) :
    (∀ k < z.bytes, k + place 0 % z.bytes < z.bytes →
        place k = place 0 + k ∧ place k / z.bytes = place 0 / z.bytes) ∧
      (∀ k < z.bytes, z.bytes ≤ k + place 0 % z.bytes →
        place k + z.bytes = place (z.bytes - 1) + k + 1 ∧
          place k / z.bytes = place (z.bytes - 1) / z.bytes) ∧
      (place (z.bytes - 1) % z.bytes = (place 0 + z.bytes - 1) % z.bytes) ∧
      (0 < place 0 % z.bytes → place (z.bytes - 1) / z.bytes ≠ place 0 / z.bytes) := by
  have hpos := z.bytes_pos
  have hmod : ∀ k < z.bytes, place k % z.bytes = (a.toNat + k) % z.bytes := by
    intro k hk
    have hoffset := (rdramAt_aligned z (hplace k hk)).2.1
    rw [hoffset, BitVec.toNat_add, BitVec.toNat_ofNat]
    cases z with | _ => simp only [Size.bytes] at hk ⊢; omega
  have haddress : ∀ k < z.bytes, ((a + BitVec.ofNat 32 k) &&& z.aligned).toNat =
      (a.toNat + k) % 2 ^ 32 - (a.toNat + k) % 2 ^ 32 % z.bytes := by
    intro k hk
    rw [z.toNat_aligned, BitVec.toNat_add, BitVec.toNat_ofNat,
      Nat.mod_eq_of_lt (show k < 2 ^ 32 by cases z with | _ => simp only [Size.bytes] at hk; omega)]
  have hblock : ∀ k < z.bytes, ∀ k' < z.bytes,
      (a.toNat + k) / z.bytes = (a.toNat + k') / z.bytes →
      place k / z.bytes = place k' / z.bytes := by
    intro k hk k' hk' hdiv
    refine rdramAt_block z (hplace k hk) (hplace k' hk') ?_
    apply BitVec.eq_of_toNat_eq
    rw [haddress k hk, haddress k' hk']
    cases z with | _ => simp only [Size.bytes] at hk hk' hdiv ⊢; omega
  have hpage : ∀ k < z.bytes, place k % 0x1000 = (a.toNat + k) % 0x1000 := by
    intro k hk
    rw [rdramAt_page (hplace k hk), BitVec.toNat_add, BitVec.toNat_ofNat]
    cases z with | _ => simp only [Size.bytes] at hk; omega
  have hfirst := hmod 0 hpos
  have hlast := hmod (z.bytes - 1) (Nat.sub_lt hpos Nat.one_pos)
  refine ⟨fun k hk hlt => ?_, fun k hk hge => ?_, ?_, fun hoffset => ?_⟩
  · have hk' := hmod k hk
    have hdiv := hblock k hk 0 hpos
    cases z with | _ => simp only [Size.bytes] at hlt hfirst hk' hdiv ⊢; omega
  · have hk' := hmod k hk
    have hdiv := hblock k hk (z.bytes - 1) (Nat.sub_lt hpos Nat.one_pos)
    cases z with | _ => simp only [Size.bytes] at hk hge hfirst hlast hk' hdiv ⊢; omega
  · cases z with | _ => simp only [Size.bytes] at hfirst hlast ⊢; omega
  · have hzero := hpage 0 hpos
    have hend := hpage (z.bytes - 1) (Nat.sub_lt hpos Nat.one_pos)
    cases z with | _ => simp only [Size.bytes] at hoffset hfirst hend ⊢; omega

end Places

end ParallelN64.R4300
