import Mathlib.Data.BitVec
import Mathlib.Data.Fin.VecNotation
import Mathlib.Tactic.FinCases

/-!
# Vectors of the host

A host vector has eight lanes of 16 bits. Most operations work lane by lane; two of them pair the
lanes of two vectors, and packing reads pairs of lanes as words of 32 bits. There is no operation
for the carry of a sum: it shows in the difference between the sum that wraps and the one that
saturates.
-/

namespace ParallelN64.Rsp

local instance neZeroLanes : @NeZero Nat Zero.ofOfNat0 8 := ⟨Nat.succ_ne_zero 7⟩

local instance neZeroElements : @NeZero Nat Zero.ofOfNat0 16 := ⟨Nat.succ_ne_zero 15⟩

/-- `__m128i`, by its lanes of 16 bits. -/
abbrev M128i := Fin 8 → BitVec 16

def laneMask (p : Bool) : BitVec 16 := if p then 0xFFFF#16 else 0#16

def saturatingAdd (a b : BitVec 16) : BitVec 16 :=
  if a.toNat + b.toNat < 0x10000 then a + b else 0xFFFF#16

def saturate (x : BitVec 32) : BitVec 16 :=
  if x.toInt < -0x8000 then 0x8000#16 else if 0x7FFF < x.toInt then 0x7FFF#16 else x.setWidth 16

section Vectors

variable (a b : M128i)

/-- `rsp_vzero`. -/
def rspVzero : M128i := fun _ => 0#16

/-- `_mm_mullo_epi16`. -/
def mulloEpi16 : M128i := fun i => a i * b i

/-- `_mm_mulhi_epi16`. -/
def mulhiEpi16 : M128i := fun i => ((a i).signExtend 32 * (b i).signExtend 32).extractLsb' 16 16

/-- `_mm_mulhi_epu16`. -/
def mulhiEpu16 : M128i := fun i => ((a i).setWidth 32 * (b i).setWidth 32).extractLsb' 16 16

/-- `_mm_add_epi16`. -/
def addEpi16 : M128i := fun i => a i + b i

/-- `_mm_sub_epi16`. -/
def subEpi16 : M128i := fun i => a i - b i

/-- `_mm_adds_epu16`. -/
def addsEpu16 : M128i := fun i => saturatingAdd (a i) (b i)

/-- `_mm_slli_epi16`. -/
def slliEpi16 (n : Nat) : M128i := fun i => a i <<< n

/-- `_mm_srli_epi16`. -/
def srliEpi16 (n : Nat) : M128i := fun i => a i >>> n

/-- `_mm_srai_epi16`. -/
def sraiEpi16 (n : Nat) : M128i := fun i => (a i).sshiftRight n

/-- `_mm_cmpeq_epi16`. -/
def cmpeqEpi16 : M128i := fun i => laneMask (a i == b i)

/-- `_mm_cmpgt_epi16`. -/
def cmpgtEpi16 : M128i := fun i => laneMask ((b i).slt (a i))

/-- `_mm_and_si128`. -/
def andSi128 : M128i := fun i => a i &&& b i

/-- `_mm_or_si128`. -/
def orSi128 : M128i := fun i => a i ||| b i

/-- `_mm_andnot_si128`. -/
def andnotSi128 : M128i := fun i => ~~~(a i) &&& b i

/-- `_mm_unpacklo_epi16`. -/
def unpackloEpi16 : M128i := ![a 0, b 0, a 1, b 1, a 2, b 2, a 3, b 3]

/-- `_mm_unpackhi_epi16`. -/
def unpackhiEpi16 : M128i := ![a 4, b 4, a 5, b 5, a 6, b 6, a 7, b 7]

/-- `_mm_packs_epi32`. -/
def packsEpi32 : M128i :=
  ![saturate (a 1 ++ a 0), saturate (a 3 ++ a 2), saturate (a 5 ++ a 4), saturate (a 7 ++ a 6),
    saturate (b 1 ++ b 0), saturate (b 3 ++ b 2), saturate (b 5 ++ b 4), saturate (b 7 ++ b 6)]

/-- `_mm_blendv_epi8`: the highest bit of each byte of the mask chooses. -/
def blendvEpi8 (mask : M128i) : M128i := fun i =>
  let choice : BitVec 16 := (if (mask i).getLsbD 15 then 0xFF00#16 else 0#16) |||
    (if (mask i).getLsbD 7 then 0x00FF#16 else 0#16)
  (choice &&& b i) ||| (~~~choice &&& a i)

variable (i : Fin 8)

@[simp] theorem rspVzero_apply : rspVzero i = 0#16 := rfl

@[simp] theorem mulloEpi16_apply : mulloEpi16 a b i = a i * b i := rfl

@[simp] theorem addEpi16_apply : addEpi16 a b i = a i + b i := rfl

@[simp] theorem subEpi16_apply : subEpi16 a b i = a i - b i := rfl

@[simp] theorem addsEpu16_apply : addsEpu16 a b i = saturatingAdd (a i) (b i) := rfl

@[simp] theorem slliEpi16_apply (n : Nat) : slliEpi16 a n i = a i <<< n := rfl

@[simp] theorem srliEpi16_apply (n : Nat) : srliEpi16 a n i = a i >>> n := rfl

@[simp] theorem sraiEpi16_apply (n : Nat) : sraiEpi16 a n i = (a i).sshiftRight n := rfl

@[simp] theorem cmpeqEpi16_apply : cmpeqEpi16 a b i = laneMask (a i == b i) := rfl

@[simp] theorem cmpgtEpi16_apply : cmpgtEpi16 a b i = laneMask ((b i).slt (a i)) := rfl

@[simp] theorem andSi128_apply : andSi128 a b i = a i &&& b i := rfl

@[simp] theorem orSi128_apply : orSi128 a b i = a i ||| b i := rfl

@[simp] theorem andnotSi128_apply : andnotSi128 a b i = ~~~(a i) &&& b i := rfl

@[simp] theorem packsEpi32_unpack :
    packsEpi32 (unpackloEpi16 a b) (unpackhiEpi16 a b) i = saturate (b i ++ a i) := by
  fin_cases i <;> rfl

end Vectors

section Masks

variable (p q : Bool) (x : BitVec 16)

theorem laneMask_and : laneMask p &&& x = if p then x else 0#16 := by
  cases p
  · exact BitVec.zero_and
  · exact BitVec.allOnes_and

theorem laneMask_or : laneMask p ||| x = if p then 0xFFFF#16 else x := by
  cases p
  · exact BitVec.zero_or
  · exact BitVec.allOnes_or

theorem not_laneMask : ~~~laneMask p = laneMask (!p) := by
  revert p
  decide

theorem laneMask_and_laneMask : laneMask p &&& laneMask q = laneMask (p && q) := by
  revert p q
  decide

theorem laneMask_beq : (laneMask p == laneMask q) = (p == q) := by
  revert p q
  decide

theorem laneMask_beq_zero : (laneMask p == 0#16) = !p := by
  revert p
  decide

end Masks

section Carries

variable {a b : BitVec 16}

def carryBit (a b : BitVec 16) : BitVec 16 := if 0x10000 ≤ a.toNat + b.toNat then 1#16 else 0#16

theorem toNat_carryBit (a b : BitVec 16) :
    (carryBit a b).toNat = (a.toNat + b.toNat) / 0x10000 := by
  have ha := a.isLt
  have hb := b.isLt
  unfold carryBit
  split_ifs
  · simp only [BitVec.toNat_ofNat]
    omega
  · simp only [BitVec.toNat_ofNat]
    omega

theorem add_beq_saturatingAdd (a b : BitVec 16) :
    (a + b == saturatingAdd a b) = decide (a.toNat + b.toNat < 0x10000) := by
  have ha := a.isLt
  have hb := b.isLt
  unfold saturatingAdd
  split_ifs with h
  · simp [h]
  · have hne : a + b ≠ 0xFFFF#16 := by
      intro heq
      have hsum := congrArg BitVec.toNat heq
      simp only [BitVec.toNat_add, BitVec.toNat_ofNat] at hsum
      omega
    simp [h, hne]

theorem sub_laneMask (x a b : BitVec 16) :
    x - laneMask (laneMask (a + b == saturatingAdd a b) == 0#16) = x + carryBit a b := by
  rw [add_beq_saturatingAdd]
  unfold carryBit laneMask
  by_cases h : a.toNat + b.toNat < 0x10000
  · simp [h, Nat.not_le.mpr h]
  · have hle := Nat.not_lt.mp h
    simp only [h, hle, decide_false, if_true, beq_self_eq_true, Bool.false_eq_true, if_false]
    rw [BitVec.sub_eq_add_neg]
    rfl

theorem sub_and_laneMask (x a b : BitVec 16) (p : Bool) :
    x - (laneMask p &&& laneMask (laneMask (a + b == saturatingAdd a b) == 0#16)) =
      x + (if p then carryBit a b else 0#16) := by
  rw [laneMask_and]
  split_ifs
  · exact sub_laneMask x a b
  · rw [BitVec.sub_zero, BitVec.add_zero]

@[simp] theorem carryBit_zero_left (b : BitVec 16) : carryBit 0#16 b = 0#16 := by
  have hb := b.isLt
  rw [carryBit, if_neg]
  simp only [BitVec.toNat_ofNat]
  omega

@[simp] theorem carryBit_zero_right (a : BitVec 16) : carryBit a 0#16 = 0#16 := by
  have ha := a.isLt
  rw [carryBit, if_neg]
  simp only [BitVec.toNat_ofNat]
  omega

end Carries

end ParallelN64.Rsp
