import Mathlib.Data.Nat.Bitwise
import Mathlib.Tactic.IntervalCases

/-!
# Guest words in wider host words

A host register carries a guest word in its low bits, with arbitrary bits above. Operations that
only move information upward may be done on the host word as it is; the others need the word
extended first. Bytes of a big-endian guest word sit in reverse order in a little-endian host
word.
-/

namespace ParallelN64.Core

section Carries

variable {n m : Nat}

/-- The low bits of a host word are a guest word. -/
def Carries (host : BitVec m) (guest : BitVec n) : Prop :=
  host.setWidth n = guest

variable {x y : BitVec m} {u v : BitVec n}

theorem Carries.add (h : n ≤ m) (hx : Carries x u) (hy : Carries y v) :
    Carries (x + y) (u + v) := by
  unfold Carries at *
  rw [BitVec.setWidth_add _ _ h, hx, hy]

theorem Carries.sub (h : n ≤ m) (hx : Carries x u) (hy : Carries y v) :
    Carries (x - y) (u - v) := by
  unfold Carries at *
  rw [BitVec.sub_eq_add_neg, BitVec.setWidth_add _ _ h, BitVec.setWidth_neg_of_le h, hx, hy,
    ← BitVec.sub_eq_add_neg]

theorem Carries.and (hx : Carries x u) (hy : Carries y v) : Carries (x &&& y) (u &&& v) := by
  unfold Carries at *
  rw [BitVec.setWidth_and, hx, hy]

theorem Carries.or (hx : Carries x u) (hy : Carries y v) : Carries (x ||| y) (u ||| v) := by
  unfold Carries at *
  rw [BitVec.setWidth_or, hx, hy]

theorem Carries.xor (hx : Carries x u) (hy : Carries y v) : Carries (x ^^^ y) (u ^^^ v) := by
  unfold Carries at *
  rw [BitVec.setWidth_xor, hx, hy]

theorem Carries.shiftLeft (h : n ≤ m) (hx : Carries x u) (s : Nat) :
    Carries (x <<< s) (u <<< s) := by
  unfold Carries at *
  rw [BitVec.setWidth_shiftLeft_of_le h, hx]

theorem Carries.ushiftRight (h : n ≤ m) (u : BitVec n) (s : Nat) :
    Carries (u.setWidth m >>> s) (u >>> s) := by
  unfold Carries
  rw [← BitVec.setWidth_ushiftRight h, BitVec.setWidth_setWidth_of_le _ h, BitVec.setWidth_eq]

theorem Carries.setWidth (h : n ≤ m) {k : Nat} (u : BitVec k) :
    Carries (u.setWidth m) (u.setWidth n) := by
  unfold Carries
  rw [BitVec.setWidth_setWidth_of_le _ h]

theorem Carries.signExtend (h : n ≤ m) {k : Nat} (u : BitVec k) :
    Carries (u.signExtend m) (u.signExtend n) := by
  unfold Carries
  ext i hi
  have him : i < m := Nat.lt_of_lt_of_le hi h
  rw [BitVec.getElem_setWidth, BitVec.getLsbD_eq_getElem him, BitVec.getElem_signExtend,
    BitVec.getElem_signExtend]

theorem Carries.of_setWidth (h : n ≤ m) (u : BitVec n) : Carries (u.setWidth m) u := by
  simpa using Carries.setWidth h u

theorem Carries.of_signExtend (h : n ≤ m) (u : BitVec n) : Carries (u.signExtend m) u := by
  simpa using Carries.signExtend h u

theorem Carries.sshiftRight (h : n ≤ m) (u : BitVec n) (s : Nat) :
    Carries ((u.signExtend m).sshiftRight s) (u.sshiftRight s) := by
  unfold Carries
  ext i hi
  have him : i < m := Nat.lt_of_lt_of_le hi h
  rw [BitVec.getElem_setWidth, BitVec.getLsbD_sshiftRight, BitVec.getElem_sshiftRight hi]
  have hin : ¬m ≤ i := by omega
  by_cases hlt : s + i < n
  · have hltm : s + i < m := by omega
    simp [hlt, hltm, hin, BitVec.getElem_signExtend]
  · by_cases hltm : s + i < m
    · simp [hlt, hltm, hin, BitVec.getElem_signExtend]
    · have hpos : 0 < m := by omega
      by_cases heq : m ≤ n
      · obtain rfl : n = m := by omega
        simp [hlt, hin]
      · simp [hlt, hltm, hin, BitVec.msb_signExtend, hpos, heq]

theorem Carries.extractLsb' (hx : Carries x u) {start len : Nat} (h : start + len ≤ n) :
    x.extractLsb' start len = u.extractLsb' start len := by
  unfold Carries at hx
  rw [← hx, BitVec.extractLsb'_setWidth_of_le h]

theorem signExtend_signExtend {k : Nat} (hk : k ≤ n) (hn : n ≤ m) (u : BitVec k) :
    (u.signExtend n).signExtend m = u.signExtend m := by
  apply BitVec.eq_of_toInt_eq
  rw [BitVec.toInt_signExtend_of_le hn, BitVec.toInt_signExtend_of_le hk,
    BitVec.toInt_signExtend_of_le (hk.trans hn)]

theorem signExtend_slt (h : n ≤ m) (u v : BitVec n) :
    (u.signExtend m).slt (v.signExtend m) = u.slt v := by
  rw [BitVec.slt_eq_decide, BitVec.slt_eq_decide, BitVec.toInt_signExtend_of_le h,
    BitVec.toInt_signExtend_of_le h]

theorem signExtend_sle (h : n ≤ m) (u v : BitVec n) :
    (u.signExtend m).sle (v.signExtend m) = u.sle v := by
  rw [BitVec.sle_eq_decide, BitVec.sle_eq_decide, BitVec.toInt_signExtend_of_le h,
    BitVec.toInt_signExtend_of_le h]

theorem setWidth_ult (h : n ≤ m) (u v : BitVec n) :
    (u.setWidth m).ult (v.setWidth m) = u.ult v := by
  rw [BitVec.ult_eq_decide, BitVec.ult_eq_decide, BitVec.toNat_setWidth_of_le h,
    BitVec.toNat_setWidth_of_le h]

theorem signExtend_ult (h : n ≤ m) (u v : BitVec n) :
    (u.signExtend m).ult (v.signExtend m) = u.ult v := by
  have hpow : 2 ^ n ≤ 2 ^ m := Nat.pow_le_pow_right (by decide) h
  rw [BitVec.ult_eq_decide, BitVec.ult_eq_decide, BitVec.toNat_signExtend,
    BitVec.toNat_signExtend, BitVec.toNat_setWidth_of_le h, BitVec.toNat_setWidth_of_le h,
    decide_eq_decide, BitVec.msb_eq_decide, BitVec.msb_eq_decide]
  have hu := u.isLt
  have hv := v.isLt
  simp only [decide_eq_true_eq]
  split_ifs <;> omega

theorem signExtend_inj (h : n ≤ m) {u v : BitVec n} :
    u.signExtend m = v.signExtend m ↔ u = v := by
  constructor
  · intro heq
    have hu := Carries.of_signExtend h u
    rw [heq] at hu
    exact hu.symm.trans (Carries.of_signExtend h v)
  · rintro rfl
    rfl

end Carries

theorem xor_three (x : Nat) : x ^^^ 3 = 4 * (x / 4) + (3 - x % 4) := by
  have hdiv : (x ^^^ 3) / 4 = x / 4 := by
    rw [show 4 = 2 ^ 2 from rfl, Nat.xor_div_two_pow]
    simp
  have hmod : (x ^^^ 3) % 4 = 3 - x % 4 := by
    rw [show 4 = 2 ^ 2 from rfl, Nat.xor_mod_two_pow]
    have hlt : x % 2 ^ 2 < 4 := Nat.mod_lt _ (by decide)
    generalize x % 2 ^ 2 = r at hlt ⊢
    interval_cases r <;> rfl
  omega

theorem xor_two (x : Nat) : x ^^^ 2 = 4 * (x / 4) + (x % 4 + 2) % 4 := by
  have hdiv : (x ^^^ 2) / 4 = x / 4 := by
    rw [show 4 = 2 ^ 2 from rfl, Nat.xor_div_two_pow]
    simp
  have hmod : (x ^^^ 2) % 4 = (x % 4 + 2) % 4 := by
    rw [show 4 = 2 ^ 2 from rfl, Nat.xor_mod_two_pow]
    have hlt : x % 2 ^ 2 < 4 := Nat.mod_lt _ (by decide)
    generalize x % 2 ^ 2 = r at hlt ⊢
    interval_cases r <;> rfl
  omega

end ParallelN64.Core
