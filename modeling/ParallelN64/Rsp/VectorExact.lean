import ParallelN64.Core.WideProduct
import ParallelN64.Rsp.VectorMultiply

/-!
# The accumulator is exact

In every lane the three words are a number of 48 bits to which each instruction adds its product.
The stored vector is that number, moved down by one word and clamped.
-/

namespace ParallelN64.Rsp

open ParallelN64.Core

def Acc.value (acc : Acc) (i : Fin 8) : BitVec 48 := acc.hi i ++ acc.md i ++ acc.lo i

/-- What an instruction sets its accumulator to, or adds. -/
def MacOp.quantity (op : MacOp) (s t : BitVec 16) : Int :=
  match op with
  | vmulf | vmulu => 2 * (s.toInt * t.toInt) + 0x8000
  | vmacf | vmacu => 2 * (s.toInt * t.toInt)
  | vmudl | vmadl => (s.toNat * t.toNat / 0x10000 : Nat)
  | vmudm | vmadm => s.toInt * t.toNat
  | vmudn | vmadn => s.toNat * t.toInt
  | vmudh | vmadh => s.toInt * t.toInt * 0x10000

def MacOp.accumulates : MacOp → Bool
  | vmacf | vmacu | vmadl | vmadm | vmadn | vmadh => true
  | vmulf | vmulu | vmudl | vmudm | vmudn | vmudh => false

def MacOp.next (op : MacOp) (s t : BitVec 16) (a : BitVec 48) : BitVec 48 :=
  (if op.accumulates then a else 0#48) + BitVec.ofInt 48 (op.quantity s t)

def clampSigned (z : Int) : BitVec 16 := BitVec.ofInt 16 (max (-0x8000) (min 0x7FFF z))

def clampUnsigned (z : Int) : BitVec 16 :=
  if z < 0 then 0#16 else if 0x7FFF < z then 0xFFFF#16 else BitVec.ofInt 16 z

def clampLow (a : BitVec 48) : BitVec 16 :=
  if -0x8000 ≤ a.toInt / 0x10000 ∧ a.toInt / 0x10000 ≤ 0x7FFF then a.setWidth 16
  else if a.toInt < 0 then 0#16 else 0xFFFF#16

/-- What an instruction stores from the accumulator behind it. -/
def MacOp.delivers (op : MacOp) (a : BitVec 48) : BitVec 16 :=
  match op with
  | vmulf | vmacf | vmudm | vmadm | vmudh | vmadh => clampSigned (a.toInt / 0x10000)
  | vmulu | vmacu => clampUnsigned (a.toInt / 0x10000)
  | vmudl | vmadl | vmudn | vmadn => clampLow a

section Products

variable (a b : BitVec 16)

theorem toInt_eq_cases : a.toInt = a.toNat ∧ a.toNat < 0x8000 ∨
    a.toInt = a.toNat - 0x10000 ∧ 0x8000 ≤ a.toNat := by
  rw [BitVec.toInt_eq_toNat_cond]
  split_ifs with h
  · exact .inl ⟨rfl, by omega⟩
  · exact .inr ⟨by norm_num, by omega⟩

theorem toNat_mul_eq_emod : ((a * b).toNat : Int) = a.toInt * b.toInt % 0x10000 := by
  have hprod : a * b = BitVec.ofInt 16 (a.toInt * b.toInt) := by
    rw [BitVec.ofInt_mul, BitVec.ofInt_toInt, BitVec.ofInt_toInt]
  rw [hprod, BitVec.toNat_ofInt, Int.toNat_of_nonneg (by omega)]
  rfl

theorem toNat_mulhiEpi16 (vs vt : M128i) (i : Fin 8) :
    ((mulhiEpi16 vs vt i).toNat : Int) =
      (vs i).toInt * (vt i).toInt / 0x10000 % 0x10000 := by
  have hprod : (vs i).signExtend 32 * (vt i).signExtend 32 =
      BitVec.ofInt 32 ((vs i).toInt * (vt i).toInt) := by
    rw [BitVec.ofInt_mul]
    rfl
  rw [mulhiEpi16, hprod, BitVec.extractLsb'_toNat, BitVec.toNat_ofInt, Nat.shiftRight_eq_div_pow]
  generalize (vs i).toInt * (vt i).toInt = x
  omega

theorem toNat_mulhiEpu16 (vs vt : M128i) (i : Fin 8) :
    (mulhiEpu16 vs vt i).toNat = (vs i).toNat * (vt i).toNat / 0x10000 := by
  have hs := (vs i).isLt
  have ht := (vt i).isLt
  have hlt : (vs i).toNat * (vt i).toNat < 0x10000 * 0x10000 := Nat.mul_lt_mul'' hs ht
  have hs' : (vs i).toNat % 2 ^ 32 = (vs i).toNat := by omega
  have ht' : (vt i).toNat % 2 ^ 32 = (vt i).toNat := by omega
  rw [mulhiEpu16, BitVec.extractLsb'_toNat, BitVec.toNat_mul, BitVec.toNat_setWidth,
    BitVec.toNat_setWidth, hs', ht', Nat.shiftRight_eq_div_pow]
  generalize (vs i).toNat * (vt i).toNat = x at hlt
  omega

theorem toInt_bounds : -0x8000 ≤ a.toInt ∧ a.toInt ≤ 0x7FFF := by
  have h := BitVec.toInt_lt (x := a)
  have h' := BitVec.le_toInt a
  norm_num at h h'
  omega

theorem mul_toInt_bounds : -0x3FFF8000 ≤ a.toInt * b.toInt ∧ a.toInt * b.toInt ≤ 0x40000000 ∧
    (a ≠ b → a.toInt * b.toInt ≤ 0x3FFF8000) := by
  obtain ⟨ha, ha'⟩ := toInt_bounds a
  obtain ⟨hb, hb'⟩ := toInt_bounds b
  rcases le_or_gt 0 b.toInt with hsign | hsign
  · have hlow := mul_nonneg (by omega : 0 ≤ a.toInt + 0x8000) hsign
    have hhigh := mul_nonneg (by omega : 0 ≤ 0x7FFF - a.toInt) hsign
    rw [add_mul] at hlow
    rw [sub_mul] at hhigh
    exact ⟨by omega, by omega, by omega⟩
  · have hlow := mul_nonneg (by omega : 0 ≤ 0x7FFF - a.toInt) (by omega : 0 ≤ -b.toInt)
    have hhigh := mul_nonneg (by omega : 0 ≤ a.toInt + 0x8000) (by omega : 0 ≤ -b.toInt)
    rw [sub_mul, mul_neg, mul_neg] at hlow
    rw [add_mul, mul_neg, mul_neg] at hhigh
    refine ⟨by omega, by omega, fun hne => ?_⟩
    by_cases hlast : b.toInt = -0x8000
    · have hother : a.toInt ≠ -0x8000 := fun h => hne (BitVec.eq_of_toInt_eq (h.trans hlast.symm))
      rw [hlast]
      omega
    · omega

theorem mul_toInt_toNat_bounds :
    -0x7FFF8000 ≤ a.toInt * b.toNat ∧ a.toInt * b.toNat ≤ 0x7FFE8001 := by
  obtain ⟨ha, ha'⟩ := toInt_bounds a
  have hb := b.isLt
  have hlow := mul_nonneg (by omega : 0 ≤ a.toInt + 0x8000) (Int.natCast_nonneg b.toNat)
  have hhigh := mul_nonneg (by omega : 0 ≤ 0x7FFF - a.toInt) (Int.natCast_nonneg b.toNat)
  rw [add_mul] at hlow
  rw [sub_mul] at hhigh
  exact ⟨by omega, by omega⟩

end Products

section Words

def words (lo md hi : BitVec 16) : BitVec 48 := hi ++ md ++ lo

theorem toNat_words (lo md hi : BitVec 16) : (words lo md hi).toNat =
    hi.toNat * 0x100000000 + md.toNat * 0x10000 + lo.toNat := by
  rw [words, toNat_append, toNat_append]
  omega

theorem eq_add_ofInt {x y : BitVec 48} {q : Int} (k : Int)
    (h : (x.toNat : Int) = y.toNat + q + k * 0x1000000000000) : x = y + BitVec.ofInt 48 q := by
  have hq : x = BitVec.ofInt 48 (y.toNat + q + k * 0x1000000000000) := by
    rw [← h, BitVec.ofInt_natCast, BitVec.ofNat_toNat, BitVec.setWidth_eq]
  have hwrap : BitVec.ofInt 48 (k * 0x1000000000000) = 0#48 := by
    apply BitVec.eq_of_toNat_eq
    rw [BitVec.toNat_ofInt]
    norm_num
  rw [hq, BitVec.ofInt_add, BitVec.ofInt_add, hwrap, BitVec.add_zero, BitVec.ofInt_natCast,
    BitVec.ofNat_toNat, BitVec.setWidth_eq]

theorem words_zero : words 0#16 0#16 0#16 = 0#48 := rfl

theorem sshiftRight_fifteen (x : BitVec 16) :
    x.sshiftRight 15 = laneMask (decide (0x8000 ≤ x.toNat)) := by
  have hx := x.isLt
  have hxInt := toInt_eq_cases x
  apply BitVec.eq_of_toInt_eq
  rw [BitVec.toInt_sshiftRight, Int.shiftRight_eq_div_pow]
  by_cases h : 0x8000 ≤ x.toNat
  · have hint : x.toInt / ((2 ^ 15 : Nat) : Int) = -1 := by omega
    rw [hint, decide_eq_true h]
    rfl
  · have hint : x.toInt / ((2 ^ 15 : Nat) : Int) = 0 := by omega
    rw [hint, decide_eq_false h]
    rfl

theorem words_add (lo md hi pl m h : BitVec 16) {q : Int} (k : Int)
    (hq : (pl.toNat : Int) + 0x10000 * (m.toNat - (carryBit lo pl).toNat) +
      0x100000000 * h.toNat = q + k * 0x1000000000000) :
    words (lo + pl) (md + m) (hi + h + carryBit md m) = words lo md hi + BitVec.ofInt 48 q := by
  have hlow := Nat.div_add_mod (lo.toNat + pl.toNat) 0x10000
  have hmiddle := Nat.div_add_mod (md.toNat + m.toNat) 0x10000
  have hhigh := Nat.div_add_mod (hi.toNat + h.toNat + (md.toNat + m.toNat) / 0x10000) 0x10000
  have hsum : (words (lo + pl) (md + m) (hi + h + carryBit md m)).toNat =
      (hi.toNat + h.toNat + (md.toNat + m.toNat) / 0x10000) % 0x10000 * 0x100000000 +
        (md.toNat + m.toNat) % 0x10000 * 0x10000 + (lo.toNat + pl.toNat) % 0x10000 := by
    rw [toNat_words, BitVec.toNat_add, BitVec.toNat_add, BitVec.toNat_add, BitVec.toNat_add,
      toNat_carryBit, Nat.mod_add_mod]
  rw [toNat_carryBit] at hq
  apply eq_add_ofInt
    (k - ((hi.toNat + h.toNat + (md.toNat + m.toNat) / 0x10000) / 0x10000 : Nat))
  rw [hsum, toNat_words]
  generalize (hi.toNat + h.toNat + (md.toNat + m.toNat) / 0x10000) % 0x10000 = r₂ at *
  generalize (hi.toNat + h.toNat + (md.toNat + m.toNat) / 0x10000) / 0x10000 = c₂ at *
  generalize (md.toNat + m.toNat) % 0x10000 = r₁ at *
  generalize (md.toNat + m.toNat) / 0x10000 = c₁ at *
  generalize (lo.toNat + pl.toNat) % 0x10000 = r₀ at *
  generalize (lo.toNat + pl.toNat) / 0x10000 = c₀ at *
  omega

variable (pl ph : BitVec 16) {p : Int}

theorem words_add_signed (lo md hi pl ph : BitVec 16) (hpl : (pl.toNat : Int) = p % 0x10000)
    (hph : (ph.toNat : Int) = p / 0x10000 % 0x10000) (hp : -0x80000000 ≤ p ∧ p < 0x7FFF0000) :
    words (lo + pl) (md + (ph + carryBit lo pl))
        (hi + (ph + carryBit lo pl).sshiftRight 15 + carryBit md (ph + carryBit lo pl)) =
      words lo md hi + BitVec.ofInt 48 p := by
  have hcarry : (carryBit lo pl).toNat ≤ 1 := by
    have hlo := lo.isLt
    have hpl := pl.isLt
    rw [toNat_carryBit]
    omega
  have hm : (ph + carryBit lo pl).toNat = (ph.toNat + (carryBit lo pl).toNat) % 0x10000 :=
    BitVec.toNat_add _ _
  by_cases hsign : 0x8000 ≤ (ph + carryBit lo pl).toNat
  · apply words_add _ _ _ _ _ _ 1
    rw [sshiftRight_fifteen, laneMask, decide_eq_true hsign, if_pos rfl, BitVec.toNat_ofNat]
    omega
  · apply words_add _ _ _ _ _ _ 0
    rw [sshiftRight_fifteen, laneMask, decide_eq_false hsign, if_neg (by simp), BitVec.toNat_ofNat]
    omega

theorem words_signed (hpl : (pl.toNat : Int) = p % 0x10000)
    (hph : (ph.toNat : Int) = p / 0x10000 % 0x10000) (hp : -0x80000000 ≤ p ∧ p < 0x7FFF0000) :
    words pl ph (ph.sshiftRight 15) = 0#48 + BitVec.ofInt 48 p := by
  have hsum := words_add_signed 0#16 0#16 0#16 pl ph hpl hph hp
  simpa only [carryBit_zero_left, BitVec.zero_add, BitVec.add_zero, words_zero] using hsum

theorem words_add_up (lo md hi pl ph : BitVec 16) (hpl : (pl.toNat : Int) = p % 0x10000)
    (hph : (ph.toNat : Int) = p / 0x10000 % 0x10000) (hp : -0x80000000 ≤ p ∧ p < 0x80000000) :
    words lo (md + pl) (hi + (ph + carryBit md pl)) =
      words lo md hi + BitVec.ofInt 48 (p * 0x10000) := by
  have hsum := words_add lo md hi 0#16 pl ph (if p < 0 then 1 else 0) (q := p * 0x10000) (by
    rw [carryBit_zero_right]
    simp only [BitVec.toNat_ofNat]
    split_ifs
    · omega
    · omega)
  rwa [BitVec.add_zero, BitVec.add_assoc] at hsum

theorem toNat_double (hpl : (pl.toNat : Int) = p % 0x10000)
    (hph : (ph.toNat : Int) = p / 0x10000 % 0x10000) :
    ((pl <<< 1).toNat : Int) = 2 * p % 0x10000 ∧
      ((ph <<< 1 ||| pl >>> 15).toNat : Int) = 2 * p / 0x10000 % 0x10000 := by
  have hlt := pl.isLt
  have htop : pl.toNat >>> 15 < 2 ^ 1 := by
    rw [Nat.shiftRight_eq_div_pow]
    omega
  have heven : ph.toNat <<< 1 % 2 ^ 16 = (ph.toNat % 2 ^ 15) <<< 1 := by
    rw [Nat.shiftLeft_eq, Nat.shiftLeft_eq]
    omega
  constructor
  · rw [BitVec.toNat_shiftLeft, Nat.shiftLeft_eq]
    omega
  · rw [BitVec.toNat_or, BitVec.toNat_shiftLeft, BitVec.toNat_ushiftRight, heven,
      ← Nat.shiftLeft_add_eq_or_of_lt htop, Nat.shiftLeft_eq, Nat.shiftRight_eq_div_pow]
    omega

theorem words_add_double (lo md hi pl ph : BitVec 16) (hpl : (pl.toNat : Int) = p % 0x10000)
    (hph : (ph.toNat : Int) = p / 0x10000 % 0x10000) (hp : -0x40000000 ≤ p ∧ p ≤ 0x40000000) :
    let m := (ph <<< 1 ||| pl >>> 15) + carryBit lo (pl <<< 1)
    words (lo + pl <<< 1) (md + m) (hi + (ph.sshiftRight 15 +
        (if m == 0#16 then carryBit lo (pl <<< 1) else 0#16)) + carryBit md m) =
      words lo md hi + BitVec.ofInt 48 (2 * p) := by
  obtain ⟨hlow, hmiddle⟩ := toNat_double pl ph hpl hph
  intro m
  have hcarry : (carryBit lo (pl <<< 1)).toNat ≤ 1 := by
    have hlo := lo.isLt
    have hpl := (pl <<< 1).isLt
    rw [toNat_carryBit]
    omega
  have hm : m.toNat = ((ph <<< 1 ||| pl >>> 15).toNat + (carryBit lo (pl <<< 1)).toNat) % 0x10000 :=
    BitVec.toNat_add _ _
  have hzero : (m == 0#16) = decide (m.toNat = 0) := by
    rw [Bool.eq_iff_iff, beq_iff_eq, decide_eq_true_iff, BitVec.toNat_eq]
    rfl
  have hsign : (ph.sshiftRight 15).toNat = if p < 0 then 0xFFFF else 0 := by
    rw [sshiftRight_fifteen, laneMask]
    by_cases hneg : p < 0
    · have hle : 0x8000 ≤ ph.toNat := by omega
      rw [decide_eq_true hle, if_pos rfl, if_pos hneg]
      rfl
    · have hgt : ¬ 0x8000 ≤ ph.toNat := by omega
      rw [decide_eq_false hgt, if_neg (by simp), if_neg hneg]
      rfl
  rw [hzero]
  by_cases hwrap : m.toNat = 0
  · rw [decide_eq_true hwrap, if_pos rfl]
    apply words_add _ _ _ _ _ _ (if p < 0 ∧ (carryBit lo (pl <<< 1)).toNat = 0 then 1 else 0)
    have hupper : (ph.sshiftRight 15 + carryBit lo (pl <<< 1)).toNat =
        ((ph.sshiftRight 15).toNat + (carryBit lo (pl <<< 1)).toNat) % 0x10000 :=
      BitVec.toNat_add _ _
    rw [hupper, hsign]
    split_ifs
    all_goals omega
  · rw [decide_eq_false hwrap, if_neg (by simp), BitVec.add_zero]
    apply words_add _ _ _ _ _ _ (if p < 0 then 1 else 0)
    rw [hsign]
    split_ifs
    all_goals omega

theorem toNat_round (hpl : (pl.toNat : Int) = p % 0x10000)
    (hph : (ph.toNat : Int) = p / 0x10000 % 0x10000) :
    ((0x8000#16 + (pl + pl)).toNat : Int) = (2 * p + 0x8000) % 0x10000 ∧
      ((ph <<< 1 + (pl >>> 15 + (pl + pl) >>> 15)).toNat : Int) =
        (2 * p + 0x8000) / 0x10000 % 0x10000 := by
  have hlt := pl.isLt
  simp only [BitVec.toNat_add, BitVec.toNat_shiftLeft, BitVec.toNat_ushiftRight,
    BitVec.toNat_ofNat, Nat.shiftLeft_eq, Nat.shiftRight_eq_div_pow]
  exact ⟨by omega, by omega⟩

theorem words_round (same : Bool) (hpl : (pl.toNat : Int) = p % 0x10000)
    (hph : (ph.toNat : Int) = p / 0x10000 % 0x10000) (hp : -0x40000000 ≤ p ∧ p ≤ 0x40000000)
    (hsame : same = true → 0 ≤ p) (hdiffer : same = false → p ≤ 0x3FFF8000) :
    words (0x8000#16 + (pl + pl)) (ph <<< 1 + (pl >>> 15 + (pl + pl) >>> 15))
        (~~~laneMask same &&& (ph <<< 1 + (pl >>> 15 + (pl + pl) >>> 15)).sshiftRight 15) =
      0#48 + BitVec.ofInt 48 (2 * p + 0x8000) := by
  obtain ⟨hlow, hmiddle⟩ := toNat_round pl ph hpl hph
  generalize 0x8000#16 + (pl + pl) = lo at hlow ⊢
  generalize ph <<< 1 + (pl >>> 15 + (pl + pl) >>> 15) = md at hmiddle ⊢
  cases same with
  | true =>
    have hpos := hsame rfl
    have hzero : ~~~laneMask true &&& md.sshiftRight 15 = 0#16 := BitVec.zero_and
    rw [hzero]
    apply eq_add_ofInt 0
    rw [toNat_words]
    simp only [BitVec.toNat_ofNat]
    omega
  | false =>
    have hle := hdiffer rfl
    have hself : ~~~laneMask false &&& md.sshiftRight 15 = md.sshiftRight 15 :=
      BitVec.allOnes_and
    rw [hself, sshiftRight_fifteen, laneMask]
    apply eq_add_ofInt (if 0x8000 ≤ md.toNat then 1 else 0)
    rw [toNat_words]
    by_cases hmd : 0x8000 ≤ md.toNat
    · rw [decide_eq_true hmd, if_pos rfl, if_pos hmd]
      simp only [BitVec.toNat_ofNat]
      omega
    · rw [decide_eq_false hmd, if_neg (by simp), if_neg hmd]
      simp only [BitVec.toNat_ofNat]
      omega

end Words

section Values

variable (vs vt : M128i) (acc : Acc) (i : Fin 8)

theorem Acc.value_eq_words : acc.value i = words (acc.lo i) (acc.md i) (acc.hi i) := rfl

theorem value_vmadl : (rspVmadlVmudl vs vt rspVzero acc true).2.value i =
    acc.value i + BitVec.ofInt 48 (MacOp.vmadl.quantity (vs i) (vt i)) := by
  have hsum := words_add (acc.lo i) (acc.md i) (acc.hi i) (mulhiEpu16 vs vt i)
    (carryBit (acc.lo i) (mulhiEpu16 vs vt i)) 0#16 0
    (q := MacOp.vmadl.quantity (vs i) (vt i))
    (by rw [MacOp.quantity, ← toNat_mulhiEpu16]; simp)
  rw [Acc.value_eq_words, Acc.value_eq_words, ← hsum]
  simp only [rspVmadlVmudl, if_true, addEpi16_apply, subEpi16_apply, cmpeqEpi16_apply,
    addsEpu16_apply, rspVzero_apply, sub_laneMask, BitVec.zero_add, BitVec.add_zero]

theorem value_vmudl : (rspVmadlVmudl vs vt rspVzero acc false).2.value i =
    0#48 + BitVec.ofInt 48 (MacOp.vmudl.quantity (vs i) (vt i)) := by
  have hsum := words_add 0#16 0#16 0#16 (mulhiEpu16 vs vt i) 0#16 0#16 0
    (q := MacOp.vmudl.quantity (vs i) (vt i))
    (by rw [MacOp.quantity, ← toNat_mulhiEpu16]; simp)
  rw [Acc.value_eq_words, ← words_zero, ← hsum]
  simp [rspVmadlVmudl]

theorem toNat_sub_and_sign (a b hi : BitVec 16)
    (hhi : hi.toNat = a.toNat * b.toNat / 0x10000) :
    ((hi - (b &&& a.sshiftRight 15)).toNat : Int) = a.toInt * b.toNat / 0x10000 % 0x10000 := by
  have hb := b.isLt
  have hhi' := hi.isLt
  have hcast : ((a.toNat * b.toNat : Nat) : Int) = a.toNat * b.toNat := Int.natCast_mul _ _
  rw [sshiftRight_fifteen]
  rcases toInt_eq_cases a with ⟨hint, hlt⟩ | ⟨hint, hle⟩
  · have hmask : b &&& laneMask (decide (0x8000 ≤ a.toNat)) = 0#16 := by
      have hpos : ¬ 0x8000 ≤ a.toNat := by omega
      simp [laneMask, hpos]
    rw [hmask, BitVec.sub_zero, hint]
    omega
  · have hmask : b &&& laneMask (decide (0x8000 ≤ a.toNat)) = b := by
      rw [laneMask, decide_eq_true hle, if_pos rfl]
      exact BitVec.and_allOnes
    have hsplit : a.toInt * b.toNat = a.toNat * b.toNat - 0x10000 * b.toNat := by
      rw [hint, sub_mul]
    rw [hmask, BitVec.toNat_sub, hsplit]
    omega

theorem toNat_mul_toInt_toNat (a b : BitVec 16) :
    ((a * b).toNat : Int) = a.toInt * b.toNat % 0x10000 := by
  have hcast : ((a.toNat * b.toNat : Nat) : Int) = a.toNat * b.toNat := Int.natCast_mul _ _
  rw [BitVec.toNat_mul]
  rcases toInt_eq_cases a with ⟨hint, -⟩ | ⟨hint, -⟩
  · rw [hint]
    omega
  · have hsplit : a.toInt * b.toNat = a.toNat * b.toNat - 0x10000 * b.toNat := by
      rw [hint, sub_mul]
    rw [hsplit]
    omega

theorem value_vmadm : (rspVmadmVmudm vs vt rspVzero acc true).2.value i =
    acc.value i + BitVec.ofInt 48 (MacOp.vmadm.quantity (vs i) (vt i)) := by
  have hbounds := mul_toInt_toNat_bounds (vs i) (vt i)
  have hsum := words_add_signed (acc.lo i) (acc.md i) (acc.hi i) _ _
    (toNat_mul_toInt_toNat (vs i) (vt i))
    (toNat_sub_and_sign (vs i) (vt i) _ (toNat_mulhiEpu16 vs vt i)) (by omega)
  rw [Acc.value_eq_words, Acc.value_eq_words, MacOp.quantity, ← hsum]
  simp only [rspVmadmVmudm, if_true, accumulateSigned, addEpi16_apply, subEpi16_apply,
    cmpeqEpi16_apply, addsEpu16_apply, rspVzero_apply, mulloEpi16_apply, andSi128_apply,
    sraiEpi16_apply, sub_laneMask]

theorem value_vmudm : (rspVmadmVmudm vs vt rspVzero acc false).2.value i =
    0#48 + BitVec.ofInt 48 (MacOp.vmudm.quantity (vs i) (vt i)) := by
  have hbounds := mul_toInt_toNat_bounds (vs i) (vt i)
  have hsum := words_signed _ _ (toNat_mul_toInt_toNat (vs i) (vt i))
    (toNat_sub_and_sign (vs i) (vt i) _ (toNat_mulhiEpu16 vs vt i)) (by omega)
  rw [Acc.value_eq_words, MacOp.quantity, ← hsum]
  rfl

theorem toNat_mulhiEpu16_comm : (mulhiEpu16 vs vt i).toNat =
    (vt i).toNat * (vs i).toNat / 0x10000 := by
  rw [toNat_mulhiEpu16, Nat.mul_comm]

theorem value_vmadn : (rspVmadnVmudn vs vt rspVzero acc true).2.value i =
    acc.value i + BitVec.ofInt 48 (MacOp.vmadn.quantity (vs i) (vt i)) := by
  have hbounds := mul_toInt_toNat_bounds (vt i) (vs i)
  have hsum := words_add_signed (acc.lo i) (acc.md i) (acc.hi i) _ _
    (toNat_mul_toInt_toNat (vt i) (vs i))
    (toNat_sub_and_sign (vt i) (vs i) _ (toNat_mulhiEpu16_comm vs vt i)) (by omega)
  rw [Acc.value_eq_words, Acc.value_eq_words, MacOp.quantity, mul_comm, ← hsum,
    BitVec.mul_comm (vt i)]
  simp only [rspVmadnVmudn, if_true, accumulateSigned, addEpi16_apply, subEpi16_apply,
    cmpeqEpi16_apply, addsEpu16_apply, rspVzero_apply, mulloEpi16_apply, andSi128_apply,
    sraiEpi16_apply, sub_laneMask]

theorem value_vmudn : (rspVmadnVmudn vs vt rspVzero acc false).2.value i =
    0#48 + BitVec.ofInt 48 (MacOp.vmudn.quantity (vs i) (vt i)) := by
  have hbounds := mul_toInt_toNat_bounds (vt i) (vs i)
  have hsum := words_signed _ _ (toNat_mul_toInt_toNat (vt i) (vs i))
    (toNat_sub_and_sign (vt i) (vs i) _ (toNat_mulhiEpu16_comm vs vt i)) (by omega)
  rw [Acc.value_eq_words, MacOp.quantity, mul_comm, ← hsum, BitVec.mul_comm (vt i)]
  rfl

theorem value_vmadh : (rspVmadhVmudh vs vt rspVzero acc true).2.value i =
    acc.value i + BitVec.ofInt 48 (MacOp.vmadh.quantity (vs i) (vt i)) := by
  obtain ⟨hlow, hhigh, -⟩ := mul_toInt_bounds (vs i) (vt i)
  have hsum := words_add_up (acc.lo i) (acc.md i) (acc.hi i) _ _
    (toNat_mul_eq_emod (vs i) (vt i)) (toNat_mulhiEpi16 vs vt i) (by omega)
  rw [Acc.value_eq_words, Acc.value_eq_words, MacOp.quantity, ← hsum]
  simp only [rspVmadhVmudh, if_true, addEpi16_apply, subEpi16_apply, cmpeqEpi16_apply,
    addsEpu16_apply, rspVzero_apply, mulloEpi16_apply, sub_laneMask]

theorem value_vmudh : (rspVmadhVmudh vs vt rspVzero acc false).2.value i =
    0#48 + BitVec.ofInt 48 (MacOp.vmudh.quantity (vs i) (vt i)) := by
  obtain ⟨hlow, hhigh, -⟩ := mul_toInt_bounds (vs i) (vt i)
  have hsum := words_add_up 0#16 0#16 0#16 _ _
    (toNat_mul_eq_emod (vs i) (vt i)) (toNat_mulhiEpi16 vs vt i) (by omega)
  rw [Acc.value_eq_words, MacOp.quantity, ← words_zero, ← hsum]
  simp [rspVmadhVmudh]

theorem value_vmacf (vmacu : Bool) : (rspVmacfVmacu vs vt rspVzero acc vmacu).2.value i =
    acc.value i + BitVec.ofInt 48 (2 * ((vs i).toInt * (vt i).toInt)) := by
  obtain ⟨hlow, hhigh, -⟩ := mul_toInt_bounds (vs i) (vt i)
  have hsum := words_add_double (acc.lo i) (acc.md i) (acc.hi i) _ _
    (toNat_mul_eq_emod (vs i) (vt i)) (toNat_mulhiEpi16 vs vt i) (by omega)
  have hsame : (rspVmacfVmacu vs vt rspVzero acc vmacu).2 =
      (rspVmacfVmacu vs vt rspVzero acc false).2 := by
    cases vmacu <;> rfl
  rw [hsame, Acc.value_eq_words, Acc.value_eq_words, ← hsum]
  simp only [rspVmacfVmacu, Bool.false_eq_true, if_false, addEpi16_apply, subEpi16_apply,
    cmpeqEpi16_apply, addsEpu16_apply, rspVzero_apply, mulloEpi16_apply, slliEpi16_apply,
    srliEpi16_apply, sraiEpi16_apply, andSi128_apply, orSi128_apply, sub_laneMask,
    sub_and_laneMask]

theorem value_vmulf (vmulu : Bool) : (rspVmulfVmulu vs vt rspVzero vmulu).2.value i =
    0#48 + BitVec.ofInt 48 (2 * ((vs i).toInt * (vt i).toInt) + 0x8000) := by
  obtain ⟨hlow, hhigh, hdiffer⟩ := mul_toInt_bounds (vs i) (vt i)
  have hsum := words_round _ _ (vs i == vt i) (toNat_mul_eq_emod (vs i) (vt i))
    (toNat_mulhiEpi16 vs vt i) (by omega)
    (fun heq => by rw [beq_iff_eq.mp heq]; exact mul_self_nonneg _)
    (fun hne => hdiffer (bne_iff_ne.mp (by rw [bne, hne]; rfl)))
  have hround : laneMask (0#16 == 0#16) <<< 15 = 0x8000#16 := rfl
  have hacc : (rspVmulfVmulu vs vt rspVzero vmulu).2 =
      (rspVmulfVmulu vs vt rspVzero false).2 := by
    cases vmulu <;> rfl
  rw [hacc, Acc.value_eq_words, ← hsum, ← hround]
  simp only [rspVmulfVmulu, Bool.false_eq_true, if_false, addEpi16_apply, cmpeqEpi16_apply,
    rspVzero_apply, mulloEpi16_apply, slliEpi16_apply, srliEpi16_apply, sraiEpi16_apply,
    andnotSi128_apply]

end Values

section Stored

variable (lo md hi : BitVec 16)

theorem toInt_words : (words lo md hi).toInt =
    hi.toInt * 0x100000000 + md.toNat * 0x10000 + lo.toNat := by
  have hlo := lo.isLt
  have hmd := md.isLt
  have hhi := toInt_eq_cases hi
  rw [BitVec.toInt_eq_toNat_cond, toNat_words]
  split_ifs
  · omega
  · norm_num
    omega

theorem setWidth_words : (words lo md hi).setWidth 16 = lo := by
  rw [words, BitVec.setWidth_append, dif_pos (le_refl _), BitVec.setWidth_eq]

theorem toInt_words_div : (words lo md hi).toInt / 0x10000 = hi.toInt * 0x10000 + md.toNat := by
  have hlo := lo.isLt
  rw [toInt_words]
  omega

theorem toInt_append : (hi ++ md).toInt = hi.toInt * 0x10000 + md.toNat := by
  have hmd := md.isLt
  have hhi := toInt_eq_cases hi
  rw [BitVec.toInt_eq_toNat_cond, toNat_append]
  split_ifs
  · omega
  · norm_num
    omega

theorem ofInt_upper : BitVec.ofInt 16 (hi.toInt * 0x10000 + md.toNat) = md := by
  have hmd := md.isLt
  apply BitVec.eq_of_toNat_eq
  rw [BitVec.toNat_ofInt]
  omega

theorem saturate_append : saturate (hi ++ md) =
    clampSigned ((words lo md hi).toInt / 0x10000) := by
  rw [toInt_words_div, saturate, toInt_append, clampSigned]
  have hlast : (hi ++ md).setWidth 16 = md := by
    rw [BitVec.setWidth_append, dif_pos (le_refl _), BitVec.setWidth_eq]
  split_ifs with hlow hhigh
  · rw [min_eq_right (by omega), max_eq_left (by omega)]
    rfl
  · rw [min_eq_left (by omega), max_eq_right (by omega)]
    rfl
  · rw [min_eq_right (by omega), max_eq_right (by omega), ofInt_upper, hlast]

theorem masks_vmacu :
    laneMask ((0#16).slt hi) ||| (~~~(hi.sshiftRight 15) &&& (md.sshiftRight 15 ||| md)) =
      clampUnsigned ((words lo md hi).toInt / 0x10000) := by
  have hmd := md.isLt
  have hhi := toInt_eq_cases hi
  have hslt : (0#16).slt hi = decide (0 < hi.toInt) := rfl
  rw [toInt_words_div, clampUnsigned, ofInt_upper, hslt, sshiftRight_fifteen, sshiftRight_fifteen,
    not_laneMask, laneMask_or, laneMask_or, laneMask_and, ← decide_not]
  simp only [decide_eq_true_eq]
  split_ifs
  all_goals first
    | rfl
    | omega

theorem masks_uclamp (clampMask : BitVec 16)
    (hmask : clampMask = laneMask (hi.sshiftRight 15 == md.sshiftRight 15) &&&
      laneMask (hi.sshiftRight 15 == hi)) :
    (~~~clampMask &&& laneMask (hi.sshiftRight 15 == 0#16)) ||| (clampMask &&& lo) =
      clampLow (words lo md hi) := by
  have hlo := lo.isLt
  have hmd := md.isLt
  have hhi := toInt_eq_cases hi
  have hsign : (hi.sshiftRight 15 == hi) = decide (hi.toNat = 0 ∨ hi.toNat = 0xFFFF) := by
    rw [Bool.eq_iff_iff, beq_iff_eq, decide_eq_true_iff, sshiftRight_fifteen, BitVec.toNat_eq,
      laneMask]
    by_cases h : 0x8000 ≤ hi.toNat
    · rw [decide_eq_true h, if_pos rfl, BitVec.toNat_ofNat]
      omega
    · rw [decide_eq_false h, if_neg (by simp), BitVec.toNat_ofNat]
      omega
  have hneg : (words lo md hi).toInt < 0 ↔ 0x8000 ≤ hi.toNat := by
    rw [toInt_words]
    omega
  have hfits : ((decide (0x8000 ≤ hi.toNat) == decide (0x8000 ≤ md.toNat)) &&
      decide (hi.toNat = 0 ∨ hi.toNat = 0xFFFF)) =
      decide (-0x8000 ≤ hi.toInt * 0x10000 + md.toNat ∧
        hi.toInt * 0x10000 + md.toNat ≤ 0x7FFF) := by
    rw [Bool.eq_iff_iff, Bool.and_eq_true, beq_iff_eq, decide_eq_decide, decide_eq_true_iff,
      decide_eq_true_iff]
    omega
  rw [hmask, hsign, sshiftRight_fifteen, sshiftRight_fifteen, laneMask_beq, laneMask_beq_zero,
    laneMask_and_laneMask, hfits, not_laneMask, laneMask_and, laneMask_and, clampLow,
    toInt_words_div, setWidth_words, if_congr hneg rfl rfl]
  by_cases h : -0x8000 ≤ hi.toInt * 0x10000 + md.toNat ∧ hi.toInt * 0x10000 + md.toNat ≤ 0x7FFF
  · simp [h]
  · rw [decide_eq_false h, if_neg h]
    by_cases hle : 0x8000 ≤ hi.toNat
    · simp [laneMask, hle]
    · simp [laneMask, hle]

theorem rspUclampAcc_apply (val accMd accHi : M128i) (i : Fin 8) :
    rspUclampAcc val accMd accHi rspVzero i = clampLow (words (val i) (accMd i) (accHi i)) :=
  masks_uclamp (val i) (accMd i) (accHi i) _ rfl

theorem rspSclampAccTomd_apply (accMd accHi : M128i) (i : Fin 8) :
    rspSclampAccTomd accMd accHi i =
      clampSigned ((words lo (accMd i) (accHi i)).toInt / 0x10000) := by
  rw [rspSclampAccTomd, packsEpi32_unpack, saturate_append lo]

theorem toInt_words_sign_div :
    (words lo md (md.sshiftRight 15)).toInt / 0x10000 = md.toInt := by
  have hmd := toInt_eq_cases md
  rw [toInt_words_div, sshiftRight_fifteen, laneMask]
  by_cases h : 0x8000 ≤ md.toNat
  · have hones : (0xFFFF#16).toInt = -1 := rfl
    rw [decide_eq_true h, if_pos rfl, hones]
    omega
  · rw [decide_eq_false h, if_neg (by simp), BitVec.toInt_zero]
    omega

theorem clampSigned_words_sign :
    clampSigned ((words lo md (md.sshiftRight 15)).toInt / 0x10000) = md := by
  obtain ⟨hlow, hhigh⟩ := toInt_bounds md
  rw [toInt_words_sign_div, clampSigned, min_eq_right hhigh, max_eq_right hlow, BitVec.ofInt_toInt]

theorem clampLow_words_sign : clampLow (words lo md (md.sshiftRight 15)) = lo := by
  rw [clampLow, toInt_words_sign_div, if_pos (toInt_bounds md), setWidth_words]

theorem clampUnsigned_words_sign :
    clampUnsigned ((words lo md (md.sshiftRight 15)).toInt / 0x10000) =
      ~~~(md.sshiftRight 15) &&& (md ||| md.sshiftRight 15) := by
  have hmd := toInt_eq_cases md
  have hhigh := (toInt_bounds md).2
  rw [toInt_words_sign_div, clampUnsigned, BitVec.ofInt_toInt, BitVec.or_comm,
    sshiftRight_fifteen, not_laneMask, laneMask_and, laneMask_or, ← decide_not]
  simp only [decide_eq_true_eq]
  split_ifs
  all_goals first
    | rfl
    | omega

theorem clampSigned_words_zero (h : md.toNat ≤ 0x8000) :
    clampSigned ((words lo md 0#16).toInt / 0x10000) = md + md.sshiftRight 15 := by
  rw [toInt_words_div, clampSigned, sshiftRight_fifteen, laneMask, BitVec.toInt_zero, zero_mul,
    zero_add]
  by_cases hle : 0x8000 ≤ md.toNat
  · have hlast : md = 0x8000#16 := BitVec.eq_of_toNat_eq (by rw [BitVec.toNat_ofNat]; omega)
    rw [hlast]
    rfl
  · rw [decide_eq_false hle, if_neg (by simp), BitVec.add_zero, min_eq_right (by omega),
      max_eq_right (by omega), BitVec.ofInt_natCast, BitVec.ofNat_toNat, BitVec.setWidth_eq]

theorem clampUnsigned_words_zero :
    clampUnsigned ((words lo md 0#16).toInt / 0x10000) = md ||| md.sshiftRight 15 := by
  have hlt := md.isLt
  rw [toInt_words_div, clampUnsigned, BitVec.toInt_zero, zero_mul, zero_add, if_neg (by omega),
    BitVec.ofInt_natCast, BitVec.ofNat_toNat, BitVec.setWidth_eq, BitVec.or_comm,
    sshiftRight_fifteen, laneMask_or]
  simp only [decide_eq_true_eq]
  split_ifs
  all_goals first
    | rfl
    | omega

end Stored

section Delivered

variable (vs vt : M128i) (acc : Acc) (i : Fin 8)

theorem delivered_vmulf :
    (rspVmulfVmulu vs vt rspVzero false).1 i =
        clampSigned (((rspVmulfVmulu vs vt rspVzero false).2.value i).toInt / 0x10000) ∧
      (rspVmulfVmulu vs vt rspVzero true).1 i =
        clampUnsigned (((rspVmulfVmulu vs vt rspVzero true).2.value i).toInt / 0x10000) := by
  obtain ⟨-, hhigh, -⟩ := mul_toInt_bounds (vs i) (vt i)
  obtain ⟨-, hmiddle⟩ := toNat_round _ _ (toNat_mul_eq_emod (vs i) (vt i))
    (toNat_mulhiEpi16 vs vt i)
  rw [Acc.value_eq_words, Acc.value_eq_words]
  simp only [rspVmulfVmulu, Bool.false_eq_true, if_false, if_true, addEpi16_apply,
    cmpeqEpi16_apply, rspVzero_apply, mulloEpi16_apply, slliEpi16_apply, srliEpi16_apply,
    sraiEpi16_apply, andSi128_apply, orSi128_apply, andnotSi128_apply]
  generalize laneMask (0#16 == 0#16) <<< 15 + (vs i * vt i + vs i * vt i) = lo
  generalize mulhiEpi16 vs vt i <<< 1 +
    ((vs i * vt i) >>> 15 + (vs i * vt i + vs i * vt i) >>> 15) = md at hmiddle ⊢
  rw [laneMask_and, not_laneMask, laneMask_and]
  by_cases hsame : vs i = vt i
  · have hsquare : 0 ≤ (vs i).toInt * (vt i).toInt := by
      rw [hsame]
      exact mul_self_nonneg _
    have hle : md.toNat ≤ 0x8000 := by omega
    rw [beq_iff_eq.mpr hsame, if_pos rfl, Bool.not_true, if_neg (by simp),
      clampSigned_words_zero lo md hle, clampUnsigned_words_zero]
    exact ⟨rfl, BitVec.allOnes_and⟩
  · rw [beq_eq_false_iff_ne.mpr hsame, if_neg (by simp), Bool.not_false, if_pos rfl,
      clampSigned_words_sign, clampUnsigned_words_sign]
    exact ⟨BitVec.add_zero md, rfl⟩

theorem delivered_vmacf :
    (rspVmacfVmacu vs vt rspVzero acc false).1 i =
        clampSigned (((rspVmacfVmacu vs vt rspVzero acc false).2.value i).toInt / 0x10000) ∧
      (rspVmacfVmacu vs vt rspVzero acc true).1 i =
        clampUnsigned (((rspVmacfVmacu vs vt rspVzero acc true).2.value i).toInt / 0x10000) :=
  ⟨rspSclampAccTomd_apply _ _ _ i, masks_vmacu _ _ _⟩

theorem delivered_vmudl : (rspVmadlVmudl vs vt rspVzero acc false).1 i =
    clampLow ((rspVmadlVmudl vs vt rspVzero acc false).2.value i) := by
  have hvalue : (rspVmadlVmudl vs vt rspVzero acc false).2.value i =
      words (mulhiEpu16 vs vt i) 0#16 ((0#16).sshiftRight 15) := rfl
  rw [hvalue, clampLow_words_sign]
  rfl

theorem delivered_vmudm : (rspVmadmVmudm vs vt rspVzero acc false).1 i =
    clampSigned (((rspVmadmVmudm vs vt rspVzero acc false).2.value i).toInt / 0x10000) := by
  have hsign : (rspVmadmVmudm vs vt rspVzero acc false).2.hi i =
      ((rspVmadmVmudm vs vt rspVzero acc false).2.md i).sshiftRight 15 := rfl
  rw [Acc.value_eq_words, hsign, clampSigned_words_sign]
  rfl

theorem delivered_vmudn : (rspVmadnVmudn vs vt rspVzero acc false).1 i =
    clampLow ((rspVmadnVmudn vs vt rspVzero acc false).2.value i) := by
  have hsign : (rspVmadnVmudn vs vt rspVzero acc false).2.hi i =
      ((rspVmadnVmudn vs vt rspVzero acc false).2.md i).sshiftRight 15 := rfl
  rw [Acc.value_eq_words, hsign, clampLow_words_sign]
  rfl

theorem delivered_vmadl : (rspVmadlVmudl vs vt rspVzero acc true).1 i =
    clampLow ((rspVmadlVmudl vs vt rspVzero acc true).2.value i) := by
  have hclamp : (rspVmadlVmudl vs vt rspVzero acc true).1 =
      rspUclampAcc (rspVmadlVmudl vs vt rspVzero acc true).2.lo
        (rspVmadlVmudl vs vt rspVzero acc true).2.md
        (rspVmadlVmudl vs vt rspVzero acc true).2.hi rspVzero := rfl
  rw [hclamp, rspUclampAcc_apply, Acc.value_eq_words]

theorem delivered_vmadn : (rspVmadnVmudn vs vt rspVzero acc true).1 i =
    clampLow ((rspVmadnVmudn vs vt rspVzero acc true).2.value i) := by
  have hclamp : (rspVmadnVmudn vs vt rspVzero acc true).1 =
      rspUclampAcc (rspVmadnVmudn vs vt rspVzero acc true).2.lo
        (rspVmadnVmudn vs vt rspVzero acc true).2.md
        (rspVmadnVmudn vs vt rspVzero acc true).2.hi rspVzero := rfl
  rw [hclamp, rspUclampAcc_apply, Acc.value_eq_words]

end Delivered

theorem MacOp.execute_delivers (op : MacOp) (vs vt : M128i) (acc : Acc) (i : Fin 8) :
    (op.execute vs vt acc).1 i = op.delivers ((op.execute vs vt acc).2.value i) := by
  cases op with
  | vmulf => exact (delivered_vmulf vs vt i).1
  | vmulu => exact (delivered_vmulf vs vt i).2
  | vmacf => exact (delivered_vmacf vs vt acc i).1
  | vmacu => exact (delivered_vmacf vs vt acc i).2
  | vmudl => exact delivered_vmudl vs vt acc i
  | vmudm => exact delivered_vmudm vs vt acc i
  | vmudn => exact delivered_vmudn vs vt acc i
  | vmudh => exact rspSclampAccTomd_apply _ _ _ i
  | vmadl => exact delivered_vmadl vs vt acc i
  | vmadm => exact rspSclampAccTomd_apply _ _ _ i
  | vmadn => exact delivered_vmadn vs vt acc i
  | vmadh => exact rspSclampAccTomd_apply _ _ _ i

theorem MacOp.execute_value (op : MacOp) (vs vt : M128i) (acc : Acc) (i : Fin 8) :
    (op.execute vs vt acc).2.value i = op.next (vs i) (vt i) (acc.value i) := by
  cases op with
  | vmulf => exact value_vmulf vs vt i false
  | vmulu => exact value_vmulf vs vt i true
  | vmacf => exact value_vmacf vs vt acc i false
  | vmacu => exact value_vmacf vs vt acc i true
  | vmudl => exact value_vmudl vs vt acc i
  | vmudm => exact value_vmudm vs vt acc i
  | vmudn => exact value_vmudn vs vt acc i
  | vmudh => exact value_vmudh vs vt acc i
  | vmadl => exact value_vmadl vs vt acc i
  | vmadm => exact value_vmadm vs vt acc i
  | vmadn => exact value_vmadn vs vt acc i
  | vmadh => exact value_vmadh vs vt acc i

/-- What a sequence of instructions stores in a lane, and the accumulator at its end, by numbers of
48 bits. -/
def runExact (i : Fin 8) : BitVec 48 → List MacInstr → List (BitVec 16) × BitVec 48
  | a, [] => ([], a)
  | a, instr :: instrs =>
    let a := instr.op.next (instr.vs i) (instr.vt i) a
    let (results, last) := runExact i a instrs
    (instr.op.delivers a :: results, last)

/-- Every sequence of instructions is exact in every lane. -/
theorem runMac_exact (instrs : List MacInstr) (acc : Acc) (i : Fin 8) :
    ((runMac acc instrs).1.map (· i), (runMac acc instrs).2.value i) =
      runExact i (acc.value i) instrs := by
  induction instrs generalizing acc with
  | nil => rfl
  | cons instr instrs ih =>
    have hrest := ih (instr.op.execute instr.vs instr.vt acc).2
    rw [instr.op.execute_value] at hrest
    rw [runExact, ← hrest, ← instr.op.execute_value, ← instr.op.execute_delivers]
    rfl

end ParallelN64.Rsp
