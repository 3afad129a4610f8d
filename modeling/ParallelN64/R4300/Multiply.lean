import ParallelN64.Core.WideProduct

/-!
# Products of doublewords

`DMULT` and `DMULTU` assemble a product of 128 bits from four products of 32-bit halves. The signed
one multiplies magnitudes and negates the product over both registers. A magnitude is a negation
on 64 bits, so that of the least doubleword is itself.
-/

namespace ParallelN64.R4300

open ParallelN64.Core

abbrev Dword := BitVec 64

/-- The registers of a product. -/
structure HiLo where
  hi : Dword
  lo : Dword

def HiLo.whole (p : HiLo) : BitVec 128 := p.hi ++ p.lo

def lowHalf (x : Dword) : Dword := x &&& 0xFFFFFFFF#64

/-- What an instruction computes from the halves of its operands. -/
structure PartialSums where
  temp1 : Dword
  temp2 : Dword
  temp3 : Dword
  temp4 : Dword
  result1 : Dword
  result2 : Dword
  result3 : Dword
  result4 : Dword

/-- The sums of the halves `op1` and `op2` of one operand and `op3` and `op4` of the other. -/
def partialSums (op1 op2 op3 op4 : Dword) : PartialSums :=
  let temp1 := op1 * op3
  let temp2 := (temp1 >>> 32) + op1 * op4
  let temp3 := op2 * op3
  let temp4 := (temp3 >>> 32) + op2 * op4
  let result1 := lowHalf temp1
  let result2 := temp2 + lowHalf temp3
  let result3 := (result2 >>> 32) + temp4
  let result4 := result3 >>> 32
  ⟨temp1, temp2, temp3, temp4, result1, result2, result3, result4⟩

def PartialSums.hiLo (p : PartialSums) : HiLo where
  hi := lowHalf p.result3 ||| (p.result4 <<< 32)
  lo := p.result1 ||| (p.result2 <<< 32)

/-- The sums of `DMULTU`. The upper halves come from signed shifts. -/
def dmultuSums (rs rt : Dword) : PartialSums :=
  partialSums (lowHalf rs) (lowHalf (rs.sshiftRight 32)) (lowHalf rt)
    (lowHalf (rt.sshiftRight 32))

def dmultu (rs rt : Dword) : HiLo := (dmultuSums rs rt).hiLo

/-- The operand of `DMULT` without its sign. -/
def magnitude (x : Dword) : Dword := if x.toInt < 0 then -x else x

/-- The sums of `DMULT`. -/
def dmultSums (rs rt : Dword) : PartialSums :=
  let op2 := magnitude rs
  let op4 := magnitude rt
  partialSums (lowHalf op2) (lowHalf (op2 >>> 32)) (lowHalf op4) (lowHalf (op4 >>> 32))

def dmult (rs rt : Dword) : HiLo :=
  let p := (dmultSums rs rt).hiLo
  -- `sign` is set when exactly one operand is negative.
  if (rs.toInt < 0) ≠ (rt.toInt < 0) then
    let hi := ~~~p.hi
    if p.lo = 0#64 then ⟨hi + 1#64, p.lo⟩ else ⟨hi, ~~~p.lo + 1#64⟩
  else p

/-- No product and no sum of the halves wraps. -/
structure PartialSums.Exact (p : PartialSums) (op1 op2 op3 op4 : Nat) : Prop where
  temp1 : p.temp1.toNat = op1 * op3
  temp2 : p.temp2.toNat = p.temp1.toNat / 2 ^ 32 + op1 * op4
  temp3 : p.temp3.toNat = op2 * op3
  temp4 : p.temp4.toNat = p.temp3.toNat / 2 ^ 32 + op2 * op4
  result1 : p.result1.toNat = p.temp1.toNat % 2 ^ 32
  result2 : p.result2.toNat = p.temp2.toNat + p.temp3.toNat % 2 ^ 32
  result3 : p.result3.toNat = p.result2.toNat / 2 ^ 32 + p.temp4.toNat
  result4 : p.result4.toNat = p.result3.toNat / 2 ^ 32

variable (x rs rt : Dword)

theorem toNat_lowHalf : (lowHalf x).toNat = x.toNat % 2 ^ 32 := by
  rw [lowHalf, BitVec.toNat_and]
  exact Nat.and_two_pow_sub_one_eq_mod x.toNat 32

theorem toNat_upperHalf : (x >>> 32).toNat = x.toNat / 2 ^ 32 := by
  rw [BitVec.toNat_ushiftRight, Nat.shiftRight_eq_div_pow]

theorem lowHalf_lt : (lowHalf x).toNat < 2 ^ 32 := by
  rw [toNat_lowHalf]
  exact Nat.mod_lt _ (by decide)

theorem upperHalf_lt : (x >>> 32).toNat < 2 ^ 32 := by
  have hlt := x.isLt
  rw [toNat_upperHalf]
  omega

theorem toNat_mul_half {x y : Dword} (hx : x.toNat < 2 ^ 32) (hy : y.toNat < 2 ^ 32) :
    (x * y).toNat = x.toNat * y.toNat := by
  have hlt := limb_mul_add_lt hx hy (c := 0) (d := 0) (by omega) (by omega)
  rw [BitVec.toNat_mul, Nat.mod_eq_of_lt (by omega)]

theorem toNat_add_mul_add {c x y d : Dword} (hc : c.toNat < 2 ^ 32) (hx : x.toNat < 2 ^ 32)
    (hy : y.toNat < 2 ^ 32) (hd : d.toNat < 2 ^ 32) :
    (c + x * y).toNat = c.toNat + x.toNat * y.toNat ∧
      (c + x * y + d).toNat = (c + x * y).toNat + d.toNat := by
  have hlt := limb_mul_add_lt hx hy hc hd
  have hsum : (c + x * y).toNat = c.toNat + x.toNat * y.toNat := by
    rw [BitVec.toNat_add, toNat_mul_half hx hy, Nat.mod_eq_of_lt (by omega)]
  refine ⟨hsum, ?_⟩
  rw [BitVec.toNat_add, hsum, Nat.mod_eq_of_lt (by omega)]

theorem partialSums_exact {op1 op2 op3 op4 : Dword} (h1 : op1.toNat < 2 ^ 32)
    (h2 : op2.toNat < 2 ^ 32) (h3 : op3.toNat < 2 ^ 32) (h4 : op4.toNat < 2 ^ 32) :
    (partialSums op1 op2 op3 op4).Exact op1.toNat op2.toNat op3.toNat op4.toNat := by
  have hlow := toNat_add_mul_add (upperHalf_lt (op1 * op3)) h1 h4 (lowHalf_lt (op2 * op3))
  have hhigh := toNat_add_mul_add (upperHalf_lt (op2 * op3)) h2 h4
    (upperHalf_lt ((op1 * op3) >>> 32 + op1 * op4 + lowHalf (op2 * op3)))
  exact
    { temp1 := toNat_mul_half h1 h3
      temp2 := by rw [← toNat_upperHalf]; exact hlow.1
      temp3 := toNat_mul_half h2 h3
      temp4 := by rw [← toNat_upperHalf]; exact hhigh.1
      result1 := toNat_lowHalf _
      result2 := by rw [← toNat_lowHalf]; exact hlow.2
      result3 := by
        rw [← toNat_upperHalf, Nat.add_comm]
        exact (congrArg BitVec.toNat (BitVec.add_comm _ _)).trans hhigh.2
      result4 := toNat_upperHalf _ }

theorem toNat_or_shift {x y : Dword} (hx : x.toNat < 2 ^ 32) :
    (x ||| (y <<< 32)).toNat = y.toNat % 2 ^ 32 * 2 ^ 32 + x.toNat := by
  have hshift : (y <<< 32).toNat = y.toNat % 2 ^ 32 * 2 ^ 32 := by
    rw [BitVec.toNat_shiftLeft, Nat.shiftLeft_eq]
    omega
  rw [BitVec.toNat_or, hshift, Nat.or_comm, ← Nat.shiftLeft_eq,
    Nat.shiftLeft_add_eq_or_of_lt hx]

theorem PartialSums.Exact.toNat_whole {p : PartialSums} {op1 op2 op3 op4 : Nat}
    (h : p.Exact op1 op2 op3 op4) :
    p.hiLo.whole.toNat = (op2 * 2 ^ 32 + op1) * (op4 * 2 ^ 32 + op3) := by
  have hresult1 : p.result1.toNat < 2 ^ 32 := by
    rw [h.result1]
    exact Nat.mod_lt _ (by decide)
  have hlo : p.hiLo.lo.toNat = p.result2.toNat % 2 ^ 32 * 2 ^ 32 + p.result1.toNat :=
    toNat_or_shift hresult1
  have hhi : p.hiLo.hi.toNat = p.result3.toNat := by
    have hlt := p.result3.isLt
    rw [PartialSums.hiLo, toNat_or_shift (lowHalf_lt _), toNat_lowHalf, h.result4]
    omega
  have hlimbs := limbs_mul op1 op2 op3 op4 (2 ^ 32)
  rw [← h.temp1, ← h.temp3, ← h.temp2, ← h.temp4, ← h.result1, ← h.result2, ← h.result3]
    at hlimbs
  rw [HiLo.whole, toNat_append, hhi, hlo, ← hlimbs]
  ring

theorem halves_add : (x >>> 32).toNat * 2 ^ 32 + (lowHalf x).toNat = x.toNat := by
  rw [toNat_upperHalf, toNat_lowHalf]
  omega

theorem lowHalf_sshiftRight : lowHalf (x.sshiftRight 32) = x >>> 32 := by
  have hmask : 0xFFFFFFFF#64 = (BitVec.allOnes 32).setWidth 64 := rfl
  apply BitVec.eq_of_getLsbD_eq
  intro i hi
  rw [lowHalf, hmask, BitVec.getLsbD_and, BitVec.getLsbD_setWidth, BitVec.getLsbD_allOnes,
    BitVec.getLsbD_sshiftRight, BitVec.getLsbD_ushiftRight]
  by_cases hlow : 32 + i < 64
  · simp [hi, hlow, show i < 32 by omega]
  · rw [BitVec.getLsbD_of_ge x (32 + i) (by omega)]
    simp [show ¬ i < 32 by omega]

theorem lowHalf_upperHalf : lowHalf (x >>> 32) = x >>> 32 := by
  apply BitVec.eq_of_toNat_eq
  rw [toNat_lowHalf, Nat.mod_eq_of_lt (upperHalf_lt x)]

theorem partialSums_halves (y : Dword) :
    (partialSums (lowHalf x) (x >>> 32) (lowHalf y) (y >>> 32)).Exact (lowHalf x).toNat
      (x >>> 32).toNat (lowHalf y).toNat (y >>> 32).toNat :=
  partialSums_exact (lowHalf_lt x) (upperHalf_lt x) (lowHalf_lt y) (upperHalf_lt y)

theorem toNat_whole_halves (y : Dword) :
    (partialSums (lowHalf x) (x >>> 32) (lowHalf y) (y >>> 32)).hiLo.whole.toNat =
      x.toNat * y.toNat := by
  rw [(partialSums_halves x y).toNat_whole, halves_add, halves_add]

theorem dmultuSums_eq :
    dmultuSums rs rt = partialSums (lowHalf rs) (rs >>> 32) (lowHalf rt) (rt >>> 32) := by
  rw [dmultuSums, lowHalf_sshiftRight, lowHalf_sshiftRight]

theorem dmultSums_eq :
    dmultSums rs rt = partialSums (lowHalf (magnitude rs)) (magnitude rs >>> 32)
      (lowHalf (magnitude rt)) (magnitude rt >>> 32) := by
  simp only [dmultSums, lowHalf_upperHalf]

theorem toNat_dmultu : (dmultu rs rt).whole.toNat = rs.toNat * rt.toNat := by
  rw [dmultu, dmultuSums_eq, toNat_whole_halves]

theorem toNat_magnitude : (magnitude x).toNat = x.toInt.natAbs := by
  have hlt := x.isLt
  rw [magnitude]
  split_ifs with hneg
  · rw [BitVec.toInt_eq_toNat_cond] at hneg ⊢
    rw [BitVec.toNat_neg]
    split_ifs at hneg ⊢ with hsmall
    · omega
    · omega
  · rw [BitVec.toInt_eq_toNat_cond] at hneg ⊢
    split_ifs at hneg ⊢ with hsmall
    · omega
    · omega

theorem whole_dmult :
    (dmult rs rt).whole =
      if (rs.toInt < 0) ≠ (rt.toInt < 0) then -(dmultSums rs rt).hiLo.whole
      else (dmultSums rs rt).hiLo.whole := by
  by_cases hsign : (rs.toInt < 0) ≠ (rt.toInt < 0)
  · have hneg := neg_append (dmultSums rs rt).hiLo.hi (dmultSums rs rt).hiLo.lo
    simp only [dmult, if_pos hsign, HiLo.whole]
    split_ifs at hneg ⊢ with hzero
    · exact hneg.symm
    · exact hneg.symm
  · simp only [dmult, if_neg hsign]

theorem toInt_dmult : (dmult rs rt).whole.toInt = rs.toInt * rt.toInt := by
  have hprod : (dmultSums rs rt).hiLo.whole.toNat = (rs.toInt * rt.toInt).natAbs := by
    rw [dmultSums_eq, toNat_whole_halves, toNat_magnitude, toNat_magnitude, Int.natAbs_mul]
  have hsmall : (rs.toInt * rt.toInt).natAbs ≤ 2 ^ 63 * 2 ^ 63 := by
    have hrs := BitVec.le_toInt rs
    have hrs' := BitVec.toInt_lt (x := rs)
    have hrt := BitVec.le_toInt rt
    have hrt' := BitVec.toInt_lt (x := rt)
    rw [Int.natAbs_mul]
    exact Nat.mul_le_mul (by omega) (by omega)
  have hwhole : (dmultSums rs rt).hiLo.whole.toInt = ((rs.toInt * rt.toInt).natAbs : Int) := by
    rw [BitVec.toInt_eq_toNat_of_lt (by omega), hprod]
  rw [whole_dmult]
  split_ifs with hsign
  · have hneg : rs.toInt * rt.toInt ≤ 0 := by
      by_cases hrs : rs.toInt < 0
      · have hrt : 0 ≤ rt.toInt := by
          by_contra hlt
          exact hsign (propext (iff_of_true hrs (by omega)))
        exact mul_nonpos_of_nonpos_of_nonneg hrs.le hrt
      · have hrt : rt.toInt < 0 := by
          by_contra hge
          exact hsign (propext (iff_of_false hrs hge))
        exact mul_nonpos_of_nonneg_of_nonpos (by omega) hrt.le
    rw [BitVec.toInt_neg, hwhole, Int.bmod_eq_of_le (by omega) (by omega)]
    omega
  · have hpos : 0 ≤ rs.toInt * rt.toInt := by
      have hiff : rs.toInt < 0 ↔ rt.toInt < 0 := iff_of_eq (not_not.mp hsign)
      by_cases hrs : rs.toInt < 0
      · exact mul_nonneg_of_nonpos_of_nonpos hrs.le (hiff.mp hrs).le
      · exact mul_nonneg (by omega) (by have := mt hiff.mpr hrs; omega)
    rw [hwhole]
    omega

/-- `DMULTU` and `DMULT` give the product in 128 bits, unsigned and signed, and none of their
products and sums of halves wraps. -/
theorem doubleword_products_exact (rs rt : Dword) :
    (dmultu rs rt).whole.toNat = rs.toNat * rt.toNat ∧
      (dmult rs rt).whole.toInt = rs.toInt * rt.toInt ∧
      (dmultuSums rs rt).Exact (lowHalf rs).toNat (rs >>> 32).toNat (lowHalf rt).toNat
        (rt >>> 32).toNat ∧
      (dmultSums rs rt).Exact (lowHalf (magnitude rs)).toNat (magnitude rs >>> 32).toNat
        (lowHalf (magnitude rt)).toNat (magnitude rt >>> 32).toNat := by
  rw [dmultuSums_eq, dmultSums_eq]
  exact ⟨toNat_dmultu rs rt, toInt_dmult rs rt, partialSums_halves _ _, partialSums_halves _ _⟩

/-- The least doubleword by itself. -/
example : dmult 0x8000000000000000#64 0x8000000000000000#64 = ⟨0x4000000000000000#64, 0#64⟩ := by
  rfl

end ParallelN64.R4300
