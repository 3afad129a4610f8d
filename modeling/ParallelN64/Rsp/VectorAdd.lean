import ParallelN64.Rsp.VectorExact

/-!
# Adding vectors in two cores

Both cores add three numbers with operations that add two and saturate. One core has its carries as
masks, the other as ones and zeros.
-/

namespace ParallelN64.Rsp

section Vectors

variable (a b : M128i)

/-- `_mm_adds_epi16`. -/
def addsEpi16 : M128i := fun i => clampSigned ((a i).toInt + (b i).toInt)

/-- `_mm_subs_epi16`. -/
def subsEpi16 : M128i := fun i => clampSigned ((a i).toInt - (b i).toInt)

/-- `_mm_subs_epu16`. -/
def subsEpu16 : M128i := fun i => if (b i).toNat ≤ (a i).toNat then a i - b i else 0#16

/-- `_mm_min_epi16`. -/
def minEpi16 : M128i := fun i => if (a i).slt (b i) then a i else b i

/-- `_mm_max_epi16`. -/
def maxEpi16 : M128i := fun i => if (a i).slt (b i) then b i else a i

/-- `_mm_xor_si128`. -/
def xorSi128 : M128i := fun i => a i ^^^ b i

end Vectors

/-- The instructions that add. -/
inductive AddOp where
  | vadd | vsub | vabs | vaddc | vsubc
  deriving DecidableEq, Repr

/-- What an instruction leaves: the destination, the low words of the accumulators, the carries
and the flags of inequality. -/
@[ext] structure AddOutcome where
  result : M128i
  accLo : M128i
  co : M128i
  ne : M128i

section Parallel

variable (vs vt carry zero : M128i)

/-- `rsp_vadd`. -/
def rspVadd : M128i × M128i :=
  let vd := addEpi16 vs vt
  let accLo := subEpi16 vd carry
  let minimum := minEpi16 vs vt
  let maximum := maxEpi16 vs vt
  let minimum := subsEpi16 minimum carry
  (addsEpi16 minimum maximum, accLo)

/-- `rsp_vsub`. -/
def rspVsub : M128i × M128i :=
  let unsatDiff := subEpi16 vt carry
  let satDiff := subsEpi16 vt carry
  let accLo := subEpi16 vs unsatDiff
  let vd := subsEpi16 vs satDiff
  let overflow := cmpgtEpi16 satDiff unsatDiff
  (addsEpi16 vd overflow, accLo)

/-- `rsp_vabs`. -/
def rspVabs : M128i × M128i :=
  let vsZero := cmpeqEpi16 vs rspVzero
  let signLt := sraiEpi16 vs 15
  let vd := andnotSi128 vsZero vt
  let vd := xorSi128 vd signLt
  (subsEpi16 vd signLt, subEpi16 vd signLt)

/-- `rsp_vaddc`: the sum and its carry. -/
def rspVaddc : M128i × M128i :=
  let satSum := addsEpu16 vs vt
  let unsatSum := addEpi16 vs vt
  let sn := cmpeqEpi16 satSum unsatSum
  (unsatSum, cmpeqEpi16 sn zero)

/-- `rsp_vsubc`: the difference, its flag and its borrow. -/
def rspVsubc : M128i × M128i × M128i :=
  let satUdiff := subsEpu16 vs vt
  let equal := cmpeqEpi16 vs vt
  let satUdiffZero := cmpeqEpi16 satUdiff zero
  (subEpi16 vs vt, cmpeqEpi16 equal zero, andnotSi128 equal satUdiffZero)

/-- `RSP_VADD` and the others. -/
def AddOp.execute (op : AddOp) (vs vt co ne : M128i) : AddOutcome :=
  match op with
  | vadd => ⟨(rspVadd vs vt co).1, (rspVadd vs vt co).2, rspVzero, rspVzero⟩
  | vsub => ⟨(rspVsub vs vt co).1, (rspVsub vs vt co).2, rspVzero, rspVzero⟩
  | vabs => ⟨(rspVabs vs vt).1, (rspVabs vs vt).2, co, ne⟩
  | vaddc =>
    let (result, sn) := rspVaddc vs vt rspVzero
    ⟨result, result, sn, rspVzero⟩
  | vsubc =>
    let (result, eq, sn) := rspVsubc vs vt rspVzero
    ⟨result, result, sn, eq⟩

end Parallel

section Cxd4

variable (vs vt co ne : M128i)

/-- `SIGNED_CLAMP_ADD`. -/
def signedClampAdd : M128i :=
  let max := maxEpi16 vt vs
  let min := minEpi16 vt vs
  let min := addsEpi16 min co
  addsEpi16 max min

/-- `SIGNED_CLAMP_SUB`. -/
def signedClampSub : M128i :=
  let res := subsEpi16 vs vt
  let dif := addEpi16 res co
  let dif := xorSi128 dif res
  let dif := andSi128 dif vt
  let xmm := subEpi16 vs vt
  let src := andnotSi128 vs dif
  let xmm := andSi128 xmm src
  let xmm := srliEpi16 xmm 15
  let xmm := andnotSi128 xmm co
  subsEpi16 res xmm

/-- `clr_ci`. -/
def clrCi : AddOutcome where
  result := signedClampAdd vs vt co
  accLo i := vs i + vt i + co i
  co := rspVzero
  ne := rspVzero

/-- `clr_bi`. -/
def clrBi : AddOutcome where
  result := signedClampSub vs vt co
  accLo i := vs i - vt i - co i
  co := rspVzero
  ne := rspVzero

def flagWord (p : Bool) : BitVec 16 := if p then 1#16 else 0#16

/-- `do_abs`. -/
def doAbs : AddOutcome :=
  let res : M128i := fun i =>
    let cch := flagWord (vt i == 0x8000#16)
    let neg := flagWord ((vs i).slt 0#16)
    let pos := flagWord ((0#16).slt (vs i))
    let nez := 0#16 - neg + pos
    vt i * nez - cch
  ⟨res, res, co, ne⟩

/-- `set_co`. -/
def setCo : AddOutcome where
  result i := vs i + vt i
  accLo i := vs i + vt i
  co i := BitVec.ofNat 16 (((vs i).toNat + (vt i).toNat) >>> 16)
  ne := rspVzero

/-- `set_bo`. -/
def setBo : AddOutcome where
  result i := vs i - vt i
  accLo i := vs i - vt i
  co i := flagWord (((vs i).toNat : Int) - (vt i).toNat < 0)
  ne i := flagWord (vs i != vt i)

/-- `VADD` and the others. -/
def AddOp.executeCxd4 (op : AddOp) (vs vt co ne : M128i) : AddOutcome :=
  match op with
  | vadd => clrCi vs vt co
  | vsub => clrBi vs vt co
  | vabs => doAbs vs vt co ne
  | vaddc => setCo vs vt
  | vsubc => setBo vs vt

end Cxd4

/-- An instruction with the operands it has loaded. -/
structure AddInstr where
  op : AddOp
  vs : M128i
  vt : M128i

/-- What the instructions of a sequence leave, one after the other. -/
def runAdd (execute : AddOp → M128i → M128i → M128i → M128i → AddOutcome) :
    M128i → M128i → List AddInstr → List AddOutcome
  | _, _, [] => []
  | co, ne, instr :: instrs =>
    let outcome := execute instr.op instr.vs instr.vt co ne
    outcome :: runAdd execute outcome.co outcome.ne instrs

/-- What an instruction should leave, with its flags as they are meant. -/
structure ExactOutcome where
  result : M128i
  accLo : M128i
  co : Fin 8 → Bool
  ne : Fin 8 → Bool

/-- The number that an instruction delivers in a lane. -/
def AddOp.number (op : AddOp) (s t : BitVec 16) (c : Bool) : Int :=
  match op with
  | vadd => s.toInt + t.toInt + c.toNat
  | vsub => s.toInt - t.toInt - c.toNat
  | vabs => t.toInt * s.toInt.sign
  | vaddc => s.toNat + t.toNat
  | vsubc => s.toNat - t.toNat

/-- The destination saturates but for the instructions that set a carry. -/
def AddOp.exact (op : AddOp) (vs vt : M128i) (co ne : Fin 8 → Bool) : ExactOutcome where
  result i :=
    let number := op.number (vs i) (vt i) (co i)
    match op with
    | vadd | vsub | vabs => clampSigned number
    | vaddc | vsubc => BitVec.ofInt 16 number
  accLo i := BitVec.ofInt 16 (op.number (vs i) (vt i) (co i))
  co i :=
    match op with
    | vadd | vsub => false
    | vabs => co i
    | vaddc => 0xFFFF < op.number (vs i) (vt i) false
    | vsubc => op.number (vs i) (vt i) false < 0
  ne i :=
    match op with
    | vadd | vsub | vaddc => false
    | vabs => ne i
    | vsubc => vs i != vt i

def runExactAdd : (Fin 8 → Bool) → (Fin 8 → Bool) → List AddInstr → List ExactOutcome
  | _, _, [] => []
  | co, ne, instr :: instrs =>
    let outcome := instr.op.exact instr.vs instr.vt co ne
    outcome :: runExactAdd outcome.co outcome.ne instrs

/-- Flags as a core has them. -/
def ExactOutcome.encode (flag : Bool → BitVec 16) (outcome : ExactOutcome) : AddOutcome where
  result := outcome.result
  accLo := outcome.accLo
  co i := flag (outcome.co i)
  ne i := flag (outcome.ne i)

/-- The cores agree on a sequence, and what they leave is exact. -/
def AddFamiliesExact (co ne : Fin 8 → Bool) (instrs : List AddInstr) : Prop :=
  runAdd AddOp.execute (fun i => laneMask (co i)) (fun i => laneMask (ne i)) instrs =
      (runExactAdd co ne instrs).map (ExactOutcome.encode laneMask) ∧
    runAdd AddOp.executeCxd4 (fun i => flagWord (co i)) (fun i => flagWord (ne i)) instrs =
      (runExactAdd co ne instrs).map (ExactOutcome.encode flagWord)

section Words

variable (a b : M128i) (i : Fin 8) (x y : BitVec 16) (p : Bool)

theorem toInt_clampSigned (z : Int) : (clampSigned z).toInt = max (-0x8000) (min 0x7FFF z) := by
  rw [clampSigned, BitVec.toInt_ofInt]
  exact Int.bmod_eq_of_le (by norm_num) (by norm_num)

theorem clampSigned_congr {z w : Int}
    (h : max (-0x8000) (min 0x7FFF z) = max (-0x8000) (min 0x7FFF w)) :
    clampSigned z = clampSigned w := by
  rw [clampSigned, clampSigned, h]

theorem toInt_laneMask : (laneMask p).toInt = -(p.toNat : Int) := by
  cases p <;> rfl

theorem toInt_flagWord : (flagWord p).toInt = p.toNat := by
  cases p <;> rfl

theorem toInt_minEpi16 : (minEpi16 a b i).toInt = min (a i).toInt (b i).toInt := by
  have h := BitVec.slt_iff_toInt_lt (x := a i) (y := b i)
  rw [minEpi16]
  split
  · have := h.mp (by assumption)
    omega
  · have := mt h.mpr (by assumption)
    omega

theorem toInt_maxEpi16 : (maxEpi16 a b i).toInt = max (a i).toInt (b i).toInt := by
  have h := BitVec.slt_iff_toInt_lt (x := a i) (y := b i)
  rw [maxEpi16]
  split
  · have := h.mp (by assumption)
    omega
  · have := mt h.mpr (by assumption)
    omega

theorem ofInt_sub (z w : Int) :
    BitVec.ofInt 16 (z - w) = BitVec.ofInt 16 z - BitVec.ofInt 16 w := by
  rw [Int.sub_eq_add_neg, BitVec.ofInt_add, BitVec.ofInt_neg, BitVec.sub_eq_add_neg]

theorem ofInt_toNat : BitVec.ofInt 16 (p.toNat : Int) = flagWord p := by
  cases p <;> rfl

theorem sub_laneMask_eq_add : x - laneMask p = x + flagWord p := by
  rw [BitVec.sub_eq_add_neg]
  cases p <;> rfl

theorem toInt_add_flagWord : (x + flagWord p).toInt =
    if x.toInt + p.toNat = 0x8000 then -0x8000 else x.toInt + p.toNat := by
  obtain ⟨hle, hge⟩ := toInt_bounds x
  have hp : p.toNat ≤ 1 := Bool.toNat_le p
  rw [BitVec.toInt_add, toInt_flagWord, Int.bmod]
  split <;> split <;> omega

theorem ushiftRight_fifteen : x >>> 15 = flagWord x.msb := by
  have hx := x.isLt
  have hmsb := BitVec.msb_eq_decide x
  apply BitVec.eq_of_toNat_eq
  rw [BitVec.toNat_ushiftRight, Nat.shiftRight_eq_div_pow, hmsb, flagWord]
  by_cases h : 2 ^ (16 - 1) ≤ x.toNat
  · rw [decide_eq_true h, if_pos rfl]
    exact show x.toNat / 2 ^ 15 = 1 by omega
  · rw [decide_eq_false h, if_neg Bool.false_ne_true]
    exact show x.toNat / 2 ^ 15 = 0 by omega

end Words

section Each

variable (vs vt : M128i) (co ne : Fin 8 → Bool) (i : Fin 8)

theorem ofInt_toInt_add (x y : BitVec 16) : BitVec.ofInt 16 (x.toInt + y.toInt) = x + y := by
  rw [BitVec.ofInt_add, BitVec.ofInt_toInt, BitVec.ofInt_toInt]

theorem ofInt_toInt_sub (x y : BitVec 16) : BitVec.ofInt 16 (x.toInt - y.toInt) = x - y := by
  rw [ofInt_sub, BitVec.ofInt_toInt, BitVec.ofInt_toInt]

theorem clampSigned_add (s t : BitVec 16) (p : Bool) :
    clampSigned (max (-0x8000) (min 0x7FFF (min s.toInt t.toInt + p.toNat)) +
      max s.toInt t.toInt) = clampSigned (s.toInt + t.toInt + p.toNat) := by
  have hs := toInt_bounds s
  have ht := toInt_bounds t
  have hp := Bool.toNat_le p
  apply clampSigned_congr
  omega

theorem rspVadd_exact : rspVadd vs vt (fun i => laneMask (co i)) =
    ((AddOp.vadd.exact vs vt co ne).result, (AddOp.vadd.exact vs vt co ne).accLo) := by
  refine Prod.ext (funext fun i => ?_) (funext fun i => ?_)
  · change clampSigned ((clampSigned ((minEpi16 vs vt i).toInt - (laneMask (co i)).toInt)).toInt +
      (maxEpi16 vs vt i).toInt) = clampSigned _
    rw [toInt_clampSigned, toInt_minEpi16, toInt_maxEpi16, toInt_laneMask, sub_neg_eq_add]
    exact clampSigned_add _ _ _
  · change vs i + vt i - laneMask (co i) = BitVec.ofInt 16 (_ + _ + _)
    rw [BitVec.ofInt_add, ofInt_toInt_add, ofInt_toNat, sub_laneMask_eq_add]

theorem rspVsub_exact : rspVsub vs vt (fun i => laneMask (co i)) =
    ((AddOp.vsub.exact vs vt co ne).result, (AddOp.vsub.exact vs vt co ne).accLo) := by
  refine Prod.ext (funext fun i => ?_) (funext fun i => ?_)
  · change clampSigned ((clampSigned ((vs i).toInt -
      (clampSigned ((vt i).toInt - (laneMask (co i)).toInt)).toInt)).toInt +
      (laneMask ((vt i - laneMask (co i)).slt
        (clampSigned ((vt i).toInt - (laneMask (co i)).toInt)))).toInt) = clampSigned _
    have hs := toInt_bounds (vs i)
    have ht := toInt_bounds (vt i)
    have hp := Bool.toNat_le (co i)
    -- Only the highest word saturates when the carry is added to it.
    have hoverflow : ((vt i - laneMask (co i)).slt
        (clampSigned ((vt i).toInt - (laneMask (co i)).toInt))).toNat =
          if (vt i).toInt + (co i).toNat = 0x8000 then 1 else 0 := by
      rw [BitVec.slt_eq_decide, toInt_clampSigned, toInt_laneMask, sub_laneMask_eq_add,
        toInt_add_flagWord]
      split
      · rw [decide_eq_true (by omega)]
        rfl
      · rw [decide_eq_false (by omega)]
        rfl
    rw [toInt_laneMask ((vt i - _).slt _), hoverflow, toInt_clampSigned, toInt_clampSigned,
      toInt_laneMask]
    apply clampSigned_congr
    rw [AddOp.number]
    split <;> omega
  · change vs i - (vt i - laneMask (co i)) = BitVec.ofInt 16 (_ - _ - _)
    rw [ofInt_sub, ofInt_toInt_sub, ofInt_toNat, sub_laneMask_eq_add, sub_add_eq_sub_sub]

theorem sign_cases (s : BitVec 16) :
    s.toInt < 0 ∧ s.toInt.sign = -1 ∧ 0x8000 ≤ s.toNat ∧ (s == 0#16) = false ∨
      s = 0#16 ∨
        0 < s.toInt ∧ s.toInt.sign = 1 ∧ s.toNat < 0x8000 ∧ (s == 0#16) = false := by
  have hs := toInt_eq_cases s
  by_cases hzero : s = 0#16
  · exact .inr (.inl hzero)
  have hnat : s.toNat ≠ 0 := fun h => hzero (BitVec.eq_of_toNat_eq h)
  have hbeq : (s == 0#16) = false := beq_eq_false_iff_ne.mpr hzero
  rcases hs with ⟨hint, hlt⟩ | ⟨hint, hge⟩
  · have hpos : 0 < s.toInt := by omega
    exact .inr (.inr ⟨hpos, Int.sign_eq_one_of_pos hpos, hlt, hbeq⟩)
  · have hneg : s.toInt < 0 := by
      have := s.isLt
      omega
    exact .inl ⟨hneg, Int.sign_eq_neg_one_of_neg hneg, hge, hbeq⟩

theorem toInt_not_word (x : BitVec 16) : (~~~x).toInt = -x.toInt - 1 := by
  have hx := toInt_eq_cases x
  have hnot := toInt_eq_cases (~~~x)
  rw [BitVec.toNat_not] at hnot
  omega

theorem rspVabs_exact : rspVabs vs vt =
    ((AddOp.vabs.exact vs vt co ne).result, (AddOp.vabs.exact vs vt co ne).accLo) := by
  have hresult (i : Fin 8) : (rspVabs vs vt).1 i =
      clampSigned (((~~~laneMask (vs i == 0#16) &&& vt i) ^^^ (vs i).sshiftRight 15).toInt -
        ((vs i).sshiftRight 15).toInt) := rfl
  have hacc (i : Fin 8) : (rspVabs vs vt).2 i =
      ((~~~laneMask (vs i == 0#16) &&& vt i) ^^^ (vs i).sshiftRight 15) -
        (vs i).sshiftRight 15 := rfl
  refine Prod.ext (funext fun i => (hresult i).trans ?_) (funext fun i => (hacc i).trans ?_)
  · change _ = clampSigned ((vt i).toInt * (vs i).toInt.sign)
    rcases sign_cases (vs i) with ⟨-, hsign, hge, hne⟩ | hzero | ⟨-, hsign, hlt, hne⟩
    · rw [sshiftRight_fifteen, decide_eq_true hge, hne, hsign]
      change clampSigned ((_ ^^^ BitVec.allOnes 16).toInt - -1) = _
      rw [BitVec.xor_allOnes, not_laneMask, Bool.not_false, laneMask_and, if_pos rfl,
        toInt_not_word]
      exact congrArg clampSigned (by ring)
    · rw [hzero]
      simp [laneMask, clampSigned]
    · rw [sshiftRight_fifteen, decide_eq_false (by omega), hne, hsign]
      change clampSigned ((_ ^^^ 0#16).toInt - 0) = _
      rw [BitVec.xor_zero, not_laneMask, Bool.not_false, laneMask_and, if_pos rfl, sub_zero,
        mul_one]
  · change _ = BitVec.ofInt 16 ((vt i).toInt * (vs i).toInt.sign)
    rcases sign_cases (vs i) with ⟨-, hsign, hge, hne⟩ | hzero | ⟨-, hsign, hlt, hne⟩
    · rw [sshiftRight_fifteen, decide_eq_true hge, hne, hsign, mul_neg_one, BitVec.ofInt_neg,
        BitVec.ofInt_toInt, BitVec.neg_eq_not_add]
      change (_ ^^^ BitVec.allOnes 16) - laneMask true = _
      rw [BitVec.xor_allOnes, not_laneMask, Bool.not_false, laneMask_and, if_pos rfl,
        sub_laneMask_eq_add]
      rfl
    · rw [hzero]
      simp [laneMask]
    · rw [sshiftRight_fifteen, decide_eq_false (by omega), hne, hsign, mul_one, BitVec.ofInt_toInt]
      change (_ ^^^ 0#16) - 0#16 = _
      rw [BitVec.xor_zero, not_laneMask, Bool.not_false, laneMask_and, if_pos rfl, BitVec.sub_zero]

theorem ofInt_add_toNat (x y : BitVec 16) : BitVec.ofInt 16 (x.toNat + y.toNat) = x + y := by
  rw [BitVec.ofInt_add, BitVec.ofInt_natCast, BitVec.ofInt_natCast, BitVec.ofNat_toNat,
    BitVec.ofNat_toNat, BitVec.setWidth_eq, BitVec.setWidth_eq]

theorem ofInt_sub_toNat (x y : BitVec 16) : BitVec.ofInt 16 (x.toNat - y.toNat) = x - y := by
  rw [ofInt_sub, BitVec.ofInt_natCast, BitVec.ofInt_natCast, BitVec.ofNat_toNat,
    BitVec.ofNat_toNat, BitVec.setWidth_eq, BitVec.setWidth_eq]

theorem subsEpu16_beq_zero : (subsEpu16 vs vt i == 0#16) =
    decide ((vs i).toNat ≤ (vt i).toNat) := by
  have hs := (vs i).isLt
  rw [subsEpu16]
  split
  · rename_i hle
    have hsub := BitVec.toNat_sub_of_le (BitVec.le_def.mpr hle)
    by_cases hsame : (vs i).toNat ≤ (vt i).toNat
    · rw [decide_eq_true hsame, beq_iff_eq]
      apply BitVec.eq_of_toNat_eq
      rw [hsub]
      exact Nat.sub_eq_zero_of_le hsame
    · rw [decide_eq_false hsame, beq_eq_false_iff_ne]
      intro hzero
      rw [hzero] at hsub
      exact hsame (Nat.le_of_sub_eq_zero hsub.symm)
  · rw [decide_eq_true (by omega)]
    rfl

theorem AddOp.execute_exact (op : AddOp) :
    op.execute vs vt (fun i => laneMask (co i)) (fun i => laneMask (ne i)) =
      (op.exact vs vt co ne).encode laneMask := by
  cases op with
  | vadd =>
    rw [execute, rspVadd_exact vs vt co ne]
    rfl
  | vsub =>
    rw [execute, rspVsub_exact vs vt co ne]
    rfl
  | vabs =>
    rw [execute, rspVabs_exact vs vt co ne]
    rfl
  | vaddc =>
    ext i : 2
    · exact (ofInt_add_toNat _ _).symm
    · exact (ofInt_add_toNat _ _).symm
    · change laneMask (laneMask (saturatingAdd _ _ == _) == 0#16) = laneMask (decide (_ < _))
      rw [laneMask_beq_zero, BEq.comm, addEpi16_apply, add_beq_saturatingAdd, ← decide_not]
      exact congrArg laneMask (decide_eq_decide.mpr (by rw [number]; omega))
    · rfl
  | vsubc =>
    ext i : 2
    · exact (ofInt_sub_toNat _ _).symm
    · exact (ofInt_sub_toNat _ _).symm
    · change ~~~laneMask (vs i == vt i) &&& laneMask (subsEpu16 vs vt i == 0#16) =
        laneMask (decide (_ < _))
      rw [not_laneMask, laneMask_and_laneMask, subsEpu16_beq_zero]
      have hsame : (vs i == vt i) = decide ((vs i).toNat = (vt i).toNat) := by
        rw [beq_eq_decide]
        exact decide_eq_decide.mpr BitVec.toNat_eq
      rw [hsame, ← decide_not, ← Bool.decide_and]
      exact congrArg laneMask (decide_eq_decide.mpr (by rw [number]; omega))
    · exact congrArg laneMask (laneMask_beq_zero _)

theorem signedClampAdd_exact : signedClampAdd vs vt (fun i => flagWord (co i)) =
    (AddOp.vadd.exact vs vt co ne).result := by
  funext i
  change clampSigned ((maxEpi16 vt vs i).toInt +
    (clampSigned ((minEpi16 vt vs i).toInt + (flagWord (co i)).toInt)).toInt) = clampSigned _
  rw [toInt_clampSigned, toInt_minEpi16, toInt_maxEpi16, toInt_flagWord, add_comm,
    min_comm (vt i).toInt,
    max_comm (vt i).toInt]
  exact clampSigned_add _ _ _

theorem dropped_eq (s t : BitVec 16) :
    ((s - t).msb && (!s.msb && (((clampSigned (s.toInt - t.toInt) + flagWord true).msb ^^
      (clampSigned (s.toInt - t.toInt)).msb) && t.msb))) =
        decide (0x8000 ≤ s.toInt - t.toInt) := by
  have hs := toInt_bounds s
  have ht := toInt_bounds t
  have hd := toInt_bounds (s - t)
  have hdifference : (s - t).toInt = s.toInt - t.toInt ∨
      0x8000 ≤ s.toInt - t.toInt ∧ (s - t).toInt = s.toInt - t.toInt - 0x10000 ∨
        (s - t).toInt = s.toInt - t.toInt + 0x10000 ∧ s.toInt - t.toInt < -0x8000 := by
    rw [BitVec.toInt_sub, Int.bmod]
    split <;> omega
  have hres := toInt_clampSigned (s.toInt - t.toInt)
  have hnext := toInt_add_flagWord (clampSigned (s.toInt - t.toInt)) true
  rw [hres] at hnext
  simp only [BitVec.msb_eq_toInt, hnext, hres, Bool.toNat_true]
  generalize (s - t).toInt = difference at hd hdifference ⊢
  by_cases hover : 0x8000 ≤ s.toInt - t.toInt
  · have hmax : max (-0x8000) (min 0x7FFF (s.toInt - t.toInt)) = 0x7FFF := by omega
    rw [hmax, decide_eq_true hover, decide_eq_true (show difference < 0 by omega),
      decide_eq_false (show ¬ s.toInt < 0 by omega), decide_eq_true (show t.toInt < 0 by omega)]
    rfl
  · rw [decide_eq_false hover]
    by_cases hnegative : difference < 0
    · by_cases hleft : s.toInt < 0
      · simp [hleft]
      · have hright : ¬ t.toInt < 0 := by omega
        simp [hright]
    · simp [hnegative]

theorem signedClampSub_exact : signedClampSub vs vt (fun i => flagWord (co i)) =
    (AddOp.vsub.exact vs vt co ne).result := by
  funext i
  have hresult : signedClampSub vs vt (fun i => flagWord (co i)) i =
      clampSigned ((clampSigned ((vs i).toInt - (vt i).toInt)).toInt -
        (~~~(((vs i - vt i) &&& (~~~(vs i) &&& (((clampSigned ((vs i).toInt - (vt i).toInt) +
          flagWord (co i)) ^^^ clampSigned ((vs i).toInt - (vt i).toInt)) &&& vt i))) >>> 15) &&&
            flagWord (co i)).toInt) := rfl
  refine hresult.trans ?_
  change _ = clampSigned ((vs i).toInt - (vt i).toInt - (co i).toNat)
  have hs := toInt_bounds (vs i)
  have ht := toInt_bounds (vt i)
  have hkept (q p : Bool) : ~~~flagWord q &&& flagWord p = flagWord (!q && p) := by
    revert q p
    decide
  rw [ushiftRight_fifteen, hkept, toInt_flagWord, toInt_clampSigned]
  apply clampSigned_congr
  cases co i with
  | false =>
    rw [Bool.and_false, Bool.toNat_false]
    omega
  | true =>
    rw [Bool.and_true, BitVec.msb_and, BitVec.msb_and, BitVec.msb_and, BitVec.msb_xor,
      BitVec.msb_not,
      decide_eq_true (show 0 < 16 by decide), Bool.true_and, dropped_eq, Bool.toNat_true]
    by_cases hover : 0x8000 ≤ (vs i).toInt - (vt i).toInt
    · rw [decide_eq_true hover, Bool.not_true, Bool.toNat_false]
      omega
    · rw [decide_eq_false hover, Bool.not_false, Bool.toNat_true]
      omega

theorem doAbs_lane (s t : BitVec 16) :
    t * (0#16 - flagWord (s.slt 0#16) + flagWord ((0#16).slt s)) - flagWord (t == 0x8000#16) =
      BitVec.ofInt 16 (t.toInt * s.toInt.sign) - flagWord (t == 0x8000#16) := by
  rw [BitVec.slt_eq_decide, BitVec.slt_eq_decide, BitVec.toInt_zero]
  rcases sign_cases s with ⟨hneg, hsign, -, -⟩ | hzero | ⟨hpos, hsign, -, -⟩
  · rw [decide_eq_true hneg, decide_eq_false (by omega), hsign, mul_neg_one, BitVec.ofInt_neg,
      BitVec.ofInt_toInt]
    have htimes : t * (-1#16) = -t := by rw [BitVec.mul_neg, BitVec.mul_one]
    exact congrArg (· - _) htimes
  · rw [hzero]
    simp [flagWord]
  · rw [decide_eq_true hpos, decide_eq_false (by omega), hsign, mul_one, BitVec.ofInt_toInt]
    exact congrArg (· - _) (BitVec.mul_one t)

theorem clampSigned_abs (s t : BitVec 16) (h : t ≠ 0x8000#16) :
    clampSigned (t.toInt * s.toInt.sign) = BitVec.ofInt 16 (t.toInt * s.toInt.sign) := by
  obtain ⟨hle, hge⟩ := toInt_bounds t
  have hne : t.toInt ≠ -0x8000 := fun heq => h (BitVec.eq_of_toInt_eq heq)
  rw [clampSigned]
  rcases sign_cases s with ⟨-, hsign, -, -⟩ | hzero | ⟨-, hsign, -, -⟩
  · rw [hsign]
    exact congrArg (BitVec.ofInt 16) (by omega)
  · rw [hzero]
    simp
  · rw [hsign]
    exact congrArg (BitVec.ofInt 16) (by omega)

theorem AddOp.executeCxd4_exact_iff (op : AddOp) :
    op.executeCxd4 vs vt (fun i => flagWord (co i)) (fun i => flagWord (ne i)) =
      (op.exact vs vt co ne).encode flagWord ↔ (op = .vabs → ∀ i, vt i ≠ 0x8000#16) := by
  cases op with
  | vadd =>
    refine iff_of_true ?_ nofun
    rw [executeCxd4, clrCi, signedClampAdd_exact vs vt co ne]
    ext i : 2
    · rfl
    · change vs i + vt i + flagWord (co i) = BitVec.ofInt 16 (_ + _ + _)
      rw [BitVec.ofInt_add, ofInt_toInt_add, ofInt_toNat]
    · rfl
    · rfl
  | vsub =>
    refine iff_of_true ?_ nofun
    rw [executeCxd4, clrBi, signedClampSub_exact vs vt co ne]
    ext i : 2
    · rfl
    · change vs i - vt i - flagWord (co i) = BitVec.ofInt 16 (_ - _ - _)
      rw [ofInt_sub, ofInt_toInt_sub, ofInt_toNat]
    · rfl
    · rfl
  | vaddc =>
    refine iff_of_true ?_ nofun
    ext i : 2
    · exact (ofInt_add_toNat _ _).symm
    · exact (ofInt_add_toNat _ _).symm
    · change BitVec.ofNat 16 (((vs i).toNat + (vt i).toNat) >>> 16) =
        flagWord (decide (0xFFFF < ((vs i).toNat + (vt i).toNat : Int)))
      have hs := (vs i).isLt
      have ht := (vt i).isLt
      rw [Nat.shiftRight_eq_div_pow]
      by_cases hcarry : 2 ^ 16 ≤ (vs i).toNat + (vt i).toNat
      · rw [decide_eq_true (by omega), show ((vs i).toNat + (vt i).toNat) / 2 ^ 16 = 1 by omega]
        rfl
      · rw [decide_eq_false (by omega), show ((vs i).toNat + (vt i).toNat) / 2 ^ 16 = 0 by omega]
        rfl
    · rfl
  | vsubc =>
    refine iff_of_true ?_ nofun
    ext i : 2
    · exact (ofInt_sub_toNat _ _).symm
    · exact (ofInt_sub_toNat _ _).symm
    · rfl
    · rfl
  | vabs =>
    have hlane (i : Fin 8) :
        (doAbs vs vt (fun i => flagWord (co i)) fun i => flagWord (ne i)).accLo i =
        BitVec.ofInt 16 ((vt i).toInt * (vs i).toInt.sign) - flagWord (vt i == 0x8000#16) :=
      doAbs_lane (vs i) (vt i)
    constructor
    · intro h _ i hcorner
      have hacc := congrFun (congrArg AddOutcome.accLo h) i
      have hflag : flagWord (vt i == 0x8000#16) = 1#16 := by
        rw [hcorner]
        rfl
      rw [executeCxd4, hlane, hflag] at hacc
      have hdiffers (x : BitVec 16) : x - 1#16 ≠ x := by
        intro heq
        bv_omega
      exact hdiffers _ hacc
    · intro h
      have hexact (i : Fin 8) :
          (doAbs vs vt (fun i => flagWord (co i)) fun i => flagWord (ne i)).accLo i =
            BitVec.ofInt 16 ((vt i).toInt * (vs i).toInt.sign) := by
        rw [hlane, beq_eq_false_iff_ne.mpr (h rfl i)]
        exact BitVec.sub_zero _
      ext i : 2
      · exact (hexact i).trans (clampSigned_abs _ _ (h rfl i)).symm
      · exact hexact i
      · rfl
      · rfl

end Each

section Runs

variable (instrs : List AddInstr) (co ne : Fin 8 → Bool)

theorem runAdd_exact :
    runAdd AddOp.execute (fun i => laneMask (co i)) (fun i => laneMask (ne i)) instrs =
      (runExactAdd co ne instrs).map (ExactOutcome.encode laneMask) := by
  induction instrs generalizing co ne with
  | nil => rfl
  | cons instr instrs ih =>
    rw [runAdd, AddOp.execute_exact, runExactAdd, List.map_cons]
    exact congrArg _ (ih _ _)

theorem flags_executeCxd4 (op : AddOp) (vs vt : M128i) :
    (op.executeCxd4 vs vt (fun i => flagWord (co i)) fun i => flagWord (ne i)).co =
        ((op.exact vs vt co ne).encode flagWord).co ∧
      (op.executeCxd4 vs vt (fun i => flagWord (co i)) fun i => flagWord (ne i)).ne =
        ((op.exact vs vt co ne).encode flagWord).ne := by
  by_cases hop : op = .vabs
  · subst hop
    exact ⟨rfl, rfl⟩
  · rw [(op.executeCxd4_exact_iff vs vt co ne).mpr fun h => absurd h hop]
    exact ⟨rfl, rfl⟩

theorem runAdd_cxd4_exact_iff :
    runAdd AddOp.executeCxd4 (fun i => flagWord (co i)) (fun i => flagWord (ne i)) instrs =
        (runExactAdd co ne instrs).map (ExactOutcome.encode flagWord) ↔
      ∀ instr ∈ instrs, instr.op = .vabs → ∀ i, instr.vt i ≠ 0x8000#16 := by
  induction instrs generalizing co ne with
  | nil => exact iff_of_true rfl (List.forall_mem_nil _)
  | cons instr instrs ih =>
    obtain ⟨hco, hne⟩ := flags_executeCxd4 co ne instr.op instr.vs instr.vt
    rw [runAdd, runExactAdd, List.map_cons, List.cons.injEq, AddOp.executeCxd4_exact_iff, hco, hne,
      List.forall_mem_cons]
    exact and_congr_right fun _ => ih _ _

/-- Both cores are exact, and so agree, on exactly the sequences that take no absolute value of the
lowest word. -/
theorem addFamiliesExact_iff (co ne : Fin 8 → Bool) (instrs : List AddInstr) :
    AddFamiliesExact co ne instrs ↔
      ∀ instr ∈ instrs, instr.op = .vabs → ∀ i, instr.vt i ≠ 0x8000#16 := by
  rw [AddFamiliesExact, and_iff_right (runAdd_exact instrs co ne)]
  exact runAdd_cxd4_exact_iff instrs co ne

/-- Nothing multiplied by the lowest word: one core leaves nothing, the other one ones. -/
theorem vabs_lowest_differs : ∃ vs vt : M128i,
    (AddOp.vabs.execute vs vt rspVzero rspVzero).result 0 = 0#16 ∧
      (AddOp.vabs.executeCxd4 vs vt rspVzero rspVzero).result 0 = 0xFFFF#16 ∧
      ¬ AddFamiliesExact (fun _ => false) (fun _ => false) [⟨.vabs, vs, vt⟩] := by
  refine ⟨rspVzero, fun _ => 0x8000#16, by decide, by decide, ?_⟩
  intro h
  have hlane := congrFun (congrArg AddOutcome.accLo (List.cons.inj h.2).1) 0
  exact absurd hlane (by decide)

end Runs

end ParallelN64.Rsp
