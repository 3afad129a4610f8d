import ParallelN64.Rsp.VectorAdd

/-!
# Multiplying and accumulating in two cores

The other core finds the carry of a sum from the sum being less than a summand, and accumulates
fractions in words of the host. Its accumulators are exact as well.
-/

namespace ParallelN64.Rsp

section Vectors

variable (dst src : M128i)

/-- `_mm_cmple_epu16`. -/
def cmpleEpu16 : M128i := cmpeqEpi16 (subsEpu16 dst src) rspVzero

/-- `_mm_cmpgt_epu16`. -/
def cmpgtEpu16 : M128i := andnotSi128 (cmpeqEpi16 dst src) (cmpleEpu16 src dst)

/-- `_mm_cmplt_epu16`. -/
def cmpltEpu16 : M128i := cmpgtEpu16 src dst

end Vectors

namespace Cxd4

section Clamps

variable (acc : Acc)

/-- `SIGNED_CLAMP_AM`. -/
def signedClampAm : M128i :=
  let dst := unpackloEpi16 acc.md acc.hi
  let src := unpackhiEpi16 acc.md acc.hi
  packsEpi32 dst src

/-- `UNSIGNED_CLAMP`. -/
def unsignedClamp : M128i := fun i =>
  let temp := signedClampAm acc i
  let cond := 0#16 - flagWord ((acc.md i).slt temp)
  (temp &&& ~~~(temp.sshiftRight 15)) ||| cond

/-- The clamp at the end of `VMADL` and `VMADN`. -/
def clampLow : M128i :=
  let vs := signedClampAm acc
  let accMd := cmpeqEpi16 acc.md vs
  let accLo := andSi128 acc.lo accMd
  let vt := cmpeqEpi16 vs vs
  let accMd := xorSi128 accMd vt
  let vs := andSi128 vs accMd
  let vs := orSi128 vs accLo
  let accMd := slliEpi16 accMd 15
  xorSi128 vs accMd

end Clamps

section Instructions

variable (vs vt : M128i) (acc : Acc)

/-- The accumulators of `do_macf` and `do_macu`. -/
def doMac : Acc :=
  let product (i : Fin 8) : BitVec 32 := (vs i).signExtend 32 * (vt i).signExtend 32
  let low (i : Fin 8) : BitVec 32 :=
    (acc.lo i).setWidth 32 + ((product i <<< 1) &&& 0xFFFF#32)
  let middle (i : Fin 8) : BitVec 32 :=
    (acc.md i).setWidth 32 +
      ((low i >>> 16) + (((product i).sshiftRight 15).setWidth 16).setWidth 32)
  { lo := fun i => (low i).setWidth 16
    md := fun i => (middle i).setWidth 16
    hi := fun i => acc.hi i - flagWord ((product i).slt 0#32) + (middle i >>> 16).setWidth 16 }

/-- `VMULF` and `VMULU`, which share all but the last steps. -/
def vmulfVmulu (vmulu : Bool) : M128i × Acc :=
  let prodLo := mulloEpi16 vs vt
  let prodHi := mulhiEpi16 vs vt
  let prodHi := addEpi16 prodHi prodHi
  let negative := srliEpi16 prodLo 15
  let prodHi := addEpi16 prodHi negative
  let prodLo := addEpi16 prodLo prodLo
  let negative := srliEpi16 prodLo 15
  let round := slliEpi16 (cmpeqEpi16 vs vs) 15
  let prodLo := xorSi128 prodLo round
  let prodHi := addEpi16 prodHi negative
  let negative := sraiEpi16 prodHi 15
  let corner := andSi128 (cmpeqEpi16 vs round) (cmpeqEpi16 vt round)
  let negative := xorSi128 negative corner
  let acc : Acc := ⟨prodLo, prodHi, negative⟩
  if vmulu then (andnotSi128 negative (orSi128 prodHi (sraiEpi16 prodHi 15)), acc)
  else (addEpi16 corner prodHi, acc)

/-- `VMUDL`. -/
def vmudl : M128i × Acc :=
  let vs := mulhiEpu16 vs vt
  (vs, ⟨vs, rspVzero, rspVzero⟩)

/-- A product of one signed operand, which is fixed up by its sign. -/
def signedProduct (fixed other : M128i) : M128i × M128i :=
  let prodLo := mulloEpi16 vs vt
  let prodHi := mulhiEpu16 vs vt
  (prodLo, subEpi16 prodHi (andSi128 other (sraiEpi16 fixed 15)))

/-- `VMUDM`. -/
def vmudm : M128i × Acc :=
  let (prodLo, prodHi) := signedProduct vs vt vs vt
  (prodHi, ⟨prodLo, prodHi, sraiEpi16 prodHi 15⟩)

/-- `VMUDN`. -/
def vmudn : M128i × Acc :=
  let (prodLo, prodHi) := signedProduct vs vt vt vs
  (prodLo, ⟨prodLo, prodHi, sraiEpi16 prodHi 15⟩)

/-- `VMUDH`. -/
def vmudh : M128i × Acc :=
  let acc : Acc := ⟨rspVzero, mulloEpi16 vs vt, mulhiEpi16 vs vt⟩
  (signedClampAm acc, acc)

/-- `VMADL`. -/
def vmadl : M128i × Acc :=
  let prodHi := mulhiEpu16 vs vt
  let accLo := addEpi16 acc.lo prodHi
  let overflow := cmpltEpu16 accLo prodHi
  let accMd := subEpi16 acc.md overflow
  let overflowNew := cmpeqEpi16 accMd rspVzero
  let overflow := andSi128 overflow overflowNew
  let acc : Acc := ⟨accLo, accMd, subEpi16 acc.hi overflow⟩
  (clampLow acc, acc)

/-- What `VMADM` and `VMADN` write back. -/
def writeback (prodLo prodHi : M128i) : Acc :=
  let accLo := addEpi16 acc.lo prodLo
  let overflow := cmpltEpu16 accLo prodLo
  let prodHi := subEpi16 prodHi overflow
  let accMd := addEpi16 acc.md prodHi
  let overflow := cmpltEpu16 accMd prodHi
  let accHi := addEpi16 acc.hi (sraiEpi16 prodHi 15)
  ⟨accLo, accMd, subEpi16 accHi overflow⟩

/-- `VMADM`. -/
def vmadm : M128i × Acc :=
  let (prodLo, prodHi) := signedProduct vs vt vs vt
  let acc := writeback acc prodLo prodHi
  (signedClampAm acc, acc)

/-- `VMADN`. -/
def vmadn : M128i × Acc :=
  let (prodLo, prodHi) := signedProduct vs vt vt vs
  let acc := writeback acc prodLo prodHi
  (clampLow acc, acc)

/-- `VMADH`. -/
def vmadh : M128i × Acc :=
  let prodHigh := mulhiEpi16 vs vt
  let accMd := addEpi16 (mulloEpi16 vs vt) acc.md
  let accHi := addEpi16 acc.hi prodHigh
  let accHi := subEpi16 accHi (cmpltEpu16 accMd acc.md)
  let acc : Acc := ⟨acc.lo, accMd, accHi⟩
  (signedClampAm acc, acc)

end Instructions

end Cxd4

/-- `VMULF` and the others of the second core. -/
def MacOp.executeCxd4 (op : MacOp) (vs vt : M128i) (acc : Acc) : M128i × Acc :=
  match op with
  | vmulf => Cxd4.vmulfVmulu vs vt false
  | vmulu => Cxd4.vmulfVmulu vs vt true
  | vmacf => (Cxd4.signedClampAm (Cxd4.doMac vs vt acc), Cxd4.doMac vs vt acc)
  | vmacu => (Cxd4.unsignedClamp (Cxd4.doMac vs vt acc), Cxd4.doMac vs vt acc)
  | vmudl => Cxd4.vmudl vs vt
  | vmudm => Cxd4.vmudm vs vt
  | vmudn => Cxd4.vmudn vs vt
  | vmudh => Cxd4.vmudh vs vt
  | vmadl => Cxd4.vmadl vs vt acc
  | vmadm => Cxd4.vmadm vs vt acc
  | vmadn => Cxd4.vmadn vs vt acc
  | vmadh => Cxd4.vmadh vs vt acc

/-- What the instructions of a sequence leave, one after the other. -/
def traceMac (execute : MacOp → M128i → M128i → Acc → M128i × Acc) :
    Acc → List MacInstr → List (M128i × Acc)
  | _, [] => []
  | acc, instr :: instrs =>
    let outcome := execute instr.op instr.vs instr.vt acc
    outcome :: traceMac execute outcome.2 instrs

section Carries

variable (a b : M128i)

theorem cmpltEpu16_apply (i : Fin 8) :
    cmpltEpu16 a b i = laneMask (decide ((a i).toNat < (b i).toNat)) := by
  have hlt := (a i).isLt
  change ~~~laneMask (b i == a i) &&&
    laneMask ((if (b i).toNat ≤ (a i).toNat then a i - b i else 0#16) == 0#16) = _
  rw [not_laneMask, laneMask_and_laneMask]
  congr 1
  by_cases hle : (b i).toNat ≤ (a i).toNat
  · rw [if_pos hle, decide_eq_false (Nat.not_lt.mpr hle), Bool.and_eq_false_imp,
      Bool.not_eq_true', beq_eq_false_iff_ne, beq_eq_false_iff_ne]
    intro hne hzero
    apply hne
    bv_omega
  · have hne : b i ≠ a i := fun heq => hle (heq ▸ Nat.le_refl _)
    rw [if_neg hle, decide_eq_true (Nat.lt_of_not_le hle), beq_eq_false_iff_ne.mpr hne]
    rfl

theorem cmpltEpu16_add :
    cmpltEpu16 (addEpi16 a b) b =
      cmpeqEpi16 (cmpeqEpi16 (addEpi16 a b) (addsEpu16 a b)) rspVzero := by
  funext i
  have ha := (a i).isLt
  have hb := (b i).isLt
  rw [cmpltEpu16_apply, cmpeqEpi16_apply, cmpeqEpi16_apply, addEpi16_apply, addsEpu16_apply,
    add_beq_saturatingAdd, rspVzero_apply, laneMask_beq_zero, BitVec.toNat_add]
  congr 1
  by_cases hsum : (a i).toNat + (b i).toNat < 0x10000
  · rw [decide_eq_true hsum, decide_eq_false (by omega)]
    rfl
  · rw [decide_eq_false hsum, decide_eq_true (by omega)]
    rfl

theorem addEpi16_comm : addEpi16 a b = addEpi16 b a := funext fun _ => BitVec.add_comm ..

theorem addsEpu16_comm : addsEpu16 a b = addsEpu16 b a := by
  funext i
  rw [addsEpu16, addsEpu16, saturatingAdd, saturatingAdd, BitVec.add_comm, Nat.add_comm]

theorem carry_of_carry (p : Bool) (x : BitVec 16) :
    laneMask p &&& laneMask (x - laneMask p == 0#16) =
      laneMask (laneMask (x + (0#16 - laneMask p) == saturatingAdd x (0#16 - laneMask p)) ==
        0#16) := by
  have hx := x.isLt
  rw [laneMask_and_laneMask, add_beq_saturatingAdd, laneMask_beq_zero]
  congr 1
  cases p with
  | false =>
    have hsmall : x.toNat + (0#16 - laneMask false).toNat < 0x10000 := hx
    rw [decide_eq_true hsmall]
    rfl
  | true =>
    have hone : (0#16 - laneMask true).toNat = 1 := rfl
    have hmask : laneMask true = 0xFFFF#16 := rfl
    rw [hone, hmask, Bool.true_and]
    by_cases hlast : x.toNat + 1 < 0x10000
    · rw [decide_eq_true hlast, Bool.not_true, beq_eq_false_iff_ne]
      bv_omega
    · rw [decide_eq_false hlast, Bool.not_false, beq_iff_eq]
      bv_omega

end Carries

section Accumulators

variable (vs vt : M128i) (acc : Acc)

theorem writeback_eq (lo hi : M128i) :
    Cxd4.writeback acc lo hi = accumulateSigned rspVzero acc lo hi := by
  simp only [Cxd4.writeback, accumulateSigned, cmpltEpu16_add]

theorem vmadl_acc : (Cxd4.vmadl vs vt acc).2 = (rspVmadlVmudl vs vt rspVzero acc true).2 := by
  simp only [Cxd4.vmadl, rspVmadlVmudl, if_true, cmpltEpu16_add, Acc.mk.injEq, true_and]
  constructor
  · funext i
    rw [subEpi16_apply, addEpi16_apply, subEpi16_apply, rspVzero_apply, BitVec.zero_sub,
      BitVec.sub_eq_add_neg]
  · funext i
    simp only [subEpi16_apply, andSi128_apply, cmpeqEpi16_apply, addEpi16_apply, addsEpu16_apply,
      rspVzero_apply]
    rw [carry_of_carry]

theorem vmadh_acc : (Cxd4.vmadh vs vt acc).2 = (rspVmadhVmudh vs vt rspVzero acc true).2 := by
  simp only [Cxd4.vmadh, rspVmadhVmudh, if_true, cmpltEpu16_add]
  rw [addEpi16_comm (mulloEpi16 vs vt), addsEpu16_comm (mulloEpi16 vs vt)]
  simp only [Acc.mk.injEq, true_and]
  funext i
  simp only [subEpi16_apply, addEpi16_apply]
  rw [BitVec.sub_eq_add_neg, BitVec.sub_eq_add_neg, BitVec.add_assoc]

theorem xor_highest (x : BitVec 16) : x ^^^ 0x8000#16 = 0x8000#16 + x := by
  have hx := x.isLt
  have hlow := Nat.xor_mod_two_pow (a := x.toNat) (b := 0x8000) (n := 15)
  have hhigh := Nat.xor_div_two_pow (a := x.toNat) (b := 0x8000) (n := 15)
  have htop : x.toNat / 2 ^ 15 = 0 ∨ x.toNat / 2 ^ 15 = 1 := by omega
  apply BitVec.eq_of_toNat_eq
  rw [BitVec.toNat_xor, BitVec.toNat_add]
  change x.toNat ^^^ 0x8000 = (0x8000 + x.toNat) % 2 ^ 16
  have hsame : 0x8000 % 2 ^ 15 = 0 := rfl
  rw [hsame, Nat.xor_zero] at hlow
  rcases htop with h | h
  · rw [h, show 0 ^^^ 0x8000 / 2 ^ 15 = 1 from rfl] at hhigh
    omega
  · rw [h, show 1 ^^^ 0x8000 / 2 ^ 15 = 0 from rfl] at hhigh
    omega

theorem same_and_sign (i : Fin 8) {md : BitVec 16} (hmd : (md.toNat : Int) =
    (2 * ((vs i).toInt * (vt i).toInt) + 0x8000) / 0x10000 % 0x10000) :
    laneMask (vs i == vt i) &&& md.sshiftRight 15 =
      laneMask (vs i == 0x8000#16) &&& laneMask (vt i == 0x8000#16) := by
  rw [sshiftRight_fifteen, laneMask_and_laneMask, laneMask_and_laneMask]
  congr 1
  by_cases hsame : vs i = vt i
  · rw [beq_iff_eq.mpr hsame, Bool.true_and, ← hsame, Bool.and_self]
    rw [← hsame] at hmd
    by_cases hlowest : vs i = 0x8000#16
    · rw [hlowest] at hmd ⊢
      have hmd : (md.toNat : Int) = 0x8000 := hmd
      rw [decide_eq_true (by omega)]
      rfl
    · obtain ⟨hle, hge⟩ := toInt_bounds (vs i)
      have hne : (vs i).toInt ≠ -0x8000 := fun heq => hlowest (BitVec.eq_of_toInt_eq heq)
      have hsquare : (vs i).toInt * (vs i).toInt ≤ 0x3FFF0001 := by
        have hgt : -0x7FFF ≤ (vs i).toInt := by omega
        nlinarith
      have hpos := mul_self_nonneg (vs i).toInt
      rw [beq_eq_false_iff_ne.mpr hlowest]
      exact decide_eq_false (by omega)
  · rw [beq_eq_false_iff_ne.mpr hsame, Bool.false_and]
    refine (Bool.and_eq_false_imp.mpr fun h => beq_eq_false_iff_ne.mpr fun h' => hsame ?_).symm
    exact (beq_iff_eq.mp h).trans h'.symm

theorem vmulf_eq (vmulu : Bool) :
    Cxd4.vmulfVmulu vs vt vmulu = rspVmulfVmulu vs vt rspVzero vmulu := by
  have hround (a : M128i) : slliEpi16 (cmpeqEpi16 a a) 15 = fun _ => 0x8000#16 := by
    funext i
    rw [slliEpi16_apply, cmpeqEpi16_apply, beq_self_eq_true]
    rfl
  have hlo : xorSi128 (addEpi16 (mulloEpi16 vs vt) (mulloEpi16 vs vt)) (fun _ => 0x8000#16) =
      addEpi16 (fun _ => 0x8000#16) (addEpi16 (mulloEpi16 vs vt) (mulloEpi16 vs vt)) :=
    funext fun i => xor_highest _
  have hmd : addEpi16 (addEpi16 (addEpi16 (mulhiEpi16 vs vt) (mulhiEpi16 vs vt))
        (srliEpi16 (mulloEpi16 vs vt) 15))
        (srliEpi16 (addEpi16 (mulloEpi16 vs vt) (mulloEpi16 vs vt)) 15) =
      addEpi16 (slliEpi16 (mulhiEpi16 vs vt) 1) (addEpi16 (srliEpi16 (mulloEpi16 vs vt) 15)
        (srliEpi16 (addEpi16 (mulloEpi16 vs vt) (mulloEpi16 vs vt)) 15)) := by
    funext i
    simp only [addEpi16_apply, slliEpi16_apply, BitVec.shiftLeft_eq_mul_twoPow]
    bv_omega
  have hcorner : andSi128 (cmpeqEpi16 vs vt) (sraiEpi16 (addEpi16 (slliEpi16 (mulhiEpi16 vs vt) 1)
        (addEpi16 (srliEpi16 (mulloEpi16 vs vt) 15)
          (srliEpi16 (addEpi16 (mulloEpi16 vs vt) (mulloEpi16 vs vt)) 15))) 15) =
      andSi128 (cmpeqEpi16 vs fun _ => 0x8000#16) (cmpeqEpi16 vt fun _ => 0x8000#16) :=
    funext fun i => same_and_sign vs vt i
      (toNat_round _ _ (toNat_mul_eq_emod (vs i) (vt i)) (toNat_mulhiEpi16 vs vt i)).2
  have hsign (eq neg : M128i) : xorSi128 neg (andSi128 eq neg) = andnotSi128 eq neg := by
    funext i
    ext k hk
    simp only [xorSi128, andSi128_apply, andnotSi128_apply, BitVec.getElem_xor,
      BitVec.getElem_and, BitVec.getElem_not]
    cases (eq i)[k] <;> cases (neg i)[k] <;> rfl
  simp only [Cxd4.vmulfVmulu, rspVmulfVmulu, hround, hlo, hmd, ← hcorner, hsign]
  cases vmulu
  · rw [if_neg Bool.false_ne_true, if_neg Bool.false_ne_true, addEpi16_comm]
  · rfl

theorem acc_ext {a b : Acc} (h : ∀ i, a.value i = b.value i) : a = b := by
  have hwords (i : Fin 8) : a.lo i = b.lo i ∧ a.md i = b.md i ∧ a.hi i = b.hi i := by
    have hnat := congrArg BitVec.toNat (h i)
    rw [Acc.value_eq_words, Acc.value_eq_words, toNat_words, toNat_words] at hnat
    bv_omega
  cases a
  cases b
  rw [Acc.mk.injEq]
  exact ⟨funext fun i => (hwords i).1, funext fun i => (hwords i).2.1,
    funext fun i => (hwords i).2.2⟩

theorem exists_toNat_sub_add (x y z : BitVec 16) :
    ∃ k : Int, ((x - y + z).toNat : Int) = x.toNat - y.toNat + z.toNat + k * 0x10000 := by
  have hx := x.isLt
  have hy := y.isLt
  rw [BitVec.toNat_add, BitVec.toNat_sub]
  exact ⟨1 - (2 ^ 16 - y.toNat + x.toNat) / 0x10000 -
    ((2 ^ 16 - y.toNat + x.toNat) % 0x10000 + z.toNat) / 0x10000, by omega⟩

theorem value_doMac (i : Fin 8) : (Cxd4.doMac vs vt acc).value i =
    acc.value i + BitVec.ofInt 48 (2 * ((vs i).toInt * (vt i).toInt)) := by
  obtain ⟨hlow, hhigh, -⟩ := mul_toInt_bounds (vs i) (vt i)
  have hlo := (acc.lo i).isLt
  have hmd := (acc.md i).isLt
  have hprod : ((vs i).signExtend 32 * (vt i).signExtend 32).toInt =
      (vs i).toInt * (vt i).toInt := by
    rw [BitVec.toInt_mul, BitVec.toInt_signExtend_of_le (by decide),
      BitVec.toInt_signExtend_of_le (by decide)]
    exact Int.bmod_eq_of_le (by omega) (by omega)
  generalize (vs i).toInt * (vt i).toInt = p at hlow hhigh hprod ⊢
  rw [Acc.value_eq_words, Acc.value_eq_words]
  simp only [Cxd4.doMac]
  generalize (vs i).signExtend 32 * (vt i).signExtend 32 = product at hprod ⊢
  have hnat : (product.toNat : Int) = p % 0x100000000 := by
    rw [BitVec.toInt_eq_toNat_cond] at hprod
    split_ifs at hprod <;> omega
  have hfraction : ((product <<< 1) &&& 0xFFFF#32).toNat = product.toNat * 2 % 0x10000 := by
    rw [BitVec.toNat_and, BitVec.toNat_shiftLeft, Nat.shiftLeft_eq]
    refine (Nat.and_two_pow_sub_one_eq_mod _ 16).trans ?_
    omega
  have hwhole : ((((product.sshiftRight 15).setWidth 16).setWidth 32).toNat : Int) =
      p / 0x8000 % 0x10000 := by
    have hshift : (product.sshiftRight 15).toInt = p / 0x8000 := by
      rw [BitVec.toInt_sshiftRight, hprod, Int.shiftRight_eq_div_pow]
      rfl
    rw [BitVec.toInt_eq_toNat_cond] at hshift
    rw [BitVec.toNat_setWidth, BitVec.toNat_setWidth]
    split_ifs at hshift <;> omega
  have hneg : product.slt 0#32 = decide (p < 0) := by
    rw [BitVec.slt_eq_decide, hprod]
    rfl
  have hlowSum : ((acc.lo i).setWidth 32 + (product <<< 1 &&& 0xFFFF#32)).toNat =
      (acc.lo i).toNat + product.toNat * 2 % 0x10000 := by
    rw [BitVec.toNat_add, hfraction, BitVec.toNat_setWidth]
    omega
  generalize (acc.lo i).setWidth 32 + (product <<< 1 &&& 0xFFFF#32) = low at hlowSum ⊢
  generalize ((product.sshiftRight 15).setWidth 16).setWidth 32 = whole at hwhole ⊢
  have hmiddleSum : ((acc.md i).setWidth 32 + ((low >>> 16) + whole)).toNat =
      (acc.md i).toNat + low.toNat / 0x10000 + whole.toNat := by
    rw [BitVec.toNat_add, BitVec.toNat_add, BitVec.toNat_setWidth, BitVec.toNat_ushiftRight,
      Nat.shiftRight_eq_div_pow]
    omega
  generalize (acc.md i).setWidth 32 + ((low >>> 16) + whole) = middle at hmiddleSum ⊢
  rw [hneg]
  have hcarry : ((middle >>> 16).setWidth 16).toNat = middle.toNat / 0x10000 := by
    rw [BitVec.toNat_setWidth, BitVec.toNat_ushiftRight, Nat.shiftRight_eq_div_pow]
    omega
  have hsign : (flagWord (decide (p < 0))).toNat = if p < 0 then 1 else 0 := by
    by_cases h : p < 0
    · rw [decide_eq_true h, if_pos h]
      rfl
    · rw [decide_eq_false h, if_neg h]
      rfl
  obtain ⟨k, hk⟩ := exists_toNat_sub_add (acc.hi i) (flagWord (decide (p < 0)))
    ((middle >>> 16).setWidth 16)
  rw [hcarry, hsign] at hk
  apply eq_add_ofInt k
  rw [toNat_words, toNat_words, BitVec.toNat_setWidth, BitVec.toNat_setWidth]
  push_cast
  split_ifs at hk <;> omega

theorem executeCxd4_acc (op : MacOp) :
    (op.executeCxd4 vs vt acc).2 = (op.execute vs vt acc).2 := by
  cases op with
  | vmulf => exact congrArg Prod.snd (vmulf_eq vs vt false)
  | vmulu => exact congrArg Prod.snd (vmulf_eq vs vt true)
  | vmacf => exact acc_ext fun i => (value_doMac vs vt acc i).trans (value_vmacf vs vt acc i _).symm
  | vmacu => exact acc_ext fun i => (value_doMac vs vt acc i).trans (value_vmacf vs vt acc i _).symm
  | vmudl | vmudm | vmudn | vmudh => rfl
  | vmadl => exact vmadl_acc vs vt acc
  | vmadm => exact writeback_eq acc _ _
  | vmadn => exact writeback_eq acc _ _
  | vmadh => exact vmadh_acc vs vt acc

end Accumulators

/-- The number in the upper words of an accumulator is out of the range of a word, and its middle
word is the one that the number is clamped to. -/
def HiddenClamp (a : BitVec 48) : Prop :=
  (0x7FFF < a.toInt / 0x10000 ∧ a.toInt / 0x10000 % 0x10000 = 0x7FFF) ∨
    (a.toInt / 0x10000 < -0x8000 ∧ a.toInt / 0x10000 % 0x10000 = 0x8000)

/-- An instruction clamps by such a comparison, and what it takes for it is not the limit. -/
def MacOp.MissesClamp (op : MacOp) (a : BitVec 48) : Prop :=
  match op with
  | vmacu => HiddenClamp a ∧ 0 ≤ a.toInt
  | vmadl | vmadn => HiddenClamp a ∧ a.setWidth 16 ≠ if a.toInt < 0 then 0#16 else 0xFFFF#16
  | _ => False

section Clamps

variable (acc : Acc) (i : Fin 8)

theorem signedClampAm_apply : Cxd4.signedClampAm acc i =
    clampSigned ((acc.value i).toInt / 0x10000) :=
  rspSclampAccTomd_apply (acc.lo i) acc.md acc.hi i

theorem toInt_upper : (acc.value i).toInt / 0x10000 % 0x10000 = (acc.md i).toNat := by
  have hlt := (acc.md i).isLt
  rw [Acc.value_eq_words, toInt_words_div]
  omega

variable {z : Int} {md : BitVec 16}

theorem clampSigned_of_gt (h : 0x7FFF < z) : clampSigned z = 0x7FFF#16 := by
  rw [clampSigned, min_eq_left (by omega)]
  rfl

theorem clampSigned_of_lt (h : z < -0x8000) : clampSigned z = 0x8000#16 := by
  rw [clampSigned, min_eq_right (by omega), max_eq_left (by omega)]
  rfl

theorem clampSigned_of_mem (h : z % 0x10000 = md.toNat) (hle : -0x8000 ≤ z) (hge : z ≤ 0x7FFF) :
    clampSigned z = md := by
  rw [clampSigned, min_eq_right hge, max_eq_right hle]
  apply BitVec.eq_of_toNat_eq
  rw [BitVec.toNat_ofInt]
  change (z % 0x10000).toNat = _
  rw [h, Int.toNat_natCast]

theorem unsignedClamp_number (h : z % 0x10000 = md.toNat) :
    ((clampSigned z &&& ~~~((clampSigned z).sshiftRight 15)) |||
        (0#16 - flagWord (md.slt (clampSigned z))) = clampUnsigned z) ↔
      ¬(0x7FFF < z ∧ z % 0x10000 = 0x7FFF) := by
  have hmd := toInt_eq_cases md
  have hone : (0#16 - flagWord true) = 0xFFFF#16 := rfl
  have hzero : (0#16 - flagWord false) = 0#16 := rfl
  rw [BitVec.slt_eq_decide, clampUnsigned]
  by_cases hgt : 0x7FFF < z
  · rw [clampSigned_of_gt hgt, if_neg (by omega), if_pos hgt, h]
    by_cases hlast : md.toNat = 0x7FFF
    · have heq : md.toInt = 0x7FFF := by omega
      rw [heq, decide_eq_false (by decide), hzero]
      exact iff_of_false (by decide) fun hno => hno ⟨hgt, by omega⟩
    · have hlt : md.toInt < (0x7FFF#16).toInt := show md.toInt < 0x7FFF by omega
      rw [decide_eq_true hlt, hone]
      exact iff_of_true (by decide) fun hyes => hlast (by omega)
  · refine iff_of_true ?_ fun hyes => hgt hyes.1
    by_cases hlt : z < -0x8000
    · have hle : ¬md.toInt < (0x8000#16).toInt := show ¬md.toInt < -0x8000 by omega
      rw [clampSigned_of_lt hlt, decide_eq_false hle, if_pos (by omega)]
      rfl
    · rw [clampSigned_of_mem h (by omega) (by omega), decide_eq_false (lt_irrefl _), hzero,
        BitVec.or_zero, sshiftRight_fifteen]
      by_cases hneg : z < 0
      · rw [if_pos hneg, decide_eq_true (by omega)]
        exact BitVec.and_zero
      · rw [if_neg hneg, if_neg hgt, decide_eq_false (by omega)]
        have hself := clampSigned_of_mem h (by omega) (by omega)
        rw [clampSigned, min_eq_right (by omega), max_eq_right (by omega)] at hself
        rw [hself]
        exact BitVec.and_allOnes

theorem unsignedClamp_iff : Cxd4.unsignedClamp acc i =
    clampUnsigned ((acc.value i).toInt / 0x10000) ↔ ¬MacOp.vmacu.MissesClamp (acc.value i) := by
  rw [Cxd4.unsignedClamp, signedClampAm_apply, unsignedClamp_number (toInt_upper acc i),
    MacOp.MissesClamp, HiddenClamp]
  omega

theorem clampLow_apply : Cxd4.clampLow acc i =
    if acc.md i = Cxd4.signedClampAm acc i then acc.lo i
    else Cxd4.signedClampAm acc i ^^^ 0x8000#16 := by
  have hones : laneMask (Cxd4.signedClampAm acc i == Cxd4.signedClampAm acc i) = 0xFFFF#16 := by
    rw [beq_self_eq_true]
    rfl
  simp only [Cxd4.clampLow, xorSi128, orSi128_apply, andSi128_apply, slliEpi16_apply,
    cmpeqEpi16_apply, hones]
  by_cases h : acc.md i = Cxd4.signedClampAm acc i
  · rw [if_pos h, beq_iff_eq.mpr h]
    change (_ &&& 0#16 ||| _ &&& BitVec.allOnes 16) ^^^ 0#16 = _
    rw [BitVec.and_zero, BitVec.zero_or, BitVec.and_allOnes, BitVec.xor_zero]
  · rw [if_neg h, beq_eq_false_iff_ne.mpr h]
    change (_ &&& BitVec.allOnes 16 ||| _ &&& 0#16) ^^^ 0x8000#16 = _
    rw [BitVec.and_zero, BitVec.or_zero, BitVec.and_allOnes]

theorem clampLow_number (lo : BitVec 16) (h : z % 0x10000 = md.toNat) :
    ((if md = clampSigned z then lo else clampSigned z ^^^ 0x8000#16) =
        if -0x8000 ≤ z ∧ z ≤ 0x7FFF then lo else if z < 0 then 0#16 else 0xFFFF#16) ↔
      ¬((0x7FFF < z ∧ z % 0x10000 = 0x7FFF ∨ z < -0x8000 ∧ z % 0x10000 = 0x8000) ∧
        lo ≠ if z < 0 then 0#16 else 0xFFFF#16) := by
  by_cases hgt : 0x7FFF < z
  · have hout : ¬(-0x8000 ≤ z ∧ z ≤ 0x7FFF) := by omega
    have hneg : ¬z < 0 := by omega
    have hlow : ¬z < -0x8000 := by omega
    have hlast : md = 0x7FFF#16 ↔ z % 0x10000 = 0x7FFF := by
      rw [← BitVec.toNat_inj, h]
      exact Nat.cast_inj.symm
    rw [clampSigned_of_gt hgt, if_neg hout, if_neg hneg]
    by_cases hmd : md = 0x7FFF#16
    · simp [hmd, hlast.mp hmd, hgt]
    · simp [hmd, mt hlast.mpr hmd, hlow]
  · by_cases hlt : z < -0x8000
    · have hout : ¬(-0x8000 ≤ z ∧ z ≤ 0x7FFF) := by omega
      have hneg : z < 0 := by omega
      have hlast : md = 0x8000#16 ↔ z % 0x10000 = 0x8000 := by
        rw [← BitVec.toNat_inj, h]
        exact Nat.cast_inj.symm
      rw [clampSigned_of_lt hlt, if_neg hout, if_pos hneg]
      by_cases hmd : md = 0x8000#16
      · simp [hmd, hlast.mp hmd, hlt]
      · simp [hmd, mt hlast.mpr hmd, hgt]
    · rw [clampSigned_of_mem h (by omega) (by omega), if_pos rfl, if_pos ⟨by omega, by omega⟩]
      simp [hgt, hlt]

theorem clampLow_iff : Cxd4.clampLow acc i = clampLow (acc.value i) ↔
    ¬MacOp.vmadl.MissesClamp (acc.value i) := by
  have hlow : (acc.value i).setWidth 16 = acc.lo i := setWidth_words ..
  have hsign : (acc.value i).toInt < 0 ↔ (acc.value i).toInt / 0x10000 < 0 := by omega
  rw [clampLow_apply, signedClampAm_apply, clampLow, MacOp.MissesClamp, HiddenClamp, hlow]
  simp only [hsign]
  exact clampLow_number _ (toInt_upper acc i)

end Clamps

section Agreement

theorem MacOp.executeCxd4_delivers_iff (op : MacOp) (vs vt : M128i) (acc : Acc) (i : Fin 8) :
    (op.executeCxd4 vs vt acc).1 i = op.delivers ((op.executeCxd4 vs vt acc).2.value i) ↔
      ¬op.MissesClamp ((op.executeCxd4 vs vt acc).2.value i) := by
  cases op with
  | vmulf =>
    refine iff_of_true ?_ not_false
    rw [MacOp.executeCxd4, vmulf_eq]
    exact MacOp.execute_delivers .vmulf vs vt acc i
  | vmulu =>
    refine iff_of_true ?_ not_false
    rw [MacOp.executeCxd4, vmulf_eq]
    exact MacOp.execute_delivers .vmulu vs vt acc i
  | vmudl => exact iff_of_true (MacOp.execute_delivers .vmudl vs vt acc i) not_false
  | vmudm => exact iff_of_true (MacOp.execute_delivers .vmudm vs vt acc i) not_false
  | vmudn => exact iff_of_true (MacOp.execute_delivers .vmudn vs vt acc i) not_false
  | vmacf | vmudh | vmadm | vmadh => exact iff_of_true (signedClampAm_apply _ i) not_false
  | vmacu => exact unsignedClamp_iff _ i
  | vmadl => exact clampLow_iff _ i
  | vmadn => exact clampLow_iff _ i

/-- The clamps show in a lane, for the exact accumulators of a sequence. -/
def ClampsShow (i : Fin 8) : BitVec 48 → List MacInstr → Prop
  | _, [] => True
  | a, instr :: instrs =>
    let a := instr.op.next (instr.vs i) (instr.vt i) a
    ¬instr.op.MissesClamp a ∧ ClampsShow i a instrs

/-- The two cores leave the same vectors and accumulators after every instruction, for the
sequences in which every clamp shows. -/
theorem multiplyFamiliesAgree_iff (acc : Acc) (instrs : List MacInstr) :
    traceMac MacOp.executeCxd4 acc instrs = traceMac MacOp.execute acc instrs ↔
      ∀ i, ClampsShow i (acc.value i) instrs := by
  induction instrs generalizing acc with
  | nil => exact iff_of_true rfl fun _ => trivial
  | cons instr instrs ih =>
    have hacc := executeCxd4_acc instr.vs instr.vt acc instr.op
    have hvalue := MacOp.execute_value instr.op instr.vs instr.vt acc
    have hresult : (instr.op.executeCxd4 instr.vs instr.vt acc).1 =
          (instr.op.execute instr.vs instr.vt acc).1 ↔
        ∀ i, ¬instr.op.MissesClamp (instr.op.next (instr.vs i) (instr.vt i) (acc.value i)) := by
      rw [funext_iff]
      refine forall_congr' fun i => ?_
      have hdelivers := MacOp.executeCxd4_delivers_iff instr.op instr.vs instr.vt acc i
      rw [hacc, hvalue] at hdelivers
      rw [← hdelivers, MacOp.execute_delivers, hvalue]
    rw [traceMac, traceMac, List.cons.injEq, Prod.ext_iff, hacc, ih, hresult]
    simp only [ClampsShow, hvalue, and_true, forall_and]

end Agreement

def hiddenAcc : Acc := ⟨rspVzero, fun _ => 0x7FFF#16, fun _ => 1#16⟩

/-- Accumulating nothing there leaves the highest word in one core and the middle word in the
other. -/
theorem vmacu_trace_ne :
    traceMac MacOp.executeCxd4 hiddenAcc [⟨.vmacu, rspVzero, rspVzero⟩] ≠
      traceMac MacOp.execute hiddenAcc [⟨.vmacu, rspVzero, rspVzero⟩] := fun h =>
  absurd (congrFun (congrArg (fun l => (l.headD (rspVzero, hiddenAcc)).1) h) 0) (by decide)

end ParallelN64.Rsp
