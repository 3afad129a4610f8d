import ParallelN64.Rsp.VectorAdd

/-!
# Comparing and clipping in two cores

The flags of a lane say how the last comparison ended and what a second half of it needs. One
core has them as masks, the other as ones and zeros, which it also multiplies with. Clips of the
lowest word are lost in its hands, and so is a choice by a mask.
-/

namespace ParallelN64.Rsp

/-- The flags: both halves of `VCC`, with `ge` above, both halves of `VCO`, and `VCE`. -/
@[ext] structure CompareFlags (α : Type) where
  ge : α
  le : α
  ne : α
  co : α
  vce : α

def CompareFlags.map {α β : Type} (f : α → β) (flags : CompareFlags α) : CompareFlags β :=
  ⟨f flags.ge, f flags.le, f flags.ne, f flags.co, f flags.vce⟩

/-- The instructions that compare. -/
inductive CompareOp where
  | vlt | veq | vne | vge | vch | vcl | vcr
  deriving DecidableEq

/-- What an instruction leaves. -/
@[ext] structure CompareOutcome where
  result : M128i
  accLo : M128i
  flags : CompareFlags M128i

section Parallel

variable (vs vt zero : M128i)

/-- `_mm_cmplt_epi16`. -/
def cmpltEpi16 : M128i := fun i => laneMask ((vs i).slt (vt i))

/-- Choose by a mask, without `_mm_blendv_epi8`. -/
def selectSi128 (mask : M128i) : M128i := orSi128 (andSi128 mask vs) (andnotSi128 mask vt)

variable (eq sign : M128i)

/-- `rsp_veq`: the result and `le`. -/
def rspVeq : M128i × M128i :=
  let equal := cmpeqEpi16 vs vt
  let le := andnotSi128 eq equal
  (selectSi128 vs vt le, le)

/-- `rsp_vge`. -/
def rspVge : M128i × M128i :=
  let equal := cmpeqEpi16 vs vt
  let gt := cmpgtEpi16 vs vt
  let equalsign := andSi128 eq sign
  let equal := andnotSi128 equalsign equal
  let le := orSi128 gt equal
  (selectSi128 vs vt le, le)

/-- `rsp_vlt`. -/
def rspVlt : M128i × M128i :=
  let equal := cmpeqEpi16 vs vt
  let lt := cmpltEpi16 vs vt
  let equal := andSi128 eq equal
  let equal := andSi128 sign equal
  let le := orSi128 lt equal
  (selectSi128 vs vt le, le)

/-- `rsp_vne`. -/
def rspVne : M128i × M128i :=
  let equal := cmpeqEpi16 vs vt
  let nequal := cmpeqEpi16 equal zero
  let le := andSi128 eq equal
  let le := orSi128 le nequal
  (selectSi128 vs vt le, le)

/-- `rsp_vch`. -/
def rspVch : M128i × CompareFlags M128i :=
  let sign := xorSi128 vs vt
  let sign := cmpltEpi16 sign zero
  let signNegvt := xorSi128 vt sign
  let signNegvt := subEpi16 signNegvt sign
  let diff := subEpi16 vs signNegvt
  let diffZero := cmpeqEpi16 diff zero
  let vtNeg := cmpltEpi16 vt zero
  let diffLez := cmpgtEpi16 diff zero
  let diffGez := orSi128 diffLez diffZero
  let diffLez := cmpeqEpi16 zero diffLez
  let ge := selectSi128 vtNeg diffGez sign
  let le := selectSi128 diffLez vtNeg sign
  let vce := cmpeqEpi16 diff sign
  let vce := andSi128 vce sign
  let eq := orSi128 diffZero vce
  let eq := cmpeqEpi16 eq zero
  let diffSelMask := selectSi128 le ge sign
  (selectSi128 signNegvt vs diffSelMask, ⟨ge, le, eq, sign, vce⟩)

/-- `rsp_vcl`: the result, `ge` and `le`. -/
def rspVcl (ge le vce : M128i) : M128i × M128i × M128i :=
  let signNegvt := xorSi128 vt sign
  let signNegvt := subEpi16 signNegvt sign
  let diff := subEpi16 vs signNegvt
  let ncarry := addsEpu16 vs vt
  let ncarry := cmpeqEpi16 diff ncarry
  let nvce := cmpeqEpi16 vce zero
  let diffZero := cmpeqEpi16 diff zero
  let leCase1 := andSi128 diffZero ncarry
  let leCase1 := andSi128 nvce leCase1
  let leCase2 := orSi128 diffZero ncarry
  let leCase2 := andSi128 vce leCase2
  let leEq := orSi128 leCase1 leCase2
  let geEq := subsEpu16 vt vs
  let geEq := cmpeqEpi16 geEq zero
  let doLe := andnotSi128 eq sign
  let le := selectSi128 leEq le doLe
  let doGe := orSi128 sign eq
  let ge := selectSi128 ge geEq doGe
  let muxMask := selectSi128 le ge sign
  (selectSi128 signNegvt vs muxMask, ge, le)

/-- `rsp_vcr`: the result, `ge` and `le`. -/
def rspVcr : M128i × M128i × M128i :=
  let sign := xorSi128 vs vt
  let sign := sraiEpi16 sign 15
  let diffLez := andSi128 vs sign
  let diffLez := addEpi16 diffLez vt
  let le := sraiEpi16 diffLez 15
  let diffGez := orSi128 vs sign
  let diffGez := minEpi16 diffGez vt
  let ge := cmpeqEpi16 diffGez vt
  let signNotvt := xorSi128 vt sign
  let diffSelMask := subEpi16 le ge
  let diffSelMask := andSi128 diffSelMask sign
  let diffSelMask := addEpi16 diffSelMask ge
  let zero := subEpi16 signNotvt vs
  let zero := andSi128 zero diffSelMask
  (addEpi16 zero vs, ge, le)

end Parallel

/-- `RSP_VLT` and the others. -/
def CompareOp.execute (op : CompareOp) (vs vt : M128i) (flags : CompareFlags M128i) :
    CompareOutcome :=
  let compared (outcome : M128i × M128i) : CompareOutcome :=
    ⟨outcome.1, outcome.1, ⟨rspVzero, outcome.2, rspVzero, rspVzero, flags.vce⟩⟩
  let clipped (outcome : M128i × M128i × M128i) : CompareOutcome :=
    ⟨outcome.1, outcome.1, ⟨outcome.2.1, outcome.2.2, rspVzero, rspVzero, rspVzero⟩⟩
  match op with
  | vlt => compared (rspVlt vs vt flags.ne flags.co)
  | veq => compared (rspVeq vs vt flags.ne)
  | vne => compared (rspVne vs vt rspVzero flags.ne)
  | vge => compared (rspVge vs vt flags.ne flags.co)
  | vch => ⟨(rspVch vs vt rspVzero).1, (rspVch vs vt rspVzero).1, (rspVch vs vt rspVzero).2⟩
  | vcl => clipped (rspVcl vs vt rspVzero flags.ne flags.co flags.ge flags.le flags.vce)
  | vcr => clipped (rspVcr vs vt)

/-- What lanes leave, put together. -/
def CompareOutcome.ofLanes (lanes : Fin 8 → BitVec 16 × CompareFlags (BitVec 16)) :
    CompareOutcome where
  result i := (lanes i).1
  accLo i := (lanes i).1
  flags := ⟨fun i => (lanes i).2.ge, fun i => (lanes i).2.le, fun i => (lanes i).2.ne,
    fun i => (lanes i).2.co, fun i => (lanes i).2.vce⟩

theorem CompareOutcome.ofLanes_inj {f g : Fin 8 → BitVec 16 × CompareFlags (BitVec 16)} :
    ofLanes f = ofLanes g ↔ f = g := by
  refine ⟨fun h => funext fun i => ?_, congrArg ofLanes⟩
  simp only [ofLanes, mk.injEq, CompareFlags.mk.injEq, funext_iff] at h
  obtain ⟨hresult, -, hge, hle, hne, hco, hvce⟩ := h
  exact Prod.ext (hresult i) (CompareFlags.ext (hge i) (hle i) (hne i) (hco i) (hvce i))

section Cxd4

-- Every loop of the other core goes over the lanes, and none looks at another lane.
variable (vs vt : BitVec 16) (flags : CompareFlags (BitVec 16))

/-- `merge`. -/
def merge (cmp pass fail : BitVec 16) : BitVec 16 := fail + cmp * (pass - fail)

/-- `do_lt`. -/
def doLt : BitVec 16 × CompareFlags (BitVec 16) :=
  let cn := flags.ne &&& flags.co
  let eq := flagWord (vs == vt) &&& cn
  let comp := flagWord (vs.slt vt) ||| eq
  (merge comp vs vt, ⟨0#16, comp, 0#16, 0#16, flags.vce⟩)

/-- `do_eq`. -/
def doEq : BitVec 16 × CompareFlags (BitVec 16) :=
  (vt, ⟨0#16, flagWord (vs == vt) &&& (flags.ne ^^^ 1#16), 0#16, 0#16, flags.vce⟩)

/-- `do_ne`. -/
def doNe : BitVec 16 × CompareFlags (BitVec 16) :=
  (vs, ⟨0#16, flagWord (vs != vt) ||| flags.ne, 0#16, 0#16, flags.vce⟩)

/-- `do_ge`. -/
def doGe : BitVec 16 × CompareFlags (BitVec 16) :=
  let ce := (flags.ne &&& flags.co) ^^^ 1#16
  let eq := flagWord (vs == vt) &&& ce
  let comp := flagWord (vt.slt vs) ||| eq
  (merge comp vs vt, ⟨0#16, comp, 0#16, 0#16, flags.vce⟩)

/-- `do_cl`. -/
def doCl : BitVec 16 × CompareFlags (BitVec 16) :=
  let eq := flags.ne ^^^ 1#16
  let sn := flags.co
  let vc := vt ^^^ -sn
  let vc := vc + sn
  let diff := vs - vc
  let uz := BitVec.ofInt 16 ((vs.toNat + vt.toNat - 65536 : Int) >>> (31 : Nat))
  let lz := flagWord (diff == 0#16)
  let gen := lz ||| uz
  let len := lz &&& uz
  let gen := gen &&& flags.vce
  let len := len &&& (flags.vce ^^^ 1#16)
  let len := len ||| gen
  let gen := flagWord (vc.ule vs)
  let le := merge (eq &&& sn) len flags.le
  let ge := merge (eq &&& (sn ^^^ 1#16)) gen flags.ge
  let cmp := merge sn le ge
  (merge cmp vc vs, ⟨ge, le, 0#16, 0#16, 0#16⟩)

/-- `do_ch`. -/
def doCh : BitVec 16 × CompareFlags (BitVec 16) :=
  let cch := laneMask (vt == 0x8000#16)
  let sn := laneMask ((vs ^^^ vt).slt 0#16)
  let vc := vt ^^^ sn
  let vce := flagWord (vs == vc)
  let vce := vce &&& sn
  let vc := vc - (sn &&& ~~~cch)
  let eq := flagWord (vs == vc) &&& ~~~cch
  let eq := eq ||| vce
  let diff := sn ||| vs
  let ge := flagWord (vt.sle diff)
  let sn := sn >>> 15
  let diff := vc - vs
  let diff := flagWord ((0#16).sle diff)
  let le := flagWord (vt.slt 0#16)
  let le := merge sn diff le
  let comp := merge sn le ge
  (merge comp vc vs, ⟨ge, le, eq ^^^ 1#16, sn, vce⟩)

/-- `do_cr`, which chooses by a mask. -/
def doCr : BitVec 16 × CompareFlags (BitVec 16) :=
  let sn := laneMask ((vs ^^^ vt).slt 0#16)
  let cmp := ~~~(vs &&& sn)
  let le := flagWord (vt.sle cmp)
  let cmp := vs ||| sn
  let ge := flagWord (vt.sle cmp)
  let vc := vt ^^^ sn
  let cmp := merge sn le ge
  (merge cmp vc vs, ⟨ge, le, 0#16, 0#16, 0#16⟩)

def CompareOp.lane (op : CompareOp) : BitVec 16 × CompareFlags (BitVec 16) :=
  match op with
  | vlt => doLt vs vt flags
  | veq => doEq vs vt flags
  | vne => doNe vs vt flags
  | vge => doGe vs vt flags
  | vch => doCh vs vt
  | vcl => doCl vs vt flags
  | vcr => doCr vs vt

/-- `VLT` and the others. -/
def CompareOp.executeCxd4 (op : CompareOp) (vs vt : M128i) (flags : CompareFlags M128i) :
    CompareOutcome :=
  .ofLanes fun i => op.lane (vs i) (vt i) (flags.map (· i))

end Cxd4

/-- Which flags a comparison sets in a lane, and which operand it chooses. -/
def CompareOp.meant (op : CompareOp) (s t : BitVec 16) (flags : CompareFlags Bool) :
    BitVec 16 × CompareFlags Bool :=
  let compared (le : Bool) := (if le then s else t, ⟨false, le, false, false, flags.vce⟩)
  match op with
  | vlt => compared (s.slt t || flags.ne && flags.co && s == t)
  | veq => compared (s == t && !flags.ne)
  | vne => compared (s != t || flags.ne)
  | vge => compared (t.slt s || s == t && !(flags.ne && flags.co))
  | vch =>
    let sign := (s ^^^ t).msb
    let diff := if sign then s + t else s - t
    let ge := if sign then t.msb else t.sle s
    let le := if sign then diff.sle 0#16 else t.msb
    let vce := sign && diff == 0xFFFF#16
    (if (if sign then le else ge) then (if sign then -t else t) else s,
      ⟨ge, le, !(diff == 0#16 || vce), sign, vce⟩)
  | vcl =>
    let fits := decide (s.toNat + t.toNat < 65536)
    let le := if flags.co && !flags.ne then
      (if flags.vce then s + t == 0#16 || fits else s + t == 0#16 && fits) else flags.le
    let ge := if flags.co || flags.ne then flags.ge else t.ule s
    (if (if flags.co then le else ge) then (if flags.co then -t else t) else s,
      ⟨ge, le, false, false, false⟩)
  | vcr =>
    let sign := (s ^^^ t).msb
    let le := if sign then (s + t).msb else t.msb
    let ge := if sign then t.msb else t.sle s
    (if (if sign then le else ge) then (if sign then ~~~t else t) else s,
      ⟨ge, le, false, false, false⟩)

section Words

variable (p q : Bool) (x y : BitVec 16)

theorem laneMask_or_laneMask : laneMask p ||| laneMask q = laneMask (p || q) := by
  revert p q
  decide

theorem select_word : laneMask p &&& x ||| laneMask (!p) &&& y = if p then x else y := by
  rw [laneMask_and, laneMask_and]
  cases p
  · exact BitVec.zero_or
  · exact BitVec.or_zero

theorem negate_by_mask : (x ^^^ laneMask p) - laneMask p = if p then -x else x := by
  cases p
  · exact (BitVec.sub_zero _).trans BitVec.xor_zero
  · rw [sub_laneMask_eq_add, if_pos rfl, BitVec.neg_eq_not_add]
    exact congrArg (· + 1#16) BitVec.xor_allOnes

theorem sub_negate : x - (if p then -y else y) = if p then x + y else x - y := by
  cases p
  · rfl
  · exact sub_neg_eq_add x y

theorem xor_laneMask : x ^^^ laneMask p = if p then ~~~x else x := by
  cases p
  · exact BitVec.xor_zero
  · exact BitVec.xor_allOnes

theorem negate_unless : (if p then ~~~x else x) - laneMask (p && !q) =
    if p then (if q then ~~~x else -x) else x := by
  cases p with
  | false => exact BitVec.sub_zero x
  | true =>
    cases q with
    | false =>
      refine Eq.trans ?_ (negate_by_mask true x)
      rw [xor_laneMask]
      rfl
    | true => exact BitVec.sub_zero _

theorem sshiftRight_msb : x.sshiftRight 15 = laneMask x.msb := by
  rw [sshiftRight_fifteen, BitVec.msb_eq_decide]

theorem zero_beq_laneMask : (0#16 == laneMask p) = !p := by
  revert p
  decide

theorem minimum_beq : ((if x.slt y then x else y) == y) = y.sle x := by
  rw [BitVec.sle_eq_not_slt]
  split
  · next h =>
    rw [h, beq_eq_false_iff_ne.mpr]
    · rfl
    · rintro rfl
      exact absurd h (by simp [BitVec.slt])
  · next h => rw [eq_false_of_ne_true h, beq_self_eq_true, Bool.not_false]

theorem choose_by_difference (r : Bool) :
    ((x - y) &&& ((laneMask p - laneMask q &&& laneMask r) + laneMask q)) + y =
      if (if r then p else q) then x else y := by
  have hmask : (laneMask p - laneMask q &&& laneMask r) + laneMask q =
      laneMask (if r then p else q) := by
    revert p q r
    decide
  rw [hmask, BitVec.and_comm, laneMask_and]
  cases if r then p else q
  · exact BitVec.zero_add y
  · exact BitVec.sub_add_cancel x y

theorem laneMask_ushiftRight : laneMask p >>> 15 = flagWord p := by
  revert p
  decide

theorem sle_laneMask_or : x.sle (laneMask p ||| y) = if p then x.msb else x.sle y := by
  rw [laneMask_or]
  cases p with
  | false => rfl
  | true =>
    rw [if_pos rfl, if_pos rfl, BitVec.sle_eq_decide, BitVec.msb_eq_toInt]
    exact decide_eq_decide.mpr (Int.le_sub_one_iff (n := 0))

theorem ofInt_borrow : BitVec.ofInt 16 ((x.toNat + y.toNat - 65536 : Int) >>> (31 : Nat)) =
    laneMask (decide (x.toNat + y.toNat < 65536)) := by
  have hx := x.isLt
  have hy := y.isLt
  have hshift (z : Int) : z >>> (31 : Nat) = z / 0x80000000 := Int.shiftRight_eq_div_pow z 31
  rw [hshift]
  by_cases h : x.toNat + y.toNat < 65536
  · rw [decide_eq_true h, show (x.toNat + y.toNat - 65536 : Int) / 0x80000000 = -1 by omega]
    rfl
  · rw [decide_eq_false h, show (x.toNat + y.toNat - 65536 : Int) / 0x80000000 = 0 by omega]
    rfl

theorem negate_by_flag : (x ^^^ -flagWord p) + flagWord p = if p then -x else x := by
  have h := negate_by_mask p x
  rw [sub_laneMask_eq_add] at h
  rw [← h]
  cases p <;> rfl

theorem merge_word : merge (flagWord p) x y = if p then x else y := by
  cases p
  · exact (congrArg (y + ·) BitVec.zero_mul).trans (BitVec.add_zero y)
  · rw [merge, flagWord, if_pos rfl, BitVec.one_mul, BitVec.add_comm]
    exact BitVec.sub_add_cancel x y

theorem ite_flagWord (r : Bool) :
    (if p then flagWord q else flagWord r) = flagWord (if p then q else r) := by
  revert p q r
  decide

theorem flagWord_and : flagWord p &&& flagWord q = flagWord (p && q) := by
  revert p q
  decide

theorem flagWord_or : flagWord p ||| flagWord q = flagWord (p || q) := by
  revert p q
  decide

theorem flagWord_xor_one : flagWord p ^^^ 1#16 = flagWord !p := by
  revert p
  decide

theorem flagWord_and_laneMask : flagWord p &&& laneMask q = flagWord (p && q) := by
  revert p q
  decide

theorem flagWord_or_laneMask (r : Bool) :
    (flagWord p ||| laneMask q) &&& flagWord r = flagWord ((p || q) && r) := by
  revert p q r
  decide

end Words

def encodeFlags (flag : Bool → BitVec 16) (flags : Fin 8 → CompareFlags Bool) :
    CompareFlags M128i :=
  ⟨fun i => flag (flags i).ge, fun i => flag (flags i).le, fun i => flag (flags i).ne,
    fun i => flag (flags i).co, fun i => flag (flags i).vce⟩

def CompareOp.encode (flag : Bool → BitVec 16) (op : CompareOp) (vs vt : M128i)
    (flags : Fin 8 → CompareFlags Bool) : CompareOutcome :=
  .ofLanes fun i => (op.meant (vs i) (vt i) (flags i)).map id (CompareFlags.map flag)

section Each

variable (s t : BitVec 16) (flags : CompareFlags Bool)

theorem doLt_meant : doLt s t (flags.map flagWord) =
    (CompareOp.vlt.meant s t flags).map id (CompareFlags.map flagWord) := by
  simp only [doLt, CompareFlags.map, flagWord_and, flagWord_or, merge_word, CompareOp.meant,
    Bool.and_comm (s == t)]
  rfl

theorem doGe_meant : doGe s t (flags.map flagWord) =
    (CompareOp.vge.meant s t flags).map id (CompareFlags.map flagWord) := by
  simp only [doGe, CompareFlags.map, flagWord_and, flagWord_or, flagWord_xor_one, merge_word,
    CompareOp.meant]
  rfl

theorem doEq_meant : doEq s t (flags.map flagWord) =
    (CompareOp.veq.meant s t flags).map id (CompareFlags.map flagWord) := by
  have hsame : (if s == t && !flags.ne then s else t) = t := by
    split
    · next h => exact eq_of_beq (Bool.and_eq_true_iff.mp h).1
    · rfl
  simp only [doEq, CompareFlags.map, flagWord_and, flagWord_xor_one, CompareOp.meant, hsame]
  rfl

theorem doNe_meant : doNe s t (flags.map flagWord) =
    (CompareOp.vne.meant s t flags).map id (CompareFlags.map flagWord) := by
  have hsame : (if s != t || flags.ne then s else t) = s := by
    split
    · rfl
    · next h => exact (Eq.symm (by simpa using (not_or.mp (mt Bool.or_eq_true_iff.mpr h)).1))
  simp only [doNe, CompareFlags.map, flagWord_or, CompareOp.meant, hsame]
  rfl

theorem doCl_meant : doCl s t (flags.map flagWord) =
    (CompareOp.vcl.meant s t flags).map id (CompareFlags.map flagWord) := by
  simp only [doCl, CompareFlags.map, ofInt_borrow, flagWord_xor_one, flagWord_and_laneMask,
    flagWord_or_laneMask, flagWord_and, flagWord_or, negate_by_flag, sub_negate, ite_flagWord,
    merge_word, CompareOp.meant]
  cases flags.co <;> cases flags.ne <;> cases flags.vce <;> simp [CompareFlags.map] <;> rfl

theorem same_sign (h : (s ^^^ t).msb = false) : 0 ≤ s.toInt ↔ 0 ≤ t.toInt := by
  rw [BitVec.msb_xor, BitVec.msb_eq_toInt, BitVec.msb_eq_toInt] at h
  simp only [bne_eq_false_iff_eq, decide_eq_decide] at h
  omega

theorem toInt_sub_of_same (h : (s ^^^ t).msb = false) :
    (s - t).toInt = s.toInt - t.toInt := by
  have hs := toInt_bounds s
  have ht := toInt_bounds t
  have hsigns := same_sign s t h
  rw [BitVec.toInt_sub]
  apply Int.bmod_eq_of_le <;> omega

theorem other_sign (h : (s ^^^ t).msb = true) :
    (0 ≤ s.toInt ↔ t.toInt < 0) ∧ (s + t).toInt = s.toInt + t.toInt := by
  have hs := toInt_bounds s
  have ht := toInt_bounds t
  rw [BitVec.msb_xor, BitVec.msb_eq_toInt, BitVec.msb_eq_toInt] at h
  have hsign : 0 ≤ s.toInt ↔ t.toInt < 0 := by
    simp only [bne_iff_ne, ne_eq, decide_eq_decide] at h
    omega
  refine ⟨hsign, ?_⟩
  rw [BitVec.toInt_add]
  apply Int.bmod_eq_of_le <;> omega

/-- Which clips of the other core go wrong: a bound of the lowest word is not negated, nor found
equal to itself, the difference from nothing to the lowest word is too large, and a choice by a
mask is right only where both flags are the same. -/
def CompareOp.Corner (op : CompareOp) (s t : BitVec 16) : Prop :=
  match op with
  | vch => t.toInt = -0x8000 ∧ (0 ≤ s.toInt ∨ s.toInt = -0x8000) ∨
      s.toInt = -0x8000 ∧ t.toInt = 0
  | vcr => t.toInt < 0 ∧ 0 ≤ s.toInt + t.toInt ∨
      s.toInt < 0 ∧ 0 ≤ t.toInt ∧ s.toInt + t.toInt < -1
  | _ => False

theorem doCh_eq :
    doCh s t =
      let sign := (s ^^^ t).msb
      let lowest := t == 0x8000#16
      let vc := if sign then (if lowest then ~~~t else -t) else t
      let ge := if sign then t.msb else t.sle s
      let le := if sign then (0#16).sle (vc - s) else t.msb
      let vce := s == ~~~t && sign
      (if (if sign then le else ge) then vc else s,
        ⟨flagWord ge, flagWord le, flagWord !(s == vc && !lowest || vce), flagWord sign,
          flagWord vce⟩) := by
  simp only [doCh, xor_laneMask, not_laneMask, laneMask_and_laneMask, negate_unless,
    laneMask_ushiftRight, sle_laneMask_or, flagWord_and_laneMask, flagWord_or, flagWord_xor_one,
    ite_flagWord, merge_word, BitVec.slt_zero_eq_msb]
  cases (s ^^^ t).msb with
  | false => simp only [Bool.and_false, Bool.false_eq_true, if_false]
  | true => rfl

theorem eq_lowest_iff : t = 0x8000#16 ↔ t.toInt = -0x8000 :=
  ⟨fun h => h ▸ rfl, fun h => BitVec.eq_of_toInt_eq h⟩

theorem flagWord_inj (p q : Bool) : flagWord p = flagWord q ↔ p = q := by
  revert p q
  decide

theorem doCh_same (h : (s ^^^ t).msb = false) :
    doCh s t = (CompareOp.vch.meant s t flags).map id (CompareFlags.map flagWord) ↔
      ¬(t = 0x8000#16 ∧ s = 0x8000#16) := by
  have hdiff : (s - t == 0#16) = (s == t) := by
    rw [beq_eq_decide, beq_eq_decide]
    exact decide_eq_decide.mpr sub_eq_zero
  simp only [doCh_eq, CompareOp.meant, h, hdiff, Bool.false_eq_true, if_false, Bool.and_false,
    Bool.false_and, Bool.or_false, Prod.map, id, CompareFlags.map, Prod.mk.injEq,
    CompareFlags.mk.injEq, true_and, and_true, flagWord_inj]
  by_cases heq : s = t
  · subst heq
    simp
  · refine iff_of_true ?_ fun hlow => heq (hlow.2.trans hlow.1.symm)
    rw [beq_eq_false_iff_ne.mpr heq, Bool.false_and]

theorem doCh_other (h : (s ^^^ t).msb = true) :
    doCh s t = (CompareOp.vch.meant s t flags).map id (CompareFlags.map flagWord) ↔
      ¬(t = 0x8000#16 ∨ s = 0x8000#16 ∧ t = 0#16) := by
  obtain ⟨hsign, hsum⟩ := other_sign s t h
  have hs := toInt_bounds s
  have ht := toInt_bounds t
  have hnot : (s + t == 0xFFFF#16) = (s == ~~~t) := by
    rw [beq_eq_decide, beq_eq_decide]
    refine decide_eq_decide.mpr ?_
    rw [← BitVec.toNat_inj, ← BitVec.toNat_inj]
    bv_omega
  simp only [doCh_eq, CompareOp.meant, h, hnot, if_true, Bool.and_true, Bool.true_and,
    Prod.map, id, CompareFlags.map, Prod.mk.injEq,
    CompareFlags.mk.injEq, true_and, and_true, flagWord_inj]
  by_cases hlow : t = 0x8000#16
  · refine iff_of_false ?_ fun hspared => hspared (.inl hlow)
    subst hlow
    have hword : (0x8000#16).toInt = -0x8000 := rfl
    rw [hword] at hsign hsum
    have hpositive : (0#16).sle (~~~0x8000#16 - s) = true := by
      have hhighest : (~~~0x8000#16).toInt = 0x7FFF := rfl
      rw [BitVec.sle_eq_decide, BitVec.toInt_sub, hhighest, BitVec.toInt_zero,
        Int.bmod_eq_of_le (by omega) (by omega)]
      exact decide_eq_true (by omega)
    have hle : (s + 0x8000#16).sle 0#16 = true := by
      rw [BitVec.sle_eq_decide, hsum]
      exact decide_eq_true (show s.toInt + -0x8000 ≤ 0 by omega)
    rintro ⟨hresult, -⟩
    simp only [beq_self_eq_true, if_true, hpositive, hle] at hresult
    exact absurd hresult (by decide)
  have hnegate : (t == 0x8000#16) = false := beq_eq_false_iff_ne.mpr hlow
  have hequal : (s == -t) = (s + t == 0#16) := by
    rw [beq_eq_decide, beq_eq_decide]
    exact decide_eq_decide.mpr eq_neg_iff_add_eq_zero
  rw [hnegate]
  simp only [Bool.false_eq_true, if_false, Bool.not_false, Bool.and_true, hequal, and_true]
  by_cases hcorner : s = 0x8000#16 ∧ t = 0#16
  · refine iff_of_false ?_ fun hspared => hspared (.inr hcorner)
    rw [hcorner.1, hcorner.2]
    decide
  · have hle : (0#16).sle (-t - s) = (s + t).sle 0#16 := by
      have hne : s.toInt + t.toInt ≠ -0x8000 := by
        intro hsame
        have hnotLow := mt (eq_lowest_iff t).mpr hlow
        refine hcorner ⟨(eq_lowest_iff s).mpr (by omega), BitVec.eq_of_toInt_eq ?_⟩
        rw [BitVec.toInt_zero]
        omega
      rw [BitVec.sle_eq_decide, BitVec.sle_eq_decide, ← neg_add', BitVec.add_comm t,
        BitVec.toInt_neg,
        hsum, Int.bmod_eq_of_le (by omega) (by omega), BitVec.toInt_zero]
      exact decide_eq_decide.mpr (by omega)
    rw [hle]
    exact iff_of_true ⟨rfl, rfl⟩ (not_or.mpr ⟨hlow, hcorner⟩)

theorem sle_not_and : t.sle (~~~(s &&& laneMask (s ^^^ t).msb)) =
    if (s ^^^ t).msb then (s + t).msb else t.msb := by
  cases h : (s ^^^ t).msb with
  | false =>
    have hones : ~~~(s &&& laneMask false) = laneMask true ||| 0#16 :=
      congrArg (~~~·) BitVec.and_zero
    rw [hones, sle_laneMask_or]
    rfl
  | true =>
    have hall : s &&& laneMask true = s := BitVec.and_allOnes
    rw [hall, if_pos rfl, BitVec.sle_eq_decide, BitVec.msb_eq_toInt, toInt_not_word,
      (other_sign s t h).2]
    exact decide_eq_decide.mpr (by omega)

theorem doCr_eq :
    doCr s t =
      let sign := (s ^^^ t).msb
      let le := if sign then (s + t).msb else t.msb
      let ge := if sign then t.msb else t.sle s
      (merge (merge (laneMask sign) (flagWord le) (flagWord ge)) (if sign then ~~~t else t) s,
        ⟨flagWord ge, flagWord le, 0#16, 0#16, 0#16⟩) := by
  simp only [doCr, BitVec.slt_zero_eq_msb, sle_not_and, BitVec.or_comm s, sle_laneMask_or,
    xor_laneMask]

theorem add_self_eq_zero_iff (x : BitVec 16) (h : x.toInt ≠ -0x8000) :
    x + x = 0#16 ↔ x.toInt = 0 := by
  have hx := toInt_bounds x
  rw [← BitVec.toInt_inj, BitVec.toInt_add, BitVec.toInt_zero, Int.bmod]
  split <;> omega

theorem doCr_same (h : (s ^^^ t).msb = false) :
    doCr s t = (CompareOp.vcr.meant s t flags).map id (CompareFlags.map flagWord) := by
  have hmerge (p q : Bool) : merge (laneMask false) (flagWord p) (flagWord q) = flagWord q := by
    revert p q
    decide
  simp only [doCr_eq, CompareOp.meant, h, hmerge, merge_word, Bool.false_eq_true, if_false]
  rfl

theorem doCr_other (h : (s ^^^ t).msb = true) :
    doCr s t = (CompareOp.vcr.meant s t flags).map id (CompareFlags.map flagWord) ↔
      ¬(t.toInt < 0 ∧ 0 ≤ s.toInt + t.toInt ∨ 0 ≤ t.toInt ∧ s.toInt + t.toInt < -1) := by
  obtain ⟨hsign, hsum⟩ := other_sign s t h
  have hs := toInt_bounds s
  have ht := toInt_bounds t
  have hle : (s + t).msb = decide (s.toInt + t.toInt < 0) := by rw [BitVec.msb_eq_toInt, hsum]
  have hge : t.msb = decide (t.toInt < 0) := BitVec.msb_eq_toInt
  have hdifference : (~~~t - s).toInt = -t.toInt - 1 - s.toInt := by
    rw [BitVec.toInt_sub, toInt_not_word, Int.bmod_eq_of_le (by omega) (by omega)]
  have htwice := add_self_eq_zero_iff (~~~t - s) (by omega)
  rw [hdifference] at htwice
  simp only [doCr_eq, CompareOp.meant, h, if_true, Prod.map, id, CompareFlags.map, Prod.mk.injEq]
  rw [hle, hge]
  by_cases hless : s.toInt + t.toInt < 0
  · by_cases hneg : t.toInt < 0
    · rw [decide_eq_true hless, decide_eq_true hneg]
      exact iff_of_true ⟨merge_word true _ _, rfl⟩ (by omega)
    · rw [decide_eq_true hless, decide_eq_false hneg]
      have hminus : merge (merge (laneMask true) (flagWord true) (flagWord false)) (~~~t) s = ~~~t ↔
          ~~~t - s + (~~~t - s) = 0#16 := by
        have hk : merge (laneMask true) (flagWord true) (flagWord false) = -1 := by decide
        rw [hk, merge, eq_comm, ← sub_eq_zero]
        exact iff_of_eq (congrArg (· = 0#16) (by ring))
      refine (and_iff_left rfl).trans (hminus.trans (htwice.trans ?_))
      omega
  · by_cases hneg : t.toInt < 0
    · rw [decide_eq_false hless, decide_eq_true hneg]
      have htwo : merge (merge (laneMask true) (flagWord false) (flagWord true)) (~~~t) s = s ↔
          ~~~t - s + (~~~t - s) = 0#16 := by
        have hk : merge (laneMask true) (flagWord false) (flagWord true) = 2 := by decide
        rw [hk, merge, add_eq_left]
        exact iff_of_eq (congrArg (· = 0#16) (by ring))
      refine (and_iff_left rfl).trans (htwo.trans (htwice.trans ?_))
      omega
    · rw [decide_eq_false hless, decide_eq_false hneg]
      exact iff_of_true ⟨merge_word false _ _, rfl⟩ (by omega)

theorem CompareOp.lane_meant_iff (op : CompareOp) :
    op.lane s t (flags.map flagWord) = (op.meant s t flags).map id (CompareFlags.map flagWord) ↔
      ¬op.Corner s t := by
  have hs := toInt_bounds s
  have ht := toInt_bounds t
  cases op with
  | vlt => exact iff_of_true (doLt_meant s t flags) not_false
  | veq => exact iff_of_true (doEq_meant s t flags) not_false
  | vne => exact iff_of_true (doNe_meant s t flags) not_false
  | vge => exact iff_of_true (doGe_meant s t flags) not_false
  | vcl => exact iff_of_true (doCl_meant s t flags) not_false
  | vch =>
    have hzero : t = 0#16 ↔ t.toInt = 0 := BitVec.toInt_inj.symm
    cases h : (s ^^^ t).msb with
    | false =>
      have hsigns := same_sign s t h
      refine (doCh_same s t flags h).trans (not_congr ?_)
      rw [eq_lowest_iff, eq_lowest_iff, Corner]
      omega
    | true =>
      have hsigns := (other_sign s t h).1
      refine (doCh_other s t flags h).trans (not_congr ?_)
      rw [eq_lowest_iff, eq_lowest_iff, hzero, Corner]
      omega
  | vcr =>
    cases h : (s ^^^ t).msb with
    | false =>
      have hsigns := same_sign s t h
      refine iff_of_true (doCr_same s t flags h) ?_
      rw [Corner]
      omega
    | true =>
      have hsigns := (other_sign s t h).1
      refine (doCr_other s t flags h).trans (not_congr ?_)
      rw [Corner]
      omega

theorem sle_of_same (h : (s ^^^ t).msb = false) :
    ((0#16).slt (s - t) || s - t == 0#16) = t.sle s := by
  have hdifference := toInt_sub_of_same s t h
  rw [BitVec.slt_eq_decide, BitVec.sle_eq_decide, beq_eq_decide, ← Bool.decide_or]
  refine decide_eq_decide.mpr ?_
  rw [← BitVec.toInt_inj, hdifference, BitVec.toInt_zero]
  omega

theorem msb_and_add : ((s &&& laneMask (s ^^^ t).msb) + t).msb =
    if (s ^^^ t).msb then (s + t).msb else t.msb := by
  rw [BitVec.and_comm, laneMask_and]
  split
  · rfl
  · exact congrArg BitVec.msb (BitVec.zero_add t)

def CompareOutcome.laneAt (outcome : CompareOutcome) (i : Fin 8) :
    BitVec 16 × CompareFlags (BitVec 16) :=
  (outcome.result i, outcome.flags.map (· i))

theorem CompareOutcome.eq_ofLanes {outcome : CompareOutcome}
    {lanes : Fin 8 → BitVec 16 × CompareFlags (BitVec 16)} (hacc : outcome.accLo = outcome.result)
    (h : ∀ i, outcome.laneAt i = lanes i) : outcome = .ofLanes lanes := by
  obtain rfl := funext h
  obtain ⟨result, accLo, flags⟩ := outcome
  exact congrArg (mk result · flags) hacc

theorem CompareOp.execute_meant (op : CompareOp) (vs vt : M128i)
    (flags : Fin 8 → CompareFlags Bool) :
    op.execute vs vt (encodeFlags laneMask flags) = op.encode laneMask vs vt flags := by
  refine CompareOutcome.eq_ofLanes (by cases op <;> rfl) fun i => ?_
  cases op with
  | vlt =>
    have hswap (le p q r : Bool) : (le || p && (q && r)) = (le || q && p && r) := by
      revert le p q r
      decide
    simp only [CompareOutcome.laneAt, execute, rspVlt, selectSi128, orSi128, andSi128, andnotSi128,
      cmpltEpi16, cmpeqEpi16, encodeFlags, CompareFlags.map, not_laneMask, laneMask_and_laneMask,
      laneMask_or_laneMask, select_word, hswap]
    rfl
  | veq =>
    simp only [CompareOutcome.laneAt, execute, rspVeq, selectSi128, orSi128, andSi128, andnotSi128,
      cmpeqEpi16, encodeFlags, CompareFlags.map, not_laneMask, laneMask_and_laneMask, select_word,
      Bool.and_comm (!(flags i).ne)]
    rfl
  | vne =>
    have hswap (p q : Bool) : (p && q || !q) = (!q || p) := by
      revert p q
      decide
    simp only [CompareOutcome.laneAt, execute, rspVne, selectSi128, orSi128, andSi128, andnotSi128,
      cmpeqEpi16, encodeFlags, CompareFlags.map, laneMask_and_laneMask, rspVzero, laneMask_beq_zero,
      laneMask_or_laneMask, not_laneMask, select_word, hswap]
    rfl
  | vge =>
    simp only [CompareOutcome.laneAt, execute, rspVge, selectSi128, orSi128, andSi128, andnotSi128,
      cmpgtEpi16, cmpeqEpi16, encodeFlags, CompareFlags.map, not_laneMask, laneMask_and_laneMask,
      laneMask_or_laneMask, select_word, Bool.and_comm (!((flags i).ne && _))]
    rfl
  | vch =>
    simp only [CompareOutcome.laneAt, execute, rspVch, selectSi128, orSi128, andSi128, andnotSi128,
      xorSi128, subEpi16, rspVzero, cmpgtEpi16, cmpltEpi16, cmpeqEpi16, CompareFlags.map,
      not_laneMask, laneMask_and_laneMask, laneMask_or_laneMask, laneMask_beq_zero, select_word,
      zero_beq_laneMask, BitVec.slt_zero_eq_msb, negate_by_mask, sub_negate,
      ← BitVec.sle_eq_not_slt]
    cases h : (vs i ^^^ vt i).msb with
    | false =>
      simp only [meant, h, sle_of_same _ _ h, Bool.false_and, Bool.not_false, Bool.true_and,
        Bool.false_or, Bool.false_eq_true, if_false, Bool.and_false]
      rfl
    | true =>
      simp only [meant, h, Bool.true_and, Bool.not_true, Bool.false_and, Bool.or_false, if_true,
        Bool.and_true]
      rfl
  | vcl =>
    simp only [CompareOutcome.laneAt, execute, rspVcl, selectSi128, orSi128, andSi128, andnotSi128,
      xorSi128, subEpi16, addsEpu16, rspVzero, cmpeqEpi16, encodeFlags, CompareFlags.map,
      not_laneMask, laneMask_and_laneMask, laneMask_or_laneMask, laneMask_beq_zero, select_word,
      negate_by_mask, sub_negate, subsEpu16_beq_zero]
    cases hco : (flags i).co with
    | false =>
      cases hne : (flags i).ne <;> simp [meant, hco, hne, CompareFlags.map, BitVec.ule] <;> rfl
    | true =>
      cases hne : (flags i).ne <;> cases hvce : (flags i).vce <;>
        simp [meant, hco, hne, hvce, CompareFlags.map, add_beq_saturatingAdd] <;> rfl
  | vcr =>
    simp only [CompareOutcome.laneAt, execute, rspVcr, orSi128, andSi128, xorSi128, subEpi16,
      addEpi16, sraiEpi16, cmpeqEpi16, minEpi16, CompareFlags.map, sshiftRight_msb, xor_laneMask,
      minimum_beq, BitVec.or_comm (vs i), sle_laneMask_or, msb_and_add, choose_by_difference]
    rfl

theorem CompareOp.executeCxd4_meant_iff (op : CompareOp) (vs vt : M128i)
    (flags : Fin 8 → CompareFlags Bool) :
    op.executeCxd4 vs vt (encodeFlags flagWord flags) = op.encode flagWord vs vt flags ↔
      ∀ i, ¬op.Corner (vs i) (vt i) := by
  rw [executeCxd4, encode, CompareOutcome.ofLanes_inj, funext_iff]
  exact forall_congr' fun i => op.lane_meant_iff (vs i) (vt i) (flags i)

end Each

/-- An instruction with its registers and the element it selects. -/
structure CompareInstr where
  op : CompareOp
  vd : Fin 32
  vs : Fin 32
  vt : Fin 32
  e : Fin 16

/-- The registers and flags of a core. -/
@[ext] structure CompareState where
  regs : Fin 32 → M128i
  accLo : M128i
  flags : CompareFlags M128i

section Runs

-- The lane that an element selects for a lane of the second operand.
variable (select : Fin 16 → Fin 8 → Fin 8)
  (execute : CompareOp → M128i → M128i → CompareFlags M128i → CompareOutcome)

def CompareState.leave (s : CompareState) (vd : Fin 32) (outcome : CompareOutcome) : CompareState :=
  ⟨Function.update s.regs vd outcome.result, outcome.accLo, outcome.flags⟩

def CompareState.step (s : CompareState) (instr : CompareInstr) : CompareState :=
  s.leave instr.vd
    (execute instr.op (s.regs instr.vs) (s.regs instr.vt ∘ select instr.e) s.flags)

def CompareState.trace (s : CompareState) : List CompareInstr → List CompareState
  | [] => []
  | instr :: instrs => s.step select execute instr :: (s.step select execute instr).trace instrs

def CompareState.asFlags (s : CompareState) : CompareState :=
  { s with flags := s.flags.map fun mask i => mask i &&& 1#16 }

def CompareState.encode (flag : Bool → BitVec 16) (regs : Fin 32 → M128i) (accLo : M128i)
    (flags : Fin 8 → CompareFlags Bool) : CompareState :=
  ⟨regs, accLo, encodeFlags flag flags⟩

/-- The cores go through the same states. -/
def CompareFamiliesAgree (regs : Fin 32 → M128i) (accLo : M128i)
    (flags : Fin 8 → CompareFlags Bool) (instrs : List CompareInstr) : Prop :=
  ((CompareState.encode laneMask regs accLo flags).trace select CompareOp.execute instrs).map
      CompareState.asFlags =
    (CompareState.encode flagWord regs accLo flags).trace select CompareOp.executeCxd4 instrs

/-- No instruction meets a corner. -/
def CompareState.SparesCorners (s : CompareState) : List CompareInstr → Prop
  | [] => True
  | instr :: instrs =>
    (∀ i, ¬instr.op.Corner (s.regs instr.vs i) (s.regs instr.vt (select instr.e i))) ∧
      (s.step select CompareOp.execute instr).SparesCorners instrs

theorem CompareState.leave_inj (s : CompareState) (vd : Fin 32) (a b : CompareOutcome) :
    s.leave vd a = s.leave vd b ↔ a = b := by
  refine ⟨fun h => ?_, congrArg (s.leave vd)⟩
  have hresult : Function.update s.regs vd a.result vd = Function.update s.regs vd b.result vd :=
    congrFun (congrArg regs h) vd
  rw [Function.update_self, Function.update_self] at hresult
  exact CompareOutcome.ext hresult (congrArg accLo h) (congrArg CompareState.flags h)

variable (regs : Fin 32 → M128i) (accLo : M128i) (flags : Fin 8 → CompareFlags Bool)

theorem CompareState.asFlags_encode :
    (encode laneMask regs accLo flags).asFlags = encode flagWord regs accLo flags := by
  have hone (p : Bool) : laneMask p &&& 1#16 = flagWord p := by
    revert p
    decide
  simp only [asFlags, encode, encodeFlags, CompareFlags.map, hone]

theorem CompareState.step_encode (instr : CompareInstr) :
    let lane i := instr.op.meant (regs instr.vs i) (regs instr.vt (select instr.e i)) (flags i)
    (encode laneMask regs accLo flags).step select CompareOp.execute instr =
      encode laneMask (Function.update regs instr.vd fun i => (lane i).1) (fun i => (lane i).1)
        fun i => (lane i).2 :=
  congrArg (leave _ instr.vd) (instr.op.execute_meant ..)

theorem CompareState.step_agree_iff (instr : CompareInstr) :
    ((encode laneMask regs accLo flags).step select CompareOp.execute instr).asFlags =
        (encode flagWord regs accLo flags).step select CompareOp.executeCxd4 instr ↔
      ∀ i, ¬instr.op.Corner (regs instr.vs i) (regs instr.vt (select instr.e i)) := by
  have hleft : ((encode laneMask regs accLo flags).step select CompareOp.execute instr).asFlags =
      (encode flagWord regs accLo flags).leave instr.vd
        (instr.op.encode flagWord (regs instr.vs) (regs instr.vt ∘ select instr.e) flags) := by
    rw [step_encode, asFlags_encode]
    rfl
  rw [hleft, step, leave_inj, eq_comm]
  exact instr.op.executeCxd4_meant_iff _ _ _

/-- The cores agree on exactly the runs that spare the corners. -/
theorem compareFamiliesAgree_iff (instrs : List CompareInstr) :
    CompareFamiliesAgree select regs accLo flags instrs ↔
      (CompareState.encode laneMask regs accLo flags).SparesCorners select instrs := by
  induction instrs generalizing regs accLo flags with
  | nil => exact iff_of_true rfl trivial
  | cons instr instrs ih =>
    rw [CompareFamiliesAgree, CompareState.trace, CompareState.trace, List.map_cons,
      List.cons.injEq, CompareState.SparesCorners, CompareState.step_agree_iff]
    refine and_congr_right fun hspared => ?_
    rw [← (CompareState.step_agree_iff select regs accLo flags instr).mpr hspared,
      CompareState.step_encode, CompareState.asFlags_encode]
    exact ih _ _ _

/-- `do_cr` hands `merge` the mask `~0` for a lane whose operands differ in sign. -/
theorem vcr_mask_differs : ∃ (regs : Fin 32 → M128i) (instr : CompareInstr),
    ¬CompareFamiliesAgree (fun _ i => i) regs rspVzero
      (fun _ => ⟨false, false, false, false, false⟩) [instr] := by
  refine ⟨fun r _ => if r = 2 then 1#16 else 0xFFFB#16, ⟨.vcr, 3, 1, 2, 0⟩, fun h => ?_⟩
  have hlane := congrFun (congrArg CompareState.accLo (List.cons.inj h).1) 0
  exact absurd hlane (by decide)

end Runs

end ParallelN64.Rsp
