import Mathlib.Tactic.Ring
import ParallelN64.Rsp.Lanes

/-!
# Reciprocals in two cores

A reciprocal is looked up by the highest bits of a number and shifted back. Both cores keep the
upper half of a number for the instruction that brings the lower one, one as a half word, the other
as a word; one counts the leading zeros, the other shifts until none is left.
-/

namespace ParallelN64.Rsp

attribute [local instance] neZeroLanes neZeroElements

/-- Reciprocals and reciprocal square roots: of one half word, of the lower half, of the upper. -/
inductive DivideOp where
  | vrcp | vrcpl | vrcph | vrsq | vrsql | vrsqh
  deriving DecidableEq

def DivideOp.sqrt : DivideOp → Bool
  | vrcp | vrcpl | vrcph => false
  | vrsq | vrsql | vrsqh => true

/-- An instruction with its registers and its element. -/
structure DivideInstr where
  op : DivideOp
  vd : Fin 32
  vs : Fin 32
  vt : Fin 32
  e : Fin 16

namespace DivideInstr

variable (instr : DivideInstr)

def lane : Fin 8 := Fin.ofNat 8 instr.e

def de : Fin 8 := Fin.ofNat 8 instr.vs

end DivideInstr

abbrev VectorRegs := Fin 32 → M128i

def VectorRegs.set (regs : VectorRegs) (r : Fin 32) (i : Fin 8) (x : BitVec 16) : VectorRegs :=
  Function.update regs r (Function.update (regs r) i x)

section Parallel

-- `rsp_reciprocal_rom`; a read behind its end is not defined.
variable (rom : Fin 1024 → BitVec 16)

def readRom (idx : Nat) : Option (BitVec 16) := if h : idx < 1024 then some (rom ⟨idx, h⟩) else none

/-- `__builtin_clz`, of a word that is not zero. -/
def builtinClz (x : BitVec 32) : Nat := 31 - x.toNat.log2

/-- The number that `rsp_vrcp_vrsq` normalises. -/
def rspData (input : BitVec 32) : BitVec 32 :=
  let inputMask := input.sshiftRight 31
  let data := input ^^^ inputMask
  if BitVec.slt (-32768#32) input then data - inputMask else data

def rspIdx (vrsq : Bool) (data : BitVec 32) (shift : Nat) : BitVec 64 :=
  let idx := (((data.signExtend 64) <<< shift) &&& 0x7FC00000#64) >>> 22
  if vrsq then ((idx ||| 0x200#64) &&& 0x3FE#64) ||| BitVec.ofNat 64 (shift % 2) else idx

/-- The number that `rsp_vrcp_vrsq` takes the reciprocal of. -/
def rspInput (dp : Bool) (divIn vt : BitVec 16) : BitVec 32 :=
  let dpInput := (divIn.setWidth 32) <<< 16 ||| vt.setWidth 32
  let spInput := vt.signExtend 32
  if dp then dpInput else spInput

/-- `rsp_vrcp_vrsq`, as far as its result. -/
def rspVrcpVrsq (vrsq : Bool) (input : BitVec 32) : Option (BitVec 32) :=
  let data := rspData input
  if data = 0#32 then some 0x7FFFFFFF#32
  else if input = -32768#32 then some 0xFFFF0000#32
  else
    let shift := builtinClz data
    (readRom rom (rspIdx vrsq data shift).toNat).map fun r =>
      let result := (0x10000#32 ||| r.setWidth 32) <<< 14
      let result := result.sshiftRight (if vrsq then (31 - shift) >>> 1 else 31 - shift)
      result ^^^ input.sshiftRight 31

/-- The registers of one core. The flag is only set to 0 and 1. -/
structure Cp2 where
  regs : VectorRegs
  accLo : M128i
  divIn : BitVec 16
  divOut : BitVec 16
  dpFlag : Bool

variable (select : Fin 16 → Fin 8 → Fin 8)

/-- `RSP_VRCP` and the others. -/
def Cp2.step (s : Cp2) (instr : DivideInstr) : Option Cp2 :=
  let vt := s.regs instr.vt instr.lane
  let accLo := s.regs instr.vt ∘ select instr.e
  let divide (dp : Bool) : Option Cp2 :=
    (rspVrcpVrsq rom instr.op.sqrt (rspInput dp s.divIn vt)).map fun result =>
      { regs := s.regs.set instr.vd instr.de (result.setWidth 16)
        accLo := accLo
        divIn := s.divIn
        divOut := (result.sshiftRight 16).setWidth 16
        dpFlag := false }
  match instr.op with
  | .vrcp | .vrsq => divide false
  | .vrcpl | .vrsql => divide s.dpFlag
  | .vrcph | .vrsqh =>
    some { regs := s.regs.set instr.vd instr.de s.divOut
           accLo := accLo
           divIn := vt
           divOut := s.divOut
           dpFlag := true }

end Parallel

section Cxd4

variable (rom : Fin 1024 → BitVec 16)

/-- The loop that shifts until the sign is set, for a number of turns. -/
def normalise : Nat → BitVec 32 → Nat → Option (BitVec 32 × Nat)
  | 0, _, _ => none
  | turns + 1, addr, shift =>
    if BitVec.sle 0#32 addr then normalise turns (addr <<< 1) (shift + 1) else some (addr, shift)

/-- The number that `do_div` normalises. -/
def doDivData (divIn : BitVec 32) (dph : Bool) : BitVec 32 :=
  let data := if !dph && divIn.slt 0#32 then -divIn else divIn
  if dph && data.slt 0#32 then if BitVec.sle (-32768#32) data then -data else ~~~data else data

def doDivAddr (sqrt : Bool) (addr : BitVec 32) (shift : Nat) : BitVec 32 :=
  let addr := addr.sshiftRight 22 &&& 0x1FF#32
  if sqrt then (addr &&& 0x1FE#32) ||| (0x200#32 ||| BitVec.ofNat 32 (shift &&& 1)) else addr

/-- `do_div` of `DivIn`, as far as `DivOut`. The precision is double where `DPH` is set. -/
def doDiv (turns : Nat) (divIn : BitVec 32) (sqrt dph : Bool) : Option (BitVec 32) :=
  let data := doDivData divIn dph
  let normal :=
    if data = 0#32 then
      let shift := if dph then 0 else 16
      some (data <<< shift, shift)
    else normalise turns data 0
  normal.bind fun (addr, shift) =>
    (readRom rom (doDivAddr sqrt addr shift).toNat).map fun r =>
      let fetched : BitVec 32 := r.setWidth 32
      let divOut := (0x40000000#32 ||| (fetched <<< 14)) >>> ((shift ^^^ 31) >>> sqrt.toNat)
      if divIn = 0#32 then 0x7FFFFFFF#32
      else if divIn = -32768#32 then -0x10000#32
      else divOut ^^^ (if divIn.slt 0#32 then ~~~0#32 else 0#32)

/-- The registers of the other core, with `DPH` where it is double. -/
structure Cp2Cxd4 where
  regs : VectorRegs
  accLo : M128i
  divIn : BitVec 32
  divOut : BitVec 32
  dph : Bool

variable (select : Fin 16 → Fin 8 → Fin 8)

/-- `VRCP` and the others. -/
def Cp2Cxd4.step (turns : Nat) (s : Cp2Cxd4) (instr : DivideInstr) : Option Cp2Cxd4 :=
  let vt := s.regs instr.vt instr.lane
  let accLo := s.regs instr.vt ∘ select instr.e
  let divide (divIn : BitVec 32) (dph : Bool) : Option Cp2Cxd4 :=
    (doDiv rom turns divIn instr.op.sqrt dph).map fun divOut =>
      { regs := s.regs.set instr.vd instr.de (divOut.setWidth 16)
        accLo := accLo
        divIn := divIn
        divOut := divOut
        dph := false }
  match instr.op with
  | .vrcp | .vrsq => divide (vt.signExtend 32) false
  | .vrcpl | .vrsql =>
    divide (if s.dph then s.divIn ||| vt.setWidth 32 else vt.signExtend 32) s.dph
  | .vrcph | .vrsqh =>
    some { regs := s.regs.set instr.vd instr.de ((s.divOut.sshiftRight 16).setWidth 16)
           accLo := accLo
           divIn := (vt.signExtend 32) <<< 16
           divOut := s.divOut
           dph := true }

end Cxd4

/-- The states after the instructions, one after the other. -/
def divideTrace {σ : Type} (step : σ → DivideInstr → Option σ) :
    σ → List DivideInstr → Option (List σ)
  | _, [] => some []
  | s, instr :: instrs => do
    let s ← step s instr
    let states ← divideTrace step s instrs
    return s :: states

/-- The cores have the same registers, the same flag and the same upper half of a result, and the
same upper half of a number where one is pending. -/
structure Cp2.Related (p : Cp2) (c : Cp2Cxd4) : Prop where
  regs : p.regs = c.regs
  accLo : p.accLo = c.accLo
  flag : p.dpFlag = c.dph
  divOut : p.divOut = c.divOut.extractLsb' 16 16
  divIn : p.dpFlag = true → c.divIn = (p.divIn.setWidth 32) <<< 16

section Reciprocal

variable (rom : Fin 1024 → BitVec 16)

theorem zero_sle (x : BitVec 32) : BitVec.sle 0#32 x = decide (x.toNat < 2 ^ 31) := by
  have hx := x.isLt
  rw [BitVec.sle_eq_decide, BitVec.toInt_zero, BitVec.toInt_eq_toNat_cond]
  exact decide_eq_decide.mpr (by split <;> omega)

theorem normalise_eq {k turns : Nat} (hk : k < turns) (addr : BitVec 32) (shift : Nat)
    (hne : addr.toNat ≠ 0) (hlog : addr.toNat.log2 + k = 31) :
    normalise turns addr shift = some (addr <<< k, shift + k) := by
  obtain ⟨hle, hlt⟩ := (Nat.log2_eq_iff hne).mp rfl
  induction turns generalizing k addr shift with
  | zero => exact absurd hk (Nat.not_lt_zero k)
  | succ turns ih =>
    rw [normalise, zero_sle]
    cases k with
    | zero =>
      have hlarge : ¬addr.toNat < 2 ^ 31 := by
        rw [← hlog]
        exact Nat.not_lt.mpr hle
      rw [decide_eq_false hlarge, if_neg Bool.false_ne_true, BitVec.shiftLeft_zero, Nat.add_zero]
    | succ k =>
      have hsmall : addr.toNat < 2 ^ 31 :=
        Nat.lt_of_lt_of_le hlt (Nat.pow_le_pow_right (by decide) (by omega))
      have htwice : (addr <<< 1).toNat = 2 * addr.toNat := by
        rw [BitVec.toNat_shiftLeft, Nat.shiftLeft_eq, Nat.mul_comm, Nat.mod_eq_of_lt (by omega)]
      have hne' : (addr <<< 1).toNat ≠ 0 := by omega
      have hlog' : (addr <<< 1).toNat.log2 + k = 31 := by
        rw [htwice, Nat.log2_two_mul hne]
        omega
      obtain ⟨hle', hlt'⟩ := (Nat.log2_eq_iff hne').mp rfl
      rw [decide_eq_true hsmall, if_pos rfl,
        ih (Nat.lt_of_succ_lt_succ hk) _ _ hne' hlog' hle' hlt', ← BitVec.shiftLeft_add,
        Nat.add_comm 1 k, Nat.add_assoc, Nat.add_comm 1 k]

theorem index_eq {data : BitVec 32} {shift : Nat} (hfits : data.toNat * 2 ^ shift < 2 ^ 32)
    (hdata : data.msb = false) :
    ((((data.signExtend 64) <<< shift) &&& 0x7FC00000#64) >>> 22).toNat =
        ((data <<< shift).sshiftRight 22 &&& 0x1FF#32).toNat ∧
      ((data <<< shift).sshiftRight 22 &&& 0x1FF#32).toNat < 512 := by
  have hwide : ((data.signExtend 64) <<< shift).toNat = data.toNat * 2 ^ shift := by
    rw [BitVec.signExtend_eq_setWidth_of_msb_false hdata, BitVec.toNat_shiftLeft,
      Nat.shiftLeft_eq, BitVec.toNat_setWidth, Nat.mod_eq_of_lt (a := data.toNat) (by omega)]
    exact Nat.mod_eq_of_lt (by omega)
  have hnarrow : (data <<< shift).toNat = data.toNat * 2 ^ shift := by
    rw [BitVec.toNat_shiftLeft, Nat.shiftLeft_eq, Nat.mod_eq_of_lt hfits]
  have hmask (x : Nat) : x &&& 511 = x % 512 := Nat.and_two_pow_sub_one_eq_mod x 9
  rw [BitVec.toNat_ushiftRight, BitVec.toNat_and, hwide, Nat.shiftRight_and_distrib,
    BitVec.toNat_and, BitVec.toNat_sshiftRight, hnarrow]
  generalize data.toNat * 2 ^ shift = x at hfits
  simp only [Nat.shiftRight_eq_div_pow]
  change x / 2 ^ 22 &&& 511 = _ &&& 511 ∧ _ &&& 511 < 512
  rw [hmask, hmask]
  split <;> omega

theorem rspIdx_eq {data : BitVec 32} {shift : Nat} (sqrt : Bool)
    (hfits : data.toNat * 2 ^ shift < 2 ^ 32) (hdata : data.msb = false) :
    (rspIdx sqrt data shift).toNat = (doDivAddr sqrt (data <<< shift) shift).toNat ∧
      (doDivAddr sqrt (data <<< shift) shift).toNat < 1024 := by
  have hroot : ∀ a < 512, ∀ b < 2,
      ((a ||| 0x200) &&& 0x3FE) ||| b = (a &&& 0x1FE) ||| (0x200 ||| b) ∧
      (a &&& 0x1FE) ||| (0x200 ||| b) < 1024 := by
    decide +kernel
  obtain ⟨hsame, hlt⟩ := index_eq hfits hdata
  rw [rspIdx, doDivAddr]
  generalize (data <<< shift).sshiftRight 22 &&& 0x1FF#32 = a at hsame hlt ⊢
  cases sqrt with
  | false => exact ⟨hsame, Nat.lt_of_lt_of_le hlt (by decide)⟩
  | true =>
    have hparity : shift &&& 1 = shift % 2 := Nat.and_one_is_mod shift
    have hb : shift % 2 < 2 := Nat.mod_lt shift (by decide)
    simp only [if_true, BitVec.toNat_or, BitVec.toNat_and, hsame, hparity, BitVec.toNat_ofNat,
      Nat.mod_eq_of_lt (Nat.lt_of_lt_of_le hb (show 2 ≤ 2 ^ 64 by decide)),
      Nat.mod_eq_of_lt (Nat.lt_of_lt_of_le hb (show 2 ≤ 2 ^ 32 by decide))]
    exact hroot _ hlt _ hb

theorem sign_mask (x : BitVec 32) :
    x.sshiftRight 31 = if x.msb then BitVec.allOnes 32 else 0#32 := by
  ext i hi
  rw [BitVec.getElem_sshiftRight, BitVec.msb_eq_getLsbD_last]
  split
  · have hzero : i = 0 := by omega
    subst hzero
    cases h : x.getLsbD (32 - 1) <;> simp_all
  · cases x.getLsbD (32 - 1)
    · exact (BitVec.getElem_zero hi).symm
    · exact (BitVec.getElem_allOnes i hi).symm

section Data

variable {input : BitVec 32} {dp : Bool}

theorem rspData_eq : rspData input =
    if input.toInt < 0 then if -32768 < input.toInt then -input else ~~~input else input := by
  have hslt : BitVec.slt (-32768#32) input = decide (-32768 < input.toInt) :=
    BitVec.slt_eq_decide ..
  have hflip : input ^^^ BitVec.allOnes 32 = ~~~input := BitVec.xor_allOnes
  have hnegate : ~~~input - BitVec.allOnes 32 = -input := by
    rw [BitVec.neg_eq_not_add, BitVec.sub_eq_add_neg]
    rfl
  rw [rspData, hslt, sign_mask, BitVec.msb_eq_toInt]
  by_cases h : input.toInt < 0
  · rw [decide_eq_true h, if_pos rfl, if_pos h, hflip, hnegate]
    simp only [decide_eq_true_eq]
  · rw [decide_eq_false h, if_neg Bool.false_ne_true, if_neg h, BitVec.xor_zero, BitVec.sub_zero,
      ite_self]

theorem doDivData_eq (hsingle : dp = false → -32768 ≤ input.toInt) : doDivData input dp =
    if input.toInt < 0 then if -32768 ≤ input.toInt then -input else ~~~input else input := by
  have hsle : BitVec.sle (-32768#32) input = decide (-32768 ≤ input.toInt) :=
    BitVec.sle_eq_decide ..
  have hslt : input.slt 0#32 = decide (input.toInt < 0) := BitVec.slt_eq_decide ..
  rw [doDivData, hslt]
  cases dp with
  | false =>
    rw [if_pos (hsingle rfl)]
    simp only [Bool.not_false, Bool.true_and, decide_eq_true_eq, Bool.false_and,
      Bool.false_eq_true, if_false]
  | true => simp only [Bool.not_true, Bool.false_and, Bool.false_eq_true, if_false, hslt, hsle,
      Bool.true_and, decide_eq_true_eq]

theorem doDivData_spec (hsingle : dp = false → -32768 ≤ input.toInt) :
    (doDivData input dp).toNat < 2 ^ 31 ∧ ((doDivData input dp).toNat = 0 ↔ input = 0#32) := by
  have hsign := BitVec.toInt_eq_toNat_cond input
  have hlt := input.isLt
  rw [doDivData_eq hsingle, ← BitVec.toNat_inj, BitVec.toNat_zero]
  split
  · split
    · rw [BitVec.toNat_neg]
      split at hsign <;> omega
    · rw [BitVec.toNat_not]
      split at hsign <;> omega
  · split at hsign <;> omega

theorem clz_spec {data : BitVec 32} (hlt : data.toNat < 2 ^ 31) (hne : data.toNat ≠ 0) :
    data.toNat.log2 + builtinClz data = 31 ∧ data.toNat * 2 ^ builtinClz data < 2 ^ 32 := by
  have hlog := (Nat.log2_lt hne).mpr hlt
  have hsum : data.toNat.log2 + builtinClz data = 31 := by
    rw [builtinClz]
    omega
  refine ⟨hsum, ?_⟩
  calc data.toNat * 2 ^ builtinClz data
      < 2 ^ (data.toNat.log2 + 1) * 2 ^ builtinClz data :=
        Nat.mul_lt_mul_of_pos_right Nat.lt_log2_self (Nat.two_pow_pos _)
    _ = 2 ^ 32 := by
        rw [← Nat.pow_add, show data.toNat.log2 + 1 + builtinClz data = 32 by omega]

theorem shifted_eq (sqrt : Bool) {shift : Nat} (hshift : shift < 32) (r : BitVec 16) :
    ((0x10000#32 ||| r.setWidth 32) <<< 14).sshiftRight
        (if sqrt then (31 - shift) >>> 1 else 31 - shift) =
      (0x40000000#32 ||| (r.setWidth 32) <<< 14) >>> ((shift ^^^ 31) >>> sqrt.toNat) := by
  have hflip : shift ^^^ 31 = 31 - shift := by
    revert shift
    decide
  have hsum : (0x10000#32 ||| r.setWidth 32) <<< 14 = 0x40000000#32 ||| (r.setWidth 32) <<< 14 := by
    rw [BitVec.shiftLeft_or_distrib]
    rfl
  have hsign : (0x40000000#32 ||| (r.setWidth 32) <<< 14).msb = false := by
    simp [BitVec.msb_eq_getLsbD_last, BitVec.getLsbD_of_ge]
  rw [hflip, hsum, BitVec.sshiftRight_eq_of_msb_false hsign]
  cases sqrt <;> rfl

theorem reciprocal_agree (sqrt dp : Bool) (extra : Nat)
    (hsingle : dp = false → -32768 ≤ input.toInt) :
    ∃ result, rspVrcpVrsq rom sqrt input = some result ∧
      doDiv rom (32 + extra) input sqrt dp = some result := by
  obtain ⟨hlt, hzero⟩ := doDivData_spec hsingle
  by_cases h0 : input = 0#32
  · have hnothing : doDivData 0#32 dp = 0#32 := by cases dp <;> rfl
    have hbound : (doDivAddr sqrt (0#32 <<< if dp then 0 else 16) (if dp then 0 else 16)).toNat <
        1024 := by
      cases sqrt <;> cases dp <;> decide
    rw [h0, doDiv]
    simp only [hnothing, Option.bind_some, readRom, dif_pos hbound,
      Option.map_some, if_true]
    exact ⟨_, rfl, rfl⟩
  have hne : (doDivData input dp).toNat ≠ 0 := mt hzero.mp h0
  obtain ⟨hlog, hfits⟩ := clz_spec hlt hne
  have hnormal := @normalise_eq _ (32 + extra) (by omega) (doDivData input dp) 0 hne hlog
  obtain ⟨hidx, hbound⟩ := rspIdx_eq sqrt hfits (BitVec.msb_eq_false_iff_two_mul_lt.mpr (by omega))
  have hne' : doDivData input dp ≠ 0#32 := fun h => hne (congrArg BitVec.toNat h)
  rw [doDiv]
  simp only [if_neg hne', hnormal, Option.bind_some, readRom, dif_pos hbound, Option.map_some,
    if_neg h0, Nat.zero_add]
  refine ⟨_, ?_, rfl⟩
  rw [rspVrcpVrsq]
  by_cases hlow : input = -32768#32
  · have hdata : rspData input ≠ 0#32 := by
      rw [hlow]
      decide
    simp only [if_neg hdata, if_pos hlow]
    rfl
  · have hsame : rspData input = doDivData input dp := by
      have hint : input.toInt ≠ -32768 := fun h => hlow (BitVec.eq_of_toInt_eq h)
      have hless : -32768 < input.toInt ↔ -32768 ≤ input.toInt := by omega
      simp only [rspData_eq, doDivData_eq hsingle, hless]
    have hshift : builtinClz (doDivData input dp) < 32 := Nat.lt_succ_of_le (Nat.sub_le ..)
    have hmask : input.sshiftRight 31 = if input.slt 0#32 then ~~~0#32 else 0#32 := by
      rw [sign_mask, BitVec.slt_zero_eq_msb]
      rfl
    simp only [hsame, if_neg hne', if_neg hlow, hidx, readRom, dif_pos hbound, Option.map_some,
      shifted_eq sqrt hshift, hmask]

end Data

theorem toInt_signExtend_ge (x : BitVec 16) : -32768 ≤ (x.signExtend 32).toInt := by
  rw [BitVec.toInt_signExtend_of_le (by decide)]
  have h := BitVec.le_toInt x
  omega

theorem extract_high (x : BitVec 32) :
    (x.sshiftRight 16).setWidth 16 = x.extractLsb' 16 16 := by
  ext i hi
  rw [BitVec.getElem_setWidth, BitVec.getLsbD_sshiftRight, BitVec.getElem_extractLsb']
  simp [show i < 32 by omega, show 16 + i < 32 by omega]

theorem signExtend_shiftLeft (x : BitVec 16) :
    (x.signExtend 32) <<< 16 = (x.setWidth 32) <<< 16 := by
  ext i hi
  rw [BitVec.getElem_shiftLeft, BitVec.getElem_shiftLeft]
  by_cases hlow : i < 16
  · simp [hlow]
  · rw [BitVec.getElem_signExtend, dif_pos (by omega)]
    simp only [hlow, ← BitVec.getLsbD_eq_getElem, BitVec.getLsbD_setWidth, decide_false,
      Bool.not_false, Bool.true_and, show i - 16 < 32 by omega, decide_true]

variable (select : Fin 16 → Fin 8 → Fin 8) (extra : Nat)

theorem Cp2.Related.step {p : Cp2} {c : Cp2Cxd4} (h : p.Related c) (instr : DivideInstr) :
    ∃ p' c', p.step rom select instr = some p' ∧
      c.step rom select (32 + extra) instr = some c' ∧ p'.Related c' := by
  obtain ⟨regs, accLo, divIn, divOut, flag⟩ := p
  obtain ⟨regs', accLo', divIn', divOut', flag'⟩ := c
  obtain ⟨hregs, haccLo, hflag, hdivOut, hdivIn⟩ := h
  dsimp only at hregs haccLo hflag hdivOut hdivIn
  subst hregs haccLo hflag hdivOut
  obtain ⟨op, vd, vs, vt, e⟩ := instr
  have hsingle (sqrt : Bool) (x : BitVec 16) :=
    reciprocal_agree rom sqrt false extra fun _ => toInt_signExtend_ge x
  have hpending (sqrt : Bool) (x : BitVec 16) :
      ∃ result, rspVrcpVrsq rom sqrt (rspInput flag divIn x) = some result ∧
        doDiv rom (32 + extra) (if flag then divIn' ||| x.setWidth 32 else x.signExtend 32) sqrt
          flag = some result := by
    cases flag with
    | false => exact hsingle sqrt x
    | true =>
      rw [hdivIn rfl]
      exact reciprocal_agree rom sqrt true extra nofun
  cases op with
  | vrcp | vrsq =>
    obtain ⟨result, hp, hc⟩ := hsingle _ (regs vt (DivideInstr.lane ⟨.vrcp, vd, vs, vt, e⟩))
    exact ⟨_, _, congrArg (Option.map _) hp, congrArg (Option.map _) hc, rfl, rfl, rfl,
      extract_high result, nofun⟩
  | vrcpl | vrsql =>
    obtain ⟨result, hp, hc⟩ := hpending _ (regs vt (DivideInstr.lane ⟨.vrcp, vd, vs, vt, e⟩))
    exact ⟨_, _, congrArg (Option.map _) hp, congrArg (Option.map _) hc, rfl, rfl, rfl,
      extract_high result, nofun⟩
  | vrcph | vrsqh =>
    refine ⟨_, _, rfl, rfl, ?_, rfl, rfl, rfl, fun _ => ?_⟩
    · exact congrArg (VectorRegs.set _ _ _) (extract_high divOut').symm
    · exact signExtend_shiftLeft _

/-- The cores stay related, look up places in the table only, and their loops end. -/
theorem divideFamiliesAgree {p : Cp2} {c : Cp2Cxd4} (h : p.Related c) (instrs : List DivideInstr) :
    ∃ ps cs, divideTrace (Cp2.step rom select) p instrs = some ps ∧
      divideTrace (Cp2Cxd4.step rom select (32 + extra)) c instrs = some cs ∧
      List.Forall₂ Cp2.Related ps cs := by
  induction instrs generalizing p c with
  | nil => exact ⟨[], [], rfl, rfl, .nil⟩
  | cons instr instrs ih =>
    obtain ⟨p', c', hp, hc, h'⟩ := h.step rom select extra instr
    obtain ⟨ps, cs, hps, hcs, hrelated⟩ := ih h'
    refine ⟨p' :: ps, c' :: cs, ?_, ?_, .cons h' hrelated⟩
    · rw [divideTrace, hp, Option.bind_eq_bind, Option.bind_some, hps]
      rfl
    · rw [divideTrace, hc, Option.bind_eq_bind, Option.bind_some, hcs]
      rfl

/-- The reciprocal of two, with its upper and its lower half, from cleared registers. -/
theorem divideFamiliesAgree_two : ∃ ps cs,
    divideTrace (Cp2.step (fun _ => 0xFFFF#16) fun _ i => i) ⟨fun r _ => r, rspVzero, 0, 0, false⟩
        [⟨.vrcph, 5, 0, 0, 0⟩, ⟨.vrcpl, 6, 1, 2, 0⟩] = some ps ∧
      divideTrace (Cp2Cxd4.step (fun _ => 0xFFFF#16) (fun _ i => i) (32 + 0))
        ⟨fun r _ => r, rspVzero, 0, 0, false⟩
        [⟨.vrcph, 5, 0, 0, 0⟩, ⟨.vrcpl, 6, 1, 2, 0⟩] = some cs ∧
      List.Forall₂ Cp2.Related ps cs :=
  divideFamiliesAgree _ _ 0 ⟨rfl, rfl, rfl, rfl, fun h => absurd h Bool.false_ne_true⟩ _

end Reciprocal

end ParallelN64.Rsp
