import Mathlib.Data.Fin.VecNotation
import ParallelN64.Core.InPlace
import ParallelN64.Core.StateImage
import ParallelN64.R4300.Dispatch

/-!
# The machine of a savestate

The control registers together with everything else that a savestate carries: the memories,
the flash memory controller, the lookup tables and entries of the translation buffer, and
the general and floating point registers.
-/

namespace ParallelN64.Savestate

open R4300

/-- The registers of the main memory. -/
inductive RdramReg where
  | config | deviceId | delay | mode | refInterval | refRow | rasInterval | minInterval
  | addrSelect | deviceManuf
  deriving DecidableEq

/-- The registers of the memory interface. -/
inductive RiReg where
  | mode | config | currentLoad | select | refresh | latency | error | werror
  deriving DecidableEq

/-- The sizes of the memories, in elements, and the length of the ROM's checksum text. -/
abbrev rdramWords : Nat := 0x800000 / 4
abbrev spMemWords : Nat := 0x2000 / 4
abbrev pifRamSize : Nat := 0x40
abbrev tlbLutSize : Nat := 0x100000
abbrev md5Length : Nat := 32

/-- An entry of the translation buffer. -/
structure TlbEntry where
  mask : BitVec 16
  vpn2 : Word
  g : BitVec 8
  asid : BitVec 8
  pfnEven : Word
  cEven : BitVec 8
  dEven : BitVec 8
  vEven : BitVec 8
  pfnOdd : Word
  cOdd : BitVec 8
  dOdd : BitVec 8
  vOdd : BitVec 8
  r : BitVec 8
  startEven : Word
  endEven : Word
  physEven : Word
  startOdd : Word
  endOdd : Word
  physOdd : Word

/-- The flash memory controller. -/
structure Flashram where
  mode : Word
  status : BitVec 64
  eraseOffset : Word
  writePointer : Word

abbrev Fgr := Fin 32 → BitVec 64

/-- The machine. The pointers to the floating point registers are kept as the mode they
were set up for. -/
structure Machine where
  device : Device
  md5 : Fin md5Length → BitVec 8
  rdramRegs : RdramReg → Word
  ri : RiReg → Word
  dram : Fin rdramWords → Word
  spMem : Fin spMemWords → Word
  pifRam : Fin pifRamSize → BitVec 8
  useFlashram : Word
  flashram : Flashram
  tlbLutR : Fin tlbLutSize → Word
  tlbLutW : Fin tlbLutSize → Word
  tlb : Fin 32 → TlbEntry
  llbit : Word
  regs : Fin 32 → BitVec 64
  lo : BitVec 64
  hi : BitVec 64
  cp1 : Fgr
  fprPointers : Bool
  fcr0 : Word
  fcr31 : Word

/-- The registers of coprocessor 0 by their numbers. -/
def cp0At : Fin 32 → Cp0Reg :=
  ![.index, .random, .entryLo0, .entryLo1, .context, .pageMask, .wired, .unused7,
    .badVAddr, .count, .entryHi, .compare, .status, .cause, .epc, .prevId,
    .config, .llAddr, .watchLo, .watchHi, .xContext, .unused21, .unused22, .unused23,
    .unused24, .unused25, .unused26, .unused27, .tagLo, .tagHi, .errorEpc, .unused31]

def cp0Index (reg : Cp0Reg) : Fin 32 := ⟨reg.ctorIdx, by cases reg <;> decide⟩

@[simp] theorem cp0At_cp0Index (reg : Cp0Reg) : cp0At (cp0Index reg) = reg := by
  cases reg <;> rfl

def halfOf (v : BitVec 64) (i : Fin 32) : Word :=
  if i.val % 2 = 0 then v.extractLsb' 0 32 else v.extractLsb' 32 32

def setHalf (v : BitVec 64) (i : Fin 32) (half : Word) : BitVec 64 :=
  if i.val % 2 = 0 then v.extractLsb' 32 32 ++ half else half ++ v.extractLsb' 0 32

def lowerIndex (i : Fin 32) : Fin 32 := ⟨i.val / 2, by omega⟩
def upperIndex (i : Fin 32) : Fin 32 := ⟨i.val / 2 + 16, by omega⟩

def unpackFgr (fgr : Fgr) : Fgr :=
  let temp : Fin 32 → Word := fun i => halfOf (fgr (lowerIndex i)) i
  (List.finRange 32).foldl (fun fgr i =>
    Function.update fgr i (halfOf (fgr (upperIndex i)) i ++ temp i)) fgr

/-- Into 32-bit mode: the lower halves are packed, the upper halves stored behind them. -/
def packFgr (fgr : Fgr) : Fgr :=
  let temp : Fin 32 → Word := fun i => (fgr i).extractLsb' 32 32
  let fgr := (List.finRange 16).foldl (fun (fgr : Fgr) i =>
    let most := (fgr ⟨i.val * 2 + 1, by omega⟩).extractLsb' 0 32
    let least := (fgr ⟨i.val * 2, by omega⟩).extractLsb' 0 32
    Function.update fgr ⟨i.val, by omega⟩ (most ++ least)) fgr
  (List.finRange 32).foldl (fun fgr i =>
    Function.update fgr (upperIndex i) (setHalf (fgr (upperIndex i)) i (temp i))) fgr

/-- `shuffle_fpr_data`. -/
def shuffleFprData (oldStatus newStatus : Word) (fgr : Fgr) : Fgr :=
  if newStatus &&& cp0StatusFR = oldStatus &&& cp0StatusFR then fgr
  else if newStatus &&& cp0StatusFR ≠ 0#32 then unpackFgr fgr
  else packFgr fgr

theorem extractLsb'_append_extractLsb' (v : BitVec 64) :
    v.extractLsb' 32 32 ++ v.extractLsb' 0 32 = v := by
  ext i hi
  rw [BitVec.getElem_append]
  split
  · next hlow => rw [BitVec.getElem_extractLsb', Nat.zero_add, BitVec.getLsbD_eq_getElem hi]
  · next hlow =>
    rw [BitVec.getElem_extractLsb', Nat.add_sub_cancel' (Nat.le_of_not_lt hlow),
      BitVec.getLsbD_eq_getElem hi]

@[simp] theorem extractLsb'_zero_append (most least : Word) :
    (most ++ least).extractLsb' 0 32 = least := by
  ext i hi
  rw [BitVec.getElem_extractLsb', Nat.zero_add, BitVec.getLsbD_append]
  simp [hi]

@[simp] theorem extractLsb'_thirtyTwo_append (most least : Word) :
    (most ++ least).extractLsb' 32 32 = most := by
  ext i hi
  rw [BitVec.getElem_extractLsb', BitVec.getLsbD_append]
  simp [hi]

theorem unpackFgr_apply (fgr : Fgr) (i : Fin 32) :
    unpackFgr fgr i = halfOf (fgr (upperIndex i)) i ++ halfOf (fgr (lowerIndex i)) i := by
  have hlater (k : Fin 32) (a b : Fgr) (hab : ∀ j, k ≤ j → a j = b j) :
      halfOf (a (upperIndex k)) k ++ halfOf (fgr (lowerIndex k)) k =
        halfOf (b (upperIndex k)) k ++ halfOf (fgr (lowerIndex k)) k := by
    rw [hab (upperIndex k) (Fin.le_def.mpr (by simp only [upperIndex]; omega))]
  exact Core.foldl_update_of_mem hlater (List.pairwise_lt_finRange 32) (List.mem_finRange i) fgr

theorem packFgr_of_lt (fgr : Fgr) (j : Fin 16) :
    packFgr fgr ⟨j.val, by omega⟩ =
      (fgr ⟨j.val * 2 + 1, by omega⟩).extractLsb' 0 32 ++
        (fgr ⟨j.val * 2, by omega⟩).extractLsb' 0 32 := by
  have hlater (k : Fin 16) (a b : Fgr)
      (hab : ∀ i, (⟨k.val, by omega⟩ : Fin 32) ≤ i → a i = b i) :
      (a ⟨k.val * 2 + 1, by omega⟩).extractLsb' 0 32 ++ (a ⟨k.val * 2, by omega⟩).extractLsb' 0 32 =
        (b ⟨k.val * 2 + 1, by omega⟩).extractLsb' 0 32 ++
          (b ⟨k.val * 2, by omega⟩).extractLsb' 0 32 := by
    rw [hab ⟨k.val * 2 + 1, by omega⟩ (Fin.le_def.mpr (by simp only; omega)),
      hab ⟨k.val * 2, by omega⟩ (Fin.le_def.mpr (by simp only; omega))]
  rw [packFgr, Core.foldl_update_of_notMem]
  · exact Core.foldl_update_of_mem hlater (List.pairwise_lt_finRange 16) (List.mem_finRange j) fgr
  · intro hmem
    obtain ⟨i, -, heq⟩ := List.mem_map.mp hmem
    have hval := congrArg Fin.val heq
    simp only [upperIndex] at hval
    omega

theorem packFgr_of_ge (fgr : Fgr) (j : Fin 16) :
    packFgr fgr ⟨j.val + 16, by omega⟩ =
      (fgr ⟨j.val * 2 + 1, by omega⟩).extractLsb' 32 32 ++
        (fgr ⟨j.val * 2, by omega⟩).extractLsb' 32 32 := by
  have htargets : ((List.finRange 32).filter fun i => upperIndex i = ⟨j.val + 16, by omega⟩) =
      [⟨j.val * 2, by omega⟩, ⟨j.val * 2 + 1, by omega⟩] := by
    revert j
    decide
  have hchange := Core.foldl_update_self upperIndex
    (fun i v => setHalf v i ((fgr i).extractLsb' 32 32)) (List.finRange 32)
  rw [packFgr]
  refine (hchange _ _).trans ?_
  rw [htargets]
  have hodd : (j.val * 2 + 1) % 2 = 1 := by omega
  simp [setHalf, hodd]

theorem packFgr_unpackFgr (fgr : Fgr) : packFgr (unpackFgr fgr) = fgr := by
  have hodd (k : Fin 16) : (k.val * 2 + 1) % 2 = 1 := by omega
  have hhalf (k : Fin 16) : (k.val * 2 + 1) / 2 = k.val := by omega
  funext i
  rcases Nat.lt_or_ge i.val 16 with hlt | hge
  · refine (packFgr_of_lt (unpackFgr fgr) ⟨i.val, hlt⟩).trans ?_
    rw [unpackFgr_apply, unpackFgr_apply]
    simp only [extractLsb'_zero_append, halfOf, lowerIndex, hodd ⟨i.val, hlt⟩, hhalf ⟨i.val, hlt⟩,
      Nat.mul_mod_left, Nat.mul_div_cancel _ Nat.two_pos, if_true, one_ne_zero, if_false]
    exact extractLsb'_append_extractLsb' (fgr i)
  · obtain ⟨k, hk⟩ : ∃ k : Fin 16, i = ⟨k.val + 16, by omega⟩ :=
      ⟨⟨i.val - 16, by omega⟩, Fin.ext (Nat.sub_add_cancel hge).symm⟩
    rw [hk]
    refine (packFgr_of_ge (unpackFgr fgr) k).trans ?_
    rw [unpackFgr_apply, unpackFgr_apply]
    simp only [extractLsb'_thirtyTwo_append, halfOf, upperIndex, hodd k, hhalf k,
      Nat.mul_mod_left, Nat.mul_div_cancel _ Nat.two_pos, if_true, one_ne_zero, if_false]
    exact extractLsb'_append_extractLsb' _

end ParallelN64.Savestate
