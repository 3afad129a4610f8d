import Mathlib.Algebra.Order.Ring.Nat
import ParallelN64.Rsp.ScalarUnit

/-!
# Loads and stores of vector registers

Every operation moves bytes between data memory and the lanes of vector registers. It is the list
of its accesses in order; these follow from its operands and the scalar address alone.
-/

namespace ParallelN64.Rsp.Ls

open Su

abbrev HalfWords := Nat → BitVec 16

section Bytes

variable (arr : HalfWords) (i : Nat)

def byteFromHalfWords : BitVec 8 :=
  if i % 2 = 1 then (arr (i / 2)).setWidth 8 else (arr (i / 2) >>> 8).setWidth 8

def writeByteToHalfWords (b : BitVec 8) : HalfWords :=
  Function.update arr (i / 2) <|
    if i % 2 = 1 then (arr (i / 2) &&& 0xFF00#16) ||| b.setWidth 16
    else (arr (i / 2) &&& 0xFF#16) ||| b.setWidth 16 <<< 8

/-- `MES`. -/
def mes : Nat := i ^^^ 1

def hostByte : BitVec 8 := (arr (i / 2) >>> (8 * (i % 2))).setWidth 8

def setHostByte (b : BitVec 8) : HalfWords :=
  Function.update arr (i / 2) <|
    if i % 2 = 1 then (arr (i / 2) &&& 0xFF#16) ||| b.setWidth 16 <<< 8
    else (arr (i / 2) &&& 0xFF00#16) ||| b.setWidth 16

end Bytes

/-- `HES`. -/
def hes (address : BitVec 32) : BitVec 32 := address ^^^ 2

/-- What the operations work on. The array `temp` is local to one of them. -/
structure State where
  sr : RegNum → BitVec 32
  dmem : Dmem
  regs : Nat → HalfWords
  temp : HalfWords

namespace State

variable (s : State)

def readMemU8 (place : BitVec 32) : BitVec 8 := s.dmem (bes place).toNat

def writeMemU8 (place : BitVec 32) (data : BitVec 8) : State :=
  { s with dmem := Function.update s.dmem (bes place).toNat data }

/-- `WRITE_MEM_U16`, as the two host bytes. -/
def writeMemU16 (place : BitVec 32) (data : BitVec 16) : State :=
  let half := (hes place >>> 1).toNat
  let low := Function.update s.dmem (2 * half) (data.setWidth 8)
  { s with dmem := Function.update low (2 * half + 1) ((data >>> 8).setWidth 8) }

def setReg (reg : Nat) (lanes : HalfWords) : State :=
  { s with regs := Function.update s.regs reg lanes }

end State

/-- An access, with the address that it passes to the memory macro. -/
inductive Access where
  | loadByte (place : BitVec 32) (reg i : Nat)
  | loadHostByte (place : BitVec 32) (reg i : Nat)
  | loadLane (place : BitVec 32) (reg lane shift : Nat)
  | fetchTemp (place : BitVec 32) (lane : Nat)
  | unloadTemp (reg i : Nat)
  | storeByte (place : BitVec 32) (reg i : Nat)
  | storeHostByte (place : BitVec 32) (reg i : Nat)
  | storeHalf (place : BitVec 32) (reg lane : Nat)
  | storeLane (place : BitVec 32) (reg lane shift : Nat)
  | storeBits (place : BitVec 32) (reg i j : Nat)
  | storeZero (place : BitVec 32)

namespace Access

/-- Carry out an access. -/
def execute (s : State) : Access → State
  | loadByte place reg i =>
    s.setReg reg (writeByteToHalfWords (s.regs reg) i (s.readMemU8 place))
  | loadHostByte place reg i => s.setReg reg (setHostByte (s.regs reg) i (s.readMemU8 place))
  | loadLane place reg lane shift =>
    s.setReg reg (Function.update (s.regs reg) lane ((s.readMemU8 place).setWidth 16 <<< shift))
  | fetchTemp place lane =>
    { s with temp := Function.update s.temp lane ((s.readMemU8 place).setWidth 16 <<< 7) }
  | unloadTemp reg i =>
    s.setReg reg (writeByteToHalfWords (s.regs reg) i (byteFromHalfWords s.temp i))
  | storeByte place reg i => s.writeMemU8 place (byteFromHalfWords (s.regs reg) i)
  | storeHostByte place reg i => s.writeMemU8 place (hostByte (s.regs reg) i)
  | storeHalf place reg lane => s.writeMemU16 place (s.regs reg lane)
  | storeLane place reg lane shift =>
    s.writeMemU8 place (((s.regs reg lane).sshiftRight shift).setWidth 8)
  | storeBits place reg i j =>
    s.writeMemU8 place
      (byteFromHalfWords (s.regs reg) i <<< 1 ||| byteFromHalfWords (s.regs reg) j >>> 7)
  | storeZero place => s.writeMemU8 place 0

/-- Addresses of the bytes that an access reads or writes. -/
def places : Access → List (BitVec 32)
  | loadByte place _ _ | loadHostByte place _ _ | loadLane place _ _ _ | fetchTemp place _
  | storeByte place _ _ | storeHostByte place _ _ | storeLane place _ _ _ | storeBits place _ _ _
  | storeZero place => [place]
  | storeHalf place _ _ => [place &&& ~~~1#32, place ||| 1#32]
  | unloadTemp _ _ => []

/-- Registers and lanes that an access reads or writes. -/
def lanes : Access → List (Nat × Nat)
  | loadByte _ reg i | loadHostByte _ reg i | unloadTemp reg i | storeByte _ reg i
  | storeHostByte _ reg i => [(reg, i / 2)]
  | loadLane _ reg lane _ | storeHalf _ reg lane | storeLane _ reg lane _ => [(reg, lane)]
  | storeBits _ reg i j => [(reg, i / 2), (reg, j / 2)]
  | fetchTemp _ _ | storeZero _ => []

end Access

open Access

section Operations

variable (rt e : Nat) (address : BitVec 32)

def masked : BitVec 32 := address &&& 0xFFF#32

def lbv : List Access := [loadHostByte (masked address) rt (mes e)]

def sbv : List Access := [storeHostByte (masked address) rt (mes e)]

/-- The loop of the loads of `size` bytes, which ends at the last lane. -/
def loadRun (size : Nat) : List Access :=
  let stop := if 16 - size < e then 16 else e + size
  (List.range (stop - e)).map fun k =>
    loadByte (masked (address + BitVec.ofNat 32 k)) rt ((e + k) % 16)

def lsv : List Access := loadRun rt e address 2

def llv : List Access := loadRun rt e address 4

def ldv : List Access := loadRun rt e address 8

def ssv : List Access :=
  let addr := masked address
  [storeHostByte addr rt (mes e), storeHostByte (masked (addr + 1)) rt (mes ((e + 1) % 16))]

def slv : List Access :=
  let addr := masked address
  (List.range 4).map fun k => storeByte (addr + BitVec.ofNat 32 k) rt ((e + k) % 16)

/-- The bytes of `sdv` one by one. -/
def sdvBytes : List Access :=
  let addr := masked address
  (List.range 8).map fun i =>
    storeHostByte (masked (addr + BitVec.ofNat 32 i)) rt (mes ((e + i) % 16))

/-- The bytes of `sdv` in pairs. -/
def sdvHalves : List Access :=
  let addr := masked address
  (List.range 4).map fun i => storeHalf (masked (addr + BitVec.ofNat 32 (2 * i))) rt (e / 2 + i)

def sdv : List Access :=
  if 8 < e ∨ e % 2 = 1 ∨ (masked address).toNat % 2 = 1 then sdvBytes rt e address
  else sdvHalves rt e address

/-- `lpv` and `luv`, which shift by different amounts. -/
def loadPacked (shift : Nat) : List Access :=
  let index := (masked address &&& 7#32) - BitVec.ofNat 32 e
  let addr := masked address &&& ~~~7#32
  (List.range 8).map fun i =>
    loadLane (masked (addr + ((BitVec.ofNat 32 i + index) &&& 15#32))) rt i shift

def lpv : List Access := loadPacked rt e address 8

def luv : List Access := loadPacked rt e address 7

/-- `spv` and `suv`, with the shifts of the first and the second eight elements. -/
def storePacked (first second : Nat) : List Access :=
  let addr := masked address
  (List.range 8).map fun k =>
    storeLane (masked (addr + BitVec.ofNat 32 k)) rt ((e + k) % 8)
      (if (e + k) % 16 < 8 then first else second)

def spv : List Access := storePacked rt e address 8 7

def suv : List Access := storePacked rt e address 7 8

def lhv : List Access :=
  let index := (address &&& 7#32) - BitVec.ofNat 32 e
  let addr := address &&& ~~~7#32
  (List.range 8).map fun i =>
    loadLane (masked (addr + ((index + BitVec.ofNat 32 (i * 2)) &&& 15#32))) rt i 7

def shv : List Access :=
  let index := masked address &&& 7#32
  let addr := masked address &&& ~~~7#32
  (List.range 8).map fun i =>
    storeBits (addr + ((index + BitVec.ofNat 32 (i * 2)) &&& 15#32)) rt ((e + 2 * i) % 16)
      ((e + 2 * i + 1) % 16)

def lfv : List Access :=
  let index := (address &&& 7#32) - BitVec.ofNat 32 e
  let stop := if 8 < e then 16 else e + 8
  let addr := address &&& ~~~7#32
  let fetches := (List.range 4).flatMap fun i =>
    [fetchTemp (masked (addr + ((index + BitVec.ofNat 32 (i * 4)) &&& 15#32))) i,
      fetchTemp (masked (addr + ((index + BitVec.ofNat 32 (i * 4) + 8#32) &&& 15#32))) (i + 4)]
  fetches ++ (List.range (stop - e)).map fun k => unloadTemp rt (e + k)

/-- The lanes that `sfv` stores for an element; for all other elements it stores zeros. -/
def sfvLanes : Nat → Option (Nat × Nat × Nat × Nat)
  | 0 | 15 => some (0, 1, 2, 3)
  | 1 => some (6, 7, 4, 5)
  | 4 => some (1, 2, 3, 0)
  | 5 => some (7, 4, 5, 6)
  | 8 => some (4, 5, 6, 7)
  | 11 => some (3, 0, 1, 2)
  | 12 => some (5, 6, 7, 4)
  | _ => none

def sfv : List Access :=
  let base := masked address &&& 7#32
  let addr := masked address &&& ~~~7#32
  let third := addr + ((8#32 + base) &&& 15#32)
  let fourth := addr + ((12#32 + base) &&& 15#32)
  match sfvLanes e with
  | some (a, b, c, d) =>
    [storeLane (addr + base) rt a 7, storeLane (addr + 4#32 + base) rt b 7, storeLane third rt c 7,
      storeLane fourth rt d 7]
  | none =>
    [storeZero (addr + base), storeZero (addr + 4#32 + base), storeZero third, storeZero fourth]

def lwv : List Access :=
  (List.range (2 * e)).map fun k =>
    loadByte (masked (address + BitVec.ofNat 32 (4 * k))) rt ((16 - e + k) % 16)

def swv : List Access :=
  let base := masked address &&& 7#32
  let addr := masked address &&& ~~~7#32
  (List.range 16).map fun k =>
    storeByte (addr + ((base + BitVec.ofNat 32 k) &&& 15#32)) rt ((e + k) % 16)

def lqv : List Access :=
  let stop := min (16 + e - (address &&& 15#32).toNat) 16
  (List.range (stop - e)).map fun k =>
    loadByte (masked (address + BitVec.ofNat 32 k)) rt ((e + k) % 16)

def sqv : List Access :=
  let addr := masked address
  (List.range (16 - (addr &&& 15#32).toNat)).map fun k =>
    storeByte (addr + BitVec.ofNat 32 k) rt ((e + k) % 16)

def lrv : List Access :=
  let start := 16 + e - (address &&& 15#32).toNat
  let addr := address &&& ~~~15#32
  (List.range (16 - start)).map fun k =>
    loadByte (masked (addr + BitVec.ofNat 32 k)) rt ((start + k) % 16)

def srv : List Access :=
  let base := 16 - (masked address &&& 15#32).toNat
  let addr := masked address &&& ~~~15#32
  (List.range (masked address &&& 15#32).toNat).map fun k =>
    storeByte (addr + BitVec.ofNat 32 k) rt ((e + k + base) % 16)

/-- The next address of `ltv`, which turns around behind 16 bytes. -/
def ltvNext (start addr : BitVec 32) : BitVec 32 :=
  if addr + 1 = start + 16 then start else addr + 1

/-- The bytes that `ltv` loads, from byte `i` of the register at `j` on. -/
def ltvBytes (start addr : BitVec 32) (vt0 j i : Nat) : Nat → List Access
  | 0 => []
  | n + 1 =>
    loadByte (masked addr) (vt0 + j % 8) i ::
      loadByte (masked (ltvNext start addr)) (vt0 + j % 8) (i + 1) ::
        ltvBytes start (ltvNext start (ltvNext start addr)) vt0 (j + 1) (i + 2) n

def ltv : List Access :=
  let start := address &&& ~~~7#32
  let addr := start + ((BitVec.ofNat 32 e + (address &&& 8#32)) &&& 15#32)
  ltvBytes start addr (rt / 8 * 8) (e / 2) 0 8

def stv : List Access :=
  let even := e / 2 * 2
  let base := (masked address &&& 7#32) - BitVec.ofNat 32 even
  let addr := masked address &&& ~~~7#32
  (List.range 16).map fun k =>
    storeByte (addr + ((base + BitVec.ofNat 32 k) &&& 15#32)) (rt / 8 * 8 + k / 2)
      ((16 - even + k) % 16)

end Operations

/-- The operations of `LWC2` and `SWC2`. -/
inductive VectorOp where
  | lbv | sbv | lsv | ssv | llv | slv | ldv | sdv | lpv | spv | luv | suv | lhv | shv | lfv | sfv
  | lwv | swv | lqv | sqv | lrv | srv | ltv | stv
  deriving DecidableEq

namespace VectorOp

/-- The unit of the offset. -/
def scale : VectorOp → BitVec 32
  | lbv | sbv => 1
  | lsv | ssv => 2
  | llv | slv => 4
  | ldv | sdv | lpv | spv | luv | suv => 8
  | lhv | shv | lfv | sfv | lwv | swv | lqv | sqv | lrv | srv | ltv | stv => 16

/-- What an operation does at an address. -/
def accesses (op : VectorOp) (rt e : Nat) (address : BitVec 32) : List Access :=
  match op with
  | lbv => Ls.lbv rt e address
  | sbv => Ls.sbv rt e address
  | lsv => Ls.lsv rt e address
  | ssv => Ls.ssv rt e address
  | llv => Ls.llv rt e address
  | slv => Ls.slv rt e address
  | ldv => Ls.ldv rt e address
  | sdv => Ls.sdv rt e address
  | lpv => Ls.lpv rt e address
  | spv => Ls.spv rt e address
  | luv => Ls.luv rt e address
  | suv => Ls.suv rt e address
  | lhv => Ls.lhv rt e address
  | shv => Ls.shv rt e address
  | lfv => Ls.lfv rt e address
  | sfv => Ls.sfv rt e address
  | lwv => Ls.lwv rt e address
  | swv => Ls.swv rt e address
  | lqv => Ls.lqv rt e address
  | sqv => Ls.sqv rt e address
  | lrv => Ls.lrv rt e address
  | srv => Ls.srv rt e address
  | ltv => Ls.ltv rt e address
  | stv => Ls.stv rt e address

/-- `rsp->sr[base] + offset * scale`. -/
def address (op : VectorOp) (s : State) (offset : BitVec 32) (base : RegNum) : BitVec 32 :=
  s.sr base + offset * op.scale

end VectorOp

def runAt (s : State) (op : VectorOp) (rt e : Nat) (a : BitVec 32) : State :=
  (op.accesses rt e a).foldl Access.execute s

def consecutive (count : Nat) (address : BitVec 32) : List (BitVec 32) :=
  (List.range count).map fun k => address + BitVec.ofNat 32 k

def around (count step : Nat) (row place : BitVec 32) : List (BitVec 32) :=
  (List.range count).map fun k => row + ((place + BitVec.ofNat 32 (k * step)) &&& 15#32)

/-- The byte addresses of an operation, before they are wrapped. -/
def VectorOp.byteAddresses (op : VectorOp) (e : Nat) (a : BitVec 32) : List (BitVec 32) :=
  let inRow := (a &&& 15#32).toNat
  let eighth := a &&& ~~~7#32
  let place := (a &&& 7#32) - BitVec.ofNat 32 e
  match op with
  | lbv | sbv => consecutive 1 a
  | lsv => consecutive (min 2 (16 - e)) a
  | llv => consecutive (min 4 (16 - e)) a
  | ldv => consecutive (min 8 (16 - e)) a
  | ssv => consecutive 2 a
  | slv => consecutive 4 a
  | sdv | spv | suv => consecutive 8 a
  | lpv | luv => around 8 1 eighth place
  | lhv => around 8 2 eighth place
  | shv => around 8 2 eighth (a &&& 7#32)
  | lfv => (List.range 4).flatMap fun i => around 2 8 eighth (place + BitVec.ofNat 32 (i * 4))
  | sfv => around 4 4 eighth (a &&& 7#32)
  | lwv => (List.range (2 * e)).map fun k => a + BitVec.ofNat 32 (4 * k)
  | swv => around 16 1 eighth (a &&& 7#32)
  | lqv => consecutive (min (16 - e) (16 - inRow)) a
  | sqv => consecutive (16 - inRow) a
  | lrv => consecutive (inRow - e) (a &&& ~~~15#32)
  | srv => consecutive inRow (a &&& ~~~15#32)
  | ltv => around 16 1 eighth (BitVec.ofNat 32 e + (a &&& 8#32))
  | stv => around 16 1 eighth ((a &&& 7#32) - BitVec.ofNat 32 (e / 2 * 2))

/-- The kind of addresses that an operation leaves data memory from. -/
def VectorOp.Overruns (op : VectorOp) (a : BitVec 32) : Prop :=
  match op with
  | slv => 0xFFC < (masked a).toNat
  | shv | sfv | swv | stv => 0xFF8 ≤ (masked a).toNat
  | _ => False

section Addresses

variable (a x : BitVec 32)

theorem toNat_masked : (masked a).toNat = a.toNat % 4096 := by
  rw [masked, BitVec.toNat_and]
  exact Nat.and_two_pow_sub_one_eq_mod a.toNat 12

theorem toNat_masked_lt : (masked a).toNat < 4096 := by
  rw [toNat_masked]
  exact Nat.mod_lt _ (by decide)

theorem masked_congr {y : BitVec 32} (h : x.toNat % 4096 = y.toNat % 4096) :
    masked x = masked y := by
  apply BitVec.eq_of_toNat_eq
  rw [toNat_masked, toNat_masked, h]

@[simp] theorem masked_masked_add : masked (masked a + x) = masked (a + x) := by
  apply masked_congr
  rw [BitVec.toNat_add, BitVec.toNat_add, toNat_masked]
  omega

@[simp] theorem masked_masked : masked (masked a) = masked a := by
  apply masked_congr
  rw [toNat_masked, Nat.mod_mod]

theorem masked_and : masked a &&& x = masked (a &&& x) := by
  rw [masked, masked, BitVec.and_assoc, BitVec.and_assoc, BitVec.and_comm x]

theorem masked_and_of_low (h : 0xFFF#32 &&& x = x) : masked a &&& x = a &&& x := by
  rw [masked, BitVec.and_assoc, h]

theorem masked_row (y : BitVec 32) : masked ((masked a &&& x) + y) = masked ((a &&& x) + y) := by
  rw [masked_and, masked_masked_add]

theorem toNat_and_mask (k : Nat) (h : x.toNat = 2 ^ k - 1) :
    (a &&& x).toNat = a.toNat % 2 ^ k := by
  rw [BitVec.toNat_and, h, Nat.and_two_pow_sub_one_eq_mod]

theorem toNat_row (k : Nat) (h : x.toNat = 2 ^ k - 1) :
    (a &&& ~~~x).toNat = a.toNat - a.toNat % 2 ^ k := by
  have hsplit : (a &&& x) + (a &&& ~~~x) = a := by
    rw [BitVec.add_eq_or_of_and_eq_zero]
    · ext i hi
      simp only [BitVec.getElem_or, BitVec.getElem_and, BitVec.getElem_not]
      cases a[i] <;> cases x[i] <;> rfl
    · ext i hi
      simp only [BitVec.getElem_and, BitVec.getElem_not, BitVec.getElem_zero]
      cases a[i] <;> cases x[i] <;> rfl
  have hsum := congrArg BitVec.toNat hsplit
  have hlow : (a &&& x).toNat ≤ a.toNat := by
    rw [BitVec.toNat_and]
    exact Nat.and_le_left
  rw [BitVec.toNat_add, toNat_and_mask a x k h] at hsum
  rw [toNat_and_mask a x k h] at hlow
  omega

end Addresses

def VectorOp.places (op : VectorOp) (rt e : Nat) (a : BitVec 32) : List (BitVec 32) :=
  (op.accesses rt e a).flatMap Access.places

variable {count : Nat} {place : Nat → BitVec 32}

theorem flatMap_places {access : Nat → Access} (h : ∀ k, (access k).places = [place k]) :
    ((List.range count).map access).flatMap Access.places = (List.range count).map place := by
  rw [List.flatMap_map, List.map_eq_flatMap]
  exact congrArg (List.flatMap · _) (funext h)

section Places

variable (e rt : Nat) (a : BitVec 32)

theorem map_masked_consecutive {count count' : Nat} (hcount : count = count') {b : BitVec 32}
    (h : ∀ k, masked (place k) = masked (b + BitVec.ofNat 32 k)) :
    ((List.range count).map place).map masked = (consecutive count' b).map masked := by
  rw [consecutive, hcount, List.map_map, List.map_map]
  exact List.map_congr_left fun k _ => h k

theorem map_masked_around {count step : Nat} {row b : BitVec 32}
    (h : ∀ k, masked (place k) = masked (row + ((b + BitVec.ofNat 32 (k * step)) &&& 15#32))) :
    ((List.range count).map place).map masked = (around count step row b).map masked := by
  rw [around, List.map_map, List.map_map]
  exact List.map_congr_left fun k _ => h k

theorem even_bits {p : BitVec 32} (heven : p.toNat % 2 = 0) :
    p &&& ~~~1#32 = p ∧ p ||| 1#32 = p + 1#32 := by
  constructor
  · apply BitVec.eq_of_toNat_eq
    rw [toNat_row p 1#32 1 rfl]
    omega
  · refine (BitVec.add_eq_or_of_and_eq_zero p 1#32 (BitVec.eq_of_toNat_eq ?_)).symm
    rw [toNat_and_mask p 1#32 1 rfl]
    exact heven

theorem places_storeHalf {p : BitVec 32} (lane : Nat) (heven : p.toNat % 2 = 0) :
    (storeHalf p rt lane).places = [p, p + 1#32] := by
  obtain ⟨hclear, hset⟩ := even_bits heven
  rw [Access.places, hclear, hset]

theorem masked_add_one (h : a.toNat % 2 = 0) : masked a + 1#32 = masked (a + 1#32) := by
  apply BitVec.eq_of_toNat_eq
  rw [BitVec.toNat_add, toNat_masked, toNat_masked, BitVec.toNat_add]
  change (_ + 1) % 2 ^ 32 = (_ + 1) % 2 ^ 32 % 4096
  omega

/-- The places of `sfv`, of which the last two turn around. -/
def sfvPlaces : List (BitVec 32) :=
  let base := masked a &&& 7#32
  let addr := masked a &&& ~~~7#32
  [addr + base, addr + 4#32 + base, addr + ((8#32 + base) &&& 15#32),
    addr + ((12#32 + base) &&& 15#32)]

theorem sfvPlaces_eq :
    sfvPlaces a = (List.range 4).map fun k =>
      (masked a &&& ~~~7#32) + (((masked a &&& 7#32) + BitVec.ofNat 32 (k * 4)) &&& 15#32) := by
  have hbase := toNat_and_mask (masked a) 7#32 3 rfl
  have hlow (x : BitVec 32) (hx : x.toNat < 16) : x &&& 15#32 = x := by
    apply BitVec.eq_of_toNat_eq
    rw [toNat_and_mask x 15#32 4 rfl]
    exact Nat.mod_eq_of_lt hx
  have hfirst := hlow (masked a &&& 7#32) (by omega)
  have hsecond := hlow ((masked a &&& 7#32) + 4#32) (by bv_omega)
  simp [sfvPlaces, List.range_succ, hfirst, hsecond, BitVec.add_assoc, BitVec.add_comm 8#32,
    BitVec.add_comm 12#32, BitVec.add_comm 4#32]

theorem places_sfv : (Ls.sfv rt e a).flatMap Access.places = sfvPlaces a := by
  rw [Ls.sfv]
  split <;> rfl

theorem places_sdvHalves (heven : a.toNat % 2 = 0) :
    (sdvHalves rt e a).flatMap Access.places = (consecutive 8 a).map masked := by
  have hpair (i : Nat) :
      (storeHalf (masked (masked a + BitVec.ofNat 32 (2 * i))) rt (e / 2 + i)).places =
        [masked (a + BitVec.ofNat 32 (2 * i)), masked (a + BitVec.ofNat 32 (2 * i) + 1#32)] := by
    have hsum : (a + BitVec.ofNat 32 (2 * i)).toNat % 2 = 0 := by bv_omega
    rw [masked_masked_add, places_storeHalf, masked_add_one _ hsum]
    rw [toNat_masked]
    omega
  rw [sdvHalves, List.flatMap_map]
  simp only [hpair]
  simp [consecutive, List.range_succ, BitVec.add_assoc]

theorem places_lfv :
    (Ls.lfv rt e a).flatMap Access.places = (VectorOp.lfv.byteAddresses e a).map masked := by
  have hunload (count : Nat) :
      ((List.range count).map fun k => unloadTemp rt (e + k)).flatMap Access.places = [] := by
    simp [List.flatMap_map, Access.places]
  rw [Ls.lfv, List.flatMap_append, hunload]
  simp [VectorOp.byteAddresses, around, List.range_succ, Access.places]

theorem ltvNext_eq (start c : BitVec 32) :
    ltvNext start (start + (c &&& 15#32)) = start + ((c + 1) &&& 15#32) := by
  have hc := toNat_and_mask c 15#32 4 rfl
  have hnext := toNat_and_mask (c + 1) 15#32 4 rfl
  rw [BitVec.toNat_add] at hnext
  rw [ltvNext, BitVec.add_assoc]
  by_cases hlast : c.toNat % 16 = 15
  · have hturn : (c &&& 15#32) + 1 = 16 := by
      apply BitVec.eq_of_toNat_eq
      have hlow : c.toNat % 2 ^ 4 = 15 := hlast
      rw [BitVec.toNat_add, hc, hlow]
      rfl
    have hzero : (c + 1) &&& 15#32 = 0 := by
      apply BitVec.eq_of_toNat_eq
      rw [hnext]
      change (c.toNat + 1) % 2 ^ 32 % 2 ^ 4 = 0
      omega
    rw [if_pos (congrArg _ hturn), hzero]
    exact (BitVec.add_zero start).symm
  · have hstep : (c &&& 15#32) + 1 = (c + 1) &&& 15#32 := by
      apply BitVec.eq_of_toNat_eq
      rw [hnext, BitVec.toNat_add, hc]
      change (c.toNat % 2 ^ 4 + 1) % 2 ^ 32 = (c.toNat + 1) % 2 ^ 32 % 2 ^ 4
      omega
    rw [if_neg, hstep]
    intro hturn
    have hnat := congrArg BitVec.toNat ((BitVec.add_right_inj start).mp hturn)
    rw [BitVec.toNat_add, hc] at hnat
    change (c.toNat % 2 ^ 4 + 1) % 2 ^ 32 = 16 at hnat
    omega

theorem ltvBytes_eq (start c : BitVec 32) (vt0 j i n : Nat) :
    ltvBytes start (start + (c &&& 15#32)) vt0 j i n =
      (List.range (2 * n)).map fun k =>
        loadByte (masked (start + ((c + BitVec.ofNat 32 (k * 1)) &&& 15#32)))
          (vt0 + (j + k / 2) % 8) (i + k) := by
  induction n generalizing c j i with
  | zero => rfl
  | succ n ih =>
    have hrange : List.range (2 * (n + 1)) = 0 :: 1 :: (List.range (2 * n)).map (· + 2) := by
      rw [Nat.mul_add, List.range_succ_eq_map, List.range_succ_eq_map]
      simp
    have hstep (k : Nat) :
        c + BitVec.ofNat 32 ((k + 2) * 1) = c + 1 + 1 + BitVec.ofNat 32 (k * 1) := by
      rw [Nat.mul_one, Nat.mul_one, BitVec.ofNat_add]
      bv_omega
    have hzero : c + BitVec.ofNat 32 (0 * 1) = c := BitVec.add_zero c
    rw [ltvBytes, ltvNext_eq, ltvNext_eq, ih, hrange, List.map_cons, List.map_cons, List.map_map,
      hzero]
    refine congrArg₂ _ rfl (congrArg₂ _ rfl (List.map_congr_left fun k _ => ?_))
    rw [Function.comp_apply, hstep, show j + (k + 2) / 2 = j + 1 + k / 2 by omega,
      show i + (k + 2) = i + 2 + k by omega]

theorem ltv_eq :
    Ls.ltv rt e a = (List.range 16).map fun k =>
      loadByte (masked ((a &&& ~~~7#32) +
        ((BitVec.ofNat 32 e + (a &&& 8#32) + BitVec.ofNat 32 (k * 1)) &&& 15#32)))
        (rt / 8 * 8 + (e / 2 + k / 2) % 8) (0 + k) :=
  ltvBytes_eq ..

theorem map_masked_places (op : VectorOp) :
    (op.places rt e a).map masked = (op.byteAddresses e a).map masked := by
  have h7 : masked a &&& 7#32 = a &&& 7#32 := masked_and_of_low a _ rfl
  have h15 : masked a &&& 15#32 = a &&& 15#32 := masked_and_of_low a _ rfl
  have hrow := toNat_and_mask a 15#32 4 rfl
  cases op with
  | lbv | sbv =>
    simp [VectorOp.places, VectorOp.accesses, lbv, sbv, Access.places, VectorOp.byteAddresses,
      consecutive]
  | lsv | llv | ldv =>
    refine (congrArg _ (flatMap_places fun k => rfl)).trans ?_
    refine map_masked_consecutive ?_ fun k => masked_masked _
    split <;> omega
  | ssv =>
    simp [VectorOp.places, VectorOp.accesses, ssv, Access.places, VectorOp.byteAddresses,
      consecutive, List.range_succ]
  | slv =>
    refine (congrArg _ (flatMap_places fun k => rfl)).trans (map_masked_consecutive rfl fun k => ?_)
    rw [masked_masked_add]
  | sdv =>
    rw [VectorOp.places, VectorOp.accesses, Ls.sdv]
    split
    · refine (congrArg _ (flatMap_places fun k => rfl)).trans
        (map_masked_consecutive rfl fun k => ?_)
      rw [masked_masked, masked_masked_add]
    · next h =>
      have heven : (masked a).toNat % 2 = 0 := by omega
      rw [toNat_masked] at heven
      rw [places_sdvHalves _ _ _ (by omega), List.map_map]
      exact List.map_congr_left fun p _ => masked_masked p
  | lpv | luv =>
    refine (congrArg _ (flatMap_places fun k => rfl)).trans (map_masked_around fun k => ?_)
    rw [masked_masked, masked_row, h7, BitVec.add_comm (BitVec.ofNat 32 k), Nat.mul_one]
  | spv | suv =>
    refine (congrArg _ (flatMap_places fun k => rfl)).trans (map_masked_consecutive rfl fun k => ?_)
    rw [masked_masked, masked_masked_add]
  | lhv =>
    refine (congrArg _ (flatMap_places fun k => rfl)).trans (map_masked_around fun k => ?_)
    rw [masked_masked]
  | shv =>
    refine (congrArg _ (flatMap_places fun k => rfl)).trans (map_masked_around fun k => ?_)
    rw [masked_row, h7]
  | lfv =>
    rw [VectorOp.places, VectorOp.accesses, places_lfv, List.map_map]
    exact List.map_congr_left fun p _ => masked_masked p
  | sfv =>
    rw [VectorOp.places, VectorOp.accesses, places_sfv, sfvPlaces_eq]
    exact map_masked_around fun k => by rw [masked_row, h7]
  | lwv =>
    refine (congrArg _ (flatMap_places fun k => rfl)).trans ?_
    rw [VectorOp.byteAddresses, List.map_map, List.map_map]
    exact List.map_congr_left fun k _ => masked_masked _
  | swv =>
    refine (congrArg _ (flatMap_places fun k => rfl)).trans (map_masked_around fun k => ?_)
    rw [masked_row, h7, Nat.mul_one]
  | lqv =>
    refine (congrArg _ (flatMap_places fun k => rfl)).trans ?_
    exact map_masked_consecutive (by omega) fun k => masked_masked _
  | sqv =>
    refine (congrArg _ (flatMap_places fun k => rfl)).trans ?_
    rw [h15]
    exact map_masked_consecutive rfl fun k => masked_masked_add _ _
  | lrv =>
    refine (congrArg _ (flatMap_places fun k => rfl)).trans ?_
    exact map_masked_consecutive (by omega) fun k => masked_masked _
  | srv =>
    refine (congrArg _ (flatMap_places fun k => rfl)).trans ?_
    rw [h15]
    exact map_masked_consecutive rfl fun k => masked_row _ _ _
  | ltv =>
    rw [VectorOp.places, VectorOp.accesses, ltv_eq]
    refine (congrArg _ (flatMap_places fun k => rfl)).trans (map_masked_around fun k => ?_)
    rw [masked_masked]
  | stv =>
    refine (congrArg _ (flatMap_places fun k => rfl)).trans (map_masked_around fun k => ?_)
    rw [masked_row, h7, Nat.mul_one]

end Places

section Bounds

variable {rt e : Nat} {a : BitVec 32}

theorem toNat_masked_row (x : BitVec 32) :
    ((masked a &&& ~~~7#32) + (x &&& 15#32)).toNat =
      (masked a).toNat - (masked a).toNat % 8 + x.toNat % 16 := by
  have hlt := toNat_masked_lt a
  have hrow := toNat_row (masked a) 7#32 3 rfl
  have hplace := toNat_and_mask x 15#32 4 rfl
  rw [BitVec.toNat_add, hrow, hplace]
  change (_ - _ % 8 + _ % 16) % 2 ^ 32 = _
  omega

theorem forall_masked {l : List (BitVec 32)} (h : ∀ p ∈ l, ∃ x, p = masked x) :
    (∀ p ∈ l, p.toNat < 4096) ↔ ¬False := by
  refine ⟨fun _ => not_false, fun _ p hp => ?_⟩
  obtain ⟨x, rfl⟩ := h p hp
  exact toNat_masked_lt x

theorem exists_masked_of_mem_map {l : List (BitVec 32)} :
    ∀ p ∈ l.map masked, ∃ x, p = masked x :=
  fun _ hp =>
    let ⟨x, _, hx⟩ := List.mem_map.mp hp
    ⟨x, hx.symm⟩

theorem forall_mem_places {access : Nat → Access} (h : ∀ k, (access k).places = [place k]) :
    (∀ p ∈ ((List.range count).map access).flatMap Access.places, p.toNat < 4096) ↔
      ∀ k < count, (place k).toNat < 4096 := by
  rw [flatMap_places h, List.forall_mem_map]
  exact forall_congr' fun k => imp_congr_left List.mem_range

theorem forall_consecutive {b : BitVec 32} (hb : b.toNat < 4096) (hcount : count ≤ 16) :
    (∀ k < count, (b + BitVec.ofNat 32 k).toNat < 4096) ↔ b.toNat + count ≤ 4096 := by
  simp only [BitVec.toNat_add, BitVec.toNat_ofNat]
  constructor
  · intro hin
    by_cases hzero : count = 0
    · omega
    · have hlast := hin (count - 1) (by omega)
      omega
  · intro hle k hk
    omega

theorem forall_around {x : Nat → BitVec 32} (hhalf : ∃ k < count, 8 ≤ (x k).toNat % 16) :
    (∀ k < count, ((masked a &&& ~~~7#32) + (x k &&& 15#32)).toNat < 4096) ↔
      ¬0xFF8 ≤ (masked a).toNat := by
  have hlt := toNat_masked_lt a
  simp only [toNat_masked_row]
  constructor
  · obtain ⟨k, hk, hge⟩ := hhalf
    intro h
    have hin := h k hk
    omega
  · intro h k _
    omega

theorem forall_places_iff (op : VectorOp) :
    (∀ p ∈ op.places rt e a, p.toNat < 4096) ↔ ¬op.Overruns a := by
  have hplace := toNat_and_mask (masked a) 7#32 3 rfl
  have hinRow := toNat_and_mask (masked a) 15#32 4 rfl
  have hrow := toNat_row (masked a) 15#32 4 rfl
  have hlt := toNat_masked_lt a
  cases op with
  | lbv | sbv | ssv =>
    exact forall_masked (by simp [VectorOp.places, VectorOp.accesses, lbv, sbv, ssv, Access.places])
  | lsv | llv | ldv | lpv | luv | spv | suv | lhv | lwv | lqv | lrv =>
    refine (forall_mem_places fun k => rfl).trans ⟨fun _ => not_false, fun _ k _ => ?_⟩
    exact toNat_masked_lt _
  | slv =>
    refine (forall_mem_places fun k => rfl).trans ((forall_consecutive hlt (by decide)).trans ?_)
    rw [VectorOp.Overruns]
    omega
  | sdv =>
    rw [VectorOp.places, VectorOp.accesses, Ls.sdv]
    split
    · refine (forall_mem_places fun k => rfl).trans ⟨fun _ => not_false, fun _ k _ => ?_⟩
      exact toNat_masked_lt _
    · next h =>
      have heven : (masked a).toNat % 2 = 0 := by omega
      rw [toNat_masked] at heven
      rw [places_sdvHalves _ _ _ (by omega)]
      exact forall_masked exists_masked_of_mem_map
  | lfv =>
    rw [VectorOp.places, VectorOp.accesses, places_lfv]
    exact forall_masked exists_masked_of_mem_map
  | shv =>
    refine (forall_mem_places fun k => rfl).trans (forall_around ⟨4, by decide, ?_⟩)
    rw [BitVec.toNat_add, hplace]
    change 8 ≤ (_ + 8) % 2 ^ 32 % 16
    omega
  | swv =>
    refine (forall_mem_places fun k => rfl).trans (forall_around ⟨8, by decide, ?_⟩)
    rw [BitVec.toNat_add, hplace]
    change 8 ≤ (_ + 8) % 2 ^ 32 % 16
    omega
  | stv =>
    refine (forall_mem_places fun k => rfl).trans
      (forall_around ⟨(8 + e / 2 * 2) % 16, Nat.mod_lt _ (by decide), ?_⟩)
    rw [BitVec.toNat_add, BitVec.toNat_sub, BitVec.toNat_ofNat, BitVec.toNat_ofNat, hplace]
    omega
  | sfv =>
    rw [VectorOp.places, VectorOp.accesses, places_sfv, sfvPlaces_eq, List.forall_mem_map]
    simp only [List.mem_range]
    refine forall_around ⟨2, by decide, ?_⟩
    rw [BitVec.toNat_add, hplace]
    change 8 ≤ (_ + 8) % 2 ^ 32 % 16
    omega
  | sqv =>
    have hcount : 16 - (masked a &&& 15#32).toNat ≤ 16 := Nat.sub_le ..
    refine (forall_mem_places fun k => rfl).trans ((forall_consecutive hlt hcount).trans ?_)
    refine ⟨fun _ => not_false, fun _ => ?_⟩
    omega
  | srv =>
    have hcount : (masked a &&& 15#32).toNat ≤ 16 := by omega
    refine (forall_mem_places fun k => rfl).trans
      ((forall_consecutive (by omega) hcount).trans ⟨fun _ => not_false, fun _ => ?_⟩)
    omega
  | ltv =>
    rw [VectorOp.places, VectorOp.accesses, ltv_eq]
    refine (forall_mem_places fun k => rfl).trans ⟨fun _ => not_false, fun _ k _ => ?_⟩
    exact toNat_masked_lt _

end Bounds

section Lanes

def Access.InFile (access : Access) : Prop := ∀ lane ∈ access.lanes, lane.1 < 32 ∧ lane.2 < 8

instance (access : Access) : Decidable access.InFile :=
  inferInstanceAs (Decidable (∀ lane ∈ access.lanes, lane.1 < 32 ∧ lane.2 < 8))

variable {rt e : Nat}

theorem inFile_one {access : Access} {reg lane : Nat} (h : access.lanes = [(reg, lane)])
    (hreg : reg < 32) (hlane : lane < 8) : access.InFile := by
  intro l hl
  rw [h] at hl
  obtain rfl := List.mem_singleton.mp hl
  exact ⟨hreg, hlane⟩

theorem inFile_map {access : Nat → Access} {reg lane : Nat → Nat}
    (h : ∀ k, (access k).lanes = [(reg k, lane k)]) (hreg : ∀ k < count, reg k < 32)
    (hlane : ∀ k < count, lane k < 8) : ∀ a ∈ (List.range count).map access, a.InFile := by
  rw [List.forall_mem_map]
  intro k hk
  have hlt := List.mem_range.mp hk
  exact inFile_one (h k) (hreg k hlt) (hlane k hlt)

theorem mes_div_two (i : Nat) : mes i / 2 = i / 2 := by
  rw [mes, Nat.xor_div_two]
  exact Nat.xor_zero _

theorem inFile_accesses (op : VectorOp) (a : BitVec 32) (hrt : rt < 32) (he : e < 16) :
    ∀ access ∈ op.accesses rt e a, access.InFile := by
  have hmod (x : Nat) : x % 16 / 2 < 8 := by omega
  have hmes (x : Nat) (hx : x < 16) : mes x / 2 < 8 := by
    rw [mes_div_two]
    omega
  cases op with
  | lbv => exact List.forall_mem_singleton.mpr (inFile_one rfl hrt (hmes e he))
  | sbv => exact List.forall_mem_singleton.mpr (inFile_one rfl hrt (hmes e he))
  | ssv =>
    refine List.forall_mem_cons.mpr ⟨inFile_one rfl hrt (hmes e he), ?_⟩
    exact List.forall_mem_singleton.mpr
      (inFile_one rfl hrt (hmes _ (Nat.mod_lt _ (by decide))))
  | lsv | llv | ldv | slv | lwv | swv | lqv | sqv | lrv | srv =>
    exact inFile_map (fun k => rfl) (fun _ _ => hrt) fun _ _ => hmod _
  | sdv =>
    rw [VectorOp.accesses, Ls.sdv]
    split
    · exact inFile_map (fun k => rfl) (fun _ _ => hrt) fun k _ => hmes _ (Nat.mod_lt _ (by decide))
    · exact inFile_map (fun k => rfl) (fun _ _ => hrt) fun k hk => by omega
  | lpv | luv | lhv => exact inFile_map (fun k => rfl) (fun _ _ => hrt) fun k hk => hk
  | spv | suv =>
    exact inFile_map (fun k => rfl) (fun _ _ => hrt) fun k _ => Nat.mod_lt _ (by decide)
  | shv =>
    rw [VectorOp.accesses, Ls.shv, List.forall_mem_map]
    intro k _ lane hlane
    simp only [Access.lanes, List.mem_cons, List.not_mem_nil, or_false] at hlane
    rcases hlane with rfl | rfl
    · exact ⟨hrt, hmod _⟩
    · exact ⟨hrt, hmod _⟩
  | lfv =>
    rw [VectorOp.accesses, Ls.lfv, List.forall_mem_append]
    constructor
    · intro access haccess
      obtain ⟨i, -, hmem⟩ := List.mem_flatMap.mp haccess
      simp only [List.mem_cons, List.not_mem_nil, or_false] at hmem
      rcases hmem with rfl | rfl
      · exact fun _ hl => absurd hl List.not_mem_nil
      · exact fun _ hl => absurd hl List.not_mem_nil
    · exact inFile_map (fun k => rfl) (fun _ _ => hrt) fun k hk => by
        split at hk <;> omega
  | sfv =>
    have hsfv : ∀ e < 16, ∀ l ∈ sfvLanes e, l.1 < 8 ∧ l.2.1 < 8 ∧ l.2.2.1 < 8 ∧ l.2.2.2 < 8 := by
      decide
    rw [VectorOp.accesses, Ls.sfv]
    split
    · next a b c d heq =>
      obtain ⟨h₁, h₂, h₃, h₄⟩ := hsfv e he _ heq
      simp [Access.InFile, Access.lanes, hrt, h₁, h₂, h₃, h₄]
    · simp [Access.InFile, Access.lanes]
  | ltv =>
    rw [VectorOp.accesses, ltv_eq]
    exact inFile_map (fun k => rfl) (fun k _ => by omega) fun k hk => by omega
  | stv => exact inFile_map (fun k => rfl) (fun k hk => by omega) fun _ _ => hmod _

end Lanes

section Frame

variable (s : State) {access : Access}

theorem two_mul_half (p : BitVec 32) :
    2 * (hes p >>> 1).toNat = (bes (p ||| 1#32)).toNat ∧
      2 * (hes p >>> 1).toNat + 1 = (bes (p &&& ~~~1#32)).toNat := by
  have hbits : ∀ i, (hi : i < 32) → (3#32)[i] = ((2#32)[i] || (1#32)[i]) ∧
      ((2#32)[i] && (1#32)[i]) = false := by decide
  have hlow : bes (p ||| 1#32) = hes p &&& ~~~1#32 := by
    ext i hi
    obtain ⟨hthree, hne⟩ := hbits i hi
    simp only [bes, hes, BitVec.getElem_xor, BitVec.getElem_or, BitVec.getElem_and,
      BitVec.getElem_not]
    change (_ ^^ (3#32)[i]) = ((_ ^^ (2#32)[i]) && _)
    revert hne
    rw [hthree]
    cases p[i] <;> cases (2#32)[i] <;> cases (1#32)[i] <;> decide
  have hhigh : bes (p &&& ~~~1#32) = (hes p &&& ~~~1#32) + 1#32 := by
    rw [BitVec.add_eq_or_of_and_eq_zero]
    · ext i hi
      obtain ⟨hthree, hne⟩ := hbits i hi
      simp only [bes, hes, BitVec.getElem_xor, BitVec.getElem_or, BitVec.getElem_and,
        BitVec.getElem_not]
      change (_ ^^ (3#32)[i]) = ((_ ^^ (2#32)[i]) && _ || _)
      revert hne
      rw [hthree]
      cases p[i] <;> cases (2#32)[i] <;> cases (1#32)[i] <;> decide
    · rw [BitVec.and_assoc]
      exact BitVec.and_zero
  have hrow := toNat_row (hes p) 1#32 1 rfl
  have hhalf : (hes p >>> 1).toNat = (hes p).toNat / 2 := by
    rw [BitVec.toNat_ushiftRight, Nat.shiftRight_eq_div_pow]
  rw [hlow, hhigh, BitVec.toNat_add, hrow, hhalf]
  have hlt := (hes p).isLt
  change _ = _ ∧ _ = (_ + 1) % 2 ^ 32
  omega

end Frame

/-- The bytes of an operation lie in data memory at their addresses modulo its size, and its
elements are lanes of registers. -/
def StaysInside (s : State) (op : VectorOp) (rt : BitVec 5) (e : BitVec 4) (offset : BitVec 32)
    (base : RegNum) : Prop :=
  let a := op.address s offset base
  (∀ p ∈ op.places rt.toNat e.toNat a, (bes p).toNat < 4096) ∧
    (op.places rt.toNat e.toNat a).map BitVec.toNat =
      (op.byteAddresses e.toNat a).map (fun b => b.toNat % 4096) ∧
    ∀ access ∈ op.accesses rt.toNat e.toNat a, access.InFile

theorem toNat_bes_lt {p : BitVec 32} : (bes p).toNat < 4096 ↔ p.toNat < 4096 := by
  have hxor {x : Nat} (h : x < 4096) : x ^^^ 3 < 4096 :=
    Nat.xor_lt_two_pow (n := 12) h (by decide)
  have hthree : (3 : BitVec 32).toNat = 3 := rfl
  rw [bes, BitVec.toNat_xor, hthree]
  refine ⟨fun h => ?_, hxor⟩
  have hback := hxor h
  rwa [Nat.xor_assoc, Nat.xor_self, Nat.xor_zero] at hback

/-- An operation stays inside unless it is one of the five that do not wrap all of their
addresses and begins at the end of data memory. -/
theorem staysInside_iff (s : State) (op : VectorOp) (rt : BitVec 5) (e : BitVec 4)
    (offset : BitVec 32) (base : RegNum) :
    StaysInside s op rt e offset base ↔ ¬op.Overruns (op.address s offset base) := by
  have hplaces : (∀ p ∈ op.places rt.toNat e.toNat (op.address s offset base), p.toNat < 4096) ↔
      ¬op.Overruns (op.address s offset base) := forall_places_iff op
  have hsame := map_masked_places e.toNat rt.toNat (op.address s offset base) op
  rw [StaysInside, ← hplaces]
  simp only [toNat_bes_lt]
  refine ⟨fun h => h.1, fun h => ⟨h, ?_, inFile_accesses op _ rt.isLt e.isLt⟩⟩
  have hnat := congrArg (List.map BitVec.toNat) hsame
  rw [List.map_map, List.map_map] at hnat
  refine (List.map_congr_left fun p hp => ?_).trans (hnat.trans (List.map_congr_left fun p _ => ?_))
  · exact (toNat_masked p ▸ Nat.mod_eq_of_lt (h p hp)).symm
  · exact toNat_masked p

def endOfDmem : State := ⟨fun _ => 0xFFE, fun _ => 0, fun _ _ => 0, fun _ => 0⟩

/-- A store of four bytes there leaves it. -/
theorem slv_not_staysInside : ¬StaysInside endOfDmem .slv 0 0 0 0 := fun h =>
  absurd (h.1 0x1000#32 (by decide)) (by decide)

end ParallelN64.Rsp.Ls
