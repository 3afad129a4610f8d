import Mathlib.Tactic.IntervalCases
import ParallelN64.R4300.Memory
import ParallelN64.Core.BigEndian
import ParallelN64.Si.PifBounds

/-!
# The memory of the serial interface as the processor sees it

A read takes four bytes of the memory. A write merges a host word of four bytes with the value by a
mask, and assigns the result to one byte: the first of the word gets what it should, the other three
stay as they were. A write that reaches the last byte also has the commands in memory processed.
-/

namespace ParallelN64.Si

open ParallelN64.Core
open R4300 (Word maskedWrite bshift hshift Call writePifCommand)

/-- `PIF_RAM_ADDR`. -/
def pifRamAddr (address : Word) : Word := (address &&& 0xFFFC#32) - 0x7C0#32

/-- `sl` of a little-endian host. -/
def sl (mot : Word) : Word :=
  ((mot &&& 0xFF#32) <<< 24) ||| ((mot &&& 0xFF00#32) <<< 8) |||
    ((mot &&& 0xFF0000#32) >>> 8) ||| ((mot &&& 0xFF000000#32) >>> 24)

def Pif.hostWord (s : Pif) (i : Nat) : Word :=
  (s.byte i).toBitVec.setWidth 32 ||| ((s.byte (i + 1)).toBitVec.setWidth 32 <<< 8) |||
    ((s.byte (i + 2)).toBitVec.setWidth 32 <<< 16) ||| ((s.byte (i + 3)).toBitVec.setWidth 32 <<< 24)

/-- `read_pif_ram`: what it returns, and the value. -/
def readPifRam (s : Pif) (address : Word) : Int × Word :=
  let addr := pifRamAddr address
  if 0x40#32 ≤ addr then (-1, 0#32) else (0, sl (s.hostWord addr.toNat))

/-- The byte of the memory that `write_pif_ram` assigns to. -/
def Pif.assign (s : Pif) (addr : Nat) (value mask : Word) : Pif :=
  s.moves (loop 4 (fun k => look (ram (addr + k))) ++
    [put (ram addr) ⟨(maskedWrite (s.hostWord addr) (sl value) (sl mask)).setWidth 8⟩])

def Pif.command (cfg : PifConfig) (s : Pif) : Option (Pif × List Call) :=
  if s.byte 0x3F = 0x08 then some (s.moves [put (ram 0x3F) 0], writePifCommand)
  else (updatePifWrite cfg s).map fun s => (s, [])

/-- `write_pif_ram`. -/
def writePifRam (cfg : PifConfig) (s : Pif) (address value mask : Word) :
    Option (Pif × List Call) :=
  let addr := pifRamAddr address
  if 0x40#32 ≤ addr then some (s, [])
  else
    let s := s.assign addr.toNat value mask
    if addr = 0x3C#32 ∧ mask &&& 0xFF#32 ≠ 0#32 then s.command cfg else some (s, [])

/-- How much a store moves. -/
inductive StoreSize where
  | byte | hword | word
  deriving DecidableEq

def StoreSize.bytes : StoreSize → Nat
  | .byte => 1
  | .hword => 2
  | .word => 4

/-- A store of the processor to the memory of the serial interface. -/
structure Store where
  size : StoreSize
  address : Word
  value : Word
  inRam : pifRamAddr address < 0x40#32

/-- `writeb`, `writeh` and `writew`: the word and the mask. -/
def Store.masked (st : Store) : Word × Word :=
  match st.size with
  | .byte =>
    ((st.value.setWidth 8).setWidth 32 <<< bshift st.address, 0xFF#32 <<< bshift st.address)
  | .hword =>
    ((st.value.setWidth 16).setWidth 32 <<< hshift st.address, 0xFFFF#32 <<< hshift st.address)
  | .word => (st.value, 0xFFFFFFFF#32)

def Store.exec (cfg : PifConfig) (st : Store) (s : Pif) : Option (Pif × List Call) :=
  writePifRam cfg s st.address st.masked.1 st.masked.2

def storeAll (cfg : PifConfig) : List Store → Pif → Option Pif
  | [], s => some s
  | st :: stores, s => (st.exec cfg s).bind fun r => storeAll cfg stores r.1

def Store.start (st : Store) : Nat :=
  (pifRamAddr st.address).toNat + st.address.toNat % 4 / st.size.bytes * st.size.bytes

def Store.Covers (st : Store) (q : Nat) : Prop := st.start ≤ q ∧ q < st.start + st.size.bytes

instance (st : Store) (q : Nat) : Decidable (st.Covers q) := inferInstanceAs (Decidable (_ ∧ _))

def Store.byteFor (st : Store) (q : Nat) : UInt8 :=
  ⟨byteAt st.value (4 - st.size.bytes + (q - st.start))⟩

def Store.apply (st : Store) (m : Nat → UInt8) : Nat → UInt8 :=
  fun q => if st.Covers q then st.byteFor q else m q

def applyAll (stores : List Store) (m : Nat → UInt8) : Nat → UInt8 :=
  stores.foldl (fun m st => st.apply m) m

def ReadsAs (s : Option Pif) (m : Nat → UInt8) : Prop :=
  ∃ s', s = some s' ∧ ∀ address, pifRamAddr address < 0x40#32 →
    (readPifRam s' address).1 = 0 ∧
      ∀ k < 4, byteAt (readPifRam s' address).2 k = (m ((pifRamAddr address).toNat + k)).toBitVec

theorem setWidth_sl (w : Word) : (sl w).setWidth 8 = byteAt w 0 := by
  apply BitVec.eq_of_getLsbD_eq
  intro i hi
  interval_cases i <;> simp [sl, byteAt]

variable {k : Nat} (s : Pif) (st : Store)

theorem byteAt_sl (w : Word) (hk : k < 4) : byteAt (sl w) k = byteAt w (3 - k) := by
  apply BitVec.eq_of_getLsbD_eq
  intro i hi
  interval_cases k <;> interval_cases i <;> simp [sl, byteAt]

theorem byteAt_hostWord (i : Nat) (hk : k < 4) :
    byteAt (s.hostWord i) (3 - k) = (s.byte (i + k)).toBitVec := by
  apply BitVec.eq_of_getLsbD_eq
  intro j hj
  interval_cases k <;> interval_cases j <;> simp [Pif.hostWord, byteAt]

theorem byteAt_readPifRam {address : Word} (h : pifRamAddr address < 0x40#32) (hk : k < 4) :
    byteAt (readPifRam s address).2 k = (s.byte ((pifRamAddr address).toNat + k)).toBitVec := by
  simp only [readPifRam, if_neg (BitVec.not_le.mpr h)]
  rw [byteAt_sl _ hk, byteAt_hostWord s _ hk]

theorem setWidth_masked (old value mask : Word) :
    (maskedWrite old (sl value) (sl mask)).setWidth 8 =
      (old.setWidth 8 &&& ~~~byteAt mask 0) ||| (byteAt value 0 &&& byteAt mask 0) := by
  rw [maskedWrite, BitVec.setWidth_or, BitVec.setWidth_and, BitVec.setWidth_and,
    BitVec.setWidth_not (by decide), setWidth_sl, setWidth_sl]

theorem toNat_and_three (a : Word) : (a &&& 3#32).toNat = a.toNat % 4 := by
  rw [BitVec.toNat_and, show (3#32).toNat = 2 ^ 2 - 1 from rfl, Nat.and_two_pow_sub_one_eq_mod]

theorem bshift_eq (a : Word) : bshift a = (3 - a.toNat % 4) * 8 := by
  rw [bshift, BitVec.toNat_xor, toNat_and_three, Nat.shiftLeft_eq]
  have hlt : a.toNat % 4 < 4 := Nat.mod_lt _ (by decide)
  generalize a.toNat % 4 = r at hlt ⊢
  interval_cases r <;> rfl

theorem hshift_eq (a : Word) : hshift a = if a.toNat % 4 < 2 then 16 else 0 := by
  rw [hshift, show (2#32 : Word) = 3#32 &&& 2#32 from rfl, ← BitVec.and_assoc, BitVec.toNat_xor,
    BitVec.toNat_and, toNat_and_three, Nat.shiftLeft_eq]
  have hlt : a.toNat % 4 < 4 := Nat.mod_lt _ (by decide)
  generalize a.toNat % 4 = r at hlt ⊢
  interval_cases r <;> rfl

theorem toNat_pifRamAddr_mod (address : Word) : (pifRamAddr address).toNat % 4 = 0 := by
  have hand : (address &&& 0xFFFC#32).toNat % 2 ^ 2 = 0 := by
    rw [BitVec.toNat_and, Nat.and_mod_two_pow]
    exact Nat.and_zero _
  rw [pifRamAddr, BitVec.toNat_sub, BitVec.toNat_ofNat]
  omega

theorem byteAt_byte_first (value : Word) :
    byteAt ((value.setWidth 8).setWidth 32 <<< 24) 0 = byteAt value 3 := by
  apply BitVec.eq_of_getLsbD_eq
  intro i hi
  interval_cases i <;> simp [byteAt]

theorem byteAt_hword_first (value : Word) :
    byteAt ((value.setWidth 16).setWidth 32 <<< 16) 0 = byteAt value 2 := by
  apply BitVec.eq_of_getLsbD_eq
  intro i hi
  interval_cases i <;> simp [byteAt]

theorem covers_first_iff :
    st.Covers (pifRamAddr st.address).toNat ↔ st.address.toNat % 4 < st.size.bytes := by
  obtain ⟨size, address, value, hin⟩ := st
  have hlt : address.toNat % 4 < 4 := Nat.mod_lt _ (by decide)
  cases size with
  | _ =>
    simp only [Store.Covers, Store.start, StoreSize.bytes]
    omega

theorem mask_first :
    byteAt st.masked.2 0 = if st.Covers (pifRamAddr st.address).toNat then 0xFF#8 else 0#8 := by
  simp only [covers_first_iff]
  obtain ⟨size, address, value, hin⟩ := st
  have hlt : address.toNat % 4 < 4 := Nat.mod_lt _ (by decide)
  cases size with
  | byte =>
    simp only [Store.masked, StoreSize.bytes, bshift_eq]
    generalize address.toNat % 4 = r at hlt ⊢
    interval_cases r <;> rfl
  | hword =>
    simp only [Store.masked, StoreSize.bytes, hshift_eq]
    generalize address.toNat % 4 = r at hlt ⊢
    interval_cases r <;> rfl
  | word =>
    simp only [Store.masked, StoreSize.bytes]
    generalize address.toNat % 4 = r at hlt ⊢
    interval_cases r <;> rfl

theorem value_first (h : st.Covers (pifRamAddr st.address).toNat) :
    byteAt st.masked.1 0 = (st.byteFor (pifRamAddr st.address).toNat).toBitVec := by
  have hfirst := (covers_first_iff st).mp h
  obtain ⟨size, address, value, hin⟩ := st
  cases size with
  | byte =>
    simp only [StoreSize.bytes] at hfirst
    have hzero : address.toNat % 4 = 0 := by omega
    simp only [Store.masked, Store.byteFor, Store.start, StoreSize.bytes, bshift_eq, hzero,
      Nat.sub_zero, Nat.zero_div, Nat.zero_mul, Nat.add_zero, Nat.sub_self]
    exact byteAt_byte_first value
  | hword =>
    simp only [StoreSize.bytes] at hfirst
    have hzero : address.toNat % 4 / 2 = 0 := by omega
    simp only [Store.masked, Store.byteFor, Store.start, StoreSize.bytes, hshift_eq, hzero,
      if_pos hfirst, Nat.zero_mul, Nat.add_zero, Nat.sub_self]
    exact byteAt_hword_first value
  | word =>
    have hzero : address.toNat % 4 / 4 = 0 := by omega
    simp only [Store.masked, Store.byteFor, Store.start, StoreSize.bytes, hzero, Nat.zero_mul,
      Nat.add_zero, Nat.sub_self]

theorem byte_looks_put (addr : Nat) (value : UInt8) (q : Nat) :
    (s.moves (loop 4 (fun k => look (ram (addr + k))) ++ [put (ram addr) value])).byte q =
      if q = addr then value else s.byte q := by
  rw [Pif.byte, Pif.moves, Buffers.moves_append, Buffers.moves_cons, Buffers.moves_nil]
  split_ifs with h
  · subst h
    exact Buffers.bytes_move_of_eq (m := put (ram q) value) (p := ram q) rfl
  · have hput : (put (ram addr) value).dst ≠ some (ram q) := by
      intro heq
      exact h (congrArg Place.index (Option.some.inj heq)).symm
    rw [Buffers.bytes_move_of_ne hput, Buffers.bytes_moves_of_forall_ne]
    · rfl
    · intro m hm
      obtain ⟨k, -, rfl⟩ := mem_loop.mp hm
      exact (Option.some_ne_none _).symm

theorem byte_assign (s : Pif) (q : Nat) :
    (s.assign (pifRamAddr st.address).toNat st.masked.1 st.masked.2).byte q =
      if q = (pifRamAddr st.address).toNat then st.apply s.byte q else s.byte q := by
  rw [Pif.assign, byte_looks_put]
  split_ifs with hq
  · rw [hq, Store.apply, setWidth_masked, mask_first]
    have hold : (s.hostWord (pifRamAddr st.address).toNat).setWidth 8 =
        (s.byte (pifRamAddr st.address).toNat).toBitVec := by
      have hbyte := byteAt_hostWord s (pifRamAddr st.address).toNat (k := 0) (by decide)
      exact hbyte
    split_ifs with hcovers
    · rw [value_first st hcovers, show ~~~(0xFF#8 : BitVec 8) = 0#8 from rfl, BitVec.and_zero,
        BitVec.zero_or, show (0xFF#8 : BitVec 8) = BitVec.allOnes 8 from rfl, BitVec.and_allOnes]
    · rw [hold, BitVec.and_zero, BitVec.or_zero, show ~~~(0#8 : BitVec 8) = BitVec.allOnes 8 from rfl,
        BitVec.and_allOnes]
  · rfl

theorem word_of_covers {st : Store} {q : Nat} (h : st.Covers q) :
    (pifRamAddr st.address).toNat ≤ q ∧ q < (pifRamAddr st.address).toNat + 4 := by
  obtain ⟨size, address, value, hin⟩ := st
  have hlt : address.toNat % 4 < 4 := Nat.mod_lt _ (by decide)
  cases size with
  | _ =>
    simp only [Store.Covers, Store.start, StoreSize.bytes] at h ⊢
    omega

theorem byte_assign_eq (s : Pif) (q : Nat) :
    (s.assign (pifRamAddr st.address).toNat st.masked.1 st.masked.2).byte q =
      if q % 4 = 0 then st.apply s.byte q else s.byte q := by
  have hmod := toNat_pifRamAddr_mod st.address
  rw [byte_assign]
  by_cases hq : q = (pifRamAddr st.address).toNat
  · rw [if_pos hq, if_pos (hq ▸ hmod)]
  · rw [if_neg hq]
    split_ifs with hfirst
    · have hcovers : ¬ st.Covers q := by
        intro hcovers
        have hword := word_of_covers hcovers
        omega
      rw [Store.apply, if_neg hcovers]
    · rfl

theorem triggers_iff :
    (pifRamAddr st.address = 0x3C#32 ∧ st.masked.2 &&& 0xFF#32 ≠ 0#32) ↔ st.Covers 0x3F := by
  have hmod := toNat_pifRamAddr_mod st.address
  obtain ⟨size, address, value, hin⟩ := st
  have haddr : pifRamAddr address = 0x3C#32 ↔ (pifRamAddr address).toNat = 0x3C := by
    rw [← BitVec.toNat_inj]
    rfl
  have hlt : (pifRamAddr address).toNat < 0x40 := BitVec.lt_def.mp hin
  have hrem : address.toNat % 4 < 4 := Nat.mod_lt _ (by decide)
  rw [haddr]
  simp only [Store.masked, Store.Covers, Store.start, bshift_eq, hshift_eq]
  generalize (pifRamAddr address).toNat = a at hmod hlt ⊢
  generalize address.toNat % 4 = r at hrem ⊢
  cases size with
  | _ =>
    simp only [StoreSize.bytes]
    interval_cases r <;> simp <;> omega

section Stores

variable (cfg : PifConfig)

variable {st : Store} (s : Pif)

theorem exec_of_not_covers (h : ¬ st.Covers 0x3F) :
    st.exec cfg s =
      some (s.assign (pifRamAddr st.address).toNat st.masked.1 st.masked.2, []) := by
  rw [Store.exec, writePifRam, if_neg (BitVec.not_le.mpr st.inRam)]
  exact if_neg fun htriggers => h ((triggers_iff st).mp htriggers)

theorem exec_of_covers (h : st.Covers 0x3F) :
    st.exec cfg s =
      (s.assign (pifRamAddr st.address).toNat st.masked.1 st.masked.2).command cfg := by
  rw [Store.exec, writePifRam, if_neg (BitVec.not_le.mpr st.inRam)]
  exact if_pos ((triggers_iff st).mpr h)

theorem applyAll_congr {m m' : Nat → UInt8} {q : Nat} (stores : List Store) (h : m q = m' q) :
    applyAll stores m q = applyAll stores m' q := by
  induction stores generalizing m m' with
  | nil => exact h
  | cons st stores ih =>
    apply ih
    simp only [Store.apply]
    split_ifs
    · rfl
    · exact h

theorem storeAll_of_not_covers {stores : List Store} (h : ∀ st ∈ stores, ¬ st.Covers 0x3F) :
    ∃ s', storeAll cfg stores s = some s' ∧
      ∀ q, s'.byte q = if q % 4 = 0 then applyAll stores s.byte q else s.byte q := by
  induction stores generalizing s with
  | nil =>
    refine ⟨s, rfl, fun q => ?_⟩
    split_ifs
    · rfl
    · rfl
  | cons st stores ih =>
    obtain ⟨hst, hstores⟩ := List.forall_mem_cons.mp h
    obtain ⟨s', hs', hbytes⟩ :=
      ih (s.assign (pifRamAddr st.address).toNat st.masked.1 st.masked.2) hstores
    refine ⟨s', ?_, fun q => ?_⟩
    · rw [storeAll, exec_of_not_covers cfg s hst]
      exact hs'
    · have hfirst := byte_assign_eq st s q
      rw [hbytes]
      split_ifs at hfirst ⊢
      · exact applyAll_congr stores hfirst
      · exact hfirst

theorem readsAs_iff (m : Nat → UInt8) : ReadsAs (some s) m ↔ ∀ q < 64, s.byte q = m q := by
  constructor
  · rintro ⟨s', hs', hreads⟩ q hq
    obtain rfl := Option.some.inj hs'
    have haddr : pifRamAddr (0x7C0#32 + BitVec.ofNat 32 (q / 4 * 4)) =
        BitVec.ofNat 32 (q / 4 * 4) := by
      interval_cases q <;> rfl
    have hword : (BitVec.ofNat 32 (q / 4 * 4)).toNat = q / 4 * 4 := by
      rw [BitVec.toNat_ofNat]
      omega
    have hin : pifRamAddr (0x7C0#32 + BitVec.ofNat 32 (q / 4 * 4)) < 0x40#32 := by
      rw [haddr, BitVec.lt_def, hword]
      exact show q / 4 * 4 < 64 by omega
    have hbyte := (hreads _ hin).2 (q % 4) (Nat.mod_lt _ (by decide))
    rw [byteAt_readPifRam s hin (Nat.mod_lt _ (by decide)), haddr, hword,
      Nat.div_add_mod' q 4] at hbyte
    exact UInt8.toBitVec_inj.mp hbyte
  · intro h
    refine ⟨s, rfl, fun address hin => ⟨?_, fun k hk => ?_⟩⟩
    · rw [readPifRam, if_neg (BitVec.not_le.mpr hin)]
    · have hmod := toNat_pifRamAddr_mod address
      have hlt : (pifRamAddr address).toNat < 0x40 := BitVec.lt_def.mp hin
      rw [byteAt_readPifRam s hin hk, h _ (by omega)]

/-- What a store asks of the memory: the bytes that are not assigned are there, and the commands
that it has processed change none. -/
structure Store.Meets (st : Store) (s : Pif) : Prop where
  there : ∀ q, st.Covers q → q % 4 ≠ 0 → s.byte q = st.byteFor q
  quiet : st.Covers 0x3F → ∀ s',
    updatePifWrite cfg (s.assign (pifRamAddr st.address).toNat st.masked.1 st.masked.2) = some s' →
      ∀ q < 64,
        s'.byte q =
          (s.assign (pifRamAddr st.address).toNat st.masked.1 st.masked.2).byte q

def MeetsAll : List Store → Pif → Prop
  | [], _ => True
  | st :: stores, s => st.Meets cfg s ∧ ∀ r, st.exec cfg s = some r → MeetsAll stores r.1

variable {cfg}

theorem byte_assign_of_meets {s : Pif} (h : st.Meets cfg s) (q : Nat) :
    (s.assign (pifRamAddr st.address).toNat st.masked.1 st.masked.2).byte q = st.apply s.byte q := by
  rw [byte_assign_eq]
  split_ifs with hq
  · rfl
  · rw [Store.apply]
    split_ifs with hcovers
    · exact h.there q hcovers hq
    · rfl

theorem exec_of_meets {s : Pif} (h : st.Meets cfg s)
    (hzero : st.Covers 0x3F → st.byteFor 0x3F = 0) :
    ∃ r, st.exec cfg s = some r ∧ ∀ q < 64, r.1.byte q = st.apply s.byte q := by
  by_cases hcovers : st.Covers 0x3F
  · have hlast : (s.assign (pifRamAddr st.address).toNat st.masked.1 st.masked.2).byte 0x3F = 0 := by
      rw [byte_assign_of_meets h, Store.apply, if_pos hcovers, hzero hcovers]
    obtain ⟨s', hs'⟩ := (updatePifWrite_spec cfg
      (s.assign (pifRamAddr st.address).toNat st.masked.1 st.masked.2)).1
    refine ⟨(s', []), ?_, fun q hq => ?_⟩
    · rw [exec_of_covers cfg s hcovers, Pif.command, hlast, if_neg (by decide), hs']
      rfl
    · exact (h.quiet hcovers s' hs' q hq).trans (byte_assign_of_meets h q)
  · exact ⟨_, exec_of_not_covers cfg s hcovers, fun q _ => byte_assign_of_meets h q⟩

theorem storeAll_of_meetsAll {stores : List Store} {s : Pif} (h : MeetsAll cfg stores s)
    (hzero : ∀ st ∈ stores, st.Covers 0x3F → st.byteFor 0x3F = 0) :
    ∃ s', storeAll cfg stores s = some s' ∧ ∀ q < 64, s'.byte q = applyAll stores s.byte q := by
  induction stores generalizing s with
  | nil => exact ⟨s, rfl, fun q _ => rfl⟩
  | cons st stores ih =>
    obtain ⟨hst, hstores⟩ := List.forall_mem_cons.mp hzero
    obtain ⟨r, hexec, hbytes⟩ := exec_of_meets h.1 hst
    obtain ⟨s', hs', hrest⟩ := ih (h.2 r hexec) hstores
    refine ⟨s', ?_, fun q hq => ?_⟩
    · rw [storeAll, hexec]
      exact hs'
    · rw [hrest q hq]
      exact applyAll_congr stores (hbytes q hq)

end Stores

/-- The memory behaves as memory under stores that leave its last byte 0 where each store finds
the bytes behind the first one of its word already there, and the commands that a store to the
last byte has processed change nothing. Where no store reaches the last byte, it does exactly where
the stores change nothing but the first bytes of words. -/
theorem pifRam_reads_as_stored_iff (cfg : PifConfig) (s : Pif) (stores : List Store)
    (hzero : ∀ st ∈ stores, st.Covers 0x3F → st.byteFor 0x3F = 0) :
    (MeetsAll cfg stores s → ReadsAs (storeAll cfg stores s) (applyAll stores s.byte)) ∧
      ((∀ st ∈ stores, ¬ st.Covers 0x3F) →
        (ReadsAs (storeAll cfg stores s) (applyAll stores s.byte) ↔
          ∀ q < 64, q % 4 ≠ 0 → applyAll stores s.byte q = s.byte q)) := by
  constructor
  · intro hmeets
    obtain ⟨s', hs', hbytes⟩ := storeAll_of_meetsAll hmeets hzero
    rw [hs', readsAs_iff]
    exact hbytes
  · intro hquiet
    obtain ⟨s', hs', hbytes⟩ := storeAll_of_not_covers cfg s hquiet
    rw [hs', readsAs_iff]
    refine forall₂_congr fun q _ => ?_
    rw [hbytes]
    split_ifs with hq
    · exact iff_of_true rfl fun hne => absurd hq hne
    · exact ⟨fun heq _ => heq.symm, fun heq => (heq hq).symm⟩

def clearedPif : Pif where
  buffers := ⟨fun _ => 0, []⟩
  transferpak _ := ⟨false, 0#32, 0, 0, 0#32, 0#32⟩
  cicChallenge := false

def sampleZeroStore : Store := ⟨.byte, 0xBFC007FF#32, 0#32, by decide⟩
def sampleByteStore : Store := ⟨.byte, 0xBFC007C0#32, 0x12#32, by decide⟩
def sampleWordStore : Store := ⟨.word, 0xBFC007C0#32, 0x11223344#32, by decide⟩

/-- A byte at the start of the memory is stored, and a 0 where the last byte is 0. -/
theorem pifRam_reads_as_stored_byte :
    ReadsAs (storeAll samplePifConfig [sampleZeroStore] clearedPif)
        (applyAll [sampleZeroStore] clearedPif.byte) ∧
      ReadsAs (storeAll samplePifConfig [sampleByteStore] clearedPif)
        (applyAll [sampleByteStore] clearedPif.byte) := by
  have hwalk : ∀ s' ∈ updatePifWrite samplePifConfig (clearedPif.assign 0x3C 0#32 0xFF#32),
      ∀ q < 64, s'.byte q = (clearedPif.assign 0x3C 0#32 0xFF#32).byte q := by decide +kernel
  constructor
  · refine (pifRam_reads_as_stored_iff samplePifConfig clearedPif [sampleZeroStore] (by decide)).1
      ⟨⟨?_, fun _ => hwalk⟩, fun _ _ => trivial⟩
    rintro q ⟨hle, hlt⟩ -
    obtain rfl : q = 0x3F := Nat.le_antisymm (Nat.le_of_lt_succ hlt) hle
    rfl
  · apply ((pifRam_reads_as_stored_iff samplePifConfig clearedPif [sampleByteStore] (by decide)).2
      (by decide)).mpr
    intro q hq
    interval_cases q <;> decide

/-- Of a word only the first byte is stored. -/
theorem word_store_loses_bytes :
    (clearedPif.byte 0x3F = 0 ∧ ∀ st ∈ [sampleWordStore], ¬ st.Covers 0x3F) ∧
      (∃ s, storeAll samplePifConfig [sampleWordStore] clearedPif = some s ∧
        readPifRam s 0xBFC007C0#32 = (0, 0x11000000#32)) ∧
      ¬ ReadsAs (storeAll samplePifConfig [sampleWordStore] clearedPif)
        (applyAll [sampleWordStore] clearedPif.byte) := by
  have hquiet : ∀ st ∈ [sampleWordStore], ¬ st.Covers 0x3F := by decide
  obtain ⟨s, hs, hbytes⟩ := storeAll_of_not_covers samplePifConfig clearedPif hquiet
  refine ⟨⟨rfl, hquiet⟩, ⟨s, hs, ?_⟩, ?_⟩
  · rw [readPifRam, if_neg (by decide), Pif.hostWord, hbytes, hbytes, hbytes, hbytes]
    decide
  · rw [hs, readsAs_iff]
    intro hreads
    have hsecond := hreads 1 (by decide)
    rw [hbytes] at hsecond
    exact absurd hsecond (by decide)

end ParallelN64.Si
