import ParallelN64.Core.HostWord
import ParallelN64.R4300.RdramBytes

/-!
# Words at any address

A left and a right part together load or store the bytes of a word or doubleword from an
address of RDRAM on, in the order of the guest. Each part by itself looks at one aligned word.
-/

namespace ParallelN64.R4300

open ParallelN64.Core

section Parts

variable {ρ μ : Type} {b : Board ρ μ} {s : Cpu ρ μ} {i : MemoryInstruction}

theorem readInMemory_of_inRdram {width : Width} {a p : Word} (rdword : BitVec 64)
    (hread : s.resolve b .read a = some p) (hp : inRdram p) :
    s.readInMemory b width a rdword = ⟨s, p, readRdram s.memory.dram p width⟩ := by
  rw [Cpu.readInMemory, hread]
  exact if_pos hp

theorem writeInMemory_of_inRdram {width : Width} {a p : Word} (value : BitVec 64)
    (hwrite : s.resolve b .write a = some p) (hp : inRdram p) :
    s.writeInMemory b width a value =
      { s with memory := { s.memory with dram := writeRdram s.memory.dram p value width } } := by
  rw [Cpu.writeInMemory, hwrite]
  exact if_pos hp

theorem aligned_of_low_eq_zero {z : Size} {a : Word} (h : a &&& z.low = 0#32) :
    a &&& z.aligned = a := by
  apply BitVec.eq_of_toNat_eq
  rw [z.toNat_aligned, (z.low_eq_zero_iff a).mp h, Nat.sub_zero]

theorem load_of_inRdram {width : Width} {extend : BitVec 64 → BitVec 64} {a p : Word}
    {rt : BitVec 5} (hread : s.resolve b .read a = some p) (hp : inRdram p) :
    s.load b width extend a rt = s.setGpr rt (extend (readRdram s.memory.dram p width)) := by
  rw [Cpu.load, readInMemory_of_inRdram _ hread hp]
  simp only [if_pos (ne_zero_of_direct hp.1), Cpu.setGpr, Function.update_self,
    Function.update_idem]

variable {q : Nat}

theorem loadLeft_spec (z : Size) (h : s.rdramAt b (s.lsaddr i) = some q) :
    ∃ v : BitVec z.bits, s.loadLeft b i z = s.addToPc.setGpr i.rt (v.signExtend 64) ∧
      ∀ k < z.bytes, byteAt v k =
        if k + q % z.bytes < z.bytes then s.memory.dram.byte (q + k)
        else byteAt ((s.gpr i.rt).setWidth z.bits) k := by
  obtain ⟨-, hoffset, p, hread, -, hp, haligned, hplace⟩ := rdramAt_aligned z h
  have hpos := z.bytes_pos
  have hlt := Nat.mod_lt (s.lsaddr i).toNat hpos
  have hle := Nat.mod_le q z.bytes
  have hword : ∀ k < z.bytes,
      byteAt ((readRdram s.memory.dram p z.width).setWidth z.bits) k =
        s.memory.dram.byte (q - q % z.bytes + k) := by
    intro k hk
    rw [byteAt_readRdram _ z hp haligned hk, hplace]
  rw [Cpu.loadLeft]
  by_cases hlow : s.lsaddr i &&& z.low = 0#32
  · have hzero : q % z.bytes = 0 := by rw [hoffset, (z.low_eq_zero_iff _).mp hlow]
    rw [aligned_of_low_eq_zero hlow] at hread
    refine ⟨_, (if_pos hlow).trans (load_of_inRdram hread hp), fun k hk => ?_⟩
    rw [hzero, Nat.add_zero, if_pos hk]
    refine (hword k hk).trans ?_
    rw [hzero, Nat.sub_zero]
  · refine ⟨shiftedUp ((s.gpr i.rt).setWidth z.bits)
      ((readRdram s.memory.dram p z.width).setWidth z.bits) (q % z.bytes), ?_, fun k hk => ?_⟩
    · rw [if_neg hlow, readInMemory_of_inRdram (s := s.addToPc) _ hread hp,
        if_pos (ne_zero_of_direct hp.1), z.toNat_low, ← hoffset]
      rfl
    · rw [byteAt_shiftedUp z.bits_eq _ _ (by omega) hk]
      split
      · next hsum =>
        rw [hword _ hsum]
        exact congrArg s.memory.dram.byte (by omega)
      · rfl

theorem loadRight_spec (z : Size) (h : s.rdramAt b (s.lsaddr i) = some q) :
    ∃ v : BitVec z.bits, s.loadRight b i z = s.addToPc.setGpr i.rt (v.signExtend 64) ∧
      ∀ k < z.bytes, byteAt v k =
        if k + q % z.bytes + 1 < z.bytes then byteAt ((s.gpr i.rt).setWidth z.bits) k
        else s.memory.dram.byte (q + k + 1 - z.bytes) := by
  obtain ⟨-, hoffset, p, hread, -, hp, haligned, hplace⟩ := rdramAt_aligned z h
  have hpos := z.bytes_pos
  have hlt := Nat.mod_lt q hpos
  have hle := Nat.mod_le q z.bytes
  have hword : ∀ k < z.bytes,
      byteAt ((readRdram s.memory.dram p z.width).setWidth z.bits) k =
        s.memory.dram.byte (q - q % z.bytes + k) := by
    intro k hk
    rw [byteAt_readRdram _ z hp haligned hk, hplace]
  rw [Cpu.loadRight]
  by_cases hlow : s.lsaddr i &&& z.low = z.low
  · have hlast : q % z.bytes = z.bytes - 1 := by rw [hoffset, (z.low_eq_low_iff _).mp hlow]
    refine ⟨_, (if_pos hlow).trans (load_of_inRdram hread hp), fun k hk => ?_⟩
    rw [if_neg (by omega)]
    refine (hword k hk).trans ?_
    exact congrArg s.memory.dram.byte (by omega)
  · refine ⟨shiftedDown ((s.gpr i.rt).setWidth z.bits)
      ((readRdram s.memory.dram p z.width).setWidth z.bits) (q % z.bytes + 1)
      (z.bytes - 1 - q % z.bytes), ?_, fun k hk => ?_⟩
    · rw [if_neg hlow, readInMemory_of_inRdram (s := s.addToPc) _ hread hp,
        if_pos (ne_zero_of_direct hp.1), z.toNat_low, ← hoffset]
      rfl
    · rw [byteAt_shiftedDown z.bits_eq _ _ (by omega) hk]
      by_cases hkeep : k + q % z.bytes + 1 < z.bytes
      · rw [if_pos hkeep, if_pos (by omega)]
      · rw [if_neg hkeep, if_neg (by omega), hword _ (by omega)]
        exact congrArg s.memory.dram.byte (by omega)

def Cpu.withDram (s : Cpu ρ μ) (dram : Dram) : Cpu ρ μ :=
  { s with memory := { s.memory with dram } }

theorem byte_stored (z : Size) (dram : Dram) {p : Word} (hp : inRdram p)
    (haligned : p.toNat % z.bytes = 0) (hplace : p.toNat % 0x800000 = q - q % z.bytes)
    {value : BitVec 64} {C : Nat → Prop} [DecidablePred C] {bytes : Nat → BitVec 8}
    (hvalue : ∀ o < z.bytes, byteAt (value.setWidth z.bits) o =
      if C (q - q % z.bytes + o) then bytes (q - q % z.bytes + o)
      else dram.byte (q - q % z.bytes + o)) (q' : Nat) (hq' : q' < 0x800000) :
    Dram.byte (writeRdram dram p value z.width) q' =
      if q' / z.bytes = q / z.bytes ∧ C q' then bytes q' else dram.byte q' := by
  have hmod := Nat.div_add_mod q' z.bytes
  have hq := Nat.div_add_mod q z.bytes
  rw [byte_writeRdram _ z hp haligned value hq', hplace, ← Nat.div_mul_self_eq_mod_sub_self,
    Nat.mul_div_cancel _ z.bytes_pos]
  by_cases hblock : q' / z.bytes = q / z.bytes
  · have hsame : q - q % z.bytes + q' % z.bytes = q' := by
      rw [hblock] at hmod
      omega
    rw [if_pos hblock, hvalue _ (Nat.mod_lt q' z.bytes_pos), hsame]
    exact if_congr (and_iff_right hblock).symm rfl rfl
  · rw [if_neg hblock, if_neg fun hboth => hblock hboth.1]

theorem storeLeft_spec (z : Size) (h : s.rdramAt b (s.lsaddr i) = some q) :
    ∃ dram : Dram, s.storeLeft b i z = s.addToPc.withDram dram ∧ ∀ q' < 0x800000,
      dram.byte q' =
        if q' / z.bytes = q / z.bytes ∧ q ≤ q' then
          byteAt ((s.gpr i.rt).setWidth z.bits) (q' - q)
        else s.memory.dram.byte q' := by
  obtain ⟨-, hoffset, p, hread, hwrite, hp, haligned, hplace⟩ := rdramAt_aligned z h
  have hlt := Nat.mod_lt q z.bytes_pos
  have hle := Nat.mod_le q z.bytes
  rw [Cpu.storeLeft]
  by_cases hlow : s.lsaddr i &&& z.low = 0#32
  · have hzero : q % z.bytes = 0 := by rw [hoffset, (z.low_eq_zero_iff _).mp hlow]
    rw [aligned_of_low_eq_zero hlow] at hwrite
    refine ⟨_, (if_pos hlow).trans (writeInMemory_of_inRdram (s := s.addToPc) _ hwrite hp),
      byte_stored z s.memory.dram hp haligned hplace fun o _ => ?_⟩
    rw [if_pos (by omega)]
    exact congrArg (byteAt _) (by omega)
  · let merged := shiftedDown ((readRdram s.memory.dram p z.width).setWidth z.bits)
      ((s.gpr i.rt).setWidth z.bits) (z.bytes - q % z.bytes) (q % z.bytes)
    refine ⟨writeRdram s.memory.dram p (merged.setWidth 64) z.width, ?_,
      byte_stored z s.memory.dram hp haligned hplace fun o ho => ?_⟩
    · rw [if_neg hlow, readInMemory_of_inRdram (s := s.addToPc) _ hread hp,
        if_pos (ne_zero_of_direct hp.1), z.toNat_low, ← hoffset]
      exact writeInMemory_of_inRdram (s := s.addToPc) _ (resolve_direct hp.1) hp
    · rw [BitVec.setWidth_setWidth_of_le _ z.bits_le, BitVec.setWidth_eq,
        byteAt_shiftedDown z.bits_eq _ _ (Nat.sub_add_cancel hlt.le) ho,
        byteAt_readRdram _ z hp haligned ho, hplace]
      by_cases hkeep : o < q % z.bytes
      · rw [if_pos hkeep, if_neg (by omega)]
      · rw [if_neg hkeep, if_pos (by omega)]
        exact congrArg (byteAt _) (by omega)

theorem storeRight_spec (z : Size) (h : s.rdramAt b (s.lsaddr i) = some q) :
    ∃ dram : Dram, s.storeRight b i z = s.addToPc.withDram dram ∧ ∀ q' < 0x800000,
      dram.byte q' =
        if q' / z.bytes = q / z.bytes ∧ q' ≤ q then
          byteAt ((s.gpr i.rt).setWidth z.bits) (z.bytes - 1 - (q - q'))
        else s.memory.dram.byte q' := by
  obtain ⟨-, hoffset, p, hread, hwrite, hp, haligned, hplace⟩ := rdramAt_aligned z h
  have hlt := Nat.mod_lt q z.bytes_pos
  have hle := Nat.mod_le q z.bytes
  rw [Cpu.storeRight]
  by_cases hlow : s.lsaddr i &&& z.low = z.low
  · have hlast : q % z.bytes = z.bytes - 1 := by rw [hoffset, (z.low_eq_low_iff _).mp hlow]
    refine ⟨_, (if_pos hlow).trans (writeInMemory_of_inRdram (s := s.addToPc) _ hwrite hp),
      byte_stored z s.memory.dram hp haligned hplace fun o _ => ?_⟩
    rw [if_pos (by omega)]
    exact congrArg (byteAt _) (by omega)
  · let merged := shiftedUp ((readRdram s.memory.dram p z.width).setWidth z.bits)
      ((s.gpr i.rt).setWidth z.bits) (z.bytes - 1 - q % z.bytes)
    refine ⟨writeRdram s.memory.dram p (merged.setWidth 64) z.width, ?_,
      byte_stored z s.memory.dram hp haligned hplace fun o ho => ?_⟩
    · rw [if_neg hlow, readInMemory_of_inRdram (s := s.addToPc) _ hread hp,
        if_pos (ne_zero_of_direct hp.1), z.toNat_low, ← hoffset]
      exact writeInMemory_of_inRdram (s := s.addToPc) _ (resolve_direct hp.1) hp
    · rw [BitVec.setWidth_setWidth_of_le _ z.bits_le, BitVec.setWidth_eq,
        byteAt_shiftedUp z.bits_eq _ _ (by omega) ho, byteAt_readRdram _ z hp haligned ho, hplace]
      by_cases hkeep : q % z.bytes < o
      · rw [if_neg (by omega), if_neg (by omega)]
      · rw [if_pos (by omega), if_pos (by omega)]
        exact congrArg (byteAt _) (by omega)

def Size.leftLoad : Size → MemoryOp
  | .word => .lwl
  | .dword => .ldl

def Size.rightLoad : Size → MemoryOp
  | .word => .lwr
  | .dword => .ldr

def Size.leftStore : Size → MemoryOp
  | .word => .swl
  | .dword => .sdl

def Size.rightStore : Size → MemoryOp
  | .word => .swr
  | .dword => .sdr

theorem execute_leftLoad {z : Size} (hop : i.op = z.leftLoad) (hrt : i.rt ≠ 0#5) :
    s.execute b i = s.loadLeft b i z := by
  cases z with | _ => simp [Cpu.execute, MemoryInstruction.dropped, hop, Size.leftLoad, hrt]

theorem execute_rightLoad {z : Size} (hop : i.op = z.rightLoad) (hrt : i.rt ≠ 0#5) :
    s.execute b i = s.loadRight b i z := by
  cases z with | _ => simp [Cpu.execute, MemoryInstruction.dropped, hop, Size.rightLoad, hrt]

theorem execute_leftStore {z : Size} (hop : i.op = z.leftStore) :
    s.execute b i = s.storeLeft b i z := by
  cases z with
  | _ => simp [Cpu.execute, MemoryInstruction.dropped, hop, Size.leftStore, MemoryOp.writesGpr]

theorem execute_rightStore {z : Size} (hop : i.op = z.rightStore) :
    s.execute b i = s.storeRight b i z := by
  cases z with
  | _ => simp [Cpu.execute, MemoryInstruction.dropped, hop, Size.rightStore, MemoryOp.writesGpr]

/-- Two instructions with one register, at the first and at the last byte from an address on. -/
structure PairAt (b : Board ρ μ) (s : Cpu ρ μ) (z : Size) (a : Word) (left right : MemoryOp)
    (l r : MemoryInstruction) : Prop where
  left_op : l.op = left
  right_op : r.op = right
  rt : r.rt = l.rt
  first : s.lsaddr l = a
  last : (s.execute b l).lsaddr r = a + BitVec.ofNat 32 (z.bytes - 1)

def BytesAt (b : Board ρ μ) (s : Cpu ρ μ) (z : Size) (a : Word) (place : Nat → Nat) : Prop :=
  ∀ k < z.bytes, s.rdramAt b (a + BitVec.ofNat 32 k) = some (place k)

variable {z : Size} {a : Word} {place : Nat → Nat} {l r : MemoryInstruction}

theorem BytesAt.first (h : BytesAt b s z a place) : s.rdramAt b a = some (place 0) := by
  have hzero := h 0 z.bytes_pos
  rwa [show a + BitVec.ofNat 32 0 = a from BitVec.add_zero a] at hzero

theorem BytesAt.last (h : BytesAt b s z a place) :
    s.rdramAt b (a + BitVec.ofNat 32 (z.bytes - 1)) = some (place (z.bytes - 1)) :=
  h _ (Nat.sub_lt z.bytes_pos Nat.one_pos)

theorem pred_mod (z : Size) (q : Nat) :
    (q + z.bytes - 1) % z.bytes = if q % z.bytes = 0 then z.bytes - 1 else q % z.bytes - 1 := by
  split_ifs with h <;> cases z with | _ => simp only [Size.bytes] at h ⊢; omega

theorem load_pair (hplace : BytesAt b s z a place)
    (hpair : PairAt b s z a z.leftLoad z.rightLoad l r) (hrt : l.rt ≠ 0#5) :
    ∃ v : BitVec z.bits,
      (s.execute b l).execute b r = s.addToPc.addToPc.setGpr l.rt (v.signExtend 64) ∧
        ∀ k < z.bytes, byteAt v k = s.memory.dram.byte (place k) := by
  obtain ⟨hnear, hfar, hlast, -⟩ := places_spec z hplace
  have hpos := z.bytes_pos
  have hoffset := Nat.mod_lt (place 0) hpos
  have hleft : s.rdramAt b (s.lsaddr l) = some (place 0) := by
    rw [hpair.first]
    exact hplace.first
  obtain ⟨u, hu, hbytes⟩ := loadLeft_spec z hleft
  rw [← execute_leftLoad hpair.left_op hrt] at hu
  have hright : (s.execute b l).rdramAt b ((s.execute b l).lsaddr r) =
      some (place (z.bytes - 1)) := by
    rw [hpair.last, hu]
    exact hplace.last
  obtain ⟨v, hv, hbytes'⟩ := loadRight_spec z hright
  rw [← execute_rightLoad hpair.right_op (hpair.rt.symm ▸ hrt), hpair.rt] at hv
  refine ⟨v, ?_, fun k hk => ?_⟩
  · rw [hv, hu]
    simp only [Cpu.setGpr, Cpu.addToPc, Function.update_idem]
  · have hdram : (s.execute b l).memory.dram = s.memory.dram := by rw [hu]; rfl
    rw [hbytes' k hk, hlast, pred_mod, hdram]
    by_cases hin : k + place 0 % z.bytes < z.bytes
    · have hnot : place 0 % z.bytes = 0 → place (z.bytes - 1) = place 0 + (z.bytes - 1) :=
        fun hzero => (hnear _ (Nat.sub_lt hpos Nat.one_pos) (by omega)).1
      split_ifs with hzero hlt hlt
      · omega
      · exact congrArg s.memory.dram.byte (by have := (hnear k hk hin).1; have := hnot hzero; omega)
      · rw [hu, (hnear k hk hin).1, hpair.rt]
        have hold : ((s.addToPc.setGpr l.rt (u.signExtend 64)).gpr l.rt).setWidth z.bits = u := by
          simp only [Cpu.setGpr, Function.update_self]
          exact Carries.of_signExtend z.bits_le u
        rw [hold, hbytes k hk, if_pos hin]
      · omega
    · have hk' := (hfar k hk (by omega)).1
      rw [if_neg (by split_ifs <;> omega)]
      exact congrArg s.memory.dram.byte (by omega)

theorem store_pair (hplace : BytesAt b s z a place)
    (hpair : PairAt b s z a z.leftStore z.rightStore l r) :
    ∃ dram : Dram, (s.execute b l).execute b r = s.addToPc.addToPc.withDram dram ∧
      (∀ k < z.bytes, dram.byte (place k) = byteAt ((s.gpr l.rt).setWidth z.bits) k) ∧
      ∀ q < 0x800000, (∀ k < z.bytes, q ≠ place k) → dram.byte q = s.memory.dram.byte q := by
  obtain ⟨hnear, hfar, hlast, happart⟩ := places_spec z hplace
  have hpos := z.bytes_pos
  have hleft : s.rdramAt b (s.lsaddr l) = some (place 0) := by
    rw [hpair.first]
    exact hplace.first
  obtain ⟨dram, hdram, hbytes⟩ := storeLeft_spec z hleft
  rw [← execute_leftStore hpair.left_op] at hdram
  have hright : (s.execute b l).rdramAt b ((s.execute b l).lsaddr r) =
      some (place (z.bytes - 1)) := by
    rw [hpair.last, hdram]
    exact hplace.last
  obtain ⟨dram', hdram', hbytes'⟩ := storeRight_spec z hright
  rw [← execute_rightStore hpair.right_op] at hdram'
  have hmemory : (s.execute b l).memory.dram = dram := by rw [hdram]; rfl
  have hgpr : (s.execute b l).gpr r.rt = s.gpr l.rt := by rw [hdram, hpair.rt]; rfl
  rw [hmemory, hgpr] at hbytes'
  rw [pred_mod] at hlast
  refine ⟨dram', ?_, fun k hk => ?_, fun q hq hout => ?_⟩
  · rw [hdram', hdram]
    rfl
  · have hk' : place k < 0x800000 := (rdramAt_aligned z (hplace k hk)).1
    rw [hbytes' _ hk']
    by_cases hin : 0 < place 0 % z.bytes ∧ k + place 0 % z.bytes < z.bytes
    · obtain ⟨hpk, hblock⟩ := hnear k hk hin.2
      rw [if_neg fun hboth => happart hin.1 (hboth.1.symm.trans hblock), hbytes _ hk',
        if_pos ⟨hblock, by omega⟩]
      exact congrArg (byteAt _) (by omega)
    · obtain ⟨hpk, hblock⟩ : place k + z.bytes = place (z.bytes - 1) + k + 1 ∧
          place k / z.bytes = place (z.bytes - 1) / z.bytes := by
        by_cases hzero : place 0 % z.bytes = 0
        · obtain ⟨hk₀, hblock₀⟩ := hnear k hk (by omega)
          obtain ⟨hlast₀, hblock₁⟩ := hnear _ (Nat.sub_lt hpos Nat.one_pos) (by omega)
          exact ⟨by omega, hblock₀.trans hblock₁.symm⟩
        · exact hfar k hk (by omega)
      rw [if_pos ⟨hblock, by omega⟩]
      exact congrArg (byteAt _) (by omega)
  · have hdiv := Nat.div_add_mod q z.bytes
    have hdiv₀ := Nat.div_add_mod (place 0) z.bytes
    have hdiv₁ := Nat.div_add_mod (place (z.bytes - 1)) z.bytes
    have hlt := Nat.mod_lt q hpos
    have hlt₁ := Nat.mod_lt (place (z.bytes - 1)) hpos
    rw [hbytes' q hq, if_neg, hbytes q hq, if_neg]
    · rintro ⟨hblock, hle⟩
      rw [hblock] at hdiv
      have hk : q - place 0 < z.bytes := by omega
      exact hout _ hk (by have := (hnear _ hk (by omega)).1; omega)
    · rintro ⟨hblock, hle⟩
      rw [hblock] at hdiv
      have hk : z.bytes - 1 - (place (z.bytes - 1) - q) < z.bytes := by omega
      by_cases hzero : place 0 % z.bytes = 0
      · have hlast₀ := (hnear _ (Nat.sub_lt hpos Nat.one_pos) (by omega)).1
        exact hout _ hk (by have := (hnear _ hk (by omega)).1; omega)
      · rw [if_neg hzero] at hlast
        exact hout _ hk (by have := (hfar _ hk (by omega)).1; omega)

def Size.start (z : Size) (q : Nat) : Nat := q - q % z.bytes

/-- A load leaves memory alone, and its registers depend on one aligned word of RDRAM only. -/
def ReadsOwnWord (b : Board ρ μ) (s : Cpu ρ μ) (z : Size) (i : MemoryInstruction) (q : Nat) :
    Prop :=
  (s.execute b i).memory = s.memory ∧
    ∀ dram : Dram, (∀ k < z.bytes, dram.byte (z.start q + k) = s.memory.dram.byte (z.start q + k)) →
      ((s.withDram dram).execute b i).gpr = (s.execute b i).gpr

/-- A store leaves all bytes outside of one aligned word of RDRAM alone. -/
def WritesOwnWord (b : Board ρ μ) (s : Cpu ρ μ) (z : Size) (i : MemoryInstruction) (q : Nat) :
    Prop :=
  (s.execute b i).memory.other = s.memory.other ∧
    ∀ q' < 0x800000, (∀ k < z.bytes, q' ≠ z.start q + k) →
      (s.execute b i).memory.dram.byte q' = s.memory.dram.byte q'

theorem readsOwnWord_left (hop : i.op = z.leftLoad) (h : s.rdramAt b (s.lsaddr i) = some q) :
    ReadsOwnWord b s z i q := by
  by_cases hrt : i.rt = 0#5
  · have hdropped : i.dropped = true := by
      cases z with
      | _ => simp [MemoryInstruction.dropped, hop, hrt, Size.leftLoad, MemoryOp.writesGpr]
    simp only [ReadsOwnWord, Cpu.execute, hdropped, if_pos]
    exact ⟨rfl, fun _ _ => rfl⟩
  · obtain ⟨v, hv, hbytes⟩ := loadLeft_spec z h
    rw [← execute_leftLoad hop hrt] at hv
    refine ⟨by rw [hv]; rfl, fun dram hsame => ?_⟩
    obtain ⟨v', hv', hbytes'⟩ := loadLeft_spec (s := s.withDram dram) z h
    rw [← execute_leftLoad hop hrt] at hv'
    obtain rfl : v' = v := by
      refine eq_of_byteAt z.bits_eq fun k hk => ?_
      rw [hbytes k hk, hbytes' k hk]
      split_ifs with hin
      · have hmod := Nat.mod_le q z.bytes
        have hbyte := hsame (q % z.bytes + k) (by omega)
        rwa [Size.start, show q - q % z.bytes + (q % z.bytes + k) = q + k by omega] at hbyte
      · rfl
    rw [hv, hv']
    rfl

theorem readsOwnWord_right (hop : i.op = z.rightLoad) (h : s.rdramAt b (s.lsaddr i) = some q) :
    ReadsOwnWord b s z i q := by
  by_cases hrt : i.rt = 0#5
  · have hdropped : i.dropped = true := by
      cases z with
      | _ => simp [MemoryInstruction.dropped, hop, hrt, Size.rightLoad, MemoryOp.writesGpr]
    simp only [ReadsOwnWord, Cpu.execute, hdropped, if_pos]
    exact ⟨rfl, fun _ _ => rfl⟩
  · obtain ⟨v, hv, hbytes⟩ := loadRight_spec z h
    rw [← execute_rightLoad hop hrt] at hv
    refine ⟨by rw [hv]; rfl, fun dram hsame => ?_⟩
    obtain ⟨v', hv', hbytes'⟩ := loadRight_spec (s := s.withDram dram) z h
    rw [← execute_rightLoad hop hrt] at hv'
    obtain rfl : v' = v := by
      refine eq_of_byteAt z.bits_eq fun k hk => ?_
      rw [hbytes k hk, hbytes' k hk]
      split_ifs with hin
      · rfl
      · have hmod := Nat.mod_le q z.bytes
        have hlt := Nat.mod_lt q z.bytes_pos
        have hbyte := hsame (q % z.bytes + k + 1 - z.bytes) (by omega)
        rwa [Size.start, show q - q % z.bytes + (q % z.bytes + k + 1 - z.bytes) =
          q + k + 1 - z.bytes by omega] at hbyte
    rw [hv, hv']
    rfl

theorem writesOwnWord_of_spec {C : Nat → Prop} [DecidablePred C] {bytes : Nat → BitVec 8}
    {dram : Dram} (hdram : s.execute b i = s.addToPc.withDram dram)
    (hbytes : ∀ q' < 0x800000, dram.byte q' =
      if q' / z.bytes = q / z.bytes ∧ C q' then bytes q' else s.memory.dram.byte q') :
    WritesOwnWord b s z i q := by
  refine ⟨by rw [hdram]; rfl, fun q' hq' hout => ?_⟩
  rw [hdram]
  refine (hbytes q' hq').trans (if_neg fun hboth => ?_)
  have hq := Nat.div_add_mod q z.bytes
  have hblock := Nat.div_add_mod q' z.bytes
  rw [hboth.1] at hblock
  exact hout _ (Nat.mod_lt q' z.bytes_pos) (by rw [Size.start]; omega)

theorem writesOwnWord_left (hop : i.op = z.leftStore) (h : s.rdramAt b (s.lsaddr i) = some q) :
    WritesOwnWord b s z i q := by
  obtain ⟨dram, hdram, hbytes⟩ := storeLeft_spec z h
  exact writesOwnWord_of_spec ((execute_leftStore hop).trans hdram) hbytes

theorem writesOwnWord_right (hop : i.op = z.rightStore) (h : s.rdramAt b (s.lsaddr i) = some q) :
    WritesOwnWord b s z i q := by
  obtain ⟨dram, hdram, hbytes⟩ := storeRight_spec z h
  exact writesOwnWord_of_spec ((execute_rightStore hop).trans hdram) hbytes

theorem load_stored (hplace : BytesAt b s z a place) {l' r' : MemoryInstruction}
    (hstore : PairAt b s z a z.leftStore z.rightStore l r)
    (hload : PairAt b ((s.execute b l).execute b r) z a z.leftLoad z.rightLoad l' r')
    (hrt : l'.rt ≠ 0#5) :
    ((((s.execute b l).execute b r).execute b l').execute b r').gpr l'.rt =
      ((s.gpr l.rt).setWidth z.bits).signExtend 64 := by
  obtain ⟨dram, hstored, hbytes, -⟩ := store_pair hplace hstore
  have hplace' : BytesAt b ((s.execute b l).execute b r) z a place := by
    rw [hstored]
    exact hplace
  obtain ⟨v, hloaded, hbytes'⟩ := load_pair hplace' hload hrt
  obtain rfl : v = (s.gpr l.rt).setWidth z.bits := by
    refine eq_of_byteAt z.bits_eq fun k hk => ?_
    rw [hbytes' k hk, hstored]
    exact hbytes k hk
  rw [hloaded]
  exact Function.update_self ..

/-- Left and right parts have the bytes of the guest's order. -/
theorem unaligned_bigEndian (b : Board ρ μ) (s : Cpu ρ μ) (z : Size) (a : Word)
    (place : Nat → Nat) (hplace : BytesAt b s z a place) :
    (∀ l r, PairAt b s z a z.leftLoad z.rightLoad l r → l.rt ≠ 0#5 →
      ∃ v : BitVec z.bits,
        (s.execute b l).execute b r = s.addToPc.addToPc.setGpr l.rt (v.signExtend 64) ∧
          ∀ k < z.bytes, byteAt v k = s.memory.dram.byte (place k)) ∧
    (∀ l r, PairAt b s z a z.leftStore z.rightStore l r →
      ∃ dram : Dram, (s.execute b l).execute b r = s.addToPc.addToPc.withDram dram ∧
        (∀ k < z.bytes, dram.byte (place k) = byteAt ((s.gpr l.rt).setWidth z.bits) k) ∧
        ∀ q < 0x800000, (∀ k < z.bytes, q ≠ place k) → dram.byte q = s.memory.dram.byte q) ∧
    (∀ i q, s.rdramAt b (s.lsaddr i) = some q →
      (i.op = z.leftLoad ∨ i.op = z.rightLoad → ReadsOwnWord b s z i q) ∧
        (i.op = z.leftStore ∨ i.op = z.rightStore → WritesOwnWord b s z i q)) ∧
    (∀ l r l' r', PairAt b s z a z.leftStore z.rightStore l r →
      PairAt b ((s.execute b l).execute b r) z a z.leftLoad z.rightLoad l' r' → l'.rt ≠ 0#5 →
      ((((s.execute b l).execute b r).execute b l').execute b r').gpr l'.rt =
        ((s.gpr l.rt).setWidth z.bits).signExtend 64) := by
  refine ⟨fun l r hpair hrt => load_pair hplace hpair hrt, fun l r hpair => store_pair hplace hpair,
    fun i q hq => ⟨?_, ?_⟩, fun l r l' r' hstore hload hrt => load_stored hplace hstore hload hrt⟩
  · rintro (hop | hop)
    · exact readsOwnWord_left hop hq
    · exact readsOwnWord_right hop hq
  · rintro (hop | hop)
    · exact writesOwnWord_left hop hq
    · exact writesOwnWord_right hop hq

end Parts

/-- LWL and LWR load four bytes from the second byte of RDRAM on. -/
theorem unaligned_bigEndian_second_byte :
    ∃ v : BitVec 32,
      (sampleCpu.execute sampleBoard ⟨.lwl, 1#5, 2#5, 1#16⟩).execute sampleBoard
          ⟨.lwr, 1#5, 2#5, 4#16⟩ =
        sampleCpu.addToPc.addToPc.setGpr 2#5 (v.signExtend 64) ∧
      ∀ k < 4, byteAt v k = sampleCpu.memory.dram.byte (k + 1) :=
  (unaligned_bigEndian sampleBoard sampleCpu .word 0x80000001#32 (· + 1)
    (by unfold BytesAt; decide)).1
    ⟨.lwl, 1#5, 2#5, 1#16⟩ ⟨.lwr, 1#5, 2#5, 4#16⟩ ⟨rfl, rfl, rfl, by decide, by decide⟩ (by decide)

example :
    ((sampleCpu.execute sampleBoard ⟨.lwl, 1#5, 2#5, 1#16⟩).execute sampleBoard
      ⟨.lwr, 1#5, 2#5, 4#16⟩).gpr 2#5 = 0x23456789#64 := by decide

end ParallelN64.R4300
