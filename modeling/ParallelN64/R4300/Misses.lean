import ParallelN64.R4300.RdramBytes

/-!
# Accesses that miss the translation tables

An instruction whose address has no mapping should leave the processor to the refill handler
with its registers and its memory as they were. What an instruction does is asked of each kind
of access once.
-/

namespace ParallelN64.R4300

open Tlb (direct direct_iff)

section Processor

variable {ρ μ : Type} (b : Board ρ μ) (s : Cpu ρ μ) (i : MemoryInstruction)

def MemoryOp.usesCop1 : MemoryOp → Bool
  | .lwc1 | .ldc1 | .swc1 | .sdc1 => true
  | _ => false

def Cpu.reaches : Bool :=
  !i.dropped && !(i.op.usesCop1 && s.cop1Unusable) && (i.op ≠ .sc || s.llbit)

/-- The size of a left or right part that is stored, if it is not the whole. -/
def Cpu.partStored : Option Size :=
  match i.op with
  | .swl => if s.lsaddr i &&& Size.word.low = 0#32 then none else some .word
  | .sdl => if s.lsaddr i &&& Size.dword.low = 0#32 then none else some .dword
  | .swr => if s.lsaddr i &&& Size.word.low = Size.word.low then none else some .word
  | .sdr => if s.lsaddr i &&& Size.dword.low = Size.dword.low then none else some .dword
  | _ => none

def MemoryOp.access : MemoryOp → TlbAccess
  | .sb | .sh | .swl | .sw | .sdl | .sdr | .swr | .sc | .swc1 | .sdc1 | .sd => .write
  | _ => .read

/-- The accesses of an instruction: a part is stored to what was read. -/
def Cpu.accesses : List TlbAccess :=
  if s.reaches i then
    if (s.partStored i).isSome then [.read, i.op.access] else [i.op.access]
  else []

def Cpu.Faults : Prop := ∃ access ∈ s.accesses i, s.resolve b access (s.lsaddr i) = none

/-- The registers and the memory are as they were. -/
structure Cpu.Keeps (s s' : Cpu ρ μ) : Prop where
  gpr : s'.gpr = s.gpr
  fpr : s'.fpr = s.fpr
  llbit : s'.llbit = s.llbit
  memory : s'.memory = s.memory

/-- What a left or right part makes of an old word. -/
def Cpu.merged (z : Size) (old : BitVec 64) : BitVec 64 :=
  let offset := (s.lsaddr i &&& z.low).toNat
  let value := (s.gpr i.rt).setWidth z.bits
  match i.op with
  | .swl | .sdl =>
    (Core.shiftedDown (old.setWidth z.bits) value (z.bytes - offset) offset).setWidth 64
  | _ => (Core.shiftedUp (old.setWidth z.bits) value (z.bytes - 1 - offset)).setWidth 64

/-- A part is stored through a page that can be read but not written. -/
def Cpu.StoresThrough (z : Size) (p : Word) : Prop :=
  s.reaches i ∧ s.partStored i = some z ∧
    s.resolve b .read (s.lsaddr i &&& z.aligned) = some p ∧
    s.resolve b .write (s.lsaddr i) = none

/-- What the part makes of the old word is the old word; outside of RDRAM, the handler stores
nothing. -/
def Cpu.Stored (z : Size) (p : Word) : Prop :=
  let old := s.addToPc.readRegion b z.width p
  if inRdram p then (s.merged i z old.rdword).setWidth z.bits = old.rdword.setWidth z.bits
  else
    (b.handlers.write z.width p (s.merged i z old.rdword) (old.cpu.device, old.cpu.regs)
      s.memory).2 = s.memory

end Processor

section Misses

variable {ρ μ : Type} {b : Board ρ μ} {s s' s'' : Cpu ρ μ} {i : MemoryInstruction}

theorem Cpu.Keeps.refl : s.Keeps s := ⟨rfl, rfl, rfl, rfl⟩

theorem Cpu.Keeps.trans (h : s.Keeps s') (h' : s'.Keeps s'') : s.Keeps s'' :=
  ⟨h'.gpr.trans h.gpr, h'.fpr.trans h.fpr, h'.llbit.trans h.llbit, h'.memory.trans h.memory⟩

theorem keeps_addToPc : s.Keeps s.addToPc := ⟨rfl, rfl, rfl, rfl⟩

theorem keeps_raiseCop1Unusable : s.Keeps (s.raiseCop1Unusable b) := ⟨rfl, rfl, rfl, rfl⟩

theorem keeps_refill (access : TlbAccess) (a : Word) : s.Keeps (s.refill b access a) := by
  rw [Cpu.refill]
  split
  · exact .refl
  · exact ⟨rfl, rfl, rfl, rfl⟩

theorem keeps_readRegion (width : Width) (p : Word) : s.Keeps (s.readRegion b width p).cpu := by
  rw [Cpu.readRegion]
  split
  · exact .refl
  · exact ⟨rfl, rfl, rfl, rfl⟩

theorem readInMemory_of_miss {a : Word} (h : s.resolve b .read a = none) (width : Width)
    (rdword : BitVec 64) :
    s.readInMemory b width a rdword = ⟨s.refill b .read a, 0#32, rdword⟩ := by
  rw [Cpu.readInMemory, h]

theorem keeps_writeInMemory {a : Word} (h : s.resolve b .write a = none) (width : Width)
    (value : BitVec 64) : s.Keeps (s.writeInMemory b width a value) := by
  rw [Cpu.writeInMemory, h]
  exact keeps_refill ..

theorem keeps_setGpr_self {rt : BitVec 5} {value : BitVec 64} (h : s.gpr rt = value) :
    s.Keeps (s.setGpr rt value) := by
  subst h
  exact ⟨Function.update_eq_self .., rfl, rfl, rfl⟩

theorem keeps_setFpr_self {ft : BitVec 5} {value : BitVec 64} (h : s.fpr ft = value) :
    s.Keeps (s.setFpr ft value) := by
  subst h
  exact ⟨rfl, Function.update_eq_self .., rfl, rfl⟩

theorem keeps_load {a : Word} (h : s.resolve b .read a = none) (width : Width)
    (extend : BitVec 64 → BitVec 64) (rt : BitVec 5) : s.Keeps (s.load b width extend a rt) := by
  have hkeeps := keeps_refill (b := b) (s := s) .read a
  rw [Cpu.load, readInMemory_of_miss h]
  exact hkeeps.trans (keeps_setGpr_self (congrFun hkeeps.gpr rt))

theorem direct_of_goldenEye {h : RomHacks} {a p : Word} (hp : h.goldenEye a = some p) :
    direct p := by
  rw [RomHacks.goldenEye, Option.ite_none_right_eq_some, Option.some_inj] at hp
  obtain ⟨-, rfl⟩ := hp
  have hlow := toNat_and_mask a 0xFFFFFF#32 (n := 24) rfl
  rw [direct_iff]
  split <;> rw [BitVec.toNat_add, hlow, BitVec.toNat_ofNat] <;> omega

theorem direct_of_resolve {access : TlbAccess} {a p : Word} (h : s.resolve b access a = some p) :
    direct p := by
  rw [Cpu.resolve, Translation.resolve] at h
  by_cases hd : direct a
  · rw [if_pos hd] at h
    obtain rfl := Option.some.inj h
    exact hd
  · rw [if_neg hd, Translation.physical] at h
    cases hgolden : b.hacks.goldenEye a with
    | some p₀ =>
      rw [hgolden, Option.some_or] at h
      obtain rfl := Option.some.inj h
      exact direct_of_goldenEye hgolden
    | none =>
      rw [hgolden, Option.none_or, Option.ite_none_right_eq_some, Option.some_inj] at h
      obtain ⟨hvalue, rfl⟩ := h
      have hsegment := direct_iff.mp (s.tlb.leads.luts _ _ hvalue)
      rw [direct_iff, toNat_or_page]
      omega

theorem resolve_aligned_eq_none_iff (z : Size) {access : TlbAccess} {a : Word} :
    s.resolve b access (a &&& z.aligned) = none ↔ s.resolve b access a = none := by
  apply resolve_eq_none_page
  rw [z.toNat_aligned]
  cases z with | _ => simp only [Size.bytes]; omega

section Load

variable (z : Size) (h : s.resolve b .read (s.lsaddr i) = none)

include h

theorem keeps_ll : s.Keeps (s.ll b i) := by
  have hkeeps := keeps_refill (b := b) (s := s.addToPc) .read (s.lsaddr i)
  rw [Cpu.ll, readInMemory_of_miss (s := s.addToPc) h]
  exact keeps_addToPc.trans (hkeeps.trans (keeps_setGpr_self (congrFun hkeeps.gpr i.rt)))

theorem keeps_lwc1 : s.Keeps (s.lwc1 b i) := by
  rw [Cpu.lwc1]
  split
  · exact keeps_raiseCop1Unusable
  · rw [readInMemory_of_miss (s := s.addToPc) h]
    exact keeps_addToPc.trans (keeps_refill ..)

theorem keeps_ldc1 : s.Keeps (s.ldc1 b i) := by
  rw [Cpu.ldc1]
  split
  · exact keeps_raiseCop1Unusable
  · have hkeeps := keeps_refill (b := b) (s := s.addToPc) .read (s.lsaddr i)
    simp only [readInMemory_of_miss (s := s.addToPc) h]
    exact keeps_addToPc.trans (hkeeps.trans (keeps_setFpr_self (congrFun hkeeps.fpr _)))

theorem keeps_loadLeft : s.Keeps (s.loadLeft b i z) := by
  rw [Cpu.loadLeft]
  refine keeps_addToPc.trans ?_
  split
  · exact keeps_load (s := s.addToPc) h ..
  · rw [readInMemory_of_miss (s := s.addToPc) ((resolve_aligned_eq_none_iff z).mpr h)]
    exact keeps_refill ..

theorem keeps_loadRight : s.Keeps (s.loadRight b i z) := by
  have haligned := (resolve_aligned_eq_none_iff z).mpr h
  rw [Cpu.loadRight]
  refine keeps_addToPc.trans ?_
  split
  · exact keeps_load (s := s.addToPc) haligned ..
  · rw [readInMemory_of_miss (s := s.addToPc) haligned]
    exact keeps_refill ..

end Load

theorem keeps_readInMemory (width : Width) (a : Word) (rdword : BitVec 64) :
    s.Keeps (s.readInMemory b width a rdword).cpu := by
  rw [Cpu.readInMemory]
  split
  · exact keeps_readRegion ..
  · exact keeps_refill ..

theorem execute_of_partStored {z : Size} (hpart : s.partStored i = some z) :
    s.execute b i =
      let r := s.addToPc.readInMemory b z.width (s.lsaddr i &&& z.aligned) 0#64
      if r.address ≠ 0#32 then r.cpu.writeInMemory b z.width r.address (s.merged i z r.rdword)
      else r.cpu := by
  have hgpr : ∀ z : Size,
      (s.addToPc.readInMemory b z.width (s.lsaddr i &&& z.aligned) 0#64).cpu.gpr = s.gpr :=
    fun z => (keeps_readInMemory (s := s.addToPc) ..).gpr
  have hdropped : i.op.writesGpr = false → i.dropped = false := by
    intro h
    rw [MemoryInstruction.dropped, h, Bool.false_and]
  rw [Cpu.partStored] at hpart
  cases hop : i.op with
  | swl | sdl =>
    simp only [hop, Option.ite_none_left_eq_some, Option.some_inj] at hpart
    obtain ⟨hlow, rfl⟩ := hpart
    simp only [Cpu.execute, hdropped (by rw [hop]; rfl), hop, Cpu.storeLeft, if_neg hlow, hgpr,
      Cpu.merged]
    rfl
  | swr | sdr =>
    simp only [hop, Option.ite_none_left_eq_some, Option.some_inj] at hpart
    obtain ⟨hlow, rfl⟩ := hpart
    simp only [Cpu.execute, hdropped (by rw [hop]; rfl), hop, Cpu.storeRight, if_neg hlow, hgpr,
      Cpu.merged]
    rfl
  | _ => simp [hop] at hpart

theorem keeps_part_of_read {z : Size} (hpart : s.partStored i = some z)
    (h : s.resolve b .read (s.lsaddr i) = none) : s.Keeps (s.execute b i) := by
  rw [execute_of_partStored hpart]
  simp only [readInMemory_of_miss (s := s.addToPc) ((resolve_aligned_eq_none_iff z).mpr h)]
  exact keeps_addToPc.trans (keeps_refill ..)

theorem keeps_part_through_iff {z : Size} {p : Word} (h : s.StoresThrough b i z p) :
    s.Keeps (s.execute b i) ↔ s.Stored b i z p := by
  obtain ⟨-, hpart, hread, hwrite⟩ := h
  have hdirect : direct p := direct_of_resolve hread
  set old := s.addToPc.readRegion b z.width p with hold
  have hregion : s.Keeps old.cpu := keeps_addToPc.trans (keeps_readRegion (s := s.addToPc) ..)
  have hexecute : s.execute b i = old.cpu.writeRegion b z.width p (s.merged i z old.rdword) := by
    have haddress : old.address = p := by
      rw [hold, Cpu.readRegion]
      split <;> rfl
    rw [execute_of_partStored hpart, Cpu.readInMemory,
      show s.addToPc.resolve b .read (s.lsaddr i &&& z.aligned) = some p from hread]
    simp only [← hold, haddress, if_pos (ne_zero_of_direct hdirect), Cpu.writeInMemory,
      resolve_direct hdirect]
  rw [hexecute, Cpu.writeRegion, Cpu.Stored]
  simp only [← hold]
  by_cases hp : inRdram p
  · have hp' : p.toNat % z.bytes = 0 := by
      obtain ⟨hoffset, -⟩ := resolve_same_page rfl hread hp
      rw [z.toNat_aligned] at hoffset
      cases z with | _ => simp only [Size.bytes] at hoffset ⊢; omega
    have hrdword : old.rdword = readRdram s.memory.dram p z.width := by
      rw [hold, Cpu.readRegion, if_pos hp]
      rfl
    rw [if_pos hp, if_pos hp, hrdword, ← writeRdram_eq_self_iff _ z hp hp']
    constructor
    · intro hkeeps
      have hdram := congrArg Memory.dram hkeeps.memory
      rwa [hregion.memory] at hdram
    · intro hsame
      refine ⟨hregion.gpr, hregion.fpr, hregion.llbit, ?_⟩
      rw [hregion.memory, hsame]
  · rw [if_neg hp, if_neg hp]
    constructor
    · intro hkeeps
      have hmemory := hkeeps.memory
      rwa [hregion.memory] at hmemory
    · intro hsame
      refine ⟨hregion.gpr, hregion.fpr, hregion.llbit, ?_⟩
      rw [hregion.memory]
      exact hsame

theorem dropped_of_reaches (h : s.reaches i = true) : i.dropped = false := by
  rw [Cpu.reaches, Bool.and_eq_true, Bool.and_eq_true, Bool.not_eq_true'] at h
  exact h.1.1

theorem keeps_whole (hreach : s.reaches i = true) (hpart : s.partStored i = none)
    (hop : i.op ≠ .sc) (h : s.resolve b i.op.access (s.lsaddr i) = none) :
    s.Keeps (s.execute b i) := by
  have hstore : ∀ (width : Width) (value : BitVec 64), s.resolve b .write (s.lsaddr i) = none →
      s.Keeps (s.addToPc.writeInMemory b width (s.lsaddr i) value) :=
    fun width value hmiss => keeps_addToPc.trans (keeps_writeInMemory (s := s.addToPc) hmiss ..)
  have hload : ∀ (width : Width) (extend : BitVec 64 → BitVec 64),
      s.resolve b .read (s.lsaddr i) = none →
      s.Keeps (s.addToPc.load b width extend (s.lsaddr i) i.rt) :=
    fun width extend hmiss => keeps_addToPc.trans (keeps_load (s := s.addToPc) hmiss ..)
  rw [Cpu.execute, dropped_of_reaches hreach]
  rw [Cpu.partStored] at hpart
  cases hi : i.op with
  | ldl | lwl => exact keeps_loadLeft _ (by rwa [hi] at h)
  | ldr | lwr => exact keeps_loadRight _ (by rwa [hi] at h)
  | lb | lh | lw | lbu | lhu | lwu | ld => exact hload _ _ (by rwa [hi] at h)
  | sb | sh | sw | sd => exact hstore _ _ (by rwa [hi] at h)
  | swl | sdl =>
    simp only [hi, ite_eq_left_iff, reduceCtorEq, imp_false, not_not] at hpart
    simp only [Bool.false_eq_true, if_false, Cpu.storeLeft, if_pos hpart]
    exact hstore _ _ (by rwa [hi] at h)
  | swr | sdr =>
    simp only [hi, ite_eq_left_iff, reduceCtorEq, imp_false, not_not] at hpart
    simp only [Bool.false_eq_true, if_false, Cpu.storeRight, if_pos hpart]
    rw [hi] at h
    exact keeps_addToPc.trans
      (keeps_writeInMemory (s := s.addToPc) ((resolve_aligned_eq_none_iff _).mpr h) ..)
  | ll => exact keeps_ll (by rwa [hi] at h)
  | lwc1 => exact keeps_lwc1 (by rwa [hi] at h)
  | ldc1 => exact keeps_ldc1 (by rwa [hi] at h)
  | sc => exact absurd hi hop
  | swc1 =>
    simp only [Bool.false_eq_true, if_false, Cpu.swc1]
    split
    · exact keeps_raiseCop1Unusable
    · exact hstore _ _ (by rwa [hi] at h)
  | sdc1 =>
    simp only [Bool.false_eq_true, if_false, Cpu.sdc1]
    split
    · exact keeps_raiseCop1Unusable
    · exact hstore _ _ (by rwa [hi] at h)

theorem llbit_sc (hreach : s.reaches i = true) (hop : i.op = .sc) :
    s.llbit = true ∧ (s.execute b i).llbit = false := by
  have hdropped := dropped_of_reaches hreach
  have hllbit : s.llbit = true := by
    simpa [Cpu.reaches, hop] using ((Bool.and_eq_true ..).mp hreach).2
  refine ⟨hllbit, ?_⟩
  rw [Cpu.execute, hdropped, hop]
  simp only [Bool.false_eq_true, if_false, Cpu.sc]
  rw [if_pos (show s.addToPc.llbit = true from hllbit)]
  rfl

theorem access_of_partStored {z : Size} (h : s.partStored i = some z) : i.op.access = .write := by
  rw [Cpu.partStored] at h
  cases hi : i.op with
  | swl | sdl | swr | sdr => rfl
  | _ => simp [hi] at h

/-- An instruction that misses leaves registers and memory alone, except an SC, and a part that
is stored through a page that can only be read. -/
theorem keeps_on_miss_iff (b : Board ρ μ) (s : Cpu ρ μ) (i : MemoryInstruction) :
    (s.Faults b i → s.Keeps (s.execute b i)) ↔
      ¬(i.op = .sc ∧ s.Faults b i) ∧ ∀ z p, s.StoresThrough b i z p → s.Stored b i z p := by
  constructor
  · intro h
    constructor
    · rintro ⟨hop, hfaults⟩
      have hreach : s.reaches i = true := by
        obtain ⟨access, hmem, -⟩ := hfaults
        by_contra hnot
        simp [Cpu.accesses, hnot] at hmem
      obtain ⟨hset, hclear⟩ := llbit_sc (b := b) hreach hop
      have hllbit := (h hfaults).llbit
      rw [hset, hclear] at hllbit
      exact Bool.false_ne_true hllbit
    · intro z p hthrough
      refine (keeps_part_through_iff hthrough).mp (h ⟨.write, ?_, hthrough.2.2.2⟩)
      simp [Cpu.accesses, hthrough.1, hthrough.2.1, access_of_partStored hthrough.2.1]
  · rintro ⟨hsc, hthrough⟩ hfaults
    obtain ⟨access, hmem, hmiss⟩ := id hfaults
    rw [Cpu.accesses] at hmem
    split_ifs at hmem with hreach hpart
    · obtain ⟨z, hz⟩ := Option.isSome_iff_exists.mp hpart
      cases hread : s.resolve b .read (s.lsaddr i &&& z.aligned) with
      | none => exact keeps_part_of_read hz ((resolve_aligned_eq_none_iff z).mp hread)
      | some p =>
        have hwrite : s.resolve b .write (s.lsaddr i) = none := by
          rw [access_of_partStored hz, List.mem_pair] at hmem
          rcases hmem with rfl | rfl
          · rw [(resolve_aligned_eq_none_iff z).mpr hmiss] at hread
            cases hread
          · exact hmiss
        exact (keeps_part_through_iff ⟨hreach, hz, hread, hwrite⟩).mpr
          (hthrough z p ⟨hreach, hz, hread, hwrite⟩)
    · obtain rfl := List.mem_singleton.mp hmem
      exact keeps_whole hreach (Option.not_isSome_iff_eq_none.mp hpart)
        (fun hop => hsc ⟨hop, hfaults⟩) hmiss
    · cases hmem

/-- An SC clears LLbit although its address is mapped nowhere. -/
theorem sc_not_keeps_on_miss :
    ¬(sampleCpu.Faults sampleBoard ⟨.sc, 0#5, 2#5, 0#16⟩ →
      sampleCpu.Keeps (sampleCpu.execute sampleBoard ⟨.sc, 0#5, 2#5, 0#16⟩)) := by
  intro h
  have hllbit := (h ⟨.write, by decide, by decide⟩).llbit
  exact absurd hllbit (by decide)

end Misses

/-- A buffer that maps the first page for reading only, to the first page of RDRAM. -/
def readOnlyTranslation : Translation where
  entries := Tlb.poweronTlb.entries
  luts := ⟨fun p => if p = 0#20 then 0x80000FFF#32 else 0#32, fun _ => 0#32⟩
  leads := by
    refine ⟨Tlb.leads_poweronTlb.starts, fun k p h => ?_⟩
    cases k with
    | read =>
      by_cases hp : p = 0#20
      · rw [hp]
        exact (by decide : direct 0x80000FFF#32)
      · exact absurd (if_neg hp) h
    | write => exact absurd rfl h

example :
    (({ sampleCpu with tlb := readOnlyTranslation }.execute sampleBoard
      ⟨.swl, 0#5, 2#5, 1#16⟩).memory.dram 0#21) = 0x01556677#32 := by decide

end ParallelN64.R4300
