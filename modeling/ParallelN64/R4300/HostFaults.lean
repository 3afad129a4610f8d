import ParallelN64.R4300.IndexKept
import ParallelN64.R4300.Probe

/-!
# Faults of the host

Divisions of the processor are divisions of the host, and TLB instructions index an array of the
host. The divisions check for a divisor of zero but not for the one quotient that does not fit, and
Random is computed modulo the distance of Wired from 32, for any Wired that was written. Index is
checked when it is written: a number above 31 stops the machine before it is used.
-/

namespace ParallelN64.R4300

open Savestate (TlbEntry)
open Tlb (TlbState TlbRegs entryIndex)

/-- What the host does not survive, or leaves undefined. -/
inductive HostFault where
  | divideByZero
  | quotientRange
  | tlbIndex
  deriving DecidableEq

/-- A division of signed host integers, with its remainder. -/
def hostDiv {w : Nat} (a b : BitVec w) : Except HostFault (BitVec w × BitVec w) :=
  let q := a.toInt.tdiv b.toInt
  if b.toInt = 0 then .error .divideByZero
  else if -2 ^ (w - 1) ≤ q ∧ q < 2 ^ (w - 1) then
    .ok (BitVec.ofInt w q, BitVec.ofInt w (a.toInt.tmod b.toInt))
  else .error .quotientRange

def hostDivU {w : Nat} (a b : BitVec w) : Except HostFault (BitVec w × BitVec w) :=
  if b = 0#w then .error .divideByZero else .ok (a / b, a % b)

/-- The instructions that divide and those of the TLB. A division comes with the contents of its
registers; what other instructions leave in Hi and Lo is left open. -/
inductive ProcessorOp where
  | div (rs rt : BitVec 64)
  | divu (rs rt : BitVec 64)
  | ddiv (rs rt : BitVec 64)
  | ddivu (rs rt : BitVec 64)
  | setHiLo (hi lo : BitVec 64)
  | tlbr
  | tlbwi
  | tlbwr
  | tlbp

/-- An instruction: one of these, or any other one. -/
inductive ProcessorInstruction where
  | plain (i : Instruction) (h : i.op ≠ .tlbwr)
  | core (op : ProcessorOp)

/-- What remains to be carried out. -/
inductive ProcessorCall where
  | base (c : Call)
  | begin (i : ProcessorInstruction)
  | exec (op : ProcessorOp)

/-- The machine with its TLB and the registers of divisions. -/
structure Processor where
  device : Device
  tlb : TlbState
  hi : BitVec 64
  lo : BitVec 64
  todo : List ProcessorCall

def low (r : BitVec 64) : Word := r.setWidth 32

namespace Processor

def setQuotient (s : Processor) (r : BitVec 64 × BitVec 64) : Processor := { s with lo := r.1, hi := r.2 }

/-- `SE32` of both results. -/
def se32 (r : Word × Word) : BitVec 64 × BitVec 64 := (r.1.signExtend 64, r.2.signExtend 64)

def div (s : Processor) (rs rt : BitVec 64) : Except HostFault Processor :=
  if low rt ≠ 0#32 then (hostDiv (low rs) (low rt)).map fun r => s.setQuotient (se32 r) else .ok s

def divu (s : Processor) (rs rt : BitVec 64) : Except HostFault Processor :=
  if low rt ≠ 0#32 then (hostDivU (low rs) (low rt)).map fun r => s.setQuotient (se32 r) else .ok s

def ddiv (s : Processor) (rs rt : BitVec 64) : Except HostFault Processor :=
  if rt ≠ 0#64 then (hostDiv rs rt).map s.setQuotient else .ok s

def ddivu (s : Processor) (rs rt : BitVec 64) : Except HostFault Processor :=
  if rt ≠ 0#64 then (hostDivU rs rt).map s.setQuotient else .ok s

/-- The registers that describe an entry. -/
def tlbRegs (s : Processor) : TlbRegs where
  entryLo0 := s.device.cp0 .entryLo0
  entryLo1 := s.device.cp0 .entryLo1
  entryHi := s.device.cp0 .entryHi
  pageMask := s.device.cp0 .pageMask

def entry (index : Word) : Except HostFault (Fin 32) :=
  (entryIndex index).elim (.error .tlbIndex) .ok

def entryLo (pfn : Word) (c d v g : BitVec 8) : Word :=
  (pfn <<< 6) ||| (c.setWidth 32 <<< 3) ||| (d.setWidth 32 <<< 2) ||| (v.setWidth 32 <<< 1) |||
    g.setWidth 32

/-- `TLBR`. -/
def tlbr (s : Processor) : Except HostFault Processor :=
  (entry (s.device.cp0 .index &&& 0x1F#32)).map fun i =>
    let e := s.tlb.entries i
    let d := s.device.setCp0 .pageMask (e.mask.signExtend 32 <<< 13)
    let d := d.setCp0 .entryHi ((e.vpn2 <<< 13) ||| e.asid.setWidth 32)
    let d := d.setCp0 .entryLo0 (entryLo e.pfnEven e.cEven e.dEven e.vEven e.g)
    { s with device := d.setCp0 .entryLo1 (entryLo e.pfnOdd e.cOdd e.dOdd e.vOdd e.g) }

/-- `TLBWrite`; nothing where a loop over pages does not end. -/
def tlbWrite (s : Processor) (index : Word) : Except HostFault (Option Processor) :=
  (entry index).map fun i =>
    (Tlb.tlbWrite s.tlb i s.tlbRegs s.device.pc).map fun tlb => { s with tlb }

/-- `TLBWR`, after Count is brought up to date. -/
def tlbwr (s : Processor) : Except HostFault (Option Processor) :=
  s.device.setRandom.elim (.error .divideByZero) fun d =>
    { s with device := d }.tlbWrite (d.cp0 .random)

/-- `TLBP`. -/
def tlbp (s : Processor) : Processor :=
  { s with
    device := s.device.setCp0 .index
      (R4300.tlbp s.tlb.entries (s.device.cp0 .index) (s.device.cp0 .entryHi)) }

/-- An instruction that divides or looks at the TLB. -/
def exec (s : Processor) : ProcessorOp → Except HostFault (Option Processor)
  | .div rs rt => (s.div rs rt).map some
  | .divu rs rt => (s.divu rs rt).map some
  | .ddiv rs rt => (s.ddiv rs rt).map some
  | .ddivu rs rt => (s.ddivu rs rt).map some
  | .setHiLo hi lo => .ok (some { s with hi, lo })
  | .tlbr => s.tlbr.map some
  | .tlbwi => s.tlbWrite (s.device.cp0 .index &&& 0x3F#32)
  | .tlbwr => s.tlbwr
  | .tlbp => .ok (some s.tlbp)

end Processor

def ProcessorOp.body : ProcessorOp → List ProcessorCall
  | .tlbwr => [.base .updateCount, .exec .tlbwr, .base (.addToPc 4#32)]
  | op => [.exec op, .base (.addToPc 4#32)]

def ProcessorInstruction.calls (d : Device) : ProcessorInstruction → List ProcessorCall
  | .plain i _ => (d.begin i).map .base
  | .core op => op.body

/-- What happens next: an opcode is fetched, perhaps after TLB misses, a call is carried out, or
something outside the processor acts. -/
inductive ProcessorAction where
  | fetch (misses : List TlbMiss) (instruction : ProcessorInstruction)
  | call
  | resetSoft
  | requestResetHard
  | drive (transfer : Bool)
  | stop

namespace Processor

def fetched (misses : List TlbMiss) (instruction : ProcessorInstruction) : List ProcessorCall :=
  misses.map (fun miss => .base (.tlbRefill { miss with access := .fetch })) ++
    [.begin instruction]

/-- A call without a result: the remainder by zero that makes Random, or one that waits. What a
device access makes the host divide by is left to the devices. -/
def waits (s : Processor) : Call → Except HostFault Processor
  | .setRandom => .error .divideByZero
  | _ => .ok s

/-- The next call is carried out. Where there is none, and where a loop over pages does not end,
nothing changes. -/
def call (cfg : Config) (s : Processor) : Except HostFault Processor :=
  match s.todo with
  | [] => .ok s
  | .begin i :: rest => .ok { s with todo := i.calls s.device ++ rest }
  | .exec op :: rest => ({ s with todo := rest }.exec op).map fun r => Option.getD r s
  | .base c :: rest =>
    (s.device.call cfg c).elim (s.waits c) fun r =>
      .ok { s with device := r.1, todo := r.2.map .base ++ rest }

/-- One step of the machine. -/
def step (cfg : Config) (s : Processor) : ProcessorAction → Except HostFault Processor
  | .fetch misses instruction =>
    match s.todo with
    | [] => .ok (if s.device.stop then s else { s with todo := fetched misses instruction })
    | .base .interpretOpcode :: rest => .ok { s with todo := fetched misses instruction ++ rest }
    | _ => .ok s
  | .call => s.call cfg
  | .resetSoft => .ok { s with device := s.device.resetSoft }
  | .requestResetHard => .ok { s with device := { s.device with resetHardJob := true } }
  | .drive transfer => .ok { s with device := { s.device with ddTransfer := transfer } }
  | .stop => .ok { s with device := { s.device with stop := true } }

def run (cfg : Config) (s : Processor) (actions : List ProcessorAction) : Except HostFault Processor :=
  actions.foldlM (step cfg) s

/-- The machine after power on. -/
def poweredOn (cfg : Config) : Processor where
  device := (R4300.poweredOn cfg).device
  tlb := Tlb.poweronTlb
  hi := 0#64
  lo := 0#64
  todo := []

end Processor

def Survives {α : Type} (r : Except HostFault α) : Prop := ∃ a, r = .ok a

theorem survives_ok {α : Type} (a : α) : Survives (.ok a) := ⟨a, rfl⟩

theorem not_survives_error {α : Type} (e : HostFault) : ¬ Survives (.error e : Except HostFault α) := by
  rintro ⟨a, ha⟩
  exact absurd ha (by simp only [reduceCtorEq, not_false_eq_true])

theorem survives_map_iff {α β : Type} {f : α → β} {r : Except HostFault α} :
    Survives (r.map f) ↔ Survives r := by
  cases r with
  | error e => exact iff_of_false (not_survives_error e) (not_survives_error e)
  | ok a => exact iff_of_true (survives_ok (f a)) (survives_ok a)

theorem exists_of_map_eq_ok {α β : Type} {f : α → β} {r : Except HostFault α} {b : β}
    (h : r.map f = .ok b) : ∃ a, r = .ok a ∧ f a = b := by
  cases r with
  | error e => exact absurd ⟨b, h⟩ (not_survives_error e)
  | ok a => exact ⟨a, rfl, Except.ok.inj h⟩

theorem tdiv_range {m a b : Int} (hlow : -m ≤ a) (hhigh : a < m) (hb : b ≠ 0) :
    (-m ≤ a.tdiv b ∧ a.tdiv b < m) ↔ ¬(a = -m ∧ b = -1) := by
  have habs : (a.tdiv b).natAbs = a.natAbs / b.natAbs := Int.natAbs_tdiv a b
  have hpos : 0 < b.natAbs := Int.natAbs_pos.mpr hb
  constructor
  · rintro ⟨-, hlt⟩ ⟨rfl, rfl⟩
    rw [Int.tdiv_neg, Int.tdiv_one] at hlt
    omega
  · intro h
    by_cases hone : b.natAbs = 1
    · rcases Int.natAbs_eq_iff.mp hone with rfl | rfl
      · rw [Nat.cast_one, Int.tdiv_one]
        exact ⟨hlow, hhigh⟩
      · have hne : a ≠ -m := fun ha => h ⟨ha, rfl⟩
        rw [Nat.cast_one, Int.tdiv_neg, Int.tdiv_one]
        omega
    · have hle : a.natAbs / b.natAbs ≤ a.natAbs / 2 := Nat.div_le_div_left (by omega) (by decide)
      omega

theorem survives_hostDiv_iff {w : Nat} (hw : 0 < w) {a b : BitVec w} (hb : b ≠ 0#w) :
    Survives (hostDiv a b) ↔ ¬(a = BitVec.intMin w ∧ b = BitVec.allOnes w) := by
  have hne : b.toInt ≠ 0 := fun h => hb (BitVec.eq_of_toInt_eq (h.trans BitVec.toInt_zero.symm))
  have hmin : a = BitVec.intMin w ↔ a.toInt = -2 ^ (w - 1) := by
    rw [← BitVec.toInt_inj, BitVec.toInt_intMin_of_pos hw]
  have hones : b = BitVec.allOnes w ↔ b.toInt = -1 := by
    rw [← BitVec.toInt_inj, BitVec.toInt_allOnes, if_pos hw]
  rw [hmin, hones, ← tdiv_range (BitVec.le_toInt a) BitVec.toInt_lt hne, hostDiv,
    if_neg hne]
  split_ifs with hfits
  · exact iff_of_true (survives_ok _) hfits
  · exact iff_of_false (not_survives_error _) hfits

theorem survives_hostDivU {w : Nat} {a b : BitVec w} (hb : b ≠ 0#w) : Survives (hostDivU a b) := by
  rw [hostDivU, if_neg hb]
  exact survives_ok _

/-- The Random register that `TLBWR` computes is the number of an entry: Wired is below 32, or it is
above and the sum that makes Random wraps. -/
def RandomInTable (d : Device) : Prop :=
  (d.cp0 .wired).toNat < 32 ∨
    32 < (d.cp0 .wired).toNat ∧
      2 ^ 32 ≤ d.count.toNat / 2 % (2 ^ 32 + 32 - (d.cp0 .wired).toNat) + (d.cp0 .wired).toNat

/-- The operands of an instruction are those that the host survives. -/
def HarmlessOp (d : Device) : ProcessorOp → Prop
  | .div rs rt => ¬(low rs = BitVec.intMin 32 ∧ low rt = BitVec.allOnes 32)
  | .ddiv rs rt => ¬(rs = BitVec.intMin 64 ∧ rt = BitVec.allOnes 64)
  | .tlbwr => RandomInTable d
  | _ => True

/-- A call that the host survives: for `MFC0` Random, Wired is not 32. -/
def HarmlessCall (d : Device) : ProcessorCall → Prop
  | .exec op => HarmlessOp d op
  | .base .setRandom => d.cp0 .wired ≠ 32#32
  | _ => True

def HarmlessStep (s : Processor) : ProcessorAction → Prop
  | .call => ∀ c ∈ s.todo.head?, HarmlessCall s.device c
  | _ => True

theorem sub_wired_eq_zero_iff {wired : Word} : 32#32 - wired = 0#32 ↔ wired = 32#32 := by
  have hlt := wired.isLt
  rw [← BitVec.toNat_inj, ← BitVec.toNat_inj, BitVec.toNat_sub, BitVec.toNat_ofNat,
    BitVec.toNat_ofNat]
  omega

theorem survives_entry_iff {index : Word} : Survives (Processor.entry index) ↔ index.toNat < 32 := by
  rw [Processor.entry, entryIndex]
  split_ifs with h
  · exact iff_of_true (survives_ok _) h
  · exact iff_of_false (not_survives_error _) h

theorem random_lt_iff {d : Device} (h : d.cp0 .wired ≠ 32#32) :
    (d.count / 2#32 % (32#32 - d.cp0 .wired) + d.cp0 .wired).toNat < 32 ↔ RandomInTable d := by
  have hne : (d.cp0 .wired).toNat ≠ 32 := fun hw => h (BitVec.eq_of_toNat_eq hw)
  have hlt := (d.cp0 .wired).isLt
  rw [RandomInTable, BitVec.toNat_add, BitVec.toNat_umod, BitVec.toNat_udiv, BitVec.toNat_sub,
    show (2#32).toNat = 2 from rfl, show (32#32).toNat = 32 from rfl]
  generalize (d.cp0 .wired).toNat = w at hne hlt ⊢
  generalize d.count.toNat / 2 = c
  by_cases hw : w < 32
  · have hmod : (2 ^ 32 - w + 32) % 2 ^ 32 = 32 - w := by omega
    have hrem : c % (32 - w) < 32 - w := Nat.mod_lt _ (by omega)
    rw [hmod]
    exact iff_of_true (by omega) (.inl hw)
  · have hmod : (2 ^ 32 - w + 32) % 2 ^ 32 = 2 ^ 32 + 32 - w := by omega
    have hrem : c % (2 ^ 32 + 32 - w) < 2 ^ 32 + 32 - w := Nat.mod_lt _ (by omega)
    rw [hmod, or_iff_right hw, and_iff_right (by omega)]
    omega

theorem survives_tlbWrite_iff {s : Processor} {index : Word} :
    Survives (s.tlbWrite index) ↔ index.toNat < 32 := by
  rw [Processor.tlbWrite, survives_map_iff, survives_entry_iff]

/-- The index that `TLBWI` uses is in the table. -/
def IndexInTable (d : Device) : Prop := (d.cp0 .index &&& 0x3F#32).toNat < 32

theorem survives_exec_iff {s : Processor} (hindex : IndexInTable s.device) (op : ProcessorOp) :
    Survives (s.exec op) ↔ HarmlessOp s.device op := by
  cases op with
  | div rs rt =>
    rw [Processor.exec, survives_map_iff, Processor.div, HarmlessOp]
    split_ifs with hrt
    · rw [survives_map_iff, survives_hostDiv_iff (by decide) hrt]
    · refine iff_of_true (survives_ok _) ?_
      rintro ⟨-, hones⟩
      exact hrt (by rw [hones]; decide)
  | divu rs rt =>
    refine iff_of_true ?_ trivial
    rw [Processor.exec, survives_map_iff, Processor.divu]
    split_ifs with hrt
    · rw [survives_map_iff]
      exact survives_hostDivU hrt
    · exact survives_ok _
  | ddiv rs rt =>
    rw [Processor.exec, survives_map_iff, Processor.ddiv, HarmlessOp]
    split_ifs with hrt
    · rw [survives_map_iff, survives_hostDiv_iff (by decide) hrt]
    · refine iff_of_true (survives_ok _) ?_
      rintro ⟨-, rfl⟩
      exact hrt (by decide)
  | ddivu rs rt =>
    refine iff_of_true ?_ trivial
    rw [Processor.exec, survives_map_iff, Processor.ddivu]
    split_ifs with hrt
    · rw [survives_map_iff]
      exact survives_hostDivU hrt
    · exact survives_ok _
  | tlbr =>
    refine iff_of_true ?_ trivial
    rw [Processor.exec, survives_map_iff, Processor.tlbr, survives_map_iff, survives_entry_iff,
      BitVec.toNat_and]
    exact Nat.lt_succ_of_le Nat.and_le_right
  | tlbwi => exact iff_of_true (survives_tlbWrite_iff.mpr hindex) trivial
  | tlbwr =>
    rw [Processor.exec, Processor.tlbwr, Device.setRandom]
    by_cases hwired : s.device.cp0 .wired = 32#32
    · refine iff_of_false ?_ ?_
      · rw [if_pos (sub_wired_eq_zero_iff.mpr hwired)]
        exact not_survives_error _
      · rw [HarmlessOp, RandomInTable, hwired]
        rintro (h | ⟨h, -⟩) <;> exact absurd h (by decide)
    · rw [if_neg fun h => hwired (sub_wired_eq_zero_iff.mp h), Option.elim_some,
        survives_tlbWrite_iff, HarmlessOp, ← random_lt_iff hwired]
      exact Iff.rfl
  | setHiLo hi lo => exact iff_of_true (survives_ok _) trivial
  | tlbp => exact iff_of_true (survives_ok _) trivial

def ProcessorCall.starts : ProcessorCall → Bool
  | .base c => c.starts
  | .begin _ => true
  | .exec _ => true

def Processor.starting (s : Processor) : Nat := s.todo.countP ProcessorCall.starts

/-- Index is in the table, unless the machine has stopped and begins no instruction any more. At
most one instruction is about to begin. -/
structure Processor.Sound (s : Processor) : Prop where
  one : s.starting ≤ 1
  index : IndexInTable s.device ∨ s.device.stop = true ∧ s.starting = 0

theorem countP_map_base (calls : List Call) :
    (calls.map ProcessorCall.base).countP ProcessorCall.starts = startsOf calls := by
  rw [List.countP_map]
  rfl

theorem countP_fetched (misses : List TlbMiss) (i : ProcessorInstruction) :
    (Processor.fetched misses i).countP ProcessorCall.starts = 1 := by
  rw [Processor.fetched, List.countP_append]
  have hmisses : (misses.map fun miss => ProcessorCall.base
      (.tlbRefill { miss with access := .fetch })).countP ProcessorCall.starts = 0 := by
    rw [List.countP_eq_zero]
    intro c hc
    obtain ⟨miss, -, rfl⟩ := List.mem_map.mp hc
    exact Bool.false_ne_true
  rw [hmisses]
  rfl

theorem countP_calls_le (d : Device) (i : ProcessorInstruction) :
    (i.calls d).countP ProcessorCall.starts ≤ 1 := by
  cases i with
  | plain i h =>
    rw [ProcessorInstruction.calls, countP_map_base]
    exact startsOf_begin i
  | core op => cases op with | _ => exact le_refl 1

theorem IndexInTable.of_kept {d d' : Device} (h : IndexInTable d) (hkept : IndexKept d d') :
    IndexInTable d' := by
  rcases hkept.index with heq | hzero
  · rwa [IndexInTable, heq]
  · rw [IndexInTable, hzero]
    decide

theorem indexInTable_writeCp0 (d : Device) (value : Word) :
    IndexInTable (d.writeCp0 .index value) ∨ (d.writeCp0 .index value).stop = true := by
  simp only [Device.writeCp0]
  split_ifs with h
  · exact .inr rfl
  · refine .inl ?_
    rw [BitVec.lt_def, Nat.not_lt] at h
    exact Nat.lt_succ_of_le h

theorem indexInTable_tlbp {d : Device} (h : IndexInTable d) (entries : Fin 32 → TlbEntry)
    (entryHi : Word) :
    IndexInTable (d.setCp0 .index (tlbp entries (d.cp0 .index) entryHi)) := by
  have hset (value : Word) : (d.setCp0 .index value).cp0 .index = value := rfl
  rw [IndexInTable, hset, tlbp]
  cases (List.finRange 32).find? fun i => ProbeMatches (entries i) entryHi with
  | none =>
    rw [Option.elim_none, BitVec.and_or_distrib_right,
      show (0x80000000#32 &&& 0x3F#32 : Word) = 0#32 from rfl, BitVec.or_zero]
    exact h
  | some i =>
    have hi := i.isLt
    rw [Option.elim_some, BitVec.toNat_and, BitVec.toNat_ofNat]
    exact lt_of_le_of_lt Nat.and_le_left (by omega)

namespace Processor

variable {cfg : Config} {s s' : Processor}

theorem device_of_quotient {α : Type} {c : Prop} [Decidable c] {f : α → BitVec 64 × BitVec 64}
    {r : Except HostFault α}
    (h : (if c then r.map fun a => s.setQuotient (f a) else .ok s).map some = .ok (some s')) :
    s'.device = s.device ∧ s'.todo = s.todo := by
  obtain ⟨t, ht, hs⟩ := exists_of_map_eq_ok h
  obtain rfl := Option.some.inj hs
  split_ifs at ht
  · obtain ⟨a, -, rfl⟩ := exists_of_map_eq_ok ht
    exact ⟨rfl, rfl⟩
  · exact Except.ok.inj ht ▸ ⟨rfl, rfl⟩

theorem device_tlbWrite {index : Word} (h : s.tlbWrite index = .ok (some s')) :
    s'.device = s.device ∧ s'.todo = s.todo := by
  obtain ⟨i, -, hi⟩ := exists_of_map_eq_ok h
  obtain ⟨t, -, rfl⟩ := Option.map_eq_some_iff.mp hi
  exact ⟨rfl, rfl⟩

theorem indexInTable_exec {op : ProcessorOp} (h : IndexInTable s.device)
    (hexec : s.exec op = .ok (some s')) : IndexInTable s'.device ∧ s'.todo = s.todo := by
  have hsame {t : Processor} (ht : s'.device = t.device ∧ s'.todo = t.todo)
      (hindex : IndexInTable t.device) (htodo : t.todo = s.todo) :
      IndexInTable s'.device ∧ s'.todo = s.todo := ⟨ht.1 ▸ hindex, ht.2.trans htodo⟩
  cases op with
  | div rs rt => exact hsame (device_of_quotient hexec) h rfl
  | divu rs rt => exact hsame (device_of_quotient hexec) h rfl
  | ddiv rs rt => exact hsame (device_of_quotient (f := id) hexec) h rfl
  | ddivu rs rt => exact hsame (device_of_quotient (f := id) hexec) h rfl
  | setHiLo hi lo => exact Option.some.inj (Except.ok.inj hexec) ▸ ⟨h, rfl⟩
  | tlbp =>
    exact Option.some.inj (Except.ok.inj hexec) ▸
      ⟨indexInTable_tlbp h s.tlb.entries (s.device.cp0 .entryHi), rfl⟩
  | tlbr =>
    obtain ⟨t, ht, hs⟩ := exists_of_map_eq_ok hexec
    obtain rfl := Option.some.inj hs
    obtain ⟨i, -, rfl⟩ := exists_of_map_eq_ok ht
    exact ⟨h, rfl⟩
  | tlbwi => exact hsame (device_tlbWrite hexec) h rfl
  | tlbwr =>
    simp only [exec, tlbwr, Device.setRandom] at hexec
    split_ifs at hexec
    · exact absurd ⟨_, hexec⟩ (not_survives_error _)
    · exact hsame (device_tlbWrite hexec) h rfl

theorem Sound.of_starts {c : ProcessorCall} {rest : List ProcessorCall} (h : s.Sound)
    (htodo : s.todo = c :: rest) (hc : c.starts = true) :
    IndexInTable s.device ∧ rest.countP ProcessorCall.starts = 0 := by
  have hcount : s.starting = rest.countP ProcessorCall.starts + 1 := by
    rw [starting, htodo, List.countP_cons_of_pos hc]
  have hone := h.one
  exact ⟨h.index.resolve_right fun hstop => by omega, by omega⟩

theorem Sound.of_index {t : Processor} (hindex : IndexInTable t.device)
    (hcount : t.todo.countP ProcessorCall.starts ≤ 1) : t.Sound := ⟨hcount, .inl hindex⟩

theorem Sound.base {c : Call} {rest : List ProcessorCall} {d : Device} {more : List Call}
    (h : s.Sound) (htodo : s.todo = .base c :: rest) (hcall : s.device.call cfg c = some (d, more)) :
    Sound { s with device := d, todo := more.map .base ++ rest } := by
  have happend : (more.map ProcessorCall.base ++ rest).countP ProcessorCall.starts =
      startsOf more + rest.countP ProcessorCall.starts := by
    rw [List.countP_append, countP_map_base]
  by_cases hc : c.starts = true
  · obtain ⟨hindex, hrest⟩ := h.of_starts htodo hc
    have hmore := startsOf_call_le hcall
    have hcount : (more.map ProcessorCall.base ++ rest).countP ProcessorCall.starts ≤ 1 := by
      rw [happend, hrest]
      exact hmore
    cases c with
    | begin i =>
      have hd : s.device = d := congrArg Prod.fst (Option.some.inj hcall)
      exact .of_index (hd ▸ hindex) hcount
    | interpretOpcode => exact absurd hcall.symm (Option.some_ne_none _)
    | idle j =>
      have hd : (s.device.idle j).1 = d := congrArg Prod.fst (Option.some.inj hcall)
      have hidle : IndexInTable (s.device.idle j).1 := by
        simp only [Device.idle]
        split_ifs
        · exact hindex
        · exact hindex
      exact .of_index (hd ▸ hidle) hcount
    | writeCp0 reg value =>
      obtain ⟨rfl, rfl⟩ := Prod.mk.inj (Option.some.inj hcall).symm
      cases reg with
      | index =>
        refine ⟨hcount, (indexInTable_writeCp0 s.device value).imp_right fun hstop => ⟨hstop, ?_⟩⟩
        exact happend.trans (by rw [hrest]; rfl)
      | _ => exact absurd hc Bool.noConfusion
    | _ => exact absurd hc Bool.noConfusion
  · have hfalse := Bool.eq_false_iff.mpr hc
    have hbase : ¬ (ProcessorCall.base c).starts = true := hc
    have hkept := indexKept_call hfalse hcall
    have hmore := startsOf_call hfalse hcall
    have hsame : (more.map ProcessorCall.base ++ rest).countP ProcessorCall.starts = s.starting := by
      rw [happend, hmore, starting, htodo, List.countP_cons_of_neg hbase, Nat.zero_add]
    refine ⟨hsame.trans_le h.one, ?_⟩
    rcases h.index with hindex | ⟨hstop, hzero⟩
    · exact .inl (hindex.of_kept hkept)
    · exact .inr ⟨hkept.stop hstop, hsame.trans hzero⟩

theorem Sound.call (h : s.Sound) (hcall : s.call cfg = .ok s') : s'.Sound := by
  cases htodo : s.todo with
  | nil =>
    rw [Processor.call, htodo] at hcall
    exact Except.ok.inj hcall ▸ h
  | cons c rest =>
    rw [Processor.call, htodo] at hcall
    cases c with
    | begin i =>
      obtain ⟨hindex, hrest⟩ := h.of_starts htodo rfl
      obtain rfl := Except.ok.inj hcall
      refine .of_index hindex ?_
      rw [List.countP_append, hrest]
      exact countP_calls_le s.device i
    | exec op =>
      obtain ⟨hindex, hrest⟩ := h.of_starts htodo rfl
      obtain ⟨r, hr, rfl⟩ := exists_of_map_eq_ok hcall
      cases r with
      | none => exact h
      | some t =>
        obtain ⟨hindex', htodo'⟩ := indexInTable_exec (s := { s with todo := rest }) hindex hr
        refine .of_index hindex' ?_
        rw [Option.getD_some, htodo', hrest]
        exact Nat.zero_le 1
    | base c =>
      cases hdevice : s.device.call cfg c with
      | some r =>
        simp only [hdevice, Option.elim_some] at hcall
        exact Except.ok.inj hcall ▸ h.base htodo hdevice
      | none =>
        simp only [hdevice, Option.elim_none] at hcall
        cases c with
        | setRandom => exact absurd ⟨s', hcall⟩ (not_survives_error _)
        | _ => exact Except.ok.inj hcall ▸ h

theorem survives_call_iff (h : s.Sound) : Survives (s.call cfg) ↔ HarmlessStep s .call := by
  cases htodo : s.todo with
  | nil =>
    rw [Processor.call, HarmlessStep, htodo]
    exact iff_of_true (survives_ok _) nofun
  | cons c rest =>
    have hstep : HarmlessStep s .call ↔ HarmlessCall s.device c := by
      rw [HarmlessStep, htodo]
      exact ⟨fun h => h c rfl, fun h c' hc' => Option.some.inj hc' ▸ h⟩
    rw [hstep, Processor.call, htodo]
    cases c with
    | begin i => exact iff_of_true (survives_ok _) trivial
    | exec op =>
      obtain ⟨hindex, -⟩ := h.of_starts htodo rfl
      dsimp only
      rw [survives_map_iff]
      exact survives_exec_iff (s := { s with todo := rest }) hindex op
    | base c =>
      cases c with
      | setRandom =>
        dsimp only [Device.call, Device.setRandom]
        by_cases hwired : s.device.cp0 .wired = 32#32
        · rw [if_pos (sub_wired_eq_zero_iff.mpr hwired)]
          exact iff_of_false (not_survives_error _) fun h => h hwired
        · rw [if_neg fun h => hwired (sub_wired_eq_zero_iff.mp h)]
          exact iff_of_true (survives_ok _) hwired
      | _ =>
        refine iff_of_true ?_ trivial
        dsimp only
        generalize s.device.call cfg _ = r
        cases r with | _ => exact survives_ok _

theorem Sound.step {a : ProcessorAction} (h : s.Sound) (hstep : s.step cfg a = .ok s') :
    s'.Sound := by
  cases a with
  | fetch misses i =>
    rw [Processor.step] at hstep
    split at hstep
    · next htodo =>
      obtain rfl := Except.ok.inj hstep
      split_ifs with hstop
      · exact h
      · exact .of_index (h.index.resolve_right fun hright => hstop hright.1)
          (countP_fetched misses i).le
    · next rest htodo =>
      obtain ⟨hindex, hrest⟩ := h.of_starts htodo rfl
      obtain rfl := Except.ok.inj hstep
      refine .of_index hindex ?_
      rw [List.countP_append, hrest, countP_fetched]
    · exact Except.ok.inj hstep ▸ h
  | call => exact h.call hstep
  | resetSoft => exact Except.ok.inj hstep ▸ ⟨h.one, h.index⟩
  | requestResetHard => exact Except.ok.inj hstep ▸ ⟨h.one, h.index⟩
  | drive transfer => exact Except.ok.inj hstep ▸ ⟨h.one, h.index⟩
  | stop => exact Except.ok.inj hstep ▸ ⟨h.one, h.index.imp_right fun hright => ⟨rfl, hright.2⟩⟩

theorem survives_step_iff (h : s.Sound) (a : ProcessorAction) :
    Survives (s.step cfg a) ↔ HarmlessStep s a := by
  cases a with
  | fetch misses i =>
    refine iff_of_true ?_ trivial
    rw [Processor.step]
    split <;> exact survives_ok _
  | call => exact survives_call_iff h
  | _ => exact iff_of_true (survives_ok _) trivial

def HarmlessRun (cfg : Config) (s : Processor) : List ProcessorAction → Prop
  | [] => True
  | a :: actions => HarmlessStep s a ∧ ∀ s', s.step cfg a = .ok s' → HarmlessRun cfg s' actions

theorem Sound.survives_iff_harmlessRun (h : s.Sound) (actions : List ProcessorAction) :
    Survives (s.run cfg actions) ↔ HarmlessRun cfg s actions := by
  induction actions generalizing s with
  | nil => exact iff_of_true (survives_ok _) trivial
  | cons a actions ih =>
    have hfirst : Survives (s.step cfg a) ↔ HarmlessStep s a := survives_step_iff h a
    rw [HarmlessRun, ← hfirst]
    cases hstep : s.step cfg a with
    | error e =>
      have hrun : s.run cfg (a :: actions) = .error e := by
        rw [run, List.foldlM_cons, hstep]
        rfl
      rw [hrun]
      exact iff_of_false (not_survives_error e) fun hright => not_survives_error e hright.1
    | ok t =>
      have hrun : s.run cfg (a :: actions) = t.run cfg actions := by
        rw [run, List.foldlM_cons, hstep]
        rfl
      rw [hrun, ih (h.step hstep), and_iff_right (survives_ok t)]
      exact ⟨fun hrest s' hs' => Except.ok.inj hs' ▸ hrest, fun hrest => hrest t rfl⟩

theorem sound_poweredOn (cfg : Config) : (poweredOn cfg).Sound where
  one := Nat.zero_le 1
  index := .inl (by
    rw [IndexInTable, show (poweredOn cfg).device.cp0 .index = 0#32 from rfl]
    decide)

/-- The exact condition under which a run makes no fault on the host: its divisions are not of the
least number by -1, Wired is not 32 where Random is computed, and the Random of `TLBWR` is the
number of an entry. -/
theorem survives_run_iff (cfg : Config) (actions : List ProcessorAction) :
    Survives ((poweredOn cfg).run cfg actions) ↔ HarmlessRun cfg (poweredOn cfg) actions :=
  (sound_poweredOn cfg).survives_iff_harmlessRun actions

def wiredProgram : List ProcessorAction :=
  [.fetch [] (.plain ⟨false, .mtc0 .wired 32#32⟩ nofun), .call, .call, .call,
    .fetch [] (.plain ⟨false, .mfc0 .random⟩ nofun), .call, .call, .call]

theorem run_divides_by_zero : ¬ ∀ (cfg : Config) (actions : List ProcessorAction),
    Survives ((poweredOn cfg).run cfg actions) := by
  intro h
  have hrun : (poweredOn sampleConfig).run sampleConfig wiredProgram = .error .divideByZero := rfl
  exact not_survives_error .divideByZero (hrun ▸ h sampleConfig wiredProgram)

end Processor

end ParallelN64.R4300
