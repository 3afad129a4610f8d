import ParallelN64.R4300.LoadStore

/-!
# Entering the refill handler

`TLB_refill_exception` serves loads and stores, which have moved the program counter already,
and fetches, which have not. After it the interpreter goes on: a load or store is over, and the
branch whose delay slot it is in is finished first, while a fetch is given the word of address
zero and carries that out.
-/

namespace ParallelN64.R4300

section Fetch

variable {ρ μ : Type} (b : Board ρ μ) (s : Cpu ρ μ)

/-- The word that `fast_mem_access` points to, at a physical address. -/
def Cpu.codeAt (address : Word) : Option Word :=
  let address := address &&& 0x1FFFFFFC#32
  if address < 0x800000#32 then some (s.memory.dram ((address >>> 2).setWidth 21))
  else b.handlers.code s.memory.other address

/-- `fast_mem_access`: the processor after it, and the word that is read there. -/
def Cpu.fastMemAccess (address : Word) : Cpu ρ μ × Option Word :=
  if address &&& 0xC0000000#32 ≠ 0x80000000#32 then
    match s.tlb.physical b.hacks .fetch address with
    | some physical => (s, s.codeAt b physical)
    | none => (s.refill b .fetch address, s.codeAt b 0#32)
  else (s, s.codeAt b address)

end Fetch

section Device

variable (cfg : Config) (d : Device)

def Device.exl : Bool := d.status &&& cp0StatusEXL ≠ 0#32

def Device.refillVector (miss : TlbMiss) : Word :=
  if d.exl || (decide (0x80000000#32 ≤ miss.address) && decide (miss.address < 0xC0000000#32)) ||
      miss.entries.any fun entry => entry.covers miss.address then 0x80000180#32
  else 0x80000000#32

def Jump.ending (j : Jump) : List Call :=
  [.updateCount, .setDelaySlot false, .endJump j, .setLastAddr, .poll]

def Device.finishBranch : Option Jump → Interpreter
  | none => ⟨d, []⟩
  | some j => (fun s => s.step cfg .call)^[5] ⟨d, j.ending⟩

variable {cfg d}

/-- What the exception leaves in the control state. -/
structure RefillEffect (d : Device) (miss : TlbMiss) (d' : Device) : Prop where
  badVAddr : d'.cp0 .badVAddr = miss.address
  context : d'.cp0 .context =
    (d.cp0 .context &&& 0xFF80000F#32) ||| ((miss.address >>> 9) &&& 0x007FFFF0#32)
  entryHi : d'.cp0 .entryHi = miss.address &&& 0xFFFFE000#32
  epc : d'.cp0 .epc = (if d.exl then d.cp0 .epc else d.pc) - (if d.delaySlot then 4#32 else 0#32) -
    (if miss.access = .fetch then 0#32 else 4#32)
  branchDelay : d'.cause &&& cp0CauseBD ≠ 0#32 ↔ d.delaySlot = true
  pc : d'.pc = d.refillVector miss
  delaySlot : d'.delaySlot = d.delaySlot
  stop : d'.stop = d.stop
  resets : d'.resets = d.resets
  skipJump : d.delaySlot = true →
    d'.skipJump = d.refillVector miss ∧ d'.interrupts.nextInterrupt = 0#32

def Cp0Reg.describesMiss : Cp0Reg → Bool
  | .badVAddr | .context | .entryHi => true
  | _ => false

theorem enterRefill_fields (miss : TlbMiss) :
    (d.enterRefill miss).pc = d.refillVector miss ∧
      (d.enterRefill miss).cp0 .epc = (if d.exl then d.cp0 .epc else d.pc) ∧
      (∀ reg, reg.describesMiss → (d.enterRefill miss).cp0 reg = d.cp0 reg) ∧
      (d.enterRefill miss).delaySlot = d.delaySlot ∧ (d.enterRefill miss).stop = d.stop ∧
      (d.enterRefill miss).resets = d.resets := by
  rw [Device.enterRefill, Device.refillVector]
  by_cases hexl : d.status &&& cp0StatusEXL ≠ 0#32
  · have htrue : d.exl = true := decide_eq_true hexl
    rw [if_pos hexl, htrue]
    cases hslot : d.delaySlot with
    | _ =>
      refine ⟨rfl, rfl, fun reg hreg => ?_, rfl, rfl, rfl⟩
      cases reg with | _ => first | rfl | cases hreg
  · have hfalse : d.exl = false := decide_eq_false hexl
    rw [if_neg hexl, hfalse]
    refine ⟨rfl, rfl, fun reg hreg => ?_, rfl, rfl, rfl⟩
    cases reg with | _ => first | rfl | cases hreg

theorem markDelaySlot_fields :
    d.markDelaySlot.cp0 .epc = d.cp0 .epc - (if d.delaySlot then 4#32 else 0#32) ∧
      (d.markDelaySlot.cause &&& cp0CauseBD ≠ 0#32 ↔ d.delaySlot = true) ∧
      (∀ reg, reg.describesMiss → d.markDelaySlot.cp0 reg = d.cp0 reg) ∧
      d.markDelaySlot.pc = d.pc ∧ d.markDelaySlot.delaySlot = d.delaySlot ∧
      d.markDelaySlot.stop = d.stop ∧ d.markDelaySlot.resets = d.resets := by
  rw [Device.markDelaySlot]
  cases hslot : d.delaySlot with
  | true =>
    refine ⟨rfl, ?_, fun reg hreg => ?_, rfl, hslot, rfl, rfl⟩
    · change (d.cause ||| cp0CauseBD) &&& cp0CauseBD ≠ 0#32 ↔ _
      rw [Core.or_and_self]
      decide
    · cases reg with | _ => first | rfl | cases hreg
  | false =>
    refine ⟨(BitVec.sub_zero _).symm, ?_, fun reg hreg => ?_, rfl, hslot, rfl, rfl⟩
    · change (d.cause &&& ~~~cp0CauseBD) &&& cp0CauseBD ≠ 0#32 ↔ _
      rw [Core.and_not_and_self]
      decide
    · cases reg with | _ => first | rfl | cases hreg

def Device.counted (cfg : Config) (d : Device) (access : TlbAccess) : Device :=
  if access = .fetch then d else d.cp0UpdateCount cfg

theorem counted_fields (access : TlbAccess) :
    (∀ reg, reg ≠ .count → (d.counted cfg access).cp0 reg = d.cp0 reg) ∧
      (d.counted cfg access).pc = d.pc ∧ (d.counted cfg access).delaySlot = d.delaySlot ∧
      (d.counted cfg access).stop = d.stop ∧ (d.counted cfg access).resets = d.resets := by
  rw [Device.counted]
  split
  · exact ⟨fun _ _ => rfl, rfl, rfl, rfl, rfl⟩
  · exact ⟨fun reg hreg => Function.update_of_ne hreg .., rfl, rfl, rfl, rfl⟩

/-- The state in which the handler is entered, before a jump is deferred. -/
def Device.entered (cfg : Config) (d : Device) (miss : TlbMiss) : Device :=
  let d := (((d.counted cfg miss.access).recordMiss miss).enterRefill miss).markDelaySlot
  let d := if miss.access = .fetch then d else d.setCp0 .epc (d.cp0 .epc - 4#32)
  { d with lastAddr := d.pc }

theorem tlbRefillException_eq (miss : TlbMiss) :
    d.tlbRefillException cfg miss = (d.entered cfg miss).deferJump := rfl

def Device.recorded (cfg : Config) (d : Device) (miss : TlbMiss) : Device :=
  (d.counted cfg miss.access).recordMiss miss

theorem recorded_fields (miss : TlbMiss) :
    (d.recorded cfg miss).cp0 .epc = d.cp0 .epc ∧ (d.recorded cfg miss).exl = d.exl ∧
      (d.recorded cfg miss).refillVector miss = d.refillVector miss ∧
      (d.recorded cfg miss).cp0 .badVAddr = miss.address ∧
      (d.recorded cfg miss).cp0 .context =
        (d.cp0 .context &&& 0xFF80000F#32) ||| ((miss.address >>> 9) &&& 0x007FFFF0#32) ∧
      (d.recorded cfg miss).cp0 .entryHi = miss.address &&& 0xFFFFE000#32 := by
  obtain ⟨hcp0, -⟩ := @counted_fields cfg d miss.access
  have hexl : (d.recorded cfg miss).exl = d.exl :=
    congrArg (fun status : Word => decide (status &&& cp0StatusEXL ≠ 0#32))
      (hcp0 .status (by decide))
  refine ⟨hcp0 .epc (by decide), hexl, ?_, rfl, ?_, rfl⟩
  · rw [Device.refillVector, Device.refillVector, hexl]
  · exact congrArg (fun context : Word =>
      (context &&& 0xFF80000F#32) ||| ((miss.address >>> 9) &&& 0x007FFFF0#32))
      (hcp0 .context (by decide))

theorem entered_fields (miss : TlbMiss) :
    (∀ reg, reg.describesMiss → (d.entered cfg miss).cp0 reg = (d.recorded cfg miss).cp0 reg) ∧
      (d.entered cfg miss).cp0 .epc =
        (if d.exl then d.cp0 .epc else d.pc) - (if d.delaySlot then 4#32 else 0#32) -
          (if miss.access = .fetch then 0#32 else 4#32) ∧
      ((d.entered cfg miss).cause &&& cp0CauseBD ≠ 0#32 ↔ d.delaySlot = true) ∧
      (d.entered cfg miss).pc = d.refillVector miss ∧
      (d.entered cfg miss).delaySlot = d.delaySlot ∧ (d.entered cfg miss).stop = d.stop ∧
      (d.entered cfg miss).resets = d.resets := by
  obtain ⟨-, hpc, hslot, hstop, hresets⟩ := @counted_fields cfg d miss.access
  obtain ⟨hepc, hexl, hvector, -⟩ := @recorded_fields cfg d miss
  obtain ⟨hpc₁, hepc₁, hkept₁, hslot₁, hstop₁, hresets₁⟩ :=
    enterRefill_fields (d := d.recorded cfg miss) miss
  obtain ⟨hepc₂, hcause₂, hkept₂, hpc₂, hslot₂, hstop₂, hresets₂⟩ :=
    markDelaySlot_fields (d := (d.recorded cfg miss).enterRefill miss)
  have hslot' : ((d.recorded cfg miss).enterRefill miss).delaySlot = d.delaySlot :=
    hslot₁.trans hslot
  have hpc' : (d.recorded cfg miss).pc = d.pc := hpc
  rw [hslot'] at hepc₂ hcause₂
  rw [hepc₁, hexl, hepc, hpc'] at hepc₂
  rw [Device.entered]
  by_cases hfetch : miss.access = .fetch
  · simp only [if_pos hfetch]
    refine ⟨fun reg hreg => (hkept₂ reg hreg).trans (hkept₁ reg hreg), ?_, hcause₂,
      hpc₂.trans (hpc₁.trans hvector), hslot₂.trans hslot', hstop₂.trans (hstop₁.trans hstop),
      hresets₂.trans (hresets₁.trans hresets)⟩
    rw [BitVec.sub_zero]
    exact hepc₂
  · simp only [if_neg hfetch]
    refine ⟨fun reg hreg => ?_, ?_, hcause₂, hpc₂.trans (hpc₁.trans hvector),
      hslot₂.trans hslot', hstop₂.trans (hstop₁.trans hstop),
      hresets₂.trans (hresets₁.trans hresets)⟩
    · refine Eq.trans ?_ ((hkept₂ reg hreg).trans (hkept₁ reg hreg))
      cases reg with | _ => first | rfl | cases hreg
    · exact congrArg (fun epc => epc - 4#32) hepc₂

theorem refillEffect (miss : TlbMiss) : RefillEffect d miss (d.tlbRefillException cfg miss) := by
  obtain ⟨-, -, -, hbadVAddr, hcontext, hentryHi⟩ := @recorded_fields cfg d miss
  obtain ⟨hkept, hepc, hcause, hpc, hslot, hstop, hresets⟩ := @entered_fields cfg d miss
  rw [tlbRefillException_eq, Device.deferJump]
  cases hd : d.delaySlot with
  | true =>
    rw [if_pos (hslot.trans hd)]
    exact ⟨(hkept .badVAddr rfl).trans hbadVAddr, (hkept .context rfl).trans hcontext,
      (hkept .entryHi rfl).trans hentryHi, hepc, hcause, hpc, hslot, hstop, hresets,
      fun _ => ⟨hpc, rfl⟩⟩
  | false =>
    rw [if_neg (by rw [hslot, hd]; exact Bool.false_ne_true)]
    exact ⟨(hkept .badVAddr rfl).trans hbadVAddr, (hkept .context rfl).trans hcontext,
      (hkept .entryHi rfl).trans hentryHi, hepc, hcause, hpc, hslot, hstop, hresets,
      fun h => absurd (hd.symm.trans h) Bool.false_ne_true⟩

theorem interruptDue_of_zero (h : d.interrupts.nextInterrupt = 0#32) : d.interruptDue = true := by
  rw [Device.interruptDue, h]
  exact decide_eq_true (Nat.zero_le _)

def Device.branchOver (cfg : Config) (d : Device) : Device :=
  { d.cp0UpdateCount cfg with delaySlot := false, lastAddr := d.pc }

theorem step_call {call : Call} {rest more : List Call} {d' : Device}
    (h : d.call cfg call = some (d', more)) :
    Interpreter.step cfg ⟨d, call :: rest⟩ .call = ⟨d', more ++ rest⟩ := by
  simp only [Interpreter.step, h]

theorem finishBranch_eq (j : Jump) (hjump : d.skipJump ≠ 0#32) :
    d.finishBranch cfg (some j) =
      ⟨((d.branchOver cfg).poll cfg).1, ((d.branchOver cfg).poll cfg).2 ++ []⟩ := by
  have hstays : (j.take && decide (d.skipJump = 0#32)) = false := by
    rw [decide_eq_false hjump, Bool.and_false]
  have hend : ({ d.cp0UpdateCount cfg with delaySlot := false }.call cfg (.endJump j)) =
      some ({ d.cp0UpdateCount cfg with delaySlot := false }, []) :=
    congrArg (fun d => some (d, [])) (if_neg (hstays ▸ Bool.false_ne_true))
  have hcount : Interpreter.step cfg ⟨d, j.ending⟩ .call =
      ⟨d.cp0UpdateCount cfg, [] ++ j.ending.tail⟩ := step_call rfl
  rw [Device.finishBranch]
  simp only [Function.iterate_succ_apply, Function.iterate_zero, id]
  rw [hcount, List.nil_append, Jump.ending, List.tail_cons, step_call rfl, List.nil_append,
    step_call hend, List.nil_append, step_call rfl, List.nil_append]
  exact step_call rfl

theorem finishBranch_of_deferred (j : Jump) (hjump : d.skipJump ≠ 0#32)
    (hdue : d.interrupts.nextInterrupt = 0#32) :
    ∃ d', d.finishBranch cfg (some j) = ⟨d', []⟩ ∧ d'.stop = d.stop ∧
      d'.pc = if d.resets then 0xA4000040#32 else d.skipJump := by
  rw [finishBranch_eq j hjump]
  have hdue' : (d.branchOver cfg).interruptDue = true := interruptDue_of_zero hdue
  rw [Device.poll, if_pos hdue', Device.genInterrupt]
  cases hresets : d.resets with
  | true =>
    rw [if_pos (show (d.branchOver cfg).resets = true from hresets)]
    exact ⟨_, rfl, rfl, rfl⟩
  | false =>
    rw [if_neg (show ¬(d.branchOver cfg).resets = true from hresets ▸ Bool.false_ne_true),
      if_pos (show (d.branchOver cfg).skipJump ≠ 0#32 from hjump)]
    exact ⟨_, rfl, rfl, rfl⟩

end Device

/-- The access that an instruction faults at; a fetch does at the program counter. -/
inductive Fault where
  | load (address : Word)
  | store (address : Word)
  | fetch
  deriving DecidableEq

def Fault.access : Fault → TlbAccess
  | .load _ => .read
  | .store _ => .write
  | .fetch => .fetch

/-- The processor at an instruction, and the branch that has it in its delay slot. -/
structure Running (ρ μ : Type) where
  cpu : Cpu ρ μ
  branch : Option Jump
  slot : cpu.device.delaySlot = branch.isSome

section Running

variable {ρ μ : Type} (b : Board ρ μ) (r : Running ρ μ) (fault : Fault)

def Running.pc : Word := r.cpu.device.pc

def Running.missed : Word :=
  match fault with
  | .load address | .store address => address
  | .fetch => r.pc

/-- The processor when the exception is raised: loads and stores have moved the program
counter. -/
def Running.faulting : Cpu ρ μ :=
  match fault with
  | .fetch => r.cpu
  | _ => r.cpu.addToPc

/-- The processor behind `TLB_refill_exception`. -/
def Running.after : Cpu ρ μ :=
  let s := r.faulting fault
  { s with
    device := s.device.tlbRefillException b.cfg (s.miss fault.access (r.missed fault)) }

def Running.vector : Word :=
  r.cpu.device.refillVector (r.cpu.miss fault.access (r.missed fault))

/-- The next instruction that is carried out: where, and its word. A fetch goes on with the word
of address zero; after a load or store the interpreter fetches, unless it stops. -/
def Running.next : Option (Word × Option Word) :=
  let s := r.after b fault
  match fault with
  | .fetch => some (s.device.pc, s.codeAt b 0#32)
  | _ =>
    match s.device.finishBranch b.cfg r.branch with
    | ⟨d, []⟩ =>
      if d.stop then none else some (d.pc, ({ s with device := d }.fastMemAccess b d.pc).2)
    | _ => none

/-- The handler is entered as it should be. -/
structure Running.Enters : Prop where
  badVAddr : (r.after b fault).device.cp0 .badVAddr = r.missed fault
  context : (r.after b fault).device.cp0 .context =
    (r.cpu.device.cp0 .context &&& 0xFF80000F#32) ||| ((r.missed fault >>> 9) &&& 0x007FFFF0#32)
  vpn2 : (r.after b fault).device.cp0 .entryHi &&& 0xFFFFE000#32 =
    r.missed fault &&& 0xFFFFE000#32
  asid : (r.after b fault).device.cp0 .entryHi &&& 0xFF#32 = r.cpu.device.cp0 .entryHi &&& 0xFF#32
  returns : r.cpu.device.exl = false →
    (r.after b fault).device.cp0 .epc = (if r.branch.isSome then r.pc - 4#32 else r.pc) ∧
      ((r.after b fault).device.cause &&& cp0CauseBD ≠ 0#32 ↔ r.branch.isSome)
  nested : r.cpu.device.exl = true →
    (r.after b fault).device.cp0 .epc = r.cpu.device.cp0 .epc ∧
      ((r.after b fault).device.cause &&& cp0CauseBD ≠ 0#32 ↔
        r.cpu.device.cause &&& cp0CauseBD ≠ 0#32)
  next : ∀ x, r.next b fault = some x →
    x = (r.vector fault, r.cpu.codeAt b (r.vector fault))

/-- The address space identifier is zero; an exception that is being handled only meets a fetch
outside of delay slots while BD is clear; a fetch finds the first word of its handler at address
zero; and no reset comes between a delay slot and the handler. -/
def Running.Sound : Prop :=
  r.cpu.device.cp0 .entryHi &&& 0xFF#32 = 0#32 ∧
    (r.cpu.device.exl = true →
      fault = .fetch ∧ r.branch = none ∧ r.cpu.device.cause &&& cp0CauseBD = 0#32) ∧
    (fault = .fetch → r.cpu.codeAt b 0#32 = r.cpu.codeAt b (r.vector fault)) ∧
    (fault ≠ .fetch → r.branch ≠ none → r.cpu.device.stop = false → r.cpu.device.resets = false)

end Running

section Entry

variable {ρ μ : Type} {b : Board ρ μ} {r : Running ρ μ} (fault : Fault)

theorem Running.effect : RefillEffect (r.faulting fault).device
    ((r.faulting fault).miss fault.access (r.missed fault)) (r.after b fault).device :=
  refillEffect _

theorem Running.vector_eq : (r.faulting fault).device.refillVector
    ((r.faulting fault).miss fault.access (r.missed fault)) = r.vector fault := by
  cases fault with | _ => rfl

theorem Running.vector_cases : r.vector fault = 0x80000180#32 ∨ r.vector fault = 0x80000000#32 := by
  rw [Running.vector, Device.refillVector]
  split
  · exact Or.inl rfl
  · exact Or.inr rfl

theorem Running.fastMemAccess_vector (s : Cpu ρ μ) :
    (s.fastMemAccess b (r.vector fault)).2 = s.codeAt b (r.vector fault) := by
  rcases r.vector_cases fault with h | h <;> rw [h] <;> rfl

theorem Running.branch_isSome : (r.faulting fault).device.delaySlot = r.branch.isSome := by
  rw [← r.slot]
  cases fault with | _ => rfl

theorem Running.exl_faulting : (r.faulting fault).device.exl = r.cpu.device.exl := by
  cases fault with | _ => rfl

theorem Running.asid_iff :
    (r.after b fault).device.cp0 .entryHi &&& 0xFF#32 = r.cpu.device.cp0 .entryHi &&& 0xFF#32 ↔
      r.cpu.device.cp0 .entryHi &&& 0xFF#32 = 0#32 := by
  rw [(r.effect fault (b := b)).entryHi, BitVec.and_assoc,
    show (0xFFFFE000#32 &&& 0xFF#32 : Word) = 0#32 from rfl, BitVec.and_zero]
  exact eq_comm

theorem Running.epc_after :
    (r.after b fault).device.cp0 .epc =
      (if r.cpu.device.exl then r.cpu.device.cp0 .epc else (r.faulting fault).device.pc) -
        (if r.branch.isSome then 4#32 else 0#32) - (if fault = .fetch then 0#32 else 4#32) := by
  rw [(r.effect fault (b := b)).epc, r.exl_faulting _, r.branch_isSome _]
  cases fault with
  | fetch => rfl
  | load a | store a => rfl

theorem Running.epc_of_not_exl (hexl : r.cpu.device.exl = false) :
    (r.after b fault).device.cp0 .epc = if r.branch.isSome then r.pc - 4#32 else r.pc := by
  rw [Running.epc_after, hexl, if_neg Bool.false_ne_true]
  have hmoved : (r.faulting fault).device.pc - (if fault = .fetch then 0#32 else 4#32) = r.pc := by
    cases fault with
    | fetch => exact BitVec.sub_zero _
    | load a | store a => exact BitVec.add_sub_cancel _ _
  cases r.branch.isSome with
  | true => rw [if_pos rfl, if_pos rfl, ← hmoved]; bv_omega
  | false => rw [if_neg Bool.false_ne_true, if_neg Bool.false_ne_true, BitVec.sub_zero, hmoved]

theorem Running.epc_of_exl_iff (hexl : r.cpu.device.exl = true) :
    (r.after b fault).device.cp0 .epc = r.cpu.device.cp0 .epc ↔
      fault = .fetch ∧ r.branch = none := by
  have hmoves : ∀ epc : Word, epc - 0#32 - 4#32 ≠ epc ∧ epc - 4#32 - 0#32 ≠ epc ∧
      epc - 4#32 - 4#32 ≠ epc ∧ epc - 0#32 - 0#32 = epc := by
    intro epc
    refine ⟨?_, ?_, ?_, ?_⟩ <;> bv_omega
  rw [Running.epc_after, hexl, if_pos rfl]
  generalize r.cpu.device.cp0 .epc = epc
  obtain ⟨hdata, hslot, hboth, hneither⟩ := hmoves epc
  cases r.branch with
  | none =>
    cases fault with
    | fetch => exact iff_of_true hneither ⟨rfl, rfl⟩
    | load a | store a => exact iff_of_false hdata (fun h => by cases h.1)
  | some j =>
    cases fault with
    | fetch => exact iff_of_false hslot (fun h => by cases h.2)
    | load a | store a => exact iff_of_false hboth (fun h => by cases h.2)

theorem Running.branchDelay :
    (r.after b fault).device.cause &&& cp0CauseBD ≠ 0#32 ↔ r.branch.isSome = true := by
  rw [← r.branch_isSome fault]
  exact (r.effect fault (b := b)).branchDelay

theorem Running.next_fetch :
    r.next b .fetch = some (r.vector .fetch, r.cpu.codeAt b 0#32) := by
  rw [Running.next]
  exact congrArg (fun pc => some (pc, r.cpu.codeAt b 0#32))
    ((r.effect .fetch (b := b)).pc.trans (r.vector_eq _))

theorem Running.finishBranch_after :
    ∃ d, (r.after b fault).device.finishBranch b.cfg r.branch = ⟨d, []⟩ ∧
      d.stop = r.cpu.device.stop ∧
      d.pc = if r.branch.isSome && r.cpu.device.resets then 0xA4000040#32 else r.vector fault := by
  have heffect := r.effect fault (b := b)
  have hpc : (r.after b fault).device.pc = r.vector fault := heffect.pc.trans (r.vector_eq _)
  have hstop : (r.after b fault).device.stop = r.cpu.device.stop := by
    rw [heffect.stop]
    cases fault with | _ => rfl
  have hresets : (r.after b fault).device.resets = r.cpu.device.resets := by
    rw [heffect.resets]
    cases fault with | _ => rfl
  cases hbranch : r.branch with
  | none => exact ⟨_, rfl, hstop, hpc⟩
  | some j =>
    have hslot : (r.faulting fault).device.delaySlot = true := by
      rw [r.branch_isSome, hbranch]
      rfl
    obtain ⟨hskip, hdue⟩ := heffect.skipJump hslot
    rw [r.vector_eq _] at hskip
    have hne : (r.after b fault).device.skipJump ≠ 0#32 := by
      rw [hskip]
      rcases r.vector_cases fault with h | h <;> rw [h] <;> decide
    obtain ⟨d, hfinish, hstop', hpc'⟩ := @finishBranch_of_deferred b.cfg _ j hne hdue
    rw [hresets, hskip] at hpc'
    exact ⟨d, hfinish, hstop'.trans hstop, hpc'⟩

theorem Running.next_data_iff (hfault : fault ≠ .fetch) :
    (∀ x, r.next b fault = some x → x = (r.vector fault, r.cpu.codeAt b (r.vector fault))) ↔
      (r.branch ≠ none → r.cpu.device.stop = false → r.cpu.device.resets = false) := by
  obtain ⟨d, hfinish, hstop, hpc⟩ := r.finishBranch_after fault (b := b)
  have hnext : r.next b fault =
      if d.stop then none
      else some (d.pc, ({ r.after b fault with device := d }.fastMemAccess b d.pc).2) := by
    cases fault with
    | fetch => exact absurd rfl hfault
    | load a | store a => simp only [Running.next, hfinish]
  have hcode : ({ r.after b fault with device := d }.fastMemAccess b (r.vector fault)).2 =
      r.cpu.codeAt b (r.vector fault) := by
    rw [r.fastMemAccess_vector]
    cases fault with | _ => rfl
  have hreset : (0xA4000040#32 : Word) ≠ r.vector fault := by
    rcases r.vector_cases fault with h | h <;> rw [h] <;> decide
  rw [hnext, hstop]
  cases hs : r.cpu.device.stop with
  | true => simp
  | false =>
    rw [if_neg Bool.false_ne_true]
    constructor
    · intro h hbranch _
      by_contra hnot
      have hresets : r.cpu.device.resets = true := Bool.not_eq_false _ ▸ hnot
      rw [hresets, Option.isSome_iff_ne_none.mpr hbranch, Bool.and_self, if_pos rfl] at hpc
      exact hreset (hpc.symm.trans (congrArg Prod.fst (h _ rfl)))
    · intro h x hx
      have hkept : (r.branch.isSome && r.cpu.device.resets) = false := by
        cases hbranch : r.branch with
        | none => rfl
        | some j => exact h (by simp [hbranch]) rfl
      rw [hkept, if_neg Bool.false_ne_true] at hpc
      rw [← Option.some.inj hx, hpc, hcode]

/-- The refill handler is entered as it should be in the sound states and no others. -/
theorem refillEntry_iff (b : Board ρ μ) (r : Running ρ μ) (fault : Fault) :
    r.Enters b fault ↔ r.Sound b fault := by
  have heffect := r.effect fault (b := b)
  have hfetch : (∀ x, r.next b .fetch = some x →
      x = (r.vector .fetch, r.cpu.codeAt b (r.vector .fetch))) ↔
      r.cpu.codeAt b 0#32 = r.cpu.codeAt b (r.vector .fetch) := by
    rw [r.next_fetch]
    simp
  constructor
  · intro h
    refine ⟨(r.asid_iff fault).mp h.asid, fun hexl => ?_, ?_,
      fun hdata => (r.next_data_iff fault hdata).mp h.next⟩
    · obtain ⟨hepc, hcause⟩ := h.nested hexl
      obtain ⟨hkind, hbranch⟩ := (r.epc_of_exl_iff fault hexl).mp hepc
      refine ⟨hkind, hbranch, ?_⟩
      rw [r.branchDelay, hbranch] at hcause
      exact not_not.mp (fun hne => Bool.false_ne_true (hcause.mpr hne))
    · rintro rfl
      exact hfetch.mp h.next
  · rintro ⟨hasid, hnested, hword, hreset⟩
    refine ⟨heffect.badVAddr, ?_, ?_, (r.asid_iff fault).mpr hasid,
      fun hexl => ⟨r.epc_of_not_exl fault hexl, r.branchDelay fault⟩, fun hexl => ?_, ?_⟩
    · rw [heffect.context]
      cases fault with | _ => rfl
    · rw [heffect.entryHi, BitVec.and_assoc, BitVec.and_self]
      rfl
    · obtain ⟨hkind, hbranch, hclear⟩ := hnested hexl
      refine ⟨(r.epc_of_exl_iff fault hexl).mpr ⟨hkind, hbranch⟩, ?_⟩
      rw [r.branchDelay, hbranch]
      exact iff_of_false Bool.false_ne_true (not_not.mpr hclear)
    · by_cases hkind : fault = .fetch
      · subst hkind
        exact hfetch.mpr (hword rfl)
      · exact (r.next_data_iff fault hkind).mpr (hreset hkind)

/-- A load that faults while another exception is handled. -/
def nestedLoad : Running Unit Unit where
  cpu := { sampleCpu with
    device := { blankDevice with cp0 := fun reg => if reg = .status then cp0StatusEXL else 0#32 } }
  branch := none
  slot := rfl

/-- It moves the return address of the exception that is handled. -/
theorem nestedLoad_not_enters : ¬nestedLoad.Enters sampleBoard (.load 0x1000#32) := by
  intro h
  have hepc := (h.nested (by decide)).1
  exact absurd hepc (by decide)

end Entry

end ParallelN64.R4300
