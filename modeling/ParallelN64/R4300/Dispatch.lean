import ParallelN64.R4300.Peripherals

/-!
# Dispatching the first event

`gen_interrupt` restarts the machine, finishes a jump that an exception interrupted, or
runs the handler of the event at the head of the queue. A handler gives the new state and
the calls that follow.
-/

namespace ParallelN64.R4300

variable (cfg : Config) (d : Device)

/-- The registers that `pifbootrom_hle_execute` sets. -/
def Device.pifbootromHleExecute : Device :=
  let d := d.setCp0 .status 0x34000000#32
  let d := d.setCp0 .config 0x0006E463#32
  let d := d.setSp .status 1#32
  let d := { d with sp := { d.sp with regs2 := Function.update d.sp.regs2 .pc 0#32 } }
  let d := d.setPi .bsdDom1Lat (cfg.bsdDom1Config &&& 0xFF#32)
  let d := d.setPi .bsdDom1Pwd ((cfg.bsdDom1Config >>> 8) &&& 0xFF#32)
  let d := d.setPi .bsdDom1Pgs ((cfg.bsdDom1Config >>> 16) &&& 0x0F#32)
  let d := d.setPi .bsdDom1Rls ((cfg.bsdDom1Config >>> 20) &&& 0x03#32)
  let d := d.setPi .status 0#32
  let d := (d.setAi .dramAddr 0#32).setAi .len 0#32
  let d := ((d.setVi .vIntr 1023#32).setVi .current 0#32).setVi .hStart 0#32
  d.setMi .intr (d.mi .intr &&& ~~~(miIntrPI ||| miIntrVI ||| miIntrAI ||| miIntrSP))

/-- The registers of coprocessor 0 after `poweron_cp0`. -/
def poweronCp0 : Cp0Reg → Word
  | .random => 31#32
  | .status => 0x34000000#32
  | .config => 0x6E463#32
  | .prevId => 0xB00#32
  | .count => 0x5000#32
  | .cause => 0x5C#32
  | .context => 0x7FFFF0#32
  | .epc => 0xFFFFFFFF#32
  | .badVAddr => 0xFFFFFFFF#32
  | .errorEpc => 0xFFFFFFFF#32
  | _ => 0#32

/-- `init_interrupt` at the Count register. -/
def Device.initInterrupt : Device :=
  { d with interrupts := d.interrupts.initInterrupt d.count }

def Device.startVi : Device :=
  { d with vi := { d.vi with delay := 5000#32, nextVi := 5000#32 } }.addInterruptEventCount
    .viInt 5000#32

/-- `poweron_device`. -/
def Device.poweronDevice : Device :=
  let d := { d with cp0 := poweronCp0, delaySlot := false }.initInterrupt
  let d := { d with
    mi := Function.update (fun _ => 0#32) .version 0x02020102#32
    dp := ⟨fun _ => 0#32, fun _ => 0#32⟩
    sp := ⟨Function.update (fun _ => 0#32) .status 1#32, fun _ => 0#32, false⟩
    ai := ⟨fun _ => 0#32, ⟨0#32, 0#32, 0#32⟩, ⟨0#32, 0#32, 0#32⟩, false, 0#32, 0#32⟩
    pi := fun _ => 0#32
    si := fun _ => 0#32
    vi := ⟨fun _ => 0#32, 0#32, d.vi.delay, d.vi.nextVi⟩
    ddTransfer := false }
  d.startVi

/-- `reset_hard`. -/
def Device.resetHard : Device :=
  let d := (d.poweronDevice).pifbootromHleExecute cfg
  let d := { d with lastAddr := 0xA4000040#32 }.setNextInterrupt 624999#32
  let d := d.initInterrupt.startVi
  { d with pc := 0xA4000040#32 }

/-- `reset_soft`: an interrupt now and the reset proper half a second later. -/
def Device.resetSoft : Device :=
  (d.addInterruptEvent .hw2Int 0#32).addInterruptEvent .nmiInt 50000000#32

/-- `special_int_handler`. -/
def Device.specialIntHandler : Device :=
  if 0x10000000#32 < d.count then d
  else
    let d := { d with interrupts := { d.interrupts with specialDone := true } }
    d.removeInterruptEvent.addInterruptEventCount .specialInt 0#32

/-- `compare_int_handler`: the next match is searched from the instruction after this one. -/
def Device.compareIntHandler : Device × List Call :=
  let d := d.removeInterruptEvent
  let clock := d.interrupts.clock
  let d := d.advanceCount cfg.countPerOp
  let d := d.addInterruptEventCount .compareInt (d.cp0 .compare)
  let d := d.setCp0 .count (d.count - cfg.countPerOp)
  ({ d with interrupts := { d.interrupts with clock } }, [.raiseTimer])

/-- `hw2_int_handler`. -/
def Device.hw2IntHandler : Device × List Call :=
  let d := d.removeInterruptEvent
  let d := d.setCp0 .status
    ((d.status &&& ~~~(cp0StatusSR ||| cp0StatusTS ||| 0x00080000#32)) ||| cp0StatusIM4)
  (d.setCp0 .cause ((d.cause ||| cp0CauseIP4) &&& ~~~cp0CauseExcCodeMask), [.exceptionGeneral])

/-- `nmi_int_handler`. -/
def Device.nmiIntHandler : Device :=
  let d := d.removeInterruptEvent
  let d := d.setCp0 .status
    ((d.status &&& ~~~(cp0StatusSR ||| cp0StatusTS ||| 0x00080000#32)) |||
      (cp0StatusERL ||| cp0StatusBEV ||| cp0StatusSR))
  let d := d.setCp0 .cause 0#32
  let d := d.pifbootromHleExecute cfg
  let d := (d.setCp0 .count 0#32).initInterrupt.startVi
  let d := d.setAi .status 0#32
  let d := d.setCp0 .errorEpc d.pc
  let d := if d.delaySlot then d.setCp0 .errorEpc (d.cp0 .errorEpc - 4#32) else d
  { d with delaySlot := false, lastAddr := 0xA4000040#32, pc := 0xA4000040#32 }

def Device.cartIntHandler : Device :=
  let d := d.setCp0 .cause ((d.cause ||| cp0CauseIP3) &&& ~~~cp0CauseExcCodeMask)
  d.removeInterruptEvent

/-- The handler of one type of event. -/
def Device.dispatch : EventType → Device × List Call
  | .specialInt => (d.specialIntHandler, [])
  | .viInt => d.removeInterruptEvent.viVerticalInterruptEvent cfg
  | .compareInt => d.compareIntHandler cfg
  | .checkInt => (d.removeInterruptEvent, [.exceptionGeneral])
  | .siInt => d.removeInterruptEvent.siEndOfDmaEvent
  | .piInt => d.removeInterruptEvent.piEndOfDmaEvent
  | .aiInt => d.removeInterruptEvent.aiEndOfDmaEvent cfg
  | .spInt => (d.removeInterruptEvent, d.removeInterruptEvent.rspInterruptEvent)
  | .dpInt => (d.removeInterruptEvent, [.raiseRcp miIntrDP])
  | .hw2Int => d.hw2IntHandler
  | .nmiInt => (d.nmiIntHandler cfg, [])
  | .cartInt => (d.cartIntHandler, [])
  | .unknown _ => (d.removeInterruptEvent, [.exceptionGeneral])

def Device.resets : Bool := !d.interruptUnsafeState && d.resetHardJob

def Device.finishJump : Device :=
  let d := d.setNextInterrupt (cachedCount d.count d.interrupts.q.first)
  { d with skipJump := 0#32, lastAddr := d.skipJump, pc := d.skipJump }

/-- `gen_interrupt`. -/
def Device.genInterrupt : Device × List Call :=
  if d.resets then ({ d.resetHard cfg with resetHardJob := false }, [])
  else if d.skipJump ≠ 0#32 then (d.finishJump, [])
  else
    match d.interrupts.q.first with
    | [] => (d, [])
    | event :: _ => d.dispatch cfg event.data.type

def Device.interruptDue : Bool := decide (d.interrupts.nextInterrupt ≤ d.count)

/-- `if (next_interrupt <= Count) gen_interrupt();` -/
def Device.poll : Device × List Call := if d.interruptDue then d.genInterrupt cfg else (d, [])

/-- The type of the event that an interrupt check dispatches. -/
def Device.dispatched : Option EventType :=
  if d.interruptDue && !d.resets && decide (d.skipJump = 0#32) then
    d.interrupts.q.first.head?.map fun e => e.data.type
  else none

variable {cfg d}

theorem poll_cases :
    d.poll cfg = (d, []) ∨
      (d.interruptDue = true ∧ d.resets = true ∧
        d.poll cfg = ({ d.resetHard cfg with resetHardJob := false }, [])) ∨
      (d.interruptDue = true ∧ d.resets = false ∧ d.skipJump ≠ 0#32 ∧
        d.poll cfg = (d.finishJump, [])) ∨
      ∃ type, d.dispatched = some type ∧ d.poll cfg = d.dispatch cfg type := by
  rw [Device.poll, Device.genInterrupt, Device.dispatched]
  cases hdue : d.interruptDue with
  | false => exact Or.inl rfl
  | true =>
    cases hresets : d.resets with
    | true => exact Or.inr (Or.inl ⟨rfl, rfl, rfl⟩)
    | false =>
      by_cases hjump : d.skipJump = 0#32
      · cases hfirst : d.interrupts.q.first with
        | nil => exact Or.inl (by simp [hjump])
        | cons event rest =>
          exact Or.inr (Or.inr (Or.inr ⟨event.data.type, by simp [hjump], by simp [hjump]⟩))
      · exact Or.inr (Or.inr (Or.inl ⟨rfl, rfl, hjump, by simp [hjump]⟩))

theorem poll_of_dispatched {type : EventType} (h : d.dispatched = some type) :
    d.poll cfg = d.dispatch cfg type := by
  rw [Device.dispatched] at h
  split at h
  · next hready =>
    simp only [Bool.and_eq_true, Bool.not_eq_true', decide_eq_true_eq] at hready
    obtain ⟨⟨hdue, hresets⟩, hjump⟩ := hready
    cases hfirst : d.interrupts.q.first with
    | nil => simp [hfirst] at h
    | cons event rest =>
      obtain rfl : event.data.type = type := by simpa [hfirst] using h
      simp [Device.poll, Device.genInterrupt, hdue, hresets, hjump, hfirst]
  · exact absurd h (Option.some_ne_none _).symm

end ParallelN64.R4300
