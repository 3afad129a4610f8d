import ParallelN64.R4300.Instruction

/-!
# Counting, exceptions and pending interrupts

The Count register is brought up to date from the program counter. Exceptions are entered
by the pure interpreter: inside a delay slot the target is left in `skip_jump` and the next
interrupt check is forced. The MIPS interface raises, signals and clears its interrupts
through the Cause register.
-/

namespace ParallelN64.R4300

variable (cfg : Config) (d : Device)

def Device.advanceCount (amount : Word) : Device :=
  { d.setCp0 .count (d.count + amount) with
    interrupts := { d.interrupts with clock := d.interrupts.clock + amount.toNat } }

/-- `cp0_update_count`: the instructions since the last update are counted. -/
def Device.cp0UpdateCount : Device :=
  { d.advanceCount (((d.pc - d.lastAddr) >>> 2) * cfg.countPerOp) with lastAddr := d.pc }

/-- `add_interrupt_event_count` at the Count register. -/
def Device.addInterruptEventCount (type : EventType) (count : Word) : Device :=
  { d with interrupts := d.interrupts.addInterruptEventCount d.count type count }

/-- `add_interrupt_event` at the Count register. -/
def Device.addInterruptEvent (type : EventType) (delay : Word) : Device :=
  { d with interrupts := d.interrupts.addInterruptEvent d.count type delay }

/-- `remove_interrupt_event`. -/
def Device.removeInterruptEvent : Device :=
  { d with interrupts := d.interrupts.removeInterruptEvent d.count }

/-- `remove_event`. -/
def Device.removeEvent (type : EventType) : Device :=
  { d with interrupts := d.interrupts.removeEvent type }

/-- `translate_event_queue`. -/
def Device.translateEventQueue (base : Word) : Device :=
  { d with interrupts := d.interrupts.translateEventQueue d.count (d.cp0 .compare) base }

def Device.setNextInterrupt (count : Word) : Device :=
  { d with interrupts := { d.interrupts with nextInterrupt := count } }

def Device.deferJump : Device :=
  if d.delaySlot then { d.setNextInterrupt 0#32 with skipJump := d.pc } else d

/-- In a delay slot Cause says so and the return address is that of the branch. -/
def Device.markDelaySlot : Device :=
  if d.delaySlot then
    (d.setCp0 .cause (d.cause ||| cp0CauseBD)).setCp0 .epc (d.cp0 .epc - 4#32)
  else d.setCp0 .cause (d.cause &&& ~~~cp0CauseBD)

/-- `exception_general`. -/
def Device.exceptionGeneral : Device :=
  let d := d.cp0UpdateCount cfg
  let d := d.setCp0 .status (d.status ||| cp0StatusEXL)
  let d := (d.setCp0 .epc d.pc).markDelaySlot
  { d with pc := 0x80000180#32, lastAddr := 0x80000180#32 }.deferJump

def TlbPages.covers (entry : TlbPages) (address : Word) : Bool :=
  (decide (entry.startEven ≤ address) && decide (address ≤ entry.endEven)) ||
    (decide (entry.startOdd ≤ address) && decide (address ≤ entry.endOdd))

def TlbAccess.excCode : TlbAccess → Word
  | .write => cp0CauseExcCodeTLBS
  | _ => cp0CauseExcCodeTLBL

/-- The registers that describe a miss. Cause is written as a whole. -/
def Device.recordMiss (miss : TlbMiss) : Device :=
  let d := (d.setCp0 .cause miss.access.excCode).setCp0 .badVAddr miss.address
  let d := d.setCp0 .context
    ((d.cp0 .context &&& 0xFF80000F#32) ||| ((miss.address >>> 9) &&& 0x007FFFF0#32))
  d.setCp0 .entryHi (miss.address &&& 0xFFFFE000#32)

/-- The handler of a miss: inside an exception, or for a mapped page, the usual one. -/
def Device.enterRefill (miss : TlbMiss) : Device :=
  if d.status &&& cp0StatusEXL ≠ 0#32 then
    let d := { d with pc := 0x80000180#32 }
    if d.delaySlot then d.setCp0 .cause (d.cause ||| cp0CauseBD)
    else d.setCp0 .cause (d.cause &&& ~~~cp0CauseBD)
  else
    let d := d.setCp0 .epc d.pc
    let d := d.setCp0 .cause (d.cause &&& ~~~cp0CauseBD)
    let d := d.setCp0 .status (d.status ||| cp0StatusEXL)
    let usualHandler :=
      (decide (0x80000000#32 ≤ miss.address) && decide (miss.address < 0xC0000000#32)) ||
        miss.entries.any fun entry => entry.covers miss.address
    { d with pc := if usualHandler then 0x80000180#32 else 0x80000000#32 }

/-- `TLB_refill_exception`. A missed fetch neither counts nor moves the return address. -/
def Device.tlbRefillException (miss : TlbMiss) : Device :=
  let d := if miss.access = .fetch then d else d.cp0UpdateCount cfg
  let d := ((d.recordMiss miss).enterRefill miss).markDelaySlot
  let d := if miss.access = .fetch then d else d.setCp0 .epc (d.cp0 .epc - 4#32)
  { d with lastAddr := d.pc }.deferJump

/-- The exception of `check_cop1_unusable`. -/
def Device.cop1UnusableException : Device :=
  (d.setCp0 .cause (cp0CauseExcCodeCPU ||| cp0CauseCE1)).exceptionGeneral cfg

def Device.syscallException : Device :=
  (d.setCp0 .cause cp0CauseExcCodeSYS).exceptionGeneral cfg

def Device.interruptsEnabled : Bool :=
  d.status &&& (cp0StatusIE ||| cp0StatusEXL ||| cp0StatusERL) = cp0StatusIE

def Device.unmaskedPending : Bool := d.status &&& d.cause &&& 0xFF00#32 ≠ 0#32

def Device.miPending : Bool := d.mi .intr &&& d.mi .intrMask ≠ 0#32

/-- `check_interrupt`. -/
def Device.checkInterrupt : Device :=
  let d :=
    if d.miPending then
      d.setCp0 .cause ((d.cause ||| cp0CauseIP2) &&& ~~~cp0CauseExcCodeMask)
    else d.setCp0 .cause (d.cause &&& ~~~cp0CauseIP2)
  if d.interruptsEnabled && d.unmaskedPending then
    { d with interrupts := d.interrupts.pushCheckInt d.count }
  else d

/-- `raise_maskable_interrupt`. -/
def Device.raiseMaskableInterrupt (cause : Word) : Device :=
  let d := d.setCp0 .cause ((d.cause ||| cause) &&& ~~~cp0CauseExcCodeMask)
  if d.unmaskedPending && d.interruptsEnabled then d.exceptionGeneral cfg else d

/-- `raise_rcp_interrupt`: taken at once if nothing masks it. -/
def Device.raiseRcpInterrupt (miIntr : Word) : Device :=
  let d := d.setMi .intr (d.mi .intr ||| miIntr)
  if d.miPending then d.raiseMaskableInterrupt cfg cp0CauseIP2 else d

/-- `signal_rcp_interrupt`: scheduled if nothing masks it. -/
def Device.signalRcpInterrupt (miIntr : Word) : Device :=
  (d.setMi .intr (d.mi .intr ||| miIntr)).checkInterrupt

/-- `clear_rcp_interrupt`. -/
def Device.clearRcpInterrupt (miIntr : Word) : Device :=
  (d.setMi .intr (d.mi .intr &&& ~~~miIntr)).checkInterrupt

end ParallelN64.R4300
