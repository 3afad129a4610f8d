import ParallelN64.Core.Runs
import ParallelN64.R4300.Dispatch

/-!
# The pure interpreter

The calls that remain are part of the state, so the delay slot of a jump waits for the next
instruction with the rest of the jump behind it. The frontend can ask for resets between any
two calls.
-/

namespace ParallelN64.R4300

variable (cfg : Config) (d : Device)

def Device.writeCount (value : Word) : Device :=
  (d.translateEventQueue value).setCp0 .count value

def Device.writeCompare (value : Word) : Device :=
  let d := (d.removeEvent .compareInt).addInterruptEventCount .compareInt value
  let d := d.setCp0 .compare value
  d.setCp0 .cause (d.cause &&& ~~~cp0CauseIP7)

def Device.writeCause (value : Word) : Device :=
  if value ≠ 0#32 then { d with stop := true } else d.setCp0 .cause 0#32

/-- MTC0 to the registers that only hold a value. -/
def Device.writeCp0 (reg : Cp0Reg) (value : Word) : Device :=
  match reg with
  | .index =>
    let d := d.setCp0 .index (value &&& 0x8000003F#32)
    if 31#32 < d.cp0 .index &&& 0x3F#32 then { d with stop := true } else d
  | .random => d
  | .entryLo0 => d.setCp0 .entryLo0 (value &&& 0x3FFFFFFF#32)
  | .entryLo1 => d.setCp0 .entryLo1 (value &&& 0x3FFFFFFF#32)
  | .context =>
    d.setCp0 .context ((value &&& 0xFF800000#32) ||| (d.cp0 .context &&& 0x007FFFF0#32))
  | .pageMask => d.setCp0 .pageMask (value &&& 0x01FFE000#32)
  | .wired => (d.setCp0 .wired value).setCp0 .random 31#32
  | .badVAddr => d
  | .entryHi => d.setCp0 .entryHi (value &&& 0xFFFFE0FF#32)
  | .epc => d.setCp0 .epc value
  | .prevId => d
  | .config => d.setCp0 .config value
  | .watchLo => d.setCp0 .watchLo value
  | .watchHi => d.setCp0 .watchHi value
  | .tagLo => d.setCp0 .tagLo (value &&& 0x0FFFFFC0#32)
  | .tagHi => d.setCp0 .tagHi 0#32
  | .errorEpc => d.setCp0 .errorEpc value
  | _ => { d with stop := true }

/-- The Random register; nothing where the host divides by zero. -/
def Device.setRandom : Option Device :=
  let wired := d.cp0 .wired
  if 32#32 - wired = 0#32 then none
  else some (d.setCp0 .random ((d.count / 2#32) % (32#32 - wired) + wired))

/-- The jump of ERET. -/
def Device.returnFromException : Device :=
  if d.status &&& cp0StatusERL ≠ 0#32 then { d with stop := true }
  else
    let d := d.setCp0 .status (d.status &&& ~~~cp0StatusEXL)
    { d with pc := d.cp0 .epc }

def Device.idle (j : Jump) : Device × List Call :=
  let skip := d.interrupts.nextInterrupt - d.count
  if 3 < skip.toInt then (d.advanceCount (skip &&& 0xFFFFFFFC#32), []) else (d, j.body)

def Device.begin (i : Instruction) : List Call :=
  if i.cop1 && d.status &&& cp0StatusCU1 = 0#32 then [.cop1Unusable] else i.op.body

/-- One call: the new state and the calls it stands for. An opcode must be fetched. -/
def Device.call : Call → Option (Device × List Call)
  | .begin i => some (d, d.begin i)
  | .interpretOpcode => none
  | .addToPc bytes => some ({ d with pc := d.pc + bytes }, [])
  | .updateCount => some (d.cp0UpdateCount cfg, [])
  | .checkInterrupt => some (d.checkInterrupt, [])
  | .poll => some (d.poll cfg)
  | .access access => d.access cfg access
  | .tlbRefill miss => some (d.tlbRefillException cfg miss, [])
  | .cop1Unusable => some (d.cop1UnusableException cfg, [])
  | .syscall => some (d.syscallException cfg, [])
  | .exceptionGeneral => some (d.exceptionGeneral cfg, [])
  | .raiseTimer => some (d.raiseMaskableInterrupt cfg cp0CauseIP7, [])
  | .raiseRcp miIntr => some (d.raiseRcpInterrupt cfg miIntr, [])
  | .signalRcp miIntr => some (d.signalRcpInterrupt miIntr, [])
  | .addEvent transfer delay => some (d.addInterruptEvent transfer.type delay, [])
  | .doSpTask task => some (d.doSpTask cfg task)
  | .lockTask => some d.lockTask
  | .setTaskLocked => some ({ d with sp := { d.sp with rspTaskLocked := true } }, [])
  | .piEnd => some (d, d.piEnd)
  | .setStop => some ({ d with stop := true }, [])
  | .setDelaySlot on => some ({ d with delaySlot := on }, [])
  | .endJump j =>
    some (if j.take && d.skipJump = 0#32 then { d with pc := j.target } else d, [])
  | .setLastAddr => some ({ d with lastAddr := d.pc }, [])
  | .idle j => some (d.idle j)
  | .setUnsafe on => some ({ d with interruptUnsafeState := on }, [])
  | .writeCount value => some (d.writeCount value, [])
  | .writeCompare value => some (d.writeCompare value, [])
  | .writeStatus value => some (d.setCp0 .status value, [])
  | .writeCause value => some (d.writeCause value, [])
  | .writeCp0 reg value => some (d.writeCp0 reg value, [])
  | .setRandom => d.setRandom.map fun d => (d, [])
  | .returnFromException => some (d.returnFromException, [])

/-- The interpreter between two calls. -/
structure Interpreter where
  device : Device
  todo : List Call

/-- What happens next: an opcode is fetched, perhaps after TLB misses, a call is carried
out, or something outside the interpreter acts. -/
inductive Action where
  | fetch (misses : List TlbMiss) (instruction : Instruction)
  | call
  | resetSoft
  | requestResetHard
  | drive (transfer : Bool)

def fetched (misses : List TlbMiss) (instruction : Instruction) : List Call :=
  misses.map (fun miss => .tlbRefill { miss with access := .fetch }) ++ [.begin instruction]

/-- One step of the machine; an action that cannot happen now changes nothing. -/
def Interpreter.step (s : Interpreter) : Action → Interpreter
  | .fetch misses instruction =>
    match s.todo with
    | [] => if s.device.stop then s else ⟨s.device, fetched misses instruction⟩
    | .interpretOpcode :: rest => ⟨s.device, fetched misses instruction ++ rest⟩
    | _ => s
  | .call =>
    match s.todo with
    | [] => s
    | call :: rest =>
      match s.device.call cfg call with
      | none => s
      | some (device, more) => ⟨device, more ++ rest⟩
  | .resetSoft => ⟨s.device.resetSoft, s.todo⟩
  | .requestResetHard => ⟨{ s.device with resetHardJob := true }, s.todo⟩
  | .drive transfer => ⟨{ s.device with ddTransfer := transfer }, s.todo⟩

/-- The machine before power is applied. -/
def blankDevice : Device where
  cp0 := fun _ => 0#32
  pc := 0xA4000040#32
  lastAddr := 0xA4000040#32
  skipJump := 0#32
  delaySlot := false
  stop := false
  interruptUnsafeState := false
  resetHardJob := false
  interrupts := ⟨clearQueue, false, 0#32, 0⟩
  mi := fun _ => 0#32
  sp := ⟨fun _ => 0#32, fun _ => 0#32, false⟩
  dp := ⟨fun _ => 0#32, fun _ => 0#32⟩
  ai := ⟨fun _ => 0#32, ⟨0#32, 0#32, 0#32⟩, ⟨0#32, 0#32, 0#32⟩, false, 0#32, 0#32⟩
  pi := fun _ => 0#32
  si := fun _ => 0#32
  vi := ⟨fun _ => 0#32, 0#32, 0#32, 0#32⟩
  ddTransfer := false

def poweredOn : Interpreter := ⟨blankDevice.poweronDevice.pifbootromHleExecute cfg, []⟩

def run (actions : List Action) : Interpreter := actions.foldl (Interpreter.step cfg) (poweredOn cfg)

def Reachable (s : Interpreter) : Prop := ∃ actions, run cfg actions = s

/-- A usual configuration. -/
def sampleConfig : Config where
  countPerOp := 2#32
  viRefreshRate := 1500#32
  alternateViTiming := false
  viClock := 48681812#32
  expectedRefreshRate := 60#32
  audioSignal := false
  perfectDark := false
  delaySi := true
  siDmaDuration := 0x900#32
  fixedAudioPos := false
  cartRomSize := 0x800000#32
  ddRomSize := 0#32
  bsdDom1Config := 0x80371240#32

/-- What holds of the device a call returns holds of the device it is said to return. -/
@[elab_as_elim]
theorem of_call {P : Device → Prop} {d d' : Device} {more more' : List Call}
    (h : some (d, more) = some (d', more')) (hd : P d) : P d' := by
  obtain ⟨rfl, -⟩ := Prod.mk.inj (Option.some.inj h)
  exact hd

end ParallelN64.R4300
