import ParallelN64.Core.Delivery
import ParallelN64.R4300.QueueShape

/-!
# What the audio interface hands on

`push_audio_samples` is called from reads of the length register and at the end of a transfer. Every
call takes a piece of the buffer of the first transfer, which starts where, by `last_read`, the
piece before it stopped.
-/

namespace ParallelN64.Ai

open R4300

/-- One call of `push_audio_samples`: where its samples start, and their size in bytes. -/
structure Push where
  start : Nat
  size : Word

def Push.places (p : Push) : List Nat := List.range' p.start p.size.toNat

def buffer (dma : AiDma) : List Nat := List.range' dma.address.toNat dma.length.toNat

/-- A call with `p + diff`, where the address of the transfer is used as one of a word. -/
def pushAt (ai : AiController) (size : Word) : Push :=
  ⟨4 * (ai.fifo0.address / 4#32).toNat + (ai.fifo0.length - ai.lastRead).toNat, size⟩

/-- The call in `read_ai_regs` at the length register. -/
def readPush (cfg : Config) (d : Device) : List Push :=
  let value := (d.getRemainingDmaLength cfg).2
  if value < d.ai.lastRead then [pushAt d.ai (d.ai.lastRead - value)] else []

/-- The call in `ai_end_of_dma_event`. -/
def endPush (d : Device) : List Push :=
  if d.ai.lastRead ≠ 0#32 then [pushAt d.ai d.ai.lastRead] else []

/-- The transfers accepted since the last reset, how many of them have ended, and the calls
made meanwhile. -/
structure Log where
  accepted : List AiDma
  ended : Nat
  pushed : List Push

def Log.empty : Log := ⟨[], 0, []⟩

def Log.delivery (log : Log) : Core.Delivery Nat :=
  ⟨log.accepted.map buffer, log.ended, log.pushed.flatMap Push.places⟩

/-- A write to the length register is accepted, unless the host divides by zero. -/
def Log.accept (cfg : Config) (d : Device) (log : Log) (value mask : Word) : Log :=
  let length := maskedWrite (d.ai.regs .len) value mask
  match (d.setAi .len length).getDmaDuration cfg with
  | none => log
  | some duration =>
    { log with accepted := log.accepted ++ [⟨d.ai.regs .dramAddr, length, duration⟩] }

/-- An interrupt check ends a transfer, or resets the machine. -/
def Log.poll (d : Device) (log : Log) : Log :=
  if d.interruptDue && d.resets then .empty
  else
    match d.dispatched with
    | some .aiInt => { log with ended := log.ended + 1, pushed := log.pushed ++ endPush d }
    | some .nmiInt => .empty
    | _ => log

/-- What a call adds to the log. -/
def Log.call (cfg : Config) (d : Device) (log : Log) : Call → Log
  | .access .readAiLen => { log with pushed := log.pushed ++ readPush cfg d }
  | .access (.writeAiRegs .len value mask) => log.accept cfg d value mask
  | .poll => log.poll d
  | _ => log

/-- What a step adds to the log. -/
def Log.step (cfg : Config) (s : Interpreter) (log : Log) : Action → Log
  | .call =>
    match s.todo with
    | [] => log
    | c :: _ => log.call cfg s.device c
  | _ => log

/-- The machine with its log. -/
structure Logged where
  machine : Interpreter
  log : Log

def Logged.step (cfg : Config) (s : Logged) (a : Action) : Logged :=
  ⟨s.machine.step cfg a, s.log.step cfg s.machine a⟩

def loggedRun (cfg : Config) (actions : List Action) : Logged :=
  actions.foldl (Logged.step cfg) ⟨poweredOn cfg, .empty⟩

theorem machine_loggedRun (cfg : Config) (actions : List Action) :
    (loggedRun cfg actions).machine = run cfg actions :=
  (List.foldl_hom Logged.machine fun _ _ => rfl).symm

def lengthWritten (d : Device) : Call → Option Word
  | .access (.writeAiRegs .len value mask) => some (maskedWrite (d.ai.regs .len) value mask)
  | _ => none

def readsLength : Call → Bool
  | .access .readAiLen => true
  | _ => false

def calls (s : Interpreter) : Action → Option Call
  | .call => s.todo.head?
  | _ => none

def WritesWhileNotFull (s : Interpreter) (a : Action) : Prop :=
  ∀ c ∈ calls s a, (lengthWritten s.device c).isSome →
    s.device.ai.regs .status &&& aiStatusFull = 0#32

/-- The bytes that are left of a transfer by the time until its event, where the event lies
ahead of Count as a number. -/
def bytesByTime (next count : Word) (dma : AiDma) : Nat :=
  (next.toNat - count.toNat) * dma.length.toNat / dma.duration.toNat / 8 * 8 % 2 ^ 32

/-- The length is read after everything was handed on before the end, or while a transfer runs of
which, by the time until its event, no more is left than by `last_read`. -/
def ReadsOnward (cfg : Config) (d : Device) : Prop :=
  if d.ai.regs .status &&& aiStatusBusy = 0#32 then d.ai.lastRead = 0#32
  else
    bytesByTime (d.interrupts.getEvent .aiInt) (d.cp0UpdateCount cfg).count d.ai.fifo0 ≤
      d.ai.lastRead.toNat

/-- Reads of the length go onward, and buffers that are not empty start at words. -/
def HandsOnward (cfg : Config) (s : Interpreter) (a : Action) : Prop :=
  ∀ c ∈ calls s a, (readsLength c = true → ReadsOnward cfg s.device) ∧
    (lengthWritten s.device c = none ∨ lengthWritten s.device c = some 0#32 ∨
      4 ∣ (s.device.ai.regs .dramAddr).toNat)

instance (s : Interpreter) (a : Action) : Decidable (WritesWhileNotFull s a) :=
  inferInstanceAs (Decidable (∀ c ∈ calls s a, (lengthWritten s.device c).isSome →
    s.device.ai.regs .status &&& aiStatusFull = 0#32))

instance (cfg : Config) (d : Device) : Decidable (ReadsOnward cfg d) :=
  inferInstanceAs (Decidable (if d.ai.regs .status &&& aiStatusBusy = 0#32 then
    d.ai.lastRead = 0#32 else bytesByTime (d.interrupts.getEvent .aiInt)
      (d.cp0UpdateCount cfg).count d.ai.fifo0 ≤ d.ai.lastRead.toNat))

instance (cfg : Config) (s : Interpreter) (a : Action) : Decidable (HandsOnward cfg s a) :=
  inferInstanceAs (Decidable (∀ c ∈ calls s a, (readsLength c = true → ReadsOnward cfg s.device) ∧
    (lengthWritten s.device c = none ∨ lengthWritten s.device c = some 0#32 ∨
      4 ∣ (s.device.ai.regs .dramAddr).toNat)))

end ParallelN64.Ai
