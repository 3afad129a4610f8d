import Mathlib.Logic.Relation
import ParallelN64.R4300.Interpreter

/-!
# The schedule of a machine

The schedule is what decides when events run: the queue, Count and Compare, the program
counter that Count follows, a deferred jump, the audio status and the video deadline. Every
call of the interpreter changes it in one of a few ways, which are collected here once for
all invariants of the queue.
-/

namespace ParallelN64.R4300

/-- The part of the machine that decides when events run. -/
@[ext]
structure Schedule where
  interrupts : Interrupts
  count : Word
  compare : Word
  pc : Word
  lastAddr : Word
  skipJump : Word
  aiStatus : Word
  viDelay : Word
  nextVi : Word

/-- The schedule of a machine. -/
def Device.schedule (d : Device) : Schedule where
  interrupts := d.interrupts
  count := d.cp0 .count
  compare := d.cp0 .compare
  pc := d.pc
  lastAddr := d.lastAddr
  skipJump := d.skipJump
  aiStatus := d.ai.regs .status
  viDelay := d.vi.delay
  nextVi := d.vi.nextVi

namespace Schedule

variable (cfg : Config) (s : Schedule)

def advance (amount : Word) : Schedule :=
  { s with
    count := s.count + amount
    interrupts := { s.interrupts with clock := s.interrupts.clock + amount.toNat } }

def lag : Word := ((s.pc - s.lastAddr) >>> 2) * cfg.countPerOp

def updateCount : Schedule := { s.advance (s.lag cfg) with lastAddr := s.pc }

def goTo (address : Word) : Schedule := { s with pc := address, lastAddr := address }

def defer : Schedule :=
  { s with skipJump := s.pc, interrupts := { s.interrupts with nextInterrupt := 0#32 } }

def pushCheckInt : Schedule := { s with interrupts := s.interrupts.pushCheckInt s.count }

def addEvent (type : EventType) (count : Word) : Schedule :=
  { s with interrupts := s.interrupts.addInterruptEventCount s.count type count }

def removeFirst : Schedule := { s with interrupts := s.interrupts.removeInterruptEvent s.count }

def scheduleVi (delay : Word) : Schedule :=
  { s with viDelay := delay, nextVi := s.nextVi + delay }.addEvent .viInt (s.nextVi + delay)

def rotateSpecial : Schedule :=
  { s with interrupts := { s.interrupts with specialDone := true } }.removeFirst.addEvent
    .specialInt 0#32

/-- The timer event is removed and added again, seen from the next instruction. -/
def rearmCompare : Schedule :=
  { s with interrupts :=
    { ((s.removeFirst.advance cfg.countPerOp).addEvent .compareInt s.compare).interrupts with
      clock := s.interrupts.clock } }

def startAudio (duration : Word) : Schedule :=
  (s.updateCount cfg).addEvent .aiInt ((s.updateCount cfg).count + duration)

def scheduleDp : Schedule :=
  (s.updateCount cfg).addEvent .dpInt ((s.updateCount cfg).count + 4000#32)

def writeCompare (value : Word) : Schedule :=
  { { s with interrupts := s.interrupts.removeEvent .compareInt }.addEvent .compareInt value with
    compare := value }

def writeCount (value : Word) : Schedule :=
  { s with
    interrupts := s.interrupts.translateEventQueue s.count s.compare value
    count := value }

def freshInterrupts (clock : Int) (count : Word) : Interrupts :=
  (Interrupts.initInterrupt ⟨clearQueue, true, 0#32, clock⟩ count).addInterruptEventCount count
    .viInt 5000#32

/-- A reset leaves the wrap mark and the first vertical interrupt. -/
def restart (count compare : Word) : Schedule where
  interrupts := freshInterrupts s.interrupts.clock count
  count := count
  compare := compare
  pc := 0xA4000040#32
  lastAddr := 0xA4000040#32
  skipJump := s.skipJump
  aiStatus := 0#32
  viDelay := 5000#32
  nextVi := 5000#32

def resetSoft : Schedule :=
  (s.addEvent .hw2Int (s.count + 0#32)).addEvent .nmiInt (s.count + 50000000#32)

/-- One of the small changes that exceptions and checks are made of. -/
inductive Move : Schedule → Schedule → Prop
  | updateCount (s : Schedule) : Move s (s.updateCount cfg)
  | goTo (s : Schedule) (address : Word) : Move s (s.goTo address)
  | defer (s : Schedule) (h : s.pc ≠ 0#32) : Move s s.defer
  | pushCheckInt (s : Schedule) : Move s s.pushCheckInt

abbrev Moves : Schedule → Schedule → Prop := Relation.ReflTransGen (Move cfg)

variable {cfg s}

theorem Moves.keeps {P : Schedule → Prop} (hkeep : ∀ s s', Move cfg s s' → P s → P s')
    {s s' : Schedule} (h : Moves cfg s s') (hs : P s) : P s' := by
  induction h with
  | refl => exact hs
  | tail _ hmove ih => exact hkeep _ _ hmove ih

theorem Moves.of_move {s s' : Schedule} (h : Move cfg s s') : Moves cfg s s' :=
  Relation.ReflTransGen.single h

/-- The first event is dispatched. -/
structure Fires (s : Schedule) (event : QueueNode) (rest : List QueueNode) : Prop where
  due : s.interrupts.nextInterrupt ≤ s.count
  noJump : s.skipJump = 0#32
  first : s.interrupts.q.first = event :: rest

def plainTypes (type : EventType) : Prop :=
  type ≠ .specialInt ∧ type ≠ .viInt ∧ type ≠ .compareInt ∧ type ≠ .aiInt ∧ type ≠ .nmiInt

variable (cfg)

/-- What an interrupt check does to the schedule. -/
inductive Polled : Schedule → Schedule → Prop
  | early {s : Schedule} (h : ¬s.interrupts.nextInterrupt ≤ s.count) : Polled s s
  | resetHard {s : Schedule} : Polled s (s.restart 0x5000#32 0#32)
  | finishJump {s : Schedule} (hdue : s.interrupts.nextInterrupt ≤ s.count)
      (hjump : s.skipJump ≠ 0#32) :
      Polled s
        { s with
          interrupts :=
            { s.interrupts with nextInterrupt := cachedCount s.count s.interrupts.q.first }
          pc := s.skipJump
          lastAddr := s.skipJump
          skipJump := 0#32 }
  | empty {s : Schedule} (h : s.interrupts.q.first = []) : Polled s s
  | special {s : Schedule} {event : QueueNode} {rest : List QueueNode} (h : Fires s event rest)
      (htype : event.data.type = .specialInt) (hlate : 0x10000000#32 < s.count) : Polled s s
  | rotate {s : Schedule} {event : QueueNode} {rest : List QueueNode} (h : Fires s event rest)
      (htype : event.data.type = .specialInt) (hlate : ¬0x10000000#32 < s.count) :
      Polled s s.rotateSpecial
  | vi {s : Schedule} {event : QueueNode} {rest : List QueueNode} (h : Fires s event rest)
      (htype : event.data.type = .viInt) (delay : Word) :
      Polled s (s.removeFirst.scheduleVi delay)
  | compare {s : Schedule} {event : QueueNode} {rest : List QueueNode} (h : Fires s event rest)
      (htype : event.data.type = .compareInt) : Polled s (s.rearmCompare cfg)
  | aiNext {s : Schedule} {event : QueueNode} {rest : List QueueNode} (h : Fires s event rest)
      (htype : event.data.type = .aiInt) (duration : Word) :
      Polled s ({ s.removeFirst with aiStatus := s.aiStatus &&& ~~~aiStatusFull }.startAudio cfg
        duration)
  | aiStop {s : Schedule} {event : QueueNode} {rest : List QueueNode} (h : Fires s event rest)
      (htype : event.data.type = .aiInt) :
      Polled s { s.removeFirst with aiStatus := s.aiStatus &&& ~~~aiStatusBusy }
  | nmi {s : Schedule} {event : QueueNode} {rest : List QueueNode} (h : Fires s event rest)
      (htype : event.data.type = .nmiInt) : Polled s (s.restart 0#32 s.compare)
  | plain {s : Schedule} {event : QueueNode} {rest : List QueueNode} (h : Fires s event rest)
      (htype : plainTypes event.data.type) : Polled s s.removeFirst

/-- What an access to the audio interface does to the schedule. -/
inductive Audio : Schedule → Schedule → Prop
  | moves {s s' : Schedule} (h : Moves cfg s s') : Audio s s'
  | queue {s : Schedule} (hbusy : s.aiStatus &&& aiStatusBusy ≠ 0#32) :
      Audio s { s with aiStatus := s.aiStatus ||| aiStatusFull }
  | start {s : Schedule} (hbusy : s.aiStatus &&& aiStatusBusy = 0#32) (duration : Word) :
      Audio s ({ s with aiStatus := s.aiStatus ||| aiStatusBusy }.startAudio cfg duration)

/-- What a call does to the schedule. -/
def Effect (s s' : Schedule) : Call → Prop
  | .addToPc bytes => s' = { s with pc := s.pc + bytes }
  | .endJump j => s' = s ∨ s' = { s with pc := j.target }
  | .returnFromException => ∃ address, s' = { s with pc := address }
  | .setLastAddr => s' = { s with lastAddr := s.pc }
  | .idle _ =>
    s' = s ∨ 3 < (s.interrupts.nextInterrupt - s.count).toInt ∧
      s' = s.advance ((s.interrupts.nextInterrupt - s.count) &&& 0xFFFFFFFC#32)
  | .addEvent transfer delay => s' = s.addEvent transfer.type (s.count + delay)
  | .doSpTask _ => s' = s ∨ s' = s.scheduleDp cfg
  | .writeCount value => s' = s.writeCount value
  | .writeCompare value => s' = s.writeCompare value
  | .poll => Polled cfg s s'
  | .access (.writeAiRegs _ _ _) => Audio cfg s s'
  | _ => Moves cfg s s'

end Schedule

end ParallelN64.R4300
