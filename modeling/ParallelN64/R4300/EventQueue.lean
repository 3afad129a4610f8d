import ParallelN64.Core.Partition
import ParallelN64.Core.KeyedInsert

/-!
# The interrupt event queue

Events wait in a singly linked list whose nodes come from a pool of sixteen. The list is
searched with a half-range comparison around the Count register, a pseudo-event at count 0
marks the place where Count wraps, and the count of the first event is cached for the
interpreter, which compares only the cache.
-/

namespace ParallelN64.R4300

abbrev Word := BitVec 32

def namedCodes : List Word :=
  [0x001#32, 0x002#32, 0x004#32, 0x008#32, 0x010#32, 0x020#32, 0x040#32, 0x080#32, 0x100#32,
    0x200#32, 0x400#32, 0x800#32]

def queueTerminator : Word := 0xFFFFFFFF#32

/-- What a queued event is about. A loaded queue can hold types without a name. -/
inductive EventType where
  | viInt
  | compareInt
  | checkInt
  | siInt
  | piInt
  | specialInt
  | aiInt
  | spInt
  | dpInt
  | hw2Int
  | nmiInt
  | cartInt
  | unknown (code : {code : Word // code ∉ namedCodes ∧ code ≠ queueTerminator})
  deriving DecidableEq

/-- The integer stored for a type. -/
def EventType.code : EventType → Word
  | .viInt => 0x001#32
  | .compareInt => 0x002#32
  | .checkInt => 0x004#32
  | .siInt => 0x008#32
  | .piInt => 0x010#32
  | .specialInt => 0x020#32
  | .aiInt => 0x040#32
  | .spInt => 0x080#32
  | .dpInt => 0x100#32
  | .hw2Int => 0x200#32
  | .nmiInt => 0x400#32
  | .cartInt => 0x800#32
  | .unknown code => code.val

/-- The type stored as an integer; the terminator is none. -/
def EventType.ofCode (code : Word) : Option EventType :=
  if hterm : code = queueTerminator then none
  else if hnamed : code ∈ namedCodes then
    [.viInt, .compareInt, .checkInt, .siInt, .piInt, .specialInt, .aiInt, .spInt, .dpInt,
      .hw2Int, .nmiInt, .cartInt].find? fun type => type.code = code
  else some (.unknown ⟨code, hnamed, hterm⟩)

@[simp] theorem EventType.ofCode_code (type : EventType) : ofCode type.code = some type := by
  cases type with
  | unknown code =>
    have hterm : code.val ≠ queueTerminator := code.property.2
    have hnamed : code.val ∉ namedCodes := code.property.1
    simp [ofCode, EventType.code, hterm, hnamed]
  | _ => rfl

/-- One scheduled event: what happens, and at which value of Count. -/
structure InterruptEvent where
  type : EventType
  count : Word
  deriving DecidableEq

def poolCapacity : Nat := 16

abbrev Node := Fin poolCapacity

/-- The stack of free nodes from the pool's index on; what lies below it is never read. -/
structure Pool where
  stack : List Node

def Pool.allocNode (p : Pool) : Option (Node × Pool) :=
  match p.stack with
  | [] => none
  | node :: stack => some (node, ⟨stack⟩)

def Pool.freeNode (p : Pool) (node : Node) : Pool :=
  if p.stack.length = poolCapacity then p else ⟨node :: p.stack⟩

def clearPool : Pool := ⟨List.finRange poolCapacity⟩

/-- A list node that holds an event. The deadline is a ghost: where the clock stands when
the event comes due. -/
structure QueueNode where
  node : Node
  data : InterruptEvent
  deadline : Int
  deriving DecidableEq

/-- The pool and the list that starts at `first`. -/
structure InterruptQueue where
  pool : Pool
  first : List QueueNode

def clearQueue : InterruptQueue := ⟨clearPool, []⟩

/-- The globals of the interrupt code. The clock is a ghost: how far Count has run, not
counting what software wrote to it. -/
structure Interrupts where
  q : InterruptQueue
  specialDone : Bool
  nextInterrupt : Word
  clock : Int

def Interrupts.events (s : Interrupts) : List InterruptEvent := s.q.first.map QueueNode.data

/-- Whether the first event comes before the second one, seen from Count. -/
def beforeEvent (specialDone : Bool) (count evt1 evt2 : Word) (type2 : EventType) : Bool :=
  if evt1 - count < 0x80000000#32 then
    if evt2 - count < 0x80000000#32 then
      decide (evt1 - count < evt2 - count)
    else if count - evt2 < 0x10000000#32 then
      match type2 with
      | .specialInt => specialDone
      | _ => false
    else true
  else false

/-- The event goes behind the nodes that already have its count. -/
def skipSameCount (event : QueueNode) : List QueueNode → List QueueNode
  | [] => [event]
  | e :: rest =>
    if e.data.count = event.data.count then e :: skipSameCount event rest
    else event :: e :: rest

/-- The search along the list behind its first node. -/
def insertBehind (before : InterruptEvent → Bool) (special : Bool) (event : QueueNode) :
    List QueueNode → List QueueNode
  | [] => [event]
  | e :: rest =>
    if !before e.data || special then e :: insertBehind before special event rest
    else skipSameCount event (e :: rest)

/-- Where the clock stands when a new event comes due. A vertical interrupt may be
scheduled in the past. -/
def deadlineOf (clock : Int) (count : Word) (event : InterruptEvent) : Int :=
  match event.type with
  | .viInt => clock + (event.count - count).toInt
  | _ => clock + (event.count - count).toNat

/-- `add_interrupt_event_count`, with the Count register as the first argument. -/
def Interrupts.addInterruptEventCount (s : Interrupts) (count : Word) (type : EventType)
    (evtCount : Word) : Interrupts :=
  let specialDone := if 0x80000000#32 < count then false else s.specialDone
  match s.q.pool.allocNode with
  | none => { s with specialDone }
  | some (node, pool) =>
    let data : InterruptEvent := ⟨type, evtCount⟩
    let event : QueueNode := ⟨node, data, deadlineOf s.clock count data⟩
    let before := fun e : InterruptEvent => beforeEvent specialDone count evtCount e.count e.type
    let special := decide (type = .specialInt)
    match s.q.first with
    | [] => { s with q := ⟨pool, [event]⟩, specialDone, nextInterrupt := evtCount }
    | e :: rest =>
      if before e.data && !special then
        { s with q := ⟨pool, event :: e :: rest⟩, specialDone, nextInterrupt := evtCount }
      else { s with q := ⟨pool, e :: insertBehind before special event rest⟩, specialDone }

/-- `add_interrupt_event`: the event comes due after a delay. -/
def Interrupts.addInterruptEvent (s : Interrupts) (count : Word) (type : EventType)
    (delay : Word) : Interrupts :=
  s.addInterruptEventCount count type (count + delay)

/-- What the cache holds for a list: the first count, or 0 if that lies behind the wrap. -/
def cachedCount (count : Word) : List QueueNode → Word
  | [] => 0#32
  | e :: _ =>
    if count < e.data.count ∨ count - e.data.count < 0x80000000#32 then e.data.count else 0#32

/-- `remove_interrupt_event`: the first event leaves the queue. -/
def Interrupts.removeInterruptEvent (s : Interrupts) (count : Word) : Interrupts :=
  match s.q.first with
  | [] => s
  | e :: rest =>
    { s with q := ⟨s.q.pool.freeNode e.node, rest⟩, nextInterrupt := cachedCount count rest }

/-- `get_event`: the count of the first event of a type, or 0. -/
def Interrupts.getEvent (s : Interrupts) (type : EventType) : Word :=
  match s.q.first.find? fun e => e.data.type = type with
  | none => 0#32
  | some e => e.data.count

/-- `remove_event`: the first event of a type leaves the queue; the cache stays. -/
def Interrupts.removeEvent (s : Interrupts) (type : EventType) : Interrupts :=
  match s.q.first.find? fun e => e.data.type = type with
  | none => s
  | some e =>
    { s with q := ⟨s.q.pool.freeNode e.node, s.q.first.eraseP fun e => e.data.type = type⟩ }

/-- `translate_event_queue`: the queue before Count is moved to a new base. -/
def Interrupts.translateEventQueue (s : Interrupts) (count compare base : Word) : Interrupts :=
  let s := (s.removeEvent .compareInt).removeEvent .specialInt
  let moved := s.q.first.map fun e =>
    { e with data := { e.data with count := (e.data.count - count) + base } }
  let s := { s with q := ⟨s.q.pool, moved⟩ }
  (s.addInterruptEventCount count .compareInt compare).addInterruptEventCount count .specialInt 0#32

/-- `init_interrupt`. -/
def Interrupts.initInterrupt (s : Interrupts) (count : Word) : Interrupts :=
  { s with q := clearQueue, specialDone := true }.addInterruptEventCount count .specialInt 0#32

/-- The part of `check_interrupt` that puts a CHECK_INT in front, due at once. -/
def Interrupts.pushCheckInt (s : Interrupts) (count : Word) : Interrupts :=
  match s.q.pool.allocNode with
  | none => s
  | some (node, pool) =>
    { s with q := ⟨pool, ⟨node, ⟨.checkInt, count⟩, s.clock⟩ :: s.q.first⟩, nextInterrupt := count }

theorem beforeEvent_self (specialDone : Bool) (count evt : Word) (type : EventType) :
    beforeEvent specialDone count evt evt type = false := by
  unfold beforeEvent
  split
  · exact decide_eq_false (BitVec.lt_irrefl _)
  · rfl

def QueueNode.goesBefore (specialDone : Bool) (count : Word) (event e : QueueNode) : Bool :=
  beforeEvent specialDone count event.data.count e.data.count e.data.type &&
    !decide (event.data.type = .specialInt)

theorem insertBehind_eq (specialDone : Bool) (count : Word) (event : QueueNode)
    (l : List QueueNode) :
    insertBehind (fun e => beforeEvent specialDone count event.data.count e.count e.type)
        (decide (event.data.type = .specialInt)) event l =
      Core.insertBefore (event.goesBefore specialDone count) event l := by
  induction l with
  | nil => rfl
  | cons e rest ih =>
    rw [insertBehind, Core.insertBefore, QueueNode.goesBefore, ← ih]
    cases hbefore : beforeEvent specialDone count event.data.count e.data.count e.data.type with
    | false => simp
    | true =>
      have hcount : e.data.count ≠ event.data.count := fun heq => by
        rw [heq, beforeEvent_self] at hbefore
        exact Bool.false_ne_true hbefore
      cases hspecial : decide (event.data.type = .specialInt) with
      | false => simp [skipSameCount, hcount]
      | true => simp

def Interrupts.doneAfter (s : Interrupts) (count : Word) : Bool :=
  if 0x80000000#32 < count then false else s.specialDone

def Interrupts.newNode (s : Interrupts) (count : Word) (data : InterruptEvent) (node : Node) :
    QueueNode := ⟨node, data, deadlineOf s.clock count data⟩

/-- The cache after an event is added: it follows an event that goes to the front. -/
def Interrupts.cacheAfter (s : Interrupts) (count : Word) (event : QueueNode) : Word :=
  match s.q.first with
  | [] => event.data.count
  | e :: _ =>
    if event.goesBefore (s.doneAfter count) count e then event.data.count else s.nextInterrupt

theorem Interrupts.addInterruptEventCount_of_none {s : Interrupts}
    (halloc : s.q.pool.allocNode = none) (count : Word) (type : EventType) (evtCount : Word) :
    s.addInterruptEventCount count type evtCount =
      { s with specialDone := s.doneAfter count } := by
  rw [addInterruptEventCount, halloc]
  rfl

theorem Interrupts.addInterruptEventCount_of_some {s : Interrupts} {node : Node} {pool : Pool}
    (halloc : s.q.pool.allocNode = some (node, pool)) (count : Word) (type : EventType)
    (evtCount : Word) :
    s.addInterruptEventCount count type evtCount =
      { s with
        q := ⟨pool, Core.insertBefore
          ((s.newNode count ⟨type, evtCount⟩ node).goesBefore (s.doneAfter count) count)
          (s.newNode count ⟨type, evtCount⟩ node) s.q.first⟩
        specialDone := s.doneAfter count
        nextInterrupt := s.cacheAfter count (s.newNode count ⟨type, evtCount⟩ node) } := by
  rw [addInterruptEventCount, halloc, cacheAfter]
  cases s.q.first with
  | nil => rfl
  | cons e rest =>
    dsimp only
    cases hbefore : (s.newNode count ⟨type, evtCount⟩ node).goesBefore (s.doneAfter count) count e with
    | true =>
      rw [Core.insertBefore_cons_of_pos hbefore]
      exact if_pos hbefore
    | false =>
      rw [Core.insertBefore_cons_of_neg hbefore, ← insertBehind_eq]
      exact if_neg (Bool.not_eq_true _ ▸ hbefore)

theorem Interrupts.head_addInterruptEventCount {s : Interrupts} {node : Node} {pool : Pool}
    (halloc : s.q.pool.allocNode = some (node, pool)) {count : Word} {type : EventType}
    {evtCount : Word} {e : QueueNode}
    (he : e ∈ (s.addInterruptEventCount count type evtCount).q.first.head?) :
    (e = s.newNode count ⟨type, evtCount⟩ node ∧
        (s.addInterruptEventCount count type evtCount).nextInterrupt = evtCount) ∨
      (e ∈ s.q.first.head? ∧
        (s.addInterruptEventCount count type evtCount).nextInterrupt = s.nextInterrupt ∧
        (s.newNode count ⟨type, evtCount⟩ node).goesBefore (s.doneAfter count) count e =
          false) := by
  rw [addInterruptEventCount_of_some halloc] at he ⊢
  rw [cacheAfter]
  cases hfirst : s.q.first with
  | nil =>
    refine Or.inl ⟨?_, rfl⟩
    simpa [hfirst, eq_comm] using he
  | cons e₀ rest =>
    cases hbefore : (s.newNode count ⟨type, evtCount⟩ node).goesBefore (s.doneAfter count) count
      e₀ with
    | true =>
      refine Or.inl ⟨?_, if_pos hbefore⟩
      simpa [hfirst, Core.insertBefore, hbefore, eq_comm] using he
    | false =>
      obtain rfl : e = e₀ := by
        simpa [hfirst, Core.insertBefore, hbefore, eq_comm] using he
      exact Or.inr ⟨rfl, if_neg (by simp [hbefore]), hbefore⟩

@[simp] theorem Interrupts.clock_addInterruptEventCount (s : Interrupts) (count : Word)
    (type : EventType) (evtCount : Word) :
    (s.addInterruptEventCount count type evtCount).clock = s.clock := by
  cases halloc : s.q.pool.allocNode with
  | none => rw [addInterruptEventCount_of_none halloc]
  | some alloc => rw [addInterruptEventCount_of_some halloc]

@[simp] theorem Interrupts.clock_removeInterruptEvent (s : Interrupts) (count : Word) :
    (s.removeInterruptEvent count).clock = s.clock := by
  rw [removeInterruptEvent]
  split
  · rfl
  · rfl

/-- The words written by `save_eventqueue_infos`. -/
def Interrupts.saveEventqueueInfos (s : Interrupts) : List Word :=
  s.events.flatMap (fun e => [e.type.code, e.count]) ++ [queueTerminator]

/-- The loop of `load_eventqueue_infos`; it fails where it would leave the buffer. -/
def Interrupts.loadEvents (s : Interrupts) (count : Word) : List Word → Option Interrupts
  | [] => none
  | code :: rest =>
    match EventType.ofCode code with
    | none => some s
    | some type =>
      match rest with
      | [] => none
      | evtCount :: rest => loadEvents (s.addInterruptEventCount count type evtCount) count rest

/-- `load_eventqueue_infos`. -/
def Interrupts.loadEventqueueInfos (s : Interrupts) (count : Word) (buf : List Word) :
    Option Interrupts :=
  loadEvents { s with q := clearQueue } count buf

end ParallelN64.R4300
