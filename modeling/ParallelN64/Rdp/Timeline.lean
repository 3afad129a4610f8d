import ParallelN64.Rdp.CommandRing
import ParallelN64.Rdp.Coherency

/-!
# The timeline

The main thread enqueues commands in the command ring, the thread of the ring hands them to the
renderer, and the renderer submits work to the worker thread. A signal travels the same way: it is a
command of its own, behind which the renderer flushes and submits everything and then pushes an
operation with the value of the signal. The worker publishes the value once it has performed that
operation, and a thread that waits for the value goes on.

The renderer is used by one thread at a time: by the thread of the ring while it processes a
command, and otherwise, under a lock, by that thread when it is idle or by the main thread for a
scanout.
-/

namespace ParallelN64.Rdp

abbrev metaSignalTimeline : UInt32 := 1
abbrev metaFlush : UInt32 := 2
abbrev metaIdle : UInt32 := 3
abbrev metaSetQuirks : UInt32 := 4

def commandOp (words : List UInt32) : UInt32 := (words.headD 0 >>> 24) &&& 63

def commandTimelineValue (words : List UInt32) : UInt64 :=
  (words.getD 1 0).toUInt64 ||| (words.getD 2 0).toUInt64 <<< 32

def signalCommand (value : UInt64) : List UInt32 :=
  [metaSignalTimeline <<< 24, value.toUInt32, (value >>> 32).toUInt32]

def flushCommand : List UInt32 := [metaFlush <<< 24]

def setQuirksCommand (quirks : UInt32) : List UInt32 := [metaSetQuirks <<< 24, quirks]

/-- Commands that the main thread enqueues besides signals: those of the game, flushes and
quirks. -/
def MainCommand (words : List UInt32) : Prop :=
  8 ≤ commandOp words ∨ words = flushCommand ∨ ∃ quirks, words = setQuirksCommand quirks

/-- What the renderer is to do. -/
inductive RendererAction
  /-- Put spans or an upload in the batch. -/
  | record
  | call (c : CoherencyCall)
  /-- Push the value of a signal to the worker. -/
  | signal (value : UInt64)

def flushAndSignal (f : Flush) : List RendererAction :=
  [.call (.flushQueues f), .call .submitToQueue]

/-- What a command of the game makes the renderer do. -/
inductive DrawAction
  | record
  | loadTile (r : PageRange)
  | flushQueues (f : Flush)
  | flushAndSignal (f : Flush)

def DrawAction.actions : DrawAction → List RendererAction
  | .record => [.record]
  | .loadTile r => [.call (.loadTile r)]
  | .flushQueues f => [.call (.flushQueues f)]
  | .flushAndSignal f => Rdp.flushAndSignal f

def notifyIdleCommandThread (f : Flush) (enough : Bool) : List RendererAction :=
  if enough then flushAndSignal f else []

/-- Process a command. The flush, whether enough is pending and the draws are what the renderer
makes of the command. -/
def enqueueCommandDirect (words : List UInt32) (f : Flush) (enough : Bool)
    (draws : List DrawAction) : List RendererAction :=
  if commandOp words = metaSignalTimeline then
    flushAndSignal f ++ [.signal (commandTimelineValue words)]
  else if commandOp words = metaFlush then flushAndSignal f
  else if commandOp words = metaIdle then notifyIdleCommandThread f enough
  else if commandOp words = metaSetQuirks then []
  else draws.flatMap DrawAction.actions

def CoherencyOperation.isSentinel (op : CoherencyOperation) : Bool :=
  !op.fence && op.timelineValue == 0

/-- Who uses the renderer. -/
inductive RendererUser
  | command
  | idle
  | scanout
  deriving DecidableEq

/-- An operation that was pushed to the worker, and the commands whose draws it was submitted
for. -/
structure PushedOperation where
  operation : CoherencyOperation
  commands : List Nat

/-- The main thread, the ring and its thread, the renderer, and the worker. The fields from
`signals` on are ghosts; commands are numbered as they were enqueued. -/
structure TimelineState where
  isHostCoherent : Bool
  ring : RingRun
  coherency : CoherencyState
  timelineValue : UInt64 := 0
  user : Option RendererUser := none
  actions : List RendererAction := []
  /-- The operation that the worker has taken and is performing. -/
  work : Option CoherencyOperation := none
  workerStopped : Bool := false
  threadTimelineValue : UInt64 := 0
  /-- The values signalled, each with the number of commands enqueued before. -/
  signals : List (UInt64 × Nat) := []
  processed : List (List UInt32) := []
  /-- Commands that put something in a batch. -/
  drawn : List Nat := []
  /-- Commands in the current batch. -/
  batch : List Nat := []
  /-- Commands whose draws are recorded and not submitted. -/
  recorded : List Nat := []
  /-- Commands whose draws the current call submits. -/
  carried : List Nat := []
  pushed : List PushedOperation := []
  /-- Number of pushed operations that were performed. -/
  performed : Nat := 0

namespace TimelineState

def unperformed (s : TimelineState) : List PushedOperation := s.pushed.drop s.performed

def waitReturns (s : TimelineState) (index : UInt64) : Prop := s.threadTimelineValue ≥ index

def enqueueCommand (s : TimelineState) (words : List UInt32) : TimelineState :=
  { s with ring := s.ring.enqueueCommand words }

/-- Signal the next value. -/
def signalTimeline (s : TimelineState) : TimelineState :=
  { s with
    timelineValue := s.timelineValue + 1
    signals := s.signals ++ [(s.timelineValue + 1, s.ring.enqueued.length)]
    ring := s.ring.enqueueCommand (signalCommand (s.timelineValue + 1)) }

def scanout (s : TimelineState) (f : Flush) (r : PageRange) : TimelineState :=
  { s with
    user := some .scanout
    actions := flushAndSignal f ++ [.call (.resolveCoherencyExternal r)] }

/-- Read a command from the ring; an empty one stops the thread. -/
def receiveCommand (s : TimelineState) (f : Flush) (enough : Bool) (draws : List DrawAction) :
    TimelineState :=
  match s.ring.readCommand.consumer with
  | .holding words =>
    { s with
      ring := s.ring.readCommand
      user := some .command
      actions := enqueueCommandDirect words f enough draws }
  | .waiting | .stopped => { s with ring := s.ring.readCommand }

def notifyIdle (s : TimelineState) (f : Flush) (enough : Bool) : TimelineState :=
  { s with user := some .idle, actions := notifyIdleCommandThread f enough }

/-- A call, as the batch has it. -/
def callOf (s : TimelineState) : CoherencyCall → CoherencyCall
  | .flushQueues f => .flushQueues { f with isEmpty := s.batch.isEmpty }
  | .loadTile r => .loadTile r
  | .submitToQueue => .submitToQueue
  | .resolveCoherencyExternal r => .resolveCoherencyExternal r

def batchAfter (s : TimelineState) : CoherencyCall → List Nat
  | .flushQueues _ => []
  | .loadTile _ | .submitToQueue | .resolveCoherencyExternal _ => s.batch

def recordedBy (s : TimelineState) : CoherencyCall → List Nat
  | .flushQueues _ => s.recorded ++ s.batch
  | .loadTile _ | .submitToQueue | .resolveCoherencyExternal _ => s.recorded

def stepsOf (s : TimelineState) (c : CoherencyCall) : List RendererStep :=
  let steps := (s.coherency.beginCall (s.callOf c)).todo
  if s.isHostCoherent then steps.filter (· = .enqueueFenceWait) else steps

/-- Begin a call. -/
def beginCall (s : TimelineState) (c : CoherencyCall) : TimelineState :=
  { s with
    coherency := { s.coherency.beginCall (s.callOf c) with todo := s.stepsOf c }
    batch := s.batchAfter c
    carried := s.recordedBy c
    recorded := if .enqueueFenceWait ∈ s.stepsOf c then [] else s.recordedBy c }

def pushSignal (s : TimelineState) (value : UInt64) : TimelineState :=
  { s with
    coherency := s.coherency.enqueue { timelineValue := value }
    pushed := s.pushed ++ [{ operation := { timelineValue := value }, commands := [] }] }

/-- Begin the next action. -/
def beginAction (s : TimelineState) : RendererAction → TimelineState
  | .record =>
    { s with
      batch := s.batch ++ [s.ring.received.length - 1]
      drawn := s.drawn ++ [s.ring.received.length - 1] }
  | .call c => s.beginCall c
  | .signal value => s.pushSignal value

def pushedNext (s : TimelineState) : List CoherencyOperation :=
  s.coherency.rendererStep.workQueue.drop s.coherency.workQueue.length

/-- The next step of a call. -/
def rendererStep (s : TimelineState) : TimelineState :=
  { s with
    coherency := s.coherency.rendererStep
    pushed := s.pushed ++
      s.pushedNext.map fun op => { operation := op, commands := s.carried } }

/-- Leave the renderer; a command that was processed is completed. -/
def finish (s : TimelineState) : TimelineState :=
  match s.user, s.ring.consumer with
  | some .command, .holding words =>
    { s with
      user := none
      ring := s.ring.publishCompleted
      processed := s.processed ++ [words] }
  | _, _ => { s with user := none }

/-- Publish the value of an operation that was performed. -/
def notifyWork (s : TimelineState) (op : CoherencyOperation) : TimelineState :=
  { s with
    work := none
    performed := s.performed + 1
    threadTimelineValue :=
      if op.timelineValue ≠ 0 then op.timelineValue else s.threadTimelineValue }

/-- The next step of the worker: to take an operation, to copy a page, or to publish. -/
def workerStep (s : TimelineState) : TimelineState :=
  match s.work, s.coherency.workQueue with
  | some op, _ =>
    if s.coherency.performing.isEmpty then s.notifyWork op
    else { s with coherency := s.coherency.workerStep }
  | none, [] => s
  | none, op :: _ =>
    if op.isSentinel then
      { s with coherency := s.coherency.workerStep, workerStopped := true }
    else { s with coherency := s.coherency.workerStep, work := some op }

end TimelineState

/-- A step of one of the threads, before the processor is destroyed. -/
inductive TimelineStep (s : TimelineState) : TimelineState → Prop where
  /-- The main thread waits for room and enqueues a command. -/
  | enqueueCommand (words : List UInt32) (hcommand : MainCommand words)
      (hlength : words.length < 2 ^ 32) (hmain : s.user ≠ some .scanout)
      (hroom : canEnqueueRingWords s.ring.ring.writeCount s.ring.ring.readCount s.ring.ring.size
        (UInt32.ofNat words.length)) :
      TimelineStep s (s.enqueueCommand words)
  /-- The main thread waits for room and signals. -/
  | signalTimeline (hmain : s.user ≠ some .scanout)
      (hroom : canEnqueueRingWords s.ring.ring.writeCount s.ring.ring.readCount s.ring.ring.size
        3) :
      TimelineStep s s.signalTimeline
  /-- The main thread has drained the ring and takes the lock for a scanout. -/
  | scanout (f : Flush) (r : PageRange) (huser : s.user = none)
      (hdrained : s.ring.ring.writeCount = s.ring.ring.completedCount) :
      TimelineStep s (s.scanout f r)
  /-- The thread of the ring waits for a command and reads it. -/
  | receiveCommand (f : Flush) (enough : Bool) (draws : List DrawAction) (huser : s.user = none)
      (hwaiting : s.ring.consumer = .waiting)
      (hunread : s.ring.ring.writeCount > s.ring.ring.readCount) :
      TimelineStep s (s.receiveCommand f enough draws)
  /-- The wait of the thread of the ring has timed out and it takes the lock. -/
  | notifyIdle (f : Flush) (enough : Bool) (huser : s.user = none)
      (hwaiting : s.ring.consumer = .waiting) :
      TimelineStep s (s.notifyIdle f enough)
  /-- The user of the renderer begins its next action. -/
  | beginAction (action : RendererAction) (rest : List RendererAction)
      (hactions : s.actions = action :: rest) (htodo : s.coherency.todo = []) :
      TimelineStep s ({ s with actions := rest }.beginAction action)
  /-- The user of the renderer goes on with its call. -/
  | rendererStep (htodo : s.coherency.todo ≠ []) : TimelineStep s s.rendererStep
  /-- The user of the renderer is done. -/
  | finish (huser : s.user ≠ none) (hactions : s.actions = []) (htodo : s.coherency.todo = []) :
      TimelineStep s s.finish
  /-- The worker goes on. -/
  | worker (hrunning : s.workerStopped = false) : TimelineStep s s.workerStep

abbrev commandRingSize : UInt64 := 4 * 1024

/-- The state after construction. -/
def TimelineState.start (isHostCoherent : Bool) (logPages : Nat) (hostAllocation : Bool) :
    TimelineState where
  isHostCoherent := isHostCoherent
  ring := { ring := { ring := fun _ => 0, size := commandRingSize } }
  coherency := { logPages := logPages, hostAllocation := hostAllocation }

/-- The states that the threads reach. -/
inductive TimelineReachable (isHostCoherent : Bool) (logPages : Nat) (hostAllocation : Bool) :
    TimelineState → Prop where
  | start : TimelineReachable isHostCoherent logPages hostAllocation
      (.start isHostCoherent logPages hostAllocation)
  | step {s s' : TimelineState}
      (hreachable : TimelineReachable isHostCoherent logPages hostAllocation s)
      (hstep : TimelineStep s s') : TimelineReachable isHostCoherent logPages hostAllocation s'

end ParallelN64.Rdp
