import Mathlib.Data.UInt
import Mathlib.Logic.Function.Basic
import Mathlib.Data.List.Range

/-!
# Coherency of memory pages

Without memory that host and GPU share, the renderer keeps for each page whether it is to be copied
from host memory before the next render pass, whether the GPU is about to write it, and how many
submitted operations will still write it back to host memory. It copies a page directly where the
GPU has no writes pending, and under the write mask elsewhere. A worker thread performs the
submitted operations in their order and counts the pages down.
-/

namespace ParallelN64.Rdp

/-- A copy of consecutive pages to host memory. -/
structure CoherencyCopy where
  counterBase : Nat
  counters : Nat

def CoherencyCopy.pages (copy : CoherencyCopy) : List Nat :=
  List.range' copy.counterBase copy.counters

/-- Work for the worker thread. -/
structure CoherencyOperation where
  fence : Bool := false
  timelineValue : UInt64 := 0
  copies : List CoherencyCopy := []

def CoherencyOperation.pages (op : CoherencyOperation) : List Nat :=
  op.copies.flatMap CoherencyCopy.pages

/-- Runs of consecutive pages in one word of 32 bits. -/
def bitRanges : List Nat → List CoherencyCopy
  | [] => []
  | page :: pages =>
    match bitRanges pages with
    | [] => [{ counterBase := page, counters := 1 }]
    | copy :: copies =>
      if copy.counterBase = page + 1 ∧ copy.counterBase / 32 = page / 32 then
        { counterBase := page, counters := copy.counters + 1 } :: copies
      else { counterBase := page, counters := 1 } :: copy :: copies

theorem flatMap_pages_bitRanges (pages : List Nat) :
    (bitRanges pages).flatMap CoherencyCopy.pages = pages := by
  induction pages with
  | nil => rfl
  | cons page pages ih =>
    rw [bitRanges]
    split
    next hnone =>
      rw [hnone] at ih
      rw [← ih]
      rfl
    next copy copies hsome =>
      rw [hsome, List.flatMap_cons] at ih
      split
      next hnext =>
        rw [List.flatMap_cons, ← ih, CoherencyCopy.pages, List.range'_succ, ← hnext.1]
        rfl
      next => rw [List.flatMap_cons, List.flatMap_cons, ih]; rfl

abbrev incoherentPageSize : UInt32 := 1024

/-- Bytes of memory that a call touches. -/
structure PageRange where
  baseAddr : UInt32 := 0
  byteCount : UInt32 := 0

def PageRange.startPage (r : PageRange) : Nat := (r.baseAddr / incoherentPageSize).toNat

def PageRange.endPage (r : PageRange) : Nat :=
  ((r.baseAddr + r.byteCount - 1) / incoherentPageSize + 1).toNat

/-- Pages from the first one until the last one, both in a memory of so many pages. -/
def PageRange.markedPages (r : PageRange) (numPages : Nat) : List Nat :=
  if r.byteCount = 0 then []
  else
    (List.range ((r.endPage % numPages + numPages - r.startPage % numPages) % numPages)).map
      fun i => (r.startPage % numPages + i) % numPages

def PageRange.lockedPages (r : PageRange) (numPages : Nat) : List Nat :=
  if r.byteCount = 0 then []
  else (List.range' r.startPage (r.endPage - r.startPage)).map fun page => page % numPages

/-- A step of the renderer that reads or writes a page. -/
inductive RendererStep
  | markPage (page : Nat)
  | lockPage (page : Nat)
  | copyPage (page : Nat)
  | countPage (page : Nat)
  | enqueueFenceWait
  | enqueueCopies
  deriving DecidableEq

def resolveCoherencyHostToGpu (numPages : Nat) : List RendererStep :=
  (List.range numPages).map .copyPage

def resolveCoherencyGpuToHost (numPages : Nat) : List RendererStep :=
  (List.range numPages).map .countPage

def markPagesForGpuRead (r : PageRange) (numPages : Nat) : List RendererStep :=
  (r.markedPages numPages).map .markPage

def lockPagesForGpuWrite (r : PageRange) (numPages : Nat) : List RendererStep :=
  (r.lockedPages numPages).map .lockPage

/-- What the renderer keeps about its submissions. -/
structure SubmitState where
  pendingRenderPasses : Nat := 0
  bufferInstance : Nat := 0
  syncIndicesNeedsFlush : Nat → Bool := fun _ => false
  cmd : Bool := false

abbrev numSyncStates : Nat := 32

abbrev maxPendingRenderPassesBeforeFlush : Nat := 8

/-- Submit the commands; after a render pass its pages are read back. -/
def SubmitState.submitToQueue (q : SubmitState) (numPages : Nat) :
    SubmitState × List RendererStep :=
  if q.cmd then
    ({ q with pendingRenderPasses := 0, syncIndicesNeedsFlush := fun _ => false, cmd := false },
      if q.pendingRenderPasses ≠ 0 then
        resolveCoherencyGpuToHost numPages ++ [.enqueueFenceWait, .enqueueCopies]
      else [])
  else
    ({ q with pendingRenderPasses := 0 },
      if q.pendingRenderPasses ≠ 0 then [.enqueueFenceWait] else [])

/-- Submit after eight render passes, or when a submission is due for another reason. -/
def SubmitState.maintainQueues (q : SubmitState) (numPages : Nat) (due : Bool) :
    SubmitState × List RendererStep :=
  if q.pendingRenderPasses ≥ maxPendingRenderPassesBeforeFlush || due then
    q.submitToQueue numPages
  else (q, [])

/-- Use the current buffer instance until the next submission. -/
def SubmitState.useInstance (q : SubmitState) : SubmitState :=
  { q with
    syncIndicesNeedsFlush := Function.update q.syncIndicesNeedsFlush q.bufferInstance true
    cmd := true }

/-- A flush: the framebuffers it draws to, whether there is nothing to draw, whether it draws
upscaled too, and whether submissions are due after its render passes. -/
structure Flush where
  color : PageRange := {}
  depth : PageRange := {}
  isEmpty : Bool := false
  upscaled : Bool := false
  dueUpscaled : Bool := false
  due : Bool := false

/-- Submit if the current buffer instance is still in use, then use it for a render pass. -/
def SubmitState.beginPass (q : SubmitState) (numPages : Nat) :
    SubmitState × List RendererStep :=
  let (q, steps) :=
    if q.syncIndicesNeedsFlush q.bufferInstance then q.submitToQueue numPages else (q, [])
  ({ q.useInstance with pendingRenderPasses := q.pendingRenderPasses + 1 }, steps)

/-- Draw upscaled too, where this is wanted. -/
def SubmitState.upscaledPass (q : SubmitState) (numPages : Nat) (f : Flush) :
    SubmitState × List RendererStep :=
  if f.upscaled then
    let (q, steps) := q.maintainQueues numPages f.dueUpscaled
    (q.useInstance, steps)
  else (q, [])

def SubmitState.beginNewContext (q : SubmitState) : SubmitState :=
  { q with bufferInstance := (q.bufferInstance + 1) % numSyncStates }

/-- Draw the batch. -/
def SubmitState.flushQueues (q : SubmitState) (numPages : Nat) (f : Flush) :
    SubmitState × List RendererStep :=
  if f.isEmpty then (q, [])
  else
    let (q, busy) := q.beginPass numPages
    let (q, upscaled) := q.upscaledPass numPages f
    let (q, last) := q.beginNewContext.maintainQueues numPages f.due
    (q, markPagesForGpuRead f.color numPages ++ markPagesForGpuRead f.depth numPages ++
      lockPagesForGpuWrite f.color numPages ++ lockPagesForGpuWrite f.depth numPages ++ busy ++
      resolveCoherencyHostToGpu numPages ++ upscaled ++ last)

/-- Calls that touch pages. -/
inductive CoherencyCall
  /-- A texture is loaded from memory. -/
  | loadTile (r : PageRange)
  | flushQueues (f : Flush)
  | submitToQueue
  | resolveCoherencyExternal (r : PageRange)

/-- The steps of a call. An external read follows a flush and a submission, so that no commands
are recorded. -/
def SubmitState.call (q : SubmitState) (numPages : Nat) :
    CoherencyCall → SubmitState × List RendererStep
  | .loadTile r => (q, markPagesForGpuRead r numPages)
  | .flushQueues f => q.flushQueues numPages f
  | .submitToQueue => q.submitToQueue numPages
  | .resolveCoherencyExternal r =>
    if q.cmd then (q, [])
    else (q, markPagesForGpuRead r numPages ++ resolveCoherencyHostToGpu numPages)

/-- A page that was overwritten from host memory, and what was pending for it. -/
structure DirectCopy where
  page : Nat
  pendingReadback : Bool
  /-- The readback bit when the call began that copied the page. -/
  pendingReadbackAtCall : Bool
  pendingWrites : UInt32

/-- The pages, what remains of a call of the renderer, and the work of the worker. The last three
fields are ghosts. -/
structure CoherencyState where
  logPages : Nat
  /-- Whether GPU memory is mapped. -/
  hostAllocation : Bool
  pageToDirectCopy : Nat → Bool := fun _ => false
  pageToMaskedCopy : Nat → Bool := fun _ => false
  pageToPendingReadback : Nat → Bool := fun _ => false
  pendingWritesForPage : Nat → UInt32 := fun _ => 0
  submit : SubmitState := {}
  todo : List RendererStep := []
  /-- Pages of the operation that the renderer is building. -/
  building : List Nat := []
  workQueue : List CoherencyOperation := []
  /-- Pages of its operation that the worker has yet to count down. -/
  performing : List Nat := []
  readbackAtCall : Nat → Bool := fun _ => false
  directCopies : List DirectCopy := []
  underflow : Bool := false

namespace CoherencyState

def numPages (s : CoherencyState) : Nat := 2 ^ s.logPages

/-- Begin a call, once the one before has ended. -/
def beginCall (s : CoherencyState) (c : CoherencyCall) : CoherencyState :=
  if s.todo.isEmpty then
    { s with
      submit := (s.submit.call s.numPages c).1
      todo := (s.submit.call s.numPages c).2
      readbackAtCall := s.pageToPendingReadback }
  else s

def markPage (s : CoherencyState) (page : Nat) : CoherencyState :=
  if s.pageToPendingReadback page || s.pendingWritesForPage page != 0 then
    { s with pageToMaskedCopy := Function.update s.pageToMaskedCopy page true }
  else { s with pageToDirectCopy := Function.update s.pageToDirectCopy page true }

def lockPage (s : CoherencyState) (page : Nat) : CoherencyState :=
  { s with pageToPendingReadback := Function.update s.pageToPendingReadback page true }

def copiesDirectly (s : CoherencyState) (page : Nat) : Bool :=
  s.pageToDirectCopy page && (s.hostAllocation || !s.pageToMaskedCopy page)

/-- Copy a page that is marked. -/
def copyPage (s : CoherencyState) (page : Nat) : CoherencyState :=
  { s with
    pageToDirectCopy := Function.update s.pageToDirectCopy page false
    pageToMaskedCopy := Function.update s.pageToMaskedCopy page false
    directCopies :=
      if s.copiesDirectly page then
        s.directCopies ++ [{
          page := page
          pendingReadback := s.pageToPendingReadback page
          pendingReadbackAtCall := s.readbackAtCall page
          pendingWrites := s.pendingWritesForPage page }]
      else s.directCopies }

/-- Count a page that the GPU is about to write. -/
def countPage (s : CoherencyState) (page : Nat) : CoherencyState :=
  if s.pageToPendingReadback page then
    { s with
      pendingWritesForPage :=
        Function.update s.pendingWritesForPage page (s.pendingWritesForPage page + 1)
      building := s.building ++ [page]
      pageToPendingReadback := Function.update s.pageToPendingReadback page false }
  else s

def enqueue (s : CoherencyState) (op : CoherencyOperation) : CoherencyState :=
  { s with workQueue := s.workQueue ++ [op] }

def enqueueCopies (s : CoherencyState) : CoherencyState :=
  if s.building.isEmpty then s
  else { s.enqueue { fence := true, copies := bitRanges s.building } with building := [] }

/-- What a step does. -/
def perform (s : CoherencyState) : RendererStep → CoherencyState
  | .markPage page => s.markPage page
  | .lockPage page => s.lockPage page
  | .copyPage page => s.copyPage page
  | .countPage page => s.countPage page
  | .enqueueFenceWait => s.enqueue { fence := true }
  | .enqueueCopies => s.enqueueCopies

def rendererStep (s : CoherencyState) : CoherencyState :=
  match s.todo with
  | [] => s
  | step :: todo => { s with todo }.perform step

/-- Count a page down after it was copied to host memory. -/
def releasePage (s : CoherencyState) (page : Nat) : CoherencyState :=
  { s with
    pendingWritesForPage :=
      Function.update s.pendingWritesForPage page (s.pendingWritesForPage page - 1)
    underflow := s.underflow || s.pendingWritesForPage page == 0 }

/-- The next step of the worker: to count a page down, or to take the next operation. -/
def workerStep (s : CoherencyState) : CoherencyState :=
  match s.performing with
  | page :: performing => { s with performing }.releasePage page
  | [] =>
    match s.workQueue with
    | [] => s
    | op :: workQueue => { s with performing := op.pages, workQueue }

/-- The number of operations that were submitted, or are being submitted, and will still write a
page. -/
def outstanding (s : CoherencyState) (page : Nat) : Nat :=
  (if page ∈ s.building then 1 else 0) + s.workQueue.countP (fun op => page ∈ op.pages) +
    (if page ∈ s.performing then 1 else 0)

end CoherencyState

/-- What happens next. -/
inductive CoherencyEvent
  | call (c : CoherencyCall)
  | renderer
  | worker

def CoherencyEvent.apply (s : CoherencyState) : CoherencyEvent → CoherencyState
  | .call c => s.beginCall c
  | .renderer => s.rendererStep
  | .worker => s.workerStep

def CoherencyState.run (s : CoherencyState) (events : List CoherencyEvent) : CoherencyState :=
  events.foldl CoherencyEvent.apply s

end ParallelN64.Rdp
