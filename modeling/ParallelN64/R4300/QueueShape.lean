import ParallelN64.R4300.Simulation

/-!
# The shape of the event queue

Every node of the pool waits in the queue or is free, so an event is dropped exactly when
sixteen are queued. Some types are added only after their last event was removed, or while
a busy flag says that none is queued; of these at most one event is queued.
-/

namespace ParallelN64.R4300

open Schedule

def InterruptQueue.WellFormed (q : InterruptQueue) : Prop :=
  Core.Divided (fun _ : Node => True) (q.first.map QueueNode.node) q.pool.stack

def Added (data : InterruptEvent) (q q' : InterruptQueue) : Prop :=
  (q.pool.allocNode = none ∧ q' = q) ∨
    ∃ event pool l, event.data = data ∧ q.pool.allocNode = some (event.node, pool) ∧
      l.Perm (event :: q.first) ∧ q' = ⟨pool, l⟩

def Removed (event : QueueNode) (q q' : InterruptQueue) : Prop :=
  ∃ l, q.first.Perm (event :: l) ∧ q' = ⟨q.pool.freeNode event.node, l⟩

def InterruptQueue.queued (q : InterruptQueue) (type : EventType) : Nat :=
  q.first.countP fun e => e.data.type = type

variable {type : EventType}

section Nodes

variable {q q' : InterruptQueue} {data : InterruptEvent} {event : QueueNode}

theorem InterruptQueue.WellFormed.length_add (h : q.WellFormed) :
    q.first.length + q.pool.stack.length = poolCapacity := by
  have hperm : (q.first.map QueueNode.node ++ q.pool.stack).Perm (List.finRange poolCapacity) :=
    (List.perm_ext_iff_of_nodup h.nodup (List.nodup_finRange poolCapacity)).mpr fun node =>
      iff_of_true ((h.mem_iff node).mpr trivial) (List.mem_finRange node)
  have hlength := hperm.length_eq
  rwa [List.length_append, List.length_map, List.length_finRange] at hlength

theorem InterruptQueue.WellFormed.allocNode_eq_none_iff (h : q.WellFormed) :
    q.pool.allocNode = none ↔ q.first.length = poolCapacity := by
  have hlength := h.length_add
  cases hstack : q.pool.stack with
  | nil =>
    rw [hstack, List.length_nil] at hlength
    simp only [Pool.allocNode, hstack, true_iff]
    omega
  | cons node stack =>
    rw [hstack, List.length_cons] at hlength
    simp only [Pool.allocNode, hstack, reduceCtorEq, false_iff]
    omega

theorem wellFormed_clearQueue : clearQueue.WellFormed :=
  ⟨List.nodup_finRange poolCapacity, fun node => iff_of_true (List.mem_finRange node) trivial⟩

theorem InterruptQueue.WellFormed.added (h : q.WellFormed) (hadd : Added data q q') :
    q'.WellFormed := by
  rcases hadd with ⟨-, rfl⟩ | ⟨event, pool, l, -, halloc, hperm, rfl⟩
  · exact h
  · cases hstack : q.pool.stack with
    | nil => simp [Pool.allocNode, hstack] at halloc
    | cons node stack =>
      simp only [Pool.allocNode, hstack, Option.some.injEq, Prod.mk.injEq] at halloc
      obtain ⟨rfl, rfl⟩ := halloc
      refine Core.Divided.perm h ?_
      rw [hstack]
      refine List.perm_middle.trans ?_
      rw [← List.cons_append, ← List.map_cons]
      exact (hperm.map QueueNode.node).symm.append_right stack

theorem InterruptQueue.WellFormed.removed (h : q.WellFormed) (hremove : Removed event q q') :
    q'.WellFormed := by
  obtain ⟨l, hperm, rfl⟩ := hremove
  have hlength := h.length_add
  rw [hperm.length_eq, List.length_cons] at hlength
  have hstack : q.pool.freeNode event.node = ⟨event.node :: q.pool.stack⟩ :=
    if_neg (by omega)
  rw [hstack]
  refine Core.Divided.perm h ?_
  refine ((hperm.map QueueNode.node).append_right q.pool.stack).trans ?_
  exact List.perm_middle.symm

theorem Added.queued_le (h : Added data q q') (t : EventType) :
    q'.queued t ≤ q.queued t + if data.type = t then 1 else 0 := by
  rcases h with ⟨-, rfl⟩ | ⟨event, pool, l, rfl, -, hperm, rfl⟩
  · exact Nat.le_add_right _ _
  · rw [InterruptQueue.queued, hperm.countP_eq, List.countP_cons, InterruptQueue.queued]
    simp only [decide_eq_true_eq]
    exact le_refl _

theorem Removed.queued_eq (h : Removed event q q') (t : EventType) :
    q.queued t = q'.queued t + if event.data.type = t then 1 else 0 := by
  obtain ⟨l, hperm, rfl⟩ := h
  rw [InterruptQueue.queued, hperm.countP_eq, List.countP_cons, InterruptQueue.queued]
  simp only [decide_eq_true_eq]

theorem Added.forall_data {P : InterruptEvent → Prop} (h : Added data q q') (hdata : P data)
    (hq : ∀ e ∈ q.first, P e.data) : ∀ e ∈ q'.first, P e.data := by
  rcases h with ⟨-, rfl⟩ | ⟨event, pool, l, rfl, -, hperm, rfl⟩
  · exact hq
  · intro e he
    rcases List.mem_cons.mp (hperm.mem_iff.mp he) with rfl | hmem
    · exact hdata
    · exact hq e hmem

theorem Removed.forall_data {P : InterruptEvent → Prop} (h : Removed event q q')
    (hq : ∀ e ∈ q.first, P e.data) : ∀ e ∈ q'.first, P e.data := by
  obtain ⟨l, hperm, rfl⟩ := h
  exact fun e he => hq e (hperm.mem_iff.mpr (List.mem_cons_of_mem event he))

theorem Added.mem {e : QueueNode} (h : Added data q q') (he : e ∈ q.first) : e ∈ q'.first := by
  rcases h with ⟨-, rfl⟩ | ⟨event, pool, l, -, -, hperm, rfl⟩
  · exact he
  · exact hperm.mem_iff.mpr (List.mem_cons_of_mem event he)

theorem Removed.mem {e : QueueNode} (h : Removed event q q') (he : e ∈ q.first)
    (htype : e.data.type ≠ event.data.type) : e ∈ q'.first := by
  obtain ⟨l, hperm, rfl⟩ := h
  rcases List.mem_cons.mp (hperm.mem_iff.mp he) with rfl | hmem
  · exact absurd rfl htype
  · exact hmem

theorem InterruptQueue.queued_eq_zero_iff :
    q.queued type = 0 ↔ ∀ e ∈ q.first, e.data.type ≠ type := by
  rw [InterruptQueue.queued, List.countP_eq_zero]
  simp only [decide_eq_true_eq, ne_eq]

end Nodes

section Operations

variable (i : Interrupts)

theorem added_addInterruptEventCount (count : Word) (type : EventType) (evtCount : Word) :
    Added ⟨type, evtCount⟩ i.q (i.addInterruptEventCount count type evtCount).q := by
  cases halloc : i.q.pool.allocNode with
  | none =>
    rw [Interrupts.addInterruptEventCount_of_none halloc]
    exact Or.inl ⟨halloc, rfl⟩
  | some alloc =>
    rw [Interrupts.addInterruptEventCount_of_some halloc]
    exact Or.inr ⟨_, _, _, rfl, halloc, Core.insertBefore_perm _ _ _, rfl⟩

theorem added_pushCheckInt (count : Word) :
    Added ⟨.checkInt, count⟩ i.q (i.pushCheckInt count).q := by
  rw [Interrupts.pushCheckInt]
  split
  · next halloc => exact Or.inl ⟨halloc, rfl⟩
  · next node pool halloc =>
    exact Or.inr ⟨⟨node, ⟨.checkInt, count⟩, i.clock⟩, _, _, rfl, halloc, List.Perm.refl _, rfl⟩

theorem removed_removeInterruptEvent {event : QueueNode} {rest : List QueueNode}
    (hfirst : i.q.first = event :: rest) (count : Word) :
    Removed event i.q (i.removeInterruptEvent count).q := by
  rw [Interrupts.removeInterruptEvent, hfirst]
  exact ⟨rest, hfirst ▸ List.Perm.refl _, rfl⟩

theorem removed_removeEvent (type : EventType) :
    (i.q.queued type = 0 ∧ (i.removeEvent type).q = i.q) ∨
      ∃ event, event.data.type = type ∧ Removed event i.q (i.removeEvent type).q := by
  rw [Interrupts.removeEvent]
  split
  · next hfind =>
    refine Or.inl ⟨List.countP_eq_zero.mpr fun e he => ?_, rfl⟩
    exact List.find?_eq_none.mp hfind e he
  · next event hfind =>
    have htype : event.data.type = type := by simpa using List.find?_some hfind
    refine Or.inr ⟨event, htype, _, ?_, rfl⟩
    obtain ⟨hmatch, before, after, hfirst, hbefore⟩ := List.find?_eq_some_iff_append.mp hfind
    have herase : i.q.first.eraseP (fun e => e.data.type = type) = before ++ after := by
      rw [hfirst, List.eraseP_append_right _ fun e he => by simpa using hbefore e he,
        List.eraseP_cons_of_pos (p := fun e : QueueNode => decide (e.data.type = type))
          hmatch]
    rw [herase, hfirst]
    exact List.perm_middle

theorem mem_removeEvent {e : QueueNode} (he : e ∈ i.q.first) (htype : e.data.type ≠ type) :
    e ∈ (i.removeEvent type).q.first := by
  rcases removed_removeEvent i type with ⟨-, heq⟩ | ⟨event, rfl, hremove⟩
  · rwa [heq]
  · exact hremove.mem he htype

def QueueNode.translated (count base : Word) (e : QueueNode) : QueueNode :=
  { e with data := { e.data with count := (e.data.count - count) + base } }

def Interrupts.moved (count base : Word) : Interrupts :=
  let s := (i.removeEvent .compareInt).removeEvent .specialInt
  { s with q := ⟨s.q.pool, s.q.first.map (QueueNode.translated count base)⟩ }

theorem translateEventQueue_eq (count compare base : Word) :
    i.translateEventQueue count compare base =
      ((i.moved count base).addInterruptEventCount count .compareInt
        compare).addInterruptEventCount count .specialInt 0#32 := rfl

theorem InterruptQueue.WellFormed.map {q : InterruptQueue} (h : q.WellFormed)
    {f : QueueNode → QueueNode} (hf : ∀ e, (f e).node = e.node) :
    InterruptQueue.WellFormed ⟨q.pool, q.first.map f⟩ := by
  have hnodes : (q.first.map f).map QueueNode.node = q.first.map QueueNode.node := by
    rw [List.map_map]
    exact List.map_congr_left fun e _ => hf e
  rw [InterruptQueue.WellFormed, hnodes]
  exact h

theorem queued_map {q : InterruptQueue} {f : QueueNode → QueueNode}
    (hf : ∀ e, (f e).data.type = e.data.type) (type : EventType) :
    InterruptQueue.queued ⟨q.pool, q.first.map f⟩ type = q.queued type := by
  rw [InterruptQueue.queued, List.countP_map, InterruptQueue.queued]
  exact List.countP_congr fun e _ => by simp only [Function.comp_apply, hf]

theorem InterruptQueue.WellFormed.removeEvent {i : Interrupts} (h : i.q.WellFormed)
    (type : EventType) : (i.removeEvent type).q.WellFormed := by
  rcases removed_removeEvent i type with ⟨-, heq⟩ | ⟨event, -, hremove⟩
  · rwa [heq]
  · exact h.removed hremove

theorem queued_removeEvent (type t : EventType) :
    (i.removeEvent type).q.queued t = i.q.queued t - if type = t then 1 else 0 := by
  rcases removed_removeEvent i type with ⟨hnone, heq⟩ | ⟨event, rfl, hremove⟩
  · rw [heq]
    split
    · next htype =>
      subst htype
      omega
    · rfl
  · rw [hremove.queued_eq t, Nat.add_sub_cancel]

theorem queued_moved (count base : Word) (t : EventType) :
    (i.moved count base).q.queued t =
      i.q.queued t - (if .compareInt = t then 1 else 0) - if .specialInt = t then 1 else 0 := by
  have hmap := @queued_map ((i.removeEvent .compareInt).removeEvent .specialInt).q
    (QueueNode.translated count base) (fun _ => rfl) t
  rw [queued_removeEvent, queued_removeEvent] at hmap
  exact hmap

end Operations

def singleTypes : List EventType := [.viInt, .compareInt, .specialInt, .aiInt]

/-- The nodes are accounted for, and the events whose adders guard against a second one are
queued once at most. -/
structure QueueShape (s : Schedule) : Prop where
  wellFormed : s.interrupts.q.WellFormed
  single : ∀ type ∈ singleTypes, s.interrupts.q.queued type ≤ 1
  busy : 0 < s.interrupts.q.queued .aiInt → s.aiStatus &&& aiStatusBusy ≠ 0#32

namespace QueueShape

variable {cfg : Config} {s s' : Schedule} {event : QueueNode} {rest : List QueueNode}

theorem congr (h : QueueShape s) (hq : s'.interrupts.q = s.interrupts.q)
    (hstatus : s'.aiStatus = s.aiStatus) : QueueShape s' := by
  refine ⟨?_, ?_, ?_⟩
  · rw [hq]
    exact h.wellFormed
  · rw [hq]
    exact h.single
  · rw [hq, hstatus]
    exact h.busy

theorem added {data : InterruptEvent} (h : QueueShape s)
    (hadd : Added data s.interrupts.q s'.interrupts.q) (hstatus : s'.aiStatus = s.aiStatus)
    (hfree : data.type ∈ singleTypes → s.interrupts.q.queued data.type = 0)
    (hbusy : data.type = .aiInt → s.aiStatus &&& aiStatusBusy ≠ 0#32) : QueueShape s' := by
  refine ⟨h.wellFormed.added hadd, fun t ht => ?_, fun hpos => ?_⟩
  · have hle := hadd.queued_le t
    have hsingle := h.single t ht
    split at hle
    · next heq =>
      subst heq
      have hnone := hfree ht
      omega
    · omega
  · rw [hstatus]
    by_cases htype : data.type = .aiInt
    · exact hbusy htype
    · have hle := hadd.queued_le .aiInt
      rw [if_neg htype] at hle
      exact h.busy (by omega)

theorem removed (h : QueueShape s) (hremove : Removed event s.interrupts.q s'.interrupts.q)
    (hstatus : s'.aiStatus = s.aiStatus) : QueueShape s' := by
  refine ⟨h.wellFormed.removed hremove, fun t ht => ?_, fun hpos => ?_⟩
  · have heq := hremove.queued_eq t
    have hsingle := h.single t ht
    omega
  · rw [hstatus]
    have heq := hremove.queued_eq .aiInt
    exact h.busy (by omega)

theorem setStatus (h : QueueShape s) {status : Word}
    (hbusy : 0 < s.interrupts.q.queued .aiInt → status &&& aiStatusBusy ≠ 0#32) :
    QueueShape { s with aiStatus := status } :=
  ⟨h.wellFormed, h.single, hbusy⟩

theorem addEvent (h : QueueShape s) (count : Word)
    (hfree : type ∈ singleTypes → s.interrupts.q.queued type = 0)
    (hbusy : type = .aiInt → s.aiStatus &&& aiStatusBusy ≠ 0#32) :
    QueueShape (s.addEvent type count) :=
  h.added (added_addInterruptEventCount s.interrupts s.count type count) rfl hfree hbusy

theorem addUnguarded (h : QueueShape s) (count : Word) (htype : type ∉ singleTypes) :
    QueueShape (s.addEvent type count) := by
  refine h.addEvent count (fun hmem => absurd hmem htype) fun heq => ?_
  subst heq
  exact absurd (by decide) htype

theorem removeFirst (h : QueueShape s) (hfirst : s.interrupts.q.first = event :: rest) :
    QueueShape s.removeFirst :=
  h.removed (removed_removeInterruptEvent s.interrupts hfirst s.count) rfl

theorem queued_removeFirst (h : QueueShape s) (hfirst : s.interrupts.q.first = event :: rest)
    (htype : event.data.type ∈ singleTypes) :
    s.removeFirst.interrupts.q.queued event.data.type = 0 := by
  have hsingle := h.single event.data.type htype
  have heq := (removed_removeInterruptEvent s.interrupts hfirst s.count).queued_eq event.data.type
  rw [if_pos rfl] at heq
  have hremoved : s.removeFirst.interrupts.q = (s.interrupts.removeInterruptEvent s.count).q := rfl
  rw [hremoved]
  omega

theorem restart_interrupts (s : Schedule) (count compare : Word) :
    (s.restart count compare).interrupts = freshInterrupts s.interrupts.clock count := by
  rw [Schedule.restart]

theorem fresh {clock : Int} {count : Word} (h : s.interrupts = freshInterrupts clock count) :
    QueueShape s := by
  have hclear : QueueShape { s with interrupts := ⟨clearQueue, true, 0#32, clock⟩ } :=
    ⟨wellFormed_clearQueue, fun _ _ => Nat.zero_le 1, fun hpos => absurd hpos (lt_irrefl 0)⟩
  have hspecial : QueueShape { s with
      interrupts := (Interrupts.initInterrupt ⟨clearQueue, true, 0#32, clock⟩ count) } :=
    hclear.added (added_addInterruptEventCount _ count .specialInt 0#32) rfl (fun _ => rfl) nofun
  have hvi : Added ⟨.viInt, 5000#32⟩
      (Interrupts.initInterrupt ⟨clearQueue, true, 0#32, clock⟩ count).q s.interrupts.q := by
    rw [h]
    exact added_addInterruptEventCount _ count .viInt 5000#32
  refine hspecial.added hvi rfl (fun _ => ?_) nofun
  · have hle := (added_addInterruptEventCount ⟨clearQueue, true, 0#32, clock⟩ count .specialInt
      0#32).queued_le .viInt
    exact Nat.le_zero.mp hle

theorem move (h : QueueShape s) (hmove : Move cfg s s') : QueueShape s' := by
  cases hmove with
  | updateCount => exact h.congr rfl rfl
  | goTo address => exact h.congr rfl rfl
  | defer => exact h.congr rfl rfl
  | pushCheckInt =>
    have hcheck : EventType.checkInt ∉ singleTypes := by decide
    exact h.added (added_pushCheckInt s.interrupts s.count) rfl (fun hmem => absurd hmem hcheck)
      nofun

theorem moves (h : QueueShape s) (hmoves : Moves cfg s s') : QueueShape s' :=
  hmoves.keeps (fun _ _ hmove hs => move hs hmove) h

theorem startAudio (h : QueueShape s) (duration : Word)
    (hnone : s.interrupts.q.queued .aiInt = 0) (hbusy : s.aiStatus &&& aiStatusBusy ≠ 0#32) :
    QueueShape (s.startAudio cfg duration) := by
  have hcount : QueueShape (s.updateCount cfg) := h.congr rfl rfl
  exact hcount.addEvent _ (fun _ => hnone) fun _ => hbusy

theorem scheduleVi (h : QueueShape s) (delay : Word)
    (hnone : s.interrupts.q.queued .viInt = 0) : QueueShape (s.scheduleVi delay) := by
  have hvi : QueueShape { s with viDelay := delay, nextVi := s.nextVi + delay } := h.congr rfl rfl
  exact hvi.addEvent _ (fun _ => hnone) nofun

theorem busy_clearFull (status : Word) :
    (status &&& ~~~aiStatusFull) &&& aiStatusBusy = status &&& aiStatusBusy := by
  rw [BitVec.and_assoc]
  rfl

theorem busy_setFull (status : Word) :
    (status ||| aiStatusFull) &&& aiStatusBusy = status &&& aiStatusBusy := by
  have hzero : aiStatusFull &&& aiStatusBusy = 0#32 := rfl
  rw [BitVec.and_or_distrib_right, hzero, BitVec.or_zero]

theorem busy_setBusy (status : Word) : (status ||| aiStatusBusy) &&& aiStatusBusy ≠ 0#32 := by
  intro h
  have hbit := congrArg (fun w : Word => w.getLsbD 30) h
  simp [aiStatusBusy] at hbit

theorem polled (h : QueueShape s) (hpolled : Polled cfg s s') : QueueShape s' := by
  cases hpolled with
  | early _ => exact h
  | resetHard => exact fresh (restart_interrupts s _ _)
  | finishJump _ _ => exact h.congr rfl rfl
  | empty _ => exact h
  | special _ _ _ => exact h
  | rotate hfires htype _ =>
    have hspecial : QueueShape { s with interrupts := { s.interrupts with specialDone := true } } :=
      h.congr rfl rfl
    have hnone := hspecial.queued_removeFirst hfires.first (by rw [htype]; decide)
    rw [htype] at hnone
    exact (hspecial.removeFirst hfires.first).addEvent 0#32 (fun _ => hnone) nofun
  | vi hfires htype delay =>
    have hnone := h.queued_removeFirst hfires.first (by rw [htype]; decide)
    rw [htype] at hnone
    exact (h.removeFirst hfires.first).scheduleVi delay hnone
  | compare hfires htype =>
    have hnone := h.queued_removeFirst hfires.first (by rw [htype]; decide)
    rw [htype] at hnone
    have hadvance : QueueShape (s.removeFirst.advance cfg.countPerOp) :=
      (h.removeFirst hfires.first).congr rfl rfl
    exact (hadvance.addEvent s.compare (fun _ => hnone) nofun).congr rfl rfl
  | aiNext hfires htype duration =>
    have hbusy : 0 < s.interrupts.q.queued .aiInt := by
      rw [← htype, (removed_removeInterruptEvent s.interrupts hfires.first s.count).queued_eq,
        if_pos rfl]
      exact Nat.succ_pos _
    have hnone := h.queued_removeFirst hfires.first (by rw [htype]; decide)
    rw [htype] at hnone
    have hstatus : (s.aiStatus &&& ~~~aiStatusFull) &&& aiStatusBusy ≠ 0#32 := by
      rw [busy_clearFull]
      exact h.busy hbusy
    exact ((h.removeFirst hfires.first).setStatus fun _ => hstatus).startAudio duration hnone hstatus
  | aiStop hfires htype =>
    have hnone := h.queued_removeFirst hfires.first (by rw [htype]; decide)
    rw [htype] at hnone
    exact (h.removeFirst hfires.first).setStatus fun hpos => absurd hnone (Nat.pos_iff_ne_zero.mp hpos)
  | nmi _ _ => exact fresh (restart_interrupts s _ _)
  | plain hfires _ => exact h.removeFirst hfires.first

theorem audio (h : QueueShape s) (haudio : Audio cfg s s') : QueueShape s' := by
  cases haudio with
  | moves hmoves => exact h.moves hmoves
  | queue hbusy =>
    refine h.setStatus fun _ => ?_
    rwa [busy_setFull]
  | start hbusy duration =>
    have hnone : s.interrupts.q.queued .aiInt = 0 := by
      by_contra hne
      exact h.busy (Nat.pos_of_ne_zero hne) hbusy
    exact (h.setStatus fun _ => busy_setBusy s.aiStatus).startAudio duration hnone
      (busy_setBusy s.aiStatus)

theorem writeCompare (h : QueueShape s) (value : Word) : QueueShape (s.writeCompare value) := by
  have hremoved : QueueShape
      { s with interrupts := s.interrupts.removeEvent .compareInt } := by
    rcases removed_removeEvent s.interrupts .compareInt with ⟨-, heq⟩ | ⟨event, -, hremove⟩
    · exact h.congr heq rfl
    · exact h.removed hremove rfl
  have hnone : (s.interrupts.removeEvent .compareInt).q.queued .compareInt = 0 := by
    have hsingle := h.single .compareInt (by decide)
    rw [queued_removeEvent, if_pos rfl]
    omega
  exact (hremoved.addEvent value (fun _ => hnone) nofun).congr rfl rfl

theorem writeCount (h : QueueShape s) (value : Word) : QueueShape (s.writeCount value) := by
  have hqueued (t : EventType) := queued_moved s.interrupts s.count value t
  have hle (t : EventType) :
      (s.interrupts.moved s.count value).q.queued t ≤ s.interrupts.q.queued t := by
    rw [hqueued]
    omega
  have hmoved : QueueShape { s with interrupts := s.interrupts.moved s.count value } := by
    refine ⟨?_, fun t ht => (hle t).trans (h.single t ht), fun hpos => ?_⟩
    · exact ((h.wellFormed.removeEvent .compareInt).removeEvent .specialInt).map fun _ => rfl
    · exact h.busy (hpos.trans_le (hle .aiInt))
  have hcompare : (s.interrupts.moved s.count value).q.queued .compareInt = 0 := by
    have hsingle := h.single .compareInt (by decide)
    rw [hqueued, if_pos rfl]
    omega
  have hspecial : ((s.interrupts.moved s.count value).addInterruptEventCount s.count .compareInt
      s.compare).q.queued .specialInt = 0 := by
    have hsingle := h.single .specialInt (by decide)
    have hle := (added_addInterruptEventCount (s.interrupts.moved s.count value) s.count
      .compareInt s.compare).queued_le .specialInt
    rw [hqueued, if_neg (by decide), if_pos rfl] at hle
    omega
  have htimer : QueueShape { s with
      interrupts := (s.interrupts.moved s.count value).addInterruptEventCount s.count .compareInt
        s.compare } := hmoved.addEvent s.compare (fun _ => hcompare) nofun
  have hmark : QueueShape { s with
      interrupts := ((s.interrupts.moved s.count value).addInterruptEventCount s.count .compareInt
        s.compare).addInterruptEventCount s.count .specialInt 0#32 } :=
    htimer.addEvent 0#32 (fun _ => hspecial) nofun
  refine hmark.congr ?_ rfl
  exact congrArg Interrupts.q (translateEventQueue_eq s.interrupts s.count s.compare value)

theorem effect {c : Call} (heffect : Effect cfg s s' c) (h : QueueShape s) : QueueShape s' := by
  cases c with
  | addToPc bytes =>
    subst heffect
    exact h.congr rfl rfl
  | endJump j =>
    rcases heffect with rfl | rfl
    · exact h
    · exact h.congr rfl rfl
  | returnFromException =>
    obtain ⟨address, rfl⟩ := heffect
    exact h.congr rfl rfl
  | setLastAddr =>
    subst heffect
    exact h.congr rfl rfl
  | idle j =>
    rcases heffect with rfl | ⟨-, rfl⟩
    · exact h
    · exact h.congr rfl rfl
  | addEvent transfer delay =>
    subst heffect
    refine h.addUnguarded _ ?_
    cases transfer with
    | _ => decide
  | doSpTask task =>
    have hcount : QueueShape (s.updateCount cfg) := h.congr rfl rfl
    rcases heffect with rfl | rfl
    · exact h
    · exact hcount.addUnguarded _ (by decide)
  | writeCount value =>
    subst heffect
    exact h.writeCount value
  | writeCompare value =>
    subst heffect
    exact h.writeCompare value
  | poll => exact h.polled heffect
  | access access =>
    cases access with
    | writeAiRegs reg value mask => exact h.audio heffect
    | _ => exact h.moves heffect
  | _ => exact h.moves heffect

theorem resetSoft (h : QueueShape s) : QueueShape s.resetSoft :=
  (h.addUnguarded _ (by decide)).addUnguarded _ (by decide)

theorem poweredOn : QueueShape poweredOnSchedule := fresh (by rw [poweredOnSchedule])

theorem step {s : Interpreter} (h : QueueShape s.device.schedule) (a : Action) :
    QueueShape (s.step cfg a).device.schedule :=
  step_keeps h h.resetSoft fun _ _ _ _ _ heffect => effect heffect h

theorem reachable {s : Interpreter} (h : Reachable cfg s) : QueueShape s.device.schedule :=
  reachable_schedule poweredOn (fun _ hs => hs.resetSoft)
    (fun _ _ _ heffect hs => effect heffect hs) h

end QueueShape

theorem drops_iff_full {i i' : Interrupts} {P : Prop} (h : i.q.WellFormed)
    (hnone : i.q.pool.allocNode = none → i'.events = i.events)
    (hsome : ∀ node pool, i.q.pool.allocNode = some (node, pool) → P) :
    if i.events.length = poolCapacity then i'.events = i.events else P := by
  have hlength : i.events.length = i.q.first.length := List.length_map _
  have hfull := h.allocNode_eq_none_iff
  split
  · next heq => exact hnone (hfull.mpr (hlength ▸ heq))
  · next hne =>
    cases halloc : i.q.pool.allocNode with
    | none => exact absurd (hlength.trans (hfull.mp halloc)) hne
    | some alloc => exact hsome alloc.1 alloc.2 halloc

theorem getEvent_eq_zero_iff (i : Interrupts) (type : EventType) :
    i.getEvent type = 0#32 ↔
      ∀ e, i.events.find? (fun e => e.type = type) = some e → e.count = 0#32 := by
  rw [Interrupts.getEvent, Interrupts.events, List.find?_map]
  cases hfind : i.q.first.find? fun e => e.data.type = type with
  | none => simp [Function.comp_def, hfind]
  | some e => simp [Function.comp_def, hfind]

/-- In every reachable state the nodes are divided into queued and free ones, an event is dropped
only when sixteen are queued, the guarded types are queued once at most, and `get_event` tells
whether an event is queued but for events that are due at 0. -/
theorem run_accounts_for_events (cfg : Config) (actions : List Action) :
    let i := (run cfg actions).device.interrupts
    (i.q.first.map QueueNode.node ++ i.q.pool.stack).Perm (List.finRange poolCapacity) ∧
      (∀ count type evtCount,
        if i.events.length = poolCapacity then
          (i.addInterruptEventCount count type evtCount).events = i.events
        else (i.addInterruptEventCount count type evtCount).events.Perm
          (⟨type, evtCount⟩ :: i.events)) ∧
      (∀ count,
        if i.events.length = poolCapacity then (i.pushCheckInt count).events = i.events
        else (i.pushCheckInt count).events = ⟨.checkInt, count⟩ :: i.events) ∧
      (∀ type ∈ [EventType.viInt, .compareInt, .specialInt, .aiInt],
        (i.events.filter fun e => e.type = type).length ≤ 1) ∧
      ∀ type, i.getEvent type = 0#32 ↔
        ∀ e, i.events.find? (fun e => e.type = type) = some e → e.count = 0#32 := by
  intro i
  have h : QueueShape (run cfg actions).device.schedule := QueueShape.reachable ⟨actions, rfl⟩
  refine ⟨?_, fun count type evtCount => drops_iff_full h.wellFormed (fun hnone => ?_) ?_,
    fun count => drops_iff_full h.wellFormed (fun hnone => ?_) ?_, fun type htype => ?_,
    getEvent_eq_zero_iff i⟩
  · exact (List.perm_ext_iff_of_nodup h.wellFormed.nodup (List.nodup_finRange poolCapacity)).mpr
      fun node => iff_of_true ((h.wellFormed.mem_iff node).mpr trivial) (List.mem_finRange node)
  · rw [Interrupts.addInterruptEventCount_of_none hnone]
    rfl
  · intro node pool halloc
    rw [Interrupts.addInterruptEventCount_of_some halloc]
    exact (Core.insertBefore_perm _ _ _).map QueueNode.data
  · rw [Interrupts.pushCheckInt, hnone]
  · intro node pool halloc
    rw [Interrupts.pushCheckInt, halloc]
    rfl
  · have hsingle : i.q.queued type ≤ 1 := h.single type htype
    rw [Interrupts.events, List.filter_map, List.length_map, ← List.countP_eq_length_filter]
    exact hsingle

def piTransfer : List Action :=
  .fetch [] ⟨false, .memory [.device (.writePiRegs .wrLen 0x3FF#32 0xFFFFFFFF#32)]⟩ ::
    List.replicate 5 .call

/-- Two transfers in a row queue two PI_INT events, fourteen fill the queue and the next one is
dropped; and the queued SPECIAL_INT looks absent to `get_event` from the start. -/
theorem transfers_fill_the_queue :
    (run sampleConfig (piTransfer ++ piTransfer)).device.interrupts.q.queued .piInt = 2 ∧
      (run sampleConfig (List.replicate 14 piTransfer).flatten).device.interrupts.q.queued
        .piInt = 14 ∧
      (run sampleConfig (List.replicate 15 piTransfer).flatten).device.interrupts.q.queued
        .piInt = 14 ∧
      (run sampleConfig []).device.interrupts.q.queued .specialInt = 1 ∧
      (run sampleConfig []).device.interrupts.getEvent .specialInt = 0#32 := by
  decide +kernel

end ParallelN64.R4300
