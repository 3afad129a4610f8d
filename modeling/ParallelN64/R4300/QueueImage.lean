import ParallelN64.R4300.IdleCount
import ParallelN64.R4300.QueueShape

/-!
# The saved image of the event queue

A savestate holds the queue as a list of types and counts and the cache of the first count
as a word of its own. Loading sets the cache and then adds the events one by one, each in
front of the first event it comes before. This restores the list exactly when the list is
in the order that the comparison at loading asks for. What the cache is for is seen at the
interrupt checks and in the idle loops.
-/

namespace ParallelN64.R4300

/-- What `savestates_load_m64p` does to the globals of the interrupt code. -/
def Interrupts.savestatesLoad (s : Interrupts) (count nextInterrupt : Word) (queue : List Word) :
    Option Interrupts :=
  { s with nextInterrupt }.loadEventqueueInfos count queue

def waiting (next : Word) : IdleLoop where
  nextInterrupt := next
  step := 0#32
  jumps := true
  stays := true

/-- Where an idle loop moves Count to. -/
def idleTo (next count : Word) : Word :=
  if (waiting next).skips count then (waiting next).skipTo count else count

theorem idle_count (d : Device) (j : Jump) :
    (d.idle j).1.count = idleTo d.interrupts.nextInterrupt d.count := by
  have hskips : (waiting d.interrupts.nextInterrupt).skips d.count =
      decide (3 < (d.interrupts.nextInterrupt - d.count).toInt) := rfl
  rw [Device.idle, idleTo, hskips]
  by_cases hskip : 3 < (d.interrupts.nextInterrupt - d.count).toInt
  · rw [if_pos hskip, if_pos (decide_eq_true hskip)]
    rfl
  · rw [if_neg hskip, if_neg (by simpa using hskip)]

/-- From one interrupt check to the next: the counts up to a jump, which may be an idle loop, and
the counts from there to the check. -/
structure Stretch where
  before : Word
  idle : Bool
  after : Word

def Stretch.Within (span : Nat) (t : Stretch) : Prop :=
  t.before.toNat ≤ span + 3 ∧ t.after.toNat ≤ span + 3

def Stretch.count (next count : Word) (t : Stretch) : Word :=
  (if t.idle then idleTo next (count + t.before) else count + t.before) + t.after

/-- The Count at which the interpreter enters `gen_interrupt`. -/
def entersAt (next : Word) : Word → List Stretch → Option Word
  | _, [] => none
  | count, t :: rest =>
    let later := t.count next count
    if next ≤ later then some later else entersAt next later rest

/-- Two caches make the interpreter enter `gen_interrupt` at the same Count, whatever it executes. -/
def DueAlike (span : Nat) (count next next' : Word) : Prop :=
  ∀ l : List Stretch, (∀ t ∈ l, t.Within span) → entersAt next count l = entersAt next' count l

/-- The next check is due wherever it comes, and no idle loop finds the event ahead. -/
def Settled (span : Nat) (count next : Word) : Prop :=
  ∀ t : Stretch, t.Within span →
    (waiting next).skips (count + t.before) = false ∧ next ≤ count + t.before + t.after

section Due

variable {span : Nat} {count next next' : Word}

theorem Settled.entersAt (h : Settled span count next) {t : Stretch} (ht : t.Within span)
    (rest : List Stretch) :
    entersAt next count (t :: rest) = some (count + t.before + t.after) := by
  obtain ⟨hskips, hdue⟩ := h t ht
  have hcount : t.count next count = count + t.before + t.after := by
    rw [Stretch.count, idleTo, hskips, if_neg Bool.false_ne_true, ite_self]
  rw [R4300.entersAt, hcount]
  exact if_pos hdue

def tick : Stretch := ⟨1#32, false, 0#32⟩

theorem entersAt_ticks (n : Nat) (h : count.toNat < next.toNat) :
    entersAt next count (List.replicate n tick) =
      if next.toNat ≤ count.toNat + n then some next else none := by
  induction n generalizing count with
  | zero => rw [if_neg (by omega)]; rfl
  | succ n ih =>
    have hnext := next.isLt
    have hlater : (tick.count next count).toNat = count.toNat + 1 := by
      have hcount : tick.count next count = count + 1#32 + 0#32 := rfl
      have hone : (1#32).toNat = 1 := rfl
      rw [hcount, BitVec.add_zero, BitVec.toNat_add, hone]
      exact Nat.mod_eq_of_lt (by omega)
    rw [List.replicate_succ, entersAt]
    by_cases hdue : next ≤ tick.count next count
    · rw [BitVec.le_def, hlater] at hdue
      rw [if_pos (BitVec.le_def.mpr (hlater.symm ▸ hdue)), if_pos (by omega)]
      exact congrArg some (BitVec.eq_of_toNat_eq (by omega))
    · rw [BitVec.le_def, hlater] at hdue
      rw [if_neg (fun hle => hdue (hlater ▸ BitVec.le_def.mp hle)), ih (by omega), hlater]
      exact if_congr (by omega) rfl rfl

theorem DueAlike.eq_of_ahead (h : DueAlike span count next next') {t : Stretch}
    (ht : t.Within span) (hahead : ¬next ≤ count + t.before + t.after) : next' = next := by
  have htick : tick.Within span := ⟨by simp [tick], by simp [tick]⟩
  have hall (n : Nat) := h ({ t with idle := false } :: List.replicate n tick) (by
    rintro t' (_ | ⟨_, hmem⟩)
    · exact ht
    · exact (List.eq_of_mem_replicate hmem) ▸ htick)
  have hcount (next : Word) : Stretch.count next count { t with idle := false } =
      count + t.before + t.after := rfl
  simp only [entersAt, hcount, if_neg hahead] at hall
  by_cases hdue : next' ≤ count + t.before + t.after
  · have hnone := hall 0
    rw [if_pos hdue] at hnone
    cases hnone
  · have henters := hall next.toNat
    rw [BitVec.not_le, BitVec.lt_def] at hahead
    rw [if_neg hdue, entersAt_ticks _ hahead, if_pos (by omega)] at henters
    rw [BitVec.not_le, BitVec.lt_def] at hdue
    rw [entersAt_ticks _ hdue] at henters
    split at henters
    · exact (Option.some.inj henters).symm
    · cases henters

/-- Where one cache makes an idle loop move Count, the other one must move it to the same place. -/
theorem DueAlike.le_of_skips (h : DueAlike span count next next') {before : Word}
    (hbefore : before.toNat ≤ span + 3) (hskips : (waiting next).skips (count + before) = true) :
    (waiting next').skips (count + before) = true ∧ next' ≤ next := by
  have hrest := toNat_sub_skipTo (l := waiting next) (count + before)
  have henters := h [⟨before, true, next - (waiting next).skipTo (count + before)⟩] (by
    intro t ht
    obtain rfl := List.mem_singleton.mp ht
    refine ⟨hbefore, ?_⟩
    rw [show (next - (waiting next).skipTo (count + before)).toNat = _ from hrest]
    omega)
  have hleft : (waiting next).skipTo (count + before) +
      (next - (waiting next).skipTo (count + before)) = next := by
    rw [BitVec.add_comm, BitVec.sub_add_cancel]
  simp only [entersAt, Stretch.count, if_true, idleTo, hskips, hleft, BitVec.le_refl] at henters
  cases hskips' : (waiting next').skips (count + before) with
  | false =>
    rw [hskips', if_neg Bool.false_ne_true] at henters
    split at henters
    · have hsame := Option.some.inj henters
      exact absurd ((BitVec.add_left_inj _).mp (hleft.trans hsame)) (skipTo_ne hskips)
    · cases henters
  | true =>
    rw [hskips', if_pos rfl] at henters
    split at henters
    · next hdue => exact ⟨rfl, hdue.trans_eq (Option.some.inj henters).symm⟩
    · cases henters

theorem dueAlike_comm : DueAlike span count next next' ↔ DueAlike span count next' next :=
  ⟨fun h l hl => (h l hl).symm, fun h l hl => (h l hl).symm⟩

theorem DueAlike.settled (h : DueAlike span count next next') (hne : next' ≠ next) :
    Settled span count next := by
  refine fun t ht => ⟨Bool.eq_false_iff.mpr fun hskips => ?_, ?_⟩
  · obtain ⟨hskips', hle⟩ := h.le_of_skips ht.1 hskips
    exact hne (BitVec.le_antisymm hle ((dueAlike_comm.mp h).le_of_skips ht.1 hskips').2)
  · by_contra hahead
    exact hne (h.eq_of_ahead ht hahead)

theorem dueAlike_iff :
    DueAlike span count next next' ↔
      next' = next ∨ (Settled span count next' ∧ Settled span count next) := by
  constructor
  · intro h
    by_cases heq : next' = next
    · exact Or.inl heq
    · exact Or.inr ⟨(dueAlike_comm.mp h).settled (Ne.symm heq), h.settled heq⟩
  · rintro (rfl | ⟨hsettled', hsettled⟩) l hl
    · rfl
    · cases l with
      | nil => rfl
      | cons t rest =>
        have ht := hl t List.mem_cons_self
        rw [hsettled.entersAt ht, hsettled'.entersAt ht]

end Due

def Interrupts.addEvent (count : Word) (s : Interrupts) (e : InterruptEvent) : Interrupts :=
  s.addInterruptEventCount count e.type e.count

theorem loadEvents_saved (count : Word) (events : List InterruptEvent) (rest : List Word)
    (s : Interrupts) :
    s.loadEvents count (events.flatMap (fun e => [e.type.code, e.count]) ++
        queueTerminator :: rest) =
      some (events.foldl (Interrupts.addEvent count) s) := by
  induction events generalizing s with
  | nil =>
    have hterm : EventType.ofCode queueTerminator = none := dif_pos rfl
    simp [Interrupts.loadEvents, hterm]
  | cons e events ih =>
    simp only [List.flatMap_cons, List.cons_append, List.nil_append, Interrupts.loadEvents,
      EventType.ofCode_code, List.foldl_cons]
    exact ih _

theorem EventType.ofCode_eq_none_iff {code : Word} :
    ofCode code = none ↔ code = queueTerminator := by
  constructor
  · intro h
    rw [ofCode] at h
    split at h
    · assumption
    · split at h
      · next hnamed =>
        have hcodes : namedCodes = [viInt, compareInt, checkInt, siInt, piInt, specialInt, aiInt,
          spInt, dpInt, hw2Int, nmiInt, cartInt].map EventType.code := rfl
        rw [hcodes] at hnamed
        obtain ⟨type, htype, hcode⟩ := List.mem_map.mp hnamed
        exact absurd (decide_eq_true hcode) (List.find?_eq_none.mp h type htype)
      · cases h
  · rintro rfl
    exact dif_pos rfl

theorem loadEvents_ne_none_iff {s : Interrupts} {count : Word} {queue : List Word} :
    s.loadEvents count queue ≠ none ↔ ∃ n, queue[2 * n]? = some queueTerminator := by
  induction queue using List.twoStepInduction generalizing s with
  | nil => simp [Interrupts.loadEvents]
  | singleton code =>
    rw [Interrupts.loadEvents]
    split
    · next hcode =>
      refine iff_of_true (Option.some_ne_none s) ⟨0, ?_⟩
      rw [EventType.ofCode_eq_none_iff.mp hcode]
      rfl
    · next type hcode =>
      refine iff_of_false (fun h => h rfl) ?_
      rintro ⟨n, hn⟩
      cases n with
      | zero =>
        rw [Option.some.inj hn, EventType.ofCode_eq_none_iff.mpr rfl] at hcode
        cases hcode
      | succ n => simp at hn
  | cons_cons code evtCount rest ih =>
    rw [Interrupts.loadEvents]
    split
    · next hcode =>
      refine iff_of_true (Option.some_ne_none s) ⟨0, ?_⟩
      rw [EventType.ofCode_eq_none_iff.mp hcode]
      rfl
    · next type hcode =>
      rw [ih]
      constructor
      · rintro ⟨n, hn⟩
        exact ⟨n + 1, hn⟩
      · rintro ⟨n, hn⟩
        cases n with
        | zero =>
          rw [Option.some.inj hn, EventType.ofCode_eq_none_iff.mpr rfl] at hcode
          cases hcode
        | succ n => exact ⟨n, hn⟩

def movable (count : Word) (e : InterruptEvent) : Bool :=
  !decide (e.type = .specialInt) && decide (e.count - count < 0x80000000#32)

/-- Overdue events come first, then the coming ones by distance, then the distant ones; a
passed wrap mark is distant once its cycle has begun. -/
def rank (specialDone : Bool) (count : Word) (e : InterruptEvent) : Nat :=
  if e.count - count < 0x80000000#32 then (e.count - count).toNat + 1
  else if count - e.count < 0x10000000#32 then
    if e.type = .specialInt ∧ specialDone = true then 0x80000001 else 0
  else 0x80000001

theorem beforeEvent_iff_rank {specialDone : Bool} {count : Word} {x y : InterruptEvent}
    (hx : x.count - count < 0x80000000#32) :
    beforeEvent specialDone count x.count y.count y.type = true ↔
      rank specialDone count x < rank specialDone count y := by
  have hlt : (x.count - count).toNat < 0x80000000 := hx
  unfold beforeEvent
  rw [if_pos hx, rank, if_pos hx, rank]
  by_cases hnear : y.count - count < 0x80000000#32
  · rw [if_pos hnear, if_pos hnear, decide_eq_true_iff, BitVec.lt_def]
    omega
  · rw [if_neg hnear, if_neg hnear]
    by_cases hrecent : count - y.count < 0x10000000#32
    · rw [if_pos hrecent, if_pos hrecent]
      cases hspecial : y.type with
      | specialInt =>
        cases specialDone with
        | true =>
          rw [if_pos ⟨rfl, rfl⟩]
          exact iff_of_true rfl (by omega)
        | false => simp
      | _ => simp
    · rw [if_neg hrecent, if_neg hrecent]
      exact iff_of_true rfl (by omega)

theorem before_eq_precedes (specialDone : Bool) (count : Word) (x y : InterruptEvent) :
    (beforeEvent specialDone count x.count y.count y.type && !decide (x.type = .specialInt)) =
      Core.precedes (movable count) (rank specialDone count) x y := by
  rw [Core.precedes, movable]
  by_cases hx : x.count - count < 0x80000000#32
  · rw [decide_eq_true hx, Bool.and_true, Bool.and_comm]
    congr 1
    rw [Bool.eq_iff_iff, decide_eq_true_iff]
    exact beforeEvent_iff_rank hx
  · have hbefore : beforeEvent specialDone count x.count y.count y.type = false := if_neg hx
    rw [hbefore, decide_eq_false hx, Bool.false_and, Bool.and_false, Bool.false_and]

section Adding

variable {s : Interrupts} {count : Word}

def Interrupts.HeadCached (s : Interrupts) : Prop :=
  ∀ e ∈ s.events.head?, s.nextInterrupt = e.count

theorem addEvent_spec {n : Nat} (hfree : s.q.pool.stack.length = n + 1) (e : InterruptEvent) :
    (s.addEvent count e).events =
        Core.insertBefore (Core.precedes (movable count) (rank (s.doneAfter count) count) e) e
          s.events ∧
      (s.addEvent count e).q.pool.stack.length = n ∧
      (s.addEvent count e).doneAfter count = s.doneAfter count ∧
      (s.HeadCached → (s.addEvent count e).HeadCached) := by
  obtain ⟨node, pool, halloc, hpool⟩ : ∃ node pool,
      s.q.pool.allocNode = some (node, pool) ∧ pool.stack.length = n := by
    cases hstack : s.q.pool.stack with
    | nil => simp [hstack] at hfree
    | cons node stack =>
      refine ⟨node, ⟨stack⟩, by rw [Pool.allocNode, hstack], ?_⟩
      simpa [hstack] using hfree
  have hdone : (s.addEvent count e).specialDone = s.doneAfter count := by
    rw [Interrupts.addEvent, Interrupts.addInterruptEventCount_of_some halloc]
  have hbefore (y : QueueNode) := before_eq_precedes (s.doneAfter count) count e y.data
  refine ⟨?_, ?_, ?_, fun hcached first hfirst => ?_⟩
  · rw [Interrupts.addEvent, Interrupts.addInterruptEventCount_of_some halloc]
    exact Core.map_insertBefore hbefore (s.newNode count e node) s.q.first
  · rw [Interrupts.addEvent, Interrupts.addInterruptEventCount_of_some halloc]
    exact hpool
  · rw [Interrupts.doneAfter, hdone, Interrupts.doneAfter]
    split
    · rfl
    · rfl
  · rw [Interrupts.events, List.head?_map] at hfirst
    obtain ⟨head, hhead, rfl⟩ := Option.mem_map.mp hfirst
    rcases Interrupts.head_addInterruptEventCount halloc hhead with ⟨rfl, hnext⟩ | ⟨hold, hnext, -⟩
    · exact hnext
    · refine hnext.trans (hcached head.data ?_)
      rw [Interrupts.events, List.head?_map]
      exact Option.mem_map_of_mem QueueNode.data hold

theorem foldl_addEvent_spec {l : List InterruptEvent}
    (hfree : l.length ≤ s.q.pool.stack.length) :
    (l.foldl (Interrupts.addEvent count) s).events =
        Core.fill (movable count) (rank (s.doneAfter count) count) s.events l ∧
      (s.HeadCached → (l.foldl (Interrupts.addEvent count) s).HeadCached) := by
  induction l generalizing s with
  | nil => exact ⟨rfl, id⟩
  | cons e l ih =>
    rw [List.length_cons] at hfree
    obtain ⟨n, hn⟩ : ∃ n, s.q.pool.stack.length = n + 1 := ⟨s.q.pool.stack.length - 1, by omega⟩
    obtain ⟨hevents, hlength, hdone, hcached⟩ := @addEvent_spec s count n hn e
    obtain ⟨hfill, hhead⟩ := ih (s := s.addEvent count e) (by omega)
    rw [hevents, hdone] at hfill
    exact ⟨hfill, fun h => hhead (hcached h)⟩

end Adding

/-- The order in which loading leaves the events: no event stands behind one that it comes
before, but for the wrap mark. -/
def InsertionOrdered (specialDone : Bool) (count : Word) (events : List InterruptEvent) : Prop :=
  events.Pairwise fun earlier later =>
    later.type = .specialInt ∨
      beforeEvent specialDone count later.count earlier.count earlier.type = false

instance (specialDone : Bool) (count : Word) (events : List InterruptEvent) :
    Decidable (InsertionOrdered specialDone count events) :=
  inferInstanceAs (Decidable (List.Pairwise _ events))

theorem insertionOrdered_iff {specialDone : Bool} {count : Word} {events : List InterruptEvent} :
    InsertionOrdered specialDone count events ↔
      Core.Orderly (movable count) (rank specialDone count) events := by
  refine List.pairwise_iff_getElem.trans (Iff.trans ?_ List.pairwise_iff_getElem.symm)
  have hpair (earlier later : InterruptEvent) :
      (later.type = .specialInt ∨
          beforeEvent specialDone count later.count earlier.count earlier.type = false) ↔
        Core.precedes (movable count) (rank specialDone count) later earlier = false := by
    rw [← before_eq_precedes, Bool.and_eq_false_iff, or_comm]
    simp
  simp only [hpair]

theorem savestatesLoad_save {i : Interrupts} (hwell : i.q.WellFormed) (t : Interrupts)
    (count : Word) (rest : List Word) :
    ∃ j, t.savestatesLoad count i.nextInterrupt (i.saveEventqueueInfos ++ rest) = some j ∧
      (j.events = i.events ↔ InsertionOrdered (t.doneAfter count) count i.events) ∧
      j.HeadCached ∧ (i.events = [] → j.nextInterrupt = i.nextInterrupt) := by
  have hlength : i.events.length ≤ clearQueue.pool.stack.length := by
    have htotal := hwell.length_add
    rw [Interrupts.events, List.length_map]
    exact Nat.le.intro htotal
  have hspec := @foldl_addEvent_spec
    { t with nextInterrupt := i.nextInterrupt, q := clearQueue } count i.events hlength
  have hclear : { t with nextInterrupt := i.nextInterrupt, q := clearQueue }.HeadCached :=
    fun e he => absurd he (Option.not_mem_none e)
  refine ⟨i.events.foldl (Interrupts.addEvent count)
    { t with nextInterrupt := i.nextInterrupt, q := clearQueue }, ?_, ?_, hspec.2 hclear, ?_⟩
  · rw [Interrupts.savestatesLoad, Interrupts.loadEventqueueInfos, Interrupts.saveEventqueueInfos,
      List.append_assoc, List.singleton_append]
    exact loadEvents_saved count i.events rest _
  · rw [hspec.1, insertionOrdered_iff]
    exact Core.fill_nil_eq_iff
  · intro hempty
    rw [hempty]
    rfl

/-- The cache is the count of the first event, or nothing hangs on it any more. -/
def HeadDue (span : Nat) (count next : Word) (events : List InterruptEvent) : Prop :=
  ∀ e ∈ events.head?, e.count = next ∨ (Settled span count e.count ∧ Settled span count next)

theorem dueAlike_iff_headDue {i j : Interrupts} {span : Nat} {count : Word} (hevents : j.events = i.events)
    (hcached : j.HeadCached) (hempty : i.events = [] → j.nextInterrupt = i.nextInterrupt) :
    DueAlike span count i.nextInterrupt j.nextInterrupt ↔
      HeadDue span count i.nextInterrupt i.events := by
  rw [dueAlike_iff, HeadDue]
  cases hi : i.events with
  | nil => simp [hempty hi]
  | cons e rest =>
    have hnext : j.nextInterrupt = e.count := hcached e (by simp [hevents, hi])
    simp [hnext]

/-- In every reachable state the saved queue can be loaded into any machine at the same Count. The
machine then holds the same events and enters `gen_interrupt` at the same Count exactly when the
events were in the order of insertion and the cache agreed with the first one. -/
theorem run_load_save_iff (cfg : Config) (actions : List Action) (t : Interrupts)
    (rest : List Word) (span : Nat) :
    let d := (run cfg actions).device
    ∃ j, t.savestatesLoad d.count d.interrupts.nextInterrupt
        (d.interrupts.saveEventqueueInfos ++ rest) = some j ∧
      ((j.events = d.interrupts.events ∧
          DueAlike span d.count d.interrupts.nextInterrupt j.nextInterrupt) ↔
        InsertionOrdered (t.doneAfter d.count) d.count d.interrupts.events ∧
          HeadDue span d.count d.interrupts.nextInterrupt d.interrupts.events) := by
  intro d
  have hshape : QueueShape d.schedule := QueueShape.reachable ⟨actions, rfl⟩
  have hwell : d.interrupts.q.WellFormed := hshape.wellFormed
  obtain ⟨j, hload, horder, hcached, hempty⟩ := savestatesLoad_save hwell t d.count rest
  refine ⟨j, hload, ?_⟩
  rw [← horder]
  exact and_congr_right fun hevents => dueAlike_iff_headDue hevents hcached hempty

def complete (op : Operation) : List Action :=
  .fetch [] ⟨false, op⟩ :: List.replicate 12 .call

/-- The wrap mark and the first vertical interrupt are handled, the timer is set a little more than
half a Count cycle ahead, and the machine idles until the next vertical interrupt is handled. -/
def distantTimer : List Action :=
  [.jump ⟨0#32, false, true⟩, .jump ⟨0#32, false, true⟩, .mtc0 .compare 0x80005100#32,
    .jumpIdle ⟨0#32, true, true⟩, .jump ⟨0#32, false, true⟩].flatMap complete

/-- The timer waits behind the wrap mark and is loaded in front of it. -/
theorem distant_timer_is_moved :
    let d := (run sampleConfig distantTimer).device
    (run sampleConfig distantTimer).todo = [] ∧
      d.interrupts.events =
        [⟨.viInt, 1005000#32⟩, ⟨.specialInt, 0#32⟩, ⟨.compareInt, 0x80005100#32⟩] ∧
      (d.interrupts.savestatesLoad d.count d.interrupts.nextInterrupt
          d.interrupts.saveEventqueueInfos).map Interrupts.events =
        some [⟨.viInt, 1005000#32⟩, ⟨.compareInt, 0x80005100#32⟩, ⟨.specialInt, 0#32⟩] := by
  decide +kernel

end ParallelN64.R4300
