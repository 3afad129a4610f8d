import ParallelN64.R4300.QueueShape

/-!
# The video deadline

The count of the queued VI_INT is kept a second time in the video interface. Every call
keeps the two equal, but for a write of Count, which moves the queued event only.
-/

namespace ParallelN64.R4300

open Schedule

def ViDueAt (next : Word) (data : InterruptEvent) : Prop := data.type = .viInt → data.count = next

def VideoDue (s : Schedule) : Prop := ∀ e ∈ s.interrupts.q.first, ViDueAt s.nextVi e.data

namespace VideoDue

variable {cfg : Config} {s s' : Schedule} {event : QueueNode} {rest : List QueueNode}

theorem congr (h : VideoDue s) (hq : s'.interrupts.q = s.interrupts.q)
    (hnext : s'.nextVi = s.nextVi) : VideoDue s' := by
  rw [VideoDue, hq, hnext]
  exact h

theorem added {data : InterruptEvent} (h : VideoDue s)
    (hadd : Added data s.interrupts.q s'.interrupts.q) (hnext : s'.nextVi = s.nextVi)
    (hdata : data.type = .viInt → data.count = s.nextVi) : VideoDue s' := by
  rw [VideoDue, hnext]
  exact hadd.forall_data (P := ViDueAt s.nextVi) hdata h

theorem addEvent {type : EventType} (h : VideoDue s) (htype : type ≠ .viInt) (count : Word) :
    VideoDue (s.addEvent type count) :=
  h.added (added_addInterruptEventCount s.interrupts s.count type count) rfl
    fun heq => absurd heq htype

theorem removeFirst (h : VideoDue s) (hfirst : s.interrupts.q.first = event :: rest) :
    VideoDue s.removeFirst :=
  (removed_removeInterruptEvent s.interrupts hfirst s.count).forall_data (P := ViDueAt s.nextVi) h

theorem removeEvent (h : VideoDue s) (type : EventType) :
    VideoDue { s with interrupts := s.interrupts.removeEvent type } := by
  rcases removed_removeEvent s.interrupts type with ⟨-, heq⟩ | ⟨event, -, hremove⟩
  · exact h.congr heq rfl
  · exact hremove.forall_data (P := ViDueAt s.nextVi) h

theorem fresh {clock : Int} {count : Word} (h : s.interrupts = freshInterrupts clock count)
    (hnext : s.nextVi = 5000#32) : VideoDue s := by
  have hclear : VideoDue { s with interrupts := ⟨clearQueue, true, 0#32, clock⟩ } := nofun
  have hspecial : VideoDue { s with
      interrupts := (Interrupts.initInterrupt ⟨clearQueue, true, 0#32, clock⟩ count) } :=
    hclear.added (added_addInterruptEventCount _ count .specialInt 0#32) rfl nofun
  have hvi : Added ⟨.viInt, 5000#32⟩
      (Interrupts.initInterrupt ⟨clearQueue, true, 0#32, clock⟩ count).q s.interrupts.q := by
    rw [h]
    exact added_addInterruptEventCount _ count .viInt 5000#32
  exact hspecial.added hvi rfl fun _ => hnext.symm

theorem scheduleVi (delay : Word) (hnone : s.interrupts.q.queued .viInt = 0) :
    VideoDue (s.scheduleVi delay) := by
  have hvi : VideoDue { s with viDelay := delay, nextVi := s.nextVi + delay } :=
    fun e he htype => absurd htype (InterruptQueue.queued_eq_zero_iff.mp hnone e he)
  exact hvi.added (added_addInterruptEventCount s.interrupts s.count .viInt (s.nextVi + delay))
    rfl fun _ => rfl

theorem move (h : VideoDue s) (hmove : Move cfg s s') : VideoDue s' := by
  cases hmove with
  | updateCount => exact h.congr rfl rfl
  | goTo address => exact h.congr rfl rfl
  | defer => exact h.congr rfl rfl
  | pushCheckInt => exact h.added (added_pushCheckInt s.interrupts s.count) rfl nofun

theorem moves (h : VideoDue s) (hmoves : Moves cfg s s') : VideoDue s' :=
  hmoves.keeps (fun _ _ hmove hs => move hs hmove) h

theorem startAudio (h : VideoDue s) (duration : Word) : VideoDue (s.startAudio cfg duration) := by
  have hcount : VideoDue (s.updateCount cfg) := h.congr rfl rfl
  have haudio : EventType.aiInt ≠ .viInt := by decide
  exact hcount.addEvent haudio _

theorem polled (h : VideoDue s) (hshape : QueueShape s) (hpolled : Polled cfg s s') :
    VideoDue s' := by
  cases hpolled with
  | early _ => exact h
  | resetHard => exact fresh (QueueShape.restart_interrupts s _ _) rfl
  | finishJump _ _ => exact h.congr rfl rfl
  | empty _ => exact h
  | special _ _ _ => exact h
  | rotate hfires _ _ =>
    have hspecial : VideoDue { s with interrupts := { s.interrupts with specialDone := true } } :=
      h.congr rfl rfl
    have hmark : EventType.specialInt ≠ .viInt := by decide
    exact (hspecial.removeFirst hfires.first).addEvent hmark 0#32
  | vi hfires htype delay =>
    have hnone := hshape.queued_removeFirst hfires.first (by rw [htype]; decide)
    rw [htype] at hnone
    exact scheduleVi delay hnone
  | compare hfires _ =>
    have hadvance : VideoDue (s.removeFirst.advance cfg.countPerOp) :=
      (h.removeFirst hfires.first).congr rfl rfl
    have htimer : EventType.compareInt ≠ .viInt := by decide
    exact (hadvance.addEvent htimer s.compare).congr rfl rfl
  | aiNext hfires _ duration =>
    have hremoved : VideoDue
        { s.removeFirst with aiStatus := s.aiStatus &&& ~~~aiStatusFull } :=
      (h.removeFirst hfires.first).congr rfl rfl
    exact hremoved.startAudio duration
  | aiStop hfires _ => exact (h.removeFirst hfires.first).congr rfl rfl
  | nmi _ _ => exact fresh (QueueShape.restart_interrupts s _ _) rfl
  | plain hfires _ => exact h.removeFirst hfires.first

theorem audio (h : VideoDue s) (haudio : Audio cfg s s') : VideoDue s' := by
  cases haudio with
  | moves hmoves => exact h.moves hmoves
  | queue _ => exact h.congr rfl rfl
  | start _ duration =>
    have hbusy : VideoDue { s with aiStatus := s.aiStatus ||| aiStatusBusy } := h.congr rfl rfl
    exact hbusy.startAudio duration

theorem writeCompare (h : VideoDue s) (value : Word) : VideoDue (s.writeCompare value) := by
  have htimer : EventType.compareInt ≠ .viInt := by decide
  exact ((h.removeEvent .compareInt).addEvent htimer value).congr rfl rfl

theorem forall_writeCount {P : InterruptEvent → Prop} {value : Word}
    (h : ∀ e ∈ s.interrupts.q.first, P ⟨e.data.type, (e.data.count - s.count) + value⟩)
    (htypes : ∀ data : InterruptEvent, data.type ≠ .viInt → P data) :
    ∀ e ∈ (s.writeCount value).interrupts.q.first, P e.data := by
  have hremoved (type : EventType) (i : Interrupts)
      (hi : ∀ e ∈ i.q.first, P ⟨e.data.type, (e.data.count - s.count) + value⟩) :
      ∀ e ∈ (i.removeEvent type).q.first, P ⟨e.data.type, (e.data.count - s.count) + value⟩ := by
    rcases removed_removeEvent i type with ⟨-, heq⟩ | ⟨event, -, hremove⟩
    · rwa [heq]
    · exact hremove.forall_data
        (P := fun data => P ⟨data.type, (data.count - s.count) + value⟩) hi
  have hmoved : ∀ e ∈ (s.interrupts.moved s.count value).q.first, P e.data := by
    intro e he
    obtain ⟨e₀, he₀, rfl⟩ := List.mem_map.mp he
    exact hremoved .specialInt _ (hremoved .compareInt _ h) e₀ he₀
  have htimer : EventType.compareInt ≠ .viInt := by decide
  have hmark : EventType.specialInt ≠ .viInt := by decide
  have hcompare := (added_addInterruptEventCount (s.interrupts.moved s.count value) s.count
    .compareInt s.compare).forall_data (htypes _ htimer) hmoved
  exact (added_addInterruptEventCount _ s.count .specialInt 0#32).forall_data
    (htypes _ hmark) hcompare

theorem mem_writeCount {e : QueueNode} (he : e ∈ s.interrupts.q.first)
    (htype : e.data.type = .viInt) (value : Word) :
    e.translated s.count value ∈ (s.writeCount value).interrupts.q.first := by
  have hcompare : e ∈ (s.interrupts.removeEvent .compareInt).q.first :=
    mem_removeEvent s.interrupts he (by rw [htype]; decide)
  have hspecial : e ∈ ((s.interrupts.removeEvent .compareInt).removeEvent .specialInt).q.first :=
    mem_removeEvent _ hcompare (by rw [htype]; decide)
  have hmoved : e.translated s.count value ∈ (s.interrupts.moved s.count value).q.first :=
    List.mem_map_of_mem hspecial
  exact (added_addInterruptEventCount _ s.count .specialInt 0#32).mem
    ((added_addInterruptEventCount _ s.count .compareInt s.compare).mem hmoved)

theorem writeCount (h : VideoDue s) {value : Word}
    (hvalue : value = s.count ∨ ∀ e ∈ s.interrupts.q.first, e.data.type ≠ .viInt) :
    VideoDue (s.writeCount value) := by
  refine forall_writeCount (P := ViDueAt s.nextVi) (fun e he htype => ?_)
    fun data hne htype => absurd htype hne
  rcases hvalue with rfl | hnone
  · rw [← h e he htype]
    exact BitVec.sub_add_cancel e.data.count s.count
  · exact absurd htype (hnone e he)

theorem of_writeCount (h : VideoDue s) {value : Word} (hafter : VideoDue (s.writeCount value)) :
    value = s.count ∨ ∀ e ∈ s.interrupts.q.first, e.data.type ≠ .viInt := by
  by_cases hnone : ∀ e ∈ s.interrupts.q.first, e.data.type ≠ .viInt
  · exact Or.inr hnone
  · simp only [not_forall, not_not] at hnone
    obtain ⟨e, he, htype⟩ := hnone
    have hcount : (e.data.count - s.count) + value = s.nextVi :=
      hafter _ (mem_writeCount he htype value) htype
    rw [← h e he htype] at hcount
    have hsame : (e.data.count - s.count) + s.count = e.data.count :=
      BitVec.sub_add_cancel e.data.count s.count
    exact Or.inl ((BitVec.add_right_inj _).mp (hcount.trans hsame.symm))

theorem effect {c : Call} (h : VideoDue s) (hshape : QueueShape s)
    (heffect : Effect cfg s s' c)
    (hcond : ∀ value, c = .writeCount value →
      value = s.count ∨ ∀ e ∈ s.interrupts.q.first, e.data.type ≠ .viInt) : VideoDue s' := by
  cases c with
  | addToPc bytes =>
    subst heffect
    exact h.congr rfl rfl
  | endJump j =>
    rcases heffect with rfl | rfl
    · exact h
    · exact h.congr rfl rfl
  | returnFromException =>
    obtain ⟨address, rfl⟩ := heffect
    exact h.congr rfl rfl
  | setLastAddr =>
    subst heffect
    exact h.congr rfl rfl
  | idle j =>
    rcases heffect with rfl | ⟨-, rfl⟩
    · exact h
    · exact h.congr rfl rfl
  | addEvent transfer delay =>
    subst heffect
    refine h.addEvent ?_ _
    cases transfer with
    | _ => decide
  | doSpTask task =>
    have hcount : VideoDue (s.updateCount cfg) := h.congr rfl rfl
    have hdp : EventType.dpInt ≠ .viInt := by decide
    rcases heffect with rfl | rfl
    · exact h
    · exact hcount.addEvent hdp _
  | writeCount value =>
    subst heffect
    exact h.writeCount (hcond value rfl)
  | writeCompare value =>
    subst heffect
    exact h.writeCompare value
  | poll => exact h.polled hshape heffect
  | access access =>
    cases access with
    | writeAiRegs reg value mask => exact h.audio heffect
    | _ => exact h.moves heffect
  | _ => exact h.moves heffect

theorem resetSoft (h : VideoDue s) : VideoDue s.resetSoft := by
  have hhw2 : EventType.hw2Int ≠ .viInt := by decide
  have hnmi : EventType.nmiInt ≠ .viInt := by decide
  exact (h.addEvent hhw2 _).addEvent hnmi _

end VideoDue

/-- Software writes to Count only the value it has, while a vertical interrupt is queued. -/
def KeepsCount (s : Interpreter) : Action → Prop
  | .call => ∀ value rest, s.todo = .writeCount value :: rest →
      value = s.device.count ∨ ∀ e ∈ s.device.interrupts.events, e.type ≠ .viInt
  | _ => True

/-- The queued deadline is that of the video interface, and the deadline after one that is
dispatched lies one delay behind it. -/
structure VideoCoherent (cfg : Config) (d : Device) : Prop where
  due : ∀ e ∈ d.interrupts.events, e.type = .viInt → e.count = d.vi.nextVi
  successive : ∀ event rest, d.interrupts.q.first = event :: rest → event.data.type = .viInt →
    d.interruptDue = true → d.resets = false → d.skipJump = 0#32 →
    ∀ e ∈ (d.poll cfg).1.interrupts.events, e.type = .viInt →
      e.count = event.data.count + (d.poll cfg).1.vi.delay

section Run

variable {cfg : Config} {d : Device} {event : QueueNode} {rest : List QueueNode}

theorem poll_viInt (hfirst : d.interrupts.q.first = event :: rest)
    (htype : event.data.type = .viInt) (hdue : d.interruptDue = true) (hreset : d.resets = false)
    (hjump : d.skipJump = 0#32) :
    ∃ delay, (d.poll cfg).1.schedule = d.schedule.removeFirst.scheduleVi delay := by
  rw [Device.poll, if_pos hdue, Device.genInterrupt, if_neg (by simp [hreset]),
    if_neg (by simp [hjump]), hfirst]
  simp only [htype, Device.dispatch]
  exact ⟨_, rfl⟩

theorem videoCoherent_of_due (hshape : QueueShape d.schedule) (h : VideoDue d.schedule) :
    VideoCoherent cfg d := by
  constructor
  case due =>
    intro data hdata
    obtain ⟨e, he, rfl⟩ := List.mem_map.mp hdata
    exact h e he
  case successive =>
    intro event rest hfirst htype hdue hreset hjump data hdata hvi
    obtain ⟨e, he, rfl⟩ := List.mem_map.mp hdata
    obtain ⟨delay, hpoll⟩ := @poll_viInt cfg d event rest hfirst htype hdue hreset hjump
    have hnone := hshape.queued_removeFirst hfirst (by rw [htype]; decide)
    rw [htype] at hnone
    have hafter : VideoDue (d.poll cfg).1.schedule := hpoll ▸ VideoDue.scheduleVi delay hnone
    have hnext : (d.poll cfg).1.vi.nextVi = d.vi.nextVi + delay := congrArg nextVi hpoll
    have hdelay : (d.poll cfg).1.vi.delay = delay := congrArg viDelay hpoll
    have hmem : event ∈ d.interrupts.q.first := hfirst ▸ List.mem_cons_self
    have hevent : event.data.count = d.vi.nextVi := h event hmem htype
    rw [hafter e he hvi, hevent, hdelay]
    exact hnext

variable (cfg)

/-- The deadline is kept all along a run exactly when every write of Count writes the value it
has or happens while no vertical interrupt is queued. -/
theorem run_videoCoherent_iff (actions : List Action) :
    (∀ first rest, actions = first ++ rest → VideoCoherent cfg (run cfg first).device) ↔
      ∀ first a rest, actions = first ++ a :: rest → KeepsCount (run cfg first) a := by
  have hinit : QueueShape (poweredOn cfg).device.schedule ∧
      VideoDue (poweredOn cfg).device.schedule := by
    rw [schedule_poweredOn]
    exact ⟨QueueShape.poweredOn, VideoDue.fresh (by rw [poweredOnSchedule]) rfl⟩
  refine Core.foldl_prefix_iff
    (fun s : Interpreter => QueueShape s.device.schedule ∧ VideoDue s.device.schedule)
    (fun s => VideoCoherent cfg s.device) KeepsCount hinit (fun s a _ hs hcond => ?_)
    (fun s hs => videoCoherent_of_due hs.1 hs.2) fun s a _ hs hafter => ?_
  · refine ⟨hs.1.step a, step_keeps hs.2 hs.2.resetSoft fun s' c rest ha htodo heffect => ?_⟩
    refine hs.2.effect hs.1 heffect fun value hc => ?_
    subst ha hc
    rcases hcond value rest htodo with hvalue | hnone
    · exact Or.inl hvalue
    · exact Or.inr fun e he => hnone e.data (List.mem_map_of_mem he)
  · cases a with
    | call =>
      intro value rest htodo
      have hstep : (s.step cfg .call).device = s.device.writeCount value := by
        rw [Interpreter.step, htodo]
        rfl
      have hdue : VideoDue (s.device.schedule.writeCount value) := by
        have hdue := hafter.due
        rw [hstep] at hdue
        exact fun e he => hdue e.data (List.mem_map_of_mem he)
      rcases hs.2.of_writeCount hdue with hvalue | hnone
      · exact Or.inl hvalue
      · refine Or.inr fun data hdata => ?_
        obtain ⟨e, he, rfl⟩ := List.mem_map.mp hdata
        exact hnone e he
    | _ => exact trivial

/-- A write of Count right after power on: the vertical interrupt moves, its deadline in the video
interface does not. -/
theorem write_of_count_splits_deadline :
    let d := (run sampleConfig (.fetch [] ⟨false, .mtc0 .count 0x100#32⟩ ::
      List.replicate 6 .call)).device
    ⟨.viInt, 0xFFFFC488#32⟩ ∈ d.interrupts.events ∧ d.vi.nextVi = 5000#32 := by
  decide +kernel

end Run

end ParallelN64.R4300
