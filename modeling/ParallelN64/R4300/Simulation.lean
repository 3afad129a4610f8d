import ParallelN64.R4300.Schedule

/-!
# Calls change the schedule as described

Each function of the interrupt code and of the devices is followed on the schedule. Most of
them only count, check and enter exceptions; the others are the changes named for the
schedule.
-/

namespace ParallelN64.R4300

variable {cfg : Config} {d : Device}

open Schedule

theorem schedule_setCp0 {reg : Cp0Reg} (hcount : reg ≠ .count) (hcompare : reg ≠ .compare)
    (value : Word) : (d.setCp0 reg value).schedule = d.schedule := by
  simp only [Device.schedule, Device.setCp0, Function.update_of_ne hcount.symm,
    Function.update_of_ne hcompare.symm]

variable (value : Word) {d' : Device} {event : QueueNode} {rest : List QueueNode}

@[simp] theorem schedule_setCp0_status :
    (d.setCp0 .status value).schedule = d.schedule := schedule_setCp0 (by decide) (by decide) value

@[simp] theorem schedule_setCp0_cause :
    (d.setCp0 .cause value).schedule = d.schedule := schedule_setCp0 (by decide) (by decide) value

@[simp] theorem schedule_setCp0_epc :
    (d.setCp0 .epc value).schedule = d.schedule := schedule_setCp0 (by decide) (by decide) value

theorem schedule_setAi {reg : AiReg} (h : reg ≠ .status) (value : Word) :
    (d.setAi reg value).schedule = d.schedule := by
  simp only [Device.schedule, Device.setAi, Function.update_of_ne h.symm]

@[simp] theorem schedule_setAi_status :
    (d.setAi .status value).schedule = { d.schedule with aiStatus := value } := by
  simp only [Device.schedule, Device.setAi, Function.update_self]

theorem deferJump_moves (h : d.pc ≠ 0#32) : Moves cfg d.schedule d.deferJump.schedule := by
  rw [Device.deferJump]
  split
  · exact Moves.of_move (Move.defer d.schedule h)
  · exact Relation.ReflTransGen.refl

theorem goTo_moves (address : Word) :
    Moves cfg d.schedule { d with pc := address, lastAddr := address }.schedule :=
  Moves.of_move (Move.goTo d.schedule address)

theorem cp0UpdateCount_moves : Moves cfg d.schedule (d.cp0UpdateCount cfg).schedule :=
  Moves.of_move (Move.updateCount d.schedule)

theorem Schedule.Moves.congr {s : Schedule} (h : Moves cfg s d.schedule)
    (heq : d'.schedule = d.schedule) : Moves cfg s d'.schedule := heq ▸ h

@[simp] theorem schedule_markDelaySlot : d.markDelaySlot.schedule = d.schedule := by
  rw [Device.markDelaySlot]
  split
  · rfl
  · rfl

@[simp] theorem schedule_recordMiss (miss : TlbMiss) :
    (d.recordMiss miss).schedule = d.schedule := rfl

theorem schedule_enterRefill (miss : TlbMiss) :
    ∃ address, address ≠ 0#32 ∧
      (d.enterRefill miss).schedule = { d.schedule with pc := address } := by
  rw [Device.enterRefill]
  split
  · refine ⟨0x80000180#32, by decide, ?_⟩
    dsimp only
    split
    · rfl
    · rfl
  · refine ⟨_, ?_, rfl⟩
    dsimp only
    split
    · decide
    · decide

theorem Schedule.Moves.of_eq (h : d'.schedule = d.schedule) :
    Moves cfg d.schedule d'.schedule := h ▸ Relation.ReflTransGen.refl

theorem exceptionGeneral_moves : Moves cfg d.schedule (d.exceptionGeneral cfg).schedule := by
  rw [Device.exceptionGeneral]
  refine Relation.ReflTransGen.trans cp0UpdateCount_moves ?_
  have hpc : (0x80000180#32 : Word) ≠ 0#32 := by decide
  refine Relation.ReflTransGen.trans ?_ (deferJump_moves hpc)
  refine (goTo_moves (d := d.cp0UpdateCount cfg) 0x80000180#32).congr ?_
  rw [Device.markDelaySlot]
  split
  · rfl
  · rfl

theorem tlbRefillException_moves (miss : TlbMiss) :
    Moves cfg d.schedule (d.tlbRefillException cfg miss).schedule := by
  have hcount : Moves cfg d.schedule
      (if miss.access = .fetch then d else d.cp0UpdateCount cfg).schedule := by
    split
    · exact Relation.ReflTransGen.refl
    · exact cp0UpdateCount_moves
  rw [Device.tlbRefillException]
  refine Relation.ReflTransGen.trans hcount ?_
  generalize (if miss.access = .fetch then d else d.cp0UpdateCount cfg) = d'
  obtain ⟨address, hne, haddress⟩ := schedule_enterRefill (d := d'.recordMiss miss) miss
  rw [schedule_recordMiss, ← schedule_markDelaySlot] at haddress
  generalize ((d'.recordMiss miss).enterRefill miss).markDelaySlot = d'' at haddress
  have hjump (d₀ : Device) (h : d₀.schedule = d''.schedule) :
      Moves cfg d'.schedule { d₀ with lastAddr := d₀.pc }.deferJump.schedule := by
    have hgo : Moves cfg d'.schedule { d₀ with lastAddr := d₀.pc }.schedule := by
      have hschedule : { d₀ with lastAddr := d₀.pc }.schedule =
          { d₀.schedule with lastAddr := d₀.schedule.pc } := rfl
      rw [hschedule, h, haddress]
      exact Moves.of_move (Move.goTo d'.schedule address)
    have hpc : d₀.pc ≠ 0#32 := (congrArg Schedule.pc (h.trans haddress)).trans_ne hne
    exact hgo.trans (deferJump_moves hpc)
  split
  · exact hjump _ rfl
  · exact hjump _ (schedule_setCp0_epc _)

theorem checkInterrupt_moves : Moves cfg d.schedule d.checkInterrupt.schedule := by
  have hpush (cause : Word) : Moves cfg d.schedule
      { d.setCp0 .cause cause with
        interrupts := d.interrupts.pushCheckInt (d.setCp0 .cause cause).count }.schedule :=
    (Moves.of_move (Move.pushCheckInt d.schedule)).congr rfl
  have hkeep (cause : Word) : Moves cfg d.schedule (d.setCp0 .cause cause).schedule :=
    Moves.of_eq (schedule_setCp0_cause cause)
  rw [Device.checkInterrupt]
  split_ifs
  · exact hpush _
  · exact hkeep _
  · exact hpush _
  · exact hkeep _

theorem raiseMaskableInterrupt_moves (cause : Word) :
    Moves cfg d.schedule (d.raiseMaskableInterrupt cfg cause).schedule := by
  rw [Device.raiseMaskableInterrupt]
  split
  · exact exceptionGeneral_moves (d := d.setCp0 .cause _)
  · exact Moves.of_eq rfl

theorem raiseRcpInterrupt_moves (miIntr : Word) :
    Moves cfg d.schedule (d.raiseRcpInterrupt cfg miIntr).schedule := by
  rw [Device.raiseRcpInterrupt]
  split
  · exact raiseMaskableInterrupt_moves (d := d.setMi .intr _) cp0CauseIP2
  · exact Moves.of_eq rfl

theorem signalRcpInterrupt_moves (miIntr : Word) :
    Moves cfg d.schedule (d.signalRcpInterrupt miIntr).schedule :=
  checkInterrupt_moves (d := d.setMi .intr _)

theorem clearRcpInterrupt_moves (miIntr : Word) :
    Moves cfg d.schedule (d.clearRcpInterrupt miIntr).schedule :=
  checkInterrupt_moves (d := d.setMi .intr _)

theorem writeMiInitMode_moves (mask : Word) :
    Moves cfg d.schedule (d.writeMiInitMode value mask).schedule := by
  rw [Device.writeMiInitMode]
  split
  · exact clearRcpInterrupt_moves (d := d.setMi .initMode _) miIntrDP
  · exact Moves.of_eq rfl

theorem clearSpIf_moves (c : Bool) : Moves cfg d.schedule (d.clearSpIf c).schedule := by
  rw [Device.clearSpIf]
  split
  · exact clearRcpInterrupt_moves miIntrSP
  · exact Relation.ReflTransGen.refl

theorem signalSpIf_moves (c : Bool) : Moves cfg d.schedule (d.signalSpIf c).schedule := by
  rw [Device.signalSpIf]
  split
  · exact signalRcpInterrupt_moves miIntrSP
  · exact Relation.ReflTransGen.refl

@[simp] theorem schedule_clearSetSp (w clearBit setBit bit : Word) :
    (d.clearSetSp w clearBit setBit bit).schedule = d.schedule := rfl

@[simp] theorem schedule_updateSpSignals (w : Word) :
    (d.updateSpSignals w).schedule = d.schedule := rfl

theorem updateSpBits_moves (w : Word) : Moves cfg d.schedule (d.updateSpBits cfg w).schedule := by
  rw [Device.updateSpBits]
  refine Moves.congr ?_ (schedule_updateSpSignals w)
  refine Relation.ReflTransGen.trans ?_ (signalSpIf_moves _)
  simp only [schedule_clearSetSp]
  refine Relation.ReflTransGen.trans ?_ (signalSpIf_moves _)
  refine Relation.ReflTransGen.trans ?_ (clearSpIf_moves _)
  exact Moves.of_eq (by simp only [schedule_clearSetSp])

theorem doSpTask_schedule (task : SpTask) :
    (d.doSpTask cfg task).1.schedule = d.schedule ∨
      (d.doSpTask cfg task).1.schedule = d.schedule.scheduleDp cfg := by
  rw [Device.doSpTask]
  split_ifs
  · exact Or.inl rfl
  · rw [Device.scheduleDp]
    split
    · exact Or.inr rfl
    · exact Or.inl rfl
  · exact Or.inl rfl

theorem writeRspRegs_moves (reg : SpReg) (value mask : Word) (task : SpTask) :
    Moves cfg d.schedule (d.writeRspRegs cfg reg value mask task).1.schedule := by
  cases reg with
  | status =>
    rw [Device.writeRspRegs, Device.updateSpStatus]
    have hbits := @updateSpBits_moves cfg d (value &&& mask)
    split_ifs
    · exact hbits
    · exact hbits
    · exact hbits
    · exact hbits
  | _ => exact Moves.of_eq rfl

theorem schedule_writeDpcRegs (reg : DpcReg) (value mask : Word) (task : SpTask) :
    (d.writeDpcRegs reg value mask task).1.schedule = d.schedule := by
  cases reg with
  | _ => rfl

theorem ddRaise_moves : Moves cfg d.schedule (d.ddRaise cfg).schedule := by
  rw [Device.ddRaise]
  refine Relation.ReflTransGen.trans cp0UpdateCount_moves ?_
  exact checkInterrupt_moves (d := (d.cp0UpdateCount cfg).setCp0 .cause _)

theorem ddPiTest_moves : Moves cfg d.schedule (d.ddPiTest cfg).schedule := by
  rw [Device.ddPiTest]
  refine Relation.ReflTransGen.trans ?_ checkInterrupt_moves
  exact cp0UpdateCount_moves (d := d.setCp0 .cause _)

theorem writePiRegs_moves (reg : PiReg) (value mask : Word) :
    Moves cfg d.schedule (d.writePiRegs cfg reg value mask).1.schedule := by
  cases reg with
  | cartAddr =>
    rw [Device.writePiRegs]
    split
    · exact ddPiTest_moves.congr rfl
    · exact Moves.of_eq rfl
  | status =>
    rw [Device.writePiRegs]
    split
    · exact clearRcpInterrupt_moves miIntrPI
    · exact Relation.ReflTransGen.refl
  | wrLen =>
    rw [Device.writePiRegs, Device.dmaPiWrite]
    split
    · exact Moves.of_eq rfl
    · exact Moves.of_eq rfl
  | _ => exact Moves.of_eq rfl

theorem writeSiRegs_moves (reg : SiReg) (value mask : Word) :
    Moves cfg d.schedule (d.writeSiRegs cfg reg value mask).1.schedule := by
  have hfinish (d' : Device) : (d'.finishSiDma cfg).1.schedule = d'.schedule := by
    rw [Device.finishSiDma]
    split
    · rfl
    · rfl
  cases reg with
  | dramAddr => exact Moves.of_eq rfl
  | pifAddrRd64b =>
    rw [Device.writeSiRegs]
    split
    · exact Moves.of_eq (hfinish _)
    · exact Moves.of_eq rfl
  | pifAddrWr64b =>
    rw [Device.writeSiRegs]
    split
    · exact Moves.of_eq (hfinish _)
    · exact Moves.of_eq rfl
  | status => exact clearRcpInterrupt_moves (d := d.setSi .status _) miIntrSI

theorem getRemainingDmaLength_moves :
    Moves cfg d.schedule (d.getRemainingDmaLength cfg).1.schedule := by
  rw [Device.getRemainingDmaLength]
  split
  · exact Relation.ReflTransGen.refl
  · dsimp only
    split
    · exact cp0UpdateCount_moves
    · exact cp0UpdateCount_moves

theorem readAiLen_moves : Moves cfg d.schedule (d.readAiLen cfg).schedule :=
  getRemainingDmaLength_moves.congr rfl

theorem readViCurrent_moves : Moves cfg d.schedule (d.readViCurrent cfg).schedule := by
  rw [Device.readViCurrent]
  exact (cp0UpdateCount_moves (d := d)).congr rfl

theorem writeViRegs_moves (reg : ViReg) (value mask : Word) :
    Moves cfg d.schedule (d.writeViRegs reg value mask).schedule := by
  cases reg with
  | current => exact clearRcpInterrupt_moves miIntrVI
  | _ => exact Moves.of_eq rfl

theorem schedule_doDma (dma : AiDma) :
    (d.doDma cfg dma).schedule = d.schedule.startAudio cfg dma.duration := rfl

theorem fifoPush_audio (duration : Word) : Audio cfg d.schedule (d.fifoPush cfg duration).schedule := by
  rw [Device.fifoPush]
  split
  · next hbusy =>
    rw [schedule_setAi_status]
    exact Audio.queue hbusy
  · next hbusy =>
    rw [schedule_doDma, schedule_setAi_status]
    exact Audio.start (not_not.mp hbusy) duration

theorem writeAiRegs_audio {reg : AiReg} {value mask : Word}
    (h : d.writeAiRegs cfg reg value mask = some d') : Audio cfg d.schedule d'.schedule := by
  have hmoves (hmoves : Moves cfg d.schedule d'.schedule) : Audio cfg d.schedule d'.schedule :=
    Audio.moves hmoves
  cases reg with
  | dramAddr =>
    rw [Device.writeAiRegs] at h
    dsimp only at h
    split at h
    · obtain rfl := Option.some.inj h
      exact Audio.moves (Moves.of_eq (schedule_setAi (by decide) _))
    · obtain rfl := Option.some.inj h
      exact Audio.moves (Moves.of_eq (schedule_setAi (by decide) _))
  | len =>
    rw [Device.writeAiRegs, Option.map_eq_some_iff] at h
    obtain ⟨duration, -, rfl⟩ := h
    exact fifoPush_audio (d := d.setAi .len _) duration
  | status =>
    obtain rfl := Option.some.inj h
    exact Audio.moves (clearRcpInterrupt_moves miIntrAI)
  | control =>
    obtain rfl := Option.some.inj h
    exact Audio.moves (Moves.of_eq (schedule_setAi (by decide) _))
  | dacRate =>
    obtain rfl := Option.some.inj h
    exact Audio.moves (Moves.of_eq (schedule_setAi (by decide) _))
  | bitRate =>
    obtain rfl := Option.some.inj h
    exact Audio.moves (Moves.of_eq (schedule_setAi (by decide) _))

theorem initInterrupt_add (i : Interrupts) (count : Word) :
    (i.initInterrupt count).addInterruptEventCount count .viInt 5000#32 =
      freshInterrupts i.clock count := rfl

@[simp] theorem schedule_pifbootromHleExecute :
    (d.pifbootromHleExecute cfg).schedule = d.schedule := rfl

theorem schedule_initInterrupt : d.initInterrupt.schedule =
    { d.schedule with interrupts := d.schedule.interrupts.initInterrupt d.schedule.count } := rfl

theorem schedule_startVi : d.startVi.schedule =
    { d.schedule with viDelay := 5000#32, nextVi := 5000#32 }.addEvent .viInt 5000#32 := rfl

theorem startVi_initInterrupt {s : Schedule} (h : d.schedule =
    { s with interrupts := s.interrupts.initInterrupt s.count }) : d.startVi.schedule =
    { s with
      interrupts := freshInterrupts s.interrupts.clock s.count
      viDelay := 5000#32
      nextVi := 5000#32 } := by
  rw [schedule_startVi, h, addEvent, ← initInterrupt_add]

theorem schedule_poweronDevice :
    d.poweronDevice.schedule =
      { d.schedule with
        interrupts := freshInterrupts d.interrupts.clock 0x5000#32
        count := 0x5000#32
        compare := 0#32
        aiStatus := 0#32
        viDelay := 5000#32
        nextVi := 5000#32 } := by
  have hcp0 : { d with cp0 := poweronCp0, delaySlot := false }.initInterrupt.schedule =
      _ := schedule_initInterrupt
  rw [Device.poweronDevice]
  generalize { d with cp0 := poweronCp0, delaySlot := false }.initInterrupt = d' at hcp0
  refine startVi_initInterrupt (s := { d.schedule with
    count := 0x5000#32, compare := 0#32, aiStatus := 0#32 }) ?_
  exact congrArg (fun s : Schedule => { s with aiStatus := 0#32 }) hcp0

@[simp] theorem clock_freshInterrupts (clock : Int) (count : Word) :
    (freshInterrupts clock count).clock = clock := by
  simp only [freshInterrupts, Interrupts.initInterrupt, Interrupts.clock_addInterruptEventCount]

theorem schedule_resetHard :
    (d.resetHard cfg).schedule = d.schedule.restart 0x5000#32 0#32 := by
  have hpower : (d.poweronDevice.pifbootromHleExecute cfg).schedule = _ :=
    schedule_pifbootromHleExecute.trans schedule_poweronDevice
  rw [Device.resetHard]
  generalize d.poweronDevice.pifbootromHleExecute cfg = d' at hpower
  have hnext : ({ d' with lastAddr := 0xA4000040#32 }.setNextInterrupt 624999#32).schedule =
      { d'.schedule with
        lastAddr := 0xA4000040#32
        interrupts := { d'.schedule.interrupts with nextInterrupt := 624999#32 } } := rfl
  generalize { d' with lastAddr := 0xA4000040#32 }.setNextInterrupt 624999#32 = d'' at hnext
  have hstart : d''.initInterrupt.startVi.schedule = _ :=
    startVi_initInterrupt schedule_initInterrupt
  generalize d''.initInterrupt.startVi = d''' at hstart
  have hjump : { d''' with pc := 0xA4000040#32 }.schedule =
      { d'''.schedule with pc := 0xA4000040#32 } := rfl
  rw [hjump, hstart, hnext, hpower, clock_freshInterrupts, restart, Device.schedule]

theorem schedule_nmiIntHandler :
    (d.nmiIntHandler cfg).schedule = d.schedule.restart 0#32 d.schedule.compare := by
  have hremove : d.removeInterruptEvent.schedule =
      { d.schedule with interrupts := d.removeInterruptEvent.interrupts } := rfl
  have hclock : d.removeInterruptEvent.interrupts.clock = d.schedule.interrupts.clock :=
    Interrupts.clock_removeInterruptEvent d.interrupts d.count
  rw [Device.nmiIntHandler]
  generalize d.removeInterruptEvent = d' at hremove hclock
  have hregs (status : Word) :
      ((((d'.setCp0 .status status).setCp0 .cause 0#32).pifbootromHleExecute cfg).setCp0 .count
        0#32).schedule = { d'.schedule with count := 0#32 } := rfl
  generalize d'.status &&& _ ||| _ = status
  have hstart : ((((d'.setCp0 .status status).setCp0 .cause 0#32).pifbootromHleExecute
      cfg).setCp0 .count 0#32).initInterrupt.startVi.schedule = _ :=
    startVi_initInterrupt schedule_initInterrupt
  rw [hregs] at hstart
  generalize ((((d'.setCp0 .status status).setCp0 .cause 0#32).pifbootromHleExecute
      cfg).setCp0 .count 0#32).initInterrupt.startVi = d'' at hstart
  have hend (d₀ : Device) (h : d₀.schedule = { d''.schedule with aiStatus := 0#32 }) :
      { d₀ with delaySlot := false, lastAddr := 0xA4000040#32, pc := 0xA4000040#32 }.schedule =
        d.schedule.restart 0#32 d.schedule.compare := by
    have hjump : { d₀ with
        delaySlot := false, lastAddr := 0xA4000040#32, pc := 0xA4000040#32 }.schedule =
        { d₀.schedule with lastAddr := 0xA4000040#32, pc := 0xA4000040#32 } := rfl
    rw [hjump, h, hstart, hremove, hclock, restart]
  have hepc : ((d''.setAi .status 0#32).setCp0 .errorEpc d''.pc).schedule =
      { d''.schedule with aiStatus := 0#32 } := by
    rw [schedule_setCp0 (by decide) (by decide), schedule_setAi_status]
  split
  · exact hend _ ((schedule_setCp0 (by decide) (by decide) _).trans hepc)
  · exact hend _ hepc

theorem schedule_compareIntHandler :
    (d.compareIntHandler cfg).1.schedule = d.schedule.rearmCompare cfg := by
  have hcount : d.count + cfg.countPerOp - cfg.countPerOp = d.count :=
    BitVec.add_sub_cancel d.count cfg.countPerOp
  have hclock : d.removeInterruptEvent.interrupts.clock = d.interrupts.clock :=
    Interrupts.clock_removeInterruptEvent d.interrupts d.count
  ext : 1
  case interrupts =>
    rw [Device.compareIntHandler, hclock]
    rfl
  case count => exact hcount
  all_goals rfl

theorem specialIntHandler_polled (h : Fires d.schedule event rest)
    (htype : event.data.type = .specialInt) :
    Polled cfg d.schedule d.specialIntHandler.schedule := by
  rw [Device.specialIntHandler]
  split
  · next hlate => exact Polled.special h htype hlate
  · next hlate => exact Polled.rotate h htype hlate

theorem aiEndOfDmaEvent_polled (h : Fires d.schedule event rest)
    (htype : event.data.type = .aiInt) :
    Polled cfg d.schedule (d.removeInterruptEvent.aiEndOfDmaEvent cfg).1.schedule := by
  rw [Device.aiEndOfDmaEvent, Device.fifoPop]
  split
  · rw [schedule_doDma, schedule_setAi_status]
    exact Polled.aiNext h htype _
  · rw [schedule_setAi_status]
    exact Polled.aiStop h htype

theorem dispatch_polled (h : Fires d.schedule event rest) :
    Polled cfg d.schedule (d.dispatch cfg event.data.type).1.schedule := by
  have hplain (hplain : plainTypes event.data.type) :
      Polled cfg d.schedule d.removeInterruptEvent.schedule := Polled.plain h hplain
  cases htype : event.data.type with
  | specialInt => exact specialIntHandler_polled h htype
  | viInt => exact Polled.vi h htype _
  | compareInt =>
    have hcompare : Polled cfg d.schedule _ := Polled.compare h htype
    rwa [← schedule_compareIntHandler] at hcompare
  | aiInt => exact aiEndOfDmaEvent_polled h htype
  | nmiInt =>
    have hnmi : Polled cfg d.schedule _ := Polled.nmi h htype
    rwa [← schedule_nmiIntHandler] at hnmi
  | checkInt => exact hplain (by simp [plainTypes, htype])
  | siInt => exact hplain (by simp [plainTypes, htype])
  | piInt => exact hplain (by simp [plainTypes, htype])
  | spInt => exact hplain (by simp [plainTypes, htype])
  | dpInt => exact hplain (by simp [plainTypes, htype])
  | hw2Int => exact hplain (by simp [plainTypes, htype])
  | cartInt => exact hplain (by simp [plainTypes, htype])
  | unknown code => exact hplain (by simp [plainTypes, htype])

theorem poll_polled : Polled cfg d.schedule (d.poll cfg).1.schedule := by
  rw [Device.poll]
  split
  · next hdue =>
    have hnext : d.schedule.interrupts.nextInterrupt ≤ d.schedule.count := of_decide_eq_true hdue
    rw [Device.genInterrupt]
    split
    · have hreset : Polled cfg d.schedule _ := Polled.resetHard
      rw [← @schedule_resetHard cfg] at hreset
      generalize d.resetHard cfg = d' at hreset
      exact hreset
    · split
      · next hjump => exact Polled.finishJump hnext hjump
      · next hjump =>
        split
        · next hfirst => exact Polled.empty hfirst
        · next event rest hfirst =>
          exact dispatch_polled ⟨hnext, not_not.mp hjump, hfirst⟩
  · next hdue => exact Polled.early fun hnext => hdue (decide_eq_true hnext)

theorem dispatched_fires {type : EventType} (h : d.dispatched = some type) :
    ∃ event rest, Fires d.schedule event rest ∧ event.data.type = type := by
  rw [Device.dispatched] at h
  split at h
  · next hready =>
    simp only [Bool.and_eq_true, Bool.not_eq_true', decide_eq_true_eq] at hready
    obtain ⟨⟨hdue, -⟩, hjump⟩ := hready
    cases hfirst : d.interrupts.q.first with
    | nil => simp [hfirst] at h
    | cons event rest =>
      exact ⟨event, rest, ⟨of_decide_eq_true hdue, hjump, hfirst⟩, by simpa [hfirst] using h⟩
  · exact absurd h (Option.some_ne_none _).symm

theorem idle_effect (j : Jump) :
    Effect cfg d.schedule (d.idle j).1.schedule (.idle j) := by
  rw [Device.idle]
  split
  · next hskip => exact Or.inr ⟨hskip, rfl⟩
  · exact Or.inl rfl

theorem access_effect {access : DeviceAccess} {more : List Call}
    (h : d.access cfg access = some (d', more)) :
    Effect cfg d.schedule d'.schedule (.access access) := by
  cases access with
  | writeAiRegs reg value mask =>
    rw [Device.access, Option.map_eq_some_iff] at h
    obtain ⟨d'', hwrite, heq⟩ := h
    obtain ⟨rfl, -⟩ := Prod.mk.inj heq
    exact writeAiRegs_audio hwrite
  | writeMiInitMode value mask =>
    exact of_call h (writeMiInitMode_moves value mask)
  | writeRspRegs reg value mask task =>
    exact of_call h (writeRspRegs_moves reg value mask task)
  | writeDpcRegs reg value mask task =>
    exact of_call h (Moves.of_eq (schedule_writeDpcRegs reg value mask task))
  | writePiRegs reg value mask =>
    exact of_call h (writePiRegs_moves reg value mask)
  | writeSiRegs reg value mask =>
    exact of_call h (writeSiRegs_moves reg value mask)
  | readAiLen =>
    exact of_call h readAiLen_moves
  | writeViRegs reg value mask =>
    exact of_call h (writeViRegs_moves reg value mask)
  | readViCurrent =>
    exact of_call h readViCurrent_moves
  | ddRaise =>
    exact of_call h ddRaise_moves
  | ddPiTest =>
    exact of_call h ddPiTest_moves
  | _ =>
    exact of_call h (Moves.of_eq rfl)

theorem schedule_writeCp0 (reg : Cp0Reg) (value : Word) :
    (d.writeCp0 reg value).schedule = d.schedule := by
  cases reg with
  | index =>
    rw [Device.writeCp0]
    split
    · rfl
    · rfl
  | _ => rfl

theorem schedule_writeCause : (d.writeCause value).schedule = d.schedule := by
  rw [Device.writeCause]
  split
  · rfl
  · rfl

theorem returnFromException_schedule :
    ∃ address, d.returnFromException.schedule = { d.schedule with pc := address } := by
  rw [Device.returnFromException]
  split
  · exact ⟨d.pc, rfl⟩
  · exact ⟨_, rfl⟩

theorem schedule_resetSoft : d.resetSoft.schedule = d.schedule.resetSoft := rfl

/-- Every call changes the schedule as listed. -/
theorem call_effect {c : Call} {more : List Call} (h : d.call cfg c = some (d', more)) :
    Effect cfg d.schedule d'.schedule c := by
  cases c with
  | interpretOpcode => exact absurd h (Option.some_ne_none _).symm
  | access access => exact access_effect h
  | setRandom =>
    rw [Device.call, Option.map_eq_some_iff] at h
    obtain ⟨d'', hrandom, heq⟩ := h
    obtain ⟨rfl, -⟩ := Prod.mk.inj heq
    rw [Device.setRandom] at hrandom
    split at hrandom
    · exact absurd hrandom (Option.some_ne_none _).symm
    · obtain rfl := Option.some.inj hrandom
      exact Moves.of_eq (schedule_setCp0 (by decide) (by decide) _)
  | poll =>
    exact of_call h poll_polled
  | idle j =>
    exact of_call h (idle_effect j)
  | doSpTask task =>
    exact of_call h (doSpTask_schedule task)
  | addToPc bytes =>
    exact of_call h rfl
  | endJump j =>
    obtain ⟨rfl, -⟩ := Prod.mk.inj (Option.some.inj h)
    split
    · exact Or.inr rfl
    · exact Or.inl rfl
  | returnFromException =>
    exact of_call h returnFromException_schedule
  | setLastAddr =>
    exact of_call h rfl
  | addEvent transfer delay =>
    exact of_call h rfl
  | writeCount value =>
    exact of_call h rfl
  | writeCompare value =>
    exact of_call h rfl
  | updateCount =>
    exact of_call h cp0UpdateCount_moves
  | checkInterrupt =>
    exact of_call h checkInterrupt_moves
  | tlbRefill miss =>
    exact of_call h (tlbRefillException_moves miss)
  | cop1Unusable =>
    exact of_call h (exceptionGeneral_moves (d := d.setCp0 .cause _))
  | syscall =>
    exact of_call h (exceptionGeneral_moves (d := d.setCp0 .cause _))
  | exceptionGeneral =>
    exact of_call h exceptionGeneral_moves
  | raiseTimer =>
    exact of_call h (raiseMaskableInterrupt_moves cp0CauseIP7)
  | raiseRcp miIntr =>
    exact of_call h (raiseRcpInterrupt_moves miIntr)
  | signalRcp miIntr =>
    exact of_call h (signalRcpInterrupt_moves miIntr)
  | writeStatus value =>
    exact of_call h (Moves.of_eq (schedule_setCp0_status value))
  | writeCause value =>
    exact of_call h (Moves.of_eq (schedule_writeCause value))
  | writeCp0 reg value =>
    exact of_call h (Moves.of_eq (schedule_writeCp0 reg value))
  | _ =>
    exact of_call h (Moves.of_eq rfl)

theorem step_schedule (s : Interpreter) (a : Action) :
    (s.step cfg a).device.schedule = s.device.schedule ∨
      (s.step cfg a).device.schedule = s.device.schedule.resetSoft ∨
      ∃ c rest, a = .call ∧ s.todo = c :: rest ∧
        Effect cfg s.device.schedule (s.step cfg a).device.schedule c := by
  cases a with
  | fetch misses instruction =>
    refine Or.inl ?_
    rw [Interpreter.step]
    split
    · split
      · rfl
      · rfl
    · rfl
    · rfl
  | call =>
    rw [Interpreter.step]
    split
    · exact Or.inl rfl
    · next c rest htodo =>
      split
      · exact Or.inl rfl
      · next d' more hcall => exact Or.inr (Or.inr ⟨c, rest, rfl, htodo, call_effect hcall⟩)
  | resetSoft => exact Or.inr (Or.inl schedule_resetSoft)
  | requestResetHard => exact Or.inl rfl
  | drive transfer => exact Or.inl rfl

theorem step_keeps {P : Schedule → Prop} {s : Interpreter} {a : Action} (h : P s.device.schedule)
    (hreset : P s.device.schedule.resetSoft)
    (heffect : ∀ s' c rest, a = .call → s.todo = c :: rest → Effect cfg s.device.schedule s' c →
      P s') : P (s.step cfg a).device.schedule := by
  rcases @step_schedule cfg s a with heq | heq | ⟨c, rest, ha, htodo, hc⟩
  · rwa [heq]
  · rwa [heq]
  · exact heffect _ c rest ha htodo hc

/-- The schedule after power on. -/
def poweredOnSchedule : Schedule where
  interrupts := freshInterrupts 0 0x5000#32
  count := 0x5000#32
  compare := 0#32
  pc := 0xA4000040#32
  lastAddr := 0xA4000040#32
  skipJump := 0#32
  aiStatus := 0#32
  viDelay := 5000#32
  nextVi := 5000#32

theorem schedule_poweredOn : (poweredOn cfg).device.schedule = poweredOnSchedule :=
  schedule_pifbootromHleExecute.trans schedule_poweronDevice

theorem reachable_schedule {P : Schedule → Prop} (hinit : P poweredOnSchedule)
    (hreset : ∀ s, P s → P s.resetSoft) (heffect : ∀ s s' c, Effect cfg s s' c → P s → P s')
    {s : Interpreter} (h : Reachable cfg s) : P s.device.schedule := by
  obtain ⟨actions, rfl⟩ := h
  have hstart : P (poweredOn cfg).device.schedule := by rwa [schedule_poweredOn]
  refine Core.foldl_invariant (fun s : Interpreter => P s.device.schedule)
    (fun _ _ => True) hstart (fun s a _ hs _ => ?_) fun _ _ _ _ => trivial
  exact step_keeps hs (hreset _ hs) fun s' c _ _ _ h => heffect _ s' c h hs

end ParallelN64.R4300
