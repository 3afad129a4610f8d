import ParallelN64.R4300.Interpreter

/-!
# The Index register and the audio interface between instructions

Only `MTC0` and `TLBP` put a number into Index. Everything else that the machine does keeps it or,
on a reset, clears it, and a machine that has stopped stays so. Only accesses to the audio
registers, the end of a transfer and resets change the audio interface.
-/

namespace ParallelN64.R4300

variable {cfg : Config} {d : Device}

def Device.held (d : Device) : Word × Bool := (d.cp0 .index, d.stop)

def Device.kept (d : Device) : AiController × Word × Bool := (d.ai, d.held)

variable (value : Word) {d' : Device} {r : Device × List Call} {c : Call}

@[simp] theorem kept_setCp0_cause : (d.setCp0 .cause value).kept = d.kept := rfl
@[simp] theorem kept_setMi (reg : MiReg) (value : Word) : (d.setMi reg value).kept = d.kept := rfl
@[simp] theorem kept_setPi (reg : PiReg) (value : Word) : (d.setPi reg value).kept = d.kept := rfl
@[simp] theorem kept_setSi (reg : SiReg) (value : Word) : (d.setSi reg value).kept = d.kept := rfl
@[simp] theorem held_setAi (reg : AiReg) (value : Word) : (d.setAi reg value).held = d.held := rfl
@[simp] theorem kept_cp0UpdateCount : (d.cp0UpdateCount cfg).kept = d.kept := rfl

@[simp] theorem kept_deferJump : d.deferJump.kept = d.kept := by
  rw [Device.deferJump]
  split_ifs <;> rfl

@[simp] theorem kept_markDelaySlot : d.markDelaySlot.kept = d.kept := by
  rw [Device.markDelaySlot]
  split_ifs <;> rfl

@[simp] theorem kept_exceptionGeneral : (d.exceptionGeneral cfg).kept = d.kept := by
  simp only [Device.exceptionGeneral, Device.markDelaySlot, kept_deferJump]
  split_ifs <;> rfl

@[simp] theorem kept_enterRefill (miss : TlbMiss) : (d.enterRefill miss).kept = d.kept := by
  simp only [Device.enterRefill]
  split_ifs <;> rfl

@[simp] theorem kept_tlbRefillException (miss : TlbMiss) :
    (d.tlbRefillException cfg miss).kept = d.kept := by
  have hcounted : (if miss.access = .fetch then d else d.cp0UpdateCount cfg).kept = d.kept := by
    split_ifs <;> rfl
  have hentered (d : Device) :
      (((d.recordMiss miss).enterRefill miss).markDelaySlot).kept = d.kept := by
    rw [kept_markDelaySlot, kept_enterRefill]
    rfl
  rw [Device.tlbRefillException, kept_deferJump]
  refine Eq.trans ?_ ((hentered _).trans hcounted)
  split_ifs <;> rfl

@[simp] theorem kept_checkInterrupt : d.checkInterrupt.kept = d.kept := by
  simp only [Device.checkInterrupt]
  split_ifs <;> rfl

@[simp] theorem kept_raiseMaskableInterrupt (cause : Word) :
    (d.raiseMaskableInterrupt cfg cause).kept = d.kept := by
  simp only [Device.raiseMaskableInterrupt]
  split_ifs <;> simp only [kept_exceptionGeneral, kept_setCp0_cause]

@[simp] theorem kept_raiseRcpInterrupt (miIntr : Word) :
    (d.raiseRcpInterrupt cfg miIntr).kept = d.kept := by
  simp only [Device.raiseRcpInterrupt]
  split_ifs <;> simp only [kept_raiseMaskableInterrupt, kept_setMi]

@[simp] theorem kept_signalRcpInterrupt (miIntr : Word) :
    (d.signalRcpInterrupt miIntr).kept = d.kept := by
  rw [Device.signalRcpInterrupt, kept_checkInterrupt, kept_setMi]

@[simp] theorem kept_clearRcpInterrupt (miIntr : Word) :
    (d.clearRcpInterrupt miIntr).kept = d.kept := by
  rw [Device.clearRcpInterrupt, kept_checkInterrupt, kept_setMi]

@[simp] theorem kept_clearSpIf (c : Bool) : (d.clearSpIf c).kept = d.kept := by
  rw [Device.clearSpIf]
  split_ifs
  · exact kept_clearRcpInterrupt _
  · rfl

@[simp] theorem kept_signalSpIf (c : Bool) : (d.signalSpIf c).kept = d.kept := by
  rw [Device.signalSpIf]
  split_ifs
  · exact kept_signalRcpInterrupt _
  · rfl

@[simp] theorem kept_clearSetSp (w clearBit setBit bit : Word) :
    (d.clearSetSp w clearBit setBit bit).kept = d.kept := rfl

@[simp] theorem kept_updateSpSignals (w : Word) : (d.updateSpSignals w).kept = d.kept := rfl

@[simp] theorem kept_updateSpStatus (w : Word) (task : SpTask) :
    (d.updateSpStatus cfg w task).1.kept = d.kept := by
  have hbits : (d.updateSpBits cfg w).kept = d.kept := by
    simp only [Device.updateSpBits, kept_updateSpSignals, kept_signalSpIf, kept_clearSetSp,
      kept_clearSpIf]
  simp only [Device.updateSpStatus]
  split_ifs <;> exact hbits

@[simp] theorem kept_writeRspRegs (reg : SpReg) (value mask : Word) (task : SpTask) :
    (d.writeRspRegs cfg reg value mask task).1.kept = d.kept := by
  cases reg with
  | status => exact kept_updateSpStatus _ task
  | _ => rfl

@[simp] theorem kept_doSpTask (task : SpTask) : (d.doSpTask cfg task).1.kept = d.kept := by
  have hdp (d : Device) : (d.scheduleDp cfg).kept = d.kept := by
    rw [Device.scheduleDp]
    split_ifs <;> rfl
  rw [Device.doSpTask]
  split_ifs
  · rfl
  · exact hdp (d.runTask task.run)
  · rfl

@[simp] theorem kept_ddPiTest : (d.ddPiTest cfg).kept = d.kept := by
  rw [Device.ddPiTest, kept_checkInterrupt, kept_cp0UpdateCount, kept_setCp0_cause]

@[simp] theorem kept_writePiRegs (reg : PiReg) (value mask : Word) :
    (d.writePiRegs cfg reg value mask).1.kept = d.kept := by
  cases reg with
  | cartAddr =>
    simp only [Device.writePiRegs]
    split_ifs
    · rw [kept_setPi, kept_ddPiTest]
    · rfl
  | wrLen =>
    simp only [Device.writePiRegs, Device.dmaPiWrite]
    split_ifs <;> rfl
  | status =>
    simp only [Device.writePiRegs]
    split_ifs
    · exact kept_clearRcpInterrupt _
    · rfl
  | _ => rfl

@[simp] theorem kept_finishSiDma : (d.finishSiDma cfg).1.kept = d.kept := by
  rw [Device.finishSiDma]
  split_ifs <;> rfl

@[simp] theorem kept_writeSiRegs (reg : SiReg) (value mask : Word) :
    (d.writeSiRegs cfg reg value mask).1.kept = d.kept := by
  cases reg with
  | dramAddr => rfl
  | status => rw [Device.writeSiRegs, kept_clearRcpInterrupt, kept_setSi]
  | _ =>
    simp only [Device.writeSiRegs]
    split_ifs <;> simp only [kept_finishSiDma, kept_setSi]

@[simp] theorem kept_writeViRegs (reg : ViReg) (value mask : Word) :
    (d.writeViRegs reg value mask).kept = d.kept := by
  cases reg with
  | current => exact kept_clearRcpInterrupt _
  | _ => rfl

@[simp] theorem held_fifoPush (duration : Word) : (d.fifoPush cfg duration).held = d.held := by
  simp only [Device.fifoPush]
  split_ifs <;> rfl

@[simp] theorem held_fifoPop : (d.fifoPop cfg).held = d.held := by
  simp only [Device.fifoPop]
  split_ifs <;> rfl

theorem held_writeAiRegs {reg : AiReg} {value mask : Word}
    (h : d.writeAiRegs cfg reg value mask = some d') : d'.held = d.held := by
  cases reg with
  | dramAddr =>
    simp only [Device.writeAiRegs] at h
    split_ifs at h <;> exact Option.some.inj h ▸ rfl
  | len =>
    simp only [Device.writeAiRegs] at h
    obtain ⟨duration, -, rfl⟩ := Option.map_eq_some_iff.mp h
    rw [held_fifoPush, held_setAi]
  | status => exact Option.some.inj h ▸ congrArg Prod.snd (kept_clearRcpInterrupt _)
  | _ => exact Option.some.inj h ▸ rfl

@[simp] theorem held_readAiLen : (d.readAiLen cfg).held = d.held := by
  simp only [Device.readAiLen, Device.getRemainingDmaLength]
  split_ifs <;> rfl

/-- The accesses that change the audio interface. -/
def isAudio : DeviceAccess → Bool
  | .readAiLen => true
  | .writeAiRegs .. => true
  | _ => false

theorem kept_access {access : DeviceAccess} (hother : isAudio access = false)
    (h : d.access cfg access = some r) : r.1.kept = d.kept := by
  cases access with
  | readAiLen => exact Bool.noConfusion hother
  | writeAiRegs reg value mask => exact Bool.noConfusion hother
  | writeMiInitMode value mask =>
    obtain rfl := Option.some.inj h
    simp only [Device.writeMiInitMode]
    split_ifs
    · rw [kept_clearRcpInterrupt, kept_setMi]
    · rfl
  | writeRspRegs reg value mask task => exact Option.some.inj h ▸ kept_writeRspRegs reg value mask task
  | writeDpcRegs reg value mask task =>
    obtain rfl := Option.some.inj h
    cases reg with | _ => rfl
  | writePiRegs reg value mask => exact Option.some.inj h ▸ kept_writePiRegs reg value mask
  | writeSiRegs reg value mask => exact Option.some.inj h ▸ kept_writeSiRegs reg value mask
  | writeViRegs reg value mask => exact Option.some.inj h ▸ kept_writeViRegs reg value mask
  | ddRaise =>
    obtain rfl := Option.some.inj h
    rw [Device.ddRaise, kept_checkInterrupt, kept_setCp0_cause, kept_cp0UpdateCount]
  | ddPiTest => exact Option.some.inj h ▸ kept_ddPiTest
  | _ => exact Option.some.inj h ▸ rfl

theorem held_access {access : DeviceAccess} (h : d.access cfg access = some r) :
    r.1.held = d.held := by
  cases access with
  | writeAiRegs reg value mask =>
    obtain ⟨d', hd', rfl⟩ := Option.map_eq_some_iff.mp h
    exact held_writeAiRegs hd'
  | readAiLen => exact Option.some.inj h ▸ held_readAiLen
  | _ => exact congrArg Prod.snd (kept_access rfl h)

theorem kept_dispatch {type : EventType} (hai : type ≠ .aiInt) (hnmi : type ≠ .nmiInt) :
    (d.dispatch cfg type).1.kept = d.kept := by
  cases type with
  | aiInt => exact absurd rfl hai
  | nmiInt => exact absurd rfl hnmi
  | specialInt =>
    simp only [Device.dispatch, Device.specialIntHandler]
    split_ifs <;> rfl
  | _ => rfl

theorem held_dispatch (type : EventType) : (d.dispatch cfg type).1.held = d.held := by
  cases type with
  | aiInt => exact held_fifoPop.trans rfl
  | nmiInt =>
    simp only [Device.dispatch, Device.nmiIntHandler]
    split_ifs <;> rfl
  | _ => exact congrArg Prod.snd (kept_dispatch EventType.noConfusion EventType.noConfusion)

theorem held_poll : (d.poll cfg).1.held = d.held ∨ (d.poll cfg).1.held = (0#32, d.stop) := by
  rcases @poll_cases cfg d with h | ⟨-, -, h⟩ | ⟨-, -, -, h⟩ | ⟨type, -, h⟩ <;> rw [h]
  · exact .inl rfl
  · exact .inr rfl
  · exact .inl rfl
  · exact .inl (held_dispatch type)

/-- The calls that begin an instruction or put a number into Index. -/
def Call.starts : Call → Bool
  | .begin _ => true
  | .interpretOpcode => true
  | .idle _ => true
  | .writeCp0 .index _ => true
  | _ => false

/-- Index is kept or cleared, and a stop is kept. -/
structure IndexKept (d d' : Device) : Prop where
  index : d'.cp0 .index = d.cp0 .index ∨ d'.cp0 .index = 0#32
  stop : d.stop = true → d'.stop = true

theorem IndexKept.of_held (h : d'.held = d.held) : IndexKept d d' :=
  ⟨.inl (congrArg Prod.fst h), fun hstop => (congrArg Prod.snd h).trans hstop⟩

theorem IndexKept.of_stop (h : d'.cp0 .index = d.cp0 .index) (hstop : d'.stop = true) :
    IndexKept d d' := ⟨.inl h, fun _ => hstop⟩

theorem indexKept_writeCp0 {reg : Cp0Reg} (hreg : reg ≠ .index) (value : Word) :
    IndexKept d (d.writeCp0 reg value) := by
  cases reg with
  | index => exact absurd rfl hreg
  | random | entryLo0 | entryLo1 | context | pageMask | wired | badVAddr | entryHi | epc | prevId
  | config | watchLo | watchHi | tagLo | tagHi | errorEpc => exact .of_held rfl
  | _ => exact .of_stop rfl rfl

theorem ai_writeCp0 (reg : Cp0Reg) (value : Word) : (d.writeCp0 reg value).ai = d.ai := by
  cases reg with
  | index =>
    rw [Device.writeCp0]
    split_ifs <;> rfl
  | _ => rfl

theorem kept_call (hpoll : c ≠ .poll)
    (hother : ∀ access, c = .access access → isAudio access = false)
    (h : d.call cfg c = some r) : r.1.ai = d.ai ∧ (c.starts = false → IndexKept d r.1) := by
  have hkept (hkept : r.1.kept = d.kept) :
      r.1.ai = d.ai ∧ (c.starts = false → IndexKept d r.1) :=
    ⟨congrArg Prod.fst hkept, fun _ => .of_held (congrArg Prod.snd hkept)⟩
  cases c with
  | interpretOpcode => exact absurd h.symm (Option.some_ne_none r)
  | idle j =>
    obtain rfl := Option.some.inj h
    refine hkept ?_
    rw [Device.idle]
    split_ifs <;> rfl
  | poll => exact absurd rfl hpoll
  | access access => exact hkept (kept_access (hother access rfl) h)
  | tlbRefill miss => exact hkept (Option.some.inj h ▸ kept_tlbRefillException miss)
  | cop1Unusable => exact hkept (Option.some.inj h ▸ kept_exceptionGeneral)
  | syscall => exact hkept (Option.some.inj h ▸ kept_exceptionGeneral)
  | exceptionGeneral => exact hkept (Option.some.inj h ▸ kept_exceptionGeneral)
  | checkInterrupt => exact hkept (Option.some.inj h ▸ kept_checkInterrupt)
  | raiseTimer => exact hkept (Option.some.inj h ▸ kept_raiseMaskableInterrupt _)
  | raiseRcp miIntr => exact hkept (Option.some.inj h ▸ kept_raiseRcpInterrupt miIntr)
  | signalRcp miIntr => exact hkept (Option.some.inj h ▸ kept_signalRcpInterrupt miIntr)
  | doSpTask task => exact hkept (Option.some.inj h ▸ kept_doSpTask task)
  | setStop => exact Option.some.inj h ▸ ⟨rfl, fun _ => .of_stop rfl rfl⟩
  | endJump j =>
    obtain rfl := Option.some.inj h
    refine hkept ?_
    dsimp only
    split_ifs <;> rfl
  | writeCause value =>
    obtain rfl := Option.some.inj h
    dsimp only
    rw [Device.writeCause]
    split_ifs
    · exact ⟨rfl, fun _ => .of_stop rfl rfl⟩
    · exact ⟨rfl, fun _ => .of_held rfl⟩
  | writeCp0 reg value =>
    refine Option.some.inj h ▸ ⟨ai_writeCp0 reg value, fun hc => indexKept_writeCp0 ?_ value⟩
    rintro rfl
    exact absurd hc Bool.noConfusion
  | setRandom =>
    obtain ⟨d', hd', rfl⟩ := Option.map_eq_some_iff.mp h
    simp only [Device.setRandom] at hd'
    split_ifs at hd'
    exact Option.some.inj hd' ▸ ⟨rfl, fun _ => .of_held rfl⟩
  | returnFromException =>
    obtain rfl := Option.some.inj h
    simp only [Device.returnFromException]
    split_ifs
    · exact ⟨rfl, fun _ => .of_stop rfl rfl⟩
    · exact ⟨rfl, fun _ => .of_held rfl⟩
  | _ => exact hkept (Option.some.inj h ▸ rfl)

theorem indexKept_call (hc : c.starts = false) (h : d.call cfg c = some r) : IndexKept d r.1 := by
  cases c with
  | poll =>
    obtain rfl := Option.some.inj h
    rcases @held_poll cfg d with heq | hzero
    · exact .of_held heq
    · exact ⟨.inr (congrArg Prod.fst hzero), fun hstop => (congrArg Prod.snd hzero).trans hstop⟩
  | access access => exact .of_held (held_access h)
  | _ => exact (kept_call Call.noConfusion (fun _ => Call.noConfusion) h).2 hc

def startsOf (calls : List Call) : Nat := calls.countP Call.starts

theorem startsOf_jump (j : Jump) : startsOf j.body ≤ 1 := by
  rw [Jump.body]
  split_ifs
  · exact le_refl 1
  · exact Nat.zero_le 1

theorem startsOf_memory (accesses : List MemoryAccess) :
    startsOf (accesses.map MemoryAccess.call) = 0 := by
  rw [startsOf, List.countP_eq_zero]
  intro c hc
  obtain ⟨access, -, rfl⟩ := List.mem_map.mp hc
  cases access with | _ => exact Bool.false_ne_true

theorem startsOf_body (op : Operation) : startsOf op.body ≤ 1 := by
  cases op with
  | memory accesses =>
    refine le_of_eq_of_le ?_ (Nat.zero_le 1)
    exact startsOf_memory accesses
  | jump j => exact startsOf_jump j
  | jumpIdle j =>
    rw [Operation.body]
    split_ifs
    · exact le_refl 1
    · exact startsOf_jump j
  | mfc0 reg => cases reg with | _ => exact Nat.zero_le 1
  | mtc0 reg value =>
    cases reg with
    | index => exact le_refl 1
    | _ => exact Nat.zero_le 1
  | _ => exact Nat.zero_le 1

theorem startsOf_begin (i : Instruction) : startsOf (d.begin i) ≤ 1 := by
  rw [Device.begin]
  split_ifs
  · exact Nat.zero_le 1
  · exact startsOf_body i.op

theorem startsOf_access {access : DeviceAccess} (h : d.access cfg access = some r) :
    startsOf r.2 = 0 := by
  cases access with
  | writeAiRegs reg value mask =>
    obtain ⟨d', -, rfl⟩ := Option.map_eq_some_iff.mp h
    rfl
  | writeRspRegs reg value mask task =>
    obtain rfl := Option.some.inj h
    cases reg with
    | status =>
      simp only [Device.writeRspRegs, Device.updateSpStatus]
      split_ifs <;> rfl
    | _ => rfl
  | writeDpcRegs reg value mask task =>
    obtain rfl := Option.some.inj h
    cases reg with
    | status =>
      simp only [Device.writeDpcRegs, Device.writeDpcStatus]
      split_ifs <;> rfl
    | _ => rfl
  | writePiRegs reg value mask =>
    obtain rfl := Option.some.inj h
    cases reg with
    | wrLen =>
      simp only [Device.writePiRegs, Device.dmaPiWrite]
      split_ifs <;> rfl
    | _ => rfl
  | writeSiRegs reg value mask =>
    obtain rfl := Option.some.inj h
    cases reg with
    | dramAddr => rfl
    | status => rfl
    | _ =>
      simp only [Device.writeSiRegs, Device.finishSiDma]
      split_ifs <;> rfl
  | _ =>
    obtain rfl := Option.some.inj h
    rfl

theorem startsOf_poll : startsOf (d.poll cfg).2 = 0 := by
  rcases @poll_cases cfg d with h | ⟨-, -, h⟩ | ⟨-, -, -, h⟩ | ⟨type, -, h⟩ <;> rw [h]
  · rfl
  · rfl
  · rfl
  · cases type with
    | spInt =>
      simp only [Device.dispatch, Device.rspInterruptEvent]
      split_ifs <;> rfl
    | _ => rfl

theorem startsOf_call (hc : c.starts = false) (h : d.call cfg c = some r) : startsOf r.2 = 0 := by
  cases c with
  | begin i => exact absurd hc Bool.noConfusion
  | interpretOpcode => exact absurd h.symm (Option.some_ne_none r)
  | idle j => exact absurd hc Bool.noConfusion
  | poll => exact Option.some.inj h ▸ startsOf_poll
  | access access => exact startsOf_access h
  | doSpTask task =>
    obtain rfl := Option.some.inj h
    simp only [Device.doSpTask]
    split_ifs <;> rfl
  | lockTask =>
    obtain rfl := Option.some.inj h
    simp only [Device.lockTask]
    split_ifs <;> rfl
  | piEnd =>
    obtain rfl := Option.some.inj h
    simp only [Device.piEnd, Device.ddUpdateBm]
    split_ifs <;> rfl
  | setRandom =>
    obtain ⟨d', -, rfl⟩ := Option.map_eq_some_iff.mp h
    rfl
  | _ =>
    obtain rfl := Option.some.inj h
    rfl

theorem startsOf_call_le (h : d.call cfg c = some r) : startsOf r.2 ≤ 1 := by
  by_cases hc : c.starts = true
  · cases c with
    | begin i => exact Option.some.inj h ▸ startsOf_begin i
    | interpretOpcode => exact absurd h.symm (Option.some_ne_none r)
    | idle j =>
      obtain rfl := Option.some.inj h
      simp only [Device.idle]
      split_ifs
      · exact Nat.zero_le 1
      · exact startsOf_jump j
    | writeCp0 reg value =>
      obtain rfl := Option.some.inj h
      exact Nat.zero_le 1
    | _ => exact absurd hc Bool.noConfusion
  · exact (startsOf_call (Bool.eq_false_iff.mpr hc) h).trans_le (Nat.zero_le 1)

end ParallelN64.R4300
