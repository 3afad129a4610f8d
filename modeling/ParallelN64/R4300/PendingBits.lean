import ParallelN64.Core.Word
import ParallelN64.R4300.Interpreter

/-!
# Pending interrupts in Cause

IP2 follows the MIPS interface and IP7 the timer. Interrupt checks bring IP2 up to date, and
most calls leave both bits alone. A TLB miss, a system call and an unusable coprocessor write
Cause as a whole, the plugin writes the interrupt register of the MIPS interface without a
check, and resets clear Cause.
-/

namespace ParallelN64.R4300

open ParallelN64.Core

def Device.TimerSet (d : Device) : Prop := d.cause &&& cp0CauseIP7 ≠ 0#32

def Device.Synced (d : Device) : Prop := d.cause &&& cp0CauseIP2 ≠ 0#32 ↔ d.miPending = true

def exceptionFields : Word := 0xB000007C#32

/-- Both bits are kept. -/
structure KeepsPending (d d' : Device) : Prop where
  synced : d.Synced → d'.Synced
  timer : d.TimerSet → d'.TimerSet

namespace KeepsPending

variable {cfg : Config} {d d' d'' : Device}

theorem refl (d : Device) : KeepsPending d d := ⟨id, id⟩

theorem trans (h : KeepsPending d d') (h' : KeepsPending d' d'') : KeepsPending d d'' :=
  ⟨fun hd => h'.synced (h.synced hd), fun hd => h'.timer (h.timer hd)⟩

theorem of_bits (hmi : d'.miPending = d.miPending)
    (hip2 : d'.cause &&& cp0CauseIP2 = d.cause &&& cp0CauseIP2)
    (hip7 : d'.cause &&& cp0CauseIP7 = d.cause &&& cp0CauseIP7) : KeepsPending d d' := by
  constructor
  case synced =>
    intro h
    rw [Device.Synced, hip2, hmi]
    exact h
  case timer =>
    intro h
    rw [Device.TimerSet, hip7]
    exact h

theorem of_eq (hmi : d'.miPending = d.miPending) (hcause : d'.cause = d.cause) : KeepsPending d d' :=
  of_bits hmi (by rw [hcause]) (by rw [hcause])

end KeepsPending

section Checks

variable {cfg : Config} {d d' : Device}

theorem KeepsPending.of_raise {bits code : Word} (hmi : d'.miPending = d.miPending)
    (hcause : d'.cause = (d.cause ||| bits) &&& code)
    (hbits : bits &&& cp0CauseIP2 = 0#32 ∧ bits &&& cp0CauseIP7 = 0#32)
    (hcode : code &&& cp0CauseIP2 = cp0CauseIP2 ∧ code &&& cp0CauseIP7 = cp0CauseIP7) :
    KeepsPending d d' := by
  refine KeepsPending.of_bits hmi ?_ ?_
  · rw [hcause, and_and_of_subset hcode.1, or_and_of_disjoint hbits.1]
  · rw [hcause, and_and_of_subset hcode.2, or_and_of_disjoint hbits.2]

theorem markDelaySlot_field {m : Word} (hset : cp0CauseBD &&& m = 0#32)
    (hclear : ~~~cp0CauseBD &&& m = m) : d.markDelaySlot.cause &&& m = d.cause &&& m := by
  rw [Device.markDelaySlot]
  split
  · exact or_and_of_disjoint hset
  · exact and_and_of_subset hclear

theorem markDelaySlot_mi : d.markDelaySlot.mi = d.mi := by
  rw [Device.markDelaySlot]
  split
  · rfl
  · rfl

theorem deferJump_cause : d.deferJump.cause = d.cause := by
  rw [Device.deferJump]
  split
  · rfl
  · rfl

theorem deferJump_mi : d.deferJump.mi = d.mi := by
  rw [Device.deferJump]
  split
  · rfl
  · rfl

theorem exceptionGeneral_field {m : Word} (hset : cp0CauseBD &&& m = 0#32)
    (hclear : ~~~cp0CauseBD &&& m = m) :
    (d.exceptionGeneral cfg).cause &&& m = d.cause &&& m := by
  rw [Device.exceptionGeneral, deferJump_cause]
  exact markDelaySlot_field hset hclear

theorem exceptionGeneral_mi : (d.exceptionGeneral cfg).mi = d.mi := by
  rw [Device.exceptionGeneral, deferJump_mi]
  exact markDelaySlot_mi

theorem exceptionGeneral_keeps : KeepsPending d (d.exceptionGeneral cfg) :=
  KeepsPending.of_bits (by rw [Device.miPending, exceptionGeneral_mi, Device.miPending])
    (exceptionGeneral_field rfl rfl) (exceptionGeneral_field rfl rfl)

theorem raised_ne_zero {bit : Word} (hbit : bit ≠ 0#32)
    (hcode : ~~~cp0CauseExcCodeMask &&& bit = bit) (w : Word) :
    ((w ||| bit) &&& ~~~cp0CauseExcCodeMask) &&& bit ≠ 0#32 := by
  rw [and_and_of_subset hcode, or_and_self]
  exact hbit

theorem checkInterrupt_synced : d.checkInterrupt.Synced := by
  have hset (h : d.miPending = true) :
      (d.setCp0 .cause ((d.cause ||| cp0CauseIP2) &&& ~~~cp0CauseExcCodeMask)).Synced :=
    iff_of_true (raised_ne_zero (by decide) rfl d.cause) h
  have hclear (h : ¬d.miPending = true) :
      (d.setCp0 .cause (d.cause &&& ~~~cp0CauseIP2)).Synced := by
    refine iff_of_false (not_not.mpr ?_) h
    exact and_not_and_self d.cause cp0CauseIP2
  rw [Device.checkInterrupt]
  split_ifs with hpending
  · exact hset hpending
  · exact hset hpending
  · exact hclear hpending
  · exact hclear hpending

theorem timerSet_of_cause (h : d.TimerSet) (hcause : d'.cause &&& cp0CauseIP7 = d.cause &&& cp0CauseIP7) :
    d'.TimerSet := by
  rw [Device.TimerSet, hcause]
  exact h

theorem checkInterrupt_timer (h : d.TimerSet) : d.checkInterrupt.TimerSet := by
  have hset : (d.setCp0 .cause ((d.cause ||| cp0CauseIP2) &&& ~~~cp0CauseExcCodeMask)).TimerSet := by
    refine timerSet_of_cause h ?_
    exact (and_and_of_subset rfl).trans (or_and_of_disjoint rfl)
  have hclear : (d.setCp0 .cause (d.cause &&& ~~~cp0CauseIP2)).TimerSet :=
    timerSet_of_cause h (and_and_of_subset rfl)
  rw [Device.checkInterrupt]
  split_ifs
  · exact hset
  · exact hset
  · exact hclear
  · exact hclear

theorem checkInterrupt_keeps : KeepsPending d d.checkInterrupt :=
  ⟨fun _ => checkInterrupt_synced, checkInterrupt_timer⟩

theorem signalRcpInterrupt_keeps (miIntr : Word) : KeepsPending d (d.signalRcpInterrupt miIntr) :=
  ⟨fun _ => checkInterrupt_synced, fun h => checkInterrupt_timer (d := d.setMi .intr _) h⟩

theorem clearRcpInterrupt_keeps (miIntr : Word) : KeepsPending d (d.clearRcpInterrupt miIntr) :=
  ⟨fun _ => checkInterrupt_synced, fun h => checkInterrupt_timer (d := d.setMi .intr _) h⟩

theorem exceptionIf_keeps (c : Bool) :
    KeepsPending d (if c then d.exceptionGeneral cfg else d) := by
  split
  · exact exceptionGeneral_keeps
  · exact KeepsPending.refl d

theorem raiseTimer_synced (h : d.Synced) :
    (d.raiseMaskableInterrupt cfg cp0CauseIP7).Synced := by
  rw [Device.raiseMaskableInterrupt]
  refine (exceptionIf_keeps _).synced ?_
  have hip2 : ((d.cause ||| cp0CauseIP7) &&& ~~~cp0CauseExcCodeMask) &&& cp0CauseIP2 =
      d.cause &&& cp0CauseIP2 := (and_and_of_subset rfl).trans (or_and_of_disjoint rfl)
  change ((d.cause ||| cp0CauseIP7) &&& ~~~cp0CauseExcCodeMask) &&& cp0CauseIP2 ≠ 0#32 ↔ _
  rw [hip2]
  exact h

theorem raiseTimer_timer : (d.raiseMaskableInterrupt cfg cp0CauseIP7).TimerSet := by
  rw [Device.raiseMaskableInterrupt]
  exact (exceptionIf_keeps _).timer (raised_ne_zero (by decide) rfl d.cause)

theorem raiseRcpInterrupt_keeps (miIntr : Word) :
    KeepsPending d (d.raiseRcpInterrupt cfg miIntr) := by
  have hgrow (h : d.miPending = true) :
      (d.setMi .intr (d.mi .intr ||| miIntr)).miPending = true :=
    decide_eq_true (or_and_ne_zero (of_decide_eq_true h) miIntr)
  rw [Device.raiseRcpInterrupt]
  split
  · next hpending =>
    rw [Device.raiseMaskableInterrupt]
    refine KeepsPending.trans ?_ (exceptionIf_keeps _)
    constructor
    case synced =>
      exact fun _ => iff_of_true (raised_ne_zero (by decide) rfl d.cause) hpending
    case timer =>
      exact fun h => timerSet_of_cause h ((and_and_of_subset rfl).trans (or_and_of_disjoint rfl))
  · next hpending =>
    constructor
    case synced =>
      exact fun h => iff_of_false (fun hip2 => hpending (hgrow (h.mp hip2))) hpending
    case timer => exact id

end Checks

section Accesses

variable {cfg : Config} {d d' : Device}

theorem cp0UpdateCount_keeps : KeepsPending d (d.cp0UpdateCount cfg) := KeepsPending.of_eq rfl rfl

theorem setCp0_keeps {reg : Cp0Reg} (h : reg ≠ .cause) (value : Word) :
    KeepsPending d (d.setCp0 reg value) := by
  have hcause : (d.setCp0 reg value).cause = d.cause := by
    simp only [Device.cause, Device.setCp0, Function.update_of_ne h.symm]
  exact KeepsPending.of_eq rfl hcause

theorem clearSpIf_keeps (c : Bool) : KeepsPending d (d.clearSpIf c) := by
  rw [Device.clearSpIf]
  split
  · exact clearRcpInterrupt_keeps miIntrSP
  · exact KeepsPending.refl d

theorem signalSpIf_keeps (c : Bool) : KeepsPending d (d.signalSpIf c) := by
  rw [Device.signalSpIf]
  split
  · exact signalRcpInterrupt_keeps miIntrSP
  · exact KeepsPending.refl d

theorem clearSetSp_keeps (w clearBit setBit bit : Word) :
    KeepsPending d (d.clearSetSp w clearBit setBit bit) := KeepsPending.of_eq rfl rfl

theorem updateSpSignals_keeps (w : Word) : KeepsPending d (d.updateSpSignals w) :=
  KeepsPending.of_eq rfl rfl

theorem updateSpBits_keeps (w : Word) : KeepsPending d (d.updateSpBits cfg w) := by
  rw [Device.updateSpBits]
  refine KeepsPending.trans ?_ (updateSpSignals_keeps w)
  refine KeepsPending.trans ?_ (signalSpIf_keeps _)
  refine KeepsPending.trans ?_ (clearSetSp_keeps _ _ _ _)
  refine KeepsPending.trans ?_ (clearSetSp_keeps _ _ _ _)
  refine KeepsPending.trans ?_ (clearSetSp_keeps _ _ _ _)
  refine KeepsPending.trans ?_ (signalSpIf_keeps _)
  refine KeepsPending.trans ?_ (clearSpIf_keeps _)
  refine KeepsPending.trans ?_ (clearSetSp_keeps _ _ _ _)
  exact clearSetSp_keeps _ _ _ _

theorem ddRaise_keeps : KeepsPending d (d.ddRaise cfg) := by
  rw [Device.ddRaise]
  refine KeepsPending.trans ?_ checkInterrupt_keeps
  exact KeepsPending.of_bits rfl (or_and_of_disjoint rfl) (or_and_of_disjoint rfl)

theorem ddPiTest_keeps : KeepsPending d (d.ddPiTest cfg) := by
  rw [Device.ddPiTest]
  refine KeepsPending.trans ?_ checkInterrupt_keeps
  exact KeepsPending.of_bits rfl (and_and_of_subset rfl) (and_and_of_subset rfl)

def ChecksNext : List Call → Prop
  | .checkInterrupt :: _ => True
  | .signalRcp _ :: _ => True
  | _ => False

theorem ChecksNext.append {more : List Call} (h : ChecksNext more) (rest : List Call) :
    ChecksNext (more ++ rest) := by
  cases more with
  | nil => exact h.elim
  | cons c more =>
    cases c with
    | _ => exact h

theorem ChecksNext.head {c : Call} {rest : List Call} (h : ChecksNext (c :: rest)) :
    ChecksNext [c] := by
  cases c with
  | _ => exact h

theorem writeRspRegs_keeps (reg : SpReg) (value mask : Word) (task : SpTask) :
    KeepsPending d (d.writeRspRegs cfg reg value mask task).1 := by
  cases reg with
  | status =>
    rw [Device.writeRspRegs, Device.updateSpStatus]
    split_ifs
    · exact updateSpBits_keeps _
    · exact updateSpBits_keeps _
    · exact updateSpBits_keeps _
    · exact updateSpBits_keeps _
  | _ => exact KeepsPending.of_eq rfl rfl

theorem writePiRegs_keeps (reg : PiReg) (value mask : Word) :
    KeepsPending d (d.writePiRegs cfg reg value mask).1 := by
  cases reg with
  | cartAddr =>
    rw [Device.writePiRegs]
    split
    · exact ddPiTest_keeps.trans (KeepsPending.of_eq rfl rfl)
    · exact KeepsPending.of_eq rfl rfl
  | status =>
    rw [Device.writePiRegs]
    split
    · exact clearRcpInterrupt_keeps miIntrPI
    · exact KeepsPending.refl d
  | wrLen =>
    rw [Device.writePiRegs, Device.dmaPiWrite]
    split
    · exact KeepsPending.of_eq rfl rfl
    · exact KeepsPending.of_eq rfl rfl
  | _ => exact KeepsPending.of_eq rfl rfl

theorem writeSiRegs_keeps (reg : SiReg) (value mask : Word) :
    KeepsPending d (d.writeSiRegs cfg reg value mask).1 := by
  have hfinish (d' : Device) : KeepsPending d' (d'.finishSiDma cfg).1 := by
    rw [Device.finishSiDma]
    split
    · exact KeepsPending.of_eq rfl rfl
    · exact KeepsPending.of_eq rfl rfl
  cases reg with
  | dramAddr => exact KeepsPending.of_eq rfl rfl
  | pifAddrRd64b =>
    rw [Device.writeSiRegs]
    split
    · refine KeepsPending.trans ?_ (hfinish _)
      exact KeepsPending.of_eq rfl rfl
    · exact KeepsPending.of_eq rfl rfl
  | pifAddrWr64b =>
    rw [Device.writeSiRegs]
    split
    · refine KeepsPending.trans ?_ (hfinish _)
      exact KeepsPending.of_eq rfl rfl
    · exact KeepsPending.of_eq rfl rfl
  | status =>
    refine KeepsPending.trans ?_ (clearRcpInterrupt_keeps (d := d.setSi .status _) miIntrSI)
    exact KeepsPending.of_eq rfl rfl

theorem fifoPush_keeps (duration : Word) : KeepsPending d (d.fifoPush cfg duration) := by
  rw [Device.fifoPush]
  split
  · exact KeepsPending.of_eq rfl rfl
  · exact KeepsPending.of_eq rfl rfl

theorem writeAiRegs_keeps {reg : AiReg} {value mask : Word}
    (h : d.writeAiRegs cfg reg value mask = some d') : KeepsPending d d' := by
  cases reg with
  | dramAddr =>
    rw [Device.writeAiRegs] at h
    dsimp only at h
    split at h
    · obtain rfl := Option.some.inj h
      exact KeepsPending.of_eq rfl rfl
    · obtain rfl := Option.some.inj h
      exact KeepsPending.of_eq rfl rfl
  | len =>
    rw [Device.writeAiRegs, Option.map_eq_some_iff] at h
    obtain ⟨duration, -, rfl⟩ := h
    refine KeepsPending.trans ?_ (fifoPush_keeps duration)
    exact KeepsPending.of_eq rfl rfl
  | status =>
    obtain rfl := Option.some.inj h
    exact clearRcpInterrupt_keeps miIntrAI
  | _ =>
    obtain rfl := Option.some.inj h
    exact KeepsPending.of_eq rfl rfl

theorem readAiLen_keeps : KeepsPending d (d.readAiLen cfg) := by
  have hlength : KeepsPending d (d.getRemainingDmaLength cfg).1 := by
    rw [Device.getRemainingDmaLength]
    split
    · exact KeepsPending.refl d
    · dsimp only
      split
      · exact cp0UpdateCount_keeps
      · exact cp0UpdateCount_keeps
  exact hlength.trans (KeepsPending.of_eq rfl rfl)

theorem access_keeps {access : DeviceAccess} {more : List Call}
    (h : d.access cfg access = some (d', more)) :
    (ChecksNext more ∨ (d.Synced → d'.Synced)) ∧ (d.TimerSet → d'.TimerSet) := by
  have hkeeps (hkeeps : KeepsPending d d') :
      (ChecksNext more ∨ (d.Synced → d'.Synced)) ∧ (d.TimerSet → d'.TimerSet) :=
    ⟨Or.inr hkeeps.synced, hkeeps.timer⟩
  cases access with
  | writeAiRegs reg value mask =>
    rw [Device.access, Option.map_eq_some_iff] at h
    obtain ⟨d'', hwrite, heq⟩ := h
    obtain ⟨rfl, -⟩ := Prod.mk.inj heq
    exact hkeeps (writeAiRegs_keeps hwrite)
  | writeMiInitMode value mask =>
    obtain ⟨rfl, -⟩ := Prod.mk.inj (Option.some.inj h)
    refine hkeeps ?_
    rw [Device.writeMiInitMode]
    split
    · refine KeepsPending.trans ?_ (clearRcpInterrupt_keeps miIntrDP)
      exact KeepsPending.of_eq rfl rfl
    · exact KeepsPending.of_eq rfl rfl
  | writeMiIntrMask value mask =>
    obtain ⟨rfl, rfl⟩ := Prod.mk.inj (Option.some.inj h)
    exact ⟨Or.inl trivial, id⟩
  | writeRspRegs reg value mask task =>
    exact hkeeps (of_call h (writeRspRegs_keeps reg value mask task))
  | writeDpcRegs reg value mask task =>
    obtain h := Option.some.inj h
    cases reg with
    | endAddr =>
      obtain ⟨rfl, rfl⟩ := Prod.mk.inj h
      exact ⟨Or.inl trivial, id⟩
    | _ =>
      obtain ⟨rfl, -⟩ := Prod.mk.inj h
      exact hkeeps (KeepsPending.of_eq rfl rfl)
  | writePiRegs reg value mask =>
    exact hkeeps (of_call h (writePiRegs_keeps reg value mask))
  | writeSiRegs reg value mask =>
    exact hkeeps (of_call h (writeSiRegs_keeps reg value mask))
  | readAiLen =>
    exact hkeeps (of_call h readAiLen_keeps)
  | writeViRegs reg value mask =>
    obtain ⟨rfl, -⟩ := Prod.mk.inj (Option.some.inj h)
    cases reg with
    | current => exact hkeeps (clearRcpInterrupt_keeps miIntrVI)
    | _ => exact hkeeps (KeepsPending.of_eq rfl rfl)
  | ddRaise =>
    exact hkeeps (of_call h ddRaise_keeps)
  | ddPiTest =>
    exact hkeeps (of_call h ddPiTest_keeps)
  | _ =>
    exact hkeeps (of_call h (KeepsPending.of_eq rfl rfl))

end Accesses

section Poll

variable {cfg : Config} {d d' : Device}

def resetMiIntr (intr : Word) : Word :=
  intr &&& ~~~(miIntrPI ||| miIntrVI ||| miIntrAI ||| miIntrSP)

theorem dispatch_keeps {type : EventType} (htype : type ≠ .nmiInt) :
    KeepsPending d (d.dispatch cfg type).1 := by
  cases type with
  | specialInt =>
    rw [Device.dispatch, Device.specialIntHandler]
    split
    · exact KeepsPending.refl d
    · exact KeepsPending.of_eq rfl rfl
  | aiInt =>
    rw [Device.dispatch, Device.aiEndOfDmaEvent, Device.fifoPop]
    split
    · exact KeepsPending.of_eq rfl rfl
    · exact KeepsPending.of_eq rfl rfl
  | hw2Int =>
    have hbits : cp0CauseIP4 &&& cp0CauseIP2 = 0#32 ∧ cp0CauseIP4 &&& cp0CauseIP7 = 0#32 :=
      ⟨rfl, rfl⟩
    exact KeepsPending.of_raise rfl rfl hbits ⟨rfl, rfl⟩
  | cartInt =>
    have hbits : cp0CauseIP3 &&& cp0CauseIP2 = 0#32 ∧ cp0CauseIP3 &&& cp0CauseIP7 = 0#32 :=
      ⟨rfl, rfl⟩
    exact KeepsPending.of_raise rfl rfl hbits ⟨rfl, rfl⟩
  | nmiInt => exact absurd rfl htype
  | _ => exact KeepsPending.of_eq rfl rfl

theorem resetHard_synced : (d.resetHard cfg).Synced := by
  have hcause : (d.resetHard cfg).cause = 0x5C#32 := rfl
  have hmask : (d.resetHard cfg).mi .intrMask = 0#32 := rfl
  have hpending : (d.resetHard cfg).miPending = false := by
    simp [Device.miPending, hmask]
  rw [Device.Synced, hcause, hpending]
  decide

theorem nmiIntHandler_synced
    (h : resetMiIntr (d.mi .intr) &&& d.mi .intrMask = 0#32) : (d.nmiIntHandler cfg).Synced := by
  have hcause : (d.nmiIntHandler cfg).cause = 0#32 := by
    rw [Device.nmiIntHandler]
    split
    · rfl
    · rfl
  have hmi : (d.nmiIntHandler cfg).mi .intr = resetMiIntr (d.mi .intr) ∧
      (d.nmiIntHandler cfg).mi .intrMask = d.mi .intrMask := by
    rw [Device.nmiIntHandler]
    split
    · exact ⟨rfl, rfl⟩
    · exact ⟨rfl, rfl⟩
  have hpending : (d.nmiIntHandler cfg).miPending = false := by
    simp [Device.miPending, hmi.1, hmi.2, h]
  rw [Device.Synced, hcause, hpending]
  decide

end Poll

section Calls

variable (cfg : Config) {d d' : Device}

def Device.taskWaits (d : Device) (task : SpTask) : Bool :=
  decide (task.type = 1#32) && (!cfg.perfectDark && d.dp.dpcRegs .status &&& dpcStatusFreeze ≠ 0#32)

def SpTask.miIntr (task : SpTask) : Word :=
  if task.type = 1#32 then task.run.miIntr &&& ~~~miIntrDP else task.run.miIntr

/-- The calls that do not lose a pending interrupt. -/
def SafeCall (d : Device) (timer : Bool) : Call → Prop
  | .tlbRefill _ => d.cause &&& ~~~exceptionFields = 0#32
  | .cop1Unusable => d.cause &&& ~~~exceptionFields = 0#32
  | .syscall => d.cause &&& ~~~exceptionFields = 0#32
  | .doSpTask task =>
    d.taskWaits cfg task = true ∨
      (task.miIntr &&& d.mi .intrMask ≠ 0#32 ↔ d.miPending = true)
  | .writeCause value => value = 0#32 → d.miPending = false
  | .poll =>
    (d.interruptDue = true → d.resets = true → timer = false) ∧
      (d.dispatched = some .nmiInt →
        timer = false ∧ resetMiIntr (d.mi .intr) &&& d.mi .intrMask = 0#32)
  | _ => True

instance decidableSafeCall (d : Device) (timer : Bool) : ∀ c, Decidable (SafeCall cfg d timer c)
  | .tlbRefill _ => inferInstanceAs (Decidable (_ = _))
  | .cop1Unusable => inferInstanceAs (Decidable (_ = _))
  | .syscall => inferInstanceAs (Decidable (_ = _))
  | .doSpTask _ => inferInstanceAs (Decidable (_ ∨ (_ ↔ _)))
  | .writeCause _ => inferInstanceAs (Decidable (_ → _))
  | .poll => inferInstanceAs (Decidable ((_ → _ → _) ∧ (_ → _ ∧ _)))
  | .begin _ | .interpretOpcode | .addToPc _ | .updateCount | .checkInterrupt | .access _
  | .exceptionGeneral | .raiseTimer | .raiseRcp _ | .signalRcp _ | .addEvent _ _ | .lockTask
  | .setTaskLocked | .piEnd | .setStop | .setDelaySlot _ | .endJump _ | .setLastAddr | .idle _
  | .setUnsafe _ | .writeCount _ | .writeCompare _ | .writeStatus _ | .writeCp0 _ _ | .setRandom
  | .returnFromException => inferInstanceAs (Decidable True)

variable {cfg}

theorem doSpTask_keeps {task : SpTask} (h : d.taskWaits cfg task = true ∨
    (task.miIntr &&& d.mi .intrMask ≠ 0#32 ↔ d.miPending = true)) :
    KeepsPending d (d.doSpTask cfg task).1 := by
  have hrun (d' : Device) (hwaits : d.taskWaits cfg task ≠ true) (hcause : d'.cause = d.cause)
      (hmi : d'.mi .intr = task.miIntr ∧ d'.mi .intrMask = d.mi .intrMask) :
      KeepsPending d d' := by
    refine KeepsPending.of_eq ?_ hcause
    have hsafe := h.resolve_left hwaits
    rw [Bool.eq_iff_iff, ← hsafe, Device.miPending, hmi.1, hmi.2, decide_eq_true_iff]
  rw [Device.doSpTask]
  split
  · next htype =>
    have hmi : task.miIntr = task.run.miIntr &&& ~~~miIntrDP := if_pos htype
    split
    · exact KeepsPending.refl d
    · next hfreeze =>
      have hwaits : d.taskWaits cfg task ≠ true := by
        rw [Device.taskWaits, htype]
        simpa using hfreeze
      refine hrun _ hwaits ?_ ?_
      · rw [Device.scheduleDp]
        split
        · rfl
        · rfl
      · rw [Device.scheduleDp]
        split
        · exact ⟨hmi.symm, rfl⟩
        · next hdp =>
          refine ⟨?_, rfl⟩
          rw [hmi]
          exact (and_not_of_and_eq_zero (not_not.mp hdp)).symm
  · next htype =>
    have hwaits : d.taskWaits cfg task ≠ true := by simp [Device.taskWaits, htype]
    exact hrun _ hwaits rfl ⟨(if_neg htype).symm, rfl⟩

theorem KeepsPending.of_fields (hmi : d'.mi = d.mi)
    (hcause : d.cause &&& ~~~exceptionFields = 0#32)
    (hcause' : d'.cause &&& ~~~exceptionFields = 0#32) : KeepsPending d d' := by
  have hnone {w bit : Word} (hw : w &&& ~~~exceptionFields = 0#32)
      (hbit : ~~~exceptionFields &&& bit = bit) : w &&& bit = 0#32 := by
    rw [← hbit, ← BitVec.and_assoc, hw, BitVec.zero_and]
  refine KeepsPending.of_bits ?_ ?_ ?_
  · rw [Device.miPending, hmi, Device.miPending]
  · rw [hnone hcause rfl, hnone hcause' rfl]
  · rw [hnone hcause rfl, hnone hcause' rfl]

theorem exceptionCode_fields {code : Word} (hcode : code &&& ~~~exceptionFields = 0#32) :
    ((d.setCp0 .cause code).exceptionGeneral cfg).cause &&& ~~~exceptionFields = 0#32 :=
  (exceptionGeneral_field rfl rfl).trans hcode

theorem tlbRefillException_fields (miss : TlbMiss) :
    (d.tlbRefillException cfg miss).cause &&& ~~~exceptionFields = 0#32 ∧
      (d.tlbRefillException cfg miss).mi = d.mi := by
  have hcount : (if miss.access = .fetch then d else d.cp0UpdateCount cfg).mi = d.mi := by
    split
    · rfl
    · rfl
  have hrecord (d' : Device) : (d'.recordMiss miss).cause &&& ~~~exceptionFields = 0#32 := by
    change miss.access.excCode &&& ~~~exceptionFields = 0#32
    cases miss.access with
    | _ => rfl
  have henter (d' : Device) : (d'.enterRefill miss).cause &&& ~~~exceptionFields =
      d'.cause &&& ~~~exceptionFields ∧ (d'.enterRefill miss).mi = d'.mi := by
    rw [Device.enterRefill]
    split
    · dsimp only
      split
      · exact ⟨or_and_of_disjoint rfl, rfl⟩
      · exact ⟨and_and_of_subset rfl, rfl⟩
    · exact ⟨and_and_of_subset rfl, rfl⟩
  rw [Device.tlbRefillException, deferJump_cause, deferJump_mi]
  generalize (if miss.access = .fetch then d else d.cp0UpdateCount cfg) = d' at hcount
  have hmark : ((d'.recordMiss miss).enterRefill miss).markDelaySlot.cause &&& ~~~exceptionFields =
      0#32 := by
    rw [markDelaySlot_field rfl rfl, (henter _).1]
    exact hrecord d'
  have hmi : ((d'.recordMiss miss).enterRefill miss).markDelaySlot.mi = d.mi := by
    rw [markDelaySlot_mi, (henter _).2]
    exact hcount
  split
  · exact ⟨hmark, hmi⟩
  · exact ⟨hmark, hmi⟩

/-- The calls that software uses to acknowledge the timer. -/
def Call.AcksTimer : Call → Prop
  | .writeCompare _ => True
  | .writeCause _ => True
  | _ => False

theorem writeCp0_keeps (reg : Cp0Reg) (value : Word) : KeepsPending d (d.writeCp0 reg value) := by
  cases reg with
  | index =>
    rw [Device.writeCp0]
    split
    · exact KeepsPending.of_eq rfl rfl
    · exact KeepsPending.of_eq rfl rfl
  | _ => exact KeepsPending.of_eq rfl rfl

theorem returnFromException_keeps : KeepsPending d d.returnFromException := by
  rw [Device.returnFromException]
  split
  · exact KeepsPending.of_eq rfl rfl
  · exact KeepsPending.of_eq rfl rfl

theorem setRandom_keeps (h : d.setRandom = some d') : KeepsPending d d' := by
  rw [Device.setRandom] at h
  split at h
  · exact absurd h (Option.some_ne_none _).symm
  · obtain rfl := Option.some.inj h
    exact setCp0_keeps (by decide) _

theorem poll_keeps {timer : Bool} (hsafe : SafeCall cfg d timer .poll) :
    (d.Synced → (d.poll cfg).1.Synced) ∧
      (timer = true → d.TimerSet → (d.poll cfg).1.TimerSet) := by
  rcases @poll_cases cfg d with heq | ⟨hdue, hresets, heq⟩ | ⟨-, -, -, heq⟩ | ⟨type, htype, heq⟩
  · rw [heq]
    exact ⟨id, fun _ => id⟩
  · rw [heq]
    have hreset := @resetHard_synced cfg d
    generalize d.resetHard cfg = d' at hreset
    refine ⟨fun _ => hreset, fun htimer => ?_⟩
    exact absurd htimer (by simp [hsafe.1 hdue hresets])
  · rw [heq]
    have hjump : KeepsPending d d.finishJump := KeepsPending.of_eq rfl rfl
    exact ⟨hjump.synced, fun _ => hjump.timer⟩
  · rw [heq]
    by_cases hnmi : type = .nmiInt
    · subst hnmi
      obtain ⟨htimer, hpending⟩ := hsafe.2 htype
      refine ⟨fun _ => nmiIntHandler_synced hpending, fun htrue => ?_⟩
      exact absurd htrue (by simp [htimer])
    · exact ⟨(dispatch_keeps hnmi).synced, fun _ => (dispatch_keeps hnmi).timer⟩

/-- A safe call brings IP2 up to date if it is an interrupt check, keeps it up to date, or is
followed by an interrupt check; and it keeps a pending timer that it does not acknowledge. -/
theorem call_keeps {c : Call} {timer : Bool} {more : List Call}
    (h : d.call cfg c = some (d', more)) (hsafe : SafeCall cfg d timer c) :
    (ChecksNext more ∨ (ChecksNext [c] ∨ d.Synced → d'.Synced)) ∧
      (timer = true → ¬c.AcksTimer → d.TimerSet → d'.TimerSet) := by
  have hkeeps (hc : ¬ChecksNext [c]) (hkeeps : KeepsPending d d') :
      (ChecksNext more ∨ (ChecksNext [c] ∨ d.Synced → d'.Synced)) ∧
        (timer = true → ¬c.AcksTimer → d.TimerSet → d'.TimerSet) :=
    ⟨Or.inr fun hsynced => hkeeps.synced (hsynced.resolve_left hc), fun _ _ => hkeeps.timer⟩
  cases c with
  | interpretOpcode => exact absurd h (Option.some_ne_none _).symm
  | checkInterrupt =>
    obtain ⟨rfl, -⟩ := Prod.mk.inj (Option.some.inj h)
    exact ⟨Or.inr fun _ => checkInterrupt_synced, fun _ _ => checkInterrupt_timer⟩
  | signalRcp miIntr =>
    obtain ⟨rfl, -⟩ := Prod.mk.inj (Option.some.inj h)
    exact ⟨Or.inr fun _ => checkInterrupt_synced, fun _ _ => (signalRcpInterrupt_keeps miIntr).timer⟩
  | poll =>
    have hpoll := poll_keeps hsafe
    rw [Option.some.inj h] at hpoll
    exact ⟨Or.inr fun hsynced => hpoll.1 (hsynced.resolve_left id), fun htimer _ => hpoll.2 htimer⟩
  | access access =>
    obtain ⟨hsynced, htimer⟩ := access_keeps h
    exact ⟨hsynced.imp_right fun hkeep hd => hkeep (hd.resolve_left id), fun _ _ => htimer⟩
  | tlbRefill miss =>
    obtain ⟨rfl, -⟩ := Prod.mk.inj (Option.some.inj h)
    obtain ⟨hfields, hmi⟩ := @tlbRefillException_fields cfg d miss
    exact hkeeps id (KeepsPending.of_fields hmi hsafe hfields)
  | cop1Unusable =>
    obtain ⟨rfl, -⟩ := Prod.mk.inj (Option.some.inj h)
    exact hkeeps id (KeepsPending.of_fields exceptionGeneral_mi hsafe (exceptionCode_fields rfl))
  | syscall =>
    obtain ⟨rfl, -⟩ := Prod.mk.inj (Option.some.inj h)
    exact hkeeps id (KeepsPending.of_fields exceptionGeneral_mi hsafe (exceptionCode_fields rfl))
  | exceptionGeneral =>
    exact hkeeps id (of_call h exceptionGeneral_keeps)
  | raiseTimer =>
    exact hkeeps id (of_call h ⟨raiseTimer_synced, fun _ => raiseTimer_timer⟩)
  | raiseRcp miIntr =>
    exact hkeeps id (of_call h (raiseRcpInterrupt_keeps miIntr))
  | doSpTask task =>
    have htask := doSpTask_keeps hsafe
    rw [Option.some.inj h] at htask
    exact hkeeps id htask
  | writeCompare value =>
    obtain ⟨rfl, -⟩ := Prod.mk.inj (Option.some.inj h)
    refine ⟨Or.inr fun hsynced => ?_, fun _ hack => absurd trivial hack⟩
    have hip2 : (d.writeCompare value).cause &&& cp0CauseIP2 = d.cause &&& cp0CauseIP2 :=
      and_and_of_subset rfl
    rw [Device.Synced, hip2]
    exact hsynced.resolve_left id
  | writeCause value =>
    obtain ⟨rfl, -⟩ := Prod.mk.inj (Option.some.inj h)
    refine ⟨Or.inr fun hsynced => ?_, fun _ hack => absurd trivial hack⟩
    rw [Device.writeCause]
    split
    · exact hsynced.resolve_left id
    · next hvalue =>
      have hnone : d.miPending = false := hsafe (not_not.mp hvalue)
      have hpending : (d.setCp0 .cause 0#32).miPending = false := hnone
      have hip2 : (d.setCp0 .cause 0#32).cause &&& cp0CauseIP2 = 0#32 := BitVec.zero_and
      rw [Device.Synced, hip2, hpending]
      decide
  | writeCp0 reg value =>
    exact hkeeps id (of_call h (writeCp0_keeps reg value))
  | setRandom =>
    rw [Device.call, Option.map_eq_some_iff] at h
    obtain ⟨d'', hrandom, heq⟩ := h
    obtain ⟨rfl, -⟩ := Prod.mk.inj heq
    exact hkeeps id (setRandom_keeps hrandom)
  | returnFromException =>
    exact hkeeps id (of_call h returnFromException_keeps)
  | idle j =>
    refine hkeeps id ?_
    rw [Device.call, Device.idle] at h
    split at h
    · obtain ⟨rfl, -⟩ := Prod.mk.inj (Option.some.inj h)
      exact KeepsPending.of_eq rfl rfl
    · obtain ⟨rfl, -⟩ := Prod.mk.inj (Option.some.inj h)
      exact KeepsPending.refl d
  | endJump j =>
    obtain ⟨rfl, -⟩ := Prod.mk.inj (Option.some.inj h)
    refine hkeeps id ?_
    split
    · exact KeepsPending.of_eq rfl rfl
    · exact KeepsPending.refl d
  | _ =>
    exact hkeeps id (of_call h (KeepsPending.of_eq rfl rfl))

end Calls

end ParallelN64.R4300
