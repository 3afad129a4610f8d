import ParallelN64.Ai.AudioRun
import ParallelN64.Pi.Machine

/-!
# Divisors and sources of the audio and video interfaces

The rates of the audio interface divide by what software has written to a register. The lengths
that are handed on lie inside a buffer whose address and length were not checked either. What a call
divides by and hands on is listed here as it is found by the functions of both interfaces.
-/

namespace ParallelN64.Ai

open R4300

/-- The video standards that have a clock. -/
inductive TvStandard where
  | ntsc | pal | mpal
  deriving DecidableEq

/-- `vi_clock_from_tv_standard`. -/
def viClockFromTvStandard : TvStandard → Word
  | .pal => 49656530#32
  | .mpal => 48628316#32
  | .ntsc => 48681812#32

/-- The divisors in `get_dma_duration`. -/
def durationDivisors (cfg : Config) (d : Device) : List Word :=
  let rate := 1#32 + d.ai.regs .dacRate
  rate :: if rate = 0#32 then [] else [4#32 * (cfg.viClock / rate)]

/-- The divisor in `do_dma`: the format is set once after a change, and a rate of 0 has a default. -/
def formatDivisors (ai : AiController) : List Word :=
  if ai.samplesFormatChanged = true ∧ ai.regs .dacRate ≠ 0#32 then [1#32 + ai.regs .dacRate] else []

/-- The divisors of `fifo_push`. -/
def pushDivisors (cfg : Config) (d : Device) : List Word :=
  durationDivisors cfg d ++
    if d.ai.regs .status &&& aiStatusBusy ≠ 0#32 then [] else formatDivisors d.ai

/-- The divisors of `fifo_pop`. -/
def popDivisors (d : Device) : List Word :=
  if d.ai.regs .status &&& aiStatusFull ≠ 0#32 then formatDivisors d.ai else []

/-- The divisor in `get_remaining_dma_length`. -/
def remainingDivisors (cfg : Config) (d : Device) : List Word :=
  if d.ai.fifo0.duration = 0#32 then []
  else
    let d := d.cp0UpdateCount cfg
    let next := d.interrupts.getEvent .aiInt
    if next = 0#32 ∨ next ≤ d.count then [] else [d.ai.fifo0.duration]

/-- The divisor in `read_vi_regs`. -/
def lineDivisors (cfg : Config) : List Word :=
  [if cfg.alternateViTiming then 526#32 else cfg.viRefreshRate]

/-- What a call of either interface divides by. -/
def callDivisors (cfg : Config) (d : Device) : Call → List Word
  | .access .readAiLen => remainingDivisors cfg d
  | .access (.writeAiRegs .len value mask) =>
    pushDivisors cfg (d.setAi .len (maskedWrite (d.ai.regs .len) value mask))
  | .access .readViCurrent => lineDivisors cfg
  | .poll => if d.dispatched = some .aiInt then popDivisors d else []
  | _ => []

/-- The calls of `push_audio_samples` that a call makes. -/
def callPushes (cfg : Config) (d : Device) : Call → List Push
  | .access .readAiLen => readPush cfg d
  | .poll => if d.dispatched = some .aiInt then endPush d else []
  | _ => []

def Push.Inside (p : Push) : Prop := p.start + p.size.toNat ≤ Pi.rdramSize

def DividesSafely (cfg : Config) (s : Interpreter) (a : Action) : Prop :=
  ∀ c ∈ calls s a, 0#32 ∉ callDivisors cfg s.device c

def PushesInside (cfg : Config) (s : Interpreter) (a : Action) : Prop :=
  ∀ c ∈ calls s a, ∀ p ∈ callPushes cfg s.device c, p.Inside

instance (p : Push) : Decidable p.Inside := inferInstanceAs (Decidable (_ ≤ _))

instance (cfg : Config) (s : Interpreter) (a : Action) : Decidable (DividesSafely cfg s a) :=
  inferInstanceAs (Decidable (∀ c ∈ calls s a, 0#32 ∉ callDivisors cfg s.device c))

instance (cfg : Config) (s : Interpreter) (a : Action) : Decidable (PushesInside cfg s a) :=
  inferInstanceAs (Decidable (∀ c ∈ calls s a, ∀ p ∈ callPushes cfg s.device c, p.Inside))

def checksInterrupts : Call → Bool
  | .poll => true
  | _ => false

/-- The length is written while the rate is below the clock, and a queued transfer does not start
with a changed rate of which one more is 0. -/
structure RateFits (cfg : Config) (d : Device) (c : Call) : Prop where
  write : (lengthWritten d c).isSome → d.ai.regs .dacRate < cfg.viClock
  ends : checksInterrupts c = true → d.dispatched = some .aiInt →
    d.ai.regs .status &&& aiStatusFull ≠ 0#32 → d.ai.samplesFormatChanged = true →
      d.ai.regs .dacRate ≠ 0xFFFFFFFF#32

def BufferFits (address length : Word) : Prop :=
  length = 0#32 ∨ 4 * (address / 4#32).toNat + length.toNat ≤ Pi.rdramSize

theorem forall_bufferFits_iff (address : Word) (written : Option Word) :
    (∀ length ∈ written, BufferFits address length) ↔ BufferFits address (written.getD 0#32) := by
  cases written with
  | none => exact iff_of_true (fun length h => absurd h (Option.not_mem_none length)) (.inl rfl)
  | some length => exact ⟨fun h => h length rfl, fun h _ hlength => Option.some.inj hlength ▸ h⟩

/-- The buffer of a written length lies inside main memory, and at a read no more is left by the
time until the event than the length. -/
structure LengthFits (cfg : Config) (d : Device) (c : Call) : Prop where
  write : ∀ length ∈ lengthWritten d c, BufferFits (d.ai.regs .dramAddr) length
  read : readsLength c = true →
    bytesByTime (d.interrupts.getEvent .aiInt) (d.cp0UpdateCount cfg).count d.ai.fifo0 ≤
      d.ai.fifo0.length.toNat

def RatesFit (cfg : Config) (s : Interpreter) (a : Action) : Prop :=
  ∀ c ∈ calls s a, RateFits cfg s.device c

def LengthsFit (cfg : Config) (s : Interpreter) (a : Action) : Prop :=
  ∀ c ∈ calls s a, LengthFits cfg s.device c

instance (address length : Word) : Decidable (BufferFits address length) :=
  inferInstanceAs (Decidable (_ ∨ _))

instance (cfg : Config) (d : Device) (c : Call) : Decidable (RateFits cfg d c) :=
  decidable_of_iff (((lengthWritten d c).isSome → d.ai.regs .dacRate < cfg.viClock) ∧
    (checksInterrupts c = true → d.dispatched = some .aiInt →
      d.ai.regs .status &&& aiStatusFull ≠ 0#32 → d.ai.samplesFormatChanged = true →
        d.ai.regs .dacRate ≠ 0xFFFFFFFF#32)) ⟨fun h => ⟨h.1, h.2⟩, fun h => ⟨h.write, h.ends⟩⟩

instance (cfg : Config) (d : Device) (c : Call) : Decidable (LengthFits cfg d c) :=
  decidable_of_iff (BufferFits (d.ai.regs .dramAddr) ((lengthWritten d c).getD 0#32) ∧
    (readsLength c = true →
      bytesByTime (d.interrupts.getEvent .aiInt) (d.cp0UpdateCount cfg).count d.ai.fifo0 ≤
        d.ai.fifo0.length.toNat))
    ⟨fun h => ⟨(forall_bufferFits_iff ..).mpr h.1, h.2⟩,
      fun h => ⟨(forall_bufferFits_iff ..).mp h.write, h.read⟩⟩

instance (cfg : Config) (s : Interpreter) (a : Action) : Decidable (RatesFit cfg s a) :=
  inferInstanceAs (Decidable (∀ c ∈ calls s a, RateFits cfg s.device c))

instance (cfg : Config) (s : Interpreter) (a : Action) : Decidable (LengthsFit cfg s a) :=
  inferInstanceAs (Decidable (∀ c ∈ calls s a, LengthFits cfg s.device c))

section Rates

variable {cfg : Config} {d : Device}

theorem viClockFromTvStandard_lt (standard : TvStandard) :
    (viClockFromTvStandard standard).toNat < 2 ^ 30 := by
  cases standard <;> decide

theorem one_add_eq_zero_iff (rate : Word) : 1#32 + rate = 0#32 ↔ rate = 0xFFFFFFFF#32 := by
  rw [← BitVec.toNat_inj, ← BitVec.toNat_inj, BitVec.toNat_add, BitVec.toNat_ofNat,
    BitVec.toNat_ofNat, BitVec.toNat_ofNat]
  omega

theorem durationDivisors_ne_zero_iff (hclock : cfg.viClock.toNat < 2 ^ 30) :
    (∀ x ∈ durationDivisors cfg d, x ≠ 0#32) ↔ d.ai.regs .dacRate < cfg.viClock := by
  rw [durationDivisors]
  generalize d.ai.regs .dacRate = rate
  by_cases hrate : 1#32 + rate = 0#32
  · rw [hrate]
    have hmax : rate = 0xFFFFFFFF#32 := (one_add_eq_zero_iff rate).mp hrate
    refine iff_of_false (fun h => h _ List.mem_cons_self rfl) ?_
    rw [hmax, BitVec.lt_def]
    exact Nat.not_lt.mpr (hclock.le.trans (by decide))
  · have hne : rate.toNat ≠ 2 ^ 32 - 1 := fun hmax =>
      hrate ((one_add_eq_zero_iff rate).mpr (BitVec.toNat_inj.mp hmax))
    have hlt := rate.isLt
    have hsum : (1#32 + rate).toNat = rate.toNat + 1 := by
      rw [BitVec.toNat_add, BitVec.toNat_ofNat]
      omega
    have hdiv : (cfg.viClock / (1#32 + rate)).toNat ≤ cfg.viClock.toNat := by
      rw [BitVec.toNat_udiv]
      exact Nat.div_le_self ..
    have hsamples : 4#32 * (cfg.viClock / (1#32 + rate)) = 0#32 ↔
        (cfg.viClock / (1#32 + rate)).toNat = 0 := by
      rw [← BitVec.toNat_inj, BitVec.toNat_mul, BitVec.toNat_ofNat, BitVec.toNat_ofNat]
      omega
    rw [if_neg hrate, List.forall_mem_cons, and_iff_right hrate, List.forall_mem_singleton, ne_eq,
      hsamples, BitVec.toNat_udiv, hsum, BitVec.lt_def, Nat.div_eq_zero_iff]
    omega

theorem formatDivisors_ne_zero_iff (ai : AiController) :
    (∀ x ∈ formatDivisors ai, x ≠ 0#32) ↔
      (ai.samplesFormatChanged = true → ai.regs .dacRate ≠ 0xFFFFFFFF#32) := by
  rw [formatDivisors]
  split_ifs with hchanged
  · rw [List.forall_mem_singleton, ne_eq, one_add_eq_zero_iff]
    exact ⟨fun h _ => h, fun h => h hchanged.1⟩
  · refine iff_of_true (fun x hx => absurd hx List.not_mem_nil) fun hformat hmax => ?_
    exact hchanged ⟨hformat, by rw [hmax]; decide⟩

theorem callDivisors_ne_zero_iff {standard : TvStandard}
    (hclock : cfg.viClock = viClockFromTvStandard standard) (hrefresh : cfg.viRefreshRate ≠ 0#32)
    (c : Call) : (∀ x ∈ callDivisors cfg d c, x ≠ 0#32) ↔ RateFits cfg d c := by
  have hlt : cfg.viClock.toNat < 2 ^ 30 := hclock ▸ viClockFromTvStandard_lt standard
  have hnone : ∀ x ∈ ([] : List Word), x ≠ 0#32 := fun x hx => absurd hx List.not_mem_nil
  cases c with
  | poll =>
    have hends : RateFits cfg d .poll ↔ (d.dispatched = some .aiInt →
        d.ai.regs .status &&& aiStatusFull ≠ 0#32 → d.ai.samplesFormatChanged = true →
          d.ai.regs .dacRate ≠ 0xFFFFFFFF#32) :=
      ⟨fun h => h.ends rfl, fun h => ⟨fun hwrite => Bool.noConfusion hwrite, fun _ => h⟩⟩
    rw [callDivisors, hends]
    split_ifs with hdispatched
    · rw [popDivisors, forall_prop_of_true hdispatched]
      split_ifs with hfull
      · rw [formatDivisors_ne_zero_iff, forall_prop_of_true hfull]
      · exact iff_of_true hnone fun h => absurd h hfull
    · exact iff_of_true hnone fun h => absurd h hdispatched
  | access access =>
    have hother (hnot : lengthWritten d (.access access) = none) :
        RateFits cfg d (.access access) := by
      refine ⟨fun hwrite => ?_, fun hends => Bool.noConfusion hends⟩
      rw [hnot] at hwrite
      exact Bool.noConfusion hwrite
    cases access with
    | readAiLen =>
      refine iff_of_true ?_ (hother rfl)
      change ∀ x ∈ remainingDivisors cfg d, x ≠ 0#32
      rw [remainingDivisors]
      split_ifs with hduration
      · exact hnone
      · dsimp only
        split_ifs
        · exact hnone
        · exact List.forall_mem_singleton.mpr hduration
    | readViCurrent =>
      refine iff_of_true (List.forall_mem_singleton.mpr ?_) (hother rfl)
      split_ifs
      · decide
      · exact hrefresh
    | writeAiRegs reg value mask =>
      cases reg with
      | len =>
        have hwrite : RateFits cfg d (.access (.writeAiRegs .len value mask)) ↔
            d.ai.regs .dacRate < cfg.viClock :=
          ⟨fun h => h.write rfl, fun h => ⟨fun _ => h, fun hends => Bool.noConfusion hends⟩⟩
        rw [hwrite, callDivisors, pushDivisors, List.forall_mem_append,
          durationDivisors_ne_zero_iff hlt]
        refine and_iff_left_of_imp fun hrate => ?_
        split_ifs
        · exact hnone
        · refine (formatDivisors_ne_zero_iff _).mpr fun _ hmax => ?_
          rw [hmax, BitVec.lt_def] at hrate
          exact Nat.not_lt.mpr (hlt.le.trans (by decide)) hrate
      | _ => exact iff_of_true hnone (hother rfl)
    | _ => exact iff_of_true hnone (hother rfl)
  | _ =>
    exact iff_of_true hnone
      ⟨fun hwrite => Bool.noConfusion hwrite, fun hends => Bool.noConfusion hends⟩

end Rates

/-- The queued buffers lie inside main memory, and no more than the length of the first is still to
be handed on. -/
structure Sourced (ai : AiController) : Prop where
  fifo0 : BufferFits ai.fifo0.address ai.fifo0.length
  fifo1 : BufferFits ai.fifo1.address ai.fifo1.length
  lastRead : ai.lastRead.toNat ≤ ai.fifo0.length.toNat

section Sources

variable {cfg : Config} {d : Device} {ai ai' : AiController}

namespace Sourced

theorem congr (h : Sourced ai) (hfifo0 : ai'.fifo0 = ai.fifo0) (hfifo1 : ai'.fifo1 = ai.fifo1)
    (hread : ai'.lastRead = ai.lastRead) : Sourced ai' := by
  constructor
  · exact hfifo0 ▸ h.fifo0
  · exact hfifo1 ▸ h.fifo1
  · rw [hread, hfifo0]
    exact h.lastRead

theorem of_reset (hfifo0 : ai.fifo0 = ⟨0#32, 0#32, 0#32⟩) (hfifo1 : ai.fifo1 = ⟨0#32, 0#32, 0#32⟩)
    (hread : ai.lastRead = 0#32) : Sourced ai := by
  constructor
  · rw [hfifo0]
    exact .inl rfl
  · rw [hfifo1]
    exact .inl rfl
  · rw [hread]
    exact Nat.zero_le _

theorem pushAt_inside (h : Sourced ai) {size : Word} (hne : size ≠ 0#32)
    (hle : size.toNat ≤ ai.lastRead.toNat) : (pushAt ai size).Inside := by
  have hread := h.lastRead
  have hdiff : (ai.fifo0.length - ai.lastRead).toNat =
      ai.fifo0.length.toNat - ai.lastRead.toNat := BitVec.toNat_sub_of_le hread
  have hpos : size.toNat ≠ 0 := fun hzero => hne (BitVec.toNat_inj.mp hzero)
  change 4 * (ai.fifo0.address / 4#32).toNat + (ai.fifo0.length - ai.lastRead).toNat + size.toNat ≤
    Pi.rdramSize
  rcases h.fifo0 with hzero | hfits
  · rw [hzero] at hread
    exact absurd (Nat.le_zero.mp (hle.trans hread)) hpos
  · omega

theorem readPush_inside (h : Sourced d.ai) {p : Push} (hp : p ∈ readPush cfg d) : p.Inside := by
  rw [readPush] at hp
  split_ifs at hp with hless
  · rw [List.mem_singleton.mp hp]
    have hsub := BitVec.toNat_sub_of_le (BitVec.le_of_lt hless)
    have hlt := BitVec.lt_def.mp hless
    refine h.pushAt_inside (fun hzero => ?_) (by omega)
    rw [hzero, BitVec.toNat_ofNat] at hsub
    omega
  · exact absurd hp List.not_mem_nil

theorem endPush_inside (h : Sourced d.ai) {p : Push} (hp : p ∈ endPush d) : p.Inside := by
  rw [endPush] at hp
  split_ifs at hp with hread
  · rw [List.mem_singleton.mp hp]
    exact h.pushAt_inside hread (Nat.le_refl _)
  · exact absurd hp List.not_mem_nil

theorem callPushes_inside (h : Sourced d.ai) (c : Call) {p : Push} (hp : p ∈ callPushes cfg d c) :
    p.Inside := by
  cases c with
  | poll =>
    rw [callPushes] at hp
    split_ifs at hp
    · exact h.endPush_inside hp
    · exact absurd hp List.not_mem_nil
  | access access =>
    cases access with
    | readAiLen => exact h.readPush_inside hp
    | _ => exact absurd hp List.not_mem_nil
  | _ => exact absurd hp List.not_mem_nil

theorem fifoPop (h : Sourced d.ai) : Sourced (d.fifoPop cfg).ai := by
  rw [Device.fifoPop]
  split_ifs
  · exact ⟨h.fifo1, h.fifo1, Nat.le_refl _⟩
  · exact h.congr rfl rfl rfl

theorem fifoPush (h : Sourced d.ai) (hfits : BufferFits (d.ai.regs .dramAddr) (d.ai.regs .len))
    (duration : Word) : Sourced (d.fifoPush cfg duration).ai := by
  rw [Device.fifoPush]
  dsimp only
  split_ifs
  · exact ⟨h.fifo0, hfits, h.lastRead⟩
  · exact ⟨hfits, h.fifo1, Nat.le_refl _⟩

theorem writeAiLen (h : Sourced d.ai) {value mask : Word} {d' : Device}
    (hfits : BufferFits (d.ai.regs .dramAddr) (maskedWrite (d.ai.regs .len) value mask))
    (hwrite : d.writeAiRegs cfg .len value mask = some d') : Sourced d'.ai := by
  rw [Device.writeAiRegs, Option.map_eq_some_iff] at hwrite
  obtain ⟨duration, -, rfl⟩ := hwrite
  have hset : Sourced (d.setAi .len (maskedWrite (d.ai.regs .len) value mask)).ai :=
    h.congr rfl rfl rfl
  exact hset.fifoPush hfits duration

theorem writeAiRegs (h : Sourced d.ai) {reg : AiReg} (hreg : reg ≠ .len) {value mask : Word}
    {d' : Device} (hwrite : d.writeAiRegs cfg reg value mask = some d') : Sourced d'.ai := by
  cases reg with
  | len => exact absurd rfl hreg
  | dramAddr =>
    rw [Device.writeAiRegs] at hwrite
    dsimp only at hwrite
    split_ifs at hwrite
    all_goals
      obtain rfl := Option.some.inj hwrite
      exact h.congr rfl rfl rfl
  | status =>
    obtain rfl := Option.some.inj hwrite
    rw [ai_clearRcpInterrupt]
    exact h
  | _ =>
    obtain rfl := Option.some.inj hwrite
    exact h.congr rfl rfl rfl

theorem readAiLen (h : Sourced d.ai)
    (hfits : bytesByTime (d.interrupts.getEvent .aiInt) (d.cp0UpdateCount cfg).count d.ai.fifo0 ≤
      d.ai.fifo0.length.toNat) : Sourced (d.readAiLen cfg).ai := by
  rw [ai_readAiLen]
  exact ⟨h.fifo0, h.fifo1, (toNat_getRemainingDmaLength_le cfg d).trans hfits⟩

theorem poll (h : Sourced d.ai) : Sourced (d.poll cfg).1.ai := by
  rcases @poll_cases cfg d with hpoll | ⟨-, -, hpoll⟩ | ⟨-, -, -, hpoll⟩ | ⟨type, -, hpoll⟩
  · rw [hpoll]
    exact h
  · rw [hpoll]
    exact of_reset rfl rfl rfl
  · rw [hpoll]
    exact h.congr rfl rfl rfl
  · rw [hpoll]
    cases type with
    | aiInt =>
      have hremoved : Sourced d.removeInterruptEvent.ai := h
      exact @fifoPop cfg _ hremoved
    | nmiInt =>
      rw [Device.dispatch, Device.nmiIntHandler]
      dsimp only
      split_ifs
      · exact h.congr rfl rfl rfl
      · exact h.congr rfl rfl rfl
    | _ =>
      rw [ai_dispatch (by simp) (by simp)]
      exact h

theorem call (h : Sourced d.ai) {c : Call} (hfits : LengthFits cfg d c) {d' : Device}
    {more : List Call} (hcall : d.call cfg c = some (d', more)) : Sourced d'.ai := by
  cases c with
  | poll =>
    have hpoll := @poll cfg d h
    rwa [Option.some.inj hcall] at hpoll
  | access access =>
    have haccess : d.access cfg access = some (d', more) := hcall
    cases access with
    | readAiLen =>
      obtain ⟨rfl, -⟩ := Prod.mk.inj (Option.some.inj hcall)
      exact h.readAiLen (hfits.read rfl)
    | writeAiRegs reg value mask =>
      obtain ⟨d'', hwrite, heq⟩ := Option.map_eq_some_iff.mp haccess
      obtain ⟨rfl, -⟩ := Prod.mk.inj heq
      by_cases hreg : reg = .len
      · subst hreg
        exact h.writeAiLen (hfits.write _ rfl) hwrite
      · exact h.writeAiRegs hreg hwrite
    | _ =>
      rw [ai_access haccess rfl]
      exact h
  | _ =>
    rw [ai_call hcall (by simp) (by simp)]
    exact h

theorem step {s : Interpreter} (h : Sourced s.device.ai) {a : Action} (hfits : LengthsFit cfg s a) :
    Sourced (s.step cfg a).device.ai := by
  cases a with
  | fetch misses instruction =>
    rw [device_fetch]
    exact h
  | call =>
    rw [Interpreter.step]
    cases htodo : s.todo with
    | nil => exact h
    | cons c rest =>
      dsimp only
      cases hcall : s.device.call cfg c with
      | none => exact h
      | some result =>
        have hc : c ∈ calls s .call := by
          rw [calls, htodo]
          exact rfl
        exact h.call (hfits c hc) hcall
  | _ => exact h.congr rfl rfl rfl

end Sourced

end Sources

/-- In a run of the machine with a clock of its standard, no division is by zero exactly where all
steps keep to the rates. Where all steps keep to the lengths, everything that is handed on lies
inside main memory. -/
theorem run_divides_and_pushes_iff (cfg : Config) (standard : TvStandard)
    (hclock : cfg.viClock = viClockFromTvStandard standard) (hrefresh : cfg.viRefreshRate ≠ 0#32)
    (actions : List Action) :
    ((∀ first a rest, actions = first ++ a :: rest → DividesSafely cfg (run cfg first) a) ↔
        ∀ first a rest, actions = first ++ a :: rest → RatesFit cfg (run cfg first) a) ∧
      ((∀ first a rest, actions = first ++ a :: rest → LengthsFit cfg (run cfg first) a) →
        ∀ first a rest, actions = first ++ a :: rest → PushesInside cfg (run cfg first) a) := by
  constructor
  · refine forall₄_congr fun first a rest _ => forall₂_congr fun c _ => ?_
    rw [← callDivisors_ne_zero_iff hclock hrefresh c]
    exact ⟨fun h x hx hzero => h (hzero ▸ hx), fun h hmem => h _ hmem rfl⟩
  · intro hlengths first a rest hactions c hc p hp
    have hsourced : Sourced (run cfg first).device.ai :=
      Core.foldl_prefix_invariant (fun s : Interpreter => Sourced s.device.ai) (LengthsFit cfg)
        (Sourced.of_reset rfl rfl rfl) (fun s a _ hs hfits => hs.step hfits) hlengths hactions
    exact hsourced.callPushes_inside c hp

/-- In the run that hands on one buffer in two pieces nothing goes wrong. -/
theorem samplePoll_divides_and_pushes :
    (∀ first a rest, samplePoll = first ++ a :: rest →
        DividesSafely sampleConfig (run sampleConfig first) a) ∧
      ∀ first a rest, samplePoll = first ++ a :: rest →
        PushesInside sampleConfig (run sampleConfig first) a := by
  have hrates : Core.AllAlong (Interpreter.step sampleConfig) (RatesFit sampleConfig)
      (poweredOn sampleConfig) samplePoll := by decide +kernel
  have hlengths : Core.AllAlong (Interpreter.step sampleConfig) (LengthsFit sampleConfig)
      (poweredOn sampleConfig) samplePoll := by decide +kernel
  have hboth := run_divides_and_pushes_iff sampleConfig .ntsc rfl (by decide) samplePoll
  exact ⟨hboth.1.mpr fun _ _ _ h => hrates.at h, hboth.2 fun _ _ _ h => hlengths.at h⟩

def sampleZeroRate : List Action :=
  sampleAccess (.writeAiRegs .dacRate 0xFFFFFFFF#32 0xFFFFFFFF#32) ++
    sampleAccess (.writeAiRegs .len 16#32 0xFFFFFFFF#32)

/-- A buffer at the end of the address space is handed on. -/
def sampleFarBuffer : List Action :=
  sampleAccess (.writeAiRegs .dacRate 1000#32 0xFFFFFFFF#32) ++
    sampleAccess (.writeAiRegs .dramAddr 0xFFFFFFF0#32 0xFFFFFFFF#32) ++
    sampleAccess (.writeAiRegs .len 16#32 0xFFFFFFFF#32) ++ sampleWait

/-- A rate can be such that the host divides by zero, and a buffer such that samples outside main
memory are handed on. -/
theorem rates_and_buffers_unchecked :
    (¬ ∀ first a rest, sampleZeroRate = first ++ a :: rest →
        DividesSafely sampleConfig (run sampleConfig first) a) ∧
      ¬ ∀ first a rest, sampleFarBuffer = first ++ a :: rest →
        PushesInside sampleConfig (run sampleConfig first) a := by
  constructor
  · intro hall
    have hwrite : ¬ DividesSafely sampleConfig (run sampleConfig (sampleZeroRate.take 7)) .call := by
      decide +kernel
    exact hwrite (hall (sampleZeroRate.take 7) .call (sampleZeroRate.drop 8) rfl)
  · intro hall
    have hends : ¬ PushesInside sampleConfig (run sampleConfig (sampleFarBuffer.take 38)) .call := by
      decide +kernel
    exact hends (hall (sampleFarBuffer.take 38) .call (sampleFarBuffer.drop 39) rfl)

end ParallelN64.Ai
