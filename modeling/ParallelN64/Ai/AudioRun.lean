import ParallelN64.Ai.Pushes
import ParallelN64.Core.Word
import ParallelN64.R4300.IndexKept

/-!
# Audio over whole runs

The transfers that have not ended are those of the two registers of the queue, and what has
been handed on of the first one is what `last_read` leaves. Every step that reads the length
onward keeps this, so that the buffers are handed on once and in order.
-/

namespace ParallelN64.Ai

open R4300

theorem take_range' (start size n : Nat) :
    (List.range' start size).take n = List.range' start (min n size) := by
  rcases Nat.le_total n size with hle | hle
  · rw [Nat.min_eq_left hle, List.take_range'_of_length_ge hle]
  · rw [Nat.min_eq_right hle, List.take_range'_of_length_le hle]

def pending (ai : AiController) : List AiDma :=
  if ai.regs .status &&& aiStatusBusy = 0#32 then []
  else if ai.regs .status &&& aiStatusFull = 0#32 then [ai.fifo0]
  else [ai.fifo0, ai.fifo1]

def handedOn (ai : AiController) : Nat :=
  if ai.regs .status &&& aiStatusBusy = 0#32 then 0
  else ai.fifo0.length.toNat - ai.lastRead.toNat

/-- The log follows the audio interface. -/
structure Follows (ai : AiController) (log : Log) : Prop where
  busy_of_full : ai.regs .status &&& aiStatusFull ≠ 0#32 → ai.regs .status &&& aiStatusBusy ≠ 0#32
  waiting : log.accepted.drop log.ended = pending ai
  aligned : ∀ dma ∈ log.accepted, 4 ∣ dma.address.toNat ∨ dma.length = 0#32
  cursor : ai.regs .status &&& aiStatusBusy ≠ 0#32 → ai.lastRead ≤ ai.fifo0.length
  delivered : log.delivery.At (handedOn ai)

namespace Follows

variable {cfg : Config} {d : Device} {ai ai' : AiController} {log : Log}

theorem congr (h : Follows ai log) (hstatus : ai'.regs .status = ai.regs .status)
    (hfifo0 : ai'.fifo0 = ai.fifo0) (hfifo1 : ai'.fifo1 = ai.fifo1)
    (hread : ai'.lastRead = ai.lastRead) : Follows ai' log := by
  rcases h with ⟨hfull, hwaiting, haligned, hcursor, hdelivered⟩
  constructor
  case busy_of_full => rwa [hstatus]
  case waiting => rwa [pending, hstatus, hfifo0, hfifo1]
  case aligned => exact haligned
  case cursor => rwa [hstatus, hfifo0, hread]
  case delivered => rwa [handedOn, hstatus, hfifo0, hread]

theorem of_reset (hstatus : ai.regs .status = 0#32) : Follows ai .empty := by
  constructor
  case busy_of_full => simp [hstatus]
  case waiting => simp [pending, hstatus, Log.empty]
  case aligned => exact fun dma hdma => absurd hdma List.not_mem_nil
  case cursor => simp [hstatus]
  case delivered =>
    rw [handedOn, hstatus, if_pos BitVec.zero_and]
    exact Core.Delivery.at_empty

theorem of_idle (hbusy : ai.regs .status &&& aiStatusBusy = 0#32)
    (hfull : ai.regs .status &&& aiStatusFull = 0#32)
    (hwaiting : log.accepted.drop log.ended = [])
    (haligned : ∀ dma ∈ log.accepted, 4 ∣ dma.address.toNat ∨ dma.length = 0#32)
    (hat : log.delivery.At 0) : Follows ai log := by
  constructor
  case busy_of_full => exact fun h => absurd hfull h
  case waiting => rw [hwaiting, pending, if_pos hbusy]
  case aligned => exact haligned
  case cursor => exact fun h => absurd hbusy h
  case delivered => rwa [handedOn, if_pos hbusy]

theorem of_started (hbusy : ai.regs .status &&& aiStatusBusy ≠ 0#32)
    (hfull : ai.regs .status &&& aiStatusFull = 0#32) (hread : ai.lastRead = ai.fifo0.length)
    (hwaiting : log.accepted.drop log.ended = [ai.fifo0])
    (haligned : ∀ dma ∈ log.accepted, 4 ∣ dma.address.toNat ∨ dma.length = 0#32)
    (hat : log.delivery.At 0) : Follows ai log := by
  constructor
  case busy_of_full => exact fun h => absurd hfull h
  case waiting => rw [hwaiting, pending, if_neg hbusy, if_pos hfull]
  case aligned => exact haligned
  case cursor => exact fun _ => hread ▸ BitVec.le_refl _
  case delivered => rwa [handedOn, if_neg hbusy, hread, Nat.sub_self]

section Busy

variable (h : Follows ai log) (hbusy : ai.regs .status &&& aiStatusBusy ≠ 0#32)

include h hbusy

theorem getElem?_ended : log.accepted[log.ended]? = some ai.fifo0 := by
  have hhead : (log.accepted.drop log.ended)[0]? = some ai.fifo0 := by
    rw [h.waiting, pending, if_neg hbusy]
    split <;> rfl
  rwa [List.getElem?_drop, Nat.add_zero] at hhead

theorem ended_lt : log.ended < log.accepted.length :=
  (List.getElem?_eq_some_iff.mp (h.getElem?_ended hbusy)).1

theorem current_eq : log.delivery.current = buffer ai.fifo0 := by
  rw [Core.Delivery.current, Log.delivery, List.getElem?_map, h.getElem?_ended hbusy]
  rfl

theorem aligned_fifo0 : 4 ∣ ai.fifo0.address.toNat ∨ ai.fifo0.length = 0#32 :=
  h.aligned _ (List.mem_of_getElem? (h.getElem?_ended hbusy))

theorem places_pushAt {size : Word} (hsize : size ≤ ai.lastRead) :
    (pushAt ai size).places =
      (log.delivery.current.drop (handedOn ai)).take size.toNat := by
  have hcursor := h.cursor hbusy
  rw [BitVec.le_def] at hcursor hsize
  have hsub : (ai.fifo0.length - ai.lastRead).toNat =
      ai.fifo0.length.toNat - ai.lastRead.toNat := BitVec.toNat_sub_of_le (h.cursor hbusy)
  have hdiv : (ai.fifo0.address / 4#32).toNat = ai.fifo0.address.toNat / 4 := BitVec.toNat_udiv
  rw [h.current_eq hbusy, handedOn, if_neg hbusy, Push.places, pushAt, buffer, hsub, hdiv,
    List.drop_range', take_range']
  rcases h.aligned_fifo0 hbusy with hword | hlength
  · have hmin : min size.toNat (ai.fifo0.length.toNat -
        (ai.fifo0.length.toNat - ai.lastRead.toNat)) = size.toNat := by omega
    rw [Nat.mul_div_cancel' hword, Nat.mul_one, hmin]
  · have hzero : ai.fifo0.length.toNat = 0 := congrArg BitVec.toNat hlength
    have hsizezero : size.toNat = 0 := by omega
    simp [hsizezero, hzero]

theorem read_onward {value : Word} (hvalue : value ≤ ai.lastRead) :
    Follows { ai with lastRead := value }
      { log with pushed := log.pushed ++
          if value < ai.lastRead then [pushAt ai (ai.lastRead - value)] else [] } := by
  have hcursor := h.cursor hbusy
  have hsub : (ai.lastRead - value).toNat = ai.lastRead.toNat - value.toNat :=
    BitVec.toNat_sub_of_le hvalue
  have hpieces : (if value < ai.lastRead then [pushAt ai (ai.lastRead - value)] else []).flatMap
      Push.places =
      (log.delivery.current.drop (handedOn ai)).take (ai.lastRead - value).toNat := by
    split
    · next hlt =>
      have hle : ai.lastRead - value ≤ ai.lastRead := by
        rw [BitVec.le_def, hsub]
        exact Nat.sub_le _ _
      rw [List.flatMap_singleton, h.places_pushAt hbusy hle]
    · next hge =>
      have heq : (ai.lastRead - value).toNat = 0 := by
        rw [BitVec.lt_def] at hge
        omega
      rw [heq]
      rfl
  rw [BitVec.le_def] at hcursor hvalue
  constructor
  case busy_of_full => exact h.busy_of_full
  case waiting => exact h.waiting
  case aligned => exact h.aligned
  case cursor => exact fun _ => BitVec.le_def.mpr (hvalue.trans hcursor)
  case delivered =>
    have hat := h.delivered.hand (ai.lastRead - value).toNat
    have hdone : handedOn ai + (ai.lastRead - value).toNat =
        handedOn { ai with lastRead := value } := by
      rw [handedOn, handedOn, if_neg hbusy, if_neg hbusy, hsub]
      dsimp only
      omega
    rw [hdone, ← hpieces] at hat
    rw [Log.delivery, List.flatMap_append]
    exact hat

end Busy

theorem read_idle (h : Follows ai log) (hidle : ai.regs .status &&& aiStatusBusy = 0#32)
    (value : Word) : Follows { ai with lastRead := value } log := by
  constructor
  case busy_of_full => exact h.busy_of_full
  case waiting => exact h.waiting
  case aligned => exact h.aligned
  case cursor => exact fun hbusy => absurd hidle hbusy
  case delivered =>
    have hat := h.delivered
    rw [handedOn, if_pos hidle] at hat ⊢
    exact hat

theorem delivered_end (h : Follows d.ai log) (hbusy : d.ai.regs .status &&& aiStatusBusy ≠ 0#32) :
    (Log.delivery { log with ended := log.ended + 1, pushed := log.pushed ++ endPush d }).At 0 := by
  have hcursor := h.cursor hbusy
  rw [BitVec.le_def] at hcursor
  have hpieces : (endPush d).flatMap Push.places =
      (log.delivery.current.drop (handedOn d.ai)).take d.ai.lastRead.toNat := by
    rw [endPush]
    split
    · rw [List.flatMap_singleton, h.places_pushAt hbusy (BitVec.le_refl _)]
    · next hzero =>
      rw [not_not.mp hzero]
      rfl
  have hlt : log.delivery.ended < log.delivery.accepted.length := by
    rw [Log.delivery, List.length_map]
    exact h.ended_lt hbusy
  have hall : log.delivery.current.length ≤ handedOn d.ai + d.ai.lastRead.toNat := by
    rw [h.current_eq hbusy, buffer, List.length_range', handedOn, if_neg hbusy]
    omega
  have hend := (h.delivered.hand d.ai.lastRead.toNat).finish hlt hall
  rw [← hpieces] at hend
  rw [Log.delivery, List.flatMap_append]
  exact hend

theorem waiting_end (h : Follows ai log) : log.accepted.drop (log.ended + 1) = (pending ai).tail := by
  rw [← h.waiting, List.tail_drop]

theorem fifoPop (h : Follows d.ai log) (hbusy : d.ai.regs .status &&& aiStatusBusy ≠ 0#32) :
    Follows (d.fifoPop cfg).ai
      { log with ended := log.ended + 1, pushed := log.pushed ++ endPush d } := by
  have hwaiting := h.waiting_end
  have hend := h.delivered_end hbusy
  rw [pending, if_neg hbusy] at hwaiting
  rw [Device.fifoPop]
  by_cases hfull : d.ai.regs .status &&& aiStatusFull = 0#32
  · rw [if_neg (not_not.mpr hfull)]
    rw [if_pos hfull] at hwaiting
    have hidle := Core.and_not_and_self (d.ai.regs .status) aiStatusBusy
    have hrest : (d.ai.regs .status &&& ~~~aiStatusBusy) &&& aiStatusFull = 0#32 :=
      (Core.and_and_of_subset (by decide)).trans hfull
    exact of_idle hidle hrest hwaiting h.aligned hend
  · rw [if_pos hfull]
    rw [if_neg hfull] at hwaiting
    have hrest := Core.and_not_and_self (d.ai.regs .status) aiStatusFull
    have hruns : (d.ai.regs .status &&& ~~~aiStatusFull) &&& aiStatusBusy ≠ 0#32 := by
      rwa [QueueShape.busy_clearFull]
    exact of_started hruns hrest rfl hwaiting h.aligned hend

theorem fifoPush (h : Follows d.ai log) (hfull : d.ai.regs .status &&& aiStatusFull = 0#32)
    {dma : AiDma} (hdma : dma = ⟨d.ai.regs .dramAddr, d.ai.regs .len, dma.duration⟩)
    (hword : 4 ∣ dma.address.toNat ∨ dma.length = 0#32) :
    Follows (d.fifoPush cfg dma.duration).ai { log with accepted := log.accepted ++ [dma] } := by
  have haligned : ∀ other ∈ log.accepted ++ [dma], 4 ∣ other.address.toNat ∨ other.length = 0#32 := by
    rw [List.forall_mem_append, List.forall_mem_singleton]
    exact ⟨h.aligned, hword⟩
  have hdrop : (log.accepted ++ [dma]).drop log.ended = log.accepted.drop log.ended ++ [dma] :=
    List.drop_append_of_le_length (by simpa [Log.delivery] using h.delivered.ended_le)
  have hmap : (log.accepted ++ [dma]).map buffer = log.accepted.map buffer ++ [buffer dma] := by
    simp
  have hwaiting := h.waiting
  rw [Device.fifoPush, ← hdma]
  by_cases hbusy : d.ai.regs .status &&& aiStatusBusy = 0#32
  · rw [if_neg (not_not.mpr hbusy)]
    rw [pending, if_pos hbusy] at hwaiting
    have hended : log.delivery.ended = log.delivery.accepted.length := by
      have hle := h.delivered.ended_le
      have hge := List.drop_eq_nil_iff.mp hwaiting
      rw [Log.delivery, List.length_map] at hle ⊢
      exact Nat.le_antisymm hle hge
    have hat : (log.delivery.accept (buffer dma)).At 0 := h.delivered.accept_of_eq hended
    have hrest : (d.ai.regs .status ||| aiStatusBusy) &&& aiStatusFull = 0#32 :=
      (Core.or_and_of_disjoint (by decide)).trans hfull
    refine of_started (QueueShape.busy_setBusy _) hrest rfl ?_ haligned ?_
    · rw [hdrop, hwaiting]
      rfl
    · rw [Log.delivery, hmap]
      exact hat
  · rw [if_pos hbusy]
    have hruns : (d.ai.regs .status ||| aiStatusFull) &&& aiStatusBusy ≠ 0#32 := by
      rwa [QueueShape.busy_setFull]
    have hset : (d.ai.regs .status ||| aiStatusFull) &&& aiStatusFull ≠ 0#32 := by
      rw [Core.or_and_self]
      decide
    have hlt : log.delivery.ended < log.delivery.accepted.length := by
      rw [Log.delivery, List.length_map]
      exact h.ended_lt hbusy
    have hat : (log.delivery.accept (buffer dma)).At (handedOn d.ai) :=
      h.delivered.accept_of_lt hlt
    rw [pending, if_neg hbusy, if_pos hfull] at hwaiting
    constructor
    case busy_of_full => exact fun _ => hruns
    case waiting =>
      rw [hdrop, hwaiting, pending]
      exact ((if_neg hruns).trans (if_neg hset)).symm
    case aligned => exact haligned
    case cursor => exact fun _ => h.cursor hbusy
    case delivered =>
      rw [handedOn, if_neg hbusy] at hat
      rw [Log.delivery, hmap, handedOn]
      exact (if_neg hruns).symm ▸ hat

end Follows

theorem toNat_and_not_seven (x : BitVec 64) : (x &&& ~~~7#64).toNat = x.toNat / 8 * 8 := by
  have hmask : (~~~7#64).toNat = (2 ^ 61 - 1) * 2 ^ 3 := rfl
  have hlt : x.toNat / 2 ^ 3 < 2 ^ 61 := by omega
  rw [BitVec.toNat_and, hmask, Core.and_ones_mul_two_pow, Nat.mod_eq_of_lt hlt]
  rfl

theorem toNat_mul_setWidth (v w : Word) :
    (v.setWidth 64 * w.setWidth 64).toNat = v.toNat * w.toNat := by
  have hlt : v.toNat * w.toNat < 2 ^ 32 * 2 ^ 32 := Nat.mul_lt_mul'' v.isLt w.isLt
  rw [BitVec.toNat_mul, BitVec.toNat_setWidth_of_le (by decide),
    BitVec.toNat_setWidth_of_le (by decide), Nat.mod_eq_of_lt (hlt.trans_eq (by decide))]

theorem toNat_bytesByTime {next count : Word} (h : count ≤ next) (dma : AiDma) :
    ((((next - count).setWidth 64 * dma.length.setWidth 64 / dma.duration.setWidth 64) &&&
      ~~~7#64).setWidth 32).toNat = bytesByTime next count dma := by
  rw [BitVec.toNat_setWidth, toNat_and_not_seven, BitVec.toNat_udiv, toNat_mul_setWidth,
    BitVec.toNat_sub_of_le h, BitVec.toNat_setWidth_of_le (by decide), bytesByTime]

theorem toNat_getRemainingDmaLength_le (cfg : Config) (d : Device) :
    (d.getRemainingDmaLength cfg).2.toNat ≤
      bytesByTime (d.interrupts.getEvent .aiInt) (d.cp0UpdateCount cfg).count d.ai.fifo0 := by
  rw [Device.getRemainingDmaLength]
  split
  · exact Nat.zero_le _
  · dsimp only
    split
    · exact Nat.zero_le _
    · next hahead =>
      have hnext : (d.cp0UpdateCount cfg).count ≤ d.interrupts.getEvent .aiInt := by
        rw [BitVec.le_def]
        exact (BitVec.not_le.mp (not_or.mp hahead).2).le
      exact (toNat_bytesByTime hnext d.ai.fifo0).le

section Calls

variable {cfg : Config} {d : Device} {log : Log}

theorem ai_clearRcpInterrupt (miIntr : Word) : (d.clearRcpInterrupt miIntr).ai = d.ai :=
  congrArg Prod.fst (kept_clearRcpInterrupt miIntr)

theorem ai_dispatch {type : EventType} (hai : type ≠ .aiInt) (hnmi : type ≠ .nmiInt) :
    (d.dispatch cfg type).1.ai = d.ai := congrArg Prod.fst (kept_dispatch hai hnmi)

theorem ai_access {access : DeviceAccess} {d' : Device} {more : List Call}
    (h : d.access cfg access = some (d', more)) (hother : isAudio access = false) :
    d'.ai = d.ai := congrArg Prod.fst (kept_access hother h)

theorem ai_call {c : Call} {d' : Device} {more : List Call} (h : d.call cfg c = some (d', more))
    (hpoll : c ≠ .poll) (hother : ∀ access, c = .access access → isAudio access = false) :
    d'.ai = d.ai := (kept_call hpoll hother h).1

theorem ai_readAiLen (cfg : Config) (d : Device) :
    (d.readAiLen cfg).ai = { d.ai with lastRead := (d.getRemainingDmaLength cfg).2 } := by
  have hai : (d.getRemainingDmaLength cfg).1.ai = d.ai := by
    rw [Device.getRemainingDmaLength]
    split
    · rfl
    · dsimp only
      split <;> rfl
  rw [Device.readAiLen, ← hai]

theorem Follows.readAiLen (h : Follows d.ai log)
    (hcond : ReadsOnward cfg d) :
    Follows (d.readAiLen cfg).ai { log with pushed := log.pushed ++ readPush cfg d } := by
  rw [ai_readAiLen]
  rw [ReadsOnward] at hcond
  by_cases hbusy : d.ai.regs .status &&& aiStatusBusy = 0#32
  · rw [if_pos hbusy] at hcond
    have hnone : readPush cfg d = [] := by
      rw [readPush, hcond]
      exact if_neg (BitVec.not_lt_zero)
    rw [hnone, List.append_nil]
    exact h.read_idle hbusy _
  · rw [if_neg hbusy] at hcond
    have hle := (toNat_getRemainingDmaLength_le cfg d).trans hcond
    exact h.read_onward hbusy (BitVec.le_def.mpr hle)

theorem regs_setAi_of_ne {reg other : AiReg} (h : other ≠ reg) (value : Word) :
    (d.setAi reg value).ai.regs other = d.ai.regs other := Function.update_of_ne h _ _

theorem regs_setAi_self (reg : AiReg) (value : Word) : (d.setAi reg value).ai.regs reg = value :=
  Function.update_self ..

theorem Follows.writeAiRegs (h : Follows d.ai log) {reg : AiReg} (hreg : reg ≠ .len)
    {value mask : Word} {d' : Device} (hwrite : d.writeAiRegs cfg reg value mask = some d') :
    Follows d'.ai log := by
  cases reg with
  | len => exact absurd rfl hreg
  | dramAddr =>
    rw [Device.writeAiRegs] at hwrite
    dsimp only at hwrite
    split at hwrite
    · obtain rfl := Option.some.inj hwrite
      exact h.congr (regs_setAi_of_ne (by decide) _) rfl rfl rfl
    · obtain rfl := Option.some.inj hwrite
      exact h.congr (regs_setAi_of_ne (by decide) _) rfl rfl rfl
  | status =>
    obtain rfl := Option.some.inj hwrite
    rwa [ai_clearRcpInterrupt]
  | control =>
    obtain rfl := Option.some.inj hwrite
    exact h.congr (regs_setAi_of_ne (by decide) _) rfl rfl rfl
  | dacRate =>
    obtain rfl := Option.some.inj hwrite
    exact h.congr (regs_setAi_of_ne (by decide) _) rfl rfl rfl
  | bitRate =>
    obtain rfl := Option.some.inj hwrite
    exact h.congr (regs_setAi_of_ne (by decide) _) rfl rfl rfl

theorem Follows.writeAiLen (h : Follows d.ai log) {value mask : Word}
    (hfull : d.ai.regs .status &&& aiStatusFull = 0#32)
    (hword : 4 ∣ (d.ai.regs .dramAddr).toNat ∨ maskedWrite (d.ai.regs .len) value mask = 0#32)
    {d' : Device} (hwrite : d.writeAiRegs cfg .len value mask = some d') :
    Follows d'.ai (log.accept cfg d value mask) := by
  rw [Device.writeAiRegs] at hwrite
  obtain ⟨duration, hduration, rfl⟩ := Option.map_eq_some_iff.mp hwrite
  rw [Log.accept, hduration]
  generalize maskedWrite (d.ai.regs .len) value mask = length at *
  have hstatus : (d.setAi .len length).ai.regs .status = d.ai.regs .status :=
    regs_setAi_of_ne (by decide) length
  have hlen : (d.setAi .len length).ai.regs .len = length := regs_setAi_self .len length
  have haddr : (d.setAi .len length).ai.regs .dramAddr = d.ai.regs .dramAddr :=
    regs_setAi_of_ne (by decide) length
  have hset : Follows (d.setAi .len length).ai log := h.congr hstatus rfl rfl rfl
  have hdma : (⟨d.ai.regs .dramAddr, length, duration⟩ : AiDma) =
      ⟨(d.setAi .len length).ai.regs .dramAddr, (d.setAi .len length).ai.regs .len, duration⟩ := by
    rw [hlen, haddr]
  rw [← hstatus] at hfull
  have hpush := @Follows.fifoPush cfg _ log hset hfull _ hdma hword
  exact hpush

theorem accept_of_none {value mask : Word} (hwrite : d.writeAiRegs cfg .len value mask = none) :
    log.accept cfg d value mask = log := by
  rw [Device.writeAiRegs] at hwrite
  rw [Log.accept, Option.map_eq_none_iff.mp hwrite]

theorem busy_of_dispatched (hshape : QueueShape d.schedule) (h : d.dispatched = some .aiInt) :
    d.ai.regs .status &&& aiStatusBusy ≠ 0#32 := by
  obtain ⟨event, rest, hfires, htype⟩ := dispatched_fires h
  refine hshape.busy (Nat.pos_of_ne_zero fun hzero => ?_)
  have hmem : event ∈ d.schedule.interrupts.q.first := hfires.first ▸ List.mem_cons_self
  exact InterruptQueue.queued_eq_zero_iff.mp hzero event hmem htype

theorem aiStatus_schedule (d : Device) : d.ai.regs .status = d.schedule.aiStatus := rfl

theorem aiStatus_resetHard : (d.resetHard cfg).ai.regs .status = 0#32 := by
  rw [aiStatus_schedule, schedule_resetHard]
  rfl

theorem aiStatus_nmiIntHandler : (d.nmiIntHandler cfg).ai.regs .status = 0#32 := by
  rw [aiStatus_schedule, schedule_nmiIntHandler]
  rfl

theorem ai_poll (hreset : (d.interruptDue && d.resets) = false) (hnone : d.dispatched = none) :
    (d.poll cfg).1.ai = d.ai := by
  rcases @poll_cases cfg d with hpoll | ⟨hdue, hresets, -⟩ | ⟨-, -, -, hpoll⟩ | ⟨type, htype, -⟩
  · rw [hpoll]
  · simp [hdue, hresets] at hreset
  · rw [hpoll]
    rfl
  · exact absurd (hnone.symm.trans htype) (Option.some_ne_none _).symm

theorem Follows.poll (h : Follows d.ai log) (hshape : QueueShape d.schedule) :
    Follows (d.poll cfg).1.ai (log.poll d) := by
  rw [Log.poll]
  cases hreset : d.interruptDue && d.resets with
  | true =>
    obtain ⟨hdue, hresets⟩ := Bool.and_eq_true_iff.mp hreset
    rw [Device.poll, if_pos hdue, Device.genInterrupt, if_pos hresets, if_pos rfl]
    have hstatus := @aiStatus_resetHard cfg d
    generalize d.resetHard cfg = d' at hstatus ⊢
    exact of_reset hstatus
  | false =>
    rw [if_neg Bool.false_ne_true]
    cases htype : d.dispatched with
    | none =>
      rw [ai_poll hreset htype]
      exact h
    | some type =>
      rw [poll_of_dispatched htype]
      cases type with
      | aiInt =>
        have hbusy := busy_of_dispatched hshape htype
        exact @Follows.fifoPop cfg d.removeInterruptEvent log h hbusy
      | nmiInt => exact of_reset aiStatus_nmiIntHandler
      | _ =>
        rw [ai_dispatch (by simp) (by simp)]
        exact h

theorem Follows.call (h : Follows d.ai log) (hshape : QueueShape d.schedule) {c : Call}
    (hread : readsLength c = true → ReadsOnward cfg d)
    (hfull : (lengthWritten d c).isSome → d.ai.regs .status &&& aiStatusFull = 0#32)
    (hword : lengthWritten d c = none ∨ lengthWritten d c = some 0#32 ∨
      4 ∣ (d.ai.regs .dramAddr).toNat)
    {d' : Device} {more : List Call} (hcall : d.call cfg c = some (d', more)) :
    Follows d'.ai (log.call cfg d c) := by
  cases c with
  | poll =>
    have hpoll := @Follows.poll cfg d log h hshape
    rwa [Option.some.inj hcall] at hpoll
  | access access =>
    have haccess : d.access cfg access = some (d', more) := hcall
    cases access with
    | readAiLen =>
      obtain ⟨rfl, -⟩ := Prod.mk.inj (Option.some.inj hcall)
      exact h.readAiLen (hread rfl)
    | writeAiRegs reg value mask =>
      obtain ⟨d'', hwrite, heq⟩ := Option.map_eq_some_iff.mp haccess
      obtain ⟨rfl, -⟩ := Prod.mk.inj heq
      by_cases hreg : reg = .len
      · subst hreg
        have hlength := hword.resolve_left (Option.some_ne_none _)
        exact h.writeAiLen (hfull rfl) (hlength.symm.imp_right Option.some.inj) hwrite
      · have hlog : log.call cfg d (.access (.writeAiRegs reg value mask)) = log := by
          cases reg with
          | len => exact absurd rfl hreg
          | _ => rfl
        rw [hlog]
        exact h.writeAiRegs hreg hwrite
    | _ =>
      rw [ai_access haccess rfl]
      exact h
  | _ =>
    rw [ai_call hcall (by simp) (by simp)]
    exact h

theorem call_of_none {c : Call} (hcall : d.call cfg c = none) : log.call cfg d c = log := by
  cases c with
  | poll => exact absurd hcall (Option.some_ne_none _)
  | access access =>
    have haccess : d.access cfg access = none := hcall
    cases access with
    | readAiLen => exact absurd hcall (Option.some_ne_none _)
    | writeAiRegs reg value mask =>
      cases reg with
      | len => exact accept_of_none (Option.map_eq_none_iff.mp haccess)
      | _ => rfl
    | _ => rfl
  | _ => rfl

end Calls

/-- The buffers are handed on once and in order, and the transfers that have not ended are those
in the queue. -/
structure PushedOnce (s : Logged) : Prop where
  inOrder : s.log.delivery.InOrder
  waiting : s.log.accepted.drop s.log.ended = pending s.machine.device.ai

theorem device_fetch {cfg : Config} {s : Interpreter} {misses : List TlbMiss}
    {instruction : Instruction} : (s.step cfg (.fetch misses instruction)).device = s.device := by
  rw [Interpreter.step]
  split
  · split <;> rfl
  · rfl
  · rfl

theorem follows_step {cfg : Config} {s : Logged} (h : Follows s.machine.device.ai s.log)
    (hshape : QueueShape s.machine.device.schedule) {a : Action}
    (hfull : WritesWhileNotFull s.machine a) (honward : HandsOnward cfg s.machine a) :
    Follows (s.step cfg a).machine.device.ai (s.step cfg a).log := by
  cases a with
  | fetch misses instruction =>
    rw [Logged.step, device_fetch]
    exact h
  | call =>
    rw [Logged.step, Interpreter.step, Log.step]
    cases htodo : s.machine.todo with
    | nil => exact h
    | cons c rest =>
      dsimp only
      cases hcall : s.machine.device.call cfg c with
      | none =>
        rw [call_of_none hcall]
        exact h
      | some result =>
        have hc : c ∈ calls s.machine .call := by
          rw [calls, htodo]
          exact rfl
        exact @Follows.call cfg _ _ h hshape c (honward c hc).1 (hfull c hc) (honward c hc).2
          result.1 result.2 hcall
  | resetSoft => exact h
  | requestResetHard => exact h
  | drive transfer => exact h

/-- Where software writes the length only while the queue is not full, every buffer is handed on
once and in order all along a run whose reads of the length go onward. -/
theorem run_pushes_once (cfg : Config) (actions : List Action)
    (hfull : ∀ first a rest, actions = first ++ a :: rest → WritesWhileNotFull (run cfg first) a)
    (honward : ∀ first a rest, actions = first ++ a :: rest → HandsOnward cfg (run cfg first) a)
    (first rest : List Action) (hactions : actions = first ++ rest) :
    PushedOnce (loggedRun cfg first) := by
  have hinit : QueueShape (poweredOn cfg).device.schedule ∧
      Follows (poweredOn cfg).device.ai .empty :=
    ⟨schedule_poweredOn ▸ QueueShape.poweredOn, Follows.of_reset rfl⟩
  have hkept := Core.foldl_prefix_invariant (s := ⟨poweredOn cfg, .empty⟩)
    (fun s : Logged => QueueShape s.machine.device.schedule ∧ Follows s.machine.device.ai s.log)
    (fun s a => WritesWhileNotFull s.machine a ∧ HandsOnward cfg s.machine a) hinit
    (fun s a _ hs hcond => ⟨hs.1.step a, follows_step hs.2 hs.1 hcond.1 hcond.2⟩)
    (fun first a rest h => ?_) hactions
  · exact ⟨hkept.2.delivered.inOrder, hkept.2.waiting⟩
  · have hrun := machine_loggedRun cfg first
    rw [loggedRun] at hrun
    rw [hrun]
    exact ⟨hfull first a rest h, honward first a rest h⟩

def sampleAccess (access : DeviceAccess) : List Action :=
  .fetch [] ⟨false, .memory [.device access]⟩ :: List.replicate 3 .call

def sampleBranch : List Action :=
  .fetch [] ⟨false, .jump ⟨0#32, false, true⟩⟩ :: List.replicate 6 .call

def sampleStart : List Action :=
  sampleAccess (.writeAiRegs .dacRate 1000#32 0xFFFFFFFF#32) ++
    sampleAccess (.writeAiRegs .dramAddr 0x1000#32 0xFFFFFFFF#32) ++
    sampleAccess (.writeAiRegs .len 16#32 0xFFFFFFFF#32)

def sampleWait : List Action := (List.replicate 4 sampleBranch).flatten

def samplePoll : List Action :=
  sampleStart ++ sampleBranch ++ sampleAccess .readAiLen ++ sampleWait

def sampleLatePoll : List Action := sampleStart ++ sampleWait ++ sampleAccess .readAiLen

/-- A buffer of which a read hands on one half and the end the other. -/
theorem samplePoll_pushes_once : PushedOnce (loggedRun sampleConfig samplePoll) := by
  have hfull : Core.AllAlong (Interpreter.step sampleConfig) WritesWhileNotFull
      (poweredOn sampleConfig) samplePoll := by decide +kernel
  have honward : Core.AllAlong (Interpreter.step sampleConfig) (HandsOnward sampleConfig)
      (poweredOn sampleConfig) samplePoll := by decide +kernel
  exact run_pushes_once sampleConfig samplePoll (fun _ _ _ h => hfull.at h)
    (fun _ _ _ h => honward.at h) samplePoll [] (List.append_nil _).symm

/-- A read of the length after the end hands the whole buffer on once more. -/
theorem sampleLatePoll_repeats :
    (∀ first a rest, sampleLatePoll = first ++ a :: rest →
        WritesWhileNotFull (run sampleConfig first) a) ∧
      ¬ (loggedRun sampleConfig sampleLatePoll).log.delivery.InOrder := by
  have hfull : Core.AllAlong (Interpreter.step sampleConfig) WritesWhileNotFull
      (poweredOn sampleConfig) sampleLatePoll := by decide +kernel
  refine ⟨fun _ _ _ h => hfull.at h, ?_⟩
  rintro ⟨done, hhanded⟩
  have hsize : (loggedRun sampleConfig sampleLatePoll).log.delivery.handed.length = 32 := by
    decide +kernel
  have hended : ((loggedRun sampleConfig sampleLatePoll).log.delivery.accepted.take
      (loggedRun sampleConfig sampleLatePoll).log.delivery.ended).flatten.length = 16 := by
    decide +kernel
  have hcurrent : (loggedRun sampleConfig sampleLatePoll).log.delivery.current = [] := by
    decide +kernel
  rw [hcurrent, List.take_nil, List.append_nil] at hhanded
  rw [hhanded, hended] at hsize
  exact absurd hsize (by decide)

end ParallelN64.Ai
