import ParallelN64.Dd.Accesses

/-!
# Blocks are stored and read back

A transfer in write mode stores the first 84 buffers that the host delivers in the sectors
of its block, and changes nothing that is further away from the block than a sector; the
buffer manager goes on with the other block when that was requested. A transfer in read
mode delivers the 85 sectors of a block in order. Only the first block of track 6 cannot be
read.
-/

namespace ParallelN64.Dd

open ParallelN64.Core R4300 ParallelN64.Pi

variable {cfg : PiConfig} {m : PiMachine} {block : Fin 2}

def started (cfg : PiConfig) (m : PiMachine) (value : Word) (clock : Clock) : PiMachine :=
  ddStep cfg m (.writeDdRegs .bmStatusCtl value clock)

/-- A value that starts the buffer manager at sector 0 of a block of the track that was
sought. -/
structure BlockStart (cfg : PiConfig) (m : PiMachine) (value : Word) (read : Bool)
    (block : Fin 2) : Prop where
  drive : cfg.dd = true
  sought : Sought m.dd read
  track : curTrack m.dd ≤ 0x496
  start : value &&& 0x80000000#32 ≠ 0#32
  sector : value &&& 0x00FF0000#32 = BitVec.ofNat 32 (0x5A * block.val) <<< 16
  noReset : value &&& 0x10000000#32 = 0#32
  notHeld : m.dd.bmResetHold = false

def requested (m : PiMachine) (value : Word) : Bool :=
  value &&& 0x02000000#32 ≠ 0#32 || hasBits m.dd .bmStatusCtl 0x01000000#32

variable {value : Word} {read : Bool}

theorem and_upper {mask : Word} (h : 0xFFFF0000#32 &&& mask = mask) :
    value &&& 0xFFFF0000#32 &&& mask = value &&& mask := by
  rw [BitVec.and_assoc, h]

/-- What a write of the buffer manager's register leaves behind, when it is no reset. -/
structure Prepared (dd dd' : DdController) (value : Word) : Prop where
  mode : dd'.bmModeRead = dd.bmModeRead
  curSector : dd'.regs .curSector = value &&& 0x00FF0000#32
  track : SameTrack dd dd'
  bmStatusCtl : dd'.regs .bmStatusCtl =
    if value &&& 0x02000000#32 ≠ 0#32 then dd.regs .bmStatusCtl ||| 0x01000000#32
    else dd.regs .bmStatusCtl

theorem prepared_writeBmStatusCtl (dd : DdController) (hreset : value &&& 0x10000000#32 = 0#32)
    (hhold : dd.bmResetHold = false) : Prepared dd (writeBmStatusCtl dd value) value := by
  rw [writeBmStatusCtl]
  dsimp only
  rw [if_neg (not_not_intro hreset)]
  have hkept : ∀ dd' : DdController, dd'.bmResetHold = false →
      ¬ (value &&& 0x10000000#32 = 0#32 ∧ dd'.bmResetHold = true) := by
    intro dd' h hall
    rw [h] at hall
    exact Bool.noConfusion hall.2
  by_cases hmecha : value &&& 0x01000000#32 ≠ 0#32
  · rw [if_pos hmecha]
    by_cases hblock : value &&& 0x02000000#32 ≠ 0#32
    · rw [if_pos hblock, if_neg]
      · exact ⟨rfl, rfl, ⟨rfl, rfl, rfl, rfl⟩, (if_pos hblock).symm⟩
      · exact hkept _ hhold
    · rw [if_neg hblock, if_neg]
      · exact ⟨rfl, rfl, ⟨rfl, rfl, rfl, rfl⟩, (if_neg hblock).symm⟩
      · exact hkept _ hhold
  · rw [if_neg hmecha]
    by_cases hblock : value &&& 0x02000000#32 ≠ 0#32
    · rw [if_pos hblock, if_neg]
      · exact ⟨rfl, rfl, ⟨rfl, rfl, rfl, rfl⟩, (if_pos hblock).symm⟩
      · exact hkept _ hhold
    · rw [if_neg hblock, if_neg]
      · exact ⟨rfl, rfl, ⟨rfl, rfl, rfl, rfl⟩, (if_neg hblock).symm⟩
      · exact hkept _ hhold

theorem requested_of_prepared {dd' : DdController}
    (h : Prepared m.dd dd' (value &&& 0xFFFF0000#32)) :
    hasBits (setBits dd' .bmStatusCtl 0x80000000#32) .bmStatusCtl 0x01000000#32 =
      requested m value := by
  have hmask : value &&& 0xFFFF0000#32 &&& 0x02000000#32 = value &&& 0x02000000#32 :=
    and_upper (by decide)
  have hctl := h.bmStatusCtl
  have hkeep : (dd'.regs .bmStatusCtl ||| 0x80000000#32) &&& 0x01000000#32 =
      dd'.regs .bmStatusCtl &&& 0x01000000#32 := or_and_of_disjoint (by decide)
  have hbits : hasBits (setBits dd' .bmStatusCtl 0x80000000#32) .bmStatusCtl 0x01000000#32 =
      decide (dd'.regs .bmStatusCtl &&& 0x01000000#32 ≠ 0#32) :=
    congrArg (fun word : Word => decide (word ≠ 0#32)) hkeep
  rw [hbits, requested, hctl, hmask]
  by_cases hrequest : value &&& 0x02000000#32 ≠ 0#32
  · rw [if_pos hrequest, or_and_self, decide_eq_true hrequest]
    rfl
  · rw [if_neg hrequest, decide_eq_false hrequest]
    rfl

theorem started_eq (h : BlockStart cfg m value read block) (clock : Clock) :
    ∃ dd, started cfg m value clock = (ddUpdateBm (withDrive m dd)).1 ∧
      Running dd read block 0 ∧ SameTrack m.dd dd ∧
      hasBits dd .bmStatusCtl 0x01000000#32 = requested m value := by
  let value' := value &&& 0xFFFF0000#32
  have hmask : ∀ mask : Word, 0xFFFF0000#32 &&& mask = mask → value' &&& mask = value &&& mask :=
    fun mask hmask => and_upper hmask
  have hreset : value' &&& 0x10000000#32 = 0#32 := (hmask _ (by decide)).trans h.noReset
  have hstart : value' &&& 0x80000000#32 ≠ 0#32 := by
    rw [hmask _ (by decide)]
    exact h.start
  have hprepared := prepared_writeBmStatusCtl m.dd hreset h.notHeld
  refine ⟨setBits (writeBmStatusCtl m.dd value') .bmStatusCtl 0x80000000#32, ?_, ?_, ?_, ?_⟩
  · rw [started, ddStep, writeDdRegs]
    dsimp only
    rw [h.drive, if_neg (by decide), if_pos hstart]
  · refine ⟨?_, hprepared.mode.trans h.sought.mode, ?_⟩
    · exact decide_eq_true fun hzero => absurd ((or_and_self _ _).symm.trans hzero) (by decide)
    · rw [Nat.zero_add, ← h.sector, ← hmask _ (by decide)]
      exact hprepared.curSector
  · exact hprepared.track.trans ⟨rfl, rfl, rfl, rfl⟩
  · exact requested_of_prepared hprepared

theorem bytes_writeSector_first {dd : DdController} (b : Buffers Region) (hinside : TrackInside dd)
    (hfits : secByte dd < secSize dd) (hcur : sectorOf (dd.regs .curSector) = 0#32) {a : Nat}
    (ha : a < diskSize)
    (hfar : a + secSize dd < sectorStart dd dd.curBlock 0 ∨ sectorStart dd dd.curBlock 0 ≤ a) :
    (b.moves (writeSectorMoves dd)).bytes ⟨.disk, a⟩ = b.bytes ⟨.disk, a⟩ := by
  apply Buffers.bytes_loop_of_ne
  intro i hi heq
  have hindex := congrArg Place.index (Option.some.inj heq)
  dsimp only at hindex
  rw [hcur] at hindex
  have hsize := secSize_le dd
  have hdisk : diskSize + 232 < 2 ^ 32 := by decide
  have hsum : sectorOffset dd (0#32 - 1#32) + BitVec.ofNat 32 i +
      BitVec.ofNat 32 (secSize dd - i) = sectorOffset dd (BitVec.ofNat 32 0) := by
    have hrest : BitVec.ofNat 32 i + BitVec.ofNat 32 (secSize dd - i) =
        BitVec.ofNat 32 (secSize dd) := by
      rw [← BitVec.ofNat_add, Nat.add_sub_cancel' (by omega)]
    have hneg : ∀ x : Word, (0#32 - 1#32) * x + x = 0#32 * x := by
      intro x
      rw [BitVec.zero_sub, BitVec.neg_mul, BitVec.one_mul, BitVec.add_left_neg, BitVec.zero_mul]
    rw [BitVec.add_assoc, hrest, sectorOffset, sectorOffset, secSize, BitVec.add_assoc, hneg]
  have hstart := congrArg BitVec.toNat hsum
  rw [toNat_sectorOffset hinside (Nat.zero_le 85), toNat_add_of_lt (by omega), hindex] at hstart
  omega

theorem started_write (h : BlockStart cfg m value false block) (clock : Clock) :
    Running (started cfg m value clock).dd false block 1 ∧
      SameTrack m.dd (started cfg m value clock).dd ∧
      hasBits (started cfg m value clock).dd .bmStatusCtl 0x01000000#32 = requested m value ∧
      (secByte m.dd < secSize m.dd → ∀ a < diskSize,
        a + secSize m.dd < sectorStart m.dd block 0 ∨ sectorStart m.dd block 0 ≤ a →
          diskByte (started cfg m value clock) a = diskByte m a) := by
  obtain ⟨dd, heq, hrun, htrack, hrequest⟩ := started_eq h clock
  obtain ⟨dd', heq', hrun', htrack', hctl⟩ :=
    ddUpdateBm_write (m := withDrive m dd) hrun (by decide)
  rw [heq, heq']
  refine ⟨hrun', htrack.trans htrack', ?_, ?_⟩
  · rw [← hrequest, hasBits, hasBits]
    exact congrArg (fun word : Word => decide (word &&& 0x01000000#32 ≠ 0#32)) hctl
  · intro hfits a ha hfar
    have hinside := htrack.trackInside (trackInside_of_sought h.sought h.track)
    have hcur : sectorOf (dd.regs .curSector) = 0#32 := by
      rw [hrun.curSector, sectorOf_shift block (by decide)]
    rw [← htrack.secByte, ← htrack.secSize] at hfits
    rw [← htrack.secSize, ← htrack.sectorStart] at hfar
    have hblock : TrackInside ({ dd with curBlock := block } : DdController) := hinside
    exact bytes_writeSector_first m.buffers hblock hfits hcur ha hfar

theorem started_read (h : BlockStart cfg m value true block) (hreadable : Readable m.dd block)
    (clock : Clock) :
    Running (started cfg m value clock).dd true block 1 ∧
      SameTrack m.dd (started cfg m value clock).dd ∧
      (∀ a, diskByte (started cfg m value clock) a = diskByte m a) ∧
      (∀ i ≤ secByte m.dd, secBufByte (started cfg m value clock) i =
        diskByte m (sectorStart m.dd block 0 + i)) ∧
      (secByte m.dd < secSize m.dd → StaysInside cfg m (started cfg m value clock)) := by
  obtain ⟨dd, heq, hrun, htrack, -⟩ := started_eq h clock
  have hinside := htrack.trackInside (trackInside_of_sought h.sought h.track)
  obtain ⟨hrun', htrack', hdisk, hbytes⟩ :=
    ddUpdateBm_loads (m := withDrive m dd) hrun (by decide) hinside (htrack.readable hreadable)
  rw [heq]
  refine ⟨hrun', htrack.trans htrack', hdisk, ?_, ?_⟩
  · intro i hi
    rw [hbytes i (htrack.secByte.symm ▸ hi)]
    exact congrArg (fun start => diskByte m (start + i)) (htrack.sectorStart block 0)
  · intro hfits
    rw [← htrack.secByte, ← htrack.secSize] at hfits
    exact staysInside_ddUpdateBm (m := withDrive m dd) hrun (by decide)
      (fun hread => Bool.noConfusion hread) hinside hfits

/-- What a transfer in write mode does, when the host answers 85 requests. -/
structure StoresBlock (cfg : PiConfig) (m : PiMachine) (value : Word) (clock : Clock)
    (block : Fin 2) (l : List (List DdAction)) : Prop where
  stored : ∀ n ≤ 85, (n = 85 → requested m value = true → secByte m.dd < secSize m.dd) →
    ∀ k < n, k < 84 → ∀ i < secSize m.dd, i ≤ secByte m.dd →
      diskByte (answers cfg (started cfg m value clock) (l.take n))
          (sectorStart m.dd block k + i) =
        secBufByte (beforeEnd cfg (started cfg m value clock) l k) i
  outside : secByte m.dd < secSize m.dd → ∀ n ≤ 85, ∀ a < diskSize,
    a + secSize m.dd < sectorStart m.dd block 0 ∨ sectorStart m.dd block 85 ≤ a →
    ¬ (n = 85 ∧ requested m value = true ∧ sectorStart m.dd (1 - block) 84 ≤ a ∧
      a < sectorStart m.dd (1 - block) 85) →
      diskByte (answers cfg (started cfg m value clock) (l.take n)) a = diskByte m a
  stops : requested m value = false →
    hasBits (answers cfg (started cfg m value clock) l).dd .bmStatusCtl 0x80000000#32 = false
  follows : requested m value = true →
    Running (answers cfg (started cfg m value clock) l).dd false (1 - block) 1 ∧
      hasBits (answers cfg (started cfg m value clock) l).dd .bmStatusCtl 0x01000000#32 = false ∧
      ∀ l' : List (List DdAction),
        Answered cfg Quiet (answers cfg (started cfg m value clock) l) l' →
        ∀ n ≤ 84, n ≤ l'.length → ∀ k < n, ∀ i < secSize m.dd, i ≤ secByte m.dd →
          diskByte (answers cfg (answers cfg (started cfg m value clock) l) (l'.take n))
              (sectorStart m.dd (1 - block) k + i) =
            secBufByte (beforeEnd cfg (answers cfg (started cfg m value clock) l) l' k) i
  inside : secByte m.dd < secSize m.dd → ∀ k < 85,
    StaysInside cfg (beforeEnd cfg (started cfg m value clock) l k)
      (answers cfg (started cfg m value clock) (l.take (k + 1)))

/-- What a transfer in read mode does. -/
structure LoadsBlock (cfg : PiConfig) (m : PiMachine) (value : Word) (clock : Clock)
    (block : Fin 2) (l : List (List DdAction)) : Prop where
  loaded : ∀ k < 85, ∀ steps, steps <+: l.getD k [] → ∀ i ≤ secByte m.dd,
    secBufByte (ddRun cfg (answers cfg (started cfg m value clock) (l.take k)) steps) i =
      diskByte m (sectorStart m.dd block k + i)
  image : ∀ n ≤ 84, ∀ a,
    diskByte (answers cfg (started cfg m value clock) (l.take n)) a = diskByte m a
  inside : secByte m.dd < secSize m.dd →
    StaysInside cfg m (started cfg m value clock) ∧
      ∀ k < 85, StaysInside cfg (beforeEnd cfg (started cfg m value clock) l k)
        (answers cfg (started cfg m value clock) (l.take (k + 1)))

variable {l : List (List DdAction)}

theorem staysInside_answer {k : Nat}
    (h : Running (answers cfg m (l.take k)).dd read block (k + 1))
    (htrack : SameTrack m.dd (answers cfg m (l.take k)).dd) (hinside : TrackInside m.dd)
    (hfits : secByte m.dd < secSize m.dd) (hk : k < 85) (hlength : k < l.length)
    (hquiet : ∀ a ∈ l.getD k [], Quiet a)
    (hcart : (beforeEnd cfg m l k).device.pi .cartAddr = 0x05000400#32) :
    StaysInside cfg (beforeEnd cfg m l k) (answers cfg m (l.take (k + 1))) := by
  have hkeeps : KeepsTransfer (answers cfg m (l.take k)) (beforeEnd cfg m l k) :=
    keepsTransfer_ddRun h (by omega) hquiet
  have htrack' := htrack.trans hkeeps.track
  rw [← htrack'.secByte, ← htrack'.secSize] at hfits
  rw [answers_take_succ hlength]
  exact staysInside_endOfDma (hkeeps.running h) (by omega) (fun _ => Nat.succ_pos k)
    (htrack'.trackInside hinside) hfits hcart

theorem lastSector_disjoint (dd : DdController) (block : Fin 2) {k : Nat} (hk : k < 84) :
    sectorStart dd (1 - block) 85 ≤ sectorStart dd block k ∨
      sectorStart dd block k + secSize dd ≤ sectorStart dd (1 - block) 84 := by
  rw [← sectorStart_succ]
  match block with
  | 0 => exact .inr (Nat.add_le_add_left (Nat.mul_le_mul_right _ (by
      show 0 * sectorsPerBlock + (k + 1) ≤ 1 * sectorsPerBlock + 84
      omega)) _)
  | 1 => exact .inl (Nat.add_le_add_left (Nat.mul_le_mul_right _ (by
      show 0 * sectorsPerBlock + 85 ≤ 1 * sectorsPerBlock + k
      rw [sectorsPerBlock]
      omega)) _)

theorem diskByte_answer_last (h : Running m.dd false block 85) (hinside : TrackInside m.dd)
    {steps : List DdAction} (hquiet : ∀ a ∈ steps, Quiet a)
    (hcart : (ddRun cfg m steps).device.pi .cartAddr = 0x05000400#32) {a : Nat}
    (hkept : hasBits m.dd .bmStatusCtl 0x01000000#32 = true →
      ¬ (sectorStart m.dd (1 - block) 84 ≤ a ∧
        a ≤ sectorStart m.dd (1 - block) 84 + secByte m.dd)) :
    diskByte (answer cfg m steps) a = diskByte m a := by
  have hkeeps : KeepsTransfer m (ddRun cfg m steps) :=
    keepsTransfer_ddRun h (Nat.le_refl 85) hquiet
  cases hrequest : hasBits m.dd .bmStatusCtl 0x01000000#32 with
  | true =>
    obtain ⟨-, -, -, hstored⟩ := answer_toggle h hinside hrequest hquiet hcart
    rw [hstored a, if_neg (hkept hrequest)]
    exact hkeeps.disk a
  | false =>
    obtain ⟨-, -, hbuffers⟩ := answer_stop h hrequest hquiet hcart
    rw [diskByte, hbuffers]
    exact hkeeps.disk a

/-- A transfer in write mode stores its block. -/
theorem storesBlock (h : BlockStart cfg m value false block) (clock : Clock)
    (hlength : l.length = 85) (hanswered : Answered cfg Quiet (started cfg m value clock) l) :
    StoresBlock cfg m value clock block l := by
  obtain ⟨hrun, htrack, hrequest, hfirst⟩ := started_write h clock
  have hinside := htrack.trackInside (trackInside_of_sought h.sought h.track)
  have hwritten : ∀ n ≤ 84, Written cfg (started cfg m value clock) block l n :=
    fun n hn => written hrun hinside hanswered hn (by omega)
  have hlast := hwritten 84 (Nat.le_refl 84)
  have htrack' := htrack.trans hlast.track
  obtain ⟨hquiet, hcart⟩ := hanswered 84 (by omega)
  have hall : l.take 85 = l := List.take_of_length_le (by omega)
  have hanswer : answers cfg (started cfg m value clock) l =
      answer cfg (answers cfg (started cfg m value clock) (l.take 84)) (l.getD 84 []) := by
    rw [← answers_take_succ (by omega), hall]
  have hrequest' : hasBits (answers cfg (started cfg m value clock) (l.take 84)).dd .bmStatusCtl
      0x01000000#32 = requested m value := by
    rw [← hrequest, hasBits, hasBits, hlast.bmStatusCtl]
  have hdisk : ∀ a, (requested m value = true → ¬ (sectorStart m.dd (1 - block) 84 ≤ a ∧
      a ≤ sectorStart m.dd (1 - block) 84 + secByte m.dd)) →
      diskByte (answers cfg (started cfg m value clock) l) a =
        diskByte (answers cfg (started cfg m value clock) (l.take 84)) a := by
    intro a hkept
    rw [hanswer]
    apply diskByte_answer_last hlast.running (hlast.track.trackInside hinside) hquiet hcart
    rw [hrequest', htrack'.sectorStart, htrack'.secByte]
    exact hkept
  have hstored : ∀ n ≤ 84, ∀ k < n, ∀ i < secSize m.dd, i ≤ secByte m.dd →
      diskByte (answers cfg (started cfg m value clock) (l.take n))
          (sectorStart m.dd block k + i) =
        secBufByte (beforeEnd cfg (started cfg m value clock) l k) i := by
    intro n hn k hk i hi hle
    rw [← htrack.sectorStart]
    exact (hwritten n hn).stored k hk i (by rwa [htrack.secSize]) (by rwa [htrack.secByte])
  refine ⟨?_, ?_, ?_, ?_, ?_⟩
  · intro n hn hfits k hk hk' i hi hle
    rcases Nat.lt_succ_iff_lt_or_eq.mp (Nat.lt_succ_of_le hn) with hlt | rfl
    · exact hstored n (by omega) k hk i hi hle
    · rw [hall, hdisk]
      · exact hstored 84 (Nat.le_refl 84) k hk' i hi hle
      · intro hreq hin
        have hfit := hfits rfl hreq
        have hend : sectorStart m.dd (1 - block) 85 =
            sectorStart m.dd (1 - block) 84 + secSize m.dd := sectorStart_succ ..
        rcases lastSector_disjoint m.dd block hk' with hbefore | hbehind
        · omega
        · omega
  · intro hfits n hn a ha hout hother
    have hstart : ∀ n ≤ 84, diskByte (answers cfg (started cfg m value clock) (l.take n)) a =
        diskByte m a := by
      intro n hn
      have hle : sectorStart m.dd block n ≤ sectorStart m.dd block 85 :=
        sectorStart_le (by omega)
      have hle' : sectorStart m.dd block 0 ≤ sectorStart m.dd block 85 :=
        sectorStart_le (by omega)
      refine ((hwritten n hn).outside ?_ a ?_).trans (hfirst hfits a ha ?_)
      · rwa [htrack.secByte, htrack.secSize]
      · rw [htrack.sectorStart, htrack.sectorStart]
        omega
      · omega
    rcases Nat.lt_succ_iff_lt_or_eq.mp (Nat.lt_succ_of_le hn) with hlt | rfl
    · exact hstart n (by omega)
    · rw [hall, hdisk]
      · exact hstart 84 (Nat.le_refl 84)
      · intro hreq hin
        have hend : sectorStart m.dd (1 - block) 85 =
            sectorStart m.dd (1 - block) 84 + secSize m.dd := sectorStart_succ ..
        exact hother ⟨rfl, hreq, hin.1, by omega⟩
  · intro hreq
    rw [hanswer]
    exact (answer_stop hlast.running (hrequest'.trans hreq) hquiet hcart).1
  · intro hreq
    obtain ⟨hrun', htoggled, hclear, -⟩ := answer_toggle hlast.running
      (hlast.track.trackInside hinside) (hrequest'.trans hreq) hquiet hcart
    have hsame := htrack'.trans htoggled
    rw [← hanswer] at hrun' hclear hsame
    refine ⟨hrun', hclear, ?_⟩
    intro l' hanswered' n hn hlength' k hk i hi hle
    have hsecond := written hrun'
      (hsame.trackInside (trackInside_of_sought h.sought h.track)) hanswered' hn hlength'
    rw [← hsame.sectorStart]
    exact hsecond.stored k hk i (by rwa [hsame.secSize]) (by rwa [hsame.secByte])
  · intro hfits k hk
    obtain ⟨hquiet', hcart'⟩ := hanswered k (by omega)
    have hat := hwritten k (by omega)
    rw [← htrack.secByte, ← htrack.secSize] at hfits
    exact staysInside_answer hat.running hat.track hinside hfits hk (by omega) hquiet' hcart'

theorem loadsBlock (h : BlockStart cfg m value true block) (hreadable : Readable m.dd block)
    (clock : Clock) (hlength : 85 ≤ l.length)
    (hanswered : Answered cfg Receives (started cfg m value clock) l) :
    LoadsBlock cfg m value clock block l := by
  obtain ⟨hrun, htrack, hdisk, hfirst, hstart⟩ := started_read h hreadable clock
  have hinside := htrack.trackInside (trackInside_of_sought h.sought h.track)
  have hsector : ∀ i ≤ secByte (started cfg m value clock).dd,
      secBufByte (started cfg m value clock) i = diskByte (started cfg m value clock)
        (sectorStart (started cfg m value clock).dd block 0 + i) := by
    intro i hi
    rw [hdisk, htrack.sectorStart]
    exact hfirst i (by rwa [← htrack.secByte])
  have hloaded : ∀ n ≤ 84, Loaded cfg (started cfg m value clock) block l n := fun n hn =>
    loaded hrun hinside (htrack.readable hreadable) hsector hanswered hn (by omega)
  refine ⟨?_, ?_, ?_⟩
  · intro k hk steps hsteps i hi
    obtain ⟨hreceives, -⟩ := hanswered k (by omega)
    have hat := hloaded k (by omega)
    rw [secBufByte_ddRun hat.running (by omega) fun a ha => hreceives a (hsteps.subset ha),
      hat.loaded i (by rwa [htrack.secByte]), hdisk, htrack.sectorStart]
  · intro n hn a
    exact ((hloaded n hn).disk a).trans (hdisk a)
  · intro hfits
    refine ⟨hstart hfits, fun k hk => ?_⟩
    obtain ⟨hreceives, hcart⟩ := hanswered k (by omega)
    have hat := hloaded k (by omega)
    rw [← htrack.secByte, ← htrack.secSize] at hfits
    exact staysInside_answer hat.running hat.track hinside hfits hk (by omega)
      (fun a ha => (hreceives a ha).quiet) hcart

/-- A block that is stored in write mode is read back in read mode, unless it is the first
block of track 6; transfers with the sector buffer stay inside. -/
theorem stored_block_is_read_back (cfg : PiConfig) (m : PiMachine) (block : Fin 2) (value : Word)
    (clock : Clock) (l : List (List DdAction)) (h : BlockStart cfg m value false block)
    (hlength : l.length = 85) (hanswered : Answered cfg Quiet (started cfg m value clock) l) :
    StoresBlock cfg m value clock block l ∧
      (∀ (r : PiMachine) (value' : Word) (clock' : Clock) (l' : List (List DdAction)),
        BlockStart cfg r value' true block → Readable r.dd block → SameTrack m.dd r.dd →
        (∀ a, sectorStart m.dd block 0 ≤ a → a < sectorStart m.dd block 84 →
          diskByte r a = diskByte (answers cfg (started cfg m value clock) (l.take 84)) a) →
        85 ≤ l'.length → Answered cfg Receives (started cfg r value' clock') l' →
        LoadsBlock cfg r value' clock' block l' ∧
          (∀ k < 84, ∀ steps, steps <+: l'.getD k [] → ∀ i < secSize m.dd, i ≤ secByte m.dd →
            secBufByte (ddRun cfg (answers cfg (started cfg r value' clock') (l'.take k)) steps) i =
              secBufByte (beforeEnd cfg (started cfg m value clock) l k) i)) ∧
      ∀ (w : PiMachine) (reg : PiReg) (value mask : Word), reg = .rdLen ∨ reg = .wrLen →
        w.device.pi .cartAddr = 0x05000400#32 → (w.device.pi .dramAddr).toNat < rdramSize →
          UsesSecBuf cfg w (w.writePiRegs cfg reg value mask).1 := by
  have hstores := storesBlock h clock hlength hanswered
  refine ⟨hstores, ?_, fun w reg value mask hreg hcart hdram =>
    usesSecBuf_writePiRegs hreg hcart hdram value mask⟩
  intro r value' clock' l' hread hreadable hsame hdisk hlength' hanswered'
  have hloads := loadsBlock hread hreadable clock' hlength' hanswered'
  refine ⟨hloads, ?_⟩
  intro k hk steps hsteps i hi hle
  have hstart : sectorStart m.dd block 0 ≤ sectorStart m.dd block k := sectorStart_le (Nat.zero_le k)
  have hend : sectorStart m.dd block k + secSize m.dd ≤ sectorStart m.dd block 84 :=
    sectorStart_add_le hk
  rw [hloads.loaded k (by omega) steps hsteps i (by rwa [hsame.secByte]), hsame.sectorStart,
    hdisk _ (by omega) (by omega)]
  exact hstores.stored 84 (by omega) (by omega) k hk hk i hi hle

def sampleClock : Clock := ⟨99, 11, 1, 0, 0, 0⟩

def sampleSetup (location command : Word) : PiMachine :=
  ddRun samplePiConfig blankMachine
    [.pi (.writePiRegs .cartAddr 0x05000400#32 0xFFFFFFFF#32),
      .writeDdRegs .data location sampleClock, .writeDdRegs .cmdStatus command sampleClock,
      .writeDdRegs .hostSecbyte 0x00E70000#32 sampleClock]

def sampleAnswers : List (List DdAction) := List.replicate 85 []

theorem cartAddr_ddUpdateBm (m : PiMachine) :
    (ddUpdateBm m).1.device.pi .cartAddr = m.device.pi .cartAddr := by
  rw [ddUpdateBm]
  split_ifs <;> rfl

theorem answered_replicate {kind : DdAction → Prop} (hcart : m.device.pi .cartAddr = 0x05000400#32)
    (n : Nat) : Answered cfg kind m (List.replicate n []) := by
  have hkeeps : ∀ k ≤ n, (answers cfg m ((List.replicate n []).take k)).device.pi .cartAddr =
      0x05000400#32 := by
    intro k hk
    induction k with
    | zero => exact hcart
    | succ k ih =>
      have hk' : k < (List.replicate n ([] : List DdAction)).length := by
        rw [List.length_replicate]
        omega
      have hsteps : (List.replicate n ([] : List DdAction)).getD k [] = [] := by
        rw [List.getD_eq_getElem _ _ hk', List.getElem_replicate]
      rw [answers_take_succ hk', hsteps, answer]
      have hbefore := ih (by omega)
      rw [ddRun, List.foldl_nil, ddStep_endOfDma hbefore, cartAddr_ddUpdateBm]
      exact hbefore
  intro k hk
  have hsteps : (List.replicate n ([] : List DdAction)).getD k [] = [] := by
    rw [List.getD_eq_getElem _ _ hk, List.getElem_replicate]
  rw [List.length_replicate] at hk
  refine ⟨fun a ha => absurd (hsteps ▸ ha) List.not_mem_nil, ?_⟩
  rw [beforeEnd, hsteps]
  exact hkeeps k (Nat.le_of_lt hk)

theorem blockStart_sampleSetup :
    BlockStart samplePiConfig (sampleSetup 0x00010000#32 0x00020000#32) 0x80000000#32 false 0 :=
  ⟨rfl, ⟨rfl, rfl⟩, by decide, by decide, by decide, by decide, rfl⟩

theorem cartAddr_started (h : BlockStart cfg m value read block) (clock : Clock) :
    (started cfg m value clock).device.pi .cartAddr = m.device.pi .cartAddr := by
  obtain ⟨dd, heq, -⟩ := started_eq h clock
  rw [heq, cartAddr_ddUpdateBm]
  rfl

def sampleReader (location : Word) (stored : PiMachine) : PiMachine :=
  { sampleSetup location 0x00010000#32 with buffers := stored.buffers }

theorem blockStart_sampleReader {location : Word} (stored : PiMachine)
    (h : BlockStart samplePiConfig (sampleSetup location 0x00010000#32) value true block) :
    BlockStart samplePiConfig (sampleReader location stored) value true block :=
  ⟨h.drive, h.sought, h.track, h.start, h.sector, h.noReset, h.notHeld⟩

theorem blockStart_sampleSetup_read (location : Word)
    (h : location = 0x00010000#32 ∨ location = 0x00060000#32) :
    BlockStart samplePiConfig (sampleSetup location 0x00010000#32) 0x80000000#32 true 0 := by
  rcases h with rfl | rfl
  · exact ⟨rfl, ⟨rfl, rfl⟩, by decide, by decide, by decide, by decide, rfl⟩
  · exact ⟨rfl, ⟨rfl, rfl⟩, by decide, by decide, by decide, by decide, rfl⟩

theorem readable_sampleSetup : Readable (sampleSetup 0x00010000#32 0x00010000#32).dd 0 := by
  rw [Readable]
  decide

def sampleStored (location : Word) : PiMachine :=
  answers samplePiConfig
    (started samplePiConfig (sampleSetup location 0x00020000#32) 0x80000000#32 sampleClock)
    (sampleAnswers.take 84)

theorem diskByte_sampleReader (location : Word) (stored : PiMachine) (a : Nat) :
    diskByte (sampleReader location stored) a = diskByte stored a := rfl

/-- Block 0 of track 1 is stored and read back. -/
theorem sample_block_is_read_back :
    StoresBlock samplePiConfig (sampleSetup 0x00010000#32 0x00020000#32) 0x80000000#32 sampleClock 0
        sampleAnswers ∧
      LoadsBlock samplePiConfig (sampleReader 0x00010000#32 (sampleStored 0x00010000#32))
        0x80000000#32 sampleClock 0 sampleAnswers := by
  have hwriter := blockStart_sampleSetup
  have hreader := blockStart_sampleReader (sampleStored 0x00010000#32)
    (blockStart_sampleSetup_read 0x00010000#32 (.inl rfl))
  have hlength : sampleAnswers.length = 85 := List.length_replicate
  obtain ⟨hstores, hread, -⟩ := stored_block_is_read_back samplePiConfig
    (sampleSetup 0x00010000#32 0x00020000#32) 0 0x80000000#32 sampleClock sampleAnswers hwriter
    hlength (answered_replicate (cartAddr_started hwriter sampleClock) 85)
  exact ⟨hstores, (hread _ 0x80000000#32 sampleClock sampleAnswers hreader readable_sampleSetup
    ⟨rfl, rfl, rfl, rfl⟩ (fun a _ _ => diskByte_sampleReader _ _ a) (Nat.le_of_eq hlength.symm)
    (answered_replicate (cartAddr_started hreader sampleClock) 85)).1⟩

def overwritten (m : PiMachine) : PiMachine :=
  { m with buffers := { m.buffers with bytes := Function.update m.buffers.bytes ⟨.secBuf, 3⟩ 1 } }

theorem diskByte_overwritten (m : PiMachine) (a : Nat) :
    diskByte (overwritten m) a = diskByte m a := by
  have hne : (⟨.disk, a⟩ : Place Region) ≠ ⟨.secBuf, 3⟩ :=
    fun heq => Region.noConfusion (congrArg Place.region heq)
  exact Function.update_of_ne hne 1 m.buffers.bytes

theorem secBufByte_overwritten (m : PiMachine) : secBufByte (overwritten m) 0 = 1 :=
  Function.update_self (⟨.secBuf, 3⟩ : Place Region) 1 m.buffers.bytes

def trackSixReader : PiMachine :=
  overwritten (sampleReader 0x00060000#32 (sampleStored 0x00060000#32))

/-- Block 0 of track 6 is stored but not read back: the first request in read mode does not
come, and the sector buffer does not hold the first buffer that was delivered. -/
theorem track_six_is_not_read_back :
    BlockStart samplePiConfig (sampleSetup 0x00060000#32 0x00020000#32) 0x80000000#32 false 0 ∧
      BlockStart samplePiConfig trackSixReader 0x80000000#32 true 0 ∧
      SameTrack (sampleSetup 0x00060000#32 0x00020000#32).dd trackSixReader.dd ∧
      (∀ a, diskByte trackSixReader a = diskByte (sampleStored 0x00060000#32) a) ∧
      hasBits (started samplePiConfig trackSixReader 0x80000000#32 sampleClock).dd .cmdStatus
        0x40000000#32 = false ∧
      secBufByte (beforeEnd samplePiConfig (started samplePiConfig
        (sampleSetup 0x00060000#32 0x00020000#32) 0x80000000#32 sampleClock) sampleAnswers 0) 0 ≠
        secBufByte (started samplePiConfig trackSixReader 0x80000000#32 sampleClock) 0 := by
  have hwriter : BlockStart samplePiConfig (sampleSetup 0x00060000#32 0x00020000#32)
      0x80000000#32 false 0 :=
    ⟨rfl, ⟨rfl, rfl⟩, by decide, by decide, by decide, by decide, rfl⟩
  have hsetup := blockStart_sampleSetup_read 0x00060000#32 (.inr rfl)
  have hreader : BlockStart samplePiConfig trackSixReader 0x80000000#32 true 0 :=
    ⟨hsetup.drive, hsetup.sought, hsetup.track, hsetup.start, hsetup.sector, hsetup.noReset,
      hsetup.notHeld⟩
  obtain ⟨dd, heq, hrun, htrack, -⟩ := started_eq hreader sampleClock
  have hrefused : ¬ Readable dd 0 := by
    rw [Readable, htrack.curTk]
    decide
  obtain ⟨hbuffers, hnone⟩ := ddUpdateBm_refused (m := withDrive trackSixReader dd) hrun
    (by decide) hrefused
  have hdelivered : secBufByte (beforeEnd samplePiConfig (started samplePiConfig
      (sampleSetup 0x00060000#32 0x00020000#32) 0x80000000#32 sampleClock) sampleAnswers 0) 0 =
        0 := by
    obtain ⟨dd', heq', hrun', -⟩ := started_eq hwriter sampleClock
    obtain ⟨dd'', heq'', -⟩ := ddUpdateBm_write
      (m := withDrive (sampleSetup 0x00060000#32 0x00020000#32) dd') hrun' (by decide)
    have hstart : beforeEnd samplePiConfig (started samplePiConfig
        (sampleSetup 0x00060000#32 0x00020000#32) 0x80000000#32 sampleClock) sampleAnswers 0 =
          started samplePiConfig (sampleSetup 0x00060000#32 0x00020000#32) 0x80000000#32
            sampleClock := rfl
    rw [hstart, heq', heq'']
    exact bytes_writeSector_of_secBuf _ _
  have hfound : secBufByte (started samplePiConfig trackSixReader 0x80000000#32 sampleClock) 0 =
      1 := by
    rw [heq, secBufByte, hbuffers]
    exact secBufByte_overwritten _
  refine ⟨hwriter, hreader, ⟨rfl, rfl, rfl, rfl⟩, ?_, ?_, ?_⟩
  · intro a
    exact (diskByte_overwritten _ a).trans (diskByte_sampleReader _ _ a)
  · rw [heq]
    exact hnone
  · rw [hdelivered, hfound]
    decide

end ParallelN64.Dd
