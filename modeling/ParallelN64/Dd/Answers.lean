import Mathlib.Data.List.GetD
import ParallelN64.Dd.Block

/-!
# Runs of answers

Each answer of the host moves the buffer manager on by one sector. In write mode the
sectors before the current one hold what was delivered, and nothing else has changed; in
read mode the sector buffer holds the sector before the current one.
-/

namespace ParallelN64.Dd

open ParallelN64.Core R4300 ParallelN64.Pi

variable {cfg : PiConfig} {m : PiMachine} {block : Fin 2} {sector : Nat}

theorem ddStep_endOfDma (hcart : m.device.pi .cartAddr = 0x05000400#32) :
    ddStep cfg m .endOfDma =
      (ddUpdateBm { m with device := m.device.piEndOfDmaEvent.1 }).1 := by
  have hcart' : (m.device.piEndOfDmaEvent.1).pi .cartAddr = 0x05000400#32 := hcart
  rw [ddStep, piEndOfDmaEvent]
  dsimp only
  rw [if_pos (Or.inr hcart')]

theorem secBufByte_ddRun {read : Bool} {sector : Nat} (h : Running m.dd read block sector)
    (hsector : sector ≤ 85) {actions : List DdAction} (hreceives : ∀ a ∈ actions, Receives a)
    (i : Nat) : secBufByte (ddRun cfg m actions) i = secBufByte m i := by
  induction actions generalizing m with
  | nil => rfl
  | cons action actions ih =>
    have haction := hreceives action List.mem_cons_self
    have hkeeps : KeepsTransfer m (ddStep cfg m action) :=
      keepsTransfer_ddStep h hsector haction.quiet
    exact (ih (hkeeps.running h) fun a ha => hreceives a (List.mem_cons_of_mem action ha)).trans
      (secBufByte_ddStep h hsector haction i)

theorem no_wrap {offset size : Nat} (h : offset ≤ diskSize) (hsize : size < 2 ^ 16) :
    offset + size < 2 ^ 32 :=
  Nat.lt_of_lt_of_le (Nat.add_lt_add_of_le_of_lt h hsize) (by decide)

theorem secByte_lt (dd : DdController) : secByte dd < 2 ^ 16 := by
  rw [secByte, BitVec.toNat_ushiftRight, Nat.shiftRight_eq_div_pow]
  have hlt := (dd.regs .hostSecbyte).isLt
  omega

def Stored (dd : DdController) (start : Nat) (before after : PiMachine) : Prop :=
  ∀ a, diskByte after a =
    if start ≤ a ∧ a ≤ start + secByte dd then secBufByte before (a - start)
    else diskByte before a

theorem stored_writeSector (hinside : TrackInside m.dd) {sector : Nat} (hsector : sector < 85)
    (hcur : sectorOf (m.dd.regs .curSector) = BitVec.ofNat 32 (sector + 1)) (block : Fin 2)
    (dd' : DdController) :
    Stored m.dd (sectorStart m.dd block sector) m
      (withDrive (m.moves (writeSectorMoves { m.dd with curBlock := block })) dd') := by
  intro a
  let dd : DdController := { m.dd with curBlock := block }
  have hdd : TrackInside dd := hinside
  have hstart : (sectorOffset dd (BitVec.ofNat 32 sector)).toNat =
      sectorStart m.dd block sector :=
    toNat_sectorOffset hdd (Nat.le_of_lt hsector)
  have hoffset : sectorOffset dd (sectorOf (m.dd.regs .curSector) - 1#32) =
      sectorOffset dd (BitVec.ofNat 32 sector) := by
    rw [hcur, BitVec.ofNat_add, BitVec.add_sub_cancel]
  have hend : sectorStart m.dd block sector ≤ diskSize :=
    sectorStart_le_diskSize hinside (Nat.le_of_lt hsector)
  have hbytes := bytes_writeSector m.buffers
    (no_wrap (by rw [hstart]; exact hend) (secByte_lt dd)) hoffset a
  rw [hstart] at hbytes
  exact hbytes

theorem ddUpdateBm_loads (h : Running m.dd true block sector) (hsector : sector < 85)
    (hinside : TrackInside m.dd) (hreadable : Readable m.dd block) :
    Running (ddUpdateBm m).1.dd true block (sector + 1) ∧
      SameTrack m.dd (ddUpdateBm m).1.dd ∧
      (∀ a, diskByte (ddUpdateBm m).1 a = diskByte m a) ∧
      ∀ i ≤ secByte m.dd, secBufByte (ddUpdateBm m).1 i =
        diskByte m (sectorStart m.dd block sector + i) := by
  obtain ⟨dd', heq, hrun, htrack⟩ := ddUpdateBm_read h hsector hreadable
  rw [heq]
  refine ⟨hrun, htrack, bytes_readSector_of_disk m.buffers, ?_⟩
  intro i hi
  let dd : DdController := { m.dd with curBlock := block }
  have hdd : TrackInside dd := hinside
  have hstart : (sectorOffset dd (BitVec.ofNat 32 sector)).toNat =
      sectorStart m.dd block sector :=
    toNat_sectorOffset hdd (Nat.le_of_lt hsector)
  have hoffset : sectorOffset dd (sectorOf (m.dd.regs .curSector)) =
      sectorOffset dd (BitVec.ofNat 32 sector) := by
    rw [h.curSector, sectorOf_shift block (by omega)]
  have hend : sectorStart m.dd block sector ≤ diskSize :=
    sectorStart_le_diskSize hinside (Nat.le_of_lt hsector)
  have hbytes := bytes_readSector m.buffers
    (no_wrap (by rw [hstart]; exact hend) (secByte_lt dd)) hoffset hi
  rw [hstart] at hbytes
  exact hbytes

variable {steps : List DdAction} {l : List (List DdAction)}

theorem answer_write (h : Running m.dd false block (sector + 1)) (hsector : sector < 84)
    (hinside : TrackInside m.dd) (hquiet : ∀ a ∈ steps, Quiet a)
    (hcart : (ddRun cfg m steps).device.pi .cartAddr = 0x05000400#32) :
    Running (answer cfg m steps).dd false block (sector + 2) ∧
      SameTrack m.dd (answer cfg m steps).dd ∧
      (answer cfg m steps).dd.regs .bmStatusCtl = m.dd.regs .bmStatusCtl ∧
      Stored m.dd (sectorStart m.dd block sector) (ddRun cfg m steps) (answer cfg m steps) := by
  have hkeeps : KeepsTransfer m (ddRun cfg m steps) :=
    keepsTransfer_ddRun h (by omega) hquiet
  have hrun := hkeeps.running h
  rw [answer, ddStep_endOfDma hcart]
  obtain ⟨dd', heq, hrun', htrack', hctl'⟩ := ddUpdateBm_write
    (m := { ddRun cfg m steps with
      device := (ddRun cfg m steps).device.piEndOfDmaEvent.1 }) hrun (by omega)
  rw [heq]
  refine ⟨hrun', hkeeps.track.trans htrack', hctl'.trans hkeeps.bmStatusCtl, ?_⟩
  have hcur : sectorOf ((ddRun cfg m steps).dd.regs .curSector) = BitVec.ofNat 32 (sector + 1) := by
    rw [hrun.curSector, sectorOf_shift block (by omega)]
  have hstored := stored_writeSector (hkeeps.track.trackInside hinside) (by omega) hcur block dd'
  rw [hkeeps.track.sectorStart] at hstored
  intro a
  have hbyte := hstored a
  rw [hkeeps.track.secByte] at hbyte
  exact hbyte

theorem answer_toggle (h : Running m.dd false block 85) (hinside : TrackInside m.dd)
    (hrequest : hasBits m.dd .bmStatusCtl 0x01000000#32 = true) (hquiet : ∀ a ∈ steps, Quiet a)
    (hcart : (ddRun cfg m steps).device.pi .cartAddr = 0x05000400#32) :
    Running (answer cfg m steps).dd false (1 - block) 1 ∧
      SameTrack m.dd (answer cfg m steps).dd ∧
      hasBits (answer cfg m steps).dd .bmStatusCtl 0x01000000#32 = false ∧
      Stored m.dd (sectorStart m.dd (1 - block) 84) (ddRun cfg m steps) (answer cfg m steps) := by
  have hkeeps : KeepsTransfer m (ddRun cfg m steps) :=
    keepsTransfer_ddRun h (by omega) hquiet
  have hrun := hkeeps.running h
  have hrequest' : hasBits (ddRun cfg m steps).dd .bmStatusCtl 0x01000000#32 = true := by
    rw [hasBits, hkeeps.bmStatusCtl]
    exact hrequest
  rw [answer, ddStep_endOfDma hcart]
  obtain ⟨dd', heq, hrun', htrack', hctl'⟩ := ddUpdateBm_toggle
    (m := { ddRun cfg m steps with
      device := (ddRun cfg m steps).device.piEndOfDmaEvent.1 }) hrun hrequest'
  rw [heq]
  refine ⟨hrun', hkeeps.track.trans htrack', hctl', ?_⟩
  have hcur : sectorOf ((ddRun cfg m steps).dd.regs .curSector) = BitVec.ofNat 32 (84 + 1) := by
    rw [hrun.curSector, sectorOf_shift block (by omega)]
  have hstored :=
    stored_writeSector (hkeeps.track.trackInside hinside) (by decide) hcur (1 - block) dd'
  rw [hkeeps.track.sectorStart] at hstored
  intro a
  have hbyte := hstored a
  rw [hkeeps.track.secByte] at hbyte
  exact hbyte

theorem answer_stop (h : Running m.dd false block 85)
    (hrequest : hasBits m.dd .bmStatusCtl 0x01000000#32 = false) (hquiet : ∀ a ∈ steps, Quiet a)
    (hcart : (ddRun cfg m steps).device.pi .cartAddr = 0x05000400#32) :
    hasBits (answer cfg m steps).dd .bmStatusCtl 0x80000000#32 = false ∧
      SameTrack m.dd (answer cfg m steps).dd ∧
      (answer cfg m steps).buffers = (ddRun cfg m steps).buffers := by
  have hkeeps : KeepsTransfer m (ddRun cfg m steps) :=
    keepsTransfer_ddRun h (by omega) hquiet
  have hrequest' : hasBits (ddRun cfg m steps).dd .bmStatusCtl 0x01000000#32 = false := by
    rw [hasBits, hkeeps.bmStatusCtl]
    exact hrequest
  rw [answer, ddStep_endOfDma hcart]
  obtain ⟨dd', heq, hoff, htrack'⟩ := ddUpdateBm_stop
    (m := { ddRun cfg m steps with
      device := (ddRun cfg m steps).device.piEndOfDmaEvent.1 }) (hkeeps.running h) hrequest'
  rw [heq]
  exact ⟨hoff, hkeeps.track.trans htrack', rfl⟩

theorem answer_read (h : Running m.dd true block sector) (hsector : sector < 85)
    (hinside : TrackInside m.dd) (hreadable : Readable m.dd block) (hquiet : ∀ a ∈ steps, Quiet a)
    (hcart : (ddRun cfg m steps).device.pi .cartAddr = 0x05000400#32) :
    Running (answer cfg m steps).dd true block (sector + 1) ∧
      SameTrack m.dd (answer cfg m steps).dd ∧
      (∀ a, diskByte (answer cfg m steps) a = diskByte m a) ∧
      ∀ i ≤ secByte m.dd, secBufByte (answer cfg m steps) i =
        diskByte m (sectorStart m.dd block sector + i) := by
  have hkeeps : KeepsTransfer m (ddRun cfg m steps) :=
    keepsTransfer_ddRun h (by omega) hquiet
  rw [answer, ddStep_endOfDma hcart]
  obtain ⟨hrun', htrack', hdisk, hbytes⟩ := ddUpdateBm_loads
    (m := { ddRun cfg m steps with
      device := (ddRun cfg m steps).device.piEndOfDmaEvent.1 })
    (hkeeps.running h) hsector (hkeeps.track.trackInside hinside) (hkeeps.track.readable hreadable)
  refine ⟨hrun', hkeeps.track.trans htrack', fun a => (hdisk a).trans (hkeeps.disk a), ?_⟩
  intro i hi
  refine (hbytes i (hkeeps.track.secByte.symm ▸ hi)).trans ((hkeeps.disk _).trans ?_)
  exact congrArg (fun start => diskByte m (start + i)) (hkeeps.track.sectorStart block sector)

theorem answers_take_succ {k : Nat} (h : k < l.length) :
    answers cfg m (l.take (k + 1)) = answer cfg (answers cfg m (l.take k)) (l.getD k []) := by
  have htake : l.take (k + 1) = l.take k ++ [l.getD k []] := by
    rw [List.take_succ_eq_append_getElem h, List.getD_eq_getElem l [] h]
  rw [htake, answers, List.foldl_append]
  rfl

/-- What holds after some answers in write mode. -/
structure Written (cfg : PiConfig) (m : PiMachine) (block : Fin 2) (l : List (List DdAction))
    (n : Nat) : Prop where
  running : Running (answers cfg m (l.take n)).dd false block (n + 1)
  track : SameTrack m.dd (answers cfg m (l.take n)).dd
  bmStatusCtl : (answers cfg m (l.take n)).dd.regs .bmStatusCtl = m.dd.regs .bmStatusCtl
  stored : ∀ k < n, ∀ i < secSize m.dd, i ≤ secByte m.dd →
    diskByte (answers cfg m (l.take n)) (sectorStart m.dd block k + i) =
      secBufByte (beforeEnd cfg m l k) i
  outside : secByte m.dd < secSize m.dd → ∀ a,
    a < sectorStart m.dd block 0 ∨ sectorStart m.dd block n ≤ a →
      diskByte (answers cfg m (l.take n)) a = diskByte m a

theorem written (h : Running m.dd false block 1) (hinside : TrackInside m.dd)
    (hanswered : Answered cfg Quiet m l) {n : Nat} (hn : n ≤ 84) (hlength : n ≤ l.length) :
    Written cfg m block l n := by
  induction n with
  | zero => exact ⟨h, .refl _, rfl, fun k hk => absurd hk (Nat.not_lt_zero k), fun _ _ _ => rfl⟩
  | succ n ih =>
    have hwritten := ih (by omega) (by omega)
    obtain ⟨hquiet, hcart⟩ := hanswered n (by omega)
    obtain ⟨hrun, htrack, hctl, hstored⟩ := answer_write hwritten.running (by omega)
      (hwritten.track.trackInside hinside) hquiet hcart
    rw [← answers_take_succ (by omega)] at hrun htrack hctl hstored
    rw [hwritten.track.sectorStart] at hstored
    have hkeeps : KeepsTransfer (answers cfg m (l.take n)) (beforeEnd cfg m l n) :=
      keepsTransfer_ddRun hwritten.running (by omega) hquiet
    have hbyte : ∀ a, diskByte (answers cfg m (l.take (n + 1))) a =
        if sectorStart m.dd block n ≤ a ∧ a ≤ sectorStart m.dd block n + secByte m.dd then
          secBufByte (beforeEnd cfg m l n) (a - sectorStart m.dd block n)
        else diskByte (answers cfg m (l.take n)) a := by
      intro a
      rw [hstored a, hwritten.track.secByte, ← hkeeps.disk]
      rfl
    refine ⟨hrun, hwritten.track.trans htrack, hctl.trans hwritten.bmStatusCtl, ?_, ?_⟩
    · intro k hk i hi hle
      rw [hbyte]
      rcases Nat.lt_succ_iff_lt_or_eq.mp hk with hlt | rfl
      · have hbefore : sectorStart m.dd block k + secSize m.dd ≤ sectorStart m.dd block n :=
          sectorStart_add_le hlt
        rw [if_neg (by omega)]
        exact hwritten.stored k hlt i hi hle
      · rw [if_pos (by omega), Nat.add_sub_cancel_left]
    · intro hfits a ha
      have hnext := sectorStart_succ m.dd block n
      have hfirst : sectorStart m.dd block 0 ≤ sectorStart m.dd block n :=
        sectorStart_le (Nat.zero_le n)
      rw [hbyte, if_neg (by omega)]
      exact hwritten.outside hfits a (by omega)

/-- What holds after some answers in read mode, when the first sector was loaded before. -/
structure Loaded (cfg : PiConfig) (m : PiMachine) (block : Fin 2) (l : List (List DdAction))
    (n : Nat) : Prop where
  running : Running (answers cfg m (l.take n)).dd true block (n + 1)
  track : SameTrack m.dd (answers cfg m (l.take n)).dd
  disk : ∀ a, diskByte (answers cfg m (l.take n)) a = diskByte m a
  loaded : ∀ i ≤ secByte m.dd, secBufByte (answers cfg m (l.take n)) i =
    diskByte m (sectorStart m.dd block n + i)

theorem loaded (h : Running m.dd true block 1) (hinside : TrackInside m.dd)
    (hreadable : Readable m.dd block)
    (hfirst : ∀ i ≤ secByte m.dd, secBufByte m i = diskByte m (sectorStart m.dd block 0 + i))
    (hanswered : Answered cfg Receives m l) {n : Nat} (hn : n ≤ 84) (hlength : n ≤ l.length) :
    Loaded cfg m block l n := by
  induction n with
  | zero => exact ⟨h, .refl _, fun _ => rfl, hfirst⟩
  | succ n ih =>
    have hloaded := ih (by omega) (by omega)
    obtain ⟨hreceives, hcart⟩ := hanswered n (by omega)
    obtain ⟨hrun, htrack, hdisk, hbytes⟩ := answer_read hloaded.running (by omega)
      (hloaded.track.trackInside hinside) (hloaded.track.readable hreadable)
      (fun a ha => (hreceives a ha).quiet) hcart
    rw [← answers_take_succ (by omega)] at hrun htrack hdisk hbytes
    refine ⟨hrun, hloaded.track.trans htrack, fun a => (hdisk a).trans (hloaded.disk a), ?_⟩
    intro i hi
    rw [hbytes i (hloaded.track.secByte.symm ▸ hi), hloaded.track.sectorStart]
    exact hloaded.disk _

end ParallelN64.Dd
