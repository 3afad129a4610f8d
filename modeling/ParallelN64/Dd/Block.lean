import ParallelN64.Core.Word
import ParallelN64.Dd.Sectors

/-!
# Transfers of blocks

The buffer manager asks the host for one sector after the other, and the host answers each
request by a transfer with the sector buffer. In write mode the buffer that ends the k-th
transfer is stored as sector k; in read mode sector k is in the buffer when the k-th
transfer starts.
-/

namespace ParallelN64.Dd

open ParallelN64.Core R4300 ParallelN64.Pi

/-- What the host and the drive do. -/
inductive DdAction where
  | pi (action : PiAction)
  | readDdRegs (reg : AsicReg)
  | writeDdRegs (reg : AsicReg) (value : Word) (clock : Clock)
  | endOfDma

/-- One step. -/
def ddStep (cfg : PiConfig) (m : PiMachine) : DdAction → PiMachine
  | .pi action => m.step cfg action
  | .readDdRegs reg => (readDdRegs m reg).1
  | .writeDdRegs reg value clock => (writeDdRegs m cfg reg value clock).1
  | .endOfDma => (piEndOfDmaEvent m).1

def ddRun (cfg : PiConfig) (m : PiMachine) (actions : List DdAction) : PiMachine :=
  actions.foldl (ddStep cfg) m

def Quiet : DdAction → Prop
  | .pi _ | .readDdRegs _ => True
  | .writeDdRegs .. | .endOfDma => False

/-- Quiet steps that do not start a transfer out of main memory. -/
def Receives : DdAction → Prop
  | .pi (.writePiRegs reg _ _) => reg ≠ .rdLen
  | .pi _ | .readDdRegs _ => True
  | .writeDdRegs .. | .endOfDma => False

theorem Receives.quiet {action : DdAction} (h : Receives action) : Quiet action := by
  cases action with
  | pi action => exact trivial
  | readDdRegs reg => exact trivial
  | writeDdRegs reg value clock => exact h
  | endOfDma => exact h

def answer (cfg : PiConfig) (m : PiMachine) (steps : List DdAction) : PiMachine :=
  ddStep cfg (ddRun cfg m steps) .endOfDma

def answers (cfg : PiConfig) (m : PiMachine) (l : List (List DdAction)) : PiMachine :=
  l.foldl (answer cfg) m

def beforeEnd (cfg : PiConfig) (m : PiMachine) (l : List (List DdAction)) (k : Nat) : PiMachine :=
  ddRun cfg (answers cfg m (l.take k)) (l.getD k [])

/-- Each answer is a transfer with the sector buffer, and its other steps are of a kind. -/
def Answered (cfg : PiConfig) (kind : DdAction → Prop) (m : PiMachine)
    (l : List (List DdAction)) : Prop :=
  ∀ k < l.length, (∀ a ∈ l.getD k [], kind a) ∧
    (beforeEnd cfg m l k).device.pi .cartAddr = 0x05000400#32

/-- The buffer manager runs and is at a sector. -/
structure Running (dd : DdController) (read : Bool) (block : Fin 2) (sector : Nat) : Prop where
  on : hasBits dd .bmStatusCtl 0x80000000#32 = true
  mode : dd.bmModeRead = read
  curSector : dd.regs .curSector = BitVec.ofNat 32 (sector + 0x5A * block.val) <<< 16

/-- Two drives are set to the same track and sector size. -/
structure SameTrack (dd dd' : DdController) : Prop where
  zone : dd'.zone = dd.zone
  trackOffset : dd'.trackOffset = dd.trackOffset
  hostSecbyte : dd'.regs .hostSecbyte = dd.regs .hostSecbyte
  curTk : dd'.regs .curTk = dd.regs .curTk

theorem SameTrack.refl (dd : DdController) : SameTrack dd dd := ⟨rfl, rfl, rfl, rfl⟩

variable {dd dd' : DdController}

theorem SameTrack.trans {dd'' : DdController} (h : SameTrack dd dd') (h' : SameTrack dd' dd'') :
    SameTrack dd dd'' :=
  ⟨h'.zone.trans h.zone, h'.trackOffset.trans h.trackOffset, h'.hostSecbyte.trans h.hostSecbyte,
    h'.curTk.trans h.curTk⟩

theorem SameTrack.sectorStart (h : SameTrack dd dd') (block : Fin 2) (sector : Nat) :
    sectorStart dd' block sector = sectorStart dd block sector := by
  rw [Dd.sectorStart, Dd.sectorStart, secSize, secSize, h.zone, h.trackOffset]

theorem SameTrack.secSize (h : SameTrack dd dd') : secSize dd' = secSize dd :=
  congrArg ddZoneSecSize h.zone

theorem SameTrack.secByte (h : SameTrack dd dd') : secByte dd' = secByte dd :=
  congrArg (fun value : Word => (value >>> 16).toNat) h.hostSecbyte

theorem SameTrack.trackInside (h : SameTrack dd dd') (hinside : TrackInside dd) :
    TrackInside dd' := by
  rw [TrackInside, h.secSize, h.trackOffset]
  exact hinside

section Update

variable {m : PiMachine} {block : Fin 2} {sector : Nat}

theorem ofNat_lt_iff {bound : Nat} (h : sector < 2 ^ 32) (hbound : bound < 2 ^ 32) :
    BitVec.ofNat 32 sector < BitVec.ofNat 32 bound ↔ sector < bound := by
  rw [BitVec.lt_def, BitVec.toNat_ofNat, BitVec.toNat_ofNat, Nat.mod_eq_of_lt h,
    Nat.mod_eq_of_lt hbound]

theorem shift_succ (block : Fin 2) (sector : Nat) :
    (BitVec.ofNat 32 sector + 1#32 + BitVec.ofNat 32 (0x5A * block.val)) <<< 16 =
      BitVec.ofNat 32 (sector + 1 + 0x5A * block.val) <<< 16 := by
  rw [BitVec.ofNat_add, BitVec.ofNat_add]

theorem ddUpdateBm_of_running {read : Bool} (h : Running m.dd read block sector)
    (hsector : sector < 90) :
    (ddUpdateBm m).1 =
      let dd := { m.dd with curBlock := block }
      let s := if read then updateBmRead dd (BitVec.ofNat 32 sector)
        else updateBmWrite dd (BitVec.ofNat 32 sector)
      withDrive (m.moves s.1) (setBits (s.2.1.setReg .curSector
        ((s.2.2 + BitVec.ofNat 32 (0x5A * s.2.1.curBlock.val)) <<< 16)) .cmdStatus
          0x04000000#32) := by
  rw [ddUpdateBm, h.on]
  dsimp only [Bool.not_true, Bool.false_eq_true, if_false]
  rw [h.curSector, sectorOf_shift block hsector, blockOf_shift block hsector, h.mode]
  rfl

theorem ddUpdateBm_write (h : Running m.dd false block sector) (hsector : sector < 85) :
    ∃ dd', (ddUpdateBm m).1 =
        withDrive (m.moves (writeSectorMoves { m.dd with curBlock := block })) dd' ∧
      Running dd' false block (sector + 1) ∧ SameTrack m.dd dd' ∧
      dd'.regs .bmStatusCtl = m.dd.regs .bmStatusCtl := by
  have hlt : BitVec.ofNat 32 sector < 85#32 := (ofNat_lt_iff (by omega) (by decide)).mpr hsector
  rw [ddUpdateBm_of_running h (by omega)]
  dsimp only
  rw [if_neg (by decide), updateBmWrite, if_pos hlt]
  refine ⟨_, rfl, ⟨?_, h.mode, ?_⟩, ⟨rfl, rfl, ?_, ?_⟩, ?_⟩
  · exact h.on
  · exact shift_succ block sector
  · rfl
  · rfl
  · rfl

theorem ddUpdateBm_toggle (h : Running m.dd false block 85)
    (hrequest : hasBits m.dd .bmStatusCtl 0x01000000#32 = true) :
    ∃ dd', (ddUpdateBm m).1 =
        withDrive (m.moves (writeSectorMoves { m.dd with curBlock := 1 - block })) dd' ∧
      Running dd' false (1 - block) 1 ∧ SameTrack m.dd dd' ∧
      hasBits dd' .bmStatusCtl 0x01000000#32 = false := by
  have hrequest' : hasBits { m.dd with curBlock := block } .bmStatusCtl 0x01000000#32 = true :=
    hrequest
  rw [ddUpdateBm_of_running h (by decide)]
  dsimp only
  rw [if_neg (by decide), updateBmWrite, if_neg (by decide), if_pos (by decide), if_pos hrequest']
  have hon : m.dd.regs .bmStatusCtl &&& ~~~0x01000000#32 &&& 0x80000000#32 =
      m.dd.regs .bmStatusCtl &&& 0x80000000#32 := and_and_of_subset (by decide)
  have hoff : m.dd.regs .bmStatusCtl &&& ~~~0x01000000#32 &&& 0x01000000#32 = 0#32 :=
    and_not_and_self _ _
  refine ⟨_, rfl, ⟨?_, h.mode, ?_⟩, ⟨rfl, rfl, ?_, ?_⟩, ?_⟩
  · exact (congrArg (fun value : Word => decide (value ≠ 0#32)) hon).trans h.on
  · exact shift_succ (1 - block) 0
  · rfl
  · rfl
  · exact congrArg (fun value : Word => decide (value ≠ 0#32)) hoff

theorem ddUpdateBm_stop (h : Running m.dd false block 85)
    (hrequest : hasBits m.dd .bmStatusCtl 0x01000000#32 = false) :
    ∃ dd', (ddUpdateBm m).1 = withDrive (m.moves []) dd' ∧
      hasBits dd' .bmStatusCtl 0x80000000#32 = false ∧ SameTrack m.dd dd' := by
  have hrequest' : ¬ hasBits { m.dd with curBlock := block } .bmStatusCtl 0x01000000#32 = true :=
    Bool.eq_false_iff.mp hrequest
  rw [ddUpdateBm_of_running h (by decide)]
  dsimp only
  rw [if_neg (by decide), updateBmWrite, if_neg (by decide), if_pos (by decide), if_neg hrequest']
  have hoff : m.dd.regs .bmStatusCtl &&& ~~~0x80000000#32 &&& 0x80000000#32 = 0#32 :=
    and_not_and_self _ _
  refine ⟨_, rfl, ?_, ⟨rfl, rfl, ?_, ?_⟩⟩
  · exact congrArg (fun value : Word => decide (value ≠ 0#32)) hoff
  · rfl
  · rfl

def Readable (dd : DdController) (block : Fin 2) : Prop :=
  ¬ ((dd.regs .curTk &&& 0x1FFF0000#32) >>> 16 = 6#32 ∧ block = 0)

theorem SameTrack.readable {dd dd' : DdController} (h : SameTrack dd dd')
    (hreadable : Readable dd block) : Readable dd' block := by
  rw [Readable, h.curTk]
  exact hreadable

theorem ddUpdateBm_read (h : Running m.dd true block sector) (hsector : sector < 85)
    (hreadable : Readable m.dd block) :
    ∃ dd', (ddUpdateBm m).1 =
        withDrive (m.moves (readSectorMoves { m.dd with curBlock := block })) dd' ∧
      Running dd' true block (sector + 1) ∧ SameTrack m.dd dd' := by
  have hlt : BitVec.ofNat 32 sector < 85#32 := (ofNat_lt_iff (by omega) (by decide)).mpr hsector
  rw [ddUpdateBm_of_running h (by omega)]
  dsimp only
  rw [if_pos rfl, updateBmRead]
  dsimp only
  rw [if_neg hreadable, if_pos hlt]
  refine ⟨_, rfl, ⟨?_, h.mode, ?_⟩, ⟨rfl, rfl, ?_, ?_⟩⟩
  · exact h.on
  · exact shift_succ block sector
  · rfl
  · rfl

theorem ddUpdateBm_refused (h : Running m.dd true block sector) (hsector : sector < 90)
    (hrefused : ¬ Readable m.dd block) :
    (ddUpdateBm m).1.buffers = m.buffers ∧
      hasBits (ddUpdateBm m).1.dd .cmdStatus 0x40000000#32 = false := by
  rw [ddUpdateBm_of_running h hsector]
  dsimp only
  rw [if_pos rfl, updateBmRead]
  dsimp only
  rw [if_pos (not_not.mp hrefused)]
  refine ⟨rfl, ?_⟩
  have hclear : (m.dd.regs .cmdStatus &&& ~~~0x40000000#32 ||| 0x04000000#32) &&& 0x40000000#32 =
      0#32 := by
    rw [or_and_of_disjoint (by decide), and_not_and_self]
  exact congrArg (fun word : Word => decide (word ≠ 0#32)) hclear

end Update

/-- A step changes neither the image nor what the buffer manager does next. -/
structure KeepsTransfer (m m' : PiMachine) : Prop where
  disk : ∀ a, diskByte m' a = diskByte m a
  track : SameTrack m.dd m'.dd
  mode : m'.dd.bmModeRead = m.dd.bmModeRead
  curSector : m'.dd.regs .curSector = m.dd.regs .curSector
  bmStatusCtl : m'.dd.regs .bmStatusCtl = m.dd.regs .bmStatusCtl

theorem KeepsTransfer.refl (m : PiMachine) : KeepsTransfer m m :=
  ⟨fun _ => rfl, .refl _, rfl, rfl, rfl⟩

theorem KeepsTransfer.trans {m m' m'' : PiMachine} (h : KeepsTransfer m m')
    (h' : KeepsTransfer m' m'') : KeepsTransfer m m'' :=
  ⟨fun a => (h'.disk a).trans (h.disk a), h.track.trans h'.track, h'.mode.trans h.mode,
    h'.curSector.trans h.curSector, h'.bmStatusCtl.trans h.bmStatusCtl⟩

theorem KeepsTransfer.running {m m' : PiMachine} (h : KeepsTransfer m m') {read : Bool}
    {block : Fin 2} {sector : Nat} (hrun : Running m.dd read block sector) :
    Running m'.dd read block sector := by
  refine ⟨?_, h.mode.trans hrun.mode, h.curSector.trans hrun.curSector⟩
  rw [hasBits, h.bmStatusCtl]
  exact hrun.on

section QuietSteps

variable {cfg : PiConfig} {m : PiMachine}

theorem bytes_flashramCommand_of_ne (m : PiMachine) (command : Word) {p : Place Region}
    (h : p.region ≠ .flash) : (m.flashramCommand command).buffers.bytes p = m.buffers.bytes p := by
  by_cases hexecute : command &&& 0xFF000000#32 = 0xD2000000#32
  · rw [flashramCommand_execute _ hexecute, PiMachine.flashramExecute]
    cases m.flashram.mode with
    | erase =>
      apply Buffers.bytes_loop_of_ne
      intro i _ heq
      rw [guarded_xor] at heq
      split_ifs at heq
      exact h (congrArg Place.region (Option.some.inj heq)).symm
    | write => exact bytes_writeMoves_of_ne _ h
    | _ => rfl
  · rw [flashramCommand_of_ne _ hexecute]

theorem dd_flashramCommand (m : PiMachine) (command : Word) :
    (m.flashramCommand command).dd = m.dd := by
  rw [PiMachine.flashramCommand]
  split
  case h_5 =>
    rw [PiMachine.flashramExecute]
    cases m.flashram.mode with
    | _ => rfl
  all_goals rfl

theorem dd_dmaPiWriteData (m : PiMachine) : (m.dmaPiWriteData cfg).dd = m.dd := by
  rw [PiMachine.dmaPiWriteData]
  split_ifs
  · rfl
  · rw [PiMachine.dmaReadFlashram]
    cases m.flashram.mode with
    | _ => rfl
  all_goals rfl

theorem dd_dmaPiReadData (m : PiMachine) : (m.dmaPiReadData cfg).dd = m.dd := by
  rw [PiMachine.dmaPiReadData]
  dsimp only
  split_ifs
  · rfl
  · rfl
  · rfl
  · rw [PiMachine.dmaWriteFlashram]
    split <;> rfl
  · rfl

theorem disk_ne : Region.disk ≠ .flash ∧ Region.disk ≠ .rdram ∧ Region.disk ≠ .sram ∧
    Region.disk ≠ .secBuf := by
  decide

theorem diskByte_step (action : PiAction) (a : Nat) :
    diskByte (m.step cfg action) a = diskByte m a := by
  obtain ⟨hflash, hram, hsram, hsec⟩ := disk_ne
  cases action with
  | writeFlashramCommand address value mask =>
    rw [PiMachine.step, PiMachine.writeFlashramCommand]
    split_ifs
    · rfl
    · exact bytes_flashramCommand_of_ne { m with useFlashram := .flash } _ hflash
  | readFlashramStatus address =>
    rw [PiMachine.step, PiMachine.readFlashramStatus]
    split_ifs <;> rfl
  | writePiRegs reg value mask =>
    exact bytes_writePiRegs_of_ne cfg m reg value mask hram hsram hsec
  | storeRdram index value =>
    have hne : (⟨.disk, a⟩ : Place Region) ≠ ⟨.rdram, index⟩ :=
      fun heq => Region.noConfusion (congrArg Place.region heq)
    exact Function.update_of_ne hne value m.buffers.bytes
  | runMachine device => rfl

theorem secBuf_ne : Region.secBuf ≠ .flash ∧ Region.secBuf ≠ .rdram := by decide

theorem secBufByte_step (action : PiAction) (h : Receives (.pi action)) (i : Nat) :
    secBufByte (m.step cfg action) i = secBufByte m i := by
  obtain ⟨hflash, hram⟩ := secBuf_ne
  cases action with
  | writeFlashramCommand address value mask =>
    rw [PiMachine.step, PiMachine.writeFlashramCommand]
    split_ifs
    · rfl
    · exact bytes_flashramCommand_of_ne { m with useFlashram := .flash } _ hflash
  | readFlashramStatus address =>
    rw [PiMachine.step, PiMachine.readFlashramStatus]
    split_ifs <;> rfl
  | writePiRegs reg value mask =>
    cases reg with
    | rdLen => exact absurd rfl h
    | wrLen => exact bytes_dmaPiWriteData_of_ne cfg _ hram
    | _ => rfl
  | storeRdram index value =>
    have hne : (⟨.secBuf, i ^^^ 3⟩ : Place Region) ≠ ⟨.rdram, index⟩ :=
      fun heq => Region.noConfusion (congrArg Place.region heq)
    exact Function.update_of_ne hne value m.buffers.bytes
  | runMachine device => rfl

theorem dd_step (action : PiAction) :
    ∃ status, (m.step cfg action).dd = m.dd.setReg .cmdStatus status := by
  have hsame : m.dd = m.dd.setReg .cmdStatus (m.dd.regs .cmdStatus) := by
    rw [DdController.setReg, Function.update_eq_self]
  cases action with
  | writeFlashramCommand address value mask =>
    refine ⟨_, Eq.trans ?_ hsame⟩
    rw [PiMachine.step, PiMachine.writeFlashramCommand]
    split_ifs
    · rfl
    · exact dd_flashramCommand { m with useFlashram := .flash } _
  | readFlashramStatus address =>
    refine ⟨_, Eq.trans ?_ hsame⟩
    rw [PiMachine.step, PiMachine.readFlashramStatus]
    split_ifs <;> rfl
  | writePiRegs reg value mask =>
    cases reg with
    | cartAddr =>
      rw [PiMachine.step, PiMachine.writePiRegs]
      dsimp only
      split_ifs
      · exact ⟨_, rfl⟩
      · exact ⟨_, rfl⟩
      · exact ⟨_, hsame⟩
    | rdLen => exact ⟨_, (dd_dmaPiReadData _).trans hsame⟩
    | wrLen => exact ⟨_, (dd_dmaPiWriteData _).trans hsame⟩
    | _ => exact ⟨_, hsame⟩
  | storeRdram index value => exact ⟨_, hsame⟩
  | runMachine device => exact ⟨_, hsame⟩

theorem keepsTransfer_of_setReg {m' : PiMachine} {status : Word}
    (hdisk : ∀ a, diskByte m' a = diskByte m a) (hdd : m'.dd = m.dd.setReg .cmdStatus status) :
    KeepsTransfer m m' := by
  refine ⟨hdisk, ?_, ?_, ?_, ?_⟩
  · rw [hdd]
    exact ⟨rfl, rfl, rfl, rfl⟩
  all_goals rw [hdd]
  all_goals rfl

variable {read : Bool} {block : Fin 2} {sector : Nat}

theorem readDdRegs_of_running (h : Running m.dd read block sector) (hsector : sector ≤ 85)
    (reg : AsicReg) : (readDdRegs m reg).1 = m := by
  have hle : ¬ BitVec.ofNat 32 85 < BitVec.ofNat 32 sector := fun hlt =>
    Nat.not_lt.mpr hsector ((ofNat_lt_iff (by decide) (by omega)).mp hlt)
  rw [readDdRegs, h.curSector, sectorOf_shift block (by omega)]
  dsimp only
  rw [if_neg fun hall => hle hall.2.2]

theorem keepsTransfer_ddStep (h : Running m.dd read block sector) (hsector : sector ≤ 85)
    {action : DdAction} (hquiet : Quiet action) : KeepsTransfer m (ddStep cfg m action) := by
  cases action with
  | pi action =>
    obtain ⟨status, hdd⟩ : ∃ status, (m.step cfg action).dd = m.dd.setReg .cmdStatus status :=
      dd_step action
    exact keepsTransfer_of_setReg (diskByte_step action) hdd
  | readDdRegs reg =>
    rw [ddStep, readDdRegs_of_running h hsector reg]
    exact .refl m
  | writeDdRegs reg value clock => exact hquiet.elim
  | endOfDma => exact hquiet.elim

theorem keepsTransfer_ddRun (h : Running m.dd read block sector) (hsector : sector ≤ 85)
    {actions : List DdAction} (hquiet : ∀ a ∈ actions, Quiet a) :
    KeepsTransfer m (ddRun cfg m actions) := by
  induction actions generalizing m with
  | nil => exact .refl m
  | cons action actions ih =>
    have hstep : KeepsTransfer m (ddStep cfg m action) :=
      keepsTransfer_ddStep h hsector (hquiet action List.mem_cons_self)
    exact hstep.trans
      (ih (hstep.running h) fun a ha => hquiet a (List.mem_cons_of_mem action ha))

theorem secBufByte_ddStep (h : Running m.dd read block sector) (hsector : sector ≤ 85)
    {action : DdAction} (hreceives : Receives action) (i : Nat) :
    secBufByte (ddStep cfg m action) i = secBufByte m i := by
  cases action with
  | pi action => exact secBufByte_step action hreceives i
  | readDdRegs reg => rw [ddStep, readDdRegs_of_running h hsector reg]
  | writeDdRegs reg value clock => exact hreceives.elim
  | endOfDma => exact hreceives.elim

end QuietSteps

end ParallelN64.Dd
