import ParallelN64.Pi.Loops

/-!
# Flash memory as a store of pages

A page of 128 bytes is erased or programmed by the execute command, at the page that was
selected last. Programming takes the bytes that main memory holds when the command is
executed, from the address that the last transfer to the page buffer noted. Every other
step of the machine leaves all pages alone, so that a page is read back as it was
programmed until it is erased or programmed again.
-/

namespace ParallelN64.Pi

open ParallelN64.Core R4300

/-- What can happen to the flash memory and to what it is programmed from. -/
inductive PiAction where
  | writeFlashramCommand (address value mask : Word)
  | readFlashramStatus (address : Word)
  | writePiRegs (reg : PiReg) (value mask : Word)
  | storeRdram (index : Fin rdramSize) (value : UInt8)
  | runMachine (device : Device)

/-- One step. Of the registers of the peripheral interface the rest of the machine changes
only the status. -/
def PiMachine.step (cfg : PiConfig) (m : PiMachine) : PiAction → PiMachine
  | .writeFlashramCommand address value mask => m.writeFlashramCommand address value mask
  | .readFlashramStatus address => (m.readFlashramStatus address).1
  | .writePiRegs reg value mask => (m.writePiRegs cfg reg value mask).1
  | .storeRdram index value =>
    { m with buffers := { m.buffers with
      bytes := Function.update m.buffers.bytes ⟨.rdram, index⟩ value } }
  | .runMachine device =>
    { m with device := { device with
      pi := Function.update m.device.pi .status (device.pi .status) } }

def PiMachine.run (cfg : PiConfig) (m : PiMachine) (actions : List PiAction) : PiMachine :=
  actions.foldl (PiMachine.step cfg) m

abbrev PageStore := Nat → Nat → UInt8

def PiMachine.pages (m : PiMachine) : PageStore :=
  fun page j => m.buffers.bytes ⟨.flash, (page * 128 + j) ^^^ 3⟩

def PiMachine.command (m : PiMachine) : PiAction → Option Word
  | .writeFlashramCommand address value mask =>
    if m.useFlashram = .sram ∨ address &&& 0xFFFF#32 ≠ 0#32 then none else some (value &&& mask)
  | _ => none

/-- The page that a step erases or programs, with its new contents. -/
def PiMachine.pageWrite (m : PiMachine) (a : PiAction) : Option (Nat × (Nat → UInt8)) :=
  match m.command a with
  | none => none
  | some command =>
    if command &&& 0xFF000000#32 = 0xD2000000#32 then
      match m.flashram.mode with
      | .erase => some (m.flashram.eraseOffset.toNat / 128, fun _ => 0xFF)
      | .write =>
        some (m.flashram.eraseOffset.toNat / 128,
          fun j => m.rdramAt (m.flashram.writePointer.toNat + j))
      | _ => none
    else none

def PageStore.write (pages : PageStore) : Option (Nat × (Nat → UInt8)) → PageStore
  | some (page, contents) => Function.update pages page contents
  | none => pages

def PiMachine.Aligned (m : PiMachine) : Prop :=
  ∃ page < 0x10000, m.flashram.eraseOffset.toNat = page * 128

/-- Neither the flash memory nor what the next execute command does is changed. -/
structure KeepsFlash (m m' : PiMachine) : Prop where
  bytes : ∀ i, m'.buffers.bytes ⟨.flash, i⟩ = m.buffers.bytes ⟨.flash, i⟩
  mode : m'.flashram.mode = m.flashram.mode
  eraseOffset : m'.flashram.eraseOffset = m.flashram.eraseOffset
  useFlashram : m.useFlashram = .flash → m'.useFlashram = .flash

theorem flash_ne_rdram : Region.flash ≠ .rdram := by decide

theorem flash_ne_sram : Region.flash ≠ .sram := by decide

theorem flash_ne_secBuf : Region.flash ≠ .secBuf := by decide

theorem KeepsFlash.refl (m : PiMachine) : KeepsFlash m m := ⟨fun _ => rfl, rfl, rfl, id⟩

theorem flashram_dmaPiWriteData (cfg : PiConfig) (m : PiMachine) :
    (m.dmaPiWriteData cfg).flashram = m.flashram := by
  rw [PiMachine.dmaPiWriteData]
  split_ifs
  · rfl
  · rw [PiMachine.dmaReadFlashram]
    cases m.flashram.mode with
    | _ => rfl
  all_goals rfl

theorem controller_dmaPiWriteData (cfg : PiConfig) (m : PiMachine) :
    (m.dmaPiWriteData cfg).flashram.mode = m.flashram.mode ∧
      (m.dmaPiWriteData cfg).flashram.eraseOffset = m.flashram.eraseOffset ∧
      (m.useFlashram = .flash → (m.dmaPiWriteData cfg).useFlashram = .flash) := by
  rw [flashram_dmaPiWriteData]
  refine ⟨rfl, rfl, fun huse => ?_⟩
  rw [PiMachine.dmaPiWriteData]
  split_ifs with _ _ hnot
  · exact absurd huse hnot
  · rw [PiMachine.dmaReadFlashram]
    cases m.flashram.mode with
    | _ => exact huse
  all_goals exact huse

theorem controller_dmaPiReadData (cfg : PiConfig) (m : PiMachine) :
    (m.dmaPiReadData cfg).flashram.mode = m.flashram.mode ∧
      (m.dmaPiReadData cfg).flashram.eraseOffset = m.flashram.eraseOffset ∧
      (m.useFlashram = .flash → (m.dmaPiReadData cfg).useFlashram = .flash) := by
  rw [PiMachine.dmaPiReadData]
  dsimp only
  split_ifs with _ _ _ hnot
  · exact ⟨rfl, rfl, id⟩
  · exact ⟨rfl, rfl, id⟩
  · exact ⟨rfl, rfl, fun huse => absurd huse hnot⟩
  · rw [PiMachine.dmaWriteFlashram]
    split <;> exact ⟨rfl, rfl, id⟩
  · exact ⟨rfl, rfl, id⟩

theorem keepsFlash_writePiRegs (cfg : PiConfig) (m : PiMachine) (reg : PiReg) (value mask : Word) :
    KeepsFlash m (m.writePiRegs cfg reg value mask).1 := by
  have hbytes : ∀ i, (m.writePiRegs cfg reg value mask).1.buffers.bytes ⟨.flash, i⟩ =
      m.buffers.bytes ⟨.flash, i⟩ :=
    fun _ => bytes_writePiRegs_of_ne cfg m reg value mask flash_ne_rdram flash_ne_sram
      flash_ne_secBuf
  cases reg with
  | rdLen =>
    obtain ⟨hmode, hoffset, huse⟩ := controller_dmaPiReadData cfg
      { m with device := m.device.setPi .rdLen (maskedWrite (m.device.pi .rdLen) value mask) }
    exact ⟨hbytes, hmode, hoffset, huse⟩
  | wrLen =>
    obtain ⟨hmode, hoffset, huse⟩ := controller_dmaPiWriteData cfg
      { m with device := m.device.setPi .wrLen (maskedWrite (m.device.pi .wrLen) value mask) }
    exact ⟨hbytes, hmode, hoffset, huse⟩
  | _ => exact ⟨hbytes, rfl, rfl, id⟩

theorem flashramCommand_execute (m : PiMachine) {command : Word}
    (h : command &&& 0xFF000000#32 = 0xD2000000#32) :
    m.flashramCommand command = m.flashramExecute := by
  rw [PiMachine.flashramCommand, h]
  rfl

theorem flashramCommand_of_ne (m : PiMachine) {command : Word}
    (h : command &&& 0xFF000000#32 ≠ 0xD2000000#32) :
    (m.flashramCommand command).buffers = m.buffers := by
  rw [PiMachine.flashramCommand]
  split
  case h_5 heq => exact absurd heq h
  all_goals rfl

variable {m : PiMachine}

theorem aligned_flashramCommand (h : m.Aligned) (command : Word) :
    (m.flashramCommand command).Aligned := by
  have hselect : ∃ page < 0x10000, ((command &&& 0xFFFF#32) * 128#32).toNat = page * 128 := by
    have hle : (command &&& 0xFFFF#32).toNat ≤ 0xFFFF := by
      rw [BitVec.toNat_and]
      exact Nat.and_le_right
    have hunit : (128#32).toNat = 128 := rfl
    exact ⟨_, Nat.lt_succ_of_le hle, BitVec.toNat_mul_of_lt (by rw [hunit]; omega)⟩
  rw [PiMachine.flashramCommand]
  split
  case h_1 => exact hselect
  case h_3 => exact hselect
  all_goals exact h

theorem useFlashram_flashramCommand (m : PiMachine) (command : Word) :
    (m.flashramCommand command).useFlashram = m.useFlashram := by
  rw [PiMachine.flashramCommand]
  split
  case h_5 =>
    rw [PiMachine.flashramExecute]
    cases m.flashram.mode with
    | _ => rfl
  all_goals rfl

theorem page_index {page page' i j : Nat} (hj : j < 128) (hi : i < 128) :
    page * 128 + i = page' * 128 + j ↔ page = page' ∧ i = j := by
  omega

theorem bytes_eraseMoves (b : Buffers Region) {offset : Word} {page page' j : Nat}
    (hoffset : offset.toNat = page * 128) (hpage : page < 0x10000) (hpage' : page' < 1024)
    (hj : j < 128) :
    (b.moves (eraseMoves offset)).bytes ⟨.flash, (page' * 128 + j) ^^^ 3⟩ =
      if page' = page then 0xFF else b.bytes ⟨.flash, (page' * 128 + j) ^^^ 3⟩ := by
  have htarget : ∀ i < 128, ∀ p,
      guarded .flash 0x20000#32 ((offset + BitVec.ofNat 32 i) ^^^ s8) = some p ↔
        page * 128 + i < 0x20000 ∧ p = ⟨.flash, (page * 128 + i) ^^^ 3⟩ := by
    intro i hi p
    have hlt : (page * 128 + i) ^^^ 3 < (0x20000#32).toNat ↔ page * 128 + i < 0x20000 :=
      xor_three_lt_iff (by decide)
    rw [guarded_xor, toNat_add_of_lt (by omega), hoffset]
    split_ifs with h
    · exact Option.some_inj.trans (eq_comm.trans (and_iff_right (hlt.mp h)).symm)
    · exact iff_of_false id fun hp => h (hlt.mpr hp.1)
  split_ifs with heq
  · subst heq
    refine Buffers.bytes_loop_of_eq hj ((htarget j hj _).mpr ⟨by omega, rfl⟩) ?_ ?_
    · intro i hi hdst
      obtain ⟨_, hp⟩ := (htarget i hi _).mp hdst
      have hindex := xor_three_injective (congrArg Place.index hp)
      exact (((page_index hi hj).mp hindex).2).symm
    · intro q hq
      exact absurd hq (Option.some_ne_none q).symm
  · apply Buffers.bytes_loop_of_ne
    intro i hi hdst
    obtain ⟨_, hp⟩ := (htarget i hi _).mp hdst
    have hindex := xor_three_injective (congrArg Place.index hp)
    exact heq ((page_index hi hj).mp hindex).1

theorem bytes_programMoves (m : PiMachine) {offset pointer : Word} {page page' j : Nat}
    (hoffset : offset.toNat = page * 128) (hpage : page < 0x10000) (hpage' : page' < 1024)
    (hj : j < 128) :
    (m.buffers.moves (writeMoves .flash 0x20000#32 offset pointer 128#32)).bytes
        ⟨.flash, (page' * 128 + j) ^^^ 3⟩ =
      if page' = page then m.rdramAt (pointer.toNat + j)
      else m.buffers.bytes ⟨.flash, (page' * 128 + j) ^^^ 3⟩ := by
  have hlength : (128#32).toNat = 128 := rfl
  have hsize : (0x20000#32).toNat = 0x20000 := rfl
  split_ifs with heq
  · subst heq
    rw [← hoffset]
    refine bytes_writeMoves m flash_ne_rdram (by omega) hj ?_
    rw [hoffset, hsize, xor_three_lt_iff (by decide)]
    omega
  · apply bytes_writeMoves_of_forall_ne _ (by omega)
    intro i hi hindex
    rw [hoffset] at hindex
    exact heq ((page_index hj hi).mp hindex).1.symm

theorem pages_flashramExecute (h : m.Aligned) {page j : Nat} (hpage : page < 1024) (hj : j < 128) :
    m.flashramExecute.pages page j =
      match m.flashram.mode with
      | .erase => if page = m.flashram.eraseOffset.toNat / 128 then 0xFF else m.pages page j
      | .write =>
        if page = m.flashram.eraseOffset.toNat / 128 then
          m.rdramAt (m.flashram.writePointer.toNat + j)
        else m.pages page j
      | _ => m.pages page j := by
  obtain ⟨selected, hselected, hoffset⟩ := h
  have hdiv : m.flashram.eraseOffset.toNat / 128 = selected := by omega
  rw [PiMachine.flashramExecute, PiMachine.pages]
  cases m.flashram.mode with
  | erase =>
    rw [hdiv]
    exact bytes_eraseMoves _ hoffset hselected hpage hj
  | write =>
    rw [hdiv]
    exact bytes_programMoves m hoffset hselected hpage hj
  | _ => rfl

variable {a : PiAction}

section Step

variable (cfg : PiConfig) {m : PiMachine}

theorem step_of_command {command : Word} (h : m.command a = some command) :
    m.step cfg a = { m with useFlashram := .flash }.flashramCommand command := by
  cases a with
  | writeFlashramCommand address value mask =>
    rw [PiMachine.command] at h
    split_ifs at h with hfail
    obtain rfl := Option.some.inj h
    exact if_neg hfail
  | _ => exact absurd h (Option.some_ne_none command).symm

theorem keepsFlash_step (h : m.command a = none) : KeepsFlash m (m.step cfg a) := by
  cases a with
  | writeFlashramCommand address value mask =>
    rw [PiMachine.command] at h
    split_ifs at h with hfail
    rw [PiMachine.step, PiMachine.writeFlashramCommand, if_pos hfail]
    exact .refl m
  | readFlashramStatus address =>
    rw [PiMachine.step, PiMachine.readFlashramStatus]
    split_ifs
    · exact .refl m
    · exact ⟨fun _ => rfl, rfl, rfl, fun _ => rfl⟩
  | writePiRegs reg value mask => exact keepsFlash_writePiRegs cfg m reg value mask
  | storeRdram index value =>
    refine ⟨fun i => ?_, rfl, rfl, id⟩
    have hne : (⟨.flash, i⟩ : Place Region) ≠ ⟨.rdram, index⟩ :=
      fun heq => flash_ne_rdram (congrArg Place.region heq)
    exact Function.update_of_ne hne value m.buffers.bytes
  | runMachine device => exact ⟨fun _ => rfl, rfl, rfl, id⟩

theorem pages_step (h : m.Aligned) (a : PiAction) {page j : Nat} (hpage : page < 1024)
    (hj : j < 128) :
    (m.step cfg a).pages page j = PageStore.write m.pages (m.pageWrite a) page j := by
  rw [PiMachine.pageWrite]
  cases hcommand : m.command a with
  | none => exact (keepsFlash_step cfg hcommand).bytes _
  | some command =>
    rw [step_of_command cfg hcommand]
    dsimp only
    split_ifs with hexecute
    · have hpages := pages_flashramExecute (m := { m with useFlashram := .flash }) h hpage hj
      rw [flashramCommand_execute _ hexecute, hpages]
      dsimp only
      cases m.flashram.mode with
      | erase =>
        rw [PageStore.write, Function.update_apply]
        split_ifs <;> rfl
      | write =>
        rw [PageStore.write, Function.update_apply]
        split_ifs <;> rfl
      | _ => rfl
    · rw [PiMachine.pages, flashramCommand_of_ne _ hexecute]
      rfl

theorem aligned_step (h : m.Aligned) (a : PiAction) : (m.step cfg a).Aligned := by
  cases hcommand : m.command a with
  | none =>
    rw [PiMachine.Aligned, (keepsFlash_step cfg hcommand).eraseOffset]
    exact h
  | some command =>
    rw [step_of_command cfg hcommand]
    exact aligned_flashramCommand (m := { m with useFlashram := .flash }) h command

theorem aligned_run (h : m.Aligned) (actions : List PiAction) : (m.run cfg actions).Aligned := by
  induction actions generalizing m with
  | nil => exact h
  | cons a actions ih => exact ih (aligned_step cfg h a)

theorem useFlashram_step (h : m.useFlashram = .flash) (a : PiAction) :
    (m.step cfg a).useFlashram = .flash := by
  cases hcommand : m.command a with
  | none => exact (keepsFlash_step cfg hcommand).useFlashram h
  | some command =>
    rw [step_of_command cfg hcommand]
    exact useFlashram_flashramCommand _ command

end Step

def inSaves (cart : Word) : Prop := 0x08000000#32 ≤ cart ∧ cart < 0x08010000#32

instance (cart : Word) : Decidable (inSaves cart) :=
  inferInstanceAs (Decidable (0x08000000#32 ≤ cart ∧ cart < 0x08010000#32))

def PiMachine.Receives (m : PiMachine) (a : PiAction) (kind : Word) : Prop :=
  ∃ command, m.command a = some command ∧ command &&& 0xFF000000#32 = kind

def PiMachine.Selects (m : PiMachine) (a : PiAction) (page : Nat) : Prop :=
  ∃ command, m.command a = some command ∧
    (command &&& 0xFF000000#32 = 0x4B000000#32 ∨ command &&& 0xFF000000#32 = 0xA5000000#32) ∧
    (command &&& 0xFFFF#32).toNat = page

/-- A transfer of 128 bytes to the page buffer starts from an address. -/
def PiMachine.FillsPageBuffer (m : PiMachine) (a : PiAction) (dram : Word) : Prop :=
  ∃ value mask, a = .writePiRegs .rdLen value mask ∧ inSaves (m.device.pi .cartAddr) ∧
    maskedWrite (m.device.pi .rdLen) value mask &&& 0xFFFFFF#32 = 127#32 ∧
    m.device.pi .dramAddr = dram

/-- A transfer out of the flash memory in read mode starts, and covers a page. -/
structure PiMachine.ReadsPage (m : PiMachine) (a : PiAction) (page offset dram : Nat) : Prop where
  started : ∃ value mask, a = .writePiRegs .wrLen value mask ∧
    page * 128 + 128 ≤
      offset + ((maskedWrite (m.device.pi .wrLen) value mask &&& 0xFFFFFF#32) + 1#32).toNat
  saves : inSaves (m.device.pi .cartAddr)
  use : m.useFlashram = .flash
  mode : m.flashram.mode = .read
  offset_eq : offset = (((m.device.pi .cartAddr - 0x08000000#32) &&& 0xFFFF#32) * 2#32).toNat
  offset_le : offset ≤ page * 128
  dram_eq : dram = (m.device.pi .dramAddr).toNat

def PiMachine.Quiet (m : PiMachine) (a : PiAction) : Prop :=
  m.command a = none ∧
    ∀ value mask, a = .writePiRegs .rdLen value mask → ¬ inSaves (m.device.pi .cartAddr)

def PiMachine.Spares (page : Nat) (m : PiMachine) (a : PiAction) : Prop :=
  ∀ write ∈ m.pageWrite a, write.1 ≠ page

def Along (cfg : PiConfig) (P : PiMachine → PiAction → Prop) (m : PiMachine)
    (actions : List PiAction) : Prop :=
  ∀ first a rest, actions = first ++ a :: rest → P (m.run cfg first) a

/-- The steps that lead up to programming a page: write mode, a transfer to the page buffer,
and the selection of the page, with quiet steps behind each of them. -/
structure Preparation where
  mode : PiAction
  afterMode : List PiAction
  buffer : PiAction
  afterBuffer : List PiAction
  select : PiAction
  afterSelect : List PiAction

def Preparation.moded (p : Preparation) (cfg : PiConfig) (m : PiMachine) : PiMachine :=
  (m.step cfg p.mode).run cfg p.afterMode

def Preparation.buffered (p : Preparation) (cfg : PiConfig) (m : PiMachine) : PiMachine :=
  ((p.moded cfg m).step cfg p.buffer).run cfg p.afterBuffer

def Preparation.selected (p : Preparation) (cfg : PiConfig) (m : PiMachine) : PiMachine :=
  ((p.buffered cfg m).step cfg p.select).run cfg p.afterSelect

/-- A preparation for a page and the address that its contents come from. -/
structure Preparation.Prepares (p : Preparation) (cfg : PiConfig) (m : PiMachine) (page : Nat)
    (dram : Word) : Prop where
  mode : m.Receives p.mode 0xB4000000#32
  afterMode : Along cfg PiMachine.Quiet (m.step cfg p.mode) p.afterMode
  buffer : (p.moded cfg m).FillsPageBuffer p.buffer dram
  afterBuffer : Along cfg PiMachine.Quiet ((p.moded cfg m).step cfg p.buffer) p.afterBuffer
  select : (p.buffered cfg m).Selects p.select page
  afterSelect : Along cfg PiMachine.Quiet ((p.buffered cfg m).step cfg p.select) p.afterSelect

variable {page : Nat}

section Page

variable {cfg : PiConfig} {m : PiMachine}

theorem flashram_dmaPiReadData_of_not (h : ¬ inSaves (m.device.pi .cartAddr)) :
    (m.dmaPiReadData cfg).flashram = m.flashram := by
  rw [PiMachine.dmaPiReadData]
  dsimp only
  rw [if_neg (c := 0x08000000#32 ≤ m.device.pi .cartAddr ∧ m.device.pi .cartAddr < 0x08010000#32) h]
  split_ifs
  all_goals rfl

theorem dmaPiReadData_of_inSaves (h : inSaves (m.device.pi .cartAddr))
    (huse : m.useFlashram = .flash) : m.dmaPiReadData cfg = m.dmaWriteFlashram := by
  have hsaves : 0x08000000#32 ≤ m.device.pi .cartAddr ∧ m.device.pi .cartAddr < 0x08010000#32 := h
  have hfar : ¬ (0x05000000#32 ≤ m.device.pi .cartAddr ∧
      m.device.pi .cartAddr < 0x06000000#32) := by
    bv_omega
  rw [PiMachine.dmaPiReadData]
  dsimp only
  rw [if_neg hfar, if_pos hsaves, if_neg (not_not_intro huse)]

theorem flashram_dmaPiReadData (h : inSaves (m.device.pi .cartAddr)) (huse : m.useFlashram = .flash)
    (hmode : m.flashram.mode = .write) :
    (m.dmaPiReadData cfg).flashram =
      { m.flashram with writePointer := m.device.pi .dramAddr } := by
  rw [dmaPiReadData_of_inSaves h huse, PiMachine.dmaWriteFlashram]
  split
  case h_1 => rfl
  case h_2 hother => exact absurd hmode hother

theorem flashram_step_of_quiet (h : m.Quiet a) : (m.step cfg a).flashram = m.flashram := by
  cases a with
  | writeFlashramCommand address value mask =>
    have hcommand := h.1
    rw [PiMachine.command] at hcommand
    split_ifs at hcommand with hfail
    rw [PiMachine.step, PiMachine.writeFlashramCommand, if_pos hfail]
  | readFlashramStatus address =>
    rw [PiMachine.step, PiMachine.readFlashramStatus]
    split_ifs <;> rfl
  | writePiRegs reg value mask =>
    cases reg with
    | rdLen => exact flashram_dmaPiReadData_of_not (h.2 value mask rfl)
    | wrLen => exact flashram_dmaPiWriteData cfg _
    | _ => rfl
  | storeRdram index value => rfl
  | runMachine device => rfl

theorem flashram_step_of_writeMode (h : m.Receives a 0xB4000000#32) :
    (m.step cfg a).flashram = { m.flashram with mode := .write } ∧
      (m.step cfg a).useFlashram = .flash := by
  obtain ⟨command, hcommand, hkind⟩ := h
  rw [step_of_command cfg hcommand, useFlashram_flashramCommand, PiMachine.flashramCommand, hkind]
  exact ⟨rfl, rfl⟩

theorem flashram_step_of_selects (h : m.Selects a page) :
    ((m.step cfg a).flashram.mode = m.flashram.mode ∧
        (m.step cfg a).flashram.writePointer = m.flashram.writePointer ∧
        (m.step cfg a).flashram.eraseOffset.toNat = page * 128) ∧
      (m.step cfg a).useFlashram = .flash := by
  obtain ⟨command, hcommand, hkind, rfl⟩ := h
  have hle : (command &&& 0xFFFF#32).toNat ≤ 0xFFFF := by
    rw [BitVec.toNat_and]
    exact Nat.and_le_right
  have hunit : (128#32).toNat = 128 := rfl
  have hoffset : ((command &&& 0xFFFF#32) * 128#32).toNat =
      (command &&& 0xFFFF#32).toNat * 128 :=
    BitVec.toNat_mul_of_lt (by rw [hunit]; omega)
  rw [step_of_command cfg hcommand, useFlashram_flashramCommand, PiMachine.flashramCommand]
  rcases hkind with hkind | hkind
  · rw [hkind]
    exact ⟨⟨rfl, rfl, hoffset⟩, rfl⟩
  · rw [hkind]
    exact ⟨⟨rfl, rfl, hoffset⟩, rfl⟩

theorem flashram_step_of_fillsPageBuffer {dram : Word} (h : m.FillsPageBuffer a dram)
    (huse : m.useFlashram = .flash) (hmode : m.flashram.mode = .write) :
    (m.step cfg a).flashram = { m.flashram with writePointer := dram } ∧
      (m.step cfg a).useFlashram = .flash := by
  refine ⟨?_, useFlashram_step cfg huse a⟩
  obtain ⟨value, mask, rfl, hsaves, _, rfl⟩ := h
  let device := m.device.setPi .rdLen (maskedWrite (m.device.pi .rdLen) value mask)
  exact flashram_dmaPiReadData (m := { m with device }) hsaves huse hmode

theorem run_of_quiet {actions : List PiAction} (h : Along cfg PiMachine.Quiet m actions)
    (huse : m.useFlashram = .flash) :
    (m.run cfg actions).flashram = m.flashram ∧ (m.run cfg actions).useFlashram = .flash := by
  refine foldl_invariant (fun s => s.flashram = m.flashram ∧ s.useFlashram = .flash)
    PiMachine.Quiet ⟨rfl, huse⟩ ?_ h
  intro s a _ hs hquiet
  exact ⟨(flashram_step_of_quiet hquiet).trans hs.1, useFlashram_step cfg hs.2 a⟩

theorem pages_run_of_spares (hpage : page < 1024) (h : m.Aligned) {actions : List PiAction}
    (hspares : Along cfg (PiMachine.Spares page) m actions) {j : Nat} (hj : j < 128) :
    (m.run cfg actions).pages page j = m.pages page j := by
  have hinv : (m.run cfg actions).Aligned ∧ (m.run cfg actions).pages page j = m.pages page j := by
    refine foldl_invariant (fun s => s.Aligned ∧ s.pages page j = m.pages page j)
      (PiMachine.Spares page) ⟨h, rfl⟩ ?_ hspares
    intro s a _ hs hspare
    refine ⟨aligned_step cfg hs.1 a, ?_⟩
    rw [pages_step cfg hs.1 a hpage hj, ← hs.2]
    cases hwrite : s.pageWrite a with
    | none => rfl
    | some write =>
      have hne := hspare write hwrite
      exact congrFun (Function.update_of_ne hne.symm ..) j
  exact hinv.2

theorem Preparation.Prepares.selected_eq {p : Preparation} {dram : Word}
    (h : p.Prepares cfg m page dram) :
    (p.selected cfg m).useFlashram = .flash ∧ (p.selected cfg m).flashram.mode = .write ∧
      (p.selected cfg m).flashram.writePointer = dram ∧
      (p.selected cfg m).flashram.eraseOffset.toNat = page * 128 := by
  have hmode := @flashram_step_of_writeMode _ cfg _ h.mode
  have hmoded : (p.moded cfg m).flashram = _ ∧ (p.moded cfg m).useFlashram = _ :=
    run_of_quiet h.afterMode hmode.2
  rw [hmode.1] at hmoded
  have hbuffer := @flashram_step_of_fillsPageBuffer _ cfg _ _ h.buffer hmoded.2
    (congrArg Flashram.mode hmoded.1)
  have hbuffered : (p.buffered cfg m).flashram = _ ∧ (p.buffered cfg m).useFlashram = _ :=
    run_of_quiet h.afterBuffer hbuffer.2
  rw [hbuffer.1, hmoded.1] at hbuffered
  obtain ⟨⟨hwrite, hpointer, hoffset⟩, huse⟩ := @flashram_step_of_selects _ _ cfg _ h.select
  have hselected : (p.selected cfg m).flashram = _ ∧ (p.selected cfg m).useFlashram = _ :=
    run_of_quiet h.afterSelect huse
  rw [hselected.1, hwrite, hpointer, hoffset, hbuffered.1]
  exact ⟨hselected.2, rfl, rfl, rfl⟩

theorem pages_step_of_prepared (h : m.Aligned) {dram : Word} (hmode : m.flashram.mode = .write)
    (hpointer : m.flashram.writePointer = dram)
    (hoffset : m.flashram.eraseOffset.toNat = page * 128) (hpage : page < 1024)
    (ha : m.Receives a 0xD2000000#32) {j : Nat} (hj : j < 128) :
    (m.step cfg a).pages page j = m.rdramAt (dram.toNat + j) := by
  obtain ⟨command, hcommand, hkind⟩ := ha
  have hdiv : m.flashram.eraseOffset.toNat / 128 = page := by omega
  rw [pages_step cfg h a hpage hj, PiMachine.pageWrite, hcommand]
  dsimp only
  rw [if_pos hkind, hmode]
  dsimp only
  rw [hdiv, hpointer, PageStore.write, Function.update_self]

theorem dmaPiWriteData_of_inSaves (hsaves : inSaves (m.device.pi .cartAddr))
    (huse : m.useFlashram = .flash) : m.dmaPiWriteData cfg = m.dmaReadFlashram := by
  have hcart : 0x08000000#32 ≤ m.device.pi .cartAddr ∧ m.device.pi .cartAddr < 0x08010000#32 :=
    hsaves
  have hlow : m.device.pi .cartAddr < 0x10000000#32 ∧
      ¬ (0x06000000#32 ≤ m.device.pi .cartAddr ∧ m.device.pi .cartAddr < 0x08000000#32) := by
    bv_omega
  rw [PiMachine.dmaPiWriteData]
  dsimp only
  rw [if_pos hlow, if_pos hcart, if_neg (not_not_intro huse)]

theorem buffers_dmaPiWriteData_of_read (hsaves : inSaves (m.device.pi .cartAddr))
    (huse : m.useFlashram = .flash) (hmode : m.flashram.mode = .read) :
    (m.dmaPiWriteData cfg).buffers =
      m.buffers.moves (readMoves .flash 0x20000#32
        (((m.device.pi .cartAddr - 0x08000000#32) &&& 0xFFFF#32) * 2#32) (m.device.pi .dramAddr)
        ((m.device.pi .wrLen &&& 0xFFFFFF#32) + 1#32)) := by
  rw [dmaPiWriteData_of_inSaves hsaves huse, PiMachine.dmaReadFlashram]
  split
  case h_1 hother => exact absurd (hmode.symm.trans hother) (by decide)
  case h_2 => rfl
  case h_3 hother => exact absurd hmode hother

theorem toNat_saveLength_le (length : Word) :
    ((length &&& 0xFFFFFF#32) + 1#32).toNat ≤ 2 ^ 26 := by
  have hand : (length &&& 0xFFFFFF#32).toNat ≤ 0xFFFFFF := by
    rw [BitVec.toNat_and]
    exact Nat.and_le_right
  have hone : (1#32).toNat = 1 := rfl
  rw [BitVec.toNat_add_of_lt (by omega)]
  omega

theorem rdramByte_step_of_readsPage {page offset dram : Nat} (hpage : page < 1024)
    (h : m.ReadsPage a page offset dram) {j : Nat} (hj : j < 128)
    (hin : (dram + (page * 128 - offset) + j) % 2 ^ 26 < rdramSize) :
    (m.step cfg a).rdramByte ((dram + (page * 128 - offset) + j) % 2 ^ 26) = m.pages page j := by
  obtain ⟨⟨value, mask, rfl, hcover⟩, hsaves, huse, hmode, hoffset, hle, rfl⟩ := h
  have hread : (m.step cfg (.writePiRegs .wrLen value mask)).buffers =
      m.buffers.moves (readMoves .flash 0x20000#32
        (((m.device.pi .cartAddr - 0x08000000#32) &&& 0xFFFF#32) * 2#32) (m.device.pi .dramAddr)
        ((maskedWrite (m.device.pi .wrLen) value mask &&& 0xFFFFFF#32) + 1#32)) :=
    buffers_dmaPiWriteData_of_read
      (m := { m with
        device := m.device.setPi .wrLen (maskedWrite (m.device.pi .wrLen) value mask) })
      hsaves huse hmode
  have hlength := toNat_saveLength_le (maskedWrite (m.device.pi .wrLen) value mask)
  have hsize : (0x20000#32).toNat = 0x20000 := rfl
  rw [Nat.add_assoc] at hin ⊢
  have hbyte := @bytes_readMoves .flash 0x20000#32
    (((m.device.pi .cartAddr - 0x08000000#32) &&& 0xFFFF#32) * 2#32) _ _ m.buffers
    flash_ne_rdram hlength (page * 128 - offset + j) (by omega) hin
  have hsum : (((m.device.pi .cartAddr - 0x08000000#32) &&& 0xFFFF#32) * 2#32 +
      BitVec.ofNat 32 (page * 128 - offset + j)).toNat = page * 128 + j := by
    rw [toNat_add_of_lt (by omega)]
    omega
  rw [hsum] at hbyte
  rw [PiMachine.rdramByte, hread, hbyte]
  refine if_pos ?_
  rw [hsize, xor_three_lt_iff (by decide)]
  omega

end Page

section Inside

variable {cfg : PiConfig} {m : PiMachine}

def StaysInside (cfg : PiConfig) (m m' : PiMachine) : Prop :=
  ∃ used, m'.buffers.used = m.buffers.used ++ used ∧
    ∀ p ∈ used, (p.region = .rdram ∨ p.region = .flash) ∧ p.index < cfg.size p.region

def PiMachine.StoresStatusBehind (m : PiMachine) (a : PiAction) : Prop :=
  (∃ value mask, a = .writePiRegs .wrLen value mask) ∧ m.flashram.mode = .status ∧
    rdramSize < 4 * ((m.device.pi .dramAddr).toNat / 4) + 8

theorem staysInside_moves {ms : List (Move Region)} (h : ∀ p ∈ ms.flatMap Move.places,
    (p.region = .rdram ∨ p.region = .flash) ∧ p.index < cfg.size p.region) :
    StaysInside cfg m (m.moves ms) :=
  ⟨_, Buffers.used_moves .., h⟩

theorem StaysInside.of_eq {m' : PiMachine} (h : m'.buffers = m.buffers) : StaysInside cfg m m' :=
  ⟨[], by rw [h, List.append_nil], fun _ hp => absurd hp List.not_mem_nil⟩

theorem staysInside_flashramExecute : StaysInside cfg m m.flashramExecute := by
  rw [PiMachine.flashramExecute]
  cases m.flashram.mode with
  | erase =>
    apply staysInside_moves
    intro p hp
    obtain ⟨move, hmove, hmem⟩ := List.mem_flatMap.mp hp
    obtain ⟨i, _, rfl⟩ := mem_loop.mp hmove
    rw [Move.places, Option.toList_none, List.nil_append, Option.mem_toList, guarded_xor] at hmem
    split_ifs at hmem with hlt
    obtain rfl := Option.some.inj hmem
    exact ⟨.inr rfl, hlt⟩
  | write =>
    apply staysInside_moves
    intro p hp
    rcases p with ⟨region, index⟩
    rcases places_writeMoves hp with ⟨rfl, hlt⟩ | ⟨rfl, hlt⟩
    · exact ⟨.inl rfl, hlt⟩
    · exact ⟨.inr rfl, hlt⟩
  | _ => exact .of_eq rfl

theorem staysInside_dmaReadFlashram (hstatus : m.flashram.mode = .status →
      4 * ((m.device.pi .dramAddr).toNat / 4) + 8 ≤ rdramSize) :
    StaysInside cfg m m.dmaReadFlashram := by
  rw [PiMachine.dmaReadFlashram]
  cases hmode : m.flashram.mode with
  | status =>
    have hle := hstatus hmode
    apply staysInside_moves
    intro p hp
    rcases p with ⟨region, index⟩
    rw [List.flatMap_append, List.mem_append] at hp
    rcases hp with hp | hp
    · obtain ⟨rfl, _, hlt⟩ := places_storeWord hp
      exact ⟨.inl rfl, hlt.trans_le ((Nat.le_add_right _ 4).trans hle)⟩
    · obtain ⟨rfl, _, hlt⟩ := places_storeWord hp
      exact ⟨.inl rfl, hlt.trans_le hle⟩
  | read =>
    apply staysInside_moves
    intro p hp
    rcases p with ⟨region, index⟩
    rcases places_readMoves hp with ⟨rfl, hlt⟩ | ⟨i, _, heq, hlt⟩
    · exact ⟨.inl rfl, hlt⟩
    · obtain rfl : region = .flash := congrArg Place.region heq
      exact ⟨.inr rfl, hlt⟩
  | _ => exact .of_eq rfl

theorem staysInside_step (hflash : ∀ reg value mask, a = .writePiRegs reg value mask →
      m.useFlashram = .flash ∧ inSaves (m.device.pi .cartAddr))
    (hstatus : ¬ m.StoresStatusBehind a) : StaysInside cfg m (m.step cfg a) := by
  cases a with
  | writeFlashramCommand address value mask =>
    rw [PiMachine.step, PiMachine.writeFlashramCommand]
    split_ifs
    · exact .of_eq rfl
    · by_cases hexecute : (value &&& mask) &&& 0xFF000000#32 = 0xD2000000#32
      · rw [flashramCommand_execute _ hexecute]
        exact staysInside_flashramExecute (m := { m with useFlashram := .flash })
      · exact .of_eq (flashramCommand_of_ne _ hexecute)
  | readFlashramStatus address =>
    rw [PiMachine.step, PiMachine.readFlashramStatus]
    split_ifs
    · exact .of_eq rfl
    · exact .of_eq rfl
  | writePiRegs reg value mask =>
    obtain ⟨huse, hcart⟩ := hflash reg value mask rfl
    cases reg with
    | rdLen =>
      have hdata := @dmaPiReadData_of_inSaves cfg
        { m with device := m.device.setPi .rdLen (maskedWrite (m.device.pi .rdLen) value mask) }
        hcart huse
      refine .of_eq ((congrArg PiMachine.buffers hdata).trans ?_)
      rw [PiMachine.dmaWriteFlashram]
      split <;> rfl
    | wrLen =>
      have hdata := @dmaPiWriteData_of_inSaves cfg
        { m with device := m.device.setPi .wrLen (maskedWrite (m.device.pi .wrLen) value mask) }
        hcart huse
      have hread := @staysInside_dmaReadFlashram cfg
        { m with device := m.device.setPi .wrLen (maskedWrite (m.device.pi .wrLen) value mask) }
        fun hmode => Nat.le_of_not_lt fun hlt => hstatus ⟨⟨value, mask, rfl⟩, hmode, hlt⟩
      obtain ⟨used, hused, hin⟩ := hread
      exact ⟨used, (congrArg (fun m => m.buffers.used) hdata).trans hused, hin⟩
    | _ => exact .of_eq rfl
  | storeRdram index value => exact ⟨[], (List.append_nil _).symm, fun _ hp => absurd hp List.not_mem_nil⟩
  | runMachine device => exact .of_eq rfl

end Inside

def FlashReachable (cfg : PiConfig) (m : PiMachine) : Prop :=
  ∃ (m₀ : PiMachine) (actions : List PiAction), m₀.flashram = poweronFlashram ∧ m₀.run cfg actions = m

theorem programmed_page_is_read {cfg : PiConfig} (h : m.Aligned) {p : Preparation} {dram : Word}
    (hpage : page < 1024) (hprepares : p.Prepares cfg m page dram) {execute : PiAction}
    (hexecute : (p.selected cfg m).Receives execute 0xD2000000#32) {rest : List PiAction}
    (hrest : Along cfg (PiMachine.Spares page) ((p.selected cfg m).step cfg execute) rest)
    {read : PiAction} {offset target : Nat}
    (hread : (((p.selected cfg m).step cfg execute).run cfg rest).ReadsPage read page offset target)
    {j : Nat} (hj : j < 128) (hin : (target + (page * 128 - offset) + j) % 2 ^ 26 < rdramSize) :
    ((((p.selected cfg m).step cfg execute).run cfg rest).step cfg read).rdramByte
        ((target + (page * 128 - offset) + j) % 2 ^ 26) =
      (p.selected cfg m).rdramAt (dram.toNat + j) := by
  obtain ⟨_, hmode, hpointer, hoffset⟩ := hprepares.selected_eq
  have hselected : (p.selected cfg m).Aligned :=
    aligned_run cfg (aligned_step cfg (aligned_run cfg (aligned_step cfg
      (aligned_run cfg (aligned_step cfg h _) _) _) _) _) _
  rw [rdramByte_step_of_readsPage hpage hread hj hin,
    pages_run_of_spares hpage (aligned_step cfg hselected execute) hrest hj,
    pages_step_of_prepared hselected hmode hpointer hoffset hpage hexecute hj]

/-- In every state that is reached, a page that was programmed is read back as the 128 bytes that
main memory held, at the address of the transfer to the page buffer, when the program command
was executed, as long as the page is spared; every step writes at most the page that it erases
or programs; and nothing outside main memory and flash memory is used, except by a transfer
of the status. -/
theorem flash_is_page_store (cfg : PiConfig) (m : PiMachine) (h : FlashReachable cfg m) :
    (∀ (p : Preparation) (page : Nat) (dram : Word), page < 1024 → p.Prepares cfg m page dram →
      ∀ execute, (p.selected cfg m).Receives execute 0xD2000000#32 →
      ∀ rest, Along cfg (PiMachine.Spares page) ((p.selected cfg m).step cfg execute) rest →
      ∀ read offset target,
        (((p.selected cfg m).step cfg execute).run cfg rest).ReadsPage read page offset target →
      ∀ j < 128, (target + (page * 128 - offset) + j) % 2 ^ 26 < rdramSize →
        ((((p.selected cfg m).step cfg execute).run cfg rest).step cfg read).rdramByte
            ((target + (page * 128 - offset) + j) % 2 ^ 26) =
          (p.selected cfg m).rdramAt (dram.toNat + j)) ∧
      (∀ a, ∀ page < 1024, ∀ j < 128,
        (m.step cfg a).pages page j = PageStore.write m.pages (m.pageWrite a) page j) ∧
      ∀ a, (∀ reg value mask, a = .writePiRegs reg value mask →
          m.useFlashram = .flash ∧ inSaves (m.device.pi .cartAddr)) →
        ¬ m.StoresStatusBehind a → StaysInside cfg m (m.step cfg a) := by
  have haligned : m.Aligned := by
    obtain ⟨m₀, actions, hpower, rfl⟩ := h
    refine aligned_run cfg ⟨0, by decide, ?_⟩ actions
    rw [hpower]
    rfl
  refine ⟨?_, fun a page hpage j hj => pages_step cfg haligned a hpage hj,
    fun a hflash hstatus => staysInside_step hflash hstatus⟩
  intro p page dram hpage hprepares execute hexecute rest hrest read offset target hread j hj hin
  exact programmed_page_is_read haligned hpage hprepares hexecute hrest hread hj hin

section Sample

theorem along_nil {cfg : PiConfig} {P : PiMachine → PiAction → Prop} : Along cfg P m [] := by
  intro first a rest h
  exact absurd h.symm (List.append_ne_nil_of_right_ne_nil _ (List.cons_ne_nil _ _))

theorem along_cons {cfg : PiConfig} {P : PiMachine → PiAction → Prop} {actions : List PiAction}
    (ha : P m a) (h : Along cfg P (m.step cfg a) actions) : Along cfg P m (a :: actions) := by
  intro first b rest heq
  cases first with
  | nil =>
    obtain ⟨rfl, _⟩ := List.cons.inj heq
    exact ha
  | cons c first =>
    obtain ⟨rfl, htail⟩ := List.cons.inj heq
    exact h first b rest htail

theorem quiet_writePiRegs {reg : PiReg} (h : reg ≠ .rdLen) (value mask : Word) :
    m.Quiet (.writePiRegs reg value mask) := by
  refine ⟨rfl, fun value' mask' heq => ?_⟩
  injection heq with hreg
  exact absurd hreg h

theorem spares_of_pageWrite (h : m.pageWrite a = none) : m.Spares page a := by
  intro write hwrite
  rw [h] at hwrite
  exact absurd hwrite (Option.not_mem_none write)

/-- Page 3 is programmed from address 0x1000, where a byte is stored in between. -/
def samplePreparation : Preparation where
  mode := .writeFlashramCommand 0x08010000#32 0xB4000000#32 0xFFFFFFFF#32
  afterMode :=
    [.writePiRegs .dramAddr 0x1000#32 0xFFFFFFFF#32,
      .writePiRegs .cartAddr 0x08000000#32 0xFFFFFFFF#32]
  buffer := .writePiRegs .rdLen 127#32 0xFFFFFFFF#32
  afterBuffer := [.storeRdram ⟨0x1003, by decide⟩ 0xAB]
  select := .writeFlashramCommand 0x08010000#32 0xA5000003#32 0xFFFFFFFF#32
  afterSelect := []

def sampleExecute : PiAction := .writeFlashramCommand 0x08010000#32 0xD2000000#32 0xFFFFFFFF#32

def sampleRest : List PiAction :=
  [.writeFlashramCommand 0x08010000#32 0xF0000000#32 0xFFFFFFFF#32,
    .writePiRegs .dramAddr 0x2000#32 0xFFFFFFFF#32,
    .writePiRegs .cartAddr 0x080000C0#32 0xFFFFFFFF#32]

def sampleRead : PiAction := .writePiRegs .wrLen 127#32 0xFFFFFFFF#32

def sampleSelected : PiMachine := samplePreparation.selected samplePiConfig blankMachine

def sampleReadBack : PiMachine :=
  ((sampleSelected.step samplePiConfig sampleExecute).run samplePiConfig sampleRest).step
    samplePiConfig sampleRead

theorem samplePreparation_prepares :
    samplePreparation.Prepares samplePiConfig blankMachine 3 0x1000#32 where
  mode := ⟨0xB4000000#32, rfl, rfl⟩
  afterMode :=
    along_cons (quiet_writePiRegs (by decide) _ _)
      (along_cons (quiet_writePiRegs (by decide) _ _) along_nil)
  buffer := ⟨_, _, rfl, by decide, by decide, by decide⟩
  afterBuffer := along_cons ⟨rfl, fun _ _ heq => PiAction.noConfusion heq⟩ along_nil
  select := ⟨0xA5000003#32, rfl, .inr rfl, rfl⟩
  afterSelect := along_nil

theorem sampleExecute_received : sampleSelected.Receives sampleExecute 0xD2000000#32 :=
  ⟨0xD2000000#32, rfl, rfl⟩

theorem sampleRest_spares :
    Along samplePiConfig (PiMachine.Spares 3) (sampleSelected.step samplePiConfig sampleExecute)
      sampleRest :=
  along_cons (spares_of_pageWrite rfl)
    (along_cons (spares_of_pageWrite rfl) (along_cons (spares_of_pageWrite rfl) along_nil))

theorem sampleRead_readsPage :
    ((sampleSelected.step samplePiConfig sampleExecute).run samplePiConfig sampleRest).ReadsPage
      sampleRead 3 384 0x2000 where
  started := ⟨_, _, rfl, by decide⟩
  saves := by decide
  use := rfl
  mode := rfl
  offset_eq := by decide
  offset_le := by decide
  dram_eq := by decide

theorem flashReachable_blankMachine : FlashReachable samplePiConfig blankMachine :=
  ⟨blankMachine, [], rfl, rfl⟩

/-- The last byte of the sample page is read as memory was when it was programmed. -/
theorem sample_page_is_read :
    sampleReadBack.rdramByte 0x207F = sampleSelected.rdramAt 0x107F :=
  (flash_is_page_store samplePiConfig blankMachine flashReachable_blankMachine).1
    samplePreparation 3 0x1000#32 (by decide) samplePreparation_prepares sampleExecute
    sampleExecute_received sampleRest sampleRest_spares sampleRead 384 0x2000 sampleRead_readsPage
    127 (by decide) (by decide)

/-- The first byte of the page is not what memory held when it was sent to the page buffer. -/
theorem page_is_fetched_late :
    samplePreparation.Prepares samplePiConfig blankMachine 3 0x1000#32 ∧
      sampleSelected.Receives sampleExecute 0xD2000000#32 ∧
      Along samplePiConfig (PiMachine.Spares 3)
        (sampleSelected.step samplePiConfig sampleExecute) sampleRest ∧
      ((sampleSelected.step samplePiConfig sampleExecute).run samplePiConfig
        sampleRest).ReadsPage sampleRead 3 384 0x2000 ∧
      (samplePreparation.moded samplePiConfig blankMachine).rdramAt 0x1000 = 0 ∧
      sampleReadBack.rdramByte 0x2000 = 0xAB := by
  refine ⟨samplePreparation_prepares, sampleExecute_received, sampleRest_spares,
    sampleRead_readsPage, rfl, ?_⟩
  have haligned : blankMachine.Aligned := ⟨0, by decide, rfl⟩
  exact programmed_page_is_read (j := 0) haligned (by decide) samplePreparation_prepares
    sampleExecute_received sampleRest_spares sampleRead_readsPage (by decide) (by decide)

end Sample

end ParallelN64.Pi
