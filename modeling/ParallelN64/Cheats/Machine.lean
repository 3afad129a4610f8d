import ParallelN64.Core.Word

/-!
# Cheat codes

A cheat is a named list of codes. At every vertical interrupt the codes of the enabled cheats are
executed in list order: they write bytes or halfwords of the RDRAM, or decide whether the next code
is executed. A code that is executed with a pointer to its old value saves what it replaces first;
when its cheat is found disabled, the saved values are written back in list order.
-/

namespace ParallelN64.Cheats

open ParallelN64.Core

/-- `CHEAT_CODE_MAGIC_VALUE`: no old value is saved. -/
def cheatCodeMagicValue : UInt32 := 0xDEAD0000

/-- Who writes a byte: a patch for the ROM, or a code of a cheat; a kept write has its old value
saved, or writes it back. -/
structure Author where
  cheat : Option Bytes
  kept : Bool
  deriving DecidableEq, Repr

def romPatch : Author := ⟨none, false⟩

def codeOf (name : Bytes) (kept : Bool) : Author := ⟨some name, kept⟩

/-- A byte written by a code. -/
structure ByteWrite where
  author : Author
  offset : Nat
  value : UInt8
  deriving DecidableEq, Repr

/-- The host bytes from the start of the RDRAM on, with the record of reached and written ones. -/
structure Memory where
  byte : Nat → UInt8
  reached : List Nat := []
  written : List ByteWrite := []

def Memory.store (mem : Memory) (author : Author) (offset : Nat) (value : UInt8) : Memory :=
  { byte := Function.update mem.byte offset value
    reached := offset :: mem.reached
    written := ⟨author, offset, value⟩ :: mem.written }

def offset8 (address : UInt32) : Nat := ((address &&& 0xFFFFFF) ^^^ 3).toNat

def offset16 (address : UInt32) : Nat := ((address &&& 0xFFFFFF) ^^^ 2).toNat

section Accesses

variable (mem : Memory) (author : Author) (address : UInt32)

def readAddress8bit : UInt8 := mem.byte (offset8 address)

def readAddress16bit : UInt16 :=
  (mem.byte (offset16 address)).toUInt16 |||
    (mem.byte (offset16 address + 1)).toUInt16 <<< 8

def updateAddress8bit (newValue : UInt8) : Memory := mem.store author (offset8 address) newValue

def updateAddress16bit (newValue : UInt16) : Memory :=
  (mem.store author (offset16 address) newValue.toUInt8).store author (offset16 address + 1)
    (newValue >>> 8).toUInt8

end Accesses

/-- What a code does, by the first byte of its address. -/
inductive CodeKind where
  | update8
  | update16
  | equal8
  | equal16
  | differ8
  | differ16
  | both
  | nothing
  deriving DecidableEq, Repr

def codeKind (address : UInt32) : CodeKind :=
  let top := address &&& 0xFF000000
  if top = 0x80000000 ∨ top = 0x88000000 ∨ top = 0xA0000000 ∨ top = 0xA8000000 ∨
      top = 0xF0000000 then .update8
  else if top = 0x81000000 ∨ top = 0x89000000 ∨ top = 0xA1000000 ∨ top = 0xA9000000 ∨
      top = 0xF1000000 then .update16
  else if top = 0xD0000000 ∨ top = 0xD8000000 then .equal8
  else if top = 0xD1000000 ∨ top = 0xD9000000 then .equal16
  else if top = 0xD2000000 ∨ top = 0xDB000000 then .differ8
  else if top = 0xD3000000 ∨ top = 0xDA000000 then .differ16
  else if top = 0xEE000000 then .both
  else .nothing

/-- The host bytes a code can reach. -/
def reaches (address : UInt32) : List Nat :=
  match codeKind address with
  | .update8 | .equal8 | .differ8 => [offset8 address]
  | .update16 | .equal16 | .differ16 => [offset16 address, offset16 address + 1]
  | .both => [offset16 0xF1000318, offset16 0xF1000318 + 1, offset16 0xF100031A,
      offset16 0xF100031A + 1]
  | .nothing => []

def Memory.reach (mem : Memory) (address : UInt32) : Memory :=
  { mem with reached := reaches address ++ mem.reached }

def saveOld (old : Option UInt32) (current : UInt32) : Option UInt32 :=
  old.map fun old => if old = cheatCodeMagicValue then current else old

/-- Execute a code: whether the next one is to be executed, the memory, and what the pointer to
the old value points to then. Without a pointer nothing is saved. -/
def executeCheat (mem : Memory) (author : Author) (address : UInt32) (value : UInt16)
    (old : Option UInt32) : Bool × Memory × Option UInt32 :=
  match codeKind address with
  | .update8 =>
    (true, updateAddress8bit mem author address value.toUInt8,
      saveOld old (readAddress8bit mem address).toUInt32)
  | .update16 =>
    (true, updateAddress16bit mem author address value,
      saveOld old (readAddress16bit mem address).toUInt32)
  | .equal8 => (readAddress8bit mem address == value.toUInt8, mem.reach address, old)
  | .equal16 => (readAddress16bit mem address == value, mem.reach address, old)
  | .differ8 => (!(readAddress8bit mem address == value.toUInt8), mem.reach address, old)
  | .differ16 => (!(readAddress16bit mem address == value), mem.reach address, old)
  -- the two halfwords are written without a pointer
  | .both =>
    let mem := updateAddress16bit mem { author with kept := false } 0xF1000318 0x0040
    (true, updateAddress16bit mem { author with kept := false } 0xF100031A 0x0000, old)
  | .nothing => (true, mem, old)

structure CheatCode where
  address : UInt32
  value : UInt32
  oldValue : UInt32 := cheatCodeMagicValue
  deriving DecidableEq, Repr

structure Cheat where
  name : Bytes
  enabled : Bool := false
  wasEnabled : Bool := false
  cheatCodes : List CheatCode := []
  deriving DecidableEq, Repr

/-- The header of the ROM, as far as patches look at it: its name up to the first zero, its
checksums and its destination code. -/
structure RomHeader where
  name : Bytes
  crc1 : UInt32
  crc2 : UInt32
  destinationCode : UInt8
  deriving DecidableEq, Repr

inductive EntryPoint where
  | boot
  | vi
  deriving DecidableEq, Repr

section Patches

/-- `POKEMON SNAP`. -/
def pokemonSnap : Bytes := [80, 79, 75, 69, 77, 79, 78, 32, 83, 78, 65, 80]

/-- `DONKEY KONG 64`. -/
def donkeyKong64 : Bytes := [68, 79, 78, 75, 69, 89, 32, 75, 79, 78, 71, 32, 54, 52]

/-- The codes that are executed for a ROM before any cheat. -/
def romCodes (header : RomHeader) (entry : EntryPoint) : List (UInt32 × UInt16) :=
  if header.name.take 12 = pokemonSnap ∧ entry = .vi then
    if header.crc1 = 0xCA12B547 ∧ header.crc2 = 0x71FA4EE4 ∨
        header.crc1 = 0x7BB18D40 ∧ header.crc2 = 0x83138559 ∨
        header.crc1 = 0x39119872 ∧ header.crc2 = 0x07722E9F then
      [(0xD1382D1C, 0x0002), (0x80382D0F, 0x0000)]
    else if header.crc1 = 0xEC0F690D ∧ header.crc2 = 0x32A7438C ∨
        header.crc1 = 0xE0044E9E ∧ header.crc2 = 0xCD659D0D then
      [(0xD136D22C, 0x802A), (0x8036D21F, 0x0000)]
    else if header.crc1 = 0x5753720D ∧ header.crc2 = 0x2A8A884D then
      [(0xD1381BDC, 0x802C), (0x80381BCF, 0x0000)]
    else [(0xD1381BFC, 0x802C), (0x80381BEF, 0x0000)]
  else if header.name = donkeyKong64 then
    -- destinations J; A and E; D, F, I, S and the other European ones
    if header.destinationCode = 0x4A then [(0x806170A2, 0x0000)]
    else if header.destinationCode = 0x41 ∨ header.destinationCode = 0x45 then
      [(0x80619632, 0x0000)]
    else if header.destinationCode ∈ [0x44, 0x46, 0x49, 0x53, 0x50, 0x58, 0x20, 0x21, 0x38, 0x70]
    then [(0x806128E2, 0x0000)]
    else []
  else []

def applyRomCodes (mem : Memory) (codes : List (UInt32 × UInt16)) : Memory :=
  codes.foldl (fun mem code => (executeCheat mem romPatch code.1 code.2 none).2.1) mem

end Patches

section Codes

variable (name : Bytes) (gamesharkActive : Bool)

def isConditional (address : UInt32) : Bool := address &&& 0xF0000000 == 0xD0000000

def isButtonConditional (address : UInt32) : Bool :=
  let top := address &&& 0xFF000000
  top == 0xD8000000 || top == 0xD9000000 || top == 0xDA000000 || top == 0xDB000000

def isButtonCode (address : UInt32) : Bool :=
  let top := address &&& 0xFF000000
  top == 0x88000000 || top == 0x89000000 || top == 0xA8000000 || top == 0xA9000000

def isBootCode (address : UInt32) : Bool := address &&& 0xF0000000 == 0xF0000000

def executeSaving (mem : Memory) (code : CheatCode) : Memory × CheatCode :=
  let (_, mem, old) := executeCheat mem (codeOf name true) code.address code.value.toUInt16
    (some code.oldValue)
  (mem, { code with oldValue := old.getD code.oldValue })

def executePlain (mem : Memory) (code : CheatCode) : Bool × Memory :=
  let (next, mem, _) := executeCheat mem (codeOf name false) code.address code.value.toUInt16 none
  (next, mem)

/-- Whether the next code is skipped, or executed whatever it is. -/
structure Following where
  skip : Bool := false
  executeNext : Bool := false
  deriving DecidableEq, Repr

/-- One code of an enabled cheat at a vertical interrupt. -/
def viCode (following : Following) (mem : Memory) (code : CheatCode) :
    Following × Memory × CheatCode :=
  if following.skip then ({ following with skip := false }, mem, code)
  else if following.executeNext then
    let following := { following with executeNext := false }
    if isButtonConditional code.address then (following, (executePlain name mem code).2, code)
    else (following, executeSaving name mem code)
  else if isConditional code.address then
    if isButtonConditional code.address && !gamesharkActive then
      ({ following with skip := true }, mem, code)
    else
      let (next, mem) := executePlain name mem code
      if next then ({ following with executeNext := true }, mem, code)
      else ({ following with skip := true }, mem, code)
  else if isButtonCode code.address then
    if gamesharkActive then (following, (executePlain name mem code).2, code)
    else (following, mem, code)
  else if !isBootCode code.address then (following, executeSaving name mem code)
  else (following, mem, code)

/-- Go over the codes of a cheat, with the variables of the loop. -/
def forEachCode {σ : Type} (f : σ → Memory → CheatCode → σ × Memory × CheatCode) :
    σ → Memory → List CheatCode → Memory × List CheatCode
  | _, mem, [] => (mem, [])
  | vars, mem, code :: codes =>
    let (vars, mem, code) := f vars mem code
    let (mem, codes) := forEachCode f vars mem codes
    (mem, code :: codes)

def bootCode (_ : Unit) (mem : Memory) (code : CheatCode) : Unit × Memory × CheatCode :=
  if isBootCode code.address then ((), executeSaving name mem code) else ((), mem, code)

/-- Write the old value of a code back and forget it. -/
def restoreCode (_ : Unit) (mem : Memory) (code : CheatCode) : Unit × Memory × CheatCode :=
  if code.oldValue ≠ cheatCodeMagicValue then
    ((), (executeCheat mem (codeOf name true) code.address code.oldValue.toUInt16 none).2.1,
      { code with oldValue := cheatCodeMagicValue })
  else ((), mem, code)

end Codes

section Cheats

variable (entry : EntryPoint) (gamesharkActive : Bool)

/-- One cheat of a pass. -/
def applyCheat (mem : Memory) (cheat : Cheat) : Memory × Cheat :=
  if cheat.enabled then
    let (mem, codes) := match entry with
      | .boot => forEachCode (bootCode cheat.name) () mem cheat.cheatCodes
      | .vi => forEachCode (viCode cheat.name gamesharkActive) {} mem cheat.cheatCodes
    (mem, { cheat with wasEnabled := true, cheatCodes := codes })
  else if cheat.wasEnabled then
    match entry with
    | .boot => (mem, { cheat with wasEnabled := false })
    | .vi =>
      let (mem, codes) := forEachCode (restoreCode cheat.name) () mem cheat.cheatCodes
      (mem, { cheat with wasEnabled := false, cheatCodes := codes })
  else (mem, cheat)

/-- The cheats of a pass, from the first on. -/
def applyAll : Memory → List Cheat → Memory × List Cheat
  | mem, [] => (mem, [])
  | mem, cheat :: cheats =>
    let (mem, cheat) := applyCheat entry gamesharkActive mem cheat
    let (mem, cheats) := applyAll mem cheats
    (mem, cheat :: cheats)

/-- Change the first cheat of a name, if there is one. -/
def updateCheat (name : Bytes) (f : Cheat → Cheat) : List Cheat → Option (List Cheat)
  | [] => none
  | cheat :: cheats =>
    if cheat.name = name then some (f cheat :: cheats)
    else (updateCheat name f cheats).map (cheat :: ·)

/-- `find_or_create_cheat`, with the codes of the cheat given: the codes of an existing one are
freed. -/
def findOrCreateCheat (name : Bytes) (f : Cheat → Cheat) (cheats : List Cheat) : List Cheat :=
  match updateCheat name (fun cheat =>
    f { cheat with enabled := false, wasEnabled := false, cheatCodes := [] }) cheats with
  | some cheats => cheats
  | none => cheats ++ [f { name }]

/-- The codes a patch code stands for. -/
def patchCodes (incrAddr incrValue : UInt32) : Nat → UInt32 → UInt32 → List CheatCode
  | 0, _, _ => []
  | count + 1, curAddr, curValue =>
    { address := curAddr, value := curValue } ::
      patchCodes incrAddr incrValue count (curAddr + incrAddr) (curValue + incrValue)

/-- The codes of a new cheat; a patch code, unless it is the last one, repeats the next code. -/
def newCodes : List (UInt32 × UInt32) → List CheatCode
  | [] => []
  | [(address, value)] => [{ address, value }]
  | (address, value) :: (nextAddress, nextValue) :: rest =>
    if address &&& 0xFFFF0000 = 0x50000000 then
      patchCodes (address &&& 0xFF) value ((address &&& 0xFF00) >>> 8).toNat nextAddress
        nextValue ++ newCodes rest
    else { address, value } :: newCodes ((nextAddress, nextValue) :: rest)

end Cheats

/-- The memory, the cheats and the header of the ROM. -/
structure State where
  header : RomHeader
  mem : Memory
  activeCheats : List Cheat := []

/-- What can happen: a pass over the cheats, a call of the frontend, or a byte that the game or
the device writes. -/
inductive Op where
  | applyCheats (entry : EntryPoint) (gamesharkActive : Bool)
  | setEnabled (name : Bytes) (enabled : Bool)
  | addNew (name : Bytes) (codes : List (UInt32 × UInt32))
  | deleteAll
  | gameWrite (offset : Nat) (value : UInt8)
  deriving DecidableEq, Repr

def State.step (s : State) : Op → State
  | .applyCheats entry gamesharkActive =>
    let mem := applyRomCodes s.mem (romCodes s.header entry)
    let (mem, cheats) := applyAll entry gamesharkActive mem s.activeCheats
    { s with mem := mem, activeCheats := cheats }
  | .setEnabled name enabled =>
    let cheats := updateCheat name (fun cheat => { cheat with enabled := enabled }) s.activeCheats
    { s with activeCheats := cheats.getD s.activeCheats }
  | .addNew name codes =>
    let f := fun cheat : Cheat => { cheat with enabled := true, cheatCodes := newCodes codes }
    { s with activeCheats := findOrCreateCheat name f s.activeCheats }
  | .deleteAll => { s with activeCheats := [] }
  | .gameWrite offset value =>
    { s with mem := { s.mem with byte := Function.update s.mem.byte offset value } }

def State.run (s : State) (ops : List Op) : State := ops.foldl State.step s

end ParallelN64.Cheats
