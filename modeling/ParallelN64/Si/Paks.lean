import ParallelN64.Core.Transfer

/-!
# Controller paks and cartridges

The memories behind the serial interface, and the blocks of 32 bytes that the paks of a
controller read and write: a memory pak, a rumble pak, or a transfer pak with a cartridge
of another console in it. What is moved is a list of moves between the command and the
memories.
-/

namespace ParallelN64.Si

open ParallelN64.Core

/-- The memories that commands use. Nothing lies behind the null pointer. -/
inductive PifRegion where
  | ram
  | mempak (channel : Fin 4)
  | eeprom
  | gbRom (channel : Fin 4)
  | gbRam (channel : Fin 4)
  | nowhere
  deriving DecidableEq

/-- `PIF_RAM_SIZE`, `MEMPAK_SIZE` and `PAK_CHUNK_SIZE`. -/
def pifRamSize : Nat := 0x40
def mempakSize : Nat := 0x8000
def pakChunkSize : Nat := 0x20

/-- What is connected to a controller port. -/
inductive ContType where
  | none | joypad | mouse | other
  deriving DecidableEq

/-- `enum pak_type`. -/
inductive PakType where
  | none | mem | rumble | transfer
  deriving DecidableEq

/-- The functions that a cartridge is accessed with. Most cartridge types do nothing; a
cartridge that was not set up has null pointers. -/
inductive GbHandlers where
  | normal | mbc3 | mbc5 | other | absent
  deriving DecidableEq

/-- `struct gb_cart`, up to the banks. Without memory of its own the pointer to it is null. -/
structure GbCart where
  handlers : GbHandlers
  romSize : Nat
  ram : Option Nat
  hasRtc : Bool

/-- What the clock shows. -/
structure RtcTime where
  sec : Nat
  min : Nat
  hour : Nat
  mday : Nat
  wday : Nat
  mon : Nat
  year : Nat

/-- What is connected to the serial interface. -/
structure PifConfig where
  connected : Fin 4 → ContType
  pak : Fin 4 → PakType
  gbCart : Fin 4 → GbCart
  eepromSize : Nat
  eepromId : BitVec 16
  input : Fin 4 → BitVec 32
  time : RtcTime

/-- The sizes of the memories. -/
def PifConfig.size (cfg : PifConfig) : PifRegion → Nat
  | .ram => pifRamSize
  | .mempak _ => mempakSize
  | .eeprom => cfg.eepromSize
  | .gbRom channel => (cfg.gbCart channel).romSize
  | .gbRam channel => (cfg.gbCart channel).ram.getD 0
  | .nowhere => 0

/-- `struct transferpak` with the banks of its cartridge. -/
structure Transferpak where
  enabled : Bool
  bank : BitVec 32
  accessMode : UInt8
  accessModeChanged : UInt8
  romBank : BitVec 32
  ramBank : BitVec 32

abbrev Moves := List (Move PifRegion)

abbrev Block := Place PifRegion

section GbCarts

variable (cart : GbCart) (t : Transferpak) (channel : Fin 4) (address : BitVec 32)

/-- What reading a cartridge delivers: nothing, zeros, or a block. -/
inductive GbRead where
  | nothing
  | zeros
  | block (p : Block)

def blockInside (region : PifRegion) (size : Nat) (offset : BitVec 32) : Option Block :=
  if offset.toNat < size then some ⟨region, offset.toNat⟩ else none

def ramBlock (offset : BitVec 32) : Option Block :=
  cart.ram.bind fun size => blockInside (.gbRam channel) size offset

def GbRead.ofBlock : Option Block → GbRead
  | some p => .block p
  | none => .nothing

/-- `read_gb_cart_normal`. -/
def readGbCartNormal : GbRead :=
  match (address >>> 13).toNat with
  | 0 | 1 | 2 | 3 => .ofBlock (blockInside (.gbRom channel) cart.romSize address)
  | 5 => .ofBlock (ramBlock cart channel (address - 0xA000#32))
  | _ => .nothing

def rtcSelected (hasRtc : Bool) : Bool := hasRtc && 0x08#32 ≤ t.ramBank && t.ramBank ≤ 0x0C#32

def bankedOffset : BitVec 32 := (address - 0xA000#32) + t.ramBank * 0x2000#32

/-- Reading a cartridge with banks. The first bank is read without a check. -/
def readGbCartBanked (hasRtc : Bool) : GbRead :=
  match (address >>> 13).toNat with
  | 0 | 1 => .block ⟨.gbRom channel, address.toNat⟩
  | 2 | 3 => .ofBlock (blockInside (.gbRom channel) cart.romSize
      ((address - 0x4000#32) + t.romBank * 0x4000#32))
  | 5 =>
    if rtcSelected t hasRtc then .zeros
    else .ofBlock (ramBlock cart channel (bankedOffset t address))
  | _ => .nothing

/-- `read_gb_cart_mbc3` and `read_gb_cart_mbc5`. -/
def readGbCartMbc3 : GbRead := readGbCartBanked cart t channel address cart.hasRtc
def readGbCartMbc5 : GbRead := readGbCartBanked cart t channel address false

/-- `read_gb_cart`. A null pointer is called where there are no functions. -/
def readGbCart : GbRead :=
  match cart.handlers with
  | .normal => readGbCartNormal cart channel address
  | .mbc3 => readGbCartMbc3 cart t channel address
  | .mbc5 => readGbCartMbc5 cart t channel address
  | .other => .nothing
  | .absent => .block ⟨.nowhere, 0⟩

/-- `write_gb_cart_normal`: the block that is written to. -/
def writeGbCartNormal : Option Block :=
  match (address >>> 13).toNat with
  | 5 => ramBlock cart channel (address - 0xA000#32)
  | _ => none

def writeGbCartBanked (hasRtc : Bool) : Option Block :=
  match (address >>> 13).toNat with
  | 5 => if rtcSelected t hasRtc then none else ramBlock cart channel (bankedOffset t address)
  | _ => none

/-- The registers of `write_gb_cart_mbc3`. -/
def bankMbc3 (value : UInt8) : Transferpak :=
  let bank := value.toBitVec.setWidth 32
  match (address >>> 13).toNat with
  | 1 =>
    let bank := bank &&& 0x7F#32
    { t with romBank := if bank = 0#32 then 1#32 else bank }
  | 2 =>
    if cart.hasRtc && 0x08#32 ≤ bank && bank ≤ 0x0C#32 then { t with ramBank := bank }
    else if cart.ram.isSome then { t with ramBank := bank &&& 0x03#32 }
    else t
  | _ => t

/-- The registers of `write_gb_cart_mbc5`. -/
def bankMbc5 (value : UInt8) : Transferpak :=
  let bank := value.toBitVec.setWidth 32
  match (address >>> 13).toNat with
  | 1 =>
    if address < 0x3000#32 then { t with romBank := t.romBank &&& 0xFF00#32 ||| bank }
    else { t with romBank := t.romBank &&& 0x00FF#32 ||| (bank &&& 0x01#32) <<< 8 }
  | 2 => if cart.ram.isSome then { t with ramBank := bank &&& 0x0F#32 } else t
  | _ => t

/-- `write_gb_cart`: the block that is written to, and the banks behind it. -/
def writeGbCart (value : UInt8) : Option Block × Transferpak :=
  match cart.handlers with
  | .normal => (writeGbCartNormal cart channel address, t)
  | .mbc3 => (writeGbCartBanked cart t channel address cart.hasRtc, bankMbc3 cart t address value)
  | .mbc5 => (writeGbCartBanked cart t channel address false, bankMbc5 cart t address value)
  | .other => (none, t)
  | .absent => (some ⟨.nowhere, 0⟩, t)

end GbCarts

section Paks

variable (cfg : PifConfig) (t : Transferpak) (channel : Fin 4) (address : BitVec 32) (data : Block)

/-- `mempak_read_command`. -/
def mempakRead : Moves :=
  if address < 0x8000#32 then copy pakChunkSize data ⟨.mempak channel, address.toNat⟩
  else fillWith pakChunkSize data 0

/-- `mempak_write_command`. -/
def mempakWrite : Moves :=
  if address < 0x8000#32 then copy pakChunkSize ⟨.mempak channel, address.toNat⟩ data else []

/-- `rumblepak_read_command`. -/
def rumblepakRead : Moves :=
  fillWith pakChunkSize data (if 0x8000#32 ≤ address ∧ address < 0x9000#32 then 0x80 else 0x00)

/-- `rumblepak_write_command`, which only looks at what to do. -/
def rumblepakWrite : Moves := if address = 0xC000#32 then [look data] else []

/-- `gb_cart_address`. -/
def gbCartAddress : BitVec 32 := address &&& 0x3FFF#32 ||| (t.bank &&& 0x3#32) * 0x4000#32

/-- What reading the cartridge in the pak moves. -/
def gbReadMoves : Moves :=
  match readGbCart (cfg.gbCart channel) t channel (gbCartAddress t address) with
  | .nothing => []
  | .zeros => fillWith pakChunkSize data 0
  | .block p => copy pakChunkSize data p

/-- `transferpak_read_command`. -/
def transferpakRead : Moves × Transferpak :=
  match (address >>> 12).toNat with
  | 0x8 => (fillWith pakChunkSize data (if t.enabled then 0x84 else 0x00), t)
  | 0xB =>
    if t.enabled then
      (fillWith pakChunkSize data t.accessMode ++
        (if t.accessMode ≠ 0x40 then [look data, put data (t.accessMode ||| t.accessModeChanged)]
          else []),
        { t with accessModeChanged := 0 })
    else ([], t)
  | 0xC | 0xD | 0xE | 0xF => (if t.enabled then gbReadMoves cfg t channel address data else [], t)
  | _ => ([], t)

/-- `transferpak_write_command`. The cartridge is written to whether it is enabled or not. -/
def transferpakWrite (value : UInt8) : Moves × Transferpak :=
  let (ms, t) :=
    match (address >>> 12).toNat with
    | 0x8 =>
      ([], if value = 0xFE then { t with enabled := false }
        else if value = 0x84 then { t with enabled := true } else t)
    | 0xA => ([], if t.enabled then { t with bank := value.toBitVec.setWidth 32 } else t)
    | 0xB =>
      ([], if t.enabled then
          { t with
            accessModeChanged := 0x04, accessMode := if value &&& 1 = 0 then 0x80 else 0x89 }
        else t)
    | 0xC | 0xD | 0xE | 0xF =>
      let (p, t) := writeGbCart (cfg.gbCart channel) t channel (gbCartAddress t address) value
      (p.elim [] fun p => copy pakChunkSize p data, t)
    | _ => ([], t)
  (look data :: ms, t)

/-- What reading a pak moves. -/
def pakRead : Moves × Transferpak :=
  match cfg.pak channel with
  | .none => (fillWith pakChunkSize data 0, t)
  | .mem => (mempakRead channel address data, t)
  | .rumble => (rumblepakRead address data, t)
  | .transfer => transferpakRead cfg t channel address data

/-- What writing to a pak moves. -/
def pakWrite (value : UInt8) : Moves × Transferpak :=
  match cfg.pak channel with
  | .none => ([], t)
  | .mem => (mempakWrite channel address data, t)
  | .rumble => (rumblepakWrite address data, t)
  | .transfer => transferpakWrite cfg t channel address data value

end Paks

end ParallelN64.Si
