import ParallelN64.Core.Word
import ParallelN64.Rom.Luts

/-!
# Opening and closing a ROM

`open_rom` copies an image in the order of the console, reads its header and sets the globals that
the emulator takes from the ROM: some get a default first, some only when no table knows the ROM,
and some only when a table does. The digest of an image is a parameter. Images come in whole
words, and memory never runs out.
-/

namespace ParallelN64.Rom

open ParallelN64.Core

inductive M64Error where
  | success
  | internal
  | inputInvalid
  | inputAssert
  | invalidState
  deriving DecidableEq, Repr

inductive SystemType where
  | ntsc
  | pal
  | mpal
  deriving DecidableEq, Repr

inductive SaveType where
  | eeprom4KB
  | eeprom16KB
  | sram
  | flashRam
  | controllerPack
  | none
  deriving DecidableEq, Repr

inductive SpecialRom where
  | normalRom
  | goldenEye
  | ratAttack
  | perfectDark
  deriving DecidableEq, Repr

/-- `rom_params`; strings end before their first zero. -/
structure RomParams where
  systemtype : SystemType := .ntsc
  headername : Bytes := []
  fixedaudiopos : Nat := 0
  audiosignal : Nat := 0
  specialRom : SpecialRom := .normalRom
  deriving DecidableEq, Repr

/-- `m64p_rom_settings`. -/
structure RomSettings where
  goodname : Bytes := []
  md5 : Bytes := []
  savetype : SaveType := .eeprom4KB
  status : Nat := 0
  players : Nat := 0
  rumble : Nat := 0
  sidmaduration : UInt64 := 0x900
  deriving DecidableEq, Repr

/-- The globals that a ROM sets, as the program starts with them. -/
structure Globals where
  gRom : Option Bytes := Option.none
  gRomSize : Nat := 0
  memHasBeenBSwapped : Bool := false
  alternateViTiming : Nat := 0
  viRefreshRate : Nat := 1500
  romHeader : Bytes := []
  romParams : RomParams := {}
  romSettings : RomSettings := {}
  countPerOp : UInt64 := 2
  delaySi : UInt64 := 0
  deriving DecidableEq, Repr

section Images

variable (image : Bytes)

def isValidRom : Bool :=
  image.take 4 == [0x80, 0x37, 0x12, 0x40] || image.take 4 == [0x37, 0x80, 0x40, 0x12] ||
    image.take 4 == [0x40, 0x12, 0x37, 0x80]

def byteswap : Bytes → Bytes
  | a :: b :: rest => b :: a :: byteswap rest
  | rest => rest

def wordswap : Bytes → Bytes
  | a :: b :: c :: d :: rest => d :: c :: b :: a :: wordswap rest
  | rest => rest

def swapRom : Bytes :=
  if image.head? = some 0x37 then byteswap image
  else if image.head? = some 0x40 then wordswap image
  else image

def romCountryCodeToSystemType (countryCode : UInt8) : SystemType :=
  if [0x44, 0x46, 0x49, 0x50, 0x53, 0x55, 0x58, 0x59].contains countryCode then .pal else .ntsc

/-- `isspace`. -/
def isspace (c : UInt8) : Bool := c == 32 || (9 ≤ c && c ≤ 13)

def trim (s : Bytes) : Bytes := ((s.dropWhile isspace).reverse.dropWhile isspace).reverse

def cString (s : Bytes) : Bytes := s.takeWhile (· ≠ 0)

def hexDigit (n : UInt8) : UInt8 := if n < 10 then 48 + n else 55 + n

/-- `%02X` for each byte. -/
def hexString (digest : Bytes) : Bytes :=
  digest.flatMap fun (byte : UInt8) => [hexDigit (byte >>> 4), hexDigit (byte &&& 15)]

def headerOf (rom : Bytes) : Bytes := rom.take 64

def lutIdOf (header : Bytes) : UInt64 :=
  ((header.drop 16).take 8).foldl (fun id byte => id <<< 8 ||| byte.toUInt64) 0

def headername (header : Bytes) : Bytes := trim (cString ((header.drop 32).take 20))

def destinationCode (header : Bytes) : UInt8 := header.getD 62 0

end Images

section Patches

/-- ` (unknown rom)`. -/
def unknownRom : Bytes := [32, 40, 117, 110, 107, 110, 111, 119, 110, 32, 114, 111, 109, 41]

/-- One of the loops that patch the globals for the ROMs of a table, and remember that they
did. -/
def patch (lut : List UInt64) (f : Globals → Globals) (lutId : UInt64) (s : Globals × Bool) :
    Globals × Bool :=
  if lut.contains lutId then
    let settings := { s.1.romSettings with goodname := s.1.romParams.headername }
    (f { s.1 with romSettings := settings }, true)
  else s

def setSavetype (savetype : SaveType) (g : Globals) : Globals :=
  { g with romSettings := { g.romSettings with savetype } }

def setAudiosignal (g : Globals) : Globals :=
  { g with romParams := { g.romParams with audiosignal := 1 } }

def setFixedaudiopos (g : Globals) : Globals :=
  { g with romParams := { g.romParams with fixedaudiopos := 1 } }

def setAlternateViTiming (g : Globals) : Globals := { g with alternateViTiming := 1 }

def setViRefreshRate (rate : Nat) (g : Globals) : Globals := { g with viRefreshRate := rate }

/-- The loops in their order. -/
def patches (lutId : UInt64) (g : Globals) : Globals × Bool :=
  let s := patch lutEe16k (setSavetype .eeprom16KB) lutId (g, false)
  let s := patch lutAudiosignal setAudiosignal lutId s
  let s := patch lutFixedaudiopos setFixedaudiopos lutId s
  let s := patch lutAlternateVi setAlternateViTiming lutId s
  let s := patch lutViClock1500 (setViRefreshRate 1500) lutId s
  let s := patch lutViClock1600 (setViRefreshRate 1600) lutId s
  let s := patch lutViClock2200 (setViRefreshRate 2200) lutId s
  let s := patch lutEe4k (setSavetype .eeprom4KB) lutId s
  patch lutFlashram (setSavetype .flashRam) lutId s

/-- Defaults for a ROM that no loop patched. -/
def withoutPatch (s : Globals × Bool) : Globals :=
  if s.2 then s.1
  else
    let settings := { s.1.romSettings with
      goodname := s.1.romParams.headername ++ unknownRom, savetype := .none, sidmaduration := 0x900
      status := 0, players := 0, rumble := 0 }
    { s.1 with romSettings := settings }

/-- `GOLDENEYE`. -/
def goldeneye : Bytes := [71, 79, 76, 68, 69, 78, 69, 89, 69]

/-- `RAT ATTACK`. -/
def ratAttack : Bytes := [82, 65, 84, 32, 65, 84, 84, 65, 67, 75]

/-- `Perfect Dark`. -/
def perfectDark : Bytes := [80, 101, 114, 102, 101, 99, 116, 32, 68, 97, 114, 107]

/-- The hacks for single games. -/
def specialRomOf (headername : Bytes) : SpecialRom :=
  if headername = goldeneye then .goldenEye
  else if headername = ratAttack then .ratAttack
  else if headername = perfectDark then .perfectDark
  else .normalRom

end Patches

section Calls

variable (md5 : Bytes → Bytes) (frameDupe : Bool)

/-- The globals before the tables are searched. -/
def beforeTables (g : Globals) (image : Bytes) : Globals :=
  let rom := swapRom image
  let header := headerOf rom
  { g with
    gRom := some rom
    gRomSize := image.length
    memHasBeenBSwapped := false
    alternateViTiming := 0
    viRefreshRate := 1500
    romHeader := header
    romParams := { g.romParams with
      systemtype := romCountryCodeToSystemType (destinationCode header)
      fixedaudiopos := 0
      audiosignal := 0
      headername := headername header }
    romSettings := { g.romSettings with md5 := hexString (md5 rom), sidmaduration := 0x900 } }

/-- The settings after the patches. -/
def afterPatches (lutId : UInt64) (g : Globals) : Globals :=
  let g := match lutCpop.lookup lutId with
    | some value => { g with countPerOp := value }
    | none => g
  let g := match lutSidmaduration.lookup lutId with
    | some value => { g with romSettings := { g.romSettings with sidmaduration := value } }
    | none => g
  let g := if frameDupe then { g with countPerOp := 1 } else g
  let g := { g with delaySi := 1 }
  let g := match lutDelaysi.lookup lutId with
    | some value => { g with delaySi := value }
    | none => g
  { g with romParams := { g.romParams with specialRom := specialRomOf g.romParams.headername } }

/-- `open_rom`. -/
def openRom (g : Globals) (image : Bytes) : M64Error × Globals :=
  if g.gRom.isSome then (.internal, g)
  else if !isValidRom image then (.inputInvalid, g)
  else
    let lutId := lutIdOf (headerOf (swapRom image))
    (.success,
      afterPatches frameDupe lutId (withoutPatch (patches lutId (beforeTables md5 g image))))

/-- `close_rom`. -/
def closeRom (g : Globals) : M64Error × Globals :=
  if g.gRom.isNone then (.invalidState, g)
  else (.success, { g with gRom := Option.none, memHasBeenBSwapped := false })

/-- A call of the frontend. -/
inductive Call where
  | romOpen (image : Bytes)
  | romClose
  deriving DecidableEq, Repr

/-- `CoreDoCommand` for a call; an image has at least 4096 bytes. -/
def coreDoCommand (g : Globals) : Call → M64Error × Globals
  | .romOpen image =>
    if g.gRom.isSome then (.invalidState, g)
    else if image.length < 4096 then (.inputAssert, g)
    else openRom md5 frameDupe g image
  | .romClose => closeRom g

def run (calls : List Call) (g : Globals) : Globals :=
  calls.foldl (fun g call => (coreDoCommand md5 frameDupe g call).2) g

end Calls

end ParallelN64.Rom
