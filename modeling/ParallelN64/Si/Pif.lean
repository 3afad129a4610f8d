import ParallelN64.Si.Paks

/-!
# Commands in the memory of the serial interface

The 64 bytes of memory hold one command for each channel: the bytes to send, the bytes to
receive, and the data. Two loops walk along them, one when they are written and one when
they are read. Lengths move the loops on, but the handlers use as many bytes as the command
has by itself.
-/

namespace ParallelN64.Si

open ParallelN64.Core

/-- `struct pif` with the memories behind it. -/
structure Pif where
  buffers : Buffers PifRegion
  transferpak : Fin 4 → Transferpak
  cicChallenge : Bool

def ram (i : Nat) : Place PifRegion := ⟨.ram, i⟩

def Pif.byte (s : Pif) (i : Nat) : UInt8 := s.buffers.bytes (ram i)

def Pif.moves (s : Pif) (ms : Moves) : Pif := { s with buffers := s.buffers.moves ms }

section Handlers

variable (cfg : PifConfig) (s : Pif) (channel : Fin 4) (i : Nat)

/-- The steps of `pak_data_crc`: one bit, and one byte. -/
def crcBit (crc : UInt8) (bit : Bool) : UInt8 :=
  (crc <<< 1 ||| if bit then 1 else 0) ^^^ if crc &&& 0x80 ≠ 0 then 0x85 else 0x00

def crcByte (crc byte : UInt8) : UInt8 :=
  [0x80, 0x40, 0x20, 0x10, 0x08, 0x04, 0x02, 0x01].foldl
    (fun crc mask => crcBit crc (byte &&& mask ≠ 0)) crc

/-- `pak_data_crc`, which ends with a byte of zeros. -/
def pakDataCrc (data : Nat → UInt8) : UInt8 :=
  crcByte ((List.range pakChunkSize).foldl (fun crc k => crcByte crc (data k)) 0) 0

def crcMoves (b : Buffers PifRegion) : Moves :=
  loop pakChunkSize (fun k => look (ram (i + 5 + k))) ++
    [put (ram (i + 5 + pakChunkSize)) (pakDataCrc fun k => b.bytes (ram (i + 5 + k)))]

def errorMoves (bit : UInt8) : Moves := [look (ram (i + 1)), put (ram (i + 1)) (s.byte (i + 1) ||| bit)]

/-- `controller_status_command`. -/
def controllerStatus : Moves :=
  look (ram (i + 1)) ::
    if s.byte (i + 1) &&& 0x80 ≠ 0 then []
    else
      match cfg.connected channel with
      | .none => errorMoves s i 0x80
      | connected =>
        (match connected with
          | .joypad => [put (ram (i + 3)) 0x05]
          | .mouse => [put (ram (i + 3)) 0x02]
          | _ => []) ++
        [put (ram (i + 4)) 0x00,
          put (ram (i + 5)) (if cfg.pak channel = .none then 0 else 1)]

/-- `controller_read_buttons_command`. -/
def controllerReadButtons : Moves :=
  if cfg.connected channel = .none then errorMoves s i 0x80 else []

def pakAddress : BitVec 32 :=
  (s.byte (i + 3)).toBitVec.setWidth 32 <<< 8 |||
    (s.byte (i + 4) &&& 0xE0).toBitVec.setWidth 32

/-- A command that moves a block of a pak, with its checksum. -/
def pakCommand (block : BitVec 32 → Moves × Transferpak) : Moves × Transferpak :=
  if cfg.connected channel = .none then (errorMoves s i 0x80, s.transferpak channel)
  else
    let (ms, t) := block (pakAddress s i)
    (look (ram (i + 3)) :: look (ram (i + 4)) :: (ms ++ crcMoves i (s.buffers.moves ms)), t)

/-- `controller_read_pak_command`. -/
def controllerReadPak : Moves × Transferpak :=
  pakCommand cfg s channel i fun address =>
    pakRead cfg (s.transferpak channel) channel address (ram (i + 5))

/-- `controller_write_pak_command`. -/
def controllerWritePak : Moves × Transferpak :=
  pakCommand cfg s channel i fun address =>
    pakWrite cfg (s.transferpak channel) channel address (ram (i + 5)) (s.byte (i + 5))

/-- `process_controller_command`. -/
def controllerCommand : Moves × Transferpak :=
  match (s.byte (i + 2)).toNat with
  | 0x00 | 0xFF => (controllerStatus cfg s channel i, s.transferpak channel)
  | 0x01 => (controllerReadButtons cfg s channel i, s.transferpak channel)
  | 0x02 => controllerReadPak cfg s channel i
  | 0x03 => controllerWritePak cfg s channel i
  | _ => ([], s.transferpak channel)

/-- `read_controller`: the buttons are read late. -/
def readController : Moves :=
  if s.byte (i + 2) = 0x01 ∧ cfg.connected channel ≠ .none then
    loop 4 fun k => put (ram (i + 3 + k)) ⟨(cfg.input channel >>> (8 * k)).setWidth 8⟩
  else []

/-- `eeprom_status_command`. A wrong size is answered by as many bytes as it asks for. -/
def eepromStatus : Moves :=
  let size := s.byte (i + 1)
  let low : UInt8 := ⟨cfg.eepromId.setWidth 8⟩
  let high : UInt8 := ⟨(cfg.eepromId >>> 8).setWidth 8⟩
  look (ram (i + 1)) ::
    if size ≠ 3 then
      errorMoves s i 0x40 ++ (if 0 < size &&& 3 then [put (ram (i + 3)) low] else []) ++
        (if 1 < size &&& 3 then [put (ram (i + 4)) high] else []) ++
        (if 2 < size &&& 3 then [put (ram (i + 5)) 0] else [])
    else [put (ram (i + 3)) low, put (ram (i + 4)) high, put (ram (i + 5)) 0]

def eepromAddress : Nat := (s.byte (i + 3)).toNat * 8

/-- `eeprom_read_command`. -/
def eepromRead : Moves :=
  look (ram (i + 3)) ::
    if eepromAddress s i < cfg.eepromSize then
      copy 8 (ram (i + 4)) ⟨.eeprom, eepromAddress s i⟩
    else []

/-- `eeprom_write_command`. -/
def eepromWrite : Moves :=
  look (ram (i + 3)) ::
    if eepromAddress s i < cfg.eepromSize then
      copy 8 ⟨.eeprom, eepromAddress s i⟩ (ram (i + 4))
    else []

/-- `byte2bcd`. -/
def byte2bcd (n : Nat) : UInt8 := UInt8.ofNat (n % 100 / 10 * 16 + n % 100 % 10)

/-- `af_rtc_status_command`. -/
def afRtcStatus : Moves :=
  [put (ram (i + 3)) 0x00, put (ram (i + 4)) 0x10, put (ram (i + 5)) 0x00]

/-- `af_rtc_read_command`. -/
def afRtcRead : Moves :=
  look (ram (i + 3)) ::
    match (s.byte (i + 3)).toNat with
    | 0 => [put (ram (i + 4)) 0x00, put (ram (i + 5)) 0x02, put (ram (i + 12)) 0x00]
    | 2 =>
      [put (ram (i + 4)) (byte2bcd cfg.time.sec), put (ram (i + 5)) (byte2bcd cfg.time.min),
        put (ram (i + 6)) (0x80 + byte2bcd cfg.time.hour),
        put (ram (i + 7)) (byte2bcd cfg.time.mday), put (ram (i + 8)) (byte2bcd cfg.time.wday),
        put (ram (i + 9)) (byte2bcd (cfg.time.mon + 1)),
        put (ram (i + 10)) (byte2bcd cfg.time.year),
        put (ram (i + 11)) (byte2bcd (cfg.time.year / 100)), put (ram (i + 12)) 0x00]
    | _ => []

/-- `process_cart_command`. -/
def cartCommand : Moves :=
  match (s.byte (i + 2)).toNat with
  | 0x00 => eepromStatus cfg s i
  | 0x04 => eepromRead cfg s i
  | 0x05 => eepromWrite cfg s i
  | 0x06 => afRtcStatus i
  | 0x07 => afRtcRead cfg s i
  | _ => []

/-- What a command does when it is written. -/
def writeCommand (channel : Nat) : Moves × (Fin 4 → Transferpak) :=
  if h : channel < 4 then
    let (ms, t) := controllerCommand cfg s ⟨channel, h⟩ i
    (look (ram (i + 2)) :: ms, Function.update s.transferpak ⟨channel, h⟩ t)
  else if channel = 4 then (look (ram (i + 2)) :: cartCommand cfg s i, s.transferpak)
  else ([], s.transferpak)

def readCommand (channel : Nat) : Moves × (Fin 4 → Transferpak) :=
  if h : channel < 4 then
    (look (ram (i + 2)) :: readController cfg s ⟨channel, h⟩ i, s.transferpak)
  else ([], s.transferpak)

end Handlers

/-- A place in a loop. -/
structure Cursor where
  pif : Pif
  index : Nat
  channel : Nat

def startsCommand (byte : UInt8) : Bool := byte ≠ 0x00 && byte &&& 0xC0 = 0

/-- What a loop does with commands, and which bytes it skips. -/
structure Walk where
  skipped : UInt8 → Bool
  command : Pif → Nat → Nat → Moves × (Fin 4 → Transferpak)

/-- What one turn moves, and the transfer paks behind it. -/
def Walk.turn (w : Walk) (c : Cursor) : Moves × (Fin 4 → Transferpak) :=
  let byte := c.pif.byte c.index
  if startsCommand byte then
    let (ms, t) := w.command c.pif c.index c.channel
    (look (ram c.index) :: ms ++ [look (ram c.index), look (ram (c.index + 1))], t)
  else ([look (ram c.index)], c.pif.transferpak)

/-- One turn of a loop. -/
def Walk.step (w : Walk) (c : Cursor) : Cursor :=
  let byte := c.pif.byte c.index
  let (ms, transferpak) := w.turn c
  let pif := { c.pif.moves ms with transferpak }
  if byte = 0x00 then
    ⟨pif, (if 6 < c.channel + 1 then 0x40 else c.index) + 1, c.channel + 1⟩
  else if w.skipped byte then ⟨pif, c.index + 1, c.channel⟩
  else if startsCommand byte then
    ⟨pif, c.index + ((pif.byte c.index).toNat + (pif.byte (c.index + 1) &&& 0x3F).toNat + 1) + 1,
      c.channel + 1⟩
  else ⟨pif, 0x40 + 1, c.channel⟩

def Walk.run (w : Walk) : Nat → Cursor → Option Pif
  | 0, c => if c.index < 0x40 then none else some c.pif
  | turns + 1, c => if c.index < 0x40 then w.run turns (w.step c) else some c.pif

def writeWalk (cfg : PifConfig) : Walk where
  skipped byte := byte = 0xFF
  command := writeCommand cfg

def readWalk (cfg : PifConfig) : Walk where
  skipped byte := byte = 0xFF || byte = 0xB4 || byte = 0x56 || byte = 0xB8
  command := readCommand cfg

/-- The tables of `n64_cic_nus_6105`. -/
def lut0 : List Nat := [4, 7, 10, 7, 14, 5, 14, 1, 12, 15, 8, 15, 6, 3, 6, 9]
def lut1 : List Nat := [4, 1, 10, 7, 14, 5, 14, 1, 12, 9, 8, 5, 6, 3, 12, 9]

/-- `n64_cic_nus_6105`: one answer to each nibble, by a key and one of two tables. -/
def cicResponse : List Nat → Nat → Bool → List Nat
  | [], _, _ => []
  | challenge :: rest, key, second =>
    let response := (key + 5 * challenge) % 16
    let key := (if second then lut1 else lut0).getD response 0
    let sgn := response / 8
    let mag := (if sgn = 1 then 15 - response else response) % 8
    let mod := if mag % 3 = 1 then sgn else 1 - sgn
    let mod := if second && (response = 1 || response = 9) then 1 else mod
    let mod := if second && (response = 11 || response = 14) then 0 else mod
    response :: cicResponse rest key (mod = 1)

def challengeNibbles (s : Pif) : List Nat :=
  (List.range 15).flatMap fun k => [(s.byte (48 + k)).toNat / 16, (s.byte (48 + k)).toNat % 16]

/-- The answer to a challenge. -/
def challengeMoves (s : Pif) : Moves :=
  let response := cicResponse (challengeNibbles s) 11 false
  loop 15 (fun k => look (ram (48 + k))) ++ [put (ram 46) 0, put (ram 47) 0] ++
    loop 15 (fun k => put (ram (48 + k))
      (UInt8.ofNat (response.getD (2 * k) 0 * 16 + response.getD (2 * k + 1) 0))) ++
    [put (ram 63) 0]

/-- `update_pif_write`. -/
def updatePifWrite (cfg : PifConfig) (s : Pif) : Option Pif :=
  let s := { s with cicChallenge := false }.moves [look (ram 0x3F)]
  if 1 < s.byte 0x3F then
    match (s.byte 0x3F).toNat with
    | 0x02 => some { s.moves (challengeMoves s) with cicChallenge := true }
    | 0x08 => some (s.moves [put (ram 0x3F) 0])
    | _ => some s
  else (writeWalk cfg).run 0x40 ⟨s, 0, 0⟩

/-- `update_pif_read`. -/
def updatePifRead (cfg : PifConfig) (s : Pif) : Option Pif :=
  if s.cicChallenge then some s else (readWalk cfg).run 0x40 ⟨s, 0, 0⟩

end ParallelN64.Si
