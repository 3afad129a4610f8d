import Mathlib.Data.Fin.VecNotation
import ParallelN64.Pi.Flash

/-!
# The disk drive

The buffer manager of the disk drive moves one sector at a time between the disk image and the
sector buffer. It goes on whenever a transfer of the peripheral interface with one of the drive's
buffers has ended.
-/

namespace ParallelN64.Dd

open ParallelN64.Core R4300 ParallelN64.Pi

/-- `SECTORS_PER_BLOCK` and `BLOCKS_PER_TRACK`. -/
def sectorsPerBlock : Nat := 85
def blocksPerTrack : Nat := 2

/-- `ddZoneSecSize`: the sizes of the sectors of each zone, of both heads. -/
def ddZoneSecSize : Fin 16 → Nat :=
  ![232, 216, 208, 192, 176, 160, 144, 128, 216, 208, 192, 176, 160, 144, 128, 112]

/-- `ddStartOffset`: where each zone starts in the image. -/
def ddStartOffset : Fin 16 → Nat :=
  ![0x0, 0x5F15E0, 0xB79D00, 0x10801A0, 0x1523720, 0x1963D80, 0x1D414C0, 0x20BBCE0, 0x23196E0,
    0x28A1E00, 0x2DF5DC0, 0x3299340, 0x36D99A0, 0x3AB70E0, 0x3E31900, 0x4149200]

/-- The zone of a track, not counting the head, and the track's number in it. -/
def zoneAndOffset (track : Nat) : Fin 8 × Nat :=
  if 0x425 ≤ track then (7, track - 0x425)
  else if 0x390 ≤ track then (6, track - 0x390)
  else if 0x2FB ≤ track then (5, track - 0x2FB)
  else if 0x266 ≤ track then (4, track - 0x266)
  else if 0x1D1 ≤ track then (3, track - 0x1D1)
  else if 0x13C ≤ track then (2, track - 0x13C)
  else if 0x9E ≤ track then (1, track - 0x9E)
  else (0, track)

/-- `dd_set_zone_and_track_offset`. -/
def setZoneAndTrackOffset (dd : DdController) : DdController :=
  let head := (dd.regs .curTk &&& 0x10000000#32) >>> 25
  let track := (dd.regs .curTk &&& 0x0FFF0000#32) >>> 16
  let (zone, trOff) := zoneAndOffset track.toNat
  let zone : Fin 16 := Fin.ofNat 16 (zone.val + head.toNat)
  { dd with
    zone
    trackOffset := BitVec.ofNat 32
      (ddStartOffset zone + trOff * ddZoneSecSize zone * sectorsPerBlock * blocksPerTrack) }

section Drive

variable (m : PiMachine)

/-- `HOST_SECBYTE`: the number of bytes of a sector, less one. -/
def secByte (dd : DdController) : Nat := (dd.regs .hostSecbyte >>> 16).toNat

def sectorOf (curSector : Word) : Word :=
  let sector := curSector >>> 16
  if 0x5A#32 ≤ sector then sector - 0x5A#32 else sector

def sectorOffset (dd : DdController) (sector : Word) : Word :=
  dd.trackOffset + BitVec.ofNat 32 (dd.curBlock.val * sectorsPerBlock * ddZoneSecSize dd.zone) +
    sector * BitVec.ofNat 32 (ddZoneSecSize dd.zone)

/-- `dd_write_sector`: the sector buffer goes to the sector before the current one. -/
def writeSectorMoves (dd : DdController) : List (Move Region) :=
  let offset := sectorOffset dd (sectorOf (dd.regs .curSector) - 1#32)
  loop (secByte dd + 1) fun i =>
    ⟨some ⟨.secBuf, i ^^^ 3⟩, some ⟨.disk, (offset + BitVec.ofNat 32 i).toNat⟩, 0⟩

/-- `dd_read_sector`: the current sector goes to the sector buffer. -/
def readSectorMoves (dd : DdController) : List (Move Region) :=
  let offset := sectorOffset dd (sectorOf (dd.regs .curSector))
  loop (secByte dd + 1) fun i =>
    ⟨some ⟨.disk, (offset + BitVec.ofNat 32 i).toNat⟩, some ⟨.secBuf, i ^^^ 3⟩, 0⟩

def setBits (dd : DdController) (reg : AsicReg) (bits : Word) : DdController :=
  dd.setReg reg (dd.regs reg ||| bits)

def clearBits (dd : DdController) (reg : AsicReg) (bits : Word) : DdController :=
  dd.setReg reg (dd.regs reg &&& ~~~bits)

def hasBits (dd : DdController) (reg : AsicReg) (bits : Word) : Bool := dd.regs reg &&& bits ≠ 0#32

/-- The step of the buffer manager in write mode: what it moves, the drive behind it, and the
next sector. -/
def updateBmWrite (dd : DdController) (sector : Word) :
    List (Move Region) × DdController × Word :=
  if sector < 85#32 then (writeSectorMoves dd, setBits dd .cmdStatus 0x40000000#32, sector + 1#32)
  else if sector < 86#32 then
    if hasBits dd .bmStatusCtl 0x01000000#32 then
      let dd := { dd with curBlock := 1 - dd.curBlock }
      (writeSectorMoves dd,
        setBits (clearBits dd .bmStatusCtl 0x01000000#32) .cmdStatus 0x40000000#32, 1#32)
    else ([], clearBits dd .bmStatusCtl 0x80000000#32, sector + 1#32)
  else ([], dd, sector)

/-- The step of the buffer manager in read mode. The first block of track 6 is not
readable. -/
def updateBmRead (dd : DdController) (sector : Word) :
    List (Move Region) × DdController × Word :=
  let curTrack := (dd.regs .curTk &&& 0x1FFF0000#32) >>> 16
  if curTrack = 6#32 ∧ dd.curBlock = 0 then
    ([], setBits (clearBits dd .cmdStatus 0x40000000#32) .bmStatusCtl 0x02000000#32, sector)
  else if sector < 85#32 then
    (readSectorMoves dd, setBits dd .cmdStatus 0x40000000#32, sector + 1#32)
  else if sector < 89#32 then
    let sector := sector + 1#32
    ([], if sector = 89#32 then setBits dd .cmdStatus 0x10000000#32 else dd, sector)
  else if sector = 89#32 then
    if hasBits dd .bmStatusCtl 0x01000000#32 then
      ([], clearBits { dd with curBlock := 1 - dd.curBlock } .bmStatusCtl 0x01000000#32, 0#32)
    else ([], clearBits dd .bmStatusCtl 0x80000000#32, sector)
  else ([], dd, sector)

/-- Put a changed drive into the machine. The control registers know whether the buffer
manager runs. -/
def withDrive (dd : DdController) : PiMachine :=
  { m with dd, device := { m.device with ddTransfer := hasBits dd .bmStatusCtl 0x80000000#32 } }

/-- `dd_update_bm`. -/
def ddUpdateBm : PiMachine × List Call :=
  if !hasBits m.dd .bmStatusCtl 0x80000000#32 then (m, [])
  else
    let sector := sectorOf (m.dd.regs .curSector)
    let dd := { m.dd with curBlock := if 0x5A#32 ≤ m.dd.regs .curSector >>> 16 then 1 else 0 }
    let (ms, dd, sector) := if dd.bmModeRead then updateBmRead dd sector else updateBmWrite dd sector
    let dd := dd.setReg .curSector
      ((sector + BitVec.ofNat 32 (0x5A * dd.curBlock.val)) <<< 16)
    (withDrive (m.moves ms) (setBits dd .cmdStatus 0x04000000#32), [.access .ddRaise])

/-- What the clock of the drive shows. -/
structure Clock where
  year : Nat
  month : Nat
  day : Nat
  hour : Nat
  min : Nat
  sec : Nat

/-- `byte2bcd`. -/
def byte2bcd (n : Nat) : Word := BitVec.ofNat 32 (n % 100 / 10 * 16 + n % 100 % 10)

def clockData (high low : Nat) : Word := byte2bcd high <<< 24 ||| byte2bcd low <<< 16

def seek (dd : DdController) (read : Bool) : DdController :=
  let dd := dd.setReg .curTk (dd.regs .data ||| 0x60000000#32)
  setZoneAndTrackOffset { clearBits dd .cmdStatus 0x00180000#32 with bmModeRead := read }

/-- The commands of the drive. -/
def ddCommand (dd : DdController) (command : Word) (clock : Clock) : DdController :=
  match command with
  | 0x01#32 => seek dd true
  | 0x02#32 => seek dd false
  | 0x08#32 => clearBits dd .cmdStatus 0x00010000#32
  | 0x09#32 => clearBits dd .cmdStatus 0x00400000#32
  | 0x12#32 => dd.setReg .data (clockData clock.year (clock.month + 1))
  | 0x13#32 => dd.setReg .data (clockData clock.day clock.hour)
  | 0x14#32 => dd.setReg .data (clockData clock.min clock.sec)
  | 0x1B#32 => dd.setReg .data 0#32
  | _ => dd

/-- A write of the buffer manager's register, up to its start. -/
def writeBmStatusCtl (dd : DdController) (value : Word) : DdController :=
  let dd := dd.setReg .curSector (value &&& 0x00FF0000#32)
  let dd := { dd with curBlock := if dd.regs .curSector >>> 16 < 0x5A#32 then 0 else 1 }
  let dd := if value &&& 0x01000000#32 ≠ 0#32 then clearBits dd .cmdStatus 0x02000000#32 else dd
  let dd := if value &&& 0x02000000#32 ≠ 0#32 then setBits dd .bmStatusCtl 0x01000000#32 else dd
  let dd := if value &&& 0x10000000#32 ≠ 0#32 then { dd with bmResetHold := true } else dd
  if value &&& 0x10000000#32 = 0#32 ∧ dd.bmResetHold then
    let dd := clearBits { dd with bmResetHold := false } .cmdStatus 0x5C000000#32
    { (dd.setReg .bmStatusCtl 0#32).setReg .curSector 0#32 with curBlock := 0 }
  else dd

/-- `write_dd_regs`. Without a drive nothing happens. -/
def writeDdRegs (cfg : PiConfig) (reg : AsicReg) (value : Word) (clock : Clock) :
    PiMachine × List Call :=
  let value := value &&& 0xFFFF0000#32
  if !cfg.dd then (m, [])
  else
    match reg with
    | .data => (withDrive m (m.dd.setReg .data value), [])
    | .bmStatusCtl =>
      let dd := writeBmStatusCtl m.dd value
      let calls := if dd.regs .cmdStatus &&& 0x06000000#32 = 0#32 then [.access .ddPiTest] else []
      if value &&& 0x80000000#32 ≠ 0#32 then
        let (m, started) := ddUpdateBm (withDrive m (setBits dd .bmStatusCtl 0x80000000#32))
        (m, calls ++ started)
      else (withDrive m dd, calls)
    | .cmdStatus =>
      let dd := ddCommand m.dd (value >>> 16) clock
      (withDrive m (setBits dd .cmdStatus 0x02000000#32), [.access .ddRaise])
    | .hardReset => (withDrive m (setBits m.dd .cmdStatus 0x00400000#32), [])
    | .hostSecbyte => (withDrive m (m.dd.setReg .hostSecbyte value), [])
    | _ => (m, [])

/-- `read_dd_regs`. Reading the status behind the last sector moves the buffer manager on. -/
def readDdRegs (reg : AsicReg) : PiMachine × List Call × Word :=
  let value := m.dd.regs reg
  if reg = .cmdStatus ∧ hasBits m.dd .cmdStatus 0x04000000#32 ∧
      85#32 < sectorOf (m.dd.regs .curSector) then
    let (m, calls) := ddUpdateBm (withDrive m (clearBits m.dd .cmdStatus 0x04000000#32))
    (m, .access .ddPiTest :: calls, value)
  else (m, [], value)

/-- `pi_end_of_dma_event`. -/
def piEndOfDmaEvent : PiMachine × List Call :=
  let m := { m with device := m.device.piEndOfDmaEvent.1 }
  if m.device.pi .cartAddr = 0x05000000#32 ∨ m.device.pi .cartAddr = 0x05000400#32 then
    let (m, calls) := ddUpdateBm m
    (m, .raiseRcp miIntrPI :: calls)
  else (m, [.raiseRcp miIntrPI])

end Drive

end ParallelN64.Dd
