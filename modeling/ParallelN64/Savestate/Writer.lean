import ParallelN64.Savestate.Machine

/-!
# Writing a savestate

The writer puts one field after the other and returns at the first one that does not fit.
In 32-bit mode the floating point registers are unpacked for their array and packed again
behind it.
-/

namespace ParallelN64.Savestate

open R4300 ParallelN64.Core

/-- The largest `size_t`. -/
def sizeMax : Nat := 2 ^ 64 - 1

/-- `savestate_writer`: without memory only the offset moves. -/
structure SavestateWriter where
  data : Option Memory
  offset : Nat
  capacity : Nat

/-- `savestate_writer_put_array`. -/
def SavestateWriter.putArray (writer : SavestateWriter) (typeSize count : Nat) (src : Bytes) :
    Option SavestateWriter :=
  if count ≠ 0 ∧ sizeMax / count < typeSize then none
  else if writer.capacity < writer.offset ∨ writer.capacity - writer.offset < typeSize * count then
    none
  else some { writer with
    data := writer.data.map fun mem => writeBytes mem writer.offset src
    offset := writer.offset + typeSize * count }

def word (value : Machine → Word) : SaveStep Machine := .data 4 value

def words {ρ : Type} (bank : Machine → ρ → Word) (order : List ρ) : List (SaveStep Machine) :=
  order.map fun r => .data 4 fun s => bank s r

def flags (reg : Machine → Word) (masks : List Word) : List (SaveStep Machine) :=
  masks.map fun mask => .data 1 fun s => if reg s &&& mask ≠ 0#32 then 1#8 else 0#8

def padding (bytes : Nat) : SaveStep Machine := .data bytes fun _ => 0#(8 * bytes)

/-- `savestate_magic`. -/
def savestateMagic : Fin 8 → BitVec 8 :=
  ![0x4D#8, 0x36#8, 0x34#8, 0x2B#8, 0x53#8, 0x41#8, 0x56#8, 0x45#8]

/-- `savestate_latest_version`. -/
def savestateLatestVersion : Word := 0x00010000#32

def versionBytes : Fin 4 → BitVec 8 :=
  ![(savestateLatestVersion >>> 24).setWidth 8, (savestateLatestVersion >>> 16).setWidth 8,
    (savestateLatestVersion >>> 8).setWidth 8, savestateLatestVersion.setWidth 8]

def saveHeader : List (SaveStep Machine) :=
  [.array 1 8 fun _ => savestateMagic, .array 1 4 fun _ => versionBytes,
    .array 1 md5Length Machine.md5]

def saveRdram : List (SaveStep Machine) :=
  words Machine.rdramRegs [.config, .deviceId, .delay, .mode, .refInterval, .refRow, .rasInterval,
    .minInterval, .addrSelect, .deviceManuf]

def saveMi : List (SaveStep Machine) :=
  padding 4 :: word (fun s => s.device.mi .initMode) ::
    .data 1 (fun s => (s.device.mi .initMode &&& 0x7F#32).setWidth 8) ::
    flags (fun s => s.device.mi .initMode) [0x80#32, 0x100#32, 0x200#32] ++
    words (fun s => s.device.mi) [.version, .intr, .intrMask] ++
    padding 4 ::
    flags (fun s => s.device.mi .intrMask) [0x1#32, 0x2#32, 0x4#32, 0x8#32, 0x10#32, 0x20#32] ++
    [padding 2]

def savePi : List (SaveStep Machine) :=
  words (fun s => s.device.pi) [.dramAddr, .cartAddr, .rdLen, .wrLen, .status,
    .bsdDom1Lat, .bsdDom1Pwd, .bsdDom1Pgs, .bsdDom1Rls,
    .bsdDom1Lat, .bsdDom1Pwd, .bsdDom1Pgs, .bsdDom1Rls]

def saveSp : List (SaveStep Machine) :=
  words (fun s => s.device.sp.regs) [.memAddr, .dramAddr, .rdLen, .wrLen] ++
    padding 4 :: word (fun s => s.device.sp.regs .status) ::
    flags (fun s => s.device.sp.regs .status) [0x1#32, 0x2#32, 0x4#32, 0x8#32, 0x10#32, 0x20#32,
      0x40#32, 0x80#32, 0x100#32, 0x200#32, 0x400#32, 0x800#32, 0x1000#32, 0x2000#32, 0x4000#32] ++
    padding 1 :: words (fun s => s.device.sp.regs) [.dmaFull, .dmaBusy, .semaphore] ++
    words (fun s => s.device.sp.regs2) [.pc, .ibist]

def saveSi : List (SaveStep Machine) :=
  words (fun s => s.device.si) [.dramAddr, .pifAddrRd64b, .pifAddrWr64b, .status]

def saveVi : List (SaveStep Machine) :=
  words (fun s => s.device.vi.regs) [.status, .origin, .width, .vIntr, .current, .burst, .vSync,
    .hSync, .leap, .hStart, .vStart, .vBurst, .xScale, .yScale] ++
    [word fun s => s.device.vi.delay]

def saveRi : List (SaveStep Machine) :=
  words Machine.ri [.mode, .config, .currentLoad, .select, .refresh, .latency, .error, .werror]

def saveAi : List (SaveStep Machine) :=
  words (fun s => s.device.ai.regs) [.dramAddr, .len, .control, .status, .dacRate, .bitRate] ++
    [word fun s => s.device.ai.fifo1.duration, word fun s => s.device.ai.fifo1.length,
      word fun s => s.device.ai.fifo0.duration, word fun s => s.device.ai.fifo0.length,
      word fun s => s.device.ai.lastRead]

def saveDp : List (SaveStep Machine) :=
  words (fun s => s.device.dp.dpcRegs) [.start, .endAddr, .current] ++
    padding 4 :: word (fun s => s.device.dp.dpcRegs .status) ::
    flags (fun s => s.device.dp.dpcRegs .status) [0x1#32, 0x2#32, 0x4#32, 0x8#32, 0x10#32, 0x20#32,
      0x40#32, 0x80#32, 0x100#32, 0x200#32, 0x400#32] ++
    padding 1 :: words (fun s => s.device.dp.dpcRegs) [.clock, .bufBusy, .pipeBusy, .tmem] ++
    words (fun s => s.device.dp.dpsRegs) [.tbist, .testMode, .bufTestAddr, .bufTestData]

def saveMemories : List (SaveStep Machine) :=
  [.array 4 rdramWords Machine.dram, .array 4 spMemWords Machine.spMem,
    .array 1 pifRamSize Machine.pifRam]

def saveFlashram : List (SaveStep Machine) :=
  [word Machine.useFlashram, word fun s => s.flashram.mode, .data 8 fun s => s.flashram.status,
    word fun s => s.flashram.eraseOffset, word fun s => s.flashram.writePointer]

def saveTlbLut : List (SaveStep Machine) :=
  [.array 4 tlbLutSize Machine.tlbLutR, .array 4 tlbLutSize Machine.tlbLutW]

def saveRegs : List (SaveStep Machine) :=
  [word Machine.llbit, .array 8 32 Machine.regs, .array 4 32 fun s i => s.device.cp0 (cp0At i),
    .data 8 Machine.lo, .data 8 Machine.hi]

/-- Unpack the floating point registers, unless they are in 64-bit mode already. -/
def Machine.toFormat (s : Machine) : Machine :=
  if s.device.status &&& 0x04000000#32 = 0#32 then
    { s with cp1 := shuffleFprData 0#32 0x04000000#32 s.cp1 }
  else s

/-- Pack the floating point registers again, unless they are in 64-bit mode. -/
def Machine.ofFormat (s : Machine) : Machine :=
  if s.device.status &&& 0x04000000#32 = 0#32 then
    { s with cp1 := shuffleFprData 0x04000000#32 0#32 s.cp1 }
  else s

def saveCp1 : List (SaveStep Machine) :=
  [.act Machine.toFormat, .array 8 32 Machine.cp1, .act Machine.ofFormat]

def saveFcr : List (SaveStep Machine) := [word Machine.fcr0, word Machine.fcr31]

/-- One entry of the translation buffer. -/
def saveTlbEntry (i : Fin 32) : List (SaveStep Machine) :=
  [.data 2 fun s => (s.tlb i).mask, padding 2,
    word fun s => (s.tlb i).vpn2, .data 1 fun s => (s.tlb i).g, .data 1 fun s => (s.tlb i).asid,
    padding 2,
    word fun s => (s.tlb i).pfnEven, .data 1 fun s => (s.tlb i).cEven,
    .data 1 fun s => (s.tlb i).dEven, .data 1 fun s => (s.tlb i).vEven, padding 1,
    word fun s => (s.tlb i).pfnOdd, .data 1 fun s => (s.tlb i).cOdd,
    .data 1 fun s => (s.tlb i).dOdd, .data 1 fun s => (s.tlb i).vOdd, .data 1 fun s => (s.tlb i).r,
    word fun s => (s.tlb i).startEven, word fun s => (s.tlb i).endEven,
    word fun s => (s.tlb i).physEven, word fun s => (s.tlb i).startOdd,
    word fun s => (s.tlb i).endOdd, word fun s => (s.tlb i).physOdd]

def saveTlb : List (SaveStep Machine) := (List.finRange 32).flatMap saveTlbEntry

def savePc : List (SaveStep Machine) :=
  [word fun s => s.device.pc, word fun s => s.device.interrupts.nextInterrupt,
    word fun s => s.device.vi.nextVi, word fun s => s.device.vi.field]

def saveFront : List (SaveStep Machine) :=
  saveHeader ++ saveRdram ++ saveMi ++ savePi ++ saveSp ++ saveSi ++ saveVi ++ saveRi ++ saveAi ++
    saveDp ++ saveMemories ++ saveFlashram ++ saveTlbLut ++ saveRegs

def saveBack : List (SaveStep Machine) := saveFcr ++ saveTlb ++ savePc

def saveQueue (queue : List Word) : List (SaveStep Machine) :=
  [.array 4 queue.length fun _ i => queue.get i]

/-- What a call of the writer leaves. -/
structure SaveRun where
  ok : Bool
  machine : Machine
  writer : SavestateWriter

/-- Put the fields in turn and return 0 at the first one that does not fit. -/
def writeSteps : List (SaveStep Machine) → Machine → SavestateWriter → SaveRun
  | [], s, writer => ⟨true, s, writer⟩
  | .array width count source :: rest, s, writer =>
    match writer.putArray width count (encodeArray width (source s)) with
    | none => ⟨false, s, writer⟩
    | some writer => writeSteps rest s writer
  | .act change :: rest, s, writer => writeSteps rest (change s) writer

/-- `savestates_write_m64p`. The event queue is copied before anything is put. -/
def Machine.savestatesWriteM64p (s : Machine) (writer : SavestateWriter) : SaveRun :=
  writeSteps (saveFront ++ (saveCp1 ++ (saveBack ++
    saveQueue s.device.interrupts.saveEventqueueInfos))) s writer

/-- `savestates_get_m64p_size`: the size, or 0, and the machine. -/
def Machine.savestatesGetM64pSize (s : Machine) : Nat × Machine :=
  let run := s.savestatesWriteM64p ⟨none, 0, sizeMax⟩
  (if run.ok then run.writer.offset else 0, run.machine)

/-- `savestates_save_m64p`. -/
def Machine.savestatesSaveM64p (s : Machine) (data : Option Memory) (size : UInt64) : SaveRun :=
  match data with
  | none => ⟨false, s, ⟨none, 0, size.toNat⟩⟩
  | some mem => s.savestatesWriteM64p ⟨some mem, 0, size.toNat⟩

end ParallelN64.Savestate
