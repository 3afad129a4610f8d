import ParallelN64.R4300.QueueImage
import ParallelN64.Savestate.Writer

/-!
# Loading a savestate

The reader compares the magic number, the version and the checksum of the ROM, and then
stores one field after the other. It is given the size of the buffer and never looks at it.
-/

namespace ParallelN64.Savestate

open R4300 ParallelN64.Core

def loadWord (store : Word → Machine → Machine) : LoadStep Machine := .data 4 store

def loadWords {ρ : Type} (store : ρ → Word → Machine → Machine) (order : List ρ) :
    List (LoadStep Machine) :=
  order.map fun r => .data 4 (store r)

def onDevice (store : Device → Device) (s : Machine) : Machine := { s with device := store s.device }

def onAi (store : AiController → AiController) : Machine → Machine :=
  onDevice fun d => { d with ai := store d.ai }

def onVi (store : ViController → ViController) : Machine → Machine :=
  onDevice fun d => { d with vi := store d.vi }

def onTlb (i : Fin 32) (store : TlbEntry → TlbEntry) (s : Machine) : Machine :=
  { s with tlb := Function.update s.tlb i (store (s.tlb i)) }

def loadRdram : List (LoadStep Machine) :=
  loadWords (fun r v s => { s with rdramRegs := Function.update s.rdramRegs r v })
    [.config, .deviceId, .delay, .mode, .refInterval, .refRow, .rasInterval, .minInterval,
      .addrSelect, .deviceManuf]

def loadMi : List (LoadStep Machine) :=
  .skip 4 :: loadWord (fun v => onDevice fun d => d.setMi .initMode v) :: .skip 4 ::
    loadWords (fun r v => onDevice fun d => d.setMi r v) [.version, .intr, .intrMask] ++
    [.skip 4, .skip 8]

def loadPi : List (LoadStep Machine) :=
  loadWords (fun r v => onDevice fun d => d.setPi r v)
    [.dramAddr, .cartAddr, .rdLen, .wrLen, .status,
      .bsdDom1Lat, .bsdDom1Pwd, .bsdDom1Pgs, .bsdDom1Rls,
      .bsdDom2Lat, .bsdDom2Pwd, .bsdDom2Pgs, .bsdDom2Rls]

def loadSp : List (LoadStep Machine) :=
  loadWords (fun r v => onDevice fun d => d.setSp r v) [.memAddr, .dramAddr, .rdLen, .wrLen] ++
    .skip 4 :: loadWord (fun v => onDevice fun d => d.setSp .status v) :: .skip 16 ::
    loadWords (fun r v => onDevice fun d => d.setSp r v) [.dmaFull, .dmaBusy, .semaphore] ++
    loadWords (fun r v => onDevice fun d =>
      { d with sp := { d.sp with regs2 := Function.update d.sp.regs2 r v } }) [.pc, .ibist]

def loadSi : List (LoadStep Machine) :=
  loadWords (fun r v => onDevice fun d => d.setSi r v)
    [.dramAddr, .pifAddrRd64b, .pifAddrWr64b, .status]

def loadVi : List (LoadStep Machine) :=
  loadWords (fun r v => onDevice fun d => d.setVi r v)
    [.status, .origin, .width, .vIntr, .current, .burst, .vSync, .hSync, .leap, .hStart, .vStart,
      .vBurst, .xScale, .yScale] ++
    [loadWord fun v => onVi fun vi => { vi with delay := v }]

def loadRi : List (LoadStep Machine) :=
  loadWords (fun r v s => { s with ri := Function.update s.ri r v })
    [.mode, .config, .currentLoad, .select, .refresh, .latency, .error, .werror]

/-- The addresses of the audio transfers are not in the file; both become that of the
register. -/
def loadAi : List (LoadStep Machine) :=
  loadWords (fun r v => onDevice fun d => d.setAi r v)
    [.dramAddr, .len, .control, .status, .dacRate, .bitRate] ++
    [loadWord fun v => onAi fun ai => { ai with fifo1 := { ai.fifo1 with duration := v } },
      loadWord fun v => onAi fun ai => { ai with fifo1 := { ai.fifo1 with length := v } },
      loadWord fun v => onAi fun ai => { ai with fifo0 := { ai.fifo0 with duration := v } },
      loadWord fun v => onAi fun ai => { ai with fifo0 := { ai.fifo0 with length := v } },
      loadWord fun v => onAi fun ai => { ai with lastRead := v },
      .act (onAi fun ai => { ai with
        fifo0 := { ai.fifo0 with address := ai.regs .dramAddr }
        fifo1 := { ai.fifo1 with address := ai.regs .dramAddr }
        samplesFormatChanged := true })]

def loadDp : List (LoadStep Machine) :=
  loadWords (fun r v => onDevice fun d => d.setDpc r v) [.start, .endAddr, .current] ++
    .skip 4 :: loadWord (fun v => onDevice fun d => d.setDpc .status v) :: .skip 12 ::
    loadWords (fun r v => onDevice fun d => d.setDpc r v) [.clock, .bufBusy, .pipeBusy, .tmem] ++
    loadWords (fun r v => onDevice fun d =>
      { d with dp := { d.dp with dpsRegs := Function.update d.dp.dpsRegs r v } })
      [.tbist, .testMode, .bufTestAddr, .bufTestData]

def loadMemories : List (LoadStep Machine) :=
  [.array 4 rdramWords fun v s => { s with dram := v },
    .array 4 spMemWords fun v s => { s with spMem := v },
    .array 1 pifRamSize fun v s => { s with pifRam := v }]

def loadFlashram : List (LoadStep Machine) :=
  [loadWord fun v s => { s with useFlashram := v },
    loadWord fun v s => { s with flashram := { s.flashram with mode := v } },
    .data 8 fun v s => { s with flashram := { s.flashram with status := v } },
    loadWord fun v s => { s with flashram := { s.flashram with eraseOffset := v } },
    loadWord fun v s => { s with flashram := { s.flashram with writePointer := v } }]

def loadTlbLut : List (LoadStep Machine) :=
  [.array 4 tlbLutSize fun v s => { s with tlbLutR := v },
    .array 4 tlbLutSize fun v s => { s with tlbLutW := v }]

/-- `set_fpr_pointers`. -/
def Machine.setFprPointers (s : Machine) (newStatus : Word) : Machine :=
  { s with fprPointers := newStatus &&& cp0StatusFR ≠ 0#32 }

/-- The general registers and those of coprocessor 0. -/
def loadRegs : List (LoadStep Machine) :=
  [loadWord fun v s => { s with llbit := v }, .array 8 32 fun v s => { s with regs := v },
    .array 4 32 fun v => onDevice fun d => { d with cp0 := fun r => v (cp0Index r) },
    .act fun s => s.setFprPointers s.device.status,
    .data 8 fun v s => { s with lo := v }, .data 8 fun v s => { s with hi := v }]

def loadCp1 : List (LoadStep Machine) :=
  [.array 8 32 fun v s => { s with cp1 := v }, .act Machine.ofFormat]

def loadFcr : List (LoadStep Machine) :=
  [loadWord fun v s => { s with fcr0 := v }, loadWord fun v s => { s with fcr31 := v }]

/-- One entry of the translation buffer. -/
def loadTlbEntry (i : Fin 32) : List (LoadStep Machine) :=
  [.data 2 fun v => onTlb i fun e => { e with mask := v }, .skip 2,
    loadWord fun v => onTlb i fun e => { e with vpn2 := v },
    .data 1 fun v => onTlb i fun e => { e with g := v },
    .data 1 fun v => onTlb i fun e => { e with asid := v }, .skip 2,
    loadWord fun v => onTlb i fun e => { e with pfnEven := v },
    .data 1 fun v => onTlb i fun e => { e with cEven := v },
    .data 1 fun v => onTlb i fun e => { e with dEven := v },
    .data 1 fun v => onTlb i fun e => { e with vEven := v }, .skip 1,
    loadWord fun v => onTlb i fun e => { e with pfnOdd := v },
    .data 1 fun v => onTlb i fun e => { e with cOdd := v },
    .data 1 fun v => onTlb i fun e => { e with dOdd := v },
    .data 1 fun v => onTlb i fun e => { e with vOdd := v },
    .data 1 fun v => onTlb i fun e => { e with r := v },
    loadWord fun v => onTlb i fun e => { e with startEven := v },
    loadWord fun v => onTlb i fun e => { e with endEven := v },
    loadWord fun v => onTlb i fun e => { e with physEven := v },
    loadWord fun v => onTlb i fun e => { e with startOdd := v },
    loadWord fun v => onTlb i fun e => { e with endOdd := v },
    loadWord fun v => onTlb i fun e => { e with physOdd := v }]

def loadTlb : List (LoadStep Machine) := (List.finRange 32).flatMap loadTlbEntry

/-- The program counter, the cache of the interrupt code and the video schedule. -/
def loadPc : List (LoadStep Machine) :=
  [loadWord fun v => onDevice fun d => { d with pc := v },
    loadWord fun v => onDevice fun d => d.setNextInterrupt v,
    loadWord fun v => onVi fun vi => { vi with nextVi := v },
    loadWord fun v => onVi fun vi => { vi with field := v }]

/-- All fields behind the header, but for the event queue. -/
def loadFields : List (LoadStep Machine) :=
  loadRdram ++ loadMi ++ loadPi ++ loadSp ++ loadSi ++ loadVi ++ loadRi ++ loadAi ++ loadDp ++
    loadMemories ++ loadFlashram ++ loadTlbLut ++ loadRegs ++
    (loadCp1 ++ (loadFcr ++ loadTlb ++ loadPc))

/-- What a call of the loader leaves: its result, unless the queue reader runs out of its
buffer, and one past the last byte that was read. -/
structure LoadRun where
  result : Option Bool
  machine : Machine
  reach : Nat

/-- Where `strncmp` finds the first difference from the magic number. -/
def magicDifference (data : Memory) : Option (Fin 8) :=
  (List.finRange 8).find? fun k => (data k).toBitVec ≠ savestateMagic k

/-- The version that the loader reads. -/
def readVersion (data : Memory) : Word :=
  let version := (data 8).toBitVec.setWidth 32
  let version := (version <<< 8) ||| (data 9).toBitVec.setWidth 32
  let version := (version <<< 8) ||| (data 10).toBitVec.setWidth 32
  (version <<< 8) ||| (data 11).toBitVec.setWidth 32

def Machine.sameMd5 (s : Machine) (data : Memory) : Bool :=
  decide (∀ i : Fin md5Length, (data (12 + i)).toBitVec = s.md5 i)

def headerSize : Nat := 44

def queueWords : Nat := 1024 / 4

/-- `savestates_load_m64p`. -/
def Machine.savestatesLoadM64p (s : Machine) (data : Memory) (_size : UInt64) : LoadRun :=
  match magicDifference data with
  | some k => ⟨some false, s, k + 1⟩
  | none =>
    if readVersion data ≠ 0x00010000#32 then ⟨some false, s, 12⟩
    else if !s.sameMd5 data then ⟨some false, s, headerSize⟩
    else
      let (s, curr) := load data loadFields (s, headerSize)
      let queue := List.ofFn (decodeArray data curr 4 queueWords)
      match s.device.interrupts.loadEventqueueInfos s.device.count queue with
      | none => ⟨none, s, curr + queueWords * 4⟩
      | some interrupts =>
        let d := { s.device with interrupts, lastAddr := s.device.pc }
        ⟨some true, { s with device := d }, curr + queueWords * 4⟩

end ParallelN64.Savestate
