import ParallelN64.R4300.Interrupt

/-!
# The devices that schedule events

Reads and writes of device registers, as far as they change control state, and what the
devices do when their events come due. Each gives the new state and the calls that follow.
Memory contents are left out.
-/

namespace ParallelN64.R4300

variable (cfg : Config) (d : Device)

def clearSet (w clearBit setBit bit reg : Word) : Word :=
  let reg := if w &&& clearBit ≠ 0#32 then reg &&& ~~~bit else reg
  if w &&& setBit ≠ 0#32 then reg ||| bit else reg

/-- `update_mi_init_mode`: the new register, and whether the DP interrupt is cleared. -/
def updateMiInitMode (reg w : Word) : Word × Bool :=
  let reg := (reg &&& ~~~0x7F#32) ||| (w &&& 0x7F#32)
  let reg := clearSet w 0x80#32 0x100#32 0x80#32 reg
  let reg := clearSet w 0x200#32 0x400#32 0x100#32 reg
  let reg := clearSet w 0x1000#32 0x2000#32 0x200#32 reg
  (reg, w &&& 0x800#32 ≠ 0#32)

/-- `update_mi_intr_mask`. -/
def updateMiIntrMask (reg w : Word) : Word :=
  let reg := clearSet w 0x1#32 0x2#32 miIntrSP reg
  let reg := clearSet w 0x4#32 0x8#32 miIntrSI reg
  let reg := clearSet w 0x10#32 0x20#32 miIntrAI reg
  let reg := clearSet w 0x40#32 0x80#32 miIntrVI reg
  let reg := clearSet w 0x100#32 0x200#32 miIntrPI reg
  clearSet w 0x400#32 0x800#32 miIntrDP reg

/-- `write_mi_regs` at the init mode register. -/
def Device.writeMiInitMode (value mask : Word) : Device :=
  let update := updateMiInitMode (d.mi .initMode) (value &&& mask)
  let d := d.setMi .initMode update.1
  if update.2 then d.clearRcpInterrupt miIntrDP else d

/-- `write_mi_regs` at the mask register, which ends with an interrupt check. -/
def Device.writeMiIntrMask (value mask : Word) : Device × List Call :=
  (d.setMi .intrMask (updateMiIntrMask (d.mi .intrMask) (value &&& mask)),
    [.checkInterrupt, .updateCount, .poll])

def spStatusHalt : Word := 0x0001#32
def spStatusBroke : Word := 0x0002#32
def spStatusSStep : Word := 0x0020#32
def spStatusIntrBreak : Word := 0x0040#32
def spStatusSig0 : Word := 0x0080#32

def Device.spRunning : Bool :=
  d.sp.regs .status &&& (spStatusHalt ||| spStatusBroke) = 0#32

/-- `doRspCycles`. -/
def Device.doRspCycles (run : PluginRun) : Device :=
  let d := d.setMi .intr run.miIntr
  { d with
    sp := { d.sp with regs := run.spRegs, regs2 := Function.update d.sp.regs2 .pc run.spPc }
    dp := { d.dp with dpcRegs := run.dpcRegs } }

/-- The program counter is cut to the page while the plugin runs. -/
def Device.runTask (run : PluginRun) : Device :=
  let savePc := d.sp.regs2 .pc &&& ~~~0xFFF#32
  let d := { d with
    sp := { d.sp with regs2 := Function.update d.sp.regs2 .pc (d.sp.regs2 .pc &&& 0xFFF#32) } }
  let d := d.doRspCycles run
  { d with sp := { d.sp with regs2 := Function.update d.sp.regs2 .pc (d.sp.regs2 .pc ||| savePc) } }

/-- After a display list the DP interrupt of the plugin becomes an event. -/
def Device.scheduleDp : Device :=
  if d.mi .intr &&& miIntrDP ≠ 0#32 then
    let d := (d.cp0UpdateCount cfg).addInterruptEvent .dpInt 4000#32
    d.setMi .intr (d.mi .intr &&& ~~~miIntrDP)
  else d

def Device.lockTask : Device × List Call :=
  ({ d with sp := { d.sp with rspTaskLocked := false } },
    if d.spRunning then [.updateCount, .setTaskLocked, .addEvent .sp 1000#32] else [])

def dpcStatusXbusDmemDma : Word := 0x001#32
def dpcStatusFreeze : Word := 0x002#32
def dpcStatusFlush : Word := 0x004#32

/-- `do_SP_Task`: a display list waits while the DP is frozen. -/
def Device.doSpTask (task : SpTask) : Device × List Call :=
  if task.type = 1#32 then
    if !cfg.perfectDark && d.dp.dpcRegs .status &&& dpcStatusFreeze ≠ 0#32 then (d, [])
    else ((d.runTask task.run).scheduleDp cfg, [.lockTask])
  else (d.runTask task.run, [.lockTask])

def Device.clearSetSp (w clearBit setBit bit : Word) : Device :=
  d.setSp .status (clearSet w clearBit setBit bit (d.sp.regs .status))

def Device.clearSpIf (c : Bool) : Device := if c then d.clearRcpInterrupt miIntrSP else d

def Device.signalSpIf (c : Bool) : Device := if c then d.signalRcpInterrupt miIntrSP else d

/-- The signal bits from the second one on. -/
def updateSignals (w reg : Word) : Word :=
  let reg := clearSet w 0x800#32 0x1000#32 0x0100#32 reg
  let reg := clearSet w 0x2000#32 0x4000#32 0x0200#32 reg
  let reg := clearSet w 0x8000#32 0x10000#32 0x0400#32 reg
  let reg := clearSet w 0x20000#32 0x40000#32 0x0800#32 reg
  let reg := clearSet w 0x80000#32 0x100000#32 0x1000#32 reg
  let reg := clearSet w 0x200000#32 0x400000#32 0x2000#32 reg
  clearSet w 0x800000#32 0x1000000#32 0x4000#32 reg

def Device.updateSpSignals (w : Word) : Device :=
  d.setSp .status (updateSignals w (d.sp.regs .status))

/-- The part of `update_sp_status` that changes the register and the MIPS interface. -/
def Device.updateSpBits (w : Word) : Device :=
  d.clearSetSp w 0x1#32 0x2#32 spStatusHalt
    |>.clearSetSp w 0x4#32 0#32 spStatusBroke
    |>.clearSpIf (w &&& 0x8#32 ≠ 0#32)
    |>.signalSpIf (w &&& 0x10#32 ≠ 0#32)
    |>.clearSetSp w 0x20#32 0x40#32 spStatusSStep
    |>.clearSetSp w 0x80#32 0x100#32 spStatusIntrBreak
    |>.clearSetSp w 0x200#32 0x400#32 spStatusSig0
    |>.signalSpIf (w &&& 0x400#32 ≠ 0#32 && cfg.audioSignal)
    |>.updateSpSignals w

/-- `update_sp_status`. -/
def Device.updateSpStatus (w : Word) (task : SpTask) : Device × List Call :=
  let d := d.updateSpBits cfg w
  if d.sp.rspTaskLocked && d.interrupts.getEvent .spInt ≠ 0#32 then (d, [])
  else if w &&& 0x1#32 = 0#32 && w &&& 0x4#32 = 0#32 && !d.sp.rspTaskLocked then (d, [])
  else if d.spRunning then (d, [.doSpTask task]) else (d, [])

/-- `write_rsp_regs`. -/
def Device.writeRspRegs (reg : SpReg) (value mask : Word) (task : SpTask) :
    Device × List Call :=
  match reg with
  | .status => d.updateSpStatus cfg (value &&& mask) task
  | .dmaFull => (d, [])
  | .dmaBusy => (d, [])
  | .semaphore => (d.setSp .semaphore 0#32, [])
  | reg => (d.setSp reg (maskedWrite (d.sp.regs reg) value mask), [])

/-- `read_rsp_regs` at the semaphore, which takes it. -/
def Device.readSpSemaphore : Device := d.setSp .semaphore 1#32

/-- `write_rsp_regs2`. -/
def Device.writeRspRegs2 (reg : SpReg2) (value mask : Word) : Device :=
  let masked := maskedWrite (d.sp.regs2 reg) value mask
  { d with sp := { d.sp with regs2 := Function.update d.sp.regs2 reg masked } }

/-- `rsp_interrupt_event`. -/
def Device.rspInterruptEvent : List Call :=
  if d.sp.regs .status &&& spStatusIntrBreak ≠ 0#32 then [.raiseRcp miIntrSP] else []

/-- `write_dpc_regs` at the status register: unfreezing starts the task that waited. -/
def Device.writeDpcStatus (w : Word) (task : SpTask) : Device × List Call :=
  let status := d.dp.dpcRegs .status
  let status := clearSet w 0x001#32 0x002#32 dpcStatusXbusDmemDma status
  let status := clearSet w 0x004#32 0x008#32 dpcStatusFreeze status
  let status := clearSet w 0x010#32 0x020#32 dpcStatusFlush status
  let d := d.setDpc .status status
  (d, if w &&& 0x004#32 ≠ 0#32 && d.spRunning then [.doSpTask task] else [])

/-- `write_dpc_regs`. The end register hands the commands to the plugin. -/
def Device.writeDpcRegs (reg : DpcReg) (value mask : Word) (task : SpTask) :
    Device × List Call :=
  match reg with
  | .status => d.writeDpcStatus (value &&& mask) task
  | .start =>
    let d := d.setDpc .start (maskedWrite (d.dp.dpcRegs .start) value mask)
    (d.setDpc .current (d.dp.dpcRegs .start), [])
  | .endAddr =>
    let d := d.setDpc .endAddr (maskedWrite (d.dp.dpcRegs .endAddr) value mask)
    let d := d.setMi .intr task.run.miIntr
    ({ d with dp := { d.dp with dpcRegs := task.run.dpcRegs } }, [.signalRcp miIntrDP])
  | _ => (d, [])

/-- `write_dps_regs`. -/
def Device.writeDpsRegs (reg : DpsReg) (value mask : Word) : Device :=
  let masked := maskedWrite (d.dp.dpsRegs reg) value mask
  { d with dp := { d.dp with dpsRegs := Function.update d.dp.dpsRegs reg masked } }

def Device.ddRaise : Device :=
  let d := d.cp0UpdateCount cfg
  (d.setCp0 .cause (d.cause ||| cp0CauseIP3)).checkInterrupt

/-- `dd_pi_test`, and the other places where the cartridge interrupt is acknowledged. -/
def Device.ddPiTest : Device :=
  let d := d.setCp0 .cause (d.cause &&& ~~~cp0CauseIP3)
  (d.cp0UpdateCount cfg).checkInterrupt

/-- `dd_update_bm`, as far as it concerns interrupts. -/
def Device.ddUpdateBm : List Call := if d.ddTransfer then [.access .ddRaise] else []

def piStatusDmaBusy : Word := 0x01#32
def piStatusIoBusy : Word := 0x02#32

def Device.schedulePi (busy delay : Word) : Device × List Call :=
  (d.setPi .status (d.pi .status ||| busy), [.updateCount, .addEvent .pi delay])

/-- `dma_pi_read`: every transfer from memory takes the same time. -/
def Device.dmaPiRead : Device × List Call := d.schedulePi piStatusDmaBusy 0x1000#32

def cutLength (length offset size dramAddr : Word) : Word :=
  let length := if size < offset + length then size - offset else length
  if 0x7FFFFF#32 < dramAddr + length then 0x7FFFFF#32 - dramAddr else length

/-- How long `dma_pi_write` takes. -/
def Device.piWriteDelay : Word :=
  let cart := d.pi .cartAddr
  let wrLen := d.pi .wrLen
  let dram := d.pi .dramAddr
  if cart < 0x10000000#32 && !(decide (0x06000000#32 ≤ cart) && decide (cart < 0x08000000#32)) then
    if decide (0x05000000#32 ≤ cart) && decide (cart < 0x06000000#32) &&
        cart ≠ 0x05000400#32 && cart ≠ 0x05000000#32 then
      ((wrLen &&& 0xFFFFFF#32) + 1#32) / 8#32
    else (wrLen * 63#32) / 25#32
  else if 0x1FC00000#32 ≤ cart then 0x1000#32
  else if decide (0x06000000#32 ≤ cart) && decide (cart < 0x08000000#32) then
    cutLength ((wrLen &&& 0xFFFFFE#32) + 2#32) ((cart - 0x06000000#32) &&& 0x1FFFFFF#32)
      cfg.ddRomSize dram / 8#32
  else
    cutLength ((wrLen &&& 0xFFFFFE#32) + 2#32) ((cart - 0x10000000#32) &&& 0x3FFFFFF#32)
      cfg.cartRomSize dram / 8#32

/-- `dma_pi_write`. Only transfers from the end of the address space leave the IO bit. -/
def Device.dmaPiWrite : Device × List Call :=
  if 0x1FC00000#32 ≤ d.pi .cartAddr then d.schedulePi piStatusDmaBusy (d.piWriteDelay cfg)
  else d.schedulePi (piStatusDmaBusy ||| piStatusIoBusy) (d.piWriteDelay cfg)

/-- `write_pi_regs`. -/
def Device.writePiRegs (reg : PiReg) (value mask : Word) : Device × List Call :=
  let masked := maskedWrite (d.pi reg) value mask
  match reg with
  | .cartAddr =>
    let d := if value = 0x05000000#32 ∨ value = 0x05000400#32 then d.ddPiTest cfg else d
    (d.setPi .cartAddr masked, [])
  | .rdLen => (d.setPi .rdLen masked).dmaPiRead
  | .wrLen => (d.setPi .wrLen masked).dmaPiWrite cfg
  | .status => (if value &&& mask &&& 2#32 ≠ 0#32 then d.clearRcpInterrupt miIntrPI else d, [])
  | .dramAddr => (d.setPi .dramAddr masked, [])
  | reg => (d.setPi reg (maskedWrite (d.pi reg) (value &&& 0xFF#32) mask), [])

/-- `pi_end_of_dma_event`. -/
def Device.piEndOfDmaEvent : Device × List Call :=
  (d.setPi .status (d.pi .status &&& ~~~(piStatusDmaBusy ||| piStatusIoBusy)),
    [.raiseRcp miIntrPI, .piEnd])

/-- The end of `pi_end_of_dma_event`: the disk drive goes on. -/
def Device.piEnd : List Call :=
  if d.pi .cartAddr = 0x05000000#32 ∨ d.pi .cartAddr = 0x05000400#32 then d.ddUpdateBm else []

def siStatusDmaBusy : Word := 0x0001#32
def siStatusInterrupt : Word := 0x1000#32

/-- The end of `dma_si_read` and `dma_si_write`. -/
def Device.finishSiDma : Device × List Call :=
  if cfg.delaySi then
    (d.setSi .status (d.si .status ||| siStatusDmaBusy),
      [.updateCount, .addEvent .si cfg.siDmaDuration])
  else
    (d.setSi .status (d.si .status ||| siStatusInterrupt), [.updateCount, .signalRcp miIntrSI])

/-- `write_si_regs`: a transfer runs only at the address of the PIF memory. -/
def Device.writeSiRegs (reg : SiReg) (value mask : Word) : Device × List Call :=
  let masked := maskedWrite (d.si reg) value mask
  match reg with
  | .dramAddr => (d.setSi .dramAddr masked, [])
  | .pifAddrRd64b =>
    let d := d.setSi .pifAddrRd64b masked
    if d.si .pifAddrRd64b = 0x1FC007C0#32 then d.finishSiDma cfg else (d, [])
  | .pifAddrWr64b =>
    let d := d.setSi .pifAddrWr64b masked
    if d.si .pifAddrWr64b = 0x1FC007C0#32 then d.finishSiDma cfg else (d, [])
  | .status =>
    ((d.setSi .status (d.si .status &&& ~~~siStatusInterrupt)).clearRcpInterrupt miIntrSI, [])

/-- `write_pif_ram` of a command byte that ends in an interrupt. -/
def writePifCommand : List Call := [.updateCount, .addEvent .si 0x900#32]

/-- `si_end_of_dma_event`. -/
def Device.siEndOfDmaEvent : Device × List Call :=
  let d := d.setSi .status (d.si .status &&& ~~~siStatusDmaBusy)
  (d.setSi .status (d.si .status ||| siStatusInterrupt), [.raiseRcp miIntrSI])

def aiStatusBusy : Word := 0x40000000#32
def aiStatusFull : Word := 0x80000000#32

/-- `get_dma_duration`; nothing where the host divides by zero. -/
def Device.getDmaDuration : Option Word :=
  if 1#32 + d.ai.regs .dacRate = 0#32 then none
  else
    let samplesPerSec := cfg.viClock / (1#32 + d.ai.regs .dacRate)
    if 4#32 * samplesPerSec = 0#32 then none
    else
      let cpuCountsPerSec := d.vi.delay * cfg.expectedRefreshRate
      some (d.ai.regs .len * (cpuCountsPerSec / (4#32 * samplesPerSec)))

/-- `do_dma`. -/
def Device.doDma (dma : AiDma) : Device :=
  let d := { d with ai := { d.ai with samplesFormatChanged := false, lastRead := dma.length } }
  (d.cp0UpdateCount cfg).addInterruptEvent .aiInt dma.duration

/-- `fifo_push` of a transfer with a known duration. -/
def Device.fifoPush (duration : Word) : Device :=
  let dma : AiDma := ⟨d.ai.regs .dramAddr, d.ai.regs .len, duration⟩
  if d.ai.regs .status &&& aiStatusBusy ≠ 0#32 then
    { d with ai := { d.ai with fifo1 := dma } }.setAi .status (d.ai.regs .status ||| aiStatusFull)
  else
    let d := { d with ai := { d.ai with fifo0 := dma } }
    (d.setAi .status (d.ai.regs .status ||| aiStatusBusy)).doDma cfg dma

/-- `fifo_pop`. -/
def Device.fifoPop : Device :=
  if d.ai.regs .status &&& aiStatusFull ≠ 0#32 then
    let d := { d with ai := { d.ai with fifo0 := d.ai.fifo1 } }
    (d.setAi .status (d.ai.regs .status &&& ~~~aiStatusFull)).doDma cfg d.ai.fifo1
  else d.setAi .status (d.ai.regs .status &&& ~~~aiStatusBusy)

/-- `get_remaining_dma_length`, which brings Count up to date while a transfer runs. -/
def Device.getRemainingDmaLength : Device × Word :=
  if d.ai.fifo0.duration = 0#32 then (d, 0#32)
  else
    let d := d.cp0UpdateCount cfg
    let next := d.interrupts.getEvent .aiInt
    if next = 0#32 ∨ next ≤ d.count then (d, 0#32)
    else
      let length := (next - d.count).setWidth 64 * d.ai.fifo0.length.setWidth 64 /
        d.ai.fifo0.duration.setWidth 64
      (d, (length &&& ~~~7#64).setWidth 32)

/-- `read_ai_regs` at the length register. -/
def Device.readAiLen : Device :=
  let read := d.getRemainingDmaLength cfg
  { read.1 with ai := { read.1.ai with lastRead := read.2 } }

/-- `write_ai_regs`; nothing where the host divides by zero. -/
def Device.writeAiRegs (reg : AiReg) (value mask : Word) : Option Device :=
  let masked := maskedWrite (d.ai.regs reg) value mask
  match reg with
  | .dramAddr =>
    let audioPos := if d.ai.audioPos = 0#32 then masked else d.ai.audioPos
    if cfg.fixedAudioPos then
      some ({ d with ai := { d.ai with audioPos } }.setAi .dramAddr audioPos)
    else some (d.setAi .dramAddr masked)
  | .len =>
    let d := d.setAi .len masked
    (d.getDmaDuration cfg).map (d.fifoPush cfg)
  | .status => some (d.clearRcpInterrupt miIntrAI)
  | .control => some (d.setAi .control masked)
  | reg =>
    let changed := d.ai.samplesFormatChanged || d.ai.regs reg ≠ value &&& mask
    some ({ d with ai := { d.ai with samplesFormatChanged := changed } }.setAi reg masked)

/-- `ai_end_of_dma_event`. -/
def Device.aiEndOfDmaEvent : Device × List Call := (d.fifoPop cfg, [.raiseRcp miIntrAI])

/-- `read_vi_regs` at the current line register. -/
def Device.readViCurrent : Device :=
  let d := d.cp0UpdateCount cfg
  let elapsed := d.vi.delay - (d.vi.nextVi - d.count)
  let line := if cfg.alternateViTiming then elapsed % 526#32 else elapsed / cfg.viRefreshRate
  d.setVi .current ((line &&& ~~~1#32) ||| d.vi.field)

/-- `write_vi_regs`. -/
def Device.writeViRegs (reg : ViReg) (value mask : Word) : Device :=
  match reg with
  | .current => d.clearRcpInterrupt miIntrVI
  | reg => d.setVi reg (maskedWrite (d.vi.regs reg) value mask)

/-- The schedule of `vi_vertical_interrupt_event`. -/
def Device.scheduleVi : Device :=
  let field := d.vi.field ^^^ ((d.vi.regs .status >>> 6) &&& 1#32)
  let delay :=
    if d.vi.regs .vSync = 0#32 then 500000#32
    else (d.vi.regs .vSync + 1#32) * cfg.viRefreshRate
  let d := { d with vi := { d.vi with field, delay, nextVi := d.vi.nextVi + delay } }
  d.addInterruptEventCount .viInt d.vi.nextVi

/-- `vi_vertical_interrupt_event`. -/
def Device.viVerticalInterruptEvent : Device × List Call :=
  (d.scheduleVi cfg, [.raiseRcp miIntrVI])

/-- A device access and the calls that follow; nothing where the host would fault. -/
def Device.access : DeviceAccess → Option (Device × List Call)
  | .writeMiInitMode value mask => some (d.writeMiInitMode value mask, [])
  | .writeMiIntrMask value mask => some (d.writeMiIntrMask value mask)
  | .writeRspRegs reg value mask task => some (d.writeRspRegs cfg reg value mask task)
  | .writeRspRegs2 reg value mask => some (d.writeRspRegs2 reg value mask, [])
  | .readSpSemaphore => some (d.readSpSemaphore, [])
  | .writeDpcRegs reg value mask task => some (d.writeDpcRegs reg value mask task)
  | .writeDpsRegs reg value mask => some (d.writeDpsRegs reg value mask, [])
  | .writePiRegs reg value mask => some (d.writePiRegs cfg reg value mask)
  | .writeSiRegs reg value mask => some (d.writeSiRegs cfg reg value mask)
  | .writePifCommand => some (d, writePifCommand)
  | .writeAiRegs reg value mask => (d.writeAiRegs cfg reg value mask).map fun d => (d, [])
  | .readAiLen => some (d.readAiLen cfg, [])
  | .writeViRegs reg value mask => some (d.writeViRegs reg value mask, [])
  | .readViCurrent => some (d.readViCurrent cfg, [])
  | .ddRaise => some (d.ddRaise cfg, [])
  | .ddPiTest => some (d.ddPiTest cfg, [])

end ParallelN64.R4300
