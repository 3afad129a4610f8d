import ParallelN64.Savestate.Bounded

/-!
# Loading what was saved

Writer and reader are two lists of fields. Bank by bank the reader undoes the writer: every
field comes back, but for the second domain of the peripheral interface, for which the
writer puts the registers of the first one.
-/

namespace ParallelN64.Savestate

open R4300 ParallelN64.Core

section Fields

variable {α ρ : Type} (part : Part Machine α)

theorem undoes_words (bank : Machine → ρ → Word) {store : ρ → Word → Machine → Machine}
    (change : ρ → Word → α → α) (hstore : ∀ r v, store r v = part.modify (change r v))
    {sources targets : List ρ} (hlength : sources.length = targets.length) :
    Undoes (words bank sources) (loadWords store targets) fun s => part.modify fun a =>
      (sources.zip targets).foldl (fun a p => change p.2 (bank s p.1) a) a := by
  refine (Undoes.registers 4 bank store hlength).congr fun s t => ?_
  simp only [hstore]
  exact Part.foldl_modify (fun p : ρ × ρ => change p.2 (bank s p.1)) _ t

theorem undoes_word (value : Machine → Word) {store : Word → Machine → Machine}
    (change : Word → α → α) (hstore : ∀ v, store v = part.modify (change v)) :
    Undoes [word value] [loadWord store] fun s => part.modify (change (value s)) := by
  have hdata := Undoes.data 4 value store
  exact hdata.congr fun s t => congrFun (hstore (value s)) t

theorem undoes_array {width count : Nat} (source : Machine → Fin count → BitVec (8 * width))
    {store : (Fin count → BitVec (8 * width)) → Machine → Machine}
    (change : (Fin count → BitVec (8 * width)) → α → α)
    (hstore : ∀ v, store v = part.modify (change v)) :
    Undoes [.array width count source] [.array width count store]
      fun s => part.modify (change (source s)) := by
  have harray := Undoes.array width count source store
  exact harray.congr fun s t => congrFun (hstore (source s)) t

theorem undoes_data {width : Nat} (value : Machine → BitVec (8 * width))
    {store : BitVec (8 * width) → Machine → Machine} (change : BitVec (8 * width) → α → α)
    (hstore : ∀ v, store v = part.modify (change v)) :
    Undoes [.data width value] [.data width store] fun s => part.modify (change (value s)) :=
  undoes_array part (fun s _ => value s) (fun v => change (v 0)) fun v => hstore (v 0)

theorem undoes_act {change : Machine → Machine} (change' : α → α)
    (hchange : change = part.modify change') :
    Undoes [] [.act change] fun _ => part.modify change' := by
  rw [hchange]
  exact Undoes.act _

theorem undoes_skip {saves : List (SaveStep Machine)} (hall : saves.all SaveStep.isArray = true)
    {bytes : Nat} (hsize : totalSize saves = bytes) :
    Undoes saves [.skip bytes] fun _ => part.modify fun a => a :=
  Undoes.skip_modify (Undoes.skip saves hsize
    (finish_of_quiet fun step hstep => next_of_isArray (List.all_eq_true.mp hall step hstep)))

end Fields

/-- The registers of the main memory. -/
def rdramPart : Part Machine (RdramReg → Word) where
  get := Machine.rdramRegs
  put regs t := { t with rdramRegs := regs }
  get_put _ _ := rfl
  put_put _ _ _ := rfl
  put_get _ := rfl

/-- The registers of the memory interface. -/
def riPart : Part Machine (RiReg → Word) where
  get := Machine.ri
  put ri t := { t with ri }
  get_put _ _ := rfl
  put_put _ _ _ := rfl
  put_get _ := rfl

/-- The control registers of the machine. -/
def devicePart : Part Machine Device where
  get := Machine.device
  put device t := { t with device }
  get_put _ _ := rfl
  put_put _ _ _ := rfl
  put_get _ := rfl

def miPart : Part Machine (MiReg → Word) :=
  devicePart.comp ⟨Device.mi, fun mi d => { d with mi }, fun _ _ => rfl, fun _ _ _ => rfl,
    fun _ => rfl⟩

def piPart : Part Machine (PiReg → Word) :=
  devicePart.comp ⟨Device.pi, fun pi d => { d with pi }, fun _ _ => rfl, fun _ _ _ => rfl,
    fun _ => rfl⟩

def siPart : Part Machine (SiReg → Word) :=
  devicePart.comp ⟨Device.si, fun si d => { d with si }, fun _ _ => rfl, fun _ _ _ => rfl,
    fun _ => rfl⟩

def spPart : Part Machine RspCore :=
  devicePart.comp ⟨Device.sp, fun sp d => { d with sp }, fun _ _ => rfl, fun _ _ _ => rfl,
    fun _ => rfl⟩

def dpPart : Part Machine RdpCore :=
  devicePart.comp ⟨Device.dp, fun dp d => { d with dp }, fun _ _ => rfl, fun _ _ _ => rfl,
    fun _ => rfl⟩

def viPart : Part Machine ViController :=
  devicePart.comp ⟨Device.vi, fun vi d => { d with vi }, fun _ _ => rfl, fun _ _ _ => rfl,
    fun _ => rfl⟩

def aiPart : Part Machine AiController :=
  devicePart.comp ⟨Device.ai, fun ai d => { d with ai }, fun _ _ => rfl, fun _ _ _ => rfl,
    fun _ => rfl⟩

theorem undoes_rdram : Undoes saveRdram loadRdram
    fun s => rdramPart.modify fun _ => s.rdramRegs := by
  rw [saveRdram, loadRdram]
  refine (undoes_words rdramPart Machine.rdramRegs (fun r v regs => Function.update regs r v)
    (fun _ _ => rfl) rfl).congr_modify fun s regs => ?_
  funext r
  cases r <;> rfl

theorem undoes_mi : Undoes saveMi loadMi fun s => miPart.modify fun _ => s.device.mi := by
  have hpad : Undoes [padding 4] [.skip 4] fun _ => miPart.modify fun mi => mi :=
    undoes_skip miPart rfl rfl
  have hinit : Undoes [word fun s => s.device.mi .initMode]
      [loadWord fun v => onDevice fun d => d.setMi .initMode v] _ :=
    undoes_word miPart _ (fun v mi => Function.update mi .initMode v) fun _ => rfl
  have hflags : Undoes (.data 1 (fun s => (s.device.mi .initMode &&& 0x7F#32).setWidth 8) ::
      flags (fun s => s.device.mi .initMode) [0x80#32, 0x100#32, 0x200#32]) [.skip 4] _ :=
    undoes_skip miPart rfl rfl
  have hregs : Undoes (words (fun s => s.device.mi) [.version, .intr, .intrMask])
      (loadWords (fun r v => onDevice fun d => d.setMi r v) [.version, .intr, .intrMask]) _ :=
    undoes_words miPart _ (fun r v mi => Function.update mi r v) (fun _ _ => rfl) rfl
  have hmask : Undoes (flags (fun s => s.device.mi .intrMask)
      [0x1#32, 0x2#32, 0x4#32, 0x8#32, 0x10#32, 0x20#32] ++ [padding 2]) [.skip 8] _ :=
    undoes_skip miPart rfl rfl
  have hall := hpad.append_modify (hinit.append_modify (hflags.append_modify
    (hregs.append_modify (hpad.append_modify hmask))))
  refine hall.congr_modify fun s mi => ?_
  funext r
  cases r <;> rfl

/-- The register of which the writer puts the value for a register of the peripheral interface. -/
def piSource : PiReg → PiReg
  | .bsdDom2Lat => .bsdDom1Lat
  | .bsdDom2Pwd => .bsdDom1Pwd
  | .bsdDom2Pgs => .bsdDom1Pgs
  | .bsdDom2Rls => .bsdDom1Rls
  | r => r

theorem undoes_pi : Undoes savePi loadPi
    fun s => piPart.modify fun _ r => s.device.pi (piSource r) := by
  have hregs : Undoes savePi loadPi _ :=
    @undoes_words _ _ piPart (fun s => s.device.pi) _ (fun r v pi => Function.update pi r v)
      (fun _ _ => rfl)
      [.dramAddr, .cartAddr, .rdLen, .wrLen, .status,
        .bsdDom1Lat, .bsdDom1Pwd, .bsdDom1Pgs, .bsdDom1Rls,
        .bsdDom1Lat, .bsdDom1Pwd, .bsdDom1Pgs, .bsdDom1Rls]
      [.dramAddr, .cartAddr, .rdLen, .wrLen, .status,
        .bsdDom1Lat, .bsdDom1Pwd, .bsdDom1Pgs, .bsdDom1Rls,
        .bsdDom2Lat, .bsdDom2Pwd, .bsdDom2Pgs, .bsdDom2Rls] rfl
  refine hregs.congr_modify fun s pi => ?_
  funext r
  cases r <;> rfl

theorem undoes_sp : Undoes saveSp loadSp fun s => spPart.modify fun sp =>
    { sp with regs := s.device.sp.regs, regs2 := s.device.sp.regs2 } := by
  have hfirst : Undoes (words (fun s => s.device.sp.regs) [.memAddr, .dramAddr, .rdLen, .wrLen])
      (loadWords (fun r v => onDevice fun d => d.setSp r v)
        [.memAddr, .dramAddr, .rdLen, .wrLen]) _ :=
    undoes_words spPart _ (fun r v sp => { sp with regs := Function.update sp.regs r v })
      (fun _ _ => rfl) rfl
  have hpad : Undoes [padding 4] [.skip 4] _ := undoes_skip spPart rfl rfl
  have hstatus : Undoes [word fun s => s.device.sp.regs .status]
      [loadWord fun v => onDevice fun d => d.setSp .status v] _ :=
    undoes_word spPart _ (fun v sp => { sp with regs := Function.update sp.regs .status v })
      fun _ => rfl
  have hflags : Undoes (flags (fun s => s.device.sp.regs .status) [0x1#32, 0x2#32, 0x4#32, 0x8#32,
      0x10#32, 0x20#32, 0x40#32, 0x80#32, 0x100#32, 0x200#32, 0x400#32, 0x800#32, 0x1000#32,
      0x2000#32, 0x4000#32] ++ [padding 1]) [.skip 16] _ := undoes_skip spPart rfl rfl
  have hlast : Undoes (words (fun s => s.device.sp.regs) [.dmaFull, .dmaBusy, .semaphore])
      (loadWords (fun r v => onDevice fun d => d.setSp r v) [.dmaFull, .dmaBusy, .semaphore]) _ :=
    undoes_words spPart _ (fun r v sp => { sp with regs := Function.update sp.regs r v })
      (fun _ _ => rfl) rfl
  have hregs2 : Undoes (words (fun s => s.device.sp.regs2) [.pc, .ibist])
      (loadWords (fun r v => onDevice fun d =>
        { d with sp := { d.sp with regs2 := Function.update d.sp.regs2 r v } }) [.pc, .ibist]) _ :=
    undoes_words spPart _ (fun r v sp => { sp with regs2 := Function.update sp.regs2 r v })
      (fun _ _ => rfl) rfl
  have hall := hfirst.append_modify (hpad.append_modify (hstatus.append_modify
    (hflags.append_modify (hlast.append_modify hregs2))))
  refine hall.congr_modify fun s sp => ?_
  refine congrArg₂ (fun regs regs2 => { sp with regs, regs2 }) ?_ ?_
  · funext r
    cases r <;> rfl
  · funext r
    cases r <;> rfl

theorem undoes_si : Undoes saveSi loadSi fun s => siPart.modify fun _ => s.device.si := by
  rw [saveSi, loadSi]
  refine (undoes_words siPart (fun s => s.device.si) (fun r v si => Function.update si r v)
    (fun _ _ => rfl) rfl).congr_modify fun s si => ?_
  funext r
  cases r <;> rfl

theorem undoes_vi : Undoes saveVi loadVi fun s => viPart.modify fun vi =>
    { vi with regs := s.device.vi.regs, delay := s.device.vi.delay } := by
  have hregs : Undoes (words (fun s => s.device.vi.regs) [.status, .origin, .width, .vIntr,
      .current, .burst, .vSync, .hSync, .leap, .hStart, .vStart, .vBurst, .xScale, .yScale])
      (loadWords (fun r v => onDevice fun d => d.setVi r v) [.status, .origin, .width, .vIntr,
        .current, .burst, .vSync, .hSync, .leap, .hStart, .vStart, .vBurst, .xScale, .yScale]) _ :=
    undoes_words viPart _ (fun r v vi => { vi with regs := Function.update vi.regs r v })
      (fun _ _ => rfl) rfl
  have hdelay : Undoes [word fun s => s.device.vi.delay]
      [loadWord fun v => onVi fun vi => { vi with delay := v }] _ :=
    undoes_word viPart _ (fun v vi => { vi with delay := v }) fun _ => rfl
  refine (hregs.append_modify hdelay).congr_modify fun s vi => ?_
  refine congrArg (fun regs => { vi with regs, delay := s.device.vi.delay }) ?_
  funext r
  cases r <;> rfl

theorem undoes_ri : Undoes saveRi loadRi fun s => riPart.modify fun _ => s.ri := by
  rw [saveRi, loadRi]
  refine (undoes_words riPart Machine.ri (fun r v regs => Function.update regs r v)
    (fun _ _ => rfl) rfl).congr_modify fun s regs => ?_
  funext r
  cases r <;> rfl

/-- The audio interface that is loaded: the addresses of its transfers are those of the
register. -/
def loadedAi (saved old : AiController) : AiController :=
  { old with
    regs := saved.regs
    fifo0 := ⟨saved.regs .dramAddr, saved.fifo0.length, saved.fifo0.duration⟩
    fifo1 := ⟨saved.regs .dramAddr, saved.fifo1.length, saved.fifo1.duration⟩
    lastRead := saved.lastRead
    samplesFormatChanged := true }

theorem undoes_ai : Undoes saveAi loadAi
    fun s => aiPart.modify fun ai => loadedAi s.device.ai ai := by
  have hregs : Undoes (words (fun s => s.device.ai.regs)
      [.dramAddr, .len, .control, .status, .dacRate, .bitRate])
      (loadWords (fun r v => onDevice fun d => d.setAi r v)
        [.dramAddr, .len, .control, .status, .dacRate, .bitRate]) _ :=
    undoes_words aiPart _ (fun r v ai => { ai with regs := Function.update ai.regs r v })
      (fun _ _ => rfl) rfl
  have hduration1 : Undoes [word fun s => s.device.ai.fifo1.duration]
      [loadWord fun v => onAi fun ai => { ai with fifo1 := { ai.fifo1 with duration := v } }] _ :=
    undoes_word aiPart _ (fun v ai => { ai with fifo1 := { ai.fifo1 with duration := v } })
      fun _ => rfl
  have hlength1 : Undoes [word fun s => s.device.ai.fifo1.length]
      [loadWord fun v => onAi fun ai => { ai with fifo1 := { ai.fifo1 with length := v } }] _ :=
    undoes_word aiPart _ (fun v ai => { ai with fifo1 := { ai.fifo1 with length := v } })
      fun _ => rfl
  have hduration0 : Undoes [word fun s => s.device.ai.fifo0.duration]
      [loadWord fun v => onAi fun ai => { ai with fifo0 := { ai.fifo0 with duration := v } }] _ :=
    undoes_word aiPart _ (fun v ai => { ai with fifo0 := { ai.fifo0 with duration := v } })
      fun _ => rfl
  have hlength0 : Undoes [word fun s => s.device.ai.fifo0.length]
      [loadWord fun v => onAi fun ai => { ai with fifo0 := { ai.fifo0 with length := v } }] _ :=
    undoes_word aiPart _ (fun v ai => { ai with fifo0 := { ai.fifo0 with length := v } })
      fun _ => rfl
  have hlast : Undoes [word fun s => s.device.ai.lastRead]
      [loadWord fun v => onAi fun ai => { ai with lastRead := v }] _ :=
    undoes_word aiPart _ (fun v ai => { ai with lastRead := v }) fun _ => rfl
  have haddresses := @undoes_act _ aiPart _ (fun ai => { ai with
    fifo0 := { ai.fifo0 with address := ai.regs .dramAddr }
    fifo1 := { ai.fifo1 with address := ai.regs .dramAddr }
    samplesFormatChanged := true }) rfl
  have hall := hregs.append_modify (hduration1.append_modify (hlength1.append_modify
    (hduration0.append_modify (hlength0.append_modify (hlast.append_modify haddresses)))))
  refine hall.congr_modify fun s ai => ?_
  refine congrArg (fun regs => loadedAi { s.device.ai with regs } ai) ?_
  funext r
  cases r <;> rfl

theorem undoes_dp : Undoes saveDp loadDp fun s => dpPart.modify fun _ => s.device.dp := by
  have hfirst : Undoes (words (fun s => s.device.dp.dpcRegs) [.start, .endAddr, .current])
      (loadWords (fun r v => onDevice fun d => d.setDpc r v) [.start, .endAddr, .current]) _ :=
    undoes_words dpPart _ (fun r v dp => { dp with dpcRegs := Function.update dp.dpcRegs r v })
      (fun _ _ => rfl) rfl
  have hpad : Undoes [padding 4] [.skip 4] _ := undoes_skip dpPart rfl rfl
  have hstatus : Undoes [word fun s => s.device.dp.dpcRegs .status]
      [loadWord fun v => onDevice fun d => d.setDpc .status v] _ :=
    undoes_word dpPart _ (fun v dp => { dp with dpcRegs := Function.update dp.dpcRegs .status v })
      fun _ => rfl
  have hflags : Undoes (flags (fun s => s.device.dp.dpcRegs .status) [0x1#32, 0x2#32, 0x4#32,
      0x8#32, 0x10#32, 0x20#32, 0x40#32, 0x80#32, 0x100#32, 0x200#32, 0x400#32] ++ [padding 1])
      [.skip 12] _ := undoes_skip dpPart rfl rfl
  have hlast : Undoes (words (fun s => s.device.dp.dpcRegs) [.clock, .bufBusy, .pipeBusy, .tmem])
      (loadWords (fun r v => onDevice fun d => d.setDpc r v)
        [.clock, .bufBusy, .pipeBusy, .tmem]) _ :=
    undoes_words dpPart _ (fun r v dp => { dp with dpcRegs := Function.update dp.dpcRegs r v })
      (fun _ _ => rfl) rfl
  have hdps : Undoes (words (fun s => s.device.dp.dpsRegs)
      [.tbist, .testMode, .bufTestAddr, .bufTestData])
      (loadWords (fun r v => onDevice fun d =>
        { d with dp := { d.dp with dpsRegs := Function.update d.dp.dpsRegs r v } })
        [.tbist, .testMode, .bufTestAddr, .bufTestData]) _ :=
    undoes_words dpPart _ (fun r v dp => { dp with dpsRegs := Function.update dp.dpsRegs r v })
      (fun _ _ => rfl) rfl
  have hall := hfirst.append_modify (hpad.append_modify (hstatus.append_modify
    (hflags.append_modify (hlast.append_modify hdps))))
  refine hall.congr_modify fun s dp => ?_
  refine congrArg₂ RdpCore.mk ?_ ?_
  · funext r
    cases r <;> rfl
  · funext r
    cases r <;> rfl

theorem undoes_memories : Undoes saveMemories loadMemories
    fun s t => { t with dram := s.dram, spMem := s.spMem, pifRam := s.pifRam } := by
  have hdram := Undoes.array 4 rdramWords Machine.dram fun v s => { s with dram := v }
  have hsp := Undoes.array 4 spMemWords Machine.spMem fun v s => { s with spMem := v }
  have hpif := Undoes.array 1 pifRamSize Machine.pifRam fun v s => { s with pifRam := v }
  exact hdram.append (hsp.append hpif)

/-- The flash memory controller. -/
def flashramPart : Part Machine Flashram where
  get := Machine.flashram
  put flashram t := { t with flashram }
  get_put _ _ := rfl
  put_put _ _ _ := rfl
  put_get _ := rfl

theorem undoes_flashram : Undoes saveFlashram loadFlashram
    fun s t => { t with useFlashram := s.useFlashram, flashram := s.flashram } := by
  have huse := Undoes.data 4 Machine.useFlashram fun v s => { s with useFlashram := v }
  have hmode : Undoes [word fun s => s.flashram.mode]
      [loadWord fun v s => { s with flashram := { s.flashram with mode := v } }] _ :=
    undoes_word flashramPart _ (fun v flash => { flash with mode := v }) fun _ => rfl
  have hstatus := @undoes_data _ flashramPart 8 (fun s => s.flashram.status)
    (fun v s => { s with flashram := { s.flashram with status := v } })
    (fun v flash => { flash with status := v }) fun _ => rfl
  have herase : Undoes [word fun s => s.flashram.eraseOffset]
      [loadWord fun v s => { s with flashram := { s.flashram with eraseOffset := v } }] _ :=
    undoes_word flashramPart _ (fun v flash => { flash with eraseOffset := v }) fun _ => rfl
  have hwrite : Undoes [word fun s => s.flashram.writePointer]
      [loadWord fun v s => { s with flashram := { s.flashram with writePointer := v } }] _ :=
    undoes_word flashramPart _ (fun v flash => { flash with writePointer := v }) fun _ => rfl
  exact huse.append (hmode.append_modify (hstatus.append_modify (herase.append_modify hwrite)))

theorem undoes_tlbLut : Undoes saveTlbLut loadTlbLut
    fun s t => { t with tlbLutR := s.tlbLutR, tlbLutW := s.tlbLutW } := by
  have hread := Undoes.array 4 tlbLutSize Machine.tlbLutR fun v s => { s with tlbLutR := v }
  have hwrite := Undoes.array 4 tlbLutSize Machine.tlbLutW fun v s => { s with tlbLutW := v }
  exact hread.append hwrite

/-- What the loader restores of the registers of the processor, in both modes of the floating
point registers. -/
def restoreRegs (s t : Machine) : Machine :=
  { t with
    llbit := s.llbit
    regs := s.regs
    device := { t.device with cp0 := s.device.cp0 }
    fprPointers := s.device.status &&& cp0StatusFR ≠ 0#32
    lo := s.lo
    hi := s.hi }

theorem undoes_regs : Undoes saveRegs loadRegs restoreRegs := by
  have hllbit := Undoes.data 4 Machine.llbit fun v s => { s with llbit := v }
  have hregs := Undoes.array 8 32 Machine.regs fun v s => { s with regs := v }
  have hcp0 := Undoes.array 4 32 (fun (s : Machine) i => s.device.cp0 (cp0At i))
    fun v => onDevice fun d => { d with cp0 := fun r => v (cp0Index r) }
  have hpointers := Undoes.act fun s : Machine => s.setFprPointers s.device.status
  have hlo := Undoes.data 8 Machine.lo fun v s => { s with lo := v }
  have hhi := Undoes.data 8 Machine.hi fun v s => { s with hi := v }
  have hall := hllbit.append (hregs.append (hcp0.append (hpointers.append (hlo.append hhi))))
  refine hall.congr fun s t => ?_
  have hnames : (fun r => s.device.cp0 (cp0At (cp0Index r))) = s.device.cp0 := by
    funext r
    rw [cp0At_cp0Index]
  change restoreRegs { s with device := { s.device with
    cp0 := fun r => s.device.cp0 (cp0At (cp0Index r)) } } t = restoreRegs s t
  rw [hnames]

theorem toFormat_cp1 (s : Machine) : s.toFormat.cp1 =
    if s.device.status &&& 0x04000000#32 = 0#32 then unpackFgr s.cp1 else s.cp1 := by
  rw [Machine.toFormat]
  split
  · rfl
  · rfl

theorem ofFormat_eq (t : Machine) : t.ofFormat = { t with cp1 :=
    if t.device.status &&& 0x04000000#32 = 0#32 then packFgr t.cp1 else t.cp1 } := by
  rw [Machine.ofFormat]
  split
  · rfl
  · rfl

variable {data : Memory}

theorem load_loadCp1 {s t : Machine} {start : Nat} (hstatus : t.device.status = s.device.status)
    (h : Holds data start (written saveCp1 s)) :
    load data loadCp1 (t, start) = ({ t with cp1 := s.cp1 }, start + totalSize saveCp1) := by
  have hholds : Holds data start (encodeArray 8 s.toFormat.cp1) := by
    have hbytes : written saveCp1 s = encodeArray 8 s.toFormat.cp1 ++ [] := rfl
    rwa [hbytes, List.append_nil] at h
  have hback : (if t.device.status &&& 0x04000000#32 = 0#32 then packFgr s.toFormat.cp1
      else s.toFormat.cp1) = s.cp1 := by
    rw [toFormat_cp1, hstatus]
    split
    · exact packFgr_unpackFgr s.cp1
    · rfl
  have hload : load data loadCp1 (t, start) =
      (Machine.ofFormat { t with cp1 := decodeArray data start 8 32 }, start + 32 * 8) := rfl
  rw [hload, decodeArray_of_holds hholds, ofFormat_eq]
  dsimp only
  rw [hback]
  rfl

theorem undoes_fcr : Undoes saveFcr loadFcr fun s t => { t with fcr0 := s.fcr0, fcr31 := s.fcr31 } := by
  have hfcr0 := Undoes.data 4 Machine.fcr0 fun v s => { s with fcr0 := v }
  have hfcr31 := Undoes.data 4 Machine.fcr31 fun v s => { s with fcr31 := v }
  exact hfcr0.append hfcr31

/-- An entry of the translation buffer. -/
def tlbPart (i : Fin 32) : Part Machine TlbEntry where
  get t := t.tlb i
  put e t := { t with tlb := Function.update t.tlb i e }
  get_put _ _ := Function.update_self ..
  put_put _ _ t := congrArg (fun tlb => { t with tlb }) (Function.update_idem ..)
  put_get t := congrArg (fun tlb => { t with tlb }) (Function.update_eq_self ..)

theorem undoes_tlbEntry (i : Fin 32) : Undoes (saveTlbEntry i) (loadTlbEntry i)
    fun s => (tlbPart i).modify fun _ => s.tlb i := by
  have hshort (value : TlbEntry → BitVec (8 * 2)) (set : BitVec (8 * 2) → TlbEntry → TlbEntry) :
      Undoes [.data 2 fun s => value (s.tlb i)] [.data 2 fun v => onTlb i (set v)]
        fun s => (tlbPart i).modify (set (value (s.tlb i))) :=
    undoes_data (tlbPart i) (fun s => value (s.tlb i)) set fun _ => rfl
  have hint (value : TlbEntry → Word) (set : Word → TlbEntry → TlbEntry) :
      Undoes [word fun s => value (s.tlb i)] [loadWord fun v => onTlb i (set v)]
        fun s => (tlbPart i).modify (set (value (s.tlb i))) :=
    undoes_word (tlbPart i) (fun s => value (s.tlb i)) set fun _ => rfl
  have hchar (value : TlbEntry → BitVec (8 * 1)) (set : BitVec (8 * 1) → TlbEntry → TlbEntry) :
      Undoes [.data 1 fun s => value (s.tlb i)] [.data 1 fun v => onTlb i (set v)]
        fun s => (tlbPart i).modify (set (value (s.tlb i))) :=
    undoes_data (tlbPart i) (fun s => value (s.tlb i)) set fun _ => rfl
  have hpad2 : Undoes [padding 2] [.skip 2] _ := undoes_skip (tlbPart i) rfl rfl
  have hpad1 : Undoes [padding 1] [.skip 1] _ := undoes_skip (tlbPart i) rfl rfl
  have htag := (hshort TlbEntry.mask fun v e => { e with mask := v }).append_modify
    (hpad2.append_modify
      ((hint TlbEntry.vpn2 fun v e => { e with vpn2 := v }).append_modify
        ((hchar TlbEntry.g fun v e => { e with g := v }).append_modify
          ((hchar TlbEntry.asid fun v e => { e with asid := v }).append_modify hpad2))))
  have heven := (hint TlbEntry.pfnEven fun v e => { e with pfnEven := v }).append_modify
    ((hchar TlbEntry.cEven fun v e => { e with cEven := v }).append_modify
      ((hchar TlbEntry.dEven fun v e => { e with dEven := v }).append_modify
        ((hchar TlbEntry.vEven fun v e => { e with vEven := v }).append_modify hpad1)))
  have hodd := (hint TlbEntry.pfnOdd fun v e => { e with pfnOdd := v }).append_modify
    ((hchar TlbEntry.cOdd fun v e => { e with cOdd := v }).append_modify
      ((hchar TlbEntry.dOdd fun v e => { e with dOdd := v }).append_modify
        ((hchar TlbEntry.vOdd fun v e => { e with vOdd := v }).append_modify
          (hchar TlbEntry.r fun v e => { e with r := v }))))
  have hranges := (hint TlbEntry.startEven fun v e => { e with startEven := v }).append_modify
    ((hint TlbEntry.endEven fun v e => { e with endEven := v }).append_modify
      ((hint TlbEntry.physEven fun v e => { e with physEven := v }).append_modify
        ((hint TlbEntry.startOdd fun v e => { e with startOdd := v }).append_modify
          ((hint TlbEntry.endOdd fun v e => { e with endOdd := v }).append_modify
            (hint TlbEntry.physOdd fun v e => { e with physOdd := v })))))
  have hall := htag.append_modify (heven.append_modify (hodd.append_modify hranges))
  exact hall.congr_modify fun s e => rfl

theorem undoes_tlb : Undoes saveTlb loadTlb fun s t => { t with tlb := s.tlb } := by
  refine (Undoes.flatMap undoes_tlbEntry (List.finRange 32)).congr fun s t => ?_
  have hfold (l : List (Fin 32)) (t : Machine) :
      l.foldl (fun t i => (tlbPart i).modify (fun _ => s.tlb i) t) t =
        { t with tlb := l.foldl (fun tlb i => Function.update tlb i (s.tlb i)) t.tlb } := by
    induction l generalizing t with
    | nil => rfl
    | cons i l ih => exact ih _
  rw [hfold]
  refine congrArg (fun tlb => { t with tlb }) ?_
  funext i
  exact foldl_update_of_mem (fun _ _ _ _ => rfl) (List.pairwise_lt_finRange 32)
    (List.mem_finRange i) t.tlb

/-- What the loader restores last. -/
def restorePc (s t : Machine) : Machine :=
  { t with device := { t.device with
    pc := s.device.pc
    interrupts := { t.device.interrupts with nextInterrupt := s.device.interrupts.nextInterrupt }
    vi := { t.device.vi with nextVi := s.device.vi.nextVi, field := s.device.vi.field } } }

theorem undoes_pc : Undoes savePc loadPc restorePc := by
  have hpc := Undoes.data 4 (fun s : Machine => s.device.pc)
    fun v => onDevice fun d => { d with pc := v }
  have hnext := Undoes.data 4 (fun s : Machine => s.device.interrupts.nextInterrupt)
    fun v => onDevice fun d => d.setNextInterrupt v
  have hvi := Undoes.data 4 (fun s : Machine => s.device.vi.nextVi)
    fun v => onVi fun vi => { vi with nextVi := v }
  have hfield := Undoes.data 4 (fun s : Machine => s.device.vi.field)
    fun v => onVi fun vi => { vi with field := v }
  exact hpc.append (hnext.append (hvi.append hfield))

/-- The banks in front of the memories. -/
def restoreBanks (s t : Machine) : Machine :=
  { t with
    rdramRegs := s.rdramRegs
    ri := s.ri
    device := { t.device with
      mi := s.device.mi
      pi := fun r => s.device.pi (piSource r)
      sp := { t.device.sp with regs := s.device.sp.regs, regs2 := s.device.sp.regs2 }
      si := s.device.si
      vi := { t.device.vi with regs := s.device.vi.regs, delay := s.device.vi.delay }
      ai := loadedAi s.device.ai t.device.ai
      dp := s.device.dp } }

theorem undoes_interfaces : Undoes (saveMi ++ (savePi ++ (saveSp ++ (saveSi ++ saveVi))))
    (loadMi ++ (loadPi ++ (loadSp ++ (loadSi ++ loadVi)))) fun s => devicePart.modify fun d =>
      { d with
        mi := s.device.mi
        pi := fun r => s.device.pi (piSource r)
        sp := { d.sp with regs := s.device.sp.regs, regs2 := s.device.sp.regs2 }
        si := s.device.si
        vi := { d.vi with regs := s.device.vi.regs, delay := s.device.vi.delay } } := by
  have hmi : Undoes saveMi loadMi fun s => devicePart.modify fun d =>
    { d with mi := s.device.mi } := undoes_mi
  have hpi : Undoes savePi loadPi fun s => devicePart.modify fun d =>
    { d with pi := fun r => s.device.pi (piSource r) } := undoes_pi
  have hsp : Undoes saveSp loadSp fun s => devicePart.modify fun d =>
    { d with sp := { d.sp with regs := s.device.sp.regs, regs2 := s.device.sp.regs2 } } :=
    undoes_sp
  have hsi : Undoes saveSi loadSi fun s => devicePart.modify fun d =>
    { d with si := s.device.si } := undoes_si
  have hvi : Undoes saveVi loadVi fun s => devicePart.modify fun d =>
    { d with vi := { d.vi with regs := s.device.vi.regs, delay := s.device.vi.delay } } :=
    undoes_vi
  have hall := hmi.append_modify (hpi.append_modify (hsp.append_modify (hsi.append_modify hvi)))
  exact hall.congr_modify fun s d => rfl

theorem undoes_outputs : Undoes (saveAi ++ saveDp) (loadAi ++ loadDp)
    fun s => devicePart.modify fun d =>
      { d with ai := loadedAi s.device.ai d.ai, dp := s.device.dp } := by
  have hai : Undoes saveAi loadAi fun s => devicePart.modify fun d =>
    { d with ai := loadedAi s.device.ai d.ai } := undoes_ai
  have hdp : Undoes saveDp loadDp fun s => devicePart.modify fun d =>
    { d with dp := s.device.dp } := undoes_dp
  exact (hai.append_modify hdp).congr_modify fun s d => rfl

theorem undoes_banks :
    Undoes (saveRdram ++ saveMi ++ savePi ++ saveSp ++ saveSi ++ saveVi ++ saveRi ++ saveAi ++ saveDp)
      (loadRdram ++ loadMi ++ loadPi ++ loadSp ++ loadSi ++ loadVi ++ loadRi ++ loadAi ++ loadDp)
      restoreBanks := by
  have hall := undoes_rdram.append (undoes_interfaces.append (undoes_ri.append undoes_outputs))
  simp only [List.append_assoc] at hall ⊢
  exact hall.congr fun s t => rfl

/-- Everything in front of the floating point registers. -/
def restoreFront (s t : Machine) : Machine :=
  restoreRegs s { restoreBanks s t with
    dram := s.dram
    spMem := s.spMem
    pifRam := s.pifRam
    useFlashram := s.useFlashram
    flashram := s.flashram
    tlbLutR := s.tlbLutR
    tlbLutW := s.tlbLutW }

def saveFrontFields : List (SaveStep Machine) :=
  saveRdram ++ saveMi ++ savePi ++ saveSp ++ saveSi ++ saveVi ++ saveRi ++ saveAi ++ saveDp ++
    saveMemories ++ saveFlashram ++ saveTlbLut ++ saveRegs

def loadFrontFields : List (LoadStep Machine) :=
  loadRdram ++ loadMi ++ loadPi ++ loadSp ++ loadSi ++ loadVi ++ loadRi ++ loadAi ++ loadDp ++
    loadMemories ++ loadFlashram ++ loadTlbLut ++ loadRegs

theorem undoes_front : Undoes saveFrontFields loadFrontFields restoreFront :=
  undoes_banks.append undoes_memories |>.append undoes_flashram |>.append undoes_tlbLut
    |>.append undoes_regs

def restoreBack (s t : Machine) : Machine :=
  restorePc s { t with fcr0 := s.fcr0, fcr31 := s.fcr31, tlb := s.tlb }

theorem undoes_back : Undoes saveBack (loadFcr ++ loadTlb ++ loadPc) restoreBack :=
  undoes_fcr.append undoes_tlb |>.append undoes_pc

theorem written_saveSteps (s : Machine) :
    written s.saveSteps s = written saveHeader s ++ (written saveFrontFields s ++
      (written saveCp1 s ++ (written saveBack s ++
        written (saveQueue s.device.interrupts.saveEventqueueInfos) s))) := by
  have hfront : saveFront = saveHeader ++ saveFrontFields := by
    simp only [saveFront, saveFrontFields, List.append_assoc]
  have hheader : finish saveHeader s = s := rfl
  have hcp1 : finish saveCp1 s = s := ofFormat_toFormat s
  rw [Machine.saveSteps, hfront, List.append_assoc, written_append, hheader, written_append,
    (undoes_front s).1, written_append, hcp1, written_append, (undoes_back s).1]

def restored (s t : Machine) : Machine := restoreBack s { restoreFront s t with cp1 := s.cp1 }

theorem load_loadFields {s t : Machine} (h : Holds data 0 (written s.saveSteps s)) :
    (load data loadFields (t, headerSize)).1 = restored s t := by
  rw [written_saveSteps, holds_append_iff, holds_append_iff, holds_append_iff,
    holds_append_iff] at h
  obtain ⟨-, hfront, hcp1, hback, -⟩ := h
  have hheader : 0 + (written saveHeader s).length = headerSize := rfl
  rw [hheader] at hfront hcp1 hback
  have hload : loadFields = loadFrontFields ++ (loadCp1 ++ (loadFcr ++ loadTlb ++ loadPc)) := rfl
  rw [length_written] at hcp1 hback
  rw [length_written] at hback
  have hstatus : (restoreFront s t).device.status = s.device.status := rfl
  rw [hload, load_append, (undoes_front s).2 t data _ hfront, load_append,
    load_loadCp1 hstatus hcp1, (undoes_back s).2 _ data _ hback]
  rfl

theorem terminator_of_holds {s : Machine} (hwell : s.device.interrupts.q.WellFormed)
    (h : Holds data 0 (written s.saveSteps s)) :
    ∃ n < 128, decodeInt data (queueOffset + 8 * n) 4 = queueTerminator := by
  have hqueue : Holds data queueOffset
      (encodeArray 4 fun i => s.device.interrupts.saveEventqueueInfos.get i) := by
    rw [written_saveSteps, holds_append_iff, holds_append_iff, holds_append_iff,
      holds_append_iff] at h
    obtain ⟨-, -, -, -, hlast⟩ := h
    have hoffset : 0 + (written saveHeader s).length + (written saveFrontFields s).length +
        (written saveCp1 s).length + (written saveBack s).length = queueOffset := by
      have htotal : totalSize saveHeader + totalSize saveFrontFields + totalSize saveCp1 +
        totalSize saveBack = queueOffset := by decide +kernel
      rw [length_written, length_written, length_written, length_written, Nat.zero_add, htotal]
    rw [hoffset, saveQueue, written, written, List.append_nil] at hlast
    exact hlast
  have hlength : s.device.interrupts.saveEventqueueInfos.length =
      2 * s.device.interrupts.events.length + 1 := by
    rw [Interrupts.saveEventqueueInfos, List.length_append, List.length_flatMap]
    simp [Nat.mul_comm]
  have hsixteen : s.device.interrupts.events.length ≤ 16 := by
    have htotal := hwell.length_add
    rw [Interrupts.events, List.length_map]
    exact Nat.le.intro htotal
  refine ⟨s.device.interrupts.events.length, by omega, ?_⟩
  have hdecode := congrFun (decodeArray_of_holds hqueue)
    ⟨2 * s.device.interrupts.events.length, by omega⟩
  have haddress : queueOffset + 2 * s.device.interrupts.events.length * 4 =
      queueOffset + 8 * s.device.interrupts.events.length := by omega
  rw [decodeArray, haddress] at hdecode
  rw [hdecode, List.get_eq_getElem]
  have hflat : (s.device.interrupts.events.flatMap fun e => [e.type.code, e.count]).length =
      2 * s.device.interrupts.events.length := by
    rw [List.length_flatMap]
    simp [Nat.mul_comm]
  simp only [Interrupts.saveEventqueueInfos]
  rw [List.getElem_append_right (by omega)]
  simp

/-- Every field that the format carries has the value it had in the saved machine. -/
structure Restores (s t : Machine) : Prop where
  rdramRegs : t.rdramRegs = s.rdramRegs
  mi : t.device.mi = s.device.mi
  pi : t.device.pi = s.device.pi
  sp : t.device.sp.regs = s.device.sp.regs ∧ t.device.sp.regs2 = s.device.sp.regs2
  si : t.device.si = s.device.si
  vi : t.device.vi = s.device.vi
  ri : t.ri = s.ri
  ai : t.device.ai.regs = s.device.ai.regs ∧ t.device.ai.lastRead = s.device.ai.lastRead ∧
    t.device.ai.fifo0.length = s.device.ai.fifo0.length ∧
    t.device.ai.fifo0.duration = s.device.ai.fifo0.duration ∧
    t.device.ai.fifo1.length = s.device.ai.fifo1.length ∧
    t.device.ai.fifo1.duration = s.device.ai.fifo1.duration
  dp : t.device.dp = s.device.dp
  memories : t.dram = s.dram ∧ t.spMem = s.spMem ∧ t.pifRam = s.pifRam
  flashram : t.useFlashram = s.useFlashram ∧ t.flashram = s.flashram
  tlbLut : t.tlbLutR = s.tlbLutR ∧ t.tlbLutW = s.tlbLutW
  tlb : t.tlb = s.tlb
  regs : t.regs = s.regs ∧ t.lo = s.lo ∧ t.hi = s.hi ∧ t.llbit = s.llbit
  cp0 : t.device.cp0 = s.device.cp0
  cp1 : t.cp1 = s.cp1 ∧ t.fcr0 = s.fcr0 ∧ t.fcr31 = s.fcr31
  pc : t.device.pc = s.device.pc

def SameDomains (pi : PiReg → Word) : Prop :=
  pi .bsdDom2Lat = pi .bsdDom1Lat ∧ pi .bsdDom2Pwd = pi .bsdDom1Pwd ∧
    pi .bsdDom2Pgs = pi .bsdDom1Pgs ∧ pi .bsdDom2Rls = pi .bsdDom1Rls

theorem piSource_iff (pi : PiReg → Word) : (fun r => pi (piSource r)) = pi ↔ SameDomains pi := by
  constructor
  · intro h
    exact ⟨(congrFun h .bsdDom2Lat).symm, (congrFun h .bsdDom2Pwd).symm,
      (congrFun h .bsdDom2Pgs).symm, (congrFun h .bsdDom2Rls).symm⟩
  · rintro ⟨hlat, hpwd, hpgs, hrls⟩
    funext r
    cases r with
    | bsdDom2Lat => exact hlat.symm
    | bsdDom2Pwd => exact hpwd.symm
    | bsdDom2Pgs => exact hpgs.symm
    | bsdDom2Rls => exact hrls.symm
    | _ => rfl

theorem restores_iff (s t : Machine) (interrupts : Interrupts) (lastAddr : Word) :
    Restores s { restored s t with
      device := { (restored s t).device with interrupts, lastAddr } } ↔
      SameDomains s.device.pi := by
  rw [← piSource_iff]
  constructor
  · exact fun h => h.pi
  · intro h
    exact ⟨rfl, rfl, h, ⟨rfl, rfl⟩, rfl, rfl, rfl, ⟨rfl, rfl, rfl, rfl, rfl, rfl⟩, rfl,
      ⟨rfl, rfl, rfl⟩, ⟨rfl, rfl⟩, ⟨rfl, rfl⟩, rfl, ⟨rfl, rfl, rfl, rfl⟩, rfl, ⟨rfl, rfl, rfl⟩, rfl⟩

/-- A machine whose event queue uses the nodes of the pool. -/
structure LiveMachine extends Machine where
  wellFormed : device.interrupts.q.WellFormed

theorem load_of_holds (s : LiveMachine) {t : Machine} (size : UInt64)
    (h : Holds data 0 (written s.saveSteps s.toMachine)) (hmd5 : t.md5 = s.md5) :
    ∃ interrupts lastAddr, t.savestatesLoadM64p data size =
      ⟨some true, { restored s.toMachine t with
        device := { (restored s.toMachine t).device with interrupts, lastAddr } },
        queueOffset + 1024⟩ := by
  obtain ⟨hmagic, hversion, hsame⟩ := header_of_holds (holds_saveHeader h)
  rw [savestatesLoadM64p_of_header size hmagic hversion (hsame t hmd5), load_loadFields h]
  dsimp only
  cases hqueue : (restored s.toMachine t).device.interrupts.loadEventqueueInfos
      (restored s.toMachine t).device.count
      (List.ofFn (decodeArray data queueOffset 4 queueWords)) with
  | none =>
    have hterm := (terminator_iff data).mpr (terminator_of_holds s.wellFormed h)
    exact absurd hqueue (loadEvents_ne_none_iff.mpr hterm)
  | some interrupts => exact ⟨interrupts, _, rfl⟩

/-- Saving a machine and loading the bytes into another one with the same ROM succeeds, and gives
back every field that the format carries exactly when the second domain of the peripheral interface
has the timing of the first. -/
theorem savestatesLoadM64p_save_iff (s : LiveMachine) (t : Machine) (mem data : Memory)
    (size size' : UInt64) (hok : (s.savestatesSaveM64p (some mem) size).ok = true)
    (hdata : ∀ saved ∈ (s.savestatesSaveM64p (some mem) size).writer.data,
      ∀ address < (s.savestatesSaveM64p (some mem) size).writer.offset,
        data address = saved address)
    (hmd5 : t.md5 = s.md5) :
    ((t.savestatesLoadM64p data size').result = some true ∧
        Restores s.toMachine (t.savestatesLoadM64p data size').machine) ↔
      SameDomains s.device.pi := by
  obtain ⟨interrupts, lastAddr, hload⟩ := load_of_holds s size' (holds_of_saved hok hdata) hmd5
  rw [hload, restores_iff s.toMachine t interrupts lastAddr]
  exact and_iff_right rfl

def sampleLive : LiveMachine := ⟨sampleMachine, wellFormed_clearQueue⟩

/-- The sample machine is loaded into one with another register. -/
theorem sample_comes_back :
    (sampleLive.savestatesSaveM64p (some fun _ => 0) 16788296).ok = true ∧
      ∀ saved ∈ (sampleLive.savestatesSaveM64p (some fun _ => 0) 16788296).writer.data,
        ((Machine.savestatesLoadM64p { sampleMachine with llbit := 1#32 } saved
            16788296).result = some true ∧
          Restores sampleMachine
            (Machine.savestatesLoadM64p { sampleMachine with llbit := 1#32 } saved
              16788296).machine) ↔
          SameDomains fun _ => 0#32 := by
  refine ⟨sample_fits _, fun saved hsaved => ?_⟩
  refine savestatesLoadM64p_save_iff sampleLive { sampleMachine with llbit := 1#32 } (fun _ => 0)
    saved 16788296 16788296 (sample_fits _) ?_ rfl
  intro saved' hsaved' address _
  rw [Option.mem_unique hsaved hsaved']

def slowDomain : LiveMachine :=
  ⟨{ sampleMachine with device := { blankDevice with
    pi := fun r => if r = .bsdDom2Lat then 5#32 else 0#32 } }, wellFormed_clearQueue⟩

theorem slowDomain_loaded (h : Holds data 0 (written slowDomain.saveSteps slowDomain.toMachine)) :
    (sampleMachine.savestatesLoadM64p data 16788296).result = some true ∧
      (sampleMachine.savestatesLoadM64p data 16788296).machine.device.pi .bsdDom2Lat = 0#32 := by
  have hmd5 : sampleMachine.md5 = slowDomain.md5 := rfl
  have hpi : (restored slowDomain.toMachine sampleMachine).device.pi .bsdDom2Lat = 0#32 := rfl
  obtain ⟨interrupts, lastAddr, hload⟩ := load_of_holds slowDomain 16788296 h hmd5
  rw [hload]
  exact ⟨rfl, hpi⟩

/-- The timing of the second domain is lost. -/
theorem slow_domain_is_lost :
    (slowDomain.savestatesSaveM64p (some fun _ => 0) 16788296).ok = true ∧
      slowDomain.device.pi .bsdDom2Lat = 5#32 ∧
      ∀ saved ∈ (slowDomain.savestatesSaveM64p (some fun _ => 0) 16788296).writer.data,
        (sampleMachine.savestatesLoadM64p saved 16788296).result = some true ∧
          (sampleMachine.savestatesLoadM64p saved 16788296).machine.device.pi .bsdDom2Lat =
            0#32 := by
  have hok : (slowDomain.savestatesSaveM64p (some fun _ => 0) 16788296).ok = true := sample_fits _
  refine ⟨hok, rfl, fun saved hsaved => slowDomain_loaded (holds_of_saved hok ?_)⟩
  intro saved' hsaved' address _
  rw [Option.mem_unique hsaved hsaved']

end ParallelN64.Savestate
