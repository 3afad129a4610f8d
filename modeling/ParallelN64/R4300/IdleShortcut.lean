import ParallelN64.R4300.IdleJumps

/-!
# The shortcut of idle loops

A jump to itself with an empty delay slot changes the program counter, Count and the link
register, and with the idle variant it changes them in the same way, only by other steps. So
the interpreter runs in step with a loop over Count alone, and the shortcut is seen exactly
where it is seen there.
-/

namespace ParallelN64.R4300

open ParallelN64.Core

/-- A device without what the turns of an idle loop change. -/
def Device.still (d : Device) : Device :=
  { d with
    cp0 := Function.update d.cp0 .count 0#32
    pc := 0#32
    lastAddr := 0#32
    delaySlot := false
    interrupts := { d.interrupts with clock := 0 } }

section Still

variable {ρ μ : Type} (b : Board ρ μ) (cfg : Config) (d : Device) (s : Cpu ρ μ)

@[simp] theorem still_cp0UpdateCount : (d.cp0UpdateCount cfg).still = d.still := by
  simp [Device.still, Device.cp0UpdateCount, Device.advanceCount, Device.setCp0]

@[simp] theorem still_advanceCount (amount : Word) : (d.advanceCount amount).still = d.still := by
  simp [Device.still, Device.advanceCount, Device.setCp0]

theorem count_advanceCount (amount : Word) : (d.advanceCount amount).count = d.count + amount :=
  rfl

def Cpu.still : Cpu ρ μ := { s with device := s.device.still, gpr := fun _ => 0#64 }

@[simp] theorem still_link (link : BitVec 5) : (s.link link).still = s.still := by
  rw [Cpu.link]
  split <;> rfl

@[simp] theorem device_link (link : BitVec 5) : (s.link link).device = s.device := by
  rw [Cpu.link]
  split <;> rfl

def Cpu.fetched (address : Word) : Option Word :=
  if address &&& 0xC0000000#32 ≠ 0x80000000#32 then
    (s.tlb.physical b.hacks .fetch address).bind (s.codeAt b)
  else s.codeAt b address

variable {b s}

theorem fastMemAccess_of_fetched {address word : Word} (h : s.fetched b address = some word) :
    s.fastMemAccess b address = (s, some word) := by
  rw [Cpu.fetched] at h
  rw [Cpu.fastMemAccess]
  split_ifs at h ⊢
  · obtain ⟨physical, hphysical, hword⟩ := Option.bind_eq_some_iff.mp h
    rw [hphysical]
    exact congrArg (Prod.mk s) hword
  · exact congrArg (Prod.mk s) h

theorem fetched_of_still {s' : Cpu ρ μ} (h : s'.still = s.still) (address : Word) :
    s'.fetched b address = s.fetched b address := by
  have htlb : s'.tlb = s.tlb := show s'.still.tlb = s.still.tlb by rw [h]
  have hmemory : s'.memory = s.memory := show s'.still.memory = s.still.memory by rw [h]
  have hcode : s'.codeAt b = s.codeAt b := by
    funext a
    simp only [Cpu.codeAt, hmemory]
  simp only [Cpu.fetched, htlb, hcode]

end Still

section Turns

variable {ρ μ : Type} {b : Board ρ μ} {fcr31 : Word} {other : Option Word → Cpu ρ μ → Cpu ρ μ}
  {j : JumpDeclaration} {s : Cpu ρ μ}

def Cpu.takes (fcr31 : Word) (j : JumpDeclaration) (s : Cpu ρ μ) : Bool := j.condition s.gpr fcr31

def Cpu.lacks (j : JumpDeclaration) (s : Cpu ρ μ) : Bool := j.cop1 && s.cop1Unusable

def Cpu.counted (b : Board ρ μ) (s : Cpu ρ μ) : Word := (s.device.cp0UpdateCount b.cfg).count

/-- What a jump to itself with an empty delay slot does. -/
structure Turned (b : Board ρ μ) (fcr31 : Word) (j : JumpDeclaration) (s : Cpu ρ μ)
    (v : Visit ρ μ) : Prop where
  still : v.cpu.still = s.still
  gpr : v.cpu.gpr = (s.link j.link).gpr
  pc : v.cpu.device.pc = if s.takes fcr31 j && s.device.skipJump = 0#32 then s.device.pc
    else s.device.pc + 8#32
  lastAddr : v.cpu.device.lastAddr = v.cpu.device.pc
  count : v.cpu.device.count = s.device.count +
    ((s.device.pc + 8#32 - s.device.lastAddr) >>> 2) * b.cfg.countPerOp
  due : v.due = v.cpu.device.interruptDue

theorem interpretSlot_of_empty (h : s.fetched b s.device.pc = some 0#32) :
    s.interpretSlot b other = s.addToPc := by
  rw [Cpu.interpretSlot, fastMemAccess_of_fetched h]
  rfl

theorem still_device_congr (s : Cpu ρ μ) {d d' : Device} (h : d.still = d'.still) :
    ({ s with device := d }).still = ({ s with device := d' }).still := by
  rw [Cpu.still, Cpu.still, h]

theorem device_enterSlot (link : BitVec 5) : (s.link link).enterSlot.device =
    { s.device with pc := s.device.pc + 4#32, delaySlot := true } := by
  rw [Cpu.enterSlot, Cpu.addToPc, device_link]

theorem still_enterSlot (link : BitVec 5) : (s.link link).enterSlot.still = s.still :=
  still_link s link

theorem interpretSlot_enterSlot (link : BitVec 5)
    (hempty : s.fetched b (s.device.pc + 4#32) = some 0#32) :
    (s.link link).enterSlot.interpretSlot b other = (s.link link).enterSlot.addToPc := by
  apply interpretSlot_of_empty
  rw [fetched_of_still (still_enterSlot link), device_enterSlot, hempty]

theorem turned_runSlot (hempty : s.fetched b (s.device.pc + 4#32) = some 0#32) :
    Turned b fcr31 j s
      (((s.link j.link).runSlot b other (s.takes fcr31 j) s.device.pc).finishTurn) := by
  obtain ⟨s', hs'⟩ : ∃ s', (s.link j.link).enterSlot = s' := ⟨_, rfl⟩
  have hstill : s'.still = s.still := hs' ▸ still_enterSlot j.link
  have hdevice : s'.device = { s.device with pc := s.device.pc + 4#32, delaySlot := true } :=
    hs' ▸ device_enterSlot j.link
  have hgpr : s'.gpr = (s.link j.link).gpr := hs' ▸ rfl
  have hslot : s'.interpretSlot b other = s'.addToPc := hs' ▸ interpretSlot_enterSlot j.link hempty
  have hpc : s'.addToPc.device.pc = s.device.pc + 8#32 := by
    rw [Cpu.addToPc, hdevice, BitVec.add_assoc]
    rfl
  have hskip : (s'.addToPc.device.cp0UpdateCount b.cfg).skipJump = s.device.skipJump := by
    change s'.device.skipJump = _
    rw [hdevice]
  have hdone : (s'.addToPc.device.cp0UpdateCount b.cfg).still = s'.device.still :=
    still_cp0UpdateCount b.cfg _
  have hcount : (s'.addToPc.device.cp0UpdateCount b.cfg).count = s.device.count +
      ((s.device.pc + 8#32 - s.device.lastAddr) >>> 2) * b.cfg.countPerOp := by
    change s'.device.count + ((s'.addToPc.device.pc - s'.device.lastAddr) >>> 2) * _ = _
    rw [hpc, hdevice]
    rfl
  rw [Cpu.runSlot]
  simp only [hs', hslot]
  split_ifs with hjump <;> rw [hskip] at hjump
  · exact ⟨(still_device_congr s' hdone).trans hstill, hgpr, (if_pos hjump).symm, rfl, hcount, rfl⟩
  · exact ⟨(still_device_congr s' hdone).trans hstill, hgpr, hpc.trans (if_neg hjump).symm, rfl,
      hcount, rfl⟩

theorem turned_skipSlot (htakes : s.takes fcr31 j = false) :
    Turned b fcr31 j s (((s.link j.link).skipSlot b).finishTurn) := by
  have hdevice := device_link s j.link
  have hdone : ({ (s.link j.link).device with
      pc := (s.link j.link).device.pc + 8#32 }.cp0UpdateCount b.cfg).still =
      (s.link j.link).device.still := still_cp0UpdateCount b.cfg _
  refine ⟨(still_device_congr (s.link j.link) hdone).trans (still_link s j.link), rfl, ?_, rfl, ?_,
    rfl⟩
  · rw [htakes, Bool.false_and, if_neg Bool.false_ne_true]
    change (s.link j.link).device.pc + 8#32 = _
    rw [hdevice]
  · change (s.link j.link).device.count +
      (((s.link j.link).device.pc + 8#32 - (s.link j.link).device.lastAddr) >>> 2) * _ = _
    rw [hdevice]

theorem turned_run (hlacks : s.lacks j = false) (hself : j.destination s.device.pc = s.device.pc)
    (hempty : s.fetched b (s.device.pc + 4#32) = some 0#32) :
    Turned b fcr31 j s (j.run b fcr31 other s) := by
  rw [JumpDeclaration.run, if_neg (by rw [← Cpu.lacks, hlacks]; exact Bool.false_ne_true), hself]
  simp only
  split_ifs with hslot
  · exact turned_runSlot hempty
  · refine turned_skipSlot ?_
    rw [Bool.or_eq_true, not_or, Bool.not_eq_true] at hslot
    exact (Bool.not_eq_true _).mp hslot.2

end Turns

variable {x : Turn}

section Steps

variable {ρ μ : Type} (b : Board ρ μ) (fcr31 : Word) (j : JumpDeclaration) (s : Cpu ρ μ)

/-- The loop over Count that a jump to itself runs. -/
def Cpu.idleLoop : IdleLoop where
  step := 2#32 * b.cfg.countPerOp
  nextInterrupt := s.device.interrupts.nextInterrupt
  jumps := decide (s.device.skipJump = 0#32)
  stays := (s.link j.link).takes fcr31 j

def Cpu.firstTurn : Turn := ⟨s.counted b, s.takes fcr31 j, true, false⟩

/-- Counting two more instructions does not pass `last_addr`. -/
def Cpu.Behind : Prop := (s.device.pc - s.device.lastAddr).toNat + 8 < 2 ^ 32

def Cpu.event : Option EventType :=
  if !s.device.resets && decide (s.device.skipJump = 0#32) then
    s.device.interrupts.q.first.head?.map fun e => e.data.type
  else none

/-- What is left where a loop over Count ends. -/
def Cpu.endingAt (x : Turn) : Ending where
  gpr := (s.link j.link).gpr
  fpr := s.fpr
  cp0 := Function.update s.device.cp0 .count x.count
  pc := if x.here then s.device.pc else s.device.pc + 8#32
  event := if s.device.interrupts.nextInterrupt ≤ x.count then s.event else none

/-- A processor in front of a turn, in step with a loop over Count. -/
structure Looping (v : Visit ρ μ) (x : Turn) : Prop where
  still : v.cpu.still = s.still
  link : (v.cpu.link j.link).gpr = (s.link j.link).gpr
  pc : v.cpu.device.pc = s.device.pc
  behind : v.cpu.Behind
  count : x.count = v.cpu.counted b
  take : x.take = v.cpu.takes fcr31 j

/-- A processor behind a turn, in step with a loop over Count. -/
structure Arrived (v : Visit ρ μ) (x : Turn) : Prop where
  ended : v.ended s.device.pc = x.ended
  looping : x.ended = false → Looping b fcr31 j s v x
  ending : x.ended = true → v.ending = s.endingAt j x

variable {b fcr31 j s}

theorem fields_of_still {s' : Cpu ρ μ} (h : s'.still = s.still) :
    s'.fpr = s.fpr ∧ s'.device.interrupts.nextInterrupt = s.device.interrupts.nextInterrupt ∧
      s'.device.skipJump = s.device.skipJump ∧ s'.event = s.event ∧ s'.lacks j = s.lacks j ∧
      s'.device.cp0 = Function.update s.device.cp0 .count s'.device.count := by
  have hdevice : s'.device.still = s.device.still := show s'.still.device = s.still.device by rw [h]
  have hcp0 : Function.update s'.device.cp0 .count 0#32 =
      Function.update s.device.cp0 .count 0#32 :=
    show s'.device.still.cp0 = s.device.still.cp0 by rw [hdevice]
  have hother (r : Cp0Reg) (hr : r ≠ .count) : s'.device.cp0 r = s.device.cp0 r := by
    have hr' := congrFun hcp0 r
    rwa [Function.update_of_ne hr, Function.update_of_ne hr] at hr'
  refine ⟨show s'.still.fpr = s.still.fpr by rw [h],
    show s'.device.still.interrupts.nextInterrupt = s.device.still.interrupts.nextInterrupt by
      rw [hdevice],
    show s'.device.still.skipJump = s.device.still.skipJump by rw [hdevice],
    show s'.still.event = s.still.event by rw [h], ?_, ?_⟩
  · exact congrArg (fun status : Word => j.cop1 && decide (status &&& cp0StatusCU1 = 0#32))
      (hother .status (by decide))
  · ext1 r
    by_cases hr : r = .count
    · rw [hr, Function.update_self]
      rfl
    · rw [Function.update_of_ne hr, hother r hr]

theorem gpr_link (link : BitVec 5) :
    (s.link link).gpr =
      if link ≠ 0#5 then Function.update s.gpr link ((s.device.pc + 8#32).signExtend 64)
      else s.gpr := by
  rw [Cpu.link]
  split_ifs <;> rfl

theorem gpr_link_of_gpr {s' : Cpu ρ μ} {link : BitVec 5} (hgpr : s'.gpr = (s.link link).gpr)
    (hpc : s'.device.pc = s.device.pc) : (s'.link link).gpr = (s.link link).gpr := by
  rw [gpr_link, hpc, hgpr, gpr_link]
  split_ifs
  · exact Function.update_idem _ _ _
  · rfl

theorem count_two (h : s.Behind) :
    s.device.count + ((s.device.pc + 8#32 - s.device.lastAddr) >>> 2) * b.cfg.countPerOp =
      s.counted b + 2#32 * b.cfg.countPerOp := by
  have hshift : (s.device.pc + 8#32 - s.device.lastAddr) >>> 2 =
      ((s.device.pc - s.device.lastAddr) >>> 2) + 2#32 := by
    have hsub : s.device.pc + 8#32 - s.device.lastAddr =
        s.device.pc - s.device.lastAddr + 8#32 := by
      rw [BitVec.sub_eq_add_neg, BitVec.sub_eq_add_neg, BitVec.add_assoc, BitVec.add_comm 8#32,
        ← BitVec.add_assoc]
    rw [Cpu.Behind] at h
    generalize s.device.pc - s.device.lastAddr = gap at hsub h
    apply BitVec.eq_of_toNat_eq
    rw [hsub, BitVec.toNat_ushiftRight, BitVec.toNat_add, BitVec.toNat_add,
      BitVec.toNat_ushiftRight, Nat.shiftRight_eq_div_pow, Nat.shiftRight_eq_div_pow,
      BitVec.toNat_ofNat, BitVec.toNat_ofNat]
    omega
  change _ = s.device.count + ((s.device.pc - s.device.lastAddr) >>> 2) * b.cfg.countPerOp + _
  rw [hshift, BitVec.add_mul, BitVec.add_assoc]

theorem counted_of_lastAddr (h : s.device.lastAddr = s.device.pc) :
    s.counted b = s.device.count := by
  change s.device.count + ((s.device.pc - s.device.lastAddr) >>> 2) * b.cfg.countPerOp = _
  rw [h, BitVec.sub_self, BitVec.zero_ushiftRight, BitVec.zero_mul, BitVec.add_zero]

theorem behind_of_lastAddr (h : s.device.lastAddr = s.device.pc) : s.Behind := by
  rw [Cpu.Behind, h, BitVec.sub_self]
  decide

theorem dispatched_of_due (h : s.device.interruptDue = true) : s.device.dispatched = s.event := by
  rw [Device.dispatched, h, Bool.true_and]
  rfl

theorem arrived_of_turned {v w : Visit ρ μ} (h : Looping b fcr31 j s v x)
    (hw : Turned b fcr31 j v.cpu w) : Arrived b fcr31 j s w ((s.idleLoop b fcr31 j).plain x) := by
  have hstill := hw.still.trans h.still
  obtain ⟨hfpr, hnext, -, hevent, -, hcp0⟩ := fields_of_still (j := j) hstill
  obtain ⟨-, -, hskip, -, -, -⟩ := fields_of_still (j := j) h.still
  have hcount : w.cpu.device.count = x.count + (s.idleLoop b fcr31 j).step := by
    rw [hw.count, count_two h.behind, h.count]
    rfl
  have hdue : w.due = decide (s.device.interrupts.nextInterrupt ≤ w.cpu.device.count) := by
    rw [hw.due, Device.interruptDue, hnext]
  have hpc := hw.pc
  rw [hskip, h.pc, ← h.take] at hpc
  have hover : w.ended s.device.pc = ((s.idleLoop b fcr31 j).plain x).ended := by
    rw [Visit.ended, hdue, hcount]
    refine congrArg (fun left => _ || left) ?_
    change _ = !(x.take && decide (s.device.skipJump = 0#32))
    rw [hpc]
    split_ifs with hhere
    · simp [hhere]
    · simp [hhere]
  have hgpr : w.cpu.gpr = (s.link j.link).gpr := hw.gpr.trans h.link
  refine ⟨hover, fun hagain => ?_, fun hend => ?_⟩
  · have hhere : (x.take && decide (s.device.skipJump = 0#32)) = true := by
      simp only [IdleLoop.plain, Cpu.idleLoop, Bool.or_eq_false_iff, Bool.not_eq_false'] at hagain
      exact hagain.2
    rw [if_pos hhere] at hpc
    refine ⟨hstill, gpr_link_of_gpr hgpr hpc, hpc, behind_of_lastAddr hw.lastAddr, ?_, ?_⟩
    · rw [counted_of_lastAddr hw.lastAddr, hcount]
      rfl
    · exact congrArg (fun gpr => j.condition gpr fcr31) hgpr.symm
  · rw [Visit.ending, Cpu.endingAt]
    have hsame : (if w.due then w.cpu.device.dispatched else none) =
        if s.device.interrupts.nextInterrupt ≤ w.cpu.device.count then s.event else none := by
      by_cases hready : s.device.interrupts.nextInterrupt ≤ w.cpu.device.count
      · have hdue' : w.due = true := hdue.trans (decide_eq_true hready)
        rw [if_pos hready, if_pos hdue', dispatched_of_due (hw.due ▸ hdue'), hevent]
      · have hdue' : w.due = false := hdue.trans (decide_eq_false hready)
        rw [if_neg hready, hdue', if_neg Bool.false_ne_true]
    rw [hgpr, hfpr, hsame, hcp0, hpc, hcount]
    rfl

theorem arrived_run (other : Option Word → Cpu ρ μ → Cpu ρ μ) {v : Visit ρ μ}
    (h : Looping b fcr31 j s v x) (hlacks : s.lacks j = false)
    (hself : j.destination s.device.pc = s.device.pc)
    (hempty : s.fetched b (s.device.pc + 4#32) = some 0#32) :
    Arrived b fcr31 j s (j.run b fcr31 other v.cpu) ((s.idleLoop b fcr31 j).plain x) := by
  obtain ⟨-, -, -, -, hlacks', -⟩ := fields_of_still (j := j) h.still
  refine arrived_of_turned h (turned_run (hlacks'.trans hlacks) ?_ ?_)
  · rw [h.pc, hself]
  · rw [fetched_of_still h.still, h.pc, hempty]

theorem looping_of_device {v : Visit ρ μ} (h : Looping b fcr31 j s v x) {d : Device}
    (hstill : d.still = v.cpu.device.still) (hpc : d.pc = v.cpu.device.pc)
    (hlast : d.lastAddr = d.pc) (due here ended : Bool) :
    Looping b fcr31 j s ⟨{ v.cpu with device := d }, due⟩ ⟨d.count, x.take, here, ended⟩ := by
  refine ⟨(still_device_congr v.cpu hstill).trans h.still, ?_, hpc.trans h.pc,
    behind_of_lastAddr hlast, ?_, h.take⟩
  · rw [gpr_link, hpc, ← h.link, gpr_link]
  · rw [counted_of_lastAddr hlast]

theorem arrived_runIdle (other : Option Word → Cpu ρ μ → Cpu ρ μ) {v : Visit ρ μ}
    (h : Looping b fcr31 j s v x) (hlacks : s.lacks j = false)
    (hself : j.destination s.device.pc = s.device.pc)
    (hempty : s.fetched b (s.device.pc + 4#32) = some 0#32) :
    Arrived b fcr31 j s (j.runIdle b fcr31 other v.cpu) ((s.idleLoop b fcr31 j).idle x) := by
  obtain ⟨-, hnext, -, -, hlacks', -⟩ := fields_of_still (j := j) h.still
  have hhas : ¬ (j.cop1 && v.cpu.cop1Unusable) = true := by
    rw [← Cpu.lacks, hlacks', hlacks]
    exact Bool.false_ne_true
  have hskip : (v.cpu.device.cp0UpdateCount b.cfg).interrupts.nextInterrupt -
      (v.cpu.device.cp0UpdateCount b.cfg).count =
        (s.idleLoop b fcr31 j).nextInterrupt - x.count := by
    rw [h.count]
    exact congrArg (fun count => count - _) hnext
  have hcount : (v.cpu.device.cp0UpdateCount b.cfg).count = x.count := h.count.symm
  have htake : j.condition v.cpu.gpr fcr31 = x.take := h.take.symm
  rw [JumpDeclaration.runIdle, if_neg hhas]
  simp only [htake, hskip]
  by_cases htakes : x.take = true
  · rw [if_pos htakes]
    split_ifs with hfar
    · rw [idle_eq_skip htakes (decide_eq_true hfar)]
      have hloop := looping_of_device h
        (d := (v.cpu.device.cp0UpdateCount b.cfg).advanceCount
          (((s.idleLoop b fcr31 j).nextInterrupt - x.count) &&& 0xFFFFFFFC#32))
        (by rw [still_advanceCount, still_cp0UpdateCount]) rfl rfl false true false
      rw [htakes, count_advanceCount, hcount, ← IdleLoop.skipTo] at hloop
      refine ⟨?_, fun _ => hloop, fun hover => ?_⟩
      · rw [Visit.ended, decide_eq_false (not_not_intro hloop.pc)]
        rfl
      · exact absurd hover Bool.false_ne_true
    · rw [idle_eq_plain (by rw [htakes, Bool.true_and]; exact decide_eq_false hfar)]
      have hloop := looping_of_device h (d := v.cpu.device.cp0UpdateCount b.cfg)
        (still_cp0UpdateCount b.cfg _) rfl rfl v.due x.here x.ended
      rw [hcount] at hloop
      have hrun := arrived_run other hloop hlacks hself hempty
      exact hrun
  · rw [if_neg htakes, idle_eq_plain (by rw [Bool.not_eq_true] at htakes; rw [htakes]; rfl)]
    exact arrived_run other h hlacks hself hempty

end Steps

section Interpreter

variable {ρ μ : Type} {b : Board ρ μ} {fcr31 : Word} {other : Option Word → Cpu ρ μ → Cpu ρ μ}
  {s : Cpu ρ μ} {op : Word} {name : JumpName}

/-- A jump to itself with an empty delay slot that `InterpretOpcode` takes for an idle loop. -/
structure Cpu.IdlesAt (b : Board ρ μ) (s : Cpu ρ μ) (op : Word) (name : JumpName) : Prop where
  fetched : s.fetched b s.device.pc = some op
  named : namedJump op = some name
  loops : name.loops op s.device.pc = true
  empty : s.fetched b (s.device.pc + 4#32) = some 0#32
  self : (name.declaration op).destination s.device.pc = s.device.pc

theorem interpretOpcode_of_idles (h : s.IdlesAt b op name) {s' : Cpu ρ μ}
    (hcode : ∀ a, s'.fetched b a = s.fetched b a) (hpc : s'.device.pc = s.device.pc)
    (shortcut : Bool) : s'.interpretOpcode b fcr31 other shortcut =
      if shortcut then (name.declaration op).runIdle b fcr31 other s'
      else (name.declaration op).run b fcr31 other s' := by
  have hfetch : s'.fastMemAccess b s'.device.pc = (s', some op) :=
    fastMemAccess_of_fetched (by rw [hcode, hpc, h.fetched])
  have hempty : s'.fastMemAccess b (s'.device.pc + 4#32) = (s', some 0#32) :=
    fastMemAccess_of_fetched (by rw [hcode, hpc, h.empty])
  have hloops : name.loops op s'.device.pc = true := by rw [hpc, h.loops]
  rw [Cpu.interpretOpcode, hfetch]
  simp only [h.named, hloops, hempty, Bool.and_true]

def IdleLoop.turn (l : IdleLoop) (shortcut : Bool) : Turn → Turn :=
  if shortcut then l.idle else l.plain

theorem arrived_interpretOpcode (h : s.IdlesAt b op name)
    (hlacks : s.lacks (name.declaration op) = false) (shortcut : Bool) {v : Visit ρ μ}
    (hv : Looping b fcr31 (name.declaration op) s v x) :
    Arrived b fcr31 (name.declaration op) s (v.cpu.interpretOpcode b fcr31 other shortcut)
      ((s.idleLoop b fcr31 (name.declaration op)).turn shortcut x) := by
  rw [interpretOpcode_of_idles h (fetched_of_still hv.still) hv.pc]
  cases shortcut with
  | false => exact arrived_run other hv hlacks h.self h.empty
  | true => exact arrived_runIdle other hv hlacks h.self h.empty

theorem exists_runEnds_iff (h : s.IdlesAt b op name)
    (hlacks : s.lacks (name.declaration op) = false) (hbehind : s.Behind) (shortcut : Bool)
    (e : Ending) :
    (∃ v, s.RunEnds b fcr31 other shortcut v ∧ v.ending = e) ↔
      ∃ y, Ends Turn.ended ((s.idleLoop b fcr31 (name.declaration op)).turn shortcut)
        (s.firstTurn b fcr31 (name.declaration op)) y ∧
          s.endingAt (name.declaration op) y = e := by
  have hfirst : Looping b fcr31 (name.declaration op) s ⟨s, false⟩
      (s.firstTurn b fcr31 (name.declaration op)) := ⟨rfl, rfl, rfl, hbehind, rfl, rfl⟩
  constructor
  · rintro ⟨v, hv, rfl⟩
    obtain ⟨y, hy, harrived⟩ := Ends.simulate Turn.ended
      ((s.idleLoop b fcr31 (name.declaration op)).turn shortcut)
      (S := Arrived b fcr31 (name.declaration op) s)
      (fun v x hvx => arrived_interpretOpcode h hlacks shortcut hvx)
      (fun v x hvx => hvx.ended) (fun v x hvx hover => hvx.looping (hvx.ended ▸ hover)) hfirst hv
    exact ⟨y, hy, (harrived.ending hy.over_next.1).symm⟩
  · rintro ⟨y, hy, rfl⟩
    obtain ⟨v, hv, harrived⟩ := Ends.simulate (Visit.ended s.device.pc)
      (fun v => v.cpu.interpretOpcode b fcr31 other shortcut)
      (R := fun x v => Looping b fcr31 (name.declaration op) s v x)
      (S := fun x v => Arrived b fcr31 (name.declaration op) s v x)
      (fun x v hvx => arrived_interpretOpcode h hlacks shortcut hvx)
      (fun x v hvx => hvx.ended.symm) (fun x v hvx hover => hvx.looping hover) hfirst hy
    exact ⟨v, hv, harrived.ending hy.over_next.1⟩

theorem take_of_turn {l : IdleLoop} {shortcut : Bool} (h : (l.turn shortcut x).ended = true) :
    (l.turn shortcut x).take = l.stays := by
  rw [IdleLoop.turn] at h ⊢
  cases shortcut with
  | false => rfl
  | true =>
    cases hskips : x.take && l.skips x.count with
    | false =>
      rw [if_pos rfl, idle_eq_plain hskips]
      rfl
    | true =>
      obtain ⟨htake, hskips⟩ := (Bool.and_eq_true _ _).mp hskips
      rw [if_pos rfl, idle_eq_skip htake hskips] at h
      exact absurd h Bool.false_ne_true

theorem endingAt_inj {j : JumpDeclaration} {x y : Turn} (htake : x.take = y.take)
    (hover : x.ended = y.ended) (h : s.endingAt j x = s.endingAt j y) : x = y := by
  have hcount : x.count = y.count := by
    have hcp0 : Function.update s.device.cp0 .count x.count .count =
        Function.update s.device.cp0 .count y.count .count :=
      congrFun (congrArg Ending.cp0 h) .count
    rwa [Function.update_self, Function.update_self] at hcp0
  have hpc : (if x.here then s.device.pc else s.device.pc + 8#32) =
      if y.here then s.device.pc else s.device.pc + 8#32 := congrArg Ending.pc h
  have hhere : x.here = y.here := by
    cases hx : x.here with
    | _ => cases hy : y.here with | _ => simp_all
  obtain ⟨count, take, here, ended⟩ := x
  obtain ⟨count', take', here', ended'⟩ := y
  obtain rfl : count = count' := hcount
  obtain rfl : take = take' := htake
  obtain rfl : here = here' := hhere
  obtain rfl : ended = ended' := hover
  rfl

theorem invisible_iff_alike (h : s.IdlesAt b op name)
    (hlacks : s.lacks (name.declaration op) = false) (hbehind : s.Behind) :
    s.ShortcutInvisible b fcr31 other ↔
      (s.idleLoop b fcr31 (name.declaration op)).Alike
        (s.firstTurn b fcr31 (name.declaration op)) := by
  have hends (shortcut : Bool) (e : Ending) :
      (∃ v, s.RunEnds b fcr31 other shortcut v ∧ v.ending = e) ↔ _ :=
    exists_runEnds_iff h hlacks hbehind shortcut e
  have htransfer (first second : Bool) (y : Turn)
      (hinvisible : ∀ e, (∃ v, s.RunEnds b fcr31 other first v ∧ v.ending = e) →
        ∃ v, s.RunEnds b fcr31 other second v ∧ v.ending = e)
      (hy : Ends Turn.ended ((s.idleLoop b fcr31 (name.declaration op)).turn first)
        (s.firstTurn b fcr31 (name.declaration op)) y) :
      Ends Turn.ended ((s.idleLoop b fcr31 (name.declaration op)).turn second)
        (s.firstTurn b fcr31 (name.declaration op)) y := by
    obtain ⟨y', hy', hsame⟩ := (hends second _).mp
      (hinvisible _ ((hends first _).mpr ⟨y, hy, rfl⟩))
    obtain ⟨hover, z, rfl⟩ := hy.over_next
    obtain ⟨hover', z', rfl⟩ := hy'.over_next
    rw [endingAt_inj ((take_of_turn hover').trans (take_of_turn hover).symm)
      (hover'.trans hover.symm) hsame] at hy'
    exact hy'
  constructor
  · intro hinvisible y
    exact ⟨htransfer false true y fun e => (hinvisible e).mp,
      htransfer true false y fun e => (hinvisible e).mpr⟩
  · intro halike e
    rw [hends, hends]
    exact exists_congr fun y => and_congr_left fun _ => halike y

theorem invisible_of_congr (P : Visit ρ μ → Prop) (hfirst : P ⟨s, false⟩)
    (hnext : ∀ v, P v → v.cpu.interpretOpcode b fcr31 other false =
      v.cpu.interpretOpcode b fcr31 other true)
    (hkeep : ∀ v, P v →
      (v.cpu.interpretOpcode b fcr31 other false).ended s.device.pc = false →
        P (v.cpu.interpretOpcode b fcr31 other false)) :
    s.ShortcutInvisible b fcr31 other := fun _ =>
  exists_congr fun _ => and_congr_left fun _ => ends_congr hnext hkeep hfirst

theorem invisible_of_lacks (h : s.IdlesAt b op name)
    (hlacks : s.lacks (name.declaration op) = true) : s.ShortcutInvisible b fcr31 other := by
  have hraise {v : Visit ρ μ} (hcode : ∀ a, v.cpu.fetched b a = s.fetched b a)
      (hpc : v.cpu.device.pc = s.device.pc) (hv : v.cpu.lacks (name.declaration op) = true)
      (shortcut : Bool) : v.cpu.interpretOpcode b fcr31 other shortcut =
        ⟨v.cpu.raiseCop1Unusable b, false⟩ := by
    rw [interpretOpcode_of_idles h hcode hpc, JumpDeclaration.runIdle, JumpDeclaration.run]
    rw [Cpu.lacks] at hv
    simp only [hv, if_true, ite_self]
  have hstatus (d : Device) : (d.cop1UnusableException b.cfg).status &&& cp0StatusCU1 =
      d.status &&& cp0StatusCU1 := by
    have hraised : (d.cop1UnusableException b.cfg).status = d.status ||| cp0StatusEXL := by
      rw [Device.cop1UnusableException, Device.exceptionGeneral, Device.deferJump,
        Device.markDelaySlot]
      split_ifs <;> rfl
    rw [hraised, BitVec.and_or_distrib_right,
      show cp0StatusEXL &&& cp0StatusCU1 = 0#32 by decide, BitVec.or_zero]
  refine invisible_of_congr (fun v => (∀ a, v.cpu.fetched b a = s.fetched b a) ∧
    v.cpu.device.pc = s.device.pc ∧ v.cpu.lacks (name.declaration op) = true)
    ⟨fun _ => rfl, rfl, hlacks⟩ ?_ ?_
  · rintro v ⟨hcode, hpc, hv⟩
    rw [hraise hcode hpc hv, hraise hcode hpc hv]
  · rintro v ⟨hcode, hpc, hv⟩ hover
    rw [hraise hcode hpc hv] at hover ⊢
    refine ⟨hcode, ?_, ?_⟩
    · rw [Visit.ended, Bool.false_or, decide_eq_false_iff_not, not_not] at hover
      exact hover
    · rw [← hv, Cpu.lacks, Cpu.lacks, Cpu.cop1Unusable, Cpu.cop1Unusable]
      exact congrArg (fun bits : Word => _ && decide (bits = 0#32)) (hstatus v.cpu.device)

theorem invisible_of_not_taken (h : s.IdlesAt b op name)
    (hlacks : s.lacks (name.declaration op) = false)
    (htakes : s.takes fcr31 (name.declaration op) = false) :
    s.ShortcutInvisible b fcr31 other := by
  refine invisible_of_congr (fun v => v.cpu = s) rfl ?_ ?_
  · rintro v rfl
    rw [Cpu.takes] at htakes
    rw [Cpu.lacks] at hlacks
    rw [interpretOpcode_of_idles h (fun _ => rfl) rfl,
      interpretOpcode_of_idles h (fun _ => rfl) rfl, if_pos rfl, if_neg Bool.false_ne_true,
      JumpDeclaration.runIdle]
    simp only [hlacks, htakes, Bool.false_eq_true, if_false]
  · rintro v rfl hover
    rw [interpretOpcode_of_idles h (fun _ => rfl) rfl, if_neg Bool.false_ne_true] at hover
    have hturned : Turned b fcr31 (name.declaration op) v.cpu
        ((name.declaration op).run b fcr31 other v.cpu) := turned_run hlacks h.self h.empty
    have hpc := hturned.pc
    rw [htakes, Bool.false_and, if_neg Bool.false_ne_true] at hpc
    simp [Visit.ended, hpc] at hover

/-- The shortcut never finds anything to skip, or does what running the jump does. -/
def Cpu.ShortcutFits (b : Board ρ μ) (fcr31 : Word) (j : JumpDeclaration) (s : Cpu ρ μ) : Prop :=
  s.lacks j = true ∨ s.takes fcr31 j = false ∨
    s.Behind ∧ ((s.idleLoop b fcr31 j).NeverSkips (s.counted b) ∨
      (s.idleLoop b fcr31 j).Near (s.counted b) ∧ (s.idleLoop b fcr31 j).jumps = true ∧
        (s.idleLoop b fcr31 j).stays = true ∧ (s.idleLoop b fcr31 j).Lands (s.counted b))

/-- The shortcut of an idle loop is invisible where it never skips or does what running the jump
does, and as long as Count and the next interrupt are away from the limit of Count, nowhere else. -/
theorem shortcut_invisible_iff (h : s.IdlesAt b op name) :
    (s.ShortcutFits b fcr31 (name.declaration op) → s.ShortcutInvisible b fcr31 other) ∧
      (s.Behind → (s.idleLoop b fcr31 (name.declaration op)).Near (s.counted b) →
        s.ShortcutInvisible b fcr31 other → s.ShortcutFits b fcr31 (name.declaration op)) := by
  cases hlacks : s.lacks (name.declaration op) with
  | true => exact ⟨fun _ => invisible_of_lacks h hlacks, fun _ _ _ => Or.inl hlacks⟩
  | false =>
    constructor
    · rintro (hfits | hfits | ⟨hbehind, hnever | ⟨hnear, hfits⟩⟩)
      · rw [hlacks] at hfits
        exact absurd hfits Bool.false_ne_true
      · exact invisible_of_not_taken h hlacks hfits
      · exact (invisible_iff_alike h hlacks hbehind).mpr (alike_of_neverSkips hnever)
      · rw [invisible_iff_alike h hlacks hbehind, alike_iff hnear]
        exact Or.inr (Or.inr hfits)
    · intro hbehind hnear hinvisible
      rw [invisible_iff_alike h hlacks hbehind, alike_iff hnear] at hinvisible
      rcases hinvisible with htake | hnever | hfits
      · exact Or.inr (Or.inl htake)
      · exact Or.inr (Or.inr ⟨hbehind, .inl hnever⟩)
      · exact Or.inr (Or.inr ⟨hbehind, .inr ⟨hnear, hfits⟩⟩)

end Interpreter

/-- An idle loop in RDRAM at an address, with a video interrupt at a count. -/
def spinningCpu (count : Word) : Cpu Unit Unit :=
  { sampleCpu with
    device := { blankDevice.addInterruptEventCount .viInt count with
      pc := 0x80000010#32, lastAddr := 0x80000010#32 }
    memory := ⟨fun i => if i = 4#21 then 0x08000004#32 else 0#32, ()⟩ }

theorem fetched_spinningCpu (count : Word) {address : Word}
    (hdirect : address &&& 0xC0000000#32 = 0x80000000#32)
    (hlow : address &&& 0x1FFFFFFC#32 < 0x800000#32) :
    (spinningCpu count).fetched sampleBoard address =
      some (if ((address &&& 0x1FFFFFFC#32) >>> 2).setWidth 21 = 4#21 then 0x08000004#32
        else 0#32) := by
  rw [Cpu.fetched, if_neg (not_not_intro hdirect), Cpu.codeAt]
  exact if_pos hlow

theorem idlesAt_spinningCpu (count : Word) :
    (spinningCpu count).IdlesAt sampleBoard 0x08000004#32 .j := by
  have hpc : (spinningCpu count).device.pc = 0x80000010#32 := rfl
  refine ⟨?_, rfl, ?_, ?_, ?_⟩
  · rw [hpc, fetched_spinningCpu count (by decide) (by decide), if_pos (by decide)]
  · rw [hpc]
    decide
  · rw [hpc, fetched_spinningCpu count (by decide) (by decide), if_neg (by decide)]
  · rw [hpc]
    decide

/-- With eight counts to go the interrupt is dispatched four counts late. -/
theorem dispatch_comes_late : ¬ ∀ (b : Board Unit Unit) (fcr31 : Word)
    (other : Option Word → Cpu Unit Unit → Cpu Unit Unit) (s : Cpu Unit Unit) (op : Word)
    (name : JumpName), s.IdlesAt b op name → s.ShortcutInvisible b fcr31 other := by
  intro hclaim
  have hinvisible := hclaim sampleBoard 0#32 (fun _ s => s) (spinningCpu 8#32) _ _
    (idlesAt_spinningCpu 8#32)
  have hnear : ((spinningCpu 8#32).idleLoop sampleBoard 0#32
      (JumpName.j.declaration 0x08000004#32)).Near ((spinningCpu 8#32).counted sampleBoard) :=
    ⟨by decide, by decide, by decide⟩
  rw [invisible_iff_alike (idlesAt_spinningCpu 8#32) rfl (behind_of_lastAddr rfl), alike_iff hnear]
    at hinvisible
  rcases hinvisible with htake | hnever | ⟨-, -, hlands⟩
  · exact absurd htake (by decide)
  · exact absurd (hnever _ .first) (by decide)
  · exact hlands.rest (by decide)

/-- With ten counts to go it is dispatched in time. -/
theorem spinning_dispatches_alike :
    (spinningCpu 10#32).ShortcutFits sampleBoard 0#32 (JumpName.j.declaration 0x08000004#32) ∧
      (spinningCpu 10#32).ShortcutInvisible sampleBoard 0#32 (fun _ s => s) := by
  have hfits : (spinningCpu 10#32).ShortcutFits sampleBoard 0#32
      (JumpName.j.declaration 0x08000004#32) := by
    refine Or.inr (Or.inr ⟨behind_of_lastAddr rfl, Or.inr ⟨⟨by decide, by decide, by decide⟩,
      by decide, by decide, by decide, by decide, Or.inr ?_⟩⟩)
    exact ⟨2, by decide⟩
  exact ⟨hfits, (shortcut_invisible_iff (idlesAt_spinningCpu 10#32)).1 hfits⟩

end ParallelN64.R4300
