import Mathlib.Data.Option.Basic
import ParallelN64.Savestate.Machine

/-!
# The translation tables

The translation lookaside buffer has 32 entries of two halves. Two tables, one for reading
and one for writing, hold the physical page of every virtual page. A written entry first
takes its old halves out of the tables and then puts its new ones in.
-/

namespace ParallelN64.Tlb

open R4300 Savestate

abbrev Page := BitVec 20
abbrev Lut := Page → Word

/-- `tlb_LUT_r` and `tlb_LUT_w`. -/
structure Luts where
  r : Lut
  w : Lut

def page (address : Word) : Page := (address >>> 12).setWidth 20

/-- The addresses that a loop over pages takes, if it ends. After 2^20 turns it is back
where it began. -/
def loopPages : Nat → Word → Word → Option (List Word)
  | 0, i, stop => if i < stop then none else some []
  | turns + 1, i, stop =>
    if i < stop then (loopPages turns (i + 0x1000#32) stop).map (i :: ·) else some []

def storePages (lut : Lut) (start stop : Word) (value : Word → Word) : Option Lut :=
  (loopPages (2 ^ 20) start stop).map fun pages =>
    pages.foldl (fun lut i => Function.update lut (page i) (value i)) lut

/-- One half of an entry. -/
structure Half where
  v : BitVec 8
  d : BitVec 8
  start : Word
  stop : Word
  phys : Word

def even (e : TlbEntry) : Half := ⟨e.vEven, e.dEven, e.startEven, e.endEven, e.physEven⟩
def odd (e : TlbEntry) : Half := ⟨e.vOdd, e.dOdd, e.startOdd, e.endOdd, e.physOdd⟩

def storeHalf (luts : Luts) (h : Half) (value : Word → Word) : Option Luts :=
  (storePages luts.r h.start h.stop value).bind fun r =>
    if h.d ≠ 0#8 then (storePages luts.w h.start h.stop value).map fun w => ⟨r, w⟩
    else some ⟨r, luts.w⟩

def unmapHalf (luts : Luts) (h : Half) : Option Luts :=
  if h.v ≠ 0#8 then storeHalf luts h fun _ => 0#32 else some luts

/-- The conditions of `tlb_map`. -/
def mappable (h : Half) : Bool :=
  h.start < h.stop && !(0x80000000#32 ≤ h.start && h.stop < 0xC0000000#32) &&
    h.phys < 0x20000000#32

def mappedValue (h : Half) (i : Word) : Word := 0x80000000#32 ||| (h.phys + (i - h.start) + 0xFFF#32)

def mapHalf (luts : Luts) (h : Half) : Option Luts :=
  if h.v ≠ 0#8 then
    if mappable h then storeHalf luts h (mappedValue h) else some luts
  else some luts

/-- `tlb_unmap`. -/
def tlbUnmap (luts : Luts) (e : TlbEntry) : Option Luts :=
  (unmapHalf luts (even e)).bind fun luts => unmapHalf luts (odd e)

/-- `tlb_map`. -/
def tlbMap (luts : Luts) (e : TlbEntry) : Option Luts :=
  (mapHalf luts (even e)).bind fun luts => mapHalf luts (odd e)

/-- The registers that a write takes an entry from. -/
structure TlbRegs where
  entryLo0 : Word
  entryLo1 : Word
  entryHi : Word
  pageMask : Word

/-- The entry that a write makes of the registers. -/
def entryOf (old : TlbEntry) (regs : TlbRegs) : TlbEntry :=
  let mask := (regs.pageMask &&& 0x1FFE000#32) >>> 13
  let vpn2 := (regs.entryHi &&& 0xFFFFE000#32) >>> 13
  let pfnEven := (regs.entryLo0 &&& 0x3FFFFFC0#32) >>> 6
  let pfnOdd := (regs.entryLo1 &&& 0x3FFFFFC0#32) >>> 6
  let startEven := vpn2 <<< 13
  let endEven := startEven + mask <<< 12 + 0xFFF#32
  let startOdd := endEven + 1#32
  { old with
    mask := mask.setWidth 16
    vpn2
    g := (regs.entryLo0 &&& regs.entryLo1 &&& 1#32).setWidth 8
    asid := (regs.entryHi &&& 0xFF#32).setWidth 8
    pfnEven
    cEven := ((regs.entryLo0 &&& 0x38#32) >>> 3).setWidth 8
    dEven := ((regs.entryLo0 &&& 0x4#32) >>> 2).setWidth 8
    vEven := ((regs.entryLo0 &&& 0x2#32) >>> 1).setWidth 8
    pfnOdd
    cOdd := ((regs.entryLo1 &&& 0x38#32) >>> 3).setWidth 8
    dOdd := ((regs.entryLo1 &&& 0x4#32) >>> 2).setWidth 8
    vOdd := ((regs.entryLo1 &&& 0x2#32) >>> 1).setWidth 8
    startEven
    endEven
    physEven := pfnEven <<< 12
    startOdd
    endOdd := startOdd + mask <<< 12 + 0xFFF#32
    physOdd := pfnOdd <<< 12 }

/-- The entries and the tables. -/
structure TlbState where
  entries : Fin 32 → TlbEntry
  luts : Luts

def blankEntry : TlbEntry :=
  ⟨0, 0, 0, 0, 0, 0, 0, 0, 0, 0, 0, 0, 0, 0, 0, 0, 0, 0, 0⟩

/-- `poweron_tlb`. -/
def poweronTlb : TlbState where
  entries _ := blankEntry
  luts := ⟨fun _ => 0#32, fun _ => 0#32⟩

def inValid (h : Half) (address : Word) : Bool := h.start ≤ address && address < h.stop && h.v ≠ 0#8

def spared (e : TlbEntry) (pc : Word) : Bool := inValid (even e) pc || inValid (odd e) pc

/-- `TLBWrite`. A loop that does not end has no result. -/
def tlbWrite (t : TlbState) (idx : Fin 32) (regs : TlbRegs) (pc : Word) : Option TlbState :=
  if spared (t.entries idx) pc then some t
  else
    let e := entryOf (t.entries idx) regs
    (tlbUnmap t.luts (t.entries idx)).bind fun luts =>
      (tlbMap luts e).map fun luts => ⟨Function.update t.entries idx e, luts⟩

def entryIndex (index : Word) : Option (Fin 32) :=
  if h : index.toNat < 32 then some ⟨index.toNat, h⟩ else none

/-- A write instruction with the registers that it looks at, at an address. -/
inductive TlbInstr where
  | tlbwi (index : Word) (regs : TlbRegs) (pc : Word)
  | tlbwr (count wired : Word) (regs : TlbRegs) (pc : Word)

/-- The entry that an instruction writes. There is none outside the table, or when the
number of random entries is zero. -/
def TlbInstr.index : TlbInstr → Option (Fin 32)
  | .tlbwi index _ _ => entryIndex (index &&& 0x3F#32)
  | .tlbwr count wired _ _ =>
    if 32#32 - wired = 0#32 then none
    else entryIndex (count / 2#32 % (32#32 - wired) + wired)

def TlbInstr.regs : TlbInstr → TlbRegs
  | .tlbwi _ regs _ | .tlbwr _ _ regs _ => regs

def TlbInstr.pc : TlbInstr → Word
  | .tlbwi _ _ pc | .tlbwr _ _ _ pc => pc

/-- `TLBWI` and `TLBWR`. -/
def TlbState.step (t : TlbState) (instr : TlbInstr) : Option TlbState :=
  instr.index.bind fun idx => tlbWrite t idx instr.regs instr.pc

def TlbState.run (t : TlbState) : List TlbInstr → Option TlbState
  | [] => some t
  | instr :: instrs => (t.step instr).bind fun t => t.run instrs

end ParallelN64.Tlb
