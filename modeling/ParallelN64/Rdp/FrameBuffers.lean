import ParallelN64.R4300.Device

/-!
# Framebuffers of the graphics plugin

The plugin reports where its framebuffers are. Until the next display list, accesses of the
processor to the memory around them go through handlers of their own, which ask the plugin for a
page before it is first read. The memory map counts in units of 64 KiB, the dirty flags in pages
of 4 KiB, and the extent of a framebuffer in bytes.
-/

namespace ParallelN64.Rdp

open R4300 (Word)

structure FrameBufferInfo where
  addr : Word
  size : Word
  width : Word
  height : Word
  deriving DecidableEq, Repr

namespace FrameBufferInfo

variable (info : FrameBufferInfo)

def bytes : Nat := info.width.toNat * info.height.toNat * info.size.toNat

/-- `start`. -/
def start : Word := info.addr &&& 0x7FFFFF#32

/-- `end`, as an unsigned number. -/
def stop : Word := info.start + info.width * info.height * info.size - 1#32

def InRdram : Prop := info.start.toNat + info.bytes ≤ 0x800000

instance : Decidable info.InRdram := inferInstanceAs (Decidable (_ ≤ _))

def Overlaps (page : Nat) : Prop :=
  info.addr ≠ 0#32 ∧ ∃ k < info.bytes, (info.start.toNat + k) / 0x1000 = page

def Hits (address : Word) : Prop :=
  info.addr ≠ 0#32 ∧ info.start ≤ address &&& 0x7FFFFF#32 ∧ address &&& 0x7FFFFF#32 ≤ info.stop

instance (address : Word) : Decidable (info.Hits address) :=
  inferInstanceAs (Decidable (_ ∧ _ ∧ _))

end FrameBufferInfo

/-- The handlers of a region of the memory map, `RW(rdram)` or `RW(rdramFB)`, or others. -/
inductive RegionHandlers where
  | rdram
  | rdramFB
  | other (handlers : Nat)
  deriving DecidableEq, Repr

/-- `FB_INFOS_COUNT`. -/
abbrev fbInfosCount : Nat := 6

/-- `fb`, with the memory map and the dynamic recompiler's `fast_memory`. -/
structure FbState where
  dirtyPage : Nat → Bool
  infos : Fin fbInfosCount → FrameBufferInfo
  once : Bool
  fastMemory : Bool
  map : Nat → RegionHandlers

namespace FbState

variable (s : FbState)

/-- `map_region` on both segments of RDRAM. -/
def mapRdram (handlers : RegionHandlers) (j : Nat) : FbState :=
  let map := Function.update s.map (0x8000 + j) handlers
  { s with map := Function.update map (0xA000 + j) handlers }

def setDirty (page : Nat) (dirty : Bool) : FbState :=
  { s with dirtyPage := Function.update s.dirtyPage page dirty }

/-- `for (j = a; j <= b; j++)`. -/
def upTo (a : Nat) (b : Int) : List Nat := List.range' a (b + 1 - a).toNat

/-- One descriptor of `protect_framebuffers`. -/
def protectOne (info : FrameBufferInfo) : FbState :=
  if info.addr = 0#32 then s
  else
    let start := info.start.toNat
    let stop := info.stop.toInt
    let s := (upTo (start >>> 16) (stop >>> (16 : Nat))).foldl (mapRdram · .rdramFB ·) s
    let s := (upTo (start >>> 16 <<< 4) ((stop >>> (16 : Nat)) * 2 ^ 4)).foldl
      (fun s j => s.setDirty j (decide (start ≤ j ∧ (j : Int) ≤ stop))) s
    if s.once then { s with once := false, fastMemory := false } else s

/-- `protect_framebuffers`, where the plugin has all three functions and reports some
descriptors. -/
def protectFramebuffers (reported : Fin fbInfosCount → FrameBufferInfo) : FbState :=
  let s := { s with infos := reported }
  if (s.infos 0).addr ≠ 0#32 then (List.ofFn s.infos).foldl protectOne s else s

/-- One descriptor of `unprotect_framebuffers`. -/
def unprotectOne (info : FrameBufferInfo) : FbState :=
  if info.addr = 0#32 then s
  else
    (upTo (info.start.toNat >>> 16) (info.stop.toInt >>> (16 : Nat))).foldl (mapRdram · .rdram ·) s

/-- `unprotect_framebuffers`. -/
def unprotectFramebuffers : FbState :=
  if (s.infos 0).addr ≠ 0#32 then (List.ofFn s.infos).foldl unprotectOne s else s

def pageOf (address : Word) : Nat := ((address &&& 0x7FFFFF#32) >>> 12).toNat

/-- One descriptor of `pre_framebuffer_read`, with the addresses that `fBRead` is called for. -/
def preReadOne (address : Word) (result : List Word × FbState) (info : FrameBufferInfo) :
    List Word × FbState :=
  if info.Hits address ∧ result.2.dirtyPage (pageOf address) then
    (result.1 ++ [address], result.2.setDirty (pageOf address) false)
  else result

/-- `pre_framebuffer_read`. -/
def preFramebufferRead (address : Word) : List Word × FbState :=
  (List.ofFn s.infos).foldl (preReadOne address) ([], s)

/-- A read by the processor, through the handler of its region. -/
def cpuRead (address : Word) : List Word × FbState :=
  match s.map (address >>> 16).toNat with
  | .rdramFB => s.preFramebufferRead address
  | _ => ([], s)

def cpuReads (addresses : List Word) : FbState :=
  addresses.foldl (fun s address => (s.cpuRead address).2) s

/-- `poweron_fb`, and the map as `poweron_memory` leaves it. -/
def poweron (others : Nat → Nat) : FbState where
  dirtyPage _ := false
  infos _ := ⟨0#32, 0#32, 0#32, 0#32⟩
  once := true
  fastMemory := true
  map region :=
    if 0x8000 ≤ region ∧ region < 0x8080 ∨ 0xA000 ≤ region ∧ region < 0xA080 then .rdram
    else .other (others region)

/-- The states in which `do_SP_Task` protects framebuffers: it has taken the protection back that
it gave after the display list before. -/
inductive BeforeProtect : FbState → Prop where
  | poweron (others : Nat → Nat) : BeforeProtect (FbState.poweron others)
  | task {s : FbState} (reported : Fin fbInfosCount → FrameBufferInfo) (reads : List Word)
      (before : BeforeProtect s)
      (extents : ∀ i, (reported i).addr ≠ 0#32 → (reported i).InRdram) :
      BeforeProtect ((s.protectFramebuffers reported).cpuReads reads).unprotectFramebuffers

end FbState

end ParallelN64.Rdp
