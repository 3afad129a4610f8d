import Mathlib.Data.Finset.Card
import Mathlib.Data.Fintype.Card
import Mathlib.Data.List.FinRange
import Mathlib.Data.List.MinMax
import Mathlib.Logic.Function.Basic

/-!
# The register cache of the RSP JIT

The compiled code keeps MIPS registers in host registers of 64 bits. The cache tells which host
register holds which MIPS register, how its upper half is known to be extended, whether memory still
has an older value, and how many times it is locked.
-/

namespace ParallelN64.Rsp

inductive SignState where
  | sExt | zExt | unknown
  deriving DecidableEq, Repr

/-- `RegisterCache::CacheEntry`. -/
structure CacheEntry where
  mipsRegister : Nat := 0
  timestamp : BitVec 32 := 0
  numLocks : Nat := 0
  sign : SignState := .sExt
  isLive : Bool := false
  modified : Bool := false
  deriving DecidableEq, Repr

/-- `COND_BRANCH_TAKEN`, the last register in the register file. Scratch registers are above. -/
def condBranchTaken : Nat := 32

/-- `SCRATCH_REGISTER0` and `SCRATCH_REGISTER1`. -/
def scratchRegister0 : Nat := 33
def scratchRegister1 : Nat := 34

/-- The cache with its host registers and the register file in memory. -/
structure CacheState (n : Nat) where
  entries : Fin n → CacheEntry
  timestamp : BitVec 32
  host : Fin n → BitVec 64
  sr : Nat → BitVec 32

def lowWord (x : BitVec 64) : BitVec 32 := x.setWidth 32

/-- The three loads of a MIPS register. -/
inductive LoadExt where
  | noext | sext | zext
  deriving DecidableEq, Repr

def LoadExt.extend (ext : LoadExt) (x : BitVec 32) : BitVec 64 :=
  match ext with
  | noext | sext => x.signExtend 64
  | zext => x.setWidth 64

def LoadExt.tag : LoadExt → SignState
  | noext | sext => .sExt
  | zext => .zExt

namespace CacheState

variable {n : Nat} (s : CacheState n)

def setEntry (i : Fin n) (entry : CacheEntry) : CacheState n :=
  { s with entries := Function.update s.entries i entry }

def setHost (i : Fin n) (value : BitVec 64) : CacheState n :=
  { s with host := Function.update s.host i value }

def setSr (r : Nat) (value : BitVec 32) : CacheState n :=
  { s with sr := Function.update s.sr r value }

section Fields

variable {s : CacheState n} {i j : Fin n} {entry : CacheEntry} {value : BitVec 64}

@[simp] theorem setEntry_entries_self : (s.setEntry i entry).entries i = entry :=
  Function.update_self _ _ _

theorem setEntry_entries_of_ne (h : j ≠ i) : (s.setEntry i entry).entries j = s.entries j :=
  Function.update_of_ne h _ _

@[simp] theorem setHost_entries : (s.setHost i value).entries = s.entries := rfl

@[simp] theorem setSr_entries (r : Nat) (value : BitVec 32) :
    (s.setSr r value).entries = s.entries := rfl

@[simp] theorem setHost_host_self : (s.setHost i value).host i = value :=
  Function.update_self _ _ _

theorem setHost_self : s.setHost i (s.host i) = s := by
  simp [setHost]

end Fields

/-- `find_live_mips_register`. -/
def findLiveMipsRegister (r : Nat) : Option (Fin n) :=
  (List.finRange n).find? fun i => (s.entries i).isLive && (s.entries i).mipsRegister == r

/-- `find_free_register`. -/
def findFreeRegister : Option (Fin n) := (List.finRange n).find? fun i => !(s.entries i).isLive

/-- `find_oldest_unlocked_register`: the first one of the least timestamp. -/
def findOldestUnlockedRegister : Option (Fin n) :=
  ((List.finRange n).filter fun i => (s.entries i).isLive && (s.entries i).numLocks == 0).argmin
    fun i => (s.entries i).timestamp.toNat

/-- `find_register`; nothing is found where the assertion fails. -/
def findRegister (r : Nat) : Option (Fin n) :=
  (s.findLiveMipsRegister r).or (s.findFreeRegister.or s.findOldestUnlockedRegister)

/-! ## Operations

An operation has no result where an assertion fails. -/

/-- `writeback_register`. -/
def writebackRegister (i : Fin n) : Option (CacheState n) :=
  let entry := s.entries i
  if entry.mipsRegister = 0 then none
  else
    let s := if entry.mipsRegister ≤ condBranchTaken then
      s.setSr entry.mipsRegister (lowWord (s.host i)) else s
    some (s.setEntry i { entry with modified := false })

def fill (i : Fin n) (r : Nat) (ext : LoadExt) : CacheState n :=
  (s.setHost i (if r ≠ 0 then ext.extend (s.sr r) else 0#64)).setEntry i
    { s.entries i with mipsRegister := r, sign := ext.tag, isLive := true, modified := false }

/-- The extension in place, where the entry does not promise it already. -/
def extend (i : Fin n) (r : Nat) (ext : LoadExt) : CacheState n :=
  if ext = .noext ∨ (s.entries i).sign = ext.tag then s
  else
    (s.setHost i (if r ≠ 0 then ext.extend (lowWord (s.host i)) else s.host i)).setEntry i
      { s.entries i with sign := ext.tag }

def lock (i : Fin n) : CacheState n :=
  let timestamp := s.timestamp + 1
  { s with timestamp := timestamp }.setEntry i
    { s.entries i with timestamp := timestamp, numLocks := (s.entries i).numLocks + 1 }

def evict (i : Fin n) (r : Nat) : Option (CacheState n) :=
  let entry := s.entries i
  if entry.isLive ∧ entry.mipsRegister ≠ r ∧ entry.modified then s.writebackRegister i else some s

/-- `load_mips_register_noext`, `load_mips_register_sext` and `load_mips_register_zext`. -/
def loadMipsRegister (ext : LoadExt) (r : Nat) : Option (CacheState n) := do
  let i ← s.findRegister r
  let entry := s.entries i
  if r ≤ condBranchTaken then
    if entry.isLive ∧ entry.mipsRegister = r then some ((s.extend i r ext).lock i)
    else
      let s ← s.evict i r
      some ((s.fill i r ext).lock i)
  else none

/-- `modify_mips_register`, with the entry that the host register belongs to. -/
def modifyMipsRegister (r : Nat) : Option (Fin n × CacheState n) := do
  let i ← s.findRegister r
  let s ← s.evict i r
  let s := s.setEntry i
    { s.entries i with mipsRegister := r, isLive := true, sign := .unknown, modified := true }
  some (i, s.lock i)

/-- `immediate_mips_register`. -/
def immediateMipsRegister (r : Nat) (value : BitVec 64) : Option (CacheState n) := do
  let (i, s) ← s.modifyMipsRegister r
  let s := s.setHost i value
  some (s.setEntry i { s.entries i with sign := .sExt })

/-- `unlock_mips_register`. -/
def unlockMipsRegister (r : Nat) : Option (CacheState n) := do
  let i ← s.findLiveMipsRegister r
  let entry := s.entries i
  if entry.numLocks = 0 then none
  else some (s.setEntry i { entry with numLocks := entry.numLocks - 1 })

/-- A live entry is written back if it is modified, and cleared. -/
def flushEntry (i : Fin n) : Option (CacheState n) :=
  let entry := s.entries i
  if entry.isLive then do
    let s ← if entry.modified then s.writebackRegister i else some s
    if entry.numLocks = 0 then some (s.setEntry i {}) else none
  else some s

def flushEntries : List (Fin n) → CacheState n → Option (CacheState n)
  | [], s => some s
  | i :: l, s => (s.flushEntry i).bind (flushEntries l)

/-- `flush_register_window`. -/
def flushRegisterWindow : Option (CacheState n) :=
  (flushEntries (List.finRange n) s).map fun s => { s with timestamp := 0 }

/-- `flush_caller_save_registers`: the first `rNum` entries are in caller-save registers. -/
def flushCallerSaveRegisters (rNum : Nat) : Option (CacheState n) :=
  flushEntries ((List.finRange n).filter fun i => i.val < rNum) s

/-- `flush_mips_register`. -/
def flushMipsRegister (r : Nat) : Option (CacheState n) :=
  match s.findLiveMipsRegister r with
  | some i => s.flushEntry i
  | none => some s

/-- `reset`. -/
def reset : CacheState n := { s with entries := fun _ => {} }

def write (r : Nat) (value : BitVec 64) : Option (CacheState n) := do
  let i ← s.findLiveMipsRegister r
  some (s.setHost i value)

/-- Code and calls leave anything in host registers that hold no register of the register file. -/
def clobber (value : Fin n → BitVec 64) : CacheState n :=
  { s with host := fun i =>
      if (s.entries i).isLive && (s.entries i).mipsRegister ≤ condBranchTaken then s.host i
      else value i }

end CacheState

/-- The operations, with what the emitted code does between them. A call may write a register of
the register file. -/
inductive CacheOp (n : Nat) where
  | load (ext : LoadExt) (r : Nat)
  | modify (r : Nat)
  | immediate (r : Nat) (value : BitVec 64)
  | unlock (r : Nat)
  | flushRegisterWindow
  | flushCallerSaveRegisters (rNum : Nat)
  | flushMipsRegister (r : Nat)
  | reset
  | write (r : Nat) (value : BitVec 64)
  | clobber (value : Fin n → BitVec 64)
  | call (r : Nat) (value : BitVec 32)

namespace CacheState

variable {n : Nat}

def step (s : CacheState n) : CacheOp n → Option (CacheState n)
  | .load ext r => s.loadMipsRegister ext r
  | .modify r => (s.modifyMipsRegister r).map Prod.snd
  | .immediate r value => s.immediateMipsRegister r value
  | .unlock r => s.unlockMipsRegister r
  | .flushRegisterWindow => s.flushRegisterWindow
  | .flushCallerSaveRegisters rNum => s.flushCallerSaveRegisters rNum
  | .flushMipsRegister r => s.flushMipsRegister r
  | .reset => some s.reset
  | .write r value => s.write r value
  | .clobber value => some (s.clobber value)
  | .call r value => some (s.setSr r value)

def run : List (CacheOp n) → CacheState n → Option (CacheState n)
  | [], s => some s
  | op :: ops, s => (s.step op).bind (run ops)

end CacheState

end ParallelN64.Rsp
