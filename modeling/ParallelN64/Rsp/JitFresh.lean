import ParallelN64.Rsp.JitCode
import ParallelN64.Rsp.SpDmaMoves

/-!
# No stale code

The pointers in the code cache point to blocks that were compiled from the words of the snapshot
of the IMEM. While compiled code runs, the snapshot is the IMEM; when it is not, every word that
differs has its code block and the one before it marked.
-/

namespace ParallelN64.Rsp

open ParallelN64.Core

def Touched (dirty : UInt32) (w : Nat) : Prop :=
  isDirty dirty (w / 64) = true ∧ (64 ≤ w → isDirty dirty (w / 64 - 1) = true)

section Dirty

variable {dirty mask : UInt32} {w : Nat}

theorem isDirty_or {i : Nat} (h : isDirty dirty i = true) : isDirty (dirty ||| mask) i = true := by
  rw [isDirty, UInt32.toNat_or, Nat.testBit_or, Bool.or_eq_true]
  exact Or.inl h

theorem Touched.or (h : Touched dirty w) : Touched (dirty ||| mask) w :=
  ⟨isDirty_or h.1, fun hw => isDirty_or (h.2 hw)⟩

end Dirty

section Dma

variable {m : SpMachine} {val : UInt32} {w : Nat}

theorem Touched.invalidate {dirty : UInt32} (h : Touched dirty w) (addr : Nat) :
    Touched (Rsp.invalidate dirty addr) w := by
  unfold Rsp.invalidate
  split
  · exact h.or
  · exact h

section Rows

variable {destAddr : Nat → Nat → Nat} {count turns : Nat} {dirty : UInt32}

end Rows

end Dma

def Block.From (b : Block) (imem : Imem) : Prop := b.words = imemWords imem b.pc b.words.length

def Block.InRange (b : Block) : Prop :=
  b.pc + b.words.length ≤ (b.pc / 64 + 2) * 64 ∧ b.pc + b.words.length ≤ 1024

def Entry.Current (e : Entry) : Prop :=
  e.block.pc = (e.pc &&& 0xFFF).toNat >>> 2 ∧
    ∀ i < e.block.words.length, e.block.words[i]? = some (e.imem (e.block.pc + i))

def Cpu.NoCollision (c : Cpu) : Prop :=
  ∀ x ∈ c.hashed, ∀ y ∈ c.hashed, x.1 = y.1 → hashImem x.1 x.2 = hashImem y.1 y.2 → x.2 = y.2

def Cpu.Tracked (c : Cpu) : Prop :=
  ∀ w < 1024, c.cachedImem w ≠ c.state.imem w → Touched c.state.dirtyBlocks w

def Cpu.Clean (c : Cpu) : Prop := ∀ w < 1024, c.cachedImem w = c.state.imem w

/-- What the code cache holds. -/
structure Cpu.Sound (c : Cpu) : Prop where
  cached : ∀ pc hash b, c.cachedBlocks pc hash = some b →
    b.pc = pc ∧ b.InRange ∧ (pc, b.words) ∈ c.hashed ∧ hash = hashImem pc b.words
  block : ∀ pc b, c.blocks pc = some b → b.pc = pc ∧ b.InRange ∧ b.From c.cachedImem
  entered : ∀ e ∈ c.entered, e.Current

/-- What is known of the snapshot in each phase. -/
def JitState.Synced (s : JitState) : Prop :=
  match s.phase with
  | .host => True
  | .task => s.cpu.Tracked
  | .code => s.cpu.Clean

section Words

variable {imem imem' : Imem} {pc count : Nat}

theorem imemWords_congr (h : ∀ i < count, imem (pc + i) = imem' (pc + i)) :
    imemWords imem pc count = imemWords imem' pc count :=
  List.map_congr_left fun i hi => h i (List.mem_range.mp hi)

end Words

theorem Block.From.congr {b : Block} {imem imem' : Imem} (h : b.From imem)
    (heq : ∀ i < b.words.length, imem (b.pc + i) = imem' (b.pc + i)) : b.From imem' :=
  h.trans (imemWords_congr heq)

section Invalidate

variable {c : Cpu}

end Invalidate

section Find

variable {c : Cpu} {pc : UInt32}

theorem Cpu.Sound.set {b : Block} {wordPc : Nat} (h : c.Sound) (hpc : b.pc = wordPc)
    (hrange : b.InRange) (hfrom : b.From c.cachedImem) :
    Cpu.Sound { c with blocks := Function.update c.blocks wordPc (some b) } := by
  refine ⟨h.cached, fun pc b' hb => ?_, h.entered⟩
  dsimp only at hb
  rw [Function.update_apply] at hb
  split at hb
  · next heq =>
    cases hb
    exact ⟨hpc.trans heq.symm, hrange, hfrom⟩
  · exact h.block pc b' hb

theorem Cpu.Sound.hash (h : c.Sound) (x : Nat × List UInt32) :
    Cpu.Sound { c with hashed := x :: c.hashed } := by
  refine ⟨fun pc hash b hb => ?_, h.block, h.entered⟩
  obtain ⟨hpc, hrange, hmem, hhash⟩ := h.cached pc hash b hb
  exact ⟨hpc, hrange, List.mem_cons_of_mem _ hmem, hhash⟩

theorem Cpu.Sound.keep {b : Block} (h : c.Sound) (hrange : b.InRange)
    (hmem : (b.pc, b.words) ∈ c.hashed) :
    Cpu.Sound { c with
      cachedBlocks := Function.update c.cachedBlocks b.pc
        (Function.update (c.cachedBlocks b.pc) (hashImem b.pc b.words) (some b)) } := by
  refine ⟨fun pc hash b' hb => ?_, h.block, h.entered⟩
  dsimp only at hb
  rw [Function.update_apply] at hb
  split at hb
  · next hpc =>
    subst hpc
    rw [Function.update_apply] at hb
    split at hb
    · next hhash =>
      cases hb
      exact ⟨rfl, hrange, hmem, hhash⟩
    · exact h.cached _ hash b' hb
  · exact h.cached pc hash b' hb

end Find

section Enter

variable {c : Cpu}

theorem Cpu.NoCollision.mono {c' : Cpu} (h : c'.NoCollision) (hsub : c.hashed ⊆ c'.hashed) :
    c.NoCollision :=
  fun x hx y hy => h x (hsub hx) y (hsub hy)

end Enter

end ParallelN64.Rsp
