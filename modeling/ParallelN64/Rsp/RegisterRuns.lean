import ParallelN64.Rsp.RegisterCoherent

/-!
# Sequences of register cache operations

Each operation, issued where the compiler may issue it, passes its assertions and keeps the cache
coherent. So does every sequence, and a flush at its end leaves the last values in memory.
-/

namespace ParallelN64.Rsp

namespace Assigned

def assign (a : Assigned) (r : Nat) (x : BitVec 32) : Assigned where
  value := Function.update a.value r x
  pending := Function.update a.pending r false

def await (a : Assigned) (r : Nat) : Assigned :=
  { a with pending := Function.update a.pending r (decide (r ≤ condBranchTaken)) }

variable {a : Assigned} {r r' : Nat} {x : BitVec 32}

@[simp] theorem assign_value_self : (a.assign r x).value r = x := Function.update_self _ _ _

@[simp] theorem assign_pending_self : (a.assign r x).pending r = false :=
  Function.update_self _ _ _

@[simp] theorem await_pending_self : (a.await r).pending r = decide (r ≤ condBranchTaken) :=
  Function.update_self _ _ _

theorem assign_value_of_ne (h : r' ≠ r) : (a.assign r x).value r' = a.value r' :=
  Function.update_of_ne h _ _

theorem assign_pending_of_ne (h : r' ≠ r) : (a.assign r x).pending r' = a.pending r' :=
  Function.update_of_ne h _ _

theorem await_pending_of_ne (h : r' ≠ r) : (a.await r).pending r' = a.pending r' :=
  Function.update_of_ne h _ _

end Assigned

/-- What an operation assigns. -/
def CacheOp.assign {n : Nat} (a : Assigned) : CacheOp n → Assigned
  | .modify r => a.await r
  | .immediate r value | .write r value => a.assign r (lowWord value)
  | .call r value => a.assign r value
  | _ => a

namespace CacheState

variable {n : Nat}

/-- An entry has been locked once more for a register. It held the register before, or none did
and it was not locked. -/
structure Took (s s' : CacheState n) (i : Fin n) (r : Nat) : Prop where
  others : ∀ j, j ≠ i → s'.entries j = s.entries j
  holds : s'.Holds i r
  locks : s.Holds i r ∧ (s'.entries i).numLocks = (s.entries i).numLocks + 1 ∨
    (∀ j, ¬ s.Holds j r) ∧ ((s.entries i).isLive = true → (s.entries i).numLocks = 0) ∧
      (s'.entries i).numLocks = 1

section Locking

variable {s : CacheState n} {a : Assigned} {i : Fin n} {r : Nat}

theorem Coherent.relock (h : Coherent s a) (hi : s.Holds i r) (t : BitVec 32) (locks : Nat)
    (hlocks : a.pending r = true → 0 < locks) :
    Coherent (s.setEntry i { s.entries i with timestamp := t, numLocks := locks }) a := by
  have hseen := seen_none.mpr hi
  have hsame : s.setEntry i { s.entries i with timestamp := t, numLocks := locks } =
      (s.setHost i (s.host i)).setEntry i
        { s.entries i with timestamp := t, numLocks := locks } := by
    rw [setHost_self]
  rw [hsame]
  apply CoherentBut.close (r := r) (h.punch hi) (.inr rfl)
  · exact fun j hj hholds => hj (h.unique hholds hi)
  · exact hi.1
  · exact hi.2
  · exact h.tag i r hseen
  · exact h.value i r hseen
  · exact h.clean i r hseen
  · exact fun hr => h.zero i (hr ▸ hseen)
  · exact h.scratch i r hseen
  · intro hpending
    obtain ⟨hpos, hle, j, hj, -, hrest⟩ := h.awaited r hpending
    have hij := h.unique hi (seen_none.mp hj)
    subst hij
    exact ⟨hpos, hle, hlocks hpending, hrest⟩
  · intro r' hr'
    exact ⟨rfl, (Assigned.settle_pending_of_ne hr').symm⟩

theorem Coherent.lock (h : Coherent s a) (hi : s.Holds i r) : Coherent (s.lock i) a :=
  CoherentBut.withTimestamp (h.relock hi _ _ fun _ => Nat.succ_pos _) _

@[simp] theorem lock_entries_self : (s.lock i).entries i =
    { s.entries i with timestamp := s.timestamp + 1, numLocks := (s.entries i).numLocks + 1 } :=
  Function.update_self _ _ _

theorem lock_entries_of_ne {j : Fin n} (h : j ≠ i) : (s.lock i).entries j = s.entries j :=
  Function.update_of_ne h _ _

theorem Coherent.extend (h : Coherent s a) (hi : s.Holds i r) (hr : r ≤ condBranchTaken)
    (hsettled : a.pending r = false) (ext : LoadExt) : Coherent (s.extend i r ext) a := by
  unfold CacheState.extend
  split
  · exact h
  have hseen := seen_none.mpr hi
  apply CoherentBut.close (r := r) (a := a.settle r) (h.punch hi) (.inr rfl)
  · exact fun j hj hholds => hj (h.unique hholds hi)
  · exact hi.1
  · exact hi.2
  · by_cases hzero : r = 0
    · rw [if_neg (not_not.mpr hzero), (h.zero i (hzero ▸ hseen)).2]
      exact tagTrue_zero _
    · rw [if_pos hzero]
      exact tagTrue_extend _ _
  · intro hpos hle hpending
    rw [if_pos hpos.ne', lowWord_extend]
    exact h.value i r hseen hpos hle hpending
  · exact h.clean i r hseen
  · intro hzero
    rw [if_neg (not_not.mpr hzero)]
    exact h.zero i (hzero ▸ hseen)
  · intro hgt
    omega
  · intro hpending
    rw [hsettled] at hpending
    exact absurd hpending Bool.false_ne_true
  · intro r' hr'
    exact ⟨rfl, (Assigned.settle_pending_of_ne hr').symm⟩

theorem extend_entries_of_ne {j : Fin n} (h : j ≠ i) (ext : LoadExt) :
    (s.extend i r ext).entries j = s.entries j := by
  unfold CacheState.extend
  split
  · rfl
  · exact Function.update_of_ne h _ _

theorem extend_entries_self (ext : LoadExt) : ∃ sign,
    (s.extend i r ext).entries i = { s.entries i with sign := sign } := by
  unfold CacheState.extend
  split
  · exact ⟨_, rfl⟩
  · exact ⟨ext.tag, setEntry_entries_self⟩

theorem CoherentBut.fill (h : CoherentBut (some i) 0 s a) (hr : r ≤ condBranchTaken)
    (hothers : ∀ j, j ≠ i → ¬ s.Holds j r) (ext : LoadExt) : Coherent (s.fill i r ext) a := by
  have hnone (j : Fin n) : ¬ s.Seen (some i) j r := by
    rintro ⟨hj, hholds⟩
    exact hothers j (fun heq => hj (congrArg some heq.symm)) hholds
  apply CoherentBut.close (r := r) h (.inl rfl) hothers
  · rfl
  · rfl
  · by_cases hzero : r = 0
    · rw [if_neg (not_not.mpr hzero)]
      exact tagTrue_zero _
    · rw [if_pos hzero]
      exact tagTrue_extend _ _
  · intro hpos hle _
    rw [if_pos hpos.ne', lowWord_extend]
    exact h.away r hpos hle hpos.ne' hnone
  · exact fun hpos hle _ => h.away r hpos hle hpos.ne' hnone
  · intro hzero
    rw [if_neg (not_not.mpr hzero)]
    exact ⟨rfl, rfl⟩
  · intro hgt
    omega
  · intro hpending
    obtain ⟨-, -, j, hj, -⟩ := h.awaited r hpending
    exact absurd hj (hnone j)
  · exact fun _ _ => ⟨rfl, rfl⟩

theorem Coherent.load (h : Coherent s a) (hr : r ≤ condBranchTaken) (hcount : s.lockedCount < n)
    (hsettled : a.pending r = false) (ext : LoadExt) :
    ∃ i s', s.loadMipsRegister ext r = some s' ∧ Coherent s' a ∧ Took s s' i r := by
  obtain ⟨i, hfound⟩ := exists_findRegister hcount r
  refine ⟨i, ?_⟩
  unfold loadMipsRegister
  simp only [hfound, Option.bind_eq_bind, Option.bind_some, if_pos hr]
  rcases findRegister_cases hfound with hi | ⟨hnone, hunlocked⟩
  · have hheld : (s.entries i).isLive = true ∧ (s.entries i).mipsRegister = r := hi
    rw [if_pos hheld]
    obtain ⟨sign, hself⟩ := extend_entries_self (s := s) (i := i) (r := r) ext
    have hholds : (s.extend i r ext).Holds i r := by
      rw [Holds, hself]
      exact hi
    refine ⟨_, rfl, (h.extend hi hr hsettled ext).lock hholds, ?_, ?_, .inl ⟨hi, ?_⟩⟩
    · intro j hj
      rw [lock_entries_of_ne hj, extend_entries_of_ne hj]
    · rw [Holds, lock_entries_self]
      exact hholds
    · rw [lock_entries_self, hself]
  · have hnot : ¬ ((s.entries i).isLive = true ∧ (s.entries i).mipsRegister = r) := hnone i
    rw [if_neg hnot]
    obtain ⟨s', hevict, hcoherent, hothers, hlocks⟩ := h.evict hnone hunlocked
    rw [hevict, Option.bind_some]
    have hfree (j : Fin n) (hj : j ≠ i) : ¬ s'.Holds j r := by
      rw [Holds, hothers j hj]
      exact hnone j
    have hself : (s'.fill i r ext).entries i = { s'.entries i with
        mipsRegister := r, sign := ext.tag, isLive := true, modified := false } :=
      setEntry_entries_self
    have hholds : (s'.fill i r ext).Holds i r := by
      rw [Holds, hself]
      exact ⟨rfl, rfl⟩
    refine ⟨_, rfl, (hcoherent.fill hr hfree ext).lock hholds, ?_, ?_,
      .inr ⟨hnone, hunlocked, ?_⟩⟩
    · intro j hj
      rw [lock_entries_of_ne hj, ← hothers j hj]
      exact setEntry_entries_of_ne hj
    · rw [Holds, lock_entries_self]
      exact hholds
    · rw [lock_entries_self, hself]
      exact congrArg Nat.succ hlocks

theorem CoherentBut.claim {spare : Nat} {a' : Assigned} (h : CoherentBut (some i) spare s a')
    (hspare : spare = 0 ∨ spare = r) (hpos : 0 < r) (hothers : ∀ j, j ≠ i → ¬ s.Holds j r)
    (hsame : ∀ r', r' ≠ r → a.value r' = a'.value r' ∧ a.pending r' = a'.pending r') :
    Coherent ((s.setEntry i { s.entries i with
      mipsRegister := r, isLive := true, sign := .unknown, modified := true }).lock i)
      (a.await r) := by
  have hlock : (s.setEntry i { s.entries i with
      mipsRegister := r, isLive := true, sign := .unknown, modified := true }).lock i =
      { (s.setHost i (s.host i)).setEntry i { s.entries i with
          mipsRegister := r, timestamp := s.timestamp + 1,
          numLocks := (s.entries i).numLocks + 1, isLive := true, sign := .unknown,
          modified := true } with timestamp := s.timestamp + 1 } := by
    simp [CacheState.lock, setEntry, setHost]
  rw [hlock]
  apply CoherentBut.withTimestamp
  apply CoherentBut.close (r := r) h hspare hothers
  · rfl
  · rfl
  · trivial
  · intro _ hle hpending
    rw [Assigned.await_pending_self, decide_eq_true hle] at hpending
    exact absurd hpending.symm Bool.false_ne_true
  · intro _ _ hmodified
    exact absurd hmodified.symm Bool.false_ne_true
  · intro hzero
    omega
  · exact fun _ => rfl
  · intro hpending
    rw [Assigned.await_pending_self] at hpending
    exact ⟨hpos, of_decide_eq_true hpending, Nat.succ_pos _, rfl, rfl⟩
  · intro r' hr'
    rw [Assigned.await_pending_of_ne hr']
    exact hsame r' hr'

theorem Coherent.modify (h : Coherent s a) (hpos : 0 < r) (hcount : s.lockedCount < n) :
    ∃ i s', s.modifyMipsRegister r = some (i, s') ∧ Coherent s' (a.await r) ∧ Took s s' i r ∧
      (s'.entries i).modified = true ∧ (s'.entries i).sign = .unknown := by
  obtain ⟨i, hfound⟩ := exists_findRegister hcount r
  refine ⟨i, ?_⟩
  unfold modifyMipsRegister
  simp only [hfound, Option.bind_eq_bind, Option.bind_some]
  rcases findRegister_cases hfound with hi | ⟨hnone, hunlocked⟩
  · have hstay : s.evict i r = some s := by
      unfold CacheState.evict
      rw [if_neg]
      exact fun hevicted => hevicted.2.1 hi.2
    rw [hstay, Option.bind_some]
    refine ⟨_, rfl, ?_, ⟨?_, ?_, .inl ⟨hi, ?_⟩⟩, ?_, ?_⟩
    · apply CoherentBut.claim (h.punch hi) (.inr rfl) hpos
      · exact fun j hj hholds => hj (h.unique hholds hi)
      · exact fun r' hr' => ⟨rfl, (Assigned.settle_pending_of_ne hr').symm⟩
    · intro j hj
      rw [lock_entries_of_ne hj, setEntry_entries_of_ne hj]
    · simp [Holds]
    · simp
    · simp
    · simp
  · obtain ⟨s', hevict, hcoherent, hothers, hlocks⟩ := h.evict hnone hunlocked
    rw [hevict, Option.bind_some]
    refine ⟨_, rfl, ?_, ⟨?_, ?_, .inr ⟨hnone, hunlocked, ?_⟩⟩, ?_, ?_⟩
    · apply CoherentBut.claim hcoherent (.inl rfl) hpos
      · intro j hj
        rw [Holds, hothers j hj]
        exact hnone j
      · exact fun _ _ => ⟨rfl, rfl⟩
    · intro j hj
      rw [lock_entries_of_ne hj, setEntry_entries_of_ne hj, hothers j hj]
    · simp [Holds]
    · simp [hlocks]
    · simp
    · simp

theorem Coherent.put {entry : CacheEntry} (h : Coherent s a) (value : BitVec 64)
    (hi : s.Holds i r) (hmodified : (s.entries i).modified = true)
    (hsign : (s.entries i).sign = .unknown)
    (hentry : entry = s.entries i ∨
      entry = { s.entries i with sign := .sExt } ∧ r ≤ condBranchTaken ∧
        value = (lowWord value).signExtend 64) :
    Coherent ((s.setHost i value).setEntry i entry) (a.assign r (lowWord value)) := by
  have hseen := seen_none.mpr hi
  have hlive : entry.isLive = true := by
    rcases hentry with rfl | ⟨rfl, -⟩ <;> exact hi.1
  have hreg : entry.mipsRegister = r := by
    rcases hentry with rfl | ⟨rfl, -⟩ <;> exact hi.2
  have hstill : entry.modified = true := by
    rcases hentry with rfl | ⟨rfl, -⟩ <;> exact hmodified
  apply CoherentBut.close (r := r) (h.punch hi) (.inr rfl)
    (fun j hj hholds => hj (h.unique hholds hi)) hlive hreg
  · rcases hentry with rfl | ⟨rfl, -, hvalue⟩
    · rw [hsign]
      trivial
    · exact hvalue
  · intro _ _ _
    exact Assigned.assign_value_self.symm
  · intro _ _ hclean
    rw [hstill] at hclean
    exact absurd hclean.symm Bool.false_ne_true
  · intro hzero
    have hclean := (h.zero i (hzero ▸ hseen)).1
    rw [hmodified] at hclean
    exact absurd hclean.symm Bool.false_ne_true
  · intro hgt
    rcases hentry with rfl | ⟨-, hle, -⟩
    · exact hsign
    · omega
  · intro hpending
    rw [Assigned.assign_pending_self] at hpending
    exact absurd hpending Bool.false_ne_true
  · intro r' hr'
    rw [Assigned.assign_value_of_ne hr', Assigned.assign_pending_of_ne hr',
      Assigned.settle_pending_of_ne hr']
    exact ⟨rfl, rfl⟩

theorem Coherent.immediate {value : BitVec 64} (h : Coherent s a) (hpos : 0 < r)
    (hr : r ≤ condBranchTaken) (hcount : s.lockedCount < n)
    (hvalue : value = (lowWord value).signExtend 64) :
    ∃ i s', s.immediateMipsRegister r value = some s' ∧
      Coherent s' (a.assign r (lowWord value)) ∧ Took s s' i r := by
  obtain ⟨i, s', hmodify, hcoherent, htook, hmodified, hsign⟩ := h.modify hpos hcount
  have hassign : (a.await r).assign r (lowWord value) = a.assign r (lowWord value) := by
    simp [Assigned.assign, Assigned.await]
  have hput := hcoherent.put value htook.holds hmodified hsign (.inr ⟨rfl, hr, hvalue⟩)
  rw [hassign] at hput
  refine ⟨i, _, ?_, hput, ?_, ?_, ?_⟩
  · simp [immediateMipsRegister, hmodify]
  · intro j hj
    rw [setEntry_entries_of_ne hj]
    exact htook.others j hj
  · rw [Holds, setEntry_entries_self]
    exact htook.holds
  · rw [setEntry_entries_self]
    exact htook.locks

theorem Coherent.write (h : Coherent s a) (value : BitVec 64) (hi : s.Holds i r)
    (hmodified : (s.entries i).modified = true) (hsign : (s.entries i).sign = .unknown) :
    s.write r value = some (s.setHost i value) ∧
      Coherent (s.setHost i value) (a.assign r (lowWord value)) := by
  have hput := h.put value hi hmodified hsign (.inl rfl)
  have hsame : (s.setHost i value).setEntry i (s.entries i) = s.setHost i value := by
    simp [setEntry, setHost]
  rw [hsame] at hput
  refine ⟨?_, hput⟩
  unfold CacheState.write
  cases hlive : s.findLiveMipsRegister r with
  | none => exact absurd hi (not_holds_of_findLive hlive i)
  | some j =>
    rw [h.unique hi (holds_of_findLive hlive)]
    rfl

theorem Coherent.unlock (h : Coherent s a) (hi : s.Holds i r) (hlocks : 0 < (s.entries i).numLocks)
    (hsettled : a.pending r = false) :
    ∃ s', s.unlockMipsRegister r = some s' ∧ Coherent s' a ∧
      s' = s.setEntry i { s.entries i with numLocks := (s.entries i).numLocks - 1 } := by
  refine ⟨_, ?_, h.relock hi (s.entries i).timestamp ((s.entries i).numLocks - 1) ?_, rfl⟩
  · unfold unlockMipsRegister
    cases hlive : s.findLiveMipsRegister r with
    | none => exact absurd hi (not_holds_of_findLive hlive i)
    | some j =>
      have hij := h.unique hi (holds_of_findLive hlive)
      subst hij
      simp [hlocks.ne']
  · intro hpending
    rw [hsettled] at hpending
    exact absurd hpending Bool.false_ne_true

end Locking

section Flushing

variable {s : CacheState n} {a : Assigned} {i : Fin n} {r : Nat}

/-- Some entries have been cleared and the others are as they were. -/
structure Flushed (s s' : CacheState n) (gone : Fin n → Prop) : Prop where
  cleared : ∀ j, gone j → (s'.entries j).isLive = false
  others : ∀ j, ¬ gone j → s'.entries j = s.entries j

theorem Coherent.flushEntry (h : Coherent s a) (hlocks : (s.entries i).numLocks = 0) :
    ∃ s', s.flushEntry i = some s' ∧ Coherent s' a ∧ Flushed s s' (· = i) := by
  unfold CacheState.flushEntry
  by_cases hlive : (s.entries i).isLive = true
  · obtain ⟨s', hvacate, hcoherent, hothers, -⟩ := h.vacate hlive hlocks
    refine ⟨s'.setEntry i {}, ?_, hcoherent.clear, ?_, ?_⟩
    · by_cases hmodified : (s.entries i).modified = true
      · rw [if_pos hmodified] at hvacate
        simp [hlive, hlocks, hmodified, hvacate]
      · rw [if_neg hmodified, Option.some.injEq] at hvacate
        subst hvacate
        simp [hlive, hlocks, hmodified]
    · rintro j rfl
      simp
    · intro j hj
      rw [setEntry_entries_of_ne hj, hothers j hj]
  · rw [if_neg hlive]
    refine ⟨s, rfl, h, ?_, fun _ _ => rfl⟩
    rintro j rfl
    simpa using hlive

theorem Coherent.flushEntries (l : List (Fin n)) (h : Coherent s a)
    (hlocks : ∀ j ∈ l, (s.entries j).numLocks = 0) :
    ∃ s', CacheState.flushEntries l s = some s' ∧ Coherent s' a ∧ Flushed s s' (· ∈ l) := by
  induction l generalizing s with
  | nil => exact ⟨s, rfl, h, fun j hj => absurd hj List.not_mem_nil, fun _ _ => rfl⟩
  | cons i l ih =>
    obtain ⟨s₁, hfirst, hcoherent, hflushed⟩ := h.flushEntry (hlocks i List.mem_cons_self)
    have hlocks₁ : ∀ j ∈ l, (s₁.entries j).numLocks = 0 := by
      intro j hj
      by_cases hji : j = i
      · exact hcoherent.dead j (by simp) (hflushed.cleared j hji)
      · rw [hflushed.others j hji]
        exact hlocks j (List.mem_cons_of_mem _ hj)
    obtain ⟨s₂, hrest, hcoherent₂, hflushed₂⟩ := ih hcoherent hlocks₁
    refine ⟨s₂, ?_, hcoherent₂, ?_, ?_⟩
    · rw [CacheState.flushEntries, hfirst]
      exact hrest
    · intro j hj
      by_cases hmem : j ∈ l
      · exact hflushed₂.cleared j hmem
      · rw [hflushed₂.others j hmem]
        exact hflushed.cleared j ((List.mem_cons.mp hj).resolve_right hmem)
    · intro j hj
      rw [List.mem_cons, not_or] at hj
      rw [hflushed₂.others j hj.2, hflushed.others j hj.1]

theorem Coherent.flushRegisterWindow (h : Coherent s a)
    (hlocks : ∀ j, (s.entries j).numLocks = 0) :
    ∃ s', s.flushRegisterWindow = some s' ∧ Coherent s' a ∧ Flushed s s' fun _ => True := by
  obtain ⟨s', hflush, hcoherent, hflushed⟩ :=
    h.flushEntries (List.finRange n) fun j _ => hlocks j
  refine ⟨{ s' with timestamp := 0 }, ?_, CoherentBut.withTimestamp hcoherent 0, ?_, ?_⟩
  · rw [CacheState.flushRegisterWindow, hflush]
    rfl
  · exact fun j _ => hflushed.cleared j (List.mem_finRange j)
  · exact fun j hj => absurd trivial hj

theorem Coherent.flushCallerSaveRegisters (h : Coherent s a) (rNum : Nat)
    (hlocks : ∀ j : Fin n, j.val < rNum → (s.entries j).numLocks = 0) :
    ∃ s', s.flushCallerSaveRegisters rNum = some s' ∧ Coherent s' a ∧
      Flushed s s' fun j => j.val < rNum := by
  have hmem (j : Fin n) : j ∈ (List.finRange n).filter (fun i => i.val < rNum) ↔
      j.val < rNum := by
    simp
  obtain ⟨s', hflush, hcoherent, hcleared, hothers⟩ :=
    h.flushEntries _ fun j hj => hlocks j ((hmem j).mp hj)
  refine ⟨s', hflush, hcoherent, ?_, ?_⟩
  · exact fun j hj => hcleared j ((hmem j).mpr hj)
  · exact fun j hj => hothers j (mt (hmem j).mp hj)

theorem Coherent.flushMipsRegister (h : Coherent s a)
    (hlocks : ∀ j, s.Holds j r → (s.entries j).numLocks = 0) :
    ∃ s', s.flushMipsRegister r = some s' ∧ Coherent s' a ∧ Flushed s s' fun j => s.Holds j r := by
  unfold CacheState.flushMipsRegister
  cases hlive : s.findLiveMipsRegister r with
  | none =>
    refine ⟨s, rfl, h, ?_, fun _ _ => rfl⟩
    exact fun j hj => absurd hj (not_holds_of_findLive hlive j)
  | some i =>
    have hi := holds_of_findLive hlive
    obtain ⟨s', hflush, hcoherent, hcleared, hothers⟩ := h.flushEntry (hlocks i hi)
    refine ⟨s', hflush, hcoherent, ?_, ?_⟩
    · exact fun j hj => hcleared j (h.unique hj hi)
    · intro j hj
      apply hothers
      rintro rfl
      exact hj hi

theorem Coherent.reset (h : Coherent s a) (hlive : ∀ j, (s.entries j).isLive = false) :
    Coherent s.reset a := by
  have hgone {t : CacheState n} (ht : ∀ j, (t.entries j).isLive = false) (j : Fin n) (r : Nat) :
      ¬ t.Seen none j r := by
    rw [seen_none, Holds, ht j]
    exact fun hj => Bool.false_ne_true hj.1
  have hreset : ∀ j, (s.reset.entries j).isLive = false := fun _ => rfl
  constructor
  · exact fun j _ r hj => absurd hj (hgone hreset j r)
  · exact fun _ _ _ => rfl
  · exact fun j r hj => absurd hj (hgone hreset j r)
  · exact fun j r hj => absurd hj (hgone hreset j r)
  · exact fun j r hj => absurd hj (hgone hreset j r)
  · exact fun r hpos hle hne _ => h.away r hpos hle hne fun j => hgone hlive j r
  · exact fun j hj => absurd hj (hgone hreset j 0)
  · exact fun j r hj => absurd hj (hgone hreset j r)
  · intro r hpending
    obtain ⟨-, -, j, hj, -⟩ := h.awaited r hpending
    exact absurd hj (hgone hlive j r)

theorem Coherent.clobber (h : Coherent s a) (value : Fin n → BitVec 64) :
    Coherent (s.clobber value) a := by
  have hhost {j : Fin n} {r : Nat} (hj : s.Seen none j r) (hle : r ≤ condBranchTaken) :
      (s.clobber value).host j = s.host j := by
    have hholds := seen_none.mp hj
    unfold CacheState.clobber
    simp [hholds.1, hholds.2, hle]
  constructor
  · exact fun j k r hj hk => CoherentBut.unique (s := s) h j k r hj hk
  · exact h.dead
  · intro j r hj
    rcases Nat.lt_or_ge condBranchTaken r with hgt | hle
    · have hsign : ((s.clobber value).entries j).sign = .unknown := h.scratch j r hj hgt
      rw [hsign]
      trivial
    · rw [hhost hj hle]
      exact h.tag j r hj
  · intro j r hj hpos hle hsettled
    rw [hhost hj hle]
    exact h.value j r hj hpos hle hsettled
  · exact h.clean
  · exact h.away
  · intro j hj
    rw [hhost hj (Nat.zero_le _)]
    exact h.zero j hj
  · exact h.scratch
  · exact h.awaited

theorem Coherent.call (h : Coherent s a) (value : BitVec 32)
    (hr : r = 0 ∨ ∀ j, ¬ s.Holds j r) : Coherent (s.setSr r value) (a.assign r value) := by
  have hne {j : Fin n} {r' : Nat} (hj : s.Seen none j r') (hpos : 0 < r') : r' ≠ r := by
    rintro rfl
    rcases hr with hzero | hnone
    · omega
    · exact hnone j (seen_none.mp hj)
  have hsr {r' : Nat} (hr' : r' ≠ r) : (s.setSr r value).sr r' = s.sr r' :=
    Function.update_of_ne hr' _ _
  constructor
  · exact fun j k r hj hk => CoherentBut.unique (s := s) h j k r hj hk
  · exact h.dead
  · exact h.tag
  · intro j r' hj hpos hle hsettled
    rw [Assigned.assign_pending_of_ne (hne hj hpos)] at hsettled
    rw [Assigned.assign_value_of_ne (hne hj hpos)]
    exact h.value j r' hj hpos hle hsettled
  · intro j r' hj hpos hle hmodified
    rw [hsr (hne hj hpos), Assigned.assign_value_of_ne (hne hj hpos)]
    exact h.clean j r' hj hpos hle hmodified
  · intro r' hpos hle hspare hnone
    by_cases hr' : r' = r
    · subst hr'
      rw [Assigned.assign_value_self]
      exact Function.update_self _ _ _
    · rw [hsr hr', Assigned.assign_value_of_ne hr']
      exact h.away r' hpos hle hspare hnone
  · exact h.zero
  · exact h.scratch
  · intro r' hpending
    by_cases hr' : r' = r
    · subst hr'
      rw [Assigned.assign_pending_self] at hpending
      exact absurd hpending Bool.false_ne_true
    · rw [Assigned.assign_pending_of_ne hr'] at hpending
      exact h.awaited r' hpending

end Flushing

/-- Where the compiler may issue an operation. A load or a change needs an entry that is not
locked, a value is written before its register is loaded or unlocked, and a flush finds no locks. -/
def Issued (s : CacheState n) (a : Assigned) : CacheOp n → Prop
  | .load _ r => r ≤ condBranchTaken ∧ s.lockedCount < n ∧ a.pending r = false
  | .modify r => 0 < r ∧ s.lockedCount < n
  | .immediate r value => 0 < r ∧ r ≤ condBranchTaken ∧ s.lockedCount < n ∧
      value = (lowWord value).signExtend 64
  | .unlock r => a.pending r = false ∧ ∃ i, s.Holds i r ∧ 0 < (s.entries i).numLocks
  | .flushRegisterWindow => ∀ i, (s.entries i).numLocks = 0
  | .flushCallerSaveRegisters rNum => ∀ i : Fin n, i.val < rNum → (s.entries i).numLocks = 0
  | .flushMipsRegister r => ∀ i, s.Holds i r → (s.entries i).numLocks = 0
  | .reset => ∀ i, (s.entries i).isLive = false
  | .write r _ => ∃ i, s.Holds i r ∧ 0 < (s.entries i).numLocks ∧
      (s.entries i).modified = true ∧ (s.entries i).sign = .unknown
  | .clobber _ => True
  | .call r _ => r = 0 ∨ ∀ i, ¬ s.Holds i r

def IssuedAll : List (CacheOp n) → CacheState n → Assigned → Prop
  | [], _, _ => True
  | op :: ops, s, a => s.Issued a op ∧ ∀ s', s.step op = some s' → IssuedAll ops s' (op.assign a)

def Kept (s s' : CacheState n) : Prop :=
  ∀ i r, s.Holds i r → 0 < (s.entries i).numLocks → s'.Holds i r

section Issuing

variable {s s' : CacheState n} {a : Assigned} {i : Fin n} {r : Nat}

theorem Took.kept (h : Took s s' i r) : Kept s s' := by
  intro j r' hj hlocks
  by_cases hji : j = i
  · subst hji
    rcases h.locks with ⟨hi, -⟩ | ⟨-, hunlocked, -⟩
    · rw [hj.unique_reg hi]
      exact h.holds
    · have hzero := hunlocked hj.1
      omega
  · rw [Holds, h.others j hji]
    exact hj

theorem Flushed.kept {gone : Fin n → Prop} (h : Flushed s s' gone)
    (hunlocked : ∀ j, gone j → (s.entries j).numLocks = 0) : Kept s s' := by
  intro j r hj hlocks
  have hstays : ¬ gone j := by
    intro hgone
    have hzero := hunlocked j hgone
    omega
  rw [Holds, h.others j hstays]
  exact hj

theorem Coherent.step {op : CacheOp n} (h : Coherent s a) (hop : s.Issued a op) :
    ∃ s', s.step op = some s' ∧ Coherent s' (op.assign a) ∧ Kept s s' := by
  cases op with
  | load ext r =>
    obtain ⟨i, s', hload, hcoherent, htook⟩ := h.load hop.1 hop.2.1 hop.2.2 ext
    exact ⟨s', hload, hcoherent, htook.kept⟩
  | modify r =>
    obtain ⟨i, s', hmodify, hcoherent, htook, -⟩ := h.modify hop.1 hop.2
    exact ⟨s', congrArg (Option.map Prod.snd) hmodify, hcoherent, htook.kept⟩
  | immediate r value =>
    obtain ⟨hpos, hle, hcount, hvalue⟩ := hop
    obtain ⟨i, s', himmediate, hcoherent, htook⟩ := h.immediate hpos hle hcount hvalue
    exact ⟨s', himmediate, hcoherent, htook.kept⟩
  | unlock r =>
    obtain ⟨hsettled, i, hi, hlocks⟩ := hop
    obtain ⟨s', hunlock, hcoherent, rfl⟩ := h.unlock hi hlocks hsettled
    refine ⟨_, hunlock, hcoherent, ?_⟩
    intro j r' hj _
    by_cases hji : j = i
    · subst hji
      rw [Holds, setEntry_entries_self]
      exact hj
    · rw [Holds, setEntry_entries_of_ne hji]
      exact hj
  | flushRegisterWindow =>
    obtain ⟨s', hflush, hcoherent, hflushed⟩ := h.flushRegisterWindow hop
    exact ⟨s', hflush, hcoherent, hflushed.kept fun j _ => hop j⟩
  | flushCallerSaveRegisters rNum =>
    obtain ⟨s', hflush, hcoherent, hflushed⟩ := h.flushCallerSaveRegisters rNum hop
    exact ⟨s', hflush, hcoherent, hflushed.kept hop⟩
  | flushMipsRegister r =>
    obtain ⟨s', hflush, hcoherent, hflushed⟩ := h.flushMipsRegister hop
    exact ⟨s', hflush, hcoherent, hflushed.kept hop⟩
  | reset =>
    refine ⟨s.reset, rfl, h.reset hop, ?_⟩
    intro i r hi _
    rw [Holds, hop i] at hi
    exact absurd hi.1 Bool.false_ne_true
  | write r value =>
    obtain ⟨i, hi, -, hmodified, hsign⟩ := hop
    obtain ⟨hwrite, hcoherent⟩ := h.write value hi hmodified hsign
    exact ⟨_, hwrite, hcoherent, fun _ _ hj _ => hj⟩
  | clobber value => exact ⟨_, rfl, h.clobber value, fun _ _ hj _ => hj⟩
  | call r value => exact ⟨_, rfl, h.call value hop, fun _ _ hj _ => hj⟩

end Issuing

end CacheState

end ParallelN64.Rsp
