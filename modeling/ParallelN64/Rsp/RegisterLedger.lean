import ParallelN64.Rsp.RegisterRuns

/-!
# Which locks are held

A list of calls can be checked without the cache: it is enough to know which registers it has
locked, which one it is writing, and which ones no entry holds. A cache that agrees with this ledger
still does after each call that the ledger allows, and the call is issued.
-/

namespace ParallelN64.Rsp

/-- The locks in the order they were taken, the register whose host register may be written, whether
it still waits for its value, and the registers that no entry holds. -/
structure Ledger where
  locks : List Nat
  writing : Option Nat
  waits : Bool
  gone : Nat → Prop

def Ledger.idle : Ledger := ⟨[], none, false, fun _ => False⟩

def CacheOp.assignAll {n : Nat} (ops : List (CacheOp n)) (a : Assigned) : Assigned :=
  ops.foldl CacheOp.assign a

namespace CacheState

variable {n : Nat} {s s' : CacheState n} {a : Assigned} {i : Fin n} {r : Nat} {L : Ledger}

structure Agrees (L : Ledger) (s : CacheState n) (a : Assigned) : Prop where
  coherent : Coherent s a
  locks : ∀ i r, s.Holds i r → (s.entries i).numLocks = L.locks.count r
  held : ∀ r ∈ L.locks, ∃ i, s.Holds i r
  settled : ∀ r, a.pending r = true → L.waits = true ∧ L.writing = some r
  writing : ∀ r, L.writing = some r → ∃ i, s.Holds i r ∧ 0 < (s.entries i).numLocks ∧
    (s.entries i).modified = true ∧ (s.entries i).sign = .unknown
  gone : ∀ r, L.gone r → ∀ i, ¬ s.Holds i r

namespace Agrees

theorem holds_of_locked (h : Agrees L s a) (hlocks : 0 < (s.entries i).numLocks) :
    s.Holds i (s.entries i).mipsRegister := by
  refine ⟨?_, rfl⟩
  by_contra hlive
  have hzero := h.coherent.dead i (by simp) (by simpa using hlive)
  omega

theorem lockedCount_le (h : Agrees L s a) : s.lockedCount ≤ L.locks.length := by
  unfold lockedCount
  calc (Finset.univ.filter fun i => 0 < (s.entries i).numLocks).card
      ≤ L.locks.toFinset.card := by
        apply Finset.card_le_card_of_injOn fun i => (s.entries i).mipsRegister
        · intro i hi
          have hlocks := (Finset.mem_filter.mp hi).2
          have hcount := h.locks i _ (h.holds_of_locked hlocks)
          rw [hcount, List.count_pos_iff] at hlocks
          exact List.mem_toFinset.mpr hlocks
        · intro i hi j hj heq
          have hi' := h.holds_of_locked (Finset.mem_filter.mp hi).2
          have hj' := h.holds_of_locked (Finset.mem_filter.mp hj).2
          have heq' : (s.entries i).mipsRegister = (s.entries j).mipsRegister := heq
          rw [heq'] at hi'
          exact h.coherent.unique hi' hj'
    _ ≤ L.locks.length := List.toFinset_card_le _

theorem pending_eq_false (h : Agrees L s a) (hwaits : L.waits = false) (r : Nat) :
    a.pending r = false := by
  by_contra hpending
  have hwaiting := (h.settled r (by simpa using hpending)).1
  rw [hwaits] at hwaiting
  exact Bool.false_ne_true hwaiting

theorem numLocks_eq_zero (h : Agrees L s a) (hlocks : L.locks = []) (i : Fin n) :
    (s.entries i).numLocks = 0 := by
  by_contra hne
  have hcount := h.locks i _ (h.holds_of_locked (Nat.pos_of_ne_zero hne))
  rw [hlocks] at hcount
  exact hne hcount

theorem locks_of_took (h : Agrees L s a) {a' : Assigned} (hcoherent : Coherent s' a')
    (htook : Took s s' i r) (j : Fin n) (r' : Nat) (hj : s'.Holds j r') :
    (s'.entries j).numLocks = (L.locks ++ [r]).count r' := by
  rw [List.count_append]
  by_cases hji : j = i
  · subst hji
    have hr := hj.unique_reg htook.holds
    subst hr
    rw [List.count_singleton_self]
    rcases htook.locks with ⟨hi, hlocks⟩ | ⟨hnone, -, hlocks⟩
    · rw [hlocks, h.locks j r' hi]
    · have habsent : r' ∉ L.locks := by
        intro hmem
        obtain ⟨k, hk⟩ := h.held r' hmem
        exact hnone k hk
      rw [hlocks, List.count_eq_zero_of_not_mem habsent]
  · have hne : r' ≠ r := by
      rintro rfl
      exact hji (hcoherent.unique hj htook.holds)
    have hsingle : [r].count r' = 0 := List.count_eq_zero_of_not_mem (by simpa using hne)
    have hbefore : s.Holds j r' := by
      rw [Holds, ← htook.others j hji]
      exact hj
    rw [hsingle, htook.others j hji, h.locks j r' hbefore]
    rfl

theorem held_of_took (h : Agrees L s a) (htook : Took s s' i r) (r' : Nat)
    (hr' : r' ∈ L.locks ++ [r]) : ∃ j, s'.Holds j r' := by
  rcases List.mem_append.mp hr' with hmem | hmem
  · obtain ⟨j, hj⟩ := h.held r' hmem
    refine ⟨j, htook.kept j r' hj ?_⟩
    rw [h.locks j r' hj]
    exact List.count_pos_iff.mpr hmem
  · rw [List.mem_singleton.mp hmem]
    exact ⟨i, htook.holds⟩

theorem flush {gone : Fin n → Prop} {away : Nat → Prop} (h : Agrees L s a)
    (hlocks : L.locks = []) (hwaits : L.waits = false) (hcoherent : Coherent s' a)
    (hflushed : Flushed s s' gone) (haway : ∀ r, away r → L.gone r ∨ ∀ j, s.Holds j r → gone j) :
    Agrees ⟨[], none, false, away⟩ s' a := by
  have hstays {j : Fin n} {r : Nat} (hj : s'.Holds j r) : ¬ gone j ∧ s.Holds j r := by
    have hnot : ¬ gone j := by
      intro hgone
      rw [Holds, hflushed.cleared j hgone] at hj
      exact Bool.false_ne_true hj.1
    refine ⟨hnot, ?_⟩
    rw [Holds, ← hflushed.others j hnot]
    exact hj
  constructor
  · exact hcoherent
  · intro j r hj
    rw [hflushed.others j (hstays hj).1]
    exact h.numLocks_eq_zero hlocks j
  · exact fun r hr => absurd hr List.not_mem_nil
  · intro r hpending
    rw [h.pending_eq_false hwaits] at hpending
    exact absurd hpending Bool.false_ne_true
  · exact fun r hr => absurd hr.symm (Option.some_ne_none r)
  · intro r hr j hj
    rcases haway r hr with hgone | hgone
    · exact h.gone r hgone j (hstays hj).2
    · exact (hstays hj).1 (hgone j (hstays hj).2)

end Agrees

/-- Wherever the cache agrees with the ledger the operation is issued, and it agrees with the other
ledger afterwards. -/
def Allows (L : Ledger) (op : CacheOp n) (L' : Ledger) : Prop :=
  ∀ s a, Agrees L s a → s.Issued a op ∧ ∃ s', s.step op = some s' ∧ Agrees L' s' (op.assign a)

theorem allows_load (ext : LoadExt) (hr : r ≤ condBranchTaken) (hlength : L.locks.length < n)
    (hwaits : L.waits = false) : Allows (n := n) L (.load ext r)
      ⟨L.locks ++ [r], none, false, fun _ => False⟩ := by
  intro s a h
  have hcount := h.lockedCount_le.trans_lt hlength
  have hsettled := h.pending_eq_false hwaits r
  obtain ⟨i, s', hload, hcoherent, htook⟩ := h.coherent.load hr hcount hsettled ext
  refine ⟨⟨hr, hcount, hsettled⟩, s', hload, hcoherent, h.locks_of_took hcoherent htook,
    h.held_of_took htook, ?_, ?_, ?_⟩
  · intro r' hpending
    have hsettled' : a.pending r' = true := hpending
    rw [h.pending_eq_false hwaits] at hsettled'
    exact absurd hsettled' Bool.false_ne_true
  · exact fun r' hr' => absurd hr'.symm (Option.some_ne_none r')
  · exact fun _ hfalse => hfalse.elim

theorem allows_immediate {value : BitVec 64} (hpos : 0 < r) (hr : r ≤ condBranchTaken)
    (hvalue : value = (lowWord value).signExtend 64) (hlength : L.locks.length < n)
    (hwaits : L.waits = false) : Allows (n := n) L (.immediate r value)
      ⟨L.locks ++ [r], none, false, fun _ => False⟩ := by
  intro s a h
  have hcount := h.lockedCount_le.trans_lt hlength
  obtain ⟨i, s', himmediate, hcoherent, htook⟩ := h.coherent.immediate hpos hr hcount hvalue
  refine ⟨⟨hpos, hr, hcount, hvalue⟩, s', himmediate, hcoherent,
    h.locks_of_took hcoherent htook, h.held_of_took htook, ?_, ?_, ?_⟩
  · intro r' hpending
    have hassigned : (a.assign r (lowWord value)).pending r' = true := hpending
    by_cases hr' : r' = r
    · subst hr'
      rw [Assigned.assign_pending_self] at hassigned
      exact absurd hassigned Bool.false_ne_true
    · rw [Assigned.assign_pending_of_ne hr', h.pending_eq_false hwaits] at hassigned
      exact absurd hassigned Bool.false_ne_true
  · exact fun r' hr' => absurd hr'.symm (Option.some_ne_none r')
  · exact fun _ hfalse => hfalse.elim

theorem allows_modify (hpos : 0 < r) (hlength : L.locks.length < n)
    (hwaits : L.waits = false) : Allows (n := n) L (.modify r)
      ⟨L.locks ++ [r], some r, true, fun _ => False⟩ := by
  intro s a h
  have hcount := h.lockedCount_le.trans_lt hlength
  obtain ⟨i, s', hmodify, hcoherent, htook, hmodified, hsign⟩ :=
    h.coherent.modify hpos hcount
  refine ⟨⟨hpos, hcount⟩, s', congrArg (Option.map Prod.snd) hmodify, hcoherent,
    h.locks_of_took hcoherent htook, h.held_of_took htook, ?_, ?_, ?_⟩
  · intro r' hpending
    have hawaited : (a.await r).pending r' = true := hpending
    by_cases hr' : r' = r
    · exact ⟨rfl, congrArg some hr'.symm⟩
    · rw [Assigned.await_pending_of_ne hr', h.pending_eq_false hwaits] at hawaited
      exact absurd hawaited Bool.false_ne_true
  · intro r' hr'
    have heq : r = r' := Option.some.inj hr'
    subst heq
    refine ⟨i, htook.holds, ?_, hmodified, hsign⟩
    rcases htook.locks with ⟨-, hlocks⟩ | ⟨-, -, hlocks⟩ <;> omega
  · exact fun _ hfalse => hfalse.elim

theorem allows_modify_scratch (hr : condBranchTaken < r) (hlength : L.locks.length < n) :
    Allows (n := n) L (.modify r) ⟨L.locks ++ [r], L.writing, L.waits, fun _ => False⟩ := by
  intro s a h
  have hcount := h.lockedCount_le.trans_lt hlength
  have hpos : 0 < r := by omega
  obtain ⟨i, s', hmodify, hcoherent, htook, hmodified, hsign⟩ :=
    h.coherent.modify hpos hcount
  refine ⟨⟨hpos, hcount⟩, s', congrArg (Option.map Prod.snd) hmodify, hcoherent,
    h.locks_of_took hcoherent htook, h.held_of_took htook, ?_, ?_, ?_⟩
  · intro r' hpending
    have hawaited : (a.await r).pending r' = true := hpending
    by_cases hr' : r' = r
    · subst hr'
      rw [Assigned.await_pending_self, decide_eq_true_iff] at hawaited
      omega
    · rw [Assigned.await_pending_of_ne hr'] at hawaited
      exact h.settled r' hawaited
  · intro r' hr'
    obtain ⟨j, hj, hlocks, hrest⟩ := h.writing r' hr'
    have hstill := htook.kept j r' hj hlocks
    refine ⟨j, hstill, ?_⟩
    by_cases hji : j = i
    · subst hji
      refine ⟨?_, hmodified, hsign⟩
      rcases htook.locks with ⟨-, hlocks'⟩ | ⟨-, -, hlocks'⟩ <;> omega
    · rw [htook.others j hji]
      exact ⟨hlocks, hrest⟩
  · exact fun _ hfalse => hfalse.elim

theorem allows_write {value : BitVec 64} (hwriting : L.writing = some r) :
    Allows (n := n) L (.write r value) { L with waits := false } := by
  intro s a h
  obtain ⟨i, hi, hlocks, hmodified, hsign⟩ := h.writing r hwriting
  obtain ⟨hwrite, hcoherent⟩ := h.coherent.write value hi hmodified hsign
  refine ⟨⟨i, hi, hlocks, hmodified, hsign⟩, _, hwrite, hcoherent, h.locks, h.held, ?_,
    h.writing, h.gone⟩
  intro r' hpending
  have hassigned : (a.assign r (lowWord value)).pending r' = true := hpending
  by_cases hr' : r' = r
  · subst hr'
    rw [Assigned.assign_pending_self] at hassigned
    exact absurd hassigned Bool.false_ne_true
  · rw [Assigned.assign_pending_of_ne hr'] at hassigned
    have hsame := (h.settled r' hassigned).2
    rw [hwriting, Option.some.injEq] at hsame
    exact absurd hsame.symm hr'

theorem allows_unlock {rest : List Nat} (hperm : L.locks.Perm (r :: rest))
    (hwaits : L.waits = false) : Allows (n := n) L (.unlock r)
      ⟨rest, none, false, L.gone⟩ := by
  intro s a h
  have hcount (r' : Nat) : L.locks.count r' = rest.count r' + if r = r' then 1 else 0 := by
    rw [hperm.count_eq, List.count_cons]
    simp
  have hmem : r ∈ L.locks := hperm.mem_iff.mpr List.mem_cons_self
  obtain ⟨i, hi⟩ := h.held r hmem
  have hlocks : 0 < (s.entries i).numLocks := by
    rw [h.locks i r hi]
    exact List.count_pos_iff.mpr hmem
  have hsettled := h.pending_eq_false hwaits r
  obtain ⟨s', hunlock, hcoherent, rfl⟩ := h.coherent.unlock hi hlocks hsettled
  have hsame {j : Fin n} {r' : Nat} : (s.setEntry i { s.entries i with
      numLocks := (s.entries i).numLocks - 1 }).Holds j r' ↔ s.Holds j r' := by
    by_cases hji : j = i
    · subst hji
      rw [Holds, setEntry_entries_self]
      rfl
    · rw [Holds, setEntry_entries_of_ne hji]
      rfl
  refine ⟨⟨hsettled, i, hi, hlocks⟩, _, hunlock, hcoherent, ?_, ?_, ?_, ?_, ?_⟩
  · intro j r' hj
    have hbefore := hsame.mp hj
    have hledger := h.locks j r' hbefore
    rw [hcount] at hledger
    by_cases hji : j = i
    · subst hji
      have hr := hbefore.unique_reg hi
      subst hr
      rw [setEntry_entries_self]
      simp only [if_true] at hledger
      exact Nat.sub_eq_of_eq_add hledger
    · have hne : r ≠ r' := by
        rintro rfl
        exact hji (h.coherent.unique hbefore hi)
      rw [if_neg hne] at hledger
      rw [setEntry_entries_of_ne hji]
      exact hledger
  · intro r' hr'
    obtain ⟨j, hj⟩ := h.held r' (hperm.mem_iff.mpr (List.mem_cons_of_mem _ hr'))
    exact ⟨j, hsame.mpr hj⟩
  · intro r' hpending
    have hsettled' : a.pending r' = true := hpending
    rw [h.pending_eq_false hwaits] at hsettled'
    exact absurd hsettled' Bool.false_ne_true
  · exact fun r' hr' => absurd hr'.symm (Option.some_ne_none r')
  · exact fun r' hr' j hj => h.gone r' hr' j (hsame.mp hj)

theorem allows_flushRegisterWindow (hlocks : L.locks = []) (hwaits : L.waits = false) :
    Allows (n := n) L .flushRegisterWindow ⟨[], none, false, fun _ => True⟩ := by
  intro s a h
  have hzero := h.numLocks_eq_zero hlocks
  obtain ⟨s', hflush, hcoherent, hflushed⟩ := h.coherent.flushRegisterWindow hzero
  refine ⟨hzero, s', hflush, h.flush hlocks hwaits hcoherent hflushed ?_⟩
  exact fun _ _ => .inr fun _ _ => trivial

theorem allows_flushCallerSaveRegisters (rNum : Nat) (hlocks : L.locks = [])
    (hwaits : L.waits = false) :
    Allows (n := n) L (.flushCallerSaveRegisters rNum) ⟨[], none, false, L.gone⟩ := by
  intro s a h
  have hzero := h.numLocks_eq_zero hlocks
  obtain ⟨s', hflush, hcoherent, hflushed⟩ :=
    h.coherent.flushCallerSaveRegisters rNum fun j _ => hzero j
  refine ⟨fun j _ => hzero j, s', hflush, h.flush hlocks hwaits hcoherent hflushed ?_⟩
  exact fun _ hgone => .inl hgone

theorem allows_flushMipsRegister (hlocks : L.locks = []) (hwaits : L.waits = false) :
    Allows (n := n) L (.flushMipsRegister r)
      ⟨[], none, false, fun r' => L.gone r' ∨ r' = r⟩ := by
  intro s a h
  have hzero := h.numLocks_eq_zero hlocks
  obtain ⟨s', hflush, hcoherent, hflushed⟩ :=
    h.coherent.flushMipsRegister (r := r) fun j _ => hzero j
  refine ⟨fun j _ => hzero j, s', hflush, h.flush hlocks hwaits hcoherent hflushed ?_⟩
  rintro r' (hgone | rfl)
  · exact .inl hgone
  · exact .inr fun _ hj => hj

theorem allows_reset (hlocks : L.locks = []) (hwaits : L.waits = false)
    (hgone : ∀ r, L.gone r) : Allows (n := n) L .reset ⟨[], none, false, fun _ => True⟩ := by
  intro s a h
  have hlive (j : Fin n) : (s.entries j).isLive = false := by
    by_contra hlive
    exact h.gone _ (hgone _) j ⟨by simpa using hlive, rfl⟩
  have hflushed : Flushed s s.reset fun _ => True := ⟨fun _ _ => rfl, fun _ hj => absurd trivial hj⟩
  refine ⟨hlive, s.reset, rfl, h.flush hlocks hwaits (h.coherent.reset hlive) hflushed ?_⟩
  exact fun _ _ => .inr fun _ _ => trivial

theorem allows_clobber (value : Fin n → BitVec 64) : Allows L (.clobber value) L :=
  fun _ _ h => ⟨trivial, _, rfl, h.coherent.clobber value, h.locks, h.held, h.settled, h.writing,
    h.gone⟩

theorem allows_call {value : BitVec 32} (hgone : L.gone r) :
    Allows (n := n) L (.call r value) L := by
  intro s a h
  have hnone := h.gone r hgone
  refine ⟨.inr hnone, _, rfl, h.coherent.call value (.inr hnone), h.locks, h.held, ?_, h.writing,
    h.gone⟩
  intro r' hpending
  have hassigned : (a.assign r value).pending r' = true := hpending
  by_cases hr' : r' = r
  · subst hr'
    rw [Assigned.assign_pending_self] at hassigned
    exact absurd hassigned Bool.false_ne_true
  · rw [Assigned.assign_pending_of_ne hr'] at hassigned
    exact h.settled r' hassigned

/-- Wherever the cache agrees with the ledger the operations are issued, and it agrees with the
other ledger at their end. -/
def Serves (L : Ledger) (ops : List (CacheOp n)) (L' : Ledger) : Prop :=
  ∀ s a, Agrees L s a → IssuedAll ops s a ∧
    ∃ s', s.run ops = some s' ∧ Agrees L' s' (CacheOp.assignAll ops a)

namespace Serves

variable {op : CacheOp n} {ops ops' : List (CacheOp n)} {L₁ L' : Ledger}

theorem refl : Serves (n := n) L [] L := fun s _ h => ⟨trivial, s, rfl, h⟩

theorem done {writing : Option Nat} {gone : Nat → Prop} :
    Serves (n := n) ⟨[], writing, false, gone⟩ [] Ledger.idle :=
  fun s _ h => ⟨trivial, s, rfl, h.coherent, h.locks, h.held,
    fun r hpending => absurd (h.settled r hpending).1 Bool.false_ne_true,
    fun r hr => absurd hr.symm (Option.some_ne_none r), fun _ hfalse => hfalse.elim⟩

theorem cons (hop : Allows L op L₁) (hops : Serves L₁ ops L') : Serves L (op :: ops) L' := by
  intro s a h
  obtain ⟨hissued, s₁, hstep, h₁⟩ := hop s a h
  obtain ⟨hall, s', hrun, h'⟩ := hops s₁ (op.assign a) h₁
  refine ⟨⟨hissued, ?_⟩, s', ?_, h'⟩
  · intro s₂ hstep₂
    rw [hstep, Option.some.injEq] at hstep₂
    subst hstep₂
    exact hall
  · rw [CacheState.run, hstep]
    exact hrun

theorem unlocks {locks : List Nat} {writing : Option Nat} {gone : Nat → Prop} :
    Serves (n := n) ⟨locks, writing, false, gone⟩ (locks.map .unlock) Ledger.idle := by
  induction locks generalizing writing with
  | nil => exact done
  | cons r locks ih => exact cons (allows_unlock (List.Perm.refl _) rfl) ih

section Taking

variable {locks : List Nat} {writing : Option Nat} {gone : Nat → Prop} (hn : 3 ≤ n)
include hn

theorem load (ext : LoadExt) (hr : r ≤ condBranchTaken) (hlength : locks.length ≤ 2)
    (hops : Serves ⟨locks ++ [r], none, false, fun _ => False⟩ ops L') :
    Serves ⟨locks, writing, false, gone⟩ (.load ext r :: ops) L' :=
  cons (allows_load ext hr (hlength.trans_lt hn) rfl) hops

theorem modify (hpos : 0 < r) (hlength : locks.length ≤ 2)
    (hops : Serves ⟨locks ++ [r], some r, true, fun _ => False⟩ ops L') :
    Serves ⟨locks, writing, false, gone⟩ (.modify r :: ops) L' :=
  cons (allows_modify hpos (hlength.trans_lt hn) rfl) hops

theorem scratch {waits : Bool} (hr : condBranchTaken < r) (hlength : locks.length ≤ 2)
    (hops : Serves ⟨locks ++ [r], writing, waits, fun _ => False⟩ ops L') :
    Serves ⟨locks, writing, waits, gone⟩ (.modify r :: ops) L' :=
  cons (allows_modify_scratch hr (hlength.trans_lt hn)) hops

end Taking

theorem append (hops : Serves L ops L₁) (hops' : Serves L₁ ops' L') :
    Serves L (ops ++ ops') L' := by
  intro s a h
  obtain ⟨hall, s₁, hrun, h₁⟩ := hops s a h
  obtain ⟨hall', s', hrun', h'⟩ := hops' s₁ _ h₁
  clear h h₁ hops hops'
  induction ops generalizing s a with
  | nil =>
    cases hrun
    exact ⟨hall', s', hrun', h'⟩
  | cons op ops ih =>
    cases hstep : s.step op with
    | none =>
      rw [CacheState.run, hstep] at hrun
      exact absurd hrun.symm (Option.some_ne_none s₁)
    | some s₂ =>
      rw [CacheState.run, hstep] at hrun
      obtain ⟨htail, s₃, hrun₃, h₃⟩ := ih s₂ (op.assign a) (hall.2 s₂ hstep) hrun hall' h'
      refine ⟨⟨hall.1, ?_⟩, s₃, ?_, h₃⟩
      · intro s₄ hstep₄
        rw [hstep, Option.some.injEq] at hstep₄
        subst hstep₄
        exact htail
      · rw [List.cons_append, CacheState.run, hstep]
        exact hrun₃

theorem flatMap {α : Type} {f : α → List (CacheOp n)} {l : List α}
    (h : ∀ x ∈ l, Serves L (f x) L) : Serves L (l.flatMap f) L := by
  induction l with
  | nil => exact refl
  | cons x l ih =>
    rw [List.flatMap_cons]
    exact (h x List.mem_cons_self).append (ih fun y hy => h y (List.mem_cons_of_mem _ hy))

end Serves

end CacheState

end ParallelN64.Rsp
