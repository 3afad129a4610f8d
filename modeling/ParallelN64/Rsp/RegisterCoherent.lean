import ParallelN64.Rsp.RegisterCache

/-!
# The register cache is coherent

At every point of a sequence of operations each register of the register file has its last value
in the one host register that holds it, or else in memory, where an unmodified host register has
it too. An operation that takes an entry over first leaves a state that is coherent but for this
entry.
-/

namespace ParallelN64.Rsp

namespace CacheState

variable {n : Nat}

def Holds (s : CacheState n) (i : Fin n) (r : Nat) : Prop :=
  (s.entries i).isLive = true ∧ (s.entries i).mipsRegister = r

def lockedCount (s : CacheState n) : Nat :=
  (Finset.univ.filter fun i => 0 < (s.entries i).numLocks).card

section Finding

variable {s : CacheState n} {r : Nat} {i : Fin n}

theorem holds_of_findLive (h : s.findLiveMipsRegister r = some i) : s.Holds i r := by
  have hfound := List.find?_some h
  simpa [Holds] using hfound

theorem not_holds_of_findLive (h : s.findLiveMipsRegister r = none) (j : Fin n) :
    ¬ s.Holds j r := by
  have hnone := List.find?_eq_none.mp h j (List.mem_finRange j)
  simpa [Holds] using hnone

theorem findRegister_cases (h : s.findRegister r = some i) :
    s.Holds i r ∨ (∀ j, ¬ s.Holds j r) ∧
      ((s.entries i).isLive = true → (s.entries i).numLocks = 0) := by
  unfold findRegister at h
  cases hlive : s.findLiveMipsRegister r with
  | some j =>
    rw [hlive, Option.some_or, Option.some.injEq] at h
    subst h
    exact .inl (holds_of_findLive hlive)
  | none =>
    rw [hlive, Option.none_or] at h
    refine .inr ⟨not_holds_of_findLive hlive, ?_⟩
    cases hfree : s.findFreeRegister with
    | some j =>
      rw [hfree, Option.some_or, Option.some.injEq] at h
      subst h
      intro hlive
      have hfound := List.find?_some hfree
      simp [hlive] at hfound
    | none =>
      rw [hfree, Option.none_or] at h
      have hmem := List.argmin_mem h
      have hunlocked := (List.mem_filter.mp hmem).2
      intro _
      simpa using (Bool.and_eq_true_iff.mp hunlocked).2

theorem exists_findRegister (h : s.lockedCount < n) (r : Nat) :
    ∃ i, s.findRegister r = some i := by
  have hunlocked : ∃ i, (s.entries i).numLocks = 0 := by
    by_contra hall
    push Not at hall
    have hcount : s.lockedCount = n := by
      rw [lockedCount, Finset.filter_true_of_mem, Finset.card_univ, Fintype.card_fin]
      exact fun i _ => Nat.pos_of_ne_zero (hall i)
    omega
  obtain ⟨i, hi⟩ := hunlocked
  unfold findRegister
  cases s.findLiveMipsRegister r with
  | some j => exact ⟨j, rfl⟩
  | none =>
    cases hfree : s.findFreeRegister with
    | some j => exact ⟨j, rfl⟩
    | none =>
      have hlive := List.find?_eq_none.mp hfree i (List.mem_finRange i)
      cases hold : s.findOldestUnlockedRegister with
      | some j => exact ⟨j, rfl⟩
      | none =>
        have hempty := List.argmin_eq_none.mp hold
        have hmem : i ∈ (List.finRange n).filter fun i =>
            (s.entries i).isLive && (s.entries i).numLocks == 0 := by
          apply List.mem_filter.mpr
          exact ⟨List.mem_finRange i, by simpa [hi] using hlive⟩
        rw [hempty] at hmem
        exact absurd hmem List.not_mem_nil

end Finding

/-- What an entry says about the upper half of its host register is true. -/
def TagTrue (sign : SignState) (host : BitVec 64) : Prop :=
  match sign with
  | .sExt => host = (lowWord host).signExtend 64
  | .zExt => host = (lowWord host).setWidth 64
  | .unknown => True

theorem lowWord_extend (ext : LoadExt) (x : BitVec 32) : lowWord (ext.extend x) = x := by
  cases ext with
  | noext | sext =>
    ext k hk
    have hk' : k < 64 := by omega
    rw [lowWord, LoadExt.extend, BitVec.getElem_setWidth, BitVec.getLsbD_signExtend]
    simp [hk, hk']
  | zext => exact BitVec.setWidth_setWidth_of_le _ (by decide)

theorem tagTrue_extend (ext : LoadExt) (x : BitVec 32) : TagTrue ext.tag (ext.extend x) := by
  have h := lowWord_extend ext x
  cases ext with
  | noext | sext | zext => simp only [TagTrue, LoadExt.tag, h]; rfl

theorem tagTrue_zero (sign : SignState) : TagTrue sign 0#64 := by
  cases sign
  · exact rfl
  · exact rfl
  · trivial

end CacheState

/-- The last value assigned to each register, and the registers whose host register waits for its
value. -/
structure Assigned where
  value : Nat → BitVec 32
  pending : Nat → Bool

def Assigned.settle (a : Assigned) (r : Nat) : Assigned :=
  { a with pending := Function.update a.pending r false }

theorem Assigned.settle_pending_of_ne {a : Assigned} {r r' : Nat} (h : r' ≠ r) :
    (a.settle r).pending r' = a.pending r' :=
  Function.update_of_ne h _ _

namespace CacheState

variable {n : Nat}

def Seen (hole : Option (Fin n)) (s : CacheState n) (j : Fin n) (r : Nat) : Prop :=
  hole ≠ some j ∧ s.Holds j r

/-- Every register has its last value where the cache says, but for an entry that is being taken
over and a register that memory need not have. -/
structure CoherentBut (hole : Option (Fin n)) (spare : Nat) (s : CacheState n) (a : Assigned) :
    Prop where
  /-- No two entries hold a register. -/
  unique : ∀ j k r, s.Seen hole j r → s.Seen hole k r → j = k
  /-- Only live entries are locked. -/
  dead : ∀ j, hole ≠ some j → (s.entries j).isLive = false → (s.entries j).numLocks = 0
  tag : ∀ j r, s.Seen hole j r → TagTrue (s.entries j).sign (s.host j)
  /-- A host register has the last value unless it waits for it. -/
  value : ∀ j r, s.Seen hole j r → 0 < r → r ≤ condBranchTaken → a.pending r = false →
    lowWord (s.host j) = a.value r
  /-- Memory has the last value of a register that is not modified. -/
  clean : ∀ j r, s.Seen hole j r → 0 < r → r ≤ condBranchTaken →
    (s.entries j).modified = false → s.sr r = a.value r
  /-- Memory has the last value of a register that no entry holds. -/
  away : ∀ r, 0 < r → r ≤ condBranchTaken → r ≠ spare → (∀ j, ¬ s.Seen hole j r) →
    s.sr r = a.value r
  /-- The register that is always zero is. -/
  zero : ∀ j, s.Seen hole j 0 → (s.entries j).modified = false ∧ s.host j = 0#64
  /-- Nothing is promised of scratch registers. -/
  scratch : ∀ j r, s.Seen hole j r → condBranchTaken < r → (s.entries j).sign = .unknown
  /-- A host register that waits for its value is locked. -/
  awaited : ∀ r, a.pending r = true → 0 < r ∧ r ≤ condBranchTaken ∧ ∃ j, s.Seen hole j r ∧
    0 < (s.entries j).numLocks ∧ (s.entries j).modified = true ∧ (s.entries j).sign = .unknown

abbrev Coherent (s : CacheState n) (a : Assigned) : Prop := CoherentBut none 0 s a

section Primitives

variable {s : CacheState n} {a : Assigned} {i : Fin n} {r : Nat}

theorem seen_none {j : Fin n} : s.Seen none j r ↔ s.Holds j r := by
  simp [Seen]

theorem Holds.unique_reg {j : Fin n} {r' : Nat} (h : s.Holds j r) (h' : s.Holds j r') : r = r' :=
  h.2.symm.trans h'.2

theorem CoherentBut.punch (h : Coherent s a) (hi : s.Holds i r) :
    CoherentBut (some i) r s (a.settle r) := by
  have hseen {j : Fin n} {r : Nat} (hj : s.Seen (some i) j r) : s.Seen none j r :=
    seen_none.mpr hj.2
  have hother {j : Fin n} {r' : Nat} (hj : s.Seen (some i) j r') : r' ≠ r := by
    rintro rfl
    exact hj.1 (congrArg some (h.unique i j r' (seen_none.mpr hi) (hseen hj)))
  constructor
  · exact fun j k r hj hk => h.unique j k r (hseen hj) (hseen hk)
  · exact fun j _ hlive => h.dead j (by simp) hlive
  · exact fun j r hj => h.tag j r (hseen hj)
  · intro j r' hj hpos hle hsettled
    refine h.value j r' (hseen hj) hpos hle ?_
    rwa [Assigned.settle_pending_of_ne (hother hj)] at hsettled
  · exact fun j r hj => h.clean j r (hseen hj)
  · intro r' hpos hle hspare hnone
    refine h.away r' hpos hle hpos.ne' fun j hj => ?_
    by_cases hji : i = j
    · subst hji
      exact hspare ((seen_none.mp hj).unique_reg hi)
    · exact hnone j ⟨by simpa using hji, seen_none.mp hj⟩
  · exact fun j hj => h.zero j (hseen hj)
  · exact fun j r hj => h.scratch j r (hseen hj)
  · intro r' hpending
    have hne : r' ≠ r := by
      rintro rfl
      simp [Assigned.settle] at hpending
    rw [Assigned.settle_pending_of_ne hne] at hpending
    obtain ⟨hpos, hle, j, hj, hrest⟩ := h.awaited r' hpending
    refine ⟨hpos, hle, j, ⟨?_, seen_none.mp hj⟩, hrest⟩
    rw [ne_eq, Option.some.injEq]
    rintro rfl
    exact hne ((seen_none.mp hj).unique_reg hi)

theorem CoherentBut.punch_free (h : Coherent s a) (hi : (s.entries i).isLive = false) :
    CoherentBut (some i) 0 s a := by
  have hseen {j : Fin n} {r : Nat} : s.Seen (some i) j r ↔ s.Seen none j r := by
    rw [seen_none]
    refine ⟨fun hj => hj.2, fun hj => ⟨?_, hj⟩⟩
    rw [ne_eq, Option.some.injEq]
    rintro rfl
    rw [hj.1] at hi
    exact Bool.false_ne_true hi.symm
  constructor
  · exact fun j k r hj hk => h.unique j k r (hseen.mp hj) (hseen.mp hk)
  · exact fun j _ hlive => h.dead j (by simp) hlive
  · exact fun j r hj => h.tag j r (hseen.mp hj)
  · exact fun j r hj => h.value j r (hseen.mp hj)
  · exact fun j r hj => h.clean j r (hseen.mp hj)
  · exact fun r hpos hle hne hnone => h.away r hpos hle hne fun j hj => hnone j (hseen.mpr hj)
  · exact fun j hj => h.zero j (hseen.mp hj)
  · exact fun j r hj => h.scratch j r (hseen.mp hj)
  · intro r hpending
    obtain ⟨hpos, hle, j, hj, hrest⟩ := h.awaited r hpending
    exact ⟨hpos, hle, j, hseen.mpr hj, hrest⟩

theorem CoherentBut.restore {s' : CacheState n} {spare : Nat}
    (h : CoherentBut (some i) spare s a) (hhost : s'.host = s.host)
    (hentries : ∀ j, j ≠ i → s'.entries j = s.entries j)
    (hsr : ∀ r, r ≠ spare → s'.sr r = s.sr r)
    (hspare : 0 < spare → spare ≤ condBranchTaken → s'.sr spare = a.value spare) :
    CoherentBut (some i) 0 s' a := by
  have hne {j : Fin n} (hj : some i ≠ some j) : j ≠ i := fun heq => hj (congrArg some heq.symm)
  have hseen {j : Fin n} {r : Nat} : s'.Seen (some i) j r ↔ s.Seen (some i) j r := by
    constructor
    · rintro ⟨hj, hlive, hreg⟩
      rw [hentries j (hne hj)] at hlive hreg
      exact ⟨hj, hlive, hreg⟩
    · rintro ⟨hj, hlive, hreg⟩
      refine ⟨hj, ?_, ?_⟩
      · rw [hentries j (hne hj)]
        exact hlive
      · rw [hentries j (hne hj)]
        exact hreg
  constructor
  · exact fun j k r hj hk => h.unique j k r (hseen.mp hj) (hseen.mp hk)
  · intro j hj hlive
    rw [hentries j (hne hj)] at hlive ⊢
    exact h.dead j hj hlive
  · intro j r hj
    rw [hentries j (hne hj.1), hhost]
    exact h.tag j r (hseen.mp hj)
  · intro j r hj
    rw [hhost]
    exact h.value j r (hseen.mp hj)
  · intro j r hj hpos hle hmodified
    rw [hentries j (hne hj.1)] at hmodified
    by_cases hr : r = spare
    · subst hr
      exact hspare hpos hle
    · rw [hsr r hr]
      exact h.clean j r (hseen.mp hj) hpos hle hmodified
  · intro r hpos hle _ hnone
    by_cases hr : r = spare
    · subst hr
      exact hspare hpos hle
    · rw [hsr r hr]
      exact h.away r hpos hle hr fun j hj => hnone j (hseen.mpr hj)
  · intro j hj
    rw [hentries j (hne hj.1), hhost]
    exact h.zero j (hseen.mp hj)
  · intro j r hj
    rw [hentries j (hne hj.1)]
    exact h.scratch j r (hseen.mp hj)
  · intro r hpending
    obtain ⟨hpos, hle, j, hj, hrest⟩ := h.awaited r hpending
    refine ⟨hpos, hle, j, hseen.mpr hj, ?_⟩
    rw [hentries j (hne hj.1)]
    exact hrest

theorem CoherentBut.clear (h : CoherentBut (some i) 0 s a) : Coherent (s.setEntry i {}) a := by
  have hentry {j : Fin n} (hj : j ≠ i) : (s.setEntry i {}).entries j = s.entries j :=
    Function.update_of_ne hj _ _
  have hself : (s.setEntry i {}).entries i = {} := Function.update_self _ _ _
  have hne {j : Fin n} {r : Nat} (hj : (s.setEntry i {}).Seen none j r) : j ≠ i := by
    rintro rfl
    have hlive := hj.2.1
    rw [hself] at hlive
    exact Bool.false_ne_true hlive
  have hseen {j : Fin n} {r : Nat} (hj : (s.setEntry i {}).Seen none j r) :
      s.Seen (some i) j r := by
    have hholds := hj.2
    rw [Holds, hentry (hne hj)] at hholds
    exact ⟨by simpa using (hne hj).symm, hholds⟩
  have hback {j : Fin n} {r : Nat} (hj : s.Seen (some i) j r) :
      (s.setEntry i {}).Seen none j r := by
    have hji : j ≠ i := fun heq => hj.1 (congrArg some heq.symm)
    rw [seen_none, Holds, hentry hji]
    exact hj.2
  constructor
  · exact fun j k r hj hk => h.unique j k r (hseen hj) (hseen hk)
  · intro j _ hlive
    by_cases hji : j = i
    · subst hji
      rw [hself]
    · rw [hentry hji] at hlive ⊢
      exact h.dead j (by simpa using Ne.symm hji) hlive
  · intro j r hj
    rw [hentry (hne hj)]
    exact h.tag j r (hseen hj)
  · exact fun j r hj => h.value j r (hseen hj)
  · intro j r hj
    rw [hentry (hne hj)]
    exact h.clean j r (hseen hj)
  · exact fun r hpos hle hspare hnone => h.away r hpos hle hspare fun j hj => hnone j (hback hj)
  · intro j hj
    rw [hentry (hne hj)]
    exact h.zero j (hseen hj)
  · intro j r hj
    rw [hentry (hne hj)]
    exact h.scratch j r (hseen hj)
  · intro r hpending
    obtain ⟨hpos, hle, j, hj, hrest⟩ := h.awaited r hpending
    refine ⟨hpos, hle, j, hback hj, ?_⟩
    rw [hentry (hne (hback hj))]
    exact hrest

/-- An entry that was left out holds a register that no other entry holds. -/
theorem CoherentBut.close {spare : Nat} {a' : Assigned} {entry : CacheEntry} {x : BitVec 64}
    (h : CoherentBut (some i) spare s a) (hspare : spare = 0 ∨ spare = r)
    (hothers : ∀ j, j ≠ i → ¬ s.Holds j r)
    (hlive : entry.isLive = true) (hreg : entry.mipsRegister = r)
    (htag : TagTrue entry.sign x)
    (hvalue : 0 < r → r ≤ condBranchTaken → a'.pending r = false → lowWord x = a'.value r)
    (hclean : 0 < r → r ≤ condBranchTaken → entry.modified = false → s.sr r = a'.value r)
    (hzero : r = 0 → entry.modified = false ∧ x = 0#64)
    (hscratch : condBranchTaken < r → entry.sign = .unknown)
    (hawaited : a'.pending r = true → 0 < r ∧ r ≤ condBranchTaken ∧ 0 < entry.numLocks ∧
      entry.modified = true ∧ entry.sign = .unknown)
    (hsame : ∀ r', r' ≠ r → a'.value r' = a.value r' ∧ a'.pending r' = a.pending r') :
    Coherent ((s.setHost i x).setEntry i entry) a' := by
  have hentry {j : Fin n} (hj : j ≠ i) :
      ((s.setHost i x).setEntry i entry).entries j = s.entries j :=
    Function.update_of_ne hj _ _
  have hself : ((s.setHost i x).setEntry i entry).entries i = entry := Function.update_self _ _ _
  have hhost {j : Fin n} (hj : j ≠ i) : ((s.setHost i x).setEntry i entry).host j = s.host j :=
    Function.update_of_ne hj _ _
  have hhostSelf : ((s.setHost i x).setEntry i entry).host i = x := Function.update_self _ _ _
  have hseen {j : Fin n} {r' : Nat} (hj : ((s.setHost i x).setEntry i entry).Seen none j r') :
      j = i ∧ r' = r ∨ j ≠ i ∧ r' ≠ r ∧ s.Seen (some i) j r' := by
    have hholds := hj.2
    by_cases hji : j = i
    · subst hji
      rw [Holds, hself] at hholds
      exact .inl ⟨rfl, hholds.2.symm.trans hreg⟩
    · rw [Holds, hentry hji] at hholds
      refine .inr ⟨hji, ?_, by simpa using Ne.symm hji, hholds⟩
      rintro rfl
      exact hothers j hji hholds
  have hback {j : Fin n} {r' : Nat} (hj : s.Seen (some i) j r') : j ≠ i ∧
      ((s.setHost i x).setEntry i entry).Seen none j r' := by
    have hji : j ≠ i := fun heq => hj.1 (congrArg some heq.symm)
    rw [seen_none, Holds, hentry hji]
    exact ⟨hji, hj.2⟩
  have hown : ((s.setHost i x).setEntry i entry).Seen none i r := by
    rw [seen_none, Holds, hself]
    exact ⟨hlive, hreg⟩
  constructor
  · intro j k r' hj hk
    rcases hseen hj with ⟨rfl, rfl⟩ | ⟨_, hj', hj⟩
    · rcases hseen hk with ⟨rfl, -⟩ | ⟨_, hk', -⟩
      · rfl
      · exact absurd rfl hk'
    · rcases hseen hk with ⟨-, rfl⟩ | ⟨_, -, hk⟩
      · exact absurd rfl hj'
      · exact h.unique j k r' hj hk
  · intro j _ hdead
    by_cases hji : j = i
    · subst hji
      rw [hself, hlive] at hdead
      exact absurd hdead.symm Bool.false_ne_true
    · rw [hentry hji] at hdead ⊢
      exact h.dead j (by simpa using Ne.symm hji) hdead
  · intro j r' hj
    rcases hseen hj with ⟨rfl, rfl⟩ | ⟨hji, -, hj⟩
    · rw [hself, hhostSelf]
      exact htag
    · rw [hentry hji, hhost hji]
      exact h.tag j r' hj
  · intro j r' hj hpos hle hsettled
    rcases hseen hj with ⟨rfl, rfl⟩ | ⟨hji, hr, hj⟩
    · rw [hhostSelf]
      exact hvalue hpos hle hsettled
    · rw [hhost hji, (hsame r' hr).1]
      rw [(hsame r' hr).2] at hsettled
      exact h.value j r' hj hpos hle hsettled
  · intro j r' hj hpos hle hmodified
    rcases hseen hj with ⟨rfl, rfl⟩ | ⟨hji, hr, hj⟩
    · rw [hself] at hmodified
      exact hclean hpos hle hmodified
    · rw [hentry hji] at hmodified
      rw [(hsame r' hr).1]
      exact h.clean j r' hj hpos hle hmodified
  · intro r' hpos hle _ hnone
    have hr : r' ≠ r := by
      rintro rfl
      exact hnone i hown
    rw [(hsame r' hr).1]
    refine h.away r' hpos hle ?_ fun j hj => hnone j (hback hj).2
    rcases hspare with hspare | hspare
    · omega
    · rwa [hspare]
  · intro j hj
    rcases hseen hj with ⟨rfl, hr⟩ | ⟨hji, -, hj⟩
    · rw [hself, hhostSelf]
      exact hzero hr.symm
    · rw [hentry hji, hhost hji]
      exact h.zero j hj
  · intro j r' hj hgt
    rcases hseen hj with ⟨rfl, rfl⟩ | ⟨hji, -, hj⟩
    · rw [hself]
      exact hscratch hgt
    · rw [hentry hji]
      exact h.scratch j r' hj hgt
  · intro r' hpending
    by_cases hr : r' = r
    · subst hr
      obtain ⟨hpos, hle, hrest⟩ := hawaited hpending
      refine ⟨hpos, hle, i, hown, ?_⟩
      rw [hself]
      exact hrest
    · rw [(hsame r' hr).2] at hpending
      obtain ⟨hpos, hle, j, hj, hrest⟩ := h.awaited r' hpending
      refine ⟨hpos, hle, j, (hback hj).2, ?_⟩
      rw [hentry (hback hj).1]
      exact hrest

end Primitives

section Taking

variable {s : CacheState n} {a : Assigned} {i : Fin n} {r : Nat}

theorem CoherentBut.withTimestamp {hole : Option (Fin n)} {spare : Nat}
    (h : CoherentBut hole spare s a) (t : BitVec 32) :
    CoherentBut hole spare { s with timestamp := t } a :=
  ⟨h.unique, h.dead, h.tag, h.value, h.clean, h.away, h.zero, h.scratch, h.awaited⟩

theorem Coherent.unique (h : Coherent s a) {j : Fin n} (hi : s.Holds i r) (hj : s.Holds j r) :
    i = j :=
  CoherentBut.unique h i j r (seen_none.mpr hi) (seen_none.mpr hj)

theorem Coherent.pending_of_unlocked (h : Coherent s a) (hi : s.Holds i r)
    (hlocks : (s.entries i).numLocks = 0) : a.pending r = false := by
  by_contra hpending
  obtain ⟨-, -, j, hj, hpos, -⟩ := h.awaited r (by simpa using hpending)
  have hij := h.unique hi (seen_none.mp hj)
  subst hij
  omega

theorem Assigned.settle_eq {r : Nat} (h : a.pending r = false) : a.settle r = a := by
  unfold Assigned.settle
  rw [Function.update_eq_self_iff.mpr h.symm]

theorem Coherent.vacate (h : Coherent s a) (hlive : (s.entries i).isLive = true)
    (hlocks : (s.entries i).numLocks = 0) :
    ∃ s', (if (s.entries i).modified then s.writebackRegister i else some s) = some s' ∧
      CoherentBut (some i) 0 s' a ∧ (∀ j, j ≠ i → s'.entries j = s.entries j) ∧
      (s'.entries i).numLocks = 0 := by
  have hi : s.Holds i (s.entries i).mipsRegister := ⟨hlive, rfl⟩
  have hpunched := h.punch hi
  rw [Assigned.settle_eq (h.pending_of_unlocked hi hlocks)] at hpunched
  by_cases hmodified : (s.entries i).modified = true
  · have hne : (s.entries i).mipsRegister ≠ 0 := by
      intro hzero
      have hclean := (h.zero i (seen_none.mpr ⟨hlive, hzero⟩)).1
      rw [hmodified] at hclean
      exact Bool.false_ne_true hclean.symm
    rw [if_pos hmodified, writebackRegister, if_neg hne]
    refine ⟨_, rfl, ?_, ?_, ?_⟩
    · apply hpunched.restore
      · split <;> rfl
      · intro j hj
        split <;> exact Function.update_of_ne hj _ _
      · intro r hr
        split
        · exact Function.update_of_ne hr _ _
        · rfl
      · intro hpos hle
        rw [if_pos hle]
        refine (Function.update_self _ _ _).trans ?_
        have hsettled := h.pending_of_unlocked hi hlocks
        exact h.value i _ (seen_none.mpr hi) hpos hle hsettled
    · intro j hj
      split <;> exact Function.update_of_ne hj _ _
    · simp [hlocks]
  · rw [if_neg hmodified]
    refine ⟨s, rfl, hpunched.restore rfl (fun _ _ => rfl) (fun _ _ => rfl) ?_,
      fun _ _ => rfl, hlocks⟩
    exact fun hpos hle => h.clean i _ (seen_none.mpr hi) hpos hle (by simpa using hmodified)

theorem Coherent.evict (h : Coherent s a) (hnone : ∀ j, ¬ s.Holds j r)
    (hunlocked : (s.entries i).isLive = true → (s.entries i).numLocks = 0) :
    ∃ s', s.evict i r = some s' ∧ CoherentBut (some i) 0 s' a ∧
      (∀ j, j ≠ i → s'.entries j = s.entries j) ∧ (s'.entries i).numLocks = 0 := by
  unfold CacheState.evict
  by_cases hlive : (s.entries i).isLive = true
  · have hne : (s.entries i).mipsRegister ≠ r := fun hreg => hnone i ⟨hlive, hreg⟩
    have hvacate := h.vacate hlive (hunlocked hlive)
    simpa [hlive, hne] using hvacate
  · have hdead : (s.entries i).isLive = false := by simpa using hlive
    simp only [hdead, Bool.false_eq_true, false_and, if_false]
    exact ⟨s, rfl, h.punch_free hdead, fun _ _ => rfl, h.dead i (by simp) hdead⟩

end Taking

end CacheState

end ParallelN64.Rsp
