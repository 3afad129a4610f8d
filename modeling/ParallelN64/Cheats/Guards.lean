import ParallelN64.Cheats.Restore

/-!
# Conditions in front of a code

At a vertical interrupt a condition that holds has the next code executed and one that fails has
it skipped, whatever that code is. A condition behind a condition is therefore not looked at, and
the code behind it stands alone again. Of an odd number of conditions only the last one counts, of
an even number none does, and of the codes that a repeat stands for only the first is guarded.
-/

namespace ParallelN64.Cheats

open ParallelN64.Core

def isWrite (address : UInt32) : Bool :=
  codeKind address == .update8 || codeKind address == .update16 || codeKind address == .both

/-- Only what was reached differs. -/
structure Memory.Same (mem mem' : Memory) : Prop where
  byte : mem'.byte = mem.byte
  written : mem'.written = mem.written

section Effects

variable {mem mem' : Memory} {name : Bytes} {code : CheatCode} {address : UInt32}

theorem Memory.Same.refl (mem : Memory) : mem.Same mem := ⟨rfl, rfl⟩

theorem Memory.Same.trans {mem'' : Memory} (h : mem.Same mem') (h' : mem'.Same mem'') :
    mem.Same mem'' :=
  ⟨h'.byte.trans h.byte, h'.written.trans h.written⟩

theorem codeKind_of_isConditional (h : isConditional address = true) :
    codeKind address ≠ .update8 ∧ codeKind address ≠ .update16 ∧ codeKind address ≠ .both := by
  have hnarrow : (address &&& 0xFF000000) &&& 0xF0000000 = address &&& 0xF0000000 := by
    rw [UInt32.and_assoc]
    rfl
  have htop : (address &&& 0xFF000000) &&& 0xF0000000 = 0xD0000000 := by
    rw [hnarrow]
    simpa [isConditional] using h
  unfold codeKind
  generalize address &&& 0xFF000000 = top at htop
  dsimp only
  split_ifs with h₁ h₂ h₃ h₄ h₅ h₆ h₇
  · rcases h₁ with rfl | rfl | rfl | rfl | rfl <;> exact absurd htop (by decide)
  · rcases h₂ with rfl | rfl | rfl | rfl | rfl <;> exact absurd htop (by decide)
  · simp
  · simp
  · simp
  · simp
  · subst h₇
    exact absurd htop (by decide)
  · simp

theorem isConditional_of_isWrite (h : isWrite address = true) : isConditional address = false := by
  by_contra hcond
  rw [Bool.not_eq_false] at hcond
  obtain ⟨h8, h16, hboth⟩ := codeKind_of_isConditional hcond
  simp [isWrite, h8, h16, hboth] at h

theorem same_executeCheat (h : isConditional address = true) (author : Author) (value : UInt16)
    (old : Option UInt32) : mem.Same (executeCheat mem author address value old).2.1 := by
  obtain ⟨h8, h16, hboth⟩ := codeKind_of_isConditional h
  unfold executeCheat
  split
  · exact absurd ‹_› h8
  · exact absurd ‹_› h16
  · exact ⟨rfl, rfl⟩
  · exact ⟨rfl, rfl⟩
  · exact ⟨rfl, rfl⟩
  · exact ⟨rfl, rfl⟩
  · exact absurd ‹_› hboth
  · exact .refl mem

theorem written_executeCheat_ne (h : isWrite address = true) (author : Author) (value : UInt16)
    (old : Option UInt32) :
    (executeCheat mem author address value old).2.1.written ≠ mem.written := by
  suffices hlt : mem.written.length <
      (executeCheat mem author address value old).2.1.written.length by
    intro heq
    rw [heq] at hlt
    exact hlt.false
  unfold executeCheat
  cases hkind : codeKind address with
  | update8 => simp [updateAddress8bit, Memory.store]
  | update16 =>
    simp only [updateAddress16bit, Memory.store, List.length_cons]
    omega
  | both =>
    simp only [updateAddress16bit, Memory.store, List.length_cons]
    omega
  | equal8 | equal16 | differ8 | differ16 | nothing => simp [isWrite, hkind] at h

end Effects

section Steps

variable (name : Bytes) (active : Bool)

def viStep (s : Following × Memory) (code : CheatCode) : Following × Memory :=
  let next := viCode name active s.1 s.2 code
  (next.1, next.2.1)

theorem forEachCode_viCode (following : Following) (mem : Memory) (codes : List CheatCode) :
    (forEachCode (viCode name active) following mem codes).1 =
      (codes.foldl (viStep name active) (following, mem)).2 := by
  induction codes generalizing following mem with
  | nil => rfl
  | cons code codes ih => exact ih _ _

/-- Whether a condition holds: the button is pressed where it has to be, and the comparison comes
out right. -/
def conditionHolds (mem : Memory) (code : CheatCode) : Bool :=
  (!isButtonConditional code.address || active) &&
    (executeCheat mem romPatch code.address code.value.toUInt16 none).1

def runsAlone (code : CheatCode) : Bool :=
  if isButtonCode code.address then active else !isBootCode code.address

variable {name active} {mem mem' : Memory} {code : CheatCode}

theorem executeCheat_fst_congr (h : mem.Same mem') (author author' : Author) (address : UInt32)
    (value : UInt16) (old old' : Option UInt32) :
    (executeCheat mem' author address value old).1 =
      (executeCheat mem author' address value old').1 := by
  unfold executeCheat
  cases codeKind address <;> simp only [readAddress8bit, readAddress16bit, h.byte]

theorem conditionHolds_congr (h : mem.Same mem') :
    conditionHolds active mem' code = conditionHolds active mem code := by
  rw [conditionHolds, conditionHolds, executeCheat_fst_congr h]

theorem viStep_of_executeNext (mem : Memory) (code : CheatCode) :
    viStep name active ({ executeNext := true }, mem) code =
      ({}, if isButtonConditional code.address then (executePlain name mem code).2
        else (executeSaving name mem code).1) := by
  unfold viStep viCode
  dsimp only
  by_cases h : isButtonConditional code.address = true
  · simp [h]
  · simp [h]

variable (name active mem) in

theorem viStep_conditional (h : isConditional code.address = true) :
    (viStep name active ({}, mem) code).1 =
        (if conditionHolds active mem code then { executeNext := true }
          else { skip := true }) ∧
      mem.Same (viStep name active ({}, mem) code).2 := by
  have hsame : mem.Same (executeCheat mem (codeOf name false) code.address code.value.toUInt16
      none).2.1 := same_executeCheat h _ _ _
  have hholds := executeCheat_fst_congr (.refl mem) (codeOf name false) romPatch code.address
    code.value.toUInt16 none none
  unfold viStep viCode conditionHolds
  dsimp only
  rw [if_neg (by simp), if_neg (by simp), if_pos h, ← hholds]
  by_cases hbutton : (isButtonConditional code.address && !active) = true
  · have hfails : (!isButtonConditional code.address || active) = false := by
      simpa [Bool.and_eq_true] using hbutton
    rw [if_pos hbutton, hfails]
    exact ⟨rfl, .refl mem⟩
  · have hready : (!isButtonConditional code.address || active) = true := by
      revert hbutton
      generalize isButtonConditional code.address = button
      revert button active
      decide
    rw [if_neg hbutton, hready, Bool.true_and]
    unfold executePlain
    dsimp only
    split_ifs
    · exact ⟨rfl, hsame⟩
    · exact ⟨rfl, hsame⟩

theorem viStep_alone (h : isConditional code.address = false) :
    viStep name active ({}, mem) code =
      ({}, if runsAlone active code then
          if isButtonCode code.address then (executePlain name mem code).2
          else (executeSaving name mem code).1
        else mem) := by
  unfold viStep viCode runsAlone
  dsimp only
  rw [if_neg (by simp), if_neg (by simp), if_neg (by simp [h])]
  split_ifs <;> rfl

theorem same_viStep_of_executeNext (h : isConditional code.address = true) :
    mem.Same (viStep name active ({ executeNext := true }, mem) code).2 := by
  rw [viStep_of_executeNext]
  dsimp only
  split_ifs
  · exact same_executeCheat h _ _ _
  · exact same_executeCheat h _ _ _

theorem written_viStep_of_executeNext (h : isWrite code.address = true) :
    (viStep name active ({ executeNext := true }, mem) code).2.written ≠ mem.written := by
  rw [viStep_of_executeNext]
  dsimp only
  split_ifs
  · exact written_executeCheat_ne h _ _ _
  · exact written_executeCheat_ne h _ _ _

theorem written_viStep_alone (h : isWrite code.address = true) :
    (viStep name active ({}, mem) code).2.written ≠ mem.written ↔
      runsAlone active code = true := by
  rw [viStep_alone (isConditional_of_isWrite h)]
  dsimp only
  split_ifs with hruns
  · exact iff_of_true (written_executeCheat_ne h _ _ _) hruns
  · exact iff_of_true (written_executeCheat_ne h _ _ _) hruns
  · exact iff_of_false (fun hne => hne rfl) hruns

theorem viStep_not_both {s : Following × Memory}
    (h : ¬ (s.1.skip = true ∧ s.1.executeNext = true)) :
    ¬ ((viStep name active s code).1.skip = true ∧
      (viStep name active s code).1.executeNext = true) := by
  obtain ⟨⟨skip, executeNext⟩, mem⟩ := s
  unfold viStep viCode
  cases skip <;> cases executeNext <;> simp_all
  all_goals split_ifs <;> simp_all

theorem viStep_fst_of_not_conditional {s : Following × Memory}
    (hs : ¬ (s.1.skip = true ∧ s.1.executeNext = true))
    (h : isConditional code.address = false) : (viStep name active s code).1 = {} := by
  obtain ⟨⟨skip, executeNext⟩, mem⟩ := s
  cases skip with
  | true =>
    cases executeNext with
    | true => exact absurd ⟨rfl, rfl⟩ hs
    | false => rfl
  | false =>
    cases executeNext with
    | true => rw [viStep_of_executeNext]
    | false => rw [viStep_alone h]

end Steps

section Runs

variable (name : Bytes) (active : Bool) (mem : Memory)

def passed (codes : List CheatCode) : Memory :=
  (forEachCode (viCode name active) {} mem codes).1

def Executed (before : List CheatCode) (code : CheatCode) : Prop :=
  (passed name active mem (before ++ [code])).written ≠
    (passed name active mem before).written

def StartsRun (front : List CheatCode) : Prop :=
  ∀ code ∈ front.getLast?, isConditional code.address = false

/-- What an open condition does with the next code, behind a run of conditions. -/
def behindConditions (conditions : List CheatCode) : Following :=
  if conditions.length % 2 = 0 then {}
  else if conditions.getLast?.any (conditionHolds active mem) then { executeNext := true }
  else { skip := true }

variable {name active mem}

theorem foldl_viStep_not_both (codes : List CheatCode) :
    ¬ ((codes.foldl (viStep name active) ({}, mem)).1.skip = true ∧
      (codes.foldl (viStep name active) ({}, mem)).1.executeNext = true) := by
  induction codes using List.reverseRecOn with
  | nil => simp
  | append_singleton codes code ih =>
    rw [List.foldl_append]
    exact viStep_not_both ih

theorem StartsRun.clear {front : List CheatCode} (h : StartsRun front) :
    (front.foldl (viStep name active) ({}, mem)).1 = {} := by
  induction front using List.reverseRecOn with
  | nil => rfl
  | append_singleton front code ih =>
    rw [List.foldl_append]
    apply viStep_fst_of_not_conditional (foldl_viStep_not_both front)
    exact h code (by simp)

variable (name active mem) in

theorem foldl_conditions {conditions : List CheatCode}
    (hconditions : ∀ code ∈ conditions, isConditional code.address = true) :
    (conditions.foldl (viStep name active) ({}, mem)).1 =
        behindConditions active mem conditions ∧
      mem.Same (conditions.foldl (viStep name active) ({}, mem)).2 := by
  induction conditions using List.reverseRecOn with
  | nil => exact ⟨rfl, .refl mem⟩
  | append_singleton conditions code ih =>
    have hcode := hconditions code (by simp)
    obtain ⟨hbehind, hsame⟩ := ih fun code hmem => hconditions code (by simp [hmem])
    rw [List.foldl_append, List.foldl_cons, List.foldl_nil]
    generalize conditions.foldl (viStep name active) ({}, mem) = s at hbehind hsame
    obtain ⟨following, mem'⟩ := s
    subst hbehind
    dsimp only at hsame
    by_cases hparity : conditions.length % 2 = 0
    · have hopen : behindConditions active mem (conditions ++ [code]) =
          if conditionHolds active mem code then { executeNext := true }
          else { skip := true } := by
        have hodd : ¬ (conditions.length + 1) % 2 = 0 := by omega
        simp [behindConditions, hodd]
      obtain ⟨hnext, hmem⟩ := viStep_conditional name active mem' hcode
      rw [behindConditions, if_pos hparity, hnext, hopen, conditionHolds_congr hsame]
      exact ⟨rfl, hsame.trans hmem⟩
    · have hclosed : behindConditions active mem (conditions ++ [code]) = {} := by
        have heven : (conditions.length + 1) % 2 = 0 := by omega
        simp [behindConditions, heven]
      rw [behindConditions, if_neg hparity, hclosed]
      split_ifs
      · refine ⟨?_, hsame.trans (same_viStep_of_executeNext hcode)⟩
        rw [viStep_of_executeNext]
      · exact ⟨rfl, hsame⟩

/-- Whether the first write behind a run of conditions is executed. -/
def runsGuarded (active : Bool) (mem : Memory) (conditions : List CheatCode)
    (code : CheatCode) : Bool :=
  if conditions.length % 2 = 0 then runsAlone active code
  else conditions.getLast?.any (conditionHolds active mem)

theorem StartsRun.foldl_eq {front : List CheatCode} (h : StartsRun front) :
    front.foldl (viStep name active) ({}, mem) =
      ({}, passed name active mem front) := by
  rw [passed, forEachCode_viCode]
  exact Prod.ext h.clear rfl

theorem executed_append {front : List CheatCode} (h : StartsRun front) (before : List CheatCode)
    (code : CheatCode) :
    Executed name active mem (front ++ before) code ↔
      Executed name active (passed name active mem front) before code := by
  have hpassed (codes : List CheatCode) : passed name active mem (front ++ codes) =
      passed name active (passed name active mem front) codes := by
    rw [passed, forEachCode_viCode, List.foldl_append, h.foldl_eq, ← forEachCode_viCode, ← passed]
  rw [Executed, Executed, List.append_assoc, hpassed, hpassed]

theorem executed_iff_runsAlone {before : List CheatCode} {code : CheatCode}
    (h : StartsRun before) (hwrite : isWrite code.address = true) :
    Executed name active mem before code ↔ runsAlone active code = true := by
  rw [← written_viStep_alone hwrite]
  rw [Executed, passed, forEachCode_viCode, List.foldl_append, h.foldl_eq]
  rfl

theorem executed_iff_runsGuarded {front conditions : List CheatCode} {code : CheatCode}
    (hfront : StartsRun front)
    (hconditions : ∀ code ∈ conditions, isConditional code.address = true)
    (hwrite : isWrite code.address = true) :
    Executed name active mem (front ++ conditions) code ↔
      runsGuarded active (passed name active mem front) conditions code =
        true := by
  rw [executed_append hfront]
  generalize passed name active mem front = mem
  obtain ⟨hbehind, hsame⟩ := foldl_conditions name active mem hconditions
  rw [Executed, passed, passed, forEachCode_viCode, forEachCode_viCode, List.foldl_append]
  generalize conditions.foldl (viStep name active) ({}, mem) = s at hbehind hsame
  obtain ⟨following, mem'⟩ := s
  subst hbehind
  rw [List.foldl_cons, List.foldl_nil]
  unfold behindConditions runsGuarded
  split_ifs with hparity hlast
  · exact written_viStep_alone hwrite
  · exact iff_of_true (written_viStep_of_executeNext hwrite) hlast
  · exact iff_of_false (fun h => h rfl) hlast

end Runs

/-- Whether a list of codes ends with a patch code that repeats the next one. -/
def pending : List (UInt32 × UInt32) → Bool
  | [] => false
  | [(address, _)] => address &&& 0xFFFF0000 == 0x50000000
  | (address, _) :: code :: rest =>
    if address &&& 0xFFFF0000 = 0x50000000 then pending rest else pending (code :: rest)

theorem newCodes_append {pre : List (UInt32 × UInt32)} (h : pending pre = false)
    (post : List (UInt32 × UInt32)) : newCodes (pre ++ post) = newCodes pre ++ newCodes post := by
  fun_induction pending pre with
  | case1 => rfl
  | case2 address value =>
    have hplain : ¬ address &&& 0xFFFF0000 = 0x50000000 := by simpa using h
    cases post with
    | nil => simp [newCodes]
    | cons code post => simp [newCodes, hplain]
  | case3 address value code rest hrepeat ih =>
    obtain ⟨nextAddress, nextValue⟩ := code
    simp [newCodes, hrepeat, ih h]
  | case4 address value code rest hplain ih =>
    obtain ⟨nextAddress, nextValue⟩ := code
    have hrest := ih h
    rw [List.cons_append] at hrest
    simp [newCodes, hplain, hrest]

section Guards

variable (name : Bytes) (active : Bool) (mem : Memory)

/-- All of some codes behind others are executed or none. -/
def AllOrNone (front codes : List CheatCode) : Prop :=
  (∀ before code after, codes = before ++ code :: after →
      Executed name active mem (front ++ before) code) ∨
    ∀ before code after, codes = before ++ code :: after →
      ¬ Executed name active mem (front ++ before) code

/-- Conditions guard a write: of an odd number the last one implies the others, or behind an even
number the write is executed alone exactly where all of them hold. -/
def GuardRight (conditions : List CheatCode) (code : CheatCode) : Prop :=
  if conditions.length % 2 = 0 then
    (runsAlone active code = true ↔
      ∀ condition ∈ conditions, conditionHolds active mem condition = true)
  else
    (∀ last ∈ conditions.getLast?, conditionHolds active mem last = true) →
      ∀ condition ∈ conditions, conditionHolds active mem condition = true

/-- Conditions guard the codes of a repeat: those behind the first are executed alone exactly where
the first is executed. -/
def RepeatRight (conditions codes : List CheatCode) : Prop :=
  ∀ first rest, codes = first :: rest → ∀ code ∈ rest,
    runsAlone active code = runsGuarded active mem conditions first

variable {name active mem}

theorem runsGuarded_iff_all_iff {conditions : List CheatCode} (hne : conditions ≠ [])
    (code : CheatCode) :
    (runsGuarded active mem conditions code = true ↔
        ∀ condition ∈ conditions, conditionHolds active mem condition = true) ↔
      GuardRight active mem conditions code := by
  unfold runsGuarded GuardRight
  split_ifs with hparity
  · exact Iff.rfl
  · rw [List.getLast?_eq_some_getLast hne]
    simp only [Option.any_some, Option.mem_some_iff, forall_eq']
    exact ⟨fun h => h.mp, fun h => ⟨h, fun hall => hall _ (List.getLast_mem hne)⟩⟩

theorem allOrNone_iff {front conditions codes : List CheatCode} (hfront : StartsRun front)
    (hconditions : ∀ code ∈ conditions, isConditional code.address = true)
    (hwrites : ∀ code ∈ codes, isWrite code.address = true) :
    AllOrNone name active mem (front ++ conditions) codes ↔
      RepeatRight active (passed name active mem front) conditions codes := by
  have hfirst (first : CheatCode) (h : first ∈ codes) :
      Executed name active mem (front ++ conditions ++ []) first ↔
        runsGuarded active (passed name active mem front) conditions first =
          true := by
    rw [List.append_nil]
    exact executed_iff_runsGuarded hfront hconditions (hwrites first h)
  -- behind the first code a write stands in front of every other one
  have hlater (first : CheatCode) (between : List CheatCode) (code : CheatCode)
      (h : ∀ code ∈ first :: between, code ∈ codes) (hcode : code ∈ codes) :
      Executed name active mem (front ++ conditions ++ first :: between) code ↔
        runsAlone active code = true := by
    apply executed_iff_runsAlone _ (hwrites code hcode)
    intro last hlast
    rw [List.getLast?_append_of_ne_nil _ (List.cons_ne_nil _ _)] at hlast
    exact isConditional_of_isWrite (hwrites last (h last (List.mem_of_getLast? hlast)))
  constructor
  · rintro hall first rest rfl code hcode
    obtain ⟨between, after, rfl⟩ := List.append_of_mem hcode
    have h₁ := hfirst first (by simp)
    have h₂ := hlater first between code (by simp +contextual) (by simp)
    rw [Bool.eq_iff_iff, ← h₁, ← h₂]
    rcases hall with hall | hnone
    · exact iff_of_true (hall (first :: between) code after rfl) (hall [] first _ rfl)
    · exact iff_of_false (hnone (first :: between) code after rfl) (hnone [] first _ rfl)
  · intro hright
    cases codes with
    | nil => exact .inl fun before code after h => by simp at h
    | cons first rest =>
      have hsame (before : List CheatCode) (code : CheatCode) (after : List CheatCode)
          (h : first :: rest = before ++ code :: after) :
          Executed name active mem (front ++ conditions ++ before) code ↔
            runsGuarded active (passed name active mem front) conditions first =
              true := by
        cases before with
        | nil =>
          obtain ⟨rfl, rfl⟩ := List.cons.inj h
          exact hfirst first (by simp)
        | cons first' between =>
          obtain ⟨rfl, rfl⟩ := List.cons.inj h
          rw [hlater first between code (by simp +contextual) (by simp),
            hright first _ rfl code (by simp)]
      by_cases hruns : runsGuarded active (passed name active mem front)
          conditions first = true
      · exact .inl fun before code after h => (hsame before code after h).mpr hruns
      · exact .inr fun before code after h => mt (hsame before code after h).mp hruns

/-- A run of conditions in the codes of a cheat guards the write behind it exactly where an odd
number of them says what its last one says, or an even number what the write would do alone. It
guards all codes of a repeat exactly where the later ones would do alone what the first one does. -/
theorem guards_iff {front conditions : List CheatCode} (hfront : StartsRun front)
    (hne : conditions ≠ [])
    (hconditions : ∀ code ∈ conditions, isConditional code.address = true) :
    (∀ code, isWrite code.address = true →
      ((Executed name active mem (front ++ conditions) code ↔
          ∀ condition ∈ conditions, conditionHolds active
            (passed name active mem front) condition = true) ↔
        GuardRight active (passed name active mem front) conditions code)) ∧
    ∀ pre address value nextAddress nextValue post, pending pre = false →
      newCodes pre = front ++ conditions → address &&& 0xFFFF0000 = 0x50000000 →
      let codes := patchCodes (address &&& 0xFF) value ((address &&& 0xFF00) >>> 8).toNat
        nextAddress nextValue
      (∀ code ∈ codes, isWrite code.address = true) →
      newCodes (pre ++ (address, value) :: (nextAddress, nextValue) :: post) =
          front ++ conditions ++ codes ++ newCodes post ∧
        (AllOrNone name active mem (front ++ conditions) codes ↔
          RepeatRight active (passed name active mem front) conditions codes) := by
  constructor
  · intro code hwrite
    rw [executed_iff_runsGuarded hfront hconditions hwrite]
    exact runsGuarded_iff_all_iff hne code
  · intro pre address value nextAddress nextValue post hpending hpre hrepeat codes hwrites
    refine ⟨?_, allOrNone_iff hfront hconditions hwrites⟩
    rw [newCodes_append hpending, hpre, newCodes, if_pos hrepeat, ← List.append_assoc]

/-- Two conditions that hold guard a write, and a repeat behind them is executed as a whole. -/
theorem guards_iff_two :
    let zeros : Memory := ⟨fun _ => 0, [], []⟩
    let conditions := newCodes [(0xD0000000, 0), (0xD1000002, 0)]
    let codes := patchCodes 4 1 2 0x80000008 5
    (∀ code ∈ codes,
      ((Executed [] false zeros ([] ++ conditions) code ↔
          ∀ condition ∈ conditions,
            conditionHolds false (passed [] false zeros []) condition = true) ↔
        GuardRight false (passed [] false zeros []) conditions code)) ∧
      newCodes [(0xD0000000, 0), (0xD1000002, 0), (0x50000204, 1), (0x80000008, 5)] =
        [] ++ conditions ++ codes ++ newCodes [] ∧
      (AllOrNone [] false zeros ([] ++ conditions) codes ↔
        RepeatRight false (passed [] false zeros []) conditions codes) := by
  intro zeros conditions codes
  have hwrites : ∀ code ∈ codes, isWrite code.address = true := by decide
  obtain ⟨hsingle, hrepeat⟩ := @guards_iff [] false zeros [] conditions
    (fun _ h => by simp at h) (List.cons_ne_nil _ _) (by decide)
  exact ⟨fun code h => hsingle code (hwrites code h),
    hrepeat [(0xD0000000, 0), (0xD1000002, 0)] 0x50000204 1 0x80000008 5 [] rfl rfl rfl hwrites⟩

/-- Behind two conditions that fail a write is executed. -/
theorem not_guarded :
    ¬ ∀ (name : Bytes) (active : Bool) (mem : Memory) (front conditions : List CheatCode)
      (code : CheatCode), StartsRun front → conditions ≠ [] →
      (∀ code ∈ conditions, isConditional code.address = true) → isWrite code.address = true →
      (Executed name active mem (front ++ conditions) code ↔
        ∀ condition ∈ conditions, conditionHolds active
          (passed name active mem front) condition = true) := by
  intro h
  let fails : CheatCode := { address := 0xD0000000, value := 1 }
  have hguarded := h [] false ⟨fun _ => 0, [], []⟩ [] [fails, fails]
    { address := 0x80000004, value := 5 } (fun _ h => by simp at h) (by simp) (by decide) rfl
  have hexecuted : Executed [] false ⟨fun _ => 0, [], []⟩ ([] ++ [fails, fails])
      { address := 0x80000004, value := 5 } := by
    unfold Executed
    decide +kernel
  have hholds := hguarded.mp hexecuted fails (by simp)
  revert hholds
  decide +kernel

end Guards

end ParallelN64.Cheats
