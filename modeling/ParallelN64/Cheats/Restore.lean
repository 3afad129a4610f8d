import ParallelN64.Cheats.Machine
import ParallelN64.Core.Undo

/-!
# Taking cheats back

The codes of a cheat that write are patches of the memory which keep what they replace, but for
the codes of the button that stand behind no condition. Passes keep them undoable as long as the
ranges of these codes are separate and everything else that writes one of their bytes, a patch for
the ROM, another cheat or a code that does not save, writes its original value. A pass that finds
the cheat disabled then leaves the original bytes.
-/

namespace ParallelN64.Cheats

open ParallelN64.Core

/-- The bytes a code writes after it saved them. -/
def codeRange (address : UInt32) : List Nat :=
  match codeKind address with
  | .update8 => [offset8 address]
  | .update16 => [offset16 address, offset16 address + 1]
  | _ => []

/-- The byte of an old value for an offset. -/
def oldByte (address value : UInt32) (offset : Nat) : UInt8 :=
  match codeKind address with
  | .update8 => value.toUInt16.toUInt8
  | .update16 =>
    if offset = offset16 address then value.toUInt16.toUInt8 else (value.toUInt16 >>> 8).toUInt8
  | _ => 0

def patchOf (code : CheatCode) : Patch Nat UInt8 where
  range := codeRange code.address
  saved := if code.oldValue = cheatCodeMagicValue then none
    else some (oldByte code.address code.oldValue)

/-- Whether a code saves what it replaces when it is executed: a code of the button only right
behind a condition. -/
def saves (behind : Bool) (address : UInt32) : Bool := behind || !isButtonCode address

/-- Whether the next code stands behind a condition: one that stands behind another is executed
as any other code. -/
def nextBehind (behind : Bool) (address : UInt32) : Bool := !behind && isConditional address

def patchAt (behind : Bool) (code : CheatCode) : Patch Nat UInt8 :=
  if saves behind code.address then patchOf code else ⟨[], none⟩

/-- The patches of a list of codes; those that do not save have none. -/
def patchesOf : Bool → List CheatCode → List (Patch Nat UInt8)
  | _, [] => []
  | behind, code :: codes =>
    patchAt behind code :: patchesOf (nextBehind behind code.address) codes

/-- The codes that do not save hold no old value. -/
def Clean : Bool → List CheatCode → Prop
  | _, [] => True
  | behind, code :: codes =>
    (saves behind code.address = false → code.oldValue = cheatCodeMagicValue) ∧
      Clean (nextBehind behind code.address) codes

def WrittenBy (who : Author → Prop) (mem mem' : Memory) : Prop :=
  ∃ new, mem'.written = new ++ mem.written ∧ (∀ w ∈ new, who w.author) ∧
    ∀ a, mem'.byte a = mem.byte a ∨ ∃ w ∈ new, w.offset = a ∧ w.value = mem'.byte a

section WrittenBy

variable {who : Author → Prop} {mem mem' mem'' : Memory}

theorem WrittenBy.refl (who : Author → Prop) (mem : Memory) : WrittenBy who mem mem :=
  ⟨[], rfl, by simp, fun _ => Or.inl rfl⟩

theorem WrittenBy.trans (h : WrittenBy who mem mem') (h' : WrittenBy who mem' mem'') :
    WrittenBy who mem mem'' := by
  obtain ⟨new, hnew, hwho, hbyte⟩ := h
  obtain ⟨new', hnew', hwho', hbyte'⟩ := h'
  refine ⟨new' ++ new, by rw [hnew', hnew, List.append_assoc], ?_, ?_⟩
  · intro w hw
    rcases List.mem_append.mp hw with hw | hw
    · exact hwho' w hw
    · exact hwho w hw
  · intro a
    rcases hbyte' a with heq | ⟨w, hw, hoffset, hvalue⟩
    · rcases hbyte a with heq' | ⟨w, hw, hoffset, hvalue⟩
      · exact Or.inl (heq.trans heq')
      · exact Or.inr ⟨w, List.mem_append_right _ hw, hoffset, hvalue.trans heq.symm⟩
    · exact Or.inr ⟨w, List.mem_append_left _ hw, hoffset, hvalue⟩

theorem WrittenBy.mono {who' : Author → Prop} (h : WrittenBy who mem mem')
    (himp : ∀ author, who author → who' author) : WrittenBy who' mem mem' := by
  obtain ⟨new, hnew, hwho, hbyte⟩ := h
  exact ⟨new, hnew, fun w hw => himp _ (hwho w hw), hbyte⟩

theorem writtenBy_store (author : Author) (offset : Nat) (value : UInt8) (h : who author) :
    WrittenBy who mem (mem.store author offset value) := by
  refine ⟨[⟨author, offset, value⟩], rfl, ?_, ?_⟩
  · intro w hw
    rw [List.mem_singleton.mp hw]
    exact h
  · intro a
    by_cases ha : a = offset
    · subst ha
      exact Or.inr ⟨_, List.mem_singleton_self _, rfl, by simp [Memory.store]⟩
    · exact Or.inl (Function.update_of_ne ha ..)

theorem writtenBy_reach (address : UInt32) : WrittenBy who mem (mem.reach address) :=
  ⟨[], rfl, by simp, fun _ => Or.inl rfl⟩

theorem writtenBy_update16 (author : Author) (address : UInt32) (value : UInt16)
    (h : who author) : WrittenBy who mem (updateAddress16bit mem author address value) :=
  (writtenBy_store author _ _ h).trans (writtenBy_store author _ _ h)

theorem writtenBy_executeCheat (author : Author) (address : UInt32) (value : UInt16)
    (old : Option UInt32) (h : who author) (h' : who { author with kept := false }) :
    WrittenBy who mem (executeCheat mem author address value old).2.1 := by
  unfold executeCheat
  cases codeKind address with
  | update8 => exact writtenBy_store author _ _ h
  | update16 => exact writtenBy_update16 author _ _ h
  | equal8 | equal16 | differ8 | differ16 => exact writtenBy_reach address
  | both => exact (writtenBy_update16 _ _ _ h').trans (writtenBy_update16 _ _ _ h')
  | nothing => exact WrittenBy.refl who mem

end WrittenBy

section Session

variable (name : Bytes) (base : Nat → UInt8) (place : Nat → Prop)

/-- Whatever was written at these places by anything but the saving codes of a cheat is the
original value. -/
def OthersKeep (mem : Memory) : Prop :=
  ∀ w ∈ mem.written, place w.offset → w.author = codeOf name true ∨ w.value = base w.offset

variable {name base place} {mem mem' : Memory} {front back : List (Patch Nat UInt8)}
variable {code : CheatCode} {patches : List (Patch Nat UInt8)}

theorem OthersKeep.of_writtenBy {who : Author → Prop} (h : OthersKeep name base place mem')
    (hwritten : WrittenBy who mem mem') : OthersKeep name base place mem := by
  obtain ⟨new, hnew, -⟩ := hwritten
  intro w hw
  exact h w (hnew ▸ List.mem_append_right new hw)

theorem undoable_of_writtenBy {who : Author → Prop} (h : Undoable base place mem.byte patches)
    (hwritten : WrittenBy who mem mem') (hother : ∀ author, who author → author ≠ codeOf name true)
    (hkeep : OthersKeep name base place mem') : Undoable base place mem'.byte patches := by
  obtain ⟨new, hnew, hwho, hbyte⟩ := hwritten
  apply h.overwrite
  intro a ha
  refine (hbyte a).imp_right ?_
  rintro ⟨w, hw, rfl, hvalue⟩
  rw [← hvalue]
  exact (hkeep w (hnew ▸ List.mem_append_left _ hw) ha).resolve_left (hother _ (hwho w hw))

theorem codeOf_false_ne (name : Bytes) : codeOf name false ≠ codeOf name true := by
  simp [codeOf]

theorem toUInt32_ne_magic8 (v : UInt8) : v.toUInt32 ≠ cheatCodeMagicValue := by
  intro h
  have hlt := v.toNat_lt
  have heq := congrArg UInt32.toNat h
  rw [UInt8.toNat_toUInt32] at heq
  change v.toNat = 0xDEAD0000 at heq
  omega

theorem toUInt32_ne_magic16 (v : UInt16) : v.toUInt32 ≠ cheatCodeMagicValue := by
  intro h
  have hlt := v.toNat_lt
  have heq := congrArg UInt32.toNat h
  rw [UInt16.toNat_toUInt32] at heq
  change v.toNat = 0xDEAD0000 at heq
  omega

theorem bytes_of_readAddress16bit (mem : Memory) (address : UInt32) :
    (readAddress16bit mem address).toUInt8 = mem.byte (offset16 address) ∧
      (readAddress16bit mem address >>> 8).toUInt8 = mem.byte (offset16 address + 1) := by
  have hlow := (mem.byte (offset16 address)).toNat_lt
  have hhigh := (mem.byte (offset16 address + 1)).toNat_lt
  have hshift : ((mem.byte (offset16 address + 1)).toUInt16 <<< 8).toNat =
      (mem.byte (offset16 address + 1)).toNat <<< 8 := by
    rw [UInt16.toNat_shiftLeft, UInt8.toNat_toUInt16]
    apply Nat.mod_eq_of_lt
    change (mem.byte (offset16 address + 1)).toNat <<< 8 < 2 ^ 16
    rw [Nat.shiftLeft_eq]
    omega
  have hvalue : (readAddress16bit mem address).toNat =
      (mem.byte (offset16 address + 1)).toNat * 2 ^ 8 + (mem.byte (offset16 address)).toNat := by
    rw [readAddress16bit, UInt16.toNat_or, hshift, UInt8.toNat_toUInt16, Nat.or_comm,
      ← Nat.shiftLeft_add_eq_or_of_lt hlow, Nat.shiftLeft_eq]
  constructor
  · apply UInt8.toNat_inj.mp
    rw [UInt16.toNat_toUInt8, hvalue]
    omega
  · apply UInt8.toNat_inj.mp
    rw [UInt16.toNat_toUInt8, UInt16.toNat_shiftRight, hvalue, Nat.shiftRight_eq_div_pow]
    change _ / 2 ^ 8 % 2 ^ 8 = _
    omega

variable {address : UInt32} {a : Nat} (entry : EntryPoint)

theorem oldByte_readAddress (ha : a ∈ codeRange address) :
    (codeKind address = .update8 →
        oldByte address (readAddress8bit mem address).toUInt32 a = mem.byte a) ∧
      (codeKind address = .update16 →
        oldByte address (readAddress16bit mem address).toUInt32 a = mem.byte a) := by
  constructor
  · intro hkind
    simp only [codeRange, hkind, List.mem_singleton] at ha
    subst ha
    simp only [oldByte, hkind, readAddress8bit]
    simp
  · intro hkind
    simp only [codeRange, hkind, List.mem_cons, List.not_mem_nil, or_false] at ha
    obtain ⟨hlow, hhigh⟩ := bytes_of_readAddress16bit mem address
    simp only [oldByte, hkind, UInt16.toUInt16_toUInt32]
    rcases ha with rfl | rfl
    · rw [if_pos rfl, hlow]
    · rw [if_neg (by omega), hhigh]

theorem undoable_save {current : UInt32}
    (h : Undoable base place mem.byte (front ++ patchOf code :: back))
    (hcurrent : current ≠ cheatCodeMagicValue)
    (hread : ∀ a ∈ codeRange code.address, oldByte code.address current a = mem.byte a)
    (hout : ∀ a, a ∉ codeRange code.address → mem'.byte a = mem.byte a) :
    Undoable base place mem'.byte (front ++ patchOf { code with
      oldValue := (saveOld (some code.oldValue) current).getD code.oldValue } :: back) := by
  have hmem : patchOf code ∈ front ++ patchOf code :: back :=
    List.mem_append_right _ List.mem_cons_self
  change Undoable base place mem'.byte (front ++ patchOf { code with
    oldValue := if code.oldValue = cheatCodeMagicValue then current else code.oldValue } :: back)
  by_cases hold : code.oldValue = cheatCodeMagicValue
  · rw [if_pos hold]
    apply h.update (if current = cheatCodeMagicValue then none
      else some (oldByte code.address current)) hout
    · intro hnone
      rw [if_neg hcurrent] at hnone
      cases hnone
    · intro value hvalue a ha hplace
      rw [if_neg hcurrent, Option.some.injEq] at hvalue
      rw [← hvalue, hread a ha]
      exact h.fresh _ hmem (if_pos hold) a ha hplace
  · rw [if_neg hold]
    apply h.update (if code.oldValue = cheatCodeMagicValue then none
      else some (oldByte code.address code.oldValue)) hout
    · intro hnone
      rw [if_neg hold] at hnone
      cases hnone
    · intro value hvalue a ha hplace
      exact h.saved _ hmem value hvalue a ha hplace

theorem update8_of_notMem {author : Author} {value : UInt8} (hkind : codeKind address = .update8)
    (ha : a ∉ codeRange address) :
    (updateAddress8bit mem author address value).byte a = mem.byte a := by
  simp only [codeRange, hkind, List.mem_singleton] at ha
  exact Function.update_of_ne ha ..

theorem update16_of_notMem {author : Author} {value : UInt16}
    (hkind : codeKind address = .update16) (ha : a ∉ codeRange address) :
    (updateAddress16bit mem author address value).byte a = mem.byte a := by
  simp only [codeRange, hkind, List.mem_cons, List.not_mem_nil, or_false, not_or] at ha
  exact (Function.update_of_ne ha.2 ..).trans (Function.update_of_ne ha.1 ..)

theorem undoable_both {value value' : UInt16} {address' : UInt32}
    (h : Undoable base place mem.byte patches)
    (hkeep : OthersKeep name base place (updateAddress16bit
      (updateAddress16bit mem (codeOf name false) address value) (codeOf name false) address'
        value')) :
    Undoable base place (updateAddress16bit
      (updateAddress16bit mem (codeOf name false) address value) (codeOf name false) address'
        value').byte patches := by
  have hwritten := fun (mem : Memory) (address : UInt32) (value : UInt16) =>
    @writtenBy_update16 (· = codeOf name false) mem (codeOf name false) address value rfl
  exact undoable_of_writtenBy h ((hwritten _ _ _).trans (hwritten _ _ _))
    (fun _ hauthor => hauthor ▸ codeOf_false_ne name) hkeep

theorem undoable_executeSaving
    (h : Undoable base place mem.byte (front ++ patchOf code :: back))
    (hkeep : OthersKeep name base place (executeSaving name mem code).1) :
    Undoable base place (executeSaving name mem code).1.byte
      (front ++ patchOf (executeSaving name mem code).2 :: back) := by
  unfold executeSaving executeCheat at hkeep ⊢
  cases hkind : codeKind code.address with
  | update8 =>
    exact undoable_save h (toUInt32_ne_magic8 _) (fun a ha => (oldByte_readAddress ha).1 hkind)
      fun a ha => update8_of_notMem hkind ha
  | update16 =>
    exact undoable_save h (toUInt32_ne_magic16 _) (fun a ha => (oldByte_readAddress ha).2 hkind)
      fun a ha => update16_of_notMem hkind ha
  | equal8 | equal16 | differ8 | differ16 | nothing => exact h
  | both =>
    rw [hkind] at hkeep
    exact undoable_both h hkeep

theorem undoable_executePlain (h : Undoable base place mem.byte patches)
    (hkeep : OthersKeep name base place (executePlain name mem code).2) :
    Undoable base place (executePlain name mem code).2.byte patches :=
  undoable_of_writtenBy h
    (@writtenBy_executeCheat (· = codeOf name false) mem (codeOf name false) _ _ none rfl rfl)
    (fun _ hauthor => hauthor ▸ codeOf_false_ne name) hkeep

theorem undoable_forget (h : Undoable base place mem.byte (front ++ patchOf code :: back))
    (hrange : codeRange code.address = []) :
    Undoable base place mem.byte
      (front ++ patchOf { code with oldValue := cheatCodeMagicValue } :: back) := by
  have hempty : ∀ a, a ∉ (patchOf code).range := by
    intro a ha
    change a ∈ codeRange code.address at ha
    rw [hrange] at ha
    cases ha
  exact h.update none (fun _ _ => rfl) (fun _ a ha => absurd ha (hempty a))
    fun _ hvalue => nomatch hvalue

theorem undoable_restoreCode
    (h : Undoable base place mem.byte (front ++ patchOf code :: back))
    (hkeep : OthersKeep name base place (restoreCode name () mem code).2.1) :
    Undoable base place (restoreCode name () mem code).2.1.byte
      (front ++ patchOf (restoreCode name () mem code).2.2 :: back) := by
  unfold restoreCode at hkeep ⊢
  split at hkeep
  next hold =>
    rw [if_pos hold]
    have hsaved : (patchOf code).saved = some (oldByte code.address code.oldValue) := if_neg hold
    unfold executeCheat at hkeep ⊢
    cases hkind : codeKind code.address with
    | update8 =>
      apply h.restore hsaved fun a ha => update8_of_notMem hkind ha
      intro a ha
      change a ∈ codeRange code.address at ha
      simp only [codeRange, hkind, List.mem_singleton] at ha
      subst ha
      simp [updateAddress8bit, Memory.store, oldByte, hkind]
    | update16 =>
      apply h.restore hsaved fun a ha => update16_of_notMem hkind ha
      intro a ha
      change a ∈ codeRange code.address at ha
      simp only [codeRange, hkind, List.mem_cons, List.not_mem_nil, or_false] at ha
      rcases ha with rfl | rfl
      · simp [updateAddress16bit, Memory.store, oldByte, hkind]
      · simp [updateAddress16bit, Memory.store, oldByte, hkind]
    | equal8 | equal16 | differ8 | differ16 | nothing =>
      exact undoable_forget h (by simp [codeRange, hkind])
    | both =>
      rw [hkind] at hkeep
      exact undoable_both (undoable_forget h (by simp [codeRange, hkind])) hkeep
  next hold =>
    rw [if_neg hold]
    exact h

/-- What the body of a loop does with a code: nothing, or execute it, save and execute it, or
write its old value back. -/
inductive CodeStep (name : Bytes) (behind : Bool) (mem : Memory) (code : CheatCode) :
    Memory × CheatCode → Prop where
  | skipped : CodeStep name behind mem code (mem, code)
  | plain : CodeStep name behind mem code ((executePlain name mem code).2, code)
  | saving (h : saves behind code.address = true) :
    CodeStep name behind mem code (executeSaving name mem code)
  | restored : CodeStep name behind mem code (restoreCode name () mem code).2

theorem restoreCode_of_unsaved (h : code.oldValue = cheatCodeMagicValue) :
    restoreCode name () mem code = ((), mem, code) := if_neg (not_not.mpr h)

variable {out : Memory × CheatCode}

theorem CodeStep.address_eq {behind : Bool} (h : CodeStep name behind mem code out) :
    out.2.address = code.address := by
  cases h with
  | skipped | plain | saving => rfl
  | restored =>
    unfold restoreCode
    split <;> rfl

theorem CodeStep.written {behind : Bool} (h : CodeStep name behind mem code out) :
    WrittenBy (·.cheat = some name) mem out.1 := by
  cases h with
  | skipped => exact WrittenBy.refl _ mem
  | plain => exact writtenBy_executeCheat (codeOf name false) _ _ _ rfl rfl
  | saving => exact writtenBy_executeCheat (codeOf name true) _ _ _ rfl rfl
  | restored =>
    unfold restoreCode
    split
    next => exact writtenBy_executeCheat (codeOf name true) _ _ _ rfl rfl
    next => exact WrittenBy.refl _ mem

theorem CodeStep.undoable {behind : Bool} (hstep : CodeStep name behind mem code out)
    (hclean : saves behind code.address = false → code.oldValue = cheatCodeMagicValue)
    (h : Undoable base place mem.byte (front ++ patchAt behind code :: back))
    (hkeep : OthersKeep name base place out.1) :
    Undoable base place out.1.byte (front ++ patchAt behind out.2 :: back) ∧
      (saves behind code.address = false → out.2.oldValue = cheatCodeMagicValue) := by
  have haddress := hstep.address_eq
  unfold patchAt at h ⊢
  rw [haddress]
  cases hsaves : saves behind code.address with
  | true =>
    rw [hsaves, if_pos rfl] at h
    refine ⟨?_, fun hfalse => nomatch hfalse⟩
    rw [if_pos rfl]
    cases hstep with
    | skipped => exact h
    | plain => exact undoable_executePlain h hkeep
    | saving => exact undoable_executeSaving h hkeep
    | restored => exact undoable_restoreCode h hkeep
  | false =>
    rw [hsaves, if_neg Bool.false_ne_true] at h
    rw [if_neg Bool.false_ne_true]
    cases hstep with
    | skipped => exact ⟨h, fun _ => hclean hsaves⟩
    | plain => exact ⟨undoable_executePlain h hkeep, fun _ => hclean hsaves⟩
    | saving hsaved => exact absurd (hsaves.symm.trans hsaved) Bool.false_ne_true
    | restored =>
      rw [restoreCode_of_unsaved (hclean hsaves)]
      exact ⟨h, fun _ => hclean hsaves⟩

/-- The body of a loop over the codes of a cheat does such steps; its variables tell whether a code
stands behind a condition. -/
structure CodeLoop {σ : Type} (name : Bytes) (tells : σ → Bool → Prop)
    (f : σ → Memory → CheatCode → σ × Memory × CheatCode) : Prop where
  step : ∀ {vars behind}, tells vars behind → ∀ mem code,
    CodeStep name behind mem code (f vars mem code).2
  tells : ∀ {vars behind}, tells vars behind → ∀ mem code,
    tells (f vars mem code).1 (nextBehind behind code.address)

theorem isButtonCode_of_isBootCode {address : UInt32} (h : isBootCode address = true) :
    isButtonCode address = false := by
  have hmask : address &&& 0xF0000000 = address &&& 0xFF000000 &&& 0xF0000000 := by
    rw [UInt32.and_assoc]
    rfl
  rw [isBootCode, beq_iff_eq, hmask] at h
  unfold isButtonCode
  by_contra hbutton
  simp only [Bool.not_eq_false, Bool.or_eq_true, beq_iff_eq] at hbutton
  rcases hbutton with ((htop | htop) | htop) | htop
  all_goals
    rw [htop] at h
    exact absurd h (by decide)

theorem codeLoop_bootCode (name : Bytes) : CodeLoop name (fun _ _ => True) (bootCode name) := by
  refine ⟨fun {_ behind} _ mem code => ?_, fun _ _ _ => trivial⟩
  unfold bootCode
  split
  next hboot =>
    refine .saving ?_
    rw [saves, isButtonCode_of_isBootCode hboot, Bool.not_false, Bool.or_true]
  next => exact .skipped

theorem codeLoop_restoreCode (name : Bytes) :
    CodeLoop name (fun _ _ => True) (restoreCode name) :=
  ⟨fun _ _ _ => .restored, fun _ _ _ => trivial⟩

/-- Something is to be skipped or executed exactly behind a condition. -/
def Following.Tells (following : Following) (behind : Bool) : Prop :=
  following = { skip := behind } ∨ following = { executeNext := behind }

theorem codeLoop_viCode (name : Bytes) (active : Bool) :
    CodeLoop name Following.Tells (viCode name active) := by
  have hboth : ∀ {following behind}, Following.Tells following behind → ∀ mem code,
      CodeStep name behind mem code (viCode name active following mem code).2 ∧
        Following.Tells (viCode name active following mem code).1
          (nextBehind behind code.address) := by
    intro following behind htells mem code
    cases behind with
    | true =>
      rcases htells with rfl | rfl
      · exact ⟨.skipped, .inl rfl⟩
      · unfold viCode
        simp only [Bool.false_eq_true, if_false, if_true]
        split
        · exact ⟨.plain, .inl rfl⟩
        · exact ⟨.saving rfl, .inl rfl⟩
    | false =>
      have hnext : nextBehind false code.address = isConditional code.address := rfl
      have hsaves : saves false code.address = !isButtonCode code.address := rfl
      obtain rfl : following = {} := htells.elim id id
      rw [hnext]
      unfold viCode
      simp only [Bool.false_eq_true, if_false]
      by_cases hcondition : isConditional code.address = true
      · rw [if_pos hcondition, hcondition]
        split_ifs
        · exact ⟨.skipped, .inl rfl⟩
        · exact ⟨.plain, .inr rfl⟩
        · exact ⟨.plain, .inl rfl⟩
      · rw [if_neg hcondition, Bool.eq_false_of_not_eq_true hcondition]
        split_ifs with hbutton
        · exact ⟨.plain, .inl rfl⟩
        · exact ⟨.skipped, .inl rfl⟩
        · rw [Bool.eq_false_of_not_eq_true hbutton] at hsaves
          exact ⟨.saving hsaves, .inl rfl⟩
        · exact ⟨.skipped, .inl rfl⟩
  exact ⟨fun h mem code => (hboth h mem code).1, fun h mem code => (hboth h mem code).2⟩

variable {σ : Type} {f : σ → Memory → CheatCode → σ × Memory × CheatCode}
variable {tells : σ → Bool → Prop} {vars : σ} {behind : Bool}

theorem CodeLoop.written_forEachCode (hf : CodeLoop name tells f) (behind : Bool)
    (htells : tells vars behind) (mem : Memory) (codes : List CheatCode) :
    WrittenBy (·.cheat = some name) mem (forEachCode f vars mem codes).1 := by
  induction codes generalizing vars behind mem with
  | nil => exact WrittenBy.refl _ mem
  | cons code codes ih =>
    exact (hf.step htells mem code).written.trans (ih _ (hf.tells htells mem code) _)

theorem CodeLoop.undoable_forEachCode (hf : CodeLoop name tells f)
    (htells : tells vars behind) {codes : List CheatCode} (hclean : Clean behind codes)
    (h : Undoable base place mem.byte (front ++ patchesOf behind codes))
    (hkeep : OthersKeep name base place (forEachCode f vars mem codes).1) :
    Undoable base place (forEachCode f vars mem codes).1.byte
        (front ++ patchesOf behind (forEachCode f vars mem codes).2) ∧
      Clean behind (forEachCode f vars mem codes).2 := by
  induction codes generalizing vars behind mem front with
  | nil => exact ⟨h, trivial⟩
  | cons code codes ih =>
    have hstep := hf.step htells mem code
    have hnext := hf.tells htells mem code
    obtain ⟨hundo, hcode⟩ := hstep.undoable hclean.1 h
      (hkeep.of_writtenBy (hf.written_forEachCode _ hnext _ codes))
    have hfront : ∀ p (back : List (Patch Nat UInt8)),
        front ++ p :: back = (front ++ [p]) ++ back := fun p back => by simp
    rw [hfront] at hundo
    obtain ⟨htail, hclean'⟩ := ih hnext hclean.2 hundo hkeep
    rw [← hfront] at htail
    have hbehind := congrArg (nextBehind behind) hstep.address_eq
    rw [← hbehind] at htail hclean'
    exact ⟨htail, hstep.address_eq ▸ hcode, hclean'⟩

theorem oldValue_forEachCode_restoreCode (mem : Memory) (codes : List CheatCode) :
    ∀ code ∈ (forEachCode (restoreCode name) () mem codes).2,
      code.oldValue = cheatCodeMagicValue := by
  induction codes generalizing mem with
  | nil => exact fun _ h => nomatch h
  | cons code codes ih =>
    intro restored hrestored
    rcases List.mem_cons.mp hrestored with rfl | hrest
    · change (restoreCode name () mem code).2.2.oldValue = cheatCodeMagicValue
      unfold restoreCode
      split
      next => rfl
      next hold => exact not_not.mp hold
    · exact ih _ restored hrest

def Cheat.Settled (cheat : Cheat) : Prop :=
  cheat.wasEnabled = false → ∀ code ∈ cheat.cheatCodes, code.oldValue = cheatCodeMagicValue

/-- A cheat can be undone: its codes that save are undoable patches, the others hold no old value,
and it is settled. -/
structure Cheat.Held (base : Nat → UInt8) (place : Nat → Prop) (mem : Memory) (cheat : Cheat) :
    Prop where
  undoable : Undoable base place mem.byte (patchesOf false cheat.cheatCodes)
  clean : Clean false cheat.cheatCodes
  settled : cheat.Settled

theorem Cheat.Held.forEachCode {cheat cheat' : Cheat} (h : cheat.Held base place mem)
    (hf : CodeLoop cheat.name tells f) (htells : tells vars false)
    (hkeep : OthersKeep cheat.name base place (Cheats.forEachCode f vars mem cheat.cheatCodes).1)
    (hcodes : cheat'.cheatCodes = (Cheats.forEachCode f vars mem cheat.cheatCodes).2)
    (hsettled : cheat'.Settled) :
    cheat'.Held base place (Cheats.forEachCode f vars mem cheat.cheatCodes).1 := by
  have hall : Undoable base place mem.byte ([] ++ patchesOf false cheat.cheatCodes) := h.undoable
  obtain ⟨hundo, hclean⟩ := hf.undoable_forEachCode htells h.clean hall hkeep
  exact ⟨hcodes ▸ hundo, hcodes ▸ hclean, hsettled⟩

theorem applyCheat_name (active : Bool) (mem : Memory) (cheat : Cheat) :
    (applyCheat entry active mem cheat).2.name = cheat.name := by
  unfold applyCheat
  cases entry <;> split_ifs <;> rfl

theorem writtenBy_applyCheat (active : Bool) (mem : Memory) (cheat : Cheat) :
    WrittenBy (·.cheat = some cheat.name) mem (applyCheat entry active mem cheat).1 := by
  unfold applyCheat
  cases entry with
  | boot =>
    split_ifs
    · exact (codeLoop_bootCode cheat.name).written_forEachCode false trivial _ _
    · exact WrittenBy.refl _ mem
    · exact WrittenBy.refl _ mem
  | vi =>
    split_ifs
    · exact (codeLoop_viCode cheat.name active).written_forEachCode false (.inl rfl) _ _
    · exact (codeLoop_restoreCode cheat.name).written_forEachCode false trivial _ _
    · exact WrittenBy.refl _ mem

theorem Cheat.Held.applyCheat {cheat : Cheat} {entry : EntryPoint} {active : Bool}
    (h : cheat.Held base place mem)
    (hboot : entry = .boot → cheat.enabled = false → cheat.wasEnabled = true →
      ∀ code ∈ cheat.cheatCodes, code.oldValue = cheatCodeMagicValue)
    (hkeep : OthersKeep cheat.name base place
      (Cheats.applyCheat entry active mem cheat).1) :
    (Cheats.applyCheat entry active mem cheat).2.Held base place
      (Cheats.applyCheat entry active mem cheat).1 := by
  unfold Cheats.applyCheat at hkeep ⊢
  by_cases henabled : cheat.enabled = true
  · rw [if_pos henabled] at hkeep ⊢
    cases entry with
    | boot =>
      exact h.forEachCode (codeLoop_bootCode _) trivial hkeep rfl fun hfalse => nomatch hfalse
    | vi =>
      exact h.forEachCode (codeLoop_viCode _ active) (.inl rfl) hkeep rfl
        fun hfalse => nomatch hfalse
  · rw [if_neg henabled] at hkeep ⊢
    by_cases hwas : cheat.wasEnabled = true
    · rw [if_pos hwas] at hkeep ⊢
      cases entry with
      | boot =>
        refine ⟨h.undoable, h.clean, fun _ => ?_⟩
        exact hboot rfl (by simpa using henabled) hwas
      | vi =>
        exact h.forEachCode (codeLoop_restoreCode _) trivial hkeep rfl
          fun _ => oldValue_forEachCode_restoreCode mem cheat.cheatCodes
    · rw [if_neg hwas] at hkeep ⊢
      exact h

theorem writtenBy_applyAll (active : Bool) (mem : Memory) (cheats : List Cheat) :
    WrittenBy (fun author => ∃ cheat ∈ cheats, author.cheat = some cheat.name) mem
      (applyAll entry active mem cheats).1 := by
  induction cheats generalizing mem with
  | nil => exact WrittenBy.refl _ mem
  | cons cheat cheats ih =>
    have hfirst := writtenBy_applyCheat entry active mem cheat
    refine (hfirst.mono fun author h => ⟨cheat, List.mem_cons_self, h⟩).trans ?_
    exact (ih _).mono fun author h => h.imp fun _ h => ⟨List.mem_cons_of_mem _ h.1, h.2⟩

theorem map_name_applyAll (active : Bool) (mem : Memory) (cheats : List Cheat) :
    (applyAll entry active mem cheats).2.map Cheat.name = cheats.map Cheat.name := by
  induction cheats generalizing mem with
  | nil => rfl
  | cons cheat cheats ih =>
    rw [applyAll, List.map_cons, List.map_cons, ih, applyCheat_name]

theorem writtenBy_applyRomCodes (mem : Memory) (codes : List (UInt32 × UInt16)) :
    WrittenBy (· = romPatch) mem (applyRomCodes mem codes) := by
  induction codes generalizing mem with
  | nil => exact WrittenBy.refl _ mem
  | cons code codes ih =>
    have hfirst := @writtenBy_executeCheat (· = romPatch) mem romPatch code.1 code.2 none rfl rfl
    exact hfirst.trans (ih _)

end Session

end ParallelN64.Cheats
