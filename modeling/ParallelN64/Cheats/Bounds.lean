import ParallelN64.Cheats.Restore

/-!
# Where codes reach

A code reaches at most the bytes its address names. The address of a code has 24 bits, so a pass
stays in the RDRAM as long as the codes that were added do; the patches for the ROM always do.
-/

namespace ParallelN64.Cheats

open ParallelN64.Core

def rdramSize : Nat := 0x800000

def InRange (address : UInt32) : Prop := ∀ a ∈ reaches address, a < rdramSize

instance (address : UInt32) : Decidable (InRange address) :=
  inferInstanceAs (Decidable (∀ a ∈ reaches address, a < rdramSize))

def Memory.Within (mem : Memory) : Prop := ∀ a ∈ mem.reached, a < rdramSize

section Codes

variable {mem : Memory} {address : UInt32}

theorem Memory.Within.store (h : mem.Within) {author : Author} {offset : Nat} {value : UInt8}
    (hoffset : offset < rdramSize) : (mem.store author offset value).Within := by
  intro a ha
  rcases List.mem_cons.mp ha with rfl | ha
  · exact hoffset
  · exact h a ha

theorem Memory.Within.update16 (h : mem.Within) {author : Author} {value : UInt16}
    (hlow : offset16 address < rdramSize) (hhigh : offset16 address + 1 < rdramSize) :
    (updateAddress16bit mem author address value).Within :=
  (h.store hlow).store hhigh

theorem Memory.Within.reach (h : mem.Within) (hrange : InRange address) :
    (mem.reach address).Within := by
  intro a ha
  rcases List.mem_append.mp ha with ha | ha
  · exact hrange a ha
  · exact h a ha

theorem offset16_both_lt : (offset16 0xF1000318 < rdramSize ∧ offset16 0xF1000318 + 1 < rdramSize) ∧
    offset16 0xF100031A < rdramSize ∧ offset16 0xF100031A + 1 < rdramSize := by
  decide

theorem Memory.Within.executeCheat (h : mem.Within) (hrange : InRange address) (author : Author)
    (value : UInt16) (old : Option UInt32) :
    (Cheats.executeCheat mem author address value old).2.1.Within := by
  have hreaches := hrange
  unfold InRange reaches at hreaches
  unfold Cheats.executeCheat
  cases hkind : codeKind address with
  | update8 =>
    rw [hkind] at hreaches
    exact h.store (hreaches _ (List.mem_singleton_self _))
  | update16 =>
    rw [hkind] at hreaches
    exact h.update16 (hreaches _ List.mem_cons_self)
      (hreaches _ (List.mem_cons_of_mem _ List.mem_cons_self))
  | equal8 | equal16 | differ8 | differ16 => exact h.reach hrange
  | both =>
    obtain ⟨⟨hfirst, hfirst'⟩, hsecond, hsecond'⟩ := offset16_both_lt
    exact (h.update16 hfirst hfirst').update16 hsecond hsecond'
  | nothing => exact h

theorem inRange_romCodes (header : RomHeader) (entry : EntryPoint) :
    ∀ code ∈ romCodes header entry, InRange code.1 := by
  have hall : (romCodes header entry).all (fun code => decide (InRange code.1)) = true := by
    unfold romCodes
    split_ifs
    all_goals rfl
  intro code hcode
  exact of_decide_eq_true (List.all_eq_true.mp hall code hcode)

theorem Memory.Within.applyRomCodes (h : mem.Within) {codes : List (UInt32 × UInt16)}
    (hrange : ∀ code ∈ codes, InRange code.1) : (Cheats.applyRomCodes mem codes).Within := by
  induction codes generalizing mem with
  | nil => exact h
  | cons code codes ih =>
    have hfirst := h.executeCheat (hrange code List.mem_cons_self) romPatch code.2 none
    exact ih hfirst fun code hcode => hrange code (List.mem_cons_of_mem _ hcode)

end Codes

variable {name : Bytes}

theorem CodeStep.within {behind : Bool} {mem : Memory} {code : CheatCode}
    {out : Memory × CheatCode} (h : CodeStep name behind mem code out) (hmem : mem.Within)
    (hrange : InRange code.address) : out.1.Within := by
  cases h with
  | skipped => exact hmem
  | plain | saving => exact hmem.executeCheat hrange _ _ _
  | restored =>
    unfold restoreCode
    split
    next => exact hmem.executeCheat hrange _ _ _
    next => exact hmem

section Passes

variable {σ : Type} {f : σ → Memory → CheatCode → σ × Memory × CheatCode} {mem : Memory}

theorem CodeLoop.within_forEachCode {tells : σ → Bool → Prop} {vars : σ}
    (hf : CodeLoop name tells f) (behind : Bool) (htells : tells vars behind) (h : mem.Within)
    {codes : List CheatCode} (hrange : ∀ code ∈ codes, InRange code.address) :
    (forEachCode f vars mem codes).1.Within ∧
      ∀ code ∈ (forEachCode f vars mem codes).2, InRange code.address := by
  induction codes generalizing vars mem behind with
  | nil => exact ⟨h, fun _ h => nomatch h⟩
  | cons code codes ih =>
    have hstep := hf.step htells mem code
    have hcode := hrange code List.mem_cons_self
    obtain ⟨hwithin, hcodes⟩ := ih _ (hf.tells htells mem code) (hstep.within h hcode)
      fun code hcode => hrange code (List.mem_cons_of_mem _ hcode)
    refine ⟨hwithin, fun code' hcode' => ?_⟩
    rcases List.mem_cons.mp hcode' with rfl | hcode'
    · rw [hstep.address_eq]
      exact hcode
    · exact hcodes code' hcode'

def Cheat.InRange (cheat : Cheat) : Prop :=
  ∀ code ∈ cheat.cheatCodes, Cheats.InRange code.address

theorem within_applyCheat {cheat : Cheat} (entry : EntryPoint) (gamesharkActive : Bool)
    (h : mem.Within) (hrange : cheat.InRange) :
    (applyCheat entry gamesharkActive mem cheat).1.Within ∧
      (applyCheat entry gamesharkActive mem cheat).2.InRange := by
  unfold applyCheat
  cases entry with
  | boot =>
    split_ifs
    · exact (codeLoop_bootCode cheat.name).within_forEachCode false trivial h hrange
    · exact ⟨h, hrange⟩
    · exact ⟨h, hrange⟩
  | vi =>
    split_ifs
    · exact (codeLoop_viCode cheat.name _).within_forEachCode false (.inl rfl) h hrange
    · exact (codeLoop_restoreCode cheat.name).within_forEachCode false trivial h hrange
    · exact ⟨h, hrange⟩

theorem within_applyAll {cheats : List Cheat} (entry : EntryPoint) (gamesharkActive : Bool)
    (h : mem.Within) (hrange : ∀ cheat ∈ cheats, cheat.InRange) :
    (applyAll entry gamesharkActive mem cheats).1.Within ∧
      ∀ cheat ∈ (applyAll entry gamesharkActive mem cheats).2, cheat.InRange := by
  induction cheats generalizing mem with
  | nil => exact ⟨h, fun _ hcheat => nomatch hcheat⟩
  | cons cheat cheats ih =>
    obtain ⟨hfirst, hcheat⟩ := within_applyCheat entry gamesharkActive h
      (hrange cheat List.mem_cons_self)
    obtain ⟨hrest, hcheats⟩ := ih hfirst fun cheat hmem =>
      hrange cheat (List.mem_cons_of_mem _ hmem)
    refine ⟨hrest, ?_⟩
    intro cheat' hcheat'
    rcases List.mem_cons.mp hcheat' with rfl | hcheat'
    · exact hcheat
    · exact hcheats cheat' hcheat'

end Passes

theorem mem_updateCheat {f : Cheat → Cheat} {cheats cheats' : List Cheat} {cheat : Cheat}
    (h : updateCheat name f cheats = some cheats') (hcheat : cheat ∈ cheats') :
    cheat ∈ cheats ∨ ∃ old ∈ cheats, old.name = name ∧ cheat = f old := by
  induction cheats generalizing cheats' with
  | nil => cases h
  | cons first cheats ih =>
    rw [updateCheat] at h
    split at h
    next hname =>
      obtain rfl := Option.some.inj h
      rcases List.mem_cons.mp hcheat with rfl | hcheat
      · exact Or.inr ⟨first, List.mem_cons_self, hname, rfl⟩
      · exact Or.inl (List.mem_cons_of_mem _ hcheat)
    next =>
      obtain ⟨rest, hrest, rfl⟩ := Option.map_eq_some_iff.mp h
      rcases List.mem_cons.mp hcheat with rfl | hcheat
      · exact Or.inl List.mem_cons_self
      · rcases ih hrest hcheat with hold | ⟨old, hold, hname, rfl⟩
        · exact Or.inl (List.mem_cons_of_mem _ hold)
        · exact Or.inr ⟨old, List.mem_cons_of_mem _ hold, hname, rfl⟩

/-- A cheat as `cheat_add_new` leaves it. -/
def newCheat (name : Bytes) (codes : List (UInt32 × UInt32)) : Cheat :=
  { name, enabled := true, cheatCodes := newCodes codes }

theorem mem_addNew {s : State} {codes : List (UInt32 × UInt32)} {cheat : Cheat}
    (hcheat : cheat ∈ (s.step (.addNew name codes)).activeCheats) :
    cheat ∈ s.activeCheats ∨ cheat = newCheat name codes := by
  change cheat ∈ findOrCreateCheat name (fun cheat =>
    { cheat with enabled := true, cheatCodes := newCodes codes }) s.activeCheats at hcheat
  unfold findOrCreateCheat at hcheat
  split at hcheat
  next cheats' h =>
    rcases mem_updateCheat h hcheat with hold | ⟨old, -, rfl, rfl⟩
    · exact Or.inl hold
    · exact Or.inr rfl
  next =>
    rcases List.mem_append.mp hcheat with hold | hnew
    · exact Or.inl hold
    · exact Or.inr (List.mem_singleton.mp hnew)

theorem mem_setEnabled {s : State} {enabled : Bool} {cheat : Cheat}
    (hcheat : cheat ∈ (s.step (.setEnabled name enabled)).activeCheats) :
    ∃ old ∈ s.activeCheats, cheat = { old with enabled := cheat.enabled } := by
  change cheat ∈ (updateCheat name _ s.activeCheats).getD s.activeCheats at hcheat
  cases h : updateCheat name (fun cheat => { cheat with enabled := enabled }) s.activeCheats with
  | none =>
    rw [h] at hcheat
    exact ⟨cheat, hcheat, rfl⟩
  | some cheats' =>
    rw [h] at hcheat
    rcases mem_updateCheat h hcheat with hold | ⟨old, hold, -, rfl⟩
    · exact ⟨cheat, hold, rfl⟩
    · exact ⟨old, hold, rfl⟩

def Op.InRange : Op → Prop
  | .addNew _ codes => ∀ code ∈ newCodes codes, Cheats.InRange code.address
  | _ => True

/-- Only the RDRAM was reached, and the cheats stay in it. -/
structure State.Within (s : State) : Prop where
  mem : s.mem.Within
  cheats : ∀ cheat ∈ s.activeCheats, cheat.InRange

theorem State.Within.step {s : State} (h : s.Within) {op : Op} (hop : op.InRange) :
    (s.step op).Within := by
  cases op with
  | applyCheats entry gamesharkActive =>
    have hrom := h.mem.applyRomCodes (inRange_romCodes s.header entry)
    obtain ⟨hmem, hcheats⟩ := within_applyAll entry gamesharkActive hrom h.cheats
    exact ⟨hmem, hcheats⟩
  | setEnabled name enabled =>
    refine ⟨h.mem, ?_⟩
    intro cheat hcheat
    obtain ⟨old, hold, heq⟩ := mem_setEnabled hcheat
    rw [heq]
    exact h.cheats old hold
  | addNew name codes =>
    refine ⟨h.mem, ?_⟩
    intro cheat hcheat
    rcases mem_addNew hcheat with hold | rfl
    · exact h.cheats cheat hold
    · exact hop
  | deleteAll => exact ⟨h.mem, fun _ hcheat => nomatch hcheat⟩
  | gameWrite offset value => exact ⟨h.mem, h.cheats⟩

theorem State.Within.run {s : State} (h : s.Within) {ops : List Op}
    (hops : ∀ op ∈ ops, op.InRange) : (s.run ops).Within := by
  induction ops generalizing s with
  | nil => exact h
  | cons op ops ih =>
    exact ih (h.step (hops op List.mem_cons_self)) fun op hop =>
      hops op (List.mem_cons_of_mem _ hop)

end ParallelN64.Cheats
