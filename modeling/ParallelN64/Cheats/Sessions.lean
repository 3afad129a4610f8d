import ParallelN64.Cheats.Bounds

/-!
# Sessions of a cheat

Over a run, what the codes of a cheat saved is lost when the cheat is replaced, deleted or met
disabled at boot time. A run without these steps keeps the cheat undoable, so the pass after it
was disabled leaves the bytes it wrote as they were before it was applied.
-/

namespace ParallelN64.Cheats

open ParallelN64.Core

def Cheat.Unsaved (cheat : Cheat) : Prop :=
  ∀ code ∈ cheat.cheatCodes, code.oldValue = cheatCodeMagicValue

/-- No two codes that save an old value have a byte in common. -/
def Separate (codes : List CheatCode) : Prop :=
  (patchesOf false codes).Pairwise fun patch patch' => ∀ a ∈ patch.range, a ∉ patch'.range

instance (cheat : Cheat) : Decidable cheat.Unsaved :=
  inferInstanceAs (Decidable (∀ code ∈ cheat.cheatCodes, _))

instance (codes : List CheatCode) : Decidable (Separate codes) :=
  inferInstanceAs (Decidable (List.Pairwise _ (patchesOf false codes)))

section Held

variable {base : Nat → UInt8} {place : Nat → Prop} {mem mem' : Memory} {cheat : Cheat}

theorem patchesOf_unsaved {codes : List CheatCode} (behind : Bool)
    (h : ∀ code ∈ codes, code.oldValue = cheatCodeMagicValue) :
    (∀ patch ∈ patchesOf behind codes, patch.saved = none) ∧ Clean behind codes := by
  induction codes generalizing behind with
  | nil => exact ⟨fun _ hpatch => absurd hpatch List.not_mem_nil, trivial⟩
  | cons code codes ih =>
    have hcode := h code List.mem_cons_self
    obtain ⟨hpatches, hclean⟩ := ih (nextBehind behind code.address) fun code hcode =>
      h code (List.mem_cons_of_mem _ hcode)
    refine ⟨fun patch hpatch => ?_, fun _ => hcode, hclean⟩
    rcases List.mem_cons.mp hpatch with rfl | hpatch
    · unfold patchAt
      split
      · exact if_pos hcode
      · rfl
    · exact hpatches patch hpatch

theorem Cheat.Unsaved.held (h : cheat.Unsaved) (hseparate : Separate cheat.cheatCodes)
    (hmem : ∀ a, place a → mem.byte a = base a) : cheat.Held base place mem :=
  ⟨Undoable.start hseparate (patchesOf_unsaved false h).1 hmem, (patchesOf_unsaved false h).2,
    fun _ => h⟩

theorem Cheat.Held.original (h : cheat.Held base place mem) (hunsaved : cheat.Unsaved) {a : Nat}
    (ha : place a) : mem.byte a = base a :=
  h.undoable.original (patchesOf_unsaved false hunsaved).1 ha

theorem Cheat.Held.of_writtenBy {name : Bytes} (h : cheat.Held base place mem)
    (hwritten : WrittenBy (·.cheat ≠ some name) mem mem')
    (hkeep : OthersKeep name base place mem') : cheat.Held base place mem' where
  undoable := by
    apply undoable_of_writtenBy h.undoable hwritten _ hkeep
    rintro author hauthor rfl
    exact hauthor rfl
  clean := h.clean
  settled := h.settled

end Held

/-- The cheat of a name, if there is one, can be undone; otherwise the memory is the original. -/
structure Kept (name : Bytes) (base : Nat → UInt8) (place : Nat → Prop) (mem : Memory)
    (cheats : List Cheat) : Prop where
  names : (cheats.map Cheat.name).Nodup
  held : ∀ cheat ∈ cheats, cheat.name = name → cheat.Held base place mem
  absent : (∀ cheat ∈ cheats, cheat.name ≠ name) → ∀ a, place a → mem.byte a = base a

section Kept

variable {name : Bytes} {base : Nat → UInt8} {place : Nat → Prop} {mem mem' : Memory}
variable {cheats : List Cheat}

theorem Kept.original (h : Kept name base place mem cheats)
    (hunsaved : ∀ cheat ∈ cheats, cheat.name = name → cheat.Unsaved) {a : Nat} (ha : place a) :
    mem.byte a = base a := by
  by_cases hex : ∃ cheat ∈ cheats, cheat.name = name
  · obtain ⟨cheat, hcheat, hname⟩ := hex
    exact (h.held cheat hcheat hname).original (hunsaved cheat hcheat hname) ha
  · exact h.absent (fun cheat hcheat hname => hex ⟨cheat, hcheat, hname⟩) a ha

theorem Kept.of_writtenBy (h : Kept name base place mem cheats)
    (hwritten : WrittenBy (·.cheat ≠ some name) mem mem')
    (hkeep : OthersKeep name base place mem') : Kept name base place mem' cheats where
  names := h.names
  held cheat hcheat hname := (h.held cheat hcheat hname).of_writtenBy hwritten hkeep
  absent hnone a ha := by
    obtain ⟨new, hnew, hwho, hbyte⟩ := hwritten
    rcases hbyte a with heq | ⟨w, hw, rfl, hvalue⟩
    · rw [heq]
      exact h.absent hnone a ha
    · rw [← hvalue]
      refine (hkeep w (hnew ▸ List.mem_append_left _ hw) ha).resolve_left fun hauthor => ?_
      exact hwho w hw (hauthor ▸ rfl)

theorem Kept.applyAll {entry : EntryPoint} {active : Bool}
    (h : Kept name base place mem cheats)
    (hboot : entry = .boot → ∀ cheat ∈ cheats, cheat.name = name → cheat.enabled = false →
      cheat.wasEnabled = true → cheat.Unsaved)
    (hkeep : OthersKeep name base place (Cheats.applyAll entry active mem cheats).1) :
    Kept name base place (Cheats.applyAll entry active mem cheats).1
      (Cheats.applyAll entry active mem cheats).2 := by
  induction cheats generalizing mem with
  | nil => exact h
  | cons cheat cheats ih =>
    obtain ⟨hnew, hnames⟩ := List.nodup_cons.mp (List.map_cons ▸ h.names)
    have hfirst := writtenBy_applyCheat entry active mem cheat
    have hrest := writtenBy_applyAll entry active
      (applyCheat entry active mem cheat).1 cheats
    have hmapnames := map_name_applyAll entry active
      (applyCheat entry active mem cheat).1 cheats
    have hkeepfirst : OthersKeep name base place (applyCheat entry active mem cheat).1 :=
      hkeep.of_writtenBy hrest
    have hnames' : ((Cheats.applyAll entry active mem (cheat :: cheats)).2.map
        Cheat.name).Nodup := by
      rw [map_name_applyAll]
      exact h.names
    by_cases hname : cheat.name = name
    · -- the cheat of the name is first: the others write as others
      have hothers : ∀ other ∈ cheats, other.name ≠ name := by
        intro other hother heq
        exact hnew (hname ▸ heq ▸ List.mem_map_of_mem hother)
      have hheld := (h.held cheat List.mem_cons_self hname).applyCheat
        (fun hentry => hboot hentry cheat List.mem_cons_self hname) (hname ▸ hkeepfirst)
      refine ⟨hnames', ?_, ?_⟩
      · intro cheat' hcheat' hname'
        rcases List.mem_cons.mp hcheat' with rfl | hcheat'
        · refine Cheat.Held.of_writtenBy hheld (WrittenBy.mono hrest ?_) hkeep
          rintro author ⟨other, hother, hauthor⟩ hsame
          exact hothers other hother (Option.some.inj (hauthor.symm.trans hsame))
        · exfalso
          apply hnew
          rw [hname, ← hname', ← hmapnames]
          exact List.mem_map_of_mem hcheat'
      · intro hnone
        exact absurd ((applyCheat_name ..).trans hname) (hnone _ List.mem_cons_self)
    · -- the first cheat writes as another one
      have htail : Kept name base place mem cheats := by
        refine ⟨hnames, fun other hother => h.held other (List.mem_cons_of_mem _ hother), ?_⟩
        intro hnone
        apply h.absent
        intro other hother
        rcases List.mem_cons.mp hother with rfl | hother
        · exact hname
        · exact hnone other hother
      have hmoved := htail.of_writtenBy (hfirst.mono fun author hauthor hsame =>
        hname (Option.some.inj (hauthor.symm.trans hsame))) hkeepfirst
      have hkept := ih hmoved (fun hentry other hother =>
        hboot hentry other (List.mem_cons_of_mem _ hother)) hkeep
      refine ⟨hnames', ?_, ?_⟩
      · intro cheat' hcheat' hname'
        rcases List.mem_cons.mp hcheat' with rfl | hcheat'
        · exact absurd ((applyCheat_name ..).symm.trans hname') hname
        · exact hkept.held cheat' hcheat' hname'
      · intro hnone
        exact hkept.absent fun other hother => hnone other (List.mem_cons_of_mem _ hother)

end Kept

theorem oldValue_patchCodes (incrAddr incrValue : UInt32) (count : Nat) (address value : UInt32) :
    ∀ code ∈ patchCodes incrAddr incrValue count address value,
      code.oldValue = cheatCodeMagicValue := by
  induction count generalizing address value with
  | zero => exact fun _ h => nomatch h
  | succ count ih =>
    intro code hcode
    rcases List.mem_cons.mp hcode with rfl | hcode
    · rfl
    · exact ih _ _ code hcode

theorem oldValue_newCodes (codes : List (UInt32 × UInt32)) :
    ∀ code ∈ newCodes codes, code.oldValue = cheatCodeMagicValue := by
  induction codes using newCodes.induct with
  | case1 => exact fun _ h => nomatch h
  | case2 address value =>
    intro code hcode
    rw [List.mem_singleton.mp hcode]
  | case3 address value nextAddress nextValue rest hpatch ih =>
    intro code hcode
    rw [newCodes, if_pos hpatch] at hcode
    rcases List.mem_append.mp hcode with hcode | hcode
    · exact oldValue_patchCodes _ _ _ _ _ code hcode
    · exact ih code hcode
  | case4 address value nextAddress nextValue rest hpatch ih =>
    intro code hcode
    rw [newCodes, if_neg hpatch] at hcode
    rcases List.mem_cons.mp hcode with rfl | hcode
    · rfl
    · exact ih code hcode

section Names

variable {name : Bytes} {f : Cheat → Cheat} {cheats cheats' : List Cheat}

theorem map_name_updateCheat (h : updateCheat name f cheats = some cheats')
    (hf : ∀ cheat, (f cheat).name = cheat.name) :
    cheats'.map Cheat.name = cheats.map Cheat.name := by
  induction cheats generalizing cheats' with
  | nil => cases h
  | cons cheat cheats ih =>
    rw [updateCheat] at h
    split at h
    next =>
      obtain rfl := Option.some.inj h
      rw [List.map_cons, List.map_cons, hf]
    next =>
      obtain ⟨rest, hrest, rfl⟩ := Option.map_eq_some_iff.mp h
      rw [List.map_cons, List.map_cons, ih hrest]

theorem name_ne_of_updateCheat (h : updateCheat name f cheats = none) :
    ∀ cheat ∈ cheats, cheat.name ≠ name := by
  induction cheats with
  | nil => exact fun _ hcheat => nomatch hcheat
  | cons first cheats ih =>
    rw [updateCheat] at h
    split at h
    next => cases h
    next hname =>
      intro cheat hcheat
      rcases List.mem_cons.mp hcheat with rfl | hcheat
      · exact hname
      · exact ih (Option.map_eq_none_iff.mp h) cheat hcheat

theorem mem_of_updateCheat (h : updateCheat name f cheats = some cheats') :
    ∃ old ∈ cheats, old.name = name ∧ f old ∈ cheats' := by
  induction cheats generalizing cheats' with
  | nil => cases h
  | cons first cheats ih =>
    rw [updateCheat] at h
    split at h
    next hname =>
      obtain rfl := Option.some.inj h
      exact ⟨first, List.mem_cons_self, hname, List.mem_cons_self⟩
    next =>
      obtain ⟨rest, hrest, rfl⟩ := Option.map_eq_some_iff.mp h
      obtain ⟨old, hold, hname, hmem⟩ := ih hrest
      exact ⟨old, List.mem_cons_of_mem _ hold, hname, List.mem_cons_of_mem _ hmem⟩

variable {s : State}

theorem names_addNew (name : Bytes) (codes : List (UInt32 × UInt32))
    (h : (s.activeCheats.map Cheat.name).Nodup) :
    ((s.step (.addNew name codes)).activeCheats.map Cheat.name).Nodup ∧
      newCheat name codes ∈ (s.step (.addNew name codes)).activeCheats ∧
      ∀ cheat ∈ s.activeCheats,
        cheat.name ∈ (s.step (.addNew name codes)).activeCheats.map Cheat.name := by
  change ((findOrCreateCheat name (fun cheat =>
    { cheat with enabled := true, cheatCodes := newCodes codes }) s.activeCheats).map
      Cheat.name).Nodup ∧ newCheat name codes ∈ findOrCreateCheat name (fun cheat =>
    { cheat with enabled := true, cheatCodes := newCodes codes }) s.activeCheats ∧
      ∀ cheat ∈ s.activeCheats, cheat.name ∈ (findOrCreateCheat name (fun cheat =>
    { cheat with enabled := true, cheatCodes := newCodes codes }) s.activeCheats).map Cheat.name
  unfold findOrCreateCheat
  split
  next cheats' hupdate =>
    rw [map_name_updateCheat hupdate fun _ => rfl]
    obtain ⟨old, -, rfl, hmem⟩ := mem_of_updateCheat hupdate
    exact ⟨h, hmem, fun cheat hcheat => List.mem_map_of_mem hcheat⟩
  next hnone =>
    have hother := name_ne_of_updateCheat hnone
    rw [List.map_append]
    refine ⟨List.nodup_append.mpr ⟨h, List.nodup_singleton _, ?_⟩, ?_, ?_⟩
    · intro other hmem other' hmem' heq
      obtain ⟨cheat, hcheat, rfl⟩ := List.mem_map.mp hmem
      rw [List.map_singleton, List.mem_singleton] at hmem'
      exact hother cheat hcheat (heq.trans hmem')
    · exact List.mem_append_right _ (List.mem_singleton_self _)
    · exact fun cheat hcheat => List.mem_append_left _ (List.mem_map_of_mem hcheat)

theorem map_name_setEnabled (s : State) (name : Bytes) (enabled : Bool) :
    (s.step (.setEnabled name enabled)).activeCheats.map Cheat.name =
      s.activeCheats.map Cheat.name := by
  change ((updateCheat name _ s.activeCheats).getD s.activeCheats).map Cheat.name = _
  cases h : updateCheat name (fun cheat => { cheat with enabled := enabled }) s.activeCheats with
  | none => rfl
  | some cheats' => exact map_name_updateCheat h fun _ => rfl

theorem nodup_names_step (h : (s.activeCheats.map Cheat.name).Nodup) (op : Op) :
    ((s.step op).activeCheats.map Cheat.name).Nodup := by
  cases op with
  | applyCheats entry active =>
    change ((applyAll entry active _ s.activeCheats).2.map Cheat.name).Nodup
    rw [map_name_applyAll]
    exact h
  | setEnabled name enabled =>
    rw [map_name_setEnabled]
    exact h
  | addNew name codes => exact (names_addNew name codes h).1
  | deleteAll => exact List.nodup_nil
  | gameWrite offset value => exact h

end Names

section Runs

variable (s : State) (name : Bytes)

/-- A step that does not lose an old value the cheat of a name has saved. -/
def State.KeepsSaved : Op → Prop
  | .applyCheats .boot _ => ∀ cheat ∈ s.activeCheats, cheat.name = name →
      cheat.enabled = false → cheat.wasEnabled = true → cheat.Unsaved
  | .addNew newName codes => newName = name →
      Separate (newCodes codes) ∧ ∀ cheat ∈ s.activeCheats, cheat.name = name → cheat.Unsaved
  | .deleteAll => ∀ cheat ∈ s.activeCheats, cheat.name = name → cheat.Unsaved
  | .applyCheats .vi _ | .setEnabled .. | .gameWrite .. => True

def State.AllKeepSaved : State → List Op → Prop
  | _, [] => True
  | s, op :: ops => s.KeepsSaved name op ∧ AllKeepSaved (s.step op) ops

variable {s name} {base : Nat → UInt8} {place : Nat → Prop}

theorem written_suffix_step (s : State) (op : Op) : s.mem.written <:+ (s.step op).mem.written := by
  cases op with
  | applyCheats entry active =>
    obtain ⟨new, hnew, -⟩ := writtenBy_applyRomCodes s.mem (romCodes s.header entry)
    obtain ⟨new', hnew', -⟩ := writtenBy_applyAll entry active
      (applyRomCodes s.mem (romCodes s.header entry)) s.activeCheats
    refine ⟨new' ++ new, ?_⟩
    rw [List.append_assoc, ← hnew]
    exact hnew'.symm
  | setEnabled | addNew | deleteAll | gameWrite => exact List.suffix_rfl

theorem written_suffix_run (s : State) (ops : List Op) :
    s.mem.written <:+ (s.run ops).mem.written := by
  induction ops generalizing s with
  | nil => exact List.suffix_rfl
  | cons op ops ih => exact (written_suffix_step s op).trans (ih (s.step op))

theorem OthersKeep.of_suffix {mem mem' : Memory} (h : OthersKeep name base place mem')
    (hsuffix : mem.written <:+ mem'.written) : OthersKeep name base place mem :=
  fun w hw => h w (hsuffix.subset hw)

theorem Kept.step {op : Op} (h : Kept name base place s.mem s.activeCheats)
    (hsaved : s.KeepsSaved name op)
    (hgame : ∀ offset value, op = .gameWrite offset value → ¬ place offset)
    (hkeep : OthersKeep name base place (s.step op).mem) :
    Kept name base place (s.step op).mem (s.step op).activeCheats := by
  cases op with
  | applyCheats entry active =>
    have hpass := writtenBy_applyAll entry active
      (applyRomCodes s.mem (romCodes s.header entry)) s.activeCheats
    have hrom := h.of_writtenBy ((writtenBy_applyRomCodes s.mem (romCodes s.header entry)).mono
      fun author hauthor => hauthor ▸ nofun) (hkeep.of_writtenBy hpass)
    refine hrom.applyAll ?_ hkeep
    rintro rfl
    exact hsaved
  | setEnabled other enabled =>
    refine ⟨nodup_names_step h.names _, ?_, ?_⟩
    · intro cheat hcheat hname
      obtain ⟨old, hold, heq⟩ := mem_setEnabled hcheat
      rw [heq] at hname ⊢
      have hheld := h.held old hold hname
      exact ⟨hheld.undoable, hheld.clean, hheld.settled⟩
    · intro hnone
      apply h.absent
      intro old hold hname
      have hmem : name ∈ (s.step (.setEnabled other enabled)).activeCheats.map Cheat.name := by
        rw [map_name_setEnabled, ← hname]
        exact List.mem_map_of_mem hold
      obtain ⟨cheat, hcheat, heq⟩ := List.mem_map.mp hmem
      exact hnone cheat hcheat heq
  | addNew newName codes =>
    obtain ⟨hnodup, hnew, hstay⟩ := names_addNew newName codes h.names
    refine ⟨hnodup, ?_, ?_⟩
    · intro cheat hcheat hname
      by_cases hsame : newName = name
      · obtain ⟨hseparate, hunsaved⟩ := hsaved hsame
        have heq : cheat = newCheat newName codes :=
          List.inj_on_of_nodup_map hnodup hcheat hnew (hname.trans hsame.symm)
        subst heq
        refine Cheat.Unsaved.held ?_ hseparate fun a ha => h.original hunsaved ha
        exact oldValue_newCodes codes
      · rcases mem_addNew hcheat with hold | rfl
        · exact h.held cheat hold hname
        · exact absurd hname hsame
    · intro hnone
      apply h.absent
      intro old hold hname
      obtain ⟨cheat, hcheat, heq⟩ := List.mem_map.mp (hstay old hold)
      exact hnone cheat hcheat (heq.trans hname)
  | deleteAll =>
    refine ⟨List.nodup_nil, ?_, fun _ a ha => h.original hsaved ha⟩
    exact fun cheat hcheat => nomatch hcheat
  | gameWrite offset value =>
    have hmem : ∀ a, place a → (s.step (.gameWrite offset value)).mem.byte a = s.mem.byte a := by
      intro a ha
      apply Function.update_of_ne
      rintro rfl
      exact hgame a value rfl ha
    refine ⟨h.names, ?_, ?_⟩
    · intro cheat hcheat hname
      have hheld := h.held cheat hcheat hname
      exact ⟨hheld.undoable.overwrite fun a ha => Or.inl (hmem a ha), hheld.clean, hheld.settled⟩
    · intro hnone a ha
      rw [hmem a ha]
      exact h.absent hnone a ha

theorem Kept.run {ops : List Op} (h : Kept name base place s.mem s.activeCheats)
    (hsaved : s.AllKeepSaved name ops)
    (hgame : ∀ offset value, .gameWrite offset value ∈ ops → ¬ place offset)
    (hkeep : OthersKeep name base place (s.run ops).mem) :
    Kept name base place (s.run ops).mem (s.run ops).activeCheats := by
  induction ops generalizing s with
  | nil => exact h
  | cons op ops ih =>
    have hstep := h.step hsaved.1
      (fun offset value heq => hgame offset value (heq ▸ List.mem_cons_self))
      (hkeep.of_suffix (written_suffix_run (s.step op) ops))
    exact ih hstep hsaved.2 (fun offset value hop =>
      hgame offset value (List.mem_cons_of_mem _ hop)) hkeep

end Runs

section Off

def State.start (header : RomHeader) (byte : Nat → UInt8) : State := { header, mem := { byte } }

end Off

end ParallelN64.Cheats
