import ParallelN64.Rom.OpenRom

/-!
# What a ROM inherits

Two runs of calls that leave no ROM open lead to globals that differ in the settings of the
previous ROM. Opening a ROM overwrites all of them but two: the save type, when a table patches
the ROM but none gives a save type, and the cycles per instruction, when no table gives them.
-/

namespace ParallelN64.Rom

open ParallelN64.Core

def patchTables : List (List UInt64) :=
  [lutAudiosignal, lutFixedaudiopos, lutAlternateVi, lutViClock1500, lutViClock1600,
    lutViClock2200]

def saveTables : List (List UInt64) := [lutEe16k, lutEe4k, lutFlashram]

/-- Every setting comes from the ROM: a table gives its save type or no table patches it, and a
table gives its cycles per instruction or the frontend does. -/
def Determined (frameDupe : Bool) (lutId : UInt64) : Prop :=
  ((∃ lut ∈ saveTables, lutId ∈ lut) ∨ ∀ lut ∈ patchTables, lutId ∉ lut) ∧
    (frameDupe = true ∨ (lutCpop.lookup lutId).isSome = true)

section Runs

variable {md5 : Bytes → Bytes} {frameDupe : Bool}

def Unrated (g : Globals) : Prop :=
  g.romSettings.status = 0 ∧ g.romSettings.players = 0 ∧ g.romSettings.rumble = 0

theorem Unrated.patch {lut : List UInt64} {f : Globals → Globals} {lutId : UInt64}
    {s : Globals × Bool} (h : Unrated s.1) (hf : ∀ g, Unrated g → Unrated (f g)) :
    Unrated (Rom.patch lut f lutId s).1 := by
  unfold Rom.patch
  split
  · exact hf _ h
  · exact h

variable {g : Globals}

theorem Unrated.patches (h : Unrated g) (lutId : UInt64) : Unrated (Rom.patches lutId g).1 := by
  unfold Rom.patches
  dsimp only
  iterate 9 refine Unrated.patch ?_ fun _ h => h
  exact h

theorem unrated_withoutPatch {s : Globals × Bool} (h : Unrated s.1) :
    Unrated (withoutPatch s) := by
  unfold withoutPatch
  split
  · exact h
  · exact ⟨rfl, rfl, rfl⟩

theorem unrated_afterPatches (h : Unrated g) (frameDupe : Bool) (lutId : UInt64) :
    Unrated (afterPatches frameDupe lutId g) := by
  unfold afterPatches
  cases lutCpop.lookup lutId <;> cases lutSidmaduration.lookup lutId <;>
    cases lutDelaysi.lookup lutId <;> cases frameDupe <;> exact h

theorem unrated_openRom (h : Unrated g) (image : Bytes) :
    Unrated (openRom md5 frameDupe g image).2 := by
  unfold openRom
  split
  · exact h
  · split
    · exact h
    · apply unrated_afterPatches
      apply unrated_withoutPatch
      apply Unrated.patches
      exact h

theorem unrated_coreDoCommand (h : Unrated g) (call : Call) :
    Unrated (coreDoCommand md5 frameDupe g call).2 := by
  cases call with
  | romOpen image =>
    unfold coreDoCommand
    dsimp only
    split_ifs
    · exact h
    · exact h
    · exact unrated_openRom h image
  | romClose =>
    unfold coreDoCommand closeRom
    dsimp only
    split_ifs
    · exact h
    · exact h

theorem unrated_run (calls : List Call) : Unrated (run md5 frameDupe calls {}) := by
  have hrun : ∀ (calls : List Call) (g : Globals), Unrated g →
      Unrated (run md5 frameDupe calls g) := by
    intro calls
    induction calls with
    | nil => exact fun _ h => h
    | cons call calls ih => exact fun g h => ih _ (unrated_coreDoCommand h call)
  exact hrun calls {} ⟨rfl, rfl, rfl⟩

end Runs

section Inherited

variable {lutId : UInt64}

variable {lut : List UInt64} {f : Globals → Globals} {s : Globals × Bool}

theorem patch_of_notMem (h : lutId ∉ lut) : patch lut f lutId s = s :=
  if_neg fun hcontains => h (List.contains_iff_mem.mp hcontains)

theorem savetype_patch_of_keeps (hf : ∀ g, (f g).romSettings.savetype = g.romSettings.savetype) :
    (patch lut f lutId s).1.romSettings.savetype = s.1.romSettings.savetype := by
  unfold patch
  split
  · exact hf _
  · rfl

theorem patched_iff : (patch lut f lutId s).2 = true ↔ lutId ∈ lut ∨ s.2 = true := by
  unfold patch
  split
  next h => simp [List.contains_iff_mem.mp h]
  next h => simp [mt List.contains_iff_mem.mpr h]

theorem patches_snd_iff (lutId : UInt64) (g : Globals) :
    (patches lutId g).2 = true ↔
      (∃ lut ∈ saveTables, lutId ∈ lut) ∨ ∃ lut ∈ patchTables, lutId ∈ lut := by
  simp only [patches, patched_iff, saveTables, patchTables, List.mem_cons, List.not_mem_nil,
    or_false, exists_eq_or_imp, exists_eq_left, Bool.false_eq_true]
  tauto

theorem savetype_patches_of_notMem (h : ∀ lut ∈ saveTables, lutId ∉ lut) (g : Globals) :
    (patches lutId g).1.romSettings.savetype = g.romSettings.savetype := by
  have hee16k : lutId ∉ lutEe16k := h _ (by simp [saveTables])
  have hee4k : lutId ∉ lutEe4k := h _ (by simp [saveTables])
  have hflashram : lutId ∉ lutFlashram := h _ (by simp [saveTables])
  unfold patches
  dsimp only
  rw [patch_of_notMem hflashram, patch_of_notMem hee4k,
    patch_of_notMem hee16k]
  iterate 6
    refine Eq.trans (savetype_patch_of_keeps ?_) ?_
    · exact fun _ => rfl
  rfl

theorem savetype_afterPatches (frameDupe : Bool) (lutId : UInt64) (g : Globals) :
    (afterPatches frameDupe lutId g).romSettings.savetype = g.romSettings.savetype := by
  unfold afterPatches
  cases lutCpop.lookup lutId <;> cases lutSidmaduration.lookup lutId <;>
    cases lutDelaysi.lookup lutId <;> cases frameDupe <;> rfl

theorem countPerOp_afterPatches (frameDupe : Bool) (lutId : UInt64) (g : Globals) :
    (afterPatches frameDupe lutId g).countPerOp =
      if frameDupe then 1 else (lutCpop.lookup lutId).getD g.countPerOp := by
  unfold afterPatches
  cases lutCpop.lookup lutId <;> cases lutSidmaduration.lookup lutId <;>
    cases lutDelaysi.lookup lutId <;> cases frameDupe <;> rfl

end Inherited

/-- The globals without those that the loops leave to later code. -/
def Globals.forget (g : Globals) : Globals :=
  { g with
    romParams := { g.romParams with specialRom := .normalRom }
    romSettings := { g.romSettings with goodname := [], savetype := .none }
    countPerOp := 0
    delaySi := 0 }

/-- Two runs through the loops: patched alike, with equal settings but for the name and the save
type, which are equal once they are set. -/
structure Same (known : Bool) (s s' : Globals × Bool) : Prop where
  applied : s.2 = s'.2
  rest : s.1.forget = s'.1.forget
  goodname : s.2 = true → s.1.romSettings.goodname = s'.1.romSettings.goodname
  savetype : known = true → s.1.romSettings.savetype = s'.1.romSettings.savetype

section Same

variable {known : Bool} {s s' : Globals × Bool} {lut : List UInt64} {f : Globals → Globals}
variable {lutId : UInt64}

theorem Same.headername (h : Same known s s') :
    s.1.romParams.headername = s'.1.romParams.headername := by
  have hname := congrArg (fun g : Globals => g.romParams.headername) h.rest
  exact hname

theorem Same.patch (h : Same known s s') (hrest : ∀ g, (f g).forget = (f g.forget).forget)
    (hname : ∀ g, (f g).romSettings.goodname = g.romSettings.goodname) {known' : Bool}
    (hsave : known' = true → lutId ∈ lut →
      (∀ g, (f g).romSettings.savetype = g.romSettings.savetype) ∧ known = true ∨
        ∀ g g', (f g).romSettings.savetype = (f g').romSettings.savetype)
    (hknown : known' = true → lutId ∉ lut → known = true) :
    Same known' (Rom.patch lut f lutId s) (Rom.patch lut f lutId s') := by
  unfold Rom.patch
  by_cases hmem : lutId ∈ lut
  · have hcontains := List.contains_iff_mem.mpr hmem
    rw [if_pos hcontains, if_pos hcontains]
    refine ⟨rfl, ?_, fun _ => ?_, fun hsaved => ?_⟩
    · dsimp only
      rw [hrest, hrest { s'.1 with romSettings := _ }]
      exact congrArg (fun g => (f g).forget) h.rest
    · rw [hname, hname]
      exact h.headername
    · rcases hsave hsaved hmem with ⟨hkeep, hbefore⟩ | hconst
      · rw [hkeep, hkeep]
        exact h.savetype hbefore
      · exact hconst _ _
  · have hcontains := mt List.contains_iff_mem.mp hmem
    rw [if_neg hcontains, if_neg hcontains]
    exact ⟨h.applied, h.rest, h.goodname, fun hsaved => h.savetype (hknown hsaved hmem)⟩

theorem Same.patch_keeps (h : Same known s s') (hrest : ∀ g, (f g).forget = (f g.forget).forget)
    (hname : ∀ g, (f g).romSettings.goodname = g.romSettings.goodname)
    (hsave : ∀ g, (f g).romSettings.savetype = g.romSettings.savetype) :
    Same known (Rom.patch lut f lutId s) (Rom.patch lut f lutId s') :=
  h.patch hrest hname (fun hknown _ => Or.inl ⟨hsave, hknown⟩) fun hknown _ => hknown

theorem Same.patch_savetype (h : Same known s s') (savetype : SaveType) :
    Same (known || decide (lutId ∈ lut)) (Rom.patch lut (setSavetype savetype) lutId s)
      (Rom.patch lut (setSavetype savetype) lutId s') := by
  apply h.patch
  · exact fun _ => rfl
  · exact fun _ => rfl
  · exact fun _ _ => Or.inr fun _ _ => rfl
  · intro hknown hmem
    simpa [hmem] using hknown

theorem same_patches {g g' : Globals} (h : g.forget = g'.forget) :
    Same (decide (lutId ∈ lutEe16k) || decide (lutId ∈ lutEe4k) || decide (lutId ∈ lutFlashram))
      (patches lutId g) (patches lutId g') := by
  have hstart : Same false (g, false) (g', false) := ⟨rfl, h, nofun, nofun⟩
  have hee16k : Same (decide (lutId ∈ lutEe16k))
      (Rom.patch lutEe16k (setSavetype .eeprom16KB) lutId (g, false))
      (Rom.patch lutEe16k (setSavetype .eeprom16KB) lutId (g', false)) := by
    rw [← Bool.false_or (decide (lutId ∈ lutEe16k))]
    exact hstart.patch_savetype .eeprom16KB
  unfold patches
  dsimp only
  refine (Same.patch_savetype ?_ .eeprom4KB).patch_savetype .flashRam
  iterate 6
    refine Same.patch_keeps ?_ ?_ ?_ ?_
    rotate_left
    · exact fun _ => rfl
    · exact fun _ => rfl
    · exact fun _ => rfl
  exact hee16k

theorem same_withoutPatch (h : Same known s s') (hknown : known = true ∨ s.2 = false) :
    (withoutPatch s).forget = (withoutPatch s').forget ∧
      (withoutPatch s).romSettings.goodname = (withoutPatch s').romSettings.goodname ∧
      (withoutPatch s).romSettings.savetype = (withoutPatch s').romSettings.savetype := by
  unfold withoutPatch
  rw [← h.applied]
  by_cases happlied : s.2 = true
  · rw [if_pos happlied, if_pos happlied]
    refine ⟨h.rest, h.goodname happlied, h.savetype (hknown.resolve_right ?_)⟩
    simp [happlied]
  · rw [if_neg happlied, if_neg happlied]
    refine ⟨?_, ?_, rfl⟩
    · have hdefaults := congrArg (fun g : Globals => { g with romSettings := { g.romSettings with
        sidmaduration := 0x900, status := 0, players := 0, rumble := 0 } }) h.rest
      exact hdefaults
    · exact congrArg (· ++ unknownRom) h.headername

theorem eq_of_forget {g g' : Globals} (h : g.forget = g'.forget)
    (hname : g.romSettings.goodname = g'.romSettings.goodname)
    (hsave : g.romSettings.savetype = g'.romSettings.savetype) :
    g = { g' with
      countPerOp := g.countPerOp
      delaySi := g.delaySi
      romParams := { g'.romParams with specialRom := g.romParams.specialRom } } := by
  rcases g with ⟨_, _, _, _, _, _, ⟨_, _, _, _, _⟩, ⟨_, _, _, _, _, _, _⟩, _, _⟩
  rcases g' with ⟨_, _, _, _, _, _, ⟨_, _, _, _, _⟩, ⟨_, _, _, _, _, _, _⟩, _, _⟩
  simp only [Globals.forget, Globals.mk.injEq, RomParams.mk.injEq, RomSettings.mk.injEq] at *
  tauto

theorem afterPatches_congr {g g' : Globals} {frameDupe : Bool} (h : g.forget = g'.forget)
    (hname : g.romSettings.goodname = g'.romSettings.goodname)
    (hsave : g.romSettings.savetype = g'.romSettings.savetype)
    (hcpop : frameDupe = true ∨ (lutCpop.lookup lutId).isSome = true) :
    afterPatches frameDupe lutId g = afterPatches frameDupe lutId g' := by
  rw [eq_of_forget h hname hsave]
  unfold afterPatches
  rcases hcpop with rfl | hcpop
  · cases lutCpop.lookup lutId <;> cases lutSidmaduration.lookup lutId <;>
      cases lutDelaysi.lookup lutId <;> rfl
  · obtain ⟨value, hvalue⟩ := Option.isSome_iff_exists.mp hcpop
    rw [hvalue]
    cases lutSidmaduration.lookup lutId <;> cases lutDelaysi.lookup lutId <;> cases frameDupe <;>
      rfl

end Same

section Opening

variable {md5 : Bytes → Bytes} {frameDupe : Bool} {image : Bytes}

def romId (image : Bytes) : UInt64 := lutIdOf (headerOf (swapRom image))

variable {g : Globals}

theorem coreDoCommand_romOpen (hclosed : g.gRom = none) (hvalid : isValidRom image = true)
    (hsize : 4096 ≤ image.length) :
    coreDoCommand md5 frameDupe g (.romOpen image) = (.success, afterPatches frameDupe (romId image)
      (withoutPatch (patches (romId image) (beforeTables md5 g image)))) := by
  unfold coreDoCommand openRom
  dsimp only
  rw [hclosed, hvalid]
  exact if_neg (not_lt.mpr hsize)

theorem forget_beforeTables {g' : Globals} (h : Unrated g) (h' : Unrated g') :
    (beforeTables md5 g image).forget = (beforeTables md5 g' image).forget := by
  obtain ⟨hstatus, hplayers, hrumble⟩ := h
  obtain ⟨hstatus', hplayers', hrumble'⟩ := h'
  simp only [beforeTables, Globals.forget, hstatus, hplayers, hrumble, hstatus', hplayers',
    hrumble']

theorem openRom_congr {g' : Globals} (h : Unrated g) (h' : Unrated g') (hclosed : g.gRom = none)
    (hclosed' : g'.gRom = none) (hvalid : isValidRom image = true) (hsize : 4096 ≤ image.length)
    (hdetermined : Determined frameDupe (romId image)) :
    coreDoCommand md5 frameDupe g (.romOpen image) =
      coreDoCommand md5 frameDupe g' (.romOpen image) := by
  rw [coreDoCommand_romOpen hclosed hvalid hsize, coreDoCommand_romOpen hclosed' hvalid hsize]
  obtain ⟨hsave, hcpop⟩ := hdetermined
  have hsame := @same_patches (romId image) _ _ (@forget_beforeTables md5 image g g' h h')
  have hknown : (decide (romId image ∈ lutEe16k) || decide (romId image ∈ lutEe4k) ||
      decide (romId image ∈ lutFlashram)) = true ∨
        (patches (romId image) (beforeTables md5 g image)).2 = false := by
    by_cases hex : ∃ lut ∈ saveTables, romId image ∈ lut
    · left
      simpa [saveTables, or_assoc] using hex
    · right
      rw [← Bool.not_eq_true, patches_snd_iff]
      rintro (hin | ⟨lut, hlut, hin⟩)
      · exact hex hin
      · exact hsave.resolve_left hex lut hlut hin
  obtain ⟨hrest, hname, hsavetype⟩ := same_withoutPatch hsame hknown
  rw [afterPatches_congr hrest hname hsavetype hcpop]

theorem savetype_romOpen_of_notMem (hclosed : g.gRom = none) (hvalid : isValidRom image = true)
    (hsize : 4096 ≤ image.length) (hnone : ∀ lut ∈ saveTables, romId image ∉ lut)
    (hpatch : ∃ lut ∈ patchTables, romId image ∈ lut) :
    (coreDoCommand md5 frameDupe g (.romOpen image)).2.romSettings.savetype =
      g.romSettings.savetype := by
  rw [coreDoCommand_romOpen hclosed hvalid hsize, savetype_afterPatches]
  have happlied : (patches (romId image) (beforeTables md5 g image)).2 = true :=
    (patches_snd_iff _ _).mpr (Or.inr hpatch)
  unfold withoutPatch
  rw [if_pos happlied, savetype_patches_of_notMem hnone]
  rfl

theorem savetype_romOpen_of_flashram (hclosed : g.gRom = none) (hvalid : isValidRom image = true)
    (hsize : 4096 ≤ image.length) (hmem : romId image ∈ lutFlashram) :
    (coreDoCommand md5 frameDupe g (.romOpen image)).2.romSettings.savetype = .flashRam := by
  rw [coreDoCommand_romOpen hclosed hvalid hsize, savetype_afterPatches]
  have happlied : (patches (romId image) (beforeTables md5 g image)).2 = true :=
    (patches_snd_iff _ _).mpr (Or.inl ⟨lutFlashram, by simp [saveTables], hmem⟩)
  unfold withoutPatch
  rw [if_pos happlied]
  unfold patches patch
  dsimp only
  rw [if_pos (List.contains_iff_mem.mpr hmem)]
  rfl

theorem countPerOp_patch {lut : List UInt64} {f : Globals → Globals} {lutId : UInt64}
    {s : Globals × Bool} (hf : ∀ g, (f g).countPerOp = g.countPerOp) :
    (patch lut f lutId s).1.countPerOp = s.1.countPerOp := by
  unfold patch
  split
  · exact hf _
  · rfl

theorem countPerOp_romOpen (hclosed : g.gRom = none) (hvalid : isValidRom image = true)
    (hsize : 4096 ≤ image.length) :
    (coreDoCommand md5 frameDupe g (.romOpen image)).2.countPerOp =
      if frameDupe then 1 else (lutCpop.lookup (romId image)).getD g.countPerOp := by
  rw [coreDoCommand_romOpen hclosed hvalid hsize, countPerOp_afterPatches]
  have hpatches : (patches (romId image) (beforeTables md5 g image)).1.countPerOp =
      g.countPerOp := by
    unfold patches
    dsimp only
    iterate 9
      refine Eq.trans (countPerOp_patch ?_) ?_
      · exact fun _ => rfl
    rfl
  have hdefaults : (withoutPatch (patches (romId image) (beforeTables md5 g image))).countPerOp =
      g.countPerOp := by
    unfold withoutPatch
    split
    · exact hpatches
    · exact hpatches
  rw [hdefaults]

end Opening

section Histories

def imageOf (checksums : Bytes) : Bytes :=
  [0x80, 0x37, 0x12, 0x40] ++ List.replicate 12 0 ++ checksums ++ List.replicate 4072 0

theorem length_imageOf (checksums : Bytes) :
    (imageOf checksums).length = 4088 + checksums.length := by
  simp only [imageOf, List.length_append, List.length_replicate, List.length_cons,
    List.length_nil]
  omega

def flashramImage : Bytes := imageOf [0xAE, 0x5B, 0x94, 0x65, 0xC5, 0x4D, 0x65, 0x76]

def cpopImage : Bytes := imageOf [0xB9, 0x8B, 0xA4, 0x56, 0x5B, 0x2B, 0x76, 0xAF]

theorem flashramImage_spec : isValidRom flashramImage = true ∧ flashramImage.length = 4096 ∧
    romId flashramImage ∈ lutFlashram := by
  refine ⟨by decide, length_imageOf _, ?_⟩
  have hid : romId flashramImage = 0xAE5B9465C54D6576 := by decide
  rw [hid]
  decide

theorem cpopImage_spec : isValidRom cpopImage = true ∧ cpopImage.length = 4096 ∧
    lutCpop.lookup (romId cpopImage) = some 1 := by
  refine ⟨by decide, length_imageOf _, ?_⟩
  have hid : romId cpopImage = 0xB98BA4565B2B76AF := by decide
  rw [hid]
  rfl

variable {md5 : Bytes → Bytes} {frameDupe : Bool}

theorem closeRom_spec (g : Globals) : (closeRom g).2.gRom = none ∧
    (closeRom g).2.romSettings = g.romSettings ∧ (closeRom g).2.countPerOp = g.countPerOp := by
  unfold closeRom
  cases hrom : g.gRom with
  | none => exact ⟨hrom, rfl, rfl⟩
  | some rom => exact ⟨rfl, rfl, rfl⟩

def openAndClose (image : Bytes) : List Call := [.romOpen image, .romClose]

theorem run_openAndClose (image : Bytes) : run md5 frameDupe (openAndClose image) {} =
    (closeRom (coreDoCommand md5 frameDupe {} (.romOpen image)).2).2 := rfl

theorem gRom_openAndClose (image : Bytes) :
    (run md5 frameDupe (openAndClose image) {}).gRom = none :=
  (closeRom_spec _).1

theorem savetype_openAndClose_flashram :
    (run md5 frameDupe (openAndClose flashramImage) {}).romSettings.savetype = .flashRam := by
  obtain ⟨hvalid, hlength, hmem⟩ := flashramImage_spec
  rw [run_openAndClose, (closeRom_spec _).2.1]
  exact savetype_romOpen_of_flashram rfl hvalid hlength.ge hmem

theorem countPerOp_openAndClose_cpop :
    (run md5 false (openAndClose cpopImage) {}).countPerOp = 1 := by
  obtain ⟨hvalid, hlength, hlookup⟩ := cpopImage_spec
  rw [run_openAndClose, (closeRom_spec _).2.2, countPerOp_romOpen rfl hvalid hlength.ge, hlookup]
  rfl

/-- After any two runs that leave no ROM open, opening a ROM gives the same globals exactly when
all its settings are determined. -/
theorem romOpen_forgets_iff (md5 : Bytes → Bytes) (frameDupe : Bool) (image : Bytes)
    (hvalid : isValidRom image = true) (hsize : 4096 ≤ image.length) :
    (∀ calls calls' : List Call, (run md5 frameDupe calls {}).gRom = none →
      (run md5 frameDupe calls' {}).gRom = none →
        (coreDoCommand md5 frameDupe (run md5 frameDupe calls {}) (.romOpen image)).2 =
          (coreDoCommand md5 frameDupe (run md5 frameDupe calls' {}) (.romOpen image)).2) ↔
      Determined frameDupe (romId image) := by
  constructor
  · intro h
    constructor
    · by_contra hsave
      obtain ⟨hnone, hpatch⟩ := not_or.mp hsave
      push Not at hnone hpatch
      have heq := congrArg (fun g : Globals => g.romSettings.savetype)
        (h [] (openAndClose flashramImage) rfl (gRom_openAndClose _))
      rw [savetype_romOpen_of_notMem rfl hvalid hsize hnone hpatch,
        savetype_romOpen_of_notMem (gRom_openAndClose _) hvalid hsize hnone hpatch,
        savetype_openAndClose_flashram] at heq
      cases heq
    · by_contra hcpop
      obtain ⟨hdupe, hnone⟩ := not_or.mp hcpop
      rw [Bool.not_eq_true] at hdupe
      subst hdupe
      rw [Option.not_isSome_iff_eq_none] at hnone
      have heq := congrArg Globals.countPerOp
        (h [] (openAndClose cpopImage) rfl (gRom_openAndClose _))
      rw [countPerOp_romOpen rfl hvalid hsize,
        countPerOp_romOpen (gRom_openAndClose _) hvalid hsize, countPerOp_openAndClose_cpop,
        hnone] at heq
      change (2 : UInt64) = 1 at heq
      exact absurd heq (by decide)
  · intro hdetermined calls calls' hclosed hclosed'
    rw [openRom_congr (unrated_run calls) (unrated_run calls') hclosed hclosed' hvalid hsize
      hdetermined]

/-- A game that is in a table of save types and in the one of cycles per instruction. -/
theorem romOpen_forgets_sample :
    (coreDoCommand id false (run id false (openAndClose cpopImage) {})
        (.romOpen (imageOf [0x3B, 0xA7, 0xCD, 0xDC, 0x46, 0x4E, 0x52, 0xA0]))).2 =
      (coreDoCommand id false (run id false [] {})
        (.romOpen (imageOf [0x3B, 0xA7, 0xCD, 0xDC, 0x46, 0x4E, 0x52, 0xA0]))).2 := by
  have hid : romId (imageOf [0x3B, 0xA7, 0xCD, 0xDC, 0x46, 0x4E, 0x52, 0xA0]) =
      0x3BA7CDDC464E52A0 := by decide
  have hvalid : isValidRom (imageOf [0x3B, 0xA7, 0xCD, 0xDC, 0x46, 0x4E, 0x52, 0xA0]) = true := by
    decide
  refine (romOpen_forgets_iff id false _ hvalid (by rw [length_imageOf]; decide)).mpr
    ⟨Or.inl ?_, Or.inr ?_⟩ (openAndClose cpopImage) [] (gRom_openAndClose _) rfl
  · rw [hid]
    exact ⟨lutFlashram, by simp [saveTables], by decide⟩
  · rw [hid]
    rfl

/-- Twisted Edge inherits FlashRAM, and the game with FlashRAM one cycle per instruction. -/
theorem not_romOpen_forgets :
    (coreDoCommand id false (run id false (openAndClose flashramImage) {})
        (.romOpen (imageOf [0xE6, 0x88, 0xA5, 0xB8, 0xB1, 0x4B, 0x3F, 0x18]))).2 ≠
      (coreDoCommand id false (run id false [] {})
        (.romOpen (imageOf [0xE6, 0x88, 0xA5, 0xB8, 0xB1, 0x4B, 0x3F, 0x18]))).2 ∧
    (coreDoCommand id false (run id false (openAndClose cpopImage) {})
        (.romOpen flashramImage)).2 ≠
      (coreDoCommand id false (run id false [] {}) (.romOpen flashramImage)).2 := by
  constructor
  · intro heq
    have hid : romId (imageOf [0xE6, 0x88, 0xA5, 0xB8, 0xB1, 0x4B, 0x3F, 0x18]) =
        0xE688A5B8B14B3F18 := by decide
    have hvalid : isValidRom (imageOf [0xE6, 0x88, 0xA5, 0xB8, 0xB1, 0x4B, 0x3F, 0x18]) =
        true := by decide
    have hsize : 4096 ≤ (imageOf [0xE6, 0x88, 0xA5, 0xB8, 0xB1, 0x4B, 0x3F, 0x18]).length := by
      rw [length_imageOf]
      decide
    have hnone : ∀ lut ∈ saveTables,
        romId (imageOf [0xE6, 0x88, 0xA5, 0xB8, 0xB1, 0x4B, 0x3F, 0x18]) ∉ lut := by
      rw [hid]
      decide
    have hpatch : ∃ lut ∈ patchTables,
        romId (imageOf [0xE6, 0x88, 0xA5, 0xB8, 0xB1, 0x4B, 0x3F, 0x18]) ∈ lut := by
      rw [hid]
      exact ⟨lutFixedaudiopos, by simp [patchTables], by decide⟩
    have hsave := congrArg (fun g : Globals => g.romSettings.savetype) heq
    rw [savetype_romOpen_of_notMem (gRom_openAndClose _) hvalid hsize hnone hpatch,
      savetype_romOpen_of_notMem rfl hvalid hsize hnone hpatch,
      savetype_openAndClose_flashram] at hsave
    cases hsave
  · intro heq
    obtain ⟨hvalid, hlength, -⟩ := flashramImage_spec
    have hid : romId flashramImage = 0xAE5B9465C54D6576 := by decide
    have hcount := congrArg Globals.countPerOp heq
    rw [countPerOp_romOpen (gRom_openAndClose _) hvalid hlength.ge,
      countPerOp_romOpen rfl hvalid hlength.ge, countPerOp_openAndClose_cpop, hid] at hcount
    exact absurd hcount (by decide)

end Histories

end ParallelN64.Rom
