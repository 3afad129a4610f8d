import Mathlib.Data.List.Basic
import ParallelN64.Conversion.Build

/-!
# What reused conversions serve

Runs follow one another in one output directory, and each may be cut off between
two of its writes. The digest in the progress file identifies the migration plan,
but the loader manifest and the package are found by their existence and their
counts alone. A run serves what a fresh run would write as long as it takes these
over only from a run with the same request.
-/

namespace ParallelN64.Conversion

section Histories

variable {Payload Digest : Type}

/-- A run to be made: its request, whether it may reuse what it finds, and after how many of its
writes it is cut off, if it is. -/
structure Invocation (Payload : Type) where
  pre : PreRequestSignature Payload
  reuseExisting : Bool
  cutAfter : Option Nat := none

/-- Which request the loader manifest and each package were last written for. -/
structure Ledger (Payload : Type) where
  loaderManifest : Option (RequestSignature Payload) := none
  binary : String → Option (RequestSignature Payload) := fun _ => none

/-- The output directory with its ledger. -/
structure History (Payload Digest : Type) where
  dir : OutputDir Payload Digest := {}
  ledger : Ledger Payload := {}

/-- The ledger after a write for a request. -/
def Ledger.record (ledger : Ledger Payload) (signature : RequestSignature Payload) :
    Write Payload Digest → Ledger Payload
  | .loaderManifest _ => { ledger with loaderManifest := some signature }
  | .binary name _ =>
    { ledger with
      binary := fun other => if other = name then some signature else ledger.binary other }
  | _ => ledger

def History.write (signature : RequestSignature Payload) (history : History Payload Digest)
    (write : Write Payload Digest) : History Payload Digest where
  dir := write.apply history.dir
  ledger := history.ledger.record signature write

end Histories

section Invocations

variable {Payload Digest : Type} [DecidableEq Payload] [DecidableEq Digest]
variable (stages : Stages Payload Digest)

/-- The writes that a run makes before it ends or is cut off. -/
def Invocation.writes (run : Invocation Payload) (dir : OutputDir Payload Digest) :
    List (Write Payload Digest) :=
  let writes := (stages.buildConversion run.pre run.reuseExisting dir).1
  match run.cutAfter with
  | some count => writes.take count
  | none => writes

/-- The report that a run returns unless it is cut off. -/
def Invocation.report (run : Invocation Payload) (dir : OutputDir Payload Digest) :
    Option (Report Payload) :=
  match run.cutAfter with
  | some _ => none
  | none => some (stages.buildConversion run.pre run.reuseExisting dir).2

def History.invoke (history : History Payload Digest) (run : Invocation Payload) :
    History Payload Digest :=
  (run.writes stages history.dir).foldl (History.write (stages.requestSignature run.pre)) history

def History.after (runs : List (Invocation Payload)) : History Payload Digest :=
  runs.foldl (History.invoke stages) {}

/-- When a run may reuse what it finds and returns a report, the package at the
reported path and the loader manifest are those of a fresh run in an empty directory. -/
def ServesFresh (before : List (Invocation Payload)) (run : Invocation Payload) : Prop :=
  run.reuseExisting = true →
    ∀ report, run.report stages (History.after stages before).dir = some report →
      let served := (History.after stages (before ++ [run])).dir
      let fresh := (History.after stages [run]).dir
      report.packageName = run.pre.packageName ∧
        served.binary report.packageName = fresh.binary report.packageName ∧
        (fresh.binary report.packageName).isSome = true ∧
        served.loaderManifest = fresh.loaderManifest ∧ fresh.loaderManifest.isSome = true

def Ledger.servesOwn (ledger : Ledger Payload) (signature : RequestSignature Payload)
    (report : Report Payload) : Bool :=
  ledger.loaderManifest = some signature && ledger.binary report.packageName = some signature

/-- A run takes over only what was last written for its own request: the package and the loader
manifest of a report that it returns, and the loader manifest with which it resumes. -/
def History.takesOverOwn (history : History Payload Digest) (run : Invocation Payload) : Bool :=
  let signature := stages.requestSignature run.pre
  if run.reuseExisting then
    match history.dir.tryLoadReusableReportFromPreSignature run.pre with
    | some report => history.ledger.servesOwn signature report
    | none =>
      let resumable := history.dir.tryResume stages run.pre
      match history.dir.tryLoadReusableReport (stages.resolve run.pre resumable).requestSignature with
      | some report => history.ledger.servesOwn signature report
      | none =>
        resumable.isNone || history.dir.loaderManifest.isNone ||
          history.ledger.loaderManifest = some signature
  else true

/-- Every run of a sequence takes over only what was last written for its own request. -/
def AllTakeOverOwn (history : History Payload Digest) : List (Invocation Payload) → Bool
  | [] => true
  | run :: runs =>
    history.takesOverOwn stages run && AllTakeOverOwn (history.invoke stages run) runs

end Invocations

section Fresh

variable {Payload Digest : Type}
variable (stages : Stages Payload Digest)

def Stages.freshLoaderManifest (signature : RequestSignature Payload) : Manifest Payload :=
  stages.buildCanonicalLoaderManifest signature.inputs (stages.buildMigrationPlan signature)

def Stages.freshBinary (signature : RequestSignature Payload) : Payload :=
  stages.emitBinaryPackage signature.inputs
    (stages.materializePackage signature.inputs (stages.freshLoaderManifest signature))

/-- A progress file states the signature and the plan digest of its request, once it states them. -/
structure Progress.Valid (progress : Progress Payload Digest) : Prop where
  requestSignature_eq : ∀ signature, progress.requestSignature = some signature →
    signature = stages.requestSignature progress.preRequestSignature
  planDigest_eq : ∀ digest, progress.migrationPlanPayloadSha256 = some digest →
    progress.requestSignature.isSome = true ∧
      digest = stages.jsonPayloadSha256
        (stages.buildMigrationPlan (stages.requestSignature progress.preRequestSignature))

/-- A report states the signature and the package name of its request. -/
structure Report.Valid (report : Report Payload) : Prop where
  requestSignature_eq :
    report.requestSignature = some (stages.requestSignature report.preRequestSignature)
  packageName_eq : report.packageName = report.preRequestSignature.packageName

/-- A write puts down what belongs to a request. -/
def Write.Valid (pre : PreRequestSignature Payload) : Write Payload Digest → Prop
  | .progress p => p.Valid stages
  | .report r => r.Valid stages
  | .loaderManifest m => m = stages.freshLoaderManifest (stages.requestSignature pre)
  | .binary _ bytes => bytes = stages.freshBinary (stages.requestSignature pre)
  | _ => True

/-- Progress and report are valid, and what the ledger records as written for a request is what a
fresh run of it writes. -/
structure History.Valid (history : History Payload Digest) : Prop where
  progress_valid : ∀ progress, history.dir.progress = some progress → progress.Valid stages
  report_valid : ∀ report, history.dir.report = some report → report.Valid stages
  loaderManifest_eq : ∀ signature, history.ledger.loaderManifest = some signature →
    history.dir.loaderManifest = some (stages.freshLoaderManifest signature)
  binary_eq : ∀ name signature, history.ledger.binary name = some signature →
    history.dir.binary name = some (stages.freshBinary signature)

/-- What a run has resolved belongs to its request. -/
structure Resolution.Valid (resolution : Resolution Payload Digest)
    (pre : PreRequestSignature Payload) : Prop where
  writes_valid : ∀ write ∈ resolution.writes, write.Valid stages pre
  pre_eq : resolution.progress.preRequestSignature = pre
  requestSignature_eq : resolution.requestSignature = stages.requestSignature pre
  progress_eq : resolution.progress.requestSignature = some (stages.requestSignature pre)
  progress_valid : resolution.progress.Valid stages
  resumed_eq : ∀ plan, resolution.resumed = some plan →
    plan = stages.buildMigrationPlan (stages.requestSignature pre)

variable {stages}

theorem History.valid_empty : ({} : History Payload Digest).Valid stages :=
  ⟨fun _ => nofun, fun _ => nofun, fun _ => nofun, fun _ _ => nofun⟩

variable {history : History Payload Digest} {pre : PreRequestSignature Payload}
variable {signature : RequestSignature Payload} {plan : MigrateResult Payload}
  {report : Report Payload} {progress : Progress Payload Digest} {dir : OutputDir Payload Digest}

theorem History.Valid.write (hvalid : history.Valid stages) {write : Write Payload Digest}
    (hwrite : write.Valid stages pre) :
    (history.write (stages.requestSignature pre) write).Valid stages := by
  cases write with
  | progress p =>
    refine { hvalid with progress_valid := ?_ }
    intro progress hprogress
    obtain rfl := Option.some.inj hprogress
    exact hwrite
  | report r =>
    refine { hvalid with report_valid := ?_ }
    intro report hreport
    obtain rfl := Option.some.inj hreport
    exact hwrite
  | loaderManifest m =>
    refine { hvalid with loaderManifest_eq := ?_ }
    intro signature hsignature
    obtain rfl := Option.some.inj hsignature
    exact congrArg some hwrite
  | binary name bytes =>
    refine { hvalid with binary_eq := ?_ }
    intro other signature hsignature
    have hbytes : bytes = stages.freshBinary (stages.requestSignature pre) := hwrite
    simp only [History.write, Ledger.record, Write.apply] at hsignature ⊢
    split at hsignature
    case isTrue hname =>
      obtain rfl := Option.some.inj hsignature
      rw [if_pos hname, hbytes]
    case isFalse hname =>
      rw [if_neg hname]
      exact hvalid.binary_eq other signature hsignature
  | migrationPlan | bindings | unlinkBindings | runtimeLoaderManifest
  | unlinkRuntimeLoaderManifest | packageManifest | review | summary => exact { hvalid with }

theorem History.Valid.writes (hvalid : history.Valid stages)
    {writes : List (Write Payload Digest)} (hwrites : ∀ write ∈ writes, write.Valid stages pre) :
    (writes.foldl (History.write (stages.requestSignature pre)) history).Valid stages := by
  induction writes generalizing history with
  | nil => exact hvalid
  | cons write writes ih =>
    exact ih (hvalid.write (hwrites write List.mem_cons_self))
      fun write hwrite => hwrites write (List.mem_cons_of_mem _ hwrite)

variable {writes : List (Write Payload Digest)}

theorem Ledger.record_loaderManifest (hwritten : history.ledger.loaderManifest = some signature ∨
      ∃ manifest, Write.loaderManifest manifest ∈ writes) :
    (writes.foldl (History.write signature) history).ledger.loaderManifest = some signature := by
  induction writes generalizing history with
  | nil => simpa using hwritten
  | cons write writes ih =>
    apply ih
    cases write with
    | loaderManifest m => exact Or.inl rfl
    | progress | migrationPlan | bindings | unlinkBindings | runtimeLoaderManifest
    | unlinkRuntimeLoaderManifest | packageManifest | binary | review | summary | report =>
      simpa [History.write, Ledger.record] using hwritten

theorem Ledger.record_binary {name : String}
    (hwritten : history.ledger.binary name = some signature ∨
      ∃ bytes, Write.binary name bytes ∈ writes) :
    (writes.foldl (History.write signature) history).ledger.binary name = some signature := by
  induction writes generalizing history with
  | nil => simpa using hwritten
  | cons write writes ih =>
    apply ih
    cases write with
    | binary other bytes =>
      by_cases hname : name = other
      · exact Or.inl (if_pos hname)
      · simpa [History.write, Ledger.record, hname] using hwritten
    | progress | migrationPlan | loaderManifest | bindings | unlinkBindings
    | runtimeLoaderManifest | unlinkRuntimeLoaderManifest | packageManifest | review | summary
    | report => simpa [History.write, Ledger.record] using hwritten

theorem initialProgress_valid (pre : PreRequestSignature Payload) :
    (pre.initialProgress : Progress Payload Digest).Valid stages :=
  ⟨fun _ => nofun, fun _ => nofun⟩

theorem planProgress_valid (hsignature : progress.requestSignature =
      some (stages.requestSignature progress.preRequestSignature))
    (hplan : plan = stages.buildMigrationPlan
      (stages.requestSignature progress.preRequestSignature)) :
    (stages.planProgress progress plan).Valid stages := by
  refine ⟨?_, ?_⟩
  · intro signature hsome
    exact (Option.some.inj (hsignature.symm.trans hsome)).symm
  · intro digest hdigest
    refine ⟨by rw [Stages.planProgress, hsignature]; rfl, ?_⟩
    obtain rfl := Option.some.inj hdigest
    rw [hplan]
    rfl

theorem resolve_resumed (pre : PreRequestSignature Payload)
    (resumable : Option (Progress Payload Digest × MigrateResult Payload)) :
    (stages.resolve pre resumable).resumed = resumable.map Prod.snd := by
  cases resumable <;> rfl

theorem resolve_none_valid (pre : PreRequestSignature Payload) :
    (stages.resolve pre none : Resolution Payload Digest).Valid stages pre := by
  have hsigned : ∀ signature : RequestSignature Payload,
      some (stages.requestSignature pre) = some signature →
        signature = stages.requestSignature pre :=
    fun signature hsome => (Option.some.inj hsome).symm
  refine ⟨?_, rfl, rfl, rfl, ⟨hsigned, fun _ => nofun⟩, fun _ => nofun⟩
  intro write hwrite
  simp only [Stages.resolve, List.mem_cons, List.not_mem_nil, or_false] at hwrite
  obtain rfl | rfl | rfl | rfl := hwrite
  · exact initialProgress_valid pre
  · exact ⟨fun _ => nofun, fun _ => nofun⟩
  · exact ⟨fun _ => nofun, fun _ => nofun⟩
  · exact ⟨hsigned, fun _ => nofun⟩

theorem resolve_some_valid
    (hsignature : progress.requestSignature = some (stages.requestSignature pre))
    (hplan : plan = stages.buildMigrationPlan (stages.requestSignature pre)) :
    (stages.resolve pre (some (progress, plan))).Valid stages pre := by
  have hgetD : progress.requestSignature.getD
      (pre.makeRequestSignature (progress.resumedRequestMode plan) plan.families) =
        stages.requestSignature pre := by
    rw [hsignature]
    rfl
  have hresumed : (stages.resolve pre (some (progress, plan))).progress.Valid stages :=
    planProgress_valid (congrArg some hgetD) hplan
  refine ⟨?_, rfl, hgetD, congrArg some hgetD, hresumed, ?_⟩
  · intro write hwrite
    simp only [Stages.resolve, List.mem_cons, List.not_mem_nil, or_false] at hwrite
    obtain rfl | rfl := hwrite
    · exact initialProgress_valid pre
    · exact hresumed
  · intro plan' hsome
    obtain rfl := Option.some.inj hsome
    exact hplan

theorem Report.Valid.synchronize (hreport : report.Valid stages)
    (packageManifest : Option (Manifest Payload)) :
    (report.synchronize packageManifest).Valid stages := by
  cases packageManifest with
  | none => exact ⟨hreport.requestSignature_eq, hreport.packageName_eq⟩
  | some manifest => exact ⟨hreport.requestSignature_eq, hreport.packageName_eq⟩

theorem reportWrites_valid (hreport : report.Valid stages) (plan : Option (MigrateResult Payload))
    (bindings : Option (Bindings Payload)) {write : Write Payload Digest}
    (hwrite : write ∈ stages.reportWrites report plan bindings) : write.Valid stages pre := by
  rw [Stages.reportWrites, List.mem_append, List.mem_map] at hwrite
  obtain ⟨file, -, rfl⟩ | hwrite := hwrite
  · trivial
  · simp only [List.mem_cons, List.not_mem_nil, or_false] at hwrite
    obtain rfl | rfl := hwrite
    · trivial
    · exact hreport

theorem reuseReport_valid (dir : OutputDir Payload Digest) (hreport : report.Valid stages)
    (hprogress : progress.Valid stages) (pre : PreRequestSignature Payload) :
    (∀ write ∈ (stages.reuseReport dir report progress).1, write.Valid stages pre) ∧
      (stages.reuseReport dir report progress).2.packageName = report.packageName := by
  have hreused : ({ report with reusedExisting := true } : Report Payload).Valid stages :=
    ⟨hreport.requestSignature_eq, hreport.packageName_eq⟩
  refine ⟨?_, ?_⟩
  · intro write hwrite
    rw [Stages.reuseReport, List.mem_append, List.mem_singleton] at hwrite
    obtain hwrite | rfl := hwrite
    · exact reportWrites_valid (hreused.synchronize _) _ _ hwrite
    · exact hprogress
  · rw [Stages.reuseReport]
    cases dir.packageManifest <;> rfl

section Package

variable {pre : PreRequestSignature Payload} {resolution : Resolution Payload Digest}

theorem planStage_valid (hresolution : resolution.Valid stages pre) :
    (stages.planStage resolution).1 = stages.buildMigrationPlan (stages.requestSignature pre) ∧
      (stages.planProgress resolution.progress (stages.planStage resolution).1).Valid stages ∧
      ∀ write ∈ (stages.planStage resolution).2, write.Valid stages pre := by
  have hplan : (stages.planStage resolution).1 =
      stages.buildMigrationPlan (stages.requestSignature pre) := by
    rw [Stages.planStage]
    cases hresumed : resolution.resumed with
    | some plan => exact hresolution.resumed_eq plan hresumed
    | none => rw [hresolution.requestSignature_eq]
  have hprogress : (stages.planProgress resolution.progress (stages.planStage resolution).1).Valid
      stages := by
    apply planProgress_valid
    · rw [hresolution.progress_eq, hresolution.pre_eq]
    · rw [hplan, hresolution.pre_eq]
  refine ⟨hplan, hprogress, ?_⟩
  intro write hwrite
  rw [Stages.planStage] at hwrite hprogress
  cases hresumed : resolution.resumed with
  | some plan =>
    rw [hresumed] at hwrite
    exact absurd hwrite List.not_mem_nil
  | none =>
    rw [hresumed] at hwrite hprogress
    simp only [List.mem_cons, List.not_mem_nil, or_false] at hwrite
    obtain rfl | rfl := hwrite
    · exact hprogress
    · trivial

theorem loaderStage_valid {existing : Option (Manifest Payload)}
    (hplan : plan = stages.buildMigrationPlan (stages.requestSignature pre))
    (hexisting : ∀ manifest, existing = some manifest →
      manifest = stages.freshLoaderManifest (stages.requestSignature pre)) :
    let loader : Manifest Payload × List (Write Payload Digest) :=
      stages.loaderStage pre plan existing
    loader.1 = stages.freshLoaderManifest (stages.requestSignature pre) ∧
      (∀ write ∈ loader.2, write.Valid stages pre) ∧
      (existing = none → .loaderManifest loader.1 ∈ loader.2) := by
  cases existing with
  | some manifest => exact ⟨hexisting manifest rfl, List.forall_mem_nil _, nofun⟩
  | none =>
    have hloader : stages.buildCanonicalLoaderManifest pre.inputs plan =
        stages.freshLoaderManifest (stages.requestSignature pre) := by
      rw [hplan]
      rfl
    refine ⟨hloader, ?_, fun _ => List.mem_singleton_self _⟩
    intro write hwrite
    obtain rfl := List.mem_singleton.mp hwrite
    exact hloader

theorem overlayStage_valid {loader : Manifest Payload} {bindings : Option (Bindings Payload)}
    {runtimeLoader : Option (Manifest Payload)} (hprogress : progress.Valid stages) :
    ∀ write ∈ (stages.overlayStage pre plan loader bindings runtimeLoader progress).2,
      write.Valid stages pre := by
  intro write hwrite
  simp only [Stages.overlayStage] at hwrite
  split at hwrite <;> split at hwrite
  all_goals
    simp only [List.mem_cons, List.not_mem_nil, or_false] at hwrite
    obtain rfl | rfl | rfl | rfl := hwrite <;> first | exact hprogress | trivial

theorem packageStage_valid {loader : Manifest Payload}
    (hloader : loader = stages.freshLoaderManifest (stages.requestSignature pre))
    (hprogress : progress.Valid stages) :
    (∀ write ∈ (stages.packageStage pre loader progress).2, write.Valid stages pre) ∧
      ∃ bytes, .binary pre.packageName bytes ∈ (stages.packageStage pre loader progress).2 := by
  refine ⟨?_, stages.emitBinaryPackage pre.inputs (stages.materializePackage pre.inputs loader), ?_⟩
  · intro write hwrite
    rw [Stages.packageStage, List.mem_append] at hwrite
    obtain hwrite | hwrite := hwrite
    · obtain rfl := List.eq_of_mem_replicate hwrite
      exact hprogress
    · simp only [List.mem_cons, List.not_mem_nil, or_false] at hwrite
      obtain rfl | rfl | rfl | rfl | rfl := hwrite
      · trivial
      · exact hprogress
      · trivial
      · rw [hloader]
        rfl
      · exact hprogress
  · simp [Stages.packageStage]

theorem buildPackage_valid (hresolution : resolution.Valid stages pre)
    (hloader : resolution.resumed.isSome = true → ∀ manifest, dir.loaderManifest = some manifest →
      manifest = stages.freshLoaderManifest (stages.requestSignature pre)) :
    let built := stages.buildPackage pre dir resolution
    (∀ write ∈ built.1, write.Valid stages pre) ∧ built.2.packageName = pre.packageName ∧
      (∃ bytes, .binary pre.packageName bytes ∈ built.1) ∧
      (resolution.resumed.isSome = true ∧ dir.loaderManifest.isSome = true ∨
        ∃ manifest, .loaderManifest manifest ∈ built.1) := by
  intro built
  obtain ⟨hplan, hprogress, hplanWrites⟩ := planStage_valid hresolution
  let found : OutputDir Payload Digest := if resolution.resumed.isSome then dir else {}
  have hfound : ∀ manifest, found.loaderManifest = some manifest →
      manifest = stages.freshLoaderManifest (stages.requestSignature pre) := by
    intro manifest hmanifest
    simp only [found] at hmanifest
    split at hmanifest
    case isTrue hresumed => exact hloader hresumed manifest hmanifest
    case isFalse => exact absurd hmanifest nofun
  obtain ⟨hfresh, hloaderWrites, hwritten⟩ := loaderStage_valid hplan hfound
  obtain ⟨hpackageWrites, bytes, hbytes⟩ := packageStage_valid hfresh hprogress
  have hreport : (pre.freshReport resolution.requestSignature
      (stages.packageStage pre (stages.loaderStage pre (stages.planStage resolution).1
        found.loaderManifest).1
        (stages.planProgress resolution.progress (stages.planStage resolution).1)).1).Valid
        stages := by
    apply Report.Valid.synchronize
    exact ⟨congrArg some hresolution.requestSignature_eq, rfl⟩
  refine ⟨?_, rfl, ⟨bytes, ?_⟩, ?_⟩
  · intro write hwrite
    simp only [built, Stages.buildPackage, List.mem_append, List.mem_cons, List.not_mem_nil,
      or_false] at hwrite
    obtain ((((hwrite | hwrite) | rfl | hwrite) | hwrite) | hwrite) | rfl := hwrite
    · exact hplanWrites write hwrite
    · exact hloaderWrites write hwrite
    · exact hprogress
    · exact overlayStage_valid hprogress write hwrite
    · exact hpackageWrites write hwrite
    · exact reportWrites_valid hreport _ _ hwrite
    · exact hprogress
  · simp only [built, Stages.buildPackage, List.mem_append]
    exact Or.inl (Or.inl (Or.inr hbytes))
  · by_cases hnone : found.loaderManifest = none
    · refine Or.inr ⟨(stages.loaderStage pre (stages.planStage resolution).1
        found.loaderManifest).1, ?_⟩
      simp only [built, Stages.buildPackage, List.mem_append]
      exact Or.inl (Or.inl (Or.inl (Or.inl (Or.inr (hwritten hnone)))))
    · left
      simp only [found] at hnone
      split at hnone
      case isTrue hresumed => exact ⟨hresumed, Option.isSome_iff_ne_none.mpr hnone⟩
      case isFalse => exact absurd rfl hnone

end Package

/-- What a run that takes over only its own files writes and returns. -/
structure RunsOwn (stages : Stages Payload Digest) (ledger : Ledger Payload)
    (pre : PreRequestSignature Payload) (built : List (Write Payload Digest) × Report Payload) :
    Prop where
  writes_valid : ∀ write ∈ built.1, write.Valid stages pre
  packageName_eq : built.2.packageName = pre.packageName
  loaderManifest : ledger.loaderManifest = some (stages.requestSignature pre) ∨
    ∃ manifest, Write.loaderManifest manifest ∈ built.1
  binary : ledger.binary pre.packageName = some (stages.requestSignature pre) ∨
    ∃ bytes, Write.binary pre.packageName bytes ∈ built.1

theorem runsOwn_buildPackage (hvalid : history.Valid stages)
    {resumable : Option (Progress Payload Digest × MigrateResult Payload)}
    (hresolution : (stages.resolve pre resumable).Valid stages pre)
    (hown : resumable = none ∨ history.dir.loaderManifest = none ∨
      history.ledger.loaderManifest = some (stages.requestSignature pre)) :
    RunsOwn stages history.ledger pre
      ((stages.resolve pre resumable).writes ++
        (stages.buildPackage pre history.dir (stages.resolve pre resumable)).1,
        (stages.buildPackage pre history.dir (stages.resolve pre resumable)).2) := by
  have hresumed : (stages.resolve pre resumable).resumed.isSome = true → resumable ≠ none := by
    rw [resolve_resumed, Option.isSome_map]
    exact fun hsome => Option.isSome_iff_ne_none.mp hsome
  have hloader : (stages.resolve pre resumable).resumed.isSome = true →
      ∀ manifest, history.dir.loaderManifest = some manifest →
        manifest = stages.freshLoaderManifest (stages.requestSignature pre) := by
    intro hsome manifest hmanifest
    obtain hnone | hnone | hledger := hown
    · exact absurd hnone (hresumed hsome)
    · exact absurd (hnone.symm.trans hmanifest) nofun
    · exact Option.some.inj (hmanifest.symm.trans (hvalid.loaderManifest_eq _ hledger))
  obtain ⟨hwrites, hname, ⟨bytes, hbytes⟩, hmanifest⟩ := buildPackage_valid hresolution hloader
  refine ⟨?_, hname, ?_, Or.inr ⟨bytes, List.mem_append_right _ hbytes⟩⟩
  · intro write hwrite
    cases List.mem_append.mp hwrite with
    | inl hbefore => exact hresolution.writes_valid write hbefore
    | inr hafter => exact hwrites write hafter
  · obtain ⟨hsome, hexists⟩ | ⟨manifest, hwritten⟩ := hmanifest
    · obtain hnone | hnone | hledger := hown
      · exact absurd hnone (hresumed hsome)
      · exact absurd hnone (Option.isSome_iff_ne_none.mp hexists)
      · exact Or.inl hledger
    · exact Or.inr ⟨manifest, List.mem_append_right _ hwritten⟩

end Fresh

section Runs

variable {Payload Digest : Type} [DecidableEq Payload]
variable {stages : Stages Payload Digest}

variable {pre : PreRequestSignature Payload} {history : History Payload Digest}
variable {signature : RequestSignature Payload} {plan : MigrateResult Payload}
  {report : Report Payload} {progress : Progress Payload Digest} {dir : OutputDir Payload Digest}

theorem OutputDir.tryLoadReusableReportFromPreSignature_eq
    (hfound : dir.tryLoadReusableReportFromPreSignature pre = some report) :
    dir.report = some report ∧ report.preRequestSignature = pre := by
  rw [tryLoadReusableReportFromPreSignature, Option.filter_eq_some_iff, Bool.and_eq_true,
    decide_eq_true_eq] at hfound
  exact ⟨hfound.1, hfound.2.1⟩

theorem OutputDir.tryLoadReusableReport_eq
    (hfound : dir.tryLoadReusableReport signature = some report) :
    dir.report = some report ∧ report.requestSignature = some signature := by
  rw [tryLoadReusableReport, Option.filter_eq_some_iff, Bool.and_eq_true,
    decide_eq_true_eq] at hfound
  exact ⟨hfound.1, hfound.2.1⟩

theorem runsOwn_reuseReport (writes : List (Write Payload Digest)) (hreport : report.Valid stages)
    (hpre : report.preRequestSignature = pre) (hprogress : progress.Valid stages)
    (hwrites : ∀ write ∈ writes, write.Valid stages pre)
    (hown : history.ledger.servesOwn (stages.requestSignature pre) report = true) :
    RunsOwn stages history.ledger pre
      (writes ++ (stages.reuseReport history.dir report progress).1,
        (stages.reuseReport history.dir report progress).2) := by
  obtain ⟨hreused, hname⟩ := reuseReport_valid history.dir hreport hprogress pre
  rw [Ledger.servesOwn, Bool.and_eq_true, decide_eq_true_eq, decide_eq_true_eq] at hown
  rw [hreport.packageName_eq, hpre] at hname hown
  refine ⟨?_, hname, Or.inl hown.1, Or.inl hown.2⟩
  intro write hwrite
  cases List.mem_append.mp hwrite with
  | inl hbefore => exact hwrites write hbefore
  | inr hafter => exact hreused write hafter

variable [DecidableEq Digest]

variable (stages) in
theorem History.after_append (before after : List (Invocation Payload)) :
    History.after stages (before ++ after) =
      after.foldl (History.invoke stages) (History.after stages before) :=
  List.foldl_append

theorem allTakeOverOwn_append {before after : List (Invocation Payload)}
    (hown : AllTakeOverOwn stages history (before ++ after) = true) :
    AllTakeOverOwn stages history before = true ∧
      AllTakeOverOwn stages (before.foldl (History.invoke stages) history) after = true := by
  induction before generalizing history with
  | nil => exact ⟨rfl, hown⟩
  | cons run before ih =>
    rw [List.cons_append, AllTakeOverOwn, Bool.and_eq_true] at hown
    obtain ⟨hbefore, hafter⟩ := ih hown.2
    exact ⟨by rw [AllTakeOverOwn, hown.1, hbefore]; rfl, hafter⟩

theorem takesOverOwn_empty (run : Invocation Payload) :
    ({} : History Payload Digest).takesOverOwn stages run = true := by
  rw [History.takesOverOwn]
  cases run.reuseExisting <;> rfl

section Valid

variable (hvalid : history.Valid stages)
variable (hdigest : Function.Injective stages.jsonPayloadSha256)

include hvalid hdigest

theorem History.Valid.tryResume_eq
    (hresume : history.dir.tryResume stages pre = some (progress, plan)) :
    progress.requestSignature = some (stages.requestSignature pre) ∧
      plan = stages.buildMigrationPlan (stages.requestSignature pre) := by
  rw [OutputDir.tryResume] at hresume
  split at hresume
  case h_2 => exact absurd hresume nofun
  case h_1 found foundPlan hprogress _ =>
    split at hresume
    case isFalse => exact absurd hresume nofun
    case isTrue hvouches =>
      obtain ⟨rfl, rfl⟩ := Prod.mk.inj (Option.some.inj hresume)
      obtain ⟨hpre, hvouches⟩ := hvouches
      have hstated : found.migrationPlanPayloadSha256 =
          some (stages.jsonPayloadSha256 foundPlan) :=
        (of_decide_eq_true hvouches).1
      have hfound := hvalid.progress_valid found hprogress
      obtain ⟨hsome, hplan⟩ := hfound.planDigest_eq _ hstated
      obtain ⟨signature, hsignature⟩ := Option.isSome_iff_exists.mp hsome
      rw [hpre] at hplan
      have hequal := hfound.requestSignature_eq signature hsignature
      rw [hpre] at hequal
      exact ⟨hequal ▸ hsignature, hdigest hplan⟩

theorem History.Valid.resolve (pre : PreRequestSignature Payload) :
    (stages.resolve pre (history.dir.tryResume stages pre)).Valid stages pre := by
  cases hresume : history.dir.tryResume stages pre with
  | none => exact resolve_none_valid pre
  | some found =>
    obtain ⟨progress, plan⟩ := found
    obtain ⟨hsignature, hplan⟩ := hvalid.tryResume_eq hdigest hresume
    exact resolve_some_valid hsignature hplan

theorem History.Valid.runsOwn {run : Invocation Payload}
    (hown : history.takesOverOwn stages run = true) :
    RunsOwn stages history.ledger run.pre
      (stages.buildConversion run.pre run.reuseExisting history.dir) := by
  obtain ⟨pre, reuseExisting, cutAfter⟩ := run
  cases reuseExisting with
  | false => exact runsOwn_buildPackage hvalid (resolve_none_valid pre) (Or.inl rfl)
  | true =>
    simp only [History.takesOverOwn, Stages.buildConversion, if_true] at hown ⊢
    cases hpreReport : history.dir.tryLoadReusableReportFromPreSignature pre with
    | some report =>
      rw [hpreReport] at hown
      obtain ⟨hreport, hpre⟩ := OutputDir.tryLoadReusableReportFromPreSignature_eq hpreReport
      have hvalidReport := hvalid.report_valid report hreport
      have hsame : { report with preRequestSignature := pre } = report := by rw [← hpre]
      simp only [hsame]
      exact runsOwn_reuseReport [] hvalidReport hpre (initialProgress_valid pre)
        (List.forall_mem_nil _) hown
    | none =>
      rw [hpreReport] at hown
      have hresolution := hvalid.resolve hdigest pre
      simp only at hown ⊢
      cases hfound : history.dir.tryLoadReusableReport
          (stages.resolve pre (history.dir.tryResume stages pre)).requestSignature with
      | some report =>
        rw [hfound] at hown
        obtain ⟨hreport, hsignature⟩ := OutputDir.tryLoadReusableReport_eq hfound
        have hvalidReport := hvalid.report_valid report hreport
        rw [hresolution.requestSignature_eq, hvalidReport.requestSignature_eq] at hsignature
        have hname : report.packageName = pre.packageName :=
          hvalidReport.packageName_eq.trans
            (congrArg RequestSignature.packageName (Option.some.inj hsignature))
        have hstated : some (stages.resolve pre
            (history.dir.tryResume stages pre)).requestSignature =
              some (stages.requestSignature pre) :=
          congrArg some hresolution.requestSignature_eq
        exact runsOwn_reuseReport _ ⟨hstated, hname⟩ rfl hresolution.progress_valid
          hresolution.writes_valid hown
      | none =>
        rw [hfound] at hown
        simp only [Bool.or_eq_true, Option.isNone_iff_eq_none, decide_eq_true_eq, or_assoc] at hown
        exact runsOwn_buildPackage hvalid hresolution hown

theorem History.Valid.invoke {run : Invocation Payload}
    (hown : history.takesOverOwn stages run = true) : (history.invoke stages run).Valid stages := by
  have hwrites := (hvalid.runsOwn hdigest hown).writes_valid
  apply hvalid.writes
  intro write hwrite
  rw [Invocation.writes] at hwrite
  cases hcut : run.cutAfter with
  | none =>
    rw [hcut] at hwrite
    exact hwrites write hwrite
  | some count =>
    rw [hcut] at hwrite
    exact hwrites write (List.mem_of_mem_take hwrite)

theorem History.Valid.serves {run : Invocation Payload}
    (hown : history.takesOverOwn stages run = true)
    (hreport : run.report stages history.dir = some report) :
    report.packageName = run.pre.packageName ∧
      (history.invoke stages run).dir.binary run.pre.packageName =
        some (stages.freshBinary (stages.requestSignature run.pre)) ∧
      (history.invoke stages run).dir.loaderManifest =
        some (stages.freshLoaderManifest (stages.requestSignature run.pre)) := by
  have hruns := hvalid.runsOwn hdigest hown
  have hafter := hvalid.invoke hdigest hown
  have hwrites : run.writes stages history.dir =
      (stages.buildConversion run.pre run.reuseExisting history.dir).1 := by
    rw [Invocation.writes]
    rw [Invocation.report] at hreport
    cases hcut : run.cutAfter with
    | none => rfl
    | some count =>
      rw [hcut] at hreport
      exact absurd hreport nofun
  have hreturned : (stages.buildConversion run.pre run.reuseExisting history.dir).2 = report := by
    rw [Invocation.report] at hreport
    cases hcut : run.cutAfter with
    | none =>
      rw [hcut] at hreport
      exact Option.some.inj hreport
    | some count =>
      rw [hcut] at hreport
      exact absurd hreport nofun
  have hmanifest := Ledger.record_loaderManifest hruns.loaderManifest
  have hbinary := Ledger.record_binary hruns.binary
  rw [← hwrites] at hmanifest hbinary
  exact ⟨hreturned ▸ hruns.packageName_eq, hafter.binary_eq _ _ hbinary,
    hafter.loaderManifest_eq _ hmanifest⟩

theorem History.Valid.after {runs : List (Invocation Payload)}
    (hown : AllTakeOverOwn stages history runs = true) :
    (runs.foldl (History.invoke stages) history).Valid stages := by
  induction runs generalizing history with
  | nil => exact hvalid
  | cons run runs ih =>
    rw [AllTakeOverOwn, Bool.and_eq_true] at hown
    exact ih (hvalid.invoke hdigest hown.1) hown.2

end Valid

/-- Reuse and resume serve what a fresh run would write in every sequence of runs, completed or
cut off, each of which takes over only what was last written for its own request. -/
theorem servesFresh_of_allTakeOverOwn (stages : Stages Payload Digest)
    (hdigest : Function.Injective stages.jsonPayloadSha256) (before : List (Invocation Payload))
    (run : Invocation Payload) (hown : AllTakeOverOwn stages {} (before ++ [run]) = true) :
    ServesFresh stages before run := by
  intro _ report hreport
  obtain ⟨hbefore, hrun⟩ := allTakeOverOwn_append hown
  rw [AllTakeOverOwn, Bool.and_eq_true] at hrun
  obtain ⟨hname, hbinary, hmanifest⟩ :=
    (History.valid_empty.after hdigest hbefore).serves hdigest hrun.1 hreport
  have hfreshReport : ∃ report', run.report stages ({} : History Payload Digest).dir =
      some report' := by
    rw [Invocation.report] at hreport ⊢
    cases hcut : run.cutAfter with
    | none => exact ⟨_, rfl⟩
    | some count =>
      rw [hcut] at hreport
      exact absurd hreport nofun
  obtain ⟨report', hreport'⟩ := hfreshReport
  obtain ⟨-, hbinary', hmanifest'⟩ :=
    History.valid_empty.serves hdigest (takesOverOwn_empty run) hreport'
  have hserved : History.after stages (before ++ [run]) =
      (History.after stages before).invoke stages run := History.after_append stages before [run]
  have hfresh : History.after stages [run] = ({} : History Payload Digest).invoke stages run := rfl
  rw [hserved, hfresh, hname]
  refine ⟨rfl, ?_, ?_, ?_, ?_⟩
  · exact hbinary.trans hbinary'.symm
  · rw [hbinary']
    rfl
  · exact hmanifest.trans hmanifest'.symm
  · rw [hmanifest']
    rfl

end Runs

def emptyManifest (body : Nat) : Manifest Nat where
  summary := summarizeRuntimeRecords []
  records := []
  body := body

/-- A tool whose artifacts are the inputs that they are made from. -/
def copyingStages : Stages Nat (MigrateResult Nat) where
  entryCount _ := 0
  resolveRequestedPairs _ := ("all-families", [])
  buildMigrationPlan signature :=
    { requestMode := signature.requestMode
      families := signature.requestedPairs
      entryCount := 0
      plan := signature.inputs
      importedIndex := signature.inputs }
  jsonPayloadSha256 := id
  summarizeMigrationPlan := id
  summarizeImportedIndex := id
  buildCanonicalLoaderManifest inputs _ := emptyManifest inputs
  resolveRuntimeOverlayPlan _ _ := false
  buildProxyBindings inputs _ := { bindingCount := 0, body := inputs }
  runtimeOverlayPlaceholder := { bindingCount := 0, body := 0 }
  buildLoaderManifest bindings := emptyManifest bindings.body
  materializePackage _ loader := loader
  emitBinaryPackage _ package := package.body
  reviewArtifacts _ _ _ := []
  buildMarkdownSummary _ := 0

/-- A request to convert all families of some inputs. -/
def allFamiliesRequest (inputs : Nat) : PreRequestSignature Nat where
  inputs := inputs
  packageName := "package.phrb"
  runtimeOverlayMode := .auto
  allFamilies := true
  low32 := []
  formatsize := []

/-- Behind a completed conversion of another cache, a conversion that was cut off right after its
loader manifest is resumed. -/
theorem servesFresh_resumed :
    ServesFresh copyingStages [{ pre := allFamiliesRequest 1, reuseExisting := false },
        { pre := allFamiliesRequest 0, reuseExisting := false, cutAfter := some 7 }]
      { pre := allFamiliesRequest 0, reuseExisting := true } :=
  servesFresh_of_allTakeOverOwn copyingStages Function.injective_id _ _ (by decide)

/-- A conversion of one cache completes, a conversion of another one is cut off right after its
migration plan, and when that one is resumed it takes over the loader manifest of the first. -/
theorem not_servesFresh :
    ¬∀ stages : Stages Nat (MigrateResult Nat), Function.Injective stages.jsonPayloadSha256 →
      ∀ (before : List (Invocation Nat)) (run : Invocation Nat), ServesFresh stages before run := by
  intro hserves
  have hserved := hserves copyingStages Function.injective_id
    [{ pre := allFamiliesRequest 1, reuseExisting := false },
      { pre := allFamiliesRequest 0, reuseExisting := false, cutAfter := some 6 }]
    { pre := allFamiliesRequest 0, reuseExisting := true } rfl _ rfl
  exact absurd hserved.2.2.2.1 (by decide)

end ParallelN64.Conversion
