import ParallelN64.Conversion.Manifest

/-!
# Conversion runs

A run of the converter reads what earlier runs left in its output directory and
writes its own files one after the other. It may stop after any of its writes.
Fingerprints are taken to identify file contents, so a signature stands for the
arguments together with the inputs that the stages read.
-/

namespace ParallelN64.Conversion

def hts2phrbArtifactVersion : Nat := 7

/-- When runtime overlay artifacts are built. -/
inductive RuntimeOverlayMode where
  | auto
  | always
  | never
  deriving DecidableEq, Repr

section Files

variable (Payload Digest : Type)

/-- What is known of a request before the cache is parsed. The inputs are the tool, the cache, the
bundles, the policies and the reviews. -/
structure PreRequestSignature where
  inputs : Payload
  packageName : String
  runtimeOverlayMode : RuntimeOverlayMode
  allFamilies : Bool
  low32 : List String
  formatsize : List Int
  deriving DecidableEq

/-- A request with the families that it resolves to. -/
structure RequestSignature where
  inputs : Payload
  packageName : String
  runtimeOverlayMode : RuntimeOverlayMode
  requestMode : String
  requestedPairs : List (Nat × Nat)
  deriving DecidableEq

/-- The migration plan file: the mode and the families of the request, the number of cache
entries, the plan and the imported index. -/
structure MigrateResult where
  requestMode : String
  families : List (Nat × Nat)
  entryCount : Nat
  plan : Payload
  importedIndex : Payload
  deriving DecidableEq

/-- The bindings file. -/
structure Bindings where
  bindingCount : Nat
  body : Payload
  deriving DecidableEq

/-- The progress file, as far as a later run reads it. -/
structure Progress where
  preRequestSignature : PreRequestSignature Payload
  entryCount : Option Nat := none
  requestMode : Option String := none
  requestSignature : Option (RequestSignature Payload) := none
  migrationPlanPayloadSha256 : Option Digest := none
  migrationPlanSummary : Option Payload := none
  importedIndexSummary : Option Payload := none
  deriving DecidableEq

/-- The report file, as far as a later run reads it. The paths it states lie in the output
directory; only the name of the package varies. -/
structure Report where
  artifactContractVersion : Nat
  preRequestSignature : PreRequestSignature Payload
  requestSignature : Option (RequestSignature Payload)
  packageName : String
  counts : ReportCounts
  reusedExisting : Bool
  deriving DecidableEq

/-- The output directory. Packages are kept apart from the files that the tool names itself. -/
structure OutputDir where
  progress : Option (Progress Payload Digest) := none
  migrationPlan : Option (MigrateResult Payload) := none
  loaderManifest : Option (Manifest Payload) := none
  bindings : Option (Bindings Payload) := none
  runtimeLoaderManifest : Option (Manifest Payload) := none
  packageManifest : Option (Manifest Payload) := none
  binary : String → Option Payload := fun _ => none
  review : String → Option Payload := fun _ => none
  summary : Option Payload := none
  report : Option (Report Payload) := none

/-- One change of a file in the output directory. -/
inductive Write where
  | progress (progress : Progress Payload Digest)
  | migrationPlan (plan : MigrateResult Payload)
  | loaderManifest (manifest : Manifest Payload)
  | bindings (bindings : Bindings Payload)
  | unlinkBindings
  | runtimeLoaderManifest (manifest : Manifest Payload)
  | unlinkRuntimeLoaderManifest
  | packageManifest (manifest : Manifest Payload)
  | binary (name : String) (bytes : Payload)
  | review (name : String) (text : Payload)
  | summary (text : Payload)
  | report (report : Report Payload)

/-- The stages of a conversion, as functions of what they read. -/
structure Stages where
  /-- The number of entries in the cache. -/
  entryCount : Payload → Nat
  /-- The request mode and the families of a request. -/
  resolveRequestedPairs : PreRequestSignature Payload → String × List (Nat × Nat)
  buildMigrationPlan : RequestSignature Payload → MigrateResult Payload
  jsonPayloadSha256 : MigrateResult Payload → Digest
  summarizeMigrationPlan : Payload → Payload
  summarizeImportedIndex : Payload → Payload
  /-- The loader manifest of a plan, with the reviews among the inputs applied. -/
  buildCanonicalLoaderManifest : Payload → MigrateResult Payload → Manifest Payload
  resolveRuntimeOverlayPlan : PreRequestSignature Payload → Manifest Payload → Bool
  buildProxyBindings : Payload → MigrateResult Payload → Bindings Payload
  runtimeOverlayPlaceholder : Bindings Payload
  buildLoaderManifest : Bindings Payload → Manifest Payload
  materializePackage : Payload → Manifest Payload → Manifest Payload
  emitBinaryPackage : Payload → Manifest Payload → Payload
  /-- The review files that go with a report. -/
  reviewArtifacts : Report Payload → Option (MigrateResult Payload) → Option (Bindings Payload) →
    List (String × Payload)
  buildMarkdownSummary : Report Payload → Payload

end Files

section Run

variable {Payload Digest : Type}

/-- The directory after one change. -/
def Write.apply (dir : OutputDir Payload Digest) : Write Payload Digest → OutputDir Payload Digest
  | .progress p => { dir with progress := some p }
  | .migrationPlan plan => { dir with migrationPlan := some plan }
  | .loaderManifest m => { dir with loaderManifest := some m }
  | .bindings b => { dir with bindings := some b }
  | .unlinkBindings => { dir with bindings := none }
  | .runtimeLoaderManifest m => { dir with runtimeLoaderManifest := some m }
  | .unlinkRuntimeLoaderManifest => { dir with runtimeLoaderManifest := none }
  | .packageManifest m => { dir with packageManifest := some m }
  | .binary name bytes =>
    { dir with binary := fun other => if other = name then some bytes else dir.binary other }
  | .review name text =>
    { dir with review := fun other => if other = name then some text else dir.review other }
  | .summary text => { dir with summary := some text }
  | .report r => { dir with report := some r }

/-- The request signature of a request with given mode and families. -/
def PreRequestSignature.makeRequestSignature (pre : PreRequestSignature Payload)
    (requestMode : String) (requestedPairs : List (Nat × Nat)) : RequestSignature Payload where
  inputs := pre.inputs
  packageName := pre.packageName
  runtimeOverlayMode := pre.runtimeOverlayMode
  requestMode := requestMode
  requestedPairs := requestedPairs

def Stages.requestSignature (stages : Stages Payload Digest) (pre : PreRequestSignature Payload) :
    RequestSignature Payload :=
  pre.makeRequestSignature (stages.resolveRequestedPairs pre).1 (stages.resolveRequestedPairs pre).2

def firstNonempty : List String → String
  | [] => ""
  | text :: texts => if text.isEmpty then firstNonempty texts else text

def Progress.resumedRequestMode (progress : Progress Payload Digest) (plan : MigrateResult Payload) :
    String :=
  firstNonempty [progress.requestMode.getD "", plan.requestMode, "bundle-or-low32"]

variable [DecidableEq Payload]

/-- The conditions on a report that do not concern its signature. -/
def OutputDir.reusable (dir : OutputDir Payload Digest) (report : Report Payload) : Bool :=
  0 < report.artifactContractVersion ∧
    report.artifactContractVersion ≤ hts2phrbArtifactVersion ∧
    reusableReportArtifactsAreConsistent report.counts dir.loaderManifest dir.packageManifest ∧
    dir.summary.isSome ∧ (dir.binary report.packageName).isSome

def OutputDir.tryLoadReusableReportFromPreSignature (dir : OutputDir Payload Digest)
    (pre : PreRequestSignature Payload) : Option (Report Payload) :=
  dir.report.filter fun report => report.preRequestSignature = pre && dir.reusable report

def OutputDir.tryLoadReusableReport (dir : OutputDir Payload Digest)
    (signature : RequestSignature Payload) : Option (Report Payload) :=
  dir.report.filter fun report => report.requestSignature = some signature && dir.reusable report

/-- The counts of a report follow the package manifest when there is one. -/
def Report.synchronize (report : Report Payload) (packageManifest : Option (Manifest Payload)) :
    Report Payload :=
  match packageManifest with
  | some manifest =>
    { report with
      artifactContractVersion := hts2phrbArtifactVersion
      counts := manifest.summary.reportCounts }
  | none => { report with artifactContractVersion := hts2phrbArtifactVersion }

variable [DecidableEq Digest]

/-- The tests by which the progress file vouches for the migration plan file. -/
def Stages.vouches (stages : Stages Payload Digest) (pre : PreRequestSignature Payload)
    (progress : Progress Payload Digest) (plan : MigrateResult Payload) : Bool :=
  progress.migrationPlanPayloadSha256 = some (stages.jsonPayloadSha256 plan) ∧
    progress.requestSignature.all
      (· = pre.makeRequestSignature (progress.resumedRequestMode plan) plan.families) ∧
    progress.migrationPlanSummary.all (· = stages.summarizeMigrationPlan plan.plan) ∧
    progress.importedIndexSummary.all (· = stages.summarizeImportedIndex plan.importedIndex) ∧
    progress.entryCount.all (· = plan.entryCount)

/-- The progress and the migration plan from which a run resumes. -/
def OutputDir.tryResume (dir : OutputDir Payload Digest) (stages : Stages Payload Digest)
    (pre : PreRequestSignature Payload) :
    Option (Progress Payload Digest × MigrateResult Payload) :=
  match dir.progress, dir.migrationPlan with
  | some progress, some plan =>
    if progress.preRequestSignature = pre ∧ stages.vouches pre progress plan then
      some (progress, plan)
    else none
  | _, _ => none

def PreRequestSignature.initialProgress (pre : PreRequestSignature Payload) :
    Progress Payload Digest :=
  { preRequestSignature := pre }

/-- The progress with the plan, its digest and its summaries. -/
def Stages.planProgress (stages : Stages Payload Digest) (progress : Progress Payload Digest)
    (plan : MigrateResult Payload) : Progress Payload Digest :=
  { progress with
    migrationPlanPayloadSha256 := some (stages.jsonPayloadSha256 plan)
    migrationPlanSummary := some (stages.summarizeMigrationPlan plan.plan)
    importedIndexSummary := some (stages.summarizeImportedIndex plan.importedIndex) }

/-- What a run has determined before it looks for a report of its families. -/
structure Resolution (Payload Digest : Type) where
  writes : List (Write Payload Digest)
  progress : Progress Payload Digest
  requestSignature : RequestSignature Payload
  /-- The migration plan when the run resumes from it. -/
  resumed : Option (MigrateResult Payload)

/-- The part of a run that resumes from a migration plan or resolves the request. -/
def Stages.resolve (stages : Stages Payload Digest) (pre : PreRequestSignature Payload)
    (resumable : Option (Progress Payload Digest × MigrateResult Payload)) :
    Resolution Payload Digest :=
  let initial : Progress Payload Digest := pre.initialProgress
  match resumable with
  | some (progress, plan) =>
    let requestMode := progress.resumedRequestMode plan
    let signature := progress.requestSignature.getD
      (pre.makeRequestSignature requestMode plan.families)
    let resumed := stages.planProgress
      { initial with
        entryCount := some plan.entryCount
        requestMode := some requestMode
        requestSignature := some signature } plan
    { writes := [.progress initial, .progress resumed]
      progress := resumed
      requestSignature := signature
      resumed := some plan }
  | none =>
    let parsed := { initial with entryCount := some (stages.entryCount pre.inputs) }
    let paired := { parsed with requestMode := some (stages.resolveRequestedPairs pre).1 }
    let signature := stages.requestSignature pre
    let signed := { paired with requestSignature := some signature }
    { writes := [.progress initial, .progress parsed, .progress paired, .progress signed]
      progress := signed
      requestSignature := signature
      resumed := none }

/-- The files that go with a report, and the report itself. -/
def Stages.reportWrites (stages : Stages Payload Digest) (report : Report Payload)
    (plan : Option (MigrateResult Payload)) (bindings : Option (Bindings Payload)) :
    List (Write Payload Digest) :=
  (stages.reviewArtifacts report plan bindings).map (fun file => .review file.1 file.2) ++
    [.summary (stages.buildMarkdownSummary report), .report report]

/-- A run that returns the report of an earlier one. -/
def Stages.reuseReport (stages : Stages Payload Digest) (dir : OutputDir Payload Digest)
    (report : Report Payload) (progress : Progress Payload Digest) :
    List (Write Payload Digest) × Report Payload :=
  let report := { report with reusedExisting := true }.synchronize dir.packageManifest
  (stages.reportWrites report dir.migrationPlan dir.bindings ++ [.progress progress], report)

def progressCallbacks (recordTotal : Nat) : Nat := (recordTotal + 249) / 250

/-- The migration plan of a run, and its files when the run does not resume from it. -/
def Stages.planStage (stages : Stages Payload Digest) (resolution : Resolution Payload Digest) :
    MigrateResult Payload × List (Write Payload Digest) :=
  match resolution.resumed with
  | some plan => (plan, [])
  | none =>
    let plan := stages.buildMigrationPlan resolution.requestSignature
    (plan, [.progress (stages.planProgress resolution.progress plan), .migrationPlan plan])

/-- The loader manifest of a run: a resumed run takes over the one that it finds. -/
def Stages.loaderStage (stages : Stages Payload Digest) (pre : PreRequestSignature Payload)
    (plan : MigrateResult Payload) (existing : Option (Manifest Payload)) :
    Manifest Payload × List (Write Payload Digest) :=
  match existing with
  | some manifest => (manifest, [])
  | none =>
    let manifest := stages.buildCanonicalLoaderManifest pre.inputs plan
    (manifest, [.loaderManifest manifest])

/-- The bindings of a run and the runtime overlay files; a resumed run takes over what it finds. -/
def Stages.overlayStage (stages : Stages Payload Digest) (pre : PreRequestSignature Payload)
    (plan : MigrateResult Payload) (loader : Manifest Payload)
    (existingBindings : Option (Bindings Payload))
    (existingRuntimeLoader : Option (Manifest Payload)) (progress : Progress Payload Digest) :
    Bindings Payload × List (Write Payload Digest) :=
  let planned := stages.resolveRuntimeOverlayPlan pre loader
  let bindings :=
    if planned then existingBindings.getD (stages.buildProxyBindings pre.inputs plan)
    else stages.runtimeOverlayPlaceholder
  if planned && !(pre.runtimeOverlayMode = .auto && bindings.bindingCount = 0) then
    let runtimeLoader := existingRuntimeLoader.getD (stages.buildLoaderManifest bindings)
    (bindings, [.bindings bindings, .progress progress, .runtimeLoaderManifest runtimeLoader,
      .progress progress])
  else
    (bindings, [.unlinkBindings, .progress progress, .unlinkRuntimeLoaderManifest,
      .progress progress])

/-- The package files; the package stage writes its manifest, and the run writes it again. -/
def Stages.packageStage (stages : Stages Payload Digest) (pre : PreRequestSignature Payload)
    (loader : Manifest Payload) (progress : Progress Payload Digest) :
    Manifest Payload × List (Write Payload Digest) :=
  let package := stages.materializePackage pre.inputs loader
  let bytes := stages.emitBinaryPackage pre.inputs package
  (package,
    List.replicate (progressCallbacks loader.records.length) (.progress progress) ++
      [.packageManifest package, .progress progress, .packageManifest package,
        .binary pre.packageName bytes, .progress progress])

/-- The report of a run that built its package. -/
def PreRequestSignature.freshReport (pre : PreRequestSignature Payload)
    (signature : RequestSignature Payload) (package : Manifest Payload) : Report Payload :=
  Report.synchronize
    { artifactContractVersion := hts2phrbArtifactVersion
      preRequestSignature := pre
      requestSignature := some signature
      packageName := pre.packageName
      counts := package.summary.reportCounts
      reusedExisting := false } (some package)

/-- The part of a run that builds the package. -/
def Stages.buildPackage (stages : Stages Payload Digest) (pre : PreRequestSignature Payload)
    (dir : OutputDir Payload Digest) (resolution : Resolution Payload Digest) :
    List (Write Payload Digest) × Report Payload :=
  let found : OutputDir Payload Digest := if resolution.resumed.isSome then dir else {}
  let plan := stages.planStage resolution
  let progress := stages.planProgress resolution.progress plan.1
  let loader := stages.loaderStage pre plan.1 found.loaderManifest
  let overlay := stages.overlayStage pre plan.1 loader.1 found.bindings found.runtimeLoaderManifest
    progress
  let package := stages.packageStage pre loader.1 progress
  let report := pre.freshReport resolution.requestSignature package.1
  (plan.2 ++ loader.2 ++ .progress progress :: overlay.2 ++ package.2 ++
    stages.reportWrites report (some plan.1) (some overlay.1) ++ [.progress progress], report)

/-- One run: all its writes in order, and the report that it returns when none is missing. -/
def Stages.buildConversion (stages : Stages Payload Digest) (pre : PreRequestSignature Payload)
    (reuseExisting : Bool) (dir : OutputDir Payload Digest) :
    List (Write Payload Digest) × Report Payload :=
  match if reuseExisting then dir.tryLoadReusableReportFromPreSignature pre else none with
  | some report =>
    stages.reuseReport dir { report with preRequestSignature := pre } pre.initialProgress
  | none =>
    let resolution := stages.resolve pre (if reuseExisting then dir.tryResume stages pre else none)
    match if reuseExisting then dir.tryLoadReusableReport resolution.requestSignature else none with
    | some report =>
      let reused := stages.reuseReport dir
        { report with
          requestSignature := some resolution.requestSignature
          preRequestSignature := pre } resolution.progress
      (resolution.writes ++ reused.1, reused.2)
    | none =>
      let built := stages.buildPackage pre dir resolution
      (resolution.writes ++ built.1, built.2)

end Run

end ParallelN64.Conversion
