import Mathlib.Data.List.Dedup
import Mathlib.Data.List.Sort
import Mathlib.Data.String.Basic

/-!
# Runtime manifests and their summaries

The loader manifest and the package manifest carry the same summary of their
records. A prior conversion is taken for consistent when the two summaries agree
with each other, with the records and with the report.
-/

namespace ParallelN64.Conversion

/-- A manifest record, as far as the summaries read it. -/
structure RuntimeRecord where
  recordKind : Option String
  runtimeReady : Bool
  deriving DecidableEq, Repr

def RuntimeRecord.kind (record : RuntimeRecord) : String := record.recordKind.getD "unknown"

/-- The summary fields of a manifest; the kind counts are sorted by kind. -/
structure RuntimeSummary where
  recordCount : Nat
  runtimeReadyRecordCount : Nat
  runtimeDeferredRecordCount : Nat
  runtimeReadyRecordKindCounts : List (String × Nat)
  runtimeDeferredRecordKindCounts : List (String × Nat)
  runtimeReadyNativeSampledRecordCount : Nat
  runtimeReadyCompatRecordCount : Nat
  runtimeDeferredNativeSampledRecordCount : Nat
  runtimeDeferredCompatRecordCount : Nat
  runtimeReadyRecordClass : String
  runtimeDeferredRecordClass : String
  deriving DecidableEq, Repr

/-- The class of a set of records by how many are native sampled and how many are not. -/
def classifyRuntimeRecordClass (nativeCount compatCount : Nat) : String :=
  if nativeCount > 0 ∧ compatCount = 0 then "native-sampled-only"
  else if nativeCount = 0 ∧ compatCount > 0 then "compat-only"
  else if nativeCount > 0 ∧ compatCount > 0 then "mixed-native-and-compat"
  else "none"

def kindCounts (records : List RuntimeRecord) : List (String × Nat) :=
  ((records.map RuntimeRecord.kind).dedup.insertionSort (· ≤ ·)).map fun kind =>
    (kind, records.countP fun record => record.kind = kind)

def nativeSampledCount (records : List RuntimeRecord) : Nat :=
  records.countP fun record => record.kind = "canonical-sampled"

/-- The summary of the records of a manifest. -/
def summarizeRuntimeRecords (records : List RuntimeRecord) : RuntimeSummary :=
  let ready := records.filter RuntimeRecord.runtimeReady
  let deferred := records.filter fun record => !record.runtimeReady
  { recordCount := records.length
    runtimeReadyRecordCount := ready.length
    runtimeDeferredRecordCount := deferred.length
    runtimeReadyRecordKindCounts := kindCounts ready
    runtimeDeferredRecordKindCounts := kindCounts deferred
    runtimeReadyNativeSampledRecordCount := nativeSampledCount ready
    runtimeReadyCompatRecordCount := ready.length - nativeSampledCount ready
    runtimeDeferredNativeSampledRecordCount := nativeSampledCount deferred
    runtimeDeferredCompatRecordCount := deferred.length - nativeSampledCount deferred
    runtimeReadyRecordClass :=
      classifyRuntimeRecordClass (nativeSampledCount ready)
        (ready.length - nativeSampledCount ready)
    runtimeDeferredRecordClass :=
      classifyRuntimeRecordClass (nativeSampledCount deferred)
        (deferred.length - nativeSampledCount deferred) }

/-- A manifest: the summary it states, its records, and everything else it holds. -/
structure Manifest (Payload : Type) where
  summary : RuntimeSummary
  records : List RuntimeRecord
  body : Payload
  deriving DecidableEq

/-- The statistics of a manifest: what it states next to what its records amount to. -/
structure RuntimeStats where
  stated : RuntimeSummary
  runtimeReadyRecordsFromEntries : Nat
  runtimeDeferredRecordsFromEntries : Nat
  runtimeReadyRecordKindCountsFromEntries : List (String × Nat)
  runtimeDeferredRecordKindCountsFromEntries : List (String × Nat)

/-- Every manifest that the tool writes states its whole summary, so that no default applies. -/
def Manifest.normalizeRuntimeManifestSummary {Payload : Type} (manifest : Manifest Payload) :
    RuntimeStats :=
  let ready := manifest.records.filter RuntimeRecord.runtimeReady
  let deferred := manifest.records.filter fun record => !record.runtimeReady
  { stated := manifest.summary
    runtimeReadyRecordsFromEntries := ready.length
    runtimeDeferredRecordsFromEntries := manifest.summary.recordCount - ready.length
    runtimeReadyRecordKindCountsFromEntries := kindCounts ready
    runtimeDeferredRecordKindCountsFromEntries := kindCounts deferred }

/-- The stated counts add up, match the records by kind and have the stated classes. -/
def RuntimeStats.areSelfConsistent (stats : RuntimeStats) : Bool :=
  stats.stated.runtimeReadyRecordCount + stats.stated.runtimeDeferredRecordCount =
      stats.stated.recordCount ∧
    stats.stated.runtimeReadyRecordKindCounts = stats.runtimeReadyRecordKindCountsFromEntries ∧
    stats.stated.runtimeDeferredRecordKindCounts =
      stats.runtimeDeferredRecordKindCountsFromEntries ∧
    stats.stated.runtimeReadyNativeSampledRecordCount +
        stats.stated.runtimeReadyCompatRecordCount = stats.stated.runtimeReadyRecordCount ∧
    stats.stated.runtimeDeferredNativeSampledRecordCount +
        stats.stated.runtimeDeferredCompatRecordCount = stats.stated.runtimeDeferredRecordCount ∧
    stats.stated.runtimeReadyRecordClass =
      classifyRuntimeRecordClass stats.stated.runtimeReadyNativeSampledRecordCount
        stats.stated.runtimeReadyCompatRecordCount ∧
    stats.stated.runtimeDeferredRecordClass =
      classifyRuntimeRecordClass stats.stated.runtimeDeferredNativeSampledRecordCount
        stats.stated.runtimeDeferredCompatRecordCount

def RuntimeStats.matchEntries (stats : RuntimeStats) : Bool :=
  stats.stated.runtimeReadyRecordCount = stats.runtimeReadyRecordsFromEntries ∧
    stats.stated.runtimeDeferredRecordCount = stats.runtimeDeferredRecordsFromEntries

/-- The counts and classes of the package manifest that a report states. -/
structure ReportCounts where
  runtimeReadyRecordCount : Nat
  runtimeDeferredRecordCount : Nat
  runtimeReadyNativeSampledRecordCount : Nat
  runtimeReadyCompatRecordCount : Nat
  runtimeDeferredNativeSampledRecordCount : Nat
  runtimeDeferredCompatRecordCount : Nat
  runtimeReadyRecordClass : String
  runtimeDeferredRecordClass : String
  deriving DecidableEq, Repr

/-- What a report states about a summary; it classifies the counts itself. -/
def RuntimeSummary.reportCounts (summary : RuntimeSummary) : ReportCounts where
  runtimeReadyRecordCount := summary.runtimeReadyRecordCount
  runtimeDeferredRecordCount := summary.runtimeDeferredRecordCount
  runtimeReadyNativeSampledRecordCount := summary.runtimeReadyNativeSampledRecordCount
  runtimeReadyCompatRecordCount := summary.runtimeReadyCompatRecordCount
  runtimeDeferredNativeSampledRecordCount := summary.runtimeDeferredNativeSampledRecordCount
  runtimeDeferredCompatRecordCount := summary.runtimeDeferredCompatRecordCount
  runtimeReadyRecordClass :=
    classifyRuntimeRecordClass summary.runtimeReadyNativeSampledRecordCount
      summary.runtimeReadyCompatRecordCount
  runtimeDeferredRecordClass :=
    classifyRuntimeRecordClass summary.runtimeDeferredNativeSampledRecordCount
      summary.runtimeDeferredCompatRecordCount

/-- The counts of a report are those that a summary states. -/
def ReportCounts.matches (counts : ReportCounts) (summary : RuntimeSummary) : Bool :=
  counts.runtimeReadyRecordCount = summary.runtimeReadyRecordCount ∧
    counts.runtimeDeferredRecordCount = summary.runtimeDeferredRecordCount ∧
    counts.runtimeReadyNativeSampledRecordCount = summary.runtimeReadyNativeSampledRecordCount ∧
    counts.runtimeReadyCompatRecordCount = summary.runtimeReadyCompatRecordCount ∧
    counts.runtimeDeferredNativeSampledRecordCount =
      summary.runtimeDeferredNativeSampledRecordCount ∧
    counts.runtimeDeferredCompatRecordCount = summary.runtimeDeferredCompatRecordCount ∧
    counts.runtimeReadyRecordClass = summary.runtimeReadyRecordClass ∧
    counts.runtimeDeferredRecordClass = summary.runtimeDeferredRecordClass

/-- The consistency test of a prior conversion: it compares what the two manifests and the report
count, and nothing else. -/
def reusableReportArtifactsAreConsistent {Payload : Type} (counts : ReportCounts)
    (loaderManifest packageManifest : Option (Manifest Payload)) : Bool :=
  match loaderManifest, packageManifest with
  | some loader, some package =>
    let loaderStats := loader.normalizeRuntimeManifestSummary
    let packageStats := package.normalizeRuntimeManifestSummary
    packageStats.matchEntries && packageStats.areSelfConsistent && loaderStats.matchEntries &&
      loaderStats.areSelfConsistent && packageStats.stated = loaderStats.stated &&
      counts.matches packageStats.stated
  | _, _ => false

end ParallelN64.Conversion
