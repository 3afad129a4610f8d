import Mathlib.Data.Char
import ParallelN64.Phrb.Emit

/-!
# Applying duplicate reviews to a loader manifest

A duplicate review names a record, a selector, the replacement that stays active and the
replacements that compete with it. The record is looked up twice in the tools, here through a
dictionary and when a review is classified by a scan; the module says for which manifests and
reviews the removal keeps the winner and both lookups find the same record.
-/

namespace ParallelN64.Review

open ParallelN64.Core Phrb

theorem find?_reverse_eq_find?_iff {α : Type} {p : α → Bool} {l : List α} (h : l.Nodup) :
    l.reverse.find? p = l.find? p ↔ (l.filter p).length ≤ 1 := by
  rw [← List.head?_filter, ← List.head?_filter, List.filter_reverse, List.head?_reverse]
  have hnodup := h.filter p
  generalize l.filter p = matched at hnodup
  cases matched with
  | nil => simp
  | cons first rest =>
    cases hrest : rest.getLast? with
    | none =>
      rw [List.getLast?_eq_none_iff] at hrest
      simp [hrest]
    | some last =>
      have hmem : last ∈ rest := List.mem_of_getLast? hrest
      have hne : last ≠ first := by
        rintro rfl
        exact (List.nodup_cons.mp hnodup).1 hmem
      rw [List.getLast?_cons, hrest]
      simpa [hne] using List.ne_nil_of_mem hmem

theorem nodup_zipIdx {α : Type} (l : List α) : l.zipIdx.Nodup := by
  apply List.Nodup.of_map Prod.snd
  rw [List.zipIdx_map_snd]
  exact List.nodup_range'

theorem length_filter_zipIdx {α : Type} (l : List α) (p : α → Bool) :
    (l.zipIdx.filter fun x => p x.1).length = (l.filter p).length := by
  conv_rhs => rw [← List.zipIdx_map_fst 0 l, List.filter_map, List.length_map]
  rfl

def textOrEmpty (value : Scalar) : Text := (value.orElse (.str [])).toText

/-- A loader manifest. -/
structure LoaderManifest where
  records : List ManifestRecord
  recordCount : Scalar
  deriving DecidableEq, Repr

/-- A duplicate review document; the policy and the active replacement are those of its
bucket. -/
structure DuplicateReview where
  recommendation : Scalar
  sampledLow32 : Scalar
  policy : Scalar
  selector : Scalar
  activeReplacementId : Scalar
  uniqueSelectorReplacementIds : List Text
  deriving DecidableEq, Repr

/-- How a record was found. -/
inductive RecordResolution where
  | policyKeyExact
  | sampledLow32Unique
  | recordNotInScope
  deriving DecidableEq, Repr

/-- The exits of the review tools, with the values their messages print. -/
inductive ReviewExit where
  | unsupportedRecommendation (recommendation : Scalar)
  | recordNotFound (sampledLow32 policyKey : Text)
  | multipleRecords (sampledLow32 policyKey : Text) (candidates : List Text)
  | removedNoCandidates (sampledLow32 selector : Text)
  deriving DecidableEq, Repr

/-- A removed candidate as a change reports it. -/
structure RemovedCandidate where
  replacementId : Text
  selectorChecksum64 : Text
  legacyTextureCrc : Text
  variantGroupId : Text
  deriving DecidableEq, Repr

/-- What one review changed. -/
structure Change where
  sampledLow32 : Text
  policyKey : Text
  resolvedPolicyKey : Text
  recordResolution : RecordResolution
  selector : Text
  selectorFallback : Bool
  activeReplacementId : Text
  removedCandidates : List RemovedCandidate
  keptCandidateCount : Nat
  deriving DecidableEq, Repr

def keepRuntimeWinner : Scalar :=
  .str "keep-runtime-winner-rule-and-defer-offline-dedupe".toList

def zeroSelector : Text := List.replicate 16 '0'

section Dedupe

-- Lower-casing of a text; the results hold for any.
variable (lower : Text → Text)

def recordLow32 (record : ManifestRecord) : Text :=
  lower (textOrEmpty record.canonicalIdentity.sampledLow32)

def recordKey (record : ManifestRecord) : Text × Text := (recordLow32 lower record, record.policyKey)

def recordByKey (records : List ManifestRecord) (key : Text × Text) : Option Nat :=
  (records.zipIdx.reverse.find? fun r => recordKey lower r.1 == key).map (·.2)

def sampledMatches (records : List ManifestRecord) (sampledLow32 : Text) :
    List (ManifestRecord × Nat) :=
  records.zipIdx.filter fun r => recordLow32 lower r.1 == sampledLow32

def matchedPolicyKeys (records : List (ManifestRecord × Nat)) : List Text :=
  (records.map (·.1.policyKey)).mergeSort fun a b => decide (a ≤ b)

/-- The record of a review through the dictionary, or else the only one of its sampled
checksum. -/
def resolveRecordForReview (records : List ManifestRecord) (byKey : Text × Text → Option Nat)
    (sampledLow32 policyKey : Text) : Except ReviewExit (Nat × RecordResolution) :=
  match byKey (sampledLow32, policyKey) with
  | some index => .ok (index, .policyKeyExact)
  | none =>
    match sampledMatches lower records sampledLow32 with
    | [] => .error (.recordNotFound sampledLow32 policyKey)
    | [record] => .ok (record.2, .sampledLow32Unique)
    | matched => .error (.multipleRecords sampledLow32 policyKey (matchedPolicyKeys matched))

/-- The record of a review by scanning for its key, or else the only one of its sampled
checksum. -/
def resolveManifestReviewRecord (manifest : LoaderManifest) (sampledLow32 policyKey : Scalar) :
    Except ReviewExit (Option Nat × RecordResolution) :=
  let normalizedLow32 := lower (textOrEmpty sampledLow32)
  let normalizedPolicyKey := textOrEmpty policyKey
  let exactRecord := manifest.records.zipIdx.find? fun r =>
    recordKey lower r.1 == (normalizedLow32, normalizedPolicyKey)
  match exactRecord with
  | some record => .ok (some record.2, .policyKeyExact)
  | none =>
    match sampledMatches lower manifest.records normalizedLow32 with
    | [] => .ok (none, .recordNotInScope)
    | [record] => .ok (some record.2, .sampledLow32Unique)
    | matched =>
      .error (.multipleRecords normalizedLow32 normalizedPolicyKey (matchedPolicyKeys matched))

def candidateSelector (candidate : AssetCandidate) : Text :=
  lower (textOrEmpty candidate.selectorChecksum64)

def loses (review : DuplicateReview) (candidate : AssetCandidate) : Bool :=
  review.uniqueSelectorReplacementIds.contains candidate.replacementId &&
    candidate.replacementId != textOrEmpty review.activeReplacementId

def reviewSelector (review : DuplicateReview) : Text := lower (textOrEmpty review.selector)

def allZero (candidates : List AssetCandidate) : Bool :=
  !candidates.isEmpty && candidates.all fun c =>
    lower (c.selectorChecksum64.orElse (.str zeroSelector)).toText == zeroSelector

def removedCandidate (candidate : AssetCandidate) : RemovedCandidate where
  replacementId := candidate.replacementId
  selectorChecksum64 := candidateSelector lower candidate
  legacyTextureCrc := candidate.legacyTextureCrc
  variantGroupId := candidate.variantGroupId

/-- The kept and the removed candidates of a record, and whether the selectors were
ignored. -/
def dedupeCandidates (review : DuplicateReview) (candidates : List AssetCandidate) :
    List AssetCandidate × List AssetCandidate × Bool :=
  let exact := fun c => candidateSelector lower c == reviewSelector lower review && loses review c
  let removed := candidates.filter exact
  if removed.isEmpty && reviewSelector lower review != zeroSelector && allZero lower candidates then
    (candidates.filter fun c => !loses review c, candidates.filter (loses review), true)
  else (candidates.filter fun c => !exact c, removed, false)

/-- Apply one review; an exit leaves the records as they are. -/
def applyReview (byKey : Text × Text → Option Nat) (records : List ManifestRecord)
    (review : DuplicateReview) : Except ReviewExit (List ManifestRecord × Change) :=
  if review.recommendation ≠ keepRuntimeWinner then
    .error (.unsupportedRecommendation review.recommendation)
  else do
    let sampledLow32 := lower (textOrEmpty review.sampledLow32)
    let policyKey := textOrEmpty review.policy
    let selector := reviewSelector lower review
    let (index, recordResolution) ←
      resolveRecordForReview lower records byKey sampledLow32 policyKey
    match records[index]? with
    -- a lookup gives a place of the list, so this case does not arise
    | none => .error (.recordNotFound sampledLow32 policyKey)
    | some record =>
      let (kept, removed, selectorFallback) :=
        dedupeCandidates lower review record.assetCandidates
      if removed.isEmpty then .error (.removedNoCandidates sampledLow32 selector)
      else
        let updated := { record with
          assetCandidates := kept
          assetCandidateCount := .int kept.length }
        .ok (records.set index updated,
          { sampledLow32
            policyKey
            resolvedPolicyKey := record.policyKey
            recordResolution
            selector
            selectorFallback
            activeReplacementId := textOrEmpty review.activeReplacementId
            removedCandidates := removed.map (removedCandidate lower)
            keptCandidateCount := kept.length })

/-- Apply reviews one after the other; an exit leaves what the earlier ones did. -/
def applyReviews (byKey : Text × Text → Option Nat) :
    List ManifestRecord → List DuplicateReview →
      List ManifestRecord × Except ReviewExit (List Change)
  | records, [] => (records, .ok [])
  | records, review :: reviews =>
    match applyReview lower byKey records review with
    | .error exit => (records, .error exit)
    | .ok (records, change) =>
      let (records, changes) := applyReviews byKey records reviews
      (records, changes.map (change :: ·))

/-- The manifest after the reviews, changed in place, and the changes or the exit. -/
def dedupeLoaderManifest (manifest : LoaderManifest) (reviews : List DuplicateReview) :
    LoaderManifest × Except ReviewExit (List Change) :=
  match applyReviews lower (recordByKey lower manifest.records) manifest.records reviews with
  | (records, .error exit) => ({ manifest with records }, .error exit)
  | (records, .ok changes) => ({ records, recordCount := .int records.length }, .ok changes)

/-- The candidate is one the review is about: it has the reviewed selector, or all selectors
of its record are zero. -/
def concerned (review : DuplicateReview) (candidates : List AssetCandidate)
    (candidate : AssetCandidate) : Bool :=
  candidateSelector lower candidate == reviewSelector lower review || allZero lower candidates

def active (review : DuplicateReview) (candidate : AssetCandidate) : Bool :=
  candidate.replacementId == textOrEmpty review.activeReplacementId

/-- The record that a review resolves to. -/
def Resolves (manifest : LoaderManifest) (review : DuplicateReview) (index : Nat)
    (resolution : RecordResolution) (record : ManifestRecord) : Prop :=
  resolveRecordForReview lower manifest.records (recordByKey lower manifest.records)
      (lower (textOrEmpty review.sampledLow32)) (textOrEmpty review.policy) =
    .ok (index, resolution) ∧ manifest.records[index]? = some record

/-- The record after a review: exactly the losing candidates that the review is about are
gone, an active one remains, and the count is that of the candidates. -/
structure Deduped (review : DuplicateReview) (record record' : ManifestRecord) : Prop where
  candidates : record'.assetCandidates = record.assetCandidates.filter fun c =>
    !(concerned lower review record.assetCandidates c && loses review c)
  count : record'.assetCandidateCount = .int record'.assetCandidates.length
  winner : ∃ c ∈ record'.assetCandidates,
    active review c = true ∧ concerned lower review record.assetCandidates c = true
  others : record' = { record with
    assetCandidates := record'.assetCandidates
    assetCandidateCount := record'.assetCandidateCount }

/-- A review keeps the winner. -/
def KeepsWinner (manifest : LoaderManifest) (review : DuplicateReview) : Prop :=
  match dedupeLoaderManifest lower manifest [review] with
  | (manifest', .error _) => manifest' = manifest
  | (manifest', .ok _) =>
    ∃ index resolution record record', Resolves lower manifest review index resolution record ∧
      resolveManifestReviewRecord lower manifest review.sampledLow32 review.policy =
        .ok (some index, resolution) ∧
      manifest'.records = manifest.records.set index record' ∧
      Deduped lower review record record'

/-- The candidate is removed: it loses and has the reviewed selector, or the selectors of its
record were flattened. -/
def removable (review : DuplicateReview) (candidates : List AssetCandidate)
    (candidate : AssetCandidate) : Bool :=
  loses review candidate &&
    (candidateSelector lower candidate == reviewSelector lower review ||
      reviewSelector lower review != zeroSelector && allZero lower candidates)

/-- The review fits the resolved record. -/
structure Fits (manifest : LoaderManifest) (review : DuplicateReview) (record : ManifestRecord) :
    Prop where
  winner : ∃ c ∈ record.assetCandidates,
    active review c = true ∧ concerned lower review record.assetCandidates c = true
  unique : (manifest.records.filter fun r => recordKey lower r ==
    (lower (textOrEmpty review.sampledLow32), textOrEmpty review.policy)).length ≤ 1
  flattened : allZero lower record.assetCandidates = true →
    (∀ c ∈ record.assetCandidates, loses review c = true →
      candidateSelector lower c = reviewSelector lower review) ∨
    ∀ c ∈ record.assetCandidates, loses review c = true →
      candidateSelector lower c ≠ reviewSelector lower review

variable {lower}
variable {manifest : LoaderManifest} {review : DuplicateReview}

theorem recordByKey_eq_some {records : List ManifestRecord} {key : Text × Text} {index : Nat}
    (h : recordByKey lower records key = some index) :
    ∃ record, records[index]? = some record ∧ recordKey lower record = key := by
  obtain ⟨⟨record, i⟩, hfind, rfl⟩ := Option.map_eq_some_iff.mp h
  have hmem := List.mem_reverse.mp (List.mem_of_find?_eq_some hfind)
  have hkey : (recordKey lower record == key) = true := by
    have hmatch := List.find?_some hfind
    exact hmatch
  exact ⟨record, List.mem_zipIdx_iff_getElem?.mp hmem, eq_of_beq hkey⟩

variable {resolution : RecordResolution}

theorem exists_resolved {index : Nat}
    (h : resolveRecordForReview lower manifest.records (recordByKey lower manifest.records)
      (lower (textOrEmpty review.sampledLow32)) (textOrEmpty review.policy) =
        .ok (index, resolution)) :
    ∃ record, Resolves lower manifest review index resolution record := by
  have hresolve := h
  unfold resolveRecordForReview at h
  cases hkey : recordByKey lower manifest.records
      (lower (textOrEmpty review.sampledLow32), textOrEmpty review.policy) with
  | some i =>
    rw [hkey] at h
    obtain ⟨record, hrecord, _⟩ := recordByKey_eq_some hkey
    injection h with h
    rw [Prod.mk.injEq] at h
    obtain ⟨rfl, rfl⟩ := h
    exact ⟨record, hresolve, hrecord⟩
  | none =>
    rw [hkey] at h
    cases hmatch : sampledMatches lower manifest.records
        (lower (textOrEmpty review.sampledLow32)) with
    | nil =>
      rw [hmatch] at h
      cases h
    | cons first rest =>
      rw [hmatch] at h
      cases rest with
      | cons second rest => cases h
      | nil =>
        injection h with h
        rw [Prod.mk.injEq] at h
        obtain ⟨rfl, rfl⟩ := h
        have hmem : first ∈ sampledMatches lower manifest.records
            (lower (textOrEmpty review.sampledLow32)) := by
          rw [hmatch]
          exact List.mem_singleton_self first
        exact ⟨first.1, hresolve,
          List.mem_zipIdx_iff_getElem?.mp (List.mem_filter.mp hmem).1⟩

theorem resolveManifestReviewRecord_eq_iff {index : Nat}
    (h : resolveRecordForReview lower manifest.records (recordByKey lower manifest.records)
      (lower (textOrEmpty review.sampledLow32)) (textOrEmpty review.policy) =
        .ok (index, resolution)) :
    resolveManifestReviewRecord lower manifest review.sampledLow32 review.policy =
        .ok (some index, resolution) ↔
      (manifest.records.filter fun r => recordKey lower r ==
        (lower (textOrEmpty review.sampledLow32), textOrEmpty review.policy)).length ≤ 1 := by
  unfold resolveRecordForReview recordByKey at h
  unfold resolveManifestReviewRecord
  dsimp only
  rw [← length_filter_zipIdx]
  have hnodup : manifest.records.zipIdx.Nodup := nodup_zipIdx manifest.records
  rw [← find?_reverse_eq_find?_iff hnodup]
  generalize (lower (textOrEmpty review.sampledLow32), textOrEmpty review.policy) = key at h ⊢
  cases hlast : manifest.records.zipIdx.reverse.find? (fun r => recordKey lower r.1 == key) with
  | none =>
    have hfirst : manifest.records.zipIdx.find? (fun r => recordKey lower r.1 == key) = none := by
      rw [List.find?_eq_none] at hlast ⊢
      exact fun r hr => hlast r (List.mem_reverse.mpr hr)
    rw [hlast] at h
    rw [hfirst]
    refine iff_of_true ?_ rfl
    dsimp only [Option.map_none] at h ⊢
    -- both lookups fall back to the records of the sampled checksum
    cases hmatch : sampledMatches lower manifest.records
        (lower (textOrEmpty review.sampledLow32)) with
    | nil =>
      rw [hmatch] at h
      cases h
    | cons only rest =>
      rw [hmatch] at h
      cases rest with
      | cons second rest => cases h
      | nil =>
        injection h with h
        rw [Prod.mk.injEq] at h
        obtain ⟨rfl, rfl⟩ := h
        rfl
  | some last =>
    rw [hlast] at h
    injection h with h
    rw [Prod.mk.injEq] at h
    obtain ⟨rfl, rfl⟩ := h
    have hmem := List.mem_reverse.mp (List.mem_of_find?_eq_some hlast)
    cases hfirst : manifest.records.zipIdx.find? (fun r => recordKey lower r.1 == key) with
    | none =>
      have hmatch := List.find?_some hlast
      have hnone := List.find?_eq_none.mp hfirst last hmem
      exact absurd hmatch hnone
    | some first =>
      simp only [Except.ok.injEq, Prod.mk.injEq, Option.some.injEq, and_true]
      constructor
      · intro hindex
        have hlastAt := List.mem_zipIdx_iff_getElem?.mp hmem
        have hfirstAt := List.mem_zipIdx_iff_getElem?.mp (List.mem_of_find?_eq_some hfirst)
        rw [hindex, hlastAt, Option.some.injEq] at hfirstAt
        exact Prod.ext hfirstAt hindex.symm
      · intro hsame
        rw [hsame]

/-- The selectors of the record were flattened and no losing candidate has the reviewed
one. -/
def fallsBack (lower : Text → Text) (review : DuplicateReview) (candidates : List AssetCandidate) :
    Bool :=
  (candidates.filter fun c =>
      candidateSelector lower c == reviewSelector lower review && loses review c).isEmpty &&
    reviewSelector lower review != zeroSelector && allZero lower candidates

def drops (lower : Text → Text) (review : DuplicateReview) (candidates : List AssetCandidate)
    (candidate : AssetCandidate) : Bool :=
  loses review candidate && (fallsBack lower review candidates ||
    candidateSelector lower candidate == reviewSelector lower review)

theorem dedupeCandidates_eq (candidates : List AssetCandidate) :
    dedupeCandidates lower review candidates =
      (candidates.filter fun c => !drops lower review candidates c,
        candidates.filter (drops lower review candidates), fallsBack lower review candidates) := by
  unfold dedupeCandidates drops
  cases hfall : fallsBack lower review candidates with
  | true =>
    rw [if_pos (by simpa [fallsBack] using hfall)]
    simp
  | false =>
    rw [if_neg (by simpa [fallsBack] using hfall)]
    simp [Bool.and_comm]

theorem fallsBack_iff (candidates : List AssetCandidate) :
    fallsBack lower review candidates = true ↔
      (∀ c ∈ candidates, loses review c = true →
        candidateSelector lower c ≠ reviewSelector lower review) ∧
      reviewSelector lower review ≠ zeroSelector ∧ allZero lower candidates = true := by
  simp only [fallsBack, Bool.and_eq_true, List.isEmpty_iff, List.filter_eq_nil_iff, bne_iff_ne,
    beq_iff_eq, not_and, and_assoc]
  constructor
  · rintro ⟨hexact, hrest⟩
    exact ⟨fun c hc hloses hsel => hexact c hc hsel hloses, hrest⟩
  · rintro ⟨hexact, hrest⟩
    exact ⟨fun c hc hsel hloses => hexact c hc hloses hsel, hrest⟩

theorem filter_drops_isEmpty (candidates : List AssetCandidate) :
    (candidates.filter (drops lower review candidates)).isEmpty =
      !candidates.any (removable lower review candidates) := by
  rw [Bool.eq_iff_iff]
  simp only [List.isEmpty_iff, List.filter_eq_nil_iff, Bool.not_eq_true', List.any_eq_false,
    drops, removable, Bool.and_eq_true, Bool.or_eq_true, beq_iff_eq, bne_iff_ne, fallsBack_iff]
  constructor
  · rintro h c hc ⟨hloses, hsel | hflat⟩
    · exact h c hc ⟨hloses, .inr hsel⟩
    · -- no candidate has the reviewed selector, so all losing ones are dropped
      have hexact : ∀ d ∈ candidates, loses review d = true →
          candidateSelector lower d ≠ reviewSelector lower review :=
        fun d hd hd' hsel => h d hd ⟨hd', .inr hsel⟩
      exact h c hc ⟨hloses, .inl ⟨hexact, hflat⟩⟩
  · rintro h c hc ⟨hloses, ⟨_, hflat⟩ | hsel⟩
    · exact h c hc ⟨hloses, .inr hflat⟩
    · exact h c hc ⟨hloses, .inl hsel⟩

theorem dedupeLoaderManifest_of_removable {index : Nat} {record : ManifestRecord}
    (hkeep : review.recommendation = keepRuntimeWinner)
    (hresolves : Resolves lower manifest review index resolution record)
    (hremovable : record.assetCandidates.any
      (removable lower review record.assetCandidates) = true) :
    ∃ changes, dedupeLoaderManifest lower manifest [review] =
      ({ records := manifest.records.set index { record with
          assetCandidates := record.assetCandidates.filter fun c =>
            !drops lower review record.assetCandidates c
          assetCandidateCount := .int (record.assetCandidates.filter fun c =>
            !drops lower review record.assetCandidates c).length }
         recordCount := .int manifest.records.length }, .ok changes) := by
  obtain ⟨hresolve, hrecord⟩ := hresolves
  have hnonempty : (record.assetCandidates.filter
      (drops lower review record.assetCandidates)).isEmpty =
        !record.assetCandidates.any (removable lower review record.assetCandidates) :=
    filter_drops_isEmpty record.assetCandidates
  rw [hremovable, Bool.not_true] at hnonempty
  unfold dedupeLoaderManifest applyReviews applyReview
  rw [if_neg (not_not.mpr hkeep)]
  dsimp only
  rw [hresolve]
  simp only [Except.bind, bind, hrecord, dedupeCandidates_eq, hnonempty, Bool.false_eq_true,
    if_false, applyReviews, Except.map, List.length_set]
  exact ⟨_, rfl⟩

theorem dedupeLoaderManifest_of_not_removable
    (h : ∀ index resolution record, review.recommendation = keepRuntimeWinner →
      Resolves lower manifest review index resolution record →
      record.assetCandidates.any (removable lower review record.assetCandidates) = false) :
    ∃ exit, dedupeLoaderManifest lower manifest [review] = (manifest, .error exit) := by
  unfold dedupeLoaderManifest applyReviews applyReview
  by_cases hkeep : review.recommendation = keepRuntimeWinner
  · rw [if_neg (not_not.mpr hkeep)]
    dsimp only
    cases hresolve : resolveRecordForReview lower manifest.records
        (recordByKey lower manifest.records) (lower (textOrEmpty review.sampledLow32))
          (textOrEmpty review.policy) with
    | error exit => exact ⟨exit, rfl⟩
    | ok resolved =>
      obtain ⟨index, resolution⟩ := resolved
      obtain ⟨record, hresolves⟩ := exists_resolved hresolve
      have hempty : (record.assetCandidates.filter
          (drops lower review record.assetCandidates)).isEmpty =
            !record.assetCandidates.any (removable lower review record.assetCandidates) :=
        filter_drops_isEmpty record.assetCandidates
      rw [h index resolution record hkeep hresolves, Bool.not_false] at hempty
      simp only [Except.bind, bind, hresolves.2, dedupeCandidates_eq, hempty, if_true]
      exact ⟨_, rfl⟩
  · rw [if_pos hkeep]
    exact ⟨_, rfl⟩

theorem filter_drops_eq_iff {candidates : List AssetCandidate}
    (hremovable : candidates.any (removable lower review candidates) = true) :
    (candidates.filter fun c => !drops lower review candidates c) =
        (candidates.filter fun c => !(concerned lower review candidates c && loses review c)) ↔
      (allZero lower candidates = true →
        (∀ c ∈ candidates, loses review c = true →
          candidateSelector lower c = reviewSelector lower review) ∨
        ∀ c ∈ candidates, loses review c = true →
          candidateSelector lower c ≠ reviewSelector lower review) := by
  constructor
  · intro heq hzero
    by_cases hnone : ∀ c ∈ candidates, loses review c = true →
        candidateSelector lower c ≠ reviewSelector lower review
    · exact .inr hnone
    · refine .inl ?_
      intro c hc hloses
      by_contra hsel
      -- a losing candidate with another selector stays, although all selectors are zero
      have hfalls : fallsBack lower review candidates = false := by
        rw [Bool.eq_false_iff, Ne, fallsBack_iff]
        exact fun h => hnone h.1
      have hkept : c ∈ candidates.filter fun c => !drops lower review candidates c := by
        simp [drops, hc, hfalls, hsel]
      rw [heq] at hkept
      simp [concerned, hzero, hloses] at hkept
  · intro hzero
    apply List.filter_congr
    intro c hc
    congr 1
    rw [Bool.eq_iff_iff]
    simp only [drops, concerned, Bool.and_eq_true, Bool.or_eq_true, beq_iff_eq, fallsBack_iff]
    constructor
    · rintro ⟨hloses, ⟨_, _, hflat⟩ | hsel⟩
      · exact ⟨.inr hflat, hloses⟩
      · exact ⟨.inl hsel, hloses⟩
    · rintro ⟨hsel | hflat, hloses⟩
      · exact ⟨hloses, .inr hsel⟩
      · refine ⟨hloses, ?_⟩
        obtain hall | hnone := hzero hflat
        · exact .inr (hall c hc hloses)
        · obtain ⟨d, hd, hremovable⟩ := List.any_eq_true.mp hremovable
          simp only [removable, Bool.and_eq_true, Bool.or_eq_true, beq_iff_eq, bne_iff_ne]
            at hremovable
          obtain ⟨hd', hsel | ⟨hnonzero, _⟩⟩ := hremovable
          · exact absurd hsel (hnone d hd hd')
          · exact .inl ⟨hnone, hnonzero, hflat⟩

theorem drops_of_active {candidates : List AssetCandidate} {candidate : AssetCandidate}
    (h : active review candidate = true) : drops lower review candidates candidate = false := by
  rw [active, beq_iff_eq] at h
  simp [drops, loses, h]

/-- A review keeps the winner exactly when it fits the record it resolves to, whenever it
removes something there. -/
theorem keepsWinner_iff (lower : Text → Text) (manifest : LoaderManifest)
    (review : DuplicateReview) :
    KeepsWinner lower manifest review ↔
      ∀ index resolution record, review.recommendation = keepRuntimeWinner →
        Resolves lower manifest review index resolution record →
        record.assetCandidates.any (removable lower review record.assetCandidates) = true →
        Fits lower manifest review record := by
  by_cases hremoves : ∀ index resolution record, review.recommendation = keepRuntimeWinner →
      Resolves lower manifest review index resolution record →
      record.assetCandidates.any (removable lower review record.assetCandidates) = false
  · obtain ⟨exit, hexit⟩ := dedupeLoaderManifest_of_not_removable hremoves
    rw [KeepsWinner, hexit]
    refine iff_of_true rfl ?_
    intro index resolution record hkeep hresolves hremovable
    rw [hremoves index resolution record hkeep hresolves] at hremovable
    cases hremovable
  · push Not at hremoves
    obtain ⟨index, resolution, record, hkeep, hresolves, hremovable⟩ := hremoves
    rw [Ne, Bool.not_eq_false] at hremovable
    have hsame : ∀ index' resolution' record',
        Resolves lower manifest review index' resolution' record' →
        index' = index ∧ resolution' = resolution ∧ record' = record := by
      rintro index' resolution' record' ⟨hresolve', hrecord'⟩
      rw [hresolves.1, Except.ok.injEq, Prod.mk.injEq] at hresolve'
      obtain ⟨rfl, rfl⟩ := hresolve'
      rw [hresolves.2, Option.some.injEq] at hrecord'
      exact ⟨rfl, rfl, hrecord'.symm⟩
    obtain ⟨changes, hchanges⟩ := dedupeLoaderManifest_of_removable hkeep hresolves hremovable
    have hlt : index < manifest.records.length := (List.getElem?_eq_some_iff.mp hresolves.2).1
    rw [KeepsWinner, hchanges]
    constructor
    · rintro ⟨index', resolution', record', updated, hresolves', hscan, hset, hdeduped⟩
      obtain ⟨rfl, rfl, rfl⟩ := hsame index' resolution' record' hresolves'
      -- the updated record is the one written by the code
      have hupdated := congrArg (·[index']?) hset
      simp only [List.getElem?_set_self hlt, Option.some.injEq] at hupdated
      subst hupdated
      intro index'' resolution'' record'' _ hresolves'' _
      obtain ⟨rfl, rfl, rfl⟩ := hsame index'' resolution'' record'' hresolves''
      refine ⟨?_, (resolveManifestReviewRecord_eq_iff hresolves.1).mp hscan,
        (filter_drops_eq_iff hremovable).mp hdeduped.candidates⟩
      obtain ⟨c, hc, hactive⟩ := hdeduped.winner
      exact ⟨c, (List.mem_filter.mp hc).1, hactive⟩
    · intro h
      obtain ⟨⟨c, hc, hactive, hconcerned⟩, hunique, hflattened⟩ :=
        h index resolution record hkeep hresolves hremovable
      refine ⟨index, resolution, record, _, hresolves,
        (resolveManifestReviewRecord_eq_iff hresolves.1).mpr hunique, rfl, ?_⟩
      exact {
        candidates := (filter_drops_eq_iff hremovable).mpr hflattened
        count := rfl
        winner := ⟨c, by simp [hc, drops_of_active hactive], hactive, hconcerned⟩
        others := rfl }

end Dedupe

/-- A candidate of the selector `s`. -/
def sampleCandidate (replacementId : Text) : AssetCandidate where
  replacementId := replacementId
  legacySourcePath := []
  materializedPath := []
  variantGroupId := []
  legacyChecksum64 := []
  legacyTextureCrc := []
  legacyPaletteCrc := []
  width := .int 1
  height := .int 1
  legacyFormatsize := .int 0
  selectorChecksum64 := .str ['s']

/-- A record of the replacements `a` and `b`. -/
def sampleRecord (assetCandidates : List AssetCandidate) : ManifestRecord where
  policyKey := ['p']
  sampledObjectId := ['o']
  canonicalIdentity :=
    { fmt := .int 0
      siz := .int 0
      off := .int 0
      stride := .int 0
      wh := ['0', 'x', '0']
      formatsize := .int 0
      sampledLow32 := .str ['1'] }
  assetCandidateCount := .int assetCandidates.length
  assetCandidates := assetCandidates

/-- A review of `a` and `b` whose active replacement is another one. -/
def foreignReview : DuplicateReview where
  recommendation := keepRuntimeWinner
  sampledLow32 := .str ['1']
  policy := .str ['p']
  selector := .str ['s']
  activeReplacementId := .str ['c']
  uniqueSelectorReplacementIds := [['a'], ['b']]

/-- A review whose active replacement is not in the record removes all candidates. -/
theorem foreignReview_not_keepsWinner :
    ¬ KeepsWinner (List.map Char.toLower)
      { records := [sampleRecord [sampleCandidate ['a'], sampleCandidate ['b']]]
        recordCount := .int 1 } foreignReview := by
  have hrun : (dedupeLoaderManifest (List.map Char.toLower)
      { records := [sampleRecord [sampleCandidate ['a'], sampleCandidate ['b']]]
        recordCount := .int 1 } [foreignReview]).1.records = [sampleRecord []] ∧
      (dedupeLoaderManifest (List.map Char.toLower)
        { records := [sampleRecord [sampleCandidate ['a'], sampleCandidate ['b']]]
          recordCount := .int 1 } [foreignReview]).2.isOk = true := by decide +kernel
  intro hkeeps
  unfold KeepsWinner at hkeeps
  generalize dedupeLoaderManifest (List.map Char.toLower) _ [foreignReview] = run at hrun hkeeps
  obtain ⟨manifest', result⟩ := run
  cases result with
  | error exit => cases hrun.2
  | ok changes =>
    obtain ⟨index, resolution, record, record', hresolves, _, hset, hdeduped⟩ := hkeeps
    have hzero : index = 0 := by
      have hlt := (List.getElem?_eq_some_iff.mp hresolves.2).1
      simpa using hlt
    subst hzero
    rw [hrun.1, List.set_cons_zero, List.cons.injEq] at hset
    obtain ⟨c, hc, _⟩ := hdeduped.winner
    rw [← hset.1] at hc
    cases hc

end ParallelN64.Review
