import ParallelN64.Migrate.Policy

/-!
# Canonical records and transport aliases

What a running game sampled is kept as sampled objects. The families of an imported index
name the sampled objects that belong to them; the canonical transport turns this round: a
record for each sampled object, with the families and replacements linked to it, and an alias
for each family.
-/

namespace ParallelN64.Migrate

open ParallelN64.Core Phrb

def truthy (text : Option Text) : Option Text := text.filter (!·.isEmpty)

/-- A checksum of an upload, with the number of times it was seen if that was counted. -/
structure Upload where
  value : Text
  count : Option Nat
  deriving DecidableEq, Repr

/-- The fields that the identifier of a sampled object prints. -/
structure SampledObjectId where
  fmt : Option Text
  siz : Option Text
  off : Option Text
  stride : Option Text
  wh : Option Text
  fs : Option Nat
  sampledLow32 : Option Text
  deriving DecidableEq, Repr

def printField (field : Option Text) : Text := field.getD "None".toList

def SampledObjectId.text (id : SampledObjectId) : Text :=
  "sampled-fmt".toList ++ printField id.fmt ++ "-siz".toList ++ printField id.siz ++
    "-off".toList ++ printField id.off ++ "-stride".toList ++ printField id.stride ++
    "-wh".toList ++ printField id.wh ++ "-fs".toList ++ printField (id.fs.map decimal) ++
    "-low32".toList ++ printField id.sampledLow32

/-- What a sampled object, its record and its proxies say of the texture. -/
structure SampledIdentity where
  candidateOrigin : Option Text
  evidenceAuthority : Option Text
  drawClass : Option Text
  cycle : Option Text
  fmt : Option Text
  siz : Option Text
  off : Option Text
  stride : Option Text
  wh : Option Text
  formatsize : Nat
  sampledLow32 : Option Text
  sampledEntryPcrc : Option Text
  sampledSparsePcrc : Option Text
  deriving DecidableEq, Repr

/-- A sampled object that another one may be drawn as. -/
structure Proxy where
  sampledObjectId : SampledObjectId
  identity : SampledIdentity
  runtimeReady : Bool
  deriving DecidableEq, Repr

structure SampledObject where
  sampledObjectId : SampledObjectId
  identity : SampledIdentity
  transportHint : Option Text
  runtimeReady : Bool
  runtimeProxyCandidates : List Proxy
  uploadLow32s : List Upload
  uploadPcrcs : List Upload
  deriving DecidableEq, Repr

/-- A record of an imported index: an active entry of a requested family. -/
structure ImportRecord where
  replacementId : ReplacementId
  entry : CacheEntry
  family : FamilyKey
  familyTier : Tier
  activePool : ActivePool
  variantGroupId : VariantGroupId
  canonicalSampledObjects : List SampledObject
  deriving DecidableEq, Repr

/-- The list of an imported index that a family is in. -/
inductive FamilyType where
  | exactAuthority
  | compatibility
  | unresolved
  deriving DecidableEq, Repr

inductive UnresolvedReason where
  | legacyFamilyAmbiguous
  | exactFamilyAmbiguous
  | missingActivePool
  deriving DecidableEq, Repr

/-- An element of one of the three lists of an imported index. -/
structure Family where
  policyKey : FamilyKey
  kind : Option Tier
  reason : Option UnresolvedReason
  activePool : ActivePool
  observedRuntimeContext : Option Observation
  canonicalSampledObjects : List SampledObject
  selectorPolicy : SelectorPolicy
  candidateReplacementIds : List ReplacementId
  variantGroups : List VariantGroup
  deriving DecidableEq, Repr

/-- A replacement that a sampled object may be replaced by. -/
structure TransportCandidate where
  replacementId : ReplacementId
  source : Option CacheEntry
  variantGroupId : Option Text
  deriving DecidableEq, Repr

structure CanonicalRecord where
  sampledObjectId : SampledObjectId
  identity : SampledIdentity
  transportHint : Option Text
  runtimeReady : Bool
  runtimeProxyCandidates : List Proxy
  linkedPolicyKeys : List FamilyKey
  linkedReplacementIds : List ReplacementId
  transportCandidates : List TransportCandidate
  uploadLow32s : List Upload
  uploadPcrcs : List Upload
  deriving DecidableEq, Repr

structure TransportAlias where
  familyType : FamilyType
  policyKey : FamilyKey
  reason : Option UnresolvedReason
  kind : Option Tier
  status : SelectorStatus
  selectionReason : SelectionReason
  candidateReplacementIds : List ReplacementId
  canonicalSampledObjectIds : List SampledObjectId
  deriving DecidableEq, Repr

abbrev RecordIndex := Dict ReplacementId ImportRecord

def makeTransportCandidate (recordIndex : RecordIndex) (id : ReplacementId) :
    TransportCandidate :=
  match recordIndex.get? id with
  | none => { replacementId := id, source := none, variantGroupId := none }
  | some record => {
      replacementId := id
      source := some record.entry
      variantGroupId := some record.variantGroupId.text }

def makeTransportAlias (type : FamilyType) (family : Family) : TransportAlias where
  familyType := type
  policyKey := family.policyKey
  reason := family.reason
  kind := family.kind
  status := family.selectorPolicy.status
  selectionReason := family.selectorPolicy.selectionReason
  candidateReplacementIds := family.candidateReplacementIds
  canonicalSampledObjectIds := family.canonicalSampledObjects.map (·.sampledObjectId)

/-- The record of a sampled object before anything is linked to it. -/
def newCanonicalRecord (object : SampledObject) : CanonicalRecord where
  sampledObjectId := object.sampledObjectId
  identity := object.identity
  transportHint := object.transportHint
  runtimeReady := object.runtimeReady
  runtimeProxyCandidates := object.runtimeProxyCandidates
  linkedPolicyKeys := []
  linkedReplacementIds := []
  transportCandidates := []
  uploadLow32s := []
  uploadPcrcs := []

def addNew {α : Type} [DecidableEq α] (l : List α) (a : α) : List α :=
  if a ∈ l then l else l ++ [a]

theorem mem_addNew {α : Type} [DecidableEq α] {l : List α} {a b : α} :
    b ∈ addNew l a ↔ b ∈ l ∨ b = a := by
  unfold addNew
  by_cases ha : a ∈ l
  · rw [if_pos ha]
    constructor
    · exact .inl
    · rintro (hb | rfl)
      · exact hb
      · exact ha
  · simp [ha]

theorem mem_foldl_addNew {α : Type} [DecidableEq α] {l added : List α} {b : α} :
    b ∈ added.foldl addNew l ↔ b ∈ l ∨ b ∈ added := by
  induction added generalizing l with
  | nil => simp
  | cons a added ih => rw [List.foldl_cons, ih, mem_addNew, List.mem_cons, or_assoc]

theorem nodup_addNew {α : Type} [DecidableEq α] {l : List α} (h : l.Nodup) (a : α) :
    (addNew l a).Nodup := by
  unfold addNew
  by_cases ha : a ∈ l
  · rw [if_pos ha]
    exact h
  · rw [if_neg ha]
    refine List.nodup_append.mpr ⟨h, List.nodup_singleton _, ?_⟩
    intro b hb c hc hbc
    rw [List.mem_singleton] at hc
    subst hbc hc
    exact ha hb

/-- Put a replacement behind the candidates unless one of them is for it. -/
def addCandidate (recordIndex : RecordIndex) (candidates : List TransportCandidate)
    (id : ReplacementId) : List TransportCandidate :=
  if candidates.any fun candidate => candidate.replacementId == id then candidates
  else candidates ++ [makeTransportCandidate recordIndex id]

/-- Link a family and an object to the record of the object. -/
def CanonicalRecord.link (recordIndex : RecordIndex) (family : Family) (object : SampledObject)
    (record : CanonicalRecord) : CanonicalRecord :=
  { record with
    linkedPolicyKeys := addNew record.linkedPolicyKeys family.policyKey
    linkedReplacementIds := family.candidateReplacementIds.foldl addNew
      record.linkedReplacementIds
    transportCandidates := family.candidateReplacementIds.foldl (addCandidate recordIndex)
      record.transportCandidates
    uploadLow32s := object.uploadLow32s.foldl addNew record.uploadLow32s
    uploadPcrcs := object.uploadPcrcs.foldl addNew record.uploadPcrcs }

abbrev CanonicalRecords := Dict SampledObjectId CanonicalRecord

def ingestObject (recordIndex : RecordIndex) (family : Family) (records : CanonicalRecords)
    (object : SampledObject) : CanonicalRecords :=
  records.assign object.sampledObjectId
    (((records.get? object.sampledObjectId).getD (newCanonicalRecord object)).link recordIndex
      family object)

def ingestFamily (recordIndex : RecordIndex) (records : CanonicalRecords) (family : Family) :
    CanonicalRecords :=
  family.canonicalSampledObjects.foldl (ingestObject recordIndex family) records

def sortByText {α : Type} (text : α → Text) (l : List α) : List α :=
  l.mergeSort fun a b => decide (text a ≤ text b)

structure CanonicalTransport where
  canonicalRecords : List CanonicalRecord
  legacyTransportAliases : List TransportAlias
  deriving DecidableEq, Repr

def CanonicalRecord.sortCandidates (record : CanonicalRecord) : CanonicalRecord :=
  { record with
    transportCandidates := sortByText (·.replacementId.text) record.transportCandidates }

/-- The records of the objects of all families, exact ones first, and the families' aliases. -/
def buildCanonicalTransport (exactAuthorities compatibilityAliases unresolvedFamilies :
    List Family) (recordIndex : RecordIndex) : CanonicalTransport :=
  let families := exactAuthorities ++ compatibilityAliases ++ unresolvedFamilies
  let records := families.foldl (ingestFamily recordIndex) []
  { canonicalRecords := sortByText (·.sampledObjectId.text)
      ((records.map Prod.snd).map CanonicalRecord.sortCandidates)
    legacyTransportAliases := sortByText (·.policyKey.text)
      (exactAuthorities.map (makeTransportAlias .exactAuthority) ++
        compatibilityAliases.map (makeTransportAlias .compatibility) ++
        unresolvedFamilies.map (makeTransportAlias .unresolved)) }

@[simp] theorem mem_sortByText {α : Type} {text : α → Text} {l : List α} {a : α} :
    a ∈ sortByText text l ↔ a ∈ l := List.mem_mergeSort

theorem sortByText_perm {α : Type} (text : α → Text) (l : List α) :
    (sortByText text l).Perm l := List.mergeSort_perm _ _

end ParallelN64.Migrate
