import ParallelN64.Core.Runs
import ParallelN64.Migrate.Transport

/-!
# The imported index

Each requested family becomes an element of one of three lists: exact authorities,
compatibility aliases and unresolved families. Its active entries become records, and the
sampled objects observed for it are linked to them by the canonical transport.
-/

namespace ParallelN64.Migrate

open ParallelN64.Core Phrb

abbrev BundleContext := FamilyKey → Option Observation

abbrev SampledContext := Dict FamilyKey (List SampledObject)

def addObject (found : List SampledObject) (object : SampledObject) : List SampledObject :=
  if found.any fun other => other.sampledObjectId == object.sampledObjectId then found
  else found ++ [object]

/-- The sampled objects of a family; a family without format and size and without objects of
its own takes those of all formats. -/
def fallbackSampledCandidates (context : SampledContext) (key : FamilyKey) :
    List SampledObject :=
  let own := (context.get? key).getD []
  if own ≠ [] ∨ key.formatsize ≠ 0 then own
  else context.foldl
    (fun found entry =>
      if entry.1.textureCrc ≠ key.textureCrc then found else entry.2.foldl addObject found) []

/-- The record of an active entry of a family. -/
def makeImportRecord (entries : List CacheEntry) (key : FamilyKey)
    (sampledCandidates : List SampledObject) (entry : CacheEntry) : ImportRecord where
  replacementId := makeReplacementId entry
  entry := entry
  family := key
  familyTier := recommendedTier entries key
  activePool := activePool entries key
  variantGroupId := makeVariantGroupId key.formatsize entry
  canonicalSampledObjects := sampledCandidates

/-- The reason for which a family of a tier stays unresolved. -/
def unresolvedReason (tier : Tier) : UnresolvedReason :=
  match tier with
  | .ambiguousImportOrPolicy => .legacyFamilyAmbiguous
  | .exactAuthoritative => .exactFamilyAmbiguous
  | _ => .missingActivePool

/-- The selector policy of a family: the selection of the import policy goes before the
scale-equivalent one. -/
def familySelectorPolicy (entries : List CacheEntry) (key : FamilyKey)
    (observation : Option Observation) (familyPolicy : Option FamilyPolicy)
    (policySelection : Option FamilyPolicySelection) (scaleSelection : Option Selection) :
    SelectorPolicy :=
  { buildSelectorPolicy key observation (variantGroupList entries key)
      (recommendedTier entries key)
      ((policySelection.map FamilyPolicySelection.selection).or scaleSelection) with
    appliedPolicy := familyPolicy }

/-- The element of a family and the list that it goes to. -/
def classifyImport (entries : List CacheEntry) (key : FamilyKey)
    (observation : Option Observation) (sampledCandidates : List SampledObject)
    (selectorPolicy : SelectorPolicy) : FamilyType × Family :=
  let tier := recommendedTier entries key
  let replacementIds := (activeEntries entries key).map makeReplacementId
  let family : Family := {
    policyKey := key
    kind := none
    reason := none
    activePool := activePool entries key
    observedRuntimeContext := observation
    canonicalSampledObjects := sampledCandidates
    selectorPolicy
    candidateReplacementIds := replacementIds
    variantGroups := variantGroupList entries key }
  if tier = .exactAuthoritative ∧ selectorPolicy.status = .deterministic then
    (.exactAuthority, {
      family with
      kind := some .exactAuthoritative
      candidateReplacementIds := selectReplacementIdsFromSelectorPolicy selectorPolicy
        replacementIds (variantGroupEntries entries key) })
  else if tier.IsCompat then
    (.compatibility, { family with kind := some tier })
  else
    (.unresolved, { family with reason := some (unresolvedReason tier) })

/-- What an import has gathered so far. -/
structure ImportState where
  decodedCache : DecodedCache
  records : List ImportRecord
  exactAuthorities : List Family
  compatibilityAliases : List Family
  unresolvedFamilies : List Family

/-- Put an element behind the others of its list. -/
def ImportState.add (state : ImportState) (type : FamilyType) (family : Family) : ImportState :=
  match type with
  | .exactAuthority => { state with exactAuthorities := state.exactAuthorities ++ [family] }
  | .compatibility =>
    { state with compatibilityAliases := state.compatibilityAliases ++ [family] }
  | .unresolved => { state with unresolvedFamilies := state.unresolvedFamilies ++ [family] }

structure ImportedIndex where
  records : List ImportRecord
  exactAuthorities : List Family
  compatibilityAliases : List Family
  unresolvedFamilies : List Family
  canonicalRecords : List CanonicalRecord
  legacyTransportAliases : List TransportAlias
  deriving DecidableEq, Repr

def indexRecords (records : List ImportRecord) : RecordIndex :=
  records.foldl (fun index record => index.assign record.replacementId record) []

section Import

variable {η : Type} [DecidableEq η]
-- The decoder of an entry and the hash of an image.
variable (decode : CacheEntry → Option Bytes) (hash : Bytes → η)
variable (entries : List CacheEntry) (bundleContext : BundleContext)
variable (sampledContext : SampledContext) (importPolicy : ImportPolicy)

/-- Import one requested family. -/
def importFamily (state : ImportState) (key : FamilyKey) : Except PolicyError ImportState :=
  let sampledCandidates := fallbackSampledCandidates sampledContext key
  let (decodedCache, scaleSelection) :=
    scaleEquivalentSelection decode hash entries key state.decodedCache
  match resolveFamilyPolicySelectionOverride key (importPolicy key)
    (variantGroupList entries key) with
  | .error error => .error error
  | .ok policySelection =>
    let selectorPolicy := familySelectorPolicy entries key (bundleContext key)
      (importPolicy key) policySelection (scaleSelection.map ScaleSelection.selection)
    let (type, family) := classifyImport entries key (bundleContext key) sampledCandidates
      selectorPolicy
    .ok (({ state with
      decodedCache
      records := state.records ++ (activeEntries entries key).map
        (makeImportRecord entries key sampledCandidates) } : ImportState).add type family)

def importFamilies (requestedPairs : List FamilyKey) : Except PolicyError ImportState :=
  requestedPairs.foldlM
    (importFamily decode hash entries bundleContext sampledContext importPolicy)
    { decodedCache := fun _ => none
      records := []
      exactAuthorities := []
      compatibilityAliases := []
      unresolvedFamilies := [] }

/-- The index of a finished import. -/
def ImportState.toIndex (state : ImportState) : ImportedIndex :=
  let transport := buildCanonicalTransport state.exactAuthorities state.compatibilityAliases
    state.unresolvedFamilies (indexRecords state.records)
  { records := state.records
    exactAuthorities := state.exactAuthorities
    compatibilityAliases := state.compatibilityAliases
    unresolvedFamilies := state.unresolvedFamilies
    canonicalRecords := transport.canonicalRecords
    legacyTransportAliases := transport.legacyTransportAliases }

def buildImportedIndex (requestedPairs : List FamilyKey) : Except PolicyError ImportedIndex :=
  (importFamilies decode hash entries bundleContext sampledContext importPolicy
    requestedPairs).map ImportState.toIndex

end Import

def runtimeReadyFlag : Nat := 1

/-- What the loader manifest holds for a family without sampled objects. -/
structure FamilyStub where
  policyKey : FamilyKey
  recordKind : FamilyType
  recordFlags : Nat
  runtimeReady : Bool
  transportHint : ActivePool
  evidenceAuthority : Option Text
  formatsize : Nat
  sampledLow32 : Nat
  uploadLow32s : List Nat
  assetCandidates : List ImportRecord
  deriving DecidableEq, Repr

def makeFamilyRuntimeStub (importedRecords : RecordIndex) (type : FamilyType)
    (family : Family) : FamilyStub :=
  let runtimeReady := type != .unresolved && !family.candidateReplacementIds.isEmpty
  { policyKey := family.policyKey
    recordKind := type
    recordFlags := if runtimeReady then runtimeReadyFlag else 0
    runtimeReady
    transportHint := family.activePool
    evidenceAuthority := family.observedRuntimeContext.map Observation.mode
    formatsize := family.policyKey.formatsize
    sampledLow32 := family.policyKey.textureCrc
    uploadLow32s := [family.policyKey.textureCrc]
    assetCandidates := family.candidateReplacementIds.filterMap importedRecords.get? }

end ParallelN64.Migrate
