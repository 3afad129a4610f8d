import ParallelN64.Migrate.ImportedIndex

/-!
# Proxy bindings

A canonical record points at proxies: sampled objects that it may be drawn as, or itself when
the runtime knows it. The view groups the records by proxy; a proxy is bound to a replacement
by the transport policy, or without it when only one replacement is offered and all linked
families are deterministic. Proxies that are not bound are left as unresolved cases.
-/

namespace ParallelN64.Migrate

open ParallelN64.Core Phrb

def directRuntimeReady (record : CanonicalRecord) : Bool :=
  record.runtimeReady || (truthy record.identity.sampledEntryPcrc).isSome ||
    (truthy record.identity.sampledSparsePcrc).isSome

/-- A record as a proxy of itself. -/
def selfProxy (record : CanonicalRecord) : Proxy where
  sampledObjectId := record.sampledObjectId
  identity := {
    record.identity with
    candidateOrigin := some
      ((truthy record.identity.candidateOrigin).getD "runtime-sampled-probe".toList)
    evidenceAuthority := some
      ((truthy record.identity.evidenceAuthority).getD "runtime-sampled-probe".toList) }
  runtimeReady := directRuntimeReady record

def proxyCandidates (record : CanonicalRecord) : List Proxy :=
  if record.runtimeProxyCandidates.isEmpty ∧ directRuntimeReady record then [selfProxy record]
  else record.runtimeProxyCandidates

def sourceLow32s (record : CanonicalRecord) : List Text :=
  let uploads := (record.uploadLow32s.map (·.value)).filter (!·.isEmpty)
  if uploads.isEmpty then (truthy record.identity.sampledLow32).toList else uploads

/-- What is known of a proxy: the first one with its identifier, and what the records that
point at it bring. -/
structure ProxyGroup where
  proxy : Proxy
  sourceHintIds : List SampledObjectId
  sourcePolicyKeys : List FamilyKey
  sourceHintLow32s : List Text
  sourceHintAuthorities : List (Option Text)
  transportCandidates : Dict Text TransportCandidate

def newProxyGroup (pointer : CanonicalRecord × Proxy) : ProxyGroup where
  proxy := pointer.2
  sourceHintIds := []
  sourcePolicyKeys := []
  sourceHintLow32s := []
  sourceHintAuthorities := []
  transportCandidates := []

def offerCandidate (candidates : Dict Text TransportCandidate) (candidate : TransportCandidate) :
    Dict Text TransportCandidate :=
  candidates.setDefault candidate.replacementId.text candidate

/-- Add what a record brings to a proxy that it points at. -/
def ProxyGroup.addRecord (pointer : CanonicalRecord × Proxy) (group : ProxyGroup) : ProxyGroup :=
  { group with
    sourceHintIds := group.sourceHintIds ++ [pointer.1.sampledObjectId]
    sourceHintLow32s := group.sourceHintLow32s ++ sourceLow32s pointer.1
    sourceHintAuthorities :=
      group.sourceHintAuthorities ++ [pointer.1.identity.evidenceAuthority]
    sourcePolicyKeys := pointer.1.linkedPolicyKeys.foldl addNew group.sourcePolicyKeys
    transportCandidates := pointer.1.transportCandidates.foldl offerCandidate
      group.transportCandidates }

def pointedId (pointer : CanonicalRecord × Proxy) : Text := pointer.2.sampledObjectId.text

def pointers (records : List CanonicalRecord) : List (CanonicalRecord × Proxy) :=
  records.flatMap fun record => (proxyCandidates record).map (Prod.mk record)

def collectProxies (records : List CanonicalRecord) : Dict Text ProxyGroup :=
  (pointers records).foldl (Dict.accumulate pointedId newProxyGroup ProxyGroup.addRecord) []

def linkByPolicy (aliases : List TransportAlias) : Dict FamilyKey TransportAlias :=
  aliases.foldl (fun links link => links.assign link.policyKey link) []

def policyStatus (aliases : List TransportAlias) (key : FamilyKey) : Option SelectorStatus :=
  ((linkByPolicy aliases).get? key).map (·.status)

def countStatus (counts : Dict (Option SelectorStatus) Nat) (status : Option SelectorStatus) :
    Dict (Option SelectorStatus) Nat :=
  counts.assign status ((counts.get? status).getD 0 + 1)

/-- A proxy as it is reviewed. -/
structure ProxyReview where
  proxySampledObjectId : Text
  proxyIdentity : Proxy
  sourceHintIds : List SampledObjectId
  sourceHintLow32s : List Text
  sourcePolicyKeys : List FamilyKey
  sourcePolicyStatusCounts : Dict (Option SelectorStatus) Nat
  transportCandidateCount : Nat
  transportCandidates : List TransportCandidate

def reviewProxy (aliases : List TransportAlias) (entry : Text × ProxyGroup) : ProxyReview where
  proxySampledObjectId := entry.1
  proxyIdentity := entry.2.proxy
  sourceHintIds := sortByText SampledObjectId.text entry.2.sourceHintIds
  sourceHintLow32s := sortByText id (entry.2.sourceHintLow32s.filter (!·.isEmpty)).dedup
  sourcePolicyKeys := sortByText FamilyKey.text entry.2.sourcePolicyKeys
  sourcePolicyStatusCounts :=
    (entry.2.sourcePolicyKeys.map (policyStatus aliases)).foldl countStatus []
  transportCandidateCount := entry.2.transportCandidates.length
  transportCandidates := sortByText (·.replacementId.text)
    (entry.2.transportCandidates.map Prod.snd)

def buildProxyView (index : ImportedIndex) : List ProxyReview :=
  (sortByText Prod.fst (collectProxies index.canonicalRecords)).map
    (reviewProxy index.legacyTransportAliases)

/-- An alias that a transport policy asks for: the same replacement under other checksums and
selectors. -/
structure SampledAliasRecord where
  sampledEntryPcrc : Option Text
  sampledSparsePcrc : Option Text
  aliasSuffix : Option Text
  selectorChecksum64s : List Text
  includeZeroSelector : Bool
  status : Option Text
  justification : Option Text
  deriving DecidableEq, Repr

/-- What a transport policy says of a proxy. -/
structure ProxyPolicy where
  selectedReplacementId : Option Text
  suggestedReplacementId : Option Text
  status : Option Text
  reason : Option Text
  justification : Option Text
  sampledAliasRecords : List SampledAliasRecord
  deriving DecidableEq, Repr

/-- What is said of a proxy that the policy does not name. -/
def emptyProxyPolicy : ProxyPolicy where
  selectedReplacementId := none
  suggestedReplacementId := none
  status := none
  reason := none
  justification := none
  sampledAliasRecords := []

abbrev TransportPolicy := Dict Text ProxyPolicy

def policyRecord (policy : TransportPolicy) (proxyId : Text) : ProxyPolicy :=
  (policy.get? proxyId).getD emptyProxyPolicy

/-- Why a replacement was selected without a policy. -/
inductive AutoSelectionRule where
  | deterministicSingletonSourcePolicy
  | runtimeReadySingleton
  deriving DecidableEq, Repr

def AutoSelectionRule.text : AutoSelectionRule → Text
  | .deterministicSingletonSourcePolicy => "deterministic-singleton-source-policy".toList
  | .runtimeReadySingleton => "runtime-ready-singleton".toList

/-- A candidate that a binding carries, under a selector or under none. -/
structure BoundCandidate where
  candidate : TransportCandidate
  selectorChecksum64 : Option Text
  deriving DecidableEq, Repr

/-- Where the selection of a binding comes from. -/
inductive BindingOrigin where
  | policy (record : ProxyPolicy)
  | autoSelected (rule : AutoSelectionRule)
      (sourcePolicyStatusCounts : Dict (Option SelectorStatus) Nat)
  | sampledAlias (baseProxyId : Text) (selectedReplacementId : Option Text)
      (record : SampledAliasRecord)
  deriving DecidableEq, Repr

/-- What bindings and unresolved cases of a proxy have in common. -/
structure ProxyBase where
  policyKey : Text
  sampledObjectId : Text
  identity : SampledIdentity
  runtimeReady : Bool
  sourceHintIds : List SampledObjectId
  sourceHintLow32s : List Text
  sourcePolicyKeys : List FamilyKey
  sourcePolicyStatusCounts : Dict (Option SelectorStatus) Nat
  transportCandidateCount : Nat
  uploadLow32s : List Upload
  deriving DecidableEq, Repr

structure Binding where
  base : ProxyBase
  status : Text
  selectionReason : Text
  transportCandidates : List BoundCandidate
  transportPolicy : BindingOrigin
  deriving DecidableEq, Repr

structure UnresolvedCase where
  base : ProxyBase
  status : Text
  reason : Text
  selectionReason : Option Text
  selectedReplacementId : Option Text
  suggestedReplacementId : Option Text
  transportCandidates : List TransportCandidate
  transportPolicy : ProxyPolicy
  deriving DecidableEq, Repr

def makeProxyBase (group : ProxyReview) : ProxyBase where
  policyKey := group.proxySampledObjectId
  sampledObjectId := group.proxySampledObjectId
  identity := group.proxyIdentity.identity
  runtimeReady := group.proxyIdentity.runtimeReady
  sourceHintIds := group.sourceHintIds
  sourceHintLow32s := group.sourceHintLow32s
  sourcePolicyKeys := group.sourcePolicyKeys
  sourcePolicyStatusCounts := group.sourcePolicyStatusCounts
  transportCandidateCount := group.transportCandidateCount
  uploadLow32s := group.sourceHintLow32s.map fun value => { value, count := none }

/-- A candidate under a selector, with the selector in the name of its group. -/
def cloneUnderSelector (selector : Text) (candidate : TransportCandidate) : BoundCandidate where
  candidate := {
    candidate with
    variantGroupId := some ((truthy candidate.variantGroupId).getD "selector-alias".toList ++
      "-sel-".toList ++ selector) }
  selectorChecksum64 := some selector

def bindWithoutSelector (candidate : TransportCandidate) : BoundCandidate where
  candidate := candidate
  selectorChecksum64 := none

def cloneTransportCandidates (selected : List TransportCandidate) (selectors : List Text)
    (includeZeroSelector : Bool) : List BoundCandidate :=
  (if includeZeroSelector then selected.map bindWithoutSelector else []) ++
    selectors.flatMap fun selector => selected.map (cloneUnderSelector selector)

/-- The binding of an alias, if its record has a checksum. -/
def aliasBinding (base : ProxyBase) (selected : List TransportCandidate) (policy : ProxyPolicy)
    (record : SampledAliasRecord) : Option Binding :=
  (truthy record.sampledEntryPcrc).map fun entryPcrc =>
    let policyKey := base.policyKey ++ "#alias-".toList ++
      (truthy record.aliasSuffix).getD entryPcrc
    { base := {
        base with
        policyKey
        sampledObjectId := policyKey
        identity := {
          base.identity with
          candidateOrigin := some "runtime-sampled-probe-alias".toList
          sampledEntryPcrc := some entryPcrc
          sampledSparsePcrc := some (record.sampledSparsePcrc.getD entryPcrc) } }
      status := (truthy record.status).getD "selected-alias".toList
      selectionReason := (truthy record.justification).getD "proxy-selector-alias".toList
      transportCandidates := cloneTransportCandidates selected record.selectorChecksum64s
        record.includeZeroSelector
      transportPolicy := .sampledAlias base.policyKey policy.selectedReplacementId record }

def buildAliasBindings (base : ProxyBase) (selected : List TransportCandidate)
    (policy : ProxyPolicy) : List Binding :=
  policy.sampledAliasRecords.filterMap (aliasBinding base selected policy)

/-- The rule by which the only candidate of a group is selected without a policy. -/
def autoSelection (enabled : Bool) (group : ProxyReview) :
    Option (AutoSelectionRule × TransportCandidate) :=
  match enabled, group.transportCandidates with
  | true, [candidate] =>
    let statuses := (group.sourcePolicyStatusCounts.filter fun entry => entry.2 != 0).map Prod.fst
    if statuses ≠ [] ∧ statuses.all (· == some .deterministic) then
      some (.deterministicSingletonSourcePolicy, candidate)
    else if statuses = [] ∧ group.proxyIdentity.runtimeReady then
      some (.runtimeReadySingleton, candidate)
    else none
  | _, _ => none

/-- What becomes of a proxy: the bindings and the unresolved cases that it adds. -/
structure ProxyOutcome where
  bindings : List Binding
  unresolved : List UnresolvedCase

/-- The unresolved case of a selection that is not among the candidates. -/
def invalidSelection (group : ProxyReview) (policy : ProxyPolicy) (selected : Text) :
    UnresolvedCase where
  base := makeProxyBase group
  status := "invalid-selection".toList
  reason := "selected-replacement-id-not-found".toList
  selectionReason := none
  selectedReplacementId := some selected
  suggestedReplacementId := none
  transportCandidates := group.transportCandidates
  transportPolicy := policy

/-- The unresolved case of a proxy without a selection. -/
def selectionRequired (group : ProxyReview) (policy : ProxyPolicy) : UnresolvedCase where
  base := makeProxyBase group
  status := (truthy policy.status).getD "manual-review-required".toList
  reason := (truthy policy.reason).getD "proxy-transport-selection-required".toList
  selectionReason := policy.justification
  selectedReplacementId := none
  suggestedReplacementId := policy.suggestedReplacementId
  transportCandidates := group.transportCandidates
  transportPolicy := policy

/-- Bind a proxy to the replacement that is selected for it. -/
def bindSelected (group : ProxyReview) (policy : ProxyPolicy) (selectedReplacementId : Text)
    (rule : Option AutoSelectionRule) : ProxyOutcome :=
  let base := makeProxyBase group
  match group.transportCandidates.filter fun candidate =>
    candidate.replacementId.text == selectedReplacementId with
  | [candidate] =>
    let binding : Binding := {
      base
      status := (truthy policy.status).getD
        (if rule.isSome then "auto-selected".toList else "selected".toList)
      selectionReason := (truthy policy.justification).getD
        ((rule.map AutoSelectionRule.text).getD "proxy-transport-selected".toList)
      transportCandidates := [bindWithoutSelector candidate]
      transportPolicy :=
        match rule with
        | some rule => .autoSelected rule group.sourcePolicyStatusCounts
        | none => .policy policy }
    { bindings := binding ::
        if rule.isSome then [] else buildAliasBindings base [candidate] policy
      unresolved := [] }
  | _ =>
    { bindings := []
      unresolved := [invalidSelection group policy selectedReplacementId] }

def processProxy (policy : TransportPolicy) (autoSelect : Bool) (group : ProxyReview) :
    ProxyOutcome :=
  let record := policyRecord policy group.proxySampledObjectId
  match truthy record.selectedReplacementId with
  | some selected => bindSelected group record selected none
  | none =>
    match autoSelection autoSelect group with
    | some (rule, candidate) =>
      bindSelected group record candidate.replacementId.text (some rule)
    | none => { bindings := [], unresolved := [selectionRequired group record] }

structure ProxyBindings where
  bindings : List Binding
  unresolvedTransportCases : List UnresolvedCase

def buildProxyBindings (index : ImportedIndex) (policy : TransportPolicy)
    (autoSelectDeterministicSingletons : Bool) : ProxyBindings :=
  let outcomes := (buildProxyView index).map
    (processProxy policy autoSelectDeterministicSingletons)
  { bindings := sortByText (·.base.policyKey) (outcomes.flatMap (·.bindings))
    unresolvedTransportCases :=
      sortByText (·.base.policyKey) (outcomes.flatMap (·.unresolved)) }

end ParallelN64.Migrate
