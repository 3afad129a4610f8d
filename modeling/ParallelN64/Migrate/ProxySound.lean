import ParallelN64.Migrate.Proxies

/-!
# What proxy bindings promise

Each proxy becomes one binding or one unresolved case. A binding has one candidate for each
selector that it lists. Without a selection of the policy a proxy is bound only if the records
that point at it offer one replacement, and if all policy keys linked to them are known as
deterministic, or none is linked and the runtime knows the proxy.
-/

namespace ParallelN64.Migrate

open ParallelN64.Core Phrb

def proxyIds (index : ImportedIndex) : List Text :=
  (pointers index.canonicalRecords).map pointedId

def pointersTo (index : ImportedIndex) (proxyId : Text) : List (CanonicalRecord × Proxy) :=
  (pointers index.canonicalRecords).filter fun pointer => decide (pointedId pointer = proxyId)

def offeredReplacements (index : ImportedIndex) (proxyId : Text) : List Text :=
  (pointersTo index proxyId).flatMap fun pointer =>
    pointer.1.transportCandidates.map (·.replacementId.text)

def linkedKeys (index : ImportedIndex) (proxyId : Text) : List FamilyKey :=
  (pointersTo index proxyId).flatMap (·.1.linkedPolicyKeys)

def KnownDeterministic (aliases : List TransportAlias) (key : FamilyKey) : Prop :=
  ∃ link, (aliases.reverse.find? fun link => link.policyKey == key) = some link ∧
    link.status = .deterministic

def ProxyReady (index : ImportedIndex) (proxyId : Text) : Prop :=
  ∃ pointer, (pointersTo index proxyId).head? = some pointer ∧ pointer.2.runtimeReady = true

/-- The condition under which a proxy may be bound without a selection of the policy. -/
structure AutoSelectable (index : ImportedIndex) (proxyId : Text) : Prop where
  singleton : ∃ id, ∀ offered, offered ∈ offeredReplacements index proxyId ↔ offered = id
  deterministic : (linkedKeys index proxyId ≠ [] ∧
      ∀ key ∈ linkedKeys index proxyId, KnownDeterministic index.legacyTransportAliases key) ∨
    linkedKeys index proxyId = [] ∧ ProxyReady index proxyId

def Binding.isAlias (binding : Binding) : Bool :=
  match binding.transportPolicy with
  | .sampledAlias _ _ _ => true
  | _ => false

def Binding.baseProxyId (binding : Binding) : Text :=
  match binding.transportPolicy with
  | .sampledAlias baseProxyId _ _ => baseProxyId
  | _ => binding.base.policyKey

variable {binding : Binding} {candidates : Dict Text TransportCandidate} {group : ProxyGroup}
variable {index : ImportedIndex} {proxyId : Text} {policy : TransportPolicy} {autoSelect : Bool}

theorem baseProxyId_of_not_alias (h : binding.isAlias = false) :
    binding.baseProxyId = binding.base.policyKey := by
  unfold Binding.baseProxyId
  cases horigin : binding.transportPolicy with
  | policy record => rfl
  | autoSelected rule counts => rfl
  | sampledAlias baseProxyId selected record =>
    rw [Binding.isAlias, horigin] at h
    cases h

/-- The selectors that a binding lists: none but for an alias, whose record may list the zero
selector and others. -/
def Binding.selectors (binding : Binding) : List (Option Text) :=
  match binding.transportPolicy with
  | .sampledAlias _ _ record =>
    (if record.includeZeroSelector then [none] else []) ++ record.selectorChecksum64s.map some
  | _ => [none]

def bindsProxy (proxyId : Text) (binding : Binding) : Bool :=
  !binding.isAlias && binding.base.policyKey == proxyId

def leavesProxy (proxyId : Text) (unresolved : UnresolvedCase) : Bool :=
  unresolved.base.policyKey == proxyId

/-- Every proxy is bound once or left for review once; a binding has its candidates under its
selectors, repeated ones counted, and what was selected automatically was the only choice. -/
structure SoundBindings (index : ImportedIndex) (policy : TransportPolicy)
    (result : ProxyBindings) : Prop where
  partition : ∀ proxyId ∈ proxyIds index,
    ((result.bindings.filter (bindsProxy proxyId)).length = 1 ∧
      result.unresolvedTransportCases.filter (leavesProxy proxyId) = []) ∨
    (result.bindings.filter (bindsProxy proxyId) = [] ∧
      (result.unresolvedTransportCases.filter (leavesProxy proxyId)).length = 1)
  selectors : ∀ binding ∈ result.bindings,
    binding.transportCandidates.map (·.selectorChecksum64) = binding.selectors ∧
      ∃ id, ∀ bound ∈ binding.transportCandidates, bound.candidate.replacementId = id
  autoSelected : ∀ binding ∈ result.bindings,
    truthy (policyRecord policy binding.baseProxyId).selectedReplacementId = none →
      AutoSelectable index binding.baseProxyId

/-- The candidates of a group: under distinct identifiers, each under its own. -/
structure CandidatesKeyed (candidates : Dict Text TransportCandidate) : Prop where
  distinct : candidates.Distinct
  own_key : ∀ entry ∈ candidates, entry.1 = entry.2.replacementId.text

theorem CandidatesKeyed.offer (h : CandidatesKeyed candidates) (candidate : TransportCandidate) :
    CandidatesKeyed (offerCandidate candidates candidate) := by
  refine ⟨h.distinct.setDefault _ _, ?_⟩
  unfold offerCandidate Dict.setDefault
  split
  · exact h.own_key
  · intro entry hentry
    rcases List.mem_append.mp hentry with hmem | hmem
    · exact h.own_key entry hmem
    · rw [List.mem_singleton] at hmem
      rw [hmem]

theorem mem_keys_foldl_offerCandidate {offered : List TransportCandidate} {id : Text} :
    id ∈ (offered.foldl offerCandidate candidates).map Prod.fst ↔
      id ∈ candidates.map Prod.fst ∨ id ∈ offered.map (·.replacementId.text) := by
  induction offered generalizing candidates with
  | nil => simp
  | cons candidate offered ih =>
    rw [List.foldl_cons, ih, offerCandidate, Dict.mem_keys_setDefault, List.map_cons,
      List.mem_cons]
    tauto

theorem CandidatesKeyed.foldl_offer (h : CandidatesKeyed candidates)
    (offered : List TransportCandidate) :
    CandidatesKeyed (offered.foldl offerCandidate candidates) := by
  induction offered generalizing candidates with
  | nil => exact h
  | cons candidate offered ih => exact ih (h.offer candidate)

/-- What the records that point at a proxy make of its group. -/
structure Gathered (group : ProxyGroup) (l : List (CanonicalRecord × Proxy)) : Prop where
  keyed : CandidatesKeyed group.transportCandidates
  offered : ∀ id, id ∈ group.transportCandidates.map Prod.fst ↔
    id ∈ l.flatMap fun pointer => pointer.1.transportCandidates.map (·.replacementId.text)
  linked : ∀ key, key ∈ group.sourcePolicyKeys ↔ key ∈ l.flatMap (·.1.linkedPolicyKeys)
  proxy : ∃ pointer, l.head? = some pointer ∧ group.proxy = pointer.2

theorem gathered_singleton (pointer : CanonicalRecord × Proxy) :
    Gathered (ProxyGroup.addRecord pointer (newProxyGroup pointer)) [pointer] := by
  have hempty : CandidatesKeyed ([] : Dict Text TransportCandidate) := by
    refine ⟨List.nodup_nil, ?_⟩
    intro entry hentry
    cases hentry
  refine ⟨hempty.foldl_offer _, ?_, ?_, ⟨pointer, rfl, rfl⟩⟩
  · intro id
    simp only [ProxyGroup.addRecord, newProxyGroup, mem_keys_foldl_offerCandidate,
      List.flatMap_cons, List.flatMap_nil, List.append_nil, List.map_nil, List.not_mem_nil,
      false_or]
  · intro key
    simp only [ProxyGroup.addRecord, newProxyGroup, mem_foldl_addNew, List.flatMap_cons,
      List.flatMap_nil, List.append_nil, List.not_mem_nil, false_or]

theorem Gathered.add {l : List (CanonicalRecord × Proxy)} (h : Gathered group l)
    (pointer : CanonicalRecord × Proxy) : Gathered (group.addRecord pointer) (l ++ [pointer]) := by
  refine ⟨h.keyed.foldl_offer _, ?_, ?_, ?_⟩
  · intro id
    simp only [ProxyGroup.addRecord, mem_keys_foldl_offerCandidate, h.offered,
      List.flatMap_append, List.mem_append, List.flatMap_cons, List.flatMap_nil,
      List.append_nil]
  · intro key
    simp only [ProxyGroup.addRecord, mem_foldl_addNew, h.linked, List.flatMap_append,
      List.mem_append, List.flatMap_cons, List.flatMap_nil, List.append_nil]
  · obtain ⟨first, hfirst, hproxy⟩ := h.proxy
    refine ⟨first, ?_, hproxy⟩
    rw [List.head?_append, hfirst]
    rfl

theorem Gathered.foldl {l : List (CanonicalRecord × Proxy)} (h : Gathered group l)
    (rest : List (CanonicalRecord × Proxy)) :
    Gathered (rest.foldl (fun group pointer => group.addRecord pointer) group) (l ++ rest) := by
  induction rest generalizing group l with
  | nil => rwa [List.append_nil]
  | cons pointer rest ih =>
    rw [List.foldl_cons, List.append_cons]
    exact ih (h.add pointer)

theorem gathered_of_get? (h : (collectProxies index.canonicalRecords).get? proxyId = some group) :
    Gathered group (pointersTo index proxyId) := by
  unfold collectProxies at h
  cases hpointers : pointersTo index proxyId with
  | nil =>
    rw [Dict.get?_accumulated_nil _ _ _ hpointers] at h
    cases h
  | cons pointer rest =>
    rw [Dict.get?_accumulated_cons _ _ _ hpointers, Option.some.injEq] at h
    rw [← h]
    exact (gathered_singleton pointer).foldl rest

theorem mem_keys_collectProxies :
    proxyId ∈ (collectProxies index.canonicalRecords).map Prod.fst ↔
      proxyId ∈ proxyIds index := by
  rw [← not_iff_not, ← Dict.get?_eq_none_iff]
  have hmem : proxyId ∉ proxyIds index ↔ pointersTo index proxyId = [] := by
    simp only [proxyIds, pointersTo, List.mem_map, List.filter_eq_nil_iff, decide_eq_true_eq]
    constructor
    · intro h pointer hpointer hid
      exact h ⟨pointer, hpointer, hid⟩
    · rintro h ⟨pointer, hpointer, hid⟩
      exact h pointer hpointer hid
  rw [hmem]
  constructor
  · intro hnone
    cases hpointers : pointersTo index proxyId with
    | nil => rfl
    | cons pointer rest =>
      unfold collectProxies at hnone
      rw [Dict.get?_accumulated_cons _ _ _ hpointers] at hnone
      cases hnone
  · intro hnil
    exact Dict.get?_accumulated_nil _ _ _ hnil

theorem get?_linkByPolicy {aliases : List TransportAlias} {key : FamilyKey} :
    (linkByPolicy aliases).get? key =
      aliases.reverse.find? fun link => link.policyKey == key := by
  have hrun : ∀ links : Dict FamilyKey TransportAlias,
      (aliases.foldl (fun links link => links.assign link.policyKey link) links).get? key =
        (aliases.reverse.find? fun link => link.policyKey == key).or (links.get? key) := by
    induction aliases with
    | nil => exact fun links => rfl
    | cons link aliases ih =>
      intro links
      rw [List.foldl_cons, ih, Dict.get?_assign, List.reverse_cons, List.find?_append,
        Option.or_assoc, List.find?_singleton]
      by_cases hkey : link.policyKey = key
      · simp [hkey]
      · simp [hkey, Ne.symm hkey]
  rw [linkByPolicy, hrun, Dict.get?_nil, Option.or_none]

theorem policyStatus_eq_some_iff {aliases : List TransportAlias} {key : FamilyKey} :
    policyStatus aliases key = some .deterministic ↔ KnownDeterministic aliases key := by
  rw [policyStatus, get?_linkByPolicy, Option.map_eq_some_iff]
  rfl

theorem foldl_countStatus {statuses : List (Option SelectorStatus)}
    {counts : Dict (Option SelectorStatus) Nat} (hcounts : ∀ entry ∈ counts, entry.2 ≠ 0)
    (status : Option SelectorStatus) :
    (∀ entry ∈ statuses.foldl countStatus counts, entry.2 ≠ 0) ∧
      (status ∈ (statuses.foldl countStatus counts).map Prod.fst ↔
        status ∈ counts.map Prod.fst ∨ status ∈ statuses) := by
  induction statuses generalizing counts with
  | nil => simpa using hcounts
  | cons first statuses ih =>
    have hnext : ∀ entry ∈ countStatus counts first, entry.2 ≠ 0 := by
      intro entry hentry
      rcases Dict.mem_assign hentry with hmem | rfl
      · exact hcounts entry hmem
      · exact Nat.succ_ne_zero _
    obtain ⟨hnonzero, hmem⟩ := ih hnext
    refine ⟨hnonzero, ?_⟩
    rw [List.foldl_cons, hmem, countStatus, Dict.mem_keys_assign, List.mem_cons]
    tauto

theorem mem_countedStatuses {statuses : List (Option SelectorStatus)}
    {status : Option SelectorStatus} :
    status ∈ ((statuses.foldl countStatus []).filter fun entry => entry.2 != 0).map Prod.fst ↔
      status ∈ statuses := by
  have hempty : ∀ entry ∈ ([] : Dict (Option SelectorStatus) Nat), entry.2 ≠ 0 := by
    intro entry hentry
    cases hentry
  obtain ⟨hnonzero, hmem⟩ := foldl_countStatus hempty status
  rw [List.filter_eq_self.mpr (fun entry hentry => by simpa using hnonzero entry hentry), hmem]
  simp

theorem review_of_mem {review : ProxyReview} (h : review ∈ buildProxyView index) :
    ∃ proxyId group, Gathered group (pointersTo index proxyId) ∧
      proxyId ∈ proxyIds index ∧
      review = reviewProxy index.legacyTransportAliases (proxyId, group) := by
  obtain ⟨⟨proxyId, group⟩, hentry, rfl⟩ := List.mem_map.mp h
  rw [mem_sortByText] at hentry
  have hdistinct : (collectProxies index.canonicalRecords).Distinct :=
    Dict.Distinct.foldl_accumulate _ _ _ Dict.distinct_nil _
  have hget := (Dict.mem_iff_get? hdistinct).mp hentry
  refine ⟨proxyId, group, gathered_of_get? hget, ?_, rfl⟩
  exact mem_keys_collectProxies.mp (List.mem_map_of_mem hentry)

theorem reviewIds (index : ImportedIndex) :
    ((buildProxyView index).map (·.proxySampledObjectId)).Nodup ∧
      ∀ proxyId, proxyId ∈ (buildProxyView index).map (·.proxySampledObjectId) ↔
        proxyId ∈ proxyIds index := by
  have hdistinct : (collectProxies index.canonicalRecords).Distinct :=
    Dict.Distinct.foldl_accumulate _ _ _ Dict.distinct_nil _
  have hperm : ((buildProxyView index).map (·.proxySampledObjectId)).Perm
      ((collectProxies index.canonicalRecords).map Prod.fst) := by
    unfold buildProxyView
    rw [List.map_map]
    exact (sortByText_perm Prod.fst _).map Prod.fst
  refine ⟨hperm.nodup_iff.mpr hdistinct, ?_⟩
  intro proxyId
  rw [hperm.mem_iff, mem_keys_collectProxies]

theorem singleton_of_review (h : Gathered group (pointersTo index proxyId))
    {candidate : TransportCandidate} (hcandidates : (reviewProxy index.legacyTransportAliases
      (proxyId, group)).transportCandidates = [candidate]) :
    ∃ id, ∀ offered, offered ∈ offeredReplacements index proxyId ↔ offered = id := by
  have hperm := sortByText_perm (·.replacementId.text) (group.transportCandidates.map Prod.snd)
  have hsorted : sortByText (·.replacementId.text) (group.transportCandidates.map Prod.snd) =
      [candidate] := hcandidates
  rw [hsorted] at hperm
  have hlength := hperm.length_eq
  rw [List.length_map, List.length_singleton] at hlength
  obtain ⟨entry, hentries⟩ := List.length_eq_one_iff.mp hlength.symm
  refine ⟨entry.1, ?_⟩
  intro offered
  rw [offeredReplacements, ← h.offered, hentries]
  simp

theorem autoSelectable_of_review (h : Gathered group (pointersTo index proxyId)) {enabled : Bool}
    {selection : AutoSelectionRule × TransportCandidate} (hselection : autoSelection enabled
      (reviewProxy index.legacyTransportAliases (proxyId, group)) = some selection) :
    AutoSelectable index proxyId := by
  unfold autoSelection at hselection
  split at hselection
  · rename_i candidate hcandidates
    refine ⟨singleton_of_review h hcandidates, ?_⟩
    have hstatuses : ∀ status, status ∈ (((reviewProxy index.legacyTransportAliases
        (proxyId, group)).sourcePolicyStatusCounts.filter fun entry => entry.2 != 0).map
          Prod.fst) ↔ ∃ key ∈ linkedKeys index proxyId,
            policyStatus index.legacyTransportAliases key = status := by
      intro status
      rw [reviewProxy, mem_countedStatuses, List.mem_map]
      simp only [h.linked, linkedKeys]
    simp only at hselection
    split_ifs at hselection with hdet hready
    · left
      obtain ⟨hne, hall⟩ := hdet
      obtain ⟨status, hstatus⟩ := List.exists_mem_of_ne_nil _ hne
      obtain ⟨key, hkey, _⟩ := (hstatuses status).mp hstatus
      refine ⟨List.ne_nil_of_mem hkey, ?_⟩
      intro key hkey
      rw [List.all_eq_true] at hall
      have hdeterministic := hall _ ((hstatuses _).mpr ⟨key, hkey, rfl⟩)
      rw [beq_iff_eq] at hdeterministic
      exact policyStatus_eq_some_iff.mp hdeterministic
    · right
      obtain ⟨hnil, hproxy⟩ := hready
      constructor
      · rw [List.eq_nil_iff_forall_not_mem]
        intro key hkey
        have hmem := (hstatuses _).mpr ⟨key, hkey, rfl⟩
        rw [hnil] at hmem
        cases hmem
      · obtain ⟨pointer, hfirst, hsame⟩ := h.proxy
        refine ⟨pointer, hfirst, ?_⟩
        rw [← hsame]
        exact hproxy
  · cases hselection

section Outcomes

variable (group : ProxyReview) (policy : ProxyPolicy)

/-- The binding of a proxy to its selected candidate. -/
def selectedBinding (candidate : TransportCandidate) (rule : Option AutoSelectionRule) :
    Binding where
  base := makeProxyBase group
  status := (truthy policy.status).getD
    (if rule.isSome then "auto-selected".toList else "selected".toList)
  selectionReason := (truthy policy.justification).getD
    ((rule.map AutoSelectionRule.text).getD "proxy-transport-selected".toList)
  transportCandidates := [bindWithoutSelector candidate]
  transportPolicy :=
    match rule with
    | some rule => .autoSelected rule group.sourcePolicyStatusCounts
    | none => .policy policy

theorem bindSelected_cases (selected : Text) (rule : Option AutoSelectionRule) :
    (∃ candidate, (bindSelected group policy selected rule).bindings =
        (selectedBinding group policy candidate rule ::
          if rule.isSome then [] else
            buildAliasBindings (makeProxyBase group) [candidate] policy) ∧
      (bindSelected group policy selected rule).unresolved = []) ∨
    ((bindSelected group policy selected rule).bindings = [] ∧
      (bindSelected group policy selected rule).unresolved =
        [invalidSelection group policy selected]) := by
  unfold bindSelected
  simp only
  split
  · rename_i candidate _
    exact .inl ⟨candidate, rfl, rfl⟩
  · exact .inr ⟨rfl, rfl⟩

theorem selectedBinding_spec (candidate : TransportCandidate) (rule : Option AutoSelectionRule) :
    (selectedBinding group policy candidate rule).isAlias = false ∧
      (selectedBinding group policy candidate rule).base.policyKey =
        group.proxySampledObjectId ∧
      (selectedBinding group policy candidate rule).selectors = [none] := by
  cases rule with
  | none => exact ⟨rfl, rfl, rfl⟩
  | some rule => exact ⟨rfl, rfl, rfl⟩

variable {group} {policy}

theorem aliasBinding_spec {base : ProxyBase} {candidate : TransportCandidate} {binding : Binding}
    (h : binding ∈ buildAliasBindings base [candidate] policy) :
    binding.isAlias = true ∧ binding.baseProxyId = base.policyKey ∧
      binding.transportCandidates.map (·.selectorChecksum64) = binding.selectors ∧
      ∀ bound ∈ binding.transportCandidates,
        bound.candidate.replacementId = candidate.replacementId := by
  obtain ⟨record, _, hmade⟩ := List.mem_filterMap.mp h
  unfold aliasBinding at hmade
  obtain ⟨entryPcrc, _, rfl⟩ := Option.map_eq_some_iff.mp hmade
  refine ⟨rfl, rfl, ?_, ?_⟩
  · simp only [cloneTransportCandidates, Binding.selectors, List.map_append, List.map_cons,
      List.map_nil]
    congr 1
    · cases record.includeZeroSelector <;> rfl
    · induction record.selectorChecksum64s with
      | nil => rfl
      | cons selector selectors ih =>
        rw [List.flatMap_cons, List.map_append, ih]
        rfl
  · intro bound hbound
    simp only [cloneTransportCandidates, List.mem_append, List.mem_flatMap] at hbound
    rcases hbound with hzero | ⟨selector, _, hclone⟩
    · split at hzero
      · rw [List.map_cons, List.map_nil, List.mem_singleton] at hzero
        rw [hzero]
        rfl
      · cases hzero
    · rw [List.map_cons, List.map_nil, List.mem_singleton] at hclone
      rw [hclone]
      rfl

theorem mem_bindings_bindSelected {selected : Text} {rule : Option AutoSelectionRule}
    {binding : Binding} (h : binding ∈ (bindSelected group policy selected rule).bindings) :
    ∃ candidate, binding = selectedBinding group policy candidate rule ∨
      rule = none ∧ binding ∈ buildAliasBindings (makeProxyBase group) [candidate] policy := by
  rcases bindSelected_cases group policy selected rule with
    ⟨candidate, hbindings, _⟩ | ⟨hbindings, _⟩
  · rw [hbindings] at h
    refine ⟨candidate, ?_⟩
    rcases List.mem_cons.mp h with rfl | halias
    · exact .inl rfl
    · cases rule with
      | none => exact .inr ⟨rfl, halias⟩
      | some rule => cases halias
  · rw [hbindings] at h
    cases h

theorem bindSelected_partition (selected : Text) (rule : Option AutoSelectionRule) :
    (((bindSelected group policy selected rule).bindings.filter
          (bindsProxy group.proxySampledObjectId)).length = 1 ∧
        (bindSelected group policy selected rule).unresolved.filter
          (leavesProxy group.proxySampledObjectId) = []) ∨
      ((bindSelected group policy selected rule).bindings.filter
          (bindsProxy group.proxySampledObjectId) = [] ∧
        ((bindSelected group policy selected rule).unresolved.filter
          (leavesProxy group.proxySampledObjectId)).length = 1) := by
  rcases bindSelected_cases group policy selected rule with
    ⟨candidate, hbindings, hunresolved⟩ | ⟨hbindings, hunresolved⟩
  · left
    rw [hbindings, hunresolved]
    obtain ⟨hnotAlias, hkey, _⟩ := selectedBinding_spec group policy candidate rule
    have haliases : (if rule.isSome then [] else
        buildAliasBindings (makeProxyBase group) [candidate] policy).filter
          (bindsProxy group.proxySampledObjectId) = [] := by
      rw [List.filter_eq_nil_iff]
      intro binding hbinding hbinds
      split at hbinding
      · cases hbinding
      · have halias := (aliasBinding_spec hbinding).1
        simp [bindsProxy, halias] at hbinds
    rw [List.filter_cons, if_pos (by simp [bindsProxy, hnotAlias, hkey]), haliases]
    exact ⟨rfl, rfl⟩
  · right
    rw [hbindings, hunresolved]
    refine ⟨rfl, ?_⟩
    rw [List.filter_cons, if_pos (by simp [leavesProxy, invalidSelection, makeProxyBase])]
    rfl

end Outcomes

theorem processProxy_partition (policy : TransportPolicy) (autoSelect : Bool)
    (group : ProxyReview) :
    (((processProxy policy autoSelect group).bindings.filter
          (bindsProxy group.proxySampledObjectId)).length = 1 ∧
        (processProxy policy autoSelect group).unresolved.filter
          (leavesProxy group.proxySampledObjectId) = []) ∨
      ((processProxy policy autoSelect group).bindings.filter
          (bindsProxy group.proxySampledObjectId) = [] ∧
        ((processProxy policy autoSelect group).unresolved.filter
          (leavesProxy group.proxySampledObjectId)).length = 1) := by
  unfold processProxy
  simp only
  split
  · exact bindSelected_partition _ _
  · split
    · exact bindSelected_partition _ _
    · right
      refine ⟨rfl, ?_⟩
      rw [List.filter_cons, if_pos (by simp [leavesProxy, selectionRequired, makeProxyBase])]
      rfl

theorem mem_bindings_processProxy {group : ProxyReview}
    (h : binding ∈ (processProxy policy autoSelect group).bindings) :
    ∃ candidate rule,
      (binding = selectedBinding group (policyRecord policy group.proxySampledObjectId) candidate
          rule ∨
        rule = none ∧ binding ∈ buildAliasBindings (makeProxyBase group) [candidate]
          (policyRecord policy group.proxySampledObjectId)) ∧
      (truthy (policyRecord policy group.proxySampledObjectId).selectedReplacementId = none →
        ∃ selection, autoSelection autoSelect group = some selection) := by
  unfold processProxy at h
  simp only at h
  split at h
  · rename_i selected hselected
    obtain ⟨candidate, hcandidate⟩ := mem_bindings_bindSelected h
    refine ⟨candidate, none, hcandidate, ?_⟩
    intro hnone
    rw [hselected] at hnone
    cases hnone
  · split at h
    · rename_i rule candidate hselection
      obtain ⟨candidate', hcandidate⟩ := mem_bindings_bindSelected h
      exact ⟨candidate', some rule, hcandidate, fun _ => ⟨_, hselection⟩⟩
    · cases h

theorem baseProxyId_processProxy {group : ProxyReview}
    (h : binding ∈ (processProxy policy autoSelect group).bindings) :
    binding.baseProxyId = group.proxySampledObjectId := by
  obtain ⟨candidate, rule, rfl | ⟨_, halias⟩, _⟩ := mem_bindings_processProxy h
  · cases rule with
    | none => rfl
    | some rule => rfl
  · exact (aliasBinding_spec halias).2.1

theorem policyKey_unresolved_processProxy {group : ProxyReview} {unresolved : UnresolvedCase}
    (h : unresolved ∈ (processProxy policy autoSelect group).unresolved) :
    unresolved.base.policyKey = group.proxySampledObjectId := by
  have hbind : ∀ selected rule, unresolved ∈ (bindSelected group
      (policyRecord policy group.proxySampledObjectId) selected rule).unresolved →
        unresolved.base.policyKey = group.proxySampledObjectId := by
    intro selected rule h
    rcases bindSelected_cases group (policyRecord policy group.proxySampledObjectId) selected
      rule with ⟨_, _, hunresolved⟩ | ⟨_, hunresolved⟩
    · rw [hunresolved] at h
      cases h
    · rw [hunresolved, List.mem_singleton] at h
      rw [h]
      rfl
  unfold processProxy at h
  simp only at h
  split at h
  · exact hbind _ _ h
  · split at h
    · exact hbind _ _ h
    · rw [List.mem_singleton] at h
      rw [h]
      rfl

/-- The bindings of any index under any transport policy keep their promises. -/
theorem buildProxyBindings_sound (index : ImportedIndex) (policy : TransportPolicy)
    (autoSelect : Bool) :
    SoundBindings index policy (buildProxyBindings index policy autoSelect) := by
  have hbinding : ∀ binding ∈ (buildProxyBindings index policy autoSelect).bindings,
      ∃ group ∈ buildProxyView index,
        binding ∈ (processProxy policy autoSelect group).bindings := by
    intro binding hmem
    simp only [buildProxyBindings, mem_sortByText, List.mem_flatMap, List.mem_map] at hmem
    obtain ⟨_, ⟨group, hgroup, rfl⟩, hmem⟩ := hmem
    exact ⟨group, hgroup, hmem⟩
  constructor
  · intro proxyId hproxy
    obtain ⟨hnodup, hids⟩ := reviewIds index
    obtain ⟨group, hgroup, rfl⟩ := List.mem_map.mp ((hids proxyId).mpr hproxy)
    have hbound : ((buildProxyBindings index policy autoSelect).bindings.filter
        (bindsProxy group.proxySampledObjectId)).Perm
          ((processProxy policy autoSelect group).bindings.filter
            (bindsProxy group.proxySampledObjectId)) := by
      refine ((sortByText_perm _ _).filter _).trans (List.Perm.of_eq ?_)
      rw [List.flatMap_map]
      refine filter_flatMap_key hnodup ?_ hgroup
      intro other _ id binding hmem hbinds
      simp only [bindsProxy, Bool.and_eq_true, Bool.not_eq_true', beq_iff_eq] at hbinds
      rw [← baseProxyId_processProxy hmem, ← hbinds.2]
      exact baseProxyId_of_not_alias hbinds.1
    have hleft : ((buildProxyBindings index policy autoSelect).unresolvedTransportCases.filter
        (leavesProxy group.proxySampledObjectId)).Perm
          ((processProxy policy autoSelect group).unresolved.filter
            (leavesProxy group.proxySampledObjectId)) := by
      refine ((sortByText_perm _ _).filter _).trans (List.Perm.of_eq ?_)
      rw [List.flatMap_map]
      refine filter_flatMap_key hnodup ?_ hgroup
      intro other _ id unresolved hmem hleaves
      rw [leavesProxy, beq_iff_eq] at hleaves
      rw [← policyKey_unresolved_processProxy hmem, hleaves]
    rw [hbound.length_eq, hleft.length_eq]
    rcases processProxy_partition policy autoSelect group with ⟨hone, hnil⟩ | ⟨hnil, hone⟩
    · left
      rw [hnil] at hleft
      exact ⟨hone, hleft.eq_nil⟩
    · right
      rw [hnil] at hbound
      exact ⟨hbound.eq_nil, hone⟩
  · intro binding hmem
    obtain ⟨group, _, hmem⟩ := hbinding binding hmem
    obtain ⟨candidate, rule, rfl | ⟨_, halias⟩, _⟩ := mem_bindings_processProxy hmem
    · refine ⟨(selectedBinding_spec _ _ _ _).2.2.symm, candidate.replacementId, ?_⟩
      intro bound hbound
      replace hbound : bound ∈ [bindWithoutSelector candidate] := hbound
      rw [List.mem_singleton] at hbound
      rw [hbound]
      rfl
    · obtain ⟨_, _, hselectors, hsame⟩ := aliasBinding_spec halias
      exact ⟨hselectors, candidate.replacementId, hsame⟩
  · intro binding hmem hnone
    obtain ⟨group, hgroup, hmem⟩ := hbinding binding hmem
    rw [baseProxyId_processProxy hmem] at hnone ⊢
    obtain ⟨_, _, _, hselected⟩ := mem_bindings_processProxy hmem
    obtain ⟨selection, hselection⟩ := hselected hnone
    obtain ⟨proxyId, gathered, hgathered, _, rfl⟩ := review_of_mem hgroup
    exact autoSelectable_of_review hgathered hselection

end ParallelN64.Migrate
