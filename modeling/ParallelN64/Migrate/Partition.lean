import ParallelN64.Migrate.ImportedIndex
import ParallelN64.Migrate.ScaleSound

/-!
# The classification of families

Tier, selector status and list of a family are computed from counts, from the variant groups
and from both. They agree but for one case: an override of the import policy makes the policy
of an ambiguous family deterministic and leaves the family unresolved.
-/

namespace ParallelN64.Migrate

open ParallelN64.Core Phrb

section Tiers

variable {entries : List CacheEntry} {key : FamilyKey}

theorem missingActivePool_iff :
    recommendedTier entries key = .missingActivePool ↔ activeEntries entries key = [] := by
  unfold recommendedTier classifyFamily buildFamilySummary activePool activeEntries
  by_cases hexact : (exactEntries entries key).isEmpty = true
  · rw [List.isEmpty_iff] at hexact
    simp only [hexact, List.isEmpty_nil, if_true, reduceCtorEq, if_false, List.length_eq_zero_iff]
    split_ifs with hempty
    · simp [hempty]
    · simp [hempty]
    · simp [hempty]
    · simp [hempty]
  · simp only [if_neg hexact, if_true, reduceCtorEq, false_iff]
    rw [List.isEmpty_iff] at hexact
    exact hexact

theorem dims_of_isCompat (h : (recommendedTier entries key).IsCompat) :
    ((activeEntries entries key).map fun e => (e.head.width, e.head.height)).dedup.length = 1 := by
  unfold Tier.IsCompat recommendedTier classifyFamily buildFamilySummary at h
  simp only at h
  split_ifs at h <;> simp_all

theorem variantGroupList_of_dims
    (h : ((activeEntries entries key).map fun e => (e.head.width, e.head.height)).dedup.length
      = 1) :
    ∃ group, variantGroupList entries key = [group] ∧
      groupMembers entries key group.variantGroupId = activeEntries entries key := by
  obtain ⟨dims, hdims⟩ := List.length_eq_one_iff.mp h
  have hsame : ∀ e ∈ activeEntries entries key, makeVariantGroupId key.formatsize e =
      { textureCrc := key.textureCrc, requestedFormatsize := key.formatsize
        width := dims.1, height := dims.2 } := by
    intro e he
    have hmem : (e.head.width, e.head.height) ∈ ((activeEntries entries key).map fun e =>
        (e.head.width, e.head.height)).dedup := by
      rw [List.mem_dedup, List.mem_map]
      exact ⟨e, he, rfl⟩
    rw [hdims, List.mem_singleton] at hmem
    rw [makeVariantGroupId, mem_activeEntries he, ← hmem]
  have hmembers : groupMembers entries key
      { textureCrc := key.textureCrc, requestedFormatsize := key.formatsize
        width := dims.1, height := dims.2 } = activeEntries entries key := by
    rw [groupMembers, List.filter_eq_self]
    intro e he
    rw [hsame e he, beq_self_eq_true]
  have hne : activeEntries entries key ≠ [] := by
    intro hempty
    rw [hempty] at hdims
    cases hdims
  obtain ⟨entry, hentry⟩ := List.exists_mem_of_ne_nil _ hne
  obtain ⟨group, hgroup, hid⟩ := exists_group_of_mem hentry
  rw [hsame entry hentry] at hid
  refine ⟨group, ?_, by rw [hid, hmembers]⟩
  have hall : ∀ other ∈ variantGroupList entries key, other.variantGroupId =
      group.variantGroupId := by
    intro other hother
    obtain ⟨member, hmember⟩ := List.exists_mem_of_ne_nil _ (mem_variantGroupList.mp hother).1
    obtain ⟨hactive, hmemberId⟩ := List.mem_filter.mp hmember
    rw [beq_iff_eq] at hmemberId
    rw [← hmemberId, hsame member hactive, hid]
  have hnodup : ((variantGroupList entries key).map VariantGroup.variantGroupId).Nodup :=
    nodup_variantGroupList
  cases hlist : variantGroupList entries key with
  | nil =>
    rw [hlist] at hgroup
    cases hgroup
  | cons first rest =>
    cases rest with
    | nil =>
      rw [hlist, List.mem_singleton] at hgroup
      rw [hgroup]
    | cons second rest =>
      rw [hlist] at hall hnodup
      have hfirst := hall first List.mem_cons_self
      have hsecond := hall second (List.mem_cons_of_mem _ List.mem_cons_self)
      rw [List.map_cons, List.map_cons, hfirst, hsecond] at hnodup
      simp at hnodup

theorem variantGroupList_eq_nil (h : activeEntries entries key = []) :
    variantGroupList entries key = [] := by
  rw [List.eq_nil_iff_forall_not_mem]
  intro group hgroup
  have hne := (mem_variantGroupList.mp hgroup).1
  rw [groupMembers, h] at hne
  exact hne rfl

end Tiers

/-- An element is where its selector policy puts it. -/
structure Classified (entries : List CacheEntry) (importedRecords : RecordIndex)
    (type : FamilyType) (family : Family) : Prop where
  resolved_iff : type ≠ .unresolved ↔ family.selectorPolicy.status = .deterministic
  candidates : type ≠ .unresolved →
    ∃ id, family.selectorPolicy.selectedVariantGroupId = some id ∧
      family.candidateReplacementIds =
        (groupMembers entries family.policyKey id).map makeReplacementId ∧
      family.candidateReplacementIds ≠ []
  ready_iff : (makeFamilyRuntimeStub importedRecords type family).runtimeReady = true ↔
    family.selectorPolicy.status = .deterministic

theorem Classified.of_candidates {entries : List CacheEntry} {importedRecords : RecordIndex}
    {type : FamilyType} {family : Family}
    (hresolved : type ≠ .unresolved ↔ family.selectorPolicy.status = .deterministic)
    (hcandidates : type ≠ .unresolved →
      ∃ id, family.selectorPolicy.selectedVariantGroupId = some id ∧
        family.candidateReplacementIds =
          (groupMembers entries family.policyKey id).map makeReplacementId ∧
        family.candidateReplacementIds ≠ []) :
    Classified entries importedRecords type family := by
  refine ⟨hresolved, hcandidates, ?_⟩
  rw [← hresolved]
  simp only [makeFamilyRuntimeStub, Bool.and_eq_true, bne_iff_ne, ne_eq, Bool.not_eq_true']
  constructor
  · rintro ⟨htype, _⟩
    exact htype
  · intro htype
    obtain ⟨_, _, _, hne⟩ := hcandidates htype
    exact ⟨htype, by simpa using hne⟩

section Policy

variable {key : FamilyKey} {observation : Option Observation} {groups : List VariantGroup}
variable {tier : Tier}

theorem buildSelectorPolicy_some (htier : tier ≠ .missingActivePool) (selection : Selection) :
    (buildSelectorPolicy key observation groups tier (some selection)).status = .deterministic ∧
      (buildSelectorPolicy key observation groups tier (some selection)).selectedVariantGroupId =
        some selection.selectedVariantGroupId := by
  unfold buildSelectorPolicy
  rw [if_neg htier]
  exact ⟨rfl, rfl⟩

theorem buildSelectorPolicy_singleton (htier : tier ≠ .missingActivePool)
    (group : VariantGroup) :
    ((buildSelectorPolicy key observation [group] tier none).status = .deterministic ↔
        tier.IsCompat ∨ tier = .exactAuthoritative) ∧
      (tier.IsCompat ∨ tier = .exactAuthoritative →
        (buildSelectorPolicy key observation [group] tier none).selectedVariantGroupId =
          some group.variantGroupId) := by
  unfold buildSelectorPolicy
  rw [if_neg htier]
  simp only [List.length_cons, List.length_nil, Nat.zero_add, and_true]
  by_cases hdetermined : tier.IsCompat ∨ tier = .exactAuthoritative
  · simp [hdetermined]
  · simp [hdetermined]

theorem buildSelectorPolicy_many (htier : tier ≠ .missingActivePool)
    (hgroups : groups.length ≠ 1) :
    (buildSelectorPolicy key observation groups tier none).status = .deterministic ↔
      tier.IsCompat := by
  unfold buildSelectorPolicy
  rw [if_neg htier]
  match groups, hgroups with
  | [], _ => simp
  | [group], hgroups => exact absurd rfl hgroups
  | _ :: _ :: _, _ => simp

end Policy

theorem selectReplacementIds_of_selected {entries : List CacheEntry} {key : FamilyKey}
    {policy : SelectorPolicy} {replacementIds : List ReplacementId} {group : VariantGroup}
    (hgroup : group ∈ variantGroupList entries key)
    (hselected : policy.selectedVariantGroupId = some group.variantGroupId) :
    selectReplacementIdsFromSelectorPolicy policy replacementIds
        (variantGroupEntries entries key) =
      (groupMembers entries key group.variantGroupId).map makeReplacementId := by
  have hne := (mem_variantGroupList.mp hgroup).1
  unfold selectReplacementIdsFromSelectorPolicy
  rw [hselected]
  simp only
  have hget : ((variantGroupEntries entries key).get? group.variantGroupId).getD [] =
      groupMembers entries key group.variantGroupId := by
    rw [get?_variantGroupEntries, if_neg (by simpa using hne)]
    rfl
  rw [hget, if_neg (by simpa using hne)]

section Classify

variable {entries : List CacheEntry} {key : FamilyKey}
variable {observation : Option Observation} {sampledCandidates : List SampledObject}
variable {familyPolicy : Option FamilyPolicy} {importedRecords : RecordIndex}

/-- The selector policy of a family that follows a selection. -/
def followedPolicy (entries : List CacheEntry) (key : FamilyKey)
    (observation : Option Observation) (familyPolicy : Option FamilyPolicy)
    (selection : Option Selection) : SelectorPolicy :=
  { buildSelectorPolicy key observation (variantGroupList entries key)
      (recommendedTier entries key) selection with
    appliedPolicy := familyPolicy }

theorem singleton_of_isCompat (hcompat : (recommendedTier entries key).IsCompat) :
    ∃ group, variantGroupList entries key = [group] ∧
      groupMembers entries key group.variantGroupId = activeEntries entries key :=
  variantGroupList_of_dims (dims_of_isCompat hcompat)

theorem ne_missing_of_isCompat {tier : Tier} (hcompat : tier.IsCompat) :
    tier ≠ .missingActivePool := by
  rintro rfl
  rcases hcompat with h | h <;> cases h

variable {selection : Option Selection}

theorem selected_of_deterministic
    (hselection : ∀ s ∈ selection, ∃ group ∈ variantGroupList entries key,
      s.selectedVariantGroupId = group.variantGroupId)
    (htier : recommendedTier entries key = .exactAuthoritative ∨
      (recommendedTier entries key).IsCompat)
    (hdet : (followedPolicy entries key observation familyPolicy selection).status =
      .deterministic) :
    ∃ group ∈ variantGroupList entries key,
      (followedPolicy entries key observation familyPolicy selection).selectedVariantGroupId =
        some group.variantGroupId := by
  have hmissing : recommendedTier entries key ≠ .missingActivePool := by
    rcases htier with h | h
    · simp [h]
    · exact ne_missing_of_isCompat h
  cases selection with
  | some s =>
    obtain ⟨group, hgroup, hid⟩ := hselection s rfl
    refine ⟨group, hgroup, ?_⟩
    rw [← hid]
    exact (buildSelectorPolicy_some hmissing s).2
  | none =>
    have hsingleton : ∃ group, variantGroupList entries key = [group] := by
      rcases htier with h | h
      · rw [← List.length_eq_one_iff]
        by_contra hmany
        have hcompat := (buildSelectorPolicy_many hmissing hmany).mp hdet
        rw [h] at hcompat
        rcases hcompat with hcompat | hcompat <;> cases hcompat
      · obtain ⟨group, hgroups, _⟩ := singleton_of_isCompat h
        exact ⟨group, hgroups⟩
    obtain ⟨group, hgroups⟩ := hsingleton
    refine ⟨group, by rw [hgroups]; exact List.mem_singleton_self _, ?_⟩
    unfold followedPolicy
    rw [hgroups]
    exact (buildSelectorPolicy_singleton hmissing group).2 htier.symm

theorem deterministic_of_isCompat (hcompat : (recommendedTier entries key).IsCompat) :
    (followedPolicy entries key observation familyPolicy selection).status = .deterministic := by
  have hmissing := ne_missing_of_isCompat hcompat
  cases selection with
  | some s => exact (buildSelectorPolicy_some hmissing s).1
  | none =>
    obtain ⟨group, hgroups, _⟩ := singleton_of_isCompat hcompat
    unfold followedPolicy
    rw [hgroups]
    exact (buildSelectorPolicy_singleton hmissing group).1.mpr (.inl hcompat)

theorem deterministic_of_ambiguous
    (htier : recommendedTier entries key = .ambiguousImportOrPolicy) :
    (followedPolicy entries key observation familyPolicy selection).status = .deterministic ↔
      selection ≠ none := by
  have hmissing : recommendedTier entries key ≠ .missingActivePool := by simp [htier]
  cases selection with
  | some s => simp [followedPolicy, (buildSelectorPolicy_some hmissing s).1]
  | none =>
    have hcompat : ¬(recommendedTier entries key).IsCompat := by
      rw [htier]
      rintro (h | h) <;> cases h
    have hstatus : (followedPolicy entries key observation familyPolicy none).status ≠
        .deterministic := by
      unfold followedPolicy
      by_cases hlength : (variantGroupList entries key).length = 1
      · obtain ⟨group, hgroups⟩ := List.length_eq_one_iff.mp hlength
        rw [hgroups]
        intro hdet
        rcases (buildSelectorPolicy_singleton hmissing group).1.mp hdet with h | h
        · exact hcompat h
        · rw [htier] at h
          cases h
      · intro hdet
        exact hcompat ((buildSelectorPolicy_many hmissing hlength).mp hdet)
    simp [hstatus]

/-- A family is classified as it should be unless it is ambiguous and a selection is
followed. -/
theorem classifyImport_classified_iff
    (hselection : ∀ s ∈ selection, ∃ group ∈ variantGroupList entries key,
      s.selectedVariantGroupId = group.variantGroupId) :
    Classified entries importedRecords
        (classifyImport entries key observation sampledCandidates
          (followedPolicy entries key observation familyPolicy selection)).1
        (classifyImport entries key observation sampledCandidates
          (followedPolicy entries key observation familyPolicy selection)).2 ↔
      (recommendedTier entries key = .ambiguousImportOrPolicy → selection = none) := by
  unfold classifyImport
  simp only
  by_cases hcompat : (recommendedTier entries key).IsCompat
  · -- One group, which is the selected one.
    have hexact : recommendedTier entries key ≠ .exactAuthoritative := by
      intro h
      rw [h] at hcompat
      rcases hcompat with hcompat | hcompat <;> cases hcompat
    have hambiguous : recommendedTier entries key ≠ .ambiguousImportOrPolicy := by
      intro h
      rw [h] at hcompat
      rcases hcompat with hcompat | hcompat <;> cases hcompat
    have hdet : (followedPolicy entries key observation familyPolicy selection).status =
        .deterministic := deterministic_of_isCompat hcompat
    rw [if_neg (fun h => hexact h.1), if_pos hcompat]
    refine iff_of_true ?_ (fun h => absurd h hambiguous)
    apply Classified.of_candidates
    · exact iff_of_true (by simp) hdet
    · intro _
      obtain ⟨group, hgroup, hselected⟩ := selected_of_deterministic hselection (.inr hcompat)
        hdet
      obtain ⟨only, hgroups, hmembers⟩ := singleton_of_isCompat hcompat
      rw [hgroups, List.mem_singleton] at hgroup
      subst hgroup
      refine ⟨group.variantGroupId, hselected, by rw [hmembers], ?_⟩
      have hne := (mem_variantGroupList.mp (by rw [hgroups]; exact List.mem_singleton_self _)).1
      rw [hmembers] at hne
      simpa using hne
  · by_cases hexact : recommendedTier entries key = .exactAuthoritative
    · have hambiguous : recommendedTier entries key ≠ .ambiguousImportOrPolicy := by simp [hexact]
      refine iff_of_true ?_ (fun h => absurd h hambiguous)
      by_cases hdet : (followedPolicy entries key observation familyPolicy selection).status =
          .deterministic
      · rw [if_pos ⟨hexact, hdet⟩]
        apply Classified.of_candidates
        · exact iff_of_true (by simp) hdet
        · intro _
          obtain ⟨group, hgroup, hselected⟩ := selected_of_deterministic hselection
            (.inl hexact) hdet
          refine ⟨group.variantGroupId, hselected,
            selectReplacementIds_of_selected hgroup hselected, ?_⟩
          simp only [selectReplacementIds_of_selected hgroup hselected]
          simpa using (mem_variantGroupList.mp hgroup).1
      · rw [if_neg (fun h => hdet h.2), if_neg hcompat]
        apply Classified.of_candidates
        · exact iff_of_false (by simp) hdet
        · intro h
          exact absurd rfl h
    · rw [if_neg (fun h => hexact h.1), if_neg hcompat]
      cases htier : recommendedTier entries key with
      | exactAuthoritative => exact absurd htier hexact
      | compatUnique => exact absurd (.inl htier) hcompat
      | compatReplDimsUnique => exact absurd (.inr htier) hcompat
      | missingActivePool =>
        refine iff_of_true ?_ (fun h => by cases h)
        have hempty := variantGroupList_eq_nil (missingActivePool_iff.mp htier)
        have hnone : selection = none := by
          cases selection with
          | none => rfl
          | some s =>
            obtain ⟨group, hgroup, _⟩ := hselection s rfl
            rw [hempty] at hgroup
            cases hgroup
        apply Classified.of_candidates
        · refine iff_of_false (by simp) ?_
          simp [followedPolicy, buildSelectorPolicy, htier]
        · intro h
          exact absurd rfl h
      | ambiguousImportOrPolicy =>
        have hdet : (followedPolicy entries key observation familyPolicy selection).status =
            .deterministic ↔ selection ≠ none := deterministic_of_ambiguous htier
        constructor
        · intro h _
          by_contra hsome
          exact h.resolved_iff.mpr (hdet.mpr hsome) rfl
        · intro h
          have hnone := h rfl
          apply Classified.of_candidates
          · exact iff_of_false (by simp) (fun h => hdet.mp h hnone)
          · intro h
            exact absurd rfl h

end Classify

section Import

variable {η : Type} [DecidableEq η]
variable {decode : CacheEntry → Option Bytes} {hash : Bytes → η}
variable {entries : List CacheEntry} {bundleContext : BundleContext}
variable {sampledContext : SampledContext} {importPolicy : ImportPolicy}

variable {key : FamilyKey} {pairs : List FamilyKey} {index : ImportedIndex}

theorem selected_of_scaleEquivalent {memo : DecodedCache} {selection : ScaleSelection η}
    (h : (scaleEquivalentSelection decode hash entries key memo).2 = some selection) :
    recommendedTier entries key = .exactAuthoritative ∧
      ∃ group ∈ variantGroupList entries key,
        selection.selectedVariantGroupId = group.variantGroupId := by
  unfold scaleEquivalentSelection at h
  split_ifs at h with htried
  obtain ⟨order, hresolve, hselected⟩ := larger_of_selection _ _ h
  refine ⟨htried.1, order.larger, ?_, hselected⟩
  have horder := (resolveScaleEquivalentGroupOrder_eq_some_iff.mp hresolve).groups_eq
  rcases horder with hgroups | hgroups
  · simp [hgroups]
  · simp [hgroups]

/-- The selections that an import may follow for a family: one of its groups, and for an
ambiguous family only that of an override. -/
structure Followed (entries : List CacheEntry) (importPolicy : ImportPolicy) (key : FamilyKey)
    (selection : Option Selection) : Prop where
  selected : ∀ s ∈ selection, ∃ group ∈ variantGroupList entries key,
    s.selectedVariantGroupId = group.variantGroupId
  ambiguous : recommendedTier entries key = .ambiguousImportOrPolicy →
    (selection = none ↔ (importPolicy key).bind (·.selectionOverride) = none)

/-- The element that an import makes of a family with a selection. -/
def importedElement (entries : List CacheEntry) (bundleContext : BundleContext)
    (sampledContext : SampledContext) (importPolicy : ImportPolicy) (key : FamilyKey)
    (selection : Option Selection) : FamilyType × Family :=
  classifyImport entries key (bundleContext key) (fallbackSampledCandidates sampledContext key)
    (followedPolicy entries key (bundleContext key) (importPolicy key) selection)

theorem importFamily_ok {state state' : ImportState}
    (h : importFamily decode hash entries bundleContext sampledContext importPolicy state key =
      .ok state') :
    ∃ decodedCache selection, Followed entries importPolicy key selection ∧
      state' = ImportState.add
        { state with
          decodedCache
          records := state.records ++ (activeEntries entries key).map
            (makeImportRecord entries key (fallbackSampledCandidates sampledContext key)) }
        (importedElement entries bundleContext sampledContext importPolicy key selection).1
        (importedElement entries bundleContext sampledContext importPolicy key selection).2 := by
  unfold importFamily at h
  simp only at h
  cases hresolved : resolveFamilyPolicySelectionOverride key (importPolicy key)
    (variantGroupList entries key) with
  | error error =>
    rw [hresolved] at h
    cases h
  | ok policySelection =>
    rw [hresolved] at h
    cases h
    refine ⟨_, _, ?_, rfl⟩
    constructor
    · intro s hs
      rcases Option.or_eq_some_iff.mp hs with hpolicy | ⟨_, hscale⟩
      · obtain ⟨policy, rfl, rfl⟩ := Option.map_eq_some_iff.mp hpolicy
        obtain ⟨group, hmem, hid, -⟩ := selected_of_override hresolved
        exact ⟨group, hmem, hid⟩
      · obtain ⟨scale, hmade, rfl⟩ := Option.map_eq_some_iff.mp hscale
        exact (selected_of_scaleEquivalent hmade).2
    · intro htier
      have hscale : (scaleEquivalentSelection decode hash entries key state.decodedCache).2 =
          none := by
        cases hscale : (scaleEquivalentSelection decode hash entries key
          state.decodedCache).2 with
        | none => rfl
        | some scale =>
          have hexact := (selected_of_scaleEquivalent hscale).1
          rw [htier] at hexact
          cases hexact
      have hoverride := override_of_resolved hresolved
      rw [hscale, Option.map_none, Option.or_none, Option.map_eq_none_iff]
      rw [← Option.not_isSome_iff_eq_none, hoverride, Option.not_isSome_iff_eq_none]

/-- The elements of an import with the lists that they are in. -/
def ImportState.elements (state : ImportState) : List (FamilyType × Family) :=
  state.exactAuthorities.map (Prod.mk .exactAuthority) ++
    state.compatibilityAliases.map (Prod.mk .compatibility) ++
      state.unresolvedFamilies.map (Prod.mk .unresolved)

theorem ImportState.elements_add (state : ImportState) (type : FamilyType) (family : Family) :
    (state.add type family).elements.Perm (state.elements ++ [(type, family)]) := by
  cases type with
  | exactAuthority =>
    simp only [ImportState.add, ImportState.elements, List.map_append, List.map_cons,
      List.map_nil, List.append_assoc]
    apply List.Perm.append_left
    exact List.perm_append_comm.trans (List.Perm.of_eq (List.append_assoc _ _ _))
  | compatibility =>
    simp only [ImportState.add, ImportState.elements, List.map_append, List.map_cons,
      List.map_nil, List.append_assoc]
    apply List.Perm.append_left
    apply List.Perm.append_left
    exact List.perm_append_comm
  | unresolved =>
    simp only [ImportState.add, ImportState.elements, List.map_append, List.map_cons,
      List.map_nil, List.append_assoc]
    exact List.Perm.refl _

/-- What an import makes of the families that it was asked for. -/
structure Outcomes (entries : List CacheEntry) (bundleContext : BundleContext)
    (sampledContext : SampledContext) (importPolicy : ImportPolicy) (pairs : List FamilyKey)
    (state : ImportState) : Prop where
  elements : ∃ outcomes : List (FamilyType × Family), state.elements.Perm outcomes ∧
    outcomes.map (·.2.policyKey) = pairs ∧
    ∀ outcome ∈ outcomes, ∃ key selection, Followed entries importPolicy key selection ∧
      outcome = importedElement entries bundleContext sampledContext importPolicy key selection
  records : state.records = pairs.flatMap fun key => (activeEntries entries key).map
    (makeImportRecord entries key (fallbackSampledCandidates sampledContext key))

@[simp] theorem policyKey_importedElement (key : FamilyKey) (selection : Option Selection) :
    (importedElement entries bundleContext sampledContext importPolicy key
      selection).2.policyKey = key := by
  unfold importedElement classifyImport
  simp only
  split_ifs <;> rfl

theorem importFamilies_outcomes {state : ImportState}
    (h : importFamilies decode hash entries bundleContext sampledContext importPolicy pairs =
      .ok state) : Outcomes entries bundleContext sampledContext importPolicy pairs state := by
  apply foldlM_ok_induction ?_ ?_ h
  · refine ⟨⟨[], List.Perm.refl _, rfl, ?_⟩, rfl⟩
    intro outcome houtcome
    cases houtcome
  · rintro done key state state' _ ⟨⟨outcomes, hperm, hkeys, hmade⟩, hrecords⟩ hstep
    obtain ⟨decodedCache, selection, hfollowed, rfl⟩ := importFamily_ok hstep
    constructor
    · refine ⟨_, (ImportState.elements_add _ _ _).trans (hperm.append_right _), ?_, ?_⟩
      · simp [hkeys]
      · intro outcome houtcome
        rcases List.mem_append.mp houtcome with hmem | hmem
        · exact hmade outcome hmem
        · rw [List.mem_singleton] at hmem
          exact ⟨key, selection, hfollowed, hmem⟩
    · rw [List.flatMap_append, ← hrecords, List.flatMap_cons, List.flatMap_nil, List.append_nil]
      cases (importedElement entries bundleContext sampledContext importPolicy key selection).1 <;>
        rfl

/-- The elements of an index with the lists that they are in. -/
def ImportedIndex.elements (index : ImportedIndex) : List (FamilyType × Family) :=
  index.exactAuthorities.map (Prod.mk .exactAuthority) ++
    index.compatibilityAliases.map (Prod.mk .compatibility) ++
      index.unresolvedFamilies.map (Prod.mk .unresolved)

/-- A requested family has one element in the lists of an index, and it is where its selector
policy puts it. -/
def Partitioned (entries : List CacheEntry) (index : ImportedIndex) (key : FamilyKey) : Prop :=
  ∃ type family,
    (index.elements.filter fun element => element.2.policyKey == key) = [(type, family)] ∧
      Classified entries (indexRecords index.records) type family

theorem importFamilies_of_built
    (h : buildImportedIndex decode hash entries bundleContext sampledContext importPolicy pairs =
      .ok index) :
    ∃ state, importFamilies decode hash entries bundleContext sampledContext importPolicy pairs =
      .ok state ∧ state.toIndex = index := by
  unfold buildImportedIndex at h
  cases hstate : importFamilies decode hash entries bundleContext sampledContext importPolicy
    pairs with
  | error error =>
    rw [hstate] at h
    cases h
  | ok state =>
    rw [hstate] at h
    cases h
    exact ⟨state, rfl, rfl⟩

theorem element_of_built (hnodup : pairs.Nodup)
    (h : buildImportedIndex decode hash entries bundleContext sampledContext importPolicy pairs =
      .ok index) (hkey : key ∈ pairs) :
    ∃ selection, Followed entries importPolicy key selection ∧
      (index.elements.filter fun element => element.2.policyKey == key) =
        [importedElement entries bundleContext sampledContext importPolicy key selection] := by
  obtain ⟨state, hstate, rfl⟩ := importFamilies_of_built h
  obtain ⟨⟨outcomes, hperm, hkeys, hmade⟩, _⟩ := importFamilies_outcomes hstate
  rw [← hkeys] at hkey hnodup
  obtain ⟨outcome, houtcome, rfl⟩ := List.mem_map.mp hkey
  obtain ⟨key, selection, hfollowed, rfl⟩ := hmade outcome houtcome
  rw [policyKey_importedElement]
  refine ⟨selection, hfollowed, ?_⟩
  have hfilter := filter_key_eq_singleton hnodup houtcome
  rw [policyKey_importedElement] at hfilter
  have hsame := hperm.filter fun element => element.2.policyKey == key
  rw [hfilter] at hsame
  exact List.perm_singleton.mp hsame

theorem partitioned_key_iff (hnodup : pairs.Nodup)
    (h : buildImportedIndex decode hash entries bundleContext sampledContext importPolicy pairs =
      .ok index) (hkey : key ∈ pairs) :
    Partitioned entries index key ↔
      (recommendedTier entries key = .ambiguousImportOrPolicy →
        (importPolicy key).bind (·.selectionOverride) = none) := by
  obtain ⟨selection, hfollowed, hfilter⟩ := element_of_built hnodup h hkey
  have hclassified : Classified entries (indexRecords index.records)
      (importedElement entries bundleContext sampledContext importPolicy key selection).1
      (importedElement entries bundleContext sampledContext importPolicy key selection).2 ↔
        (recommendedTier entries key = .ambiguousImportOrPolicy → selection = none) :=
    classifyImport_classified_iff hfollowed.selected
  constructor
  · rintro ⟨type, family, hother, hpart⟩ htier
    rw [hfilter, List.cons.injEq] at hother
    rw [← hfollowed.ambiguous htier]
    refine hclassified.mp ?_ htier
    rw [hother.1]
    exact hpart
  · intro hnone
    refine ⟨_, _, hfilter, hclassified.mpr ?_⟩
    intro htier
    exact (hfollowed.ambiguous htier).mpr (hnone htier)

/-- The requested families of a built index are partitioned as their policies say exactly when
no ambiguous one has an override. -/
theorem partitioned_iff {pairs : List FamilyKey} {index : ImportedIndex} (hnodup : pairs.Nodup)
    (h : buildImportedIndex decode hash entries bundleContext sampledContext importPolicy pairs =
      .ok index) :
    (∀ key ∈ pairs, Partitioned entries index key) ↔
      ∀ key ∈ pairs, recommendedTier entries key = .ambiguousImportOrPolicy →
        (importPolicy key).bind (·.selectionOverride) = none := by
  refine forall₂_congr ?_
  intro key hkey
  exact partitioned_key_iff hnodup h hkey

end Import

def genericEntry (width : Nat) : CacheEntry := { sampleEntry width 0 with formatsize := 0 }

/-- One generic entry is a compatible family. -/
theorem oneGeneric_partitioned :
    ∃ index, buildImportedIndex paintEntry id [genericEntry 1] (fun _ => none) []
        (fun _ => none) [sampleFamily] = .ok index ∧
      ∀ key ∈ [sampleFamily], Partitioned [genericEntry 1] index key := by
  have hbuilt : ∃ index, buildImportedIndex paintEntry id [genericEntry 1] (fun _ => none) []
      (fun _ => none) [sampleFamily] = .ok index := ⟨_, rfl⟩
  obtain ⟨index, hindex⟩ := hbuilt
  refine ⟨index, hindex, (partitioned_iff (List.nodup_singleton _) hindex).mpr ?_⟩
  intro key _ _
  rfl

/-- A policy that selects the wider of two groups by their dimensions. -/
def widerPolicy : FamilyPolicy where
  selectionOverride := some {
    selectedVariantGroupId := none
    selectedVariantGroupDims := some ['2', 'x', '1']
    selectionReason := none }

/-- Two generic entries of other dimensions are ambiguous; a policy that selects one of their
groups leaves the family unresolved. -/
theorem twoGeneric_not_partitioned :
    ∃ index, buildImportedIndex paintEntry id [genericEntry 1, genericEntry 2] (fun _ => none) []
        (fun _ => some widerPolicy) [sampleFamily] = .ok index ∧
      ¬Partitioned [genericEntry 1, genericEntry 2] index sampleFamily := by
  have hlist : variantGroupList [genericEntry 1, genericEntry 2] sampleFamily =
      [variantGroup .generic (makeVariantGroupId 2 (genericEntry 1), [genericEntry 1]),
        variantGroup .generic (makeVariantGroupId 2 (genericEntry 2), [genericEntry 2])] := by
    have hentries : variantGroupEntries [genericEntry 1, genericEntry 2] sampleFamily =
        [(makeVariantGroupId 2 (genericEntry 1), [genericEntry 1]),
          (makeVariantGroupId 2 (genericEntry 2), [genericEntry 2])] := by
      decide +kernel
    rw [variantGroupList, hentries]
    apply List.mergeSort_of_pairwise
    decide +kernel
  have hresolved : resolveFamilyPolicySelectionOverride sampleFamily (some widerPolicy)
      (variantGroupList [genericEntry 1, genericEntry 2] sampleFamily) = .ok (some {
        selectionReason := "review-family-selection".toList
        selectedVariantGroupId := makeVariantGroupId 2 (genericEntry 2)
        selectedReplacementIds := [makeReplacementId (genericEntry 2)]
        selectedDims := (2, 1)
        appliesToFamily := sampleFamily }) := by
    rw [hlist]
    rfl
  have hbuilt : ∃ index, buildImportedIndex paintEntry id [genericEntry 1, genericEntry 2]
      (fun _ => none) [] (fun _ => some widerPolicy) [sampleFamily] = .ok index := by
    unfold buildImportedIndex importFamilies
    rw [List.foldlM_cons, importFamily, hresolved]
    exact ⟨_, rfl⟩
  obtain ⟨index, hindex⟩ := hbuilt
  refine ⟨index, hindex, ?_⟩
  intro hpart
  have hnone := (partitioned_key_iff (List.nodup_singleton _) hindex List.mem_cons_self).mp hpart
    (by decide +kernel)
  cases hnone

end ParallelN64.Migrate
