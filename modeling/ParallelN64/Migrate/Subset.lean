import ParallelN64.Migrate.Evidence

/-!
# Subsets of an imported index

A subset keeps the families of some policy keys, the records of their candidates and the
canonical records that their aliases name. A family can be narrowed to one of its variant
groups. Exact authorities are not looked at.
-/

namespace ParallelN64.Migrate

open ParallelN64.Core Phrb

/-- An unresolved family of a subset, with the group that a review proposes for it. -/
structure SubsetFamily where
  family : Family
  proposedSelectedVariantGroupId : Option Text
  deriving DecidableEq, Repr

/-- The families, records and links that a filter keeps. -/
structure ImportedSubset where
  records : List ImportRecord
  compatibilityAliases : List Family
  unresolvedFamilies : List SubsetFamily
  canonicalRecords : List CanonicalRecord
  legacyTransportAliases : List TransportAlias
  deriving DecidableEq, Repr

/-- Narrow a family to the first of its groups with an identifier; the candidates of that
group are given back. -/
def applyVariantSelection (family : Family) (variantGroupId : Text) :
    SubsetFamily × List ReplacementId :=
  match family.variantGroups.filter fun g => g.variantGroupId.text == variantGroupId with
  | [] => ({ family, proposedSelectedVariantGroupId := none }, [])
  | group :: _ =>
    ({ family := {
        family with
        variantGroups := [group]
        candidateReplacementIds := family.candidateReplacementIds.filter fun id =>
          group.candidateReplacementIds.contains id }
       proposedSelectedVariantGroupId := some variantGroupId },
      group.candidateReplacementIds)

/-- An unresolved family as it is kept, narrowed if a group is selected for its key. -/
def keepUnresolved (variantSelections : Dict Text Text) (family : Family) :
    SubsetFamily × List ReplacementId :=
  match variantSelections.get? family.policyKey.text with
  | none => ({ family, proposedSelectedVariantGroupId := none }, [])
  | some variantGroupId => applyVariantSelection family variantGroupId

/-- The subset of an index for some policy keys. -/
def importedSubset (index : ImportedIndex) (policyKeys : List Text)
    (variantSelections : Dict Text Text) : ImportedSubset :=
  let compatibility := index.compatibilityAliases.filter fun family =>
    policyKeys.contains family.policyKey.text
  let kept := (index.unresolvedFamilies.filter fun family =>
    policyKeys.contains family.policyKey.text).map (keepUnresolved variantSelections)
  let unresolved := kept.map Prod.fst
  let candidateIds := compatibility.flatMap (·.candidateReplacementIds) ++
    unresolved.flatMap (·.family.candidateReplacementIds) ++ kept.flatMap Prod.snd
  let transportAliases := (compatibility ++ unresolved.map (·.family)).filterMap fun family =>
    index.legacyTransportAliases.find? fun link => link.policyKey == family.policyKey
  let canonicalIds := transportAliases.flatMap (·.canonicalSampledObjectIds)
  { records := index.records.filter fun record => candidateIds.contains record.replacementId
    compatibilityAliases := compatibility
    unresolvedFamilies := unresolved
    canonicalRecords := index.canonicalRecords.filter fun record =>
      canonicalIds.contains record.sampledObjectId
    legacyTransportAliases := transportAliases }

/-- What a filter gives back: without policy keys the whole index. -/
inductive FilteredIndex where
  | whole (index : ImportedIndex)
  | subset (subset : ImportedSubset)
  deriving DecidableEq, Repr

/-- The subset for some policy keys, or the whole index for none. -/
def filterImportedIndex (index : ImportedIndex) (policyKeys : List Text)
    (variantSelections : Dict Text Text) : FilteredIndex :=
  if policyKeys.isEmpty then .whole index
  else .subset (importedSubset index policyKeys variantSelections)

/-- The families that a subset keeps. -/
def ImportedSubset.elements (subset : ImportedSubset) : List (FamilyType × Family) :=
  subset.compatibilityAliases.map (Prod.mk .compatibility) ++
    subset.unresolvedFamilies.map fun kept => (.unresolved, kept.family)

/-- A subset is complete and closed. -/
structure SubsetComplete (index : ImportedIndex) (policyKeys : List Text)
    (subset : ImportedSubset) : Prop where
  families : ∀ type key, (∃ family, (type, family) ∈ subset.elements ∧ family.policyKey = key) ↔
    (∃ family, (type, family) ∈ index.elements ∧ family.policyKey = key) ∧
      key.text ∈ policyKeys
  records : ∀ record, record ∈ subset.records ↔ record ∈ index.records ∧
    ∃ kept ∈ subset.elements, record.replacementId ∈ kept.2.candidateReplacementIds
  canonicalRecords : ∀ record, record ∈ subset.canonicalRecords ↔
    record ∈ index.canonicalRecords ∧ ∃ kept ∈ subset.elements,
      record.sampledObjectId ∈ kept.2.canonicalSampledObjects.map (·.sampledObjectId)
  closed : ∀ kept ∈ subset.elements, ∀ id ∈ kept.2.candidateReplacementIds,
    ∃ record ∈ subset.records, record.replacementId = id
  original : ∀ kept ∈ subset.elements, kept ∈ index.elements ∨ ∃ family id,
    (.unresolved, family) ∈ index.elements ∧
      kept = (.unresolved, (applyVariantSelection family id).1.family)

section Built

variable {η : Type} [DecidableEq η]
variable {decode : CacheEntry → Option Bytes} {hash : Bytes → η}
variable {entries : List CacheEntry} {bundleContext : BundleContext}
variable {sampledContext : SampledContext} {importPolicy : ImportPolicy}
variable {pairs : List FamilyKey} {index : ImportedIndex}

variable {element : FamilyType × Family} {family : Family} {id : ReplacementId}
variable {policyKeys : List Text}

variable {variantSelections : Dict Text Text}

theorem canonicalSampledObjects_importedElement (key : FamilyKey) (selection : Option Selection) :
    (importedElement entries bundleContext sampledContext importPolicy key
      selection).2.canonicalSampledObjects = fallbackSampledCandidates sampledContext key := by
  unfold importedElement classifyImport
  simp only
  split_ifs <;> rfl

theorem variantGroups_importedElement (key : FamilyKey) (selection : Option Selection) :
    (importedElement entries bundleContext sampledContext importPolicy key
      selection).2.variantGroups = variantGroupList entries key := by
  unfold importedElement classifyImport
  simp only
  split_ifs <;> rfl

theorem candidates_importedElement {key : FamilyKey} {selection : Option Selection}
    (h : (importedElement entries bundleContext sampledContext importPolicy key selection).1 ≠
      .exactAuthority) :
    (importedElement entries bundleContext sampledContext importPolicy key
      selection).2.candidateReplacementIds =
        (activeEntries entries key).map makeReplacementId := by
  unfold importedElement classifyImport at h ⊢
  simp only at h ⊢
  split_ifs at h ⊢
  · exact absurd rfl h
  · rfl
  · rfl

@[simp] theorem policyKey_keepUnresolved (family : Family) :
    (keepUnresolved variantSelections family).1.family.policyKey = family.policyKey := by
  unfold keepUnresolved applyVariantSelection
  split
  · rfl
  · split
    · rfl
    · rfl

@[simp] theorem canonicalSampledObjects_keepUnresolved (family : Family) :
    (keepUnresolved variantSelections family).1.family.canonicalSampledObjects =
      family.canonicalSampledObjects := by
  unfold keepUnresolved applyVariantSelection
  split
  · rfl
  · split
    · rfl
    · rfl

theorem candidates_keepUnresolved
    (h : id ∈ (keepUnresolved variantSelections family).1.family.candidateReplacementIds) :
    id ∈ family.candidateReplacementIds := by
  unfold keepUnresolved applyVariantSelection at h
  split at h
  · exact h
  · split at h
    · exact h
    · exact (List.mem_filter.mp h).1

theorem mem_elements_importedSubset :
    element ∈ (importedSubset index policyKeys variantSelections).elements ↔
      (∃ family ∈ index.compatibilityAliases, family.policyKey.text ∈ policyKeys ∧
        element = (.compatibility, family)) ∨
      ∃ family ∈ index.unresolvedFamilies, family.policyKey.text ∈ policyKeys ∧
        element = (.unresolved, (keepUnresolved variantSelections family).1.family) := by
  simp only [ImportedSubset.elements, importedSubset, List.mem_append, List.mem_map,
    List.mem_filter, List.contains_iff_mem]
  constructor
  · rintro (⟨family, ⟨hfamily, hkey⟩, rfl⟩ | ⟨_, ⟨_, ⟨family, ⟨hfamily, hkey⟩, rfl⟩, rfl⟩, rfl⟩)
    · exact .inl ⟨family, hfamily, hkey, rfl⟩
    · exact .inr ⟨family, hfamily, hkey, rfl⟩
  · rintro (⟨family, hfamily, hkey, rfl⟩ | ⟨family, hfamily, hkey, rfl⟩)
    · exact .inl ⟨family, ⟨hfamily, hkey⟩, rfl⟩
    · exact .inr ⟨_, ⟨_, ⟨family, ⟨hfamily, hkey⟩, rfl⟩, rfl⟩, rfl⟩

theorem mem_elements_compatibility :
    (.compatibility, family) ∈ index.elements ↔ family ∈ index.compatibilityAliases := by
  simp [ImportedIndex.elements]

theorem mem_elements_unresolved :
    (.unresolved, family) ∈ index.elements ↔ family ∈ index.unresolvedFamilies := by
  simp [ImportedIndex.elements]

theorem mem_elements_exactAuthority :
    (.exactAuthority, family) ∈ index.elements ↔ family ∈ index.exactAuthorities := by
  simp [ImportedIndex.elements]

theorem origin_of_mem_subset
    (helement : element ∈ (importedSubset index policyKeys variantSelections).elements) :
    element.1 ≠ .exactAuthority ∧ element.2.policyKey.text ∈ policyKeys ∧
      ∃ family, (element.1, family) ∈ index.elements ∧
        family.policyKey = element.2.policyKey ∧
        family.canonicalSampledObjects = element.2.canonicalSampledObjects ∧
        ∀ id ∈ element.2.candidateReplacementIds, id ∈ family.candidateReplacementIds := by
  rcases mem_elements_importedSubset.mp helement with
    ⟨family, hfamily, hkey, rfl⟩ | ⟨family, hfamily, hkey, rfl⟩
  · exact ⟨by simp, hkey, family, mem_elements_compatibility.mpr hfamily, rfl, rfl,
      fun _ hid => hid⟩
  · refine ⟨by simp, by simpa using hkey, family, mem_elements_unresolved.mpr hfamily, ?_, ?_, ?_⟩
    · rw [policyKey_keepUnresolved]
    · rw [canonicalSampledObjects_keepUnresolved]
    · intro id hid
      exact candidates_keepUnresolved hid

theorem families_importedSubset (type : FamilyType) (key : FamilyKey) :
    (∃ family, (type, family) ∈ (importedSubset index policyKeys variantSelections).elements ∧
        family.policyKey = key) ↔
      type ≠ .exactAuthority ∧
        (∃ family, (type, family) ∈ index.elements ∧ family.policyKey = key) ∧
        key.text ∈ policyKeys := by
  constructor
  · rintro ⟨family, hfamily, rfl⟩
    obtain ⟨htype, hkey, other, hother, hsame, _⟩ := origin_of_mem_subset hfamily
    exact ⟨htype, ⟨other, hother, hsame⟩, hkey⟩
  · rintro ⟨htype, ⟨family, hfamily, rfl⟩, hkey⟩
    cases type with
    | exactAuthority => exact absurd rfl htype
    | compatibility =>
      refine ⟨family, mem_elements_importedSubset.mpr (.inl ⟨family, ?_, hkey, rfl⟩), rfl⟩
      exact mem_elements_compatibility.mp hfamily
    | unresolved =>
      refine ⟨_, mem_elements_importedSubset.mpr (.inr ⟨family, ?_, hkey, rfl⟩),
        policyKey_keepUnresolved family⟩
      exact mem_elements_unresolved.mp hfamily

section Records

variable (h : buildImportedIndex decode hash entries bundleContext sampledContext importPolicy
  pairs = .ok index)

include h

theorem made_of_mem_elements (helement : element ∈ index.elements) :
    element.2.policyKey ∈ pairs ∧ ∃ selection,
      Followed entries importPolicy element.2.policyKey selection ∧
      element = importedElement entries bundleContext sampledContext importPolicy
        element.2.policyKey selection := by
  obtain ⟨state, hstate, rfl⟩ := importFamilies_of_built h
  obtain ⟨⟨outcomes, hperm, hkeys, hmade⟩, _⟩ := importFamilies_outcomes hstate
  have hmem : element ∈ outcomes := hperm.mem_iff.mp helement
  constructor
  · rw [← hkeys]
    exact List.mem_map_of_mem hmem
  · obtain ⟨key, selection, hfollowed, rfl⟩ := hmade element hmem
    rw [policyKey_importedElement]
    exact ⟨selection, hfollowed, rfl⟩

theorem mem_records_of_built {key : FamilyKey} (hkey : key ∈ pairs) {entry : CacheEntry}
    (hentry : entry ∈ activeEntries entries key) :
    ∃ record ∈ index.records, record.replacementId = makeReplacementId entry := by
  obtain ⟨state, hstate, rfl⟩ := importFamilies_of_built h
  have hrecords := (importFamilies_outcomes hstate).records
  refine ⟨makeImportRecord entries key (fallbackSampledCandidates sampledContext key) entry,
    ?_, rfl⟩
  simp only [ImportState.toIndex, hrecords, List.mem_flatMap]
  exact ⟨key, hkey, List.mem_map_of_mem hentry⟩

theorem mem_aliases_iff {link : TransportAlias} :
    link ∈ index.legacyTransportAliases ↔
      ∃ element ∈ index.elements, makeTransportAlias element.1 element.2 = link := by
  obtain ⟨state, _, rfl⟩ := importFamilies_of_built h
  simp only [ImportState.toIndex, buildCanonicalTransport, mem_sortByText,
    ImportedIndex.elements, List.mem_append, List.mem_map]
  constructor
  · rintro ((⟨family, hfamily, rfl⟩ | ⟨family, hfamily, rfl⟩) | ⟨family, hfamily, rfl⟩)
    · exact ⟨_, .inl (.inl ⟨family, hfamily, rfl⟩), rfl⟩
    · exact ⟨_, .inl (.inr ⟨family, hfamily, rfl⟩), rfl⟩
    · exact ⟨_, .inr ⟨family, hfamily, rfl⟩, rfl⟩
  · rintro ⟨_, (⟨family, hfamily, rfl⟩ | ⟨family, hfamily, rfl⟩) | ⟨family, hfamily, rfl⟩, rfl⟩
    · exact .inl (.inl ⟨family, hfamily, rfl⟩)
    · exact .inl (.inr ⟨family, hfamily, rfl⟩)
    · exact .inr ⟨family, hfamily, rfl⟩

theorem objects_of_built (helement : element ∈ index.elements) :
    element.2.canonicalSampledObjects =
      fallbackSampledCandidates sampledContext element.2.policyKey := by
  obtain ⟨_, selection, _, hmade⟩ := made_of_mem_elements h helement
  rw [hmade, canonicalSampledObjects_importedElement, policyKey_importedElement]

theorem find?_alias_of_built (helement : element ∈ index.elements) :
    ∃ link, (index.legacyTransportAliases.find? fun link =>
        link.policyKey == element.2.policyKey) = some link ∧
      link.canonicalSampledObjectIds =
        element.2.canonicalSampledObjects.map (·.sampledObjectId) := by
  have hown : makeTransportAlias element.1 element.2 ∈ index.legacyTransportAliases :=
    (mem_aliases_iff h).mpr ⟨element, helement, rfl⟩
  have hsome : (index.legacyTransportAliases.find? fun link =>
      link.policyKey == element.2.policyKey).isSome := by
    rw [List.find?_isSome]
    exact ⟨_, hown, beq_self_eq_true _⟩
  obtain ⟨link, hfind⟩ := Option.isSome_iff_exists.mp hsome
  refine ⟨link, hfind, ?_⟩
  have hkey := List.find?_some hfind
  rw [beq_iff_eq] at hkey
  obtain ⟨other, hother, rfl⟩ :=
    (mem_aliases_iff h).mp (List.mem_of_find?_eq_some hfind)
  have hsame : other.2.policyKey = element.2.policyKey := hkey
  rw [makeTransportAlias, objects_of_built h hother, objects_of_built h helement, hsame]

theorem active_of_candidate (helement : element ∈ index.elements)
    (htype : element.1 ≠ .exactAuthority) :
    element.2.candidateReplacementIds =
      (activeEntries entries element.2.policyKey).map makeReplacementId := by
  obtain ⟨_, selection, _, hmade⟩ := made_of_mem_elements h helement
  rw [hmade] at htype
  have hcandidates := candidates_importedElement htype
  rw [← hmade] at hcandidates
  exact hcandidates

theorem selected_keepUnresolved (hfamily : (.unresolved, family) ∈ index.elements)
    (hid : id ∈ (keepUnresolved variantSelections family).2) :
    id ∈ (keepUnresolved variantSelections family).1.family.candidateReplacementIds := by
  have hcandidates := active_of_candidate h hfamily (by simp)
  obtain ⟨_, selection, _, hmade⟩ := made_of_mem_elements h hfamily
  have hgroups : family.variantGroups = variantGroupList entries family.policyKey := by
    have hfields := congrArg (·.2.variantGroups) hmade
    simp only [variantGroups_importedElement] at hfields
    exact hfields
  unfold keepUnresolved applyVariantSelection at hid ⊢
  split at hid
  · cases hid
  · split at hid
    · cases hid
    · rename_i group rest hfilter
      have hgroup : group ∈ group :: rest := List.mem_cons_self
      rw [← hfilter, hgroups] at hgroup
      replace hgroup := (List.mem_filter.mp hgroup).1
      have hmember := hid
      rw [(mem_variantGroupList.mp hgroup).2] at hmember
      obtain ⟨entry, hentry, rfl⟩ := List.mem_map.mp hmember
      refine List.mem_filter.mpr ⟨?_, List.contains_iff_mem.mpr hid⟩
      rw [hcandidates]
      exact List.mem_map_of_mem (List.mem_filter.mp hentry).1

theorem record_of_candidate
    (helement : element ∈ (importedSubset index policyKeys variantSelections).elements)
    (hid : id ∈ element.2.candidateReplacementIds) :
    ∃ record ∈ index.records, record.replacementId = id := by
  obtain ⟨htype, _, family, hfamily, _, _, hcandidates⟩ := origin_of_mem_subset helement
  have hactive := hcandidates id hid
  rw [active_of_candidate h hfamily htype] at hactive
  obtain ⟨entry, hentry, rfl⟩ := List.mem_map.mp hactive
  exact mem_records_of_built h (made_of_mem_elements h hfamily).1 hentry

theorem mem_records_importedSubset {record : ImportRecord} :
    record ∈ (importedSubset index policyKeys variantSelections).records ↔
      record ∈ index.records ∧
        ∃ kept ∈ (importedSubset index policyKeys variantSelections).elements,
          record.replacementId ∈ kept.2.candidateReplacementIds := by
  simp only [mem_elements_importedSubset]
  simp only [importedSubset, List.mem_filter, List.contains_iff_mem, List.mem_append,
    List.mem_flatMap, List.mem_map]
  refine and_congr_right ?_
  intro _
  constructor
  · rintro ((⟨family, ⟨hfamily, hkey⟩, hid⟩ |
      ⟨_, ⟨_, ⟨family, ⟨hfamily, hkey⟩, rfl⟩, rfl⟩, hid⟩) |
        ⟨_, ⟨family, ⟨hfamily, hkey⟩, rfl⟩, hid⟩)
    · exact ⟨_, .inl ⟨family, hfamily, hkey, rfl⟩, hid⟩
    · exact ⟨_, .inr ⟨family, hfamily, hkey, rfl⟩, hid⟩
    · exact ⟨_, .inr ⟨family, hfamily, hkey, rfl⟩,
        selected_keepUnresolved h (mem_elements_unresolved.mpr hfamily) hid⟩
  · rintro ⟨_, ⟨family, hfamily, hkey, rfl⟩ | ⟨family, hfamily, hkey, rfl⟩, hid⟩
    · exact .inl (.inl ⟨family, ⟨hfamily, hkey⟩, hid⟩)
    · exact .inl (.inr ⟨_, ⟨_, ⟨family, ⟨hfamily, hkey⟩, rfl⟩, rfl⟩, hid⟩)

theorem mem_canonicalRecords_importedSubset {record : CanonicalRecord} :
    record ∈ (importedSubset index policyKeys variantSelections).canonicalRecords ↔
      record ∈ index.canonicalRecords ∧
        ∃ kept ∈ (importedSubset index policyKeys variantSelections).elements,
          record.sampledObjectId ∈ kept.2.canonicalSampledObjects.map (·.sampledObjectId) := by
  simp only [mem_elements_importedSubset]
  simp only [importedSubset, List.mem_filter, List.contains_iff_mem, List.mem_flatMap,
    List.mem_filterMap, List.mem_append, List.mem_map, List.map_map]
  refine and_congr_right ?_
  intro _
  constructor
  · rintro ⟨link, ⟨family, hkept, hfind⟩, hid⟩
    rcases hkept with ⟨hfamily, hkey⟩ | ⟨original, ⟨hfamily, hkey⟩, rfl⟩
    · obtain ⟨link', hfind', hids⟩ := find?_alias_of_built h
        (mem_elements_compatibility.mpr hfamily)
      rw [hfind, Option.some.injEq] at hfind'
      subst hfind'
      rw [hids] at hid
      exact ⟨_, .inl ⟨family, hfamily, hkey, rfl⟩, List.mem_map.mp hid⟩
    · obtain ⟨link', hfind', hids⟩ := find?_alias_of_built h
        (mem_elements_unresolved.mpr hfamily)
      simp only [Function.comp_apply, policyKey_keepUnresolved] at hfind
      rw [hfind, Option.some.injEq] at hfind'
      subst hfind'
      rw [hids] at hid
      refine ⟨_, .inr ⟨original, hfamily, hkey, rfl⟩, ?_⟩
      rw [canonicalSampledObjects_keepUnresolved]
      exact List.mem_map.mp hid
  · rintro ⟨_, ⟨family, hfamily, hkey, rfl⟩ | ⟨family, hfamily, hkey, rfl⟩, hid⟩
    · obtain ⟨link, hfind, hids⟩ := find?_alias_of_built h
        (mem_elements_compatibility.mpr hfamily)
      refine ⟨link, ⟨family, .inl ⟨hfamily, hkey⟩, hfind⟩, ?_⟩
      rw [hids]
      exact List.mem_map.mpr hid
    · obtain ⟨link, hfind, hids⟩ := find?_alias_of_built h
        (mem_elements_unresolved.mpr hfamily)
      refine ⟨link, ⟨_, .inr ⟨family, ⟨hfamily, hkey⟩, rfl⟩, ?_⟩, ?_⟩
      · simpa only [Function.comp_apply, policyKey_keepUnresolved] using hfind
      · rw [hids]
        rw [canonicalSampledObjects_keepUnresolved] at hid
        exact List.mem_map.mpr hid

end Records

/-- The subset of a built index is complete and closed exactly when no exact authority is
under a requested key. -/
theorem filterImportedIndex_complete_iff
    (h : buildImportedIndex decode hash entries bundleContext sampledContext importPolicy pairs =
      .ok index) {policyKeys : List Text} (hkeys : policyKeys ≠ [])
    (variantSelections : Dict Text Text) :
    ∃ subset, filterImportedIndex index policyKeys variantSelections = .subset subset ∧
      (SubsetComplete index policyKeys subset ↔
        ∀ family ∈ index.exactAuthorities, family.policyKey.text ∉ policyKeys) := by
  refine ⟨importedSubset index policyKeys variantSelections, ?_, ?_⟩
  · rw [filterImportedIndex, if_neg (by simpa using hkeys)]
  · constructor
    · intro hcomplete family hfamily hkey
      have hkept := (hcomplete.families .exactAuthority family.policyKey).mpr
        ⟨⟨family, mem_elements_exactAuthority.mpr hfamily, rfl⟩, hkey⟩
      exact ((families_importedSubset _ _).mp hkept).1 rfl
    · intro hexact
      constructor
      · intro type key
        rw [families_importedSubset]
        constructor
        · rintro ⟨_, hkept⟩
          exact hkept
        · rintro ⟨⟨family, hfamily, rfl⟩, hkey⟩
          refine ⟨?_, ⟨family, hfamily, rfl⟩, hkey⟩
          rintro rfl
          exact hexact family (mem_elements_exactAuthority.mp hfamily) hkey
      · intro record
        exact mem_records_importedSubset h
      · intro record
        exact mem_canonicalRecords_importedSubset h
      · intro kept hkept id hid
        obtain ⟨record, hrecord, rfl⟩ := record_of_candidate h hkept hid
        exact ⟨record, (mem_records_importedSubset h).mpr ⟨hrecord, kept, hkept, hid⟩, rfl⟩
      · intro kept hkept
        rcases mem_elements_importedSubset.mp hkept with
          ⟨family, hfamily, _, rfl⟩ | ⟨family, hfamily, _, rfl⟩
        · exact .inl (mem_elements_compatibility.mpr hfamily)
        · have hmem := mem_elements_unresolved.mpr hfamily
          unfold keepUnresolved
          split
          · exact .inl hmem
          · exact .inr ⟨family, _, hmem, rfl⟩

end Built

/-- A group with an upload of checksum 7, perhaps with the checksum of a palette entry. -/
def sampleGroup (sampledEntryPcrc : Option Text) : ProbeGroup where
  family := none
  uniqueReplDims := 0
  sampleRepl := none
  drawClass := none
  cycle := none
  fmt := none
  siz := none
  off := none
  stride := none
  wh := none
  fs := some 2
  sampledLow32 := none
  sampledEntryPcrc
  sampledSparsePcrc := none
  uploadLow32s := none
  uploadLow32 := some ['7']
  uploadPcrcs := none
  uploadPcrc := sampledEntryPcrc

/-- The subset of an index with one compatible family and a sampled object is complete. -/
theorem compatible_subset_complete :
    ∃ index subset, buildImportedIndex paintEntry id [genericEntry 1] (fun _ => none)
        (mergedSampledContext [sampleGroup none] []) (fun _ => none) [sampleFamily] = .ok index ∧
      filterImportedIndex index [sampleFamily.text] [(sampleFamily.text, ['1'])] =
        .subset subset ∧
      subset.canonicalRecords ≠ [] ∧ SubsetComplete index [sampleFamily.text] subset := by
  have hbuilt : ∃ index, buildImportedIndex paintEntry id [genericEntry 1] (fun _ => none)
      (mergedSampledContext [sampleGroup none] []) (fun _ => none) [sampleFamily] = .ok index ∧
      index.exactAuthorities = [] ∧ (importedSubset index [sampleFamily.text]
        [(sampleFamily.text, ['1'])]).canonicalRecords ≠ [] := ⟨_, rfl, rfl, by decide +kernel⟩
  obtain ⟨index, hindex, hexact, hsampled⟩ := hbuilt
  obtain ⟨subset, hsubset, hcomplete⟩ :=
    filterImportedIndex_complete_iff hindex (List.cons_ne_nil sampleFamily.text []) _
  refine ⟨index, subset, hindex, hsubset, ?_, hcomplete.mpr ?_⟩
  · cases hsubset
    exact hsampled
  rw [hexact]
  intro family hfamily
  cases hfamily

/-- The only family of an index is an exact authority and its key is requested; the subset has
no family. -/
theorem exact_subset_not_complete :
    ∃ index subset, buildImportedIndex paintEntry id [sampleEntry 1 5] (fun _ => none) []
        (fun _ => none) [sampleFamily] = .ok index ∧
      filterImportedIndex index [sampleFamily.text] [] = .subset subset ∧
      ¬SubsetComplete index [sampleFamily.text] subset := by
  have hbuilt : ∃ index, buildImportedIndex paintEntry id [sampleEntry 1 5] (fun _ => none) []
      (fun _ => none) [sampleFamily] = .ok index := ⟨_, rfl⟩
  have hkeys : (buildImportedIndex paintEntry id [sampleEntry 1 5] (fun _ => none) []
      (fun _ => none) [sampleFamily]).toOption.map
        (fun index => index.exactAuthorities.map (·.policyKey)) = some [sampleFamily] := by
    decide +kernel
  obtain ⟨index, hindex⟩ := hbuilt
  have hexact : index.exactAuthorities.map (·.policyKey) = [sampleFamily] := by
    rw [hindex] at hkeys
    exact Option.some.inj hkeys
  refine ⟨index, importedSubset index [sampleFamily.text] [], hindex, rfl, ?_⟩
  intro hcomplete
  have hmem : sampleFamily ∈ index.exactAuthorities.map (·.policyKey) := by
    rw [hexact]
    exact List.mem_singleton_self _
  obtain ⟨family, hfamily, hkey⟩ := List.mem_map.mp hmem
  have helement := mem_elements_exactAuthority.mpr hfamily
  have hkept := (hcomplete.families .exactAuthority sampleFamily).mpr
    ⟨⟨family, helement, hkey⟩, List.mem_singleton_self _⟩
  exact ((families_importedSubset _ _).mp hkept).1 rfl

end ParallelN64.Migrate
