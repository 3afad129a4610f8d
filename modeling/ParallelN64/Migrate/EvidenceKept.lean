import ParallelN64.Migrate.EvidenceMerge
import ParallelN64.Migrate.Subset

/-!
# What a record keeps of the evidence

The record of a sampled object starts with the object of the first family that it is linked
to, and gathers the uploads of the objects of all of them. Each family has the object of the
first bundle with an upload of its checksum; the groups of later bundles and the palette
checksums of all but the first group are lost.
-/

namespace ParallelN64.Migrate

open ParallelN64.Core Phrb

section Evidence

variable {record : CanonicalRecord} {id : SampledObjectId} {first : Family × SampledObject}
  {rest : List (Family × SampledObject)}

section Transport

variable (recordIndex : RecordIndex)

/-- The families that have an object of an identifier, with the object. -/
def linkedObjects (families : List Family) (id : SampledObjectId) :
    List (Family × SampledObject) :=
  families.filterMap fun family =>
    (objectIn family.canonicalSampledObjects id).map (Prod.mk family)

def linkPointer (pointer : Family × SampledObject) (record : CanonicalRecord) :
    CanonicalRecord :=
  record.link recordIndex pointer.1 pointer.2

theorem foldl_ingestFamily (families : List Family) (records : CanonicalRecords) :
    families.foldl (ingestFamily recordIndex) records =
      (families.flatMap fun family => family.canonicalSampledObjects.map (Prod.mk family)).foldl
        (Dict.accumulate (·.2.sampledObjectId) (fun pointer => newCanonicalRecord pointer.2)
          (linkPointer recordIndex)) records := by
  rw [List.foldl_flatMap]
  congr 1
  funext records family
  unfold ingestFamily
  rw [List.foldl_map]
  rfl

theorem filter_pointers {families : List Family}
    (hunique : ∀ family ∈ families, UniqueIds family.canonicalSampledObjects)
    (id : SampledObjectId) :
    ((families.flatMap fun family =>
        family.canonicalSampledObjects.map (Prod.mk family)).filter fun pointer =>
          decide (pointer.2.sampledObjectId = id)) = linkedObjects families id := by
  unfold linkedObjects
  induction families with
  | nil => rfl
  | cons family families ih =>
    have hfamily := (hunique family List.mem_cons_self).filter_eq id
    rw [List.flatMap_cons, List.filter_append,
      ih fun other hother => hunique other (List.mem_cons_of_mem _ hother), List.filterMap_cons,
      List.filter_map]
    change (family.canonicalSampledObjects.filter fun object =>
      decide (object.sampledObjectId = id)).map _ ++ _ = _
    rw [hfamily]
    cases objectIn family.canonicalSampledObjects id <;> rfl

/-- What a record has gathered from the objects linked to it. -/
structure Linked (first : SampledObject) (pointers : List (Family × SampledObject))
    (record : CanonicalRecord) : Prop where
  sampledObjectId : record.sampledObjectId = first.sampledObjectId
  identity : record.identity = first.identity
  runtimeReady : record.runtimeReady = first.runtimeReady
  keys : ∀ key, key ∈ record.linkedPolicyKeys ↔ ∃ pointer ∈ pointers, pointer.1.policyKey = key
  low32s : ∀ value, value ∈ uploadValues record.uploadLow32s ↔
    ∃ pointer ∈ pointers, value ∈ uploadValues pointer.2.uploadLow32s
  pcrcs : ∀ value, value ∈ uploadValues record.uploadPcrcs ↔
    ∃ pointer ∈ pointers, value ∈ uploadValues pointer.2.uploadPcrcs

theorem linked_new (first : SampledObject) : Linked first [] (newCanonicalRecord first) := by
  refine ⟨rfl, rfl, rfl, ?_, ?_, ?_⟩
  · intro key
    simp [newCanonicalRecord]
  · intro value
    simp [newCanonicalRecord, uploadValues]
  · intro value
    simp [newCanonicalRecord, uploadValues]

theorem mem_uploadValues_foldl_addNew {uploads added : List Upload} {value : Text} :
    value ∈ uploadValues (added.foldl addNew uploads) ↔
      value ∈ uploadValues uploads ∨ value ∈ uploadValues added := by
  simp only [mem_uploadValues, mem_foldl_addNew]
  constructor
  · rintro ⟨hne, upload, hupload | hupload, hvalue⟩
    · exact .inl ⟨hne, upload, hupload, hvalue⟩
    · exact .inr ⟨hne, upload, hupload, hvalue⟩
  · rintro (⟨hne, upload, hupload, hvalue⟩ | ⟨hne, upload, hupload, hvalue⟩)
    · exact ⟨hne, upload, .inl hupload, hvalue⟩
    · exact ⟨hne, upload, .inr hupload, hvalue⟩

theorem Linked.link {first : SampledObject} {pointers : List (Family × SampledObject)}
    (h : Linked first pointers record) (pointer : Family × SampledObject) :
    Linked first (pointers ++ [pointer]) (linkPointer recordIndex pointer record) := by
  have hlast : ∀ p : Family × SampledObject → Prop,
      (∃ other ∈ pointers ++ [pointer], p other) ↔ (∃ other ∈ pointers, p other) ∨ p pointer := by
    intro p
    simp only [List.mem_append, List.mem_singleton, or_and_right, exists_or, exists_eq_left]
  refine ⟨h.sampledObjectId, h.identity, h.runtimeReady, ?_, ?_, ?_⟩
  · intro key
    rw [hlast, ← h.keys]
    simp only [linkPointer, CanonicalRecord.link, mem_addNew, eq_comm]
  · intro value
    rw [hlast, ← h.low32s]
    exact mem_uploadValues_foldl_addNew
  · intro value
    rw [hlast, ← h.pcrcs]
    exact mem_uploadValues_foldl_addNew

theorem Linked.foldl {first : SampledObject} {pointers : List (Family × SampledObject)}
    (h : Linked first pointers record) (rest : List (Family × SampledObject)) :
    Linked first (pointers ++ rest)
      (rest.foldl (fun record pointer => linkPointer recordIndex pointer record) record) := by
  induction rest generalizing pointers record with
  | nil => rwa [List.append_nil]
  | cons pointer rest ih =>
    rw [List.foldl_cons, List.append_cons]
    exact ih (h.link recordIndex pointer)

theorem linked_of_get? {families : List Family}
    (hunique : ∀ family ∈ families, UniqueIds family.canonicalSampledObjects)
    (h : (families.foldl (ingestFamily recordIndex) []).get? id = some record) :
    ∃ first rest, linkedObjects families id = first :: rest ∧
      Linked first.2 (first :: rest) record := by
  have hfilter := filter_pointers hunique id
  rw [foldl_ingestFamily] at h
  cases hpointers : linkedObjects families id with
  | nil =>
    rw [hpointers] at hfilter
    rw [Dict.get?_accumulated_nil _ _ _ hfilter] at h
    cases h
  | cons first rest =>
    rw [hpointers] at hfilter
    rw [Dict.get?_accumulated_cons _ _ _ hfilter, Option.some.injEq] at h
    refine ⟨first, rest, rfl, ?_⟩
    rw [← h]
    exact ((linked_new first.2).link recordIndex first).foldl recordIndex rest

theorem sampledObjectId_of_linkedObjects {families : List Family}
    {pointer : Family × SampledObject} (h : pointer ∈ linkedObjects families id) :
    pointer.2.sampledObjectId = id := by
  obtain ⟨family, _, hmap⟩ := List.mem_filterMap.mp h
  obtain ⟨object, hobject, rfl⟩ := Option.map_eq_some_iff.mp hmap
  simpa using List.find?_some hobject

theorem record_of_linked {exactAuthorities compatibilityAliases unresolvedFamilies : List Family}
    (hunique : ∀ family ∈ exactAuthorities ++ compatibilityAliases ++ unresolvedFamilies,
      UniqueIds family.canonicalSampledObjects)
    (hlinked : linkedObjects (exactAuthorities ++ compatibilityAliases ++ unresolvedFamilies) id =
      first :: rest) :
    ∃ record, ((buildCanonicalTransport exactAuthorities compatibilityAliases unresolvedFamilies
        recordIndex).canonicalRecords.filter fun record => record.sampledObjectId == id) =
          [record] ∧ Linked first.2 (first :: rest) record := by
  have hdistinct : Dict.Distinct ((exactAuthorities ++ compatibilityAliases ++
      unresolvedFamilies).foldl (ingestFamily recordIndex) []) := by
    rw [foldl_ingestFamily]
    exact Dict.distinct_nil.foldl_accumulate _ _ _ _
  have hget : ∃ record, ((exactAuthorities ++ compatibilityAliases ++
      unresolvedFamilies).foldl (ingestFamily recordIndex) []).get? id = some record := by
    have hfilter := filter_pointers hunique id
    rw [hlinked] at hfilter
    rw [foldl_ingestFamily, Dict.get?_accumulated_cons _ _ _ hfilter]
    exact ⟨_, rfl⟩
  obtain ⟨record, hrecord⟩ := hget
  obtain ⟨first', rest', hlinked', hspec⟩ := linked_of_get? recordIndex hunique hrecord
  rw [hlinked, List.cons.injEq] at hlinked'
  obtain ⟨rfl, rfl⟩ := hlinked'
  refine ⟨record.sortCandidates, ?_, ⟨hspec.sampledObjectId, hspec.identity,
    hspec.runtimeReady, hspec.keys, hspec.low32s, hspec.pcrcs⟩⟩
  have hkeyed : ∀ entry ∈ (exactAuthorities ++ compatibilityAliases ++
      unresolvedFamilies).foldl (ingestFamily recordIndex) [],
      entry.2.sampledObjectId = entry.1 := by
    intro entry hentry
    obtain ⟨pointer, others, hpointers, hgathered⟩ :=
      linked_of_get? recordIndex hunique ((Dict.mem_iff_get? hdistinct).mp hentry)
    rw [hgathered.sampledObjectId]
    apply sampledObjectId_of_linkedObjects
    rw [hpointers]
    exact List.mem_cons_self
  have hmem := (Dict.mem_iff_get? hdistinct).mpr hrecord
  unfold buildCanonicalTransport
  simp only
  generalize (exactAuthorities ++ compatibilityAliases ++ unresolvedFamilies).foldl
    (ingestFamily recordIndex) [] = records at hdistinct hkeyed hmem ⊢
  have hkeys : ((records.map Prod.snd).map CanonicalRecord.sortCandidates).map
      (·.sampledObjectId) = records.map Prod.fst := by
    rw [List.map_map, List.map_map]
    exact List.map_congr_left hkeyed
  have hnodup : ((sortByText (·.sampledObjectId.text)
      ((records.map Prod.snd).map CanonicalRecord.sortCandidates)).map
        (·.sampledObjectId)).Nodup := by
    rw [((sortByText_perm _ _).map _).nodup_iff, hkeys]
    exact hdistinct
  have hsorted : record.sortCandidates ∈ sortByText (·.sampledObjectId.text)
      ((records.map Prod.snd).map CanonicalRecord.sortCandidates) := by
    rw [mem_sortByText]
    exact List.mem_map_of_mem (List.mem_map_of_mem hmem)
  have hsingleton := filter_key_eq_singleton hnodup hsorted
  have hid : record.sortCandidates.sampledObjectId = id := hkeyed _ hmem
  rw [hid] at hsingleton
  exact hsingleton

end Transport

def ImportState.families (state : ImportState) : List Family :=
  state.exactAuthorities ++ state.compatibilityAliases ++ state.unresolvedFamilies

section Import

variable {η : Type} [DecidableEq η]
variable (decode : CacheEntry → Option Bytes) (hash : Bytes → η)
variable (entries : List CacheEntry) (bundleContext : BundleContext)
variable (importPolicy : ImportPolicy)

/-- The requested families as an import without any evidence lists them: exact authorities,
then compatibility aliases, then unresolved families. -/
def importOrder (pairs : List FamilyKey) : List FamilyKey :=
  match importFamilies decode hash entries bundleContext [] importPolicy pairs with
  | .error _ => []
  | .ok state => state.families.map (·.policyKey)

variable {decode hash entries bundleContext importPolicy}

/-- Two imports agree but for the sampled objects of the families. -/
structure SameOrder (state state' : ImportState) : Prop where
  decodedCache : state.decodedCache = state'.decodedCache
  exactAuthorities : state.exactAuthorities.map (·.policyKey) =
    state'.exactAuthorities.map (·.policyKey)
  compatibilityAliases : state.compatibilityAliases.map (·.policyKey) =
    state'.compatibilityAliases.map (·.policyKey)
  unresolvedFamilies : state.unresolvedFamilies.map (·.policyKey) =
    state'.unresolvedFamilies.map (·.policyKey)

variable {state state' : ImportState}

theorem SameOrder.add (h : SameOrder state state') (type : FamilyType) {family family' : Family}
    (hkey : family.policyKey = family'.policyKey) :
    SameOrder (state.add type family) (state'.add type family') := by
  cases type with
  | exactAuthority =>
    refine ⟨h.decodedCache, ?_, h.compatibilityAliases, h.unresolvedFamilies⟩
    simp [ImportState.add, h.exactAuthorities, hkey]
  | compatibility =>
    refine ⟨h.decodedCache, h.exactAuthorities, ?_, h.unresolvedFamilies⟩
    simp [ImportState.add, h.compatibilityAliases, hkey]
  | unresolved =>
    refine ⟨h.decodedCache, h.exactAuthorities, h.compatibilityAliases, ?_⟩
    simp [ImportState.add, h.unresolvedFamilies, hkey]

theorem SameOrder.families (h : SameOrder state state') :
    state.families.map (·.policyKey) = state'.families.map (·.policyKey) := by
  simp only [ImportState.families, List.map_append]
  rw [h.exactAuthorities, h.compatibilityAliases, h.unresolvedFamilies]

theorem classifyImport_candidates (key : FamilyKey) (observation : Option Observation)
    (candidates candidates' : List SampledObject) (policy : SelectorPolicy) :
    (classifyImport entries key observation candidates policy).1 =
        (classifyImport entries key observation candidates' policy).1 ∧
      (classifyImport entries key observation candidates policy).2.policyKey =
        (classifyImport entries key observation candidates' policy).2.policyKey := by
  unfold classifyImport
  simp only
  split_ifs
  · exact ⟨rfl, rfl⟩
  · exact ⟨rfl, rfl⟩
  · exact ⟨rfl, rfl⟩

theorem SameOrder.importFamily {sampledContext sampledContext' : SampledContext}
    (h : SameOrder state state') {key : FamilyKey} {next : ImportState}
    (hnext : importFamily decode hash entries bundleContext sampledContext importPolicy state
      key = .ok next) :
    ∃ next', importFamily decode hash entries bundleContext sampledContext' importPolicy state'
      key = .ok next' ∧ SameOrder next next' := by
  unfold Migrate.importFamily at hnext ⊢
  rw [← h.decodedCache]
  simp only at hnext ⊢
  cases hresolved : resolveFamilyPolicySelectionOverride key (importPolicy key)
    (variantGroupList entries key) with
  | error error =>
    rw [hresolved] at hnext
    cases hnext
  | ok policySelection =>
    rw [hresolved] at hnext
    cases hnext
    refine ⟨_, rfl, ?_⟩
    obtain ⟨htype, hkey⟩ := classifyImport_candidates key (bundleContext key)
      (fallbackSampledCandidates sampledContext key)
      (fallbackSampledCandidates sampledContext' key)
      (familySelectorPolicy entries key (bundleContext key) (importPolicy key) policySelection
        ((scaleEquivalentSelection decode hash entries key state.decodedCache).2.map
          ScaleSelection.selection))
    rw [← htype]
    apply SameOrder.add ?_ _ hkey
    exact ⟨rfl, h.exactAuthorities, h.compatibilityAliases, h.unresolvedFamilies⟩

theorem importOrder_eq {sampledContext : SampledContext} {pairs : List FamilyKey}
    {state : ImportState}
    (h : importFamilies decode hash entries bundleContext sampledContext importPolicy pairs =
      .ok state) :
    importOrder decode hash entries bundleContext importPolicy pairs =
      state.families.map (·.policyKey) := by
  have hstep : ∀ (state state' : ImportState) (key : FamilyKey) (next : ImportState),
      SameOrder state state' →
      importFamily decode hash entries bundleContext sampledContext importPolicy state key =
        .ok next →
      ∃ next', importFamily decode hash entries bundleContext [] importPolicy state' key =
        .ok next' ∧ SameOrder next next' :=
    fun _ _ _ _ hsame hnext => hsame.importFamily hnext
  obtain ⟨state', hstate', hsame⟩ :=
    foldlM_ok_simulation SameOrder hstep ⟨rfl, rfl, rfl, rfl⟩ h
  unfold importOrder importFamilies
  rw [hstate', hsame.families]

theorem mem_importOrder {sampledContext : SampledContext} {pairs : List FamilyKey}
    {state : ImportState}
    (h : importFamilies decode hash entries bundleContext sampledContext importPolicy pairs =
      .ok state) {key : FamilyKey} :
    key ∈ importOrder decode hash entries bundleContext importPolicy pairs ↔ key ∈ pairs := by
  obtain ⟨⟨outcomes, hperm, hkeys, _⟩, _⟩ := importFamilies_outcomes h
  have helements : state.families.map (·.policyKey) = state.elements.map (·.2.policyKey) := by
    simp [ImportState.families, ImportState.elements, List.map_map, Function.comp_def]
  rw [importOrder_eq h, helements, ← hkeys]
  exact (hperm.map _).mem_iff

end Import

def evidenceGroups (bundles : List Bundle) (id : SampledObjectId) : List ProbeGroup :=
  bundles.flatMap (groupsOf · id)

def Matches (bundles : List Bundle) (key : FamilyKey) (id : SampledObjectId) : Prop :=
  MatchesFormat bundles key id ∧ HasLow32 (evidenceGroups bundles id) key.textureCrc

instance (bundles : List Bundle) (key : FamilyKey) (id : SampledObjectId) :
    Decidable (Matches bundles key id) :=
  inferInstanceAs (Decidable (_ ∧ _))

/-- A record has all that the groups of its identifier say. -/
structure Lossless (bundles : List Bundle) (pairs : List FamilyKey) (id : SampledObjectId)
    (record : CanonicalRecord) : Prop where
  low32s : ∀ value, value ∈ uploadValues record.uploadLow32s ↔
    ∃ group ∈ evidenceGroups bundles id, value ∈ group.low32s
  pcrcs : ∀ value, value ∈ uploadValues record.uploadPcrcs ↔
    ∃ group ∈ evidenceGroups bundles id, value ∈ group.pcrcs
  keys : ∀ key, key ∈ record.linkedPolicyKeys ↔ key ∈ pairs ∧ Matches bundles key id
  runtimeReady : record.runtimeReady = true ↔
    ∃ group ∈ evidenceGroups bundles id, carriesPcrc group = true
  palette : record.runtimeReady = true →
    ∃ group ∈ evidenceGroups bundles id, carriesPcrc group = true ∧
      record.identity.sampledEntryPcrc = group.sampledEntryPcrc ∧
      record.identity.sampledSparsePcrc = group.sampledSparsePcrc

/-- An identifier has exactly one canonical record, and nothing was lost in it. -/
def MergesWithoutLoss (bundles : List Bundle) (pairs : List FamilyKey) (index : ImportedIndex)
    (id : SampledObjectId) : Prop :=
  ∃ record, (index.canonicalRecords.filter fun record => record.sampledObjectId == id) =
    [record] ∧ Lossless bundles pairs id record

/-- All uploads are in the first bundle of some matching family; and if a palette checksum was
seen, then in the first group of the first bundle of the first matching family. -/
structure EvidenceKept (bundles : List Bundle) (order : List FamilyKey)
    (id : SampledObjectId) : Prop where
  low32s : ∀ group ∈ evidenceGroups bundles id, ∀ value ∈ group.low32s,
    ∃ key ∈ order, Matches bundles key id ∧
      ∃ kept ∈ firstGroups bundles key.textureCrc id, value ∈ kept.low32s
  pcrcs : ∀ group ∈ evidenceGroups bundles id, ∀ value ∈ group.pcrcs,
    ∃ key ∈ order, Matches bundles key id ∧
      ∃ kept ∈ firstGroups bundles key.textureCrc id, value ∈ kept.pcrcs
  palette : (∃ group ∈ evidenceGroups bundles id, carriesPcrc group = true) →
    ∃ key kept, (order.find? fun key => decide (Matches bundles key id)) = some key ∧
      (firstGroups bundles key.textureCrc id).head? = some kept ∧ carriesPcrc kept = true

theorem mem_firstGroups {bundles : List Bundle} {textureCrc : Nat} {group : ProbeGroup}
    (h : group ∈ firstGroups bundles textureCrc id) :
    group ∈ evidenceGroups bundles id ∧ group.sampledObjectId = id := by
  unfold firstGroups at h
  cases hfind : (bundles.map (groupsOf · id)).find? fun groups =>
      decide (HasLow32 groups textureCrc) with
  | none =>
    rw [hfind] at h
    cases h
  | some groups =>
    rw [hfind, Option.getD_some] at h
    obtain ⟨bundle, hbundle, rfl⟩ := List.mem_map.mp (List.mem_of_find?_eq_some hfind)
    exact ⟨List.mem_flatMap.mpr ⟨bundle, hbundle, h⟩, groupsOf_id group h⟩

theorem hasLow32_evidenceGroups {bundles : List Bundle} {textureCrc : Nat} :
    HasLow32 (evidenceGroups bundles id) textureCrc ↔
      ∃ bundle ∈ bundles, HasLow32 (groupsOf bundle id) textureCrc := by
  unfold HasLow32 evidenceGroups
  simp only [List.mem_flatMap]
  constructor
  · rintro ⟨group, ⟨bundle, hbundle, hgroup⟩, hvalue⟩
    exact ⟨bundle, hbundle, group, hgroup, hvalue⟩
  · rintro ⟨bundle, hbundle, group, hgroup, hvalue⟩
    exact ⟨group, ⟨bundle, hbundle, hgroup⟩, hvalue⟩

/-- What the record of an identifier has, read off the bundles. -/
structure Kept (bundles : List Bundle) (order : List FamilyKey) (id : SampledObjectId)
    (record : CanonicalRecord) : Prop where
  low32s : ∀ value, value ∈ uploadValues record.uploadLow32s ↔
    ∃ key ∈ order, Matches bundles key id ∧
      ∃ kept ∈ firstGroups bundles key.textureCrc id, value ∈ kept.low32s
  pcrcs : ∀ value, value ∈ uploadValues record.uploadPcrcs ↔
    ∃ key ∈ order, Matches bundles key id ∧
      ∃ kept ∈ firstGroups bundles key.textureCrc id, value ∈ kept.pcrcs
  keys : ∀ key, key ∈ record.linkedPolicyKeys ↔ key ∈ order ∧ Matches bundles key id
  first : ∃ key kept, (order.find? fun key => decide (Matches bundles key id)) = some key ∧
    (firstGroups bundles key.textureCrc id).head? = some kept ∧
    (record.runtimeReady = true ↔
      ∃ group ∈ firstGroups bundles key.textureCrc id, carriesPcrc group = true) ∧
    record.identity = (makeSampledObject kept).identity

theorem Kept.lossless_iff {bundles : List Bundle} {order pairs : List FamilyKey}
    (h : Kept bundles order id record) (horder : ∀ key, key ∈ order ↔ key ∈ pairs) :
    Lossless bundles pairs id record ↔ EvidenceKept bundles order id := by
  obtain ⟨key, kept, hfind, hhead, hready, hidentity⟩ := h.first
  have hkept := List.mem_of_head? hhead
  constructor
  · intro hlossless
    refine ⟨?_, ?_, ?_⟩
    · intro group hgroup value hvalue
      exact (h.low32s value).mp ((hlossless.low32s value).mpr ⟨group, hgroup, hvalue⟩)
    · intro group hgroup value hvalue
      exact (h.pcrcs value).mp ((hlossless.pcrcs value).mpr ⟨group, hgroup, hvalue⟩)
    · intro hsome
      obtain ⟨group, _, hcarries, hentry, hsparse⟩ :=
        hlossless.palette (hlossless.runtimeReady.mpr hsome)
      refine ⟨key, kept, hfind, hhead, ?_⟩
      rw [hidentity] at hentry hsparse
      unfold carriesPcrc at hcarries ⊢
      rw [← hentry, ← hsparse] at hcarries
      exact hcarries
  · intro hevidence
    have hall : ∀ {key : FamilyKey} {group : ProbeGroup},
        group ∈ firstGroups bundles key.textureCrc id → group ∈ evidenceGroups bundles id :=
      fun hgroup => (mem_firstGroups hgroup).1
    have hcarried : (∃ group ∈ evidenceGroups bundles id, carriesPcrc group = true) →
        carriesPcrc kept = true := by
      intro hsome
      obtain ⟨key', kept', hfind', hhead', hcarries⟩ := hevidence.palette hsome
      rw [hfind, Option.some.injEq] at hfind'
      subst hfind'
      rw [hhead, Option.some.injEq] at hhead'
      subst hhead'
      exact hcarries
    refine ⟨?_, ?_, ?_, ?_, ?_⟩
    · intro value
      rw [h.low32s]
      constructor
      · rintro ⟨other, _, _, group, hgroup, hvalue⟩
        exact ⟨group, hall hgroup, hvalue⟩
      · rintro ⟨group, hgroup, hvalue⟩
        exact hevidence.low32s group hgroup value hvalue
    · intro value
      rw [h.pcrcs]
      constructor
      · rintro ⟨other, _, _, group, hgroup, hvalue⟩
        exact ⟨group, hall hgroup, hvalue⟩
      · rintro ⟨group, hgroup, hvalue⟩
        exact hevidence.pcrcs group hgroup value hvalue
    · intro other
      rw [h.keys, horder]
    · rw [hready]
      constructor
      · rintro ⟨group, hgroup, hcarries⟩
        exact ⟨group, hall hgroup, hcarries⟩
      · intro hsome
        exact ⟨kept, hkept, hcarried hsome⟩
    · intro hrecord
      obtain ⟨group, hgroup, hcarries⟩ := hready.mp hrecord
      refine ⟨kept, hall hkept, hcarried ⟨group, hall hgroup, hcarries⟩, ?_, ?_⟩
      · rw [hidentity]
        rfl
      · rw [hidentity]
        rfl

section Records

variable {bundle : Bundle} {contextBundles : List Bundle}

theorem object_of_matches {key : FamilyKey} (h : Matches (bundle :: contextBundles) key id) :
    ∃ object, objectIn (fallbackSampledCandidates
        (mergedSampledContext bundle contextBundles) key) id = some object ∧
      ObjectSpec (firstGroups (bundle :: contextBundles) key.textureCrc id) id object := by
  rw [objectIn_fallbackSampledCandidates, if_pos h.1]
  have hne := objectOf_firstGroups_ne_none.mpr (hasLow32_evidenceGroups.mp h.2)
  obtain ⟨object, hobject⟩ := Option.ne_none_iff_exists'.mp hne
  exact ⟨object, hobject, objectSpec_objectOf (fun _ hgroup => (mem_firstGroups hgroup).2) hobject⟩

theorem matches_of_object {key : FamilyKey} {object : SampledObject}
    (h : objectIn (fallbackSampledCandidates
      (mergedSampledContext bundle contextBundles) key) id = some object) :
    Matches (bundle :: contextBundles) key id := by
  rw [objectIn_fallbackSampledCandidates] at h
  by_cases hformat : MatchesFormat (bundle :: contextBundles) key id
  · rw [if_pos hformat] at h
    refine ⟨hformat, hasLow32_evidenceGroups.mpr (objectOf_firstGroups_ne_none.mp ?_)⟩
    rw [h]
    exact Option.some_ne_none object
  · rw [if_neg hformat] at h
    cases h

variable {families : List Family} {id : SampledObjectId}
variable (hobjects : ∀ family ∈ families, family.canonicalSampledObjects =
  fallbackSampledCandidates (mergedSampledContext bundle contextBundles) family.policyKey)

include hobjects

theorem mem_linkedObjects
    {pointer : Family × SampledObject} (h : pointer ∈ linkedObjects families id) :
    pointer.1 ∈ families ∧ Matches (bundle :: contextBundles) pointer.1.policyKey id ∧
      ObjectSpec (firstGroups (bundle :: contextBundles) pointer.1.policyKey.textureCrc id) id
        pointer.2 := by
  obtain ⟨family, hfamily, hmap⟩ := List.mem_filterMap.mp h
  obtain ⟨object, hobject, rfl⟩ := Option.map_eq_some_iff.mp hmap
  rw [hobjects family hfamily] at hobject
  have hmatches := matches_of_object hobject
  obtain ⟨other, hother, hspec⟩ := object_of_matches hmatches
  rw [hobject, Option.some.injEq] at hother
  subst hother
  exact ⟨hfamily, hmatches, hspec⟩

theorem linkedObjects_of_matches {family : Family} (hfamily : family ∈ families)
    (hmatches : Matches (bundle :: contextBundles) family.policyKey id) :
    ∃ object, (family, object) ∈ linkedObjects families id := by
  obtain ⟨object, hobject, _⟩ := object_of_matches hmatches
  refine ⟨object, List.mem_filterMap.mpr ⟨family, hfamily, ?_⟩⟩
  rw [hobjects family hfamily, hobject]
  rfl

theorem find?_of_linkedObjects (h : linkedObjects families id = first :: rest) :
    ((families.map (·.policyKey)).find? fun key =>
      decide (Matches (bundle :: contextBundles) key id)) = some first.1.policyKey := by
  induction families with
  | nil => cases h
  | cons family families ih =>
    have hown := hobjects family List.mem_cons_self
    rw [linkedObjects, List.filterMap_cons, hown] at h
    rw [List.map_cons, List.find?_cons]
    by_cases hmatches : Matches (bundle :: contextBundles) family.policyKey id
    · obtain ⟨object, hobject, _⟩ := object_of_matches hmatches
      rw [hobject, Option.map_some] at h
      simp only [List.cons.injEq] at h
      rw [decide_eq_true hmatches, ← h.1]
    · have hnone : objectIn (fallbackSampledCandidates
          (mergedSampledContext bundle contextBundles) family.policyKey) id = none := by
        by_contra hsome
        obtain ⟨object, hobject⟩ := Option.ne_none_iff_exists'.mp hsome
        exact hmatches (matches_of_object hobject)
      rw [hnone, Option.map_none] at h
      rw [decide_eq_false hmatches]
      exact ih (fun other hother => hobjects other (List.mem_cons_of_mem _ hother)) h

theorem exists_linkedObjects_iff {p : SampledObject → Prop} {q : ProbeGroup → Prop}
    (hpq : ∀ key object, ObjectSpec (firstGroups (bundle :: contextBundles) key id) id object →
      (p object ↔ ∃ group ∈ firstGroups (bundle :: contextBundles) key id, q group)) :
    (∃ pointer ∈ linkedObjects families id, p pointer.2) ↔
      ∃ key ∈ families.map (·.policyKey), Matches (bundle :: contextBundles) key id ∧
        ∃ kept ∈ firstGroups (bundle :: contextBundles) key.textureCrc id, q kept := by
  constructor
  · rintro ⟨pointer, hpointer, hp⟩
    obtain ⟨hfamily, hmatches, hspec⟩ := mem_linkedObjects hobjects hpointer
    exact ⟨_, List.mem_map_of_mem hfamily, hmatches, (hpq _ _ hspec).mp hp⟩
  · rintro ⟨_, hkey, hmatches, hkept⟩
    obtain ⟨family, hfamily, rfl⟩ := List.mem_map.mp hkey
    obtain ⟨object, hpointer⟩ := linkedObjects_of_matches hobjects hfamily hmatches
    obtain ⟨_, _, hspec⟩ := mem_linkedObjects hobjects hpointer
    exact ⟨_, hpointer, (hpq _ _ hspec).mpr hkept⟩

theorem Linked.kept (hlinked : linkedObjects families id = first :: rest)
    (h : Linked first.2 (first :: rest) record) :
    Kept (bundle :: contextBundles) (families.map (·.policyKey)) id record := by
  rw [← hlinked] at h
  have hfirst : first ∈ linkedObjects families id := by
    rw [hlinked]
    exact List.mem_cons_self
  refine ⟨?_, ?_, ?_, ?_⟩
  · intro value
    rw [h.low32s]
    exact exists_linkedObjects_iff hobjects fun _ _ hspec => hspec.low32s value
  · intro value
    rw [h.pcrcs]
    exact exists_linkedObjects_iff hobjects fun _ _ hspec => hspec.pcrcs value
  · intro key
    rw [h.keys]
    constructor
    · rintro ⟨pointer, hpointer, rfl⟩
      obtain ⟨hfamily, hmatches, _⟩ := mem_linkedObjects hobjects hpointer
      exact ⟨List.mem_map_of_mem hfamily, hmatches⟩
    · rintro ⟨hkey, hmatches⟩
      obtain ⟨family, hfamily, rfl⟩ := List.mem_map.mp hkey
      obtain ⟨object, hpointer⟩ := linkedObjects_of_matches hobjects hfamily hmatches
      exact ⟨_, hpointer, rfl⟩
  · obtain ⟨_, _, hspec⟩ := mem_linkedObjects hobjects hfirst
    obtain ⟨group, hgroup, hidentity⟩ := hspec.first
    refine ⟨_, group, find?_of_linkedObjects hobjects hlinked, hgroup, ?_, ?_⟩
    · rw [h.runtimeReady]
      exact hspec.runtimeReady
    · rw [h.identity]
      exact hidentity

end Records

section Built

variable {η : Type} [DecidableEq η]
variable {decode : CacheEntry → Option Bytes} {hash : Bytes → η}
variable {entries : List CacheEntry} {bundleContext : BundleContext}
variable {importPolicy : ImportPolicy}

theorem mergesWithoutLoss_iff {bundle : Bundle} {contextBundles : List Bundle}
    {pairs : List FamilyKey} {index : ImportedIndex}
    (h : buildImportedIndex decode hash entries bundleContext
      (mergedSampledContext bundle contextBundles) importPolicy pairs = .ok index)
    (hlinked : ∃ key ∈ pairs, Matches (bundle :: contextBundles) key id) :
    MergesWithoutLoss (bundle :: contextBundles) pairs index id ↔
      EvidenceKept (bundle :: contextBundles)
        (importOrder decode hash entries bundleContext importPolicy pairs) id := by
  obtain ⟨state, hstate, hindex⟩ := importFamilies_of_built h
  have horder := importOrder_eq hstate
  have hobjects : ∀ family ∈ state.families, family.canonicalSampledObjects =
      fallbackSampledCandidates (mergedSampledContext bundle contextBundles)
        family.policyKey := by
    intro family hfamily
    have helement : ∃ type, (type, family) ∈ index.elements := by
      rw [← hindex]
      simpa [ImportState.families, ImportedIndex.elements, ImportState.toIndex, or_assoc,
        exists_or] using hfamily
    obtain ⟨type, helement⟩ := helement
    exact objects_of_built h helement
  have hunique : ∀ family ∈ state.families, UniqueIds family.canonicalSampledObjects := by
    intro family hfamily
    rw [hobjects family hfamily]
    exact uniqueIds_fallbackSampledCandidates (mergedSampledContext_spec _ _).2.1 _
  obtain ⟨key, hkey, hmatches⟩ := hlinked
  rw [← mem_importOrder hstate, horder] at hkey
  obtain ⟨family, hfamily, rfl⟩ := List.mem_map.mp hkey
  obtain ⟨object, hpointer⟩ := linkedObjects_of_matches hobjects hfamily hmatches
  obtain ⟨first, rest, hpointers⟩ := List.exists_cons_of_ne_nil (List.ne_nil_of_mem hpointer)
  obtain ⟨record, hrecords, hgathered⟩ :=
    record_of_linked (indexRecords state.records) hunique hpointers
  have hkept := hgathered.kept hobjects hpointers
  rw [← horder] at hkept
  have hiff := hkept.lossless_iff fun key => mem_importOrder hstate
  have hcanonical : (index.canonicalRecords.filter fun record => record.sampledObjectId == id) =
      [record] := by
    rw [← hindex]
    exact hrecords
  constructor
  · rintro ⟨other, hother, hlossless⟩
    rw [hcanonical, List.cons.injEq] at hother
    rw [← hother.1] at hlossless
    exact hiff.mp hlossless
  · intro hevidence
    exact ⟨record, hcanonical, hiff.mpr hevidence⟩

/-- In a built index all evidence merges without loss exactly when that of every linked
identifier is where the merges keep it. -/
theorem evidence_merges_iff {bundle : Bundle} {contextBundles : List Bundle}
    {pairs : List FamilyKey} {index : ImportedIndex}
    (h : buildImportedIndex decode hash entries bundleContext
      (mergedSampledContext bundle contextBundles) importPolicy pairs = .ok index) :
    (∀ id, (∃ key ∈ pairs, Matches (bundle :: contextBundles) key id) →
        MergesWithoutLoss (bundle :: contextBundles) pairs index id) ↔
      ∀ id, (∃ key ∈ pairs, Matches (bundle :: contextBundles) key id) →
        EvidenceKept (bundle :: contextBundles)
          (importOrder decode hash entries bundleContext importPolicy pairs) id := by
  refine forall₂_congr ?_
  intro id hlinked
  exact mergesWithoutLoss_iff h hlinked

end Built

end Evidence

/-- The evidence of two groups of one identifier in two bundles is kept. -/
theorem twoGroups_merge :
    ∃ index, buildImportedIndex paintEntry id [] (fun _ => none)
        (mergedSampledContext [sampleGroup (some ['9'])] [[sampleGroup none]]) (fun _ => none)
          [sampleFamily] = .ok index ∧
      ∀ id, (∃ key ∈ [sampleFamily],
          Matches [[sampleGroup (some ['9'])], [sampleGroup none]] key id) →
        MergesWithoutLoss [[sampleGroup (some ['9'])], [sampleGroup none]] [sampleFamily] index
          id := by
  have hbuilt : ∃ index, buildImportedIndex paintEntry id [] (fun _ => none)
      (mergedSampledContext [sampleGroup (some ['9'])] [[sampleGroup none]]) (fun _ => none)
        [sampleFamily] = .ok index := ⟨_, rfl⟩
  obtain ⟨index, hindex⟩ := hbuilt
  refine ⟨index, hindex, (evidence_merges_iff hindex).mpr ?_⟩
  rintro id ⟨key, _, _, group, hgroup, _⟩
  have hids : ∀ bundle ∈ [[sampleGroup (some ['9'])], [sampleGroup none]], ∀ group ∈ bundle,
      (sampleGroup none).sampledObjectId = group.sampledObjectId := by decide
  obtain ⟨bundle, hbundle, hmem⟩ := List.mem_flatMap.mp hgroup
  obtain rfl : (sampleGroup none).sampledObjectId = id := by
    rw [← groupsOf_id group hmem]
    exact hids bundle hbundle group (List.mem_filter.mp (List.mem_filter.mp hmem).1).1
  exact ⟨by decide, by decide, fun _ => ⟨sampleFamily, sampleGroup (some ['9']), rfl, rfl, rfl⟩⟩

/-- The palette checksum of a second group makes the object ready and is lost. -/
theorem secondGroup_not_merges :
    ∃ index, buildImportedIndex paintEntry id [] (fun _ => none)
        (mergedSampledContext [sampleGroup none, sampleGroup (some ['9'])] []) (fun _ => none)
          [sampleFamily] = .ok index ∧
      Matches [[sampleGroup none, sampleGroup (some ['9'])]] sampleFamily
        (sampleGroup none).sampledObjectId ∧
      ¬MergesWithoutLoss [[sampleGroup none, sampleGroup (some ['9'])]] [sampleFamily] index
        (sampleGroup none).sampledObjectId := by
  have hbuilt : ∃ index, buildImportedIndex paintEntry id [] (fun _ => none)
      (mergedSampledContext [sampleGroup none, sampleGroup (some ['9'])] []) (fun _ => none)
        [sampleFamily] = .ok index := ⟨_, rfl⟩
  obtain ⟨index, hindex⟩ := hbuilt
  have hmatches : Matches [[sampleGroup none, sampleGroup (some ['9'])]] sampleFamily
      (sampleGroup none).sampledObjectId := by decide
  refine ⟨index, hindex, hmatches, ?_⟩
  rw [mergesWithoutLoss_iff hindex ⟨sampleFamily, List.mem_singleton_self _, hmatches⟩]
  intro hevidence
  obtain ⟨key, kept, hfind, hhead, hcarries⟩ :=
    hevidence.palette ⟨sampleGroup (some ['9']), by decide, rfl⟩
  have hkey : key = sampleFamily := by
    have horder : ((importOrder paintEntry id [] (fun _ => none) (fun _ => none)
        [sampleFamily]).find? fun key =>
          decide (Matches [[sampleGroup none, sampleGroup (some ['9'])]] key
            (sampleGroup none).sampledObjectId)) = some sampleFamily := rfl
    rw [horder, Option.some.injEq] at hfind
    exact hfind.symm
  subst hkey
  have hfirst : (firstGroups [[sampleGroup none, sampleGroup (some ['9'])]]
      sampleFamily.textureCrc (sampleGroup none).sampledObjectId).head? =
        some (sampleGroup none) := rfl
  rw [hfirst, Option.some.injEq] at hhead
  subst hhead
  cases hcarries

end ParallelN64.Migrate
