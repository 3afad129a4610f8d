import ParallelN64.Migrate.BundleObjects

/-!
# The evidence of several bundles

Under a family the merged context has the object of the first bundle that has one. A family
without format and size that nothing is listed for takes the objects of its checksum from the
families of all formats.
-/

namespace ParallelN64.Migrate

open ParallelN64.Core Phrb

theorem contextObject_merge {extra : SampledContext} (hextra : extra.Distinct)
    (base : SampledContext) (key : FamilyKey) (id : SampledObjectId) :
    contextObject (mergeBundleSampledObjectContexts base extra) key id =
      (contextObject base key id).or (contextObject extra key id) := by
  unfold mergeBundleSampledObjectContexts
  induction extra generalizing base with
  | nil => simp [contextObject, objectIn]
  | cons entry extra ih =>
    obtain ⟨k, objects⟩ := entry
    obtain ⟨hfresh, hdistinct⟩ := List.nodup_cons.mp hextra
    rw [List.foldl_cons, ih hdistinct]
    unfold contextObject
    rw [Dict.get?_assign, Dict.get?]
    by_cases hk : k = key
    · subst hk
      have hnone : Dict.get? extra k = none := Dict.get?_eq_none_iff.mpr hfresh
      rw [if_pos rfl, if_pos rfl, hnone, Option.getD_some, Option.getD_some, Option.getD_none,
        objectIn_foldl_addObject]
      exact Option.or_none
    · rw [if_neg (Ne.symm hk), if_neg hk]

theorem distinct_merge {base : SampledContext} (hbase : base.Distinct) (extra : SampledContext) :
    Dict.Distinct (mergeBundleSampledObjectContexts base extra) := by
  unfold mergeBundleSampledObjectContexts
  induction extra generalizing base with
  | nil => exact hbase
  | cons entry extra ih => exact ih (hbase.assign _ _)

def UniqueContext (context : SampledContext) : Prop :=
  ∀ key, UniqueIds ((context.get? key).getD [])

theorem UniqueContext.merge {base : SampledContext} (hbase : UniqueContext base)
    (extra : SampledContext) : UniqueContext (mergeBundleSampledObjectContexts base extra) := by
  unfold mergeBundleSampledObjectContexts
  induction extra generalizing base with
  | nil => exact hbase
  | cons entry extra ih =>
    apply ih
    intro key
    rw [Dict.get?_assign]
    split_ifs
    · exact (hbase _).foldl_addObject _
    · exact hbase key

theorem distinct_resolve {state : EvidenceState} (h : state.context.Distinct) :
    Dict.Distinct state.resolve := by
  unfold Dict.Distinct EvidenceState.resolve
  rw [List.map_map]
  exact h

variable (bundle : Bundle) (contextBundles : List Bundle)

theorem distinct_parse : Dict.Distinct (parseBundleSampledObjectContext bundle) :=
  distinct_resolve (registered_ingestRuntimeSampledProbe bundle).distinct

theorem uniqueContext_parse : UniqueContext (parseBundleSampledObjectContext bundle) := by
  have hregistered := registered_ingestRuntimeSampledProbe bundle
  intro key
  unfold parseBundleSampledObjectContext
  rw [get?_resolve]
  have hnodup := hregistered.nodup key
  unfold listedIds at hnodup
  have hids : ∀ ids : List SampledObjectId, ids.Nodup →
      UniqueIds (ids.filterMap (ingestRuntimeSampledProbe bundle).objects.get?) := by
    intro ids hids
    induction ids with
    | nil => exact List.nodup_nil
    | cons id ids ih =>
      obtain ⟨hfresh, hrest⟩ := List.nodup_cons.mp hids
      rw [List.filterMap_cons]
      cases hget : (ingestRuntimeSampledProbe bundle).objects.get? id with
      | none => exact ih hrest
      | some object =>
        refine List.nodup_cons.mpr ⟨?_, ih hrest⟩
        simp only [(hregistered.own id object hget).1]
        rw [List.mem_map]
        rintro ⟨other, hother, hsame⟩
        obtain ⟨id', hid', hget'⟩ := List.mem_filterMap.mp hother
        rw [(hregistered.own id' other hget').1] at hsame
        subst hsame
        exact hfresh hid'
  cases hget : (ingestRuntimeSampledProbe bundle).context.get? key with
  | none => exact List.nodup_nil
  | some ids =>
    rw [hget] at hnodup
    exact hids ids hnodup

/-- The groups of an identifier in the first bundle where one of them has an upload of a
checksum. -/
def firstGroups (bundles : List Bundle) (textureCrc : Nat) (id : SampledObjectId) :
    List ProbeGroup :=
  ((bundles.map (groupsOf · id)).find? fun groups => decide (HasLow32 groups textureCrc)).getD []

theorem groupsOf_id {bundle : Bundle} {id : SampledObjectId} :
    ∀ group ∈ groupsOf bundle id, group.sampledObjectId = id := by
  intro group hgroup
  simpa using (List.mem_filter.mp hgroup).2

theorem contextObject_parse_eq (key : FamilyKey) (id : SampledObjectId) :
    contextObject (parseBundleSampledObjectContext bundle) key id =
      if key.formatsize = id.fs.getD 0 ∧ HasLow32 (groupsOf bundle id) key.textureCrc then
        objectOf (groupsOf bundle id)
      else none := by
  rw [contextObject_parse]
  cases hobject : objectOf (groupsOf bundle id) with
  | none => simp
  | some object =>
    have hspec := objectSpec_objectOf groupsOf_id hobject
    have hupload : HasUpload object key ↔
        key.formatsize = id.fs.getD 0 ∧ HasLow32 (groupsOf bundle id) key.textureCrc := by
      unfold HasUpload HasLow32
      rw [hspec.formatsize]
      simp only [hspec.low32s]
      refine and_congr_right fun _ => ?_
      constructor
      · rintro ⟨value, ⟨group, hgroup, hvalue⟩, hhex⟩
        exact ⟨group, hgroup, value, hvalue, hhex⟩
      · rintro ⟨group, hgroup, value, hvalue, hhex⟩
        exact ⟨value, ⟨group, hgroup, hvalue⟩, hhex⟩
    rw [Option.filter_some]
    by_cases hhas : HasUpload object key
    · rw [if_pos (hupload.mp hhas), if_pos (decide_eq_true hhas)]
    · rw [if_neg (mt hupload.mpr hhas), if_neg (by simpa using hhas)]

theorem mergedSampledContext_spec :
    Dict.Distinct (mergedSampledContext bundle contextBundles) ∧
      UniqueContext (mergedSampledContext bundle contextBundles) ∧
      ∀ key id, contextObject (mergedSampledContext bundle contextBundles) key id =
        (bundle :: contextBundles).findSome? fun other =>
          contextObject (parseBundleSampledObjectContext other) key id := by
  have hrun : ∀ (contextBundles : List Bundle) (base : SampledContext), Dict.Distinct base →
      UniqueContext base →
      Dict.Distinct (contextBundles.foldl (fun merged extra =>
          mergeBundleSampledObjectContexts merged (parseBundleSampledObjectContext extra)) base) ∧
        UniqueContext (contextBundles.foldl (fun merged extra =>
          mergeBundleSampledObjectContexts merged (parseBundleSampledObjectContext extra)) base) ∧
        ∀ key id, contextObject (contextBundles.foldl (fun merged extra =>
          mergeBundleSampledObjectContexts merged (parseBundleSampledObjectContext extra)) base)
            key id = (contextObject base key id).or (contextBundles.findSome? fun other =>
              contextObject (parseBundleSampledObjectContext other) key id) := by
    intro contextBundles
    induction contextBundles with
    | nil =>
      intro base hdistinct hunique
      refine ⟨hdistinct, hunique, ?_⟩
      intro key id
      rw [List.findSome?_nil, Option.or_none, List.foldl_nil]
    | cons extra contextBundles ih =>
      intro base hdistinct hunique
      obtain ⟨hdistinct', hunique', hobjects⟩ :=
        ih _ (distinct_merge hdistinct (parseBundleSampledObjectContext extra))
          (hunique.merge (parseBundleSampledObjectContext extra))
      refine ⟨hdistinct', hunique', ?_⟩
      intro key id
      rw [List.foldl_cons, hobjects, contextObject_merge (distinct_parse extra), Option.or_assoc,
        List.findSome?_cons]
      cases contextObject (parseBundleSampledObjectContext extra) key id <;> rfl
  obtain ⟨hdistinct, hunique, hobjects⟩ :=
    hrun contextBundles _ (distinct_parse bundle) (uniqueContext_parse bundle)
  refine ⟨hdistinct, hunique, ?_⟩
  intro key id
  rw [mergedSampledContext, hobjects, List.findSome?_cons]
  cases contextObject (parseBundleSampledObjectContext bundle) key id <;> rfl

theorem contextObject_merged (key : FamilyKey) (id : SampledObjectId) :
    contextObject (mergedSampledContext bundle contextBundles) key id =
      if key.formatsize = id.fs.getD 0 then
        objectOf (firstGroups (bundle :: contextBundles) key.textureCrc id)
      else none := by
  rw [(mergedSampledContext_spec bundle contextBundles).2.2]
  unfold firstGroups
  induction bundle :: contextBundles with
  | nil => simp [objectOf]
  | cons bundle bundles ih =>
    rw [List.findSome?_cons, contextObject_parse_eq, List.map_cons, List.find?_cons, ih]
    by_cases hformat : key.formatsize = id.fs.getD 0
    · simp only [hformat, true_and, if_true]
      by_cases hlow32 : HasLow32 (groupsOf bundle id) key.textureCrc
      · rw [if_pos hlow32]
        simp only [hlow32, decide_true, Option.getD_some]
        have hne : objectOf (groupsOf bundle id) ≠ none := by
          rw [Ne, objectOf_eq_none_iff]
          intro hempty
          rw [hempty] at hlow32
          obtain ⟨group, hgroup, _⟩ := hlow32
          cases hgroup
        cases hobject : objectOf (groupsOf bundle id) with
        | none => exact absurd hobject hne
        | some object => rfl
      · rw [if_neg hlow32]
        simp only [hlow32, decide_false]
    · simp [hformat]

def HasFormatless (bundles : List Bundle) (textureCrc : Nat) : Prop :=
  ∃ bundle ∈ bundles, ∃ group ∈ bundle.filter survives,
    group.fs.getD 0 = 0 ∧ HasLow32 [group] textureCrc

instance (bundles : List Bundle) (textureCrc : Nat) : Decidable (HasFormatless bundles textureCrc) :=
  inferInstanceAs (Decidable (∃ _ ∈ _, ∃ _ ∈ _, _))

/-- The requests that an identifier's uploads of a checksum match: the family of its format and
size, and the one without if no object without has such an upload. -/
def MatchesFormat (bundles : List Bundle) (key : FamilyKey) (id : SampledObjectId) : Prop :=
  key.formatsize = id.fs.getD 0 ∨
    key.formatsize = 0 ∧ ¬HasFormatless bundles key.textureCrc

instance (bundles : List Bundle) (key : FamilyKey) (id : SampledObjectId) :
    Decidable (MatchesFormat bundles key id) :=
  inferInstanceAs (Decidable (_ ∨ _))

theorem objectOf_firstGroups_ne_none {bundles : List Bundle} {textureCrc : Nat}
    {id : SampledObjectId} :
    objectOf (firstGroups bundles textureCrc id) ≠ none ↔
      ∃ bundle ∈ bundles, HasLow32 (groupsOf bundle id) textureCrc := by
  rw [Ne, objectOf_eq_none_iff]
  unfold firstGroups
  cases hfind : (bundles.map (groupsOf · id)).find? fun groups =>
      decide (HasLow32 groups textureCrc) with
  | none =>
    rw [List.find?_eq_none] at hfind
    simp only [Option.getD_none, not_true_eq_false, false_iff]
    rintro ⟨bundle, hbundle, hlow32⟩
    exact hfind _ (List.mem_map_of_mem hbundle) (decide_eq_true hlow32)
  | some groups =>
    have hlow32 : HasLow32 groups textureCrc := by simpa using List.find?_some hfind
    obtain ⟨bundle, hbundle, rfl⟩ := List.mem_map.mp (List.mem_of_find?_eq_some hfind)
    rw [Option.getD_some]
    constructor
    · exact fun _ => ⟨bundle, hbundle, hlow32⟩
    · intro _ hempty
      rw [hempty] at hlow32
      obtain ⟨group, hgroup, _⟩ := hlow32
      cases hgroup

theorem eq_nil_iff_objectIn {objects : List SampledObject} :
    objects = [] ↔ ∀ id, objectIn objects id = none := by
  constructor
  · rintro rfl id
    rfl
  · intro h
    cases objects with
    | nil => rfl
    | cons object objects =>
      have hfirst := h object.sampledObjectId
      rw [objectIn, List.find?_cons, beq_self_eq_true] at hfirst
      cases hfirst

theorem own_eq_nil_iff {key : FamilyKey} (hkey : key.formatsize = 0) :
    ((mergedSampledContext bundle contextBundles).get? key).getD [] = [] ↔
      ¬HasFormatless (bundle :: contextBundles) key.textureCrc := by
  rw [eq_nil_iff_objectIn, ← not_iff_not, not_not, not_forall]
  have hlookup : ∀ id, objectIn
      (((mergedSampledContext bundle contextBundles).get? key).getD []) id = none ↔
        ¬(id.fs.getD 0 = 0 ∧ ∃ other ∈ bundle :: contextBundles,
          HasLow32 (groupsOf other id) key.textureCrc) := by
    intro id
    have hobject := contextObject_merged bundle contextBundles key id
    rw [contextObject] at hobject
    rw [hobject, hkey]
    by_cases hformat : id.fs.getD 0 = 0
    · rw [if_pos hformat.symm, ← not_iff_not, not_not, ← Ne, objectOf_firstGroups_ne_none]
      simp [hformat]
    · rw [if_neg (Ne.symm hformat)]
      simp [hformat]
  simp only [hlookup, not_not]
  constructor
  · rintro ⟨id, hformat, other, hother, group, hgroup, value, hvalue, hhex⟩
    have hid := groupsOf_id group hgroup
    refine ⟨other, hother, group, (List.mem_filter.mp hgroup).1, ?_, group,
      List.mem_singleton_self _, value, hvalue, hhex⟩
    rw [← hid] at hformat
    exact hformat
  · rintro ⟨other, hother, group, hgroup, hformat, group', hgroup', value, hvalue, hhex⟩
    rw [List.mem_singleton] at hgroup'
    subst hgroup'
    refine ⟨group'.sampledObjectId, hformat, other, hother, group', ?_, value, hvalue, hhex⟩
    exact List.mem_filter.mpr ⟨hgroup, by simp⟩

theorem objectIn_fallback (context : SampledContext) (textureCrc : Nat)
    (found : List SampledObject) (id : SampledObjectId) :
    objectIn (context.foldl (fun found entry =>
        if entry.1.textureCrc ≠ textureCrc then found else entry.2.foldl addObject found)
        found) id =
      (objectIn found id).or (context.findSome? fun entry =>
        if entry.1.textureCrc = textureCrc then objectIn entry.2 id else none) := by
  induction context generalizing found with
  | nil => simp
  | cons entry context ih =>
    rw [List.foldl_cons, ih, List.findSome?_cons]
    by_cases hcrc : entry.1.textureCrc = textureCrc
    · rw [if_neg (not_not.mpr hcrc), if_pos hcrc, objectIn_foldl_addObject, Option.or_assoc]
      cases objectIn entry.2 id <;> rfl
    · rw [if_pos hcrc, if_neg hcrc]

theorem uniqueIds_fallback (context : SampledContext) (textureCrc : Nat)
    {found : List SampledObject} (h : UniqueIds found) :
    UniqueIds (context.foldl (fun found entry =>
      if entry.1.textureCrc ≠ textureCrc then found else entry.2.foldl addObject found)
      found) := by
  induction context generalizing found with
  | nil => exact h
  | cons entry context ih =>
    rw [List.foldl_cons]
    apply ih
    split_ifs
    · exact h
    · exact h.foldl_addObject _

theorem uniqueIds_fallbackSampledCandidates {context : SampledContext}
    (h : UniqueContext context) (key : FamilyKey) :
    UniqueIds (fallbackSampledCandidates context key) := by
  unfold fallbackSampledCandidates
  simp only
  split_ifs
  · exact h key
  · exact uniqueIds_fallback context key.textureCrc List.nodup_nil

theorem findSome?_of_format {context : SampledContext} (hdistinct : context.Distinct)
    {id : SampledObjectId} {formatsize : Nat}
    (hformat : ∀ key, key.formatsize ≠ formatsize → contextObject context key id = none)
    (textureCrc : Nat) :
    (context.findSome? fun entry =>
        if entry.1.textureCrc = textureCrc then objectIn entry.2 id else none) =
      contextObject context { textureCrc, formatsize } id := by
  induction context with
  | nil => rfl
  | cons entry context ih =>
    obtain ⟨k, objects⟩ := entry
    obtain ⟨hfresh, hrest⟩ := List.nodup_cons.mp hdistinct
    have hnone : Dict.get? context k = none := Dict.get?_eq_none_iff.mpr hfresh
    have hother : ∀ key, key ≠ k →
        contextObject ((k, objects) :: context) key id = contextObject context key id := by
      intro key hkey
      rw [contextObject, Dict.get?, if_neg (Ne.symm hkey)]
      rfl
    have hown : contextObject ((k, objects) :: context) k id = objectIn objects id := by
      rw [contextObject, Dict.get?, if_pos rfl]
      rfl
    have hformat' : ∀ key, key.formatsize ≠ formatsize → contextObject context key id = none := by
      intro key hkey
      by_cases heq : key = k
      · rw [heq, contextObject, hnone]
        rfl
      · rw [← hother key heq]
        exact hformat key hkey
    rw [List.findSome?_cons, ih hrest hformat']
    by_cases hkey : ({ textureCrc, formatsize } : FamilyKey) = k
    · rw [hkey, hown, ← hkey, if_pos rfl, hkey, contextObject, hnone]
      cases objectIn objects id <;> rfl
    · rw [hother _ hkey]
      by_cases hcrc : k.textureCrc = textureCrc
      · have hkformat : k.formatsize ≠ formatsize := by
          intro hkformat
          apply hkey
          rw [← hcrc, ← hkformat]
        rw [if_pos hcrc, ← hown, hformat k hkformat]
      · rw [if_neg hcrc]

theorem objectIn_fallbackSampledCandidates (key : FamilyKey) (id : SampledObjectId) :
    objectIn (fallbackSampledCandidates (mergedSampledContext bundle contextBundles) key) id =
      if MatchesFormat (bundle :: contextBundles) key id then
        objectOf (firstGroups (bundle :: contextBundles) key.textureCrc id)
      else none := by
  obtain ⟨hdistinct, _, _⟩ := mergedSampledContext_spec bundle contextBundles
  have hobject := contextObject_merged bundle contextBundles
  unfold fallbackSampledCandidates
  simp only
  by_cases hkey : key.formatsize = 0
  · by_cases hformatless : HasFormatless (bundle :: contextBundles) key.textureCrc
    · have hown := mt (own_eq_nil_iff bundle contextBundles hkey).mp (not_not.mpr hformatless)
      rw [if_pos (.inl hown)]
      change contextObject _ key id = _
      rw [hobject]
      simp only [MatchesFormat, hformatless, not_true_eq_false, and_false, or_false]
    · have hown := (own_eq_nil_iff bundle contextBundles hkey).mpr hformatless
      have hmatches : MatchesFormat (bundle :: contextBundles) key id := .inr ⟨hkey, hformatless⟩
      have hformat : ∀ key', key'.formatsize ≠ id.fs.getD 0 →
          contextObject (mergedSampledContext bundle contextBundles) key' id = none := by
        intro key' hkey'
        rw [hobject, if_neg hkey']
      rw [if_neg (by simp [hown, hkey]), if_pos hmatches, objectIn_fallback,
        findSome?_of_format hdistinct hformat, hobject, if_pos rfl]
      rfl
  · rw [if_pos (.inr hkey)]
    change contextObject _ key id = _
    rw [hobject]
    simp only [MatchesFormat, hkey, false_and, or_false]

end ParallelN64.Migrate
