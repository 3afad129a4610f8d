import ParallelN64.Migrate.Evidence

/-!
# The objects of a bundle

Within a bundle the groups of one identifier become one object: it has the uploads of all of
them, it is ready when one of them carries a palette checksum, and the rest it has from the
first. It is listed under the families of all its uploads.
-/

namespace ParallelN64.Migrate

open ParallelN64.Core Phrb

def groupsOf (bundle : Bundle) (id : SampledObjectId) : List ProbeGroup :=
  (bundle.filter survives).filter fun group => decide (group.sampledObjectId = id)

def uploadValues (uploads : List Upload) : List Text :=
  (uploads.map (·.value)).filter (!·.isEmpty)

def ProbeGroup.low32s (group : ProbeGroup) : List Text :=
  uploadValues (uploadsOf group.uploadLow32s group.uploadLow32)

def ProbeGroup.pcrcs (group : ProbeGroup) : List Text :=
  uploadValues (uploadsOf group.uploadPcrcs group.uploadPcrc)

def HasLow32 (groups : List ProbeGroup) (textureCrc : Nat) : Prop :=
  ∃ group ∈ groups, ∃ value ∈ group.low32s, hexValue value = textureCrc

instance (groups : List ProbeGroup) (textureCrc : Nat) : Decidable (HasLow32 groups textureCrc) :=
  inferInstanceAs (Decidable (∃ _ ∈ _, _))

/-- The object of some groups: the first one with what the others bring. -/
def objectOf (groups : List ProbeGroup) : Option SampledObject :=
  match groups.map makeSampledObject with
  | [] => none
  | object :: rest => some (rest.foldl mergeObject object)

theorem mem_uploadValues {uploads : List Upload} {value : Text} :
    value ∈ uploadValues uploads ↔ value ≠ [] ∧ ∃ upload ∈ uploads, upload.value = value := by
  simp only [uploadValues, List.mem_filter, List.mem_map, Bool.not_eq_true',
    List.isEmpty_eq_false_iff]
  exact and_comm

theorem uploadValues_addUpload (uploads : List Upload) (upload : Upload) (value : Text) :
    value ∈ uploadValues (addUpload uploads upload) ↔
      value ∈ uploadValues uploads ∨ value ∈ uploadValues [upload] := by
  unfold addUpload
  by_cases hskip : (upload.value.isEmpty || uploads.any fun other =>
      other.value == upload.value) = true
  · rw [if_pos hskip]
    constructor
    · exact .inl
    · rintro (hmem | hmem)
      · exact hmem
      · obtain ⟨hne, other, hother, rfl⟩ := mem_uploadValues.mp hmem
        rw [List.mem_singleton] at hother
        subst hother
        rw [Bool.or_eq_true, List.isEmpty_iff, List.any_eq_true] at hskip
        obtain ⟨same, hsame, hvalue⟩ := hskip.resolve_left hne
        exact mem_uploadValues.mpr ⟨hne, same, hsame, beq_iff_eq.mp hvalue⟩
  · rw [if_neg hskip, uploadValues, List.map_append, List.filter_append, List.mem_append]
    rfl

theorem uploadValues_foldl_addUpload (uploads added : List Upload) (value : Text) :
    value ∈ uploadValues (added.foldl addUpload uploads) ↔
      value ∈ uploadValues uploads ∨ value ∈ uploadValues added := by
  induction added generalizing uploads with
  | nil => simp [uploadValues]
  | cons upload added ih =>
    have hcons : value ∈ uploadValues (upload :: added) ↔
        value ∈ uploadValues [upload] ∨ value ∈ uploadValues added := by
      simp only [mem_uploadValues, List.mem_cons, List.not_mem_nil, or_false]
      constructor
      · rintro ⟨hne, other, rfl | hother, hvalue⟩
        · exact .inl ⟨hne, other, rfl, hvalue⟩
        · exact .inr ⟨hne, other, hother, hvalue⟩
      · rintro (⟨hne, other, rfl, hvalue⟩ | ⟨hne, other, hother, hvalue⟩)
        · exact ⟨hne, other, .inl rfl, hvalue⟩
        · exact ⟨hne, other, .inr hother, hvalue⟩
    rw [List.foldl_cons, ih, uploadValues_addUpload, hcons, or_assoc]

theorem foldl_mergeObject (first : SampledObject) (rest : List SampledObject) :
    (rest.foldl mergeObject first).sampledObjectId = first.sampledObjectId ∧
      (rest.foldl mergeObject first).identity = first.identity ∧
      ((rest.foldl mergeObject first).runtimeReady = true ↔
        ∃ object ∈ first :: rest, object.runtimeReady = true) ∧
      (∀ value, value ∈ uploadValues (rest.foldl mergeObject first).uploadLow32s ↔
        ∃ object ∈ first :: rest, value ∈ uploadValues object.uploadLow32s) ∧
      ∀ value, value ∈ uploadValues (rest.foldl mergeObject first).uploadPcrcs ↔
        ∃ object ∈ first :: rest, value ∈ uploadValues object.uploadPcrcs := by
  induction rest generalizing first with
  | nil => simp
  | cons object rest ih =>
    obtain ⟨hid, hidentity, hready, hlow32s, hpcrcs⟩ := ih (mergeObject first object)
    rw [List.foldl_cons]
    refine ⟨hid, hidentity, ?_, ?_, ?_⟩
    · rw [hready]
      simp only [List.mem_cons, exists_eq_or_imp, mergeObject, Bool.or_eq_true]
      rw [or_assoc]
    · intro value
      rw [hlow32s]
      simp only [List.mem_cons, exists_eq_or_imp, mergeObject, uploadValues_foldl_addUpload]
      rw [or_assoc]
    · intro value
      rw [hpcrcs]
      simp only [List.mem_cons, exists_eq_or_imp, mergeObject, uploadValues_foldl_addUpload]
      rw [or_assoc]

/-- The object of some groups of one identifier. -/
structure ObjectSpec (groups : List ProbeGroup) (id : SampledObjectId)
    (object : SampledObject) : Prop where
  sampledObjectId : object.sampledObjectId = id
  formatsize : object.identity.formatsize = id.fs.getD 0
  first : ∃ group, groups.head? = some group ∧
    object.identity = (makeSampledObject group).identity
  runtimeReady : object.runtimeReady = true ↔ ∃ group ∈ groups, carriesPcrc group = true
  low32s : ∀ value, value ∈ uploadValues object.uploadLow32s ↔
    ∃ group ∈ groups, value ∈ group.low32s
  pcrcs : ∀ value, value ∈ uploadValues object.uploadPcrcs ↔
    ∃ group ∈ groups, value ∈ group.pcrcs

theorem objectSpec_objectOf {groups : List ProbeGroup} {id : SampledObjectId}
    {object : SampledObject} (hgroups : ∀ group ∈ groups, group.sampledObjectId = id)
    (h : objectOf groups = some object) : ObjectSpec groups id object := by
  cases groups with
  | nil => cases h
  | cons group rest =>
    unfold objectOf at h
    rw [List.map_cons] at h
    simp only [Option.some.injEq] at h
    obtain ⟨hid, hidentity, hready, hlow32s, hpcrcs⟩ :=
      foldl_mergeObject (makeSampledObject group) (rest.map makeSampledObject)
    rw [h, ← List.map_cons] at hready hlow32s hpcrcs
    rw [h] at hid hidentity
    have hfirst := hgroups group List.mem_cons_self
    constructor
    · rw [hid]
      exact hfirst
    · rw [hidentity, ← hfirst]
      rfl
    · exact ⟨group, rfl, hidentity⟩
    · rw [hready]
      simp only [List.mem_map, exists_exists_and_eq_and]
      rfl
    · intro value
      rw [hlow32s]
      simp only [List.mem_map, exists_exists_and_eq_and]
      rfl
    · intro value
      rw [hpcrcs]
      simp only [List.mem_map, exists_exists_and_eq_and]
      rfl

theorem objectOf_eq_none_iff {groups : List ProbeGroup} : objectOf groups = none ↔ groups = [] := by
  cases groups with
  | nil => simp [objectOf]
  | cons group rest => simp [objectOf]

theorem mergeObject_self (object : SampledObject) : mergeObject object object = object := by
  have huploads : ∀ uploads added : List Upload, (∀ upload ∈ added, upload ∈ uploads) →
      added.foldl addUpload uploads = uploads := by
    intro uploads added
    induction added with
    | nil => exact fun _ => rfl
    | cons upload added ih =>
      intro hall
      have hskip : addUpload uploads upload = uploads := by
        unfold addUpload
        rw [if_pos]
        rw [Bool.or_eq_true, List.any_eq_true]
        exact .inr ⟨upload, hall upload List.mem_cons_self, beq_self_eq_true _⟩
      rw [List.foldl_cons, hskip]
      exact ih fun other hother => hall other (List.mem_cons_of_mem _ hother)
  unfold mergeObject
  rw [huploads _ _ fun _ h => h, huploads _ _ fun _ h => h, Bool.or_self]

theorem objects_foldl_ingest (objects : List SampledObject) (state : EvidenceState) :
    (objects.foldl ingestSampledObject state).objects =
      objects.foldl (Dict.accumulate (·.sampledObjectId) id
        fun object existing => mergeObject existing object) state.objects := by
  induction objects generalizing state with
  | nil => rfl
  | cons object objects ih =>
    rw [List.foldl_cons, List.foldl_cons, ih]
    congr 1
    unfold ingestSampledObject Dict.accumulate
    cases state.objects.get? object.sampledObjectId with
    | none => simp [mergeObject_self]
    | some existing => rfl

theorem get?_ingestRuntimeSampledProbe (bundle : Bundle) (id : SampledObjectId) :
    (ingestRuntimeSampledProbe bundle).objects.get? id = objectOf (groupsOf bundle id) := by
  unfold ingestRuntimeSampledProbe
  rw [objects_foldl_ingest]
  have hfilter : (((bundle.filter survives).map makeSampledObject).filter fun object =>
      decide (object.sampledObjectId = id)) = (groupsOf bundle id).map makeSampledObject := by
    rw [List.filter_map]
    rfl
  unfold objectOf
  cases hgroups : (groupsOf bundle id).map makeSampledObject with
  | nil =>
    rw [hgroups] at hfilter
    exact Dict.get?_accumulated_nil _ _ _ hfilter
  | cons object rest =>
    rw [hgroups] at hfilter
    rw [Dict.get?_accumulated_cons _ _ _ hfilter, id_eq, mergeObject_self]

def HasUpload (object : SampledObject) (key : FamilyKey) : Prop :=
  key.formatsize = object.identity.formatsize ∧
    ∃ value ∈ uploadValues object.uploadLow32s, hexValue value = key.textureCrc

instance (object : SampledObject) (key : FamilyKey) : Decidable (HasUpload object key) :=
  inferInstanceAs (Decidable (_ ∧ ∃ _ ∈ _, _))

def listedIds (context : Dict FamilyKey (List SampledObjectId)) (key : FamilyKey) :
    List SampledObjectId :=
  (context.get? key).getD []

theorem mem_foldl_registerUpload {id : SampledObjectId} {formatsize : Nat}
    {context : Dict FamilyKey (List SampledObjectId)} {uploads : List Upload} {key : FamilyKey}
    {other : SampledObjectId} :
    other ∈ listedIds (uploads.foldl (registerUpload id formatsize) context) key ↔
      other ∈ listedIds context key ∨ other = id ∧ key.formatsize = formatsize ∧
        ∃ value ∈ uploadValues uploads, hexValue value = key.textureCrc := by
  induction uploads generalizing context with
  | nil => simp [uploadValues]
  | cons upload uploads ih =>
    rw [List.foldl_cons, ih]
    unfold registerUpload
    by_cases hempty : upload.value.isEmpty = true
    · have hskip : uploadValues (upload :: uploads) = uploadValues uploads := by
        unfold uploadValues
        rw [List.map_cons, List.filter_cons, if_neg (by simp [hempty])]
      rw [if_pos hempty, hskip]
    · have hcons : uploadValues (upload :: uploads) = upload.value :: uploadValues uploads := by
        unfold uploadValues
        rw [List.map_cons, List.filter_cons, if_pos (by simpa using hempty)]
      rw [if_neg hempty, hcons]
      simp only [listedIds, Dict.get?_assign, List.mem_cons, exists_eq_or_imp]
      by_cases hkey : key = { textureCrc := hexValue upload.value, formatsize }
      · rw [if_pos hkey, Option.getD_some, mem_addNew]
        subst hkey
        simp only [true_and, true_or, and_true]
        tauto
      · rw [if_neg hkey]
        have hcrc : key.formatsize = formatsize → hexValue upload.value ≠ key.textureCrc := by
          intro hformat hcrc
          apply hkey
          rw [← hformat, hcrc]
        tauto

theorem nodup_foldl_registerUpload {id : SampledObjectId} {formatsize : Nat}
    {context : Dict FamilyKey (List SampledObjectId)}
    (h : ∀ key, (listedIds context key).Nodup) (uploads : List Upload) (key : FamilyKey) :
    (listedIds (uploads.foldl (registerUpload id formatsize) context) key).Nodup := by
  induction uploads generalizing context with
  | nil => exact h key
  | cons upload uploads ih =>
    rw [List.foldl_cons]
    apply ih
    intro key
    unfold registerUpload
    split_ifs
    · exact h key
    · unfold listedIds
      rw [Dict.get?_assign]
      split_ifs
      · exact nodup_addNew (h _) id
      · exact h key

theorem distinct_foldl_registerUpload {id : SampledObjectId} {formatsize : Nat}
    {context : Dict FamilyKey (List SampledObjectId)} (h : context.Distinct)
    (uploads : List Upload) :
    Dict.Distinct (uploads.foldl (registerUpload id formatsize) context) := by
  induction uploads generalizing context with
  | nil => exact h
  | cons upload uploads ih =>
    rw [List.foldl_cons]
    apply ih
    unfold registerUpload
    split_ifs
    · exact h
    · exact h.assign _ _

def FormatOfId (object : SampledObject) : Prop :=
  object.identity.formatsize = object.sampledObjectId.fs.getD 0

/-- Objects are listed under the families of their uploads, once. -/
structure Registered (state : EvidenceState) : Prop where
  own : ∀ id object, state.objects.get? id = some object →
    object.sampledObjectId = id ∧ FormatOfId object
  listed : ∀ key id, id ∈ listedIds state.context key ↔
    ∃ object, state.objects.get? id = some object ∧ HasUpload object key
  nodup : ∀ key, (listedIds state.context key).Nodup
  distinct : state.context.Distinct

theorem registered_empty : Registered { objects := [], context := [] } := by
  refine ⟨?_, ?_, fun _ => List.nodup_nil, Dict.distinct_nil⟩
  · intro id object h
    cases h
  · intro key id
    simp [listedIds]

/-- The object that an ingestion leaves under its identifier. -/
def ingestTarget (state : EvidenceState) (object : SampledObject) : SampledObject :=
  match state.objects.get? object.sampledObjectId with
  | none => object
  | some existing => mergeObject existing object

theorem Registered.ingest {state : EvidenceState} (h : Registered state) {object : SampledObject}
    (hformat : FormatOfId object) : Registered (ingestSampledObject state object) := by
  have htarget : (ingestTarget state object).sampledObjectId = object.sampledObjectId ∧
      FormatOfId (ingestTarget state object) ∧
      ∀ existing, state.objects.get? object.sampledObjectId = some existing →
        ∀ key, HasUpload existing key → HasUpload (ingestTarget state object) key := by
    unfold ingestTarget
    cases hget : state.objects.get? object.sampledObjectId with
    | none =>
      refine ⟨rfl, hformat, ?_⟩
      intro existing hexisting
      cases hexisting
    | some existing =>
      obtain ⟨hid, hexistingFormat⟩ := h.own _ _ hget
      refine ⟨hid, hexistingFormat, ?_⟩
      rintro other hother key ⟨hkey, value, hvalue, hhex⟩
      cases hother
      refine ⟨hkey, value, ?_, hhex⟩
      exact (uploadValues_foldl_addUpload _ _ _).mpr (.inl hvalue)
  obtain ⟨hid, htargetFormat, hgrows⟩ := htarget
  have hsame : (ingestTarget state object).identity.formatsize = object.identity.formatsize := by
    rw [htargetFormat, hid, ← hformat]
  have hobjects : ∀ id, (ingestSampledObject state object).objects.get? id =
      if id = object.sampledObjectId then some (ingestTarget state object)
      else state.objects.get? id :=
    fun id => Dict.get?_assign _ _ _ _
  refine ⟨?_, ?_, ?_, distinct_foldl_registerUpload h.distinct _⟩
  · intro id found hfound
    rw [hobjects] at hfound
    split_ifs at hfound with heq
    · cases hfound
      exact ⟨hid.trans heq.symm, htargetFormat⟩
    · exact h.own id found hfound
  · intro key id
    rw [hobjects]
    have hlisted : id ∈ listedIds (ingestSampledObject state object).context key ↔
        id ∈ listedIds state.context key ∨ id = object.sampledObjectId ∧
          key.formatsize = object.identity.formatsize ∧
            ∃ value ∈ uploadValues (ingestTarget state object).uploadLow32s,
              hexValue value = key.textureCrc := mem_foldl_registerUpload
    rw [hlisted, h.listed]
    by_cases heq : id = object.sampledObjectId
    · subst heq
      simp only [if_true, true_and, Option.some.injEq, exists_eq_left']
      rw [← hsame]
      constructor
      · rintro (⟨existing, hexisting, hupload⟩ | hupload)
        · exact hgrows existing hexisting key hupload
        · exact hupload
      · exact .inr
    · rw [if_neg heq]
      simp only [heq, false_and, or_false]
  · intro key
    exact nodup_foldl_registerUpload h.nodup _ key

theorem registered_ingestRuntimeSampledProbe (bundle : Bundle) :
    Registered (ingestRuntimeSampledProbe bundle) := by
  have hrun : ∀ (groups : List ProbeGroup) (state : EvidenceState), Registered state →
      Registered ((groups.map makeSampledObject).foldl ingestSampledObject state) := by
    intro groups
    induction groups with
    | nil => exact fun state h => h
    | cons group groups ih =>
      intro state h
      exact ih _ (h.ingest rfl)
  exact hrun _ _ registered_empty

def contextObject (context : SampledContext) (key : FamilyKey) (id : SampledObjectId) :
    Option SampledObject :=
  objectIn ((context.get? key).getD []) id

theorem get?_resolve (state : EvidenceState) (key : FamilyKey) :
    state.resolve.get? key =
      (state.context.get? key).map fun ids => ids.filterMap state.objects.get? := by
  unfold EvidenceState.resolve
  induction state.context with
  | nil => rfl
  | cons entry context ih =>
    obtain ⟨k, ids⟩ := entry
    rw [List.map_cons, Dict.get?, Dict.get?]
    by_cases hk : k = key
    · rw [if_pos hk, if_pos hk]
      rfl
    · rw [if_neg hk, if_neg hk, ih]

theorem objectIn_filterMap {objects : Dict SampledObjectId SampledObject}
    (hown : ∀ id object, objects.get? id = some object → object.sampledObjectId = id)
    (ids : List SampledObjectId) (id : SampledObjectId) :
    objectIn (ids.filterMap objects.get?) id = if id ∈ ids then objects.get? id else none := by
  induction ids with
  | nil => rfl
  | cons first ids ih =>
    rw [List.filterMap_cons]
    cases hget : objects.get? first with
    | none =>
      rw [ih]
      by_cases hfirst : id = first
      · subst hfirst
        simp [hget]
      · simp [hfirst]
    | some object =>
      have hobject := hown first object hget
      simp only
      rw [objectIn, List.find?_cons]
      by_cases hfirst : id = first
      · subst hfirst
        have hbeq : (object.sampledObjectId == id) = true := by simpa using hobject
        rw [hbeq]
        simp [hget]
      · have hbeq : (object.sampledObjectId == id) = false := by
          rw [hobject]
          simpa using Ne.symm hfirst
        rw [hbeq]
        simp only [List.mem_cons, hfirst, false_or]
        exact ih

theorem contextObject_parse (bundle : Bundle) (key : FamilyKey) (id : SampledObjectId) :
    contextObject (parseBundleSampledObjectContext bundle) key id =
      (objectOf (groupsOf bundle id)).filter fun object => decide (HasUpload object key) := by
  have hregistered := registered_ingestRuntimeSampledProbe bundle
  have hids : contextObject (parseBundleSampledObjectContext bundle) key id =
      objectIn ((listedIds (ingestRuntimeSampledProbe bundle).context key).filterMap
        (ingestRuntimeSampledProbe bundle).objects.get?) id := by
    unfold contextObject parseBundleSampledObjectContext listedIds
    rw [get?_resolve]
    cases (ingestRuntimeSampledProbe bundle).context.get? key with
    | none => rfl
    | some ids => rfl
  rw [hids, objectIn_filterMap fun id object h => (hregistered.own id object h).1]
  simp only [hregistered.listed]
  rw [get?_ingestRuntimeSampledProbe]
  cases objectOf (groupsOf bundle id) with
  | none => simp
  | some object => simp [Option.filter_some]

end ParallelN64.Migrate
