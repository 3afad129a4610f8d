import ParallelN64.Migrate.Partition

/-!
# Sampled evidence

A bundle holds the groups of a sampled-object probe. The groups of one identifier are merged
into one sampled object, which is listed under the families of all its uploads; the lists of
several bundles are merged family by family.
-/

namespace ParallelN64.Migrate

open ParallelN64.Core Phrb

/-- A group of a sampled-object probe. -/
structure ProbeGroup where
  family : Option Text
  uniqueReplDims : Int
  sampleRepl : Option Text
  drawClass : Option Text
  cycle : Option Text
  fmt : Option Text
  siz : Option Text
  off : Option Text
  stride : Option Text
  wh : Option Text
  fs : Option Nat
  sampledLow32 : Option Text
  sampledEntryPcrc : Option Text
  sampledSparsePcrc : Option Text
  uploadLow32s : Option (List Upload)
  uploadLow32 : Option Text
  uploadPcrcs : Option (List Upload)
  uploadPcrc : Option Text
  deriving DecidableEq, Repr

abbrev Bundle := List ProbeGroup

def hasConcreteFamilySignal (group : ProbeGroup) : Bool :=
  group.family == some ['1'] || decide (0 < group.uniqueReplDims) ||
    group.sampleRepl.any (· != ['0', 'x', '0'])

def survives (group : ProbeGroup) : Bool :=
  !((group.drawClass.getD []).map Char.toLower == ['t', 'r', 'i', 'a', 'n', 'g', 'l', 'e'] &&
    !hasConcreteFamilySignal group)

def uploadsOf (listed : Option (List Upload)) (field : Option Text) : List Upload :=
  listed.getD ((truthy field).toList.map fun value => { value, count := none })

/-- The identifier that a group prints. -/
def ProbeGroup.sampledObjectId (group : ProbeGroup) : SampledObjectId where
  fmt := group.fmt
  siz := group.siz
  off := group.off
  stride := group.stride
  wh := group.wh
  fs := group.fs
  sampledLow32 := group.sampledLow32

def carriesPcrc (group : ProbeGroup) : Bool :=
  (truthy group.sampledEntryPcrc).isSome || (truthy group.sampledSparsePcrc).isSome

def makeSampledObject (group : ProbeGroup) : SampledObject where
  sampledObjectId := group.sampledObjectId
  identity := {
    candidateOrigin := some "runtime-sampled-probe".toList
    evidenceAuthority := some "runtime-sampled-probe".toList
    drawClass := group.drawClass
    cycle := group.cycle
    fmt := group.fmt
    siz := group.siz
    off := group.off
    stride := group.stride
    wh := group.wh
    formatsize := group.fs.getD 0
    sampledLow32 := group.sampledLow32
    sampledEntryPcrc := group.sampledEntryPcrc
    sampledSparsePcrc := group.sampledSparsePcrc }
  transportHint := none
  runtimeReady := carriesPcrc group
  runtimeProxyCandidates := []
  uploadLow32s := uploadsOf group.uploadLow32s group.uploadLow32
  uploadPcrcs := uploadsOf group.uploadPcrcs group.uploadPcrc

def hexDigitValue (c : Char) : Nat :=
  if c.toNat < 58 then c.toNat - 48 else c.toLower.toNat - 87

def hexValue (text : Text) : Nat := text.foldl (fun n c => 16 * n + hexDigitValue c) 0

def addUpload (uploads : List Upload) (upload : Upload) : List Upload :=
  if upload.value.isEmpty || uploads.any fun other => other.value == upload.value then uploads
  else uploads ++ [upload]

/-- An object with what another one of its identifier brings: uploads and readiness. -/
def mergeObject (existing object : SampledObject) : SampledObject :=
  { existing with
    uploadLow32s := object.uploadLow32s.foldl addUpload existing.uploadLow32s
    uploadPcrcs := object.uploadPcrcs.foldl addUpload existing.uploadPcrcs
    runtimeReady := existing.runtimeReady || object.runtimeReady }

/-- The objects of a bundle, and the identifiers listed under each family. -/
structure EvidenceState where
  objects : Dict SampledObjectId SampledObject
  context : Dict FamilyKey (List SampledObjectId)

/-- List an object under the family of an upload. -/
def registerUpload (id : SampledObjectId) (formatsize : Nat)
    (context : Dict FamilyKey (List SampledObjectId)) (upload : Upload) :
    Dict FamilyKey (List SampledObjectId) :=
  if upload.value.isEmpty then context
  else
    let key : FamilyKey := { textureCrc := hexValue upload.value, formatsize }
    context.assign key (addNew ((context.get? key).getD []) id)

def ingestSampledObject (state : EvidenceState) (object : SampledObject) : EvidenceState :=
  let target :=
    match state.objects.get? object.sampledObjectId with
    | none => object
    | some existing => mergeObject existing object
  { objects := state.objects.assign object.sampledObjectId target
    context := target.uploadLow32s.foldl
      (registerUpload object.sampledObjectId object.identity.formatsize) state.context }

def ingestRuntimeSampledProbe (bundle : Bundle) : EvidenceState :=
  ((bundle.filter survives).map makeSampledObject).foldl ingestSampledObject
    { objects := [], context := [] }

def EvidenceState.resolve (state : EvidenceState) : SampledContext :=
  state.context.map fun entry => (entry.1, entry.2.filterMap state.objects.get?)

def parseBundleSampledObjectContext (bundle : Bundle) : SampledContext :=
  (ingestRuntimeSampledProbe bundle).resolve

def mergeBundleSampledObjectContexts (base extra : SampledContext) : SampledContext :=
  extra.foldl (fun merged entry => merged.assign entry.1
    (entry.2.foldl addObject ((merged.get? entry.1).getD []))) base

def mergedSampledContext (bundle : Bundle) (contextBundles : List Bundle) : SampledContext :=
  contextBundles.foldl (fun merged extra =>
    mergeBundleSampledObjectContexts merged (parseBundleSampledObjectContext extra))
    (parseBundleSampledObjectContext bundle)

def objectIn (objects : List SampledObject) (id : SampledObjectId) : Option SampledObject :=
  objects.find? fun object => object.sampledObjectId == id

def UniqueIds (objects : List SampledObject) : Prop :=
  (objects.map (·.sampledObjectId)).Nodup

theorem objectIn_addObject (objects : List SampledObject) (object : SampledObject)
    (id : SampledObjectId) :
    objectIn (addObject objects object) id =
      (objectIn objects id).or (objectIn [object] id) := by
  unfold addObject objectIn
  by_cases hmem : (objects.any fun other =>
      other.sampledObjectId == object.sampledObjectId) = true
  · rw [if_pos hmem, List.find?_singleton]
    by_cases hid : object.sampledObjectId = id
    · subst hid
      rw [List.any_eq_true] at hmem
      have hsome : (objects.find? fun other =>
          other.sampledObjectId == object.sampledObjectId).isSome := by
        rw [List.find?_isSome]
        exact hmem
      obtain ⟨other, hother⟩ := Option.isSome_iff_exists.mp hsome
      rw [hother]
      rfl
    · simp [hid]
  · rw [if_neg hmem, List.find?_append]

theorem objectIn_foldl_addObject (objects added : List SampledObject) (id : SampledObjectId) :
    objectIn (added.foldl addObject objects) id =
      (objectIn objects id).or (objectIn added id) := by
  induction added generalizing objects with
  | nil =>
    rw [List.foldl_nil, objectIn, objectIn, List.find?_nil, Option.or_none]
  | cons object added ih =>
    rw [List.foldl_cons, ih, objectIn_addObject, Option.or_assoc]
    congr 1
    unfold objectIn
    rw [← List.find?_append, List.singleton_append]

variable {objects : List SampledObject}

theorem UniqueIds.addObject (h : UniqueIds objects) (object : SampledObject) :
    UniqueIds (addObject objects object) := by
  unfold Migrate.addObject
  by_cases hmem : (objects.any fun other =>
      other.sampledObjectId == object.sampledObjectId) = true
  · rw [if_pos hmem]
    exact h
  · rw [if_neg hmem, UniqueIds, List.map_append]
    refine List.nodup_append.mpr ⟨h, List.nodup_singleton _, ?_⟩
    intro id hid id' hid' heq
    rw [List.map_cons, List.map_nil, List.mem_singleton] at hid'
    subst heq hid'
    obtain ⟨other, hother, hsame⟩ := List.mem_map.mp hid
    apply hmem
    rw [List.any_eq_true]
    exact ⟨other, hother, by rw [hsame, beq_self_eq_true]⟩

theorem UniqueIds.foldl_addObject (h : UniqueIds objects) (added : List SampledObject) :
    UniqueIds (added.foldl Migrate.addObject objects) := by
  induction added generalizing objects with
  | nil => exact h
  | cons object added ih => exact ih (h.addObject object)

theorem UniqueIds.filter_eq (h : UniqueIds objects) (id : SampledObjectId) :
    (objects.filter fun object => decide (object.sampledObjectId = id)) =
      (objectIn objects id).toList := by
  unfold objectIn
  induction objects with
  | nil => rfl
  | cons object objects ih =>
    obtain ⟨hfresh, hunique⟩ := List.nodup_cons.mp h
    rw [List.filter_cons, List.find?_cons]
    by_cases hid : object.sampledObjectId = id
    · rw [if_pos (by simpa using hid)]
      have hbeq : (object.sampledObjectId == id) = true := by simpa using hid
      rw [hbeq]
      simp only [Option.toList_some, List.cons.injEq, true_and]
      rw [List.filter_eq_nil_iff]
      intro other hother hsame
      rw [decide_eq_true_eq] at hsame
      apply hfresh
      exact List.mem_map.mpr ⟨other, hother, hsame.trans hid.symm⟩
    · rw [if_neg (by simpa using hid)]
      have hbeq : (object.sampledObjectId == id) = false := by simpa using hid
      rw [hbeq]
      exact ih hunique

end ParallelN64.Migrate
