import ParallelN64.Core.Partition
import ParallelN64.Core.Runs
import ParallelN64.Hires.Residency

/-!
# The accounts of the resident images

Descriptor numbers are handed out by a counter and recycled by evictions, and the bytes of the
resident images are counted. The accounts are right as long as every image that was given a
descriptor is created: an image that cannot be created takes its number and its bytes with it.
-/

namespace ParallelN64.Hires

open ParallelN64.Core Replacement Phrb

/-- One descriptor to be resolved. -/
inductive HiresCall where
  | sampled (query : SampledFamilyLookupKey) (selector : UInt64)
  | nativeChecksum (checksum64 : UInt64) (formatsize : UInt16) (selector : UInt64)
  | compat (checksum64 : UInt64) (formatsize : UInt16) (selector : UInt64)
  deriving DecidableEq, Repr

/-- The key of the image that a call asks for. -/
def HiresCall.key : HiresCall → HiresKey
  | .sampled query selector => sampledKey query selector
  | .nativeChecksum checksum64 formatsize selector =>
    nativeChecksumKey checksum64 formatsize selector
  | .compat checksum64 formatsize selector =>
    compatKey checksum64 formatsize selector

/-- The entry that a call finds. -/
def HiresCall.find : HiresCall → Provider → Option Entry
  | .sampled query selector, p => p.findSampledEntry query selector
  | .nativeChecksum checksum64 formatsize selector, p =>
    findNativeEntry p checksum64 formatsize selector
  | .compat checksum64 formatsize selector, p =>
    findCompatEntry p checksum64 formatsize selector

def HiresCall.outcome (device : HiresDevice) (provider : Option Provider)
    (shader : Bool) (r : HiresResources) (replMeta : ReplacementMeta) :
    HiresCall → DescriptorOutcome
  | .sampled query selector =>
    r.resolveHiresSampledReplacementDescriptor device provider shader query
      selector replMeta
  | .nativeChecksum checksum64 formatsize selector =>
    r.resolveHiresNativeChecksumReplacementDescriptor device provider shader
      checksum64 formatsize selector replMeta
  | .compat checksum64 formatsize selector =>
    r.resolveHiresCompatReplacementDescriptor device provider shader
      checksum64 formatsize selector replMeta

/-- What changes the replacement resources of a renderer. -/
inductive HiresOp where
  | initRenderer (outcome : PoolOutcome)
  | setReplacementProvider (outcome : PoolOutcome) (provider : Option (Nat × Provider))
  | setHiresGpuBudgetBytes (bytes : UInt64)
  | beginFrameContext
  | resolve (device : HiresDevice) (call : HiresCall)

def HiresRenderer.callOutcome (s : HiresRenderer) (device : HiresDevice) (call : HiresCall) :
    DescriptorOutcome :=
  call.outcome device (s.replacementProvider.map Prod.snd) s.hiresReplacementShader
    s.hiresResources {}

def HiresOp.apply (s : HiresRenderer) : HiresOp → HiresRenderer
  | .initRenderer outcome => s.initRenderer outcome
  | .setReplacementProvider outcome provider => s.setReplacementProvider outcome provider
  | .setHiresGpuBudgetBytes bytes => s.setHiresGpuBudgetBytes bytes
  | .beginFrameContext => s.beginFrameContext
  | .resolve device call => { s with hiresResources := (s.callOutcome device call).resources }

def HiresRenderer.run (s : HiresRenderer) (ops : List HiresOp) : HiresRenderer :=
  ops.foldl HiresOp.apply s

theorem HiresCall.outcome_eq (device : HiresDevice) (provider : Option Provider)
    (shader : Bool) (r : HiresResources) (replMeta : ReplacementMeta)
    (call : HiresCall) : call.outcome device provider shader r replMeta =
      r.resolveDescriptor device provider shader call.key call.find replMeta := by
  cases call <;> rfl

section Call

variable (device : HiresDevice) (provider : Option Provider) (shader : Bool)

/-- The entry and its decoded image for which a call asks a descriptor, if it comes to that. -/
def HiresResources.incoming (r : HiresResources) (key : HiresKey)
    (find : Provider → Option Entry) : Option (Entry × ReplacementImage) :=
  match provider with
  | none => none
  | some provider =>
    if shader && (r.residentImages.lookup key).isNone && r.bindlessPool &&
        provider.enabled then
      (find provider).bind fun entry => (decodeReplacement device entry).map (entry, ·)
    else none

variable {device provider shader}
variable {r : HiresResources} {key : HiresKey} {find : Provider → Option Entry}
variable (replMeta : ReplacementMeta)

theorem HiresResources.resolveDescriptor_of_incoming_none
    (h : r.incoming device provider shader key find = none) :
    (r.resolveDescriptor device provider shader key find replMeta).created = [] ∧
      ((r.resolveDescriptor device provider shader key find replMeta).resources = r ∨
        ∃ image, r.residentImages.lookup key = some image ∧
          (r.resolveDescriptor device provider shader key find
              replMeta).resources = r.touch key image) := by
  unfold HiresResources.resolveDescriptor
  cases provider with
  | none => exact ⟨rfl, Or.inl rfl⟩
  | some provider =>
    cases shader with
    | false => exact ⟨rfl, Or.inl rfl⟩
    | true =>
      cases hlookup : r.residentImages.lookup key with
      | some image => exact ⟨rfl, Or.inr ⟨image, rfl, rfl⟩⟩
      | none =>
        cases hready : r.bindlessPool && provider.enabled with
        | false =>
          have hfailed : (!r.bindlessPool || !provider.enabled) = true := by
            rw [← Bool.not_and, hready]
            rfl
          simp [hfailed]
        | true =>
          obtain ⟨hpool, henabled⟩ := Bool.and_eq_true_iff.mp hready
          cases hfind : find provider with
          | none => simp [hpool, henabled, hfind]
          | some entry =>
            cases hdecode : decodeReplacement device entry with
            | none => simp [hpool, henabled, hfind, hdecode]
            | some replacement =>
              simp [HiresResources.incoming, hlookup, hpool, henabled, hfind, hdecode] at h

theorem HiresResources.resolveDescriptor_of_incoming {entry : Entry}
    {replacement : ReplacementImage}
    (h : r.incoming device provider shader key find = some (entry, replacement)) :
    r.residentImages.lookup key = none ∧
      r.resolveDescriptor device provider shader key find replMeta =
        r.upload device key entry replacement
          { replMeta with vkImageIndex := hiresInvalidDescriptorIndex } := by
  cases provider with
  | none => cases h
  | some provider =>
    rw [HiresResources.incoming] at h
    split at h
    next hready =>
      simp only [Bool.and_eq_true, Option.isNone_iff_eq_none] at hready
      obtain ⟨⟨⟨hshader, hlookup⟩, hpool⟩, henabled⟩ := hready
      rw [Option.bind_eq_some_iff] at h
      obtain ⟨found, hfind, hmap⟩ := h
      obtain ⟨image, hdecode, hpair⟩ := Option.map_eq_some_iff.mp hmap
      obtain ⟨rfl, rfl⟩ := Prod.mk.inj hpair
      refine ⟨hlookup, ?_⟩
      simp [HiresResources.resolveDescriptor, hshader, hlookup, hpool, henabled, hfind, hdecode]
    next => cases h

end Call

theorem DescriptorOutcome.finalize_resources (outcome : DescriptorOutcome)
    (resolution : ReplacementResolution) (origW origH : UInt32)
    (pathKind : HiresProviderDescriptorPathKind) (selector : UInt64) (key : HiresKey) :
    (outcome.finalize resolution origW origH pathKind selector key).resources =
      outcome.resources := by
  rw [DescriptorOutcome.finalize]
  split
  next => rfl
  next => rfl

def HiresResources.heldDescriptors (r : HiresResources) : List UInt32 :=
  r.residentImages.entries.map fun image => image.2.descriptorIndex

def HiresResources.sumResidentBytes (r : HiresResources) : UInt64 :=
  (r.residentImages.entries.map fun image => image.2.residentBytes).sum

/-- The byte count is the sum over the resident images, and every descriptor that was handed
out is held by a resident image or in the recycled list, and not both. -/
structure HiresResources.Accounted (r : HiresResources) : Prop where
  gpuResidentBytes_eq : r.gpuResidentBytes = r.sumResidentBytes
  held_or_recycled : ∀ d, 1 ≤ d → d < r.nextDescriptor →
    (d ∈ r.heldDescriptors ∧ d ∉ r.recycledDescriptors) ∨
      (d ∉ r.heldDescriptors ∧ d ∈ r.recycledDescriptors)

/-- The accounts in full: the descriptors handed out are divided into held and recycled ones. -/
structure HiresResources.Balanced (r : HiresResources) : Prop where
  one_le_nextDescriptor : 1 ≤ r.nextDescriptor
  gpuResidentBytes_eq : r.gpuResidentBytes = r.sumResidentBytes
  divided : Divided (fun d => 1 ≤ d ∧ d < r.nextDescriptor) r.heldDescriptors
    r.recycledDescriptors

variable {r : HiresResources} {key : HiresKey}

theorem HiresResources.Balanced.accounted (h : r.Balanced) :
    r.Accounted where
  gpuResidentBytes_eq := h.gpuResidentBytes_eq
  held_or_recycled _ hone hnext := h.divided.held_or_free ⟨hone, hnext⟩

theorem HiresResources.balanced_fresh (bindlessPool : Bool) (capacity : UInt32)
    (gpuBudgetBytes frameTick : UInt64) :
    HiresResources.Balanced
      { bindlessPool := bindlessPool
        capacity := capacity
        gpuBudgetBytes := gpuBudgetBytes
        frameTick := frameTick } where
  one_le_nextDescriptor := UInt32.le_refl 1
  gpuResidentBytes_eq := rfl
  divided := Divided.nil fun _ hissued => UInt32.not_lt.mpr hissued.1 hissued.2

/-- A descriptor and its bytes were taken for an image that is not resident yet. -/
structure HiresResources.Taken (r : HiresResources) (bytes : UInt64) (index : UInt32) : Prop where
  one_le_nextDescriptor : 1 ≤ r.nextDescriptor
  gpuResidentBytes_eq : r.gpuResidentBytes = r.sumResidentBytes + bytes
  divided : Divided (fun d => 1 ≤ d ∧ d < r.nextDescriptor) (index :: r.heldDescriptors)
    r.recycledDescriptors

theorem HiresResources.Taken.ne_invalid {bytes : UInt64} {index : UInt32}
    (h : r.Taken bytes index) : index ≠ hiresInvalidDescriptorIndex := by
  rintro rfl
  have hissued := (h.divided.mem_iff hiresInvalidDescriptorIndex).mp List.mem_cons_self
  exact absurd hissued.2 (UInt32.not_lt.mpr (UInt32.le_iff_toNat_le.mpr
    (Nat.le_of_lt_succ r.nextDescriptor.toNat_lt)))

theorem HiresResources.Taken.not_accounted {bytes : UInt64} {index : UInt32}
    (h : r.Taken bytes index) : ¬r.Accounted := by
  intro haccounted
  obtain ⟨hone, hnext⟩ := (h.divided.mem_iff index).mp List.mem_cons_self
  obtain ⟨hheld, hrecycled⟩ := h.divided.notMem
  cases haccounted.held_or_recycled index hone hnext with
  | inl hin => exact hheld hin.1
  | inr hin => exact hrecycled hin.2

theorem HiresResources.Taken.insert {resident : HiresResidentImage}
    (h : r.Taken resident.residentBytes resident.descriptorIndex)
    (hkey : r.residentImages.lookup key = none) : (r.keep key resident).Balanced := by
  have hentries := AList.entries_insert_of_notMem (b := resident) (AList.lookup_eq_none.mp hkey)
  refine ⟨h.one_le_nextDescriptor, ?_, ?_⟩
  · rw [HiresResources.sumResidentBytes, HiresResources.keep, hentries, List.map_cons,
      List.sum_cons]
    exact h.gpuResidentBytes_eq.trans (add_comm _ _)
  · rw [HiresResources.heldDescriptors, HiresResources.keep, hentries, List.map_cons]
    exact h.divided

theorem HiresResources.Balanced.touch (h : r.Balanced) {image : HiresResidentImage}
    (himage : r.residentImages.lookup key = some image) : (r.touch key image).Balanced := by
  have hperm := Table.entries_perm_erase himage
  have hinsert := Table.entries_insert_erase r.residentImages key
    { image with lastUsedTick := r.frameTick }
  refine ⟨h.one_le_nextDescriptor, ?_, ?_⟩
  · rw [HiresResources.sumResidentBytes, HiresResources.touch, HiresResources.keep, hinsert]
    exact h.gpuResidentBytes_eq.trans (hperm.map _).sum_eq
  · rw [HiresResources.heldDescriptors, HiresResources.touch, HiresResources.keep, hinsert]
    exact h.divided.perm ((hperm.map _).append_right _)

theorem HiresResources.Balanced.evict (h : r.Balanced)
    {image : Sigma fun _ : HiresKey => HiresResidentImage}
    (himage : r.residentImages.lookup image.1 = some image.2) : (r.evict image).Balanced := by
  have hperm := Table.entries_perm_erase himage
  refine ⟨h.one_le_nextDescriptor, ?_, ?_⟩
  · have hsum : r.sumResidentBytes = image.2.residentBytes + (r.evict image).sumResidentBytes :=
      (hperm.map _).sum_eq
    change r.gpuResidentBytes - image.2.residentBytes = _
    rw [h.gpuResidentBytes_eq, hsum]
    exact add_sub_cancel_left _ _
  · exact h.divided.release (hperm.map _)

theorem HiresResources.lookup_oldestImage
    {visit : Visit (Sigma fun _ : HiresKey => HiresResidentImage)}
    {image : Sigma fun _ : HiresKey => HiresResidentImage} (h : r.oldestImage visit = some image) :
    r.residentImages.lookup image.1 = some image.2 :=
  Table.lookup_of_mem_entries ((visit.perm _).mem_iff.mp (List.argmin_mem h))

theorem HiresResources.Balanced.takeDescriptor (h : r.Balanced) (bytes : UInt64) :
    (r.recycledDescriptors = [] ∧
        r.takeDescriptor bytes = (r, hiresInvalidDescriptorIndex)) ∨
      ((r.takeDescriptor bytes).1.Taken bytes (r.takeDescriptor bytes).2 ∧
        (r.takeDescriptor bytes).1.residentImages = r.residentImages) := by
  rw [HiresResources.takeDescriptor]
  cases hlast : r.recycledDescriptors.getLast? with
  | some index =>
    have hfree : r.recycledDescriptors = r.recycledDescriptors.dropLast ++ [index] :=
      (List.dropLast_append_getLast? index hlast).symm
    refine Or.inr ⟨⟨h.one_le_nextDescriptor, congrArg (· + bytes) h.gpuResidentBytes_eq, ?_⟩, rfl⟩
    have hdivided := h.divided
    rw [hfree] at hdivided
    exact hdivided.reuse
  | none =>
    have hnil : r.recycledDescriptors = [] := List.getLast?_eq_none_iff.mp hlast
    by_cases hfull : r.nextDescriptor ≥ r.capacity
    · exact Or.inl ⟨hnil, if_pos hfull⟩
    · have hsucc : (r.nextDescriptor + 1).toNat = r.nextDescriptor.toNat + 1 := by
        have hlt := UInt32.lt_iff_toNat_lt.mp (UInt32.not_le.mp hfull)
        have hmax := r.capacity.toNat_lt
        rw [UInt32.toNat_add]
        exact Nat.mod_eq_of_lt (by
          change r.nextDescriptor.toNat + 1 < 2 ^ 32
          omega)
      have hone := UInt32.le_iff_toNat_le.mp h.one_le_nextDescriptor
      have hnew : ¬(1 ≤ r.nextDescriptor ∧ r.nextDescriptor < r.nextDescriptor) :=
        fun hissued => UInt32.lt_irrefl _ hissued.2
      rw [if_neg hfull]
      refine Or.inr ⟨⟨?_, congrArg (· + bytes) h.gpuResidentBytes_eq, ?_⟩, rfl⟩
      · rw [UInt32.le_iff_toNat_le, hsucc]
        exact Nat.le_succ_of_le hone
      · refine (h.divided.issue hnew).congr fun d => ?_
        simp only [UInt32.le_iff_toNat_le, UInt32.lt_iff_toNat_lt, ← UInt32.toNat_inj, hsucc]
          at hone ⊢
        omega

theorem HiresResources.Balanced.allocateHiresDescriptor (h : r.Balanced)
    (visit : Visit (Sigma fun _ : HiresKey => HiresResidentImage)) (bytes : UInt64)
    (hkey : r.residentImages.lookup key = none) :
    r.allocateHiresDescriptor visit bytes = (r, hiresInvalidDescriptorIndex) ∨
      ((r.allocateHiresDescriptor visit bytes).1.Taken bytes
          (r.allocateHiresDescriptor visit bytes).2 ∧
        (r.allocateHiresDescriptor visit bytes).1.residentImages.lookup key = none) := by
  have htake : r.takeDescriptor bytes = (r, hiresInvalidDescriptorIndex) ∨
      ((r.takeDescriptor bytes).1.Taken bytes (r.takeDescriptor bytes).2 ∧
        (r.takeDescriptor bytes).1.residentImages.lookup key = none) := by
    obtain ⟨-, hfailed⟩ | ⟨htaken, himages⟩ := h.takeDescriptor bytes
    · exact Or.inl hfailed
    · exact Or.inr ⟨htaken, himages ▸ hkey⟩
  rw [HiresResources.allocateHiresDescriptor]
  cases r.budgetDecision bytes with
  | rejectOverBudget => exact Or.inl rfl
  | admitted => exact htake
  | evictOldestThenAdmit =>
    cases holdest : r.oldestImage visit with
    | none => exact htake
    | some image =>
      have hevicted := h.evict (HiresResources.lookup_oldestImage holdest)
      obtain ⟨hnil, -⟩ | ⟨htaken, himages⟩ := hevicted.takeDescriptor bytes
      · exact absurd hnil (List.append_ne_nil_of_right_ne_nil _ (List.cons_ne_nil _ _))
      · refine Or.inr ⟨htaken, ?_⟩
        change ((r.evict image).takeDescriptor bytes).1.residentImages.lookup key = none
        rw [himages]
        by_cases hsame : key = image.1
        · subst hsame
          exact AList.lookup_erase _ _
        · exact (AList.lookup_erase_ne hsame).trans hkey

theorem HiresResources.Balanced.upload (h : r.Balanced) (device : HiresDevice)
    (hkey : r.residentImages.lookup key = none) (entry : Entry) (replacement : ReplacementImage)
    (replMeta : ReplacementMeta) :
    (∀ created ∈ (r.upload device key entry replacement replMeta).created, created = true) ∧
        (r.upload device key entry replacement replMeta).resources.Balanced ∨
      (r.upload device key entry replacement replMeta).created = [false] ∧
        ¬(r.upload device key entry replacement replMeta).resources.Accounted := by
  obtain hfailed | ⟨htaken, habsent⟩ :=
    h.allocateHiresDescriptor device.visit (textureBytes replacement) hkey
  · rw [HiresResources.upload, hfailed]
    exact Or.inl ⟨List.forall_mem_nil _, h⟩
  · have hvalid := beq_eq_false_iff_ne.mpr htaken.ne_invalid
    rw [HiresResources.upload]
    simp only [hvalid, Bool.false_eq_true, if_false]
    split
    next => exact Or.inl ⟨fun created hmem => List.mem_singleton.mp hmem, htaken.insert habsent⟩
    next => exact Or.inr ⟨rfl, htaken.not_accounted⟩

theorem HiresResources.Balanced.resolveDescriptor (h : r.Balanced) (device : HiresDevice)
    (provider : Option Provider) (shader : Bool) (key : HiresKey)
    (find : Provider → Option Entry) (replMeta : ReplacementMeta) :
    let outcome := r.resolveDescriptor device provider shader key find replMeta
    (∀ created ∈ outcome.created, created = true) ∧ outcome.resources.Balanced ∨
      outcome.created = [false] ∧ ¬outcome.resources.Accounted := by
  intro outcome
  cases hincoming : r.incoming device provider shader key find with
  | none =>
    obtain ⟨hcreated, hsame | ⟨image, himage, htouched⟩⟩ :=
      HiresResources.resolveDescriptor_of_incoming_none replMeta hincoming
    · exact Or.inl ⟨hcreated ▸ List.forall_mem_nil _, hsame ▸ h⟩
    · exact Or.inl ⟨hcreated ▸ List.forall_mem_nil _, htouched ▸ h.touch himage⟩
  | some found =>
    obtain ⟨entry, replacement⟩ := found
    obtain ⟨hkey, huploaded⟩ := HiresResources.resolveDescriptor_of_incoming replMeta hincoming
    simp only [outcome, huploaded]
    exact h.upload device hkey entry replacement _

def HiresOp.created (s : HiresRenderer) : HiresOp → List Bool
  | .resolve device call => (s.callOutcome device call).created
  | _ => []

theorem HiresResources.initHiresResources_cases (outcome : PoolOutcome) (capacity : UInt32)
    (r : HiresResources) :
    (r.initHiresResources outcome capacity).1 = r ∨
      ∃ bindlessPool, (r.initHiresResources outcome capacity).1 =
        { bindlessPool := bindlessPool, capacity := capacity } := by
  rw [HiresResources.initHiresResources]
  split
  next => exact Or.inl rfl
  next =>
    split
    next => exact Or.inl rfl
    next =>
      split
      next => exact Or.inr ⟨false, rfl⟩
      next => exact Or.inr ⟨true, rfl⟩

theorem HiresResources.Balanced.initHiresResources (h : r.Balanced) (outcome : PoolOutcome)
    (capacity : UInt32) : (r.initHiresResources outcome capacity).1.Balanced := by
  obtain hsame | ⟨bindlessPool, hfresh⟩ := r.initHiresResources_cases outcome capacity
  · exact (congrArg HiresResources.Balanced hsame).mpr h
  · exact (congrArg HiresResources.Balanced hfresh).mpr
      (HiresResources.balanced_fresh bindlessPool capacity 0 0)

theorem HiresOp.apply_balanced {s : HiresRenderer} (h : s.hiresResources.Balanced) (op : HiresOp) :
    (∀ created ∈ op.created s, created = true) ∧ (op.apply s).hiresResources.Balanced ∨
      op.created s = [false] ∧ ¬(op.apply s).hiresResources.Accounted := by
  cases op with
  | initRenderer outcome =>
    refine Or.inl ⟨List.forall_mem_nil _, ?_⟩
    dsimp only [HiresOp.apply, HiresRenderer.initRenderer]
    cases outcome.supportsDescriptorIndexing with
    | true => exact h.initHiresResources outcome 1
    | false => exact h
  | setReplacementProvider outcome provider =>
    refine Or.inl ⟨List.forall_mem_nil _, ?_⟩
    dsimp only [HiresOp.apply, HiresRenderer.setReplacementProvider]
    have hbase : HiresResources.Balanced
        (if s.replacementProvider.map Prod.fst ≠ provider.map Prod.fst then {}
          else s.hiresResources) := by
      split
      next => exact HiresResources.balanced_fresh false 0 0 0
      next => exact h
    cases s.hiresReplacementShader with
    | true => exact hbase.initHiresResources outcome _
    | false => exact hbase
  | setHiresGpuBudgetBytes bytes =>
    exact Or.inl ⟨List.forall_mem_nil _, h.one_le_nextDescriptor, h.gpuResidentBytes_eq, h.divided⟩
  | beginFrameContext =>
    exact Or.inl ⟨List.forall_mem_nil _, h.one_le_nextDescriptor, h.gpuResidentBytes_eq, h.divided⟩
  | resolve device call =>
    have hcall := h.resolveDescriptor device (s.replacementProvider.map Prod.snd)
      s.hiresReplacementShader call.key call.find {}
    rw [← HiresCall.outcome_eq] at hcall
    exact hcall

/-- The accounts are right in every state of a run exactly when every image that the run tries
to create is created. -/
theorem HiresRenderer.run_accounted_iff (ops : List HiresOp) :
    (∀ first rest, ops = first ++ rest → (HiresRenderer.run {} first).hiresResources.Accounted) ↔
      ∀ first op rest, ops = first ++ op :: rest →
        ∀ created ∈ op.created (HiresRenderer.run {} first), created = true := by
  have hinit : ({} : HiresRenderer).hiresResources.Balanced :=
    HiresResources.balanced_fresh false 0 0 0
  refine foldl_prefix_iff
    (fun s : HiresRenderer => s.hiresResources.Balanced)
    (fun s : HiresRenderer => s.hiresResources.Accounted)
    (fun s op => ∀ created ∈ HiresOp.created s op, created = true)
    hinit (fun s op _ h hcreated => ?_) (fun s h => h.accounted) fun s op _ h haccounted => ?_
  · obtain ⟨-, hbalanced⟩ | ⟨hfalse, -⟩ := op.apply_balanced h
    · exact hbalanced
    · rw [hfalse] at hcreated
      exact absurd (hcreated false (List.mem_singleton_self _)) Bool.false_ne_true
  · obtain ⟨hcreated, -⟩ | ⟨-, hwrong⟩ := op.apply_balanced h
    · exact hcreated
    · exact absurd haccounted hwrong

/-- An entry of a pack with inline pixels. -/
def inlineEntry (checksum64 : UInt64) (width height : UInt32) (blob : Bytes) : Entry where
  checksum64 := checksum64
  width := width
  height := height
  format := glRgba8
  textureFormat := glRgba
  pixelType := glUnsignedByte
  dataSize := UInt32.ofNat blob.length
  inlineBlob := true
  blob := blob

/-- A device without files on which creating an image always has the same outcome. -/
def HiresDevice.always (created : Bool) : HiresDevice where
  files _ := none
  uncompress _ _ := none
  createImage _ _ := created
  visit := ⟨id, fun l => List.Perm.refl l⟩

def providing (entries : List Entry) : Provider := Provider.addEntries { enabled := true } entries

def startOps (p : Provider) : List HiresOp :=
  [.initRenderer ⟨true, true, true⟩, .setReplacementProvider ⟨true, true, true⟩ (some (1, p))]

/-- A resolution whose image cannot be created loses its descriptor and its bytes. -/
theorem not_run_accounted :
    ¬(HiresRenderer.run {} (startOps (providing [inlineEntry 1 1 1 [10, 20, 30, 40]]) ++
      [.resolve (.always false) (.compat 1 0 0)])).hiresResources.Accounted := by
  intro haccounted
  exact absurd haccounted.gpuResidentBytes_eq (by decide)

end ParallelN64.Hires
