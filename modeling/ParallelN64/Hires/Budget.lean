import ParallelN64.Hires.Accounting

/-!
# The byte budget of the resident images

The budget is checked before a descriptor is taken, and a single image is evicted to make
room. The byte count therefore keeps within a budget exactly as long as the evicted image
is large enough for the incoming one, and as long as no image is admitted beyond the
budget after a change of the provider has set the budget field back to zero.
-/

namespace ParallelN64.Hires

open ParallelN64.Core Replacement Phrb

def HiresResources.hasFreeDescriptor (r : HiresResources) : Bool :=
  !r.recycledDescriptors.isEmpty || r.nextDescriptor < r.capacity

/-- What must hold for an incoming image to keep the byte count within a limit: with the budget
back at zero it fits if it is given a descriptor, and an image that is evicted for it makes
enough room. -/
structure HiresResources.Fits (r : HiresResources)
    (visit : Visit (Sigma fun _ : HiresKey => HiresResidentImage))
    (limit incomingBytes : UInt64) : Prop where
  of_reset : r.gpuBudgetBytes = 0 → r.hasFreeDescriptor = true →
    r.gpuResidentBytes + incomingBytes ≤ limit
  of_evict : ∀ image, r.budgetDecision incomingBytes = .evictOldestThenAdmit →
    r.oldestImage visit = some image →
      r.gpuResidentBytes - image.2.residentBytes + incomingBytes ≤ limit

variable {r : HiresResources}

theorem HiresResources.takeDescriptor_of_free (h : r.hasFreeDescriptor = true) (bytes : UInt64) :
    (r.takeDescriptor bytes).1.gpuResidentBytes = r.gpuResidentBytes + bytes := by
  rw [HiresResources.takeDescriptor]
  cases hlast : r.recycledDescriptors.getLast? with
  | some index => rfl
  | none =>
    have hnil := List.getLast?_eq_none_iff.mp hlast
    have hlt : r.nextDescriptor < r.capacity := by
      simpa [HiresResources.hasFreeDescriptor, hnil] using h
    rw [if_neg (UInt32.not_le.mpr hlt)]

theorem HiresResources.takeDescriptor_of_not_free (h : r.hasFreeDescriptor = false)
    (bytes : UInt64) : (r.takeDescriptor bytes).1 = r := by
  have hparts : r.recycledDescriptors = [] ∧ r.capacity ≤ r.nextDescriptor := by
    simpa [HiresResources.hasFreeDescriptor] using h
  rw [HiresResources.takeDescriptor, hparts.1]
  exact congrArg Prod.fst (if_pos hparts.2)

theorem HiresResources.hasFreeDescriptor_evict (r : HiresResources)
    (image : Sigma fun _ : HiresKey => HiresResidentImage) :
    (r.evict image).hasFreeDescriptor = true := by
  simp [HiresResources.hasFreeDescriptor, HiresResources.evict]

theorem HiresResources.takeDescriptor_gpuBudgetBytes (r : HiresResources) (bytes : UInt64) :
    (r.takeDescriptor bytes).1.gpuBudgetBytes = r.gpuBudgetBytes := by
  rw [HiresResources.takeDescriptor]
  split
  next => rfl
  next =>
    split
    next => rfl
    next => rfl

theorem HiresResources.allocateHiresDescriptor_gpuBudgetBytes (r : HiresResources)
    (visit : Visit (Sigma fun _ : HiresKey => HiresResidentImage)) (bytes : UInt64) :
    (r.allocateHiresDescriptor visit bytes).1.gpuBudgetBytes = r.gpuBudgetBytes := by
  rw [HiresResources.allocateHiresDescriptor]
  cases r.budgetDecision bytes with
  | admitted => exact r.takeDescriptor_gpuBudgetBytes bytes
  | evictOldestThenAdmit =>
    cases r.oldestImage visit with
    | none => exact r.takeDescriptor_gpuBudgetBytes bytes
    | some image => exact (r.evict image).takeDescriptor_gpuBudgetBytes bytes
  | rejectOverBudget => rfl

theorem HiresResources.exists_oldestImage (h : r.residentImages.entries ≠ [])
    (visit : Visit (Sigma fun _ : HiresKey => HiresResidentImage)) :
    ∃ image, r.oldestImage visit = some image := by
  refine Option.ne_none_iff_exists'.mp fun hnone => h ?_
  have horder := List.argmin_eq_none.mp hnone
  exact List.Perm.nil_eq (horder ▸ visit.perm r.residentImages.entries)|>.symm

theorem HiresResources.budgetDecision_cases (r : HiresResources) (bytes : UInt64) :
    (r.budgetDecision bytes = .admitted ∧ r.gpuBudgetBytes = 0) ∨
      (r.budgetDecision bytes = .admitted ∧ r.gpuBudgetBytes ≠ 0 ∧ bytes ≤ r.gpuBudgetBytes ∧
        r.gpuResidentBytes ≤ r.gpuBudgetBytes - bytes) ∨
      (r.budgetDecision bytes = .evictOldestThenAdmit ∧ r.gpuBudgetBytes ≠ 0 ∧
        r.residentImages.entries ≠ []) ∨
      (r.budgetDecision bytes = .rejectOverBudget ∧ r.gpuBudgetBytes ≠ 0) := by
  rw [HiresResources.budgetDecision, decideHiresRegistryBudget]
  split
  next hzero => exact Or.inl ⟨rfl, hzero⟩
  next hzero =>
    split
    next => exact Or.inr (Or.inr (Or.inr ⟨rfl, hzero⟩))
    next hlarge =>
      split
      next hroom => exact Or.inr (Or.inl ⟨rfl, hzero, UInt64.not_lt.mp hlarge, hroom⟩)
      next =>
        split
        next hevict =>
          refine Or.inr (Or.inr (Or.inl ⟨rfl, hzero, ?_⟩))
          simpa using hevict
        next => exact Or.inr (Or.inr (Or.inr ⟨rfl, hzero⟩))

theorem add_le_of_le_sub {resident bytes budget : UInt64} (hbytes : bytes ≤ budget)
    (hresident : resident ≤ budget - bytes) : resident + bytes ≤ budget := by
  rw [UInt64.le_iff_toNat_le] at hbytes hresident ⊢
  rw [UInt64.toNat_sub_of_le _ _ (UInt64.le_iff_toNat_le.mpr hbytes)] at hresident
  have hmax := budget.toNat_lt
  rw [UInt64.toNat_add, Nat.mod_eq_of_lt (by omega)]
  omega

theorem HiresResources.allocateHiresDescriptor_le_iff {limit : UInt64}
    (hlimit : r.gpuResidentBytes ≤ limit)
    (hbudget : r.gpuBudgetBytes = limit ∨ r.gpuBudgetBytes = 0)
    (visit : Visit (Sigma fun _ : HiresKey => HiresResidentImage)) (bytes : UInt64) :
    (r.allocateHiresDescriptor visit bytes).1.gpuResidentBytes ≤ limit ↔
      r.Fits visit limit bytes := by
  rw [HiresResources.allocateHiresDescriptor]
  obtain ⟨hdecision, hzero⟩ | ⟨hdecision, hset, hbytes, hroom⟩ | ⟨hdecision, hset, hsome⟩ |
    ⟨hdecision, hset⟩ := r.budgetDecision_cases bytes
  · have hevict : r.budgetDecision bytes ≠ .evictOldestThenAdmit := by
      simp [hdecision]
    simp only [hdecision]
    cases hfree : r.hasFreeDescriptor with
    | true =>
      rw [HiresResources.takeDescriptor_of_free hfree]
      exact ⟨fun hle => ⟨fun _ _ => hle, fun _ h => absurd h hevict⟩,
        fun h => h.of_reset hzero hfree⟩
    | false =>
      rw [HiresResources.takeDescriptor_of_not_free hfree]
      refine ⟨fun _ => ⟨fun _ h => ?_, fun _ h => absurd h hevict⟩, fun _ => hlimit⟩
      exact absurd (hfree.symm.trans h) Bool.false_ne_true
  · have heq := hbudget.resolve_right hset
    have hevict : r.budgetDecision bytes ≠ .evictOldestThenAdmit := by
      simp [hdecision]
    refine ⟨fun _ => ⟨fun h => absurd h hset, fun _ h => absurd h hevict⟩, fun _ => ?_⟩
    simp only [hdecision]
    cases hfree : r.hasFreeDescriptor with
    | true =>
      rw [HiresResources.takeDescriptor_of_free hfree, ← heq]
      exact add_le_of_le_sub hbytes hroom
    | false =>
      rw [HiresResources.takeDescriptor_of_not_free hfree]
      exact hlimit
  · obtain ⟨image, himage⟩ := HiresResources.exists_oldestImage hsome visit
    have htaken := HiresResources.takeDescriptor_of_free (r.hasFreeDescriptor_evict image) bytes
    simp only [hdecision, himage]
    rw [htaken]
    refine ⟨fun hle => ⟨fun h => absurd h hset, fun other _ hother => ?_⟩,
      fun h => h.of_evict image hdecision himage⟩
    obtain rfl := Option.some.inj (himage.symm.trans hother)
    exact hle
  · have hevict : r.budgetDecision bytes ≠ .evictOldestThenAdmit := by
      simp [hdecision]
    simp only [hdecision]
    exact ⟨fun _ => ⟨fun h => absurd h hset, fun _ h => absurd h hevict⟩, fun _ => hlimit⟩

section Call

variable {r : HiresResources} (device : HiresDevice)

theorem HiresResources.upload_counts (r : HiresResources) (key : HiresKey) (entry : Entry)
    (replacement : ReplacementImage) (replMeta : ReplacementMeta) :
    (r.upload device key entry replacement replMeta).resources.gpuResidentBytes =
        (r.allocateHiresDescriptor device.visit (textureBytes replacement)).1.gpuResidentBytes ∧
      (r.upload device key entry replacement replMeta).resources.gpuBudgetBytes =
        (r.allocateHiresDescriptor device.visit (textureBytes replacement)).1.gpuBudgetBytes := by
  rw [HiresResources.upload]
  dsimp only
  split
  next => exact ⟨rfl, rfl⟩
  next =>
    split
    next => exact ⟨rfl, rfl⟩
    next => exact ⟨rfl, rfl⟩

variable (provider : Option Provider) (shader : Bool) (key : HiresKey)
variable (find : Provider → Option Entry) (replMeta : ReplacementMeta)

theorem HiresResources.resolveDescriptor_gpuBudgetBytes (r : HiresResources) :
    (r.resolveDescriptor device provider shader key find
      replMeta).resources.gpuBudgetBytes = r.gpuBudgetBytes := by
  cases hincoming : r.incoming device provider shader key find with
  | none =>
    obtain ⟨-, hsame | ⟨image, -, htouched⟩⟩ :=
      HiresResources.resolveDescriptor_of_incoming_none replMeta hincoming
    · rw [hsame]
    · rw [htouched]
      rfl
  | some found =>
    obtain ⟨entry, replacement⟩ := found
    obtain ⟨-, huploaded⟩ := HiresResources.resolveDescriptor_of_incoming replMeta hincoming
    rw [huploaded, (r.upload_counts device key entry replacement _).2]
    exact r.allocateHiresDescriptor_gpuBudgetBytes device.visit _

theorem HiresResources.resolveDescriptor_le_iff {limit : UInt64}
    (hlimit : r.gpuResidentBytes ≤ limit)
    (hbudget : r.gpuBudgetBytes = limit ∨ r.gpuBudgetBytes = 0) :
    (r.resolveDescriptor device provider shader key find
        replMeta).resources.gpuResidentBytes ≤ limit ↔
      ∀ entry replacement, r.incoming device provider shader key find =
        some (entry, replacement) → r.Fits device.visit limit (textureBytes replacement) := by
  cases hincoming : r.incoming device provider shader key find with
  | none =>
    refine ⟨fun _ _ _ h => absurd h (by exact nofun), fun _ => ?_⟩
    obtain ⟨-, hsame | ⟨image, -, htouched⟩⟩ :=
      HiresResources.resolveDescriptor_of_incoming_none replMeta hincoming
    · rw [hsame]
      exact hlimit
    · rw [htouched]
      exact hlimit
  | some found =>
    obtain ⟨entry, replacement⟩ := found
    obtain ⟨-, huploaded⟩ := HiresResources.resolveDescriptor_of_incoming replMeta hincoming
    rw [huploaded, (r.upload_counts device key entry replacement _).1,
      HiresResources.allocateHiresDescriptor_le_iff hlimit hbudget]
    refine ⟨fun hfits other image hother => ?_, fun h => h entry replacement rfl⟩
    obtain ⟨rfl, rfl⟩ := Prod.mk.inj (Option.some.inj hother)
    exact hfits

end Call

def HiresOp.inUse : HiresOp → Bool
  | .setReplacementProvider _ _ | .beginFrameContext | .resolve _ _ => true
  | .initRenderer _ | .setHiresGpuBudgetBytes _ => false

/-- An image that an operation asks a descriptor for fits. -/
def HiresOp.Fits (s : HiresRenderer) (limit : UInt64) : HiresOp → Prop
  | .resolve device call =>
    ∀ entry replacement, s.hiresResources.incoming device (s.replacementProvider.map Prod.snd)
      s.hiresReplacementShader call.key call.find = some (entry, replacement) →
        s.hiresResources.Fits device.visit limit (textureBytes replacement)
  | _ => True

/-- The byte count is within a limit, and the budget is this limit or was reset. -/
structure HiresResources.Within (r : HiresResources) (limit : UInt64) : Prop where
  gpuResidentBytes_le : r.gpuResidentBytes ≤ limit
  gpuBudgetBytes_cases : r.gpuBudgetBytes = limit ∨ r.gpuBudgetBytes = 0

theorem HiresResources.Within.setReplacementProvider {s : HiresRenderer} {limit : UInt64}
    (h : s.hiresResources.Within limit) (outcome : PoolOutcome)
    (provider : Option (Nat × Provider)) :
    (s.setReplacementProvider outcome provider).hiresResources.Within limit := by
  have hfresh : ∀ r : HiresResources, r.gpuResidentBytes = 0 → r.gpuBudgetBytes = 0 →
      r.Within limit := fun r hresident hzero =>
    ⟨hresident ▸ UInt64.zero_le, Or.inr hzero⟩
  dsimp only [HiresRenderer.setReplacementProvider]
  have hbase : HiresResources.Within
      (if s.replacementProvider.map Prod.fst ≠ provider.map Prod.fst then {}
        else s.hiresResources) limit := by
    split
    next => exact hfresh {} rfl rfl
    next => exact h
  cases s.hiresReplacementShader with
  | false => exact hbase
  | true =>
    rw [if_pos rfl]
    obtain hsame | ⟨bindlessPool, hnew⟩ := HiresResources.initHiresResources_cases outcome _ _
    · exact hsame.symm ▸ hbase
    · exact hnew.symm ▸ hfresh _ rfl rfl

theorem HiresOp.apply_within {s : HiresRenderer} {limit : UInt64}
    (h : s.hiresResources.Within limit) {op : HiresOp} (huse : op.inUse = true) :
    (op.Fits s limit → (op.apply s).hiresResources.Within limit) ∧
      ((op.apply s).hiresResources.gpuResidentBytes ≤ limit → op.Fits s limit) := by
  cases op with
  | initRenderer outcome => cases huse
  | setHiresGpuBudgetBytes bytes => cases huse
  | setReplacementProvider outcome provider =>
    exact ⟨fun _ => h.setReplacementProvider outcome provider, fun _ => trivial⟩
  | beginFrameContext =>
    exact ⟨fun _ => ⟨h.gpuResidentBytes_le, h.gpuBudgetBytes_cases⟩, fun _ => trivial⟩
  | resolve device call =>
    have hiff := HiresResources.resolveDescriptor_le_iff device
      (s.replacementProvider.map Prod.snd) s.hiresReplacementShader call.key call.find {}
      h.gpuResidentBytes_le h.gpuBudgetBytes_cases
    have hsame := HiresResources.resolveDescriptor_gpuBudgetBytes device
      (s.replacementProvider.map Prod.snd) s.hiresReplacementShader call.key call.find {}
      s.hiresResources
    rw [← HiresCall.outcome_eq] at hiff hsame
    exact ⟨fun hfits => ⟨hiff.mpr hfits, hsame.symm ▸ h.gpuBudgetBytes_cases⟩, hiff.mp⟩

/-- After the budget was set, the byte count keeps within it exactly when it did so from the
start and every image that asks for a descriptor fits. -/
theorem HiresRenderer.run_within_budget_iff (before ops : List HiresOp) (bytes : UInt64)
    (huse : ∀ op ∈ ops, op.inUse = true) :
    let s := (HiresRenderer.run {} before).setHiresGpuBudgetBytes bytes
    (∀ first rest, ops = first ++ rest →
        (s.run first).hiresResources.gpuResidentBytes ≤ bytes) ↔
      s.hiresResources.gpuResidentBytes ≤ bytes ∧
        ∀ first op rest, ops = first ++ op :: rest → op.Fits (s.run first) bytes := by
  intro s
  have hiff : s.hiresResources.Within bytes →
      ((∀ first rest, ops = first ++ rest →
          (s.run first).hiresResources.gpuResidentBytes ≤ bytes) ↔
        ∀ first op rest, ops = first ++ op :: rest → op.Fits (s.run first) bytes) := fun hwithin =>
    foldl_prefix_iff
      (fun s : HiresRenderer => s.hiresResources.Within bytes)
      (fun s : HiresRenderer => s.hiresResources.gpuResidentBytes ≤ bytes)
      (fun s op => HiresOp.Fits s bytes op) hwithin
      (fun _ op hmem h => (op.apply_within h (huse op hmem)).1)
      (fun _ h => h.gpuResidentBytes_le)
      fun _ op hmem h => (op.apply_within h (huse op hmem)).2
  constructor
  · intro hle
    have hstart : s.hiresResources.gpuResidentBytes ≤ bytes := hle [] ops rfl
    exact ⟨hstart, (hiff ⟨hstart, Or.inl rfl⟩).mp hle⟩
  · rintro ⟨hstart, hfits⟩
    exact (hiff ⟨hstart, Or.inl rfl⟩).mpr hfits

def resolveOp (checksum64 : UInt64) : HiresOp := .resolve (.always true) (.compat checksum64 0 0)

def uneven : Provider :=
  providing [inlineEntry 1 1 1 [1, 2, 3, 4], inlineEntry 2 2 1 [1, 2, 3, 4, 5, 6, 7, 8],
    inlineEntry 3 2 1 [1, 2, 3, 4, 5, 6, 7, 8]]

def twoFrames : List HiresOp := [resolveOp 1, .beginFrameContext, resolveOp 2]

/-- In a budget of eight bytes the second image evicts the first. -/
theorem run_twoFrames_within_budget :
    twoFrames.all HiresOp.inUse = true ∧
      let s := (HiresRenderer.run {} (startOps uneven)).setHiresGpuBudgetBytes 8
      (s.run [resolveOp 1]).hiresResources.gpuResidentBytes = 4 ∧
        (s.run twoFrames).hiresResources.gpuResidentBytes = 8 ∧
        ((∀ first rest, twoFrames = first ++ rest →
            (s.run first).hiresResources.gpuResidentBytes ≤ 8) ↔
          s.hiresResources.gpuResidentBytes ≤ 8 ∧
            ∀ first op rest, twoFrames = first ++ op :: rest → op.Fits (s.run first) 8) :=
  ⟨rfl, by decide, by decide,
    HiresRenderer.run_within_budget_iff (startOps uneven) twoFrames 8 (by decide)⟩

/-- A budget of four bytes that a change of the provider resets admits eight bytes, and in a
budget of twelve bytes the eviction of a small image makes room for a large one. -/
theorem not_run_within_budget :
    4 < (((HiresRenderer.run {} [.initRenderer ⟨true, true, true⟩]).setHiresGpuBudgetBytes 4).run
        [.setReplacementProvider ⟨true, true, true⟩ (some (1, uneven)),
          resolveOp 2]).hiresResources.gpuResidentBytes ∧
      12 < (((HiresRenderer.run {} (startOps uneven)).setHiresGpuBudgetBytes 12).run
        [resolveOp 1, .beginFrameContext, resolveOp 2,
          resolveOp 3]).hiresResources.gpuResidentBytes := by
  decide

end ParallelN64.Hires
