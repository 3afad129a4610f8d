import ParallelN64.Hires.Resolve

/-!
# Resident replacement images and their descriptors

The renderer keeps decoded replacement images on the GPU. Each image holds a descriptor
number, taken from a list of recycled numbers or from a counter. A byte budget decides
whether an image is admitted; over the budget the least recently used image is evicted and
its number recycled. Changing the provider starts over with fresh resources.
-/

namespace ParallelN64.Hires

open ParallelN64.Core Replacement Phrb

inductive HiresKeySource where
  | generic
  | nativeSampled
  | compat
  | nativeChecksum
  | genericNative
  | genericCompat
  deriving DecidableEq, Repr

/-- The identity of a resident image. -/
structure HiresKey where
  checksum64 : UInt64 := 0
  formatsize : UInt16 := 0
  selectorChecksum64 : UInt64 := 0
  source : HiresKeySource := .generic
  sampledFmt : UInt32 := 0
  sampledSiz : UInt32 := 0
  sampledTexOffset : UInt32 := 0
  sampledStride : UInt32 := 0
  sampledWidth : UInt32 := 0
  sampledHeight : UInt32 := 0
  sampledLow32 : UInt32 := 0
  sampledPaletteCrc : UInt32 := 0
  deriving DecidableEq, Repr

structure HiresResidentImage where
  /-- The pixels of the GPU image. -/
  image : Bytes := []
  descriptorIndex : UInt32 := 0xffffffff
  replW : UInt16 := 0
  replH : UInt16 := 0
  lastUsedTick : UInt64 := 0
  residentBytes : UInt64 := 0
  deriving DecidableEq, Repr

/-- The renderer's replacement resources; of the descriptor pool only its existence matters. -/
structure HiresResources where
  bindlessPool : Bool := false
  residentImages : Table HiresKey HiresResidentImage := ∅
  capacity : UInt32 := 0
  nextDescriptor : UInt32 := 1
  recycledDescriptors : List UInt32 := []
  gpuResidentBytes : UInt64 := 0
  gpuBudgetBytes : UInt64 := 0
  frameTick : UInt64 := 0

/-- An order in which the elements of a hash map are visited. -/
structure Visit (α : Type) where
  order : List α → List α
  perm : ∀ l, (order l).Perm l

/-- What a call finds outside the renderer: the files, the decompressor, the outcome of
creating an image, and the order of the hash map. -/
structure HiresDevice where
  files : Bytes → Option Bytes
  uncompress : Bytes → Nat → Option Bytes
  createImage : HiresKey → Bytes → Bool
  visit : Visit (Sigma fun _ : HiresKey => HiresResidentImage)

inductive HiresRegistryBudgetDecision where
  | admitted
  | evictOldestThenAdmit
  | rejectOverBudget
  deriving DecidableEq, Repr

def decideHiresRegistryBudget (residentBytes incomingBytes budgetBytes : UInt64)
    (evictionEnabled hasEvictableCandidate : Bool) : HiresRegistryBudgetDecision :=
  if budgetBytes = 0 then .admitted
  else if incomingBytes > budgetBytes then .rejectOverBudget
  else if residentBytes ≤ budgetBytes - incomingBytes then .admitted
  else if evictionEnabled && hasEvictableCandidate then .evictOldestThenAdmit
  else .rejectOverBudget

def hiresInvalidDescriptorIndex : UInt32 := 0xffffffff

section Allocation

variable (visit : Visit (Sigma fun _ : HiresKey => HiresResidentImage))

def HiresResources.oldestImage (r : HiresResources) :
    Option (Sigma fun _ : HiresKey => HiresResidentImage) :=
  (visit.order r.residentImages.entries).argmin fun image => image.2.lastUsedTick

/-- Drop an image and recycle its descriptor. -/
def HiresResources.evict (r : HiresResources)
    (image : Sigma fun _ : HiresKey => HiresResidentImage) : HiresResources :=
  { r with
    recycledDescriptors := r.recycledDescriptors ++ [image.2.descriptorIndex]
    gpuResidentBytes := r.gpuResidentBytes - image.2.residentBytes
    residentImages := r.residentImages.erase image.1 }

def HiresResources.budgetDecision (r : HiresResources) (incomingBytes : UInt64) :
    HiresRegistryBudgetDecision :=
  decideHiresRegistryBudget r.gpuResidentBytes incomingBytes r.gpuBudgetBytes true
    (!r.residentImages.entries.isEmpty)

/-- The image that is evicted for an incoming one, if any. -/
def HiresResources.victim (r : HiresResources) (incomingBytes : UInt64) :
    Option (Sigma fun _ : HiresKey => HiresResidentImage) :=
  match r.budgetDecision incomingBytes with
  | .evictOldestThenAdmit => r.oldestImage visit
  | .admitted | .rejectOverBudget => none

/-- Reuse the last recycled descriptor or count up to a new one, and account for the image. -/
def HiresResources.takeDescriptor (r : HiresResources) (incomingBytes : UInt64) :
    HiresResources × UInt32 :=
  match r.recycledDescriptors.getLast? with
  | some index =>
    ({ r with
        recycledDescriptors := r.recycledDescriptors.dropLast
        gpuResidentBytes := r.gpuResidentBytes + incomingBytes }, index)
  | none =>
    if r.nextDescriptor ≥ r.capacity then (r, hiresInvalidDescriptorIndex)
    else
      ({ r with
          nextDescriptor := r.nextDescriptor + 1
          gpuResidentBytes := r.gpuResidentBytes + incomingBytes }, r.nextDescriptor)

def HiresResources.allocateHiresDescriptor (r : HiresResources) (incomingBytes : UInt64) :
    HiresResources × UInt32 :=
  match r.budgetDecision incomingBytes with
  | .admitted => r.takeDescriptor incomingBytes
  | .evictOldestThenAdmit =>
    match r.oldestImage visit with
    | some image => (r.evict image).takeDescriptor incomingBytes
    | none => r.takeDescriptor incomingBytes
  | .rejectOverBudget => (r, hiresInvalidDescriptorIndex)

end Allocation

/-- Transparent pixels lose their color. -/
def zeroTransparentReplacementRgb : Bytes → Bytes
  | red :: green :: blue :: alpha :: rest =>
    (if alpha == 0 then [0, 0, 0, alpha] else [red, green, blue, alpha]) ++
      zeroTransparentReplacementRgb rest
  | rest => rest

/-- What resolving a descriptor leaves behind. -/
structure DescriptorOutcome where
  resources : HiresResources
  replMeta : ReplacementMeta
  resolved : Bool := false
  decoded : List Entry := []
  evicted : List UInt32 := []
  created : List Bool := []

section Resolve

variable (device : HiresDevice) (provider : Option Provider) (hiresReplacementShader : Bool)

/-- A decoded replacement: its pixels and dimensions, unless there is nothing in it. -/
def decodeReplacement (entry : Entry) : Option ReplacementImage :=
  (decodeEntryRgba8 device.files device.uncompress entry).filter fun replacement =>
    !(replacement.rgba8.isEmpty || replacement.replMeta.replW == 0 ||
      replacement.replMeta.replH == 0)

def textureBytes (replacement : ReplacementImage) : UInt64 :=
  replacement.replMeta.replW.toUInt64 * replacement.replMeta.replH.toUInt64 * 4

def HiresResources.keep (r : HiresResources) (key : HiresKey) (image : HiresResidentImage) :
    HiresResources :=
  { r with residentImages := r.residentImages.insert key image }

def HiresResources.touch (r : HiresResources) (key : HiresKey) (image : HiresResidentImage) :
    HiresResources :=
  r.keep key { image with lastUsedTick := r.frameTick }

/-- Upload a decoded replacement: allocate a descriptor, create the image and keep it. -/
def HiresResources.upload (r : HiresResources) (key : HiresKey) (entry : Entry)
    (replacement : ReplacementImage) (replMeta : ReplacementMeta) : DescriptorOutcome :=
  let evicted := (r.victim device.visit (textureBytes replacement)).toList.map
    fun image => image.2.descriptorIndex
  let (r, descriptorIndex) := r.allocateHiresDescriptor device.visit (textureBytes replacement)
  if descriptorIndex == hiresInvalidDescriptorIndex then
    { resources := r, replMeta := replMeta, decoded := [entry], evicted := evicted }
  else
    let pixels := zeroTransparentReplacementRgb replacement.rgba8
    if device.createImage key pixels then
      let resident : HiresResidentImage :=
        { image := pixels
          descriptorIndex := descriptorIndex
          replW := replacement.replMeta.replW.toUInt16
          replH := replacement.replMeta.replH.toUInt16
          lastUsedTick := r.frameTick
          residentBytes := textureBytes replacement }
      { resources := r.keep key resident
        replMeta := { replMeta with
          vkImageIndex := descriptorIndex
          replW := replacement.replMeta.replW
          replH := replacement.replMeta.replH }
        resolved := true
        decoded := [entry]
        evicted := evicted
        created := [true] }
    else
      { resources := r
        replMeta := replMeta
        decoded := [entry]
        evicted := evicted
        created := [false] }

/-- Resolve the descriptor of a key: the resident image, or else the entry of a lookup, decoded
and uploaded. -/
def HiresResources.resolveDescriptor (r : HiresResources) (key : HiresKey)
    (find : Provider → Option Entry) (replMeta : ReplacementMeta) : DescriptorOutcome :=
  let replMeta := { replMeta with vkImageIndex := hiresInvalidDescriptorIndex }
  let failed : DescriptorOutcome := { resources := r, replMeta := replMeta }
  match provider with
  | none => failed
  | some provider =>
    if !hiresReplacementShader then failed
    else match r.residentImages.lookup key with
    | some image =>
      { resources := r.touch key image
        replMeta := { replMeta with
          vkImageIndex := image.descriptorIndex
          replW := image.replW.toUInt32
          replH := image.replH.toUInt32 }
        resolved := true }
    | none =>
      if !r.bindlessPool || !provider.enabled then failed
      else match find provider with
      | none => failed
      | some entry =>
        match decodeReplacement device entry with
        | none => { failed with decoded := [entry] }
        | some replacement => r.upload device key entry replacement replMeta

def sampledKey (query : SampledFamilyLookupKey) (selectorChecksum64 : UInt64) : HiresKey where
  formatsize := query.formatsize
  selectorChecksum64 := selectorChecksum64
  source := .nativeSampled
  sampledFmt := query.sampledFmt
  sampledSiz := query.sampledSiz
  sampledTexOffset := query.sampledTexOffset
  sampledStride := query.sampledStride
  sampledWidth := query.sampledWidth
  sampledHeight := query.sampledHeight
  sampledLow32 := query.sampledLow32
  sampledPaletteCrc := query.sampledPaletteCrc

def nativeChecksumKey (checksum64 : UInt64) (formatsize : UInt16) (selectorChecksum64 : UInt64) :
    HiresKey where
  checksum64 := checksum64
  formatsize := formatsize
  selectorChecksum64 := selectorChecksum64
  source := .nativeChecksum

def compatKey (checksum64 : UInt64) (formatsize : UInt16) (selectorChecksum64 : UInt64) :
    HiresKey where
  checksum64 := checksum64
  formatsize := formatsize
  selectorChecksum64 := selectorChecksum64
  source := .compat

def HiresResources.resolveHiresSampledReplacementDescriptor (r : HiresResources)
    (query : SampledFamilyLookupKey) (selectorChecksum64 : UInt64) (replMeta : ReplacementMeta) :
    DescriptorOutcome :=
  r.resolveDescriptor device provider hiresReplacementShader (sampledKey query selectorChecksum64)
    (fun p => p.findSampledEntry query selectorChecksum64) replMeta

def HiresResources.resolveHiresNativeChecksumReplacementDescriptor (r : HiresResources)
    (checksum64 : UInt64) (formatsize : UInt16) (selectorChecksum64 : UInt64)
    (replMeta : ReplacementMeta) : DescriptorOutcome :=
  r.resolveDescriptor device provider hiresReplacementShader
    (nativeChecksumKey checksum64 formatsize selectorChecksum64)
    (fun p => findNativeEntry p checksum64 formatsize selectorChecksum64) replMeta

def HiresResources.resolveHiresCompatReplacementDescriptor (r : HiresResources)
    (checksum64 : UInt64) (formatsize : UInt16) (selectorChecksum64 : UInt64)
    (replMeta : ReplacementMeta) : DescriptorOutcome :=
  r.resolveDescriptor device provider hiresReplacementShader
    (compatKey checksum64 formatsize selectorChecksum64)
    (fun p => findCompatEntry p checksum64 formatsize selectorChecksum64) replMeta

end Resolve

inductive HiresProviderDescriptorPathKind where
  | none
  | sampled
  | nativeChecksum
  | compat
  deriving DecidableEq, Repr

/-- A descriptor outcome with the path that resolved it and the key of the image. -/
structure ProviderOutcome extends DescriptorOutcome where
  pathKind : HiresProviderDescriptorPathKind := .none
  selectorChecksum64 : UInt64 := 0
  key : Option HiresKey := none

/-- An outcome of one path: on success the path is reported, else the image is invalid. -/
def DescriptorOutcome.finalize (outcome : DescriptorOutcome) (resolution : ReplacementResolution)
    (origW origH : UInt32) (pathKind : HiresProviderDescriptorPathKind)
    (selectorChecksum64 : UInt64) (key : HiresKey) : ProviderOutcome :=
  if outcome.resolved then
    { outcome with
      replMeta := { outcome.replMeta with origW := origW, origH := origH }
      pathKind := pathKind
      selectorChecksum64 := selectorChecksum64
      key := some key }
  else { outcome with selectorChecksum64 := resolution.resolvedSelectorChecksum64 }

/-- A second path is tried when the first one fails, with what that left behind. -/
def ProviderOutcome.orElse (first : ProviderOutcome)
    (second : HiresResources → ReplacementMeta → ProviderOutcome) : ProviderOutcome :=
  if first.resolved then first
  else
    let last := second first.resources first.replMeta
    { last with
      decoded := first.decoded ++ last.decoded
      evicted := first.evicted ++ last.evicted
      created := first.created ++ last.created }

section ProviderResolution

variable (device : HiresDevice) (provider : Option Provider) (hiresReplacementShader : Bool)
variable (resolution : ReplacementResolution) (formatsize : UInt16) (origW origH : UInt32)

def trySampled (selectorChecksum64 : UInt64) (r : HiresResources) (resolvedMeta : ReplacementMeta) :
    ProviderOutcome :=
  if !resolution.identity.valid then
    { resources := r
      replMeta := resolvedMeta
      selectorChecksum64 := resolution.resolvedSelectorChecksum64 }
  else
    (r.resolveHiresSampledReplacementDescriptor device provider hiresReplacementShader
      resolution.identity.toSampledFamilyLookupKey selectorChecksum64 resolvedMeta).finalize
      resolution origW origH .sampled selectorChecksum64
      (sampledKey resolution.identity.toSampledFamilyLookupKey selectorChecksum64)

def tryNativeChecksum (selectorChecksum64 : UInt64) (r : HiresResources)
    (resolvedMeta : ReplacementMeta) : ProviderOutcome :=
  (r.resolveHiresNativeChecksumReplacementDescriptor device provider hiresReplacementShader
    resolution.resolvedChecksum64 formatsize selectorChecksum64 resolvedMeta).finalize
    resolution origW origH .nativeChecksum selectorChecksum64
    (nativeChecksumKey resolution.resolvedChecksum64 formatsize selectorChecksum64)

def tryCompat (selectorChecksum64 : UInt64) (r : HiresResources) (resolvedMeta : ReplacementMeta) :
    ProviderOutcome :=
  (r.resolveHiresCompatReplacementDescriptor device provider hiresReplacementShader
    resolution.resolvedChecksum64 formatsize selectorChecksum64 resolvedMeta).finalize
    resolution origW origH .compat selectorChecksum64
    (compatKey resolution.resolvedChecksum64 formatsize selectorChecksum64)

/-- Resolve the descriptor of a resolution by the path of its kind. -/
def HiresResources.resolveHiresProviderResolutionDescriptor (r : HiresResources) :
    ProviderOutcome :=
  let resolvedMeta := { resolution.replMeta with origW := origW, origH := origH }
  let failed : ProviderOutcome :=
    { resources := r
      replMeta := { resolvedMeta with vkImageIndex := hiresInvalidDescriptorIndex }
      selectorChecksum64 := resolution.resolvedSelectorChecksum64 }
  if provider.isNone || !hiresReplacementShader || !resolution.available then failed
  else match resolution.kind with
  | .sampledExactSelector | .sampledOrderedSurfaceReservedSelector | .sampledFamilySingleton =>
    trySampled device provider hiresReplacementShader resolution origW origH
      resolution.resolvedSelectorChecksum64 r resolvedMeta
  | .exactNativeSampled | .genericNativeIdentity =>
    if !resolution.identity.valid then failed
    else
      (trySampled device provider hiresReplacementShader resolution origW origH
        resolution.identity.selectorChecksum64 r resolvedMeta).orElse
        (tryNativeChecksum device provider hiresReplacementShader resolution formatsize origW origH
          resolution.identity.selectorChecksum64)
  | .genericNativeChecksum =>
    tryNativeChecksum device provider hiresReplacementShader resolution formatsize origW origH
      resolution.resolvedSelectorChecksum64 r resolvedMeta
  | .genericCompat | .ciLow32SelectedDims | .ciLow32ReplacementDimsUnique | .ciLow32Unique
  | .ciLow32Any =>
    tryCompat device provider hiresReplacementShader resolution formatsize origW origH
      resolution.resolvedSelectorChecksum64 r resolvedMeta
  | .none => failed

end ProviderResolution

/-- The renderer as far as replacements go; the provider stands with its address. -/
structure HiresRenderer where
  hiresResources : HiresResources := {}
  replacementProvider : Option (Nat × Provider) := none
  hiresReplacementShader : Bool := false

/-- How setting up the descriptor pool goes. -/
structure PoolOutcome where
  supportsDescriptorIndexing : Bool
  poolCreated : Bool
  fallbackCreated : Bool
  deriving DecidableEq, Repr

def HiresResources.initHiresResources (outcome : PoolOutcome) (requestedCapacity : UInt32)
    (r : HiresResources) : HiresResources × Bool :=
  if requestedCapacity = 0 || !outcome.supportsDescriptorIndexing then (r, false)
  else if r.bindlessPool && r.capacity ≥ requestedCapacity then (r, true)
  else
    let r : HiresResources := { capacity := requestedCapacity, nextDescriptor := 1 }
    if !outcome.poolCreated || !outcome.fallbackCreated then (r, false)
    else ({ r with bindlessPool := true }, true)

def HiresRenderer.initRenderer (outcome : PoolOutcome) (s : HiresRenderer) : HiresRenderer :=
  if outcome.supportsDescriptorIndexing then
    let (resources, initialised) := s.hiresResources.initHiresResources outcome 1
    { s with hiresResources := resources, hiresReplacementShader := initialised }
  else { s with hiresReplacementShader := false }

def HiresRenderer.setReplacementProvider (outcome : PoolOutcome) (provider : Option (Nat × Provider))
    (s : HiresRenderer) : HiresRenderer :=
  let resources := if s.replacementProvider.map Prod.fst ≠ provider.map Prod.fst then {}
    else s.hiresResources
  let requestedCapacity : UInt32 := match provider with
    | some (_, p) => UInt32.ofNat p.entries.length + 1
    | none => 1
  let resources := if s.hiresReplacementShader then
      (resources.initHiresResources outcome (max requestedCapacity 1)).1
    else resources
  { s with hiresResources := resources, replacementProvider := provider }

def HiresRenderer.setHiresGpuBudgetBytes (bytes : UInt64) (s : HiresRenderer) : HiresRenderer :=
  { s with hiresResources := { s.hiresResources with gpuBudgetBytes := bytes } }

def HiresRenderer.beginFrameContext (s : HiresRenderer) : HiresRenderer :=
  { s with hiresResources := { s.hiresResources with
      frameTick := s.hiresResources.frameTick + 1 } }

end ParallelN64.Hires
