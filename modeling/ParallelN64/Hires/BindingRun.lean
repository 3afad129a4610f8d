import ParallelN64.Hires.Binding

/-!
# Runs of the tiles

A lookup takes away at most the image that the policy evicts for what it uploads: every other
descriptor stays with its image. The bindings of the tiles and of the pending batch are therefore
right all along a run in which no lookup comes to evict an image whose descriptor a tile carries.
-/

namespace ParallelN64.Hires

open ParallelN64.Core Replacement Phrb

def HiresResources.Holds (r : HiresResources) (key : HiresKey) (descriptor : UInt32) : Prop :=
  ∃ image, r.residentImages.lookup key = some image ∧ image.descriptorIndex = descriptor

/-- The images whose descriptors are carried stay. -/
def HiresResources.Keeps (r last : HiresResources) (carried : UInt32 → Prop) : Prop :=
  ∀ key descriptor, carried descriptor → r.Holds key descriptor → last.Holds key descriptor

variable {carried : UInt32 → Prop}

theorem HiresResources.Keeps.refl (r : HiresResources) : r.Keeps r carried := fun _ _ _ h => h

theorem HiresResources.Keeps.trans {r mid last : HiresResources} (h : r.Keeps mid carried)
    (h' : mid.Keeps last carried) : r.Keeps last carried :=
  fun key descriptor hcarried hholds => h' key descriptor hcarried (h key descriptor hcarried hholds)

/-- Where the policy evicts the oldest image for an upload of this size, no tile carries the
descriptor of that image. -/
def HiresResources.SparesCarried (r : HiresResources) (carried : UInt32 → Prop)
    (visit : Visit (Sigma fun _ : HiresKey => HiresResidentImage)) (bytes : UInt64) : Prop :=
  ∀ image, r.victim visit bytes = some image → ¬carried image.2.descriptorIndex

/-- The same for a lookup of a key, which uploads what it finds and decodes unless the image is
resident. -/
def HiresResources.LookupSpares (r : HiresResources) (carried : UInt32 → Prop)
    (device : HiresDevice) (provider : Option Provider) (shader : Bool)
    (key : HiresKey) (find : Provider → Option Entry) : Prop :=
  ∀ p entry replacement, provider = some p → shader = true →
    r.residentImages.lookup key = none → r.bindlessPool = true → p.enabled = true →
    find p = some entry → decodeReplacement device entry = some replacement →
    r.SparesCarried carried device.visit (textureBytes replacement)

section Call

variable {r : HiresResources} {device : HiresDevice}

variable {key : HiresKey}

theorem HiresResources.keeps_touch {image : HiresResidentImage}
    (himage : r.residentImages.lookup key = some image) : r.Keeps (r.touch key image) carried := by
  rintro other descriptor - ⟨found, hlookup, hdescriptor⟩
  by_cases hsame : other = key
  · subst hsame
    obtain rfl := Option.some.inj (himage.symm.trans hlookup)
    exact ⟨_, AList.lookup_insert _, hdescriptor⟩
  · exact ⟨found, (AList.lookup_insert_ne hsame).trans hlookup, hdescriptor⟩

theorem HiresResources.allocateHiresDescriptor_residentImages (r : HiresResources)
    (visit : Visit (Sigma fun _ : HiresKey => HiresResidentImage)) (bytes : UInt64) :
    (r.allocateHiresDescriptor visit bytes).1.residentImages =
      match r.victim visit bytes with
      | some image => r.residentImages.erase image.1
      | none => r.residentImages := by
  have htake : ∀ r : HiresResources,
      (r.takeDescriptor bytes).1.residentImages = r.residentImages := by
    intro r
    rw [HiresResources.takeDescriptor]
    split
    next => rfl
    next =>
      split
      next => rfl
      next => rfl
  rw [HiresResources.allocateHiresDescriptor, HiresResources.victim]
  cases r.budgetDecision bytes with
  | admitted => exact htake r
  | rejectOverBudget => rfl
  | evictOldestThenAdmit =>
    cases holdest : r.oldestImage visit with
    | none => exact htake r
    | some image => exact htake (r.evict image)

theorem HiresResources.lookup_victim {visit : Visit (Sigma fun _ : HiresKey => HiresResidentImage)}
    {bytes : UInt64} {image : Sigma fun _ : HiresKey => HiresResidentImage}
    (h : r.victim visit bytes = some image) :
    r.residentImages.lookup image.1 = some image.2 := by
  rw [HiresResources.victim] at h
  split at h
  next => exact HiresResources.lookup_oldestImage h
  next => cases h
  next => cases h

theorem HiresResources.keeps_allocate
    {visit : Visit (Sigma fun _ : HiresKey => HiresResidentImage)} {bytes : UInt64}
    (hspares : r.SparesCarried carried visit bytes) :
    r.Keeps (r.allocateHiresDescriptor visit bytes).1 carried := by
  rintro key descriptor hcarried ⟨image, hlookup, hdescriptor⟩
  rw [HiresResources.Holds, r.allocateHiresDescriptor_residentImages visit bytes]
  cases hvictim : r.victim visit bytes with
  | none => exact ⟨image, hlookup, hdescriptor⟩
  | some victim =>
    have hne : key ≠ victim.1 := by
      rintro rfl
      have hsame := Option.some.inj (hlookup.symm.trans (HiresResources.lookup_victim hvictim))
      exact hspares victim hvictim (by rwa [← hsame, hdescriptor])
    exact ⟨image, (AList.lookup_erase_ne hne).trans hlookup, hdescriptor⟩

theorem HiresResources.lookup_allocate_none (hkey : r.residentImages.lookup key = none)
    (visit : Visit (Sigma fun _ : HiresKey => HiresResidentImage)) (bytes : UInt64) :
    (r.allocateHiresDescriptor visit bytes).1.residentImages.lookup key = none := by
  rw [r.allocateHiresDescriptor_residentImages visit bytes]
  cases r.victim visit bytes with
  | none => exact hkey
  | some image =>
    by_cases hsame : key = image.1
    · subst hsame
      exact AList.lookup_erase _ _
    · exact (AList.lookup_erase_ne hsame).trans hkey

theorem HiresResources.keeps_keep (hkey : r.residentImages.lookup key = none)
    (resident : HiresResidentImage) : r.Keeps (r.keep key resident) carried := by
  rintro other descriptor - ⟨image, hlookup, hdescriptor⟩
  have hne : other ≠ key := by
    rintro rfl
    cases hkey.symm.trans hlookup
  exact ⟨image, (AList.lookup_insert_ne hne).trans hlookup, hdescriptor⟩

/-- What a lookup promises: it keeps the images that are carried, and the image that it resolved
is resident under its key. -/
structure DescriptorOutcome.Faithful (outcome : DescriptorOutcome) (r : HiresResources)
    (carried : UInt32 → Prop) (key : HiresKey) : Prop where
  keeps : r.Keeps outcome.resources carried
  holds : outcome.resolved = true → outcome.resources.Holds key outcome.replMeta.vkImageIndex

theorem HiresResources.upload_faithful (hkey : r.residentImages.lookup key = none) (entry : Entry)
    {replacement : ReplacementImage} (replMeta : ReplacementMeta)
    (hspares : r.SparesCarried carried device.visit (textureBytes replacement)) :
    (r.upload device key entry replacement replMeta).Faithful r carried key := by
  have hkeeps := HiresResources.keeps_allocate hspares
  have habsent := HiresResources.lookup_allocate_none hkey device.visit (textureBytes replacement)
  rw [HiresResources.upload]
  dsimp only
  split
  next => exact ⟨hkeeps, fun hresolved => absurd hresolved Bool.false_ne_true⟩
  next =>
    split
    next =>
      exact ⟨hkeeps.trans (HiresResources.keeps_keep habsent _),
        fun _ => ⟨_, AList.lookup_insert _, rfl⟩⟩
    next => exact ⟨hkeeps, fun hresolved => absurd hresolved Bool.false_ne_true⟩

theorem HiresResources.LookupSpares.faithful {provider : Option Provider}
    {shader : Bool} {find : Provider → Option Entry}
    (h : r.LookupSpares carried device provider shader key find)
    (replMeta : ReplacementMeta) :
    (r.resolveDescriptor device provider shader key find replMeta).Faithful r
      carried key := by
  have hfailed : ∀ (decoded : List Entry) (replMeta : ReplacementMeta),
      DescriptorOutcome.Faithful
        { resources := r, replMeta := replMeta, decoded := decoded } r carried key :=
    fun _ _ => ⟨HiresResources.Keeps.refl r, fun hresolved => absurd hresolved Bool.false_ne_true⟩
  cases provider with
  | none => exact hfailed [] _
  | some p =>
    rw [HiresResources.resolveDescriptor]
    dsimp only
    split
    next => exact hfailed [] _
    next hshader =>
      rw [Bool.not_eq_true', Bool.not_eq_false] at hshader
      cases hlookup : r.residentImages.lookup key with
      | some image =>
        exact ⟨HiresResources.keeps_touch hlookup, fun _ => ⟨_, AList.lookup_insert _, rfl⟩⟩
      | none =>
        dsimp only
        split
        next => exact hfailed [] _
        next hready =>
          simp only [Bool.or_eq_true, Bool.not_eq_true', not_or, Bool.not_eq_false] at hready
          cases hfind : find p with
          | none => exact hfailed [] _
          | some entry =>
            dsimp only
            cases hdecode : decodeReplacement device entry with
            | none => exact hfailed [entry] _
            | some replacement =>
              exact HiresResources.upload_faithful hlookup entry _
                (h p entry replacement rfl hshader hlookup hready.1 hready.2 hfind hdecode)

end Call

/-- What a path promises: it keeps the images that are carried, and what it resolved is resident
under the key that it reports. -/
structure ProviderOutcome.Faithful (outcome : ProviderOutcome) (r : HiresResources)
    (carried : UInt32 → Prop) : Prop where
  keeps : r.Keeps outcome.resources carried
  holds : outcome.resolved = true → ∃ key, outcome.key = some key ∧
    outcome.resources.Holds key outcome.replMeta.vkImageIndex

theorem DescriptorOutcome.Faithful.finalize {r : HiresResources} {outcome : DescriptorOutcome}
    {key : HiresKey} (h : outcome.Faithful r carried key) (resolution : ReplacementResolution)
    (origW origH : UInt32) (pathKind : HiresProviderDescriptorPathKind)
    (selectorChecksum64 : UInt64) :
    (outcome.finalize resolution origW origH pathKind selectorChecksum64 key).Faithful r
      carried := by
  rw [DescriptorOutcome.finalize]
  split
  next hresolved => exact ⟨h.keeps, fun _ => ⟨key, rfl, h.holds hresolved⟩⟩
  next hfailed => exact ⟨h.keeps, fun hresolved => absurd hresolved hfailed⟩

section Resolution

variable (carried) (device : HiresDevice) (provider : Option Provider)
  (shader : Bool)
variable (resolution : ReplacementResolution) (formatsize : UInt16) (origW origH : UInt32)
  (selectorChecksum64 : UInt64)

def SampledSpares (r : HiresResources) : Prop :=
  resolution.identity.valid = true →
    r.LookupSpares carried device provider shader
      (sampledKey resolution.identity.toSampledFamilyLookupKey selectorChecksum64)
      fun p => p.findSampledEntry resolution.identity.toSampledFamilyLookupKey selectorChecksum64

def NativeChecksumSpares (r : HiresResources) : Prop :=
  r.LookupSpares carried device provider shader
    (nativeChecksumKey resolution.resolvedChecksum64 formatsize selectorChecksum64)
    fun p => findNativeEntry p resolution.resolvedChecksum64 formatsize selectorChecksum64

def CompatSpares (r : HiresResources) : Prop :=
  r.LookupSpares carried device provider shader
    (compatKey resolution.resolvedChecksum64 formatsize selectorChecksum64)
    fun p => findCompatEntry p resolution.resolvedChecksum64 formatsize selectorChecksum64

/-- The lookups of a resolution by its kind; the second one of a native texture comes where the
first one fails, from what that left behind. -/
def ResolutionSpares (r : HiresResources) : Prop :=
  match resolution.kind with
  | .sampledExactSelector | .sampledOrderedSurfaceReservedSelector | .sampledFamilySingleton =>
    SampledSpares carried device provider shader resolution
      resolution.resolvedSelectorChecksum64 r
  | .exactNativeSampled | .genericNativeIdentity =>
    resolution.identity.valid = true →
    SampledSpares carried device provider shader resolution
      resolution.identity.selectorChecksum64 r ∧
    let first := trySampled device provider shader resolution origW origH
      resolution.identity.selectorChecksum64 r
      { resolution.replMeta with origW := origW, origH := origH }
    first.resolved = false →
      NativeChecksumSpares carried device provider shader resolution formatsize
        resolution.identity.selectorChecksum64 first.resources
  | .genericNativeChecksum =>
    NativeChecksumSpares carried device provider shader resolution formatsize
      resolution.resolvedSelectorChecksum64 r
  | .genericCompat | .ciLow32SelectedDims | .ciLow32ReplacementDimsUnique | .ciLow32Unique
  | .ciLow32Any =>
    CompatSpares carried device provider shader resolution formatsize
      resolution.resolvedSelectorChecksum64 r
  | .none => True

variable {carried device provider shader resolution formatsize origW origH
  selectorChecksum64}
variable {r : HiresResources}

theorem SampledSpares.faithful
    (h : SampledSpares carried device provider shader resolution
      selectorChecksum64 r) (replMeta : ReplacementMeta) :
    (trySampled device provider shader resolution origW origH selectorChecksum64 r
      replMeta).Faithful r carried := by
  rw [trySampled]
  split
  next => exact ⟨.refl r, fun hresolved => absurd hresolved Bool.false_ne_true⟩
  next hvalid =>
    rw [Bool.not_eq_true', Bool.not_eq_false] at hvalid
    exact ((h hvalid).faithful _).finalize _ _ _ _ _

theorem ProviderOutcome.Faithful.orElse {first : ProviderOutcome}
    {second : HiresResources → ReplacementMeta → ProviderOutcome} (h : first.Faithful r carried)
    (hsecond : first.resolved = false → ∀ replMeta,
      (second first.resources replMeta).Faithful first.resources carried) :
    (first.orElse second).Faithful r carried := by
  rw [ProviderOutcome.orElse]
  split
  next => exact h
  next hfailed =>
    have hlast := hsecond (Bool.eq_false_iff.mpr hfailed) first.replMeta
    exact ⟨h.keeps.trans hlast.keeps, hlast.holds⟩

theorem ResolutionSpares.faithful
    (h : resolution.available = true → ResolutionSpares carried device provider
      shader resolution formatsize origW origH r) :
    (r.resolveHiresProviderResolutionDescriptor device provider shader resolution
      formatsize origW origH).Faithful r carried := by
  have hfailed : ∀ (replMeta : ReplacementMeta) (selectorChecksum64 : UInt64),
      ProviderOutcome.Faithful
        { resources := r, replMeta := replMeta, selectorChecksum64 := selectorChecksum64 } r
        carried :=
    fun _ _ => ⟨.refl r, fun hresolved => absurd hresolved Bool.false_ne_true⟩
  rw [HiresResources.resolveHiresProviderResolutionDescriptor]
  dsimp only
  split
  next => exact hfailed _ _
  next hguard =>
    simp only [Bool.or_eq_true, Bool.not_eq_true', not_or, Bool.not_eq_false] at hguard
    have hspares := h hguard.2
    unfold ResolutionSpares at hspares
    cases hkind : resolution.kind with
    | none => exact hfailed _ _
    | sampledExactSelector | sampledOrderedSurfaceReservedSelector | sampledFamilySingleton =>
      rw [hkind] at hspares
      exact SampledSpares.faithful hspares _
    | exactNativeSampled | genericNativeIdentity =>
      rw [hkind] at hspares
      dsimp only
      split
      next => exact hfailed _ _
      next hvalid =>
        rw [Bool.not_eq_true', Bool.not_eq_false] at hvalid
        obtain ⟨hsampled, hnative⟩ := hspares hvalid
        exact (hsampled.faithful _).orElse fun hfirst _ =>
          ((hnative hfirst).faithful _).finalize _ _ _ _ _
    | genericNativeChecksum =>
      rw [hkind] at hspares
      exact (HiresResources.LookupSpares.faithful hspares _).finalize _ _ _ _ _
    | genericCompat | ciLow32SelectedDims | ciLow32ReplacementDimsUnique | ciLow32Unique
    | ciLow32Any =>
      rw [hkind] at hspares
      exact (HiresResources.LookupSpares.faithful hspares _).finalize _ _ _ _ _

end Resolution

/-- What the lookups for a tile promise. -/
structure TileResolution.Faithful (found : TileResolution) (r : HiresResources)
    (carried : UInt32 → Prop) : Prop where
  keeps : r.Keeps found.resources carried
  holds : found.hit = true → ∃ key, found.key = some key ∧
    found.resources.Holds key found.replMeta.vkImageIndex

/-- A palettized lookup of a load. -/
structure CILow32Lookup where
  preferredPaletteCrc : UInt32 := 0
  replW : UInt32 := 0
  replH : UInt32 := 0
  mode : CILow32ResolutionMode

/-- The palettized lookups of a load, in order. -/
def ciLow32Lookups (query : SampledFamilyLookupKey) (config : HiresCIConfig) :
    List CILow32Lookup :=
  (config.debugCISelectors.filter fun selector =>
      selector.checksumLow32 == query.sampledLow32 && selector.formatsize == query.formatsize).map
    (fun selector =>
      { replW := selector.replW, replH := selector.replH, mode := .selectedDims }) ++
  (match config.ciCompatibilityMode with
    | .off => []
    | .replacementDimsUnique => [{ mode := .replacementDimsUnique }]) ++
  match config.debugCILow32Fallback with
    | .off => []
    | .unique => [{ mode := .unique }]
    | .replacementDimsUnique => [{ mode := .replacementDimsUnique }]
    | .any => [{ preferredPaletteCrc := query.sampledPaletteCrc, mode := .any }]

section TileResolution

variable (carried) (device : HiresDevice) (p : Provider) (shader : Bool)
variable (query : SampledFamilyLookupKey)

def UploadSpares (origW origH : UInt32) (r : HiresResources) : Prop :=
  ∀ resolution, resolveUploadCandidate p query 0 = some resolution → resolution.available = true →
    ResolutionSpares carried device (some p) shader resolution query.formatsize
      origW origH r

def lookUpCILow32 (acc : TileResolution) (l : CILow32Lookup) : TileResolution :=
  tryCILow32 device p shader query l.preferredPaletteCrc l.replW l.replH l.mode acc

def CILow32Spares (acc : TileResolution) (l : CILow32Lookup) : Prop :=
  ∀ resolution, acc.hit = false → query.sampledFmt = textureFormatCI →
    resolveCILow32Candidate p query.sampledLow32 query.formatsize l.preferredPaletteCrc l.replW
      l.replH l.mode = some resolution → resolution.available = true →
    ResolutionSpares carried device (some p) shader resolution query.formatsize
      query.sampledWidth query.sampledHeight acc.resources

/-- The lookups of a load, each from what the ones before it left behind. -/
structure LoadSpares (config : HiresCIConfig) (r : HiresResources) : Prop where
  upload : UploadSpares carried device p shader query query.sampledWidth
    query.sampledHeight r
  ciLow32 : ∀ first l rest, ciLow32Lookups query config = first ++ l :: rest →
    CILow32Spares carried device p shader query
      (first.foldl (lookUpCILow32 device p shader query)
        (resolveUpload device p shader query query.sampledWidth
          query.sampledHeight r)) l

def SampledExactSpares (selectorChecksum64 : UInt64) (acc : TileResolution)
    (attempt : SampledAttempt) : Prop :=
  ∀ resolution, acc.hit = false →
    (resolveSampledCandidate p attempt.query selectorChecksum64 <|>
      attempt.reserved.bind (resolveReservedOrderedSurfaceCandidate p attempt.query)) =
        some resolution →
    acc.resources.LookupSpares carried device (some p) shader
      (sampledKey attempt.query resolution.resolvedSelectorChecksum64)
      fun p => p.findSampledEntry attempt.query resolution.resolvedSelectorChecksum64

variable {carried device p shader query}
variable {r : HiresResources} {acc : TileResolution}

theorem resolveLoad_eq (config : HiresCIConfig) :
    resolveLoad device p shader query config r =
      (ciLow32Lookups query config).foldl (lookUpCILow32 device p shader query)
        (resolveUpload device p shader query query.sampledWidth
          query.sampledHeight r) := by
  rw [resolveLoad, ciLow32Lookups, List.foldl_append, List.foldl_append, List.foldl_map]
  cases config.ciCompatibilityMode <;> cases config.debugCILow32Fallback <;> rfl

theorem UploadSpares.faithful {origW origH : UInt32}
    (h : UploadSpares carried device p shader query origW origH r) :
    (resolveUpload device p shader query origW origH r).Faithful r carried := by
  rw [resolveUpload]
  split
  next => exact ⟨.refl r, fun hhit => absurd hhit Bool.false_ne_true⟩
  next resolution hresolution =>
    have houtcome := ResolutionSpares.faithful (h resolution hresolution)
    exact ⟨houtcome.keeps, houtcome.holds⟩

theorem TileResolution.Faithful.lookUpCILow32 (h : acc.Faithful r carried) {l : CILow32Lookup}
    (hspares : CILow32Spares carried device p shader query acc l) :
    (lookUpCILow32 device p shader query acc l).Faithful r carried := by
  rw [Hires.lookUpCILow32, tryCILow32]
  split
  next => exact h
  next hmiss =>
    rw [Bool.or_eq_true, not_or, Bool.not_eq_true, bne_iff_ne, not_not] at hmiss
    split
    next => exact h
    next resolution hresolution =>
      have houtcome := ResolutionSpares.faithful
        (hspares resolution hmiss.1 hmiss.2 hresolution)
      have hkeeps := h.keeps.trans houtcome.keeps
      rw [applyCILow32Resolution]
      dsimp only
      split
      next hcompat => exact ⟨hkeeps, fun _ => houtcome.holds (Bool.and_eq_true_iff.mp hcompat).1⟩
      next => exact ⟨hkeeps, fun hhit => absurd hhit (Bool.eq_false_iff.mp hmiss.1)⟩

theorem LoadSpares.faithful {config : HiresCIConfig}
    (h : LoadSpares carried device p shader query config r) :
    (resolveLoad device p shader query config r).Faithful r carried := by
  rw [resolveLoad_eq]
  exact foldl_invariant (TileResolution.Faithful · r carried)
    (CILow32Spares carried device p shader query) h.upload.faithful
    (fun _ _ _ hacc hspares => hacc.lookUpCILow32 hspares) h.ciLow32

theorem TileResolution.Faithful.trySampledExact (h : acc.Faithful r carried)
    {selectorChecksum64 : UInt64} {attempt : SampledAttempt}
    (hspares : SampledExactSpares carried device p shader selectorChecksum64 acc
      attempt) :
    (trySampledExact device p shader selectorChecksum64 acc attempt).Faithful
      r carried := by
  rw [Hires.trySampledExact]
  split
  next => exact h
  next hmiss =>
    split
    next => exact h
    next resolution hresolution =>
      have houtcome := (hspares resolution (Bool.eq_false_iff.mpr hmiss) hresolution).faithful
        { resolution.replMeta with
          origW := attempt.query.sampledWidth
          origH := attempt.query.sampledHeight }
      exact ⟨h.keeps.trans houtcome.keeps, fun hhit => ⟨_, rfl, houtcome.holds hhit⟩⟩

end TileResolution

def TileReplacementMeta.HeldIn (b : TileReplacementMeta) (r : HiresResources) : Prop :=
  b.valid = true → ∃ key, b.key = some key ∧ r.Holds key b.replDescIndex

/-- The bindings of all live tiles and of all queued ones are held. -/
structure HiresTiles.BindingsHeld (s : HiresTiles) : Prop where
  live : ∀ i, (s.tiles i).replacement.HeldIn s.renderer.hiresResources
  queued : ∀ b ∈ s.queued, b.HeldIn s.renderer.hiresResources

def HiresTiles.Carries (s : HiresTiles) (descriptor : UInt32) : Prop :=
  (∃ i, (s.tiles i).replacement.valid = true ∧ (s.tiles i).replacement.replDescIndex = descriptor) ∨
    ∃ b ∈ s.queued, b.valid = true ∧ b.replDescIndex = descriptor

/-- No lookup of an operation comes to evict an image whose descriptor a tile carries at that
moment: a load has cleared its tiles before, and a draw looks up for its tile twice. -/
def TileOp.SparesCarried (s : HiresTiles) : TileOp → Prop
  | .loadTile device tile lookup =>
    ∀ p l, s.provider = some p → lookup = some l →
      let s := s.clearAliases tile
      LoadSpares s.Carries device p s.renderer.hiresReplacementShader l.query s.config
        s.renderer.hiresResources
  | .draw device baseTile compat sampled =>
    (∀ p l, s.provider = some p → compat = some l → (s.replacementTiles baseTile).hit = false →
      UploadSpares s.Carries device p s.renderer.hiresReplacementShader l.query l.compatW l.compatH
        s.renderer.hiresResources) ∧
    ∀ p first attempt rest, s.provider = some p → sampled = first ++ attempt :: rest →
      let s := s.drawCompat device baseTile compat
      SampledExactSpares s.Carries device p s.renderer.hiresReplacementShader
        (s.replacementTiles baseTile).selectorChecksum64
        (s.sampledResolution device p baseTile first) attempt
  | .setTile _ _ | .flushQueues | .beginFrameContext => True

section Tiles

variable {s : HiresTiles}

theorem TileReplacementMeta.heldIn_default (r : HiresResources) :
    ({} : TileReplacementMeta).HeldIn r :=
  fun hvalid => absurd hvalid (by decide)

theorem HiresTiles.BindingsHeld.withResources (h : s.BindingsHeld) {r : HiresResources}
    (hkeeps : s.renderer.hiresResources.Keeps r s.Carries) : (s.withResources r).BindingsHeld where
  live i hvalid := by
    obtain ⟨key, hkey, hholds⟩ := h.live i hvalid
    exact ⟨key, hkey, hkeeps key _ (Or.inl ⟨i, hvalid, rfl⟩) hholds⟩
  queued b hb hvalid := by
    obtain ⟨key, hkey, hholds⟩ := h.queued b hb hvalid
    exact ⟨key, hkey, hkeeps key _ (Or.inr ⟨b, hb, hvalid, rfl⟩) hholds⟩

theorem HiresTiles.BindingsHeld.clearAliases (h : s.BindingsHeld) (tile : Fin 8) :
    (s.clearAliases tile).BindingsHeld where
  live i := by
    dsimp only [HiresTiles.clearAliases]
    split
    next => exact TileReplacementMeta.heldIn_default _
    next => exact h.live i
  queued := h.queued

variable {state : ReplacementTileState} {device : HiresDevice}

theorem hiresTileBinding_heldIn {r : HiresResources}
    (h : state.hit = true → ∃ key, state.key = some key ∧ r.Holds key state.vkImageIndex) :
    (hiresTileBinding state).HeldIn r := by
  rw [hiresTileBinding]
  split
  next => exact TileReplacementMeta.heldIn_default r
  next hbound =>
    simp only [Bool.or_eq_true, not_or, Bool.not_eq_true', Bool.not_eq_false] at hbound
    exact fun _ => h hbound.1.1.1.1.1

theorem HiresTiles.BindingsHeld.applyTo (h : s.BindingsHeld)
    (hstate : state.hit = true → ∃ key, state.key = some key ∧
      s.renderer.hiresResources.Holds key state.vkImageIndex) (tile : Fin 8) :
    (s.applyTo state tile).BindingsHeld where
  live i := by
    by_cases hsame : i = tile
    · subst hsame
      simp only [HiresTiles.applyTo, Function.update_self]
      exact hiresTileBinding_heldIn hstate
    · simp only [HiresTiles.applyTo, Function.update_of_ne hsame]
      exact h.live i
  queued := h.queued

theorem HiresTiles.BindingsHeld.propagate (h : s.BindingsHeld)
    (hstate : state.hit = true → ∃ key, state.key = some key ∧
      s.renderer.hiresResources.Holds key state.vkImageIndex) (tile : Fin 8) :
    (s.propagate state tile).BindingsHeld := by
  have hfold : ∀ (l : List (Fin 8)) (t : HiresTiles), t.BindingsHeld →
      t.renderer.hiresResources = s.renderer.hiresResources →
        (l.foldl (fun t i =>
          if i != tile &&
            shouldApplyHiresPropagatedBinding (s.tiles tile).tileMeta (s.tiles i).tileMeta
          then t.applyTo state i else t) t).BindingsHeld := by
    intro l
    induction l with
    | nil => exact fun _ ht _ => ht
    | cons i l ih =>
      intro t ht hsame
      rw [List.foldl_cons]
      split
      next => exact ih _ (ht.applyTo (hsame.symm ▸ hstate) i) hsame
      next => exact ih t ht hsame
  exact hfold _ _ (h.applyTo hstate tile) rfl

theorem HiresTiles.BindingsHeld.loadTile (h : s.BindingsHeld) {tile : Fin 8}
    {lookup : Option UploadLookup}
    (hspares : TileOp.SparesCarried s (.loadTile device tile lookup)) :
    (s.loadTile device tile lookup).BindingsHeld := by
  have hcleared := h.clearAliases tile
  unfold HiresTiles.loadTile
  dsimp only
  split
  next p l hprovider =>
    have hfaithful := (hspares p l hprovider rfl).faithful
    refine (hcleared.withResources hfaithful.keeps).propagate (fun hhit => ?_) tile
    exact hfaithful.holds (Bool.and_eq_true_iff.mp hhit).1
  next => exact hcleared

theorem HiresTiles.BindingsHeld.drawCompat (h : s.BindingsHeld) {baseTile : Fin 8}
    {lookup : Option CompatLookup} (hspares : ∀ p l, s.provider = some p → lookup = some l →
      (s.replacementTiles baseTile).hit = false →
        UploadSpares s.Carries device p s.renderer.hiresReplacementShader l.query l.compatW
          l.compatH s.renderer.hiresResources) :
    (s.drawCompat device baseTile lookup).BindingsHeld := by
  unfold HiresTiles.drawCompat
  split
  next p l hprovider =>
    split
    next => exact h
    next hmiss =>
      have hfaithful := (hspares p l hprovider rfl (Bool.eq_false_iff.mpr hmiss)).faithful
      have hheld := h.withResources hfaithful.keeps
      dsimp only
      split
      next hhit => exact hheld.applyTo (fun _ => hfaithful.holds hhit) baseTile
      next => exact hheld
  next => exact h

theorem HiresTiles.BindingsHeld.drawSampled (h : s.BindingsHeld) {baseTile : Fin 8}
    {attempts : List SampledAttempt} (hspares : ∀ p first attempt rest, s.provider = some p →
      attempts = first ++ attempt :: rest →
        SampledExactSpares s.Carries device p s.renderer.hiresReplacementShader
          (s.replacementTiles baseTile).selectorChecksum64
          (s.sampledResolution device p baseTile first) attempt) :
    (s.drawSampled device baseTile attempts).BindingsHeld := by
  unfold HiresTiles.drawSampled
  split
  next p attempt rest hprovider =>
    have hfaithful : (s.sampledResolution device p baseTile (attempt :: rest)).Faithful
        s.renderer.hiresResources s.Carries :=
      foldl_invariant (TileResolution.Faithful · s.renderer.hiresResources s.Carries)
        (SampledExactSpares s.Carries device p s.renderer.hiresReplacementShader _)
        ⟨.refl _, fun hhit => absurd hhit Bool.false_ne_true⟩
        (fun _ _ _ hacc hspares => hacc.trySampledExact hspares)
        fun first attempt' rest' hsplit => hspares p first attempt' rest' hprovider hsplit
    have hheld := h.withResources hfaithful.keeps
    dsimp only
    split
    next hhit => exact hheld.applyTo (fun _ => hfaithful.holds hhit) baseTile
    next => exact hheld
  next => exact h

theorem HiresTiles.BindingsHeld.queueTiles (h : s.BindingsHeld) : s.queueTiles.BindingsHeld where
  live := h.live
  queued b hb := by
    obtain hold | hnew := List.mem_append.mp hb
    · exact h.queued b hold
    · obtain ⟨i, -, rfl⟩ := List.mem_map.mp hnew
      exact h.live i

theorem HiresTiles.provider_drawCompat (s : HiresTiles) (device : HiresDevice) (baseTile : Fin 8)
    (lookup : Option CompatLookup) : (s.drawCompat device baseTile lookup).provider = s.provider := by
  unfold HiresTiles.drawCompat
  split
  next =>
    split
    next => rfl
    next =>
      dsimp only
      split
      next => rfl
      next => rfl
  next => rfl

theorem TileOp.apply_bindingsHeld (h : s.BindingsHeld) {op : TileOp} (hspares : op.SparesCarried s) :
    (op.apply s).BindingsHeld := by
  cases op with
  | setTile tile tileMeta =>
    refine ⟨fun i => ?_, h.queued⟩
    by_cases hsame : i = tile
    · subst hsame
      simp only [TileOp.apply, Function.update_self]
      exact h.live i
    · simp only [TileOp.apply, Function.update_of_ne hsame]
      exact h.live i
  | loadTile device tile lookup => exact h.loadTile hspares
  | draw device baseTile compat sampled =>
    refine ((h.drawCompat hspares.1).drawSampled fun p first attempt rest hprovider => ?_).queueTiles
    rw [HiresTiles.provider_drawCompat] at hprovider
    exact hspares.2 p first attempt rest hprovider
  | flushQueues => exact ⟨h.live, List.forall_mem_nil _⟩
  | beginFrameContext => exact ⟨h.live, h.queued⟩

end Tiles

def HiresTiles.start (before : List HiresOp) (config : HiresCIConfig) : HiresTiles where
  renderer := HiresRenderer.run {} before
  config := config

/-- All along a run whose lookups come to evict no image that a tile carries, every binding that the
shader samples is held by the image that was resolved for it. -/
theorem HiresTiles.run_bindingsHeld (before : List HiresOp) (config : HiresCIConfig)
    (ops : List TileOp)
    (hspares : ∀ first op rest, ops = first ++ op :: rest →
      op.SparesCarried ((HiresTiles.start before config).run first)) :
    ∀ first rest, ops = first ++ rest →
      ((HiresTiles.start before config).run first).BindingsHeld := by
  have hstart : (HiresTiles.start before config).BindingsHeld :=
    ⟨fun _ => TileReplacementMeta.heldIn_default _, List.forall_mem_nil _⟩
  intro first rest hops
  exact foldl_prefix_invariant HiresTiles.BindingsHeld
    (fun s op => TileOp.SparesCarried s op) hstart
    (fun _ _ _ h hspare => TileOp.apply_bindingsHeld h hspare) hspares hops

def onePixelBudget : List HiresOp :=
  startOps (providing [inlineEntry 1 1 1 [1, 2, 3, 4], inlineEntry 2 1 1 [5, 6, 7, 8]]) ++
    [.setHiresGpuBudgetBytes 4]

def loadOp (tile : Fin 8) (textureCrc : UInt32) : TileOp :=
  .loadTile (.always true) tile
    (some { query := { sampledWidth := 1, sampledHeight := 1, sampledLow32 := textureCrc } })

theorem resolutionSpares_of_uncarried (h : ∀ d, ¬carried d) (device : HiresDevice)
    (provider : Option Provider) (shader : Bool)
    (resolution : ReplacementResolution) (formatsize : UInt16) (origW origH : UInt32)
    (r : HiresResources) : ResolutionSpares carried device provider shader
      resolution formatsize origW origH r := by
  have hspares {r : HiresResources} {key : HiresKey} {find : Provider → Option Entry} :
      r.LookupSpares carried device provider shader key find :=
    fun _ _ _ _ _ _ _ _ _ _ image _ => h image.2.descriptorIndex
  rw [ResolutionSpares]
  cases resolution.kind with
  | none => trivial
  | sampledExactSelector | sampledOrderedSurfaceReservedSelector | sampledFamilySingleton =>
    exact fun _ => hspares
  | exactNativeSampled | genericNativeIdentity => exact fun _ => ⟨fun _ => hspares, fun _ => hspares⟩
  | _ => exact hspares

theorem loadOp_spares {s : HiresTiles} {tile : Fin 8}
    (htiles : ∀ i, ((s.clearAliases tile).tiles i).replacement.valid = false)
    (hqueued : s.queued = []) (textureCrc : UInt32) : (loadOp tile textureCrc).SparesCarried s := by
  have hfree (d : UInt32) : ¬(s.clearAliases tile).Carries d := by
    rintro (⟨i, hvalid, -⟩ | ⟨b, hb, -⟩)
    · exact Bool.noConfusion ((htiles i).symm.trans hvalid)
    · exact List.not_mem_nil (hqueued ▸ hb)
  exact fun p l _ _ => ⟨fun _ _ _ => resolutionSpares_of_uncarried hfree .., fun _ _ _ _ _ _ _ _ _ =>
    resolutionSpares_of_uncarried hfree ..⟩

theorem draw_spares (s : HiresTiles) (device : HiresDevice) (baseTile : Fin 8) :
    (TileOp.draw device baseTile none []).SparesCarried s :=
  ⟨nofun, fun _ _ _ _ _ h =>
    absurd h.symm (List.append_ne_nil_of_right_ne_nil _ (List.cons_ne_nil _ _))⟩

/-- Two textures are loaded to one tile and drawn, with a flush in between. -/
def reloadOps (tile : Fin 8) : List TileOp :=
  [loadOp tile 1, .draw (.always true) tile none [], .flushQueues, loadOp tile 2,
    .draw (.always true) tile none []]

/-- The second load evicts the first image, which no tile carries any more. -/
theorem run_reload_bindingsHeld :
    let s := (HiresTiles.start onePixelBudget {}).run (reloadOps 0)
    s.BindingsHeld ∧ (s.tiles 0).replacement.valid = true ∧ s.queued.length = 8 ∧
      s.renderer.hiresResources.residentImages.lookup (compatKey 1 0 0) = none := by
  refine ⟨HiresTiles.run_bindingsHeld onePixelBudget {} (reloadOps 0) ?_ (reloadOps 0) []
    (List.append_nil _).symm, by decide, by decide, by decide⟩
  have hall : AllAlong TileOp.apply (fun s op => op.SparesCarried s)
      (HiresTiles.start onePixelBudget {}) (reloadOps 0) :=
    ⟨loadOp_spares (by decide) rfl 1, draw_spares _ _ 0, trivial,
      loadOp_spares (by decide) rfl 2, draw_spares _ _ 0, trivial⟩
  exact fun first op rest hops => hall.at hops

/-- A texture that is loaded to another tile evicts the image of a tile that was drawn: its
binding, live and queued, carries a descriptor that the other image holds now. -/
theorem not_run_bindingsHeld :
    ¬((HiresTiles.start onePixelBudget {}).run
      [.setTile 1 { offset := 0x100 }, loadOp 0 1, .draw (.always true) 0 none [], loadOp 1 2,
        .draw (.always true) 0 none []]).BindingsHeld := by
  intro h
  obtain ⟨key, hkey, image, hlookup, -⟩ := h.live 0 (by decide)
  obtain rfl : compatKey 1 0 0 = key := Option.some.inj (hkey.symm.trans (by decide)).symm
  have hevicted := Option.isSome_of_eq_some hlookup
  exact absurd hevicted (by decide)

end ParallelN64.Hires
