import Mathlib.Data.Fin.Basic
import Mathlib.Logic.Function.Basic
import ParallelN64.Hires.Accounting

/-!
# Replacement bindings of the tiles

A texture load clears the bindings of the tiles at its memory offset, resolves a replacement and
binds its descriptor to these tiles. A draw may resolve once more for its own tile and then queues
the state of all eight tiles for the pending batch. The bindings stay with the images they were
resolved to as long as no eviction takes the descriptor of a tile that is live or queued.
-/

namespace ParallelN64.Hires

open ParallelN64.Core Replacement Phrb

def resolveSampledCandidate (p : Provider) (query : SampledFamilyLookupKey)
    (selectorChecksum64 : UInt64) : Option ReplacementResolution :=
  if !p.enabled then none
  else match p.findSampledEntry query selectorChecksum64 with
  | some entry => some (populateResolutionFromEntry entry .sampledExactSelector false)
  | none =>
    (p.findSingletonSampledFamilyEntry query true).map fun (entry, _, orderedSurfaceSingleton) =>
      populateResolutionFromEntry entry .sampledFamilySingleton orderedSurfaceSingleton

def resolveReservedOrderedSurfaceCandidate (p : Provider) (query : SampledFamilyLookupKey)
    (orderedSurfaceSelectorChecksum64 : UInt64) : Option ReplacementResolution :=
  if !p.enabled || !isOrderedSurfaceSelector orderedSurfaceSelectorChecksum64 then none
  else (p.findSampledEntry query orderedSurfaceSelectorChecksum64).map fun entry =>
    populateResolutionFromEntry entry .sampledOrderedSurfaceReservedSelector false

/-- A replacement chosen by its dimensions for a palettized texture. -/
structure CILow32DimsSelector where
  checksumLow32 : UInt32
  formatsize : UInt16
  replW : UInt32
  replH : UInt32
  deriving DecidableEq, Repr

inductive HiresCICompatibilityMode where
  | off
  | replacementDimsUnique
  deriving DecidableEq, Repr

inductive HiresDebugCILow32FallbackMode where
  | off
  | unique
  | any
  | replacementDimsUnique
  deriving DecidableEq, Repr

/-- The settings of the fallbacks for palettized textures. -/
structure HiresCIConfig where
  debugCISelectors : List CILow32DimsSelector := []
  ciCompatibilityMode : HiresCICompatibilityMode := .off
  debugCILow32Fallback : HiresDebugCILow32FallbackMode := .off
  deriving DecidableEq, Repr

def textureFormatCI : UInt32 := 2

/-- What the lookups for one tile have come to so far, with the key of the image that was
resolved. -/
structure TileResolution where
  resources : HiresResources
  hit : Bool := false
  replMeta : ReplacementMeta := {}
  resolvedChecksum64 : UInt64 := 0
  resolvedSelectorChecksum64 : UInt64 := 0
  key : Option HiresKey := none

section Upload

variable (device : HiresDevice) (p : Provider) (hiresReplacementShader : Bool)
variable (query : SampledFamilyLookupKey)

/-- The first lookup of an upload; the selector of an upload is zero. -/
def resolveUpload (origW origH : UInt32) (r : HiresResources) : TileResolution :=
  match resolveUploadCandidate p query 0 with
  | none =>
    { resources := r
      resolvedChecksum64 := composeHiresChecksum64 query.sampledLow32 query.sampledPaletteCrc }
  | some resolution =>
    let outcome := r.resolveHiresProviderResolutionDescriptor device (some p)
      hiresReplacementShader resolution query.formatsize origW origH
    { resources := outcome.resources
      hit := outcome.resolved
      replMeta := outcome.replMeta
      resolvedChecksum64 := resolution.resolvedChecksum64
      resolvedSelectorChecksum64 := outcome.selectorChecksum64
      key := outcome.key }

/-- Only the compat path counts for a palettized fallback. -/
def applyCILow32Resolution (acc : TileResolution) (resolution : ReplacementResolution) :
    TileResolution :=
  let outcome := acc.resources.resolveHiresProviderResolutionDescriptor device (some p)
    hiresReplacementShader resolution query.formatsize query.sampledWidth query.sampledHeight
  let acc := { acc with
    resources := outcome.resources
    resolvedSelectorChecksum64 := outcome.selectorChecksum64 }
  if outcome.resolved && outcome.pathKind == .compat then
    { acc with
      hit := true
      replMeta := outcome.replMeta
      resolvedChecksum64 := resolution.resolvedChecksum64
      key := outcome.key }
  else acc

/-- A palettized lookup is tried while nothing was found. -/
def tryCILow32 (preferredPaletteCrc replW replH : UInt32) (mode : CILow32ResolutionMode)
    (acc : TileResolution) : TileResolution :=
  if acc.hit || query.sampledFmt != textureFormatCI then acc
  else match resolveCILow32Candidate p query.sampledLow32 query.formatsize preferredPaletteCrc
      replW replH mode with
  | none => acc
  | some resolution =>
    applyCILow32Resolution device p hiresReplacementShader query acc resolution

/-- The lookups of a texture load: the upload lookup, the selected dimensions, and then the
palettized fallbacks. -/
def resolveLoad (config : HiresCIConfig) (r : HiresResources) : TileResolution :=
  let tryLow32 := tryCILow32 device p hiresReplacementShader query
  let acc := resolveUpload device p hiresReplacementShader query query.sampledWidth
    query.sampledHeight r
  let selectors := config.debugCISelectors.filter fun selector =>
    selector.checksumLow32 == query.sampledLow32 && selector.formatsize == query.formatsize
  let acc := selectors.foldl
    (fun acc selector => tryLow32 0 selector.replW selector.replH .selectedDims acc) acc
  let acc := match config.ciCompatibilityMode with
    | .off => acc
    | .replacementDimsUnique => tryLow32 0 0 0 .replacementDimsUnique acc
  match config.debugCILow32Fallback with
  | .off => acc
  | .unique => tryLow32 0 0 0 .unique acc
  | .replacementDimsUnique => tryLow32 0 0 0 .replacementDimsUnique acc
  | .any => tryLow32 query.sampledPaletteCrc 0 0 .any acc

end Upload

/-- An exact lookup of a sampled object under one palette, with the ordered-surface selector
that would be reserved for it. -/
structure SampledAttempt where
  query : SampledFamilyLookupKey
  reserved : Option UInt64 := none
  deriving DecidableEq, Repr

/-- A sampled object is looked up while nothing was found. -/
def trySampledExact (device : HiresDevice) (p : Provider) (hiresReplacementShader : Bool)
    (selectorChecksum64 : UInt64) (acc : TileResolution) (attempt : SampledAttempt) :
    TileResolution :=
  if acc.hit then acc
  else match resolveSampledCandidate p attempt.query selectorChecksum64 <|>
      attempt.reserved.bind (resolveReservedOrderedSurfaceCandidate p attempt.query) with
  | none => acc
  | some resolution =>
    let outcome := acc.resources.resolveHiresSampledReplacementDescriptor device (some p)
      hiresReplacementShader attempt.query resolution.resolvedSelectorChecksum64
      { resolution.replMeta with
        origW := attempt.query.sampledWidth
        origH := attempt.query.sampledHeight }
    { resources := outcome.resources
      hit := outcome.resolved
      replMeta := outcome.replMeta
      resolvedChecksum64 := resolution.resolvedChecksum64
      resolvedSelectorChecksum64 := resolution.resolvedSelectorChecksum64
      key := some (sampledKey attempt.query resolution.resolvedSelectorChecksum64) }

structure TileMeta where
  offset : UInt32 := 0
  stride : UInt32 := 0
  fmt : UInt8 := 0
  size : UInt8 := 2
  palette : UInt8 := 0
  deriving DecidableEq, Repr

/-- The replacement binding of a tile, with the key of the image that was resolved for it. -/
structure TileReplacementMeta where
  replOrigW : UInt16 := 0
  replOrigH : UInt16 := 0
  replW : UInt16 := 0
  replH : UInt16 := 0
  replDescIndex : UInt32 := hiresInvalidDescriptorIndex
  key : Option HiresKey := none
  deriving DecidableEq, Repr

def TileReplacementMeta.valid (b : TileReplacementMeta) : Bool :=
  b.replDescIndex != hiresInvalidDescriptorIndex && b.replOrigW != 0 && b.replOrigH != 0 &&
    b.replW != 0 && b.replH != 0

structure TileInfo where
  tileMeta : TileMeta := {}
  replacement : TileReplacementMeta := {}
  deriving DecidableEq, Repr

/-- The outcome of the last lookup for a tile. -/
structure ReplacementTileState where
  checksum64 : UInt64 := 0
  uploadChecksum64 : UInt64 := 0
  selectorChecksum64 : UInt64 := 0
  formatsize : UInt16 := 0
  origW : UInt16 := 0
  origH : UInt16 := 0
  replW : UInt16 := 0
  replH : UInt16 := 0
  vkImageIndex : UInt32 := hiresInvalidDescriptorIndex
  valid : Bool := false
  hit : Bool := false
  key : Option HiresKey := none
  deriving DecidableEq, Repr

def shouldAliasHiresTileBinding (source target : TileMeta) : Bool :=
  source.offset == target.offset && source.stride == target.stride && source.fmt == target.fmt &&
    source.size == target.size && source.palette == target.palette

def shouldAliasHiresLoadBinding (source target : TileMeta) : Bool := source.offset == target.offset

def shouldApplyHiresPropagatedBinding (source target : TileMeta) : Bool :=
  shouldAliasHiresTileBinding source target || shouldAliasHiresLoadBinding source target

def clampHiresDimensionU16 (dim : UInt32) : UInt16 := (if dim < 0xffff then dim else 0xffff).toUInt16

def writeHiresLookupTileState (hit : Bool)
    (checksum64 uploadChecksum64 selectorChecksum64 : UInt64) (formatsize : UInt16)
    (origW origH : UInt32) (found : TileResolution) : ReplacementTileState where
  checksum64 := checksum64
  uploadChecksum64 := uploadChecksum64
  selectorChecksum64 := selectorChecksum64
  formatsize := formatsize
  origW := clampHiresDimensionU16 origW
  origH := clampHiresDimensionU16 origH
  replW := found.replMeta.replW.toUInt16
  replH := found.replMeta.replH.toUInt16
  vkImageIndex := found.replMeta.vkImageIndex
  valid := true
  hit := hit
  key := found.key

/-- The binding of a lookup outcome; a miss or an unusable image clears it. -/
def hiresTileBinding (state : ReplacementTileState) : TileReplacementMeta :=
  if !state.hit || state.vkImageIndex == hiresInvalidDescriptorIndex || state.origW == 0 ||
      state.origH == 0 || state.replW == 0 || state.replH == 0 then {}
  else
    { replOrigW := state.origW
      replOrigH := state.origH
      replW := state.replW
      replH := state.replH
      replDescIndex := state.vkImageIndex
      key := state.key }

/-- A texture load that looks a replacement up; a filter may drop what was found. -/
structure UploadLookup where
  query : SampledFamilyLookupKey
  filtered : Bool := false
  deriving DecidableEq, Repr

/-- The lookup of a draw by the checksum of its tile in memory. -/
structure CompatLookup where
  query : SampledFamilyLookupKey
  compatW : UInt32
  compatH : UInt32
  deriving DecidableEq, Repr

/-- The renderer with its tiles and the replacements queued for the pending batch. -/
structure HiresTiles where
  renderer : HiresRenderer
  config : HiresCIConfig := {}
  tiles : Fin 8 → TileInfo := fun _ => {}
  replacementTiles : Fin 8 → ReplacementTileState := fun _ => {}
  queued : List TileReplacementMeta := []

section Tiles

variable (s : HiresTiles)

def HiresTiles.provider : Option Provider := s.renderer.replacementProvider.map Prod.snd

def HiresTiles.withResources (r : HiresResources) : HiresTiles :=
  { s with renderer := { s.renderer with hiresResources := r } }

/-- Clear the tiles at the memory offset of a tile. -/
def HiresTiles.clearAliases (tile : Fin 8) : HiresTiles :=
  let aliased i := shouldAliasHiresLoadBinding (s.tiles tile).tileMeta (s.tiles i).tileMeta
  { s with
    tiles := fun i => if aliased i then { s.tiles i with replacement := {} } else s.tiles i
    replacementTiles := fun i => if aliased i then {} else s.replacementTiles i }

/-- Give a lookup outcome to a tile. -/
def HiresTiles.applyTo (state : ReplacementTileState) (tile : Fin 8) : HiresTiles :=
  { s with
    tiles := Function.update s.tiles tile
      { s.tiles tile with replacement := hiresTileBinding state }
    replacementTiles := Function.update s.replacementTiles tile state }

/-- Give a lookup outcome to a tile and to the tiles that share its memory offset. -/
def HiresTiles.propagate (state : ReplacementTileState) (tile : Fin 8) : HiresTiles :=
  (List.finRange 8).foldl (fun t i =>
    if i != tile && shouldApplyHiresPropagatedBinding (s.tiles tile).tileMeta (s.tiles i).tileMeta
    then t.applyTo state i else t) (s.applyTo state tile)

def HiresTiles.loadResolution (device : HiresDevice) (p : Provider)
    (query : SampledFamilyLookupKey) : TileResolution :=
  resolveLoad device p s.renderer.hiresReplacementShader query s.config s.renderer.hiresResources

/-- A texture load: it clears the aliased tiles, and with a lookup it binds the outcome. -/
def HiresTiles.loadTile (device : HiresDevice) (tile : Fin 8) (lookup : Option UploadLookup) :
    HiresTiles :=
  let s := s.clearAliases tile
  match s.provider, lookup with
  | some p, some lookup =>
    let query := lookup.query
    let found := s.loadResolution device p query
    let state := writeHiresLookupTileState (found.hit && !lookup.filtered)
      found.resolvedChecksum64
      (composeHiresChecksum64 query.sampledLow32 query.sampledPaletteCrc)
      found.resolvedSelectorChecksum64 query.formatsize query.sampledWidth query.sampledHeight
      found
    (s.withResources found.resources).propagate state tile
  | _, _ => s

def HiresTiles.compatResolution (device : HiresDevice) (p : Provider) (lookup : CompatLookup) :
    TileResolution :=
  resolveUpload device p s.renderer.hiresReplacementShader lookup.query lookup.compatW
    lookup.compatH s.renderer.hiresResources

/-- The memory lookup of a draw, for a tile whose upload missed. -/
def HiresTiles.drawCompat (device : HiresDevice) (baseTile : Fin 8)
    (lookup : Option CompatLookup) : HiresTiles :=
  match s.provider, lookup with
  | some p, some lookup =>
    if (s.replacementTiles baseTile).hit then s
    else
      let query := lookup.query
      let found := s.compatResolution device p lookup
      let s := s.withResources found.resources
      if found.hit then
        let checksum64 := composeHiresChecksum64 query.sampledLow32 query.sampledPaletteCrc
        s.applyTo (writeHiresLookupTileState true checksum64 checksum64 0 query.formatsize
          lookup.compatW lookup.compatH found) baseTile
      else s
  | _, _ => s

def HiresTiles.sampledResolution (device : HiresDevice) (p : Provider) (baseTile : Fin 8)
    (attempts : List SampledAttempt) : TileResolution :=
  attempts.foldl (trySampledExact device p s.renderer.hiresReplacementShader
    (s.replacementTiles baseTile).selectorChecksum64) { resources := s.renderer.hiresResources }

/-- The sampled lookups of a draw; the format size and the dimensions are those of the object. -/
def HiresTiles.drawSampled (device : HiresDevice) (baseTile : Fin 8)
    (attempts : List SampledAttempt) : HiresTiles :=
  match s.provider, attempts with
  | some p, attempt :: _ =>
    let texel0 := s.replacementTiles baseTile
    let found := s.sampledResolution device p baseTile attempts
    let s := s.withResources found.resources
    if found.hit then
      s.applyTo (writeHiresLookupTileState true found.resolvedChecksum64
        (if texel0.uploadChecksum64 ≠ 0 then texel0.uploadChecksum64 else texel0.checksum64)
        found.resolvedSelectorChecksum64 attempt.query.formatsize attempt.query.sampledWidth
        attempt.query.sampledHeight found) baseTile
    else s
  | _, _ => s

def HiresTiles.queueTiles : HiresTiles :=
  { s with queued := s.queued ++ (List.finRange 8).map fun i => (s.tiles i).replacement }

end Tiles

/-- What happens to the tiles; where a flush comes is left open. -/
inductive TileOp where
  | setTile (tile : Fin 8) (tileMeta : TileMeta)
  | loadTile (device : HiresDevice) (tile : Fin 8) (lookup : Option UploadLookup)
  | draw (device : HiresDevice) (baseTile : Fin 8) (compat : Option CompatLookup)
      (sampled : List SampledAttempt)
  | flushQueues
  | beginFrameContext

def TileOp.apply (s : HiresTiles) : TileOp → HiresTiles
  | .setTile tile tileMeta =>
    { s with tiles := Function.update s.tiles tile { s.tiles tile with tileMeta := tileMeta } }
  | .loadTile device tile lookup => s.loadTile device tile lookup
  | .draw device baseTile compat sampled =>
    ((s.drawCompat device baseTile compat).drawSampled device baseTile sampled).queueTiles
  | .flushQueues => { s with queued := [] }
  | .beginFrameContext => { s with renderer := s.renderer.beginFrameContext }

def HiresTiles.run (s : HiresTiles) (ops : List TileOp) : HiresTiles := ops.foldl TileOp.apply s

end ParallelN64.Hires
