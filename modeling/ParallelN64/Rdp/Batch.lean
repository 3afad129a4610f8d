import Mathlib.Data.UInt
import Mathlib.Data.List.OfFn
import ParallelN64.Rdp.Caches

/-!
# Batches of primitives

A renderer gathers primitives in a batch and submits the batch when the next primitive might not
fit, when a texture is loaded from a framebuffer that the batch draws to, when the framebuffer
changes, or when it is told to. A primitive leaves its setup in stream caches, the indices of its
states in state caches, and one span job for every 64 lines that it covers.
-/

namespace ParallelN64.Rdp

namespace Limits

abbrev maxPrimitives : Nat := 256

abbrev maxStaticRasterizationStates : Nat := 64

abbrev maxDepthBlendStates : Nat := 64

abbrev maxTileInfoStates : Nat := 256

abbrev maxNumTiles : Nat := 8

abbrev maxTMEMInstances : Nat := 256

abbrev maxSpanSetups : Nat := 32 * 1024

abbrev maxHeight : Nat := 1024

end Limits

abbrev defaultWorkgroupSize : Nat := 64

/-- A scissor rectangle in quarter pixels, as a command of two words sets it. -/
structure ScissorState where
  xlo : Fin 4096 := 0
  ylo : Fin 4096 := 0
  xhi : Fin 4096 := 0
  yhi : Fin 4096 := 0

def low12 (word : UInt32) : Fin 4096 := Fin.ofNat 4096 (word &&& 0xfff).toNat

/-- The rectangle that the words of a command describe. -/
def applySetScissorWords (word0 word1 : UInt32) : ScissorState where
  xlo := low12 (word0 >>> 12)
  xhi := low12 (word1 >>> 12)
  ylo := low12 word0
  yhi := low12 word1

/-- The edges of a primitive. -/
structure TriangleSetup where
  xh : Int32 := 0
  xm : Int32 := 0
  xl : Int32 := 0
  yh : Int16 := 0
  ym : Int16 := 0
  dxhdy : Int32 := 0
  dxmdy : Int32 := 0
  dxldy : Int32 := 0
  yl : Int16 := 0
  flags : UInt8 := 0
  tile : UInt8 := 0

/-- The records of a batch that are only stored, and the functions of the draw path that compute
them from the registers. -/
structure DrawRecords where
  AttributeSetup : Type
  DerivedSetup : Type
  StaticRasterizationState : Type
  DepthBlendState : Type
  TileInfo : Type
  UploadInfo : Type
  Constants : Type
  decStatic : DecidableEq StaticRasterizationState
  decDepth : DecidableEq DepthBlendState
  decTile : DecidableEq TileInfo
  /-- Attributes with the depth that a primitive takes from a register. -/
  primDepthAttributes : Constants → AttributeSetup → AttributeSetup
  buildDerivedAttributes : Constants → StaticRasterizationState → AttributeSetup → DerivedSetup
  staticFlags : StaticRasterizationState → UInt32
  /-- What is deduced from the tile of a primitive about its textures and its noise. -/
  deduceStaticState : UInt8 → (Fin Limits.maxNumTiles → TileInfo) → StaticRasterizationState →
    StaticRasterizationState
  normalizeStaticState : StaticRasterizationState → StaticRasterizationState
  /-- Whether a state updates the depth buffer. -/
  depthUpdate : DepthBlendState → Bool
  computeConservativeMaxNumTiles : TriangleSetup → ScissorState → UInt32

attribute [instance] DrawRecords.decStatic DrawRecords.decDepth DrawRecords.decTile

/-- Where the spans of a primitive start and which lines it covers. -/
structure SpanInfoOffsets where
  offset : Int := 0
  ylo : Int := 0
  yhi : Int := 0

/-- Interpolation of the spans of up to 64 lines. -/
structure SpanInterpolationJob where
  primitiveIndex : UInt16
  baseY : UInt16
  maxY : UInt16

/-- Indices of the states of a primitive. -/
structure InstanceIndices where
  staticIndex : UInt8
  depthBlendIndex : UInt8
  tileInstanceIndex : UInt8
  tileIndices : List UInt8

/-- Pixel formats of a color framebuffer. -/
inductive FBFormat
  | I4
  | I8
  | RGBA5551
  | IA88
  | RGBA8888
  deriving DecidableEq

/-- The framebuffers, and what the batch has drawn to them. -/
structure Framebuffer where
  addr : UInt32 := 0
  depthAddr : UInt32 := 0
  width : UInt32 := 0
  deducedHeight : UInt32 := 0
  fmt : FBFormat := .I8
  depthWritePending : Bool := false
  colorWritePending : Bool := false

/-- Limits of the device. -/
structure RendererCaps where
  ubershader : Bool := false
  maxTilesX : UInt32 := 0
  maxTilesY : UInt32 := 0
  maxNumTileInstances : UInt32 := 0

/-- The current states and what the primitives of the batch have added. -/
structure StreamCaches (R : DrawRecords) where
  scissorState : ScissorState := {}
  staticRasterState : R.StaticRasterizationState
  depthBlendState : R.DepthBlendState
  staticRasterStateCache :
    StateCache R.StaticRasterizationState Limits.maxStaticRasterizationStates := {}
  depthBlendStateCache : StateCache R.DepthBlendState Limits.maxDepthBlendStates := {}
  tileInfoStateCache : StateCache R.TileInfo Limits.maxTileInfoStates := {}
  triangleSetup : StreamCache TriangleSetup Limits.maxPrimitives := {}
  scissorSetup : StreamCache ScissorState Limits.maxPrimitives := {}
  attributeSetup : StreamCache R.AttributeSetup Limits.maxPrimitives := {}
  derivedSetup : StreamCache R.DerivedSetup Limits.maxPrimitives := {}
  stateIndices : StreamCache InstanceIndices Limits.maxPrimitives := {}
  spanInfoOffsets : StreamCache SpanInfoOffsets Limits.maxPrimitives := {}
  spanInfoJobs : StreamCache SpanInterpolationJob Limits.maxSpanSetups := {}
  tmemUploadInfos : List R.UploadInfo := []
  maxShadedTiles : UInt32 := 0

/-- What was current at a primitive. -/
structure Primitive (R : DrawRecords) where
  setup : TriangleSetup
  scissorState : ScissorState
  staticRasterState : R.StaticRasterizationState
  depthBlendState : R.DepthBlendState
  tiles : Fin Limits.maxNumTiles → R.TileInfo
  tmemUploadInfos : List R.UploadInfo

/-- A batch and the primitives it was made of. -/
structure Batch (R : DrawRecords) where
  stream : StreamCaches R
  primitives : List (Primitive R)

/-- A renderer; the last two fields are ghosts. -/
structure Renderer (R : DrawRecords) where
  caps : RendererCaps
  rdramSize : UInt32
  fb : Framebuffer := {}
  stream : StreamCaches R
  tiles : Fin Limits.maxNumTiles → R.TileInfo
  constants : R.Constants
  primitives : List (Primitive R) := []
  submitted : List (Batch R) := []

variable {R : DrawRecords}

def StreamCaches.reset (s : StreamCaches R) : StreamCaches R where
  scissorState := s.scissorState
  staticRasterState := s.staticRasterState
  depthBlendState := s.depthBlendState

/-- Start a batch. -/
def Renderer.resetContext (r : Renderer R) : Renderer R :=
  { r with
    stream := r.stream.reset
    fb := { r.fb with deducedHeight := 0, colorWritePending := false, depthWritePending := false }
    primitives := [] }

/-- Submit the batch and start another; a batch without uploads and spans is dropped. -/
def Renderer.flushQueues (r : Renderer R) : Renderer R :=
  if r.stream.tmemUploadInfos.isEmpty && r.stream.spanInfoJobs.size == 0 then r.resetContext
  else
    { r.resetContext with
      submitted := r.submitted ++ [{ stream := r.stream, primitives := r.primitives }] }

/-- Whether another primitive might not fit. -/
def Renderer.needFlush (r : Renderer R) : Bool :=
  let cacheFull := r.stream.staticRasterStateCache.full || r.stream.depthBlendStateCache.full ||
    r.stream.tileInfoStateCache.size + 8 > Limits.maxTileInfoStates
  let triangleFull := r.stream.triangleSetup.full
  let spanInfoFull := r.stream.spanInfoJobs.size * defaultWorkgroupSize + Limits.maxHeight >
    Limits.maxSpanSetups
  let maxShadedTiles :=
    r.stream.maxShadedTiles + r.caps.maxTilesX * r.caps.maxTilesY > r.caps.maxNumTileInstances
  cacheFull || triangleFull || spanInfoFull || maxShadedTiles

def minActiveLine (setup : TriangleSetup) (scissorState : ScissorState) : Int :=
  max setup.yh.toInt (scissorState.ylo.val : Int) >>> (2 : Nat)

def maxActiveLine (setup : TriangleSetup) (scissorState : ScissorState) : Int :=
  min (setup.yl.toInt - 1) ((scissorState.yhi.val : Int) - 1) >>> (2 : Nat)

def spanHeight (setup : TriangleSetup) (scissorState : ScissorState) : Int :=
  if maxActiveLine setup scissorState < minActiveLine setup scissorState then 0
  else
    min (max (maxActiveLine setup scissorState - minActiveLine setup scissorState + 2) 0) 1024

def numSpanJobs (setup : TriangleSetup) (scissorState : ScissorState) : Nat :=
  ((spanHeight setup scissorState + defaultWorkgroupSize - 1) / defaultWorkgroupSize).toNat

/-- The span jobs of the primitive that is added next. -/
def StreamCaches.spanJobs (s : StreamCaches R) (setup : TriangleSetup) :
    List SpanInterpolationJob :=
  (List.range (numSpanJobs setup s.scissorState)).map fun i : Nat =>
    { primitiveIndex := UInt16.ofNat s.triangleSetup.size
      baseY := UInt16.ofInt
        (minActiveLine setup s.scissorState + ((defaultWorkgroupSize * i : Nat) : Int))
      maxY := UInt16.ofInt (maxActiveLine setup s.scissorState + 1) }

/-- Where the spans of the primitive that is added next start. -/
def StreamCaches.spanOffsets (s : StreamCaches R) (setup : TriangleSetup) : SpanInfoOffsets :=
  if maxActiveLine setup s.scissorState < minActiveLine setup s.scissorState then
    { offset := 0, ylo := 0, yhi := -1 }
  else
    { offset := ((s.spanInfoJobs.size * defaultWorkgroupSize : Nat) : Int)
      ylo := minActiveLine setup s.scissorState
      yhi := maxActiveLine setup s.scissorState }

def StreamCaches.allocateSpanJobs (s : StreamCaches R) (setup : TriangleSetup) :
    Option (SpanInfoOffsets × StreamCaches R) := do
  let spanInfoJobs ← s.spanInfoJobs.addAll (s.spanJobs setup)
  some (s.spanOffsets setup, { s with spanInfoJobs })

/-- The height of the framebuffer that a primitive may draw to. -/
def Framebuffer.updateDeducedHeight (fb : Framebuffer) (setup : TriangleSetup)
    (scissorState : ScissorState) : Framebuffer :=
  let height := UInt32.ofInt (max (maxActiveLine setup scissorState + 1) 0)
  { fb with deducedHeight := if fb.deducedHeight < height then height else fb.deducedHeight }

def interlaceFlags (staticFlags : UInt32) : UInt8 :=
  (if staticFlags &&& 1 ≠ 0 then 8 else 0) ||| (if staticFlags &&& 2 ≠ 0 then 16 else 0)

def storedSetup (staticFlags : UInt32) (setup : TriangleSetup) : TriangleSetup :=
  if staticFlags &&& 1 ≠ 0 then { setup with flags := setup.flags ||| interlaceFlags staticFlags }
  else setup

/-- Add the setup of a primitive. -/
def StreamCaches.addSetup (s : StreamCaches R) (constants : R.Constants) (setup : TriangleSetup)
    (attr : R.AttributeSetup) : Option (StreamCaches R) := do
  let (offsets, s) ← s.allocateSpanJobs setup
  let spanInfoOffsets ← s.spanInfoOffsets.add offsets
  let triangleSetup ← s.triangleSetup.add (storedSetup (R.staticFlags s.staticRasterState) setup)
  let attributeSetup ← s.attributeSetup.add (R.primDepthAttributes constants attr)
  let derivedSetup ← s.derivedSetup.add
    (R.buildDerivedAttributes constants s.staticRasterState attr)
  let scissorSetup ← s.scissorSetup.add s.scissorState
  some { s with spanInfoOffsets, triangleSetup, attributeSetup, derivedSetup, scissorSetup }

/-- Add the indices of the current states. -/
def StreamCaches.addIndices (s : StreamCaches R) (tiles : Fin Limits.maxNumTiles → R.TileInfo) :
    Option (StreamCaches R) := do
  let (staticIndex, staticRasterStateCache) ←
    s.staticRasterStateCache.checkedAdd (R.normalizeStaticState s.staticRasterState)
  let (depthBlendIndex, depthBlendStateCache) ←
    s.depthBlendStateCache.checkedAdd s.depthBlendState
  let (tileIndices, tileInfoStateCache) ← s.tileInfoStateCache.addAll (List.ofFn tiles)
  let stateIndices ← s.stateIndices.add
    { staticIndex := UInt8.ofNat staticIndex
      depthBlendIndex := UInt8.ofNat depthBlendIndex
      tileInstanceIndex := UInt8.ofNat s.tmemUploadInfos.length
      tileIndices := tileIndices.map UInt8.ofNat }
  some
    { s with staticRasterStateCache, depthBlendStateCache, tileInfoStateCache, stateIndices }

/-- What is current at a primitive. -/
def StreamCaches.primitive (s : StreamCaches R) (setup : TriangleSetup)
    (tiles : Fin Limits.maxNumTiles → R.TileInfo) : Primitive R where
  setup := setup
  scissorState := s.scissorState
  staticRasterState := s.staticRasterState
  depthBlendState := s.depthBlendState
  tiles := tiles
  tmemUploadInfos := s.tmemUploadInfos

/-- Draw a primitive, whose textures may bind replacements to its tiles. -/
def Renderer.drawShadedPrimitive (r : Renderer R) (setup : TriangleSetup)
    (attr : R.AttributeSetup)
    (bindTiles : (Fin Limits.maxNumTiles → R.TileInfo) → Fin Limits.maxNumTiles → R.TileInfo) :
    Option (Renderer R) := do
  let numTiles := R.computeConservativeMaxNumTiles setup r.stream.scissorState
  let fb := r.fb.updateDeducedHeight setup r.stream.scissorState
  let added ← r.stream.addSetup r.constants setup attr
  let current :=
    { added with
      maxShadedTiles :=
        if r.caps.ubershader then added.maxShadedTiles else added.maxShadedTiles + numTiles
      staticRasterState := R.deduceStaticState setup.tile r.tiles added.staticRasterState }
  let tiles := bindTiles r.tiles
  let stream ← current.addIndices tiles
  let fb :=
    { fb with
      colorWritePending := true
      depthWritePending := fb.depthWritePending || R.depthUpdate stream.depthBlendState }
  let r :=
    { r with fb, stream, tiles, primitives := r.primitives ++ [current.primitive setup tiles] }
  some (if r.needFlush then r.flushQueues else r)

/-- Whether a texture is loaded from a framebuffer that the batch draws to. -/
def Renderer.tmemUploadNeedsFlush (r : Renderer R) (addr : UInt32) : Bool :=
  let pendingPixels := r.fb.deducedHeight * r.fb.width
  let colorOffset := (addr - r.fb.addr) &&& (r.rdramSize - 1)
  let colorPixels := match r.fb.fmt with
    | .RGBA5551 | .I8 => colorOffset >>> 1
    | .RGBA8888 => colorOffset >>> 2
    | _ => colorOffset
  let depthPixels := ((addr - r.fb.depthAddr) &&& (r.rdramSize - 1)) >>> 1
  (r.fb.colorWritePending && colorPixels < pendingPixels) ||
    (r.fb.depthWritePending && depthPixels < pendingPixels)

/-- One chunk of a load: what it uploads, unless it is refused, and the tiles it leaves. -/
structure LoadTileIteration (R : DrawRecords) where
  upload : Option R.UploadInfo
  setTiles : (Fin Limits.maxNumTiles → R.TileInfo) → Fin Limits.maxNumTiles → R.TileInfo

/-- Load one chunk. -/
def Renderer.loadTileIteration (r : Renderer R) (iteration : LoadTileIteration R) : Renderer R :=
  let r := { r with tiles := iteration.setTiles r.tiles }
  match iteration.upload with
  | none => r
  | some upload =>
    let r := { r with
      stream := { r.stream with tmemUploadInfos := r.stream.tmemUploadInfos ++ [upload] } }
    if r.stream.tmemUploadInfos.length + 1 ≥ Limits.maxTMEMInstances then r.flushQueues else r

def Renderer.loadTile (r : Renderer R) (texAddr : UInt32)
    (iterations : List (LoadTileIteration R)) : Renderer R :=
  iterations.foldl Renderer.loadTileIteration
    (if r.tmemUploadNeedsFlush texAddr then r.flushQueues else r)

/-- Bind a color framebuffer. -/
def Renderer.setColorFramebuffer (r : Renderer R) (addr width : UInt32) (fmt : FBFormat) :
    Renderer R :=
  let flushed :=
    if r.fb.addr ≠ addr || r.fb.width ≠ width || r.fb.fmt ≠ fmt then r.flushQueues else r
  { flushed with fb := { flushed.fb with addr, width, fmt } }

def Renderer.setDepthFramebuffer (r : Renderer R) (addr : UInt32) : Renderer R :=
  let flushed := if r.fb.depthAddr ≠ addr then r.flushQueues else r
  { flushed with fb := { flushed.fb with depthAddr := addr } }

/-- Calls of a renderer. -/
inductive RendererOp (R : DrawRecords)
  | setColorFramebuffer (addr width : UInt32) (fmt : FBFormat)
  | setDepthFramebuffer (addr : UInt32)
  | setScissorState (word0 word1 : UInt32)
  | setStaticRasterizationState (state : R.StaticRasterizationState)
  | setDepthBlendState (state : R.DepthBlendState)
  | setConstants (constants : R.Constants)
  | setTile (tile : Fin Limits.maxNumTiles) (info : R.TileInfo)
  | loadTile (texAddr : UInt32) (iterations : List (LoadTileIteration R))
  | drawShadedPrimitive (setup : TriangleSetup) (attr : R.AttributeSetup)
    (bindTiles : (Fin Limits.maxNumTiles → R.TileInfo) → Fin Limits.maxNumTiles → R.TileInfo)
  | setReplacementProvider
  | flushQueues

/-- What a call does; a call fails when it adds to a full cache. -/
def Renderer.apply (r : Renderer R) : RendererOp R → Option (Renderer R)
  | .setColorFramebuffer addr width fmt => some (r.setColorFramebuffer addr width fmt)
  | .setDepthFramebuffer addr => some (r.setDepthFramebuffer addr)
  | .setScissorState word0 word1 =>
    some { r with stream := { r.stream with scissorState := applySetScissorWords word0 word1 } }
  | .setStaticRasterizationState state =>
    some { r with stream := { r.stream with staticRasterState := state } }
  | .setDepthBlendState state =>
    some { r with stream := { r.stream with depthBlendState := state } }
  | .setConstants constants => some { r with constants }
  | .setTile tile info => some { r with tiles := Function.update r.tiles tile info }
  | .loadTile texAddr iterations => some (r.loadTile texAddr iterations)
  | .drawShadedPrimitive setup attr bindTiles => r.drawShadedPrimitive setup attr bindTiles
  | .setReplacementProvider => some (if r.needFlush then r.flushQueues else r)
  | .flushQueues => some r.flushQueues

def Renderer.run (r : Renderer R) (ops : List (RendererOp R)) : Option (Renderer R) :=
  ops.foldlM Renderer.apply r

/-- A renderer before its first call. -/
def Renderer.start (caps : RendererCaps) (rdramSize : UInt32)
    (staticRasterState : R.StaticRasterizationState) (depthBlendState : R.DepthBlendState)
    (tiles : Fin Limits.maxNumTiles → R.TileInfo) (constants : R.Constants) : Renderer R where
  caps := caps
  rdramSize := rdramSize
  stream := { staticRasterState := staticRasterState, depthBlendState := depthBlendState }
  tiles := tiles
  constants := constants

end ParallelN64.Rdp
