import ParallelN64.Rdp.Batch

/-!
# Capacity of batches

Before each primitive a batch has room for everything the primitive adds. So no add meets a
full cache, the indices of a primitive refer to the states that were current at it, and its
spans lie within the span buffer.
-/

namespace ParallelN64.Rdp

variable {R : DrawRecords}

/-- The indices of a primitive refer to what was current at it. -/
structure StreamCaches.Refers (s : StreamCaches R) (indices : InstanceIndices)
    (p : Primitive R) : Prop where
  staticIndex : s.staticRasterStateCache.elements[indices.staticIndex.toNat]? =
    some (R.normalizeStaticState p.staticRasterState)
  depthBlendIndex :
    s.depthBlendStateCache.elements[indices.depthBlendIndex.toNat]? = some p.depthBlendState
  tileIndices : List.Forall₂ (fun i tile => s.tileInfoStateCache.elements[i.toNat]? = some tile)
    indices.tileIndices (List.ofFn p.tiles)
  tileInstanceIndex : p.tmemUploadInfos.length = indices.tileInstanceIndex.toNat
  uploads : p.tmemUploadInfos <+: s.tmemUploadInfos

/-- The spans of a primitive lie within the span buffer. -/
structure SpansFit (offsets : SpanInfoOffsets) (p : Primitive R) : Prop where
  offset_nonneg : 0 ≤ offsets.offset
  height_le : offsets.offset + spanHeight p.setup p.scissorState ≤ Limits.maxSpanSetups
  lines_le : offsets.offset + (offsets.yhi - offsets.ylo + 1) ≤ Limits.maxSpanSetups

/-- A batch holds one setup for each of its primitives, whose spans fit. -/
structure StreamCaches.SetsUp (s : StreamCaches R) (primitives : List (Primitive R)) : Prop where
  triangleSetup : s.triangleSetup.size = primitives.length
  attributeSetup : s.attributeSetup.size = primitives.length
  derivedSetup : s.derivedSetup.size = primitives.length
  scissorSetup : s.scissorSetup.size = primitives.length
  spans : List.Forall₂ SpansFit s.spanInfoOffsets.elements primitives

variable {s : StreamCaches R} {primitives : List (Primitive R)} {r : Renderer R}

theorem StreamCaches.SetsUp.congr {s' : StreamCaches R} (h : s.SetsUp primitives)
    (htriangle : s'.triangleSetup = s.triangleSetup)
    (hattribute : s'.attributeSetup = s.attributeSetup)
    (hderived : s'.derivedSetup = s.derivedSetup) (hscissor : s'.scissorSetup = s.scissorSetup)
    (hspans : s'.spanInfoOffsets = s.spanInfoOffsets) : s'.SetsUp primitives where
  triangleSetup := htriangle ▸ h.triangleSetup
  attributeSetup := hattribute ▸ h.attributeSetup
  derivedSetup := hderived ▸ h.derivedSetup
  scissorSetup := hscissor ▸ h.scissorSetup
  spans := hspans ▸ h.spans

/-- A batch holds the setups of its primitives and the indices of their states. -/
structure StreamCaches.Describes (s : StreamCaches R) (primitives : List (Primitive R)) :
    Prop where
  setups : s.SetsUp primitives
  indices : List.Forall₂ s.Refers s.stateIndices.elements primitives

/-- The states of another primitive fit, whatever they are. -/
structure StreamCaches.HasStateRoom (s : StreamCaches R) : Prop where
  static : s.staticRasterStateCache.size < Limits.maxStaticRasterizationStates
  depth : s.depthBlendStateCache.size < Limits.maxDepthBlendStates
  tiles : s.tileInfoStateCache.size + 8 ≤ Limits.maxTileInfoStates
  uploads : s.tmemUploadInfos.length + 1 < Limits.maxTMEMInstances

/-- Another primitive fits, whatever it is. -/
structure StreamCaches.HasRoom (s : StreamCaches R) : Prop extends s.HasStateRoom where
  triangleSetup : s.triangleSetup.size < Limits.maxPrimitives
  spans : s.spanInfoJobs.size * defaultWorkgroupSize + Limits.maxHeight ≤ Limits.maxSpanSetups

theorem StreamCaches.describes_reset (s : StreamCaches R) : s.reset.Describes [] :=
  ⟨⟨rfl, rfl, rfl, rfl, List.Forall₂.nil⟩, List.Forall₂.nil⟩

theorem StreamCaches.hasRoom_reset (s : StreamCaches R) : s.reset.HasRoom := by
  constructor
  case toHasStateRoom => constructor <;> simp [StreamCaches.reset, StateCache.size,
    Limits.maxTileInfoStates, Limits.maxTMEMInstances]
  all_goals simp [StreamCaches.reset, StreamCache.size, Limits.maxHeight, Limits.maxSpanSetups]

theorem numSpanJobs_spec (setup : TriangleSetup) (scissorState : ScissorState) :
    spanHeight setup scissorState ≤ numSpanJobs setup scissorState * defaultWorkgroupSize ∧
      numSpanJobs setup scissorState * defaultWorkgroupSize ≤ Limits.maxHeight := by
  have hheight : 0 ≤ spanHeight setup scissorState ∧ spanHeight setup scissorState ≤ 1024 := by
    unfold spanHeight
    split <;> omega
  simp only [numSpanJobs, defaultWorkgroupSize, Limits.maxHeight]
  omega

theorem maxActiveLine_sub_minActiveLine_lt (setup : TriangleSetup) (scissorState : ScissorState) :
    maxActiveLine setup scissorState - minActiveLine setup scissorState < 1024 := by
  have hylo := scissorState.ylo.isLt
  have hyhi := scissorState.yhi.isLt
  rw [maxActiveLine, minActiveLine, Int.shiftRight_eq_div_pow, Int.shiftRight_eq_div_pow]
  omega

theorem StreamCaches.HasRoom.spanJobs (h : s.HasRoom) (setup : TriangleSetup) :
    s.spanInfoJobs.size + (s.spanJobs setup).length ≤ Limits.maxSpanSetups := by
  have hjobs := (numSpanJobs_spec setup s.scissorState).2
  have hspans := h.spans
  rw [StreamCaches.spanJobs, List.length_map, List.length_range]
  simp only [defaultWorkgroupSize, Limits.maxHeight, Limits.maxSpanSetups] at *
  omega

theorem StreamCaches.HasRoom.spansFit (h : s.HasRoom) (setup : TriangleSetup) {p : Primitive R}
    (hsetup : p.setup = setup) (hscissor : p.scissorState = s.scissorState) :
    SpansFit (s.spanOffsets setup) p := by
  obtain ⟨hheight, hjobs⟩ := numSpanJobs_spec setup s.scissorState
  have hlines := maxActiveLine_sub_minActiveLine_lt setup s.scissorState
  have hspans := h.spans
  simp only [defaultWorkgroupSize, Limits.maxHeight, Limits.maxSpanSetups] at hheight hjobs hspans
  constructor <;> rw [StreamCaches.spanOffsets]
  case offset_nonneg =>
    split
    next => exact Int.le_refl 0
    next => exact Int.natCast_nonneg _
  case height_le =>
    rw [hsetup, hscissor]
    split
    next hempty =>
      rw [spanHeight, if_pos hempty]
      decide
    next =>
      simp only [defaultWorkgroupSize, Limits.maxSpanSetups]
      omega
  case lines_le =>
    split
    next => decide
    next =>
      simp only [defaultWorkgroupSize, Limits.maxSpanSetups]
      omega

theorem StreamCaches.exists_addSetup (hroom : s.HasRoom) (h : s.SetsUp primitives)
    (constants : R.Constants) (setup : TriangleSetup) (attr : R.AttributeSetup) :
    ∃ spanInfoJobs spanInfoOffsets triangleSetup attributeSetup derivedSetup scissorSetup,
      s.addSetup constants setup attr =
          some
            { s with
              spanInfoJobs, spanInfoOffsets, triangleSetup, attributeSetup, derivedSetup,
              scissorSetup } ∧
        ∀ p : Primitive R, p.setup = setup → p.scissorState = s.scissorState →
          StreamCaches.SetsUp
            { s with
              spanInfoJobs, spanInfoOffsets, triangleSetup, attributeSetup, derivedSetup,
              scissorSetup } (primitives ++ [p]) := by
  have hlt : primitives.length < Limits.maxPrimitives := h.triangleSetup ▸ hroom.triangleSetup
  have hspans : s.spanInfoOffsets.size = primitives.length := h.spans.length_eq
  obtain ⟨jobs, hjobs, -⟩ := StreamCache.exists_addAll (hroom.spanJobs setup)
  obtain ⟨offsets, hoffsets, helements⟩ :=
    StreamCache.exists_add (hspans.trans_lt hlt) (s.spanOffsets setup)
  obtain ⟨triangles, htriangles, hsize⟩ := StreamCache.exists_add (h.triangleSetup.trans_lt hlt)
    (storedSetup (R.staticFlags s.staticRasterState) setup)
  obtain ⟨attributes, hattributes, hattributeSize⟩ := StreamCache.exists_add
    (h.attributeSetup.trans_lt hlt) (R.primDepthAttributes constants attr)
  obtain ⟨derived, hderived, hderivedSize⟩ := StreamCache.exists_add
    (h.derivedSetup.trans_lt hlt) (R.buildDerivedAttributes constants s.staticRasterState attr)
  obtain ⟨scissors, hscissors, hscissorSize⟩ := StreamCache.exists_add
    (h.scissorSetup.trans_lt hlt) s.scissorState
  refine ⟨jobs, offsets, triangles, attributes, derived, scissors, ?_, fun p hsetup hscissor => ?_⟩
  · simp only [addSetup, allocateSpanJobs, hjobs, hoffsets, htriangles, hattributes, hderived,
      hscissors, Option.bind_eq_bind, Option.bind_some]
  · have hgrow : ∀ {α : Type} {N : Nat} {c c' : StreamCache α N} {a : α},
        c.size = primitives.length → c'.elements = c.elements ++ [a] →
          c'.size = (primitives ++ [p]).length := by
      intro α N c c' a hc hc'
      rw [StreamCache.size] at hc ⊢
      rw [hc', List.length_append, List.length_append, hc]
      rfl
    refine ⟨hgrow h.triangleSetup hsize, hgrow h.attributeSetup hattributeSize,
      hgrow h.derivedSetup hderivedSize, hgrow h.scissorSetup hscissorSize, ?_⟩
    rw [helements]
    exact List.rel_append h.spans
      (List.Forall₂.cons (hroom.spansFit setup hsetup hscissor) List.Forall₂.nil)

theorem StreamCaches.Refers.mono {s' : StreamCaches R} {indices : InstanceIndices}
    {p : Primitive R} (h : s.Refers indices p)
    (hstatic : s.staticRasterStateCache.elements <+: s'.staticRasterStateCache.elements)
    (hdepth : s.depthBlendStateCache.elements <+: s'.depthBlendStateCache.elements)
    (htiles : s.tileInfoStateCache.elements <+: s'.tileInfoStateCache.elements)
    (huploads : s.tmemUploadInfos <+: s'.tmemUploadInfos) : s'.Refers indices p where
  staticIndex := getElem?_of_prefix hstatic h.staticIndex
  depthBlendIndex := getElem?_of_prefix hdepth h.depthBlendIndex
  tileIndices := h.tileIndices.imp fun _ _ => getElem?_of_prefix htiles
  tileInstanceIndex := h.tileInstanceIndex
  uploads := h.uploads.trans huploads

theorem toNat_ofNat_of_getElem? {α : Type} {N : Nat} (hN : N ≤ 256) {c : StateCache α N} {i : Nat}
    {t : α} (h : c.elements[i]? = some t) : (UInt8.ofNat i).toNat = i := by
  have hi := (List.getElem?_eq_some_iff.mp h).1
  have hle := c.length_le
  rw [UInt8.toNat_ofNat']
  exact Nat.mod_eq_of_lt (by omega)

theorem StreamCaches.exists_addIndices (hroom : s.HasStateRoom)
    (hlt : primitives.length < Limits.maxPrimitives)
    (h : List.Forall₂ s.Refers s.stateIndices.elements primitives) (setup : TriangleSetup)
    (tiles : Fin Limits.maxNumTiles → R.TileInfo) :
    ∃ staticRasterStateCache depthBlendStateCache tileInfoStateCache stateIndices,
      s.addIndices tiles =
          some
            { s with
              staticRasterStateCache, depthBlendStateCache, tileInfoStateCache, stateIndices } ∧
        List.Forall₂
          (StreamCaches.Refers
            { s with
              staticRasterStateCache, depthBlendStateCache, tileInfoStateCache, stateIndices })
          stateIndices.elements (primitives ++ [s.primitive setup tiles]) := by
  obtain ⟨i, static, hstatic, hi, hstaticPrefix, -⟩ :=
    StateCache.exists_add hroom.static (R.normalizeStaticState s.staticRasterState)
  obtain ⟨j, depth, hdepth, hj, hdepthPrefix, -⟩ :=
    StateCache.exists_add hroom.depth s.depthBlendState
  have htiles : s.tileInfoStateCache.size + (List.ofFn tiles).length ≤
      Limits.maxTileInfoStates := by
    rw [List.length_ofFn]
    exact hroom.tiles
  obtain ⟨indices, tileInfos, haddAll, hindices, htilesPrefix, -⟩ := StateCache.exists_addAll htiles
  obtain ⟨stateIndices, hstateIndices, helements⟩ := StreamCache.exists_add
    (c := s.stateIndices) (h.length_eq.trans_lt hlt)
    { staticIndex := UInt8.ofNat i
      depthBlendIndex := UInt8.ofNat j
      tileInstanceIndex := UInt8.ofNat s.tmemUploadInfos.length
      tileIndices := indices.map UInt8.ofNat }
  refine ⟨static, depth, tileInfos, stateIndices, ?_, ?_⟩
  · simp only [addIndices, StateCache.checkedAdd_of_lt hroom.static,
      StateCache.checkedAdd_of_lt hroom.depth, hstatic, hdepth, haddAll, hstateIndices,
      Option.bind_eq_bind, Option.bind_some]
  · rw [helements]
    refine List.rel_append
      (h.imp fun _ _ h => h.mono hstaticPrefix hdepthPrefix htilesPrefix List.prefix_rfl)
      (List.Forall₂.cons ⟨?_, ?_, ?_, ?_, List.prefix_rfl⟩ List.Forall₂.nil)
    · rw [toNat_ofNat_of_getElem? (by decide) hi]
      exact hi
    · rw [toNat_ofNat_of_getElem? (by decide) hj]
      exact hj
    · refine List.forall₂_map_left_iff.mpr (hindices.imp fun k tile hk => ?_)
      rw [toNat_ofNat_of_getElem? (Nat.le_refl _) hk]
      exact hk
    · rw [UInt8.toNat_ofNat']
      exact (Nat.mod_eq_of_lt (Nat.lt_of_succ_lt hroom.uploads)).symm

/-- The pending batch and the submitted ones describe their primitives, and another primitive
fits. -/
structure Renderer.Batched (r : Renderer R) : Prop where
  room : r.stream.HasRoom
  pending : r.stream.Describes r.primitives
  submitted : ∀ b ∈ r.submitted, b.stream.Describes b.primitives

theorem Renderer.hasRoom_of_needFlush (h : r.needFlush = false)
    (huploads : r.stream.tmemUploadInfos.length + 1 < Limits.maxTMEMInstances) :
    r.stream.HasRoom := by
  simp only [Renderer.needFlush, Bool.or_eq_false_iff, decide_eq_false_iff_not, not_lt,
    StateCache.full, StreamCache.full, beq_eq_false_iff_ne] at h
  obtain ⟨⟨⟨⟨⟨hstatic, hdepth⟩, htiles⟩, htriangle⟩, hspans⟩, -⟩ := h
  exact
    { static := lt_of_le_of_ne r.stream.staticRasterStateCache.length_le hstatic
      depth := lt_of_le_of_ne r.stream.depthBlendStateCache.length_le hdepth
      tiles := htiles
      uploads := huploads
      triangleSetup := lt_of_le_of_ne r.stream.triangleSetup.length_le htriangle
      spans := hspans }

theorem Renderer.flushQueues_batched (hpending : r.stream.Describes r.primitives)
    (hsubmitted : ∀ b ∈ r.submitted, b.stream.Describes b.primitives) : r.flushQueues.Batched := by
  rw [Renderer.flushQueues]
  split
  next => exact ⟨r.stream.hasRoom_reset, r.stream.describes_reset, hsubmitted⟩
  next =>
    refine ⟨r.stream.hasRoom_reset, r.stream.describes_reset, fun b hb => ?_⟩
    obtain hb | hb := List.mem_append.mp hb
    · exact hsubmitted b hb
    · rw [List.mem_singleton.mp hb]
      exact hpending

theorem Renderer.Batched.flushQueues (h : r.Batched) : r.flushQueues.Batched :=
  Renderer.flushQueues_batched h.pending h.submitted

theorem Renderer.flushIfNeeded_batched (hpending : r.stream.Describes r.primitives)
    (huploads : r.stream.tmemUploadInfos.length + 1 < Limits.maxTMEMInstances)
    (hsubmitted : ∀ b ∈ r.submitted, b.stream.Describes b.primitives) :
    (if r.needFlush then r.flushQueues else r).Batched := by
  split
  next => exact Renderer.flushQueues_batched hpending hsubmitted
  next hflush =>
    exact ⟨Renderer.hasRoom_of_needFlush (Bool.eq_false_iff.mpr hflush) huploads, hpending,
      hsubmitted⟩

theorem Renderer.Batched.setStates (h : r.Batched) (scissorState : ScissorState)
    (staticRasterState : R.StaticRasterizationState) (depthBlendState : R.DepthBlendState) :
    Renderer.Batched
      { r with stream := { r.stream with scissorState, staticRasterState, depthBlendState } } where
  room := ⟨⟨h.room.static, h.room.depth, h.room.tiles, h.room.uploads⟩, h.room.triangleSetup,
    h.room.spans⟩
  pending := ⟨h.pending.setups.congr rfl rfl rfl rfl rfl,
    h.pending.indices.imp fun _ _ hrefers =>
      hrefers.mono List.prefix_rfl List.prefix_rfl List.prefix_rfl List.prefix_rfl⟩
  submitted := h.submitted

theorem Renderer.Batched.exists_drawShadedPrimitive (h : r.Batched) (setup : TriangleSetup)
    (attr : R.AttributeSetup)
    (bindTiles : (Fin Limits.maxNumTiles → R.TileInfo) → Fin Limits.maxNumTiles → R.TileInfo) :
    ∃ r', r.drawShadedPrimitive setup attr bindTiles = some r' ∧ r'.Batched := by
  have hlt : r.primitives.length < Limits.maxPrimitives :=
    h.pending.setups.triangleSetup ▸ h.room.triangleSetup
  obtain ⟨jobs, offsets, triangles, attributes, derived, scissors, hsetup, hsetups⟩ :=
    StreamCaches.exists_addSetup h.room h.pending.setups r.constants setup attr
  let current : StreamCaches R :=
    { r.stream with
      spanInfoJobs := jobs
      spanInfoOffsets := offsets
      triangleSetup := triangles
      attributeSetup := attributes
      derivedSetup := derived
      scissorSetup := scissors
      maxShadedTiles :=
        if r.caps.ubershader then r.stream.maxShadedTiles
        else r.stream.maxShadedTiles +
          R.computeConservativeMaxNumTiles setup r.stream.scissorState
      staticRasterState :=
        R.deduceStaticState setup.tile r.tiles r.stream.staticRasterState }
  have hrefers : List.Forall₂ current.Refers current.stateIndices.elements r.primitives :=
    h.pending.indices.imp fun _ _ hrefers =>
      hrefers.mono List.prefix_rfl List.prefix_rfl List.prefix_rfl List.prefix_rfl
  have hroom : current.HasStateRoom :=
    ⟨h.room.static, h.room.depth, h.room.tiles, h.room.uploads⟩
  obtain ⟨static, depth, tileInfos, stateIndices, hindices, hall⟩ :=
    StreamCaches.exists_addIndices hroom hlt hrefers setup (bindTiles r.tiles)
  have hdescribes : StreamCaches.Describes
      { current with
        staticRasterStateCache := static
        depthBlendStateCache := depth
        tileInfoStateCache := tileInfos
        stateIndices := stateIndices }
      (r.primitives ++ [current.primitive setup (bindTiles r.tiles)]) :=
    ⟨(hsetups (current.primitive setup (bindTiles r.tiles)) rfl rfl).congr rfl rfl rfl rfl rfl,
      hall⟩
  rw [Renderer.drawShadedPrimitive, hsetup]
  dsimp only [Option.bind_eq_bind, Option.bind_some]
  rw [hindices]
  exact ⟨_, rfl, Renderer.flushIfNeeded_batched hdescribes h.room.uploads h.submitted⟩

theorem Renderer.Batched.loadTileIteration (h : r.Batched) (iteration : LoadTileIteration R) :
    (r.loadTileIteration iteration).Batched := by
  rw [Renderer.loadTileIteration]
  split
  next => exact ⟨h.room, h.pending, h.submitted⟩
  next upload hupload =>
    have hdescribes : StreamCaches.Describes
        { r.stream with tmemUploadInfos := r.stream.tmemUploadInfos ++ [upload] } r.primitives :=
      ⟨h.pending.setups.congr rfl rfl rfl rfl rfl, h.pending.indices.imp fun _ _ hrefers =>
        hrefers.mono List.prefix_rfl List.prefix_rfl List.prefix_rfl (List.prefix_append _ _)⟩
    dsimp only
    split
    next => exact Renderer.flushQueues_batched hdescribes h.submitted
    next hroom =>
      exact ⟨⟨⟨h.room.static, h.room.depth, h.room.tiles, not_le.mp hroom⟩,
        h.room.triangleSetup, h.room.spans⟩, hdescribes, h.submitted⟩

theorem Renderer.Batched.loadTile (h : r.Batched) (texAddr : UInt32)
    (iterations : List (LoadTileIteration R)) : (r.loadTile texAddr iterations).Batched := by
  have hstart : (if r.tmemUploadNeedsFlush texAddr then r.flushQueues else r).Batched := by
    split
    next => exact h.flushQueues
    next => exact h
  rw [Renderer.loadTile]
  generalize (if r.tmemUploadNeedsFlush texAddr then r.flushQueues else r) = r at hstart
  induction iterations generalizing r with
  | nil => exact hstart
  | cons iteration iterations ih => exact ih _ (hstart.loadTileIteration iteration)

theorem Renderer.Batched.exists_apply (h : r.Batched) (op : RendererOp R) :
    ∃ r', r.apply op = some r' ∧ r'.Batched := by
  cases op with
  | setColorFramebuffer addr width fmt =>
    refine ⟨_, rfl, ?_⟩
    rw [Renderer.setColorFramebuffer]
    dsimp only
    split
    next => exact ⟨h.flushQueues.room, h.flushQueues.pending, h.flushQueues.submitted⟩
    next => exact ⟨h.room, h.pending, h.submitted⟩
  | setDepthFramebuffer addr =>
    refine ⟨_, rfl, ?_⟩
    rw [Renderer.setDepthFramebuffer]
    dsimp only
    split
    next => exact ⟨h.flushQueues.room, h.flushQueues.pending, h.flushQueues.submitted⟩
    next => exact ⟨h.room, h.pending, h.submitted⟩
  | setScissorState word0 word1 => exact ⟨_, rfl, h.setStates _ _ _⟩
  | setStaticRasterizationState state => exact ⟨_, rfl, h.setStates _ _ _⟩
  | setDepthBlendState state => exact ⟨_, rfl, h.setStates _ _ _⟩
  | setConstants constants => exact ⟨_, rfl, h.room, h.pending, h.submitted⟩
  | setTile tile info => exact ⟨_, rfl, h.room, h.pending, h.submitted⟩
  | loadTile texAddr iterations => exact ⟨_, rfl, h.loadTile texAddr iterations⟩
  | drawShadedPrimitive setup attr bindTiles =>
    exact h.exists_drawShadedPrimitive setup attr bindTiles
  | setReplacementProvider =>
    exact ⟨_, rfl, Renderer.flushIfNeeded_batched h.pending h.room.uploads h.submitted⟩
  | flushQueues => exact ⟨_, rfl, h.flushQueues⟩

/-- No run of calls meets a full cache, and every batch it submits or leaves pending refers to
what was current at its primitives and has their spans within the span buffer. -/
theorem Renderer.run_batched (caps : RendererCaps) (rdramSize : UInt32)
    (staticRasterState : R.StaticRasterizationState) (depthBlendState : R.DepthBlendState)
    (tiles : Fin Limits.maxNumTiles → R.TileInfo) (constants : R.Constants)
    (ops : List (RendererOp R)) :
    ∃ r, (Renderer.start caps rdramSize staticRasterState depthBlendState tiles constants).run
        ops = some r ∧
      r.stream.Describes r.primitives ∧
      ∀ b ∈ r.submitted, b.stream.Describes b.primitives := by
  have hrun : ∀ {r : Renderer R}, r.Batched → ∃ r', r.run ops = some r' ∧ r'.Batched := by
    intro r h
    induction ops generalizing r with
    | nil => exact ⟨r, rfl, h⟩
    | cons op ops ih =>
      obtain ⟨first, happly, hfirst⟩ := h.exists_apply op
      obtain ⟨last, hrun, hlast⟩ := ih hfirst
      refine ⟨last, ?_, hlast⟩
      rw [Renderer.run, List.foldlM_cons, happly]
      exact hrun
  have hstart : (Renderer.start caps rdramSize staticRasterState depthBlendState tiles
      constants).Batched :=
    ⟨StreamCaches.hasRoom_reset (Renderer.start caps rdramSize staticRasterState depthBlendState
        tiles constants).stream,
      StreamCaches.describes_reset (Renderer.start caps rdramSize staticRasterState depthBlendState
        tiles constants).stream, List.forall_mem_nil _⟩
  obtain ⟨r, hops, hr⟩ := hrun hstart
  exact ⟨r, hops, hr.pending, hr.submitted⟩

end ParallelN64.Rdp
