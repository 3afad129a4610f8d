import ParallelN64.Core.Word
import ParallelN64.Rdp.TileLoad

/-!
# The parts of a tile load

The loop of a split load issues one part for each piece of its lines. The lines of the parts are
those of the load, once and in order, and each part lies in texture memory where its lines would
without the split.
-/

namespace ParallelN64.Rdp

open ParallelN64.Core

def LoadTileInfo.firstLine (info : LoadTileInfo) : Nat := (info.tlo >>> 2).toNat

def LoadTileInfo.lastLine (info : LoadTileInfo) : Nat := (info.thi >>> 2).toNat

def LoadTileInfo.lines (info : LoadTileInfo) : List Nat :=
  List.range' info.firstLine (info.lastLine + 1 - info.firstLine)

theorem LoadTileInfo.firstLine_eq (info : LoadTileInfo) :
    info.firstLine = info.tlo.toNat / 4 := by
  unfold LoadTileInfo.firstLine
  rw [UInt16.toNat_shiftRight]
  exact Nat.shiftRight_eq_div_pow _ 2

theorem LoadTileInfo.lastLine_eq (info : LoadTileInfo) : info.lastLine = info.thi.toNat / 4 := by
  unfold LoadTileInfo.lastLine
  rw [UInt16.toNat_shiftRight]
  exact Nat.shiftRight_eq_div_pow _ 2

theorem LoadTileInfo.toNat_lineCount {info : LoadTileInfo} (h : info.firstLine ≤ info.lastLine) :
    info.lineCount.toNat = info.lastLine + 1 - info.firstLine := by
  have hlast : info.lastLine < 2 ^ 16 := UInt16.toNat_lt _
  unfold LoadTileInfo.lineCount
  rw [UInt32.toNat_add, UInt32.toNat_sub_of_le]
  · change (info.lastLine - info.firstLine + 1) % 2 ^ 32 = _
    omega
  · exact UInt32.le_iff_toNat_le.mpr h

theorem toNat_shiftLeft_two (x : UInt32) : (x <<< 2).toNat = 4 * x.toNat % 2 ^ 32 := by
  rw [UInt32.toNat_shiftLeft]
  change x.toNat <<< 2 % 2 ^ 32 = _
  rw [Nat.shiftLeft_eq, Nat.mul_comm]

theorem partialLoad_lines {tileMeta : TileMeta} {info : LoadTileInfo} {line count : UInt32}
    (hcount : 0 < count.toNat)
    (hlines : info.firstLine + line.toNat + count.toNat ≤ info.lastLine + 1) :
    (partialLoad tileMeta info line count).info.firstLine = info.firstLine + line.toNat ∧
      (partialLoad tileMeta info line count).info.lastLine =
        info.firstLine + line.toNat + count.toNat - 1 := by
  have htlo : info.tlo.toNat < 2 ^ 16 := UInt16.toNat_lt _
  have hthi : info.thi.toNat < 2 ^ 16 := UInt16.toNat_lt _
  rw [LoadTileInfo.firstLine_eq, LoadTileInfo.lastLine_eq] at hlines
  -- The coordinates of the part stay within those of the load, so none wraps.
  have hstart : (partialLoad tileMeta info line count).info.tlo.toNat =
      info.tlo.toNat + 4 * line.toNat := by
    simp only [partialLoad, UInt32.toNat_toUInt16, UInt32.toNat_add, toNat_shiftLeft_two,
      UInt16.toNat_toUInt32]
    omega
  have hend : (partialLoad tileMeta info line count).info.thi.toNat =
      info.tlo.toNat + 4 * line.toNat + 4 * (count.toNat - 1) := by
    have hone : (1 : UInt32) ≤ count := UInt32.le_iff_toNat_le.mpr hcount
    have hthi' : (partialLoad tileMeta info line count).info.thi =
        ((partialLoad tileMeta info line count).info.tlo.toUInt32 +
          ((count - 1) <<< 2)).toUInt16 := rfl
    rw [hthi']
    simp only [UInt32.toNat_toUInt16, UInt32.toNat_add, toNat_shiftLeft_two,
      UInt16.toNat_toUInt32, hstart, UInt32.toNat_sub_of_le _ _ hone, UInt32.toNat_one]
    omega
  rw [LoadTileInfo.firstLine_eq, LoadTileInfo.lastLine_eq, LoadTileInfo.firstLine_eq, hstart, hend]
  omega

theorem toNat_maxLinesPerIteration (tileMeta : TileMeta) (info : LoadTileInfo) :
    (maxLinesPerIteration tileMeta info).toNat =
      2 * (0x1000 / (bytesCoveredPerLine tileMeta info).toNat / 2) := by
  have hclear : ∀ x : UInt32, (x &&& ~~~(1 : UInt32)).toNat = 2 * (x.toNat / 2) := by
    intro x
    have hlt := x.toNat_lt
    have hmask := and_ones_mul_two_pow x.toNat 31 1
    rw [UInt32.toNat_and]
    change x.toNat &&& 4294967294 = _
    norm_num at hmask
    rw [hmask]
    omega
  unfold maxLinesPerIteration
  rw [hclear, UInt32.toNat_div]
  rfl

theorem maxLinesPerIteration_fits (tileMeta : TileMeta) (info : LoadTileInfo) :
    Even (maxLinesPerIteration tileMeta info).toNat ∧
      (maxLinesPerIteration tileMeta info).toNat * (bytesCoveredPerLine tileMeta info).toNat ≤
        0x1000 := by
  rw [toNat_maxLinesPerIteration]
  refine ⟨even_two_mul _, ?_⟩
  calc 2 * (0x1000 / (bytesCoveredPerLine tileMeta info).toNat / 2) *
        (bytesCoveredPerLine tileMeta info).toNat
      ≤ 0x1000 / (bytesCoveredPerLine tileMeta info).toNat *
        (bytesCoveredPerLine tileMeta info).toNat :=
        Nat.mul_le_mul_right _ (Nat.mul_div_le _ _)
    _ ≤ 0x1000 := Nat.div_mul_le_self _ _

section Loop

variable (blockUpload : TileMeta → LoadTileInfo → UInt32 → Option UploadInfo)

theorem foldl_loadTileIteration (run : LoadRun) (parts : List PartialLoad) :
    (parts.foldl (LoadRun.loadTileIteration blockUpload) run).tile.tileMeta = run.tile.tileMeta ∧
      (parts.foldl (LoadRun.loadTileIteration blockUpload) run).partials =
        run.partials ++ parts ∧
      (parts.foldl (LoadRun.loadTileIteration blockUpload) run).uploads =
        run.uploads ++ parts.filterMap fun part =>
          tileUpload blockUpload run.tile.tileMeta part.info part.tmemOffset := by
  induction parts generalizing run with
  | nil => exact ⟨rfl, (List.append_nil _).symm, (List.append_nil _).symm⟩
  | cons part parts ih =>
    obtain ⟨hmeta, hpartials, huploads⟩ := ih (run.loadTileIteration blockUpload part)
    rw [List.foldl_cons]
    refine ⟨hmeta, ?_, ?_⟩
    · rw [hpartials, LoadRun.loadTileIteration, List.append_assoc, List.singleton_append]
    · rw [huploads, LoadRun.loadTileIteration, List.append_assoc, List.filterMap_cons]
      cases tileUpload blockUpload run.tile.tileMeta part.info part.tmemOffset with
      | none => rfl
      | some upload => rfl

theorem loadTileLoop_eq {info : LoadTileInfo} {numLines maxLines : UInt32}
    (hmax : 0 < maxLines.toNat) (hbound : numLines.toNat + maxLines.toNat < 2 ^ 32)
    {fuel : Nat} {line : UInt32} (hfuel : numLines.toNat - line.toNat < fuel) (run : LoadRun) :
    loadTileLoop blockUpload info numLines maxLines fuel line run =
      some (((pieces maxLines.toNat numLines.toNat line.toNat).map fun p =>
        partialLoad run.tile.tileMeta info (.ofNat p.1) (.ofNat p.2)).foldl
          (LoadRun.loadTileIteration blockUpload) run) := by
  induction fuel generalizing line run with
  | zero => exact absurd hfuel (Nat.not_lt_zero _)
  | succ fuel ih =>
    rw [loadTileLoop]
    by_cases hlt : line < numLines
    · have hlt' : line.toNat < numLines.toNat := UInt32.lt_iff_toNat_lt.mp hlt
      have hnext : (line + maxLines).toNat = line.toNat + maxLines.toNat := by
        rw [UInt32.toNat_add, Nat.mod_eq_of_lt (by omega)]
      have hrest : (numLines - line).toNat = numLines.toNat - line.toNat :=
        UInt32.toNat_sub_of_le _ _ (UInt32.le_of_lt hlt)
      have hcopy : (if maxLines < numLines - line then maxLines else numLines - line) =
          .ofNat (min (numLines.toNat - line.toNat) maxLines.toNat) := by
        rw [← UInt32.toNat_inj, UInt32.toNat_ofNat_of_lt' (by rw [UInt32.size]; omega)]
        split_ifs with h
        · rw [UInt32.lt_iff_toNat_lt, hrest] at h
          omega
        · rw [UInt32.lt_iff_toNat_lt, hrest] at h
          omega
      rw [if_pos hlt, ih (by omega), hnext, pieces_cons hmax hlt', List.map_cons, List.foldl_cons,
        UInt32.ofNat_toNat, hcopy]
      rfl
    · have hle : numLines.toNat ≤ line.toNat :=
        Nat.not_lt.mp fun h => hlt (UInt32.lt_iff_toNat_lt.mpr h)
      rw [if_neg hlt, pieces_nil hle]
      rfl

end Loop

/-- A load that is accepted: its lines are in order, a line has texels, and a line of a load that
needs several parts fits in half of texture memory. -/
structure Accepts (tileMeta : TileMeta) (info : LoadTileInfo) : Prop where
  ordered : info.firstLine ≤ info.lastLine
  width : info.lineWidth ≠ 0
  fits : needsSplit tileMeta info = true → maxLinesPerIteration tileMeta info ≠ 0

/-- The parts of a load. -/
structure LoadRun.Splits (run : LoadRun) (tile : TileInfo) (info : LoadTileInfo)
    (blockUpload : TileMeta → LoadTileInfo → UInt32 → Option UploadInfo) : Prop where
  lines : (run.partials.flatMap fun part => part.info.lines) = info.lines
  same : ∀ part ∈ run.partials, { part.info with tlo := info.tlo, thi := info.thi } = info
  even : ∀ part ∈ run.partials.dropLast, Even part.info.lines.length ∧
    part.info.lines.length * (bytesCoveredPerLine tile.tileMeta info).toNat ≤ 0x1000
  uploads : run.uploads = run.partials.filterMap fun part =>
    tileUpload blockUpload tile.tileMeta part.info part.tmemOffset
  tmem : ∀ part ∈ run.partials, ∀ upload ∈
    tileUpload blockUpload tile.tileMeta part.info part.tmemOffset,
      upload.height.toNat = part.info.lines.length ∧
      upload.tmemOffset.toNat = (tile.tileMeta.offset.toNat +
        (part.info.firstLine - info.firstLine) * tile.tileMeta.stride.toNat) % 0x1000
  tile_eq : run.tile = { tile with size := info.tileSize }

theorem tileUpload_tmem {blockUpload : TileMeta → LoadTileInfo → UInt32 → Option UploadInfo}
    {tileMeta : TileMeta} {info : LoadTileInfo} {line : UInt32} {upload : UploadInfo}
    (hmode : info.mode ≠ .Block) (hordered : info.firstLine ≤ info.lastLine)
    (h : tileUpload blockUpload tileMeta info (line * tileMeta.stride) = some upload) :
    upload.height.toNat = info.lines.length ∧
      upload.tmemOffset.toNat =
        (tileMeta.offset.toNat + line.toNat * tileMeta.stride.toNat) % 0x1000 := by
  unfold tileUpload at h
  rw [if_neg hmode] at h
  dsimp only at h
  split_ifs at h
  cases h
  refine ⟨?_, ?_⟩
  · rw [LoadTileInfo.toNat_lineCount hordered, LoadTileInfo.lines, List.length_range']
  · change (tileMeta.offset + line * tileMeta.stride).toNat &&& (2 ^ 12 - 1) = _
    rw [Nat.and_two_pow_sub_one_eq_mod, UInt32.toNat_add, UInt32.toNat_mul, Nat.add_mod_mod,
      Nat.mod_mod_of_dvd _ (by decide)]

theorem partialLoad_of_mem_pieces (tileMeta : TileMeta) {info : LoadTileInfo} {size : Nat}
    (hordered : info.firstLine ≤ info.lastLine) {p : Nat × Nat}
    (h : p ∈ pieces size info.lineCount.toNat 0) :
    (partialLoad tileMeta info (.ofNat p.1) (.ofNat p.2)).info.firstLine =
        info.firstLine + p.1 ∧
      (partialLoad tileMeta info (.ofNat p.1) (.ofNat p.2)).info.lines =
        List.range' (info.firstLine + p.1) p.2 ∧
      (UInt32.ofNat p.1).toNat = p.1 := by
  obtain ⟨-, hcount, -, hend⟩ := mem_pieces h
  have hlines := LoadTileInfo.toNat_lineCount hordered
  have hlt := info.lineCount.toNat_lt
  have hstart : (UInt32.ofNat p.1).toNat = p.1 :=
    UInt32.toNat_ofNat_of_lt' (by rw [UInt32.size]; omega)
  have hlength : (UInt32.ofNat p.2).toNat = p.2 :=
    UInt32.toNat_ofNat_of_lt' (by rw [UInt32.size]; omega)
  obtain ⟨hfirst, hlast⟩ := @partialLoad_lines tileMeta info (.ofNat p.1) (.ofNat p.2)
    (by rw [hlength]; exact hcount) (by rw [hstart, hlength]; omega)
  rw [hstart] at hfirst
  rw [hstart, hlength] at hlast
  refine ⟨hfirst, ?_, hstart⟩
  rw [LoadTileInfo.lines, hfirst, hlast]
  congr 1
  omega

/-- An accepted load that is no block is split, with as much fuel as it has lines. -/
theorem loadTile_splits (blockUpload : TileMeta → LoadTileInfo → UInt32 → Option UploadInfo)
    (tile : TileInfo) (info : LoadTileInfo) (hmode : info.mode ≠ .Block)
    (haccepts : Accepts tile.tileMeta info) :
    ∃ run : LoadRun, (∀ fuel, info.lineCount.toNat < fuel →
        loadTile blockUpload fuel tile info = some run) ∧ run.Splits tile info blockUpload := by
  obtain ⟨hordered, hwidth, hfits⟩ := haccepts
  have hlines := LoadTileInfo.toNat_lineCount hordered
  have hnoop : ¬ (info.thi >>> 2 < info.tlo >>> 2) := by
    rw [UInt16.lt_iff_toNat_lt]
    exact Nat.not_lt.mpr hordered
  unfold loadTile
  simp only [hmode, hnoop, hwidth, ne_eq, not_false_eq_true, decide_true, decide_false,
    Bool.or_self, Bool.and_false, Bool.false_eq_true, if_false, Bool.false_and]
  by_cases hsplit : needsSplit tile.tileMeta info = true
  · have hmax := hfits hsplit
    obtain ⟨heven, hbytes⟩ := maxLinesPerIteration_fits tile.tileMeta info
    have hmax' : 0 < (maxLinesPerIteration tile.tileMeta info).toNat :=
      Nat.pos_of_ne_zero fun hzero => hmax (UInt32.toNat_inj.mp hzero)
    have hbound : info.lineCount.toNat + (maxLinesPerIteration tile.tileMeta info).toNat <
        2 ^ 32 := by
      have hlast : info.lastLine < 2 ^ 16 := UInt16.toNat_lt _
      have hle : (maxLinesPerIteration tile.tileMeta info).toNat ≤ 0x1000 := by
        rw [toNat_maxLinesPerIteration]
        have hdiv := Nat.div_le_self 0x1000 (bytesCoveredPerLine tile.tileMeta info).toNat
        omega
      omega
    -- The parts that the loop issues, one for each piece of the lines.
    let parts := (pieces (maxLinesPerIteration tile.tileMeta info).toNat info.lineCount.toNat 0).map
      fun p => partialLoad tile.tileMeta info (.ofNat p.1) (.ofNat p.2)
    let run := parts.foldl (LoadRun.loadTileIteration blockUpload) { tile }
    obtain ⟨hmeta, hpartials, huploads⟩ := foldl_loadTileIteration blockUpload { tile } parts
    rw [List.nil_append] at hpartials huploads
    refine ⟨{ run with tile := { run.tile with size := info.tileSize } }, ?_, ?_⟩
    · intro fuel hfuel
      rw [if_pos hsplit, if_neg hmax, loadTileLoop_eq blockUpload hmax' hbound hfuel]
      rfl
    · refine ⟨?_, ?_, ?_, ?_, ?_, ?_⟩
      · change run.partials.flatMap _ = _
        rw [hpartials, List.flatMap_map]
        have hparts := @flatMap_pieces _ info.lineCount.toNat hmax' info.firstLine 0
        rw [Nat.add_zero, Nat.sub_zero, hlines] at hparts
        rw [LoadTileInfo.lines, ← hparts, ← hlines]
        exact List.flatMap_congr fun p hp =>
          (partialLoad_of_mem_pieces tile.tileMeta hordered hp).2.1
      · intro part hpart
        change part ∈ run.partials at hpart
        rw [hpartials] at hpart
        obtain ⟨p, -, rfl⟩ := List.mem_map.mp hpart
        rfl
      · intro part hpart
        change part ∈ run.partials.dropLast at hpart
        rw [hpartials, ← List.map_dropLast] at hpart
        obtain ⟨p, hp, rfl⟩ := List.mem_map.mp hpart
        have hfull := full_of_mem_dropLast_pieces hp
        rw [(partialLoad_of_mem_pieces tile.tileMeta hordered (List.mem_of_mem_dropLast hp)).2.1,
          List.length_range', hfull]
        exact ⟨heven, hbytes⟩
      · change run.uploads = run.partials.filterMap _
        rw [huploads, hpartials]
      · intro part hpart upload hupload
        change part ∈ run.partials at hpart
        rw [hpartials] at hpart
        obtain ⟨p, hp, rfl⟩ := List.mem_map.mp hpart
        obtain ⟨hfirst, hrange, hstart⟩ := partialLoad_of_mem_pieces tile.tileMeta hordered hp
        obtain ⟨-, hcount, -, hend⟩ := mem_pieces hp
        have hcovers : (partialLoad tile.tileMeta info (.ofNat p.1) (.ofNat p.2)).info.firstLine ≤
            (partialLoad tile.tileMeta info (.ofNat p.1) (.ofNat p.2)).info.lastLine := by
          have hlength := congrArg List.length hrange
          rw [LoadTileInfo.lines, List.length_range', List.length_range'] at hlength
          omega
        have hmode' : (partialLoad tile.tileMeta info (.ofNat p.1) (.ofNat p.2)).info.mode ≠
            .Block := hmode
        have htmem := tileUpload_tmem hmode' hcovers hupload
        rw [hstart] at htmem
        rw [hfirst, Nat.add_sub_cancel_left]
        exact htmem
      · change ({ run.tile with size := info.tileSize } : TileInfo) = _
        rw [TileInfo.mk.injEq]
        exact ⟨rfl, hmeta⟩
  · refine ⟨LoadRun.loadTileIteration blockUpload { tile } { info, tmemOffset := 0 }, ?_, ?_⟩
    · intro fuel _
      rw [if_neg hsplit]
    · refine ⟨List.append_nil _, ?_, ?_, ?_, ?_, rfl⟩
      · intro part hpart
        rw [List.mem_singleton.mp hpart]
      · exact fun part hpart => absurd hpart List.not_mem_nil
      · change [] ++ (tileUpload blockUpload tile.tileMeta info 0).toList = _
        change _ = [({ info, tmemOffset := 0 } : PartialLoad)].filterMap _
        rw [List.nil_append, List.filterMap_cons]
        cases tileUpload blockUpload tile.tileMeta info 0 with
        | none => rfl
        | some upload => rfl
      · intro part hpart upload hupload
        rw [List.mem_singleton.mp hpart] at hupload ⊢
        have hzero : (0 : UInt32) * tile.tileMeta.stride = 0 := UInt32.zero_mul
        rw [← hzero] at hupload
        have htmem := tileUpload_tmem hmode hordered hupload
        rw [Nat.sub_self]
        exact htmem

/-- A load of 64 lines of 64 texels of 16 bits, twice as much as texture memory holds. -/
def twoPartLoad : LoadTileInfo where
  texAddr := 0x100000
  texWidth := 64
  slo := 0
  tlo := 0
  shi := 252
  thi := 252
  size := .Bpp16
  mode := .Tile

theorem twoPartLoad_splits :
    ∃ run : LoadRun, (∀ fuel, twoPartLoad.lineCount.toNat < fuel →
        loadTile (fun _ _ _ => none) fuel { tileMeta := { stride := 128 } } twoPartLoad =
          some run) ∧
      run.Splits { tileMeta := { stride := 128 } } twoPartLoad fun _ _ _ => none :=
  loadTile_splits (fun _ _ _ => none) _ twoPartLoad (by decide)
    ⟨by decide, by decide, fun _ => by decide⟩

end ParallelN64.Rdp
