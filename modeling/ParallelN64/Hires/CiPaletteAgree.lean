import Mathlib.Data.List.GetD
import ParallelN64.Hires.CiPalette

/-!
# The palette scans and checksums agree

The scan for the largest index and the scan for all indices visit the same bytes, so one more than
the largest index is the number of entries. Where all entries up to there are used, packing the
used ones copies the first ones, and both checksums are of the same bytes; so they are where
entries lie eight bytes apart instead of two.
-/

namespace ParallelN64.Hires

open Rdp

theorem le_foldl_max (l : List Nat) (a : Nat) : a ≤ l.foldl max a ∧ ∀ i ∈ l, i ≤ l.foldl max a := by
  induction l generalizing a with
  | nil => exact ⟨le_rfl, fun i hi => absurd hi List.not_mem_nil⟩
  | cons b l ih =>
    obtain ⟨hfirst, hrest⟩ := ih (max a b)
    refine ⟨(le_max_left a b).trans hfirst, ?_⟩
    intro i hi
    rcases List.mem_cons.mp hi with rfl | hmem
    · exact (le_max_right a i).trans hfirst
    · exact hrest i hmem

theorem foldl_max_le {l : List Nat} {a last : Nat} (ha : a ≤ last) (h : ∀ i ∈ l, i ≤ last) :
    l.foldl max a ≤ last := by
  induction l generalizing a with
  | nil => exact ha
  | cons b l ih =>
    exact ih (max_le ha (h b List.mem_cons_self)) fun i hi => h i (List.mem_cons_of_mem _ hi)

theorem foldl_max_mem {l : List Nat} (h : l ≠ []) : l.foldl max 0 ∈ l := by
  have hmem : ∀ (l : List Nat) (a : Nat), l.foldl max a = a ∨ l.foldl max a ∈ l := by
    intro l
    induction l with
    | nil => exact fun a => Or.inl rfl
    | cons b l ih =>
      intro a
      rcases ih (max a b) with heq | hmem
      · rcases max_choice a b with hleft | hright
        · exact Or.inl (heq.trans hleft)
        · refine Or.inr ?_
          rw [List.foldl_cons, heq, hright]
          exact List.mem_cons_self
      · exact Or.inr (List.mem_cons_of_mem _ hmem)
  rcases hmem l 0 with hzero | hin
  · -- All members are zero.
    obtain ⟨b, hb⟩ := List.exists_mem_of_ne_nil l h
    have hle := (le_foldl_max l 0).2 b hb
    rw [hzero] at hle ⊢
    rw [← Nat.le_zero.mp hle]
    exact hb
  · exact hin

theorem ciMaxIndex_eq {last : Nat} {indices : UInt8 → List Nat}
    (hindices : ∀ v, ∀ i ∈ indices v, i ≤ last) {cimax : Nat} (hcimax : cimax ≤ last)
    (bytes : List UInt8) :
    ciMaxIndex last indices cimax bytes = (bytes.flatMap indices).foldl max cimax := by
  induction bytes generalizing cimax with
  | nil => rfl
  | cons v bytes ih =>
    have hnext := foldl_max_le hcimax (hindices v)
    rw [List.flatMap_cons, List.foldl_append]
    unfold ciMaxIndex
    dsimp only
    split_ifs with hlast
    · have hrest : ∀ i ∈ bytes.flatMap indices, i ≤ last := by
        intro i hi
        obtain ⟨v', -, hv'⟩ := List.mem_flatMap.mp hi
        exact hindices v' i hv'
      have hle := (le_foldl_max (bytes.flatMap indices) ((indices v).foldl max cimax)).1
      have hge := foldl_max_le hnext hrest
      omega
    · exact ih hnext

variable {size : TextureSize}

theorem lt_paletteSize_of_mem_byteIndices {v : UInt8} {i : Nat} (h : i ∈ byteIndices size v) :
    i < paletteSize size := by
  cases size with
  | Bpp4 =>
    simp only [byteIndices, nibbles, List.mem_cons, List.not_mem_nil, or_false] at h
    rcases h with rfl | rfl
    · rw [UInt8.toNat_and]
      exact Nat.lt_succ_of_le Nat.and_le_right
    · rw [UInt8.toNat_and]
      exact Nat.lt_succ_of_le Nat.and_le_right
  | Bpp8 =>
    rw [List.mem_singleton.mp h]
    exact v.toNat_lt
  | Bpp16 => exact absurd h List.not_mem_nil
  | Bpp32 => exact absurd h List.not_mem_nil

theorem ciMaxIndex_byteIndices {last : Nat} (hlast : paletteSize size = last + 1)
    (bytes : List UInt8) :
    ciMaxIndex last (byteIndices size) 0 bytes =
      (bytes.flatMap (byteIndices size)).foldl max 0 := by
  refine ciMaxIndex_eq (fun v i hi => ?_) (Nat.zero_le _) _
  have hlt := lt_paletteSize_of_mem_byteIndices hi
  rw [hlast] at hlt
  exact Nat.le_of_lt_succ hlt

/-- A usage holds the indices of a list. -/
structure HiresCIPaletteUsage.Marks (usage : HiresCIPaletteUsage) (indices : List Nat) : Prop where
  mask : ∀ i, usage.usedMask i = true ↔ i ∈ indices
  valid : usage.valid = true ↔ indices ≠ []
  count : usage.usedCount = 0 ↔ indices = []
  largest : usage.maxIndex = indices.foldl max 0

theorem HiresCIPaletteUsage.Marks.mark {usage : HiresCIPaletteUsage} {indices : List Nat}
    (h : usage.Marks indices) (index : Nat) : (usage.mark index).Marks (indices ++ [index]) := by
  have hne : indices ++ [index] ≠ [] := List.append_ne_nil_of_right_ne_nil _ (List.cons_ne_nil _ _)
  have hmax : (indices ++ [index]).foldl max 0 = max (indices.foldl max 0) index := by
    rw [List.foldl_append]
    rfl
  by_cases hused : usage.usedMask index = true
  · have hmem := (h.mask index).mp hused
    have hindices : indices ≠ [] := List.ne_nil_of_mem hmem
    rw [HiresCIPaletteUsage.mark, if_pos hused]
    refine ⟨?_, ?_, ?_, ?_⟩
    · intro i
      rw [h.mask, List.mem_append, List.mem_singleton]
      constructor
      · exact Or.inl
      · rintro (hi | rfl)
        · exact hi
        · exact hmem
    · exact iff_of_true (h.valid.mpr hindices) hne
    · exact iff_of_false (fun hzero => hindices (h.count.mp hzero)) hne
    · rw [hmax, h.largest, max_eq_left ((le_foldl_max indices 0).2 index hmem)]
  · rw [HiresCIPaletteUsage.mark, if_neg hused]
    refine ⟨?_, ?_, ?_, ?_⟩
    · intro i
      simp only [Bool.or_eq_true, decide_eq_true_eq, h.mask, List.mem_append, List.mem_singleton]
      exact or_comm
    · exact iff_of_true rfl hne
    · exact iff_of_false (Nat.succ_ne_zero _) hne
    · rw [hmax]
      by_cases hvalid : usage.valid = true
      · change (if usage.valid = true then _ else _) = _
        rw [if_pos hvalid, h.largest]
      · have hindices : indices = [] := by
          by_contra hne'
          exact hvalid (h.valid.mpr hne')
        change (if usage.valid = true then _ else _) = _
        rw [if_neg hvalid, hindices]
        exact (Nat.zero_max index).symm

theorem foldl_mark_marks (indices : List Nat) :
    (indices.foldl HiresCIPaletteUsage.mark {}).Marks indices := by
  have hrun : ∀ (rest marked : List Nat) (usage : HiresCIPaletteUsage), usage.Marks marked →
      (rest.foldl HiresCIPaletteUsage.mark usage).Marks (marked ++ rest) := by
    intro rest
    induction rest with
    | nil =>
      intro marked usage h
      rw [List.append_nil]
      exact h
    | cons index rest ih =>
      intro marked usage h
      rw [List.append_cons]
      exact ih _ _ (h.mark index)
  refine hrun indices [] {} ⟨?_, ?_, ?_, rfl⟩
  · exact fun i => iff_of_false Bool.false_ne_true List.not_mem_nil
  · exact iff_of_false Bool.false_ne_true fun h => h rfl
  · exact iff_of_true rfl rfl

def regionIndices (size : TextureSize) (memory : List UInt8) (srcBase width
    height rowStrideBytes : UInt32) : List Nat :=
  (regionBytes memory srcBase rowStrideBytes (rowBytes size width).toNat
    height.toNat).flatMap (byteIndices size)

section Region

variable {size : TextureSize} {memory : List UInt8} (srcBase : UInt32) {width
  height : UInt32} (rowStrideBytes : UInt32)

theorem lt_paletteSize_of_mem_regionIndices {i : Nat}
    (h : i ∈ regionIndices size memory srcBase width height rowStrideBytes) :
    i < paletteSize size := by
  obtain ⟨v, -, hv⟩ := List.mem_flatMap.mp h
  exact lt_paletteSize_of_mem_byteIndices hv

theorem regionIndices_ne_nil (hsize : size = .Bpp4 ∨ size = .Bpp8)
    (hrow : rowBytes size width ≠ 0) (hheight : height ≠ 0) :
    regionIndices size memory srcBase width height rowStrideBytes ≠ [] := by
  have hrow' : 0 < (rowBytes size width).toNat :=
    Nat.pos_of_ne_zero fun h => hrow (UInt32.toNat_inj.mp h)
  have hheight' : 0 < height.toNat :=
    Nat.pos_of_ne_zero fun h => hheight (UInt32.toNat_inj.mp h)
  have hbyte : ∀ v, byteIndices size v ≠ [] := by
    intro v
    rcases hsize with rfl | rfl
    · exact List.cons_ne_nil _ _
    · exact List.cons_ne_nil _ _
  intro hnil
  have hfirst : wrappedReadU8 memory
      (rowAddr memory.length srcBase rowStrideBytes 0 + UInt32.ofNat 0) ∈
        regionBytes memory srcBase rowStrideBytes (rowBytes size width).toNat
          height.toNat :=
    List.mem_flatMap.mpr ⟨0, List.mem_range.mpr hheight',
      List.mem_map.mpr ⟨0, List.mem_range.mpr hrow', rfl⟩⟩
  exact hbyte _ (List.flatMap_eq_nil_iff.mp hnil _ hfirst)

variable (hmemory : memory.length ≠ 0)

include hmemory

theorem scanUsage_marks :
    (scanUsage size memory srcBase width height rowStrideBytes).Marks
      (regionIndices size memory srcBase width height rowStrideBytes) := by
  rw [scanUsage, if_neg hmemory]
  exact foldl_mark_marks _

theorem scanUsage_maxIndex (hsize : size = .Bpp4 ∨ size = .Bpp8)
    (hrow : rowBytes size width ≠ 0) (hheight : height ≠ 0) :
    (scanUsage size memory srcBase width height rowStrideBytes).maxIndex <
        paletteSize size ∧
      IsGreatest
        {i | (scanUsage size memory srcBase width height
          rowStrideBytes).usedMask i = true}
        (scanUsage size memory srcBase width height
          rowStrideBytes).maxIndex := by
  have hmarks := @scanUsage_marks size memory srcBase width height
    rowStrideBytes hmemory
  have hmem := foldl_max_mem (@regionIndices_ne_nil size memory srcBase width
    height rowStrideBytes hsize hrow hheight)
  rw [hmarks.largest]
  refine ⟨lt_paletteSize_of_mem_regionIndices _ _ hmem, (hmarks.mask _).mpr hmem, ?_⟩
  intro i hi
  exact (le_foldl_max _ 0).2 i ((hmarks.mask i).mp hi)

theorem computeHiresCiPaletteEntryCount_eq (hsize : size = .Bpp4 ∨ size = .Bpp8)
    (hrow : rowBytes size width ≠ 0) (hheight : height ≠ 0) :
    computeHiresCiPaletteEntryCount size memory srcBase width height
        rowStrideBytes =
      (computeHiresCiPaletteUsage size memory srcBase width height
        rowStrideBytes).maxIndex + 1 := by
  have hmarks := @scanUsage_marks size memory srcBase width height
    rowStrideBytes hmemory
  obtain ⟨hlt, -⟩ := @scanUsage_maxIndex size memory srcBase width height
    rowStrideBytes hmemory hsize hrow hheight
  rw [hmarks.largest] at hlt
  unfold computeHiresCiPaletteUsage computeHiresCiPaletteEntryCount
  rw [hmarks.largest, if_neg hmemory]
  rcases hsize with rfl | rfl
  · have hscan := @ciMaxIndex_byteIndices .Bpp4 0xf rfl (regionBytes memory srcBase
      rowStrideBytes (rowBytes .Bpp4 width).toNat height.toNat)
    change min (ciMaxIndex _ _ _ _ + 1) 16 = _
    rw [hscan]
    exact min_eq_left hlt
  · have hscan := @ciMaxIndex_byteIndices .Bpp8 0xff rfl (regionBytes memory srcBase
      rowStrideBytes (rowBytes .Bpp8 width).toNat height.toNat)
    change min (ciMaxIndex _ _ _ _ + 1) 256 = _
    rw [hscan]
    exact min_eq_left hlt

theorem computeHiresCiPaletteEntryCountTmem_eq (hsize : size = .Bpp4 ∨ size = .Bpp8)
    (hrow : rowBytes size width ≠ 0) (hheight : height ≠ 0) :
    computeHiresCiPaletteEntryCountTmem size memory srcBase width height
        rowStrideBytes =
      (computeHiresCiPaletteUsageTmem size memory srcBase width height
        rowStrideBytes).maxIndex + 1 := by
  have hmarks := @scanUsage_marks size memory srcBase width height
    rowStrideBytes hmemory
  obtain ⟨hlt, -⟩ := @scanUsage_maxIndex size memory srcBase width height
    rowStrideBytes hmemory hsize hrow hheight
  have hvalid := hmarks.valid.mpr (regionIndices_ne_nil srcBase rowStrideBytes hsize hrow
    hheight)
  unfold computeHiresCiPaletteEntryCountTmem computeHiresCiPaletteUsageTmem
  dsimp only
  rw [if_pos hvalid]
  rcases hsize with rfl | rfl
  · exact min_eq_left hlt
  · exact min_eq_left hlt

end Region

theorem length_packEntries (tlut : List UInt8) (stride : Nat) (entries : List Nat) :
    (packEntries tlut stride entries).length = entries.length * 2 := by
  induction entries with
  | nil => rfl
  | cons entry entries ih =>
    rw [packEntries, List.flatMap_cons, List.length_append, ← packEntries, ih, List.length_cons,
      List.length_cons, List.length_nil, List.length_cons]
    omega

theorem packEntries_getD {tlut : List UInt8} {start count j : Nat} (hj : j < count * 2) :
    (packEntries tlut 2 ((List.range count).map fun index => start + index)).getD j 0 =
      tlut.getD (start * 2 + j) 0 := by
  induction count with
  | zero => exact absurd hj (Nat.not_lt_zero _)
  | succ count ih =>
    have hlength : (packEntries tlut 2 ((List.range count).map fun index => start + index)).length =
        count * 2 := by
      rw [length_packEntries, List.length_map, List.length_range]
    have happend : packEntries tlut 2 ((List.range (count + 1)).map fun index => start + index) =
        packEntries tlut 2 ((List.range count).map fun index => start + index) ++
          [tlut.getD ((start + count) * 2) 0, tlut.getD ((start + count) * 2 + 1) 0] := by
      rw [List.range_succ, List.map_append, packEntries, List.flatMap_append]
      rfl
    rw [happend]
    rcases Nat.lt_or_ge j (count * 2) with hlt | hge
    · rw [List.getD_append _ _ _ _ (by rw [hlength]; exact hlt), ih hlt]
    · rw [List.getD_append_right _ _ _ _ (by rw [hlength]; exact hge), hlength]
      have hlast : j = count * 2 ∨ j = count * 2 + 1 := by omega
      rcases hlast with rfl | rfl
      · rw [Nat.sub_self, Nat.add_mul]
        rfl
      · rw [Nat.add_sub_cancel_left, Nat.add_mul]
        rfl

theorem bytesPerLine_entries {entries : Nat} (h : entries ≤ 256) :
    (bytesPerLine (UInt32.ofNat entries) 2).toNat = entries * 2 := by
  rw [bytesPerLine_two, UInt32.toNat_ofNat']
  omega

theorem riceCrc32Wrapped_line {memory : List UInt8} {k base count : Nat} (hk : k ≤ 32)
    (hmemory : memory.length = 2 ^ k) (hroom : base + count * 2 ≤ 2 ^ k) (hpos : 0 < count)
    (hcount : count ≤ 256) (rowStride : UInt32) :
    riceCrc32Wrapped memory (UInt32.ofNat base) (UInt32.ofNat count) 1 2 rowStride =
      if count * 2 < 4 then 0
      else hashLines (fun _ x => word32 fun i => memory.getD (base + x + i) 0) (count * 2) 1 := by
  have htwo : (2 : Nat) ^ k ≤ 2 ^ 32 := Nat.pow_le_pow_right (by decide) hk
  have hcount' : UInt32.ofNat count ≠ 0 := by
    intro hzero
    have hnat := congrArg UInt32.toNat hzero
    rw [UInt32.toNat_ofNat', Nat.mod_eq_of_lt (by omega)] at hnat
    exact hpos.ne' hnat
  have hbytes := bytesPerLine_entries hcount
  have hshort : bytesPerLine (UInt32.ofNat count) 2 < 4 ↔ count * 2 < 4 := by
    rw [UInt32.lt_iff_toNat_lt, hbytes]
    rfl
  unfold riceCrc32Wrapped
  have hpresent : ¬ (memory.length = 0 ∨ UInt32.ofNat count = 0 ∨ (1 : UInt32) = 0) := by
    rintro (hempty | hzero | hone)
    · rw [hmemory] at hempty
      exact (Nat.two_pow_pos k).ne' hempty
    · exact hcount' hzero
    · exact absurd hone (by decide)
  rw [if_neg hpresent]
  by_cases hlt : count * 2 < 4
  · rw [if_pos (hshort.mpr hlt), if_pos hlt]
  · rw [if_neg fun h => hlt (hshort.mp h), if_neg hlt, hbytes]
    refine hashLines_congr fun line hline x hx => word32_congr fun i hi => ?_
    obtain rfl : line = 0 := Nat.lt_one_iff.mp hline
    have hx' := mem_lineOffsets hx
    have hbase : ((UInt32.ofNat base) + UInt32.ofNat 0 * rowStride).toNat = base := by
      rw [UInt32.toNat_add, UInt32.toNat_mul, UInt32.toNat_ofNat', UInt32.toNat_ofNat']
      omega
    have hrow : (rowAddr (2 ^ k) (UInt32.ofNat base) rowStride 0).toNat = base := by
      change maskedAddress (2 ^ k) _ = _
      rw [maskedAddress_of_lt hk (by rw [hbase]; omega), hbase]
    have hsum : (rowAddr (2 ^ k) (UInt32.ofNat base) rowStride 0 + UInt32.ofNat x +
        UInt32.ofNat i).toNat = base + x + i := by
      rw [UInt32.toNat_add, UInt32.toNat_add, hrow, UInt32.toNat_ofNat', UInt32.toNat_ofNat']
      omega
    unfold wrappedReadU8
    rw [hmemory, maskedAddress_of_lt hk (by rw [hsum]; omega), hsum]

theorem riceCrc32Wrapped_entries {tlut : List UInt8} {k start count : Nat} (hk : k ≤ 32)
    (htlut : tlut.length = 2 ^ k) (hroom : (start + count) * 2 ≤ 2 ^ k) (hpos : 0 < count)
    (hcount : count ≤ 256) (rowStride : UInt32) :
    riceCrc32Wrapped tlut (UInt32.ofNat (start * 2)) (UInt32.ofNat count) 1 2 rowStride =
      packedCrc (packEntries tlut 2 ((List.range count).map fun index => start + index)) := by
  let packed := packEntries tlut 2 ((List.range count).map fun index => start + index)
  have hpacked : packed.length = count * 2 := by
    rw [length_packEntries, List.length_map, List.length_range]
  have hpadded : (packed ++ List.replicate (512 - packed.length) 0).length = 2 ^ 9 := by
    rw [List.length_append, List.length_replicate, hpacked]
    omega
  have hhalf : packed.length / 2 = count := by omega
  have hcrc : packedCrc packed =
      riceCrc32Wrapped (packed ++ List.replicate (512 - packed.length) 0) (UInt32.ofNat 0)
        (UInt32.ofNat count) 1 2 (UInt32.ofNat count * 2) := by
    unfold packedCrc
    dsimp only
    rw [hhalf, if_neg hpos.ne']
    rfl
  change _ = packedCrc packed
  rw [hcrc, riceCrc32Wrapped_line (by decide) hpadded (by omega) hpos hcount,
    riceCrc32Wrapped_line hk htlut (by omega) hpos hcount]
  split_ifs
  · rfl
  · refine hashLines_congr fun line hline x hx => word32_congr fun i hi => ?_
    have hx' := mem_lineOffsets hx
    rw [List.getD_append _ _ _ _ (by rw [hpacked]; omega), packEntries_getD (by omega)]
    congr 1
    omega

/-- The entries of a palette lie in texture memory eight bytes apart. -/
structure SameEntries (tlut tmem : List UInt8) : Prop where
  tlut_length : 512 ≤ tlut.length
  tmem_length : 2048 ≤ tmem.length
  low : ∀ entry < 256, tmem.getD (entry * 8) 0 = tlut.getD (entry * 2) 0
  high : ∀ entry < 256, tmem.getD (entry * 8 + 1) 0 = tlut.getD (entry * 2 + 1) 0

theorem SameEntries.packEntries_eq {tlut tmem : List UInt8} (h : SameEntries tlut tmem)
    {entries : List Nat} (hentries : ∀ entry ∈ entries, entry < 256) :
    packEntries tmem 8 entries = packEntries tlut 2 entries := by
  refine List.flatMap_congr fun entry hentry => ?_
  rw [h.low entry (hentries entry hentry), h.high entry (hentries entry hentry)]

theorem paletteStart_add_le (size : TextureSize) (palette : UInt32) :
    paletteStart size palette + paletteSize size ≤ 256 := by
  cases size with
  | Bpp4 =>
    change min palette.toNat 15 * 16 + 16 ≤ 256
    omega
  | Bpp8 | Bpp16 | Bpp32 => exact Nat.le_of_ble_eq_true rfl

theorem lt_of_mem_map_paletteStart {palette : UInt32} {indices : List Nat}
    (h : ∀ index ∈ indices, index < paletteSize size) :
    ∀ entry ∈ indices.map fun index => paletteStart size palette + index, entry < 256 := by
  intro entry hentry
  obtain ⟨index, hindex, rfl⟩ := List.mem_map.mp hentry
  have hlt := h index hindex
  have hle := paletteStart_add_le size palette
  omega

theorem computeHiresCiPaletteCrcForEntries_eq {tlut : List UInt8} {k : Nat} (hk : k ≤ 32)
    (htlut : tlut.length = 2 ^ k) (size : TextureSize) (palette : UInt32) (valid : Bool)
    (entries : Nat) :
    computeHiresCiPaletteCrcForEntries size palette tlut valid entries =
      if !valid || tlut.length < 512 then 0
      else
        packedCrc (packEntries tlut 2 ((List.range (min entries (paletteSize size))).map
          fun index => paletteStart size palette + index)) := by
  unfold computeHiresCiPaletteCrcForEntries
  by_cases habsent : (!valid || decide (tlut.length < 512)) = true
  · rw [if_pos habsent, if_pos habsent]
  rw [if_neg habsent, if_neg habsent]
  have hlong : 512 ≤ 2 ^ k := by
    rw [← htlut]
    simp only [Bool.or_eq_true, decide_eq_true_eq, not_or, not_lt] at habsent
    exact habsent.2
  have hempty : packedCrc [] = 0 := rfl
  cases size with
  | Bpp8 =>
    change (if min entries 256 = 0 then 0 else _) = packedCrc (packEntries tlut 2
      ((List.range (min entries 256)).map fun index => 0 + index))
    split_ifs with hzero
    · rw [hzero]
      exact hempty.symm
    · have hcrc := @riceCrc32Wrapped_entries tlut k 0 (min entries 256) hk htlut (by omega)
        (Nat.pos_of_ne_zero hzero) (min_le_right _ _) 512
      rw [← hcrc]
      rfl
  | Bpp4 =>
    change (if min entries 16 = 0 then 0 else _) = packedCrc (packEntries tlut 2
      ((List.range (min entries 16)).map fun index => min palette.toNat 15 * 16 + index))
    split_ifs with hzero
    · rw [hzero]
      exact hempty.symm
    · have hcrc := @riceCrc32Wrapped_entries tlut k (min palette.toNat 15 * 16) (min entries 16) hk
        htlut (by omega) (Nat.pos_of_ne_zero hzero) (by omega) 32
      rw [← hcrc, Nat.mul_assoc]
  | Bpp16 | Bpp32 =>
    rw [show min entries (paletteSize _) = 0 from Nat.min_zero _]
    exact hempty.symm

theorem usedIndices_eq {usage : HiresCIPaletteUsage} (hlt : usage.maxIndex < paletteSize size)
    (hgreatest : IsGreatest {i | usage.usedMask i = true} usage.maxIndex)
    (hall : ∀ i < usage.maxIndex + 1, usage.usedMask i = true) :
    usedIndices size usage = List.range (usage.maxIndex + 1) := by
  have hsplit : paletteSize size = usage.maxIndex + 1 + (paletteSize size - (usage.maxIndex + 1)) :=
    by omega
  rw [usedIndices, hsplit, List.range_add, List.filter_append]
  have hfirst : (List.range (usage.maxIndex + 1)).filter usage.usedMask =
      List.range (usage.maxIndex + 1) :=
    List.filter_eq_self.mpr fun i hi => hall i (List.mem_range.mp hi)
  have hrest : ((List.range (paletteSize size - (usage.maxIndex + 1))).map
      fun i => usage.maxIndex + 1 + i).filter usage.usedMask = [] := by
    refine List.filter_eq_nil_iff.mpr fun i hi hused => ?_
    obtain ⟨j, -, rfl⟩ := List.mem_map.mp hi
    have hle := hgreatest.2 hused
    omega
  rw [hfirst, hrest, List.append_nil]

/-- The scans of a region and the checksums of a palette agree. -/
structure PaletteVariantsAgree (size : TextureSize) (memory : List UInt8) (srcBase
    width height rowStrideBytes palette : UInt32) (tlut tmem : List UInt8) :
    Prop where
  count : computeHiresCiPaletteEntryCount size memory srcBase width height
      rowStrideBytes =
    (computeHiresCiPaletteUsage size memory srcBase width height
      rowStrideBytes).maxIndex + 1
  largest : IsGreatest
    {i | (computeHiresCiPaletteUsage size memory srcBase width height
      rowStrideBytes).usedMask i = true}
    (computeHiresCiPaletteUsage size memory srcBase width height
      rowStrideBytes).maxIndex
  countTmem : computeHiresCiPaletteEntryCountTmem size memory srcBase width
      height rowStrideBytes =
    (computeHiresCiPaletteUsageTmem size memory srcBase width height
      rowStrideBytes).maxIndex + 1
  largestTmem : IsGreatest
    {i | (computeHiresCiPaletteUsageTmem size memory srcBase width height
      rowStrideBytes).usedMask i = true}
    (computeHiresCiPaletteUsageTmem size memory srcBase width height
      rowStrideBytes).maxIndex
  sparse : ∀ valid,
    (∀ i < computeHiresCiPaletteEntryCount size memory srcBase width height
        rowStrideBytes,
      (computeHiresCiPaletteUsage size memory srcBase width height
        rowStrideBytes).usedMask i = true) →
    computeHiresCiPaletteCrcForUsedIndices size palette tlut valid
        (computeHiresCiPaletteUsage size memory srcBase width height
          rowStrideBytes) =
      computeHiresCiPaletteCrcForEntries size palette tlut valid
        (computeHiresCiPaletteEntryCount size memory srcBase width height
          rowStrideBytes)
  sparseTmem : ∀ valid,
    (∀ i < computeHiresCiPaletteEntryCountTmem size memory srcBase width
        height rowStrideBytes,
      (computeHiresCiPaletteUsageTmem size memory srcBase width height
        rowStrideBytes).usedMask i = true) →
    computeHiresCiPaletteCrcForUsedIndicesTmem size palette tmem valid
        (computeHiresCiPaletteUsageTmem size memory srcBase width height
          rowStrideBytes) =
      computeHiresCiPaletteCrcForEntriesTmem size palette tmem valid
        (computeHiresCiPaletteEntryCountTmem size memory srcBase width
          height rowStrideBytes)
  used : SameEntries tlut tmem → ∀ valid usage,
    computeHiresCiPaletteCrcForUsedIndicesTmem size palette tmem valid usage =
      computeHiresCiPaletteCrcForUsedIndices size palette tlut valid usage
  entries : SameEntries tlut tmem → ∀ valid entries,
    computeHiresCiPaletteCrcForEntriesTmem size palette tmem valid entries =
      computeHiresCiPaletteCrcForEntries size palette tlut valid entries

/-- For every indexed texture with bytes and a table whose size is a power of two. -/
theorem paletteVariantsAgree {size : TextureSize} (hsize : size = .Bpp4 ∨ size = .Bpp8)
    {memory : List UInt8} (hmemory : memory.length ≠ 0) (srcBase : UInt32)
    {width height : UInt32} (hrow : rowBytes size width ≠ 0)
    (hheight : height ≠ 0) (rowStrideBytes palette : UInt32) {tlut : List UInt8} {k : Nat}
    (hk : k ≤ 32) (htlut : tlut.length = 2 ^ k) (tmem : List UInt8) :
    PaletteVariantsAgree size memory srcBase width height rowStrideBytes
      palette tlut tmem := by
  have hcount := computeHiresCiPaletteEntryCount_eq srcBase rowStrideBytes hmemory hsize hrow
    hheight
  have hcountTmem := computeHiresCiPaletteEntryCountTmem_eq srcBase rowStrideBytes hmemory
    hsize hrow hheight
  obtain ⟨hlt, hgreatest⟩ := scanUsage_maxIndex srcBase rowStrideBytes hmemory hsize hrow
    hheight
  have hmarks := @scanUsage_marks size memory srcBase width height
    rowStrideBytes hmemory
  have hne := @regionIndices_ne_nil size memory srcBase width height
    rowStrideBytes hsize hrow hheight
  have hpresent : (!(scanUsage size memory srcBase width height
      rowStrideBytes).valid || decide ((scanUsage size memory srcBase width
        height rowStrideBytes).usedCount = 0)) = false := by
    simp only [hmarks.valid.mpr hne, Bool.not_true, Bool.false_or, decide_eq_false_iff_not]
    exact fun hzero => hne (hmarks.count.mp hzero)
  refine ⟨hcount, hgreatest, hcountTmem, hgreatest, ?_, ?_, ?_, ?_⟩
  · intro valid hall
    rw [hcount] at hall ⊢
    rw [computeHiresCiPaletteCrcForEntries_eq hk htlut]
    unfold computeHiresCiPaletteCrcForUsedIndices computeHiresCiPaletteUsage at *
    rw [hpresent, usedIndices_eq hlt hgreatest hall, min_eq_left hlt]
    rfl
  · intro valid hall
    rw [hcountTmem] at hall ⊢
    unfold computeHiresCiPaletteCrcForUsedIndicesTmem computeHiresCiPaletteCrcForEntriesTmem
      computeHiresCiPaletteUsageTmem at *
    rw [hpresent, usedIndices_eq hlt hgreatest hall, min_eq_left hlt]
    rfl
  · intro hsame valid usage
    unfold computeHiresCiPaletteCrcForUsedIndicesTmem computeHiresCiPaletteCrcForUsedIndices
    have hindices : ∀ index ∈ usedIndices size usage, index < paletteSize size :=
      fun index hindex => List.mem_range.mp (List.mem_of_mem_filter hindex)
    rw [hsame.packEntries_eq (lt_of_mem_map_paletteStart hindices),
      decide_eq_false (Nat.not_lt.mpr hsame.tmem_length),
      decide_eq_false (Nat.not_lt.mpr hsame.tlut_length)]
  · intro hsame valid entries
    rw [computeHiresCiPaletteCrcForEntries_eq hk htlut]
    unfold computeHiresCiPaletteCrcForEntriesTmem
    have hindices : ∀ index ∈ List.range (min entries (paletteSize size)),
        index < paletteSize size :=
      fun index hindex => (List.mem_range.mp hindex).trans_le (min_le_right _ _)
    rw [hsame.packEntries_eq (lt_of_mem_map_paletteStart hindices),
      decide_eq_false (Nat.not_lt.mpr hsame.tmem_length),
      decide_eq_false (Nat.not_lt.mpr hsame.tlut_length)]

/-- Two lines of three indices of four bits. -/
theorem paletteVariantsAgree_three_by_two :
    PaletteVariantsAgree .Bpp4 [0x01, 0x20, 0x12, 0x00] 0 3 2 2 0 (List.replicate 512 0x41)
      (List.replicate 2048 0x41) :=
  paletteVariantsAgree (Or.inl rfl) (by decide) 0 (by decide) (by decide) 2 0
    (show 9 ≤ 32 by decide) List.length_replicate _

end ParallelN64.Hires
