import ParallelN64.Phrb.Inspect

/-!
# Which record an asset belongs to

The positions that the loader's walk visits are those from the sum of the counts of the records
before, as a machine word, up to the count of the record or the end of the table. The inspector
lists an asset under the record that it names.
-/

namespace ParallelN64.Phrb

open ParallelN64.Core Replacement

section Attach

variable (pack : Pack)

/-- The asset rows that the loader attaches to a record, by their positions. -/
def Pack.walkPositions (pack : Pack) (assetBase : UInt32) : Nat → UInt32 → List UInt32
  | 0, _ => []
  | remaining + 1, ai =>
    if assetBase + ai < pack.header.assetCount then
      (assetBase + ai) :: pack.walkPositions assetBase remaining (ai + 1)
    else []

/-- The positions of the records and asset rows that the loader attaches to each other. -/
def Pack.attachFrom (pack : Pack) : Nat → Nat → UInt32 → List (Nat × UInt32)
  | 0, _, _ => []
  | remaining + 1, recordIndex, assetBase =>
    match pack.readRecord recordIndex with
    | none => []
    | some record =>
      (if record.runtimeReady then
        (pack.walkPositions assetBase record.assetCandidateCount.toNat 0).map (recordIndex, ·)
      else []) ++
        pack.attachFrom remaining (recordIndex + 1) (assetBase + record.assetCandidateCount)

def Pack.attachments : List (Nat × UInt32) :=
  pack.attachFrom pack.header.recordCount.toNat 0 0

def Pack.candidateCount (recordIndex : Nat) : UInt32 :=
  ((pack.readRecord recordIndex).map (·.assetCandidateCount)).getD 0

def Pack.assetBaseOf (recordIndex : Nat) : UInt32 :=
  ((List.range recordIndex).map pack.candidateCount).sum

theorem Pack.walkAssets_positions {assetBase : UInt32} {remaining : Nat} {ai : UInt32}
    {assets : List PHRBAsset} (h : pack.walkAssets assetBase remaining ai = (true, assets)) :
    assets.map some = (pack.walkPositions assetBase remaining ai).map pack.readAsset := by
  induction remaining generalizing ai assets with
  | zero =>
    cases h
    rfl
  | succ remaining ih =>
    rw [Pack.walkAssets] at h
    rw [Pack.walkPositions]
    by_cases hlt : assetBase + ai < pack.header.assetCount
    · rw [if_pos hlt] at h ⊢
      cases hread : pack.readAsset (assetBase + ai) with
      | none =>
        rw [hread] at h
        cases h
      | some asset =>
        rw [hread] at h
        cases hrest : pack.walkAssets assetBase remaining (ai + 1) with
        | mk complete rest =>
          rw [hrest] at h
          cases h
          rw [List.map_cons, List.map_cons, hread, ih hrest]
    · rw [if_neg hlt] at h ⊢
      cases h
      rfl

theorem Pack.walkRecords_positions {remaining recordIndex : Nat} {assetBase : UInt32}
    {visits : List (PHRBRecord × PHRBAsset)}
    (h : pack.walkRecords remaining recordIndex assetBase = (true, visits)) :
    (∀ r, recordIndex ≤ r → r < recordIndex + remaining → pack.readRecord r ≠ none) ∧
      visits.map (fun visit => (some visit.1, some visit.2)) =
        (pack.attachFrom remaining recordIndex assetBase).map fun attached =>
          (pack.readRecord attached.1, pack.readAsset attached.2) := by
  induction remaining generalizing recordIndex assetBase visits with
  | zero =>
    cases h
    refine ⟨?_, rfl⟩
    intro r hle hlt
    omega
  | succ remaining ih =>
    rw [Pack.walkRecords] at h
    rw [Pack.attachFrom]
    cases hread : pack.readRecord recordIndex with
    | none =>
      rw [hread] at h
      cases h
    | some record =>
      have hall : ∀ {base : UInt32} {rest : List (PHRBRecord × PHRBAsset)},
          pack.walkRecords remaining (recordIndex + 1) base = (true, rest) →
          ∀ r, recordIndex ≤ r → r < recordIndex + (remaining + 1) →
            pack.readRecord r ≠ none := by
        intro base rest hrest r hle hlt
        rcases Nat.eq_or_lt_of_le hle with rfl | hlt'
        · rw [hread]
          exact Option.some_ne_none record
        · exact (ih hrest).1 r hlt' (by omega)
      rw [hread] at h
      dsimp only at h ⊢
      cases hready : record.runtimeReady with
      | false =>
        rw [hready] at h
        refine ⟨hall h, ?_⟩
        rw [(ih h).2]
        rfl
      | true =>
        rw [hready] at h
        simp only [Bool.not_true, Bool.false_eq_true, if_false] at h
        cases hassets : pack.walkAssets assetBase record.assetCandidateCount.toNat 0 with
        | mk complete assets =>
          rw [hassets] at h
          cases complete with
          | false => cases h
          | true =>
            dsimp only at h
            cases hrest : pack.walkRecords remaining (recordIndex + 1)
                (assetBase + record.assetCandidateCount) with
            | mk complete rest =>
              rw [hrest] at h
              cases h
              refine ⟨hall hrest, ?_⟩
              have hpositions := pack.walkAssets_positions hassets
              rw [if_pos rfl, List.map_append, List.map_append, (ih hrest).2, List.map_map,
                List.map_map]
              congr 1
              have hpair := congrArg (List.map (Prod.mk (some record))) hpositions
              rw [List.map_map, List.map_map] at hpair
              refine hpair.trans (List.map_congr_left ?_)
              intro position _
              simp [hread]

theorem Pack.mem_walkPositions {assetBase : UInt32} {remaining : Nat} {ai : UInt32}
    (hbase : assetBase.toNat + ai.toNat < 2 ^ 32) {position : UInt32} :
    position ∈ pack.walkPositions assetBase remaining ai ↔
      ∃ k < remaining, position.toNat = assetBase.toNat + ai.toNat + k ∧
        assetBase.toNat + ai.toNat + k < pack.header.assetCount.toNat := by
  have hsum : (assetBase + ai).toNat = assetBase.toNat + ai.toNat := by
    rw [UInt32.toNat_add]
    omega
  have hcount := pack.header.assetCount.toNat_lt
  induction remaining generalizing ai with
  | zero => simp [Pack.walkPositions]
  | succ remaining ih =>
    rw [Pack.walkPositions]
    by_cases hlt : assetBase + ai < pack.header.assetCount
    · have hlt' := UInt32.lt_iff_toNat_lt.mp hlt
      rw [hsum] at hlt'
      have hone : (ai + 1).toNat = ai.toNat + 1 := by
        rw [UInt32.toNat_add, UInt32.toNat_one]
        omega
      have hnext : (assetBase + (ai + 1)).toNat = assetBase.toNat + (ai + 1).toNat := by
        rw [UInt32.toNat_add]
        omega
      have hrest := @ih (ai + 1) (by omega) hnext
      rw [hone] at hrest
      rw [if_pos hlt, List.mem_cons]
      refine (or_congr_right hrest).trans ?_
      constructor
      · rintro (rfl | ⟨k, hk, hposition, hin⟩)
        · exact ⟨0, by omega, by omega, by omega⟩
        · exact ⟨k + 1, by omega, by omega, by omega⟩
      · rintro ⟨k, hk, hposition, hin⟩
        cases k with
        | zero =>
          refine .inl (UInt32.toNat_inj.mp ?_)
          omega
        | succ k => exact .inr ⟨k, by omega, by omega, by omega⟩
    · rw [if_neg hlt]
      have hlt' := mt UInt32.lt_iff_toNat_lt.mpr hlt
      rw [hsum] at hlt'
      simp only [List.not_mem_nil, false_iff]
      rintro ⟨k, _, _, hin⟩
      omega

theorem Pack.assetBaseOf_succ (recordIndex : Nat) :
    pack.assetBaseOf (recordIndex + 1) =
      pack.assetBaseOf recordIndex + pack.candidateCount recordIndex := by
  unfold Pack.assetBaseOf
  rw [List.range_succ, List.map_append, List.sum_append, List.map_singleton, List.sum_singleton]

theorem Pack.mem_attachFrom {remaining start : Nat}
    (hread : ∀ r, start ≤ r → r < start + remaining → pack.readRecord r ≠ none)
    {recordIndex : Nat} {position : UInt32} :
    (recordIndex, position) ∈ pack.attachFrom remaining start (pack.assetBaseOf start) ↔
      start ≤ recordIndex ∧ recordIndex < start + remaining ∧
        ∃ record, pack.readRecord recordIndex = some record ∧ record.runtimeReady = true ∧
          position ∈ pack.walkPositions (pack.assetBaseOf recordIndex)
            record.assetCandidateCount.toNat 0 := by
  induction remaining generalizing start with
  | zero =>
    simp only [Pack.attachFrom, List.not_mem_nil, false_iff]
    omega
  | succ remaining ih =>
    rw [Pack.attachFrom]
    obtain ⟨record, hrecord⟩ := Option.ne_none_iff_exists'.mp (hread start (by omega) (by omega))
    have hbase : pack.assetBaseOf start + record.assetCandidateCount =
        pack.assetBaseOf (start + 1) := by
      rw [pack.assetBaseOf_succ, Pack.candidateCount, hrecord]
      rfl
    rw [hrecord]
    dsimp only
    rw [hbase, List.mem_append, ih fun r hle hlt => hread r (by omega) (by omega)]
    constructor
    · rintro (hown | ⟨hle, hlt, hrest⟩)
      · split_ifs at hown with hready
        · obtain ⟨other, hother, heq⟩ := List.mem_map.mp hown
          cases heq
          exact ⟨by omega, by omega, record, hrecord, hready, hother⟩
        · cases hown
      · exact ⟨by omega, by omega, hrest⟩
    · rintro ⟨hle, hlt, found, hfound, hready, hposition⟩
      rcases Nat.eq_or_lt_of_le hle with rfl | hlt'
      · rw [hrecord, Option.some.injEq] at hfound
        subst hfound
        left
        rw [if_pos hready]
        exact List.mem_map_of_mem hposition
      · exact .inr ⟨hlt', by omega, found, hfound, hready, hposition⟩

end Attach

section Groups

variable {data : Bytes} {header : PHRBHeader}

def recordIndexOf (data : Bytes) (header : PHRBHeader) (i : Nat) : Option Nat :=
  (assetRow data header i).map (·.recordIndex)

def ListedAt (records : List InspectedRecord) (r i : Nat) : Prop :=
  ∃ record, records[r]? = some record ∧ ∃ asset ∈ record.assetCandidates, asset.assetIndex = i

theorem groupAsset_spec {records records' : List InspectedRecord} {i : Nat}
    (h : groupAsset data header records i = some records') :
    records'.map (·.recordIndex) = records.map (·.recordIndex) ∧
      ∀ r j, ListedAt records' r j ↔
        ListedAt records r j ∨
          j = i ∧ r < records.length ∧ recordIndexOf data header i = some r := by
  unfold groupAsset at h
  obtain ⟨row, hrow, h⟩ := Option.bind_eq_some_iff.mp h
  split_ifs at h with hlt
  · obtain ⟨asset, hasset, h⟩ := Option.bind_eq_some_iff.mp h
    have hindex : asset.assetIndex = i := by
      unfold inspectAsset at hasset
      simp only [Option.bind_eq_bind, Option.bind_eq_some_iff, Option.pure_def,
        Option.some.injEq] at hasset
      obtain ⟨_, _, _, _, _, _, _, _, rfl⟩ := hasset
      rfl
    rw [Option.pure_def, Option.some.injEq] at h
    subst h
    have howner : recordIndexOf data header i = some row.recordIndex := by
      rw [recordIndexOf, hrow, Option.map_some]
    constructor
    · apply List.ext_getElem?
      intro r
      rw [List.getElem?_map, List.getElem?_map, List.getElem?_modify]
      cases records[r]? with
      | none => rfl
      | some record =>
        by_cases hr : row.recordIndex = r
        · simp [hr]
        · simp [hr]
    · intro r j
      unfold ListedAt
      rw [howner, List.getElem?_modify]
      by_cases hr : row.recordIndex = r
      · subst hr
        rw [List.getElem?_eq_getElem hlt]
        constructor
        · rintro ⟨record, hrecord, other, hother, rfl⟩
          simp only [if_true, Option.map_eq_map, Option.map_some, Option.some.injEq] at hrecord
          subst hrecord
          rcases List.mem_append.mp hother with hold | hnew
          · exact .inl ⟨_, rfl, other, hold, rfl⟩
          · rw [List.mem_singleton.mp hnew]
            exact .inr ⟨hindex, hlt, rfl⟩
        · rintro (⟨record, hrecord, other, hother, rfl⟩ | ⟨rfl, _, _⟩)
          · rw [Option.some.injEq] at hrecord
            subst hrecord
            simp only [if_true, Option.map_eq_map, Option.map_some]
            exact ⟨_, rfl, other, List.mem_append_left _ hother, rfl⟩
          · simp only [if_true, Option.map_eq_map, Option.map_some]
            exact ⟨_, rfl, asset, List.mem_append_right _ (List.mem_singleton_self _), hindex⟩
      · rw [Option.some.injEq]
        simp [hr]

theorem foldlM_groupAsset {rows : List Nat} {records records' : List InspectedRecord}
    (h : rows.foldlM (groupAsset data header) records = some records') :
    records'.map (·.recordIndex) = records.map (·.recordIndex) ∧
      ∀ r j, ListedAt records' r j ↔
        ListedAt records r j ∨
          j ∈ rows ∧ r < records.length ∧ recordIndexOf data header j = some r := by
  induction rows generalizing records with
  | nil =>
    cases h
    simp
  | cons i rows ih =>
    rw [List.foldlM_cons] at h
    obtain ⟨next, hnext, hrest⟩ := Option.bind_eq_some_iff.mp h
    obtain ⟨hkeys, hlisted⟩ := groupAsset_spec hnext
    obtain ⟨hkeys', hlisted'⟩ := ih hrest
    have hlength : next.length = records.length := by
      have hlengths := congrArg List.length hkeys
      rwa [List.length_map, List.length_map] at hlengths
    refine ⟨hkeys'.trans hkeys, ?_⟩
    intro r j
    rw [hlisted', hlisted, hlength, List.mem_cons, or_assoc]
    refine or_congr_right ?_
    constructor
    · rintro (⟨rfl, hr, howner⟩ | ⟨hj, hr, howner⟩)
      · exact ⟨.inl rfl, hr, howner⟩
      · exact ⟨.inr hj, hr, howner⟩
    · rintro ⟨rfl | hj, hr, howner⟩
      · exact .inl ⟨rfl, hr, howner⟩
      · exact .inr ⟨hj, hr, howner⟩

theorem inspectRecord_spec {i : Nat} {record : InspectedRecord}
    (h : inspectRecord data header i = some record) :
    record.recordIndex = i ∧ record.assetCandidates = [] := by
  unfold inspectRecord at h
  simp only [Option.bind_eq_bind, Option.bind_eq_some_iff, Option.pure_def,
    Option.some.injEq] at h
  obtain ⟨_, _, _, _, _, _, rfl⟩ := h
  exact ⟨rfl, rfl⟩

theorem lists_iff {data : Bytes} {inspection : Inspection}
    (h : inspectBinaryPackage data = some inspection) (r i : Nat) :
    inspection.Lists r i ↔
      i < (PHRBHeader.ofBytes (data.take headerSize)).assetCount.toNat ∧
        r < (PHRBHeader.ofBytes (data.take headerSize)).recordCount.toNat ∧
        recordIndexOf data (PHRBHeader.ofBytes (data.take headerSize)) i = some r := by
  unfold inspectBinaryPackage at h
  split_ifs at h
  dsimp only at h
  split_ifs at h
  generalize PHRBHeader.ofBytes (data.take headerSize) = header at h ⊢
  obtain ⟨records, hrecords, h⟩ := Option.bind_eq_some_iff.mp h
  obtain ⟨grouped, hgrouped, h⟩ := Option.bind_eq_some_iff.mp h
  rw [Option.pure_def, Option.some.injEq] at h
  subst h
  obtain ⟨hkeys, hlisted⟩ := foldlM_groupAsset hgrouped
  have hlength := length_of_mapM_eq_some hrecords
  rw [List.length_range] at hlength
  have hread : ∀ (r : Nat) (record : InspectedRecord), records[r]? = some record →
      record.recordIndex = r ∧ record.assetCandidates = [] := by
    intro r record hrecord
    have hr : r < records.length := (List.getElem?_eq_some_iff.mp hrecord).1
    rw [getElem?_of_mapM_eq_some hrecords, List.getElem?_range (by omega),
      Option.bind_some] at hrecord
    exact inspectRecord_spec hrecord
  have hindex : ∀ (r : Nat) (record : InspectedRecord), grouped[r]? = some record →
      record.recordIndex = r := by
    intro r record hrecord
    have hsame := congrArg (·[r]?) hkeys
    simp only [List.getElem?_map, hrecord, Option.map_some] at hsame
    obtain ⟨old, hold, hkey⟩ := Option.map_eq_some_iff.mp hsame.symm
    rw [← hkey]
    exact (hread r old hold).1
  have hlists : (∃ record ∈ grouped, record.recordIndex = r ∧
      ∃ asset ∈ record.assetCandidates, asset.assetIndex = i) ↔ ListedAt grouped r i := by
    constructor
    · rintro ⟨record, hrecord, rfl, hasset⟩
      obtain ⟨place, hplace⟩ := List.getElem?_of_mem hrecord
      rw [hindex place record hplace]
      exact ⟨record, hplace, hasset⟩
    · rintro ⟨record, hplace, hasset⟩
      exact ⟨record, List.mem_of_getElem? hplace, hindex r record hplace, hasset⟩
  have hempty : ¬ListedAt records r i := by
    rintro ⟨record, hrecord, asset, hasset, _⟩
    rw [(hread r record hrecord).2] at hasset
    cases hasset
  unfold Inspection.Lists
  rw [hlists, hlisted, hlength, List.mem_range]
  simp only [hempty, false_or]

end Groups

def OwnersAgree (pack : Pack) (inspection : Inspection) : Prop :=
  ∀ attached ∈ pack.attachments, inspection.Lists attached.1 attached.2.toNat

/-- The rows of a runtime-ready record name it: those from the sum of the counts before it, as
a machine word, up to its own count or the end of the table. -/
def OwnersInOrder (pack : Pack) (data : Bytes) : Prop :=
  ∀ r < pack.header.recordCount.toNat, ∀ record ∈ pack.readRecord r,
    record.runtimeReady = true → ∀ k < record.assetCandidateCount.toNat,
      (pack.assetBaseOf r).toNat + k < pack.header.assetCount.toNat →
        recordIndexOf data pack.header ((pack.assetBaseOf r).toNat + k) = some r

instance (pack : Pack) (data : Bytes) : Decidable (OwnersInOrder pack data) :=
  inferInstanceAs (Decidable (∀ r < _, ∀ record ∈ _, _ → ∀ k < _, _ → _))

theorem openPhrb_header {path data : Bytes} {pack : Pack} (h : openPhrb path data = some pack) :
    pack.header = PHRBHeader.ofBytes (data.take headerSize) := by
  unfold openPhrb at h
  dsimp only at h
  split_ifs at h
  cases h
  rfl

theorem complete_of_loadPhrb {p : Provider} {path data : Bytes} {pack : Pack}
    (hopen : openPhrb path data = some pack) (hload : (loadPhrb p path data).1 = true) :
    pack.complete = true := by
  rw [loadPhrb_eq_of_some hopen, Bool.and_eq_true] at hload
  exact hload.1

theorem mem_attachments_iff {pack : Pack} (h : pack.complete = true) {r : Nat} {i : UInt32} :
    (r, i) ∈ pack.attachments ↔ r < pack.header.recordCount.toNat ∧
      ∃ record ∈ pack.readRecord r, record.runtimeReady = true ∧
        ∃ k < record.assetCandidateCount.toNat, i.toNat = (pack.assetBaseOf r).toNat + k ∧
          (pack.assetBaseOf r).toNat + k < pack.header.assetCount.toNat := by
  have hread := (pack.walkRecords_positions
    (show pack.walkRecords pack.header.recordCount.toNat 0 0 = (true, pack.visits) from
      Prod.ext h rfl)).1
  unfold Pack.attachments
  rw [show (0 : UInt32) = pack.assetBaseOf 0 from rfl, pack.mem_attachFrom hread, Nat.zero_add]
  simp only [Nat.zero_le, true_and]
  refine and_congr_right fun _ => exists_congr fun record => ?_
  refine and_congr_right fun _ => and_congr_right fun _ => ?_
  have hzero : (pack.assetBaseOf r).toNat + (0 : UInt32).toNat < 2 ^ 32 :=
    (pack.assetBaseOf r).toNat_lt
  exact pack.mem_walkPositions hzero

/-- Of a file that both readers accept, loader and inspector give every asset the same record
exactly when the rows name the records in the order of their counts. -/
theorem ownersAgree_iff {p : Provider} {path data : Bytes} {pack : Pack} {inspection : Inspection}
    (hopen : openPhrb path data = some pack) (hload : (loadPhrb p path data).1 = true)
    (hinspect : inspectBinaryPackage data = some inspection) :
    OwnersAgree pack inspection ↔ OwnersInOrder pack data := by
  have hcomplete := complete_of_loadPhrb hopen hload
  have hheader := openPhrb_header hopen
  constructor
  · intro hagree r hr record hrecord hready k hk hin
    have hlt := pack.header.assetCount.toNat_lt
    have hposition : (UInt32.ofNat ((pack.assetBaseOf r).toNat + k)).toNat =
        (pack.assetBaseOf r).toNat + k := UInt32.toNat_ofNat_of_lt' (hin.trans hlt)
    have hattached := (mem_attachments_iff hcomplete).mpr
      ⟨hr, record, hrecord, hready, k, hk, hposition, hin⟩
    have hlists := (lists_iff hinspect _ _).mp (hagree _ hattached)
    rw [← hheader] at hlists
    rw [← hposition]
    exact hlists.2.2
  · rintro hinorder ⟨r, i⟩ hattached
    obtain ⟨hr, record, hrecord, hready, k, hk, hposition, hin⟩ :=
      (mem_attachments_iff hcomplete).mp hattached
    rw [lists_iff hinspect, ← hheader]
    refine ⟨?_, hr, ?_⟩
    · change i.toNat < _
      rw [hposition]
      exact hin
    · change recordIndexOf _ _ i.toNat = some r
      rw [hposition]
      exact hinorder r hr record hrecord hready k hk hin

/-- A version 2 package with two records of one asset each, which name the given records. -/
def namedAssetsFile (first second : Nat) : Bytes :=
  phrbMagic ++ (headerLayout.zipWith encodeLE [2, 2, 2, 32, 136, 232, 233]).flatten ++
    (recordLayoutV2.zipWith encodeLE [0, 0, 1, 0, 0, 0, 0, 0, 0, 0, 0, 0, 1]).flatten ++
    (recordLayoutV2.zipWith encodeLE [0, 0, 2, 0, 0, 0, 0, 0, 0, 0, 0, 0, 1]).flatten ++
    (assetLayoutV2.zipWith encodeLE [first, 0, 0, 0, 0, 1, 1, 0x1908, 0x1401, 0, 0, 4]).flatten ++
    (assetLayoutV2.zipWith encodeLE [second, 0, 0, 0, 0, 1, 1, 0x1908, 0x1401, 0, 0, 4]).flatten ++
    [0, 0, 0, 0, 0]

/-- With the names in order both readers agree. -/
theorem namedInOrder_agree :
    ∃ pack inspection, openPhrb [] (namedAssetsFile 0 1) = some pack ∧
      inspectBinaryPackage (namedAssetsFile 0 1) = some inspection ∧
      OwnersAgree pack inspection := by
  obtain ⟨pack, hopen⟩ := Option.isSome_iff_exists.mp
    (show (openPhrb [] (namedAssetsFile 0 1)).isSome = true by decide +kernel)
  obtain ⟨inspection, hinspect⟩ := Option.isSome_iff_exists.mp
    (show (inspectBinaryPackage (namedAssetsFile 0 1)).isSome = true by decide +kernel)
  have hload : (loadPhrb {} [] (namedAssetsFile 0 1)).1 = true := by decide +kernel
  refine ⟨pack, inspection, hopen, hinspect, (ownersAgree_iff hopen hload hinspect).mpr ?_⟩
  have hinorder : ∀ pack ∈ openPhrb [] (namedAssetsFile 0 1),
      OwnersInOrder pack (namedAssetsFile 0 1) := by decide +kernel
  exact hinorder pack hopen

/-- Both readers accept a package whose names are swapped, and they disagree. -/
theorem namedSwapped_not_agree :
    ∃ pack inspection, openPhrb [] (namedAssetsFile 1 0) = some pack ∧
      (loadPhrb {} [] (namedAssetsFile 1 0)).1 = true ∧
      inspectBinaryPackage (namedAssetsFile 1 0) = some inspection ∧
      ¬OwnersAgree pack inspection := by
  obtain ⟨pack, hopen⟩ := Option.isSome_iff_exists.mp
    (show (openPhrb [] (namedAssetsFile 1 0)).isSome = true by decide +kernel)
  obtain ⟨inspection, hinspect⟩ := Option.isSome_iff_exists.mp
    (show (inspectBinaryPackage (namedAssetsFile 1 0)).isSome = true by decide +kernel)
  refine ⟨pack, inspection, hopen, by decide +kernel, hinspect, ?_⟩
  intro hagree
  have hattached : ∀ pack ∈ openPhrb [] (namedAssetsFile 1 0), (0, 0) ∈ pack.attachments := by
    decide +kernel
  have howner := ((lists_iff hinspect _ _).mp (hagree (0, 0) (hattached pack hopen))).2.2
  have hother : recordIndexOf (namedAssetsFile 1 0)
      (PHRBHeader.ofBytes ((namedAssetsFile 1 0).take headerSize)) 0 = some 1 := by
    decide +kernel
  exact absurd (howner.symm.trans hother) (by decide)

end ParallelN64.Phrb
