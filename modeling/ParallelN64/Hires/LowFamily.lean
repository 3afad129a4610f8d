import ParallelN64.Hires.Identity

/-!
# What the diagnostics say about a palettized family

The entries that share the low half of their checksum are one family. The diagnostics choose
its active class, the entries of the exact format size or else the generic ones, and count the
checksums and dimensions in it. The lookups scan the family with fallbacks of their own.
-/

namespace ParallelN64.Hires

open ParallelN64.Core Replacement Phrb

/-- The counters reported for the entries with one low half of the checksum. -/
structure CILow32FamilyDiagnostics where
  available : Bool := false
  preferExactFormatsize : Bool := false
  exactFormatsizeEntries : UInt32 := 0
  genericFormatsizeEntries : UInt32 := 0
  activeEntryCount : UInt32 := 0
  activeUniqueChecksumCount : UInt32 := 0
  activeUniquePaletteCount : UInt32 := 0
  activeUniqueReplDimCount : UInt32 := 0
  activePreferredPaletteMatchCount : UInt32 := 0
  sampleReplW : UInt32 := 0
  sampleReplH : UInt32 := 0
  activeReplDimsUniform : Bool := false
  deriving DecidableEq, Repr

/-- Count an entry by its format size. -/
def CILow32FamilyDiagnostics.countFormatsize (formatsize : UInt16)
    (diag : CILow32FamilyDiagnostics) (entry : Entry) : CILow32FamilyDiagnostics :=
  if entry.formatsize == formatsize then
    { diag with exactFormatsizeEntries := diag.exactFormatsizeEntries + 1 }
  else if entry.formatsize == 0 then
    { diag with genericFormatsizeEntries := diag.genericFormatsizeEntries + 1 }
  else diag

def paletteOf (checksum64 : UInt64) : UInt32 := (checksum64 >>> 32).toUInt32

def packDims (entry : Entry) : UInt64 := entry.width.toUInt64 <<< 32 ||| entry.height.toUInt64

/-- The diagnostics with the values seen so far in the active class. -/
structure FamilyScan where
  diag : CILow32FamilyDiagnostics
  uniqueChecksums : List UInt64 := []
  uniquePalettes : List UInt32 := []
  uniqueReplDims : List UInt64 := []

/-- Scan one entry of the active class. -/
def FamilyScan.visit (palette : UInt32) (scan : FamilyScan) (entry : Entry) :
    FamilyScan :=
  let diag := { scan.diag with activeEntryCount := scan.diag.activeEntryCount + 1 }
  let diag := if paletteOf entry.checksum64 == palette then
      { diag with activePreferredPaletteMatchCount := diag.activePreferredPaletteMatchCount + 1 }
    else diag
  let diag := if diag.sampleReplW == 0 && diag.sampleReplH == 0 then
      { diag with sampleReplW := entry.width, sampleReplH := entry.height }
    else diag
  { diag := diag
    uniqueChecksums := pushUnique scan.uniqueChecksums entry.checksum64
    uniquePalettes := pushUnique scan.uniquePalettes (paletteOf entry.checksum64)
    uniqueReplDims := pushUnique scan.uniqueReplDims (packDims entry) }

/-- The counts of a finished scan, with the sample dimensions of a uniform class. -/
def FamilyScan.finish (scan : FamilyScan) : CILow32FamilyDiagnostics :=
  let diag := { scan.diag with
    activeUniqueChecksumCount := UInt32.ofNat scan.uniqueChecksums.length
    activeUniquePaletteCount := UInt32.ofNat scan.uniquePalettes.length
    activeUniqueReplDimCount := UInt32.ofNat scan.uniqueReplDims.length }
  let diag := { diag with
    activeReplDimsUniform := diag.activeUniqueReplDimCount == 1 && diag.activeEntryCount > 0 }
  match scan.uniqueReplDims with
  | front :: _ =>
    if diag.activeReplDimsUniform then
      { diag with
        sampleReplW := (front >>> 32).toUInt32
        sampleReplH := (front &&& 0xffffffff).toUInt32 }
    else diag
  | [] => diag

def CILow32FamilyDiagnostics.activeFormatsize (diag : CILow32FamilyDiagnostics)
    (formatsize : UInt16) : UInt16 :=
  if diag.preferExactFormatsize then formatsize else 0

/-- Whether the exact class is counted as nonempty. -/
def CILow32FamilyDiagnostics.chooseClass (diag : CILow32FamilyDiagnostics) :
    CILow32FamilyDiagnostics :=
  { diag with
    available := true
    preferExactFormatsize := diag.exactFormatsizeEntries > 0 }

section Queries

variable (p : Provider) (low32 : UInt32) (formatsize : UInt16)

/-- The diagnostics of a family. -/
def describeCILow32Family (palette : UInt32) : Option CILow32FamilyDiagnostics :=
  if !p.enabled then none
  else match p.compatChecksumLow32Index.lookup low32 with
  | none => none
  | some indices =>
    let entries := indices.map p.entryAt
    let diag := (entries.foldl (CILow32FamilyDiagnostics.countFormatsize formatsize)
      {}).chooseClass
    some ((entries.filter (·.formatsize == diag.activeFormatsize formatsize)).foldl
      (FamilyScan.visit palette) { diag := diag }).finish

def findCILow32Unique : Option Entry :=
  (findCILow32Entry p low32 formatsize 0 0 0 .unique).map Prod.fst

def findCILow32ReplDimsUnique : Option Entry :=
  (findCILow32Entry p low32 formatsize 0 0 0 .replacementDimsUnique).map Prod.fst

def lookupCILow32 (entry : Option Entry) : Option (ReplacementMeta × UInt64) :=
  if !p.enabled then none
  else entry.map fun entry => (populateMetaFromEntry entry, entry.checksum64)

def lookupCILow32Unique : Option (ReplacementMeta × UInt64) :=
  lookupCILow32 p (findCILow32Unique p low32 formatsize)

def lookupCILow32ReplDimsUnique : Option (ReplacementMeta × UInt64) :=
  lookupCILow32 p (findCILow32ReplDimsUnique p low32 formatsize)

end Queries

section Collect

variable {α β : Type} [DecidableEq β]

theorem nodup_pushUnique {values : List β} (h : values.Nodup) (value : β) :
    (pushUnique values value).Nodup := by
  unfold pushUnique
  split
  next => exact h
  next hnew =>
    apply List.Nodup.append h (List.nodup_singleton value)
    rw [List.disjoint_singleton]
    exact hnew

def collect (f : α → β) (l : List α) : List β :=
  l.foldl (fun values a => pushUnique values (f a)) []

theorem collect_append_singleton (f : α → β) (l : List α) (a : α) :
    collect f (l ++ [a]) = pushUnique (collect f l) (f a) := by
  rw [collect, List.foldl_append]
  rfl

theorem nodup_collect (f : α → β) (l : List α) : (collect f l).Nodup := by
  induction l using List.reverseRecOn with
  | nil => exact List.nodup_nil
  | append_singleton l a ih =>
    rw [collect_append_singleton]
    exact nodup_pushUnique ih (f a)

variable {f : α → β} {l : List α}

theorem mem_collect {b : β} : b ∈ collect f l ↔ ∃ a ∈ l, f a = b := by
  rw [collect, mem_foldl_pushUnique]
  simp

def Sole (f : α → β) (l : List α) (b : β) : Prop := l ≠ [] ∧ ∀ a ∈ l, f a = b

omit [DecidableEq β] in
theorem Sole.unique {f : α → β} {l : List α} {b c : β} (hb : Sole f l b) (hc : Sole f l c) :
    b = c := by
  obtain ⟨a, ha⟩ := List.exists_mem_of_ne_nil l hb.1
  exact (hb.2 a ha).symm.trans (hc.2 a ha)

theorem collect_eq_singleton_iff {b : β} : collect f l = [b] ↔ Sole f l b := by
  constructor
  · intro h
    have hmem : ∀ c, c ∈ collect f l ↔ c = b := by simp [h]
    constructor
    · rintro rfl
      cases h
    · exact fun a ha => (hmem (f a)).mp (mem_collect.mpr ⟨a, ha, rfl⟩)
  · rintro ⟨hne, hall⟩
    rw [← List.perm_singleton, List.perm_ext_iff_of_nodup (nodup_collect f l)
      (List.nodup_singleton b)]
    intro c
    rw [mem_collect, List.mem_singleton]
    constructor
    · rintro ⟨a, ha, rfl⟩
      exact hall a ha
    · rintro rfl
      obtain ⟨a, ha⟩ := List.exists_mem_of_ne_nil l hne
      exact ⟨a, ha, hall a ha⟩

theorem exists_sole_iff : (∃ b, Sole f l b) ↔ (collect f l).length = 1 := by
  rw [List.length_eq_one_iff]
  exact exists_congr fun b => collect_eq_singleton_iff.symm

theorem collect_eq_nil_iff : collect f l = [] ↔ l = [] := by
  rw [List.eq_nil_iff_forall_not_mem, List.eq_nil_iff_forall_not_mem]
  simp only [mem_collect, not_exists, not_and]
  exact ⟨fun h a ha => h (f a) a ha rfl, fun h b a ha => absurd ha (h a)⟩

end Collect

section Classes

def family (p : Provider) (low32 : UInt32) : List Entry :=
  p.entries.filter fun entry => entry.compatLow32Key = some low32

variable (entries : List Entry) (formatsize : UInt16)

def formatClass : List Entry := entries.filter (·.formatsize == formatsize)

def CountsExact : Prop := (formatClass entries formatsize).length % 2 ^ 32 ≠ 0

instance : Decidable (CountsExact entries formatsize) := inferInstanceAs (Decidable (_ ≠ _))

def activeFormatsize : UInt16 := if CountsExact entries formatsize then formatsize else 0

def activeClass : List Entry := formatClass entries (activeFormatsize entries formatsize)

def searchedClass : List Entry :=
  if formatClass entries formatsize = [] then formatClass entries 0
  else formatClass entries formatsize

def dimsOf (entry : Entry) : UInt32 × UInt32 := (entry.width, entry.height)

/-- The diagnostics report the dimensions as uniform: the counters of different dimensions and
of entries read one and not zero. -/
def ReportsUniform : Prop :=
  (collect dimsOf (activeClass entries formatsize)).length % 2 ^ 32 = 1 ∧
    (activeClass entries formatsize).length % 2 ^ 32 ≠ 0

def HasPlain (l : List Entry) (checksum64 : UInt64) : Prop :=
  ∃ entry ∈ l, entry.checksum64 = checksum64 ∧ entry.selectorChecksum64 = 0

end Classes

section Reports

theorem toNat_packDims (entry : Entry) :
    (packDims entry).toNat = entry.width.toNat * 2 ^ 32 + entry.height.toNat := by
  have hw := entry.width.toNat_lt
  have hh := entry.height.toNat_lt
  have hshift : (entry.width.toUInt64 <<< 32).toNat = entry.width.toNat <<< 32 := by
    rw [UInt64.toNat_shiftLeft, UInt32.toNat_toUInt64, Nat.mod_eq_of_lt]
    · rfl
    · rw [Nat.shiftLeft_eq]
      change entry.width.toNat * 2 ^ 32 < 2 ^ 64
      omega
  rw [packDims, UInt64.toNat_or, hshift, UInt32.toNat_toUInt64,
    ← Nat.shiftLeft_add_eq_or_of_lt hh, Nat.shiftLeft_eq]

theorem unpack_packDims (entry : Entry) :
    ((packDims entry >>> 32).toUInt32, (packDims entry &&& 0xffffffff).toUInt32) =
      dimsOf entry := by
  have hw := entry.width.toNat_lt
  have hh := entry.height.toNat_lt
  refine Prod.ext (UInt32.toNat_inj.mp ?_) (UInt32.toNat_inj.mp ?_)
  · rw [UInt64.toNat_toUInt32, UInt64.toNat_shiftRight, toNat_packDims, Nat.shiftRight_eq_div_pow]
    change (entry.width.toNat * 2 ^ 32 + entry.height.toNat) / 2 ^ 32 % 2 ^ 32 = entry.width.toNat
    omega
  · rw [UInt64.toNat_toUInt32, UInt64.toNat_and, toNat_packDims]
    change ((entry.width.toNat * 2 ^ 32 + entry.height.toNat) &&& (2 ^ 32 - 1)) % 2 ^ 32 =
      entry.height.toNat
    rw [Nat.and_two_pow_sub_one_eq_mod]
    omega

theorem packDims_eq_iff (a b : Entry) : packDims a = packDims b ↔ dimsOf a = dimsOf b := by
  constructor
  · intro h
    rw [← unpack_packDims a, ← unpack_packDims b, h]
  · intro h
    obtain ⟨hw, hh⟩ := Prod.mk.inj h
    rw [packDims, packDims, hw, hh]

theorem length_collect_packDims (l : List Entry) :
    (collect packDims l).length = (collect dimsOf l).length := by
  let unpack (d : UInt64) : UInt32 × UInt32 := ((d >>> 32).toUInt32, (d &&& 0xffffffff).toUInt32)
  have hunpack : (collect packDims l).map unpack = collect dimsOf l := by
    induction l using List.reverseRecOn with
    | nil => rfl
    | append_singleton l a ih =>
      have hmem : packDims a ∈ collect packDims l ↔ dimsOf a ∈ collect dimsOf l := by
        rw [mem_collect, mem_collect]
        simp only [packDims_eq_iff]
      rw [collect_append_singleton, collect_append_singleton, pushUnique, pushUnique]
      by_cases h : packDims a ∈ collect packDims l
      · rw [if_pos h, if_pos (hmem.mp h), ih]
      · rw [if_neg h, if_neg (mt hmem.mpr h), List.map_append, ih, List.map_singleton]
        exact congrArg (fun d => collect dimsOf l ++ [d]) (unpack_packDims a)
  rw [← hunpack, List.length_map]

theorem foldl_countFormatsize (l : List Entry) (formatsize : UInt16)
    (diag : CILow32FamilyDiagnostics) :
    (l.foldl (CILow32FamilyDiagnostics.countFormatsize formatsize) diag).exactFormatsizeEntries =
        diag.exactFormatsizeEntries + UInt32.ofNat (formatClass l formatsize).length ∧
      (l.foldl (CILow32FamilyDiagnostics.countFormatsize formatsize) diag).activeEntryCount =
        diag.activeEntryCount := by
  induction l generalizing diag with
  | nil => simp [formatClass]
  | cons entry l ih =>
    obtain ⟨hexact, hactive⟩ := ih (diag.countFormatsize formatsize entry)
    rw [List.foldl_cons, hexact, hactive, CILow32FamilyDiagnostics.countFormatsize]
    by_cases h : entry.formatsize = formatsize
    · simp [formatClass, h, UInt32.ofNat_add, add_assoc, add_comm]
    · by_cases hzero : entry.formatsize = 0
      · have hsize : ¬ 0 = formatsize := hzero ▸ h
        simp [formatClass, hzero, hsize]
      · simp [formatClass, hzero, h]

theorem foldl_visit (l : List Entry) (palette : UInt32)
    (diag : CILow32FamilyDiagnostics) :
    let scan := l.foldl (FamilyScan.visit palette) { diag := diag }
    scan.uniqueChecksums = collect Entry.checksum64 l ∧
      scan.uniqueReplDims = collect packDims l ∧
      scan.diag.activeEntryCount = diag.activeEntryCount + UInt32.ofNat l.length ∧
      scan.diag.preferExactFormatsize = diag.preferExactFormatsize := by
  induction l using List.reverseRecOn with
  | nil => simp [collect]
  | append_singleton l entry ih =>
    obtain ⟨hchecksums, hdims, hcount, hprefer⟩ := ih
    dsimp only
    unfold collect at hchecksums hdims ⊢
    simp only [List.foldl_append, List.foldl_cons, List.foldl_nil, ← hchecksums, ← hdims,
      List.length_append, List.length_singleton, UInt32.ofNat_add, ← add_assoc, ← hcount,
      ← hprefer]
    unfold FamilyScan.visit
    refine ⟨rfl, rfl, ?_, ?_⟩
    all_goals
      dsimp only
      split_ifs <;> rfl

variable {p : Provider} {low32 : UInt32}

theorem map_entryAt_eq_family (h : p.Indexed) {indices : List Nat}
    (hindices : p.compatChecksumLow32Index.lookup low32 = some indices) :
    indices.map p.entryAt = family p low32 := by
  rw [h.low32.of_lookup hindices, positions_map_entryAt, family]

theorem family_eq_nil (h : p.Indexed)
    (hnone : p.compatChecksumLow32Index.lookup low32 = none) :
    family p low32 = [] := by
  have hpositions := h.low32.getD low32
  rw [hnone, Option.getD_none] at hpositions
  rw [family, ← positions_map_entryAt, ← hpositions, List.map_nil]

/-- What the diagnostics report of the active class of a family. -/
structure CILow32FamilyDiagnostics.Reports (diag : CILow32FamilyDiagnostics)
    (entries : List Entry) (formatsize : UInt16) : Prop where
  active : diag.activeFormatsize formatsize = Hires.activeFormatsize entries formatsize
  checksums : diag.activeUniqueChecksumCount =
    UInt32.ofNat (collect Entry.checksum64 (activeClass entries formatsize)).length
  uniform : diag.activeReplDimsUniform = true ↔ ReportsUniform entries formatsize
  sample : diag.activeReplDimsUniform = true → ∀ dims,
    Sole dimsOf (activeClass entries formatsize) dims → (diag.sampleReplW, diag.sampleReplH) = dims

theorem ofNat_eq_one_iff (n : Nat) : UInt32.ofNat n = 1 ↔ n % 2 ^ 32 = 1 := by
  rw [← UInt32.toNat_inj]
  exact Iff.rfl

theorem ofNat_pos_iff (n : Nat) : 0 < UInt32.ofNat n ↔ n % 2 ^ 32 ≠ 0 := by
  rw [UInt32.lt_iff_toNat_lt]
  exact Nat.pos_iff_ne_zero

theorem FamilyScan.finish_spec (scan : FamilyScan) :
    scan.finish.activeUniqueChecksumCount = UInt32.ofNat scan.uniqueChecksums.length ∧
      scan.finish.preferExactFormatsize = scan.diag.preferExactFormatsize ∧
      (scan.finish.activeReplDimsUniform = true ↔
        UInt32.ofNat scan.uniqueReplDims.length = 1 ∧ 0 < scan.diag.activeEntryCount) ∧
      (scan.finish.activeReplDimsUniform = true →
        ∀ front rest, scan.uniqueReplDims = front :: rest →
        (scan.finish.sampleReplW, scan.finish.sampleReplH) =
          ((front >>> 32).toUInt32, (front &&& 0xffffffff).toUInt32)) := by
  unfold FamilyScan.finish
  cases hdims : scan.uniqueReplDims with
  | nil => simp
  | cons front rest =>
    dsimp only
    by_cases huniform : (UInt32.ofNat (front :: rest).length == 1 &&
        decide (scan.diag.activeEntryCount > 0)) = true
    · rw [if_pos huniform]
      simp only [Bool.and_eq_true, beq_iff_eq, decide_eq_true_eq] at huniform
      refine ⟨rfl, rfl, ?_, ?_⟩
      · simp [huniform.2]
      · rintro - _ _ heq
        obtain ⟨rfl, rfl⟩ := List.cons.inj heq
        rfl
    · rw [if_neg huniform]
      refine ⟨rfl, rfl, ?_, fun h => absurd h huniform⟩
      simp only [Bool.and_eq_true, beq_iff_eq, decide_eq_true_eq, gt_iff_lt]

theorem describeCILow32Family_spec (h : p.Indexed) (henabled : p.enabled = true)
    (formatsize : UInt16) (palette : UInt32) :
    (describeCILow32Family p low32 formatsize palette = none ∧
        family p low32 = []) ∨
      ∃ diag, describeCILow32Family p low32 formatsize palette = some diag ∧
        diag.Reports (family p low32) formatsize := by
  unfold describeCILow32Family
  rw [henabled]
  cases hlookup : p.compatChecksumLow32Index.lookup low32 with
  | none => exact Or.inl ⟨rfl, family_eq_nil h hlookup⟩
  | some indices =>
    right
    refine ⟨_, rfl, ?_⟩
    rw [map_entryAt_eq_family h hlookup]
    set entries := family p low32
    obtain ⟨hexact, hcount⟩ := foldl_countFormatsize entries formatsize {}
    set diag := entries.foldl (CILow32FamilyDiagnostics.countFormatsize formatsize) {}
    have hclass : diag.chooseClass.activeFormatsize formatsize =
        activeFormatsize entries formatsize := by
      unfold CILow32FamilyDiagnostics.activeFormatsize activeFormatsize CountsExact
        CILow32FamilyDiagnostics.chooseClass
      simp only [hexact, zero_add, gt_iff_lt, ofNat_pos_iff, decide_eq_true_eq]
      exact if_congr Iff.rfl rfl rfl
    rw [hclass]
    change CILow32FamilyDiagnostics.Reports
      (FamilyScan.finish ((activeClass entries formatsize).foldl
        (FamilyScan.visit palette) { diag := diag.chooseClass })) entries formatsize
    obtain ⟨hchecksums, hdims, hentries, hprefer⟩ :=
      foldl_visit (activeClass entries formatsize) palette diag.chooseClass
    set scan := (activeClass entries formatsize).foldl (FamilyScan.visit palette)
      { diag := diag.chooseClass }
    obtain ⟨hreported, hchosen, huniform, hsample⟩ := scan.finish_spec
    have hactive : scan.diag.activeEntryCount =
        UInt32.ofNat (activeClass entries formatsize).length := by
      rw [hentries]
      exact (congrArg (· + _) hcount).trans (zero_add _)
    constructor
    · rw [← hclass, CILow32FamilyDiagnostics.activeFormatsize, hchosen, hprefer]
      rfl
    · rw [hreported, hchecksums]
    · rw [huniform, hdims, hactive, length_collect_packDims, ofNat_eq_one_iff, ofNat_pos_iff]
      exact Iff.rfl
    · intro hreports dims hsole
      obtain ⟨entry, hentry⟩ := List.exists_mem_of_ne_nil _ hsole.1
      have hpacked : Sole packDims (activeClass entries formatsize) (packDims entry) :=
        ⟨hsole.1, fun a ha => (packDims_eq_iff a entry).mpr
          ((hsole.2 a ha).trans (hsole.2 entry hentry).symm)⟩
      rw [← collect_eq_singleton_iff, ← hdims] at hpacked
      rw [hsample hreports _ _ hpacked, unpack_packDims, hsole.2 entry hentry]

end Reports

section Finds

variable {p : Provider} {low32 : UInt32} {formatsize : UInt16} {e : Entry}

theorem filter_compatChecksumKey (checksum64 : UInt64)
    (hlow : checksum64.toUInt32 = low32) :
    (p.entries.filter fun d => d.compatChecksumKey = some checksum64) =
      (family p low32).filter (·.checksum64 == checksum64) := by
  rw [family, List.filter_filter]
  apply List.filter_congr
  intro d _
  cases hd : d.hasNativeSampledIdentity
  · by_cases hchecksum : d.checksum64 = checksum64
    · simp [Entry.compatChecksumKey, Entry.compatLow32Key, hd, hchecksum, hlow]
    · simp [Entry.compatChecksumKey, hd, hchecksum]
  · simp [Entry.compatChecksumKey, Entry.compatLow32Key, hd]

theorem toUInt32_of_mem_family (hmem : e ∈ family p low32) :
    e.checksum64.toUInt32 = low32 := by
  obtain ⟨-, hkey⟩ := List.mem_filter.mp hmem
  cases hclass : e.hasNativeSampledIdentity with
  | true => simp [Entry.compatLow32Key, hclass] at hkey
  | false => simpa [Entry.compatLow32Key, hclass] using hkey

theorem mem_of_mem_formatClass {entries : List Entry} (h : e ∈ formatClass entries formatsize) :
    e ∈ entries ∧ e.formatsize = formatsize := by
  simpa [formatClass] using h

theorem mem_of_mem_searchedClass {entries : List Entry}
    (h : e ∈ searchedClass entries formatsize) : e ∈ entries := by
  unfold searchedClass at h
  split at h
  next => exact (mem_of_mem_formatClass h).1
  next => exact (mem_of_mem_formatClass h).1

theorem findCILow32Unique_eq_some_iff (h : p.Indexed) (henabled : p.enabled = true) :
    findCILow32Unique p low32 formatsize = some e ↔
      ∃ checksum64, Sole Entry.checksum64
          (searchedClass (family p low32) formatsize) checksum64 ∧
        searchChecksum ((family p low32).filter (·.checksum64 == checksum64))
          formatsize 0 = some e := by
  rw [findCILow32Unique, findCILow32Entry, henabled]
  cases hlookup : p.compatChecksumLow32Index.lookup low32 with
  | none => simp [family_eq_nil h hlookup, searchedClass, formatClass, Sole]
  | some indices =>
    have hcollect : ∀ size, collectUniqueChecksums p indices size =
        collect Entry.checksum64 (formatClass (family p low32) size) := by
      intro size
      rw [collectUniqueChecksums, map_entryAt_eq_family h hlookup]
      rfl
    have hunique : (if (collectUniqueChecksums p indices formatsize).isEmpty then
        collectUniqueChecksums p indices 0 else collectUniqueChecksums p indices formatsize) =
          collect Entry.checksum64 (searchedClass (family p low32) formatsize) := by
      rw [hcollect, hcollect, searchedClass]
      simp only [List.isEmpty_iff, collect_eq_nil_iff]
      split <;> rfl
    simp only [Bool.not_true, Bool.false_eq_true, if_false, hunique]
    constructor
    · intro hfound
      split at hfound
      next checksum64 hsingle =>
        have hsole := collect_eq_singleton_iff.mp hsingle
        obtain ⟨d, hd⟩ := List.exists_mem_of_ne_nil _ hsole.1
        have hlow := toUInt32_of_mem_family (mem_of_mem_searchedClass hd)
        rw [hsole.2 d hd] at hlow
        refine ⟨checksum64, hsole, ?_⟩
        rw [← filter_compatChecksumKey checksum64 hlow, ← findIndexedEntry_eq h.compat]
        simpa [findCompatEntry] using hfound
      next => cases hfound
    · rintro ⟨checksum64, hsole, hsearch⟩
      obtain ⟨d, hd⟩ := List.exists_mem_of_ne_nil _ hsole.1
      have hlow := toUInt32_of_mem_family (mem_of_mem_searchedClass hd)
      rw [hsole.2 d hd] at hlow
      rw [← filter_compatChecksumKey checksum64 hlow, ← findIndexedEntry_eq h.compat] at hsearch
      rw [collect_eq_singleton_iff.mpr hsole]
      simpa [findCompatEntry] using hsearch

def lastOfUniform (l : List Entry) : Option Entry :=
  if ∃ dims ∈ l.map dimsOf, ∀ d ∈ l, dimsOf d = dims then l.getLast? else none

theorem lastOfUniform_eq_some_iff {l : List Entry} :
    lastOfUniform l = some e ↔ Sole dimsOf l (dimsOf e) ∧ l.getLast? = some e := by
  unfold lastOfUniform
  split
  next huniform =>
    obtain ⟨dims, -, hall⟩ := huniform
    constructor
    · intro hlast
      have hmem := List.mem_of_getLast? hlast
      exact ⟨⟨List.ne_nil_of_mem hmem, fun d hd => (hall d hd).trans (hall e hmem).symm⟩, hlast⟩
    · exact And.right
  next hmixed =>
    constructor
    · exact fun hnone => nomatch hnone
    · rintro ⟨hsole, hlast⟩
      exact absurd ⟨dimsOf e, List.mem_map_of_mem (List.mem_of_getLast? hlast), hsole.2⟩ hmixed

theorem lastOfUniform_eq_none_iff {l : List Entry} :
    lastOfUniform l = none ↔ ∀ dims, ¬ Sole dimsOf l dims := by
  constructor
  · rintro hnone dims hsole
    obtain ⟨last, hlast⟩ := Option.ne_none_iff_exists'.mp (mt List.getLast?_eq_none_iff.mp hsole.1)
    have hdims := hsole.2 last (List.mem_of_getLast? hlast)
    rw [lastOfUniform_eq_some_iff.mpr ⟨hdims ▸ hsole, hlast⟩] at hnone
    cases hnone
  · intro hmixed
    cases hlast : lastOfUniform l with
    | none => rfl
    | some d => exact absurd (lastOfUniform_eq_some_iff.mp hlast).1 (hmixed _)

theorem pickUniqueDims_eq (h : p.Indexed) {indices : List Nat}
    (hlookup : p.compatChecksumLow32Index.lookup low32 = some indices) (size : UInt16) :
    pickUniqueDims p indices size = lastOfUniform (formatClass (family p low32) size) := by
  rw [pickUniqueDims, List.map_reverse, map_entryAt_eq_family h hlookup, List.filter_reverse]
  unfold formatClass
  generalize List.filter _ (family p low32) = l
  induction l using List.reverseRecOn with
  | nil => rfl
  | append_singleton l last _ =>
    rw [List.reverse_append, List.reverse_singleton, List.singleton_append]
    dsimp only
    symm
    have hall : (l.reverse.all fun entry =>
        entry.width == last.width && entry.height == last.height) = true ↔
          Sole dimsOf (l ++ [last]) (dimsOf last) := by
      simp [Sole, dimsOf, or_imp, forall_and]
    split
    next hsame =>
      exact lastOfUniform_eq_some_iff.mpr ⟨hall.mp hsame, List.getLast?_concat⟩
    next hdiffer =>
      apply lastOfUniform_eq_none_iff.mpr
      intro dims hsole
      have hdims := hsole.2 last (List.mem_append_right l (List.mem_singleton_self last))
      exact hdiffer (hall.mpr (hdims ▸ hsole))

theorem findCILow32ReplDimsUnique_eq (h : p.Indexed) (henabled : p.enabled = true) :
    findCILow32ReplDimsUnique p low32 formatsize =
      (lastOfUniform (formatClass (family p low32) formatsize)).or
        (lastOfUniform (formatClass (family p low32) 0)) := by
  rw [findCILow32ReplDimsUnique, findCILow32Entry, henabled]
  cases hlookup : p.compatChecksumLow32Index.lookup low32 with
  | none =>
    rw [family_eq_nil h hlookup]
    rfl
  | some indices =>
    simp only [Bool.not_true, Bool.false_eq_true, if_false, Option.map_map,
      pickUniqueDims_eq h hlookup, Option.orElse_eq_orElse, Option.orElse_eq_or]
    exact Option.map_id'

end Finds

section Predictions

variable (p : Provider) (low32 : UInt32) (formatsize : UInt16)
  (palette : UInt32)

/-- The unique lookup succeeds exactly when the diagnostics count one checksum in the active
class, and then returns an entry of that class with that checksum. -/
structure PredictsUnique : Prop where
  succeeds : (lookupCILow32Unique p low32 formatsize).isSome = true ↔
    ∃ diag, describeCILow32Family p low32 formatsize palette = some diag ∧
      diag.activeUniqueChecksumCount = 1
  entry : ∀ e, findCILow32Unique p low32 formatsize = some e →
    ∃ diag, describeCILow32Family p low32 formatsize palette = some diag ∧
      e ∈ formatClass (family p low32) (diag.activeFormatsize formatsize) ∧
      Sole Entry.checksum64
        (formatClass (family p low32) (diag.activeFormatsize formatsize)) e.checksum64

/-- The lookup by unique dimensions succeeds exactly when the diagnostics report the dimensions
of the active class as uniform, and then returns an entry of that class with the reported
dimensions. -/
structure PredictsReplDims : Prop where
  succeeds : (lookupCILow32ReplDimsUnique p low32 formatsize).isSome = true ↔
    ∃ diag, describeCILow32Family p low32 formatsize palette = some diag ∧
      diag.activeReplDimsUniform = true
  entry : ∀ e, findCILow32ReplDimsUnique p low32 formatsize = some e →
    ∃ diag, describeCILow32Family p low32 formatsize palette = some diag ∧
      e ∈ formatClass (family p low32) (diag.activeFormatsize formatsize) ∧
      dimsOf e = (diag.sampleReplW, diag.sampleReplH)

end Predictions

section Conditions

variable (entries : List Entry) (formatsize : UInt16)

/-- When the unique lookup agrees with the diagnostics. -/
structure UniqueAgrees : Prop where
  sole : ∀ checksum64, Sole Entry.checksum64 (activeClass entries formatsize) checksum64 →
    Sole Entry.checksum64 (searchedClass entries formatsize) checksum64 ∧
      (HasPlain (activeClass entries formatsize) checksum64 ∧
          (activeFormatsize entries formatsize = formatsize ∨
            ¬ HasPlain (formatClass entries formatsize) checksum64) ∨
        formatsize = 0 ∧ ∃ last,
          (entries.filter (·.checksum64 == checksum64)).getLast? = some last ∧
            last.formatsize = 0)
  mixed : ∀ checksum64, Sole Entry.checksum64 (searchedClass entries formatsize) checksum64 →
    (∀ other, ¬ Sole Entry.checksum64 (activeClass entries formatsize) other) →
      ¬ HasPlain (formatClass entries formatsize) checksum64 ∧
        ¬ HasPlain (formatClass entries 0) checksum64

/-- When the lookup by unique dimensions agrees with the diagnostics. -/
structure ReplDimsAgree : Prop where
  uniform : ReportsUniform entries formatsize →
    (∃ dims, Sole dimsOf (activeClass entries formatsize) dims) ∧
      (CountsExact entries formatsize ∨ ∀ dims, ¬ Sole dimsOf (formatClass entries formatsize) dims)
  mixed : ¬ ReportsUniform entries formatsize → ∀ dims,
    ¬ Sole dimsOf (formatClass entries formatsize) dims ∧
      ¬ Sole dimsOf (formatClass entries 0) dims

end Conditions

section Agreement

variable {p : Provider} {low32 : UInt32} {formatsize : UInt16}
variable {palette : UInt32}

theorem length_collect_checksum64_le (size : UInt16) :
    (collect Entry.checksum64 (formatClass (family p low32) size)).length ≤ 2 ^ 32 := by
  set checksums := collect Entry.checksum64 (formatClass (family p low32) size)
    with hchecksums
  have hlow : ∀ checksum64 ∈ checksums, checksum64.toNat % 2 ^ 32 = low32.toNat := by
    intro checksum64 hmem
    obtain ⟨e, he, rfl⟩ := mem_collect.mp (hchecksums ▸ hmem)
    rw [← toUInt32_of_mem_family (mem_of_mem_formatClass he).1, UInt64.toNat_toUInt32]
  have hnodup : (checksums.map fun c => c.toNat / 2 ^ 32).Nodup := by
    apply List.Nodup.map_on _ (nodup_collect _ _)
    intro c hc d hd hhigh
    have hclow := hlow c hc
    have hdlow := hlow d hd
    apply UInt64.toNat_inj.mp
    omega
  have hrange : (checksums.map fun c => c.toNat / 2 ^ 32) ⊆ List.range (2 ^ 32) := by
    intro n hn
    obtain ⟨c, -, rfl⟩ := List.mem_map.mp hn
    have hc := c.toNat_lt
    rw [List.mem_range]
    omega
  have hle := (hnodup.subperm hrange).length_le
  rwa [List.length_map, List.length_range] at hle

theorem activeUniqueChecksumCount_eq_one_iff :
    UInt32.ofNat (collect Entry.checksum64
        (activeClass (family p low32) formatsize)).length = 1 ↔
      ∃ checksum64, Sole Entry.checksum64
        (activeClass (family p low32) formatsize) checksum64 := by
  have hle := @length_collect_checksum64_le p low32
    (activeFormatsize (family p low32) formatsize)
  rw [ofNat_eq_one_iff, exists_sole_iff, activeClass]
  omega

variable {entries : List Entry} {checksum64 : UInt64} {e : Entry}

theorem lastMatching_eq_none_iff {size : UInt16} :
    lastMatching (entries.filter (·.checksum64 == checksum64)) size 0 = none ↔
      ¬ HasPlain (formatClass entries size) checksum64 := by
  rw [lastMatching, List.find?_eq_none, HasPlain]
  simp only [formatClass, List.mem_reverse, List.mem_filter, beq_iff_eq, Bool.and_eq_true,
    not_exists, not_and]
  exact ⟨fun h d hd hc => h d ⟨hd.1, hc⟩ hd.2, fun h d hd hs => h d ⟨hd.1, hs⟩ hd.2⟩

theorem lastMatching_eq_some {size : UInt16}
    (h : lastMatching (entries.filter (·.checksum64 == checksum64)) size 0 = some e) :
    HasPlain (formatClass entries size) checksum64 ∧ e ∈ formatClass entries size ∧
      e.checksum64 = checksum64 := by
  obtain ⟨hmem, hsize, hselector⟩ := lastMatching_spec h
  obtain ⟨hin, hchecksum⟩ := List.mem_filter.mp hmem
  have hclass : e ∈ formatClass entries size := List.mem_filter.mpr ⟨hin, beq_iff_eq.mpr hsize⟩
  exact ⟨⟨e, hclass, beq_iff_eq.mp hchecksum, hselector⟩, hclass, beq_iff_eq.mp hchecksum⟩

theorem searchChecksum_zero_cases
    (h : searchChecksum (entries.filter (·.checksum64 == checksum64)) formatsize 0 = some e) :
    e.checksum64 = checksum64 ∧
      ((HasPlain (formatClass entries formatsize) checksum64 ∧
          e ∈ formatClass entries formatsize) ∨
        (¬ HasPlain (formatClass entries formatsize) checksum64 ∧
          HasPlain (formatClass entries 0) checksum64 ∧ e ∈ formatClass entries 0) ∨
        (formatsize = 0 ∧ ¬ HasPlain (formatClass entries 0) checksum64 ∧
          (entries.filter (·.checksum64 == checksum64)).getLast? = some e)) := by
  unfold searchChecksum at h
  simp only [ne_eq, not_true_eq_false, if_false, Option.orElse_eq_orElse, Option.orElse_eq_or,
    Option.none_or, Option.or_eq_some_iff, true_and] at h
  obtain hexact | ⟨hexact, hgeneric | ⟨hgeneric, hlast⟩⟩ := h
  · obtain ⟨hplain, hclass, hchecksum⟩ := lastMatching_eq_some hexact
    exact ⟨hchecksum, Or.inl ⟨hplain, hclass⟩⟩
  · obtain ⟨hplain, hclass, hchecksum⟩ := lastMatching_eq_some hgeneric
    exact ⟨hchecksum, Or.inr (Or.inl ⟨lastMatching_eq_none_iff.mp hexact, hplain, hclass⟩)⟩
  · split at hlast
    next hzero =>
      have hmem := List.mem_of_getLast? hlast
      exact ⟨beq_iff_eq.mp (List.mem_filter.mp hmem).2,
        Or.inr (Or.inr ⟨hzero, lastMatching_eq_none_iff.mp hgeneric, hlast⟩)⟩
    next => cases hlast

theorem searchChecksum_zero_eq_none_iff :
    searchChecksum (entries.filter (·.checksum64 == checksum64)) formatsize 0 = none ↔
      ¬ HasPlain (formatClass entries formatsize) checksum64 ∧
        ¬ HasPlain (formatClass entries 0) checksum64 ∧
        (formatsize = 0 → entries.filter (·.checksum64 == checksum64) = []) := by
  unfold searchChecksum
  simp only [ne_eq, not_true_eq_false, if_false, Option.orElse_eq_orElse, Option.orElse_eq_or,
    Option.none_or, Option.or_eq_none_iff, true_and, lastMatching_eq_none_iff]
  split
  next hzero => simp only [List.getLast?_eq_none_iff, hzero, forall_const]
  next hzero => simp only [hzero, false_implies]

theorem activeClass_zero (entries : List Entry) :
    activeClass entries 0 = formatClass entries 0 := by
  rw [activeClass, activeFormatsize, ite_self]

theorem searchedClass_zero (entries : List Entry) :
    searchedClass entries 0 = formatClass entries 0 := by
  rw [searchedClass, ite_self]

theorem UniqueAgrees.entry (h : UniqueAgrees entries formatsize)
    (hasked : Sole Entry.checksum64 (searchedClass entries formatsize) checksum64)
    (hsearch : searchChecksum (entries.filter (·.checksum64 == checksum64)) formatsize 0 = some e) :
    e ∈ activeClass entries formatsize ∧
      Sole Entry.checksum64 (activeClass entries formatsize) e.checksum64 := by
  obtain ⟨rfl, hcases⟩ := searchChecksum_zero_cases hsearch
  by_cases hactive : ∃ checksum64,
      Sole Entry.checksum64 (activeClass entries formatsize) checksum64
  · obtain ⟨checksum64, hchecksum⟩ := hactive
    obtain ⟨hsearched, hserved⟩ := h.sole checksum64 hchecksum
    obtain rfl := hasked.unique hsearched
    refine ⟨?_, hchecksum⟩
    rw [activeClass] at hserved ⊢
    obtain ⟨hplain, hexact⟩ | ⟨hnone, hplain, hgeneric⟩ | ⟨rfl, hnone, hlast⟩ := hcases
    · obtain ⟨-, hsize | habsent⟩ | ⟨rfl, -⟩ := hserved
      · rwa [hsize]
      · exact absurd hplain habsent
      · rwa [activeFormatsize, ite_self]
    · obtain ⟨hactive, -⟩ | ⟨rfl, -⟩ := hserved
      · unfold activeFormatsize at hactive ⊢
        split_ifs at hactive ⊢
        · exact absurd hactive hnone
        · exact hgeneric
      · rwa [activeFormatsize, ite_self]
    · rw [activeFormatsize, ite_self] at hserved ⊢
      obtain ⟨hactive, -⟩ | ⟨-, last, hlast', hsize⟩ := hserved
      · exact absurd hactive hnone
      · obtain rfl := Option.some.inj (hlast.symm.trans hlast')
        exact List.mem_filter.mpr ⟨(List.mem_filter.mp (List.mem_of_getLast? hlast)).1,
          beq_iff_eq.mpr hsize⟩
  · obtain ⟨hexact, hgeneric⟩ := h.mixed _ hasked (not_exists.mp hactive)
    obtain ⟨hplain, -⟩ | ⟨-, hplain, -⟩ | ⟨rfl, -⟩ := hcases
    · exact absurd hplain hexact
    · exact absurd hplain hgeneric
    · rw [searchedClass_zero, ← activeClass_zero] at hasked
      exact absurd ⟨_, hasked⟩ hactive

theorem UniqueAgrees.finds (h : UniqueAgrees entries formatsize)
    (hchecksum : Sole Entry.checksum64 (activeClass entries formatsize) checksum64) :
    ∃ e, searchChecksum (entries.filter (·.checksum64 == checksum64)) formatsize 0 = some e := by
  apply Option.ne_none_iff_exists'.mp
  intro hnone
  obtain ⟨hexact, hgeneric, hempty⟩ := searchChecksum_zero_eq_none_iff.mp hnone
  obtain ⟨hactive, -⟩ | ⟨hzero, last, hlast, -⟩ := (h.sole checksum64 hchecksum).2
  · unfold activeClass activeFormatsize at hactive
    split_ifs at hactive
    · exact hexact hactive
    · exact hgeneric hactive
  · rw [hempty hzero] at hlast
    cases hlast

theorem served_of_found
    (hsearch : searchChecksum (entries.filter (·.checksum64 == e.checksum64)) formatsize 0 = some e)
    (hactive : e ∈ activeClass entries formatsize) :
    HasPlain (activeClass entries formatsize) e.checksum64 ∧
        (activeFormatsize entries formatsize = formatsize ∨
          ¬ HasPlain (formatClass entries formatsize) e.checksum64) ∨
      formatsize = 0 ∧ ∃ last,
        (entries.filter (·.checksum64 == e.checksum64)).getLast? = some last ∧
          last.formatsize = 0 := by
  have hsize := (mem_of_mem_formatClass hactive).2
  obtain ⟨-, hcases⟩ := searchChecksum_zero_cases hsearch
  obtain ⟨hplain, hexact⟩ | ⟨hnone, hplain, hgeneric⟩ | ⟨hzero, hnone, hlast⟩ := hcases
  · have heq : activeFormatsize entries formatsize = formatsize :=
      hsize.symm.trans (mem_of_mem_formatClass hexact).2
    rw [activeClass, heq]
    exact Or.inl ⟨hplain, Or.inl rfl⟩
  · have heq : activeFormatsize entries formatsize = 0 :=
      hsize.symm.trans (mem_of_mem_formatClass hgeneric).2
    rw [activeClass, heq]
    exact Or.inl ⟨hplain, Or.inr hnone⟩
  · subst hzero
    rw [activeClass_zero] at hactive
    exact Or.inr ⟨rfl, e, hlast, (mem_of_mem_formatClass hactive).2⟩

theorem uniqueAgrees_iff {found : Option Entry} (hfound : ∀ e, found = some e ↔ ∃ checksum64,
      Sole Entry.checksum64 (searchedClass entries formatsize) checksum64 ∧
        searchChecksum (entries.filter (·.checksum64 == checksum64)) formatsize 0 = some e) :
    ((found.isSome = true ↔ ∃ checksum64,
          Sole Entry.checksum64 (activeClass entries formatsize) checksum64) ∧
        ∀ e, found = some e → e ∈ activeClass entries formatsize ∧
          Sole Entry.checksum64 (activeClass entries formatsize) e.checksum64) ↔
      UniqueAgrees entries formatsize := by
  constructor
  · rintro ⟨hsucceeds, hentry⟩
    constructor
    · intro checksum64 hsole
      obtain ⟨e, he⟩ := Option.isSome_iff_exists.mp (hsucceeds.mpr ⟨checksum64, hsole⟩)
      obtain ⟨hactive, hchecksum⟩ := hentry e he
      obtain ⟨asked, hasked, hsearch⟩ := (hfound e).mp he
      obtain rfl := (searchChecksum_zero_cases hsearch).1
      obtain rfl := hchecksum.unique hsole
      exact ⟨hasked, served_of_found hsearch hactive⟩
    · intro checksum64 hsole hmixed
      have hnone : searchChecksum (entries.filter (·.checksum64 == checksum64)) formatsize 0 =
          none := by
        apply Option.eq_none_iff_forall_ne_some.mpr
        intro e he
        exact hmixed _ (hentry e ((hfound e).mpr ⟨checksum64, hsole, he⟩)).2
      have hplain := searchChecksum_zero_eq_none_iff.mp hnone
      exact ⟨hplain.1, hplain.2.1⟩
  · intro h
    have hentry : ∀ e, found = some e → e ∈ activeClass entries formatsize ∧
        Sole Entry.checksum64 (activeClass entries formatsize) e.checksum64 := by
      intro e he
      obtain ⟨checksum64, hasked, hsearch⟩ := (hfound e).mp he
      exact h.entry hasked hsearch
    refine ⟨⟨?_, ?_⟩, hentry⟩
    · intro hsome
      obtain ⟨e, he⟩ := Option.isSome_iff_exists.mp hsome
      exact ⟨_, (hentry e he).2⟩
    · rintro ⟨checksum64, hchecksum⟩
      obtain ⟨e, he⟩ := h.finds hchecksum
      exact Option.isSome_iff_exists.mpr
        ⟨e, (hfound e).mpr ⟨checksum64, (h.sole checksum64 hchecksum).1, he⟩⟩

theorem mem_of_lastOfUniform {l : List Entry} (h : lastOfUniform l = some e) : e ∈ l :=
  List.mem_of_getLast? (lastOfUniform_eq_some_iff.mp h).2

theorem lastOfUniform_isSome_iff {l : List Entry} :
    (lastOfUniform l).isSome = true ↔ ∃ dims, Sole dimsOf l dims := by
  rw [← not_iff_not, Bool.not_eq_true, Option.isSome_eq_false_iff, Option.isNone_iff_eq_none,
    lastOfUniform_eq_none_iff, not_exists]

theorem sole_of_lastOfUniform (h : (lastOfUniform (formatClass entries formatsize)).or
      (lastOfUniform (formatClass entries 0)) = some e)
    (hactive : e ∈ activeClass entries formatsize) :
    Sole dimsOf (activeClass entries formatsize) (dimsOf e) := by
  have hsize := (mem_of_mem_formatClass hactive).2
  obtain hexact | ⟨-, hgeneric⟩ := Option.or_eq_some_iff.mp h
  · have heq := (mem_of_mem_formatClass (mem_of_lastOfUniform hexact)).2
    rw [activeClass, ← hsize, heq]
    exact (lastOfUniform_eq_some_iff.mp hexact).1
  · have heq := (mem_of_mem_formatClass (mem_of_lastOfUniform hgeneric)).2
    rw [activeClass, ← hsize, heq]
    exact (lastOfUniform_eq_some_iff.mp hgeneric).1

theorem replDimsAgree_iff :
    ((((lastOfUniform (formatClass entries formatsize)).or
          (lastOfUniform (formatClass entries 0))).isSome = true ↔
            ReportsUniform entries formatsize) ∧
        ∀ e, (lastOfUniform (formatClass entries formatsize)).or
          (lastOfUniform (formatClass entries 0)) = some e → e ∈ activeClass entries formatsize) ↔
      ReplDimsAgree entries formatsize := by
  constructor
  · rintro ⟨hsucceeds, hentry⟩
    constructor
    · intro hreports
      obtain ⟨e, he⟩ := Option.isSome_iff_exists.mp (hsucceeds.mpr hreports)
      refine ⟨⟨_, sole_of_lastOfUniform he (hentry e he)⟩, ?_⟩
      by_contra! hfirst
      obtain ⟨hcounts, hexact⟩ := hfirst
      obtain ⟨last, hlast⟩ := Option.isSome_iff_exists.mp (lastOfUniform_isSome_iff.mpr hexact)
      have hsize := (mem_of_mem_formatClass (hentry last (by rw [hlast, Option.some_or]))).2
      rw [(mem_of_mem_formatClass (mem_of_lastOfUniform hlast)).2, activeFormatsize,
        if_neg hcounts] at hsize
      subst hsize
      have hcounted := hreports.2
      rw [activeClass_zero] at hcounted
      exact hcounts hcounted
    · intro hmixed
      have hnone := Option.not_isSome_iff_eq_none.mp (mt hsucceeds.mp hmixed)
      obtain ⟨hexact, hgeneric⟩ := Option.or_eq_none_iff.mp hnone
      exact fun dims => ⟨lastOfUniform_eq_none_iff.mp hexact dims,
        lastOfUniform_eq_none_iff.mp hgeneric dims⟩
  · rintro ⟨huniform, hmixed⟩
    have hreports : ∀ e, (lastOfUniform (formatClass entries formatsize)).or
        (lastOfUniform (formatClass entries 0)) = some e → ReportsUniform entries formatsize := by
      intro e he
      by_contra hnot
      obtain hexact | ⟨-, hgeneric⟩ := Option.or_eq_some_iff.mp he
      · exact (hmixed hnot _).1 (lastOfUniform_eq_some_iff.mp hexact).1
      · exact (hmixed hnot _).2 (lastOfUniform_eq_some_iff.mp hgeneric).1
    refine ⟨⟨?_, ?_⟩, ?_⟩
    · intro hsome
      obtain ⟨e, he⟩ := Option.isSome_iff_exists.mp hsome
      exact hreports e he
    · intro hreported
      have hsole := lastOfUniform_isSome_iff.mpr (huniform hreported).1
      rw [Option.isSome_or, Bool.or_eq_true]
      unfold activeClass activeFormatsize at hsole
      split_ifs at hsole
      · exact Or.inl hsole
      · exact Or.inr hsole
    · intro e he
      obtain ⟨hsole, hfirst⟩ := huniform (hreports e he)
      unfold activeClass activeFormatsize at hsole ⊢
      split_ifs at hsole ⊢ with hcounts
      · obtain hexact | ⟨hnone, -⟩ := Option.or_eq_some_iff.mp he
        · exact mem_of_lastOfUniform hexact
        · exact absurd hsole (not_exists.mpr (lastOfUniform_eq_none_iff.mp hnone))
      · obtain hexact | ⟨-, hgeneric⟩ := Option.or_eq_some_iff.mp he
        · exact absurd (lastOfUniform_eq_some_iff.mp hexact).1 (hfirst.resolve_left hcounts _)
        · exact mem_of_lastOfUniform hgeneric

theorem isSome_lookupCILow32 (henabled : p.enabled = true) (found : Option Entry) :
    (lookupCILow32 p found).isSome = found.isSome := by
  rw [lookupCILow32, henabled]
  exact Option.isSome_map

theorem predictsUnique_iff (h : p.Indexed) (henabled : p.enabled = true) :
    PredictsUnique p low32 formatsize palette ↔
      UniqueAgrees (family p low32) formatsize := by
  rw [← uniqueAgrees_iff fun e => findCILow32Unique_eq_some_iff h henabled]
  obtain ⟨hnone, hempty⟩ | ⟨diag, hdiag, hreports⟩ :=
    @describeCILow32Family_spec p low32 h henabled formatsize palette
  · have hactive : activeClass (family p low32) formatsize = [] := by
      rw [hempty]
      rfl
    constructor
    · rintro ⟨hsucceeds, hentry⟩
      rw [hnone, lookupCILow32Unique, isSome_lookupCILow32 henabled] at hsucceeds
      rw [hactive]
      simpa [hnone, Sole] using And.intro hsucceeds hentry
    · rintro ⟨hsucceeds, hentry⟩
      rw [hactive] at hsucceeds hentry
      constructor
      · rw [lookupCILow32Unique, isSome_lookupCILow32 henabled, hsucceeds, hnone]
        simp [Sole]
      · exact fun e he => absurd (hentry e he).1 List.not_mem_nil
  · have hclass : formatClass (family p low32) (diag.activeFormatsize formatsize) =
        activeClass (family p low32) formatsize := by
      rw [hreports.active, activeClass]
    have hcount : (∃ d, some diag = some d ∧ d.activeUniqueChecksumCount = 1) ↔
        ∃ checksum64, Sole Entry.checksum64
          (activeClass (family p low32) formatsize) checksum64 := by
      rw [← activeUniqueChecksumCount_eq_one_iff, ← hreports.checksums]
      simp
    constructor
    · rintro ⟨hsucceeds, hentry⟩
      rw [hdiag, hcount, lookupCILow32Unique, isSome_lookupCILow32 henabled] at hsucceeds
      refine ⟨hsucceeds, fun e he => ?_⟩
      obtain ⟨d, hd, hfound⟩ := hentry e he
      obtain rfl := Option.some.inj (hdiag.symm.trans hd)
      rwa [hclass] at hfound
    · rintro ⟨hsucceeds, hentry⟩
      constructor
      · rw [hdiag, hcount, lookupCILow32Unique, isSome_lookupCILow32 henabled, hsucceeds]
      · intro e he
        refine ⟨diag, hdiag, ?_⟩
        rw [hclass]
        exact hentry e he

theorem predictsReplDims_iff (h : p.Indexed) (henabled : p.enabled = true) :
    PredictsReplDims p low32 formatsize palette ↔
      ReplDimsAgree (family p low32) formatsize := by
  rw [← replDimsAgree_iff, ← findCILow32ReplDimsUnique_eq h henabled]
  obtain ⟨hnone, hempty⟩ | ⟨diag, hdiag, hreports⟩ :=
    @describeCILow32Family_spec p low32 h henabled formatsize palette
  · have hfound : findCILow32ReplDimsUnique p low32 formatsize = none := by
      rw [findCILow32ReplDimsUnique_eq h henabled, hempty]
      rfl
    have hreported : ¬ ReportsUniform (family p low32) formatsize := by
      rw [hempty]
      exact fun huniform => huniform.2 rfl
    constructor
    · rintro -
      rw [hfound]
      exact ⟨⟨nofun, fun huniform => absurd huniform hreported⟩, nofun⟩
    · rintro -
      constructor
      · rw [lookupCILow32ReplDimsUnique, isSome_lookupCILow32 henabled, hfound, hnone]
        simp
      · rw [hfound]
        exact fun e he => nomatch he
  · have hclass : formatClass (family p low32) (diag.activeFormatsize formatsize) =
        activeClass (family p low32) formatsize := by
      rw [hreports.active, activeClass]
    have huniform : (∃ d, some diag = some d ∧ d.activeReplDimsUniform = true) ↔
        ReportsUniform (family p low32) formatsize := by
      rw [← hreports.uniform]
      simp
    constructor
    · rintro ⟨hsucceeds, hentry⟩
      rw [hdiag, huniform, lookupCILow32ReplDimsUnique, isSome_lookupCILow32 henabled] at hsucceeds
      refine ⟨hsucceeds, fun e he => ?_⟩
      obtain ⟨d, hd, hfound⟩ := hentry e he
      obtain rfl := Option.some.inj (hdiag.symm.trans hd)
      rw [hclass] at hfound
      exact hfound.1
    · rintro ⟨hsucceeds, hentry⟩
      constructor
      · rw [hdiag, huniform, lookupCILow32ReplDimsUnique, isSome_lookupCILow32 henabled, hsucceeds]
      · intro e he
        have hactive := hentry e he
        have hsole := sole_of_lastOfUniform
          ((findCILow32ReplDimsUnique_eq h henabled).symm.trans he) hactive
        refine ⟨diag, hdiag, hclass ▸ hactive, ?_⟩
        have hreported := hreports.uniform.mpr (hsucceeds.mp (Option.isSome_of_eq_some he))
        exact (hreports.sample hreported _ hsole).symm

end Agreement

/-- The diagnostics predict both lookups of a family exactly when the selectors of the active
class let its sole checksum be found again there and no uniform class stands behind a mixed one. -/
theorem describe_predicts_iff (ops : List Op) (low32 : UInt32) (formatsize : UInt16)
    (palette : UInt32) :
    (PredictsUnique { Provider.run ops with enabled := true } low32 formatsize
          palette ∧
        PredictsReplDims { Provider.run ops with enabled := true } low32 formatsize
          palette) ↔
      UniqueAgrees (family (Provider.run ops) low32) formatsize ∧
        ReplDimsAgree (family (Provider.run ops) low32) formatsize := by
  have hrun := Provider.run_indexed ops
  have hindexed : Provider.Indexed { Provider.run ops with enabled := true } :=
    ⟨hrun.native, hrun.compat, hrun.low32, hrun.sampled, hrun.duplicate, hrun.family, hrun.ordered⟩
  exact and_congr (predictsUnique_iff hindexed rfl) (predictsReplDims_iff hindexed rfl)

def compatEntry (checksum64 : UInt64) (formatsize : UInt16) (selectorChecksum64 : UInt64)
    (width height : UInt32) : Entry :=
  { checksum64, formatsize, selectorChecksum64, width, height }

/-- An entry with a selector is counted and not found, a generic entry is found for an exact one,
and a generic class is taken for a mixed exact one. -/
theorem not_describe_predicts :
    ¬ PredictsUnique { Provider.run [.addEntry (compatEntry 1 2 5 8 8)] with enabled := true }
        1 2 0 ∧
      ¬ PredictsUnique { Provider.run [.addEntry (compatEntry 1 2 5 8 8),
        .addEntry (compatEntry 1 0 0 4 4)] with enabled := true } 1 2 0 ∧
      ¬ PredictsReplDims { Provider.run [.addEntry (compatEntry 1 2 0 8 8),
        .addEntry (compatEntry 1 2 0 4 4), .addEntry (compatEntry 1 0 0 4 4)] with
          enabled := true } 1 2 0 := by
  refine ⟨?_, ?_, ?_⟩
  · rintro ⟨hsucceeds, -⟩
    have hsome := hsucceeds.mpr ⟨_, rfl, by decide⟩
    revert hsome
    decide
  · rintro ⟨-, hentry⟩
    obtain ⟨diag, hdiag, hclass, -⟩ := hentry (compatEntry 1 0 0 4 4) (by decide)
    cases hdiag
    revert hclass
    decide
  · rintro ⟨hsucceeds, -⟩
    obtain ⟨diag, hdiag, huniform⟩ := hsucceeds.mp (by decide)
    cases hdiag
    revert huniform
    decide

end ParallelN64.Hires
