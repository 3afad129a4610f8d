import ParallelN64.Core.Layout

/-!
# The index of a legacy texture cache

An uncompressed cache ends with an index whose slots point back at record headers. The parser walks
the index, checks each header against the end of the file, and reads it field by field; a read past
the end raises.
-/

namespace ParallelN64.Legacy

open ParallelN64.Core

def txcacheFormatVersion : Int := 0x08000000

def decodeSigned (bs : Bytes) : Int :=
  if 2 * decodeLE bs < 256 ^ bs.length then decodeLE bs else decodeLE bs - 256 ^ bs.length

def unpackUnsigned (width : Nat) (data : Bytes) (offset : Nat) : Option Nat :=
  (readAt data offset width).map decodeLE

def unpackSigned (width : Nat) (data : Bytes) (offset : Nat) : Option Int :=
  (readAt data offset width).map decodeSigned

/-- The dimensions and formats that open a record header. -/
structure RecordHead where
  width : Nat
  height : Nat
  format : Nat
  textureFormat : Nat
  pixelType : Nat
deriving DecidableEq, Repr

/-- The head held by sixteen bytes. -/
def decodeHead (bs : Bytes) : RecordHead where
  width := decodeLE (bs.take 4)
  height := decodeLE ((bs.drop 4).take 4)
  format := decodeLE ((bs.drop 8).take 4)
  textureFormat := decodeLE ((bs.drop 12).take 2)
  pixelType := decodeLE ((bs.drop 14).take 2)

def unpackHead (data : Bytes) (offset : Nat) : Option RecordHead :=
  (readAt data offset 16).map decodeHead

/-- One slot of the index. -/
structure IndexSlot where
  checksum64 : Nat
  recordOffset : Nat
  formatsize : Nat
deriving DecidableEq, Repr

/-- A slot from its checksum and its packed place: the low 48 bits are the offset of the
record, the high 16 bits its format and size. -/
def unpackSlot (checksum64 : Nat) (packed : Int) : IndexSlot where
  checksum64 := checksum64
  recordOffset := (packed % 2 ^ 48).toNat
  formatsize := (packed / 2 ^ 48 % 2 ^ 16).toNat

/-- An entry of the parsed cache. -/
structure HtsEntry where
  checksum64 : Nat
  paletteCrc : Nat
  textureCrc : Nat
  formatsize : Nat
  head : RecordHead
  isHires : Bool
  dataSize : Nat
  dataOffset : Nat
  sourcePath : String
  storage : String
  inlineBlob : Bool
deriving DecidableEq, Repr

/-- The entry of a slot, from what was read at its header. -/
def makeEntry (cachePath : String) (slot : IndexSlot) (formatsize : Nat) (head : RecordHead)
    (isHires dataSize dataOffset : Nat) : HtsEntry where
  checksum64 := slot.checksum64
  paletteCrc := slot.checksum64 / 2 ^ 32 % 2 ^ 32
  textureCrc := slot.checksum64 % 2 ^ 32
  formatsize := formatsize
  head := head
  isHires := isHires != 0
  dataSize := dataSize
  dataOffset := dataOffset
  sourcePath := cachePath
  storage := "hts"
  inlineBlob := false

/-- The header of a slot: skipped when its first 17 bytes are not in the file, and read
field by field otherwise. -/
def readRecord (cachePath : String) (oldVersion : Bool) (data : Bytes) (slot : IndexSlot) :
    Option (Option HtsEntry) :=
  if data.length < slot.recordOffset + 17 then some none
  else do
    let head ← unpackHead data slot.recordOffset
    let isHires ← unpackUnsigned 1 data (slot.recordOffset + 16)
    if oldVersion then
      let dataSize ← unpackUnsigned 4 data (slot.recordOffset + 17)
      some (some (makeEntry cachePath slot slot.formatsize head isHires dataSize
        (slot.recordOffset + 17 + 4)))
    else
      let recordFormatsize ← unpackUnsigned 2 data (slot.recordOffset + 17)
      let formatsize := if slot.formatsize = 0 then recordFormatsize else slot.formatsize
      let dataSize ← unpackUnsigned 4 data (slot.recordOffset + 19)
      some (some (makeEntry cachePath slot formatsize head isHires dataSize
        (slot.recordOffset + 19 + 4)))

/-- The index walk: it stops when the next slot does not fit, and gives the entries of the
slots it does not skip. -/
def walkIndex (cachePath : String) (oldVersion : Bool) (data : Bytes) :
    Nat → Nat → Option (List HtsEntry)
  | 0, _ => some []
  | remaining + 1, offset =>
    if data.length < offset + 16 then some []
    else do
      let checksum64 ← unpackUnsigned 8 data offset
      let packed ← unpackSigned 8 data (offset + 8)
      let entry ← readRecord cachePath oldVersion data (unpackSlot checksum64 packed)
      let rest ← walkIndex cachePath oldVersion data remaining (offset + 16)
      some (entry.toList ++ rest)

/-- The entries of a cache file, or nothing when a read raises. -/
def parseHtsEntries (cachePath : String) (data : Bytes) : Option (List HtsEntry) :=
  if data.length < 16 then some []
  else do
    let version ← unpackSigned 4 data 0
    let oldVersion := decide (version ≠ txcacheFormatVersion)
    let storagePos ← unpackSigned 8 data (if oldVersion then 4 else 8)
    if storagePos ≤ 0 ∨ data.length < storagePos + 4 then some []
    else
      let storageSize ← unpackSigned 4 data storagePos.toNat
      walkIndex cachePath oldVersion data storageSize.toNat (storagePos.toNat + 4)

def fieldAt (width : Nat) (data : Bytes) (offset : Nat) : Bytes := (data.drop offset).take width

def isOldVersion (data : Bytes) : Bool :=
  decide (decodeSigned (fieldAt 4 data 0) ≠ txcacheFormatVersion)

def storagePosition (data : Bytes) : Int :=
  decodeSigned (fieldAt 8 data (if isOldVersion data then 4 else 8))

def slotAt (data : Bytes) (offset : Nat) : IndexSlot :=
  unpackSlot (decodeLE (fieldAt 8 data offset)) (decodeSigned (fieldAt 8 data (offset + 8)))

/-- The slots from an offset on, as many as are announced and fit in the file. -/
def slotsFrom (data : Bytes) : Nat → Nat → List IndexSlot
  | 0, _ => []
  | remaining + 1, offset =>
    if data.length < offset + 16 then []
    else slotAt data offset :: slotsFrom data remaining (offset + 16)

/-- The slots of the index of a file. -/
def indexSlots (data : Bytes) : List IndexSlot :=
  if data.length < 16 ∨ storagePosition data ≤ 0 ∨ data.length < storagePosition data + 4 then []
  else
    slotsFrom data (decodeSigned (fieldAt 4 data (storagePosition data).toNat)).toNat
      ((storagePosition data).toNat + 4)

def headerSize (oldVersion : Bool) : Nat := 16 + 1 + (if oldVersion then 0 else 2) + 4

def headerFits (data : Bytes) (slot : IndexSlot) : Bool :=
  slot.recordOffset + headerSize (isOldVersion data) ≤ data.length

/-- The entry that the header of a slot describes. -/
def entryAt (cachePath : String) (data : Bytes) (slot : IndexSlot) : HtsEntry :=
  let recordFormatsize := decodeLE (fieldAt 2 data (slot.recordOffset + 17))
  let formatsize :=
    if isOldVersion data || slot.formatsize != 0 then slot.formatsize else recordFormatsize
  let sizeOffset := slot.recordOffset + headerSize (isOldVersion data) - 4
  makeEntry cachePath slot formatsize (decodeHead (fieldAt 16 data slot.recordOffset))
    (decodeLE (fieldAt 1 data (slot.recordOffset + 16))) (decodeLE (fieldAt 4 data sizeOffset))
    (sizeOffset + 4)

/-- The file is accepted: the entries are those of the slots whose header fits, in the
order of the index, and each header ends inside the file. -/
def Accepted (cachePath : String) (data : Bytes) : Prop :=
  ∃ entries, parseHtsEntries cachePath data = some entries ∧
    entries = ((indexSlots data).filter (headerFits data)).map (entryAt cachePath data) ∧
    ∀ entry ∈ entries, entry.dataOffset ≤ data.length

section Reads

variable {data : Bytes} {offset width : Nat}

theorem unpackUnsigned_of_le (h : offset + width ≤ data.length) :
    unpackUnsigned width data offset = some (decodeLE (fieldAt width data offset)) := by
  rw [unpackUnsigned, readAt_eq_some.mpr ⟨h, rfl⟩]
  rfl

theorem unpackUnsigned_of_lt (h : data.length < offset + width) :
    unpackUnsigned width data offset = none := by
  simp [unpackUnsigned, readAt, h]

theorem unpackSigned_of_le (h : offset + width ≤ data.length) :
    unpackSigned width data offset = some (decodeSigned (fieldAt width data offset)) := by
  rw [unpackSigned, readAt_eq_some.mpr ⟨h, rfl⟩]
  rfl

theorem unpackHead_of_le (h : offset + 16 ≤ data.length) :
    unpackHead data offset = some (decodeHead (fieldAt 16 data offset)) := by
  rw [unpackHead, readAt_eq_some.mpr ⟨h, rfl⟩]
  rfl

end Reads

section Walk

variable (cachePath : String) (data : Bytes)

theorem readRecord_of_lt {oldVersion : Bool} {slot : IndexSlot}
    (h : data.length < slot.recordOffset + 17) :
    readRecord cachePath oldVersion data slot = some none := by
  rw [readRecord, if_pos h]

theorem readRecord_of_fits {slot : IndexSlot} (h : headerFits data slot = true) :
    readRecord cachePath (isOldVersion data) data slot =
      some (some (entryAt cachePath data slot)) := by
  have hfits : slot.recordOffset + headerSize (isOldVersion data) ≤ data.length := by
    simpa [headerFits] using h
  unfold headerSize at hfits
  have hhires : unpackUnsigned 1 data (slot.recordOffset + 16) =
      some (decodeLE (fieldAt 1 data (slot.recordOffset + 16))) :=
    unpackUnsigned_of_le (by omega)
  rw [readRecord, if_neg (by omega), unpackHead_of_le (by omega), hhires]
  cases hold : isOldVersion data with
  | true =>
    rw [hold, if_pos rfl] at hfits
    have hsize : unpackUnsigned 4 data (slot.recordOffset + 17) =
        some (decodeLE (fieldAt 4 data (slot.recordOffset + 17))) :=
      unpackUnsigned_of_le (by omega)
    simp [entryAt, hold, headerSize, hsize]
  | false =>
    rw [hold, if_neg Bool.false_ne_true] at hfits
    have hformatsize : unpackUnsigned 2 data (slot.recordOffset + 17) =
        some (decodeLE (fieldAt 2 data (slot.recordOffset + 17))) :=
      unpackUnsigned_of_le (by omega)
    have hsize : unpackUnsigned 4 data (slot.recordOffset + 19) =
        some (decodeLE (fieldAt 4 data (slot.recordOffset + 19))) :=
      unpackUnsigned_of_le (by omega)
    by_cases hzero : slot.formatsize = 0
    · simp [entryAt, hold, headerSize, hformatsize, hsize, hzero]
    · simp [entryAt, hold, headerSize, hformatsize, hsize, hzero]

theorem readRecord_of_cut {slot : IndexSlot} (hstart : slot.recordOffset + 17 ≤ data.length)
    (h : headerFits data slot = false) :
    readRecord cachePath (isOldVersion data) data slot = none := by
  have hcut : data.length < slot.recordOffset + headerSize (isOldVersion data) := by
    simpa [headerFits] using h
  unfold headerSize at hcut
  have hhires : unpackUnsigned 1 data (slot.recordOffset + 16) =
      some (decodeLE (fieldAt 1 data (slot.recordOffset + 16))) :=
    unpackUnsigned_of_le (by omega)
  rw [readRecord, if_neg (by omega), unpackHead_of_le (by omega), hhires]
  cases hold : isOldVersion data with
  | true =>
    rw [hold, if_pos rfl] at hcut
    have hsize : unpackUnsigned 4 data (slot.recordOffset + 17) = none :=
      unpackUnsigned_of_lt (by omega)
    simp [hsize]
  | false =>
    rw [hold, if_neg Bool.false_ne_true] at hcut
    have hsize : unpackUnsigned 4 data (slot.recordOffset + 19) = none :=
      unpackUnsigned_of_lt (by omega)
    simp [hsize]

def NoneCut (slots : List IndexSlot) : Prop :=
  ∀ slot ∈ slots, slot.recordOffset + 17 ≤ data.length → headerFits data slot = true

theorem walkIndex_of_noneCut (remaining offset : Nat)
    (h : NoneCut data (slotsFrom data remaining offset)) :
    walkIndex cachePath (isOldVersion data) data remaining offset =
      some (((slotsFrom data remaining offset).filter (headerFits data)).map
        (entryAt cachePath data)) := by
  induction remaining generalizing offset with
  | zero => rfl
  | succ remaining ih =>
    rw [walkIndex]
    rw [slotsFrom] at h ⊢
    by_cases hend : data.length < offset + 16
    · rw [if_pos hend, if_pos hend]
      rfl
    · rw [if_neg hend] at h
      rw [if_neg hend, if_neg hend, unpackUnsigned_of_le (by omega),
        unpackSigned_of_le (by omega)]
      have hrest := ih (offset + 16) fun slot hslot => h slot (List.mem_cons_of_mem _ hslot)
      have hhead := h _ List.mem_cons_self
      rw [slotAt] at hhead ⊢
      cases hfits : headerFits data (slotAt data offset) with
      | true =>
        rw [slotAt] at hfits
        simp [readRecord_of_fits cachePath data hfits, hrest, hfits]
      | false =>
        rw [slotAt] at hfits
        have hlt : data.length < (slotAt data offset).recordOffset + 17 := by
          by_contra hle
          rw [hhead (Nat.le_of_not_lt hle)] at hfits
          cases hfits
        rw [slotAt] at hlt
        simp [readRecord_of_lt cachePath data hlt, hrest, hfits]

theorem walkIndex_of_cut (remaining offset : Nat)
    (h : ¬ NoneCut data (slotsFrom data remaining offset)) :
    walkIndex cachePath (isOldVersion data) data remaining offset = none := by
  induction remaining generalizing offset with
  | zero => exact absurd (fun slot hslot => nomatch hslot) h
  | succ remaining ih =>
    rw [walkIndex]
    rw [slotsFrom] at h
    by_cases hend : data.length < offset + 16
    · rw [if_pos hend] at h
      exact absurd (fun slot hslot => nomatch hslot) h
    · rw [if_neg hend] at h
      rw [if_neg hend, unpackUnsigned_of_le (by omega), unpackSigned_of_le (by omega)]
      by_cases hrest : NoneCut data (slotsFrom data remaining (offset + 16))
      · -- the slots after this one are fine, so this one is cut
        have hcut : ¬ ((slotAt data offset).recordOffset + 17 ≤ data.length →
            headerFits data (slotAt data offset) = true) := by
          intro hfine
          apply h
          intro slot hslot
          obtain rfl | hslot := List.mem_cons.mp hslot
          · exact hfine
          · exact hrest slot hslot
        rw [Classical.not_imp, Bool.not_eq_true] at hcut
        have hraise := readRecord_of_cut cachePath data hcut.1 hcut.2
        rw [slotAt] at hraise
        simp [hraise]
      · simp [ih (offset + 16) hrest]

theorem parseHtsEntries_eq :
    parseHtsEntries cachePath data =
      if data.length < 16 ∨ storagePosition data ≤ 0 ∨ data.length < storagePosition data + 4 then
        some []
      else
        walkIndex cachePath (isOldVersion data) data
          (decodeSigned (fieldAt 4 data (storagePosition data).toNat)).toNat
          ((storagePosition data).toNat + 4) := by
  unfold parseHtsEntries
  by_cases hshort : data.length < 16
  · rw [if_pos hshort, if_pos (Or.inl hshort)]
  · rw [if_neg hshort, unpackSigned_of_le (by omega)]
    have hpos : unpackSigned 8 data (if isOldVersion data then 4 else 8) =
        some (storagePosition data) := by
      apply unpackSigned_of_le
      split <;> omega
    simp only [Option.bind_eq_bind, Option.bind_some]
    change (unpackSigned 8 data (if isOldVersion data then 4 else 8)).bind _ = _
    rw [hpos, Option.bind_some]
    by_cases hindex : storagePosition data ≤ 0 ∨ data.length < storagePosition data + 4
    · rw [if_pos hindex, if_pos (Or.inr hindex)]
    · rw [if_neg hindex, if_neg (by tauto), unpackSigned_of_le (by omega), Option.bind_some,
        isOldVersion]

end Walk

theorem entryAt_dataOffset (cachePath : String) (data : Bytes) (slot : IndexSlot) :
    (entryAt cachePath data slot).dataOffset =
      slot.recordOffset + headerSize (isOldVersion data) := by
  simp only [entryAt, makeEntry, headerSize]
  omega

/-- The parser accepts a file exactly when no header that the index reaches is cut behind
its first 17 bytes. -/
theorem parseHtsEntries_accepted_iff (cachePath : String) (data : Bytes) :
    Accepted cachePath data ↔
      ∀ slot ∈ indexSlots data, slot.recordOffset + 17 ≤ data.length →
        slot.recordOffset + headerSize (isOldVersion data) ≤ data.length := by
  have hcond : (∀ slot ∈ indexSlots data, slot.recordOffset + 17 ≤ data.length →
      slot.recordOffset + headerSize (isOldVersion data) ≤ data.length) ↔
      NoneCut data (indexSlots data) := by
    simp [NoneCut, headerFits]
  rw [hcond, Accepted, parseHtsEntries_eq]
  unfold indexSlots
  by_cases hindex :
      data.length < 16 ∨ storagePosition data ≤ 0 ∨ data.length < storagePosition data + 4
  · simp [if_pos hindex, NoneCut]
  · rw [if_neg hindex, if_neg hindex]
    constructor
    · rintro ⟨entries, hparse, _, _⟩
      by_contra hcut
      rw [walkIndex_of_cut cachePath data _ _ hcut] at hparse
      cases hparse
    · intro hnone
      refine ⟨_, walkIndex_of_noneCut cachePath data _ _ hnone, rfl, ?_⟩
      intro entry hentry
      obtain ⟨slot, hslot, rfl⟩ := List.mem_map.mp hentry
      rw [entryAt_dataOffset]
      simpa [headerFits] using (List.mem_filter.mp hslot).2

def cutFile : Bytes :=
  [0, 0, 0, 8, 0, 0, 0, 0, 16, 0, 0, 0, 0, 0, 0, 0, 1, 0, 0, 0,
    1, 0, 0, 0, 2, 0, 0, 0, 19, 0, 0, 0, 0, 0, 0, 0]

/-- The parser raises on the cut file. -/
theorem cutFile_not_accepted :
    parseHtsEntries "cache.hts" cutFile = none ∧ ¬ Accepted "cache.hts" cutFile := by
  have hraise : parseHtsEntries "cache.hts" cutFile = none := by decide
  refine ⟨hraise, ?_⟩
  rintro ⟨entries, hparse, _⟩
  rw [hraise] at hparse
  cases hparse

end ParallelN64.Legacy
