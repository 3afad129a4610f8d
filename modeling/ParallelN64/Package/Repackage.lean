import ParallelN64.Phrb.RoundTrip

/-!
# Repackaging into one directory

Materializing a loader manifest decodes each asset from the source caches and writes it as an image
under the name of its replacement. Emitting the package then turns the images into pixel files, but
takes a pixel file that is already there.
-/

namespace ParallelN64.Package

open ParallelN64.Core Phrb

def pngPath (candidate : AssetCandidate) : Text :=
  ['a', 's', 's', 'e', 't', 's', '/'] ++ candidate.replacementId ++ ['.', 'p', 'n', 'g']

/-- What stands before the last dot of a file name, unless the dot is its first character
or its last. -/
def stem (name : Text) : Text :=
  let suffix := (name.reverse.takeWhile (· != '.')).reverse
  let front := name.take (name.length - suffix.length - 1)
  if suffix.length = name.length ∨ suffix = [] ∨ front = [] then name else front

/-- The pixel file beside an asset: its last suffix replaced. -/
def withSuffixRgba (path : Text) : Text :=
  let parent := path.take (path.length - (path.reverse.takeWhile (· != '/')).length)
  let name := path.drop parent.length
  parent ++ stem name ++ ['.', 'r', 'g', 'b', 'a']

abbrev Files := Text → Option Bytes

def Files.write (files : Files) (path : Text) (bytes : Bytes) : Files :=
  fun p => if p = path then some bytes else files p

@[simp] theorem Files.write_self (files : Files) (path : Text) (bytes : Bytes) :
    files.write path bytes path = some bytes := by
  simp [Files.write]

theorem Files.write_of_ne (files : Files) {path p : Text} (bytes : Bytes) (h : p ≠ path) :
    files.write path bytes p = files p := by
  simp [Files.write, h]

theorem withSuffixRgba_ne_pngPath (path : Text) (candidate : AssetCandidate) :
    withSuffixRgba path ≠ pngPath candidate := by
  intro h
  have hrgba : (withSuffixRgba path).getLast? = some 'a' := by
    simp [withSuffixRgba]
  have hpng : (pngPath candidate).getLast? = some 'g' := by
    rw [pngPath, List.getLast?_append]
    rfl
  rw [h, hpng] at hrgba
  exact absurd hrgba (by decide)

/-- The source caches of a round: how a file is parsed, the keys of its entries, and the
pixels an entry decodes to. -/
structure Caches (ε : Type) where
  parse : Text → Option (List ε)
  checksum64 : ε → Int
  formatsize : ε → Int
  decode : Text → ε → Option Bytes

/-- The image library: saving pixels of a width and a height, and the pixels of an image. -/
structure ImageFormat where
  save : Int → Int → Bytes → Option Bytes
  load : Bytes → Option Bytes

/-- The format is lossless: an image gives back the pixels it was made of, which are as many
as its size needs from the front of the given ones. -/
def ImageFormat.Lossless (format : ImageFormat) : Prop :=
  ∀ width height rgba png, format.save width height rgba = some png →
    format.load png = some (rgba.take (width * height * 4).toNat)

section Round

variable {ε : Type}
-- Conversion of a text to an integer in a base; the results hold for any conversion.
variable (parseInt : Nat → Text → Option Int)

/-- The entry of a cache for a checksum: the last one of the exact format and size, and
otherwise the first one without a format and size. -/
def Caches.find (caches : Caches ε) (entries : List ε) (checksum64 formatsize : Int) : Option ε :=
  (entries.reverse.find? fun e =>
      caches.checksum64 e == checksum64 && caches.formatsize e == formatsize) <|>
    entries.find? fun e => caches.formatsize e == 0 && caches.checksum64 e == checksum64

/-- The pixels that the caches hold for a candidate. -/
def Caches.pixels (caches : Caches ε) (candidate : AssetCandidate) : Option Bytes := do
  let entries ← caches.parse candidate.legacySourcePath
  let checksum64 ← parseInt 16 candidate.legacyChecksum64
  let formatsize ← (candidate.legacyFormatsize.orElse (.int 0)).toInt parseInt
  let entry ← caches.find entries checksum64 formatsize
  caches.decode candidate.legacySourcePath entry

/-- The image written for a candidate. -/
def materializedImage (format : ImageFormat) (caches : Caches ε) (candidate : AssetCandidate) :
    Option Bytes := do
  let width ← candidate.width.toInt parseInt
  let height ← candidate.height.toInt parseInt
  let rgba ← caches.pixels parseInt candidate
  format.save width height rgba

/-- Write the images of candidates, up to the first one that fails. -/
def materializeCandidates (format : ImageFormat) (caches : Caches ε) :
    Files → List AssetCandidate → Files × Bool
  | files, [] => (files, true)
  | files, candidate :: candidates =>
    match materializedImage parseInt format caches candidate with
    | none => (files, false)
    | some png =>
      materializeCandidates format caches (files.write (pngPath candidate) png) candidates

/-- The record of the package manifest. -/
def packageRecord (record : ManifestRecord) (recordFlags : Int) : ManifestRecord :=
  { record with
    runtimeReady := .bool record.runtimeReady.truthy
    recordFlags := .int recordFlags
    assetCandidateCount := .int record.assetCandidates.length
    assetCandidates := record.assetCandidates.map fun c => { c with materializedPath := pngPath c } }

/-- Materialize records one after the other; a failure leaves what was written before it. -/
def materializeRecords (format : ImageFormat) (caches : Caches ε) :
    Files → List ManifestRecord → Files × Option (List ManifestRecord)
  | files, [] => (files, some [])
  | files, record :: records =>
    match materializeCandidates parseInt format caches files record.assetCandidates with
    | (files, false) => (files, none)
    | (files, true) =>
      match (record.recordFlags.orElse (.int 0)).toInt parseInt with
      | none => (files, none)
      | some recordFlags =>
        let (files, rest) := materializeRecords format caches files records
        (files, rest.map (packageRecord record recordFlags :: ·))

/-- The pixels of the candidates by the path of their pixel file. Files that are not there
are made from the images; a failure leaves the ones made before it. -/
def deriveBlobs (format : ImageFormat) :
    Files → Files → List AssetCandidate → Files × Option Files
  | files, blobs, [] => (files, some blobs)
  | files, blobs, candidate :: candidates =>
    let rgbaPath := withSuffixRgba candidate.materializedPath
    match files rgbaPath with
    | some rgba => deriveBlobs format files (blobs.write rgbaPath rgba) candidates
    | none =>
      match (files candidate.materializedPath).bind format.load with
      | none => (files, none)
      | some rgba =>
        deriveBlobs format (files.write rgbaPath rgba) (blobs.write rgbaPath rgba) candidates

def rgbaRecord (record : ManifestRecord) : ManifestRecord :=
  { record with
    assetCandidates := record.assetCandidates.map fun c =>
      { c with materializedPath := withSuffixRgba c.materializedPath } }

/-- An emitted package with the records and the blobs it was emitted from. -/
structure Emission where
  records : List ManifestRecord
  blobs : Files
  package : EmittedPackage

def emitBinaryPackage (format : ImageFormat) (files : Files) (records : List ManifestRecord) :
    Files × Option Emission :=
  match deriveBlobs format files (fun _ => none) (records.flatMap (·.assetCandidates)) with
  | (files, none) => (files, none)
  | (files, some blobs) =>
    let records := records.map rgbaRecord
    (files, (emitBinaryPackageFromManifest parseInt .rgba blobs none records).map fun package =>
      { records, blobs, package })

/-- A round: a loader manifest and the caches it is built from. -/
structure Round (ε : Type) where
  records : List ManifestRecord
  caches : Caches ε

def repackage (format : ImageFormat) (files : Files) (round : Round ε) : Files × Option Emission :=
  match materializeRecords parseInt format round.caches files round.records with
  | (files, none) => (files, none)
  | (files, some records) => emitBinaryPackage parseInt format files records

def repackages (format : ImageFormat) (files : Files) (rounds : List (Round ε)) : Files :=
  rounds.foldl (fun files round => (repackage parseInt format files round).1) files

/-- The blob stored for an asset of an emitted package. -/
def Emission.Stores (emission : Emission) (asset : StoredAsset) (blob : Bytes) : Prop :=
  asset.storage.blobSize = blob.length ∧
    readAt emission.package.file
      (headerSize + recordLayoutV4.sum * emission.package.recordCount +
        assetLayoutV7.sum * emission.package.assetCount + emission.package.stringTableBytes +
          asset.blobOffset.toNat) blob.length = some blob

/-- Every runtime-ready asset of the emitted package is stored with the pixels that the
caches of the round hold for it. -/
def HistoryFree (round : Round ε) (emission : Emission) : Prop :=
  ∀ stored total, storeAssets parseInt .rgba emission.blobs 0 (assetRecords 0 emission.records) =
      some (stored, total) →
    ∀ asset ∈ stored, asset.record.runtimeReady.truthy = true →
      ∃ rgba, round.caches.pixels parseInt asset.candidate = some rgba ∧ emission.Stores asset rgba

/-- The pixels that the image of a candidate shows. -/
def shownPixels (caches : Caches ε) (candidate : AssetCandidate) : Option Bytes := do
  let width ← candidate.width.toInt parseInt
  let height ← candidate.height.toInt parseInt
  let rgba ← caches.pixels parseInt candidate
  some (rgba.take (width * height * 4).toNat)

def rgbaPath (candidate : AssetCandidate) : Text := withSuffixRgba (pngPath candidate)

/-- The candidate whose image the pixel file of a candidate is made from: the last one
written under the name of the first one that needs the file. -/
def imageSource (candidates : List AssetCandidate) (candidate : AssetCandidate) :
    Option AssetCandidate := do
  let first ← candidates.find? fun c => rgbaPath c == rgbaPath candidate
  candidates.reverse.find? fun c => pngPath c == pngPath first

/-- The directory cannot mislead the emitter about a candidate. -/
def Current (files : Files) (round : Round ε) (candidate : AssetCandidate) : Prop :=
  match files (rgbaPath candidate) with
  | some rgba => round.caches.pixels parseInt candidate = some rgba
  | none =>
    (imageSource (round.records.flatMap (·.assetCandidates)) candidate).bind
      (shownPixels parseInt round.caches) = round.caches.pixels parseInt candidate

variable {parseInt}
variable {format : ImageFormat} {caches : Caches ε} {files files' : Files}

theorem materializeCandidates_spec {candidates : List AssetCandidate}
    (h : materializeCandidates parseInt format caches files candidates = (files', true)) :
    (∀ c ∈ candidates, ∃ png, materializedImage parseInt format caches c = some png) ∧
    ∀ path, files' path =
      match candidates.reverse.find? (fun c => pngPath c == path) with
      | some c => materializedImage parseInt format caches c
      | none => files path := by
  induction candidates generalizing files with
  | nil =>
    rw [materializeCandidates, Prod.mk.injEq] at h
    rw [← h.1]
    exact ⟨fun c hc => absurd hc List.not_mem_nil, fun _ => rfl⟩
  | cons candidate candidates ih =>
    rw [materializeCandidates] at h
    cases himage : materializedImage parseInt format caches candidate with
    | none => simp [himage] at h
    | some png =>
      rw [himage] at h
      obtain ⟨himages, hfiles⟩ := ih h
      constructor
      · intro c hc
        obtain rfl | hc := List.mem_cons.mp hc
        · exact ⟨png, himage⟩
        · exact himages c hc
      · intro path
        rw [hfiles path, List.reverse_cons, List.find?_append]
        cases hlater : candidates.reverse.find? (fun c => pngPath c == path) with
        | some c => rfl
        | none =>
          by_cases hpath : pngPath candidate = path
          · subst hpath
            simp [himage]
          · simp [hpath, Files.write_of_ne _ _ (Ne.symm hpath)]

variable {records records' : List ManifestRecord} {emission : Emission}

theorem materializeRecords_spec
    (h : materializeRecords parseInt format caches files records = (files', some records')) :
    (List.Forall₂ (fun r r' => ∃ recordFlags, r' = packageRecord r recordFlags) records records') ∧
    (∀ c ∈ records.flatMap (·.assetCandidates),
      ∃ png, materializedImage parseInt format caches c = some png) ∧
    ∀ path, files' path =
      match (records.flatMap (·.assetCandidates)).reverse.find? (fun c => pngPath c == path) with
      | some c => materializedImage parseInt format caches c
      | none => files path := by
  induction records generalizing files records' with
  | nil =>
    rw [materializeRecords, Prod.mk.injEq, Option.some.injEq] at h
    obtain ⟨rfl, rfl⟩ := h
    exact ⟨.nil, fun c hc => absurd hc List.not_mem_nil, fun _ => rfl⟩
  | cons record records ih =>
    rw [materializeRecords] at h
    cases hwrite : materializeCandidates parseInt format caches files record.assetCandidates with
    | mk written done =>
    rw [hwrite] at h
    cases done with
    | false => simp at h
    | true =>
      cases hflags : (record.recordFlags.orElse (.int 0)).toInt parseInt with
      | none => simp [hflags] at h
      | some recordFlags =>
        simp only [hflags] at h
        cases hrest : materializeRecords parseInt format caches written records with
        | mk after rest =>
        rw [hrest] at h
        cases rest with
        | none => simp at h
        | some rest =>
          rw [Option.map_some, Prod.mk.injEq, Option.some.injEq] at h
          obtain ⟨rfl, rfl⟩ := h
          obtain ⟨hrecords, himages, hfiles⟩ := ih hrest
          obtain ⟨hfirst, hwritten⟩ := materializeCandidates_spec hwrite
          refine ⟨.cons ⟨recordFlags, rfl⟩ hrecords, ?_, ?_⟩
          · intro c hc
            rw [List.flatMap_cons] at hc
            obtain hc | hc := List.mem_append.mp hc
            · exact hfirst c hc
            · exact himages c hc
          intro path
          rw [hfiles path, List.flatMap_cons, List.reverse_append, List.find?_append]
          cases hlater : (records.flatMap (·.assetCandidates)).reverse.find?
              (fun c => pngPath c == path) with
          | some c => rfl
          | none => exact hwritten path

theorem materializeCandidates_rgba (files : Files) (candidates : List AssetCandidate)
    (path : Text) : (materializeCandidates parseInt format caches files candidates).1
      (withSuffixRgba path) = files (withSuffixRgba path) := by
  induction candidates generalizing files with
  | nil => rfl
  | cons candidate candidates ih =>
    rw [materializeCandidates]
    cases materializedImage parseInt format caches candidate with
    | none => rfl
    | some png =>
      exact (ih _).trans (Files.write_of_ne _ _ (withSuffixRgba_ne_pngPath path candidate))

theorem materializeRecords_rgba (files : Files) (records : List ManifestRecord) (path : Text) :
    (materializeRecords parseInt format caches files records).1 (withSuffixRgba path) =
      files (withSuffixRgba path) := by
  induction records generalizing files with
  | nil => rfl
  | cons record records ih =>
    have hfirst :=
      @materializeCandidates_rgba _ parseInt format caches files record.assetCandidates path
    rw [materializeRecords]
    cases hwritten : materializeCandidates parseInt format caches files record.assetCandidates with
    | mk written done =>
    rw [hwritten] at hfirst
    cases done with
    | false => exact hfirst
    | true =>
      cases (record.recordFlags.orElse (.int 0)).toInt parseInt with
      | none => exact hfirst
      | some recordFlags => exact (ih written).trans hfirst

/-- The pixels for a pixel file: what it holds, or those of the image of the first candidate
that needs it. -/
def derivedBlob (format : ImageFormat) (files : Files) (candidates : List AssetCandidate)
    (path : Text) : Option Bytes :=
  match files path with
  | some rgba => some rgba
  | none => do
    let first ← candidates.find? fun c => withSuffixRgba c.materializedPath == path
    let png ← files first.materializedPath
    format.load png

theorem deriveBlobs_spec {blobs blobs' : Files} {candidates : List AssetCandidate}
    (h : deriveBlobs format files blobs candidates = (files', some blobs'))
    (hne : ∀ c ∈ candidates, ∀ d ∈ candidates,
      withSuffixRgba c.materializedPath ≠ d.materializedPath) (path : Text) :
    blobs' path =
      if ∃ c ∈ candidates, withSuffixRgba c.materializedPath = path then
        derivedBlob format files candidates path
      else blobs path := by
  induction candidates generalizing files blobs with
  | nil =>
    rw [deriveBlobs, Prod.mk.injEq, Option.some.injEq] at h
    simp [h.2]
  | cons candidate candidates ih =>
    have hne' : ∀ c ∈ candidates, ∀ d ∈ candidates,
        withSuffixRgba c.materializedPath ≠ d.materializedPath :=
      fun c hc d hd => hne c (List.mem_cons_of_mem _ hc) d (List.mem_cons_of_mem _ hd)
    rw [deriveBlobs] at h
    cases hfile : files (withSuffixRgba candidate.materializedPath) with
    | some rgba =>
      simp only [hfile] at h
      rw [ih h hne']
      by_cases hpath : withSuffixRgba candidate.materializedPath = path
      · subst hpath
        have hkept : ∀ cs, derivedBlob format files cs
            (withSuffixRgba candidate.materializedPath) = some rgba := by
          intro cs
          rw [derivedBlob, hfile]
        rw [hkept, hkept]
        simp
      · have hderived : derivedBlob format files (candidate :: candidates) path =
            derivedBlob format files candidates path := by
          simp [derivedBlob, hpath]
        simp [hpath, hderived, Files.write_of_ne _ _ (Ne.symm hpath)]
    | none =>
      simp only [hfile] at h
      cases hload : (files candidate.materializedPath).bind format.load with
      | none => simp [hload] at h
      | some rgba =>
        simp only [hload] at h
        rw [ih h hne']
        by_cases hpath : withSuffixRgba candidate.materializedPath = path
        · -- the file that was just made serves the later candidates too
          subst hpath
          have hmade : derivedBlob format files (candidate :: candidates)
              (withSuffixRgba candidate.materializedPath) = some rgba := by
            simpa [derivedBlob, hfile] using hload
          have hlater : derivedBlob format
              (files.write (withSuffixRgba candidate.materializedPath) rgba) candidates
              (withSuffixRgba candidate.materializedPath) = some rgba := by
            simp [derivedBlob]
          rw [hmade, hlater]
          simp
        · have hkept : ∀ d ∈ candidates,
              files.write (withSuffixRgba candidate.materializedPath) rgba d.materializedPath =
                files d.materializedPath := by
            intro d hd
            apply Files.write_of_ne
            exact (hne candidate List.mem_cons_self d (List.mem_cons_of_mem _ hd)).symm
          have hderived : derivedBlob format
              (files.write (withSuffixRgba candidate.materializedPath) rgba) candidates path =
              derivedBlob format files (candidate :: candidates) path := by
            rw [derivedBlob, derivedBlob, Files.write_of_ne _ _ (Ne.symm hpath)]
            cases files path with
            | some rgba => rfl
            | none =>
              have hskip : (candidate :: candidates).find?
                  (fun c => withSuffixRgba c.materializedPath == path) =
                  candidates.find? fun c => withSuffixRgba c.materializedPath == path := by
                simp [hpath]
              rw [hskip]
              cases hfirst : candidates.find?
                  (fun c => withSuffixRgba c.materializedPath == path) with
              | none => rfl
              | some first =>
                simp only [Option.bind_eq_bind, Option.bind_some]
                rw [hkept first (List.mem_of_find?_eq_some hfirst)]
          simp [hpath, hderived, Files.write_of_ne _ _ (Ne.symm hpath)]

theorem deriveBlobs_keeps {path : Text} {rgba : Bytes} (h : files path = some rgba)
    (blobs : Files) (candidates : List AssetCandidate) :
    (deriveBlobs format files blobs candidates).1 path = some rgba := by
  induction candidates generalizing files blobs with
  | nil => exact h
  | cons candidate candidates ih =>
    rw [deriveBlobs]
    cases hfile : files (withSuffixRgba candidate.materializedPath) with
    | some found => exact ih h _
    | none =>
      cases (files candidate.materializedPath).bind format.load with
      | none => exact h
      | some made =>
        refine ih ((Files.write_of_ne _ _ ?_).trans h) _
        rintro rfl
        rw [h] at hfile
        cases hfile

theorem repackage_keeps {path : Text} {rgba : Bytes} (h : files (withSuffixRgba path) = some rgba)
    (round : Round ε) :
    (repackage parseInt format files round).1 (withSuffixRgba path) = some rgba := by
  have hwritten := (@materializeRecords_rgba _ parseInt format round.caches files round.records
    path).trans h
  unfold repackage
  cases hmaterialize : materializeRecords parseInt format round.caches files round.records with
  | mk written records' =>
  rw [hmaterialize] at hwritten
  cases records' with
  | none => exact hwritten
  | some records' =>
    have hkept := @deriveBlobs_keeps format written _ rgba hwritten (fun _ => none)
      (records'.flatMap (·.assetCandidates))
    simp only [emitBinaryPackage]
    generalize deriveBlobs format written _ _ = derived at hkept
    obtain ⟨derived, _ | blobs⟩ := derived <;> exact hkept

/-- A pixel file that is there is never made again, whatever the later rounds decode. -/
theorem repackages_keep {path : Text} {rgba : Bytes} (h : files (withSuffixRgba path) = some rgba)
    (rounds : List (Round ε)) :
    repackages parseInt format files rounds (withSuffixRgba path) = some rgba := by
  induction rounds generalizing files with
  | nil => exact h
  | cons round rounds ih => exact ih (repackage_keeps h round)

section Window

variable {mode : AssetStorageMode} {assetRgbaBlobs : Text → Option Bytes}
  {assetBlobLoader : Option AssetBlobLoader}

theorem sum_blobSize_eq {assets : List StoredAsset}
    (hstorage : ∀ s ∈ assets,
      storage parseInt mode assetRgbaBlobs s.record s.candidate = some s.storage)
    (hchunks : ∀ s ∈ assets, blobChunk assetRgbaBlobs assetBlobLoader s =
      some (chunkOf assetRgbaBlobs assetBlobLoader s)) :
    (assets.map fun a => a.storage.blobSize).sum =
      ((assets.map (chunkOf assetRgbaBlobs assetBlobLoader)).flatten.length : Int) := by
  induction assets with
  | nil => rfl
  | cons a assets ih =>
    have hsize := blobSize_eq_length_chunk parseInt mode assetRgbaBlobs assetBlobLoader
      (hstorage a List.mem_cons_self) (hchunks a List.mem_cons_self)
    rw [List.map_cons, List.sum_cons, hsize,
      ih (fun s hs => hstorage s (List.mem_cons_of_mem a hs))
        fun s hs => hchunks s (List.mem_cons_of_mem a hs),
      List.map_cons, List.flatten_cons, List.length_append]
    rfl

theorem readAt_of_emit {records : List ManifestRecord} {out : EmittedPackage}
    {stored : List StoredAsset} {total : Int}
    (h : emitBinaryPackageFromManifest parseInt mode assetRgbaBlobs assetBlobLoader records =
      some out)
    (hstored : storeAssets parseInt mode assetRgbaBlobs 0 (assetRecords 0 records) =
      some (stored, total)) :
    ∀ s ∈ stored,
      let chunk := chunkOf assetRgbaBlobs assetBlobLoader s
      blobChunk assetRgbaBlobs assetBlobLoader s = some chunk ∧
        s.storage.blobSize = chunk.length ∧
        readAt out.file (headerSize + recordLayoutV4.sum * out.recordCount +
          assetLayoutV7.sum * out.assetCount + out.stringTableBytes + s.blobOffset.toNat)
            chunk.length = some chunk := by
  obtain ⟨header, recordTable, stored', total', assetTable, hheader, hrecords, hstored', hassets,
    hchunks, hfile, hrecordCount, hassetCount, hstringBytes⟩ := emit_eq_some h
  rw [hstored, Option.some.injEq, Prod.mk.injEq] at hstored'
  obtain ⟨rfl, rfl⟩ := hstored'
  obtain ⟨hmap, hstorage, hoffset⟩ := storeAssets_spec parseInt mode assetRgbaBlobs hstored
  have hchunk : ∀ s ∈ stored, blobChunk assetRgbaBlobs assetBlobLoader s =
      some (chunkOf assetRgbaBlobs assetBlobLoader s) := by
    intro s hs
    have hall := mapM_eq_some_iff.mp hchunks
    rw [List.map_map] at hall
    exact List.map_inj_left.mp hall s hs
  intro s hs chunk
  refine ⟨hchunk s hs, blobSize_eq_length_chunk parseInt mode assetRgbaBlobs assetBlobLoader
    (hstorage s hs) (hchunk s hs), ?_⟩
  obtain ⟨pre, post, hsplit⟩ := List.append_of_mem hs
  have hbefore : s.blobOffset.toNat =
      (pre.map (chunkOf assetRgbaBlobs assetBlobLoader)).flatten.length := by
    rw [hoffset pre s post hsplit, Int.zero_add, sum_blobSize_eq
      (fun a ha => hstorage a (hsplit ▸ List.mem_append_left _ ha))
      (fun a ha => hchunk a (hsplit ▸ List.mem_append_left _ ha)), Int.toNat_natCast]
  have hheaderLen : header.length = 28 := length_packFields hheader
  have hrecordSize := length_flatten_of_length (length_of_mem_packedTable hrecords)
  have hassetSize := length_flatten_of_length (length_of_mem_packedTable hassets)
  rw [length_of_mapM_eq_some hrecords] at hrecordSize
  rw [length_of_mapM_eq_some hassets] at hassetSize
  have hwindow := readAt_append (phrbMagic ++ header ++ recordTable.flatten ++ assetTable.flatten ++
    (StringTable.build encodeUtf8 (records.flatMap recordStrings)).1 ++
      (pre.map (chunkOf assetRgbaBlobs assetBlobLoader)).flatten) chunk
    (post.map (chunkOf assetRgbaBlobs assetBlobLoader)).flatten
  have hlength : (phrbMagic ++ header ++ recordTable.flatten ++ assetTable.flatten ++
    (StringTable.build encodeUtf8 (records.flatMap recordStrings)).1 ++
      (pre.map (chunkOf assetRgbaBlobs assetBlobLoader)).flatten).length =
      headerSize + recordLayoutV4.sum * out.recordCount + assetLayoutV7.sum * out.assetCount +
        out.stringTableBytes + s.blobOffset.toNat := by
    have hmagic : phrbMagic.length = 4 := rfl
    have hheaderSize : headerSize = 32 := rfl
    simp only [List.length_append]
    rw [hbefore, hrecordCount, hassetCount, hstringBytes, hrecordSize, hassetSize,
      Nat.mul_comm records.length, Nat.mul_comm stored.length]
    omega
  have hwhole : out.file = phrbMagic ++ header ++ recordTable.flatten ++ assetTable.flatten ++
      (StringTable.build encodeUtf8 (records.flatMap recordStrings)).1 ++
        (pre.map (chunkOf assetRgbaBlobs assetBlobLoader)).flatten ++
          (chunk ++ (post.map (chunkOf assetRgbaBlobs assetBlobLoader)).flatten) := by
    rw [hfile, hsplit, List.map_append, List.map_cons, List.flatten_append, List.flatten_cons]
    simp only [List.append_assoc]
    rfl
  rw [hwhole, ← hlength]
  exact hwindow

end Window

theorem exists_assetRecord_iff {start : Nat} {record : ManifestRecord}
    {candidate : AssetCandidate} :
    (∃ a ∈ assetRecords start records, a.record = record ∧ a.candidate = candidate) ↔
      record ∈ records ∧ candidate ∈ record.assetCandidates := by
  induction records generalizing start with
  | nil => simp [assetRecords]
  | cons r records ih =>
    rw [assetRecords]
    constructor
    · rintro ⟨a, ha, rfl, rfl⟩
      obtain ha | ha := List.mem_append.mp ha
      · obtain ⟨c, hc, rfl⟩ := List.mem_map.mp ha
        exact ⟨List.mem_cons_self, hc⟩
      · obtain ⟨hrecord, hcandidate⟩ := ih.mp ⟨a, ha, rfl, rfl⟩
        exact ⟨List.mem_cons_of_mem r hrecord, hcandidate⟩
    · rintro ⟨hrecord, hcandidate⟩
      obtain rfl | hrecord := List.mem_cons.mp hrecord
      · exact ⟨_, List.mem_append_left _ (List.mem_map.mpr ⟨candidate, hcandidate, rfl⟩), rfl, rfl⟩
      · obtain ⟨a, ha, hmatch⟩ := ih.mpr ⟨hrecord, hcandidate⟩
        exact ⟨a, List.mem_append_right _ ha, hmatch⟩

theorem flatMap_packageRecords
    (h : List.Forall₂ (fun r r' => ∃ recordFlags, r' = packageRecord r recordFlags)
      records records') :
    records'.flatMap (·.assetCandidates) = (records.flatMap (·.assetCandidates)).map
      fun c => { c with materializedPath := pngPath c } := by
  induction h with
  | nil => rfl
  | cons hrecord _ ih =>
    obtain ⟨recordFlags, rfl⟩ := hrecord
    rw [List.flatMap_cons, List.flatMap_cons, List.map_append, ih]
    rfl

/-- What the pixel file of a candidate holds when it is emitted. -/
def emittedPixels (parseInt : Nat → Text → Option Int) (files : Files) (round : Round ε)
    (candidate : AssetCandidate) : Option Bytes :=
  match files (rgbaPath candidate) with
  | some rgba => some rgba
  | none =>
    (imageSource (round.records.flatMap (·.assetCandidates)) candidate).bind
      (shownPixels parseInt round.caches)

theorem current_iff (files : Files) (round : Round ε) (candidate : AssetCandidate) :
    Current parseInt files round candidate ↔
      emittedPixels parseInt files round candidate = round.caches.pixels parseInt candidate := by
  unfold Current emittedPixels
  cases files (rgbaPath candidate) with
  | some rgba => exact eq_comm
  | none => exact Iff.rfl

theorem load_materializedImage (hformat : format.Lossless) {candidate : AssetCandidate}
    {png : Bytes} (h : materializedImage parseInt format caches candidate = some png) :
    format.load png = shownPixels parseInt caches candidate := by
  obtain ⟨width, hwidth, h⟩ := Option.bind_eq_some_iff.mp h
  obtain ⟨height, hheight, h⟩ := Option.bind_eq_some_iff.mp h
  obtain ⟨rgba, hrgba, h⟩ := Option.bind_eq_some_iff.mp h
  rw [hformat width height rgba png h]
  simp [shownPixels, hwidth, hheight, hrgba]

theorem repackage_spec (hformat : format.Lossless) {round : Round ε}
    (h : (repackage parseInt format files round).2 = some emission) :
    (∃ records', List.Forall₂ (fun r r' => ∃ recordFlags, r' = packageRecord r recordFlags)
        round.records records' ∧ emission.records = records'.map rgbaRecord) ∧
      (∀ c ∈ round.records.flatMap (·.assetCandidates),
        emission.blobs (rgbaPath c) = emittedPixels parseInt files round c) ∧
      emitBinaryPackageFromManifest parseInt .rgba emission.blobs none emission.records =
        some emission.package := by
  unfold repackage at h
  cases hmaterialize : materializeRecords parseInt format round.caches files round.records with
  | mk written records' =>
  rw [hmaterialize] at h
  cases records' with
  | none => cases h
  | some records' =>
    obtain ⟨hrecords, himages, hwritten⟩ := materializeRecords_spec hmaterialize
    have hcandidates := flatMap_packageRecords hrecords
    simp only [emitBinaryPackage] at h
    cases hderive : deriveBlobs format written (fun _ => none)
        (records'.flatMap (·.assetCandidates)) with
    | mk derived blobs =>
    rw [hderive] at h
    cases blobs with
    | none => cases h
    | some blobs =>
      obtain ⟨package, hpackage, rfl⟩ := Option.map_eq_some_iff.mp h
      refine ⟨⟨records', hrecords, rfl⟩, ?_, hpackage⟩
      have hblobs := deriveBlobs_spec hderive (by
        rw [hcandidates]
        intro c hc d hd
        obtain ⟨e, _, rfl⟩ := List.mem_map.mp hd
        exact withSuffixRgba_ne_pngPath _ e)
      intro c hc
      have hneeded : ∃ d ∈ records'.flatMap (·.assetCandidates),
          withSuffixRgba d.materializedPath = rgbaPath c := by
        rw [hcandidates]
        exact ⟨_, List.mem_map.mpr ⟨c, hc, rfl⟩, rfl⟩
      show blobs (rgbaPath c) = _
      rw [hblobs (rgbaPath c), if_pos hneeded, derivedBlob, emittedPixels]
      have hrgba : written (rgbaPath c) = files (rgbaPath c) := by
        have hkept := @materializeRecords_rgba _ parseInt format round.caches files
          round.records (pngPath c)
        rwa [hmaterialize] at hkept
      rw [hrgba]
      cases files (rgbaPath c) with
      | some rgba => rfl
      | none =>
        -- the pixels come from the image that serves the first candidate of the file
        rw [hcandidates, List.find?_map]
        unfold imageSource
        cases hfirst : (round.records.flatMap (·.assetCandidates)).find?
            (fun d => rgbaPath d == rgbaPath c) with
        | none =>
          have hself := List.find?_eq_none.mp hfirst c hc
          simp at hself
        | some first =>
          have hmem := List.mem_of_find?_eq_some hfirst
          have hfirst' : (round.records.flatMap (·.assetCandidates)).find?
              ((fun d => withSuffixRgba d.materializedPath == rgbaPath c) ∘
                fun d => { d with materializedPath := pngPath d }) = some first := hfirst
          rw [hfirst']
          simp only [Option.map_some, Option.bind_eq_bind, Option.bind_some]
          rw [hwritten (pngPath first)]
          cases hlast : (round.records.flatMap (·.assetCandidates)).reverse.find?
              (fun d => pngPath d == pngPath first) with
          | none =>
            have hself := List.find?_eq_none.mp hlast first (List.mem_reverse.mpr hmem)
            simp at hself
          | some last =>
            obtain ⟨png, hpng⟩ :=
              himages last (List.mem_reverse.mp (List.mem_of_find?_eq_some hlast))
            simp only [hpng, Option.bind_some]
            exact load_materializedImage hformat hpng

theorem Emission.Stores.unique {asset : StoredAsset} {blob blob' : Bytes}
    (h : emission.Stores asset blob) (h' : emission.Stores asset blob') : blob = blob' := by
  have hlength : blob.length = blob'.length := by
    have hsize := h.1.symm.trans h'.1
    exact_mod_cast hsize
  have hread := h.2
  rw [hlength, h'.2, Option.some.injEq] at hread
  exact hread.symm

theorem Emission.exists_stores
    (hemit : emitBinaryPackageFromManifest parseInt .rgba emission.blobs none emission.records =
      some emission.package) {stored : List StoredAsset} {total : Int}
    (hstored : storeAssets parseInt .rgba emission.blobs 0 (assetRecords 0 emission.records) =
      some (stored, total)) {asset : StoredAsset} (hasset : asset ∈ stored)
    (hready : asset.record.runtimeReady.truthy = true) :
    ∃ blob, emission.blobs asset.candidate.materializedPath = some blob ∧
      emission.Stores asset blob := by
  obtain ⟨hchunk, hsize, hread⟩ := readAt_of_emit hemit hstored asset hasset
  have hsupplied := suppliedBlob_of_blobChunk _ _ hready hchunk
  refine ⟨chunkOf emission.blobs none asset, ?_, hsize, hread⟩
  unfold suppliedBlob at hsupplied
  cases hgiven : emission.blobs asset.candidate.materializedPath with
  | some value =>
    rw [hgiven] at hsupplied
    exact hsupplied
  | none =>
    rw [hgiven] at hsupplied
    cases hsupplied

def emittedCandidate (candidate : AssetCandidate) : AssetCandidate :=
  { candidate with materializedPath := rgbaPath candidate }

theorem exists_readyAsset_iff
    (h : List.Forall₂ (fun r r' => ∃ recordFlags, r' = packageRecord r recordFlags)
      records records') (emitted : AssetCandidate) :
    (∃ r' ∈ records'.map rgbaRecord, r'.runtimeReady.truthy = true ∧
        emitted ∈ r'.assetCandidates) ↔
      ∃ r ∈ records, r.runtimeReady.truthy = true ∧
        ∃ c ∈ r.assetCandidates, emittedCandidate c = emitted := by
  induction h with
  | nil => simp
  | @cons r r' records records' hrecord _ ih =>
    obtain ⟨recordFlags, rfl⟩ := hrecord
    have hready : (rgbaRecord (packageRecord r recordFlags)).runtimeReady.truthy =
        r.runtimeReady.truthy := rfl
    have hcandidates : (rgbaRecord (packageRecord r recordFlags)).assetCandidates =
        r.assetCandidates.map emittedCandidate := List.map_map
    rw [List.map_cons, List.exists_mem_cons_iff, List.exists_mem_cons_iff, ih, hready,
      hcandidates, List.mem_map]

/-- After any sequence of rounds in one directory, the package that a round emits holds the
pixels decoded in that round exactly when the directory and the manifest of the round cannot
mislead the emitter about a runtime-ready candidate. -/
theorem repackages_historyFree_iff (hformat : format.Lossless) (rounds : List (Round ε))
    (round : Round ε) (emission : Emission)
    (h : (repackage parseInt format (repackages parseInt format files rounds) round).2 =
      some emission) :
    HistoryFree parseInt round emission ↔
      ∀ record ∈ round.records, record.runtimeReady.truthy = true →
        ∀ candidate ∈ record.assetCandidates,
          Current parseInt (repackages parseInt format files rounds) round candidate := by
  generalize repackages parseInt format files rounds = before at h ⊢
  obtain ⟨⟨records', hrecords, hemitted⟩, hblobs, hpackage⟩ := repackage_spec hformat h
  obtain ⟨header, recordTable, stored, total, assetTable, _, _, hstored, _⟩ :=
    emit_eq_some hpackage
  obtain ⟨hassets, _, _⟩ := storeAssets_spec parseInt .rgba emission.blobs hstored
  have hpath : ∀ candidate, (emittedCandidate candidate).materializedPath = rgbaPath candidate :=
    fun _ => rfl
  have hpixels : ∀ candidate, round.caches.pixels parseInt (emittedCandidate candidate) =
      round.caches.pixels parseInt candidate := fun _ => rfl
  constructor
  · intro hfree record hrecord hready candidate hcandidate
    obtain ⟨r', hr', hready', hmem⟩ := (exists_readyAsset_iff hrecords _).mpr
      ⟨record, hrecord, hready, candidate, hcandidate, rfl⟩
    rw [← hemitted] at hr'
    obtain ⟨a, ha, rfl, hcandidate'⟩ := exists_assetRecord_iff.mpr ⟨hr', hmem⟩
    rw [← hassets] at ha
    obtain ⟨asset, hasset, rfl⟩ := List.mem_map.mp ha
    obtain ⟨rgba, hrgba, hstores⟩ := hfree stored total hstored asset hasset hready'
    obtain ⟨blob, hblob, hstored'⟩ := Emission.exists_stores hpackage hstored hasset hready'
    obtain rfl := hstores.unique hstored'
    rw [hcandidate', hpath,
      hblobs candidate (List.mem_flatMap.mpr ⟨record, hrecord, hcandidate⟩)] at hblob
    rw [hcandidate', hpixels] at hrgba
    rw [current_iff, hblob, hrgba]
  · intro hcurrent stored' total' hstored' asset hasset hready
    rw [hstored, Option.some.injEq, Prod.mk.injEq] at hstored'
    obtain ⟨rfl, rfl⟩ := hstored'
    have ha : asset.toAssetRecord ∈ assetRecords 0 emission.records :=
      hassets ▸ List.mem_map_of_mem hasset
    obtain ⟨hr', hmem⟩ := exists_assetRecord_iff.mp ⟨_, ha, rfl, rfl⟩
    rw [hemitted] at hr'
    obtain ⟨record, hrecord, hready', candidate, hcandidate, hsame⟩ :=
      (exists_readyAsset_iff hrecords _).mp ⟨_, hr', hready, hmem⟩
    have hnow := hcurrent record hrecord hready' candidate hcandidate
    obtain ⟨blob, hblob, hstores⟩ := Emission.exists_stores hpackage hstored hasset hready
    refine ⟨blob, ?_, hstores⟩
    rw [← hsame, hpath,
      hblobs candidate (List.mem_flatMap.mpr ⟨record, hrecord, hcandidate⟩)] at hblob
    rw [← hsame, hpixels, ← (current_iff _ _ _).mp hnow, hblob]

instance (emission : Emission) (asset : StoredAsset) (blob : Bytes) :
    Decidable (emission.Stores asset blob) := inferInstanceAs (Decidable (_ ∧ _))

instance (files : Files) (round : Round ε) (candidate : AssetCandidate) :
    Decidable (Current parseInt files round candidate) :=
  decidable_of_iff _ (current_iff files round candidate).symm

end Round

def plainFormat : ImageFormat where
  save width height rgba :=
    if rgba.length < width * height * 4 then none else some (rgba.take (width * height * 4).toNat)
  load := some

theorem plainFormat_lossless : plainFormat.Lossless := by
  intro width height rgba png h
  simp only [plainFormat] at h ⊢
  split at h
  · cases h
  · exact h.symm

/-- A round over caches whose only entry decodes to the given pixels. -/
def onePixelRound (rgba : Bytes) : Round Bytes where
  records := [onePixelRecord 2 ['7'] ['0'] true]
  caches :=
    { parse := fun _ => some [rgba]
      checksum64 := fun _ => 0
      formatsize := fun _ => 0
      decode := fun _ entry => some entry }

/-- A second round from the same caches stores their pixels. -/
theorem repackages_historyFree_onePixel :
    ∃ emission, (repackage parseDigits plainFormat
        (repackages parseDigits plainFormat (fun _ => none) [onePixelRound [1, 2, 3, 4]])
          (onePixelRound [1, 2, 3, 4])).2 = some emission ∧
      HistoryFree parseDigits (onePixelRound [1, 2, 3, 4]) emission := by
  have hsome : (repackage parseDigits plainFormat
      (repackages parseDigits plainFormat (fun _ => none) [onePixelRound [1, 2, 3, 4]])
        (onePixelRound [1, 2, 3, 4])).2.isSome = true := by decide +kernel
  obtain ⟨emission, hemission⟩ := Option.isSome_iff_exists.mp hsome
  refine ⟨emission, hemission, ?_⟩
  apply (repackages_historyFree_iff plainFormat_lossless _ _ emission hemission).mpr
  decide +kernel

/-- Once the caches change, the package of the second round holds the pixels of the
first. -/
theorem repackages_not_historyFree :
    ∃ emission, plainFormat.Lossless ∧ (repackage parseDigits plainFormat
        (repackages parseDigits plainFormat (fun _ => none) [onePixelRound [1, 2, 3, 4]])
          (onePixelRound [5, 6, 7, 8])).2 = some emission ∧
      ¬ HistoryFree parseDigits (onePixelRound [5, 6, 7, 8]) emission := by
  have hrun : (repackage parseDigits plainFormat
      (repackages parseDigits plainFormat (fun _ => none) [onePixelRound [1, 2, 3, 4]])
        (onePixelRound [5, 6, 7, 8])).2.any (fun emission =>
      (storeAssets parseDigits .rgba emission.blobs 0 (assetRecords 0 emission.records)).any
        fun stored => stored.1.any fun asset => asset.record.runtimeReady.truthy &&
          (onePixelRound [5, 6, 7, 8]).caches.pixels parseDigits asset.candidate ==
              some [5, 6, 7, 8] &&
            !decide (emission.Stores asset [5, 6, 7, 8])) = true := by decide +kernel
  obtain ⟨emission, hemission, hrun⟩ := (Option.any_eq_true _ _).mp hrun
  refine ⟨emission, plainFormat_lossless, hemission, ?_⟩
  obtain ⟨⟨stored, total⟩, hstored, hrun⟩ := (Option.any_eq_true _ _).mp hrun
  obtain ⟨asset, hasset, hrun⟩ := List.any_eq_true.mp hrun
  simp only [Bool.and_eq_true, beq_iff_eq, Bool.not_eq_true', decide_eq_false_iff_not] at hrun
  intro hfree
  obtain ⟨rgba, hrgba, hstores⟩ := hfree stored total hstored asset hasset hrun.1.1
  rw [hrun.1.2, Option.some.injEq] at hrgba
  subst hrgba
  exact hrun.2 hstores

end ParallelN64.Package
