import ParallelN64.Migrate.ScaleEquivalent

/-!
# Soundness of the collapse

A decoded image is remembered under the replacement identifier of its entry, so that of the
entries of one identifier only the first of the cache is ever decoded. What the selection
compares are the images of these first entries, whatever families came before.
-/

namespace ParallelN64.Migrate

open ParallelN64.Core Phrb

def firstWithId (entries : List CacheEntry) (id : ReplacementId) : Option CacheEntry :=
  entries.find? fun e => makeReplacementId e == id

theorem groupMembers_eq (entries : List CacheEntry) (key : FamilyKey) (id : VariantGroupId) :
    groupMembers entries key id = entries.filter fun e =>
      e.textureCrc == key.textureCrc &&
        (e.formatsize == if (exactEntries entries key).isEmpty then 0 else key.formatsize) &&
        makeVariantGroupId key.formatsize e == id := by
  unfold groupMembers activeEntries genericEntries
  by_cases hexact : (exactEntries entries key).isEmpty = true
  · rw [if_pos hexact, if_pos hexact, collectFamilyEntries, List.filter_filter,
      List.filter_filter]
    congr 1
    funext e
    cases e.textureCrc == key.textureCrc <;> cases e.formatsize == 0 <;> simp
  · rw [if_neg hexact, if_neg hexact, exactEntries, collectFamilyEntries, List.filter_filter,
      List.filter_filter]
    congr 1
    funext e
    cases e.textureCrc == key.textureCrc <;> cases e.formatsize == key.formatsize <;> simp

variable {entry : CacheEntry}

theorem find?_groupMembers {entries : List CacheEntry} {key : FamilyKey} {id : VariantGroupId}
    (h : entry ∈ groupMembers entries key id) :
    ((groupMembers entries key id).find? fun e =>
        makeReplacementId e == makeReplacementId entry) =
      firstWithId entries (makeReplacementId entry) := by
  rw [groupMembers_eq] at h ⊢
  rw [List.find?_filter, firstWithId]
  congr 1
  funext e
  by_cases hid : makeReplacementId e = makeReplacementId entry
  · have hfields := hid
    simp only [makeReplacementId, ReplacementId.mk.injEq] at hfields
    obtain ⟨htexture, -, hformat, hwidth, hheight⟩ := hfields
    have hgroup : makeVariantGroupId key.formatsize e =
        makeVariantGroupId key.formatsize entry := by
      simp only [makeVariantGroupId, htexture, hwidth, hheight]
    have hentry := (List.mem_filter.mp h).2
    rw [htexture, hformat, hgroup, hid, hentry]
    simp
  · simp [hid]

section Memo

variable {η : Type} [DecidableEq η]
variable (decode : CacheEntry → Option Bytes) (hash : Bytes → η) (entries : List CacheEntry)

def decodeFirst (entry : CacheEntry) : Option Bytes :=
  (firstWithId entries (makeReplacementId entry)).bind decode

def MemoSound (memo : DecodedCache) : Prop :=
  ∀ id rgba, memo id = some rgba → (firstWithId entries id).bind decode = some rgba

variable {decode hash entries}

theorem memoSound_empty : MemoSound decode entries fun _ => none := by
  intro id rgba h
  cases h

variable {memo : DecodedCache} {key : FamilyKey} {id : VariantGroupId}

theorem decodeOnce_eq (hmemo : MemoSound decode entries memo)
    (hfirst : memo (makeReplacementId entry) = none →
      firstWithId entries (makeReplacementId entry) = some entry) :
    (decodeFirst decode entries entry = none ∧ decodeOnce decode memo entry = none) ∨
      ∃ memo' rgba, decodeFirst decode entries entry = some rgba ∧
        decodeOnce decode memo entry = some (memo', rgba) ∧ MemoSound decode entries memo' ∧
        memo' (makeReplacementId entry) = some rgba ∧
        ∀ id, memo id ≠ none → memo' id ≠ none := by
  unfold decodeOnce
  cases hremembered : memo (makeReplacementId entry) with
  | some rgba =>
    have hdecode := hmemo _ _ hremembered
    exact .inr ⟨memo, rgba, hdecode, rfl, hmemo, hremembered, fun _ h => h⟩
  | none =>
    have hown : decodeFirst decode entries entry = decode entry := by
      rw [decodeFirst, hfirst hremembered, Option.bind_some]
    rw [hown]
    cases hdecode : decode entry with
    | none => exact .inl ⟨rfl, rfl⟩
    | some rgba =>
      refine .inr ⟨memo.remember (makeReplacementId entry) rgba, rgba, rfl, rfl, ?_, ?_, ?_⟩
      · intro id rgba' h
        unfold DecodedCache.remember at h
        by_cases hid : id = makeReplacementId entry
        · rw [if_pos hid] at h
          cases h
          rw [hid, ← decodeFirst, hown, hdecode]
        · rw [if_neg hid] at h
          exact hmemo _ _ h
      · simp [DecodedCache.remember]
      · intro id h
        unfold DecodedCache.remember
        by_cases hid : id = makeReplacementId entry
        · simp [hid]
        · rw [if_neg hid]
          exact h

theorem first_of_not_remembered {done rest : List CacheEntry}
    (hmembers : groupMembers entries key id = done ++ entry :: rest)
    (hdone : ∀ e ∈ done, memo (makeReplacementId e) ≠ none)
    (hnone : memo (makeReplacementId entry) = none) :
    firstWithId entries (makeReplacementId entry) = some entry := by
  have hmem : entry ∈ groupMembers entries key id := by
    rw [hmembers]
    exact List.mem_append_right _ List.mem_cons_self
  have hearlier : (done.find? fun e => makeReplacementId e == makeReplacementId entry) = none := by
    rw [List.find?_eq_none]
    intro e he hid
    rw [beq_iff_eq] at hid
    apply hdone e he
    rw [hid, hnone]
  rw [← find?_groupMembers hmem, hmembers, List.find?_append, hearlier]
  simp

theorem decodeVariantGroupRepresentative_rest (first : Representative η) (rest : List CacheEntry) :
    ∀ {memo : DecodedCache} {done : List CacheEntry}, MemoSound decode entries memo →
      groupMembers entries key id = done ++ rest →
      (∀ e ∈ done, memo (makeReplacementId e) ≠ none) →
      MemoSound decode entries
          (decodeVariantGroupRepresentative decode hash memo (some first) rest).1 ∧
        ∀ r, (decodeVariantGroupRepresentative decode hash memo (some first) rest).2 = some r ↔
          r = first ∧ ∀ e ∈ rest, ∃ rgba, decodeFirst decode entries e = some rgba ∧
            hash rgba = first.pixelSha256 := by
  induction rest with
  | nil =>
    intro memo done hmemo _ _
    refine ⟨hmemo, ?_⟩
    intro r
    simp [decodeVariantGroupRepresentative, eq_comm]
  | cons entry rest ih =>
    intro memo done hmemo hmembers hdone
    rw [decodeVariantGroupRepresentative]
    rcases decodeOnce_eq hmemo (first_of_not_remembered hmembers hdone) with
      ⟨hdecode, honce⟩ | ⟨memo', rgba, hdecode, honce, hmemo', hremembered, hkept⟩
    · simp [honce, hmemo, hdecode]
    · simp only [honce]
      by_cases hhash : hash rgba = first.pixelSha256
      · rw [if_neg (not_not.mpr hhash)]
        have hmembers' : groupMembers entries key id = (done ++ [entry]) ++ rest := by
          rw [hmembers, List.append_assoc, List.singleton_append]
        have hdone' : ∀ e ∈ done ++ [entry], memo' (makeReplacementId e) ≠ none := by
          intro e he
          rcases List.mem_append.mp he with he | he
          · exact hkept _ (hdone e he)
          · rw [List.mem_singleton.mp he, hremembered]
            simp
        obtain ⟨hsound, hresult⟩ := ih hmemo' hmembers' hdone'
        refine ⟨hsound, ?_⟩
        intro r
        rw [hresult, List.forall_mem_cons]
        simp [hdecode, hhash]
      · rw [if_pos hhash]
        refine ⟨hmemo', ?_⟩
        intro r
        simp [hdecode, hhash]

theorem decodeVariantGroupRepresentative_group (hmemo : MemoSound decode entries memo) :
    MemoSound decode entries (decodeVariantGroupRepresentative decode hash memo none
        (groupMembers entries key id)).1 ∧
      ∀ r, (decodeVariantGroupRepresentative decode hash memo none
          (groupMembers entries key id)).2 = some r ↔
        ∃ entry rest, groupMembers entries key id = entry :: rest ∧
          decodeFirst decode entries entry = some r.rgba ∧ r.pixelSha256 = hash r.rgba ∧
          r.width = entry.head.width ∧ r.height = entry.head.height ∧
          ∀ e ∈ rest, ∃ rgba, decodeFirst decode entries e = some rgba ∧
            hash rgba = hash r.rgba := by
  cases hmembers : groupMembers entries key id with
  | nil =>
    refine ⟨hmemo, ?_⟩
    intro r
    simp [decodeVariantGroupRepresentative]
  | cons entry rest =>
    rw [decodeVariantGroupRepresentative]
    have hnil : ∀ e ∈ ([] : List CacheEntry), memo (makeReplacementId e) ≠ none := by
      intro e he
      cases he
    rcases decodeOnce_eq hmemo (first_of_not_remembered hmembers hnil) with
      ⟨hdecode, honce⟩ | ⟨memo', rgba, hdecode, honce, hmemo', hremembered, _⟩
    · refine ⟨by simp only [honce, hmemo], ?_⟩
      intro r
      simp only [honce]
      constructor
      · intro h
        cases h
      · rintro ⟨entry', rest', heq, himage, _⟩
        cases heq
        rw [hdecode] at himage
        cases himage
    · simp only [honce]
      have hdone : ∀ e ∈ [entry], memo' (makeReplacementId e) ≠ none := by
        intro e he
        rw [List.mem_singleton.mp he, hremembered]
        simp
      obtain ⟨hsound, hresult⟩ := decodeVariantGroupRepresentative_rest
        { rgba, pixelSha256 := hash rgba, width := entry.head.width
          height := entry.head.height : Representative η } rest hmemo' hmembers hdone
      refine ⟨hsound, ?_⟩
      intro r
      rw [hresult]
      constructor
      · rintro ⟨rfl, hrest⟩
        exact ⟨entry, rest, rfl, hdecode, rfl, rfl, rfl, hrest⟩
      · rintro ⟨entry', rest', heq, himage, hpixels, hwidth, hheight, hrest⟩
        cases heq
        rw [hdecode, Option.some.injEq] at himage
        subst himage
        refine ⟨?_, hrest⟩
        obtain ⟨rgba', pixels, width, height⟩ := r
        simp only at hpixels hwidth hheight
        rw [hpixels, hwidth, hheight]

end Memo

section Selection

variable {η : Type} [DecidableEq η]
variable {decode : CacheEntry → Option Bytes} {hash : Bytes → η} {entries : List CacheEntry}
variable {key : FamilyKey}

/-- Each member of the larger group is, as an image, the replica of each member of the
smaller one. -/
def AllReplicate (image : CacheEntry → Option Bytes) (entries : List CacheEntry)
    (key : FamilyKey) (order : GroupOrder) : Prop :=
  ∀ small ∈ groupMembers entries key order.smaller.variantGroupId,
    ∀ large ∈ groupMembers entries key order.larger.variantGroupId,
      ∃ smallRgba largeRgba, image small = some smallRgba ∧ image large = some largeRgba ∧
        Replicated smallRgba largeRgba order.smaller.width order.smaller.height order.scaleX
          order.scaleY

def HashSeparates (decode : CacheEntry → Option Bytes) (hash : Bytes → η)
    (entries : List CacheEntry) : Prop :=
  ∀ e ∈ entries, ∀ f ∈ entries, ∀ a b, decode e = some a → decode f = some b →
    hash a = hash b → a = b

variable {id : VariantGroupId} {entry : CacheEntry} {memo : DecodedCache} {order : GroupOrder}

theorem dims_of_mem_groupMembers (h : entry ∈ groupMembers entries key id) :
    entry.head.width = id.width ∧ entry.head.height = id.height := by
  have hid := (List.mem_filter.mp h).2
  rw [beq_iff_eq] at hid
  rw [← hid]
  exact ⟨rfl, rfl⟩

theorem getD_variantGroupEntries (id : VariantGroupId) :
    ((variantGroupEntries entries key).get? id).getD [] = groupMembers entries key id := by
  rw [get?_variantGroupEntries]
  by_cases hempty : (groupMembers entries key id).isEmpty = true
  · rw [if_pos hempty, List.isEmpty_iff.mp hempty]
    rfl
  · rw [if_neg hempty]
    rfl

theorem decodeFirst_eq_some {rgba : Bytes} (h : decodeFirst decode entries entry = some rgba) :
    ∃ f ∈ entries, makeReplacementId f = makeReplacementId entry ∧ decode f = some rgba := by
  obtain ⟨f, hfirst, hdecode⟩ := Option.bind_eq_some_iff.mp h
  have hid := List.find?_some hfirst
  rw [beq_iff_eq] at hid
  exact ⟨f, List.mem_of_find?_eq_some hfirst, hid, hdecode⟩

theorem decodeFirst_of_mem (h : entry ∈ groupMembers entries key id) :
    ∃ f ∈ groupMembers entries key id, decodeFirst decode entries entry = decode f := by
  have hsome : ((groupMembers entries key id).find? fun e =>
      makeReplacementId e == makeReplacementId entry).isSome := by
    rw [List.find?_isSome]
    exact ⟨entry, h, beq_self_eq_true _⟩
  obtain ⟨f, hfind⟩ := Option.isSome_iff_exists.mp hsome
  refine ⟨f, List.mem_of_find?_eq_some hfind, ?_⟩
  rw [decodeFirst, ← find?_groupMembers h, hfind, Option.bind_some]

theorem exists_representative {rgba : Bytes} (hmemo : MemoSound decode entries memo)
    (hne : groupMembers entries key id ≠ [])
    (h : ∀ e ∈ groupMembers entries key id, decodeFirst decode entries e = some rgba) :
    (decodeVariantGroupRepresentative decode hash memo none (groupMembers entries key id)).2 =
      some { rgba, pixelSha256 := hash rgba, width := id.width, height := id.height } := by
  rw [(decodeVariantGroupRepresentative_group hmemo).2]
  obtain ⟨entry, rest, hmembers⟩ := List.exists_cons_of_ne_nil hne
  have hentry : entry ∈ groupMembers entries key id := by
    rw [hmembers]
    exact List.mem_cons_self
  obtain ⟨hwidth, hheight⟩ := dims_of_mem_groupMembers hentry
  refine ⟨entry, rest, hmembers, h entry hentry, rfl, hwidth.symm, hheight.symm, ?_⟩
  intro e he
  refine ⟨rgba, h e ?_, rfl⟩
  rw [hmembers]
  exact List.mem_cons_of_mem _ he

theorem representative_spec {r : Representative η} (hhash : HashSeparates decode hash entries)
    (hmemo : MemoSound decode entries memo)
    (h : (decodeVariantGroupRepresentative decode hash memo none
      (groupMembers entries key id)).2 = some r) :
    r.width = id.width ∧ r.height = id.height ∧ groupMembers entries key id ≠ [] ∧
      ∀ e ∈ groupMembers entries key id, decodeFirst decode entries e = some r.rgba := by
  rw [(decodeVariantGroupRepresentative_group hmemo).2] at h
  obtain ⟨entry, rest, hmembers, himage, _, hwidth, hheight, hrest⟩ := h
  have hentry : entry ∈ groupMembers entries key id := by
    rw [hmembers]
    exact List.mem_cons_self
  obtain ⟨hentryWidth, hentryHeight⟩ := dims_of_mem_groupMembers hentry
  refine ⟨hwidth.trans hentryWidth, hheight.trans hentryHeight, List.ne_nil_of_mem hentry, ?_⟩
  rw [hmembers, List.forall_mem_cons]
  refine ⟨himage, ?_⟩
  intro e he
  obtain ⟨rgba, hdecode, hsame⟩ := hrest e he
  obtain ⟨f, hf, -, hfDecode⟩ := decodeFirst_eq_some hdecode
  obtain ⟨g, hg, -, hgDecode⟩ := decodeFirst_eq_some himage
  rw [hdecode, hhash f hf g hg _ _ hfDecode hgDecode hsame]

theorem memoSound_buildExactScaleEquivalentSelection (hmemo : MemoSound decode entries memo)
    (groups : List VariantGroup) :
    MemoSound decode entries (buildExactScaleEquivalentSelection decode hash key groups
      (variantGroupEntries entries key) memo).1 := by
  unfold buildExactScaleEquivalentSelection
  cases hresolve : resolveScaleEquivalentGroupOrder groups with
  | none => exact hmemo
  | some order =>
    simp only [getD_variantGroupEntries]
    have hsmaller : MemoSound decode entries (decodeVariantGroupRepresentative decode hash memo
        none (groupMembers entries key order.smaller.variantGroupId)).1 :=
      (decodeVariantGroupRepresentative_group hmemo).1
    cases hfirst : decodeVariantGroupRepresentative decode hash memo none
      (groupMembers entries key order.smaller.variantGroupId) with
    | mk memo' smaller =>
      rw [hfirst] at hsmaller
      cases smaller with
      | none => exact hsmaller
      | some smaller =>
        have hlarger : MemoSound decode entries (decodeVariantGroupRepresentative decode hash
            memo' none (groupMembers entries key order.larger.variantGroupId)).1 :=
          (decodeVariantGroupRepresentative_group hsmaller).1
        cases hsecond : decodeVariantGroupRepresentative decode hash memo' none
          (groupMembers entries key order.larger.variantGroupId) with
        | mk memo'' larger =>
          rw [hsecond] at hlarger
          cases larger with
          | none => simpa only [hsecond] using hlarger
          | some larger =>
            simp only [hsecond]
            split_ifs
            · exact hlarger
            · exact hlarger

def SelectsLarger (order : GroupOrder) (selection : ScaleSelection η) : Prop :=
  selection.selectedVariantGroupId = order.larger.variantGroupId ∧
    selection.selectedReplacementIds = order.larger.candidateReplacementIds

theorem ScaleOrder.members_ne_nil (horder : ScaleOrder (variantGroupList entries key) order) :
    groupMembers entries key order.smaller.variantGroupId ≠ [] ∧
      groupMembers entries key order.larger.variantGroupId ≠ [] := by
  have hmem : order.smaller ∈ variantGroupList entries key ∧
      order.larger ∈ variantGroupList entries key := by
    rcases horder.groups_eq with h | h
    · simp [h]
    · simp [h]
  exact ⟨(mem_variantGroupList.mp hmem.1).1, (mem_variantGroupList.mp hmem.2).1⟩

theorem AllReplicate.images {image : CacheEntry → Option Bytes}
    (horder : ScaleOrder (variantGroupList entries key) order)
    (h : AllReplicate image entries key order) :
    ∃ smallRgba largeRgba,
      (∀ e ∈ groupMembers entries key order.smaller.variantGroupId, image e = some smallRgba) ∧
      (∀ e ∈ groupMembers entries key order.larger.variantGroupId, image e = some largeRgba) ∧
      Replicated smallRgba largeRgba order.smaller.width order.smaller.height order.scaleX
        order.scaleY := by
  obtain ⟨small, hsmall⟩ := List.exists_mem_of_ne_nil _ horder.members_ne_nil.1
  obtain ⟨large, hlarge⟩ := List.exists_mem_of_ne_nil _ horder.members_ne_nil.2
  obtain ⟨smallRgba, largeRgba, hsmallImage, hlargeImage, hreplicated⟩ :=
    h small hsmall large hlarge
  refine ⟨smallRgba, largeRgba, ?_, ?_, hreplicated⟩
  · intro e he
    obtain ⟨rgba, largeRgba', himage, hlargeImage', hreplicated'⟩ := h e he large hlarge
    rw [hlargeImage, Option.some.injEq] at hlargeImage'
    subst hlargeImage'
    rw [himage, hreplicated'.small_unique horder.scaleX_pos horder.scaleY_pos hreplicated]
  · intro e he
    obtain ⟨smallRgba', rgba, hsmallImage', himage, hreplicated'⟩ := h small hsmall e he
    rw [hsmallImage, Option.some.injEq] at hsmallImage'
    subst hsmallImage'
    rw [himage, hreplicated'.large_unique hreplicated]

theorem allReplicate_of_images {image : CacheEntry → Option Bytes} {smallRgba largeRgba : Bytes}
    (hsmall : ∀ e ∈ groupMembers entries key order.smaller.variantGroupId,
      image e = some smallRgba)
    (hlarge : ∀ e ∈ groupMembers entries key order.larger.variantGroupId,
      image e = some largeRgba)
    (hreplicated : Replicated smallRgba largeRgba order.smaller.width order.smaller.height
      order.scaleX order.scaleY) : AllReplicate image entries key order := by
  intro small hmem large hmem'
  exact ⟨smallRgba, largeRgba, hsmall small hmem, hlarge large hmem', hreplicated⟩

theorem scaleMatch_iff {smallRgba largeRgba : Bytes}
    (horder : ScaleOrder (variantGroupList entries key) order) :
    exactNearestNeighborScaleMatch smallRgba order.smaller.variantGroupId.width
        order.smaller.variantGroupId.height largeRgba order.larger.variantGroupId.width
        order.larger.variantGroupId.height order.scaleX order.scaleY = true ↔
      Replicated smallRgba largeRgba order.smaller.width order.smaller.height order.scaleX
        order.scaleY := by
  rw [← exactNearestNeighborScaleMatch_iff horder.scaleX_pos horder.scaleY_pos,
    ← horder.larger_width, ← horder.larger_height]
  rfl

theorem replicate_of_selection {selection : ScaleSelection η}
    (hhash : HashSeparates decode hash entries) (hmemo : MemoSound decode entries memo)
    (h : (buildExactScaleEquivalentSelection decode hash key (variantGroupList entries key)
      (variantGroupEntries entries key) memo).2 = some selection) :
    ∃ order, ScaleOrder (variantGroupList entries key) order ∧
      SelectsLarger order selection ∧
      AllReplicate (decodeFirst decode entries) entries key order := by
  unfold buildExactScaleEquivalentSelection at h
  cases hresolve : resolveScaleEquivalentGroupOrder (variantGroupList entries key) with
  | none =>
    rw [hresolve] at h
    cases h
  | some order =>
    have horder := resolveScaleEquivalentGroupOrder_eq_some_iff.mp hresolve
    rw [hresolve] at h
    simp only [getD_variantGroupEntries] at h
    have hsound : MemoSound decode entries (decodeVariantGroupRepresentative decode hash memo
        none (groupMembers entries key order.smaller.variantGroupId)).1 :=
      (decodeVariantGroupRepresentative_group hmemo).1
    cases hfirst : decodeVariantGroupRepresentative decode hash memo none
      (groupMembers entries key order.smaller.variantGroupId) with
    | mk memo' smaller =>
      rw [hfirst] at h hsound
      cases smaller with
      | none => cases h
      | some smaller =>
        have hsmaller := representative_spec hhash hmemo (congrArg Prod.snd hfirst)
        cases hsecond : decodeVariantGroupRepresentative decode hash memo' none
          (groupMembers entries key order.larger.variantGroupId) with
        | mk memo'' larger =>
          simp only [hsecond] at h
          cases larger with
          | none => cases h
          | some larger =>
            have hlarger := representative_spec hhash hsound (congrArg Prod.snd hsecond)
            simp only [hsmaller.1, hsmaller.2.1, hlarger.1, hlarger.2.1] at h
            split_ifs at h with hmatch
            rw [scaleMatch_iff horder] at hmatch
            rw [Option.some.injEq] at h
            refine ⟨order, horder, ?_, ?_⟩
            · rw [← h]
              exact ⟨rfl, rfl⟩
            · exact allReplicate_of_images hsmaller.2.2.2 hlarger.2.2.2 hmatch

theorem selection_of_replicate (hmemo : MemoSound decode entries memo)
    (horder : ScaleOrder (variantGroupList entries key) order)
    (h : AllReplicate (decodeFirst decode entries) entries key order) :
    ∃ selection, (buildExactScaleEquivalentSelection decode hash key
        (variantGroupList entries key) (variantGroupEntries entries key) memo).2 =
          some selection ∧ SelectsLarger order selection := by
  obtain ⟨smallRgba, largeRgba, hsmall, hlarge, hreplicated⟩ := h.images horder
  have hsound : MemoSound decode entries (decodeVariantGroupRepresentative decode hash memo
      none (groupMembers entries key order.smaller.variantGroupId)).1 :=
    (decodeVariantGroupRepresentative_group hmemo).1
  have hfirst : (decodeVariantGroupRepresentative decode hash memo none
      (groupMembers entries key order.smaller.variantGroupId)).2 = some _ :=
    exists_representative hmemo horder.members_ne_nil.1 hsmall
  unfold buildExactScaleEquivalentSelection
  rw [resolveScaleEquivalentGroupOrder_eq_some_iff.mpr horder]
  simp only [getD_variantGroupEntries]
  cases hsmaller : decodeVariantGroupRepresentative decode hash memo none
    (groupMembers entries key order.smaller.variantGroupId) with
  | mk memo' smaller =>
    rw [hsmaller] at hfirst hsound
    have hsecond : (decodeVariantGroupRepresentative decode hash memo' none
        (groupMembers entries key order.larger.variantGroupId)).2 = some _ :=
      exists_representative hsound horder.members_ne_nil.2 hlarge
    cases hlarger : decodeVariantGroupRepresentative decode hash memo' none
      (groupMembers entries key order.larger.variantGroupId) with
    | mk memo'' larger =>
      rw [hlarger] at hsecond
      simp only at hfirst hsecond
      subst hfirst hsecond
      simp only [hlarger, if_pos ((scaleMatch_iff horder).mpr hreplicated)]
      exact ⟨_, rfl, rfl, rfl⟩

theorem memoSound_scaleEquivalentSelection (hmemo : MemoSound decode entries memo)
    (key : FamilyKey) :
    MemoSound decode entries (scaleEquivalentSelection decode hash entries key memo).1 := by
  unfold scaleEquivalentSelection
  split_ifs
  · exact memoSound_buildExactScaleEquivalentSelection hmemo _
  · exact hmemo

theorem memoSound_decodedAfter (families : List FamilyKey) :
    MemoSound decode entries (decodedAfter decode hash entries families) := by
  unfold decodedAfter
  have hrun : ∀ memo, MemoSound decode entries memo → MemoSound decode entries
      (families.foldl (fun memo key => (scaleEquivalentSelection decode hash entries key memo).1)
        memo) := by
    induction families with
    | nil => exact fun memo hmemo => hmemo
    | cons key families ih =>
      intro memo hmemo
      exact ih _ (memoSound_scaleEquivalentSelection hmemo key)
  exact hrun _ memoSound_empty

end Selection

section Sound

variable {η : Type} [DecidableEq η]
variable (decode : CacheEntry → Option Bytes) (hash : Bytes → η) (entries : List CacheEntry)

/-- The collapse of a family after some others: a selection is that of the larger of two
groups whose members replicate, and for such groups it is made. -/
def CollapseSound (families : List FamilyKey) (key : FamilyKey) : Prop :=
  let selected := (buildExactScaleEquivalentSelection decode hash key
    (variantGroupList entries key) (variantGroupEntries entries key)
    (decodedAfter decode hash entries families)).2
  (∀ selection, selected = some selection →
    ∃ order, ScaleOrder (variantGroupList entries key) order ∧
      SelectsLarger order selection ∧ AllReplicate decode entries key order) ∧
  ∀ order, ScaleOrder (variantGroupList entries key) order →
    AllReplicate decode entries key order →
      ∃ selection, selected = some selection ∧ SelectsLarger order selection

variable {decode hash entries}

theorem AllReplicate.first {key : FamilyKey} {order : GroupOrder}
    (h : AllReplicate decode entries key order) :
    AllReplicate (decodeFirst decode entries) entries key order := by
  intro small hsmall large hlarge
  obtain ⟨f, hf, hsmallFirst⟩ := decodeFirst_of_mem hsmall
  obtain ⟨g, hg, hlargeFirst⟩ := decodeFirst_of_mem hlarge
  rw [hsmallFirst, hlargeFirst]
  exact h f hf g hg

theorem AllReplicate.decode_eq_first {key : FamilyKey} {order : GroupOrder}
    (horder : ScaleOrder (variantGroupList entries key) order)
    (h : AllReplicate decode entries key order) (hentry : entry ∈ activeEntries entries key) :
    decode entry = decodeFirst decode entries entry := by
  obtain ⟨smallRgba, largeRgba, hsmall, hlarge, _⟩ := h.images horder
  obtain ⟨group, hgroup, hid⟩ := exists_group_of_mem hentry
  have hmem : entry ∈ groupMembers entries key group.variantGroupId := by
    rw [hid]
    simp [groupMembers, hentry]
  obtain ⟨f, hf, hfirst⟩ : ∃ f ∈ groupMembers entries key group.variantGroupId,
      decodeFirst decode entries entry = decode f := decodeFirst_of_mem hmem
  have hcases : group = order.smaller ∨ group = order.larger := by
    rcases horder.groups_eq with hgroups | hgroups
    · rw [hgroups] at hgroup
      simpa using hgroup
    · rw [hgroups] at hgroup
      simpa [or_comm] using hgroup
  rcases hcases with rfl | rfl
  · rw [hfirst, hsmall _ hmem, hsmall _ hf]
  · rw [hfirst, hlarge _ hmem, hlarge _ hf]

/-- The collapse of a family is sound, whatever families came before, exactly when no active
entry hides behind an earlier one with its replacement identifier and other pixels, unless the
first entries alone rule the collapse out. -/
theorem collapseSound_iff (hhash : HashSeparates decode hash entries)
    (families : List FamilyKey) (key : FamilyKey) :
    CollapseSound decode hash entries families key ↔
      ∀ order, ScaleOrder (variantGroupList entries key) order →
        AllReplicate (decodeFirst decode entries) entries key order →
          ∀ entry ∈ activeEntries entries key,
            decode entry = decodeFirst decode entries entry := by
  have hmemo : MemoSound decode entries (decodedAfter decode hash entries families) :=
    memoSound_decodedAfter families
  constructor
  · rintro ⟨hsound, _⟩ order horder hfirst entry hentry
    obtain ⟨selection, hselection, _⟩ : ∃ selection : ScaleSelection η,
        (buildExactScaleEquivalentSelection decode hash key (variantGroupList entries key)
          (variantGroupEntries entries key) (decodedAfter decode hash entries families)).2 =
            some selection ∧ SelectsLarger order selection :=
      selection_of_replicate hmemo horder hfirst
    obtain ⟨order', horder', _, hreplicate⟩ := hsound selection hselection
    exact hreplicate.decode_eq_first horder' hentry
  · intro hcondition
    refine ⟨?_, ?_⟩
    · intro selection hselection
      obtain ⟨order, horder, hselects, hfirst⟩ :=
        replicate_of_selection hhash hmemo hselection
      refine ⟨order, horder, hselects, ?_⟩
      intro small hsmall large hlarge
      have hsame := hcondition order horder hfirst
      rw [hsame small (List.mem_filter.mp hsmall).1, hsame large (List.mem_filter.mp hlarge).1]
      exact hfirst small hsmall large hlarge
    · intro order horder hreplicate
      exact selection_of_replicate hmemo horder hreplicate.first

/-- An entry of one texture with a width and a place for its data. -/
def sampleEntry (width dataOffset : Nat) : CacheEntry where
  checksum64 := 7
  paletteCrc := 0
  textureCrc := 7
  formatsize := 2
  head := { width, height := 1, format := 0, textureFormat := 0, pixelType := 0 }
  isHires := true
  dataSize := 0
  dataOffset
  sourcePath := "sample.hts"
  storage := "hts"
  inlineBlob := false

def paintEntry (entry : CacheEntry) : Option Bytes :=
  some (List.replicate (entry.head.width * entry.head.height * 4) (UInt8.ofNat entry.dataOffset))

def sampleFamily : FamilyKey := { textureCrc := 7, formatsize := 2 }

def plainCache : List CacheEntry := [sampleEntry 1 5, sampleEntry 2 5]

/-- The collapse of the plain cache is sound, also when the family is processed again. -/
theorem plainCache_collapseSound :
    CollapseSound paintEntry id plainCache [sampleFamily] sampleFamily := by
  apply (collapseSound_iff (fun _ _ _ _ _ _ _ _ h => h) [sampleFamily] sampleFamily).mpr
  intro order _ _
  decide +kernel

def hidingCache : List CacheEntry := [sampleEntry 1 5, sampleEntry 2 5, sampleEntry 2 6]

/-- The order of the groups of the hiding cache. -/
def hidingOrder : GroupOrder where
  smaller := variantGroup .exact
    (makeVariantGroupId 2 (sampleEntry 1 5), [sampleEntry 1 5])
  larger := variantGroup .exact
    (makeVariantGroupId 2 (sampleEntry 2 5), [sampleEntry 2 5, sampleEntry 2 6])
  scaleX := 2
  scaleY := 1

theorem hidingOrder_scaleOrder :
    ScaleOrder (variantGroupList hidingCache sampleFamily) hidingOrder := by
  have hlist : variantGroupList hidingCache sampleFamily =
      [hidingOrder.smaller, hidingOrder.larger] := by
    have hentries : variantGroupEntries hidingCache sampleFamily =
        [(makeVariantGroupId 2 (sampleEntry 1 5), [sampleEntry 1 5]),
          (makeVariantGroupId 2 (sampleEntry 2 5), [sampleEntry 2 5, sampleEntry 2 6])] := by
      decide +kernel
    rw [variantGroupList, hentries]
    apply List.mergeSort_of_pairwise
    simp only [List.map_cons, List.map_nil, List.pairwise_cons, List.mem_singleton,
      List.not_mem_nil, false_imp_iff, implies_true, List.Pairwise.nil, and_true, forall_eq,
      variantGroup]
    decide +kernel
  exact {
    groups_eq := .inl hlist
    width_pos := by decide
    height_pos := by decide
    scaleX_pos := by decide
    scaleY_pos := by decide
    larger_width := by decide
    larger_height := by decide
    scaled := by decide }

/-- The other colour is never looked at: the copy is selected although one of its entries is
no copy. -/
theorem hidingCache_not_collapseSound :
    ¬CollapseSound paintEntry id hidingCache [] sampleFamily := by
  intro hsound
  have hreplicate : AllReplicate (decodeFirst paintEntry hidingCache) hidingCache sampleFamily
      hidingOrder := by
    have hsmall : ∀ e ∈ groupMembers hidingCache sampleFamily
        hidingOrder.smaller.variantGroupId,
        decodeFirst paintEntry hidingCache e = some (List.replicate 4 5) := by
      decide +kernel
    have hlarge : ∀ e ∈ groupMembers hidingCache sampleFamily
        hidingOrder.larger.variantGroupId,
        decodeFirst paintEntry hidingCache e = some (List.replicate 8 5) := by
      decide +kernel
    apply allReplicate_of_images hsmall hlarge
    apply (exactNearestNeighborScaleMatch_iff (by decide) (by decide)).mp
    decide +kernel
  have hmemo : MemoSound paintEntry hidingCache (decodedAfter paintEntry id hidingCache []) :=
    memoSound_decodedAfter []
  obtain ⟨selection, hselection, _⟩ : ∃ selection : ScaleSelection Bytes,
      (buildExactScaleEquivalentSelection paintEntry id sampleFamily
        (variantGroupList hidingCache sampleFamily) (variantGroupEntries hidingCache sampleFamily)
        (decodedAfter paintEntry id hidingCache [])).2 = some selection ∧
          SelectsLarger hidingOrder selection :=
    selection_of_replicate hmemo hidingOrder_scaleOrder hreplicate
  obtain ⟨order, horder, _, hall⟩ := hsound.1 selection hselection
  have hhidden := hall.decode_eq_first horder
    (show sampleEntry 2 6 ∈ activeEntries hidingCache sampleFamily by decide +kernel)
  revert hhidden
  decide +kernel

end Sound

end ParallelN64.Migrate
