import Mathlib.Data.Finset.Dedup
import ParallelN64.Migrate.FamilyReviews
import ParallelN64.Migrate.Policy

/-!
# Merging reviews by what they select

A review names a variant group for a family, by its identifier, by its dimensions or by both. Two
selections of a family conflict in content only when they name different groups, but a merge
compares whole records, and these say where a selection stands. A document that names a family twice is therefore refused whatever it selects, and so is
a second document that repeats the first.
-/

namespace ParallelN64.Migrate

open ParallelN64.Core Phrb

variable (parseInt : Nat → Text → Option Int) {J : Type}

/-- The selections of a document from a position on, whether or not they conflict. -/
def readSelections (path : Text) : Nat → List (Option (RawSelection J)) →
    Except ReviewError (List (ReviewSelection J))
  | _, [] => .ok []
  | index, raw :: rest => do
    let selection ← readSelection parseInt path index raw
    let selections ← readSelections path (index + 1) rest
    return selection :: selections

/-- A document with the form of a canonical family selection review, all of whose selections are
well formed, together with these. -/
structure Review (J : Type) extends ReviewDocument J where
  raw : List (Option (RawSelection J))
  read : List (ReviewSelection J)
  schemaVersion_eq : (schemaVersion.orElse (.int 0)).toInt parseInt = some 1
  kind_eq : (kind.orElse (.str "canonical-family-selection-review".toList)).toText =
    "canonical-family-selection-review".toList
  selections_eq : selections = some raw
  read_eq : readSelections parseInt path 0 raw = .ok read

variable {parseInt}

variable {path : Text} {index : Nat}

variable {raw : Option (RawSelection J)}

theorem readSelection_place {selection : ReviewSelection J}
    (h : readSelection parseInt path index raw = .ok selection) :
    selection.2.reviewSourceIndex = index := by
  cases raw with
  | none => cases h
  | some raw =>
    obtain ⟨policyKey, -, h⟩ := except_bind_eq_ok_iff.mp h
    simp only at h
    split_ifs at h
    · cases h
    · cases h
      rfl

variable {selections : List (ReviewSelection J)}

theorem readSelections_cons {rest : List (Option (RawSelection J))} :
    readSelections parseInt path index (raw :: rest) = .ok selections ↔
      ∃ first tail, readSelection parseInt path index raw = .ok first ∧
        readSelections parseInt path (index + 1) rest = .ok tail ∧ selections = first :: tail := by
  rw [readSelections, except_bind_eq_ok_iff]
  constructor
  · rintro ⟨first, hfirst, h⟩
    obtain ⟨tail, htail, h⟩ := except_bind_eq_ok_iff.mp h
    cases h
    exact ⟨first, tail, hfirst, htail, rfl⟩
  · rintro ⟨first, tail, hfirst, htail, rfl⟩
    exact ⟨first, hfirst, except_bind_eq_ok_iff.mpr ⟨tail, htail, rfl⟩⟩

theorem readSelections_places {raw : List (Option (RawSelection J))}
    (h : readSelections parseInt path index raw = .ok selections) :
    (selections.map fun s => s.2.reviewSourceIndex) = List.range' index selections.length := by
  induction raw generalizing index selections with
  | nil =>
    cases h
    rfl
  | cons raw rest ih =>
    obtain ⟨first, tail, hfirst, htail, rfl⟩ := readSelections_cons.mp h
    rw [List.map_cons, ih htail, readSelection_place hfirst, List.length_cons, List.range'_succ]

section Load

variable [DecidableEq J]

variable {loaded : List (ReviewSelection J)} {policy : MergePolicy J}
variable {reviews : List (Review parseInt J)}

theorem loadSelections_cons {path : Text} {index : Nat} {seen : Dict Text (ReviewRecord J)}
    {rest : List (Option (RawSelection J))} :
    loadSelections parseInt path index seen (raw :: rest) = .ok loaded ↔
      ∃ first tail, readSelection parseInt path index raw = .ok first ∧
        (∀ v ∈ seen.get? first.1, v = first.2) ∧
        loadSelections parseInt path (index + 1) (seen.assign first.1 first.2) rest = .ok tail ∧
        loaded = first :: tail := by
  rw [loadSelections, except_bind_eq_ok_iff]
  constructor
  · rintro ⟨first, hfirst, hseen⟩
    obtain ⟨seen', hput, hloads⟩ := except_bind_eq_ok_iff.mp hseen
    obtain ⟨hagree, rfl⟩ := putAgreeing_eq_ok_iff.mp hput
    obtain ⟨tail, htail, hpure⟩ := except_bind_eq_ok_iff.mp hloads
    cases hpure
    exact ⟨first, tail, hfirst, hagree, htail, rfl⟩
  · rintro ⟨first, tail, hfirst, hagree, htail, rfl⟩
    refine ⟨first, hfirst, except_bind_eq_ok_iff.mpr ?_⟩
    refine ⟨_, putAgreeing_eq_ok_iff.mpr ⟨hagree, rfl⟩, except_bind_eq_ok_iff.mpr ?_⟩
    exact ⟨tail, htail, rfl⟩

omit [DecidableEq J] in
theorem get?_assign_self (seen : Dict Text (ReviewRecord J)) (key : Text)
    (record : ReviewRecord J) : (seen.assign key record).get? key = some record := by
  rw [Dict.get?_assign, if_pos rfl]

omit [DecidableEq J] in
theorem get?_assign_of_ne (seen : Dict Text (ReviewRecord J)) (key : Text)
    (record : ReviewRecord J) (key' : Text) (hne : key' ≠ key) :
    (seen.assign key record).get? key' = seen.get? key' := by
  rw [Dict.get?_assign, if_neg hne]

theorem loadSelections_ok_iff {path : Text} {index : Nat} {seen : Dict Text (ReviewRecord J)}
    {raw : List (Option (RawSelection J))}
    (h : readSelections parseInt path index raw = .ok selections) :
    loadSelections parseInt path index seen raw = .ok loaded ↔
      loaded = selections ∧ Agreeing Dict.get? seen selections := by
  induction raw generalizing index seen selections loaded with
  | nil =>
    cases h
    rw [loadSelections, Except.ok.injEq]
    constructor
    · rintro rfl
      refine ⟨rfl, ?_, ?_⟩
      · exact fun a ha => absurd ha List.not_mem_nil
      · exact fun a ha => absurd ha List.not_mem_nil
    · exact fun hloaded => hloaded.1.symm
  | cons raw rest ih =>
    obtain ⟨first, tail, hfirst, htail, rfl⟩ := readSelections_cons.mp h
    rw [loadSelections_cons, agreeing_cons_iff get?_assign_self get?_assign_of_ne]
    constructor
    · rintro ⟨first', tail', hfirst', hagree, hload, rfl⟩
      cases hfirst.symm.trans hfirst'
      obtain ⟨rfl, hrest⟩ := (ih htail).mp hload
      exact ⟨rfl, hagree, hrest⟩
    · rintro ⟨rfl, hagree, hrest⟩
      exact ⟨first, tail, hfirst, hagree, (ih htail).mpr ⟨rfl, hrest⟩, rfl⟩

theorem load_ok_iff {review : Review parseInt J} :
    loadCanonicalFamilySelectionReview parseInt review.toReviewDocument = .ok loaded ↔
      loaded = review.read ∧ (review.read.map Prod.fst).Nodup := by
  have hload : loadCanonicalFamilySelectionReview parseInt review.toReviewDocument =
      loadSelections parseInt review.path 0 [] review.raw := by
    unfold loadCanonicalFamilySelectionReview
    rw [review.schemaVersion_eq, review.kind_eq, review.selections_eq]
    rfl
  rw [hload, loadSelections_ok_iff review.read_eq]
  refine and_congr_right fun _ => ?_
  have hplaces := readSelections_places review.read_eq
  constructor
  · intro hagree
    -- Two selections of one family would share a record, and so a place.
    have hnodup : (review.read.map fun s => s.2.reviewSourceIndex).Nodup := by
      rw [hplaces]
      exact List.nodup_range'
    refine (List.nodup_map_iff_inj_on (List.Nodup.of_map _ hnodup)).mpr ?_
    intro a ha b hb hkey
    exact Prod.ext hkey (hagree.among a ha b hb hkey)
  · intro hnodup
    refine ⟨?_, ?_⟩
    · intro a ha b hb hkey
      rw [List.inj_on_of_nodup_map hnodup ha hb hkey]
    · intro a ha v hv
      cases hv

/-- The identifiers of the groups that a selection of a family names. The identifier of a group is
the policy key with its dimensions. -/
def namedGroups (policyKey : Text) (selectedVariantGroupId selectedVariantGroupDims : Option Text) :
    Finset Text :=
  ((selectedVariantGroupId.bind orNone).toList ++
    (selectedVariantGroupDims.bind orNone).toList.map fun dims => policyKey ++ '-' :: dims).toFinset

theorem mem_bind_orNone {name : Option Text} {s : Text} :
    s ∈ (name.bind orNone).toList ↔ name.getD [] = s ∧ s ≠ [] := by
  cases name with
  | none => exact iff_of_false List.not_mem_nil fun h => h.2 h.1.symm
  | some name =>
    by_cases hname : name = []
    · subst hname
      exact iff_of_false List.not_mem_nil fun h => h.2 h.1.symm
    · simp only [Option.bind_some, orNone, if_neg hname, Option.toList_some, List.mem_singleton,
        Option.getD_some]
      constructor
      · rintro rfl
        exact ⟨rfl, hname⟩
      · exact fun h => h.1.symm

theorem text_of_mem {entries : List CacheEntry} {key : FamilyKey} {group : VariantGroup}
    (h : group ∈ variantGroupList entries key) :
    group.variantGroupId.text = key.text ++ '-' :: group.dims := by
  obtain ⟨entry, hentry⟩ := List.exists_mem_of_ne_nil _ (mem_variantGroupList.mp h).1
  rw [groupMembers, List.mem_filter, beq_iff_eq] at hentry
  have hcrc : group.variantGroupId.textureCrc = key.textureCrc :=
    hentry.2 ▸ mem_activeEntries hentry.1
  have hsize : group.variantGroupId.requestedFormatsize = key.formatsize := hentry.2 ▸ rfl
  unfold VariantGroupId.text
  rw [hcrc, hsize, List.append_assoc, List.append_assoc, List.append_assoc,
    ← List.append_assoc (decimal _)]
  rfl

/-- The group that an import selects for an override is the one that the override names. -/
theorem namedGroups_of_resolve {entries : List CacheEntry} {key : FamilyKey}
    {override : SelectionOverride} {selection : FamilyPolicySelection}
    (h : resolveFamilyPolicySelectionOverride key (some ⟨some override⟩)
      (variantGroupList entries key) = .ok (some selection)) :
    namedGroups key.text override.selectedVariantGroupId override.selectedVariantGroupDims =
      {selection.selectedVariantGroupId.text} := by
  obtain ⟨group, hgroup, hid, hnames⟩ := selected_of_override h
  obtain ⟨hnamedId, hnamedDims, hnamed⟩ := hnames override rfl
  have htext := text_of_mem hgroup
  ext name
  simp only [namedGroups, List.mem_toFinset, List.mem_append, List.mem_map, mem_bind_orNone,
    Finset.mem_singleton, hid]
  constructor
  · rintro (⟨hname, hne⟩ | ⟨dims, ⟨hdims, hne⟩, rfl⟩)
    · exact hname.symm.trans (hnamedId.resolve_left (hname ▸ hne)).symm
    · rw [htext, hnamedDims.resolve_left (hdims ▸ hne), hdims]
  · rintro rfl
    rcases hnamed with hne | hne
    · exact .inl ⟨(hnamedId.resolve_left hne).symm, (hnamedId.resolve_left hne).symm ▸ hne⟩
    · refine .inr ⟨_, ⟨rfl, hne⟩, ?_⟩
      rw [htext, hnamedDims.resolve_left hne]

def ReviewRecord.groups (record : ReviewRecord J) (policyKey : Text) : Finset Text :=
  namedGroups policyKey record.selectedVariantGroupId record.selectedVariantGroupDims

def FamilyOverride.groups : FamilyOverride J → Text → Finset Text
  | .review record, policyKey => record.groups policyKey
  | .other selectedVariantGroupId selectedVariantGroupDims, policyKey =>
    namedGroups policyKey selectedVariantGroupId selectedVariantGroupDims

def allSelections (reviews : List (Review parseInt J)) : List (ReviewSelection J) :=
  reviews.flatMap (·.read)

/-- No two selections of a family name different groups, and none differs from the override of
the policy. -/
structure SameGroups (policy : MergePolicy J) (selections : List (ReviewSelection J)) : Prop where
  among : ∀ a ∈ selections, ∀ b ∈ selections, a.1 = b.1 → a.2.groups a.1 = b.2.groups a.1
  override : ∀ a ∈ selections, ∀ v ∈ policy.override a.1, v.groups a.1 = a.2.groups a.1

/-- The policy has the group of each selection for its family, and is the base policy elsewhere. -/
structure Selects (base effective : MergePolicy J) (selections : List (ReviewSelection J)) :
    Prop where
  selected : ∀ a ∈ selections, ∃ v ∈ effective.override a.1, v.groups a.1 = a.2.groups a.1
  other : ∀ key, (effective.family key).other = (base.family key).other
  elsewhere : ∀ key, (∀ a ∈ selections, a.1 ≠ key) →
    effective.families.get? key = base.families.get? key
  schemaVersion : effective.schemaVersion = base.schemaVersion
  sourcePath : effective.sourcePath = base.sourcePath

/-- Reviews merge by content. -/
def MergesByContent (policy : MergePolicy J) (reviews : List (Review parseInt J)) : Prop :=
  ∀ reviews' : List (Review parseInt J), reviews'.Perm reviews →
    ((∃ result, mergeImportPolicyWithCanonicalFamilySelectionReviews parseInt policy
        (reviews'.map (·.toReviewDocument)) = .ok result) ↔
      SameGroups policy (allSelections reviews)) ∧
    ∀ effective summary, mergeImportPolicyWithCanonicalFamilySelectionReviews parseInt policy
        (reviews'.map (·.toReviewDocument)) = .ok (effective, summary) →
      Selects policy effective (allSelections reviews)

/-- No review names a family twice, and the selections of a family in different reviews, and the
override of the policy for it, are one record with one provenance. -/
structure NoRepeats (policy : MergePolicy J) (reviews : List (Review parseInt J)) : Prop where
  within : ∀ review ∈ reviews, (review.read.map Prod.fst).Nodup
  across : ∀ a ∈ allSelections reviews, ∀ b ∈ allSelections reviews, a.1 = b.1 → a.2 = b.2
  override : ∀ a ∈ allSelections reviews, ∀ v ∈ policy.override a.1, v = .review a.2

omit [DecidableEq J] in
theorem override_setOverride_self (policy : MergePolicy J) (key : Text)
    (override : FamilyOverride J) :
    (policy.setOverride key override).override key = some override := by
  unfold MergePolicy.override MergePolicy.family MergePolicy.setOverride
  rw [Dict.get?_assign, if_pos rfl]
  rfl

omit [DecidableEq J] in
theorem override_setOverride_of_ne (policy : MergePolicy J) (key : Text)
    (override : FamilyOverride J) (key' : Text) (hne : key' ≠ key) :
    (policy.setOverride key override).override key' = policy.override key' := by
  unfold MergePolicy.override MergePolicy.family MergePolicy.setOverride
  rw [Dict.get?_assign, if_neg hne]

omit [DecidableEq J] in
theorem family_setOverride_other (policy : MergePolicy J) (key : Text)
    (override : FamilyOverride J) (key' : Text) :
    ((policy.setOverride key override).family key').other = (policy.family key').other := by
  unfold MergePolicy.family MergePolicy.setOverride
  rw [Dict.get?_assign]
  split_ifs with h
  · rw [h]
    rfl
  · rfl

def overrideEntries (selections : List (ReviewSelection J)) : List (Text × FamilyOverride J) :=
  selections.map fun selection => (selection.1, .review selection.2)

theorem foldlM_applySelection (policy : MergePolicy J) (loaded : List (List (ReviewSelection J))) :
    loaded.foldlM (fun policy selections => selections.foldlM applySelection policy) policy =
      (overrideEntries loaded.flatten).foldlM
        (putAgreeing MergePolicy.override MergePolicy.setOverride ReviewError.conflictingPolicy)
        policy := by
  rw [overrideEntries, List.foldlM_map]
  induction loaded generalizing policy with
  | nil => rfl
  | cons selections loaded ih =>
    rw [List.foldlM_cons, List.flatten_cons, List.foldlM_append]
    exact congrArg _ (funext fun policy => ih policy)

theorem merge_ok_iff {effective : MergePolicy J} :
    (∃ summary, mergeImportPolicyWithCanonicalFamilySelectionReviews parseInt policy
        (reviews.map (·.toReviewDocument)) = .ok (effective, summary)) ↔
      (∀ review ∈ reviews, (review.read.map Prod.fst).Nodup) ∧
        (overrideEntries (allSelections reviews)).foldlM
          (putAgreeing MergePolicy.override MergePolicy.setOverride
            ReviewError.conflictingPolicy) policy = .ok effective := by
  have hloaded : ∀ loaded, (reviews.map (·.toReviewDocument)).mapM
      (loadCanonicalFamilySelectionReview parseInt) = .ok loaded ↔
      (∀ review ∈ reviews, (review.read.map Prod.fst).Nodup) ∧ loaded = reviews.map (·.read) := by
    intro loaded
    rw [mapM_eq_ok_iff]
    induction reviews generalizing loaded with
    | nil =>
      cases loaded with
      | nil => exact iff_of_true rfl ⟨fun r hr => absurd hr List.not_mem_nil, rfl⟩
      | cons first loaded => exact iff_of_false (fun h => by cases h) (fun h => by cases h.2)
    | cons review reviews ih =>
      cases loaded with
      | nil => exact iff_of_false (fun h => by cases h) (fun h => by cases h.2)
      | cons first loaded =>
        simp only [List.map_cons, List.cons.injEq, load_ok_iff, List.forall_mem_cons, ih loaded]
        constructor
        · rintro ⟨⟨rfl, hfirst⟩, hrest, rfl⟩
          exact ⟨⟨hfirst, hrest⟩, rfl, rfl⟩
        · rintro ⟨⟨hfirst, hrest⟩, rfl, rfl⟩
          exact ⟨⟨rfl, hfirst⟩, hrest, rfl⟩
  constructor
  · rintro ⟨summary, h⟩
    obtain ⟨loaded, hload, hmerge⟩ := except_bind_eq_ok_iff.mp h
    obtain ⟨hnodup, rfl⟩ := (hloaded loaded).mp hload
    obtain ⟨effective', happly, hpure⟩ := except_bind_eq_ok_iff.mp hmerge
    rw [foldlM_applySelection] at happly
    cases hpure
    exact ⟨hnodup, happly⟩
  · rintro ⟨hnodup, happly⟩
    refine ⟨mergeSummary (reviews.map (·.read)), except_bind_eq_ok_iff.mpr ?_⟩
    refine ⟨_, (hloaded _).mpr ⟨hnodup, rfl⟩, except_bind_eq_ok_iff.mpr ?_⟩
    refine ⟨effective, ?_, rfl⟩
    rw [foldlM_applySelection]
    exact happly

omit [DecidableEq J] in
theorem agreeing_overrideEntries_iff :
    Agreeing MergePolicy.override policy (overrideEntries selections) ↔
      (∀ a ∈ selections, ∀ b ∈ selections, a.1 = b.1 → a.2 = b.2) ∧
        ∀ a ∈ selections, ∀ v ∈ policy.override a.1, v = .review a.2 := by
  constructor
  · intro h
    refine ⟨?_, ?_⟩
    · intro a ha b hb hkey
      have hsame := h.among _ (List.mem_map_of_mem ha) _ (List.mem_map_of_mem hb) hkey
      exact FamilyOverride.review.inj hsame
    · intro a ha v hv
      exact h.state _ (List.mem_map_of_mem ha) v hv
  · rintro ⟨hacross, hoverride⟩
    refine ⟨?_, ?_⟩
    · intro a ha b hb hkey
      obtain ⟨first, hfirst, rfl⟩ := List.mem_map.mp ha
      obtain ⟨second, hsecond, rfl⟩ := List.mem_map.mp hb
      exact congrArg FamilyOverride.review (hacross first hfirst second hsecond hkey)
    · intro a ha v hv
      obtain ⟨first, hfirst, rfl⟩ := List.mem_map.mp ha
      exact hoverride first hfirst v hv

theorem merge_ok_iff_noRepeats :
    (∃ result, mergeImportPolicyWithCanonicalFamilySelectionReviews parseInt policy
        (reviews.map (·.toReviewDocument)) = .ok result) ↔ NoRepeats policy reviews := by
  have hrun : (∃ effective, (overrideEntries (allSelections reviews)).foldlM
      (putAgreeing MergePolicy.override MergePolicy.setOverride ReviewError.conflictingPolicy)
      policy = .ok effective) ↔ _ :=
    (putAgreeing_ok_iff override_setOverride_self override_setOverride_of_ne).trans
      agreeing_overrideEntries_iff
  constructor
  · rintro ⟨⟨effective, summary⟩, h⟩
    obtain ⟨hnodup, happly⟩ := merge_ok_iff.mp ⟨summary, h⟩
    obtain ⟨hacross, hoverride⟩ := hrun.mp ⟨effective, happly⟩
    exact ⟨hnodup, hacross, hoverride⟩
  · rintro ⟨hwithin, hacross, hoverride⟩
    obtain ⟨effective, happly⟩ := hrun.mpr ⟨hacross, hoverride⟩
    obtain ⟨summary, h⟩ := merge_ok_iff.mpr ⟨hwithin, happly⟩
    exact ⟨_, h⟩

theorem merge_selects {effective : MergePolicy J} {summary : MergeSummary}
    (h : mergeImportPolicyWithCanonicalFamilySelectionReviews parseInt policy
      (reviews.map (·.toReviewDocument)) = .ok (effective, summary)) :
    Selects policy effective (allSelections reviews) := by
  obtain ⟨-, happly⟩ := merge_ok_iff.mp ⟨summary, h⟩
  have hget := get_of_putAgreeing override_setOverride_self override_setOverride_of_ne happly
  refine ⟨?_, ?_, ?_, ?_, ?_⟩
  · exact fun a ha => ⟨_, hget _ (List.mem_map_of_mem ha), rfl⟩
  · intro key
    refine view_of_putAgreeing (fun policy => (policy.family key).other) ?_ happly
    exact fun policy a _ => family_setOverride_other policy a.1 a.2 key
  · intro key hkey
    refine view_of_putAgreeing (fun policy => policy.families.get? key) ?_ happly
    intro policy a ha
    obtain ⟨selection, hselection, rfl⟩ := List.mem_map.mp ha
    simp only [MergePolicy.setOverride]
    rw [Dict.get?_assign, if_neg (hkey selection hselection).symm]
  · exact view_of_putAgreeing MergePolicy.schemaVersion (fun _ _ _ => rfl) happly
  · exact view_of_putAgreeing MergePolicy.sourcePath (fun _ _ _ => rfl) happly

omit [DecidableEq J] in
theorem NoRepeats.perm {reviews' : List (Review parseInt J)} (h : NoRepeats policy reviews)
    (hperm : reviews'.Perm reviews) : NoRepeats policy reviews' := by
  have hmem : ∀ a, a ∈ allSelections reviews' → a ∈ allSelections reviews :=
    fun a => (hperm.flatMap_right _).mem_iff.mp
  refine ⟨?_, ?_, ?_⟩
  · exact fun review hreview => h.within review (hperm.mem_iff.mp hreview)
  · exact fun a ha b hb => h.across a (hmem a ha) b (hmem b hb)
  · exact fun a ha => h.override a (hmem a ha)

omit [DecidableEq J] in
theorem NoRepeats.sameGroups (h : NoRepeats policy reviews) :
    SameGroups policy (allSelections reviews) := by
  refine ⟨?_, ?_⟩
  · intro a ha b hb hkey
    rw [h.across a ha b hb hkey]
  · intro a ha v hv
    rw [h.override a ha v hv]
    rfl

/-- Reviews merge by content exactly when some groups differ or nothing repeats. -/
theorem mergesByContent_iff (policy : MergePolicy J) (reviews : List (Review parseInt J)) :
    MergesByContent policy reviews ↔
      ¬ SameGroups policy (allSelections reviews) ∨ NoRepeats policy reviews := by
  constructor
  · intro h
    rw [← imp_iff_not_or]
    intro hsame
    obtain ⟨hok, -⟩ := h reviews (List.Perm.refl _)
    exact merge_ok_iff_noRepeats.mp (hok.mpr hsame)
  · intro h reviews' hperm
    refine ⟨?_, ?_⟩
    · rw [merge_ok_iff_noRepeats]
      constructor
      · exact fun hrepeats => (hrepeats.perm hperm.symm).sameGroups
      · intro hsame
        rcases h with hdiffer | hrepeats
        · exact absurd hsame hdiffer
        · exact hrepeats.perm hperm
    · intro effective summary hmerge
      obtain ⟨hselected, hother, helsewhere, hschema, hsource⟩ := merge_selects hmerge
      have hmem : ∀ a, a ∈ allSelections reviews ↔ a ∈ allSelections reviews' :=
        fun a => (hperm.symm.flatMap_right _).mem_iff
      refine ⟨?_, hother, ?_, hschema, hsource⟩
      · exact fun a ha => hselected a ((hmem a).mp ha)
      · exact fun key hkey => helsewhere key fun a ha => hkey a ((hmem a).mpr ha)

end Load

/-- The record of a selection by dimensions alone, under its policy key. -/
def repeatedSelection (index : Nat) : ReviewSelection Unit :=
  (['f'],
    { selectedVariantGroupId := none
      selectedVariantGroupDims := some ['8', 'x', '8']
      selectionReason := "review-family-selection".toList
      reviewGroupVariantGroupDims := []
      reviewGroupClusterClass := none
      reviewGroupActionHint := none
      reviewSourcePath := ['r']
      reviewSourceIndex := index })

/-- A review that selects one group of a family twice. -/
def repeatedReview : Review (fun _ _ => none) Unit where
  path := ['r']
  selections := some (List.replicate 2 (some
    { policyKey := .str ['f'], selectedVariantGroupDims := .str ['8', 'x', '8'] }))
  raw := List.replicate 2 (some
    { policyKey := .str ['f'], selectedVariantGroupDims := .str ['8', 'x', '8'] })
  read := (List.range 2).map repeatedSelection
  schemaVersion_eq := rfl
  kind_eq := rfl
  selections_eq := rfl
  read_eq := rfl

/-- It does not merge into the empty policy, though its groups agree. -/
theorem repeatedReview_not_mergesByContent :
    ¬ MergesByContent { schemaVersion := 1, families := [], sourcePath := none }
      [repeatedReview] := by
  intro h
  obtain ⟨hok, -⟩ := h [repeatedReview] (List.Perm.refl _)
  have hread : allSelections [repeatedReview] = (List.range 2).map repeatedSelection := rfl
  have hsame : SameGroups { schemaVersion := 1, families := [], sourcePath := none }
      (allSelections [repeatedReview]) := by
    rw [hread]
    refine ⟨?_, ?_⟩
    · intro a ha b hb _
      obtain ⟨i, -, rfl⟩ := List.mem_map.mp ha
      obtain ⟨j, -, rfl⟩ := List.mem_map.mp hb
      rfl
    · intro a _ v hv
      cases hv
  have hrepeats := merge_ok_iff_noRepeats.mp (hok.mpr hsame)
  have hnodup := hrepeats.within repeatedReview List.mem_cons_self
  exact absurd hnodup (by decide)

end ParallelN64.Migrate
