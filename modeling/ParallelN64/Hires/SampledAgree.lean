import ParallelN64.Hires.Binding

/-!
# The two sampled resolvers

An upload is resolved by its sampled family before its sampled key, a sampled candidate by its
key before its family. With one format size the two orders find the same entry: a family with
a single selector has no other entry that the key could find.
-/

namespace ParallelN64.Hires

open ParallelN64.Core Replacement Phrb

section Query

variable (p : Provider)

def setEnabled (enabled : Bool) : Provider := { p with enabled := enabled }

theorem indexed_setEnabled {p : Provider} (h : p.Indexed) (enabled : Bool) :
    (setEnabled p enabled).Indexed :=
  ⟨h.native, h.compat, h.low32, h.sampled, h.duplicate, h.family, h.ordered⟩

def OfQuery (query : SampledFamilyLookupKey) (e : Entry) : Prop :=
  e.hasNativeSampledIdentity = true ∧
    { e.makeSampledFamilyLookupKey with formatsize := query.formatsize } = query

instance (query : SampledFamilyLookupKey) (e : Entry) : Decidable (OfQuery query e) :=
  inferInstanceAs (Decidable (_ ∧ _))

def OneFormatsize (query : SampledFamilyLookupKey) : Prop :=
  (∀ e ∈ p.entries, OfQuery query e → e.formatsize = query.formatsize) ∨
    ∀ e ∈ p.entries, OfQuery query e → e.formatsize = 0

instance (query : SampledFamilyLookupKey) : Decidable (OneFormatsize p query) :=
  inferInstanceAs (Decidable (_ ∨ _))

end Query

section Lookups

variable {p : Provider} {query : SampledFamilyLookupKey}

theorem ofQuery_of_findMatching (h : p.Indexed) {formatsize : UInt16} {selector : UInt64}
    {e : Entry} (hfind : p.findMatching query formatsize selector = some e) :
    ∃ i ∈ positions Entry.sampledFamilyKey p.entries { query with formatsize },
      p.entryAt i = e ∧ e.selectorChecksum64 = selector := by
  obtain ⟨i, hi, hentry⟩ := Option.map_eq_some_iff.mp hfind
  obtain ⟨x, _, hx, hkey⟩ := h.sampled.of_lookup hi
  have hat := Provider.entryAt_of_getElem? hx
  rw [hat] at hentry
  subst hentry
  unfold Entry.sampledKey at hkey
  by_cases hnative : x.hasNativeSampledIdentity = true
  · rw [if_pos hnative, Option.some.injEq] at hkey
    refine ⟨i, mem_positions.mpr ⟨x, hx, ?_⟩, hat, congrArg (·.selectorChecksum64) hkey⟩
    unfold Entry.sampledFamilyKey
    rw [if_pos hnative]
    exact congrArg (fun key => some key.toSampledFamilyLookupKey) hkey
  · rw [if_neg hnative] at hkey
    cases hkey

theorem ofQuery_of_mem_positions {formatsize : UInt16} {i : Nat}
    (hi : i ∈ positions Entry.sampledFamilyKey p.entries { query with formatsize }) :
    ∃ e ∈ p.entries, OfQuery query e ∧ e.formatsize = formatsize := by
  obtain ⟨e, he, hkey⟩ := mem_positions.mp hi
  unfold Entry.sampledFamilyKey at hkey
  by_cases hnative : e.hasNativeSampledIdentity = true
  · rw [if_pos hnative, Option.some.injEq] at hkey
    refine ⟨e, List.mem_of_getElem? he, ⟨hnative, ?_⟩, congrArg (·.formatsize) hkey⟩
    rw [hkey]
  · rw [if_neg hnative] at hkey
    cases hkey

/-- The lookups of a query read one format size only. -/
structure OneClass (p : Provider) (query : SampledFamilyLookupKey) (formatsize : UInt16) : Prop where
  sampled : ∀ selector, p.findSampledEntry query selector =
    ((if selector ≠ 0 then p.findMatching query formatsize selector else none) <|>
      p.findMatching query formatsize 0)
  family : ∀ activeFamily, p.activeSampledFamily query = some activeFamily →
    activeFamily = positions Entry.sampledFamilyKey p.entries { query with formatsize }

theorem oneClass_of_oneFormatsize (h : p.Indexed) (hone : OneFormatsize p query) :
    ∃ formatsize, OneClass p query formatsize := by
  have hnone : ∀ formatsize, (∀ e ∈ p.entries, OfQuery query e → e.formatsize ≠ formatsize) →
      positions Entry.sampledFamilyKey p.entries { query with formatsize } = [] ∧
        ∀ selector, p.findMatching query formatsize selector = none := by
    intro formatsize hother
    have hpositions :
        positions Entry.sampledFamilyKey p.entries { query with formatsize } = [] := by
      rw [List.eq_nil_iff_forall_not_mem]
      intro i hi
      obtain ⟨e, he, hquery, hformat⟩ := ofQuery_of_mem_positions hi
      exact hother e he hquery hformat
    refine ⟨hpositions, ?_⟩
    intro selector
    by_contra hsome
    obtain ⟨e, hfind⟩ := Option.ne_none_iff_exists'.mp hsome
    obtain ⟨i, hi, _⟩ := ofQuery_of_findMatching h hfind
    rw [hpositions] at hi
    cases hi
  by_cases hzero : query.formatsize = 0
  · refine ⟨0, ?_, ?_⟩
    · intro selector
      unfold Provider.findSampledEntry
      rw [hzero]
      simp
    · intro activeFamily hactive
      rcases h.activeSampledFamily_eq hactive with hfamily | hfamily
      · rw [hfamily, ← hzero]
      · exact hfamily
  · rcases hone with hown | hgeneric
    · obtain ⟨hpositions, hfind⟩ := hnone 0 fun e he hquery hformat =>
        hzero ((hown e he hquery).symm.trans hformat)
      refine ⟨query.formatsize, ?_, ?_⟩
      · intro selector
        unfold Provider.findSampledEntry
        simp [hfind]
      · intro activeFamily hactive
        have hgeneric : p.sampledFamilyIndex.lookup { query with formatsize := 0 } = none := by
          rw [h.family.lookup, if_pos hpositions]
        unfold Provider.activeSampledFamily at hactive
        rw [hgeneric, Option.orElse_eq_orElse, Option.orElse_eq_or, Option.or_none] at hactive
        exact h.family.of_lookup hactive
    · obtain ⟨hpositions, hfind⟩ := hnone query.formatsize fun e he hquery hformat =>
        hzero (hformat.symm.trans (hgeneric e he hquery))
      refine ⟨0, ?_, ?_⟩
      · intro selector
        unfold Provider.findSampledEntry
        simp [hfind]
      · intro activeFamily hactive
        have hown : p.sampledFamilyIndex.lookup query = none := by
          rw [h.family.lookup, if_pos hpositions]
        unfold Provider.activeSampledFamily at hactive
        rw [hown, Option.orElse_eq_orElse, Option.orElse_eq_or, Option.none_or] at hactive
        exact h.family.of_lookup hactive

theorem selector_of_singleton {activeFamily : List Nat} {selected : UInt64} {ordered : Bool}
    (hactive : p.activeSampledFamily query = some activeFamily)
    (hsingle : p.singletonSampledFamilySelector query true = some (selected, ordered)) :
    ∀ i ∈ activeFamily, (p.entryAt i).selectorChecksum64 = selected := by
  unfold Provider.singletonSampledFamilySelector at hsingle
  rw [hactive] at hsingle
  dsimp only at hsingle
  intro i hi
  split at hsingle
  next other hfold =>
    have hother : other = selected := by
      split at hsingle
      · cases hsingle
      · exact (Prod.mk.inj (Option.some.inj hsingle)).1
    have hmem : (p.entryAt i).selectorChecksum64 ∈ activeFamily.foldl
        (fun selectors index => pushUnique selectors (p.entryAt index).selectorChecksum64) [] :=
      (mem_foldl_pushUnique _ _ _ _).mpr (.inr ⟨i, hi, rfl⟩)
    rw [hfold, List.mem_singleton] at hmem
    rw [hmem, hother]
  next => cases hsingle

theorem singleton_eq_of_findSampledEntry (h : p.Indexed) (hone : OneFormatsize p query)
    {selector selected : UInt64} {ordered : Bool} {e found : Entry}
    (hkey : p.findSampledEntry query selector = some e)
    (hfamily : p.findSingletonSampledFamilyEntry query true = some (found, selected, ordered)) :
    found = e := by
  obtain ⟨formatsize, hclass⟩ := oneClass_of_oneFormatsize h hone
  unfold Provider.findSingletonSampledFamilyEntry at hfamily
  split at hfamily
  · cases hfamily
  · rename_i selected' ordered' hsingle
    cases hentry : p.findSampledEntry query selected' with
    | none =>
      rw [hentry] at hfamily
      cases hfamily
    | some entry =>
      rw [hentry] at hfamily
      cases hfamily
      -- the entry of the key is a member of the family, so its selector is the single one
      have hmatching : p.findMatching query formatsize selected = some e := by
        have hfound : ∃ candidate, p.findMatching query formatsize candidate = some e := by
          rw [hclass.sampled] at hkey
          split_ifs at hkey
          · rw [Option.orElse_eq_orElse, Option.orElse_eq_or, Option.or_eq_some_iff] at hkey
            rcases hkey with hkey | ⟨_, hkey⟩
            · exact ⟨_, hkey⟩
            · exact ⟨_, hkey⟩
          · exact ⟨_, hkey⟩
        obtain ⟨candidate, hfound⟩ := hfound
        obtain ⟨i, hi, hat, hselector⟩ := ofQuery_of_findMatching h hfound
        obtain ⟨activeFamily, hactive⟩ : ∃ activeFamily,
            p.activeSampledFamily query = some activeFamily := by
          unfold Provider.singletonSampledFamilySelector at hsingle
          cases hactive : p.activeSampledFamily query with
          | none =>
            rw [hactive] at hsingle
            cases hsingle
          | some activeFamily => exact ⟨activeFamily, rfl⟩
        rw [← hclass.family activeFamily hactive] at hi
        have hsame := selector_of_singleton hactive hsingle i hi
        rw [hat, hselector] at hsame
        rw [← hsame]
        exact hfound
      rw [hclass.sampled] at hentry
      by_cases hzero : selected = 0
      · subst hzero
        rw [if_neg (not_not.mpr rfl), hmatching] at hentry
        exact (Option.some.inj hentry).symm
      · rw [if_pos hzero, hmatching] at hentry
        exact (Option.some.inj hentry).symm

theorem findUploadCandidate_of_sampled (h : p.Indexed) (hone : OneFormatsize p query)
    {selector : UInt64} {resolution : ReplacementResolution}
    (hsampled : resolveSampledCandidate p query selector = some resolution) :
    p.enabled = true ∧ ∃ e kind ordered kind' ordered',
      resolution = populateResolutionFromEntry e kind ordered ∧
      findUploadCandidate p query selector = some (e, kind', ordered') := by
  unfold resolveSampledCandidate at hsampled
  unfold findUploadCandidate
  by_cases henabled : p.enabled = true
  · rw [if_neg (by simp [henabled])] at hsampled
    refine ⟨henabled, ?_⟩
    cases hfamily : p.findSingletonSampledFamilyEntry query true with
    | none =>
      rw [hfamily] at hsampled
      cases hkey : p.findSampledEntry query selector with
      | none =>
        rw [hkey] at hsampled
        cases hsampled
      | some entry =>
        rw [hkey] at hsampled
        cases hsampled
        exact ⟨_, _, _, _, _, rfl, rfl⟩
    | some found =>
      obtain ⟨found, selected, singleton⟩ := found
      rw [hfamily] at hsampled
      cases hkey : p.findSampledEntry query selector with
      | none =>
        rw [hkey] at hsampled
        cases hsampled
        exact ⟨_, _, _, _, _, rfl, rfl⟩
      | some entry =>
        rw [hkey] at hsampled
        cases hsampled
        rw [singleton_eq_of_findSampledEntry h hone hkey hfamily]
        exact ⟨_, _, _, _, _, rfl, rfl⟩
  · rw [if_pos (by simp [henabled])] at hsampled
    cases hsampled

end Lookups

/-- With one format size an upload resolves whenever its sampled candidate does, to an entry of
the same checksum, selector, dimensions and identity. -/
theorem resolveUploadCandidate_of_sampled (ops : List Op) (enabled : Bool)
    (query : SampledFamilyLookupKey) (selectorChecksum64 : UInt64)
    (hone : OneFormatsize (setEnabled (Provider.run ops) enabled) query)
    {resolution : ReplacementResolution}
    (hsampled : resolveSampledCandidate (setEnabled (Provider.run ops) enabled) query
      selectorChecksum64 = some resolution) :
    ∃ upload, resolveUploadCandidate (setEnabled (Provider.run ops) enabled) query
        selectorChecksum64 = some upload ∧
      upload.resolvedChecksum64 = resolution.resolvedChecksum64 ∧
      upload.resolvedSelectorChecksum64 = resolution.resolvedSelectorChecksum64 ∧
      upload.replMeta = resolution.replMeta ∧ upload.identity = resolution.identity ∧
      upload.sourceClass = resolution.sourceClass := by
  have hindexed := indexed_setEnabled (Provider.run_indexed ops) enabled
  obtain ⟨henabled, e, kind, ordered, kind', ordered', rfl, hupload⟩ :=
    findUploadCandidate_of_sampled hindexed hone hsampled
  unfold resolveUploadCandidate
  rw [if_neg (by simp [henabled]), hupload]
  exact ⟨_, rfl, rfl, rfl, rfl, rfl, rfl⟩

/-- A family with one entry resolves a query with another selector. -/
theorem resolveUploadCandidate_otherSelector :
    ∃ upload, resolveUploadCandidate (setEnabled (Provider.run [.addEntry
          { selectorChecksum64 := 5, checksum64 := 9, hasNativeSampledIdentity := true }]) true)
        {} 7 = some upload ∧ upload.resolvedChecksum64 = 9 ∧
      upload.resolvedSelectorChecksum64 = 5 := by
  have hsampled : resolveSampledCandidate (setEnabled (Provider.run [.addEntry
      { selectorChecksum64 := 5, checksum64 := 9, hasNativeSampledIdentity := true }]) true)
        {} 7 = some (populateResolutionFromEntry
          { selectorChecksum64 := 5, checksum64 := 9, hasNativeSampledIdentity := true }
          .sampledFamilySingleton false) := by
    decide +kernel
  obtain ⟨upload, hupload, hchecksum, hselector, _⟩ :=
    resolveUploadCandidate_of_sampled _ _ _ _ (by decide) hsampled
  exact ⟨upload, hupload, hchecksum, hselector⟩

end ParallelN64.Hires
