import ParallelN64.Migrate.ScaleEquivalent

/-!
# Selector policies

A family gets a selector policy from its tier, its variant groups and, if there is one, a
selection: that of the import policy, or else the scale-equivalent one. An override names a
group by its identifier, by its dimensions, or by both; a name that fits no group is an
error.
-/

namespace ParallelN64.Migrate

open ParallelN64.Core Phrb

/-- How an import policy selects a variant group of a family. -/
structure SelectionOverride where
  selectedVariantGroupId : Option Text
  selectedVariantGroupDims : Option Text
  selectionReason : Option Text
  deriving DecidableEq, Repr

/-- What an import policy says of a family; an empty override is none. -/
structure FamilyPolicy where
  selectionOverride : Option SelectionOverride
  deriving DecidableEq, Repr

abbrev ImportPolicy := FamilyKey → Option FamilyPolicy

/-- Why an import ends early. -/
inductive PolicyError where
  | noActiveVariantGroups (key : FamilyKey)
  | unknownVariantGroup (key : FamilyKey) (id : Text) (candidates : List Text)
  | unknownVariantDims (key : FamilyKey) (dims : Text) (candidates : List Text)
  | conflictingVariantGroup (key : FamilyKey) (id dims : Text)
  | missingSelection (key : FamilyKey)
  deriving DecidableEq, Repr

/-- The selection that an import policy makes. -/
structure FamilyPolicySelection where
  selectionReason : Text
  selectedVariantGroupId : VariantGroupId
  selectedReplacementIds : List ReplacementId
  selectedDims : Nat × Nat
  appliesToFamily : FamilyKey
  deriving DecidableEq, Repr

def VariantGroup.dims (group : VariantGroup) : Text :=
  decimal group.width ++ ['x'] ++ decimal group.height

def groupsBy (text : VariantGroup → Text) (groups : List VariantGroup) :
    Dict Text VariantGroup :=
  groups.foldl (fun found group => found.assign (text group) group) []

/-- The group that an override names by its identifier; no name, or an empty one, names
none. -/
def selectById (key : FamilyKey) (groups : List VariantGroup) (override : SelectionOverride) :
    Except PolicyError (Option VariantGroup) :=
  let byId := groupsBy (·.variantGroupId.text) groups
  match override.selectedVariantGroupId.getD [] with
  | [] => .ok none
  | id =>
    match byId.get? id with
    | none => .error (.unknownVariantGroup key id
        ((byId.map Prod.fst).mergeSort fun a b => decide (a ≤ b)))
    | some group => .ok (some group)

/-- The group that an override names by its dimensions, which must be the one that it names
by its identifier. -/
def selectByDims (key : FamilyKey) (groups : List VariantGroup) (override : SelectionOverride)
    (selected : Option VariantGroup) : Except PolicyError (Option VariantGroup) :=
  let byDims := groupsBy VariantGroup.dims groups
  match override.selectedVariantGroupDims.getD [] with
  | [] => .ok selected
  | dims =>
    match byDims.get? dims with
    | none => .error (.unknownVariantDims key dims
        ((byDims.map Prod.fst).mergeSort fun a b => decide (a ≤ b)))
    | some group =>
      if ∃ other ∈ selected, group.variantGroupId ≠ other.variantGroupId then
        .error (.conflictingVariantGroup key (override.selectedVariantGroupId.getD []) dims)
      else .ok (some group)

def policySelectionReason (override : SelectionOverride) : Text :=
  if override.selectionReason.getD [] = [] then "review-family-selection".toList
  else override.selectionReason.getD []

def resolveFamilyPolicySelectionOverride (key : FamilyKey) (familyPolicy : Option FamilyPolicy)
    (groups : List VariantGroup) : Except PolicyError (Option FamilyPolicySelection) :=
  match familyPolicy.bind (·.selectionOverride) with
  | none => .ok none
  | some override =>
    if groups.isEmpty then .error (.noActiveVariantGroups key)
    else do
      let byId ← selectById key groups override
      let selected ← selectByDims key groups override byId
      match selected with
      | none => .error (.missingSelection key)
      | some group => .ok (some {
          selectionReason := policySelectionReason override
          selectedVariantGroupId := group.variantGroupId
          selectedReplacementIds := group.candidateReplacementIds
          selectedDims := (group.width, group.height)
          appliesToFamily := key })

inductive SelectorStatus where
  | deterministic
  | manualDisambiguationRequired
  deriving DecidableEq, Repr

/-- Why a group is selected, or none is. -/
inductive SelectionReason where
  | missingActivePool
  | legacyFamilyAmbiguous
  | tier (tier : Tier)
  | exactScaleEquivalent
  | policy (reason : Text)
  deriving DecidableEq, Repr

/-- What was observed of a family while the game ran. -/
structure Observation where
  mode : Text
  runtimeWh : Text
  deriving DecidableEq, Repr

/-- What a selector of a family looks at. -/
structure SelectorBasis where
  textureCrc : Nat
  requestedFormatsize : Nat
  observation : Option Observation
  deriving DecidableEq, Repr

structure SelectorPolicy where
  status : SelectorStatus
  selectorBasis : SelectorBasis
  candidateVariantGroupIds : List VariantGroupId
  disambiguationInputs : List Text
  selectedVariantGroupId : Option VariantGroupId
  selectionReason : SelectionReason
  appliedPolicy : Option FamilyPolicy
  deriving DecidableEq, Repr

/-- A selection that a selector policy can follow. -/
structure Selection where
  selectedVariantGroupId : VariantGroupId
  selectionReason : SelectionReason
  deriving DecidableEq, Repr

def FamilyPolicySelection.selection (s : FamilyPolicySelection) : Selection where
  selectedVariantGroupId := s.selectedVariantGroupId
  selectionReason := .policy s.selectionReason

def ScaleSelection.selection {η : Type} (s : ScaleSelection η) : Selection where
  selectedVariantGroupId := s.selectedVariantGroupId
  selectionReason := .exactScaleEquivalent

def disambiguationInputs (observation : Option Observation) : List Text :=
  if observation.isSome then
    ["observed_runtime_pcrc".toList, "usage.mask_crc".toList, "usage.sparse_pcrc".toList,
      "emulated_tmem.entry_pcrc".toList, "emulated_tmem.sparse_pcrc".toList]
  else []

def Tier.IsCompat (tier : Tier) : Prop := tier = .compatUnique ∨ tier = .compatReplDimsUnique

instance (tier : Tier) : Decidable tier.IsCompat :=
  inferInstanceAs (Decidable (_ ∨ _))

def buildSelectorPolicy (key : FamilyKey) (observation : Option Observation)
    (groups : List VariantGroup) (tier : Tier) (selectionOverride : Option Selection) :
    SelectorPolicy :=
  let basis : SelectorBasis := {
    textureCrc := key.textureCrc
    requestedFormatsize := key.formatsize
    observation }
  if tier = .missingActivePool then
    { status := .manualDisambiguationRequired
      selectorBasis := basis
      candidateVariantGroupIds := []
      disambiguationInputs := disambiguationInputs observation
      selectedVariantGroupId := none
      selectionReason := .missingActivePool
      appliedPolicy := none }
  else
    let determined := tier.IsCompat ∨ tier = .exactAuthoritative ∧ groups.length = 1
    let policy : SelectorPolicy := {
      status := if determined then .deterministic else .manualDisambiguationRequired
      selectorBasis := basis
      candidateVariantGroupIds := groups.map (·.variantGroupId)
      disambiguationInputs := disambiguationInputs observation
      selectedVariantGroupId := none
      selectionReason := .legacyFamilyAmbiguous
      appliedPolicy := none }
    match selectionOverride, groups with
    | some selection, _ =>
      { policy with
        status := .deterministic
        selectedVariantGroupId := some selection.selectedVariantGroupId
        selectionReason := selection.selectionReason }
    | none, [group] =>
      if determined then
        { policy with
          selectedVariantGroupId := some group.variantGroupId
          selectionReason := .tier tier }
      else policy
    | none, _ => policy

/-- The replacements of the selected group, or all of them when none is selected. -/
def selectReplacementIdsFromSelectorPolicy (policy : SelectorPolicy)
    (replacementIds : List ReplacementId) (groupEntries : GroupEntries) : List ReplacementId :=
  match policy.selectedVariantGroupId with
  | none => replacementIds
  | some id =>
    let selected := ((groupEntries.get? id).getD []).map makeReplacementId
    if selected.isEmpty then replacementIds else selected

variable {groups : List VariantGroup} {group : VariantGroup} {key : FamilyKey}

theorem mem_of_get?_groupsBy {text : VariantGroup → Text} {name : Text}
    (h : (groupsBy text groups).get? name = some group) : group ∈ groups ∧ text group = name := by
  have hrun : ∀ found : Dict Text VariantGroup,
      (groups.foldl (fun found group => found.assign (text group) group) found).get? name =
        some group → (group ∈ groups ∧ text group = name) ∨ found.get? name = some group := by
    clear h
    induction groups with
    | nil => exact fun found h => .inr h
    | cons first groups ih =>
      intro found h
      rcases ih _ h with ⟨hmem, hname⟩ | hget
      · exact .inl ⟨List.mem_cons_of_mem _ hmem, hname⟩
      · rw [Dict.get?_assign] at hget
        split_ifs at hget with hname
        · cases hget
          exact .inl ⟨List.mem_cons_self, hname.symm⟩
        · exact .inr hget
  rcases hrun [] h with hmem | hget
  · exact hmem
  · cases hget

/-- An override names a group: by identifier, by dimensions or by both. -/
structure SelectionOverride.Names (override : SelectionOverride) (group : VariantGroup) :
    Prop where
  id : override.selectedVariantGroupId.getD [] = [] ∨
    group.variantGroupId.text = override.selectedVariantGroupId.getD []
  dims : override.selectedVariantGroupDims.getD [] = [] ∨
    group.dims = override.selectedVariantGroupDims.getD []
  named : override.selectedVariantGroupId.getD [] ≠ [] ∨
    override.selectedVariantGroupDims.getD [] ≠ []

theorem of_selectById {override : SelectionOverride} {selected : Option VariantGroup}
    (h : selectById key groups override = .ok selected) :
    (override.selectedVariantGroupId.getD [] = [] ∧ selected = none) ∨
      override.selectedVariantGroupId.getD [] ≠ [] ∧ ∃ group ∈ groups, selected = some group ∧
        group.variantGroupId.text = override.selectedVariantGroupId.getD [] := by
  unfold selectById at h
  simp only at h
  split at h
  case h_1 hempty =>
    cases h
    exact .inl ⟨hempty, rfl⟩
  case h_2 hname =>
    split at h
    · cases h
    case h_2 group hget =>
      cases h
      obtain ⟨hmem, htext⟩ := mem_of_get?_groupsBy hget
      exact .inr ⟨hname, group, hmem, rfl, htext⟩

theorem of_selectByDims {override : SelectionOverride} {selected : Option VariantGroup}
    (h : selectByDims key groups override selected = .ok (some group)) :
    (override.selectedVariantGroupDims.getD [] = [] ∧ selected = some group) ∨
      override.selectedVariantGroupDims.getD [] ≠ [] ∧ group ∈ groups ∧
        group.dims = override.selectedVariantGroupDims.getD [] ∧
        ∀ other ∈ selected, group.variantGroupId = other.variantGroupId := by
  unfold selectByDims at h
  simp only at h
  split at h
  case h_1 hempty =>
    cases h
    exact .inl ⟨hempty, rfl⟩
  case h_2 hname =>
    split at h
    · cases h
    case h_2 found hget =>
      split_ifs at h with hother
      cases h
      obtain ⟨hmem, htext⟩ := mem_of_get?_groupsBy hget
      refine .inr ⟨hname, hmem, htext, fun other hmem => ?_⟩
      by_contra hne
      exact hother ⟨other, hmem, hne⟩

/-- The selection that an import policy makes is a group that its override names. -/
theorem selected_of_override {familyPolicy : Option FamilyPolicy}
    {selection : FamilyPolicySelection}
    (h : resolveFamilyPolicySelectionOverride key familyPolicy groups = .ok (some selection)) :
    ∃ group ∈ groups, selection.selectedVariantGroupId = group.variantGroupId ∧
      ∀ override ∈ familyPolicy.bind (·.selectionOverride), override.Names group := by
  unfold resolveFamilyPolicySelectionOverride at h
  cases hoverride : familyPolicy.bind (·.selectionOverride) with
  | none =>
    rw [hoverride] at h
    cases h
  | some override =>
    rw [hoverride] at h
    simp only at h
    split_ifs at h
    cases hid : selectById key groups override with
    | error e =>
      rw [hid] at h
      cases h
    | ok byId =>
      rw [hid] at h
      cases hdims : selectByDims key groups override byId with
      | error e =>
        simp only [bind, Except.bind, hdims] at h
        cases h
      | ok selected =>
        simp only [bind, Except.bind, hdims] at h
        cases selected with
        | none => cases h
        | some group =>
          cases h
          rcases of_selectByDims hdims with ⟨hempty, rfl⟩ | ⟨hname, hmem, htext, hsame⟩
          · rcases of_selectById hid with ⟨-, hnone⟩ | ⟨hname, found, hmem, hfound, htext⟩
            · cases hnone
            · cases hfound
              refine ⟨group, hmem, rfl, fun other hother => ?_⟩
              cases hother
              exact ⟨.inr htext, .inl hempty, .inl hname⟩
          · refine ⟨group, hmem, rfl, fun other hother => ?_⟩
            cases hother
            refine ⟨?_, .inr htext, .inr hname⟩
            rcases of_selectById hid with ⟨hempty, -⟩ | ⟨-, found, -, rfl, hfound⟩
            · exact .inl hempty
            · exact .inr ((congrArg _ (hsame found rfl)).trans hfound)

theorem override_of_resolved {familyPolicy : Option FamilyPolicy}
    {selection : Option FamilyPolicySelection}
    (h : resolveFamilyPolicySelectionOverride key familyPolicy groups = .ok selection) :
    selection.isSome = (familyPolicy.bind (·.selectionOverride)).isSome := by
  unfold resolveFamilyPolicySelectionOverride at h
  cases hoverride : familyPolicy.bind (·.selectionOverride) with
  | none =>
    rw [hoverride] at h
    cases h
    rfl
  | some override =>
    rw [hoverride] at h
    simp only at h
    split_ifs at h
    simp only [bind, Except.bind] at h
    split at h
    · cases h
    · split at h
      · cases h
      · split at h
        · cases h
        · cases h
          rfl

end ParallelN64.Migrate
