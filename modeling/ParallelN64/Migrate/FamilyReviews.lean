import ParallelN64.Core.Agreement
import ParallelN64.Migrate.Families

/-!
# Canonical family selection reviews

A review document selects variant groups for families. Each selection becomes a record that also
carries the path of its document and its position there; the records of all documents are put one
after the other under the policy keys of their families, as overrides of the import policy. A
family may not get two different records, in one document or in the policy.
-/

namespace ParallelN64.Migrate

open ParallelN64.Core Phrb

/-- Signed hexadecimal digits, padded with zeros to eight characters. -/
def signedHex8 : Int → Text
  | .ofNat n => hex8 n
  | .negSucc n =>
    let digits := Nat.toDigits 16 (n + 1)
    '-' :: (List.replicate (7 - digits.length) '0' ++ digits)

def makeFamilyPolicyKey (textureCrc formatsize : Int) : Text :=
  "legacy-low32-".toList ++ signedHex8 textureCrc ++ "-fs".toList ++ (toString formatsize).toList

/-- The two parts of a family key around its first `:fs`. -/
def splitFamilyKey : Text → Option (Text × Text)
  | [] => none
  | ':' :: 'f' :: 's' :: rest => some ([], rest)
  | c :: rest => (splitFamilyKey rest).map fun parts => (c :: parts.1, parts.2)

/-- A selection as a document has it; `J` is the type of the values that it only carries. -/
structure RawSelection (J : Type) where
  policyKey : Scalar := .none
  familyKey : Scalar := .none
  low32 : Scalar := .none
  formatsize : Scalar := .none
  selectedVariantGroupId : Scalar := .none
  selectedVariantGroupDims : Scalar := .none
  selectionReason : Scalar := .none
  reviewGroupVariantGroupDims : List J := []
  reviewGroupClusterClass : Option J := none
  reviewGroupActionHint : Option J := none
  deriving DecidableEq, Repr

/-- A parsed review document under its resolved path. A selection that is no object is `none`,
and so are selections that are no list. -/
structure ReviewDocument (J : Type) where
  path : Text
  schemaVersion : Scalar := .int 1
  kind : Scalar := .none
  selections : Option (List (Option (RawSelection J))) := some []
  deriving DecidableEq, Repr

/-- Why a merge ends early. -/
inductive ReviewError where
  | schemaVersion (path : Text)
  | kind (path : Text)
  | selectionsNotList (path : Text)
  | selectionNotObject (path : Text) (index : Nat)
  | invalidFamilyKey (path familyKey : Text)
  | invalidLow32Formatsize (path : Text)
  | missingKey (path : Text)
  | invalidNumber
  | missingGroup (path : Text) (index : Nat) (policyKey : Text)
  | conflictingSelections (path policyKey : Text)
  | conflictingPolicy (policyKey : Text)
  deriving DecidableEq, Repr

def textOrEmpty (v : Scalar) : Text := (v.orElse (.str [])).toText

def orNone (s : Text) : Option Text := if s = [] then none else some s

section Load

-- Conversion of a text to an integer in a base; the results hold for any conversion.
variable (parseInt : Nat → Text → Option Int)

/-- The low half of a checksum in hexadecimal, if it is there. -/
def normalizeLow32 : Scalar → Except ReviewError (Option Text)
  | .none => .ok none
  | .bool b => .ok (some (signedHex8 b.toNat))
  | .int n => .ok (some (signedHex8 n))
  | .str s =>
    if s = [] then .ok none
    else
      match parseInt 16 s with
      | some n => .ok (some (signedHex8 n))
      | none => .error .invalidNumber

/-- The policy key of a selection: it is given, or made from a family key, or from a checksum
with a format and size. -/
def resolveReviewFamilyPolicyKey {J : Type} (selectionEntry : RawSelection J) (path : Text) :
    Except ReviewError Text := do
  let policyKey := textOrEmpty selectionEntry.policyKey
  if policyKey ≠ [] then
    return policyKey
  let familyKey := textOrEmpty selectionEntry.familyKey
  if familyKey ≠ [] then
    match splitFamilyKey familyKey with
    | none => throw (.invalidFamilyKey path familyKey)
    | some (low32Text, formatsizeText) =>
      match parseInt 16 low32Text, parseInt 10 formatsizeText with
      | some low32, some formatsize => return makeFamilyPolicyKey low32 formatsize
      | _, _ => throw (.invalidFamilyKey path familyKey)
  let low32 ← normalizeLow32 parseInt selectionEntry.low32
  match low32, selectionEntry.formatsize with
  | none, _ => throw (.missingKey path)
  | some _, .none => throw (.missingKey path)
  | some low32, formatsize =>
    match parseInt 16 low32, formatsize.toInt parseInt with
    | some low32, some formatsize => return makeFamilyPolicyKey low32 formatsize
    | _, _ => throw (.invalidLow32Formatsize path)

/-- What a review records of a selection; the last two fields say where it comes from. -/
structure ReviewRecord (J : Type) where
  selectedVariantGroupId : Option Text
  selectedVariantGroupDims : Option Text
  selectionReason : Text
  reviewGroupVariantGroupDims : List J
  reviewGroupClusterClass : Option J
  reviewGroupActionHint : Option J
  reviewSourcePath : Text
  reviewSourceIndex : Nat
  deriving DecidableEq, Repr

abbrev ReviewSelection (J : Type) := Text × ReviewRecord J

/-- Check a selection and make its record. -/
def readSelection {J : Type} (path : Text) (index : Nat) :
    Option (RawSelection J) → Except ReviewError (ReviewSelection J)
  | none => .error (.selectionNotObject path index)
  | some raw => do
    let policyKey ← resolveReviewFamilyPolicyKey parseInt raw path
    let selectedVariantGroupId := textOrEmpty raw.selectedVariantGroupId
    let selectedVariantGroupDims := textOrEmpty raw.selectedVariantGroupDims
    if selectedVariantGroupId = [] ∧ selectedVariantGroupDims = [] then
      throw (.missingGroup path index policyKey)
    return (policyKey,
      { selectedVariantGroupId := orNone selectedVariantGroupId
        selectedVariantGroupDims := orNone selectedVariantGroupDims
        selectionReason :=
          (raw.selectionReason.orElse (.str "review-family-selection".toList)).toText
        reviewGroupVariantGroupDims := raw.reviewGroupVariantGroupDims
        reviewGroupClusterClass := raw.reviewGroupClusterClass
        reviewGroupActionHint := raw.reviewGroupActionHint
        reviewSourcePath := path
        reviewSourceIndex := index })

variable {J : Type} [DecidableEq J]

/-- Load the selections of a document from a position on, with the records seen so far. -/
def loadSelections (path : Text) : Nat → Dict Text (ReviewRecord J) →
    List (Option (RawSelection J)) → Except ReviewError (List (ReviewSelection J))
  | _, _, [] => .ok []
  | index, seenPolicyKeys, raw :: rest => do
    let selection ← readSelection parseInt path index raw
    let seenPolicyKeys ←
      putAgreeing Dict.get? Dict.assign (ReviewError.conflictingSelections path)
        seenPolicyKeys selection
    let selections ← loadSelections path (index + 1) seenPolicyKeys rest
    return selection :: selections

/-- Load a review document. -/
def loadCanonicalFamilySelectionReview (doc : ReviewDocument J) :
    Except ReviewError (List (ReviewSelection J)) := do
  match (doc.schemaVersion.orElse (.int 0)).toInt parseInt with
  | none => throw .invalidNumber
  | some schemaVersion =>
    if schemaVersion ≠ 1 then
      throw (.schemaVersion doc.path)
  let kind := (doc.kind.orElse (.str "canonical-family-selection-review".toList)).toText
  if kind ≠ "canonical-family-selection-review".toList then
    throw (.kind doc.path)
  match doc.selections with
  | none => throw (.selectionsNotList doc.path)
  | some rawSelections => loadSelections parseInt doc.path 0 [] rawSelections

/-- The override of a family: the record of a review, or one of another shape, with the group
that it names. -/
inductive FamilyOverride (J : Type) where
  | review (record : ReviewRecord J)
  | other (selectedVariantGroupId selectedVariantGroupDims : Option Text)
  deriving DecidableEq, Repr

/-- What an import policy says of a family: an override unless it is empty, and other values. -/
structure FamilyImportPolicy (J : Type) where
  selectionOverride : Option (FamilyOverride J) := none
  other : Dict Text J := []
  deriving DecidableEq, Repr

structure MergePolicy (J : Type) where
  schemaVersion : Int
  families : Dict Text (FamilyImportPolicy J)
  sourcePath : Option Text
  deriving DecidableEq, Repr

def MergePolicy.family (policy : MergePolicy J) (policyKey : Text) : FamilyImportPolicy J :=
  (policy.families.get? policyKey).getD {}

def MergePolicy.override (policy : MergePolicy J) (policyKey : Text) :
    Option (FamilyOverride J) :=
  (policy.family policyKey).selectionOverride

/-- Set the override of a family; its other values stay. -/
def MergePolicy.setOverride (policy : MergePolicy J) (policyKey : Text)
    (override : FamilyOverride J) : MergePolicy J :=
  { policy with
    families := policy.families.assign policyKey
      { policy.family policyKey with selectionOverride := some override } }

def applySelection (policy : MergePolicy J) (selection : ReviewSelection J) :
    Except ReviewError (MergePolicy J) :=
  putAgreeing MergePolicy.override MergePolicy.setOverride ReviewError.conflictingPolicy policy
    (selection.1, .review selection.2)

structure MergeSummary where
  reviewInputCount : Nat
  reviewSelectionCount : Nat
  reviewFamilyCount : Nat
  deriving DecidableEq, Repr

def mergeSummary (reviewDocs : List (List (ReviewSelection J))) : MergeSummary where
  reviewInputCount := reviewDocs.length
  reviewSelectionCount := reviewDocs.flatten.length
  reviewFamilyCount := (reviewDocs.flatten.map Prod.fst).dedup.length

/-- Merge review documents into an import policy: load them all, then apply their selections. -/
def mergeImportPolicyWithCanonicalFamilySelectionReviews (importPolicy : MergePolicy J)
    (documents : List (ReviewDocument J)) : Except ReviewError (MergePolicy J × MergeSummary) := do
  let reviewDocs ← documents.mapM (loadCanonicalFamilySelectionReview parseInt)
  let effectivePolicy ←
    reviewDocs.foldlM (fun policy selections => selections.foldlM applySelection policy)
      importPolicy
  return (effectivePolicy, mergeSummary reviewDocs)

end Load

end ParallelN64.Migrate
