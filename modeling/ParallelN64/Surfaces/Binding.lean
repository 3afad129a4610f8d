import Mathlib.Data.Char
import Mathlib.Data.Int.Bitwise
import ParallelN64.Core.Dict
import ParallelN64.Phrb.Emit

/-!
# Compiling an ordered surface

A surface is a sequence of slots, some of them resolved to a replacement. Its binding has
candidates under two families of selectors: the upload keys of the resolved slots, and
ordered selectors that number either the resolved slots or, when sequences are unresolved,
these sequences, each of which borrows the replacement of a resolved slot nearby.
-/

namespace ParallelN64.Surfaces

open ParallelN64.Core Phrb

/-- A slot of a surface; without a replacement it is unresolved. -/
structure Slot where
  sequenceIndex : Int
  replacementId : Text
  uploadKey : Text
  addrHex : Text
  deriving DecidableEq, Repr

def Slot.resolved (slot : Slot) : Bool := !slot.replacementId.isEmpty

/-- A surface; of the rows of its unresolved sequences only the index matters here. -/
structure Surface where
  surfaceId : Text
  sampledLow32 : Text
  slots : List Slot
  unresolvedSequences : List Int
  slotCount : Nat
  selectorMode : Text
  shapeHint : Text
  deriving DecidableEq, Repr

/-- The transport data of a replacement. -/
structure TransportData where
  replacementId : Text
  checksum64 : Text
  textureCrc : Text
  paletteCrc : Text
  formatsize : Int
  width : Int
  height : Int
  dataSize : Int
  deriving DecidableEq, Repr

/-- A surface with what the package embeds for it. -/
structure SurfaceEntry where
  surface : Surface
  candidateSnapshots : List TransportData
  selectorMode : Text
  shapeHint : Text
  allowRuntimeSelectorCompile : Bool
  sourceCachePath : Text
  canonicalIdentity : Option CanonicalIdentity
  deriving DecidableEq, Repr

inductive SelectorMode where
  | uploadOnly
  | orderedOnly
  | dual
  deriving DecidableEq, Repr

/-- A candidate of a compiled binding. -/
structure SurfaceCandidate where
  replacementId : Text
  source : TransportData
  legacySourcePath : Text
  selectorChecksum64 : Text
  variantGroupId : Text
  surfaceSequenceIndex : Option Int
  surfaceUploadKey : Option Text
  deriving DecidableEq, Repr

/-- A slot as the binding reports it. -/
structure SurfaceSlot where
  sequenceIndex : Int
  selectorChecksum64 : Text
  uploadKey : Text
  replacementId : Text
  addrHex : Text
  deriving DecidableEq, Repr

structure Binding where
  policyKey : Text
  sampledObjectId : Text
  canonicalIdentity : CanonicalIdentity
  slotCount : Nat
  selectorMode : SelectorMode
  surfaceSlots : List SurfaceSlot
  uploadLow32s : List (Text × Nat)
  uploadPcrcs : List (Text × Nat)
  transportCandidates : List SurfaceCandidate
  deriving DecidableEq, Repr

def orderedSurfaceSelectorTag : Int := 0x5352464300000000

/-- Sixteen hexadecimal digits, padded with zeros behind the sign. -/
def hex16 (n : Int) : Text :=
  let digits := (Nat.toDigits 16 n.natAbs)
  let sign := if n < 0 then ['-'] else []
  sign ++ List.replicate (16 - sign.length - digits.length) '0' ++ digits

def makeOrderedSurfaceSelector (sequenceIndex : Int) : Text :=
  hex16 (Int.lor orderedSurfaceSelectorTag sequenceIndex)

def sortedUnresolved (surface : Surface) : List Int :=
  surface.unresolvedSequences.mergeSort fun a b => decide (a ≤ b)

/-- What an ordered selector is made from: its number, the sequence it stands for, and the
slot that gives the replacement. -/
structure OrderedSource where
  number : Int
  sequenceIndex : Int
  slot : Slot
  deriving DecidableEq, Repr

section Compile

-- Lower-casing of a text; the results hold for any.
variable (lower : Text → Text)

def counts (values : List Text) : List (Text × Nat) :=
  (values.dedup.mergeSort fun a b => decide (a ≤ b)).map fun v => (v, values.count v)

end Compile

end ParallelN64.Surfaces
