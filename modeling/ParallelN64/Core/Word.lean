import Mathlib.Data.List.Lex
import Mathlib.Data.List.Sort
import Mathlib.Data.Prod.Lex
import Mathlib.Data.UInt
import Mathlib.Logic.Basic

/-!
# Machine words and lexicographic comparison chains

Bytes and 64-bit words are ordered by their values. A comparator that tries its
fields one after the other decides the lexicographic order of the field ranks.
-/

namespace ParallelN64.Core

/-- A string of bytes. -/
abbrev Bytes := List UInt8

instance linearOrderUInt8 : LinearOrder UInt8 where
  le_refl := UInt8.le_refl
  le_trans _ _ _ := UInt8.le_trans
  le_antisymm _ _ := UInt8.le_antisymm
  le_total := UInt8.le_total
  lt_iff_le_not_ge a b := by
    rw [UInt8.le_iff_toNat_le, UInt8.le_iff_toNat_le, UInt8.lt_iff_toNat_lt]
    omega
  toDecidableLE := inferInstance
  toDecidableEq := inferInstance
  toDecidableLT := inferInstance
  min_def := fun _ _ => rfl
  max_def := fun _ _ => rfl

instance linearOrderUInt64 : LinearOrder UInt64 where
  le_refl := UInt64.le_refl
  le_trans _ _ _ := UInt64.le_trans
  le_antisymm _ _ := UInt64.le_antisymm
  le_total := UInt64.le_total
  lt_iff_le_not_ge a b := by
    rw [UInt64.le_iff_toNat_le, UInt64.le_iff_toNat_le, UInt64.lt_iff_toNat_lt]
    omega
  toDecidableLE := inferInstance
  toDecidableEq := inferInstance
  toDecidableLT := inferInstance
  min_def := fun _ _ => rfl
  max_def := fun _ _ => rfl

theorem and_ones_mul_two_pow (x ones shift : Nat) :
    x &&& ((2 ^ ones - 1) * 2 ^ shift) = x / 2 ^ shift % 2 ^ ones * 2 ^ shift := by
  apply Nat.eq_of_testBit_eq
  intro i
  rw [Nat.testBit_and, Nat.testBit_mul_two_pow, Nat.testBit_mul_two_pow,
    Nat.testBit_two_pow_sub_one, Nat.testBit_mod_two_pow, Nat.testBit_div_two_pow]
  by_cases h : shift ≤ i
  · rw [Nat.sub_add_cancel h, Bool.and_comm]
    simp [h]
  · simp [h]

/-- A signed comparison result decides one field of a lexicographic order. -/
structure Compares {ρ : Type} [LT ρ] (cmp : Int) (x y : ρ) : Prop where
  /-- Negative results are exactly the strictly smaller ones. -/
  neg_iff : cmp < 0 ↔ x < y
  /-- Zero results are exactly the equal ones. -/
  zero_iff : cmp = 0 ↔ x = y

theorem Compares.lex_iff {ρ τ : Type} [LT ρ] [LT τ] {cmp : Int} {x y : ρ} {u v : τ} {rest : Bool}
    (h : Compares cmp x y) (hr : rest = true ↔ u < v) :
    (if cmp ≠ 0 then decide (cmp < 0) else rest) = true ↔ toLex (x, u) < toLex (y, v) := by
  rw [Prod.Lex.toLex_lt_toLex, ← h.neg_iff, ← h.zero_iff, ← hr]
  by_cases hz : cmp = 0
  · simp [hz]
  · simp [hz]

theorem pairwise_insertionSort_append {σ : Type} [LinearOrder σ] {l : List σ} {s : σ}
    (hl : l.Pairwise (· < ·)) (hs : s ∉ l) :
    ((l ++ [s]).insertionSort (· ≤ ·)).Pairwise (· < ·) := by
  have hnd : ((l ++ [s]).insertionSort (· ≤ ·)).Nodup := by
    rw [(List.perm_insertionSort _ _).nodup_iff]
    have hln : l.Nodup := hl.imp fun h => ne_of_lt h
    exact hln.append (List.nodup_singleton s) (by simpa using hs)
  exact (List.pairwise_insertionSort (· ≤ ·) _).imp₂ (fun a b hle hne => lt_of_le_of_ne hle hne) hnd

/-! ## Fields of a word

A field of a word is read with a mask. Setting and clearing bits outside of the mask does
not change the field, and setting or clearing the mask itself fills or empties it.
-/

section Fields

variable {n : Nat} {w a m : BitVec n}

theorem or_and_of_disjoint (h : a &&& m = 0#n) : (w ||| a) &&& m = w &&& m := by
  rw [BitVec.and_or_distrib_right, h, BitVec.or_zero]

theorem and_and_of_subset (h : a &&& m = m) : (w &&& a) &&& m = w &&& m := by
  rw [BitVec.and_assoc, h]

theorem or_and_self (w m : BitVec n) : (w ||| m) &&& m = m := by
  ext i hi
  rw [BitVec.getElem_and, BitVec.getElem_or]
  cases m[i] with
  | false => exact Bool.and_false _
  | true => exact (Bool.and_true _).trans (Bool.or_true _)

theorem and_not_and_self (w m : BitVec n) : (w &&& ~~~m) &&& m = 0#n := by
  ext i hi
  rw [BitVec.getElem_and, BitVec.getElem_and, BitVec.getElem_not, Bool.and_assoc,
    Bool.not_and_self, Bool.and_false, BitVec.getElem_zero]

theorem or_and_ne_zero (h : w &&& m ≠ 0#n) (a : BitVec n) : (w ||| a) &&& m ≠ 0#n := by
  intro hzero
  refine h (BitVec.eq_of_getElem_eq fun i hi => ?_)
  have hbit := congrArg (fun v : BitVec n => v[i]) hzero
  simp only [BitVec.getElem_and, BitVec.getElem_or, BitVec.getElem_zero, Bool.and_eq_false_iff,
    Bool.or_eq_false_iff] at hbit ⊢
  rcases hbit with ⟨hw, -⟩ | hm
  · exact Or.inl hw
  · exact Or.inr hm

theorem and_not_of_and_eq_zero (h : w &&& m = 0#n) : w &&& ~~~m = w := by
  ext i hi
  have hbit := congrArg (fun v : BitVec n => v[i]) h
  simp only [BitVec.getElem_and, BitVec.getElem_zero] at hbit
  rw [BitVec.getElem_and, BitVec.getElem_not]
  cases hm : m[i] with
  | false => exact Bool.and_true _
  | true =>
    rw [hm, Bool.and_true] at hbit
    rw [hbit, Bool.false_and]

end Fields

end ParallelN64.Core
