import Mathlib.Algebra.CharP.Two
import Mathlib.Algebra.Field.ZMod
import Mathlib.Algebra.Polynomial.Div
import Mathlib.Algebra.Polynomial.Monic
import Mathlib.Tactic.LinearCombination

/-!
# Bits as polynomials

A word is a polynomial over the field of two elements, with a power for each of its bits. A
register that is shifted up by one, takes a bit of a message below, and has a tap word added
whenever a one was shifted out holds the remainder of what it has taken by a monic polynomial: the
tap word with the power of the width on top.
-/

namespace ParallelN64.Core

open Polynomial

/-- A bit as a coefficient. -/
def bitCoeff (b : Bool) : ZMod 2 := if b then 1 else 0

@[simp] theorem bitCoeff_false : bitCoeff false = 0 := rfl

@[simp] theorem bitCoeff_true : bitCoeff true = 1 := rfl

theorem bitCoeff_xor (a b : Bool) : bitCoeff (a ^^ b) = bitCoeff a + bitCoeff b := by
  cases a <;> cases b <;> decide

/-- A word as a polynomial: its bit `i` is the coefficient of the power `i`. -/
noncomputable def wordPoly {w : Nat} (x : BitVec w) : (ZMod 2)[X] :=
  ∑ i ∈ Finset.range w, C (bitCoeff (x.getLsbD i)) * X ^ i

section Words

variable {w : Nat}

@[simp] theorem coeff_wordPoly (x : BitVec w) (i : Nat) :
    (wordPoly x).coeff i = bitCoeff (x.getLsbD i) := by
  simp only [wordPoly, finsetSum_coeff, coeff_C_mul, coeff_X_pow, mul_ite, mul_one, mul_zero,
    Finset.sum_ite_eq, Finset.mem_range]
  by_cases h : i < w
  · rw [if_pos h]
  · rw [if_neg h, BitVec.getLsbD_of_ge x i (by omega), bitCoeff_false]

@[simp] theorem wordPoly_zero : wordPoly (0#w) = 0 := by
  ext i
  simp

theorem degree_wordPoly_lt (x : BitVec w) : (wordPoly x).degree < w := by
  rw [degree_lt_iff_coeff_zero]
  intro i hi
  rw [coeff_wordPoly, BitVec.getLsbD_of_ge x i hi, bitCoeff_false]

theorem wordPoly_xor (x y : BitVec w) : wordPoly (x ^^^ y) = wordPoly x + wordPoly y := by
  ext i
  rw [coeff_add, coeff_wordPoly, coeff_wordPoly, coeff_wordPoly, BitVec.getLsbD_xor, bitCoeff_xor]

end Words

theorem modByMonic_mul_add {g : (ZMod 2)[X]} (hg : g.Monic) (p q s : (ZMod 2)[X]) :
    ((p %ₘ g) * q + s) %ₘ g = (p * q + s) %ₘ g := by
  apply modByMonic_eq_of_dvd_sub hg
  refine ⟨-((p /ₘ g) * q), ?_⟩
  linear_combination q * modByMonic_add_div p g

/-- The polynomial of a list of bits, the highest power first. -/
noncomputable def bitsPoly : List Bool → (ZMod 2)[X]
  | [] => 0
  | b :: bits => C (bitCoeff b) * X ^ bits.length + bitsPoly bits

/-- The polynomial of a message of words, the first word highest. -/
noncomputable def messagePoly {w : Nat} (data : Nat → BitVec w) (n : Nat) : (ZMod 2)[X] :=
  ∑ i ∈ Finset.range n, wordPoly (data i) * X ^ (w * (n - 1 - i))

section Messages

variable {w : Nat} (data : Nat → BitVec w)

@[simp] theorem messagePoly_zero : messagePoly data 0 = 0 := rfl

theorem messagePoly_succ (n : Nat) :
    messagePoly data (n + 1) = messagePoly data n * X ^ w + wordPoly (data n) := by
  rw [messagePoly, messagePoly, Finset.sum_range_succ, Finset.sum_mul]
  refine congrArg₂ (· + ·) ?_ ?_
  · apply Finset.sum_congr rfl
    intro i hi
    have hlt : i < n := Finset.mem_range.mp hi
    have hup : n + 1 - 1 - i = (n - 1 - i) + 1 := by omega
    rw [hup, Nat.mul_succ, pow_add, mul_assoc]
  · simp

end Messages

section Registers

variable {w : Nat} (tap : BitVec w)

/-- Shift a bit in; the tap is added when one falls out. -/
def crcStep (r : BitVec w) (b : Bool) : BitVec w :=
  r.shiftConcat b ^^^ (if r.msb then tap else 0#w)

/-- The divisor: the tap below its leading power. -/
noncomputable def tapPoly : (ZMod 2)[X] := X ^ w + wordPoly tap

theorem tapPoly_monic : (tapPoly tap).Monic := monic_X_pow_add (degree_wordPoly_lt tap)

theorem degree_tapPoly : (tapPoly tap).degree = w := by
  rw [tapPoly, degree_add_eq_left_of_degree_lt, degree_X_pow]
  rw [degree_X_pow]
  exact degree_wordPoly_lt tap

theorem wordPoly_modByMonic (r : BitVec w) : wordPoly r %ₘ tapPoly tap = wordPoly r := by
  rw [modByMonic_eq_self_iff (tapPoly_monic tap), degree_tapPoly]
  exact degree_wordPoly_lt r

theorem wordPoly_shiftConcat (hw : 0 < w) (r : BitVec w) (b : Bool) :
    wordPoly (r.shiftConcat b) + C (bitCoeff r.msb) * X ^ w =
      wordPoly r * X + C (bitCoeff b) := by
  ext i
  rw [coeff_add, coeff_wordPoly, coeff_C_mul, coeff_X_pow, coeff_add, BitVec.getLsbD_shiftConcat]
  cases i with
  | zero => simp [hw, hw.ne]
  | succ i =>
    rw [coeff_mul_X, coeff_wordPoly, coeff_C_succ, add_zero]
    rcases Nat.lt_trichotomy (i + 1) w with hlt | heq | hgt
    · simp [hlt, hlt.ne]
    · subst heq
      simp [BitVec.msb_eq_getLsbD_last]
    · have hbeyond : r.getLsbD i = false := BitVec.getLsbD_of_ge r i (by omega)
      simp [hbeyond, hgt.ne', Nat.not_lt_of_gt hgt]

/-- A step multiplies by the variable, adds the bit and reduces. -/
theorem wordPoly_crcStep (hw : 0 < w) (r : BitVec w) (b : Bool) :
    wordPoly (crcStep tap r b) =
      (wordPoly r * X + C (bitCoeff b)) %ₘ tapPoly tap := by
  have htap : wordPoly (if r.msb then tap else 0#w) = C (bitCoeff r.msb) * wordPoly tap := by
    cases r.msb <;> simp
  have hturn : wordPoly (crcStep tap r b) + tapPoly tap * C (bitCoeff r.msb) =
      wordPoly r * X + C (bitCoeff b) := by
    rw [crcStep, wordPoly_xor, htap, tapPoly, ← wordPoly_shiftConcat hw]
    have htwice : C (bitCoeff r.msb) * wordPoly tap + C (bitCoeff r.msb) * wordPoly tap = 0 :=
      CharTwo.add_self_eq_zero _
    linear_combination htwice
  refine ((div_modByMonic_unique (C (bitCoeff r.msb)) _ (tapPoly_monic tap) ⟨hturn, ?_⟩).2).symm
  rw [degree_tapPoly]
  exact degree_wordPoly_lt _

/-- The register holds the remainder of what has been shifted in. -/
theorem wordPoly_foldl_crcStep (hw : 0 < w) (bits : List Bool) (r : BitVec w) :
    wordPoly (bits.foldl (crcStep tap) r) =
      (wordPoly r * X ^ bits.length + bitsPoly bits) %ₘ tapPoly tap := by
  induction bits generalizing r with
  | nil => simp [bitsPoly, wordPoly_modByMonic]
  | cons b bits ih =>
    have hexpand : (wordPoly r * X + C (bitCoeff b)) * X ^ bits.length + bitsPoly bits =
        wordPoly r * X ^ (bits.length + 1) +
          (C (bitCoeff b) * X ^ bits.length + bitsPoly bits) := by ring
    rw [List.foldl_cons, ih, wordPoly_crcStep tap hw, modByMonic_mul_add (tapPoly_monic tap),
      hexpand, bitsPoly, List.length_cons]

end Registers

end ParallelN64.Core
