import Mathlib.Tactic.Linarith
import Mathlib.Tactic.Ring

/-!
# Products of two limbs

A product of two numbers of two limbs from four products of limbs. Every sum on the way stays
below the square of the radix, so it fits where a product of two limbs fits. A number of two words
is negated by its words.
-/

namespace ParallelN64.Core

section Limbs

variable {radix a₀ a₁ b₀ b₁ : Nat}

theorem limb_mul_add_lt {a b c d : Nat} (ha : a < radix) (hb : b < radix) (hc : c < radix)
    (hd : d < radix) : a * b + c + d < radix * radix := by
  obtain ⟨r, rfl⟩ : ∃ r, radix = r + 1 := ⟨radix - 1, by omega⟩
  have hprod : a * b ≤ r * r := Nat.mul_le_mul (by omega) (by omega)
  have hsquare : (r + 1) * (r + 1) = r * r + r + r + 1 := by ring
  omega

/-- The product of two numbers of two limbs, limb by limb. -/
theorem limbs_mul (a₀ a₁ b₀ b₁ : Nat) (radix : Nat) :
    (((a₀ * b₀ / radix + a₀ * b₁ + a₁ * b₀ % radix) / radix + (a₁ * b₀ / radix + a₁ * b₁)) *
        radix + (a₀ * b₀ / radix + a₀ * b₁ + a₁ * b₀ % radix) % radix) * radix +
      a₀ * b₀ % radix = (a₁ * radix + a₀) * (b₁ * radix + b₀) := by
  have hlow := Nat.div_add_mod (a₀ * b₀) radix
  have hmixed := Nat.div_add_mod (a₁ * b₀) radix
  have hsum := Nat.div_add_mod (a₀ * b₀ / radix + a₀ * b₁ + a₁ * b₀ % radix) radix
  generalize (a₀ * b₀ / radix + a₀ * b₁ + a₁ * b₀ % radix) / radix = q at *
  generalize (a₀ * b₀ / radix + a₀ * b₁ + a₁ * b₀ % radix) % radix = r at *
  generalize a₀ * b₀ % radix = r₀ at *
  generalize a₁ * b₀ % radix = r₁ at *
  generalize a₀ * b₀ / radix = q₀ at *
  generalize a₁ * b₀ / radix = q₁ at *
  calc ((q + (q₁ + a₁ * b₁)) * radix + r) * radix + r₀
      = (radix * q + r) * radix + (q₁ + a₁ * b₁) * radix * radix + r₀ := by ring
    _ = (q₀ + a₀ * b₁ + r₁) * radix + (q₁ + a₁ * b₁) * radix * radix + r₀ := by rw [hsum]
    _ = (radix * q₀ + r₀) + (radix * q₁ + r₁) * radix + a₀ * b₁ * radix +
          a₁ * b₁ * radix * radix := by ring
    _ = (a₁ * radix + a₀) * (b₁ * radix + b₀) := by rw [hlow, hmixed]; ring

end Limbs

theorem toNat_append {m n : Nat} (hi : BitVec m) (lo : BitVec n) :
    (hi ++ lo).toNat = hi.toNat * 2 ^ n + lo.toNat := by
  rw [BitVec.toNat_append, ← Nat.shiftLeft_add_eq_or_of_lt lo.isLt, Nat.shiftLeft_eq]

theorem neg_append {m n : Nat} (hi : BitVec m) (lo : BitVec n) :
    -(hi ++ lo) =
      (if lo = 0#n then ~~~hi + 1#m else ~~~hi) ++ (if lo = 0#n then lo else ~~~lo + 1#n) := by
  have hhi := hi.isLt
  have hlo := lo.isLt
  apply BitVec.eq_of_toNat_eq
  rw [BitVec.toNat_neg, toNat_append, toNat_append, pow_add]
  by_cases hzero : lo = 0#n
  · rw [if_pos hzero, if_pos hzero, ← BitVec.neg_eq_not_add, BitVec.toNat_neg, hzero,
      BitVec.toNat_ofNat, Nat.zero_mod, Nat.add_zero, Nat.add_zero,
      ← Nat.sub_mul, Nat.mul_mod_mul_right]
  · have hpos : 0 < lo.toNat := by
      rw [Nat.pos_iff_ne_zero]
      exact fun h => hzero (BitVec.eq_of_toNat_eq h)
    have hup : (hi.toNat + 1) * 2 ^ n ≤ 2 ^ m * 2 ^ n := Nat.mul_le_mul_right _ hhi
    have hinv : (2 ^ m - 1 - hi.toNat) * 2 ^ n = 2 ^ m * 2 ^ n - (hi.toNat + 1) * 2 ^ n := by
      rw [← Nat.sub_mul]
      congr 1
      omega
    rw [Nat.add_mul] at hup hinv
    rw [if_neg hzero, if_neg hzero, ← BitVec.neg_eq_not_add, BitVec.toNat_neg, BitVec.toNat_not,
      hinv, Nat.mod_eq_of_lt (by omega : 2 ^ n - lo.toNat < 2 ^ n),
      Nat.mod_eq_of_lt (by omega)]
    omega

end ParallelN64.Core
