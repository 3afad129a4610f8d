import Mathlib.Data.Nat.Bitwise
import Mathlib.Tactic.Common

/-!
# Big-endian bytes of a word

The bytes of a word are counted from its most significant one. A part of a word is replaced by
a part of another in two ways: the other word is shifted up by some bytes and the bytes that
come in below are kept, or it is shifted down and those above are kept.
-/

namespace ParallelN64.Core

variable {m n : Nat}

/-- Byte `k` of a word, the most significant first. -/
def byteAt (w : BitVec m) (k : Nat) : BitVec 8 := w.extractLsb' (m - 8 * (k + 1)) 8

theorem getLsbD_byteAt (w : BitVec m) (k : Nat) {i : Nat} (hi : i < 8) :
    (byteAt w k).getLsbD i = w.getLsbD (m - 8 * (k + 1) + i) := by
  rw [byteAt, BitVec.getLsbD_extractLsb', decide_eq_true hi, Bool.true_and]

/-- Words with the same bytes are equal. -/
theorem eq_of_byteAt {x y : BitVec m} (hm : m = 8 * n)
    (h : ∀ k < n, byteAt x k = byteAt y k) : x = y := by
  apply BitVec.eq_of_getLsbD_eq
  intro j hj
  have hmod : j % 8 < 8 := Nat.mod_lt _ (by decide)
  have hbyte := congrArg (fun b : BitVec 8 => b.getLsbD (j % 8)) (h (n - 1 - j / 8) (by omega))
  simp only [getLsbD_byteAt _ _ hmod] at hbyte
  rwa [show m - 8 * (n - 1 - j / 8 + 1) + j % 8 = j by omega] at hbyte

/-- `BITS_BELOW_MASK`. -/
def bitsBelow (m x : Nat) : BitVec m := 1#m <<< x - 1#m

/-- `BITS_ABOVE_MASK`. -/
def bitsAbove (m x : Nat) : BitVec m := ~~~(bitsBelow m x)

theorem toNat_bitsBelow {x : Nat} (hx : x ≤ m) : (bitsBelow m x).toNat = 2 ^ x - 1 := by
  have hpow : 2 ^ x ≤ 2 ^ m := Nat.pow_le_pow_right (by decide) hx
  have hpos : 0 < 2 ^ x := Nat.two_pow_pos x
  rcases Nat.eq_zero_or_pos m with rfl | hm
  · obtain rfl : x = 0 := by omega
    simp [bitsBelow]
  · have hone : 1 < 2 ^ m := Nat.one_lt_two_pow hm.ne'
    rw [bitsBelow, BitVec.toNat_sub, BitVec.toNat_shiftLeft, BitVec.toNat_ofNat,
      Nat.mod_eq_of_lt hone, Nat.one_shiftLeft]
    rcases hpow.lt_or_eq with hlt | heq
    · rw [Nat.mod_eq_of_lt hlt, show 2 ^ m - 1 + 2 ^ x = 2 ^ x - 1 + 2 ^ m by omega,
        Nat.add_mod_right, Nat.mod_eq_of_lt (by omega)]
    · rw [heq, Nat.mod_self, Nat.add_zero, Nat.mod_eq_of_lt (by omega)]

theorem getLsbD_bitsBelow {x : Nat} (hx : x ≤ m) (i : Nat) :
    (bitsBelow m x).getLsbD i = decide (i < x) := by
  rw [← BitVec.testBit_toNat, toNat_bitsBelow hx, Nat.testBit_two_pow_sub_one]

theorem getLsbD_bitsAbove {x : Nat} (hx : x ≤ m) {i : Nat} (hi : i < m) :
    (bitsAbove m x).getLsbD i = decide (x ≤ i) := by
  rw [bitsAbove, BitVec.getLsbD_not, getLsbD_bitsBelow hx, decide_eq_true hi, Bool.true_and,
    ← decide_not]
  exact decide_eq_decide.mpr Nat.not_lt

/-- A word shifted up by `t` bytes over the low bytes of an old one. -/
def shiftedUp (old word : BitVec m) (t : Nat) : BitVec m :=
  (old &&& bitsBelow m (t * 8)) ||| (word <<< (t * 8))

/-- A word shifted down by `t` bytes under the high bytes of an old one. -/
def shiftedDown (old word : BitVec m) (above t : Nat) : BitVec m :=
  (old &&& bitsAbove m (above * 8)) ||| (word >>> (t * 8))

theorem byteAt_shiftedUp (hm : m = 8 * n) (old word : BitVec m) {t k : Nat} (ht : t ≤ n)
    (hk : k < n) :
    byteAt (shiftedUp old word t) k = if k + t < n then byteAt word (k + t) else byteAt old k := by
  apply BitVec.eq_of_getLsbD_eq
  intro i hi
  have hj : m - 8 * (k + 1) + i < m := by omega
  rw [getLsbD_byteAt _ _ hi, shiftedUp, BitVec.getLsbD_or, BitVec.getLsbD_and,
    getLsbD_bitsBelow (by omega), BitVec.getLsbD_shiftLeft, decide_eq_true hj, Bool.true_and]
  split
  · next hlt =>
    have hge : ¬m - 8 * (k + 1) + i < t * 8 := by omega
    rw [decide_eq_false hge, Bool.and_false, Bool.false_or, Bool.not_false, Bool.true_and,
      getLsbD_byteAt _ _ hi]
    exact congrArg word.getLsbD (by omega)
  · next hge =>
    have hlt : m - 8 * (k + 1) + i < t * 8 := by omega
    rw [decide_eq_true hlt, Bool.and_true, Bool.not_true, Bool.false_and, Bool.or_false,
      getLsbD_byteAt _ _ hi]

theorem byteAt_shiftedDown (hm : m = 8 * n) (old word : BitVec m) {above t k : Nat}
    (ht : above + t = n) (hk : k < n) :
    byteAt (shiftedDown old word above t) k =
      if k < t then byteAt old k else byteAt word (k - t) := by
  apply BitVec.eq_of_getLsbD_eq
  intro i hi
  have hj : m - 8 * (k + 1) + i < m := by omega
  rw [getLsbD_byteAt _ _ hi, shiftedDown, BitVec.getLsbD_or, BitVec.getLsbD_and,
    getLsbD_bitsAbove (by omega) hj, BitVec.getLsbD_ushiftRight]
  split
  · next hlt =>
    have hle : above * 8 ≤ m - 8 * (k + 1) + i := by omega
    rw [decide_eq_true hle, Bool.and_true, BitVec.getLsbD_of_ge word _ (by omega), Bool.or_false,
      getLsbD_byteAt _ _ hi]
  · next hge =>
    have hnle : ¬above * 8 ≤ m - 8 * (k + 1) + i := by omega
    rw [decide_eq_false hnle, Bool.and_false, Bool.false_or, getLsbD_byteAt _ _ hi]
    exact congrArg word.getLsbD (by omega)

section Halves

variable {a b p q : Nat}

theorem byteAt_setWidth (ha : a = 8 * (p + q)) (hb : b = 8 * q) (w : BitVec a) {k : Nat}
    (hk : k < q) : byteAt (w.setWidth b) k = byteAt w (p + k) := by
  apply BitVec.eq_of_getLsbD_eq
  intro i hi
  have hj : b - 8 * (k + 1) + i < b := by omega
  rw [getLsbD_byteAt _ _ hi, getLsbD_byteAt _ _ hi, BitVec.getLsbD_setWidth, decide_eq_true hj,
    Bool.true_and]
  exact congrArg w.getLsbD (by omega)

theorem byteAt_setWidth_ushiftRight (ha : a = 8 * (p + q)) (hb : b = 8 * p) (w : BitVec a)
    {k s : Nat} (hs : s = 8 * q) (hk : k < p) :
    byteAt ((w >>> s).setWidth b) k = byteAt w k := by
  apply BitVec.eq_of_getLsbD_eq
  intro i hi
  have hj : b - 8 * (k + 1) + i < b := by omega
  rw [getLsbD_byteAt _ _ hi, getLsbD_byteAt _ _ hi, BitVec.getLsbD_setWidth, decide_eq_true hj,
    Bool.true_and, BitVec.getLsbD_ushiftRight]
  exact congrArg w.getLsbD (by omega)

theorem byteAt_or_shiftLeft (ha : a = 8 * p) (hb : b = 8 * q) (hm : m = a + b) (x : BitVec a)
    (y : BitVec b) {k : Nat} (hk : k < p + q) :
    byteAt ((x.setWidth m <<< b) ||| y.setWidth m) k =
      if k < p then byteAt x k else byteAt y (k - p) := by
  apply BitVec.eq_of_getLsbD_eq
  intro i hi
  have hj : m - 8 * (k + 1) + i < m := by omega
  rw [getLsbD_byteAt _ _ hi, BitVec.getLsbD_or, BitVec.getLsbD_shiftLeft, BitVec.getLsbD_setWidth,
    BitVec.getLsbD_setWidth, decide_eq_true hj, Bool.true_and, Bool.true_and]
  split
  · next hlt =>
    have hge : ¬m - 8 * (k + 1) + i < b := by omega
    rw [decide_eq_false hge, Bool.not_false, Bool.true_and, BitVec.getLsbD_of_ge y _ (by omega),
      Bool.or_false, decide_eq_true (show m - 8 * (k + 1) + i - b < m by omega), Bool.true_and,
      getLsbD_byteAt _ _ hi]
    exact congrArg x.getLsbD (by omega)
  · next hge =>
    have hlt : m - 8 * (k + 1) + i < b := by omega
    rw [decide_eq_true hlt, Bool.not_true, Bool.false_and, Bool.false_or, getLsbD_byteAt _ _ hi]
    exact congrArg y.getLsbD (by omega)

end Halves

end ParallelN64.Core
