import Mathlib.Tactic.Linarith
import ParallelN64.Rdp.TileLoad

/-!
# Lines of a loaded block

A block has no lines of its own: a word of 64 bits belongs to the line that an increment with
eleven fractional bits has reached. Where the increment is no part of 2048 its error adds up from
line to line; a block is loaded as lines of equally many words where the error stays below one
increment.
-/

namespace ParallelN64.Rdp

/-- Words of a line, at most and at least, and whether lines differ. -/
structure BlockLines where
  maxNum64bppElements : UInt32
  minNum64bppElements : UInt32
  unevenDt : Bool
  deriving DecidableEq

/-- The handling of the increment in `Renderer::load_block`; nothing where all words belong to the
first line. -/
def blockLines (maxTmemIteration dt : UInt32) : Option BlockLines :=
  let maxT := (maxTmemIteration * dt) >>> 11
  if maxT = 0 then none
  else
    let maxNum := (2048 + dt - 1) / dt
    let minNum := 2048 / dt
    let unevenDt := maxNum ≠ minNum
    let overflowAmt := (dt * maxNum - 2048) * maxT
    if unevenDt ∧ overflowAmt < dt then some ⟨maxNum, maxNum, false⟩
    else some ⟨maxNum, minNum, unevenDt⟩

def LoadTileInfo.maxTmemIteration (info : LoadTileInfo) : UInt32 :=
  (((info.shi.toUInt32 - info.slo.toUInt32 + 1) &&& 0xfff) - 1) >>> (4 - info.size.toUInt32)

def LoadTileInfo.blockLines (info : LoadTileInfo) : Option BlockLines :=
  Rdp.blockLines info.maxTmemIteration info.thi.toUInt32

section Lines

variable (dt n x : Nat)

def lineOf : Nat := (x * dt) >>> 11

def wordsPerLine : Nat := (2 ^ 11 + dt - 1) / dt

def lineError : Nat := dt * wordsPerLine dt - 2 ^ 11

def blockWord (stride : Nat) : Nat := lineOf dt x * stride + x

def tileWord (words stride line column : Nat) : Nat := line * (words + stride) + column

end Lines

section Error

variable {dt n x : Nat}

theorem mul_wordsPerLine (hdt : 0 < dt) :
    dt * wordsPerLine dt = 2 ^ 11 + lineError dt ∧ lineError dt < dt := by
  have hdivision := Nat.div_add_mod (2 ^ 11 + dt - 1) dt
  have hrest := Nat.mod_lt (2 ^ 11 + dt - 1) hdt
  unfold lineError wordsPerLine
  generalize dt * ((2 ^ 11 + dt - 1) / dt) = words at hdivision ⊢
  generalize (2 ^ 11 + dt - 1) % dt = rest at hdivision hrest
  omega

theorem wordsPerLine_pos (hdt : 0 < dt) : 0 < wordsPerLine dt :=
  Nat.div_pos (by omega) hdt

theorem lineOf_eq_iff {line : Nat} :
    lineOf dt x = line ↔ 2 ^ 11 * line ≤ x * dt ∧ x * dt < 2 ^ 11 * (line + 1) := by
  rw [lineOf, Nat.shiftRight_eq_div_pow]
  omega

theorem lineOf_mono {y : Nat} (h : x ≤ y) : lineOf dt x ≤ lineOf dt y := by
  rw [lineOf, lineOf, Nat.shiftRight_eq_div_pow, Nat.shiftRight_eq_div_pow]
  exact Nat.div_le_div_right (Nat.mul_le_mul_right dt h)

theorem mul_eq_lines (hdt : 0 < dt) : x * dt =
    2 ^ 11 * (x / wordsPerLine dt) + x / wordsPerLine dt * lineError dt +
      x % wordsPerLine dt * dt := by
  calc x * dt = (wordsPerLine dt * (x / wordsPerLine dt) + x % wordsPerLine dt) * dt := by
        rw [Nat.div_add_mod]
    _ = x / wordsPerLine dt * (dt * wordsPerLine dt) + x % wordsPerLine dt * dt := by ring
    _ = _ := by rw [(mul_wordsPerLine hdt).1]; ring

theorem lineOf_eq_div (hdt : 0 < dt) (herror : lineError dt * lineOf dt n < dt) (hx : x ≤ n) :
    lineOf dt x = x / wordsPerLine dt := by
  have hproduct := mul_eq_lines (x := x) hdt
  obtain ⟨hline, -⟩ := mul_wordsPerLine hdt
  have hcolumn : x % wordsPerLine dt + 1 ≤ wordsPerLine dt := Nat.mod_lt x (wordsPerLine_pos hdt)
  generalize x / wordsPerLine dt = line at hproduct ⊢
  have hlast : (x % wordsPerLine dt + 1) * dt ≤ 2 ^ 11 + lineError dt := by
    rw [← hline, Nat.mul_comm dt]
    exact Nat.mul_le_mul_right dt hcolumn
  rw [Nat.add_mul, Nat.one_mul] at hlast
  rw [lineOf_eq_iff]
  refine ⟨by omega, ?_⟩
  -- A word past the end of its line would show in the last line of the block.
  by_contra hpast
  have hreached : line + 1 ≤ lineOf dt n := by
    refine Nat.le_trans ?_ (lineOf_mono hx)
    rw [lineOf, Nat.shiftRight_eq_div_pow]
    omega
  have hsum : (line + 1) * lineError dt < dt := by
    rw [Nat.mul_comm]
    exact Nat.lt_of_le_of_lt (Nat.mul_le_mul_left _ hreached) herror
  rw [Nat.add_mul, Nat.one_mul] at hsum
  omega

/-- A block whose errors stay below an increment is a tile of lines of equally many words. -/
theorem blockWord_eq_tileWord (dt n stride : Nat) (hdt : 0 < dt)
    (herror : (dt * wordsPerLine dt - 2048) * ((n * dt) >>> 11) < dt) (x : Nat) (hx : x ≤ n) :
    (x * dt) >>> 11 = x / wordsPerLine dt ∧
      blockWord dt x stride =
        tileWord (wordsPerLine dt) stride (x / wordsPerLine dt) (x % wordsPerLine dt) := by
  have hline := lineOf_eq_div hdt herror hx
  refine ⟨hline, ?_⟩
  rw [blockWord, hline, tileWord, Nat.mul_add]
  have hdivision := Nat.div_add_mod' x (wordsPerLine dt)
  omega

/-- Seven words to a line, in a block of two lines. -/
theorem blockWord_three_hundred : blockWord 300 13 2 = tileWord 7 2 1 6 :=
  (blockWord_eq_tileWord 300 13 2 (by decide) (by decide) 13 (le_refl 13)).2

end Error

section Decision

variable {n dt x : UInt32} {lines : BlockLines}

theorem toNat_wordsPerLine (hdt : 0 < dt.toNat) (hlt : dt.toNat < 2 ^ 12) :
    ((2048 + dt - 1) / dt).toNat = wordsPerLine dt.toNat := by
  have hsum : ((2048 : UInt32) + dt).toNat = 2 ^ 11 + dt.toNat := by
    rw [UInt32.toNat_add]
    exact Nat.mod_eq_of_lt (show 2 ^ 11 + dt.toNat < 2 ^ 32 by omega)
  have hone : (1 : UInt32) ≤ 2048 + dt := by
    rw [UInt32.le_iff_toNat_le, hsum]
    exact show 1 ≤ 2 ^ 11 + dt.toNat by omega
  rw [UInt32.toNat_div, UInt32.toNat_sub_of_le _ _ hone, hsum]
  rfl

theorem toNat_lineOf (hn : n.toNat < 2 ^ 12) (hdt : dt.toNat < 2 ^ 12) :
    ((n * dt) >>> 11).toNat = lineOf dt.toNat n.toNat := by
  have hproduct : n.toNat * dt.toNat < 2 ^ 32 := by nlinarith
  rw [UInt32.toNat_shiftRight, UInt32.toNat_mul, Nat.mod_eq_of_lt hproduct]
  rfl

/-- Lines that do not differ have as many words as the increment says. -/
theorem lineOf_of_even (hn : n.toNat < 2 ^ 12) (hdt : dt.toNat < 2 ^ 12)
    (hlines : blockLines n dt = some lines) (heven : lines.unevenDt = false) (hx : x ≤ n) :
    ((x * dt) >>> 11).toNat = x.toNat / lines.maxNum64bppElements.toNat := by
  have hx' : x.toNat ≤ n.toNat := UInt32.le_iff_toNat_le.mp hx
  rw [toNat_lineOf (by omega) hdt]
  have hmaxT := toNat_lineOf hn hdt
  unfold blockLines at hlines
  dsimp only at hlines
  split at hlines
  · cases hlines
  rename_i hreached
  have hpos : 0 < dt.toNat := by
    rw [Nat.pos_iff_ne_zero]
    intro hzero
    apply hreached
    rw [← UInt32.toNat_inj, hmaxT, hzero, lineOf, Nat.mul_zero]
    rfl
  have hwords := toNat_wordsPerLine hpos hdt
  obtain ⟨hline, herror⟩ := mul_wordsPerLine hpos
  have hproduct : (dt * ((2048 + dt - 1) / dt)).toNat = 2 ^ 11 + lineError dt.toNat := by
    rw [UInt32.toNat_mul, hwords, hline]
    exact Nat.mod_eq_of_lt (by omega)
  have hamount : (dt * ((2048 + dt - 1) / dt) - 2048).toNat =
      lineError dt.toNat := by
    have hle : 2048 ≤ dt * ((2048 + dt - 1) / dt) := by
      rw [UInt32.le_iff_toNat_le, hproduct]
      exact Nat.le_add_right _ _
    rw [UInt32.toNat_sub_of_le _ _ hle, hproduct]
    exact Nat.add_sub_cancel_left ..
  have hbound : lineOf dt.toNat n.toNat < 2 ^ 13 := by
    rw [lineOf, Nat.shiftRight_eq_div_pow]
    have hsmall : n.toNat * dt.toNat < 2 ^ 24 := by nlinarith
    omega
  split at hlines
  · rename_i hsmall
    cases hlines
    have hless := UInt32.lt_iff_toNat_lt.mp hsmall.2
    rw [UInt32.toNat_mul, hamount, hmaxT,
      Nat.mod_eq_of_lt (show lineError dt.toNat * lineOf dt.toNat n.toNat < 2 ^ 32 by
        nlinarith)] at hless
    rw [hwords]
    exact lineOf_eq_div hpos hless hx'
  · cases hlines
    -- The increment is a part of 2048, and there is no error.
    have hsame := of_not_not (of_decide_eq_false heven)
    have hmin : wordsPerLine dt.toNat = 2 ^ 11 / dt.toNat := by
      rw [← hwords, hsame, UInt32.toNat_div]
      rfl
    have hnone : lineError dt.toNat = 0 := by
      have hle := Nat.mul_div_le (2 ^ 11) dt.toNat
      rw [hmin] at hline
      omega
    rw [hwords]
    exact lineOf_eq_div hpos (by rw [hnone, Nat.zero_mul]; exact hpos) hx'

theorem lineOf_of_even_three_hundred :
    ((13 * 300 : UInt32) >>> 11).toNat = (13 : UInt32).toNat / (7 : UInt32).toNat :=
  @lineOf_of_even 13 300 13 ⟨7, 7, false⟩ (by decide) (by decide) (by decide) rfl (by decide)

end Decision

end ParallelN64.Rdp
