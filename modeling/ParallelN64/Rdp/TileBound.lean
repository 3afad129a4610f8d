import Mathlib.Data.Int.ConditionallyCompleteOrder
import Mathlib.Tactic.IntervalCases
import ParallelN64.Rdp.Binning

/-!
# When the bound on tiles holds

An edge is straight, so on the lines between two others it lies between its columns there. The
lines of any tile are therefore governed by the four lines that the shader would sample on the
whole scissor rectangle, as long as no edge leaves 32 bits.
-/

namespace ParallelN64.Rdp

theorem wrap32_of_fits {x : Int} (hlo : -2 ^ 31 ≤ x) (hhi : x < 2 ^ 31) : wrap32 x = x := by
  apply Int.bmod_eq_of_le <;> omega

theorem edgeAt_monotone_or_antitone (scaling : Int) (x dxdy : Int32) (base : Int) :
    Monotone (edgeAt scaling x dxdy base) ∨ Antitone (edgeAt scaling x dxdy base) := by
  rcases le_total 0 dxdy.toInt with hd | hd
  · left
    intro a b hab
    have : (a - base) * dxdy.toInt ≤ (b - base) * dxdy.toInt :=
      mul_le_mul_of_nonneg_right (by omega) hd
    simp only [edgeAt]
    omega
  · right
    intro a b hab
    have : (b - base) * dxdy.toInt ≤ (a - base) * dxdy.toInt :=
      mul_le_mul_of_nonpos_right (by omega) hd
    simp only [edgeAt]
    omega

/-- `e` on `y` lies between two of its values, at `a` and at `b`. -/
def Between (e : Int → Int) (a y b : Int) : Prop :=
  (e a ≤ e y ∨ e b ≤ e y) ∧ (e y ≤ e a ∨ e y ≤ e b)

variable {y : Int} {setup : TriangleSetup} {scaling : Int} {v : IVec4}

theorem between_edgeAt (scaling : Int) (x dxdy : Int32) (base : Int) {a b : Int} (ha : a ≤ y)
    (hb : y ≤ b) : Between (edgeAt scaling x dxdy base) a y b := by
  rcases edgeAt_monotone_or_antitone scaling x dxdy base with h | h
  · exact ⟨.inl (h ha), .inr (h hb)⟩
  · exact ⟨.inr (h hb), .inl (h ha)⟩

/-- Both edges of a primitive stay in 32 bits on a line. -/
structure EdgesFit (setup : TriangleSetup) (scaling y : Int) : Prop where
  high_ge : -2 ^ 31 ≤ setup.xhAt scaling y
  high_lt : setup.xhAt scaling y < 2 ^ 31
  opposite_ge : -2 ^ 31 ≤ setup.xOppositeAt scaling y
  opposite_lt : setup.xOppositeAt scaling y < 2 ^ 31

/-- Two of the lines enclose a line, all three on one side of `ym`. -/
def Encloses (setup : TriangleSetup) (scaling : Int) (lines : IVec4) (y : Int) : Prop :=
  ∃ a ∈ lines.toList, ∃ b ∈ lines.toList, a ≤ y ∧ y ≤ b ∧
    (b < scaling * setup.ym.toInt ∨ scaling * setup.ym.toInt ≤ a)

theorem between_xOppositeAt {a b : Int} (ha : a ≤ y) (hb : y ≤ b)
    (hside : b < scaling * setup.ym.toInt ∨ scaling * setup.ym.toInt ≤ a) :
    Between (setup.xOppositeAt scaling) a y b := by
  simp only [Between, TriangleSetup.xOppositeAt]
  rcases hside with hside | hside
  · rw [if_pos (by omega), if_pos (by omega), if_pos (by omega)]
    exact between_edgeAt scaling setup.xm setup.dxmdy _ ha hb
  · rw [if_neg (by omega), if_neg (by omega), if_neg (by omega)]
    exact between_edgeAt scaling setup.xl setup.dxldy _ ha hb

theorem interpolateX_of_fit (h : EdgesFit setup scaling y) :
    interpolateX setup y scaling =
      if setup.flip then (setup.xhAt scaling y / 2 ^ 15, setup.xOppositeAt scaling y / 2 ^ 15)
      else (setup.xOppositeAt scaling y / 2 ^ 15, setup.xhAt scaling y / 2 ^ 15) := by
  simp only [interpolateX, wrap32_of_fits h.high_ge h.high_lt,
    wrap32_of_fits h.opposite_ge h.opposite_lt]

theorem exists_of_encloses {lines : IVec4} (henc : Encloses setup scaling lines y)
    (hy : EdgesFit setup scaling y) (hfit : ∀ y' ∈ lines.toList, EdgesFit setup scaling y') :
    (∃ y' ∈ lines.toList, (interpolateX setup y' scaling).1 ≤ (interpolateX setup y scaling).1) ∧
      ∃ y' ∈ lines.toList,
        (interpolateX setup y scaling).2 ≤ (interpolateX setup y' scaling).2 := by
  obtain ⟨a, ha, b, hb, hay, hyb, hside⟩ := henc
  have hhigh : Between (setup.xhAt scaling) a y b := between_edgeAt _ _ _ _ hay hyb
  have hopposite := between_xOppositeAt hay hyb hside
  have hmono : ∀ {p q : Int}, p ≤ q → p / 2 ^ 15 ≤ q / 2 ^ 15 := fun h =>
    Int.ediv_le_ediv (by norm_num) h
  have hxa := interpolateX_of_fit (hfit a ha)
  have hxb := interpolateX_of_fit (hfit b hb)
  rw [interpolateX_of_fit hy]
  cases hflip : setup.flip with
  | true =>
    simp only [hflip, if_true] at hxa hxb ⊢
    constructor
    · rcases hhigh.1 with h | h
      · exact ⟨a, ha, by rw [hxa]; exact hmono h⟩
      · exact ⟨b, hb, by rw [hxb]; exact hmono h⟩
    · rcases hopposite.2 with h | h
      · exact ⟨a, ha, by rw [hxa]; exact hmono h⟩
      · exact ⟨b, hb, by rw [hxb]; exact hmono h⟩
  | false =>
    simp only [hflip, Bool.false_eq_true, if_false] at hxa hxb ⊢
    constructor
    · rcases hopposite.1 with h | h
      · exact ⟨a, ha, by rw [hxa]; exact hmono h⟩
      · exact ⟨b, hb, by rw [hxb]; exact hmono h⟩
    · rcases hhigh.2 with h | h
      · exact ⟨a, ha, by rw [hxa]; exact hmono h⟩
      · exact ⟨b, hb, by rw [hxb]; exact hmono h⟩

@[simp] theorem IVec4.mem_toList : y ∈ v.toList ↔ y = v.x ∨ y = v.y ∨ y = v.z ∨ y = v.w := by
  simp [IVec4.toList]

theorem IVec4.minimum4_map_le (f : Int → Int) (hy : y ∈ v.toList) : (v.map f).minimum4 ≤ f y := by
  rw [IVec4.mem_toList] at hy
  rcases hy with rfl | rfl | rfl | rfl <;> simp [IVec4.map, IVec4.minimum4]

theorem IVec4.le_maximum4_map (f : Int → Int) (hy : y ∈ v.toList) : f y ≤ (v.map f).maximum4 := by
  rw [IVec4.mem_toList] at hy
  rcases hy with rfl | rfl | rfl | rfl <;> simp [IVec4.map, IVec4.maximum4]

theorem IVec4.exists_minimum4_map (v : IVec4) (f : Int → Int) :
    ∃ y ∈ v.toList, (v.map f).minimum4 = f y := by
  simp only [IVec4.mem_toList, IVec4.map, IVec4.minimum4]
  rcases min_choice (min (f v.x) (f v.z)) (min (f v.y) (f v.w)) with h | h <;> rw [h]
  · rcases min_choice (f v.x) (f v.z) with h | h <;> simp [h]
  · rcases min_choice (f v.y) (f v.w) with h | h <;> simp [h]

theorem IVec4.exists_maximum4_map (v : IVec4) (f : Int → Int) :
    ∃ y ∈ v.toList, (v.map f).maximum4 = f y := by
  simp only [IVec4.mem_toList, IVec4.map, IVec4.maximum4]
  rcases max_choice (max (f v.x) (f v.z)) (max (f v.y) (f v.w)) with h | h <;> rw [h]
  · rcases max_choice (f v.x) (f v.z) with h | h <;> simp [h]
  · rcases max_choice (f v.y) (f v.w) with h | h <;> simp [h]

theorem binPrimitive_iff {lo hi : Int × Int} :
    binPrimitive setup lo hi scaling = true ↔
      binStartY setup lo.2 scaling ≤ binEndY setup hi.2 scaling ∧
        max (interpolateXs setup (binLines setup lo.2 hi.2 scaling) scaling).1 lo.1 ≤
          min (interpolateXs setup (binLines setup lo.2 hi.2 scaling) scaling).2 hi.1 := by
  simp only [binPrimitive]
  split_ifs with h
  · simp; omega
  · simp only [decide_eq_true_eq]
    exact ⟨fun h' => ⟨by omega, h'⟩, fun h' => h'.2⟩

theorem binStartY_mono (setup : TriangleSetup) (scaling : Int) {lo lo' : Int} (h : lo ≤ lo') :
    binStartY setup lo scaling ≤ binStartY setup lo' scaling := by
  simp only [binStartY]
  omega

theorem binEndY_mono (setup : TriangleSetup) (scaling : Int) {hi hi' : Int} (h : hi ≤ hi') :
    binEndY setup hi scaling ≤ binEndY setup hi' scaling := by
  simp only [binEndY]
  omega

theorem mem_binLines {lo hi : Int} (hle : binStartY setup lo scaling ≤ binEndY setup hi scaling)
    (hy : y ∈ (binLines setup lo hi scaling).toList) :
    binStartY setup lo scaling ≤ y ∧ y ≤ binEndY setup hi scaling := by
  simp only [binLines, IVec4.mem_toList, clamp] at hy
  omega

theorem encloses_binLines {lo hi : Int} (hlo : binStartY setup lo scaling ≤ y)
    (hhi : y ≤ binEndY setup hi scaling) :
    Encloses setup scaling (binLines setup lo hi scaling) y := by
  simp only [Encloses, binLines, IVec4.mem_toList, clamp, mul_comm setup.ym.toInt]
  by_cases hym : y < scaling * setup.ym.toInt
  · exact ⟨_, .inl rfl, _, .inr (.inr (.inl rfl)), hlo, by omega, by omega⟩
  · exact ⟨_, .inr (.inr (.inr rfl)), _, .inr (.inl rfl), by omega, hhi, by omega⟩

def scissorLines (setup : TriangleSetup) (scissor : ScissorState) (scaling : Int) : IVec4 :=
  binLines setup (scissorBase scissor scaling).2 (scissorEnd scissor scaling).2 scaling

def LinesFit (setup : TriangleSetup) (scissor : ScissorState) (scaling : Int) : Prop :=
  ∀ y, binStartY setup (scissorBase scissor scaling).2 scaling ≤ y →
    y ≤ binEndY setup (scissorEnd scissor scaling).2 scaling → EdgesFit setup scaling y

theorem Upscaling.factor_nonneg (upscaling : Upscaling) : 0 ≤ upscaling.factor := by
  cases upscaling <;> decide

section Tile

variable {setup : TriangleSetup} {scissor : ScissorState} {scaling : Int}

theorem interpolateXs_scissorLines (hfit : LinesFit setup scissor scaling) {lo hi : Int}
    (hlo : (scissorBase scissor scaling).2 ≤ lo) (hhi : hi ≤ (scissorEnd scissor scaling).2)
    (hle : binStartY setup lo scaling ≤ binEndY setup hi scaling) :
    (interpolateXs setup (scissorLines setup scissor scaling) scaling).1 ≤
        (interpolateXs setup (binLines setup lo hi scaling) scaling).1 ∧
      (interpolateXs setup (binLines setup lo hi scaling) scaling).2 ≤
        (interpolateXs setup (scissorLines setup scissor scaling) scaling).2 := by
  have hstart := binStartY_mono setup scaling hlo
  have hend := binEndY_mono setup scaling hhi
  have hreach : ∀ y ∈ (binLines setup lo hi scaling).toList,
      (∃ y' ∈ (scissorLines setup scissor scaling).toList,
          (interpolateX setup y' scaling).1 ≤ (interpolateX setup y scaling).1) ∧
        ∃ y' ∈ (scissorLines setup scissor scaling).toList,
          (interpolateX setup y scaling).2 ≤ (interpolateX setup y' scaling).2 := by
    intro y hy
    have hy' := mem_binLines hle hy
    apply exists_of_encloses (encloses_binLines (by omega) (by omega))
    · exact hfit y (by omega) (by omega)
    · intro y' hmem
      have := mem_binLines (by omega) hmem
      exact hfit y' this.1 this.2
  constructor
  · obtain ⟨y, hy, hmin⟩ := (binLines setup lo hi scaling).exists_minimum4_map
      fun y => (interpolateX setup y scaling).1
    obtain ⟨y', hy', hle'⟩ := (hreach y hy).1
    exact (IVec4.minimum4_map_le _ hy').trans (hle'.trans hmin.ge)
  · obtain ⟨y, hy, hmax⟩ := (binLines setup lo hi scaling).exists_maximum4_map
      fun y => (interpolateX setup y scaling).2
    obtain ⟨y', hy', hle'⟩ := (hreach y hy).2
    exact hmax.le.trans (hle'.trans (IVec4.le_maximum4_map _ hy'))

/-- What it takes for the shader to accept a tile. -/
structure TileTouched (setup : TriangleSetup) (scissor : ScissorState) (scaling : Int)
    (tile : Nat × Nat) : Prop where
  lines : binStartY setup (max (tile.2 * 8) (scissorBase scissor scaling).2) scaling ≤
    binEndY setup (min (tile.2 * 8 + 7) (scissorEnd scissor scaling).2) scaling
  left : max (interpolateXs setup (scissorLines setup scissor scaling) scaling).1
    (scissorBase scissor scaling).1 ≤ tile.1 * 8 + 7
  right : (tile.1 * 8 : Int) ≤
    min (interpolateXs setup (scissorLines setup scissor scaling) scaling).2
      (scissorEnd scissor scaling).1
  whole : binPrimitive setup (scissorBase scissor scaling) (scissorEnd scissor scaling)
    scaling = true

variable {tile : Nat × Nat}

theorem tileTouched_of_binTile (hfit : LinesFit setup scissor scaling) {resolution : Resolution}
    (h : binTile setup scissor scaling resolution tile = true) :
    TileTouched setup scissor scaling tile := by
  simp only [binTile, binClipped, sub_zero] at h
  obtain ⟨hlines, hcols⟩ := binPrimitive_iff.mp h
  obtain ⟨hleft, hright⟩ := interpolateXs_scissorLines hfit (le_max_right _ _)
    (min_le_right _ _) hlines
  have hcols' := (max_le_max hleft le_rfl).trans (hcols.trans (min_le_min hright le_rfl))
  clear hcols hleft hright
  refine ⟨hlines.trans (binEndY_mono _ _ (by omega)), ?_, ?_, binPrimitive_iff.mpr ⟨?_, ?_⟩⟩
  · generalize (interpolateXs setup (scissorLines setup scissor scaling) scaling).1 = l at *
    omega
  · generalize (interpolateXs setup (scissorLines setup scissor scaling) scaling).2 = r at *
    omega
  · exact (binStartY_mono _ _ (le_max_right _ _)).trans
      (hlines.trans (binEndY_mono _ _ (min_le_right _ _)))
  · change max (interpolateXs setup (scissorLines setup scissor scaling) scaling).1 _ ≤
      min (interpolateXs setup (scissorLines setup scissor scaling) scaling).2 _
    generalize (interpolateXs setup (scissorLines setup scissor scaling) scaling) = x at *
    omega

theorem TileTouched.rows {upscaling : Upscaling}
    (h : TileTouched setup scissor upscaling.factor tile) :
    estimateStartY setup scissor upscaling.factor / 32 ≤ tile.2 ∧
      tile.2 ≤ estimateEndY setup scissor upscaling.factor / 32 := by
  have hlines := h.lines
  simp only [binStartY, binEndY] at hlines
  have hbase : (scissorBase scissor upscaling.factor).2 ≤ tile.2 * 8 + 7 := by omega
  have hlast : (tile.2 * 8 : Int) ≤ (scissorEnd scissor upscaling.factor).2 := by omega
  have hyh : upscaling.factor * setup.yh.toInt ≤ tile.2 * 32 + 31 := by omega
  have hyl : (tile.2 * 32 : Int) < upscaling.factor * setup.yl.toInt := by omega
  clear hlines
  simp only [scissorBase, scissorEnd, estimateStartY, estimateEndY] at *
  -- Every factor divides 8, so the lines of a pixel row lie in one row of tiles.
  cases upscaling <;> simp only [Upscaling.factor] at * <;> constructor <;> omega

theorem card_le_of_box {tiles : Finset (Nat × Nat)} {x₀ x₁ y₀ y₁ : Int} (hx : 0 ≤ x₀) (hy : 0 ≤ y₀)
    (hbox : ∀ tile ∈ tiles, (x₀ ≤ tile.1 ∧ tile.1 ≤ x₁) ∧ y₀ ≤ tile.2 ∧ tile.2 ≤ y₁) :
    tiles.card ≤ ((x₁ - x₀ + 1) * (y₁ - y₀ + 1)).toNat := by
  rcases tiles.eq_empty_or_nonempty with rfl | ⟨tile, htile⟩
  · simp
  obtain ⟨⟨hx₀, hx₁⟩, hy₀, hy₁⟩ := hbox tile htile
  have hsub : tiles ⊆ Finset.Icc x₀.toNat x₁.toNat ×ˢ Finset.Icc y₀.toNat y₁.toNat := by
    intro t ht
    have := hbox t ht
    simp only [Finset.mem_product, Finset.mem_Icc]
    omega
  have hcard := Finset.card_le_card hsub
  rw [Finset.card_product, Nat.card_Icc, Nat.card_Icc] at hcard
  rwa [Int.toNat_mul (by omega) (by omega),
    show (x₁ - x₀ + 1).toNat = x₁.toNat + 1 - x₀.toNat by omega,
    show (y₁ - y₀ + 1).toNat = y₁.toNat + 1 - y₀.toNat by omega]

def leftTile (setup : TriangleSetup) (scissor : ScissorState) (scaling y : Int) : Int :=
  max (interpolateX setup y scaling).1 (scissorBase scissor scaling).1 / 8

def rightTile (setup : TriangleSetup) (scissor : ScissorState) (scaling y : Int) : Int :=
  min (interpolateX setup y scaling).2 (scissorEnd scissor scaling).1 / 8

/-- The lines of the renderer reach as far as the four lines of the shader on the whole scissor
rectangle. -/
structure LinesReach (setup : TriangleSetup) (scissor : ScissorState) (scaling : Int) : Prop where
  rows : scissor.ylo < scissor.yhi
  columns : ∃ y ∈ (estimateLines setup scissor scaling).toList,
    ∃ y' ∈ (estimateLines setup scissor scaling).toList,
      max (interpolateX setup y scaling).1 (scissorBase scissor scaling).1 ≤
        min (interpolateX setup y' scaling).2 (scissorEnd scissor scaling).1
  left : ∀ y ∈ (scissorLines setup scissor scaling).toList,
    ∃ y' ∈ (estimateLines setup scissor scaling).toList,
      leftTile setup scissor scaling y' ≤ leftTile setup scissor scaling y
  right : ∀ y ∈ (scissorLines setup scissor scaling).toList,
    ∃ y' ∈ (estimateLines setup scissor scaling).toList,
      rightTile setup scissor scaling y ≤ rightTile setup scissor scaling y'

/-- No edge leaves 32 bits, and where the shader would accept the primitive on the whole scissor
rectangle, the lines of the renderer reach as far as its lines there. -/
structure Bounded (setup : TriangleSetup) (scissor : ScissorState) (scaling : Int) : Prop where
  fit : LinesFit setup scissor scaling
  reach : binPrimitive setup (scissorBase scissor scaling) (scissorEnd scissor scaling)
    scaling = true → LinesReach setup scissor scaling

def estimateLeft (setup : TriangleSetup) (scissor : ScissorState) (scaling : Int) : Int :=
  max ((estimateLines setup scissor scaling).map fun y => (interpolateX setup y scaling).1).minimum4
    (scissorBase scissor scaling).1

def estimateRight (setup : TriangleSetup) (scissor : ScissorState) (scaling : Int) : Int :=
  min ((estimateLines setup scissor scaling).map fun y => (interpolateX setup y scaling).2).maximum4
    (scissorEnd scissor scaling).1

theorem computeConservativeMaxNumTiles_eq (hlines : setup.yh.toInt < setup.yl.toInt)
    (hrows : estimateStartY setup scissor scaling ≤ estimateEndY setup scissor scaling)
    (hcols : estimateLeft setup scissor scaling ≤ estimateRight setup scissor scaling) :
    computeConservativeMaxNumTiles setup scissor scaling =
      ((estimateRight setup scissor scaling / 8 - estimateLeft setup scissor scaling / 8 + 1) *
        (estimateEndY setup scissor scaling / 32 -
          estimateStartY setup scissor scaling / 32 + 1)).toNat := by
  simp only [estimateLeft, estimateRight, IVec4.minimum4, IVec4.maximum4] at hcols ⊢
  rw [min_min_min_comm, max_max_max_comm] at hcols ⊢
  simp only [computeConservativeMaxNumTiles]
  rw [if_neg (by omega), if_neg (by omega), if_neg (by omega)]

theorem TileTouched.lines_le {upscaling : Upscaling}
    (h : TileTouched setup scissor upscaling.factor tile) (hrows : scissor.ylo < scissor.yhi) :
    setup.yh.toInt < setup.yl.toInt ∧ estimateStartY setup scissor upscaling.factor ≤
      estimateEndY setup scissor upscaling.factor := by
  have hlines := h.lines
  simp only [binStartY, binEndY] at hlines
  have h₁ : (scissorBase scissor upscaling.factor).2 * 4 <
      upscaling.factor * setup.yl.toInt := by omega
  have h₂ : upscaling.factor * setup.yh.toInt < upscaling.factor * setup.yl.toInt := by omega
  have h₃ : upscaling.factor * setup.yh.toInt ≤
      (scissorEnd scissor upscaling.factor).2 * 4 + 3 := by omega
  have hrows' : (scissor.ylo.val : Int) < scissor.yhi.val := by exact_mod_cast hrows
  clear hlines
  simp only [scissorBase, scissorEnd, estimateStartY, estimateEndY] at *
  cases upscaling <;> simp only [Upscaling.factor] at * <;> constructor <;> omega

theorem LinesReach.estimate_le (h : LinesReach setup scissor scaling) :
    estimateLeft setup scissor scaling ≤ estimateRight setup scissor scaling := by
  obtain ⟨y, hy, y', hy', hle⟩ := h.columns
  have hleft := IVec4.minimum4_map_le (fun y => (interpolateX setup y scaling).1) hy
  have hright := IVec4.le_maximum4_map (fun y => (interpolateX setup y scaling).2) hy'
  exact (max_le_max hleft le_rfl).trans (hle.trans (min_le_min hright le_rfl))

theorem LinesReach.columns_of_touched (h : LinesReach setup scissor scaling)
    (htile : TileTouched setup scissor scaling tile) :
    estimateLeft setup scissor scaling / 8 ≤ tile.1 ∧
      tile.1 ≤ estimateRight setup scissor scaling / 8 := by
  constructor
  · obtain ⟨y, hy, hmin⟩ := (scissorLines setup scissor scaling).exists_minimum4_map
      fun y => (interpolateX setup y scaling).1
    obtain ⟨y', hy', hle⟩ := h.left y hy
    have hleft := htile.left
    simp only [interpolateXs, hmin] at hleft
    calc estimateLeft setup scissor scaling / 8
        ≤ leftTile setup scissor scaling y' :=
          Int.ediv_le_ediv (by decide) (max_le_max (IVec4.minimum4_map_le _ hy') le_rfl)
      _ ≤ leftTile setup scissor scaling y := hle
      _ ≤ (tile.1 * 8 + 7) / 8 := Int.ediv_le_ediv (by decide) hleft
      _ = tile.1 := by omega
  · obtain ⟨y, hy, hmax⟩ := (scissorLines setup scissor scaling).exists_maximum4_map
      fun y => (interpolateX setup y scaling).2
    obtain ⟨y', hy', hle⟩ := h.right y hy
    have hright := htile.right
    simp only [interpolateXs, hmax] at hright
    calc (tile.1 : Int) = tile.1 * 8 / 8 := by omega
      _ ≤ rightTile setup scissor scaling y := Int.ediv_le_ediv (by decide) hright
      _ ≤ rightTile setup scissor scaling y' := hle
      _ ≤ estimateRight setup scissor scaling / 8 :=
          Int.ediv_le_ediv (by decide) (min_le_min (IVec4.le_maximum4_map _ hy') le_rfl)

end Tile

/-- The bound of the renderer is at least the number of tiles in which the shader accepts the
primitive, when no edge wraps and the lines of the renderer reach far enough. -/
theorem card_binnedTiles_le (setup : TriangleSetup) (scissor : ScissorState)
    (upscaling : Upscaling) (resolution : Resolution)
    (h : Bounded setup scissor upscaling.factor) :
    (binnedTiles setup scissor upscaling.factor resolution).card ≤
      computeConservativeMaxNumTiles setup scissor upscaling.factor := by
  have htouched : ∀ tile ∈ binnedTiles setup scissor upscaling.factor resolution,
      TileTouched setup scissor upscaling.factor tile := fun tile htile =>
    tileTouched_of_binTile h.fit (Finset.mem_filter.mp htile).2
  rcases (binnedTiles setup scissor upscaling.factor resolution).eq_empty_or_nonempty with
    hempty | ⟨tile, htile⟩
  · rw [hempty, Finset.card_empty]
    exact Nat.zero_le _
  have hreach := h.reach (htouched tile htile).whole
  obtain ⟨hlines, hrows⟩ := (htouched tile htile).lines_le hreach.rows
  rw [computeConservativeMaxNumTiles_eq hlines hrows hreach.estimate_le]
  have hpos := upscaling.factor_nonneg
  apply card_le_of_box
  · apply Int.ediv_nonneg _ (by decide)
    apply le_max_of_le_right
    exact mul_nonneg hpos (by omega)
  · apply Int.ediv_nonneg _ (by decide)
    exact mul_nonneg (le_max_of_le_left (by omega)) hpos
  · intro tile htile
    exact ⟨hreach.columns_of_touched (htouched tile htile), (htouched tile htile).rows⟩

section Lines

variable {setup : TriangleSetup} {scissor : ScissorState} {upscaling : Upscaling}

theorem encloses_estimateLines {scaling : Int}
    (hym : scaling * setup.ym.toInt ≠ estimateEndY setup scissor scaling) {y : Int}
    (hlo : estimateStartY setup scissor scaling ≤ y)
    (hhi : y ≤ estimateEndY setup scissor scaling) :
    Encloses setup scaling (estimateLines setup scissor scaling) y := by
  simp only [Encloses, estimateLines]
  split_ifs with h <;> simp only [IVec4.mem_toList]
  · by_cases hside : y < scaling * setup.ym.toInt
    · exact ⟨_, .inl rfl, _, .inr (.inr (.inr rfl)), hlo, by omega, by omega⟩
    · exact ⟨_, .inr (.inr (.inl rfl)), _, .inr (.inl rfl), by omega, hhi, by omega⟩
  · exact ⟨_, .inl rfl, _, .inr (.inl rfl), hlo, hhi, by omega⟩

theorem mem_estimateLines {scaling y : Int}
    (hle : estimateStartY setup scissor scaling ≤ estimateEndY setup scissor scaling)
    (hy : y ∈ (estimateLines setup scissor scaling).toList) :
    estimateStartY setup scissor scaling ≤ y ∧ y ≤ estimateEndY setup scissor scaling := by
  simp only [estimateLines] at hy
  split_ifs at hy <;> simp only [IVec4.mem_toList] at hy <;> omega

theorem bounded_of_lines
    (hstart : estimateStartY setup scissor upscaling.factor ≤
      binStartY setup (scissorBase scissor upscaling.factor).2 upscaling.factor)
    (hend : binEndY setup (scissorEnd scissor upscaling.factor).2 upscaling.factor ≤
      estimateEndY setup scissor upscaling.factor)
    (hym : upscaling.factor * setup.ym.toInt ≠ estimateEndY setup scissor upscaling.factor)
    (hfit : ∀ y, estimateStartY setup scissor upscaling.factor ≤ y →
      y ≤ estimateEndY setup scissor upscaling.factor → EdgesFit setup upscaling.factor y) :
    Bounded setup scissor upscaling.factor := by
  refine ⟨fun y hlo hhi => hfit y (hstart.trans hlo) (hhi.trans hend), fun hwhole => ?_⟩
  obtain ⟨hle, hcols⟩ := binPrimitive_iff.mp hwhole
  have hrows : estimateStartY setup scissor upscaling.factor ≤
      estimateEndY setup scissor upscaling.factor := hstart.trans (hle.trans hend)
  have hreach : ∀ y ∈ (scissorLines setup scissor upscaling.factor).toList, _ := fun y hy =>
    have hy' := mem_binLines hle hy
    have hlo := hstart.trans hy'.1
    have hhi := hy'.2.trans hend
    exists_of_encloses (encloses_estimateLines hym hlo hhi) (hfit y hlo hhi) fun y' hmem =>
      hfit y' (mem_estimateLines hrows hmem).1 (mem_estimateLines hrows hmem).2
  refine ⟨?_, ?_, ?_, ?_⟩
  · simp only [estimateStartY, estimateEndY] at hrows
    have : (scissor.ylo.val : Int) < scissor.yhi.val := by
      cases upscaling <;> simp only [Upscaling.factor] at hrows <;> omega
    exact_mod_cast this
  · obtain ⟨y, hy, hmin⟩ := (scissorLines setup scissor upscaling.factor).exists_minimum4_map
      fun y => (interpolateX setup y upscaling.factor).1
    obtain ⟨z, hz, hmax⟩ := (scissorLines setup scissor upscaling.factor).exists_maximum4_map
      fun y => (interpolateX setup y upscaling.factor).2
    obtain ⟨y', hy', hleft⟩ := (hreach y hy).1
    obtain ⟨z', hz', hright⟩ := (hreach z hz).2
    refine ⟨y', hy', z', hz', ?_⟩
    exact (max_le_max (hleft.trans hmin.ge) le_rfl).trans
      (hcols.trans (min_le_min (hmax.le.trans hright) le_rfl))
  · intro y hy
    obtain ⟨y', hy', hleft⟩ := (hreach y hy).1
    exact ⟨y', hy', Int.ediv_le_ediv (by decide) (max_le_max hleft le_rfl)⟩
  · intro y hy
    obtain ⟨y', hy', hright⟩ := (hreach y hy).2
    exact ⟨y', hy', Int.ediv_le_ediv (by decide) (min_le_min hright le_rfl)⟩

end Lines

def flatBottom : TriangleSetup :=
  { dxmdy := 37450, ym := 4, yl := 4, flags := triangleSetupFlipBit }

def scissor16 : ScissorState := applySetScissorWords 0 0x40040

/-- Upscaled by two, the last line of the triangle reaches the second tile of the screen. The
renderer scales the last line of the original screen and stops one line before. -/
theorem not_card_binnedTiles_le :
    ¬ ∀ (setup : TriangleSetup) (scissor : ScissorState) (upscaling : Upscaling)
      (resolution : Resolution),
      (binnedTiles setup scissor upscaling.factor resolution).card ≤
        computeConservativeMaxNumTiles setup scissor upscaling.factor := by
  intro h
  have hcard : (binnedTiles flatBottom scissor16 2 ⟨32, 32⟩).card = 2 := by decide
  have hbound : computeConservativeMaxNumTiles flatBottom scissor16 2 = 1 := by decide
  have := h flatBottom scissor16 .x2 ⟨32, 32⟩
  simp only [Upscaling.factor, hcard, hbound] at this
  omega

/-- The shader does not skip the group of these tiles. -/
example : binMetaTile flatBottom scissor16 2 ⟨32, 32⟩ 4 (0, 0) = true := by decide

/-- The same triangle on the original screen, where its last line is sampled. -/
theorem card_binnedTiles_le_flatBottom :
    (binnedTiles flatBottom scissor16 1 ⟨16, 16⟩).card ≤
      computeConservativeMaxNumTiles flatBottom scissor16 1 := by
  apply card_binnedTiles_le flatBottom scissor16 .x1 ⟨16, 16⟩
  apply bounded_of_lines
  · decide
  · decide
  · decide
  · intro y hlo hhi
    have hlo' : 0 ≤ y := hlo
    have hhi' : y ≤ 3 := hhi
    interval_cases y <;> constructor <;> decide

end ParallelN64.Rdp
