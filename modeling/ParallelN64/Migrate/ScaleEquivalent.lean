import ParallelN64.Migrate.Families

/-!
# Collapsing groups that are scaled copies

A family of two variant groups collapses to the larger one when its images are the smaller
ones with every pixel repeated. Each group is represented by one image after its entries have
been compared by their hashes; decoded images are remembered by replacement identifier, also
from one family to the next.
-/

namespace ParallelN64.Migrate

open ParallelN64.Core Phrb

/-- The smaller and the larger of two groups with the scale between them. -/
structure GroupOrder where
  smaller : VariantGroup
  larger : VariantGroup
  scaleX : Nat
  scaleY : Nat
  deriving DecidableEq, Repr

def VariantGroup.width (group : VariantGroup) : Nat := group.variantGroupId.width

def VariantGroup.height (group : VariantGroup) : Nat := group.variantGroupId.height

def parseVariantGroupDims (group : VariantGroup) : Option (Nat × Nat) :=
  if group.width = 0 ∨ group.height = 0 then none else some (group.width, group.height)

/-- Which of two groups is the larger one, if their scale is integral and not one. -/
def resolveScaleEquivalentGroupOrder (groups : List VariantGroup) : Option GroupOrder :=
  match groups with
  | [first, second] => do
    let (firstWidth, firstHeight) ← parseVariantGroupDims first
    let (secondWidth, secondHeight) ← parseVariantGroupDims second
    if firstWidth = secondWidth ∧ firstHeight = secondHeight then none
    else
      let (smaller, larger) ←
        if firstWidth ≤ secondWidth ∧ firstHeight ≤ secondHeight then some (first, second)
        else if secondWidth ≤ firstWidth ∧ secondHeight ≤ firstHeight then some (second, first)
        else none
      if larger.width % smaller.width ≠ 0 ∨ larger.height % smaller.height ≠ 0 then none
      else
        let scaleX := larger.width / smaller.width
        let scaleY := larger.height / smaller.height
        if scaleX = 0 ∨ scaleY = 0 then none
        else if scaleX = 1 ∧ scaleY = 1 then none
        else some { smaller, larger, scaleX, scaleY }
  | _ => none

/-- Two groups whose dimensions are an integral scale apart that is not one. -/
structure ScaleOrder (groups : List VariantGroup) (order : GroupOrder) : Prop where
  groups_eq : groups = [order.smaller, order.larger] ∨ groups = [order.larger, order.smaller]
  width_pos : 0 < order.smaller.width
  height_pos : 0 < order.smaller.height
  scaleX_pos : 0 < order.scaleX
  scaleY_pos : 0 < order.scaleY
  larger_width : order.larger.width = order.scaleX * order.smaller.width
  larger_height : order.larger.height = order.scaleY * order.smaller.height
  scaled : ¬(order.scaleX = 1 ∧ order.scaleY = 1)

/-- The scale of two groups, the first of which is taken for the smaller one. -/
def scaleOf (smaller larger : VariantGroup) : Option GroupOrder :=
  if larger.width % smaller.width ≠ 0 ∨ larger.height % smaller.height ≠ 0 then none
  else
    let scaleX := larger.width / smaller.width
    let scaleY := larger.height / smaller.height
    if scaleX = 0 ∨ scaleY = 0 then none
    else if scaleX = 1 ∧ scaleY = 1 then none
    else some { smaller, larger, scaleX, scaleY }

theorem scaleOf_eq_some_iff {smaller larger : VariantGroup} {order : GroupOrder}
    (hwidth : 0 < smaller.width) (hheight : 0 < smaller.height) :
    scaleOf smaller larger = some order ↔
      order.smaller = smaller ∧ order.larger = larger ∧ 0 < order.scaleX ∧ 0 < order.scaleY ∧
        larger.width = order.scaleX * smaller.width ∧
        larger.height = order.scaleY * smaller.height ∧
        ¬(order.scaleX = 1 ∧ order.scaleY = 1) := by
  unfold scaleOf
  constructor
  · intro h
    simp only at h
    split_ifs at h with hmod hzero hone
    cases h
    rw [not_or, not_not, not_not] at hmod
    rw [not_or] at hzero
    refine ⟨rfl, rfl, Nat.pos_of_ne_zero hzero.1, Nat.pos_of_ne_zero hzero.2, ?_, ?_, hone⟩
    · exact (Nat.div_mul_cancel (Nat.dvd_of_mod_eq_zero hmod.1)).symm
    · exact (Nat.div_mul_cancel (Nat.dvd_of_mod_eq_zero hmod.2)).symm
  · rintro ⟨rfl, rfl, hscaleX, hscaleY, hlargerWidth, hlargerHeight, hone⟩
    have hdivX : order.larger.width / order.smaller.width = order.scaleX := by
      rw [hlargerWidth, Nat.mul_div_cancel _ hwidth]
    have hdivY : order.larger.height / order.smaller.height = order.scaleY := by
      rw [hlargerHeight, Nat.mul_div_cancel _ hheight]
    have hmodX : order.larger.width % order.smaller.width = 0 := by
      rw [hlargerWidth, Nat.mul_mod_left]
    have hmodY : order.larger.height % order.smaller.height = 0 := by
      rw [hlargerHeight, Nat.mul_mod_left]
    rw [if_neg (by simp [hmodX, hmodY])]
    simp only [hdivX, hdivY]
    rw [if_neg (by omega), if_neg hone]

theorem parseVariantGroupDims_eq_some_iff {group : VariantGroup} {dims : Nat × Nat} :
    parseVariantGroupDims group = some dims ↔
      dims = (group.width, group.height) ∧ 0 < group.width ∧ 0 < group.height := by
  unfold parseVariantGroupDims
  by_cases hzero : group.width = 0 ∨ group.height = 0
  · rw [if_pos hzero]
    constructor
    · intro h
      cases h
    · rintro ⟨_, hwidth, hheight⟩
      omega
  · rw [if_neg hzero, Option.some.injEq]
    constructor
    · rintro rfl
      exact ⟨rfl, by omega, by omega⟩
    · rintro ⟨rfl, _⟩
      rfl

theorem resolveScaleEquivalentGroupOrder_pair {first second : VariantGroup}
    (hfirst : 0 < first.width ∧ 0 < first.height)
    (hsecond : 0 < second.width ∧ 0 < second.height) :
    resolveScaleEquivalentGroupOrder [first, second] =
      if first.width = second.width ∧ first.height = second.height then none
      else if first.width ≤ second.width ∧ first.height ≤ second.height then
        scaleOf first second
      else if second.width ≤ first.width ∧ second.height ≤ first.height then
        scaleOf second first
      else none := by
  have hparseFirst := parseVariantGroupDims_eq_some_iff.mpr ⟨rfl, hfirst⟩
  have hparseSecond := parseVariantGroupDims_eq_some_iff.mpr ⟨rfl, hsecond⟩
  simp only [resolveScaleEquivalentGroupOrder, hparseFirst, hparseSecond,
    Option.bind_eq_bind, Option.bind_some]
  by_cases hsame : first.width = second.width ∧ first.height = second.height
  · rw [if_pos hsame, if_pos hsame]
  · rw [if_neg hsame, if_neg hsame]
    by_cases hle : first.width ≤ second.width ∧ first.height ≤ second.height
    · rw [if_pos hle, if_pos hle]
      rfl
    · rw [if_neg hle, if_neg hle]
      by_cases hge : second.width ≤ first.width ∧ second.height ≤ first.height
      · rw [if_pos hge, if_pos hge]
        rfl
      · rw [if_neg hge, if_neg hge]
        rfl

theorem resolveScaleEquivalentGroupOrder_eq_some_iff {groups : List VariantGroup}
    {order : GroupOrder} :
    resolveScaleEquivalentGroupOrder groups = some order ↔ ScaleOrder groups order := by
  constructor
  · intro h
    match groups, h with
    | [first, second], h =>
      have hdims : (0 < first.width ∧ 0 < first.height) ∧
          (0 < second.width ∧ 0 < second.height) := by
        by_contra hzero
        simp only [resolveScaleEquivalentGroupOrder] at h
        obtain ⟨dims, hfirst, h⟩ := Option.bind_eq_some_iff.mp h
        obtain ⟨dims', hsecond, h⟩ := Option.bind_eq_some_iff.mp h
        exact hzero ⟨(parseVariantGroupDims_eq_some_iff.mp hfirst).2,
          (parseVariantGroupDims_eq_some_iff.mp hsecond).2⟩
      obtain ⟨hfirst, hsecond⟩ := hdims
      rw [resolveScaleEquivalentGroupOrder_pair hfirst hsecond] at h
      split_ifs at h
      · obtain ⟨rfl, rfl, hX, hY, hwidth, hheight, hone⟩ :=
          (scaleOf_eq_some_iff hfirst.1 hfirst.2).mp h
        exact ⟨.inl rfl, hfirst.1, hfirst.2, hX, hY, hwidth, hheight, hone⟩
      · obtain ⟨rfl, rfl, hX, hY, hwidth, hheight, hone⟩ :=
          (scaleOf_eq_some_iff hsecond.1 hsecond.2).mp h
        exact ⟨.inr rfl, hsecond.1, hsecond.2, hX, hY, hwidth, hheight, hone⟩
  · intro h
    have hlargerWidth : order.smaller.width ≤ order.larger.width := by
      rw [h.larger_width]
      exact Nat.le_mul_of_pos_left _ h.scaleX_pos
    have hlargerHeight : order.smaller.height ≤ order.larger.height := by
      rw [h.larger_height]
      exact Nat.le_mul_of_pos_left _ h.scaleY_pos
    have hdiffer : ¬(order.smaller.width = order.larger.width ∧
        order.smaller.height = order.larger.height) := by
      rintro ⟨hwidth, hheight⟩
      rw [h.larger_width] at hwidth
      rw [h.larger_height] at hheight
      exact h.scaled ⟨(Nat.eq_of_mul_eq_mul_right h.width_pos (by omega)),
        (Nat.eq_of_mul_eq_mul_right h.height_pos (by omega))⟩
    have hsmaller : 0 < order.smaller.width ∧ 0 < order.smaller.height :=
      ⟨h.width_pos, h.height_pos⟩
    have hlarger : 0 < order.larger.width ∧ 0 < order.larger.height :=
      ⟨by omega, by omega⟩
    have hscale : scaleOf order.smaller order.larger = some order :=
      (scaleOf_eq_some_iff h.width_pos h.height_pos).mpr
        ⟨rfl, rfl, h.scaleX_pos, h.scaleY_pos, h.larger_width, h.larger_height, h.scaled⟩
    rcases h.groups_eq with hgroups | hgroups
    · rw [hgroups, resolveScaleEquivalentGroupOrder_pair hsmaller hlarger, if_neg hdiffer,
        if_pos ⟨hlargerWidth, hlargerHeight⟩, hscale]
    · rw [hgroups, resolveScaleEquivalentGroupOrder_pair hlarger hsmaller,
        if_neg (by omega), if_neg (by omega), if_pos ⟨hlargerWidth, hlargerHeight⟩, hscale]

def pixelAt (rgba : Bytes) (offset : Nat) : Bytes := (rgba.drop offset).take 4

/-- Every pixel of the larger image is the pixel of the smaller one that it is a copy of. -/
def exactNearestNeighborScaleMatch (smallerRgba : Bytes) (smallerWidth smallerHeight : Nat)
    (largerRgba : Bytes) (largerWidth largerHeight scaleX scaleY : Nat) : Bool :=
  if smallerRgba.length ≠ smallerWidth * smallerHeight * 4 then false
  else if largerRgba.length ≠ largerWidth * largerHeight * 4 then false
  else
    (List.range largerHeight).all fun largerY =>
      let largerRowOffset := largerY * largerWidth * 4
      let smallerRowOffset := largerY / scaleY * smallerWidth * 4
      (List.range largerWidth).all fun largerX =>
        pixelAt largerRgba (largerRowOffset + largerX * 4) ==
          pixelAt smallerRgba (smallerRowOffset + largerX / scaleX * 4)

section Selection

variable {η : Type} [DecidableEq η]
-- The decoder of an entry and the hash of an image; the results hold for any.
variable (decode : CacheEntry → Option Bytes) (hash : Bytes → η)

abbrev DecodedCache := ReplacementId → Option Bytes

def DecodedCache.remember (memo : DecodedCache) (id : ReplacementId) (rgba : Bytes) :
    DecodedCache :=
  fun id' => if id' = id then some rgba else memo id'

/-- The image that stands for a group. -/
structure Representative (η : Type) where
  rgba : Bytes
  pixelSha256 : η
  width : Nat
  height : Nat

/-- The image of an entry: the remembered one for its identifier, or else its own, which is
then remembered. -/
def decodeOnce (memo : DecodedCache) (entry : CacheEntry) : Option (DecodedCache × Bytes) :=
  match memo (makeReplacementId entry) with
  | some rgba => some (memo, rgba)
  | none => (decode entry).map fun rgba => (memo.remember (makeReplacementId entry) rgba, rgba)

/-- Go through the entries of a group: the first image represents it, the others must have
its hash. What was decoded stays remembered in any case. -/
def decodeVariantGroupRepresentative :
    DecodedCache → Option (Representative η) → List CacheEntry →
      DecodedCache × Option (Representative η)
  | memo, representative, [] => (memo, representative)
  | memo, representative, entry :: entries =>
    match decodeOnce decode memo entry with
    | none => (memo, none)
    | some (memo, rgba) =>
      match representative with
      | none =>
        decodeVariantGroupRepresentative memo
          (some {
            rgba
            pixelSha256 := hash rgba
            width := entry.head.width
            height := entry.head.height }) entries
      | some first =>
        if hash rgba ≠ first.pixelSha256 then (memo, none)
        else decodeVariantGroupRepresentative memo (some first) entries

/-- A selection of one of the variant groups of a family. -/
structure ScaleSelection (η : Type) where
  selectedVariantGroupId : VariantGroupId
  selectedReplacementIds : List ReplacementId
  collapsedVariantGroupIds : List VariantGroupId
  smallerVariantGroupId : VariantGroupId
  scaleX : Nat
  scaleY : Nat
  selectedPixelSha256 : η
  smallerPixelSha256 : η
  appliesToFamily : FamilyKey

/-- The larger group of a family whose groups are scaled copies, and what was decoded to find
that out. -/
def buildExactScaleEquivalentSelection (key : FamilyKey) (groups : List VariantGroup)
    (groupEntries : GroupEntries) (memo : DecodedCache) :
    DecodedCache × Option (ScaleSelection η) :=
  match resolveScaleEquivalentGroupOrder groups with
  | none => (memo, none)
  | some order =>
    let entriesOf := fun group : VariantGroup =>
      (groupEntries.get? group.variantGroupId).getD []
    match decodeVariantGroupRepresentative decode hash memo none (entriesOf order.smaller) with
    | (memo, none) => (memo, none)
    | (memo, some smaller) =>
      match decodeVariantGroupRepresentative decode hash memo none (entriesOf order.larger) with
      | (memo, none) => (memo, none)
      | (memo, some larger) =>
        if exactNearestNeighborScaleMatch smaller.rgba smaller.width smaller.height larger.rgba
            larger.width larger.height order.scaleX order.scaleY then
          (memo, some {
            selectedVariantGroupId := order.larger.variantGroupId
            selectedReplacementIds := order.larger.candidateReplacementIds
            collapsedVariantGroupIds := groups.map (·.variantGroupId)
            smallerVariantGroupId := order.smaller.variantGroupId
            scaleX := order.scaleX
            scaleY := order.scaleY
            selectedPixelSha256 := larger.pixelSha256
            smallerPixelSha256 := smaller.pixelSha256
            appliesToFamily := key })
        else (memo, none)

/-- The selection of a family: only exact families of two groups are tried. -/
def scaleEquivalentSelection (entries : List CacheEntry) (key : FamilyKey)
    (memo : DecodedCache) : DecodedCache × Option (ScaleSelection η) :=
  if recommendedTier entries key = .exactAuthoritative ∧
      (variantGroupList entries key).length = 2 then
    buildExactScaleEquivalentSelection decode hash key (variantGroupList entries key)
      (variantGroupEntries entries key) memo
  else (memo, none)

theorem larger_of_selection {key : FamilyKey} {groups : List VariantGroup}
    {groupEntries : GroupEntries} {memo : DecodedCache} {selection : ScaleSelection η}
    (h : (buildExactScaleEquivalentSelection decode hash key groups groupEntries memo).2 =
      some selection) :
    ∃ order, resolveScaleEquivalentGroupOrder groups = some order ∧
      selection.selectedVariantGroupId = order.larger.variantGroupId := by
  unfold buildExactScaleEquivalentSelection at h
  cases hresolve : resolveScaleEquivalentGroupOrder groups with
  | none =>
    rw [hresolve] at h
    cases h
  | some order =>
    rw [hresolve] at h
    simp only at h
    split at h
    · cases h
    · split at h
      · cases h
      · split_ifs at h
        cases h
        exact ⟨order, rfl, rfl⟩

def decodedAfter (entries : List CacheEntry) (families : List FamilyKey) : DecodedCache :=
  families.foldl (fun memo key => (scaleEquivalentSelection decode hash entries key memo).1)
    fun _ => none

end Selection

def pixel (rgba : Bytes) (width x y : Nat) : Bytes := pixelAt rgba ((y * width + x) * 4)

/-- The larger image consists of the pixels of the smaller one, each repeated in a block. -/
structure Replicated (small large : Bytes) (width height scaleX scaleY : Nat) : Prop where
  small_length : small.length = width * height * 4
  large_length : large.length = scaleX * width * (scaleY * height) * 4
  pixels : ∀ x < width, ∀ y < height, ∀ i < scaleX, ∀ j < scaleY,
    pixel large (scaleX * width) (x * scaleX + i) (y * scaleY + j) = pixel small width x y

theorem eq_of_pixels {a b : Bytes} {width height : Nat} (ha : a.length = width * height * 4)
    (hb : b.length = width * height * 4)
    (h : ∀ x < width, ∀ y < height, pixel a width x y = pixel b width x y) : a = b := by
  apply List.ext_getElem (ha.trans hb.symm)
  intro k hka hkb
  have hwidth : 0 < width := by
    by_contra hzero
    rw [Nat.eq_zero_of_not_pos hzero] at ha
    omega
  have hx : k / 4 % width < width := Nat.mod_lt _ hwidth
  have hy : k / 4 / width < height := by
    rw [Nat.div_lt_iff_lt_mul hwidth]
    have hcomm := Nat.mul_comm width height
    omega
  have hoffset : (k / 4 / width * width + k / 4 % width) * 4 = k / 4 * 4 := by
    rw [Nat.mul_comm (k / 4 / width), Nat.div_add_mod]
  have hbyte := congrArg (·[k % 4]?) (h _ hx _ hy)
  simp only [pixel, pixelAt, hoffset] at hbyte
  have hlt : k % 4 < 4 := Nat.mod_lt _ (by omega)
  have hk : k / 4 * 4 + k % 4 = k := by omega
  rw [List.getElem?_take_of_lt hlt, List.getElem?_take_of_lt hlt, List.getElem?_drop,
    List.getElem?_drop, hk, List.getElem?_eq_getElem hka, List.getElem?_eq_getElem hkb,
    Option.some.injEq] at hbyte
  exact hbyte

section Replicas

variable {small small' large large' : Bytes} {width height scaleX scaleY : Nat}

theorem div_lt_of_lt_scaled {n scale size : Nat} (h : n < scale * size) :
    n / scale < size ∧ n % scale < scale ∧ n / scale * scale + n % scale = n := by
  have hscale : 0 < scale := Nat.pos_of_mul_pos_right (Nat.zero_lt_of_lt h)
  refine ⟨Nat.div_lt_of_lt_mul h, Nat.mod_lt _ hscale, ?_⟩
  rw [Nat.mul_comm, Nat.div_add_mod]

theorem Replicated.pixel_eq (h : Replicated small large width height scaleX scaleY) {x y : Nat}
    (hx : x < scaleX * width) (hy : y < scaleY * height) :
    pixel large (scaleX * width) x y = pixel small width (x / scaleX) (y / scaleY) := by
  obtain ⟨hx, hi, hxi⟩ := div_lt_of_lt_scaled hx
  obtain ⟨hy, hj, hyj⟩ := div_lt_of_lt_scaled hy
  have hpixel := h.pixels _ hx _ hy _ hi _ hj
  rw [hxi, hyj] at hpixel
  exact hpixel

theorem Replicated.large_unique (h : Replicated small large width height scaleX scaleY)
    (h' : Replicated small large' width height scaleX scaleY) : large = large' := by
  apply eq_of_pixels h.large_length h'.large_length
  intro x hx y hy
  rw [h.pixel_eq hx hy, h'.pixel_eq hx hy]

theorem Replicated.small_unique (hscaleX : 0 < scaleX) (hscaleY : 0 < scaleY)
    (h : Replicated small large width height scaleX scaleY)
    (h' : Replicated small' large width height scaleX scaleY) : small = small' := by
  apply eq_of_pixels h.small_length h'.small_length
  intro x hx y hy
  rw [← h.pixels x hx y hy 0 hscaleX 0 hscaleY, h'.pixels x hx y hy 0 hscaleX 0 hscaleY]

theorem exactNearestNeighborScaleMatch_iff (hscaleX : 0 < scaleX) (hscaleY : 0 < scaleY) :
    exactNearestNeighborScaleMatch small width height large (scaleX * width) (scaleY * height)
        scaleX scaleY = true ↔
      Replicated small large width height scaleX scaleY := by
  have hoffset : ∀ rowWidth x y : Nat, y * rowWidth * 4 + x * 4 = (y * rowWidth + x) * 4 := by
    intro rowWidth x y
    rw [Nat.add_mul]
  unfold exactNearestNeighborScaleMatch
  constructor
  · intro h
    by_cases hsmall : small.length = width * height * 4
    · by_cases hlarge : large.length = scaleX * width * (scaleY * height) * 4
      · rw [if_neg (not_not.mpr hsmall), if_neg (not_not.mpr hlarge)] at h
        simp only [List.all_eq_true, List.mem_range, beq_iff_eq, hoffset] at h
        refine ⟨hsmall, hlarge, ?_⟩
        intro x hx y hy i hi j hj
        have hX : x * scaleX + i < scaleX * width := by
          calc x * scaleX + i < (x + 1) * scaleX := by rw [Nat.add_mul]; omega
            _ ≤ width * scaleX := Nat.mul_le_mul_right _ hx
            _ = scaleX * width := Nat.mul_comm _ _
        have hY : y * scaleY + j < scaleY * height := by
          calc y * scaleY + j < (y + 1) * scaleY := by rw [Nat.add_mul]; omega
            _ ≤ height * scaleY := Nat.mul_le_mul_right _ hy
            _ = scaleY * height := Nat.mul_comm _ _
        have hpixel := h _ hY _ hX
        rw [Nat.mul_comm x, Nat.mul_comm y, Nat.mul_add_div hscaleX, Nat.mul_add_div hscaleY,
          Nat.div_eq_of_lt hi, Nat.div_eq_of_lt hj] at hpixel
        rw [Nat.mul_comm x, Nat.mul_comm y]
        exact hpixel
      · rw [if_neg (not_not.mpr hsmall), if_pos hlarge] at h
        cases h
    · rw [if_pos hsmall] at h
      cases h
  · intro h
    rw [if_neg (not_not.mpr h.small_length), if_neg (not_not.mpr h.large_length)]
    simp only [List.all_eq_true, List.mem_range, beq_iff_eq, hoffset]
    intro y hy x hx
    exact h.pixel_eq hx hy

end Replicas

end ParallelN64.Migrate
