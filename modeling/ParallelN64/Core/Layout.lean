import ParallelN64.Core.Word

/-!
# Fixed-width binary layouts

Little-endian integers, records given by the widths of their fields, tables of equally
long rows, and zero-terminated strings. Each writer has one lemma saying that the
matching reader finds what was written, at any place in a longer byte string.
-/

namespace ParallelN64.Core

/-- The number of little-endian bytes. -/
def decodeLE : Bytes → Nat
  | [] => 0
  | b :: bs => b.toNat + 256 * decodeLE bs

/-- The low `width` bytes of a value, least significant first. -/
def encodeLE : Nat → Nat → Bytes
  | 0, _ => []
  | width + 1, value => UInt8.ofNat value :: encodeLE width (value / 256)

@[simp] theorem length_encodeLE (width value : Nat) : (encodeLE width value).length = width := by
  induction width generalizing value with
  | zero => rfl
  | succ width ih => rw [encodeLE, List.length_cons, ih]

/-- A number that fits its field is read back. -/
theorem decodeLE_encodeLE {width value : Nat} (h : value < 256 ^ width) :
    decodeLE (encodeLE width value) = value := by
  induction width generalizing value with
  | zero =>
    rw [Nat.pow_zero, Nat.lt_one_iff] at h
    rw [h, encodeLE, decodeLE]
  | succ width ih =>
    have hdiv : value / 256 < 256 ^ width := Nat.div_lt_of_lt_mul (by rwa [Nat.pow_succ'] at h)
    have hmod := Nat.mod_add_div value 256
    rw [encodeLE, decodeLE, ih hdiv, UInt8.toNat_ofNat']
    exact hmod

/-- The numbers of consecutive fields. -/
def readFields : List Nat → Bytes → List Nat
  | [], _ => []
  | w :: ws, bs => decodeLE (bs.take w) :: readFields ws (bs.drop w)

/-- Write consecutive little-endian fields, failing when a value does not fit its width or
the number of values is not that of the widths. -/
def packFields : List Nat → List Int → Option Bytes
  | [], [] => some []
  | w :: ws, v :: vs =>
    if 0 ≤ v ∧ v < 256 ^ w then (packFields ws vs).map (encodeLE w v.toNat ++ ·) else none
  | _, _ => none

variable {ws : List Nat} {vs : List Int} {bs : Bytes}

theorem packFields_cons {w : Nat} {v : Int} (h : packFields (w :: ws) (v :: vs) = some bs) :
    (0 ≤ v ∧ v < 256 ^ w) ∧ ∃ cs, packFields ws vs = some cs ∧ bs = encodeLE w v.toNat ++ cs := by
  rw [packFields] at h
  by_cases hv : 0 ≤ v ∧ v < 256 ^ w
  · rw [if_pos hv, Option.map_eq_some_iff] at h
    obtain ⟨cs, hcs, rfl⟩ := h
    exact ⟨hv, cs, hcs, rfl⟩
  · rw [if_neg hv] at h
    cases h

theorem packFields_inRange {width : Nat} (h : packFields ws vs = some bs)
    (hws : ∀ w ∈ ws, w = width) : ∀ v ∈ vs, 0 ≤ v ∧ v < 256 ^ width := by
  induction ws generalizing vs bs with
  | nil =>
    cases vs with
    | nil => simp
    | cons v vs => simp [packFields] at h
  | cons w ws ih =>
    cases vs with
    | nil => simp [packFields] at h
    | cons v vs =>
      obtain ⟨hv, cs, hcs, _⟩ := packFields_cons h
      intro u hu
      obtain rfl | hu := List.mem_cons.mp hu
      · rwa [← hws w List.mem_cons_self]
      · exact ih hcs (fun w' hw' => hws w' (List.mem_cons_of_mem w hw')) u hu

theorem length_packFields (h : packFields ws vs = some bs) : bs.length = ws.sum := by
  induction ws generalizing vs bs with
  | nil =>
    cases vs with
    | nil =>
      obtain rfl : bs = [] := (Option.some.inj h).symm
      rfl
    | cons v vs => simp [packFields] at h
  | cons w ws ih =>
    cases vs with
    | nil => simp [packFields] at h
    | cons v vs =>
      obtain ⟨_, cs, hcs, rfl⟩ := packFields_cons h
      rw [List.length_append, length_encodeLE, ih hcs, List.sum_cons]

/-- Packed fields are read back. -/
theorem readFields_packFields (h : packFields ws vs = some bs) (rest : Bytes) :
    readFields ws (bs ++ rest) = vs.map Int.toNat := by
  induction ws generalizing vs bs with
  | nil =>
    cases vs with
    | nil => rfl
    | cons v vs => simp [packFields] at h
  | cons w ws ih =>
    cases vs with
    | nil => simp [packFields] at h
    | cons v vs =>
      obtain ⟨⟨hnonneg, hlt⟩, cs, hcs, rfl⟩ := packFields_cons h
      have hvalue : v.toNat < 256 ^ w := by
        rw [← Int.ofNat_lt, Int.toNat_of_nonneg hnonneg]
        exact_mod_cast hlt
      rw [readFields, List.append_assoc, List.take_left' (length_encodeLE w _),
        List.drop_left' (length_encodeLE w _), decodeLE_encodeLE hvalue, ih hcs, List.map_cons]

/-- A window of the bytes, if it lies inside them. -/
def readAt (bs : Bytes) (offset size : Nat) : Option Bytes :=
  if bs.length < offset + size then none else some ((bs.drop offset).take size)

theorem readAt_eq_some {cs : Bytes} {offset size : Nat} :
    readAt bs offset size = some cs ↔
      offset + size ≤ bs.length ∧ (bs.drop offset).take size = cs := by
  unfold readAt
  by_cases h : bs.length < offset + size
  · simp [h, Nat.not_le_of_lt h]
  · simp [h, Nat.le_of_not_lt h]

theorem readAt_append (pre row post : Bytes) :
    readAt (pre ++ (row ++ post)) pre.length row.length = some row := by
  rw [readAt_eq_some]
  constructor
  · simp only [List.length_append]
    omega
  · rw [List.drop_left, List.take_left]

theorem length_flatten_of_length {rows : List Bytes} {n : Nat} (h : ∀ r ∈ rows, r.length = n) :
    rows.flatten.length = rows.length * n := by
  induction rows with
  | nil => simp
  | cons r rows ih =>
    rw [List.flatten_cons, List.length_append, h r List.mem_cons_self,
      ih fun r' hr' => h r' (List.mem_cons_of_mem r hr'), List.length_cons, Nat.succ_mul,
      Nat.add_comm]

theorem readAt_table {pre post : Bytes} {rows : List Bytes} {n i : Nat}
    (h : ∀ r ∈ rows, r.length = n) (hi : i < rows.length) :
    readAt (pre ++ (rows.flatten ++ post)) (pre.length + i * n) n = some rows[i] := by
  have hsplit : rows.flatten = (rows.take i).flatten ++ (rows[i] ++ (rows.drop (i + 1)).flatten) := by
    conv_lhs => rw [← List.take_append_drop i rows, List.drop_eq_getElem_cons hi]
    rw [List.flatten_append, List.flatten_cons]
  have hlen : (rows.take i).flatten.length = i * n := by
    rw [length_flatten_of_length fun r hr => h r (List.mem_of_mem_take hr), List.length_take,
      Nat.min_eq_left (Nat.le_of_lt hi)]
  have hread := readAt_append (pre ++ (rows.take i).flatten) rows[i]
    ((rows.drop (i + 1)).flatten ++ post)
  rw [List.length_append, hlen, h _ (List.getElem_mem hi)] at hread
  rw [hsplit]
  simpa only [List.append_assoc] using hread

/-- The string at an offset, if its terminator lies inside the data. -/
def readCString (data : Bytes) (offset : Nat) : Option Bytes :=
  if data.length ≤ offset then none
  else
    let value := (data.drop offset).takeWhile (· != 0)
    if data.length ≤ offset + value.length then none else some value

theorem readCString_append {pre s post : Bytes} (hs : (0 : UInt8) ∉ s) :
    readCString (pre ++ (s ++ 0 :: post)) pre.length = some s := by
  have htake : (s ++ 0 :: post).takeWhile (· != 0) = s := by
    have hne : ∀ b ∈ s, (b != 0) = true := fun b hb => bne_iff_ne.mpr (ne_of_mem_of_not_mem hb hs)
    rw [List.takeWhile_append_of_pos hne]
    simp
  have hlen : (pre ++ (s ++ 0 :: post)).length = pre.length + (s.length + (post.length + 1)) := by
    simp only [List.length_append, List.length_cons]
  rw [readCString, List.drop_left, htake, hlen, if_neg (by omega), if_neg (by omega)]

theorem mapM_eq_some_iff {α β : Type} {f : α → Option β} {xs : List α} {ys : List β} :
    xs.mapM f = some ys ↔ xs.map f = ys.map some := by
  induction xs generalizing ys with
  | nil => cases ys <;> simp
  | cons x xs ih =>
    simp only [List.mapM_cons, Option.bind_eq_bind, Option.bind_eq_some_iff, Option.pure_def,
      Option.some.injEq]
    constructor
    · rintro ⟨y, hy, zs, hzs, rfl⟩
      rw [List.map_cons, List.map_cons, hy, ih.mp hzs]
    · intro h
      cases ys with
      | nil => simp at h
      | cons y ys =>
        rw [List.map_cons, List.map_cons, List.cons.injEq] at h
        exact ⟨y, h.1, ys, ih.mpr h.2, rfl⟩

theorem getElem?_of_mapM_eq_some {α β : Type} {f : α → Option β} {xs : List α} {ys : List β}
    (h : xs.mapM f = some ys) (i : Nat) : ys[i]? = (xs[i]?).bind f := by
  have hmap := congrArg (fun l => l[i]?.join) (mapM_eq_some_iff.mp h)
  simp only [List.getElem?_map] at hmap
  cases hx : xs[i]? with
  | none => cases hy : ys[i]? <;> simp_all
  | some x => cases hy : ys[i]? <;> simp_all

theorem length_of_mapM_eq_some {α β : Type} {f : α → Option β} {xs : List α} {ys : List β}
    (h : xs.mapM f = some ys) : ys.length = xs.length := by
  have hmap := congrArg List.length (mapM_eq_some_iff.mp h)
  simpa using hmap.symm

section PackedTable

variable {α : Type} {fields : α → Option (List Int)} {layout : List Nat} {xs : List α}
  {rows : List Bytes}

theorem length_of_mem_packedTable
    (h : (xs.mapM fun x => (fields x).bind (packFields layout)) = some rows) :
    ∀ row ∈ rows, row.length = layout.sum := by
  intro row hrow
  obtain ⟨i, hi⟩ := List.mem_iff_getElem?.mp hrow
  rw [getElem?_of_mapM_eq_some h i, Option.bind_eq_some_iff] at hi
  obtain ⟨x, _, hx⟩ := hi
  obtain ⟨vs, _, hpack⟩ := Option.bind_eq_some_iff.mp hx
  exact length_packFields hpack

/-- A row of a packed table is where its index says. -/
theorem readAt_packedTable (h : (xs.mapM fun x => (fields x).bind (packFields layout)) = some rows)
    (pre post : Bytes) {i : Nat} {x : α} (hx : xs[i]? = some x) :
    ∃ vs row, fields x = some vs ∧ packFields layout vs = some row ∧
      readAt (pre ++ (rows.flatten ++ post)) (pre.length + i * layout.sum) layout.sum = some row ∧
      readFields layout row = vs.map Int.toNat := by
  have hlt : i < rows.length := by
    rw [length_of_mapM_eq_some h]
    exact (List.getElem?_eq_some_iff.mp hx).1
  have hrow := getElem?_of_mapM_eq_some h i
  rw [hx, Option.bind_some, List.getElem?_eq_getElem hlt] at hrow
  obtain ⟨vs, hvs, hpack⟩ := Option.bind_eq_some_iff.mp hrow.symm
  have hfields := readFields_packFields hpack []
  rw [List.append_nil] at hfields
  exact ⟨vs, rows[i], hvs, hpack, readAt_table (length_of_mem_packedTable h) hlt, hfields⟩

end PackedTable

end ParallelN64.Core
