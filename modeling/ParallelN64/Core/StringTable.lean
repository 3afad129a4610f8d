import ParallelN64.Core.Index
import ParallelN64.Core.Layout

/-!
# Tables of zero-terminated strings

A string table is built by appending each new string once, with its terminator, and
remembering where it starts. Every remembered offset reads its string back, whatever is
appended later.
-/

namespace ParallelN64.Core

variable {κ : Type} [DecidableEq κ]

/-- The bytes of a table and the offsets of its strings. -/
abbrev StringTable (κ : Type) := Bytes × Table κ Nat

/-- Adds a string once, with its terminator. -/
def StringTable.add (encode : κ → Bytes) (t : StringTable κ) (value : κ) : StringTable κ :=
  if value ∈ t.2 then t else (t.1 ++ encode value ++ [0], t.2.insert value t.1.length)

/-- The table of some strings. -/
def StringTable.build (encode : κ → Bytes) (values : List κ) : StringTable κ :=
  values.foldl (StringTable.add encode) ([], ∅)

/-- Every string stands at its offset. -/
def StringTable.Placed (encode : κ → Bytes) (t : StringTable κ) : Prop :=
  ∀ v offset, t.2.lookup v = some offset →
    ∃ pre post, t.1 = pre ++ (encode v ++ 0 :: post) ∧ pre.length = offset

theorem StringTable.Placed.add {encode : κ → Bytes} {t : StringTable κ}
    (h : t.Placed encode) (value : κ) : (t.add encode value).Placed encode := by
  unfold StringTable.add
  split
  next => exact h
  next hnew =>
    intro v offset hv
    by_cases he : v = value
    · subst he
      rw [AList.lookup_insert, Option.some.injEq] at hv
      exact ⟨t.1, [], by simp, hv⟩
    · rw [AList.lookup_insert_ne he] at hv
      obtain ⟨pre, post, hbytes, hlen⟩ := h v offset hv
      exact ⟨pre, post ++ (encode value ++ [0]), by simp [hbytes], hlen⟩

theorem StringTable.placed_foldl (encode : κ → Bytes) (values : List κ) (t : StringTable κ)
    (h : t.Placed encode) : (values.foldl (StringTable.add encode) t).Placed encode := by
  induction values generalizing t with
  | nil => exact h
  | cons v values ih => exact ih _ (h.add v)

theorem StringTable.placed_build (encode : κ → Bytes) (values : List κ) :
    (StringTable.build encode values).Placed encode :=
  StringTable.placed_foldl encode values _ fun v offset hv => by simp at hv

/-- A string without a terminator is read back at its offset. -/
theorem StringTable.Placed.readCString {encode : κ → Bytes} {t : StringTable κ}
    (h : t.Placed encode) {v : κ} {offset : Nat} (hv : t.2.lookup v = some offset)
    (hzero : (0 : UInt8) ∉ encode v) : readCString t.1 offset = some (encode v) := by
  obtain ⟨pre, post, hbytes, rfl⟩ := h v offset hv
  rw [hbytes]
  exact readCString_append hzero

end ParallelN64.Core
