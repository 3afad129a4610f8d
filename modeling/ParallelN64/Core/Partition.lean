import Mathlib.Algebra.Order.Monoid.Unbundled.Basic
import ParallelN64.Core.Index

/-!
# Names that are held or free

A pool hands out names. Each name that was issued is held by one user or waits in a free
list, and in one of them only. Releasing a held name, reusing a free one and issuing a new
one keep this; a name that is taken and not held is in neither list any more.
-/

namespace ParallelN64.Core

variable {α : Type}

/-- The issued names are divided into held and free ones. -/
structure Divided (issued : α → Prop) (held free : List α) : Prop where
  nodup : (held ++ free).Nodup
  mem_iff : ∀ a, a ∈ held ++ free ↔ issued a

variable {issued : α → Prop} {held held' free free' : List α} {a : α}

theorem Divided.nil (hissued : ∀ a, ¬issued a) : Divided issued [] [] :=
  ⟨List.nodup_nil, fun a => iff_of_false List.not_mem_nil (hissued a)⟩

theorem Divided.perm (h : Divided issued held free) (hperm : (held ++ free).Perm (held' ++ free')) :
    Divided issued held' free' :=
  ⟨hperm.nodup_iff.mp h.nodup, fun a => hperm.mem_iff.symm.trans (h.mem_iff a)⟩

theorem Divided.congr {issued' : α → Prop} (h : Divided issued held free)
    (hissued : ∀ a, issued a ↔ issued' a) : Divided issued' held free :=
  ⟨h.nodup, fun a => (h.mem_iff a).trans (hissued a)⟩

theorem Divided.release (h : Divided issued held free) (hheld : held.Perm (a :: held')) :
    Divided issued held' (free ++ [a]) := by
  refine h.perm ((hheld.append_right free).trans ?_)
  rw [List.cons_append, ← List.append_assoc]
  exact List.perm_append_singleton a (held' ++ free) |>.symm

theorem Divided.reuse (h : Divided issued held (free ++ [a])) : Divided issued (a :: held) free := by
  refine h.perm ?_
  rw [← List.append_assoc, List.cons_append]
  exact List.perm_append_singleton a (held ++ free)

theorem Divided.issue (h : Divided issued held free) (ha : ¬issued a) :
    Divided (fun b => b = a ∨ issued b) (a :: held) free := by
  refine ⟨List.nodup_cons.mpr ⟨fun hmem => ha ((h.mem_iff a).mp hmem), h.nodup⟩, fun b => ?_⟩
  rw [List.cons_append, List.mem_cons, h.mem_iff]

theorem Divided.held_or_free (h : Divided issued held free) (ha : issued a) :
    (a ∈ held ∧ a ∉ free) ∨ (a ∉ held ∧ a ∈ free) := by
  have hdisjoint := List.disjoint_of_nodup_append h.nodup
  cases List.mem_append.mp ((h.mem_iff a).mpr ha) with
  | inl hheld => exact Or.inl ⟨hheld, fun hfree => hdisjoint hheld hfree⟩
  | inr hfree => exact Or.inr ⟨fun hheld => hdisjoint hheld hfree, hfree⟩

theorem Divided.notMem (h : Divided issued (a :: held) free) : a ∉ held ∧ a ∉ free := by
  have hnodup := h.nodup
  rw [List.cons_append, List.nodup_cons, List.mem_append, not_or] at hnodup
  exact hnodup.1

variable {κ β : Type} [DecidableEq κ]

theorem Table.entries_perm_erase {m : Table κ β} {k : κ} {b : β} (h : m.lookup k = some b) :
    m.entries.Perm (⟨k, b⟩ :: (m.erase k).entries) := by
  have hkey : k ∈ m.entries.keys := AList.lookup_isSome.mp (Option.isSome_of_eq_some h)
  obtain ⟨b', before, after, hnotMem, hentries, herase⟩ := List.exists_of_kerase hkey
  have hlookup : m.entries.dlookup k = some b' := by
    rw [hentries]
    exact List.mem_dlookup (hentries ▸ m.nodupKeys)
      (List.mem_append_right _ List.mem_cons_self)
  obtain rfl : b' = b := Option.some.inj (hlookup.symm.trans h)
  change m.entries.Perm (⟨k, b'⟩ :: m.entries.kerase k)
  rw [herase, hentries]
  exact List.perm_middle

theorem Table.entries_insert_erase (m : Table κ β) (k : κ) (b : β) :
    (m.insert k b).entries = ⟨k, b⟩ :: (m.erase k).entries :=
  AList.entries_insert

theorem Table.lookup_of_mem_entries {m : Table κ β} {binding : Sigma fun _ : κ => β}
    (h : binding ∈ m.entries) : m.lookup binding.1 = some binding.2 :=
  List.mem_dlookup m.nodupKeys h

end ParallelN64.Core
