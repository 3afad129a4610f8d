import Mathlib.Data.List.Basic

/-!
# Patches that keep what they replace

A patch owns a range of places of a memory. Before it first writes them it saves what they hold,
and it is taken back by writing the saved values. As long as ranges are separate and everything
else that writes one of these places writes its original value, every patch either has not
written or has saved the original, and when all patches are taken back the memory is the original.
-/

namespace ParallelN64.Core

section Undo

variable {α β : Type}

/-- A patch: its places, and the values it saved if it has. -/
structure Patch (α β : Type) where
  range : List α
  saved : Option (α → β)

/-- Patches of a memory can be undone at some places: what is not saved is still original there,
and what is saved is the original. -/
structure Undoable (base : α → β) (place : α → Prop) (mem : α → β) (patches : List (Patch α β)) :
    Prop where
  separate : patches.Pairwise fun p q => ∀ a ∈ p.range, a ∉ q.range
  fresh : ∀ p ∈ patches, p.saved = none → ∀ a ∈ p.range, place a → mem a = base a
  saved : ∀ p ∈ patches, ∀ value, p.saved = some value → ∀ a ∈ p.range, place a →
    value a = base a
  outside : ∀ a, place a → (∀ p ∈ patches, a ∉ p.range) → mem a = base a

variable {base mem mem' : α → β} {place : α → Prop} {patches front back : List (Patch α β)}
variable {p : Patch α β}

/-- Patches that have saved nothing are undoable. -/
theorem Undoable.start (hseparate : patches.Pairwise fun p q => ∀ a ∈ p.range, a ∉ q.range)
    (hfresh : ∀ p ∈ patches, p.saved = none) (hmem : ∀ a, place a → mem a = base a) :
    Undoable base place mem patches where
  separate := hseparate
  fresh _ _ _ a _ ha := hmem a ha
  saved p hp _ hvalue := absurd ((hfresh p hp).symm.trans hvalue) nofun
  outside a ha _ := hmem a ha

theorem Undoable.overwrite (h : Undoable base place mem patches)
    (hmem : ∀ a, place a → mem' a = mem a ∨ mem' a = base a) :
    Undoable base place mem' patches where
  separate := h.separate
  fresh p hp hnone a ha hplace := by
    rcases hmem a hplace with heq | heq
    · rw [heq]
      exact h.fresh p hp hnone a ha hplace
    · exact heq
  saved := h.saved
  outside a hplace hout := by
    rcases hmem a hplace with heq | heq
    · rw [heq]
      exact h.outside a hplace hout
    · exact heq

theorem Undoable.notMem (h : Undoable base place mem (front ++ p :: back)) {q : Patch α β}
    (hq : q ∈ front ∨ q ∈ back) {a : α} (ha : a ∈ q.range) : a ∉ p.range := by
  obtain ⟨-, htail, hcross⟩ := List.pairwise_append.mp h.separate
  rcases hq with hfront | hback
  · exact hcross q hfront p List.mem_cons_self a ha
  · intro hp
    exact (List.pairwise_cons.mp htail).1 q hback a hp ha

theorem Undoable.separate_update (h : Undoable base place mem (front ++ p :: back))
    (saved : Option (α → β)) :
    (front ++ { p with saved := saved } :: back).Pairwise fun p q => ∀ a ∈ p.range, a ∉ q.range := by
  obtain ⟨hfront, htail, hcross⟩ := List.pairwise_append.mp h.separate
  obtain ⟨hp, hback⟩ := List.pairwise_cons.mp htail
  refine List.pairwise_append.mpr ⟨hfront, List.pairwise_cons.mpr ⟨hp, hback⟩, ?_⟩
  intro q hq r hr
  rcases List.mem_cons.mp hr with rfl | hr
  · exact hcross q hq p List.mem_cons_self
  · exact hcross q hq r (List.mem_cons_of_mem p hr)

theorem Undoable.update (h : Undoable base place mem (front ++ p :: back))
    (saved : Option (α → β)) (hout : ∀ a, a ∉ p.range → mem' a = mem a)
    (hfresh : saved = none → ∀ a ∈ p.range, place a → mem' a = base a)
    (hsaved : ∀ value, saved = some value → ∀ a ∈ p.range, place a → value a = base a) :
    Undoable base place mem' (front ++ { p with saved := saved } :: back) where
  separate := h.separate_update saved
  fresh q hq hnone a ha hplace := by
    rcases List.mem_append.mp hq with hfront | hq
    · rw [hout a (h.notMem (Or.inl hfront) ha)]
      exact h.fresh q (List.mem_append_left _ hfront) hnone a ha hplace
    · rcases List.mem_cons.mp hq with rfl | hback
      · exact hfresh hnone a ha hplace
      · rw [hout a (h.notMem (Or.inr hback) ha)]
        exact h.fresh q (List.mem_append_right _ (List.mem_cons_of_mem _ hback)) hnone a ha hplace
  saved q hq value hvalue a ha hplace := by
    rcases List.mem_append.mp hq with hfront | hq
    · exact h.saved q (List.mem_append_left _ hfront) value hvalue a ha hplace
    · rcases List.mem_cons.mp hq with rfl | hback
      · exact hsaved value hvalue a ha hplace
      · exact h.saved q (List.mem_append_right _ (List.mem_cons_of_mem _ hback)) value hvalue a ha
          hplace
  outside a hplace hnone := by
    have hp : a ∉ p.range := hnone { p with saved := saved }
      (List.mem_append_right _ List.mem_cons_self)
    rw [hout a hp]
    apply h.outside a hplace
    intro q hq
    rcases List.mem_append.mp hq with hfront | hq
    · exact hnone q (List.mem_append_left _ hfront)
    · rcases List.mem_cons.mp hq with rfl | hback
      · exact hp
      · exact hnone q (List.mem_append_right _ (List.mem_cons_of_mem _ hback))

/-- Putting the saved values back keeps the others undoable. -/
theorem Undoable.restore (h : Undoable base place mem (front ++ p :: back)) {value : α → β}
    (hsaved : p.saved = some value) (hout : ∀ a, a ∉ p.range → mem' a = mem a)
    (hin : ∀ a ∈ p.range, mem' a = value a) :
    Undoable base place mem' (front ++ { p with saved := none } :: back) := by
  apply h.update _ hout
  · intro _ a ha hplace
    rw [hin a ha]
    exact h.saved p (List.mem_append_right _ List.mem_cons_self) value hsaved a ha hplace
  · exact fun _ hnone => nomatch hnone

/-- When nothing is saved any more memory is as it was. -/
theorem Undoable.original (h : Undoable base place mem patches)
    (hnone : ∀ p ∈ patches, p.saved = none) {a : α} (ha : place a) : mem a = base a := by
  by_cases hin : ∃ p ∈ patches, a ∈ p.range
  · obtain ⟨p, hp, hrange⟩ := hin
    exact h.fresh p hp (hnone p hp) a hrange ha
  · exact h.outside a ha fun p hp hrange => hin ⟨p, hp, hrange⟩

end Undo

end ParallelN64.Core
