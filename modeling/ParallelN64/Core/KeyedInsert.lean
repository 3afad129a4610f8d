import Mathlib.Data.List.Perm.Basic

/-!
# Insertion in front of the first element that comes later

A list is filled by inserting each new element in front of the first element it must
precede, or at the end. When precedence is decided by a rank, and some elements are never
moved forward, no element of the filled list stands behind one it must precede, and filling
gives back exactly the lists that are orderly in this sense.
-/

namespace ParallelN64.Core

variable {α β : Type*}

/-- Inserts before the first element that passes a test. -/
def insertBefore (test : α → Bool) (x : α) : List α → List α
  | [] => [x]
  | y :: ys => if test y then x :: y :: ys else y :: insertBefore test x ys

@[simp] theorem insertBefore_nil (test : α → Bool) (x : α) : insertBefore test x [] = [x] := rfl

variable {test : α → Bool}

theorem insertBefore_cons_of_pos {x y : α} {ys : List α} (h : test y = true) :
    insertBefore test x (y :: ys) = x :: y :: ys := by
  rw [insertBefore, if_pos h]

theorem insertBefore_cons_of_neg {x y : α} {ys : List α} (h : test y = false) :
    insertBefore test x (y :: ys) = y :: insertBefore test x ys := by
  rw [insertBefore, if_neg (by simp [h])]

theorem insertBefore_perm (test : α → Bool) (x : α) (l : List α) :
    (insertBefore test x l).Perm (x :: l) := by
  induction l with
  | nil => exact List.Perm.refl _
  | cons y ys ih =>
    rw [insertBefore]
    split
    · exact List.Perm.refl _
    · exact (ih.cons y).trans (List.Perm.swap x y ys)

@[simp] theorem mem_insertBefore {x z : α} {l : List α} :
    z ∈ insertBefore test x l ↔ z = x ∨ z ∈ l := by
  rw [(insertBefore_perm test x l).mem_iff, List.mem_cons]

theorem insertBefore_of_forall {x : α} {l : List α} (h : ∀ y ∈ l, test y = false) :
    insertBefore test x l = l ++ [x] := by
  induction l with
  | nil => rfl
  | cons y ys ih =>
    rw [insertBefore_cons_of_neg (h y List.mem_cons_self),
      ih fun z hz => h z (List.mem_cons_of_mem y hz), List.cons_append]

theorem map_insertBefore {f : α → β} {test' : β → Bool} (h : ∀ y, test y = test' (f y)) (x : α)
    (l : List α) : (insertBefore test x l).map f = insertBefore test' (f x) (l.map f) := by
  induction l with
  | nil => rfl
  | cons y ys ih =>
    rw [List.map_cons, insertBefore, insertBefore, h y]
    split
    · rfl
    · rw [List.map_cons, ih]

section Ranked

variable (movable : α → Bool) (rank : α → Nat)

/-- The element moves ahead of another. -/
def precedes (x y : α) : Bool := movable x && decide (rank x < rank y)

/-- No element would move ahead of an earlier one. -/
def Orderly (l : List α) : Prop :=
  l.Pairwise fun earlier later => precedes movable rank later earlier = false

variable {movable rank}

theorem precedes_iff {x y : α} :
    precedes movable rank x y = true ↔ movable x = true ∧ rank x < rank y := by
  rw [precedes, Bool.and_eq_true, decide_eq_true_iff]

/-- Insertion keeps the order. -/
theorem orderly_insertBefore {l : List α} (h : Orderly movable rank l) (x : α) :
    Orderly movable rank (insertBefore (precedes movable rank x) x l) := by
  induction l with
  | nil => exact List.pairwise_singleton _ x
  | cons y ys ih =>
    obtain ⟨hy, hys⟩ := List.pairwise_cons.mp h
    cases hxy : precedes movable rank x y with
    | true =>
      rw [insertBefore_cons_of_pos hxy]
      obtain ⟨-, hlt⟩ := precedes_iff.mp hxy
      refine List.pairwise_cons.mpr ⟨fun z hz => ?_, h⟩
      rw [← Bool.not_eq_true]
      intro hzx
      obtain ⟨hmov, hzlt⟩ := precedes_iff.mp hzx
      rcases List.mem_cons.mp hz with rfl | hz
      · omega
      · have hzy : precedes movable rank z y = true := precedes_iff.mpr ⟨hmov, by omega⟩
        rw [hy z hz] at hzy
        exact Bool.false_ne_true hzy
    | false =>
      rw [insertBefore_cons_of_neg hxy]
      refine List.pairwise_cons.mpr ⟨fun z hz => ?_, ih hys⟩
      rcases mem_insertBefore.mp hz with rfl | hz
      · exact hxy
      · exact hy z hz

/-- Inserts the elements one after the other. -/
def fill (movable : α → Bool) (rank : α → Nat) (acc : List α) (l : List α) : List α :=
  l.foldl (fun acc x => insertBefore (precedes movable rank x) x acc) acc

theorem orderly_fill {acc : List α} (h : Orderly movable rank acc) (l : List α) :
    Orderly movable rank (fill movable rank acc l) := by
  induction l generalizing acc with
  | nil => exact h
  | cons x l ih => exact ih (orderly_insertBefore h x)

theorem fill_eq_append {acc l : List α} (h : Orderly movable rank (acc ++ l)) :
    fill movable rank acc l = acc ++ l := by
  induction l generalizing acc with
  | nil => exact (List.append_nil acc).symm
  | cons x l ih =>
    have hx : insertBefore (precedes movable rank x) x acc = acc ++ [x] :=
      insertBefore_of_forall fun y hy =>
        (List.pairwise_append.mp h).2.2 y hy x List.mem_cons_self
    have hrest : Orderly movable rank ((acc ++ [x]) ++ l) := by
      rw [List.append_assoc, List.singleton_append]
      exact h
    rw [fill, List.foldl_cons, hx]
    exact (ih hrest).trans (by rw [List.append_assoc, List.singleton_append])

/-- Filling keeps exactly the orderly lists as they are. -/
theorem fill_nil_eq_iff {l : List α} : fill movable rank [] l = l ↔ Orderly movable rank l := by
  constructor
  · intro h
    have hnil : Orderly movable rank [] := List.Pairwise.nil
    have horderly := orderly_fill hnil l
    rwa [h] at horderly
  · intro h
    have hnil : Orderly movable rank ([] ++ l) := h
    exact fill_eq_append hnil

end Ranked

end ParallelN64.Core
