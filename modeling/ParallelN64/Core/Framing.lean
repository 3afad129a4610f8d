import Mathlib.Data.List.Basic

/-!
# Self-delimiting framing

Each item that opens a frame determines how many further items the frame has. A
stream splits into its complete frames and an incomplete tail, and the split does
not depend on the pieces in which the stream arrives.
-/

namespace ParallelN64.Core

section Framing

variable {α : Type} (extra : α → Nat)

/-- The complete frames of a stream and its incomplete tail; an item that opens a frame is
followed by `extra` further items of it. -/
def frames : List α → List (List α) × List α
  | [] => ([], [])
  | a :: as =>
    if as.length < extra a then ([], a :: as)
    else
      let rest := frames (as.drop (extra a))
      ((a :: as.take (extra a)) :: rest.1, rest.2)
termination_by stream => stream.length
decreasing_by simp only [List.length_drop, List.length_cons]; omega

@[simp] theorem frames_nil : frames extra [] = ([], []) := by
  rw [frames]

theorem frames_cons_of_lt {a : α} {as : List α} (h : as.length < extra a) :
    frames extra (a :: as) = ([], a :: as) := by
  rw [frames, if_pos h]

theorem frames_cons_of_le {a : α} {as : List α} (h : extra a ≤ as.length) :
    frames extra (a :: as) =
      ((a :: as.take (extra a)) :: (frames extra (as.drop (extra a))).1,
        (frames extra (as.drop (extra a))).2) := by
  rw [frames, if_neg (by omega)]

theorem frames_of_head? {a : α} {xs : List α} (hhead : xs.head? = some a)
    (h : extra a + 1 ≤ xs.length) :
    frames extra xs =
      (xs.take (extra a + 1) :: (frames extra (xs.drop (extra a + 1))).1,
        (frames extra (xs.drop (extra a + 1))).2) := by
  cases xs with
  | nil => simp at hhead
  | cons b bs =>
    obtain rfl : b = a := by simpa using hhead
    exact frames_cons_of_le extra (by simpa using h)

/-- What is left over is framed with what comes next. -/
theorem frames_append (xs ys : List α) :
    frames extra (xs ++ ys) =
      ((frames extra xs).1 ++ (frames extra ((frames extra xs).2 ++ ys)).1,
        (frames extra ((frames extra xs).2 ++ ys)).2) := by
  induction xs using frames.induct extra with
  | case1 => simp
  | case2 a as hshort =>
    rw [frames_cons_of_lt extra hshort]
    simp
  | case3 a as hlong ih =>
    have hle : extra a ≤ as.length := by omega
    have hle' : extra a ≤ (as ++ ys).length := by simp; omega
    rw [List.cons_append, frames_cons_of_le extra hle', frames_cons_of_le extra hle,
      List.take_append_of_le_length hle, List.drop_append_of_le_length hle, ih]
    rfl

/-- Framing drops nothing and keeps the order. -/
theorem flatten_frames_append_tail (xs : List α) :
    (frames extra xs).1.flatten ++ (frames extra xs).2 = xs := by
  induction xs using frames.induct extra with
  | case1 => simp
  | case2 a as hshort => simp [frames_cons_of_lt extra hshort]
  | case3 a as hlong ih =>
    rw [frames_cons_of_le extra (by omega)]
    simp only [List.flatten_cons, List.cons_append, List.append_assoc, ih, List.take_append_drop]

theorem exists_cons_of_mem_frames {xs frame : List α} (h : frame ∈ (frames extra xs).1) :
    ∃ a as, frame = a :: as ∧ as.length = extra a := by
  induction xs using frames.induct extra with
  | case1 => simp at h
  | case2 a as hshort => simp [frames_cons_of_lt extra hshort] at h
  | case3 a as hlong ih =>
    rw [frames_cons_of_le extra (by omega)] at h
    cases List.mem_cons.mp h with
    | inl hhead => exact ⟨a, as.take (extra a), hhead, by simp; omega⟩
    | inr hrest => exact ih hrest

theorem frames_tail_lt {xs as : List α} {a : α} (h : (frames extra xs).2 = a :: as) :
    as.length < extra a := by
  induction xs using frames.induct extra with
  | case1 => simp at h
  | case2 b bs hshort =>
    rw [frames_cons_of_lt extra hshort] at h
    obtain ⟨rfl, rfl⟩ := List.cons.inj h
    exact hshort
  | case3 b bs hlong ih =>
    rw [frames_cons_of_le extra (by omega)] at h
    exact ih h

theorem frames_tail (xs : List α) : frames extra (frames extra xs).2 = ([], (frames extra xs).2) := by
  cases htail : (frames extra xs).2 with
  | nil => exact frames_nil extra
  | cons a as => exact frames_cons_of_lt extra (frames_tail_lt extra htail)

end Framing

end ParallelN64.Core
