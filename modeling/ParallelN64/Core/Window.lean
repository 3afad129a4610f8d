import Mathlib.Data.List.Infix
import Mathlib.Logic.Function.Basic
import Mathlib.Tactic.Ring

/-!
# Windows of a stream in a circular buffer

A circular buffer keeps a stream position in the slot of its remainder. It holds
the part of the stream that is not more than its size behind the end, and writing
within that bound leaves the held positions alone.
-/

namespace ParallelN64.Core

section Window

variable {α : Type}

/-- A ring holds a stream from a position on. -/
def Window (size : Nat) (slots : Nat → α) (stream : List α) (lo : Nat) : Prop :=
  ∀ pos, lo ≤ pos → ∀ h : pos < stream.length, slots (pos % size) = stream[pos]

/-- Writes elements into the ring. -/
def writeFrom (size : Nat) : (Nat → α) → Nat → List α → Nat → α
  | slots, _, [] => slots
  | slots, pos, a :: as => writeFrom size (Function.update slots (pos % size) a) (pos + 1) as

/-- Reads elements out of the ring. -/
def readFrom (size : Nat) (slots : Nat → α) : Nat → Nat → List α
  | _, 0 => []
  | pos, count + 1 => slots (pos % size) :: readFrom size slots (pos + 1) count

theorem mod_ne_mod_of_lt {size pos pos' : Nat} (hlt : pos < pos') (hsize : pos' < pos + size) :
    pos % size ≠ pos' % size := by
  intro heq
  have hdvd : size ∣ pos' - pos :=
    Nat.dvd_of_mod_eq_zero (Nat.sub_mod_eq_zero_of_mod_eq heq.symm)
  have hle := Nat.le_of_dvd (by omega) hdvd
  omega

theorem writeFrom_of_lt (size : Nat) (slots : Nat → α) (as : List α) {pos end' : Nat}
    (hpos : pos < end') (hsize : end' + as.length ≤ pos + size) :
    writeFrom size slots end' as (pos % size) = slots (pos % size) := by
  induction as generalizing slots end' with
  | nil => rfl
  | cons a as ih =>
    rw [List.length_cons] at hsize
    rw [writeFrom, ih _ (by omega) (by omega)]
    exact Function.update_of_ne (mod_ne_mod_of_lt hpos (by omega)) ..

theorem Window.mono {size : Nat} {slots : Nat → α} {stream : List α} {lo lo' : Nat}
    (hwindow : Window size slots stream lo) (hlo : lo ≤ lo') : Window size slots stream lo' :=
  fun pos hpos h => hwindow pos (Nat.le_trans hlo hpos) h

/-- A write that overtakes no position that is still needed extends the window. -/
theorem Window.write {size : Nat} {slots : Nat → α} {stream : List α} {lo : Nat}
    (hwindow : Window size slots stream lo) (as : List α)
    (hsize : stream.length + as.length ≤ lo + size) :
    Window size (writeFrom size slots stream.length as) (stream ++ as) lo := by
  induction as generalizing slots stream with
  | nil =>
    rw [List.append_nil]
    exact hwindow
  | cons a as ih =>
    rw [List.length_cons] at hsize
    have hstep : Window size (Function.update slots (stream.length % size) a) (stream ++ [a]) lo := by
      intro pos hpos h
      rw [List.length_append, List.length_singleton] at h
      by_cases hlast : pos = stream.length
      · subst hlast
        simp
      · have hlt : pos < stream.length := by omega
        rw [List.getElem_append_left hlt,
          Function.update_of_ne (mod_ne_mod_of_lt hlt (by omega))]
        exact hwindow pos hpos hlt
    have hrest := ih hstep (by rw [List.length_append, List.length_singleton]; omega)
    rw [List.length_append, List.length_singleton, List.append_assoc] at hrest
    exact hrest

/-- A read inside the window gives the stream. -/
theorem Window.read {size : Nat} {slots : Nat → α} {pre as post : List α} {lo : Nat}
    (hwindow : Window size slots (pre ++ as ++ post) lo) (hlo : lo ≤ pre.length) :
    readFrom size slots pre.length as.length = as := by
  induction as generalizing pre with
  | nil => rfl
  | cons a as ih =>
    have hhead := hwindow pre.length hlo (by simp)
    have hrest := @ih (pre ++ [a]) (by simpa using hwindow) (by simp; omega)
    rw [List.length_append, List.length_singleton] at hrest
    rw [List.length_cons, readFrom, hrest, hhead]
    simp

end Window

/-! ## Cutting a range into pieces

A range of numbers is cut into pieces of one size, the last of which may be shorter. The pieces
cover the range once and in order.
-/

section Pieces

/-- Starts and lengths of the pieces from a start on. -/
def pieces (size total start : Nat) : List (Nat × Nat) :=
  if _h : 0 < size ∧ start < total then
    (start, min (total - start) size) :: pieces size total (start + size)
  else []
termination_by total - start

variable {size total start : Nat}

theorem pieces_cons (hsize : 0 < size) (h : start < total) :
    pieces size total start =
      (start, min (total - start) size) :: pieces size total (start + size) := by
  rw [pieces, dif_pos ⟨hsize, h⟩]

theorem pieces_nil (h : total ≤ start) : pieces size total start = [] := by
  rw [pieces, dif_neg (fun hlt => absurd hlt.2 (Nat.not_lt.mpr h))]

theorem flatMap_pieces {size total : Nat} (hsize : 0 < size) (base start : Nat) :
    (pieces size total start).flatMap (fun p => List.range' (base + p.1) p.2) =
      List.range' (base + start) (total - start) := by
  induction start using pieces.induct size total with
  | case1 start h ih =>
    rw [pieces_cons hsize h.2, List.flatMap_cons, ih]
    rcases Nat.le_total (total - start) size with hle | hle
    · have hnone : total - (start + size) = 0 := by omega
      rw [Nat.min_eq_left hle, hnone, List.range'_zero, List.append_nil]
    · rw [Nat.min_eq_right hle, ← Nat.add_assoc]
      have hrange := @List.range'_append_1 (base + start) size (total - (start + size))
      rw [hrange, show size + (total - (start + size)) = total - start by omega]
  | case2 start h =>
    have hle : total ≤ start := Nat.not_lt.mp fun hlt => h ⟨hsize, hlt⟩
    rw [pieces_nil hle, Nat.sub_eq_zero_of_le hle]
    rfl

theorem mem_pieces {p : Nat × Nat} (h : p ∈ pieces size total start) :
    start ≤ p.1 ∧ 0 < p.2 ∧ p.2 ≤ size ∧ p.1 + p.2 ≤ total := by
  induction start using pieces.induct size total with
  | case1 start hlt ih =>
    rw [pieces_cons hlt.1 hlt.2] at h
    rcases List.mem_cons.mp h with rfl | hmem
    · exact ⟨le_rfl, by omega, by omega, by omega⟩
    · obtain ⟨hstart, hrest⟩ := ih hmem
      exact ⟨by omega, hrest⟩
  | case2 start hle =>
    rw [pieces, dif_neg hle] at h
    cases h

theorem full_of_mem_dropLast_pieces {p : Nat × Nat} (h : p ∈ (pieces size total start).dropLast) :
    p.2 = size := by
  induction start using pieces.induct size total with
  | case1 start hlt ih =>
    rw [pieces_cons hlt.1 hlt.2] at h
    rcases Nat.lt_or_ge (start + size) total with hmore | hlast
    · have hne : pieces size total (start + size) ≠ [] := by
        rw [pieces_cons hlt.1 hmore]
        exact List.cons_ne_nil _ _
      rw [List.dropLast_cons_of_ne_nil hne] at h
      rcases List.mem_cons.mp h with rfl | hmem
      · exact Nat.min_eq_right (by omega)
      · exact ih hmem
    · rw [pieces_nil hlast] at h
      cases h
  | case2 start hle =>
    rw [pieces, dif_neg hle] at h
    cases h

end Pieces

end ParallelN64.Core
