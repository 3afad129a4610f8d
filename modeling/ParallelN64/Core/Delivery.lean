import Mathlib.Data.List.Basic
import Mathlib.Order.Nat

/-!
# Blocks handed on in order

Blocks are accepted one after the other and handed on from the first one on, a piece at a
time. As long as every piece starts where the one before it stopped, what has been handed on
are the blocks that have ended, in the order in which they were accepted, and a beginning of
the block in progress.
-/

namespace ParallelN64.Core

/-- The accepted blocks, how many of them have ended, and what has been handed on. -/
structure Delivery (β : Type*) where
  accepted : List (List β)
  ended : Nat
  handed : List β

namespace Delivery

variable {β : Type*} {t : Delivery β} {block : List β} {done : Nat}

/-- The block that is being handed over. -/
def current (t : Delivery β) : List β := (t.accepted[t.ended]?).getD []

/-- All ended blocks have been handed over, and a front part of the current one. -/
def InOrder (t : Delivery β) : Prop :=
  ∃ done, t.handed = (t.accepted.take t.ended).flatten ++ t.current.take done

/-- The ended blocks were handed on in order, and this much of the one in progress. -/
structure At (t : Delivery β) (done : Nat) : Prop where
  ended_le : t.ended ≤ t.accepted.length
  handed_eq : t.handed = (t.accepted.take t.ended).flatten ++ t.current.take done

/-- Take a block into the queue. -/
def accept (t : Delivery β) (block : List β) : Delivery β :=
  { t with accepted := t.accepted ++ [block] }

/-- Hand over a piece. -/
def hand (t : Delivery β) (piece : List β) : Delivery β := { t with handed := t.handed ++ piece }

/-- End the current block. -/
def finish (t : Delivery β) : Delivery β := { t with ended := t.ended + 1 }

/-- A delivery that stands somewhere is in order. -/
theorem At.inOrder (h : t.At done) : t.InOrder := ⟨done, h.handed_eq⟩

theorem at_empty : At (⟨[], 0, []⟩ : Delivery β) 0 := ⟨Nat.le_refl 0, rfl⟩

theorem current_of_le (h : t.accepted.length ≤ t.ended) : t.current = [] := by
  rw [current, List.getElem?_eq_none h]
  rfl

theorem current_accept_of_lt (h : t.ended < t.accepted.length) :
    (t.accept block).current = t.current := by
  rw [current, current, accept, List.getElem?_append_left h]

theorem At.accept_of_lt (h : t.At done) (hlt : t.ended < t.accepted.length) :
    (t.accept block).At done := by
  constructor
  case ended_le => exact h.ended_le.trans (List.length_append ▸ Nat.le_add_right _ _)
  case handed_eq =>
    rw [current_accept_of_lt hlt, accept, List.take_append_of_le_length h.ended_le]
    exact h.handed_eq

theorem At.accept_of_eq (h : t.At done) (heq : t.ended = t.accepted.length) :
    (t.accept block).At 0 := by
  have hcurrent : t.current = [] := current_of_le heq.ge
  constructor
  case ended_le => exact h.ended_le.trans (List.length_append ▸ Nat.le_add_right _ _)
  case handed_eq =>
    have hhanded := h.handed_eq
    rw [hcurrent, List.take_nil] at hhanded
    rw [List.take_zero, accept, List.take_append_of_le_length h.ended_le]
    exact hhanded

/-- Handing over the next bytes of the block moves on by their number. -/
theorem At.hand (h : t.At done) (size : Nat) :
    (t.hand ((t.current.drop done).take size)).At (done + size) := by
  constructor
  case ended_le => exact h.ended_le
  case handed_eq =>
    have hcurrent : (t.hand ((t.current.drop done).take size)).current = t.current := rfl
    rw [hcurrent, List.take_add, ← List.append_assoc]
    exact congrArg (· ++ (t.current.drop done).take size) h.handed_eq

/-- A block that was handed over whole can end. -/
theorem At.finish (h : t.At done) (hlt : t.ended < t.accepted.length)
    (hall : t.current.length ≤ done) : t.finish.At 0 := by
  constructor
  case ended_le => exact hlt
  case handed_eq =>
    have hget : t.accepted[t.ended]? = some t.current := by
      rw [current, List.getElem?_eq_getElem hlt]
      rfl
    have htake : t.accepted.take (t.ended + 1) = t.accepted.take t.ended ++ [t.current] := by
      rw [List.take_add_one, hget]
      rfl
    have hhanded := h.handed_eq
    rw [List.take_of_length_le hall] at hhanded
    rw [List.take_zero, List.append_nil, Delivery.finish, htake, List.flatten_append,
      List.flatten_singleton]
    exact hhanded

end Delivery

end ParallelN64.Core
