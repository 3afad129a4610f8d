import ParallelN64.Core.Transfer

/-!
# Transfers in rows

A transfer in rows repeats a row of moves. Two transfers that make the same moves in different
orders leave the same bytes, as long as every place is the target of one move and no source is a
target.
-/

namespace ParallelN64.Core

variable {ρ : Type*}

/-- The moves of all rows, upwards. -/
def rows (count : Nat) (row : Nat → List (Move ρ)) : List (Move ρ) :=
  (List.range count).flatMap row

/-- The moves of all rows, downwards. -/
def rowsDown (count : Nat) (row : Nat → List (Move ρ)) : List (Move ρ) :=
  (List.range count).reverse.flatMap row

@[simp] theorem mem_rows {count : Nat} {row : Nat → List (Move ρ)} {m : Move ρ} :
    m ∈ rows count row ↔ ∃ j < count, m ∈ row j := by
  simp [rows]

@[simp] theorem mem_rowsDown {count : Nat} {row : Nat → List (Move ρ)} {m : Move ρ} :
    m ∈ rowsDown count row ↔ ∃ j < count, m ∈ row j := by
  simp [rowsDown]

/-- The turns of a loop that runs at least once. -/
def turns (step length : Nat) : Nat := max 1 ((length + step - 1) / step)

theorem turns_mul {step count : Nat} (hstep : 0 < step) (hcount : 0 < count) :
    turns step (step * count) = count := by
  have hsum : step * count + step - 1 = step - 1 + step * count := by omega
  rw [turns, hsum, Nat.add_mul_div_left _ _ hstep, Nat.div_eq_of_lt (by omega), Nat.zero_add]
  exact Nat.max_eq_right hcount

section Bytes

variable [DecidableEq ρ] {b : Buffers ρ} {ms ms' : List (Move ρ)}

/-- Moves that do not meet may be made in any order. -/
theorem Buffers.bytes_moves_congr (hsame : ∀ m, m ∈ ms ↔ m ∈ ms')
    (honce : ∀ m ∈ ms, ∀ m' ∈ ms, m.dst ≠ none → m'.dst = m.dst → m' = m)
    (hsrc : ∀ m ∈ ms, ∀ q, m.src = some q → ∀ m' ∈ ms, m'.dst ≠ some q) :
    (b.moves ms).bytes = (b.moves ms').bytes := by
  ext1 p
  by_cases hp : ∃ m ∈ ms, m.dst = some p
  · obtain ⟨m, hm, hdst⟩ := hp
    have hne : m.dst ≠ none := by simp [hdst]
    rw [Buffers.bytes_moves_of_mem hm hdst (fun m' hm' h => honce m hm m' hm' hne (h.trans hdst.symm))
      (hsrc m hm)]
    rw [Buffers.bytes_moves_of_mem ((hsame m).mp hm) hdst
      (fun m' hm' h => honce m hm m' ((hsame m').mpr hm') hne (h.trans hdst.symm))
      fun q hq m' hm' => hsrc m hm q hq m' ((hsame m').mpr hm')]
  · have hnone : ∀ m ∈ ms, m.dst ≠ some p := fun m hm h => hp ⟨m, hm, h⟩
    rw [Buffers.bytes_moves_of_forall_ne hnone,
      Buffers.bytes_moves_of_forall_ne fun m hm => hnone m ((hsame m).mpr hm)]

theorem Buffers.value_move {m m' : Move ρ} (h : ∀ q, m'.src = some q → m.dst ≠ some q) :
    (b.move m).value m' = b.value m' := by
  rcases m' with ⟨_ | q, dst, fill⟩
  · rfl
  · exact Buffers.bytes_move_of_ne (h q rfl)

theorem Buffers.bytes_moves_of_forall_dst {value : UInt8} {p : Place ρ}
    (hvalue : ∀ m ∈ ms, m.dst = some p → b.value m = value)
    (hsrc : ∀ m ∈ ms, ∀ q, m.src = some q → ∀ m' ∈ ms, m'.dst ≠ some q)
    (hp : ∃ m ∈ ms, m.dst = some p) : (b.moves ms).bytes p = value := by
  induction ms generalizing b with
  | nil =>
    obtain ⟨m, hm, -⟩ := hp
    cases hm
  | cons m ms ih =>
    rw [Buffers.moves_cons]
    by_cases hlater : ∃ m' ∈ ms, m'.dst = some p
    · apply ih _ _ hlater
      · intro m' hm' hdst
        rw [Buffers.value_move fun q hq =>
          hsrc m' (List.mem_cons_of_mem _ hm') q hq m List.mem_cons_self]
        exact hvalue m' (List.mem_cons_of_mem _ hm') hdst
      · intro m' hm' q hq k hk
        exact hsrc m' (List.mem_cons_of_mem _ hm') q hq k (List.mem_cons_of_mem _ hk)
    · have hnone : ∀ m' ∈ ms, m'.dst ≠ some p := fun m' hm' h => hlater ⟨m', hm', h⟩
      obtain ⟨m', hm', hdst⟩ := hp
      rcases List.mem_cons.mp hm' with rfl | hm'
      · rw [Buffers.bytes_moves_of_forall_ne hnone, Buffers.bytes_move_of_eq hdst]
        exact hvalue _ List.mem_cons_self hdst
      · exact absurd hdst (hnone m' hm')

theorem Buffers.bytes_moves_of_forall_value {value : UInt8} {p : Place ρ}
    (hvalue : ∀ m ∈ ms, b.value m = value)
    (hsrc : ∀ m ∈ ms, ∀ q, m.src = some q → ∀ m' ∈ ms, m'.dst ≠ some q)
    (hp : ∃ m ∈ ms, m.dst = some p) : (b.moves ms).bytes p = value :=
  Buffers.bytes_moves_of_forall_dst (fun m hm _ => hvalue m hm) hsrc hp

end Bytes

end ParallelN64.Core
