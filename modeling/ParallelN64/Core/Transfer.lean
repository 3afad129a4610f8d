import Mathlib.Data.List.Basic
import Mathlib.Logic.Function.Basic

/-!
# Transfers between byte buffers

A memory is a family of named buffers. A transfer moves one byte after the other from a
place or a constant to a place or nowhere, and the memory remembers every place it used.
Bytes that are stored once, from places that are not stored to, come out as they were.
-/

namespace ParallelN64.Core

/-- A byte of a named buffer. -/
structure Place (ρ : Type*) where
  region : ρ
  index : Nat
  deriving DecidableEq

/-- The contents of all buffers. The used places are a ghost. What lies behind the end of
a buffer are bytes of something else. -/
structure Buffers (ρ : Type*) where
  bytes : Place ρ → UInt8
  used : List (Place ρ)

/-- The places lie inside their regions. -/
def Within {ρ : Type*} (size : ρ → Nat) (places : List (Place ρ)) : Prop :=
  ∀ p ∈ places, p.index < size p.region

/-- One byte goes from a place to a place. Without a source a constant is stored, without a
target nothing is. -/
structure Move (ρ : Type*) where
  src : Option (Place ρ)
  dst : Option (Place ρ)
  fill : UInt8

section Transfer

variable {ρ : Type*}

/-- The places a move uses. -/
def Move.places (m : Move ρ) : List (Place ρ) := m.src.toList ++ m.dst.toList

/-- The byte a move stores. -/
def Buffers.value (b : Buffers ρ) (m : Move ρ) : UInt8 :=
  match m.src with
  | some p => b.bytes p
  | none => m.fill

variable [DecidableEq ρ]

/-- Make one move. -/
def Buffers.move (b : Buffers ρ) (m : Move ρ) : Buffers ρ where
  bytes :=
    match m.dst with
    | some p => Function.update b.bytes p (b.value m)
    | none => b.bytes
  used := b.used ++ m.places

/-- Makes the moves in order. -/
def Buffers.moves (b : Buffers ρ) (ms : List (Move ρ)) : Buffers ρ := ms.foldl Buffers.move b

variable (b : Buffers ρ) {m : Move ρ} {p : Place ρ}

@[simp] theorem Buffers.moves_nil : b.moves [] = b := rfl

@[simp] theorem Buffers.moves_cons (m : Move ρ) (ms : List (Move ρ)) :
    b.moves (m :: ms) = (b.move m).moves ms := rfl

@[simp] theorem Buffers.moves_append (ms ms' : List (Move ρ)) :
    b.moves (ms ++ ms') = (b.moves ms).moves ms' :=
  List.foldl_append

theorem Buffers.used_moves (ms : List (Move ρ)) :
    (b.moves ms).used = b.used ++ ms.flatMap Move.places := by
  induction ms generalizing b with
  | nil => simp
  | cons m ms ih =>
    rw [Buffers.moves_cons, ih, List.flatMap_cons]
    exact List.append_assoc ..

theorem Buffers.bytes_move_of_ne {b : Buffers ρ} (h : m.dst ≠ some p) :
    (b.move m).bytes p = b.bytes p := by
  rcases m with ⟨src, dst, fill⟩
  cases dst with
  | none => rfl
  | some q => exact Function.update_of_ne (fun heq => h (congrArg some heq.symm)) ..

theorem Buffers.bytes_move_of_eq {b : Buffers ρ} (h : m.dst = some p) :
    (b.move m).bytes p = b.value m := by
  rcases m with ⟨src, dst, fill⟩
  subst h
  exact Function.update_self ..

theorem Buffers.bytes_moves_of_forall_ne {b : Buffers ρ} {ms : List (Move ρ)}
    (h : ∀ m ∈ ms, m.dst ≠ some p) : (b.moves ms).bytes p = b.bytes p := by
  induction ms generalizing b with
  | nil => rfl
  | cons m ms ih =>
    rw [Buffers.moves_cons, ih fun m' hm' => h m' (List.mem_cons_of_mem m hm')]
    exact Buffers.bytes_move_of_ne (h m List.mem_cons_self)

/-- A place that one move stores to, and none overwrites its source, holds the stored byte. -/
theorem Buffers.bytes_moves_of_mem {b : Buffers ρ} {ms : List (Move ρ)} (hm : m ∈ ms)
    (hdst : m.dst = some p) (honce : ∀ m' ∈ ms, m'.dst = some p → m' = m)
    (hsrc : ∀ q, m.src = some q → ∀ m' ∈ ms, m'.dst ≠ some q) :
    (b.moves ms).bytes p = b.value m := by
  induction ms generalizing b with
  | nil => exact absurd hm List.not_mem_nil
  | cons m' ms ih =>
    rw [Buffers.moves_cons]
    by_cases hlater : m ∈ ms
    · rw [ih hlater (fun k hk => honce k (List.mem_cons_of_mem m' hk))
        fun q hq k hk => hsrc q hq k (List.mem_cons_of_mem m' hk)]
      rcases m with ⟨_ | q, dst, fill⟩
      · rfl
      · exact Buffers.bytes_move_of_ne (hsrc q rfl m' List.mem_cons_self)
    · obtain rfl : m = m' := (List.mem_cons.mp hm).resolve_right hlater
      rw [Buffers.bytes_moves_of_forall_ne, Buffers.bytes_move_of_eq hdst]
      intro k hk heq
      exact hlater (honce k (List.mem_cons_of_mem m hk) heq ▸ hk)

end Transfer

section Loop

variable {ρ : Type*}

/-- The moves of a loop. -/
def loop (count : Nat) (body : Nat → Move ρ) : List (Move ρ) := (List.range count).map body

variable {count : Nat} {body : Nat → Move ρ}

@[simp] theorem mem_loop {m : Move ρ} : m ∈ loop count body ↔ ∃ i < count, body i = m := by
  simp [loop]

theorem within_loop {size : ρ → Nat} (h : ∀ i < count, Within size (body i).places) :
    Within size ((loop count body).flatMap Move.places) := by
  intro p hp
  obtain ⟨m, hm, hmem⟩ := List.mem_flatMap.mp hp
  obtain ⟨i, hi, rfl⟩ := mem_loop.mp hm
  exact h i hi p hmem

variable [DecidableEq ρ]

theorem Buffers.bytes_loop_of_ne {b : Buffers ρ} {p : Place ρ}
    (h : ∀ i < count, (body i).dst ≠ some p) : (b.moves (loop count body)).bytes p = b.bytes p := by
  apply Buffers.bytes_moves_of_forall_ne
  intro m hm
  obtain ⟨i, hi, rfl⟩ := mem_loop.mp hm
  exact h i hi

theorem Buffers.bytes_loop_of_eq {b : Buffers ρ} {p : Place ρ} {i : Nat} (hi : i < count)
    (hdst : (body i).dst = some p) (honce : ∀ j < count, (body j).dst = some p → j = i)
    (hsrc : ∀ q, (body i).src = some q → ∀ j < count, (body j).dst ≠ some q) :
    (b.moves (loop count body)).bytes p = b.value (body i) := by
  apply Buffers.bytes_moves_of_mem (mem_loop.mpr ⟨i, hi, rfl⟩) hdst
  · intro m hm heq
    obtain ⟨j, hj, rfl⟩ := mem_loop.mp hm
    rw [honce j hj heq]
  · intro q hq m hm
    obtain ⟨j, hj, rfl⟩ := mem_loop.mp hm
    exact hsrc q hq j hj

end Loop

section Bounds

variable {ρ : Type*} {size : ρ → Nat}

/-- The moves use no place outside its region. -/
def Inside (size : ρ → Nat) (ms : List (Move ρ)) : Prop := Within size (ms.flatMap Move.places)

@[simp] theorem inside_nil : Inside size [] := fun _ hp => absurd hp List.not_mem_nil

@[simp] theorem inside_append {ms ms' : List (Move ρ)} :
    Inside size (ms ++ ms') ↔ Inside size ms ∧ Inside size ms' := by
  rw [Inside, List.flatMap_append]
  exact List.forall_mem_append

@[simp] theorem inside_cons {m : Move ρ} {ms : List (Move ρ)} :
    Inside size (m :: ms) ↔ Within size m.places ∧ Inside size ms :=
  List.forall_mem_append

variable {count : Nat}

theorem inside_loop {body : Nat → Move ρ} :
    Inside size (loop count body) ↔ ∀ i < count, Within size (body i).places := by
  refine ⟨fun h i hi p hp => h p ?_, within_loop⟩
  exact List.mem_flatMap.mpr ⟨body i, mem_loop.mpr ⟨i, hi, rfl⟩, hp⟩

/-- A read whose value goes nowhere. -/
def look (p : Place ρ) : Move ρ := ⟨some p, none, 0⟩

/-- A store of a byte. -/
def put (p : Place ρ) (value : UInt8) : Move ρ := ⟨none, some p, value⟩

/-- The place some bytes on. -/
def Place.at (p : Place ρ) (i : Nat) : Place ρ := ⟨p.region, p.index + i⟩

/-- `memcpy`. -/
def copy (count : Nat) (dst src : Place ρ) : List (Move ρ) :=
  loop count fun i => ⟨some (src.at i), some (dst.at i), 0⟩

/-- `memset`. -/
def fillWith (count : Nat) (dst : Place ρ) (value : UInt8) : List (Move ρ) :=
  loop count fun i => put (dst.at i) value

@[simp] theorem within_look {p : Place ρ} :
    Within size (look p).places ↔ p.index < size p.region := by
  simp [Within, look, Move.places]

@[simp] theorem within_put {p : Place ρ} {value : UInt8} :
    Within size (put p value).places ↔ p.index < size p.region := by
  simp [Within, put, Move.places]

theorem forall_add_lt_iff {index bound : Nat} (h : 0 < count) :
    (∀ i < count, index + i < bound) ↔ index + count ≤ bound := by
  refine ⟨fun hall => ?_, fun hle i hi => by omega⟩
  have hlast := hall (count - 1) (by omega)
  omega

theorem inside_fill {dst : Place ρ} {value : UInt8} (h : 0 < count) :
    Inside size (fillWith count dst value) ↔ dst.index + count ≤ size dst.region := by
  rw [fillWith, inside_loop, ← forall_add_lt_iff h]
  exact forall₂_congr fun i _ => within_put

theorem inside_copy {dst src : Place ρ} (h : 0 < count) :
    Inside size (copy count dst src) ↔
      src.index + count ≤ size src.region ∧ dst.index + count ≤ size dst.region := by
  rw [copy, inside_loop, ← forall_add_lt_iff h, ← forall_add_lt_iff h]
  have hbody : ∀ i, Within size (Move.mk (some (src.at i)) (some (dst.at i)) 0).places ↔
      src.index + i < size src.region ∧ dst.index + i < size dst.region := by
    intro i
    simp [Within, Move.places, Place.at]
  simp only [hbody]
  exact ⟨fun hall => ⟨fun i hi => (hall i hi).1, fun i hi => (hall i hi).2⟩,
    fun hall i hi => ⟨hall.1 i hi, hall.2 i hi⟩⟩

end Bounds

end ParallelN64.Core
