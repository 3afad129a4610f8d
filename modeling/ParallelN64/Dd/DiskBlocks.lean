import Mathlib.Data.List.Nodup
import Mathlib.Data.List.Range
import ParallelN64.Dd.DiskConvert

/-!
# Which blocks the conversion moves

Both heads go through the tracks of a zone beside the list of its bad tracks. The list is used up
exactly if it is a sublist of the tracks, and then the good tracks take the zone's part of the dump
and no more. In the last zone of the dump a list that is not used up leads out of it.
-/

namespace ParallelN64.Dd.Convert

section Walk

variable {size : Nat} {outOf : Nat → Nat} {ts bad : List Nat} {cur block : Nat}

/-- The tracks that are copied, going through the tracks beside the bad ones. -/
def copied : List Nat → List Nat → List Nat
  | [], _ => []
  | track :: ts, bad =>
    if bad.head? = some track then copied ts bad.tail else track :: copied ts bad

def leftover : List Nat → List Nat → List Nat
  | [], bad => bad
  | track :: ts, bad => if bad.head? = some track then leftover ts bad.tail else leftover ts bad

theorem copied_sublist : (copied ts bad).Sublist ts := by
  induction ts generalizing bad with
  | nil => exact List.Sublist.refl _
  | cons track ts ih =>
    rw [copied]
    split
    · exact ih.cons track
    · exact ih.cons_cons track

theorem copied_subset : copied ts bad ⊆ ts := copied_sublist.subset

theorem length_copied :
    (copied ts bad).length + bad.length = ts.length + (leftover ts bad).length := by
  induction ts generalizing bad with
  | nil => simp [copied, leftover]
  | cons track ts ih =>
    rw [copied, leftover]
    by_cases hhead : bad.head? = some track
    · obtain ⟨rest, rfl⟩ := List.head?_eq_some_iff.mp hhead
      rw [if_pos hhead, if_pos hhead, List.length_cons, List.length_cons, List.tail_cons]
      have htail := @ih rest
      omega
    · rw [if_neg hhead, if_neg hhead, List.length_cons, List.length_cons]
      have htail := @ih bad
      omega

theorem leftover_eq_nil_iff : leftover ts bad = [] ↔ bad.Sublist ts := by
  induction ts generalizing bad with
  | nil => exact List.sublist_nil.symm
  | cons track ts ih =>
    rw [leftover]
    by_cases hhead : bad.head? = some track
    · obtain ⟨rest, rfl⟩ := List.head?_eq_some_iff.mp hhead
      rw [if_pos hhead, ih, List.tail_cons, List.cons_sublist_cons]
    · rw [if_neg hhead, ih]
      constructor
      · exact List.Sublist.cons track
      · intro h
        cases h with
        | cons _ h => exact h
        | cons_cons _ h => exact absurd rfl hhead

theorem not_mem_copied_iff (hnodup : ts.Nodup) (hsub : bad.Sublist ts) {track : Nat}
    (htrack : track ∈ ts) : track ∉ copied ts bad ↔ track ∈ bad := by
  induction ts generalizing bad with
  | nil => exact absurd htrack List.not_mem_nil
  | cons first ts ih =>
    obtain ⟨hfirst, hnodup⟩ := List.nodup_cons.mp hnodup
    rw [copied]
    by_cases hhead : bad.head? = some first
    · obtain ⟨rest, rfl⟩ := List.head?_eq_some_iff.mp hhead
      rw [if_pos hhead, List.tail_cons]
      have hrest := List.cons_sublist_cons.mp hsub
      rcases List.mem_cons.mp htrack with rfl | hmem
      · exact ⟨fun _ => List.mem_cons_self, fun _ hcopied => hfirst (copied_subset hcopied)⟩
      · rw [ih hnodup hrest hmem, List.mem_cons]
        constructor
        · exact .inr
        · rintro (rfl | hbad)
          · exact absurd hmem hfirst
          · exact hbad
    · rw [if_neg hhead]
      have hrest : bad.Sublist ts := by
        cases hsub with
        | cons _ h => exact h
        | cons_cons _ h => exact absurd rfl hhead
      rcases List.mem_cons.mp htrack with rfl | hmem
      · constructor
        · exact fun hnot => absurd List.mem_cons_self hnot
        · exact fun hbad => absurd (hrest.subset hbad) hfirst
      · rw [List.mem_cons, not_or, ih hnodup hrest hmem]
        constructor
        · exact fun h => h.2
        · refine fun h => ⟨?_, h⟩
          rintro rfl
          exact hfirst hmem

/-- The moves of both heads: tracks beside the bad ones, with the place that each goes to. -/
def walk (size : Nat) (outOf : Nat → Nat) : List Nat → List Nat → Nat → Nat → List BlockMove
  | [], _, _, _ => []
  | track :: ts, bad, cur, block =>
    if bad.head? = some track then
      trackMoves none none (outOf track) size ++ walk size outOf ts bad.tail cur block
    else if block % 2 = 1 then
      trackMoves (some (cur + size)) (some cur) (outOf track) size ++
        walk size outOf ts bad (cur + size + size) (1 - block)
    else
      trackMoves (some cur) (some (cur + size)) (outOf track) size ++
        walk size outOf ts bad (cur + size + size) (1 - block)

theorem walk_of_bad {track : Nat} (h : bad.head? = some track) :
    walk size outOf (track :: ts) bad cur block =
      trackMoves none none (outOf track) size ++ walk size outOf ts bad.tail cur block :=
  if_pos h

variable (size outOf ts cur block) in

theorem walk_of_good {track : Nat} (h : bad.head? ≠ some track) : ∃ source0 source1,
    (source0 = cur ∧ source1 = cur + size ∨ source0 = cur + size ∧ source1 = cur) ∧
      walk size outOf (track :: ts) bad cur block =
        trackMoves (some source0) (some source1) (outOf track) size ++
          walk size outOf ts bad (cur + size + size) (1 - block) := by
  rw [walk, if_neg h]
  split
  · exact ⟨_, _, .inr ⟨rfl, rfl⟩, rfl⟩
  · exact ⟨_, _, .inl ⟨rfl, rfl⟩, rfl⟩

theorem mem_trackMoves {source0 source1 : Option Nat} {out : Nat} {move : BlockMove} :
    move ∈ trackMoves source0 source1 out size ↔
      move = ⟨source0, out, size⟩ ∨ move = ⟨source1, out + size, size⟩ := by
  simp [trackMoves]

theorem mem_walk (hnodup : ts.Nodup) {move : BlockMove}
    (h : move ∈ walk size outOf ts bad cur block) : move.size = size ∧ ∃ track ∈ ts,
      (move.dest = outOf track ∨ move.dest = outOf track + size) ∧
        (move.source = none ↔ track ∉ copied ts bad) := by
  induction ts generalizing bad cur block with
  | nil => exact absurd h List.not_mem_nil
  | cons first ts ih =>
    obtain ⟨hfirst, hnodup⟩ := List.nodup_cons.mp hnodup
    rw [copied]
    by_cases hhead : bad.head? = some first
    · rw [walk_of_bad hhead] at h
      rw [if_pos hhead]
      rcases List.mem_append.mp h with h | h
      · have hnot : first ∉ copied ts bad.tail := fun hcopied => hfirst (copied_subset hcopied)
        rcases mem_trackMoves.mp h with rfl | rfl
        · exact ⟨rfl, first, List.mem_cons_self, .inl rfl, by simpa using hnot⟩
        · exact ⟨rfl, first, List.mem_cons_self, .inr rfl, by simpa using hnot⟩
      · obtain ⟨hsize, track, hmem, hrest⟩ := ih hnodup h
        exact ⟨hsize, track, List.mem_cons_of_mem _ hmem, hrest⟩
    · obtain ⟨source0, source1, -, hwalk⟩ := walk_of_good size outOf ts cur block hhead
      rw [hwalk] at h
      rw [if_neg hhead]
      rcases List.mem_append.mp h with h | h
      · rcases mem_trackMoves.mp h with rfl | rfl
        · exact ⟨rfl, first, List.mem_cons_self, .inl rfl, by simp⟩
        · exact ⟨rfl, first, List.mem_cons_self, .inr rfl, by simp⟩
      · obtain ⟨hsize, track, hmem, hdest, hsource⟩ := ih hnodup h
        have hne : track ≠ first := by
          rintro rfl
          exact hfirst hmem
        refine ⟨hsize, track, List.mem_cons_of_mem _ hmem, hdest, ?_⟩
        rw [hsource, List.mem_cons, not_or]
        exact ⟨fun hnot => ⟨hne, hnot⟩, fun hnot => hnot.2⟩

theorem exists_mem_walk {track : Nat} (h : track ∈ ts) : ∀ out ∈ [outOf track, outOf track + size],
    ∃ source, ⟨source, out, size⟩ ∈ walk size outOf ts bad cur block := by
  intro out hout
  induction ts generalizing bad cur block with
  | nil => exact absurd h List.not_mem_nil
  | cons first ts ih =>
    obtain ⟨source0, source1, bad', cur', block', hwalk⟩ : ∃ source0 source1 bad' cur' block',
        walk size outOf (first :: ts) bad cur block =
          trackMoves source0 source1 (outOf first) size ++
            walk size outOf ts bad' cur' block' := by
      by_cases hhead : bad.head? = some first
      · exact ⟨_, _, _, _, _, walk_of_bad hhead⟩
      · obtain ⟨source0, source1, -, hwalk⟩ := walk_of_good size outOf ts cur block hhead
        exact ⟨_, _, _, _, _, hwalk⟩
    rw [hwalk]
    rcases List.mem_cons.mp h with rfl | h
    · rcases List.mem_pair.mp hout with rfl | rfl
      · exact ⟨source0, List.mem_append_left _ (mem_trackMoves.mpr (.inl rfl))⟩
      · exact ⟨source1, List.mem_append_left _ (mem_trackMoves.mpr (.inr rfl))⟩
    · obtain ⟨source, hmem⟩ := @ih bad' cur' block' h
      exact ⟨source, List.mem_append_right _ hmem⟩

def Apart (a n b m : Nat) : Prop := a + n ≤ b ∨ b + m ≤ a

def BlockMove.ReadsApart (move other : BlockMove) : Prop :=
  ∀ s, move.source = some s → ∀ s', other.source = some s' → Apart s move.size s' other.size

def BlockMove.WritesApart (move other : BlockMove) : Prop :=
  Apart move.dest move.size other.dest other.size

theorem walk_reads {move : BlockMove} (h : move ∈ walk size outOf ts bad cur block) (s : Nat)
    (hs : move.source = some s) : cur ≤ s ∧
      s + move.size ≤ cur + (copied ts bad).length * (size + size) := by
  induction ts generalizing bad cur block with
  | nil => exact absurd h List.not_mem_nil
  | cons first ts ih =>
    rw [copied]
    by_cases hhead : bad.head? = some first
    · rw [walk_of_bad hhead] at h
      rw [if_pos hhead]
      rcases List.mem_append.mp h with h | h
      · rcases mem_trackMoves.mp h with rfl | rfl
        · exact absurd hs.symm (Option.some_ne_none s)
        · exact absurd hs.symm (Option.some_ne_none s)
      · exact ih h
    · obtain ⟨source0, source1, hsources, hwalk⟩ := walk_of_good size outOf ts cur block hhead
      rw [hwalk] at h
      rw [if_neg hhead, List.length_cons, Nat.succ_mul]
      have hpos := Nat.zero_le ((copied ts bad).length * (size + size))
      rcases List.mem_append.mp h with h | h
      · rcases mem_trackMoves.mp h with rfl | rfl
        · cases hs
          simp only
          omega
        · cases hs
          simp only
          omega
      · have hrest := ih h
        omega

theorem walk_readsApart :
    (walk size outOf ts bad cur block).Pairwise BlockMove.ReadsApart := by
  induction ts generalizing bad cur block with
  | nil => exact List.Pairwise.nil
  | cons first ts ih =>
    by_cases hhead : bad.head? = some first
    · rw [walk_of_bad hhead, List.pairwise_append]
      refine ⟨?_, ih, ?_⟩
      · simp [trackMoves, BlockMove.ReadsApart]
      · intro move hmove other _ s hs
        rcases mem_trackMoves.mp hmove with rfl | rfl
        · exact absurd hs.symm (Option.some_ne_none s)
        · exact absurd hs.symm (Option.some_ne_none s)
    · obtain ⟨source0, source1, hsources, hwalk⟩ := walk_of_good size outOf ts cur block hhead
      rw [hwalk, List.pairwise_append]
      refine ⟨?_, ih, ?_⟩
      · have hpair : Apart source0 size source1 size := by
          unfold Apart
          omega
        simpa [trackMoves, BlockMove.ReadsApart] using hpair
      · intro move hmove other hother s hs s' hs'
        have hrest := (walk_reads hother s' hs').1
        unfold Apart
        rcases mem_trackMoves.mp hmove with rfl | rfl
        · cases hs
          simp only
          omega
        · cases hs
          simp only
          omega

variable (size outOf cur block) in

theorem exists_walk_read (h : copied ts bad ≠ []) :
    ∃ move ∈ walk size outOf ts bad cur block, ∃ s, move.source = some s ∧ move.size = size ∧
      s + size = cur + (copied ts bad).length * (size + size) := by
  induction ts generalizing bad cur block with
  | nil => exact absurd rfl h
  | cons first ts ih =>
    rw [copied] at h ⊢
    by_cases hhead : bad.head? = some first
    · rw [if_pos hhead] at h ⊢
      rw [walk_of_bad hhead]
      obtain ⟨move, hmove, hrest⟩ := @ih bad.tail cur block h
      exact ⟨move, List.mem_append_right _ hmove, hrest⟩
    · obtain ⟨source0, source1, hsources, hwalk⟩ := walk_of_good size outOf ts cur block hhead
      rw [if_neg hhead, hwalk, List.length_cons, Nat.succ_mul]
      by_cases hlast : copied ts bad = []
      · rw [hlast, List.length_nil, Nat.zero_mul]
        rcases hsources with ⟨-, rfl⟩ | ⟨rfl, -⟩
        · exact ⟨_, List.mem_append_left _ (mem_trackMoves.mpr (.inr rfl)), cur + size, rfl, rfl,
            by omega⟩
        · exact ⟨_, List.mem_append_left _ (mem_trackMoves.mpr (.inl rfl)), cur + size, rfl, rfl,
            by omega⟩
      · obtain ⟨move, hmove, s, hs, hsize, hend⟩ := @ih bad (cur + size + size)
          (1 - block) hlast
        exact ⟨move, List.mem_append_right _ hmove, s, hs, hsize, by omega⟩

theorem walk_writesApart (hnodup : ts.Nodup)
    (hout : ∀ t ∈ ts, ∀ t' ∈ ts, t ≠ t' → Apart (outOf t) (size + size) (outOf t') (size + size)) :
    (walk size outOf ts bad cur block).Pairwise BlockMove.WritesApart := by
  induction ts generalizing bad cur block with
  | nil => exact List.Pairwise.nil
  | cons first ts ih =>
    obtain ⟨hfirst, hnodup'⟩ := List.nodup_cons.mp hnodup
    have hrest (bad' : List Nat) (cur' block' : Nat) := @ih bad' cur' block' hnodup'
      fun t ht t' ht' => hout t (List.mem_cons_of_mem _ ht) t' (List.mem_cons_of_mem _ ht')
    have hstep (source0 source1 : Option Nat) (bad' : List Nat) (cur' block' : Nat) :
        (trackMoves source0 source1 (outOf first) size ++
          walk size outOf ts bad' cur' block').Pairwise BlockMove.WritesApart := by
      rw [List.pairwise_append]
      refine ⟨?_, hrest bad' cur' block', ?_⟩
      · simp [trackMoves, BlockMove.WritesApart, Apart]
      · intro move hmove other hother
        obtain ⟨hsize, t, ht, hdest, -⟩ := mem_walk hnodup' hother
        have hne : first ≠ t := by
          rintro rfl
          exact hfirst ht
        have hapart := hout first List.mem_cons_self t (List.mem_cons_of_mem _ ht) hne
        unfold Apart at hapart
        rw [BlockMove.WritesApart, hsize]
        unfold Apart
        rcases mem_trackMoves.mp hmove with rfl | rfl
        · simp only
          omega
        · simp only
          omega
    by_cases hhead : bad.head? = some first
    · rw [walk_of_bad hhead]
      exact hstep _ _ _ _ _
    · obtain ⟨source0, source1, -, hwalk⟩ := walk_of_good size outOf ts cur block hhead
      rw [hwalk]
      exact hstep _ _ _ _ _

end Walk

end ParallelN64.Dd.Convert
