import Mathlib.Tactic.Ring
import ParallelN64.Core.RingAlloc
import ParallelN64.Rdp.Coherency

/-!
# Reading pages back through a staging buffer

Where the memory of the GPU cannot be mapped, the pages that the GPU wrote are copied to a staging
buffer, each run of pages together with its write mask, and from there to host memory. The staging
buffer is a ring of pages that all calls share.
-/

namespace ParallelN64.Rdp

open ParallelN64.Core

/-- The ring of staging pages, for a memory of a power of two of pages. Its size is a number of
32 bits. -/
structure StagingReadback where
  logPages : Nat
  stagingReadbackIndex : Nat := 0
  logPages_le : logPages ≤ 17 := by decide

namespace StagingReadback

def numPages (s : StagingReadback) : Nat := 2 ^ s.logPages

def rdramSize (s : StagingReadback) : Nat := s.numPages * 1024

def readbackSize (s : StagingReadback) : Nat := s.rdramSize * numSyncStates

def stagingReadbackPages (s : StagingReadback) : Nat := (s.readbackSize + 1024 - 1) / 1024

/-- Take pages from the ring: their offset in bytes. -/
def takePages (s : StagingReadback) (count : Nat) : Nat × StagingReadback :=
  let dstPageIndex := s.stagingReadbackIndex
  let index := (s.stagingReadbackIndex + count) &&& (s.stagingReadbackPages - 1)
  if index ≠ 0 ∧ index < dstPageIndex then (0, { s with stagingReadbackIndex := count })
  else (dstPageIndex * 1024 % 2 ^ 32, { s with stagingReadbackIndex := index })

end StagingReadback

/-- A copy from the memory of the GPU to the staging buffer. -/
structure BufferCopy where
  srcOffset : Nat
  dstOffset : Nat
  size : Nat

/-- A copy from the staging buffer to host memory, under its write mask. -/
structure ReadbackCopy extends CoherencyCopy where
  srcOffset : Nat
  maskOffset : Nat
  dstOffset : Nat
  size : Nat

/-- What a call hands to the GPU and to the worker thread. -/
structure Readback where
  copies : List BufferCopy := []
  opCopies : List ReadbackCopy := []

/-- Read a run of pages and their write mask back. -/
def StagingReadback.readRun (s : StagingReadback) (run : CoherencyCopy) :
    Readback × StagingReadback :=
  let data := s.takePages run.counters
  let mask := data.2.takePages run.counters
  let copy : BufferCopy :=
    { srcOffset := run.counterBase * 1024, dstOffset := data.1, size := 1024 * run.counters }
  let maskCopy : BufferCopy :=
    { srcOffset := run.counterBase * 1024 + s.rdramSize
      dstOffset := mask.1
      size := 1024 * run.counters }
  ({ copies := [copy, maskCopy]
     opCopies :=
      [{ run with
          srcOffset := copy.dstOffset
          maskOffset := maskCopy.dstOffset
          dstOffset := run.counterBase * 1024
          size := 1024 * run.counters }] },
    mask.2)

def StagingReadback.readRuns (s : StagingReadback) : List CoherencyCopy →
    Readback × StagingReadback
  | [] => ({}, s)
  | run :: runs =>
    let first := s.readRun run
    let rest := first.2.readRuns runs
    ({ copies := first.1.copies ++ rest.1.copies
       opCopies := first.1.opCopies ++ rest.1.opCopies },
      rest.2)

def StagingReadback.resolveCoherencyGpuToHost (s : StagingReadback)
    (pageToPendingReadback : Nat → Bool) : Readback × StagingReadback :=
  s.readRuns (bitRanges ((List.range s.numPages).filter pageToPendingReadback))

/-- Calls one after the other. -/
def StagingReadback.run (s : StagingReadback) : List (Nat → Bool) → List Readback
  | [] => []
  | pages :: calls =>
    let call := s.resolveCoherencyGpuToHost pages
    call.1 :: call.2.run calls

def BufferCopy.region (copy : BufferCopy) : Nat × Nat := (copy.dstOffset, copy.size)

def ReadbackCopy.regions (copy : ReadbackCopy) : List (Nat × Nat) :=
  [(copy.srcOffset, copy.size), (copy.maskOffset, copy.size)]

/-- The regions of a call lie in the staging buffer and apart, and the worker thread reads the
regions that the GPU fills. -/
structure Readback.Sound (r : Readback) (size : Nat) : Prop where
  inside : ∀ copy ∈ r.copies, copy.dstOffset + copy.size ≤ size
  apart : (r.copies.map BufferCopy.region).Pairwise Apart
  same : r.opCopies.flatMap ReadbackCopy.regions = r.copies.map BufferCopy.region

namespace StagingReadback

theorem stagingReadbackPages_eq (s : StagingReadback) :
    s.stagingReadbackPages = 2 ^ (s.logPages + 5) := by
  unfold stagingReadbackPages readbackSize rdramSize numPages
  rw [pow_add]
  change (2 ^ s.logPages * 1024 * 32 + 1024 - 1) / 1024 = _
  omega

variable {s : StagingReadback}

theorem takePages_eq (hindex : s.stagingReadbackIndex < s.stagingReadbackPages) (count : Nat) :
    s.takePages count =
      (1024 * (takeRegion s.stagingReadbackPages s.stagingReadbackIndex count).1,
        { s with stagingReadbackIndex :=
            (takeRegion s.stagingReadbackPages s.stagingReadbackIndex count).2 }) := by
  have hmask : ∀ x, x &&& (s.stagingReadbackPages - 1) = x % s.stagingReadbackPages := by
    intro x
    rw [stagingReadbackPages_eq]
    exact Nat.and_two_pow_sub_one_eq_mod _ _
  have hbytes : s.stagingReadbackIndex * 1024 < 2 ^ 32 := by
    have hle := Nat.pow_le_pow_right (show 0 < 2 by decide)
      (Nat.add_le_add_right s.logPages_le 5)
    rw [stagingReadbackPages_eq] at hindex
    omega
  unfold takePages takeRegion
  simp only [hmask]
  split_ifs
  · rfl
  · rw [Nat.mod_eq_of_lt hbytes, Nat.mul_comm]

theorem readRuns_eq (hindex : s.stagingReadbackIndex < s.stagingReadbackPages)
    (runs : List CoherencyCopy) (hruns : ∀ run ∈ runs, run.counters < s.stagingReadbackPages) :
    ((s.readRuns runs).1.copies.map BufferCopy.region =
        (takeRegions s.stagingReadbackPages s.stagingReadbackIndex
          (runs.flatMap fun run => [run.counters, run.counters])).1.map
          fun region => (1024 * region.1, 1024 * region.2)) ∧
      (s.readRuns runs).2 = { s with stagingReadbackIndex :=
        (takeRegions s.stagingReadbackPages s.stagingReadbackIndex
          (runs.flatMap fun run => [run.counters, run.counters])).2 } ∧
      (s.readRuns runs).1.opCopies.flatMap ReadbackCopy.regions =
        (s.readRuns runs).1.copies.map BufferCopy.region := by
  induction runs generalizing s with
  | nil => exact ⟨rfl, rfl, rfl⟩
  | cons run runs ih =>
    have hcount := hruns run List.mem_cons_self
    -- The cursor behind the data, and the one behind the mask.
    let data := takeRegion s.stagingReadbackPages s.stagingReadbackIndex run.counters
    have hdata : data.2 < s.stagingReadbackPages :=
      (takeRegion_inside hcount hindex le_rfl).2
    let mask := takeRegion s.stagingReadbackPages data.2 run.counters
    have hmask : mask.2 < s.stagingReadbackPages := (takeRegion_inside hcount hdata le_rfl).2
    have hfirst : s.takePages run.counters =
        (1024 * data.1, { s with stagingReadbackIndex := data.2 }) := takePages_eq hindex _
    have hsecond : ({ s with stagingReadbackIndex := data.2 } : StagingReadback).takePages
        run.counters = (1024 * mask.1, { s with stagingReadbackIndex := mask.2 }) :=
      takePages_eq hdata _
    obtain ⟨hregions, hlast, hsame⟩ :=
      @ih { s with stagingReadbackIndex := mask.2 } hmask fun r hr =>
        hruns r (List.mem_cons_of_mem _ hr)
    have hread : s.readRun run =
        ({ copies :=
            [{ srcOffset := run.counterBase * 1024, dstOffset := 1024 * data.1
               size := 1024 * run.counters },
             { srcOffset := run.counterBase * 1024 + s.rdramSize, dstOffset := 1024 * mask.1
               size := 1024 * run.counters }]
           opCopies :=
            [{ run with
                srcOffset := 1024 * data.1
                maskOffset := 1024 * mask.1
                dstOffset := run.counterBase * 1024
                size := 1024 * run.counters }] },
          { s with stagingReadbackIndex := mask.2 }) := by
      unfold readRun
      simp only [hfirst, hsecond]
    rw [readRuns, hread]
    refine ⟨?_, hlast, ?_⟩
    · rw [List.map_append, hregions]
      rfl
    · rw [List.flatMap_append, hsame, List.map_append]
      rfl

theorem sum_counters_bitRanges_le (s : StagingReadback) (pages : Nat → Bool) :
    ((bitRanges ((List.range s.numPages).filter pages)).map CoherencyCopy.counters).sum ≤
      s.numPages := by
  have hlength := congrArg List.length
    (flatMap_pages_bitRanges ((List.range s.numPages).filter pages))
  rw [List.length_flatMap] at hlength
  have hpages : (fun run : CoherencyCopy => run.pages.length) = CoherencyCopy.counters := by
    funext run
    rw [CoherencyCopy.pages, List.length_range']
  rw [hpages] at hlength
  rw [hlength]
  exact (List.length_filter_le _ _).trans (List.length_range).le

theorem sum_regions (runs : List CoherencyCopy) :
    (runs.flatMap fun run => [run.counters, run.counters]).sum =
      2 * (runs.map CoherencyCopy.counters).sum := by
  induction runs with
  | nil => rfl
  | cons run runs ih =>
    rw [List.flatMap_cons, List.sum_append, ih, List.map_cons]
    simp only [List.sum_cons, List.sum_nil]
    ring

theorem resolveCoherencyGpuToHost_sound (hindex : s.stagingReadbackIndex < s.stagingReadbackPages)
    (pages : Nat → Bool) :
    (s.resolveCoherencyGpuToHost pages).1.Sound s.readbackSize ∧
      (s.resolveCoherencyGpuToHost pages).2.logPages = s.logPages ∧
      (s.resolveCoherencyGpuToHost pages).2.stagingReadbackIndex < s.stagingReadbackPages := by
  let runs := bitRanges ((List.range s.numPages).filter pages)
  let counts := runs.flatMap fun run => [run.counters, run.counters]
  have hsum : (runs.map CoherencyCopy.counters).sum ≤ s.numPages :=
    s.sum_counters_bitRanges_le pages
  have hring : s.stagingReadbackPages = 32 * s.numPages := by
    rw [stagingReadbackPages_eq, pow_add, Nat.mul_comm]
    rfl
  have hpos : 0 < s.numPages := Nat.two_pow_pos _
  have hmost : s.numPages < s.stagingReadbackPages := by omega
  have hrun : ∀ run ∈ runs, run.counters ≤ s.numPages := fun run hr =>
    (List.single_le_sum (fun _ _ => Nat.zero_le _) _ (List.mem_map_of_mem hr)).trans hsum
  have hcounts : ∀ count ∈ counts, count ≤ s.numPages := by
    intro count hcount
    obtain ⟨run, hr, hmem⟩ := List.mem_flatMap.mp hcount
    rw [List.mem_pair, or_self] at hmem
    rw [hmem]
    exact hrun run hr
  have htwice : counts.sum = 2 * (runs.map CoherencyCopy.counters).sum := sum_regions runs
  obtain ⟨hregions, hlast, hsame⟩ :=
    readRuns_eq hindex runs fun run hr => (hrun run hr).trans_lt hmost
  obtain ⟨hinside, hcursor⟩ := takeRegions_inside hmost hindex hcounts
  have hapart := takeRegions_apart hmost hindex hcounts (by rw [htwice, hring]; omega)
  refine ⟨⟨?_, ?_, hsame⟩, ?_, ?_⟩
  · intro copy hcopy
    have hmem : copy.region ∈ (s.readRuns runs).1.copies.map BufferCopy.region :=
      List.mem_map_of_mem hcopy
    rw [hregions] at hmem
    obtain ⟨region, hregion, heq⟩ := List.mem_map.mp hmem
    have hle := hinside region hregion
    have hbytes : s.readbackSize = 1024 * s.stagingReadbackPages := by
      rw [hring]
      change s.numPages * 1024 * 32 = _
      ring
    rw [BufferCopy.region, Prod.mk.injEq] at heq
    rw [← heq.1, ← heq.2, hbytes, ← Nat.mul_add]
    exact Nat.mul_le_mul_left _ hle
  · change ((s.readRuns runs).1.copies.map BufferCopy.region).Pairwise Apart
    rw [hregions, List.pairwise_map]
    refine hapart.imp fun {a b} hab => ?_
    rcases hab with hlt | hlt
    · exact Or.inl (by dsimp only; omega)
    · exact Or.inr (by dsimp only; omega)
  · change (s.readRuns runs).2.logPages = _
    rw [hlast]
  · change (s.readRuns runs).2.stagingReadbackIndex < _
    rw [hlast]
    exact hcursor

theorem run_sound (hindex : s.stagingReadbackIndex < s.stagingReadbackPages)
    (calls : List (Nat → Bool)) : ∀ readback ∈ s.run calls, readback.Sound s.readbackSize := by
  induction calls generalizing s with
  | nil => exact fun readback h => absurd h List.not_mem_nil
  | cons pages calls ih =>
    obtain ⟨hsound, hlog, hcursor⟩ := resolveCoherencyGpuToHost_sound hindex pages
    have hpages : (s.resolveCoherencyGpuToHost pages).2.stagingReadbackPages =
        s.stagingReadbackPages := by
      rw [stagingReadbackPages_eq, stagingReadbackPages_eq, hlog]
    have hsize : (s.resolveCoherencyGpuToHost pages).2.readbackSize = s.readbackSize := by
      unfold readbackSize rdramSize numPages
      rw [hlog]
    intro readback hreadback
    rcases List.mem_cons.mp hreadback with rfl | hmem
    · exact hsound
    · rw [← hsize]
      exact ih (by rw [hpages]; exact hcursor) readback hmem

/-- From the start of the ring, for every memory and every sequence of calls with any sets of
pages. -/
theorem run_start_sound (logPages : Nat) (hlog : logPages ≤ 17) (calls : List (Nat → Bool)) :
    ∀ readback ∈ StagingReadback.run ⟨logPages, 0, hlog⟩ calls,
      readback.Sound (StagingReadback.readbackSize ⟨logPages, 0, hlog⟩) := by
  refine run_sound ?_ calls
  rw [stagingReadbackPages_eq]
  exact Nat.two_pow_pos _

/-- Three calls for all pages of 8 MiB. -/
theorem run_start_sound_three_calls :
    (StagingReadback.run ⟨13, 0, by decide⟩ (List.replicate 3 fun _ => true)).Forall
      fun readback => readback.Sound (8 * 1024 * 1024 * 32) :=
  List.forall_iff_forall_mem.mpr (run_start_sound 13 (by decide) _)

end StagingReadback

end ParallelN64.Rdp
