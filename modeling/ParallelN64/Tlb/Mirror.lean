import ParallelN64.Core.CoverTable
import ParallelN64.Tlb.Entries

/-!
# The tables mirror the entries

A page is in a table exactly when a valid half that may be mapped covers it and has not lost
it since it was written: replacing another entry takes all pages out that its valid halves
cover, also those of other entries.
-/

namespace ParallelN64.Tlb

open ParallelN64.Core R4300 Savestate

def base (p : Page) : Word := p.setWidth 32 <<< 12

def Aligned (address : Word) : Prop := address.toNat % 0x1000 = 0

theorem toNat_base (p : Page) : (base p).toNat = p.toNat * 0x1000 := by
  have hlt := p.isLt
  rw [base, BitVec.toNat_shiftLeft, BitVec.toNat_setWidth, Nat.shiftLeft_eq]
  omega

theorem aligned_base (p : Page) : Aligned (base p) := by
  rw [Aligned, toNat_base]
  omega

theorem toNat_page (address : Word) : (page address).toNat = address.toNat / 0x1000 := by
  have hlt := address.isLt
  rw [page, BitVec.toNat_setWidth, BitVec.toNat_ushiftRight, Nat.shiftRight_eq_div_pow]
  omega

variable {p : Page}

theorem page_eq_iff {address : Word} (h : Aligned address) :
    page address = p ↔ address = base p := by
  rw [← BitVec.toNat_inj, ← BitVec.toNat_inj, toNat_page, toNat_base]
  rw [Aligned] at h
  omega

variable {i stop : Word} {luts luts' : Luts} {h : Half} {e : TlbEntry} {t' : TlbState}
variable {idx : Fin 32} {regs : TlbRegs} {pc : Word} {g : Traced} {instr : TlbInstr}
variable {instrs : List TlbInstr}

theorem aligned_succ (h : Aligned i) : Aligned (i + 0x1000#32) := by
  have hlt := i.isLt
  rw [Aligned, BitVec.toNat_add] at *
  have hpage : (0x1000#32).toNat = 0x1000 := rfl
  omega

theorem loopPages_eq_none {turns : Nat} (hi : Aligned i) (hstop : 0xFFFFF000 < stop.toNat) :
    loopPages turns i stop = none := by
  have hlt : i < stop := by
    have hmax := i.isLt
    rw [Aligned] at hi
    rw [BitVec.lt_def]
    omega
  induction turns generalizing i with
  | zero => rw [loopPages, if_pos hlt]
  | succ turns ih =>
    have hnext := aligned_succ hi
    have hlt' : i + 0x1000#32 < stop := by
      have hmax := (i + 0x1000#32).isLt
      rw [Aligned] at hnext
      rw [BitVec.lt_def]
      omega
    rw [loopPages, if_pos hlt, ih hnext hlt', Option.map_none]

theorem lt_of_between {j : Word} (hle : i ≤ j) (hlt : j < stop) : i < stop :=
  BitVec.lt_def.mpr (Nat.lt_of_le_of_lt (BitVec.le_def.mp hle) (BitVec.lt_def.mp hlt))

theorem mem_loopPages {turns : Nat} (hi : Aligned i) {l : List Word}
    (h : loopPages turns i stop = some l) {j : Word} : j ∈ l ↔ Aligned j ∧ i ≤ j ∧ j < stop := by
  induction turns generalizing i l with
  | zero =>
    rw [loopPages] at h
    split_ifs at h with hlt
    obtain rfl := Option.some.inj h
    refine iff_of_false List.not_mem_nil ?_
    rintro ⟨-, hle, hstop⟩
    exact hlt (lt_of_between hle hstop)
  | succ turns ih =>
    rw [loopPages] at h
    split_ifs at h with hlt
    · obtain ⟨rest, hrest, rfl⟩ := Option.map_eq_some_iff.mp h
      have hnext := aligned_succ hi
      have hstop : stop.toNat ≤ 0xFFFFF000 := by
        by_contra hgt
        rw [loopPages_eq_none hnext (by omega)] at hrest
        exact absurd hrest.symm (Option.some_ne_none rest)
      have hlt' := BitVec.lt_def.mp hlt
      have hsum : (i + 0x1000#32).toNat = i.toNat + 0x1000 :=
        BitVec.toNat_add_of_lt (by
          have hpage : (0x1000#32).toNat = 0x1000 := rfl
          omega)
      rw [List.mem_cons, ih hnext hrest]
      simp only [BitVec.le_def, BitVec.lt_def, Aligned, hsum, ← BitVec.toNat_inj]
      rw [Aligned] at hi
      omega
    · obtain rfl := Option.some.inj h
      refine iff_of_false List.not_mem_nil ?_
      rintro ⟨-, hle, hstop⟩
      exact hlt (lt_of_between hle hstop)

theorem foldl_update (pages : List Word) (halign : ∀ i ∈ pages, Aligned i) (lut : Lut)
    (value : Word → Word) (p : Page) :
    pages.foldl (fun lut i => Function.update lut (page i) (value i)) lut p =
      if base p ∈ pages then value (base p) else lut p := by
  induction pages generalizing lut with
  | nil => exact (if_neg List.not_mem_nil).symm
  | cons i pages ih =>
    have hi := halign i List.mem_cons_self
    rw [List.foldl_cons, ih fun j hj => halign j (List.mem_cons_of_mem i hj)]
    by_cases hmem : base p ∈ pages
    · rw [if_pos hmem, if_pos (List.mem_cons_of_mem i hmem)]
    · rw [if_neg hmem]
      by_cases heq : page i = p
      · have hbase := (page_eq_iff hi).mp heq
        rw [← heq, Function.update_self, heq, ← hbase, if_pos List.mem_cons_self]
      · rw [Function.update_of_ne (Ne.symm heq), if_neg]
        rintro hcons
        rcases List.mem_cons.mp hcons with hbase | hrest
        · exact heq ((page_eq_iff hi).mpr hbase.symm)
        · exact hmem hrest

def inRange (start stop : Word) (p : Page) : Bool := start ≤ base p && base p < stop

theorem storePages_apply {lut lut' : Lut} {start : Word} {value : Word → Word}
    (hstart : Aligned start) (h : storePages lut start stop value = some lut') (p : Page) :
    lut' p = if inRange start stop p then value (base p) else lut p := by
  obtain ⟨pages, hpages, rfl⟩ := Option.map_eq_some_iff.mp h
  have hmem : ∀ j, j ∈ pages ↔ Aligned j ∧ start ≤ j ∧ j < stop :=
    fun j => mem_loopPages hstart hpages
  rw [foldl_update pages (fun i hi => ((hmem i).mp hi).1)]
  refine if_congr ?_ rfl rfl
  rw [hmem, inRange, Bool.and_eq_true, decide_eq_true_eq, decide_eq_true_eq]
  exact and_iff_right (aligned_base p)

/-- Which of the two tables. -/
inductive Access where
  | read | write
  deriving DecidableEq

def Luts.of (luts : Luts) : Access → Lut
  | .read => luts.r
  | .write => luts.w

def active (k : Access) (h : Half) : Bool := h.v ≠ 0#8 && (k = .read || h.d ≠ 0#8)

def halfCovers (k : Access) (h : Half) (p : Page) : Bool := active k h && inRange h.start h.stop p

def halfMaps (k : Access) (h : Half) (p : Page) : Bool := halfCovers k h p && mappable h

theorem storeHalf_apply {value : Word → Word} (hv : h.v ≠ 0#8) (hstart : Aligned h.start)
    (hstore : storeHalf luts h value = some luts') (k : Access) (p : Page) :
    luts'.of k p = if halfCovers k h p then value (base p) else luts.of k p := by
  obtain ⟨r, hr, hrest⟩ := Option.bind_eq_some_iff.mp hstore
  have hread := storePages_apply hstart hr p
  have hvalid : decide (h.v ≠ 0#8) = true := decide_eq_true hv
  split_ifs at hrest with hd
  · obtain ⟨w, hw, rfl⟩ := Option.map_eq_some_iff.mp hrest
    have hwrite := storePages_apply hstart hw p
    have hdirty : decide (h.d ≠ 0#8) = true := decide_eq_true hd
    cases k with
    | read => simpa [halfCovers, active, hvalid, Luts.of] using hread
    | write => simpa [halfCovers, active, hvalid, hdirty, Luts.of] using hwrite
  · obtain rfl := Option.some.inj hrest
    have hclean : h.d = 0#8 := not_not.mp hd
    cases k with
    | read => simpa [halfCovers, active, hvalid, Luts.of] using hread
    | write => simp [halfCovers, active, hclean, Luts.of]

theorem unmapHalf_apply (hstart : Aligned h.start) (hunmap : unmapHalf luts h = some luts')
    (k : Access) (p : Page) : luts'.of k p = if halfCovers k h p then 0#32 else luts.of k p := by
  rw [unmapHalf] at hunmap
  split_ifs at hunmap with hv
  · exact storeHalf_apply hv hstart hunmap k p
  · obtain rfl := Option.some.inj hunmap
    have hinvalid : h.v = 0#8 := not_not.mp hv
    simp [halfCovers, active, hinvalid]

theorem mapHalf_apply (hstart : Aligned h.start) (hmap : mapHalf luts h = some luts') (k : Access)
    (p : Page) : luts'.of k p = if halfMaps k h p then mappedValue h (base p) else luts.of k p := by
  rw [mapHalf] at hmap
  split_ifs at hmap with hv hmappable
  · rw [storeHalf_apply hv hstart hmap k p, halfMaps, hmappable, Bool.and_true]
  · obtain rfl := Option.some.inj hmap
    have hnot : mappable h = false := Bool.eq_false_iff.mpr hmappable
    simp [halfMaps, hnot]
  · obtain rfl := Option.some.inj hmap
    have hinvalid : h.v = 0#8 := not_not.mp hv
    simp [halfMaps, halfCovers, active, hinvalid]

def entryCovers (k : Access) (e : TlbEntry) (p : Page) : Bool :=
  halfCovers k (even e) p || halfCovers k (odd e) p

def entryValue (k : Access) (e : TlbEntry) (p : Page) : Option Word :=
  if halfMaps k (odd e) p then some (mappedValue (odd e) (base p))
  else if halfMaps k (even e) p then some (mappedValue (even e) (base p))
  else none

def Starts (e : TlbEntry) : Prop := Aligned e.startEven ∧ Aligned e.startOdd

variable {k : Access}

theorem halfCovers_of_halfMaps (hmaps : halfMaps k h p = true) : halfCovers k h p = true :=
  ((Bool.and_eq_true ..).mp hmaps).1

/-- How entries cover pages. -/
def coverage (k : Access) : Coverage TlbEntry Page Word where
  covers e p := entryCovers k e p = true
  assigns := entryValue k
  covers_of_assigns := by
    intro e p v hvalue
    rw [entryValue] at hvalue
    rw [entryCovers, Bool.or_eq_true]
    split_ifs at hvalue with hodd heven
    · exact .inr (halfCovers_of_halfMaps hodd)
    · exact .inl (halfCovers_of_halfMaps heven)

theorem tlbUnmap_apply (hstart : Starts e) (h : tlbUnmap luts e = some luts') (k : Access)
    (p : Page) : luts'.of k p = if entryCovers k e p then 0#32 else luts.of k p := by
  obtain ⟨luts₁, heven, hodd⟩ := Option.bind_eq_some_iff.mp h
  rw [unmapHalf_apply hstart.2 hodd k p, unmapHalf_apply hstart.1 heven k p, entryCovers]
  cases halfCovers k (even e) p with
  | true => cases halfCovers k (odd e) p with | _ => rfl
  | false => cases halfCovers k (odd e) p with | _ => rfl

theorem tlbMap_apply (hstart : Starts e) (h : tlbMap luts e = some luts') (k : Access) (p : Page) :
    luts'.of k p = (entryValue k e p).getD (luts.of k p) := by
  obtain ⟨luts₁, heven, hodd⟩ := Option.bind_eq_some_iff.mp h
  rw [mapHalf_apply hstart.2 hodd k p, mapHalf_apply hstart.1 heven k p, entryValue]
  split_ifs <;> rfl

theorem mappedValue_ne_zero (h : Half) (i : Word) : mappedValue h i ≠ 0#32 := by
  intro hzero
  have hbit : mappedValue h i &&& 0x80000000#32 = 0#32 &&& 0x80000000#32 :=
    congrArg (fun v : Word => v &&& 0x80000000#32) hzero
  rw [mappedValue, BitVec.or_comm, or_and_self] at hbit
  exact absurd hbit (by decide)

theorem entryValue_ne_zero {v : Word} (h : entryValue k e p = some v) : v ≠ 0#32 := by
  rw [entryValue] at h
  split_ifs at h
  · obtain rfl := Option.some.inj h
    exact mappedValue_ne_zero _ _
  · obtain rfl := Option.some.inj h
    exact mappedValue_ne_zero _ _

theorem aligned_shift {n : Nat} (hn : 12 ≤ n) (x : Word) : Aligned (x <<< n) := by
  obtain ⟨m, rfl⟩ := Nat.exists_eq_add_of_le hn
  rw [Aligned, BitVec.toNat_shiftLeft, Nat.shiftLeft_eq, Nat.pow_add]
  have hassoc : x.toNat * (2 ^ 12 * 2 ^ m) = x.toNat * 2 ^ m * 0x1000 := by
    rw [Nat.mul_comm (2 ^ 12), ← Nat.mul_assoc]
    rfl
  rw [hassoc]
  omega

theorem starts_entryOf (old : TlbEntry) (regs : TlbRegs) : Starts (entryOf old regs) := by
  let mask := (regs.pageMask &&& 0x1FFE000#32) >>> 13
  let startEven := ((regs.entryHi &&& 0xFFFFE000#32) >>> 13) <<< 13
  have heven : Aligned startEven := aligned_shift (by decide) _
  have hsize : Aligned (mask <<< 12) := aligned_shift (by decide) _
  refine ⟨heven, ?_⟩
  have hodd : Aligned (startEven + mask <<< 12 + 0xFFF#32 + 1#32) := by
    rw [Aligned] at heven hsize
    have hlast : (0xFFF#32).toNat = 0xFFF := rfl
    have hone : (1#32).toNat = 1 := rfl
    rw [Aligned, BitVec.toNat_add, BitVec.toNat_add, BitVec.toNat_add, hlast, hone]
    omega
  exact hodd

theorem tlbWrite_apply {t : TlbState} (hstart : Starts (t.entries idx))
    (hspared : spared (t.entries idx) pc = false) (h : tlbWrite t idx regs pc = some t')
    (k : Access) (p : Page) :
    t'.luts.of k p = (entryValue k (entryOf (t.entries idx) regs) p).getD
      (if entryCovers k (t.entries idx) p then 0#32 else t.luts.of k p) := by
  rw [tlbWrite, hspared, if_neg Bool.false_ne_true] at h
  obtain ⟨luts₁, hunmap, hrest⟩ := Option.bind_eq_some_iff.mp h
  obtain ⟨luts₂, hmap, rfl⟩ := Option.map_eq_some_iff.mp hrest
  refine (tlbMap_apply (starts_entryOf _ _) hmap k p).trans ?_
  rw [tlbUnmap_apply hstart hunmap k p]

theorem entries_tlbWrite {t : TlbState} (hspared : spared (t.entries idx) pc = false)
    (h : tlbWrite t idx regs pc = some t') :
    t'.entries = Function.update t.entries idx (entryOf (t.entries idx) regs) := by
  rw [tlbWrite, hspared, if_neg Bool.false_ne_true] at h
  obtain ⟨luts₁, -, hmap⟩ := Option.bind_eq_some_iff.mp h
  obtain ⟨luts₂, -, rfl⟩ := Option.map_eq_some_iff.mp hmap
  rfl

theorem tlbWrite_of_spared {t : TlbState} (hspared : spared (t.entries idx) pc = true)
    (h : tlbWrite t idx regs pc = some t') : t' = t := by
  rw [tlbWrite, if_pos hspared] at h
  exact (Option.some.inj h).symm

/-- The entries and tables with what was written last, and what entries have lost. -/
structure Traced where
  tlb : TlbState
  written : Fin 32 → Option TlbRegs
  lost : Access → Fin 32 → Page → Bool

def tracedStart : Traced := ⟨poweronTlb, fun _ => none, fun _ _ _ => false⟩

/-- An instruction that spares its entry is not a write. All other entries lose the pages
that the replaced entry covers. -/
def Traced.step (g : Traced) (instr : TlbInstr) : Option Traced :=
  (g.tlb.step instr).bind fun tlb => instr.index.map fun idx =>
    let old := g.tlb.entries idx
    if spared old instr.pc then { g with tlb }
    else
      { tlb
        written := Function.update g.written idx (some instr.regs)
        lost k j p := j ≠ idx && (g.lost k j p || entryCovers k old p) }

def Traced.run (g : Traced) : List TlbInstr → Option Traced
  | [] => some g
  | instr :: instrs => (g.step instr).bind fun g => g.run instrs

theorem step_of_tlb_step (h : g.tlb.step instr = some t') :
    ∃ g', g.step instr = some g' ∧ g'.tlb = t' := by
  obtain ⟨idx, hidx, -⟩ := Option.bind_eq_some_iff.mp h
  rw [Traced.step, h, hidx]
  dsimp only [Option.bind_some, Option.map_some]
  split_ifs
  · exact ⟨_, rfl, rfl⟩
  · exact ⟨_, rfl, rfl⟩

theorem run_of_tlb_run (h : g.tlb.run instrs = some t') :
    ∃ g', g.run instrs = some g' ∧ g'.tlb = t' := by
  induction instrs generalizing g with
  | nil => exact ⟨g, rfl, Option.some.inj h⟩
  | cons instr instrs ih =>
    obtain ⟨t₁, hstep, hrun⟩ := Option.bind_eq_some_iff.mp h
    obtain ⟨g₁, hg₁, rfl⟩ := step_of_tlb_step hstep
    obtain ⟨g', hg', heq⟩ := ih hrun
    exact ⟨g', by rw [Traced.run, hg₁]; exact hg', heq⟩

/-- A table of a traced state, as a table kept along with overlapping entries. -/
def Traced.coverTable (g : Traced) (k : Access) : CoverTable (Fin 32) TlbEntry Page Word where
  entries := g.tlb.entries
  table p := if g.tlb.luts.of k p = 0#32 then none else some (g.tlb.luts.of k p)
  lost j p := g.lost k j p = true

/-- What holds of every state that is reached. -/
structure Consistent (g : Traced) : Prop where
  starts : ∀ idx, Starts (g.tlb.entries idx)
  written : ∀ idx, g.tlb.entries idx = (g.written idx).elim blankEntry (entryOf blankEntry)
  mirrors : ∀ k, Mirrors (coverage k) (g.coverTable k)

theorem consistent_tracedStart : Consistent tracedStart := by
  refine ⟨fun _ => ⟨rfl, rfl⟩, fun _ => rfl, fun k => ⟨?_, ?_⟩⟩
  · intro p v hv
    cases k with
    | read => exact absurd hv.symm (Option.some_ne_none v)
    | write => exact absurd hv.symm (Option.some_ne_none v)
  · intro idx p v hv
    have hnone : entryValue k blankEntry p = none := by
      simp [entryValue, halfMaps, halfCovers, active, even, odd, blankEntry]
    exact absurd (hv.symm.trans hnone) (Option.some_ne_none v)

theorem entryOf_elim (written : Option TlbRegs) (regs : TlbRegs) :
    entryOf (written.elim blankEntry (entryOf blankEntry)) regs = entryOf blankEntry regs := by
  cases written with
  | none => rfl
  | some before => rfl

theorem replaces_step (hstart : Starts (g.tlb.entries idx))
    (hspared : spared (g.tlb.entries idx) instr.pc = false)
    (h : tlbWrite g.tlb idx instr.regs instr.pc = some t') (k : Access)
    {written : Fin 32 → Option TlbRegs} {lost : Access → Fin 32 → Page → Bool}
    (hlost : ∀ j p, lost k j p = (j ≠ idx && (g.lost k j p || entryCovers k (g.tlb.entries idx) p))) :
    Replaces (coverage k) (g.coverTable k) (Traced.coverTable ⟨t', written, lost⟩ k) idx
      (entryOf (g.tlb.entries idx) instr.regs) := by
  have hentries := entries_tlbWrite hspared h
  have happly := tlbWrite_apply hstart hspared h k
  refine ⟨?_, ?_, ?_, ?_, ?_, ?_⟩
  · exact (congrFun hentries idx).trans (Function.update_self ..)
  · intro j hj
    exact (congrFun hentries j).trans (Function.update_of_ne hj ..)
  · intro p v hv
    have hvalue : t'.luts.of k p = v := by
      rw [happly p, show entryValue k _ p = some v from hv, Option.getD_some]
    have hne : ¬ t'.luts.of k p = 0#32 := by
      rw [hvalue]
      exact entryValue_ne_zero hv
    exact (if_neg hne).trans (congrArg some hvalue)
  · intro p hnone hcovers
    have hvalue : t'.luts.of k p = 0#32 := by
      rw [happly p, show entryValue k _ p = none from hnone, Option.getD_none]
      exact if_pos hcovers
    exact if_pos hvalue
  · intro p hnone hcovers
    have hvalue : t'.luts.of k p = g.tlb.luts.of k p := by
      rw [happly p, show entryValue k _ p = none from hnone, Option.getD_none]
      exact if_neg hcovers
    change (if t'.luts.of k p = 0#32 then none else some (t'.luts.of k p)) = _
    rw [hvalue]
    rfl
  · intro j p
    change lost k j p = true ↔ _
    rw [hlost, Bool.and_eq_true, Bool.or_eq_true, decide_eq_true_eq]
    exact Iff.rfl

theorem consistent_step {g' : Traced} (h : Consistent g) (hstep : g.step instr = some g') :
    Consistent g' := by
  obtain ⟨t', htlb, hrest⟩ := Option.bind_eq_some_iff.mp hstep
  obtain ⟨idx, hidx, rfl⟩ := Option.map_eq_some_iff.mp hrest
  obtain ⟨idx', hidx', hwrite⟩ := Option.bind_eq_some_iff.mp htlb
  obtain rfl : idx' = idx := Option.some.inj (hidx'.symm.trans hidx)
  dsimp only
  cases hspared : spared (g.tlb.entries idx') instr.pc with
  | true =>
    obtain rfl := tlbWrite_of_spared hspared hwrite
    exact h
  | false =>
    rw [if_neg Bool.false_ne_true]
    have hentries := entries_tlbWrite hspared hwrite
    refine ⟨?_, ?_, ?_⟩
    · intro j
      rw [hentries]
      by_cases hj : j = idx'
      · rw [hj, Function.update_self]
        exact starts_entryOf _ _
      · rw [Function.update_of_ne hj]
        exact h.starts j
    · intro j
      rw [hentries]
      dsimp only
      by_cases hj : j = idx'
      · rw [hj, Function.update_self, Function.update_self, h.written, entryOf_elim]
        rfl
      · rw [Function.update_of_ne hj, Function.update_of_ne hj]
        exact h.written j
    · intro k
      exact (h.mirrors k).replaces
        (replaces_step (h.starts idx') hspared hwrite k fun _ _ => rfl)

theorem consistent_run {g' : Traced} (h : Consistent g) (hrun : g.run instrs = some g') :
    Consistent g' := by
  induction instrs generalizing g with
  | nil =>
    obtain rfl := Option.some.inj hrun
    exact h
  | cons instr instrs ih =>
    obtain ⟨g₁, hstep, hrest⟩ := Option.bind_eq_some_iff.mp hrun
    exact ih (consistent_step h hstep) hrest

/-- No entry covers a page that another one maps, before any instruction of a run. -/
def StaysApart (t : TlbState) : List TlbInstr → Prop
  | [] => True
  | instr :: instrs =>
    (∀ k, NoOverlap (coverage k) t.entries) ∧ ∀ t', t.step instr = some t' → StaysApart t' instrs

theorem unlost_run {g' : Traced} (h : Consistent g)
    (hunlost : ∀ k, Unlost (coverage k) (g.coverTable k)) (hapart : StaysApart g.tlb instrs)
    (hrun : g.run instrs = some g') (k : Access) : Unlost (coverage k) (g'.coverTable k) := by
  induction instrs generalizing g with
  | nil =>
    obtain rfl := Option.some.inj hrun
    exact hunlost k
  | cons instr instrs ih =>
    obtain ⟨g₁, hstep, hrest⟩ := Option.bind_eq_some_iff.mp hrun
    obtain ⟨hover, hnext⟩ := hapart
    have hconsistent := consistent_step h hstep
    obtain ⟨t', htlb, htraced⟩ := Option.bind_eq_some_iff.mp hstep
    obtain ⟨idx, hidx, rfl⟩ := Option.map_eq_some_iff.mp htraced
    obtain ⟨idx', hidx', hwrite⟩ := Option.bind_eq_some_iff.mp htlb
    obtain rfl : idx' = idx := Option.some.inj (hidx'.symm.trans hidx)
    dsimp only at hrest hconsistent
    cases hspared : spared (g.tlb.entries idx') instr.pc with
    | true =>
      obtain rfl := tlbWrite_of_spared hspared hwrite
      rw [hspared, if_pos rfl] at hrest
      exact ih h hunlost (hnext _ htlb) hrest
    | false =>
      rw [hspared, if_neg Bool.false_ne_true] at hrest hconsistent
      refine ih hconsistent (fun k => ?_) (hnext t' htlb) hrest
      exact (hunlost k).replaces (hover k)
        (replaces_step (h.starts idx') hspared hwrite k fun _ _ => rfl)

def entryMaps (k : Access) (e : TlbEntry) (p : Page) : Bool :=
  halfMaps k (even e) p || halfMaps k (odd e) p

theorem entryValue_ne_none_iff : (∃ v, entryValue k e p = some v) ↔ entryMaps k e p = true := by
  rw [entryValue, entryMaps, Bool.or_eq_true]
  by_cases hodd : halfMaps k (odd e) p = true
  · rw [if_pos hodd]
    exact iff_of_true ⟨_, rfl⟩ (.inr hodd)
  · rw [if_neg hodd]
    by_cases heven : halfMaps k (even e) p = true
    · rw [if_pos heven]
      exact iff_of_true ⟨_, rfl⟩ (.inl heven)
    · rw [if_neg heven]
      refine iff_of_false ?_ (not_or_intro heven hodd)
      rintro ⟨v, hv⟩
      exact absurd hv.symm (Option.some_ne_none v)

theorem half_of_entryValue {v : Word} (h : entryValue k e p = some v) :
    ∃ half, (half = even e ∨ half = odd e) ∧
      halfMaps k half p = true ∧ v = mappedValue half (base p) := by
  rw [entryValue] at h
  split_ifs at h with hodd heven
  · exact ⟨odd e, .inr rfl, hodd, (Option.some.inj h).symm⟩
  · exact ⟨even e, .inl rfl, heven, (Option.some.inj h).symm⟩

theorem aligned_phys (written : Option TlbRegs) {half : Half}
    (h : half = even (written.elim blankEntry (entryOf blankEntry)) ∨
      half = odd (written.elim blankEntry (entryOf blankEntry))) :
    Aligned half.phys ∧ Aligned half.start := by
  cases written with
  | none => rcases h with rfl | rfl <;> exact ⟨rfl, rfl⟩
  | some regs =>
    obtain ⟨heven, hodd⟩ := starts_entryOf blankEntry regs
    rcases h with rfl | rfl
    · exact ⟨aligned_shift (by decide) _, heven⟩
    · exact ⟨aligned_shift (by decide) _, hodd⟩

theorem page_mappedValue {half : Half} (hphys : Aligned half.phys) (hstart : Aligned half.start)
    (p : Page) :
    page (mappedValue half (base p)) =
      page (0x80000000#32 ||| (half.phys + (base p - half.start))) := by
  have hbase := aligned_base p
  have hsum : Aligned (half.phys + (base p - half.start)) := by
    rw [Aligned] at *
    rw [BitVec.toNat_add, BitVec.toNat_sub]
    have hlt := half.start.isLt
    omega
  have hpage : page (half.phys + (base p - half.start) + 0xFFF#32) =
      page (half.phys + (base p - half.start)) := by
    have hmax := (half.phys + (base p - half.start)).isLt
    have hlast : (0xFFF#32).toNat = 0xFFF := rfl
    rw [Aligned] at hsum
    rw [← BitVec.toNat_inj, toNat_page, toNat_page, BitVec.toNat_add_of_lt (by omega)]
    omega
  have hor : ∀ a b : Word, page (a ||| b) = page a ||| page b := fun a b => by
    rw [page, page, page, BitVec.ushiftRight_or_distrib, BitVec.setWidth_or]
  rw [mappedValue, hor, hor, hpage]

/-- After any run from power-on, an entry is the one of the last write to it that was not
spared. A page is in a table exactly when an entry maps it and has not lost it, and then the
table holds the physical page of such an entry. While entries stay apart, a page is in a
table exactly when an entry maps it. -/
theorem luts_mirror_entries (instrs : List TlbInstr) (t : TlbState)
    (h : poweronTlb.run instrs = some t) :
    ∃ g, tracedStart.run instrs = some g ∧ g.tlb = t ∧
      (∀ idx, t.entries idx = (g.written idx).elim blankEntry (entryOf blankEntry)) ∧
      ∀ k p,
        (t.luts.of k p ≠ 0#32 ↔
          ∃ idx, entryMaps k (t.entries idx) p = true ∧ g.lost k idx p = false) ∧
        (t.luts.of k p ≠ 0#32 → ∃ idx half,
          (half = even (t.entries idx) ∨ half = odd (t.entries idx)) ∧
            halfMaps k half p = true ∧ g.lost k idx p = false ∧
            page (t.luts.of k p) = page (0x80000000#32 ||| (half.phys + (base p - half.start)))) ∧
        (StaysApart poweronTlb instrs →
          (t.luts.of k p ≠ 0#32 ↔ ∃ idx, entryMaps k (t.entries idx) p = true)) := by
  have hstart : tracedStart.tlb.run instrs = some t := h
  obtain ⟨g, hrun, rfl⟩ := run_of_tlb_run hstart
  have hconsistent := consistent_run consistent_tracedStart hrun
  refine ⟨g, hrun, rfl, hconsistent.written, ?_⟩
  intro k p
  have hmirrors := hconsistent.mirrors k
  have htable : (g.coverTable k).table p ≠ none ↔ g.tlb.luts.of k p ≠ 0#32 := by
    change (if g.tlb.luts.of k p = 0#32 then none else some (g.tlb.luts.of k p)) ≠ none ↔ _
    split_ifs with hzero
    · exact iff_of_false (fun hne => hne rfl) (fun hne => hne hzero)
    · exact iff_of_true (Option.some_ne_none _) hzero
  refine ⟨?_, ?_, ?_⟩
  · rw [← htable, hmirrors.table_ne_none_iff_kept]
    refine exists_congr fun idx => ?_
    rw [← entryValue_ne_none_iff, ← Bool.not_eq_true]
    exact ⟨fun ⟨v, hv, hkept⟩ => ⟨⟨v, hv⟩, hkept⟩, fun ⟨⟨v, hv⟩, hkept⟩ => ⟨v, hv, hkept⟩⟩
  · intro hne
    have hv : (g.coverTable k).table p = some (g.tlb.luts.of k p) := if_neg hne
    obtain ⟨idx, hidx, hkept⟩ := hmirrors.sound p _ hv
    obtain ⟨half, hhalf, hmaps, hvalue⟩ := half_of_entryValue hidx
    have hhalf' : half = even (g.tlb.entries idx) ∨ half = odd (g.tlb.entries idx) := hhalf
    have hpages := hhalf'
    rw [hconsistent.written idx] at hpages
    obtain ⟨hphys, hstarts⟩ := aligned_phys _ hpages
    refine ⟨idx, half, hhalf', hmaps, Bool.eq_false_iff.mpr hkept, ?_⟩
    rw [hvalue, page_mappedValue hphys hstarts]
  · intro hapart
    have hunlost : ∀ k, Unlost (coverage k) (tracedStart.coverTable k) :=
      fun _ _ _ _ _ => Bool.false_ne_true
    rw [← htable,
      hmirrors.table_ne_none_iff (unlost_run consistent_tracedStart hunlost hapart hrun k)]
    exact exists_congr fun idx => entryValue_ne_none_iff

def sampleRegs (pfn : Word) : TlbRegs := ⟨pfn <<< 6 ||| 0x6#32, 0x0#32, 0x0#32, 0x0#32⟩

def sampleInstrs : List TlbInstr :=
  [.tlbwi 0#32 (sampleRegs 1#32) 0x80000000#32, .tlbwi 0#32 (sampleRegs 2#32) 0x0#32]

/-- One mapped page is in the table. -/
theorem sample_page_is_mapped :
    ∃ t, poweronTlb.run (sampleInstrs.take 1) = some t ∧ ∃ idx half,
      (half = even (t.entries idx) ∨ half = odd (t.entries idx)) ∧
        halfMaps .read half 0#20 = true ∧
        page (t.luts.of .read 0#20) =
          page (0x80000000#32 ||| (half.phys + (base 0#20 - half.start))) := by
  have hsome : (poweronTlb.run (sampleInstrs.take 1)).isSome = true := by decide
  obtain ⟨t, ht⟩ := Option.isSome_iff_exists.mp hsome
  have hne : ((poweronTlb.run (sampleInstrs.take 1)).map fun t => t.luts.of .read 0#20) ≠
      some 0#32 := by decide
  rw [ht, Option.map_some] at hne
  obtain ⟨g, -, -, -, hpages⟩ := luts_mirror_entries (sampleInstrs.take 1) t ht
  obtain ⟨idx, half, hhalf, hmaps, -, hpage⟩ :=
    (hpages .read 0#20).2.1 fun hzero => hne (congrArg some hzero)
  exact ⟨t, ht, idx, half, hhalf, hmaps, hpage⟩

/-- The second write is spared: the entry keeps the physical page of the first one. -/
theorem entry_in_use_is_not_replaced :
    ((poweronTlb.run sampleInstrs).map fun t => (t.entries 0).pfnEven) = some 1#32 ∧
      (entryOf blankEntry (sampleRegs 2#32)).pfnEven = 2#32 := by
  decide

/-!
## Where the tables lead

Two segments of the address space reach the hardware directly. The physical pages in the tables
are addresses of these segments, whatever is written to the entries.
-/

def direct (address : Word) : Prop := 0x80000000#32 ≤ address ∧ address < 0xC0000000#32

instance (address : Word) : Decidable (direct address) :=
  inferInstanceAs (Decidable (_ ∧ _))

theorem direct_iff {p : Word} : direct p ↔ 0x80000000 ≤ p.toNat ∧ p.toNat < 0xC0000000 := Iff.rfl

theorem direct_mappedValue {h : Half} {size : Nat} (hsize : size < 0x1000000)
    (hstop : h.stop.toNat = (h.start.toNat + size) % 2 ^ 32) (hmaps : halfMaps k h p = true) :
    direct (mappedValue h (base p)) := by
  rw [halfMaps, Bool.and_eq_true, halfCovers, Bool.and_eq_true, inRange, Bool.and_eq_true,
    decide_eq_true_eq, decide_eq_true_eq, BitVec.le_def, BitVec.lt_def] at hmaps
  obtain ⟨⟨-, hge, hlt⟩, hmappable⟩ := hmaps
  have hphys : h.phys.toNat < 0x20000000 := by
    simp only [mappable, Bool.and_eq_true, decide_eq_true_eq] at hmappable
    exact hmappable.2
  have hstart := h.start.isLt
  have hoffset : (h.phys + (base p - h.start) + 0xFFF#32).toNat < 0x40000000 := by
    rw [BitVec.toNat_add, BitVec.toNat_add, BitVec.toNat_sub, BitVec.toNat_ofNat]
    omega
  have hvalue : (mappedValue h (base p)).toNat =
      0x80000000 + (h.phys + (base p - h.start) + 0xFFF#32).toNat := by
    rw [mappedValue, BitVec.toNat_or]
    exact (Nat.two_pow_add_eq_or_of_lt (hoffset.trans (by decide : 0x40000000 < 2 ^ 31)) 1).symm
  rw [direct_iff, hvalue]
  omega

theorem stop_entryOf (old : TlbEntry) (regs : TlbRegs) :
    ∃ size < 0x1000000, 0xFFF ≤ size ∧
      (even (entryOf old regs)).stop.toNat =
        ((even (entryOf old regs)).start.toNat + size) % 2 ^ 32 ∧
      (odd (entryOf old regs)).stop.toNat =
        ((odd (entryOf old regs)).start.toNat + size) % 2 ^ 32 := by
  have hmask : (((regs.pageMask &&& 0x1FFE000#32) >>> 13) <<< 12 : Word).toNat ≤ 0xFFF000 := by
    rw [BitVec.toNat_shiftLeft, BitVec.toNat_ushiftRight, BitVec.toNat_and, Nat.shiftLeft_eq,
      Nat.shiftRight_eq_div_pow]
    have hand : regs.pageMask.toNat &&& (0x1FFE000#32).toNat ≤ 0x1FFE000 := Nat.and_le_right
    omega
  have hsize : ∀ start : Word, (start + (regs.pageMask &&& 0x1FFE000#32) >>> 13 <<< 12 +
      0xFFF#32).toNat = (start.toNat +
        (((regs.pageMask &&& 0x1FFE000#32) >>> 13 <<< 12 : Word).toNat + 0xFFF)) % 2 ^ 32 := by
    intro start
    rw [BitVec.toNat_add, BitVec.toNat_add, BitVec.toNat_ofNat]
    omega
  exact ⟨_, by omega, by omega, hsize _, hsize _⟩

theorem direct_entryValue {old : TlbEntry} {regs : TlbRegs} {v : Word}
    (h : entryValue k (entryOf old regs) p = some v) : direct v := by
  obtain ⟨size, hsize, -, heven, hodd⟩ := stop_entryOf old regs
  rw [entryValue] at h
  split_ifs at h with hmaps hmaps
  · obtain rfl := Option.some.inj h
    exact direct_mappedValue hsize hodd hmaps
  · obtain rfl := Option.some.inj h
    exact direct_mappedValue hsize heven hmaps

/-- The tables lead into the segments, and the entries start at pages. -/
structure Leads (t : TlbState) : Prop where
  starts : ∀ idx, Starts (t.entries idx)
  luts : ∀ k p, t.luts.of k p ≠ 0#32 → direct (t.luts.of k p)

theorem leads_poweronTlb : Leads poweronTlb where
  starts _ := ⟨rfl, rfl⟩
  luts k p h := absurd (by cases k with | _ => rfl) h

theorem leads_step {t t' : TlbState} {instr : TlbInstr} (h : Leads t)
    (hstep : t.step instr = some t') : Leads t' := by
  obtain ⟨idx, -, hwrite⟩ := Option.bind_eq_some_iff.mp hstep
  cases hspared : spared (t.entries idx) instr.pc with
  | true =>
    rw [tlbWrite_of_spared hspared hwrite]
    exact h
  | false =>
    constructor
    · intro idx'
      rw [entries_tlbWrite hspared hwrite]
      by_cases heq : idx' = idx
      · rw [heq, Function.update_self]
        exact starts_entryOf _ _
      · rw [Function.update_of_ne heq]
        exact h.starts idx'
    · intro k p hne
      rw [tlbWrite_apply (h.starts idx) hspared hwrite] at hne ⊢
      cases hvalue : entryValue k (entryOf (t.entries idx) instr.regs) p with
      | some v => exact direct_entryValue hvalue
      | none =>
        rw [hvalue] at hne
        rw [Option.getD_none] at hne ⊢
        split_ifs at hne ⊢ with hcovered
        · exact absurd rfl hne
        · exact h.luts k p hne

theorem leads_run {t t' : TlbState} {instrs : List TlbInstr} (h : Leads t)
    (hrun : t.run instrs = some t') : Leads t' := by
  induction instrs generalizing t with
  | nil =>
    obtain rfl := Option.some.inj hrun
    exact h
  | cons instr instrs ih =>
    obtain ⟨t₁, hstep, hrest⟩ := Option.bind_eq_some_iff.mp hrun
    exact ih (leads_step h hstep) hrest

end ParallelN64.Tlb
