import ParallelN64.Core.Loops
import ParallelN64.Tlb.Mirror

/-!
# Loops over the pages of an entry

`TLBWrite` takes the pages of the old entry out of the tables and puts those of the new one in, and
where code is kept for pages, it also looks at the code of both. The loops over the tables go from
address to address below the last one of a half; where that is the last address of all, the address
wraps and the loop does not end.
-/

namespace ParallelN64.Tlb

open ParallelN64.Core R4300 Savestate

/-- `r4300emu`. -/
inductive R4300Emu where
  | pureInterpreter | cachedInterpreter | dynarec
  deriving DecidableEq

def codePages : Nat → Word → Word → Option (List Word) :=
  fun turns i last => visits (fun i : Word => i ≤ last) (· + 1#32) turns i

def loopTouches (h : Half) : Option (List Page) :=
  (loopPages (2 ^ 20) h.start h.stop).map fun pages => pages.map page

def storeTouches (h : Half) : Option (List Page) :=
  (loopTouches h).bind fun r =>
    if h.d ≠ 0#8 then (loopTouches h).map fun w => r ++ w else some r

def unmapTouches (h : Half) : Option (List Page) := if h.v ≠ 0#8 then storeTouches h else some []

def mapTouches (h : Half) : Option (List Page) :=
  if h.v ≠ 0#8 then if mappable h then storeTouches h else some [] else some []

/-- The pages whose code is looked at. -/
def codeTouches (h : Half) : Option (List Page) :=
  if h.v ≠ 0#8 then
    (codePages (2 ^ 20) (h.start >>> 12) (h.stop >>> 12)).map fun pages =>
      pages.map (BitVec.setWidth 20)
  else some []

def inTurn : List (Option (List Page)) → Option (List Page)
  | [] => some []
  | first :: rest => first.bind fun pages => (inTurn rest).map fun more => pages ++ more

/-- The pages that the loops of `TLBWrite` touch, if they end. -/
def tlbWriteTouches (emu : R4300Emu) (t : TlbState) (idx : Fin 32) (regs : TlbRegs) (pc : Word) :
    Option (List Page) :=
  let old := t.entries idx
  let new := entryOf old regs
  if spared old pc then some []
  else if emu = .pureInterpreter then
    inTurn [unmapTouches (even old), unmapTouches (odd old), mapTouches (even new),
      mapTouches (odd new)]
  else
    inTurn [codeTouches (even old), codeTouches (odd old), unmapTouches (even old),
      unmapTouches (odd old), mapTouches (even new), mapTouches (odd new),
      codeTouches (even new), codeTouches (odd new)]

def Endless (h : Half) : Prop :=
  h.start < h.stop ∧ 0xFFFFF000 + h.start.toNat % 0x1000 < h.stop.toNat

instance (h : Half) : Decidable (Endless h) := inferInstanceAs (Decidable (_ ∧ _))

theorem loopPages_eq_visits (turns : Nat) (i stop : Word) :
    loopPages turns i stop = visits (fun i : Word => i < stop) (· + 0x1000#32) turns i := by
  induction turns generalizing i with
  | zero => simp only [loopPages, visits, decide_eq_true_eq]
  | succ turns ih => simp only [loopPages, visits, decide_eq_true_eq, ih]

def Covers (h : Half) (p : Page) : Prop := ∃ address, page address = p ∧ h.start ≤ address ∧
  address ≤ h.stop

variable {h : Half}

theorem loopPages_of_endless (hend : Endless h) (turns : Nat) :
    loopPages turns h.start h.stop = none := by
  rw [loopPages_eq_visits]
  apply visits_eq_none (P := fun i : Word => i.toNat % 0x1000 = h.start.toNat % 0x1000)
  · intro i hi
    have hlt := i.isLt
    have := hend.2
    rw [decide_eq_true_eq, BitVec.lt_def]
    omega
  · intro i hi
    rw [BitVec.toNat_add, BitVec.toNat_ofNat]
    omega
  · rfl

theorem loopPages_of_not_endless (hend : ¬ Endless h) :
    ∃ l, loopPages (2 ^ 20) h.start h.stop = some l ∧
      ∀ i ∈ l, h.start ≤ i ∧ i < h.stop := by
  by_cases hlt : h.start < h.stop
  · have hlast : h.stop.toNat ≤ 0xFFFFF000 + h.start.toNat % 0x1000 := by
      by_contra hgt
      exact hend ⟨hlt, by omega⟩
    rw [BitVec.lt_def] at hlt
    obtain ⟨l, hl, hmem⟩ := @visits_of_measure Word (fun i : Word => i < h.stop) (· + 0x1000#32)
      (fun i => i.toNat % 0x1000 = h.start.toNat % 0x1000 ∧ h.start.toNat ≤ i.toNat)
      (fun i => (h.stop.toNat + 0xFFF - i.toNat) / 0x1000)
      (by
        intro i hi hgo
        rw [decide_eq_true_eq, BitVec.lt_def] at hgo
        omega)
      (by
        intro i hi hgo
        rw [decide_eq_true_eq, BitVec.lt_def] at hgo
        rw [BitVec.toNat_add, BitVec.toNat_ofNat]
        omega)
      (2 ^ 20) h.start ⟨rfl, le_refl _⟩ (by have := h.stop.isLt; omega)
    refine ⟨l, by rw [loopPages_eq_visits, hl], fun i hi => ?_⟩
    obtain ⟨⟨-, hge⟩, hgo⟩ := hmem i hi
    exact ⟨BitVec.le_def.mpr hge, of_decide_eq_true hgo⟩
  · refine ⟨[], ?_, fun i hi => absurd hi List.not_mem_nil⟩
    rw [loopPages_eq_visits]
    exact visits_of_stop _ (by rwa [decide_eq_true_eq])

theorem loopTouches_spec (h : Half) :
    (Endless h ∧ loopTouches h = none) ∨
      ¬ Endless h ∧ ∃ pages, loopTouches h = some pages ∧ ∀ p ∈ pages, Covers h p := by
  by_cases hend : Endless h
  · exact .inl ⟨hend, by rw [loopTouches, loopPages_of_endless hend, Option.map_none]⟩
  · obtain ⟨l, hl, hmem⟩ := loopPages_of_not_endless hend
    refine .inr ⟨hend, l.map page, by rw [loopTouches, hl, Option.map_some], fun p hp => ?_⟩
    obtain ⟨i, hi, rfl⟩ := List.mem_map.mp hp
    have hle : i ≤ h.stop := BitVec.le_def.mpr (Nat.le_of_lt (BitVec.lt_def.mp (hmem i hi).2))
    exact ⟨i, rfl, (hmem i hi).1, hle⟩

theorem storeTouches_spec (h : Half) :
    (Endless h ∧ storeTouches h = none) ∨
      ¬ Endless h ∧ ∃ pages, storeTouches h = some pages ∧ ∀ p ∈ pages, Covers h p := by
  rcases loopTouches_spec h with ⟨hend, hnone⟩ | ⟨hend, pages, hpages, hmem⟩
  · exact .inl ⟨hend, by rw [storeTouches, hnone, Option.bind_none]⟩
  · rw [storeTouches, hpages, Option.bind_some, Option.map_some]
    split_ifs
    · refine .inr ⟨hend, pages ++ pages, rfl, fun p hp => ?_⟩
      exact (List.mem_append.mp hp).elim (hmem p) (hmem p)
    · exact .inr ⟨hend, pages, rfl, hmem⟩

def Mapped (h : Half) : Prop := h.v ≠ 0#8 ∧ mappable h = true

instance (h : Half) : Decidable (Mapped h) := inferInstanceAs (Decidable (_ ∧ _))

theorem unmapTouches_spec (h : Half) :
    ((h.v ≠ 0#8 ∧ Endless h) ∧ unmapTouches h = none) ∨
      ¬ (h.v ≠ 0#8 ∧ Endless h) ∧
        ∃ pages, unmapTouches h = some pages ∧ ∀ p ∈ pages, Covers h p := by
  rw [unmapTouches]
  split_ifs with hv
  · simpa only [hv, ne_eq, not_false_eq_true, true_and] using storeTouches_spec h
  · exact .inr ⟨fun hend => hv hend.1, [], rfl, fun p hp => absurd hp List.not_mem_nil⟩

theorem mapTouches_spec (h : Half) :
    ((Mapped h ∧ Endless h) ∧ mapTouches h = none) ∨
      ¬ (Mapped h ∧ Endless h) ∧
        ∃ pages, mapTouches h = some pages ∧ ∀ p ∈ pages, Covers h p := by
  rw [mapTouches]
  split_ifs with hv hmappable
  · have hmapped : Mapped h := ⟨hv, hmappable⟩
    simpa only [hmapped, true_and] using storeTouches_spec h
  · exact .inr ⟨fun hend => hmappable hend.1.2, [], rfl, fun p hp => absurd hp List.not_mem_nil⟩
  · exact .inr ⟨fun hend => hv hend.1.1, [], rfl, fun p hp => absurd hp List.not_mem_nil⟩

def Inverted (h : Half) : Prop := h.stop < h.start ∧ page h.start = page h.stop

instance (h : Half) : Decidable (Inverted h) := inferInstanceAs (Decidable (_ ∧ _))

theorem codePages_spec (start stop : Word) :
    ∃ l, codePages (2 ^ 20) (start >>> 12) (stop >>> 12) = some l ∧
      ∀ i ∈ l, start.toNat / 0x1000 ≤ i.toNat ∧ i.toNat ≤ stop.toNat / 0x1000 := by
  have hpage : ∀ x : Word, (x >>> 12).toNat = x.toNat / 0x1000 := fun x => by
    rw [BitVec.toNat_ushiftRight, Nat.shiftRight_eq_div_pow]
  have hstop := stop.isLt
  obtain ⟨l, hl, hmem⟩ := @visits_of_measure Word (fun i : Word => i ≤ stop >>> 12) (· + 1#32)
    (fun i => start.toNat / 0x1000 ≤ i.toNat) (fun i => stop.toNat / 0x1000 + 1 - i.toNat)
    (by
      intro i hi hgo
      rw [decide_eq_true_eq, BitVec.le_def, hpage] at hgo
      omega)
    (by
      intro i hi hgo
      rw [decide_eq_true_eq, BitVec.le_def, hpage] at hgo
      rw [BitVec.toNat_add, BitVec.toNat_ofNat]
      omega)
    (2 ^ 20) (start >>> 12) (hpage start).ge (by omega)
  refine ⟨l, hl, fun i hi => ?_⟩
  obtain ⟨hge, hgo⟩ := hmem i hi
  rw [decide_eq_true_eq, BitVec.le_def, hpage] at hgo
  exact ⟨hge, hgo⟩

theorem codeTouches_spec (h : Half) :
    ∃ pages, codeTouches h = some pages ∧
      ((h.v ≠ 0#8 ∧ Inverted h) ∧ page h.start ∈ pages ∧ (∀ p ∈ pages, p = page h.start) ∨
        ¬ (h.v ≠ 0#8 ∧ Inverted h) ∧ ∀ p ∈ pages, Covers h p) := by
  rw [codeTouches]
  split_ifs with hv
  · obtain ⟨l, hl, hmem⟩ := codePages_spec h.start h.stop
    refine ⟨l.map (BitVec.setWidth 20), by rw [hl, Option.map_some], ?_⟩
    have hstart := h.start.isLt
    have hstop := h.stop.isLt
    by_cases hinv : Inverted h
    · have hpages := congrArg BitVec.toNat hinv.2
      rw [toNat_page, toNat_page] at hpages
      refine .inl ⟨⟨hv, hinv⟩, List.mem_map.mpr ⟨h.start >>> 12, ?_, rfl⟩, ?_⟩
      · apply mem_visits_self _ hl
        rw [decide_eq_true_eq, BitVec.le_def, BitVec.toNat_ushiftRight, BitVec.toNat_ushiftRight,
          Nat.shiftRight_eq_div_pow, Nat.shiftRight_eq_div_pow]
        omega
      · intro p hp
        obtain ⟨i, hi, rfl⟩ := List.mem_map.mp hp
        have := hmem i hi
        apply BitVec.eq_of_toNat_eq
        rw [BitVec.toNat_setWidth, toNat_page]
        omega
    · refine .inr ⟨fun h => hinv h.2, fun p hp => ?_⟩
      obtain ⟨i, hi, rfl⟩ := List.mem_map.mp hp
      have hnum := hmem i hi
      have hle : h.start.toNat ≤ h.stop.toNat := by
        by_contra hgt
        apply hinv
        refine ⟨BitVec.lt_def.mpr (by omega), BitVec.eq_of_toNat_eq ?_⟩
        rw [toNat_page, toNat_page]
        omega
      refine ⟨BitVec.ofNat 32 (max h.start.toNat (i.toNat * 0x1000)), ?_, ?_, ?_⟩
      · apply BitVec.eq_of_toNat_eq
        rw [toNat_page, BitVec.toNat_ofNat, BitVec.toNat_setWidth]
        omega
      · rw [BitVec.le_def, BitVec.toNat_ofNat]
        omega
      · rw [BitVec.le_def, BitVec.toNat_ofNat]
        omega
  · exact ⟨[], rfl, .inr ⟨fun h => hv h.1, fun p hp => absurd hp List.not_mem_nil⟩⟩

theorem not_inverted_of_stop {size : Nat} (hsize : size < 0x1000000) (hpage : 0xFFF ≤ size)
    (hstop : h.stop.toNat = (h.start.toNat + size) % 2 ^ 32) : ¬ Inverted h := by
  rintro ⟨hlt, hpages⟩
  have hpages := congrArg BitVec.toNat hpages
  have hstart := h.start.isLt
  rw [toNat_page, toNat_page] at hpages
  rw [BitVec.lt_def] at hlt
  omega

def InEntries (old new : TlbEntry) (p : Page) : Prop :=
  Covers (even old) p ∨ Covers (odd old) p ∨ Covers (even new) p ∨ Covers (odd new) p

def StaysInside (old new : TlbEntry) (touches : Option (List Page)) : Prop :=
  ∃ pages, touches = some pages ∧ ∀ p ∈ pages, InEntries old new p

theorem staysInside_nil (old new : TlbEntry) : StaysInside old new (inTurn []) :=
  ⟨[], rfl, fun _ hp => absurd hp List.not_mem_nil⟩

variable {old new : TlbEntry}

theorem staysInside_cons {first : Option (List Page)} {rest : List (Option (List Page))} :
    StaysInside old new (inTurn (first :: rest)) ↔
      StaysInside old new first ∧ StaysInside old new (inTurn rest) := by
  constructor
  · rintro ⟨pages, hpages, hmem⟩
    obtain ⟨head, hhead, hrest⟩ := Option.bind_eq_some_iff.mp hpages
    obtain ⟨tail, htail, rfl⟩ := Option.map_eq_some_iff.mp hrest
    exact ⟨⟨head, hhead, fun p hp => hmem p (List.mem_append_left _ hp)⟩,
      ⟨tail, htail, fun p hp => hmem p (List.mem_append_right _ hp)⟩⟩
  · rintro ⟨⟨head, rfl, hhead⟩, tail, htail, hmem⟩
    refine ⟨head ++ tail, by rw [inTurn, Option.bind_some, htail, Option.map_some], ?_⟩
    intro p hp
    exact (List.mem_append.mp hp).elim (hhead p) (hmem p)

theorem staysInside_iff_of_spec {fails : Prop} {touches : Option (List Page)}
    (hin : ∀ p, Covers h p → InEntries old new p) (hspec : (fails ∧ touches = none) ∨
      ¬ fails ∧ ∃ pages, touches = some pages ∧ ∀ p ∈ pages, Covers h p) :
    StaysInside old new touches ↔ ¬ fails := by
  rcases hspec with ⟨hfails, rfl⟩ | ⟨hfails, pages, rfl, hmem⟩
  · refine iff_of_false ?_ (not_not.mpr hfails)
    rintro ⟨pages, hnone, -⟩
    exact absurd hnone (Option.some_ne_none pages).symm
  · exact iff_of_true ⟨pages, rfl, fun p hp => hin p (hmem p hp)⟩ hfails

theorem staysInside_codeTouches (hin : ∀ p, Covers h p → InEntries old new p) :
    StaysInside old new (codeTouches h) ↔
      (h.v ≠ 0#8 ∧ Inverted h → InEntries old new (page h.start)) := by
  obtain ⟨pages, hpages, ⟨hinv, hself, hall⟩ | ⟨hinv, hmem⟩⟩ := codeTouches_spec h
  · rw [hpages]
    constructor
    · rintro ⟨pages', heq, hmem⟩ -
      obtain rfl := Option.some.inj heq
      exact hmem _ hself
    · intro hin'
      exact ⟨pages, rfl, fun p hp => by rw [hall p hp]; exact hin' hinv⟩
  · exact iff_of_true ⟨pages, hpages, fun p hp => hin p (hmem p hp)⟩ fun h => absurd h hinv

/-- No loop over the pages of two entries in the tables is endless. -/
structure LoopsEnd (old new : TlbEntry) : Prop where
  oldEven : ¬ ((even old).v ≠ 0#8 ∧ Endless (even old))
  oldOdd : ¬ ((odd old).v ≠ 0#8 ∧ Endless (odd old))
  newEven : ¬ (Mapped (even new) ∧ Endless (even new))
  newOdd : ¬ (Mapped (odd new) ∧ Endless (odd new))

/-- The page of an inverted half of the old entry is a page of the two entries all the same. -/
structure CodeInside (old new : TlbEntry) : Prop where
  oldEven : (even old).v ≠ 0#8 ∧ Inverted (even old) → InEntries old new (page (even old).start)
  oldOdd : (odd old).v ≠ 0#8 ∧ Inverted (odd old) → InEntries old new (page (odd old).start)

theorem staysInside_tables (old new : TlbEntry) (rest : List (Option (List Page))) :
    StaysInside old new (inTurn (unmapTouches (even old) :: unmapTouches (odd old) ::
      mapTouches (even new) :: mapTouches (odd new) :: rest)) ↔
      LoopsEnd old new ∧ StaysInside old new (inTurn rest) := by
  rw [staysInside_cons, staysInside_cons, staysInside_cons, staysInside_cons,
    staysInside_iff_of_spec (fun p hp => .inl hp) (unmapTouches_spec (even old)),
    staysInside_iff_of_spec (fun p hp => .inr (.inl hp)) (unmapTouches_spec (odd old)),
    staysInside_iff_of_spec (fun p hp => .inr (.inr (.inl hp))) (mapTouches_spec (even new)),
    staysInside_iff_of_spec (fun p hp => .inr (.inr (.inr hp))) (mapTouches_spec (odd new))]
  constructor
  · rintro ⟨h₁, h₂, h₃, h₄, hrest⟩
    exact ⟨⟨h₁, h₂, h₃, h₄⟩, hrest⟩
  · rintro ⟨⟨h₁, h₂, h₃, h₄⟩, hrest⟩
    exact ⟨h₁, h₂, h₃, h₄, hrest⟩

theorem staysInside_newCode (old : TlbEntry) (regs : TlbRegs) :
    StaysInside old (entryOf old regs) (inTurn [codeTouches (even (entryOf old regs)),
      codeTouches (odd (entryOf old regs))]) := by
  obtain ⟨size, hsize, hpage, heven, hodd⟩ := stop_entryOf old regs
  rw [staysInside_cons, staysInside_cons,
    staysInside_codeTouches fun p hp => .inr (.inr (.inl hp)),
    staysInside_codeTouches fun p hp => .inr (.inr (.inr hp))]
  refine ⟨fun h => absurd h.2 ?_, fun h => absurd h.2 ?_, staysInside_nil _ _⟩
  · exact not_inverted_of_stop hsize hpage heven
  · exact not_inverted_of_stop hsize hpage hodd

/-- The loops of `TLBWrite` end and touch only pages of the old and the new entry, exactly when the
old entry is spared, or no loop over the tables runs past the last address and no code is looked
at in the page of an inverted half that is a page of neither entry. -/
theorem tlbWrite_staysInside_iff (emu : R4300Emu) (t : TlbState) (idx : Fin 32) (regs : TlbRegs)
    (pc : Word) :
    StaysInside (t.entries idx) (entryOf (t.entries idx) regs)
        (tlbWriteTouches emu t idx regs pc) ↔
      spared (t.entries idx) pc = true ∨
        LoopsEnd (t.entries idx) (entryOf (t.entries idx) regs) ∧
          (emu ≠ .pureInterpreter →
            CodeInside (t.entries idx) (entryOf (t.entries idx) regs)) := by
  simp only [tlbWriteTouches]
  by_cases hspared : spared (t.entries idx) pc = true
  · rw [if_pos hspared]
    exact iff_of_true (staysInside_nil _ _) (.inl hspared)
  · rw [if_neg hspared]
    by_cases hemu : emu = .pureInterpreter
    · rw [if_pos hemu, staysInside_tables]
      simp [hspared, hemu, staysInside_nil]
    · rw [if_neg hemu, staysInside_cons, staysInside_cons, staysInside_tables,
        staysInside_codeTouches fun p hp => .inl hp,
        staysInside_codeTouches fun p hp => .inr (.inl hp)]
      have hnew := staysInside_newCode (t.entries idx) regs
      constructor
      · rintro ⟨heven, hodd, hloops, -⟩
        exact .inr ⟨hloops, fun _ => ⟨heven, hodd⟩⟩
      · rintro (hyes | ⟨hloops, hcode⟩)
        · exact absurd hyes hspared
        · exact ⟨(hcode hemu).oldEven, (hcode hemu).oldOdd, hloops, hnew⟩

def lastPages : TlbRegs := ⟨2#32, 2#32, 0xFFFFE000#32, 0#32⟩

/-- The loop over the last page of all does not end. -/
theorem last_page_does_not_stayInside :
    ¬ ∀ (emu : R4300Emu) (t : TlbState) (idx : Fin 32) (regs : TlbRegs) (pc : Word),
      StaysInside (t.entries idx) (entryOf (t.entries idx) regs)
        (tlbWriteTouches emu t idx regs pc) := by
  intro h
  have hstay := h .pureInterpreter poweronTlb 0 lastPages 0x80001000#32
  simp only [tlbWriteTouches] at hstay
  rw [if_neg (by decide), if_pos trivial, staysInside_tables] at hstay
  exact hstay.1.newOdd (by decide)

/-- Loops that change the tables end when those that are only followed end, and change nothing
for the pages that these do not touch. -/
def Follows (luts : Luts) (result : Option Luts) (touches : Option (List Page)) : Prop :=
  (touches = none ∧ result = none) ∨ ∃ pages luts', touches = some pages ∧ result = some luts' ∧
    ∀ p ∉ pages, ∀ k, luts'.of k p = luts.of k p

theorem follows_nil (luts : Luts) : Follows luts (some luts) (inTurn []) :=
  .inr ⟨[], luts, rfl, rfl, fun _ _ _ => rfl⟩

theorem follows_cons {luts : Luts} {result : Option Luts} {next : Luts → Option Luts}
    {first : Option (List Page)} {rest : List (Option (List Page))}
    (hfirst : Follows luts result first)
    (hrest : ∀ luts', Follows luts' (next luts') (inTurn rest)) :
    Follows luts (result.bind next) (inTurn (first :: rest)) := by
  rcases hfirst with ⟨rfl, rfl⟩ | ⟨pages, luts₁, rfl, rfl, hsame⟩
  · exact .inl ⟨rfl, rfl⟩
  · rw [inTurn, Option.bind_some, Option.bind_some]
    rcases hrest luts₁ with ⟨hnone, hresult⟩ | ⟨more, luts₂, hmore, hresult, hsame'⟩
    · exact .inl ⟨by rw [hnone, Option.map_none], hresult⟩
    · refine .inr ⟨pages ++ more, luts₂, by rw [hmore, Option.map_some], hresult, ?_⟩
      intro p hp k
      rw [List.mem_append, not_or] at hp
      rw [hsame' p hp.2, hsame p hp.1]

theorem storePages_spec (lut : Lut) (h : Half) (value : Word → Word) :
    (loopTouches h = none ∧ storePages lut h.start h.stop value = none) ∨
      ∃ pages lut', loopTouches h = some pages ∧
        storePages lut h.start h.stop value = some lut' ∧ ∀ p ∉ pages, lut' p = lut p := by
  rw [loopTouches, storePages]
  cases loopPages (2 ^ 20) h.start h.stop with
  | none => exact .inl ⟨rfl, rfl⟩
  | some l =>
    refine .inr ⟨l.map page, _, rfl, rfl, fun p hp => ?_⟩
    dsimp only
    induction l generalizing lut with
    | nil => rfl
    | cons i l ih =>
      rw [List.map_cons, List.mem_cons, not_or] at hp
      rw [List.foldl_cons, ih _ hp.2, Function.update_of_ne hp.1]

theorem storeHalf_follows (luts : Luts) (h : Half) (value : Word → Word) :
    Follows luts (storeHalf luts h value) (storeTouches h) := by
  rw [storeHalf, storeTouches]
  rcases storePages_spec luts.r h value with ⟨hnone, hr⟩ | ⟨pages, r, hpages, hr, hsame⟩
  · exact .inl ⟨by rw [hnone, Option.bind_none], by rw [hr, Option.bind_none]⟩
  · rw [hpages, hr, Option.bind_some, Option.bind_some, Option.map_some]
    split_ifs
    · rcases storePages_spec luts.w h value with ⟨hnone, -⟩ | ⟨pages', w, hpages', hw, hsame'⟩
      · exact absurd (hnone.symm.trans hpages) (Option.some_ne_none _).symm
      · obtain rfl := Option.some.inj (hpages.symm.trans hpages')
        refine .inr ⟨pages ++ pages, ⟨r, w⟩, rfl, by rw [hw, Option.map_some], fun p hp k => ?_⟩
        rw [List.mem_append, or_self] at hp
        cases k with
        | read => exact hsame p hp
        | write => exact hsame' p hp
    · refine .inr ⟨pages, ⟨r, luts.w⟩, rfl, rfl, fun p hp k => ?_⟩
      cases k with
      | read => exact hsame p hp
      | write => rfl

theorem unmapHalf_follows (luts : Luts) (h : Half) :
    Follows luts (unmapHalf luts h) (unmapTouches h) := by
  rw [unmapHalf, unmapTouches]
  split_ifs
  · exact storeHalf_follows _ _ _
  · exact follows_nil _

theorem mapHalf_follows (luts : Luts) (h : Half) :
    Follows luts (mapHalf luts h) (mapTouches h) := by
  rw [mapHalf, mapTouches]
  split_ifs
  · exact storeHalf_follows _ _ _
  · exact follows_nil _
  · exact follows_nil _

theorem tlbWrite_follows (t : TlbState) (idx : Fin 32) (regs : TlbRegs) (pc : Word) :
    Follows t.luts ((tlbWrite t idx regs pc).map TlbState.luts)
      (tlbWriteTouches .pureInterpreter t idx regs pc) := by
  simp only [tlbWrite, tlbWriteTouches, if_true]
  split_ifs
  · exact follows_nil _
  · have hlast (luts : Luts) :
        Follows luts ((mapHalf luts (odd (entryOf (t.entries idx) regs))).bind some)
          (inTurn [mapTouches (odd (entryOf (t.entries idx) regs))]) :=
      follows_cons (mapHalf_follows luts _) follows_nil
    have hloops := follows_cons (unmapHalf_follows t.luts (even (t.entries idx))) fun luts =>
      follows_cons (unmapHalf_follows luts (odd (t.entries idx))) fun luts =>
        follows_cons (mapHalf_follows luts (even (entryOf (t.entries idx) regs))) hlast
    simpa only [tlbUnmap, tlbMap, Option.map_bind, Option.map_map, Option.bind_assoc,
      Function.comp_def, Option.map_id', Option.bind_fun_some] using hloops

theorem covers_of_spec {fails : Prop} {touches : Option (List Page)}
    (hspec : (fails ∧ touches = none) ∨
      ¬ fails ∧ ∃ pages, touches = some pages ∧ ∀ p ∈ pages, Covers h p) :
    ∀ pages, touches = some pages → ∀ p ∈ pages, Covers h p := by
  rintro pages rfl
  rcases hspec with ⟨-, hnone⟩ | ⟨-, pages', hsome, hmem⟩
  · exact absurd hnone (Option.some_ne_none pages)
  · rwa [Option.some.inj hsome]

theorem inTurn_inside {l : List (Option (List Page))} {pages : List Page}
    (h : ∀ touches ∈ l, ∀ pages, touches = some pages → ∀ p ∈ pages, InEntries old new p)
    (hl : inTurn l = some pages) : ∀ p ∈ pages, InEntries old new p := by
  induction l generalizing pages with
  | nil =>
    obtain rfl := Option.some.inj hl
    exact fun p hp => absurd hp List.not_mem_nil
  | cons first rest ih =>
    rw [inTurn, Option.bind_eq_some_iff] at hl
    obtain ⟨here, hfirst, hmore⟩ := hl
    obtain ⟨more, hrest, rfl⟩ := Option.map_eq_some_iff.mp hmore
    have hhere := h first List.mem_cons_self here hfirst
    have hthere := ih (fun touches ht => h touches (List.mem_cons_of_mem _ ht)) hrest
    exact fun p hp => (List.mem_append.mp hp).elim (hhere p) (hthere p)

/-- A TLB write ends and leaves the tables alone outside the pages of the old and the new entry
exactly when the entry is spared or none of its page loops runs around the address space. -/
theorem tlbWrite_frame_iff (t : TlbState) (idx : Fin 32) (regs : TlbRegs) (pc : Word) :
    (∃ t', tlbWrite t idx regs pc = some t' ∧
        ∀ p, ¬InEntries (t.entries idx) (entryOf (t.entries idx) regs) p →
          ∀ k, t'.luts.of k p = t.luts.of k p) ↔
      spared (t.entries idx) pc = true ∨
        LoopsEnd (t.entries idx) (entryOf (t.entries idx) regs) := by
  let old := t.entries idx
  let new := entryOf old regs
  have hfollows := tlbWrite_follows t idx regs pc
  by_cases hspared : spared (t.entries idx) pc = true
  · refine iff_of_true ⟨t, ?_, fun _ _ _ => rfl⟩ (.inl hspared)
    rw [tlbWrite, if_pos hspared]
  · rw [tlbWriteTouches, if_neg hspared, if_pos rfl] at hfollows
    have hends := staysInside_tables old new []
    rw [and_iff_left (staysInside_nil old new)] at hends
    rw [or_iff_right hspared, ← hends]
    constructor
    · rintro ⟨t', hwrite, -⟩
      rcases hfollows with ⟨-, hnone⟩ | ⟨pages, -, hpages, -⟩
      · rw [hwrite] at hnone
        exact absurd hnone (Option.some_ne_none _)
      · refine ⟨pages, hpages, inTurn_inside (fun touches ht => ?_) hpages⟩
        simp only [List.mem_cons, List.not_mem_nil, or_false] at ht
        rcases ht with rfl | rfl | rfl | rfl
        · exact fun _ h p hp => .inl (covers_of_spec (unmapTouches_spec _) _ h p hp)
        · exact fun _ h p hp => .inr (.inl (covers_of_spec (unmapTouches_spec _) _ h p hp))
        · exact fun _ h p hp => .inr (.inr (.inl (covers_of_spec (mapTouches_spec _) _ h p hp)))
        · exact fun _ h p hp => .inr (.inr (.inr (covers_of_spec (mapTouches_spec _) _ h p hp)))
    · rintro ⟨pages, hpages, hinside⟩
      rcases hfollows with ⟨hnone, -⟩ | ⟨pages', luts', hpages', hluts, hsame⟩
      · exact absurd (hnone.symm.trans hpages) (Option.some_ne_none _).symm
      · obtain rfl := Option.some.inj (hpages'.symm.trans hpages)
        obtain ⟨t', ht', rfl⟩ := Option.map_eq_some_iff.mp hluts
        exact ⟨t', ht', fun p hp => hsame p fun hmem => hp (hinside p hmem)⟩

end ParallelN64.Tlb
