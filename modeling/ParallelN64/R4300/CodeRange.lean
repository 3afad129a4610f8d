import ParallelN64.Core.Loops
import ParallelN64.R4300.RdramBytes

/-!
# Invalidating the code of a range

The cached interpreter keeps a block of instructions for each page and marks the pages whose block
is stale. A range is invalidated by a scan of its addresses that leaves a page at the first compiled
instruction. Addresses are of 32 bits and wrap: a scan that leaves the last page never ends.
-/

namespace ParallelN64.R4300

open ParallelN64.Core
open Tlb (Page page toNat_page)

/-- `invalid_code` and `blocks`: a block says which of its instructions are compiled. -/
structure CodeCache where
  invalidCode : Page → Bool
  blocks : Page → Option (BitVec 10 → Bool)

def slot (address : Word) : BitVec 10 := ((address &&& 0xFFF#32) / 4#32).setWidth 10

def lastSlot (address : Word) : Word := (address &&& ~~~0xFFF#32) ||| 0xFFC#32

def CodeCache.compiled (c : CodeCache) (address : Word) : Bool :=
  (c.blocks (page address)).elim false fun block => block (slot address)

def CodeCache.invalidate (c : CodeCache) (i : Page) : CodeCache :=
  { c with invalidCode := Function.update c.invalidCode i true }

/-- The loop of `invalidate_cached_code_hacktarux` between two turns. -/
structure Scan where
  cache : CodeCache
  addr : Word

/-- One turn of the loop. -/
def scanTurn (s : Scan) : Scan :=
  let i := page s.addr
  if s.cache.invalidCode i = false then
    if (s.cache.blocks i).elim true fun block => block (slot s.addr) then
      { cache := s.cache.invalidate i, addr := lastSlot s.addr + 4#32 }
    else { s with addr := s.addr + 4#32 }
  else { s with addr := lastSlot s.addr + 4#32 }

def scanning (addrMax : Word) (s : Scan) : Bool := s.addr < addrMax

def rangeEnd (address : Word) (size : Nat) : Word := address + BitVec.ofNat 32 size

/-- The code cache behind `invalidate_cached_code_hacktarux`, if it ends within some turns. -/
def invalidateCachedCodeHacktarux (turns : Nat) (c : CodeCache) (address : Word) (size : Nat) :
    Option CodeCache :=
  if size = 0 then some { c with invalidCode := fun _ => true }
  else (leaves (scanning (rangeEnd address size)) scanTurn turns ⟨c, address⟩).map Scan.cache

/-- The pages whose entries are read. -/
def pagesRead (turns : Nat) (c : CodeCache) (address : Word) (size : Nat) : Option (List Page) :=
  if size = 0 then some []
  else
    (visits (scanning (rangeEnd address size)) scanTurn turns ⟨c, address⟩).map fun states =>
      states.map fun s => page s.addr

def InRange (address : Word) (size : Nat) (p : Page) : Prop :=
  ∃ a : Word, page a = p ∧ address ≤ a ∧ a.toNat < address.toNat + size

def Overlaps (c : CodeCache) (address : Word) (size : Nat) (i : Word) : Prop :=
  i.toNat % 4 = 0 ∧ c.compiled i = true ∧ address.toNat < i.toNat + 4 ∧
    i.toNat < address.toNat + size

/-- The range is invalidated. -/
def InvalidatesRange (c : CodeCache) (address : Word) (size : Nat) : Prop :=
  ∃ turns pages after, pagesRead turns c address size = some pages ∧
    invalidateCachedCodeHacktarux turns c address size = some after ∧
    (∀ p ∈ pages, InRange address size p) ∧
    ∀ i, Overlaps c address size i → after.invalidCode (page i) = true

theorem toNat_lastSlot_add (address : Word) :
    (lastSlot address + 4#32).toNat = (address.toNat / 0x1000 * 0x1000 + 0x1000) % 2 ^ 32 := by
  have hlast : (lastSlot address).toNat = address.toNat - address.toNat % 0x1000 + 0xFFC :=
    toNat_or_page address 0xFFC#32
  rw [BitVec.toNat_add, hlast, BitVec.toNat_ofNat]
  omega

def Leaves (s : Scan) : Prop :=
  s.cache.invalidCode (page s.addr) = true ∨ s.cache.blocks (page s.addr) = none ∨
    s.cache.compiled s.addr = true

theorem scanTurn_cases (s : Scan) :
    (Leaves s ∧ scanTurn s = ⟨s.cache.invalidate (page s.addr), lastSlot s.addr + 4#32⟩) ∨
      ¬ Leaves s ∧ scanTurn s = ⟨s.cache, s.addr + 4#32⟩ := by
  obtain ⟨c, a⟩ := s
  simp only [Leaves, scanTurn, CodeCache.compiled]
  cases hinvalid : c.invalidCode (page a) with
  | true =>
    refine .inl ⟨.inl rfl, ?_⟩
    rw [if_neg Bool.noConfusion, CodeCache.invalidate, ← hinvalid, Function.update_eq_self]
  | false =>
    rw [if_pos rfl]
    cases hblock : c.blocks (page a) with
    | none => exact .inl ⟨.inr (.inl rfl), if_pos rfl⟩
    | some block =>
      simp only [Option.elim_some, reduceCtorEq, false_or, Bool.false_eq_true]
      by_cases hcompiled : block (slot a) = true
      · exact .inl ⟨hcompiled, if_pos hcompiled⟩
      · exact .inr ⟨hcompiled, if_neg hcompiled⟩

theorem compiled_congr {c : CodeCache} {a b : Word} (h : a.toNat / 4 = b.toNat / 4) :
    c.compiled a = c.compiled b := by
  have hpage : page a = page b := by
    apply BitVec.eq_of_toNat_eq
    rw [toNat_page, toNat_page]
    omega
  have hslot : slot a = slot b := by
    apply BitVec.eq_of_toNat_eq
    rw [slot, slot, BitVec.toNat_setWidth, BitVec.toNat_setWidth, BitVec.toNat_udiv,
      BitVec.toNat_udiv, toNat_and_mask a _ (n := 12) rfl, toNat_and_mask b _ (n := 12) rfl,
      show (4#32).toNat = 4 from rfl]
    omega
  rw [CodeCache.compiled, CodeCache.compiled, hpage, hslot]

def Ahead (s : Scan) (i : Word) : Prop :=
  i.toNat % 4 = 0 ∧ s.cache.compiled i = true ∧ s.addr.toNat < i.toNat + 4

def Breaks (s : Scan) (q : Page) : Prop :=
  s.cache.invalidCode q = true ∨ s.cache.blocks q = none ∨ ∃ i, page i = q ∧ Ahead s i

def Realigned (s : Scan) (p : Page) : Prop := ∃ q, page s.addr ≤ q ∧ q < p ∧ Breaks s q

open Classical in
noncomputable def carried (s : Scan) (p : Page) : Nat :=
  if Realigned s p then 0 else s.addr.toNat % 4

def Meets (addrMax : Word) (s : Scan) (p : Page) : Prop :=
  ∃ i, page i = p ∧ Ahead s i ∧ i.toNat + carried s p < addrMax.toNat

theorem carried_le (s : Scan) (p : Page) : carried s p ≤ s.addr.toNat % 4 := by
  rw [carried]
  split_ifs
  · exact Nat.zero_le _
  · exact le_refl _

theorem carried_self (s : Scan) : carried s (page s.addr) = s.addr.toNat % 4 := by
  rw [carried, if_neg]
  rintro ⟨q, hle, hlt, -⟩
  rw [BitVec.le_def] at hle
  rw [BitVec.lt_def] at hlt
  omega

variable {s : Scan}

variable {p : Page}

theorem carried_of_realigned (h : Realigned s p) : carried s p = 0 :=
  if_pos h

theorem page_le_of_ahead {i : Word} (h : Ahead s i) : page s.addr ≤ page i := by
  obtain ⟨haligned, -, hlt⟩ := h
  rw [BitVec.le_def, toNat_page, toNat_page]
  omega

theorem exists_ahead_of_compiled (h : s.cache.compiled s.addr = true) :
    ∃ i, page i = page s.addr ∧ Ahead s i ∧ i.toNat + s.addr.toNat % 4 = s.addr.toNat := by
  have hlt := s.addr.isLt
  have hword : (BitVec.ofNat 32 (s.addr.toNat / 4 * 4)).toNat = s.addr.toNat / 4 * 4 := by
    rw [BitVec.toNat_ofNat]
    omega
  refine ⟨BitVec.ofNat 32 (s.addr.toNat / 4 * 4), ?_, ⟨?_, ?_, ?_⟩, ?_⟩
  · apply BitVec.eq_of_toNat_eq
    rw [toNat_page, toNat_page, hword]
    omega
  · rw [hword]
    omega
  · rw [compiled_congr (b := s.addr) (by omega), h]
  · omega
  · omega

theorem meets_of_compiled {addrMax : Word} (h : s.cache.compiled s.addr = true)
    (hgo : s.addr < addrMax) : Meets addrMax s (page s.addr) := by
  obtain ⟨i, hpage, hahead, hi⟩ := exists_ahead_of_compiled h
  refine ⟨i, hpage, hahead, ?_⟩
  rwa [carried_self, hi, ← BitVec.lt_def]

theorem breaks_of_leaves (h : Leaves s) : Breaks s (page s.addr) := by
  rcases h with h | h | h
  · exact .inl h
  · exact .inr (.inl h)
  · obtain ⟨i, hpage, hahead, -⟩ := exists_ahead_of_compiled h
    exact .inr (.inr ⟨i, hpage, hahead⟩)

section GoesOn

variable {s : Scan} (hs : ¬ Leaves s) (hlast : s.addr.toNat + 4 < 2 ^ 32)

include hlast in
theorem toNat_addr_succ : (s.addr + 4#32).toNat = s.addr.toNat + 4 := by
  rw [BitVec.toNat_add, BitVec.toNat_ofNat]
  omega

include hs in
theorem add_four_lt_of_ahead {i : Word} (h : Ahead s i) : s.addr.toNat + 4 < i.toNat + 4 := by
  obtain ⟨haligned, hcompiled, hlt⟩ := h
  by_contra hle
  have hsame : s.cache.compiled s.addr = s.cache.compiled i := compiled_congr (by omega)
  exact hs (.inr (.inr (hsame.trans hcompiled)))

include hs hlast in
theorem ahead_succ_iff {i : Word} : Ahead ⟨s.cache, s.addr + 4#32⟩ i ↔ Ahead s i := by
  constructor
  · rintro ⟨haligned, hcompiled, hlt⟩
    rw [toNat_addr_succ hlast] at hlt
    exact ⟨haligned, hcompiled, by omega⟩
  · intro h
    have hlt := add_four_lt_of_ahead hs h
    refine ⟨h.1, h.2.1, ?_⟩
    rwa [toNat_addr_succ hlast]

include hs hlast in
theorem breaks_succ_iff {q : Page} : Breaks ⟨s.cache, s.addr + 4#32⟩ q ↔ Breaks s q := by
  simp only [Breaks, ahead_succ_iff hs hlast]

include hs hlast in
theorem page_succ_le_of_breaks {q : Page} (hq : page s.addr ≤ q) (h : Breaks s q) :
    page (s.addr + 4#32) ≤ q := by
  by_cases hsame : q = page s.addr
  · rw [Breaks, hsame] at h
    rcases h with h | h | ⟨i, hi, h⟩
    · exact absurd (Or.inl h) hs
    · exact absurd (Or.inr (Or.inl h)) hs
    · have hle := page_le_of_ahead ((ahead_succ_iff hs hlast).mpr h)
      rw [hsame, ← hi]
      exact hle
  · have hne : q.toNat ≠ (page s.addr).toNat := fun h => hsame (BitVec.eq_of_toNat_eq h)
    rw [BitVec.le_def] at hq ⊢
    rw [toNat_page] at hq hne ⊢
    rw [toNat_addr_succ hlast]
    omega

include hs hlast in
theorem realigned_succ_iff : Realigned ⟨s.cache, s.addr + 4#32⟩ p ↔ Realigned s p := by
  constructor
  · rintro ⟨q, hle, hlt, hbreaks⟩
    refine ⟨q, ?_, hlt, (breaks_succ_iff hs hlast).mp hbreaks⟩
    rw [BitVec.le_def, toNat_page] at hle ⊢
    rw [toNat_addr_succ hlast] at hle
    omega
  · rintro ⟨q, hle, hlt, hbreaks⟩
    exact ⟨q, page_succ_le_of_breaks hs hlast hle hbreaks, hlt,
      (breaks_succ_iff hs hlast).mpr hbreaks⟩

include hs hlast in
theorem carried_succ (p : Page) : carried ⟨s.cache, s.addr + 4#32⟩ p = carried s p := by
  have hmod : (s.addr + 4#32).toNat % 4 = s.addr.toNat % 4 := by
    rw [toNat_addr_succ hlast]
    omega
  by_cases h : Realigned s p
  · rw [carried_of_realigned h, carried_of_realigned ((realigned_succ_iff hs hlast).mpr h)]
  · rw [carried, carried, if_neg h, if_neg fun h' => h ((realigned_succ_iff hs hlast).mp h'), hmod]

include hs hlast in
theorem meets_succ_iff {addrMax : Word} :
    Meets addrMax ⟨s.cache, s.addr + 4#32⟩ p ↔ Meets addrMax s p := by
  simp only [Meets, ahead_succ_iff hs hlast, carried_succ hs hlast]

end GoesOn

section LeavesPage

variable {s : Scan} (hs : Leaves s) (hlast : page s.addr ≠ BitVec.allOnes 20)

include hlast in
theorem toNat_addr_next : (lastSlot s.addr + 4#32).toNat = (page s.addr).toNat * 0x1000 + 0x1000 := by
  have hlt := (page s.addr).isLt
  have hne : (page s.addr).toNat ≠ 2 ^ 20 - 1 := fun h =>
    hlast (BitVec.eq_of_toNat_eq (h.trans (BitVec.toNat_allOnes).symm))
  rw [toNat_page] at hlt hne ⊢
  rw [toNat_lastSlot_add]
  omega

@[simp] theorem compiled_invalidate (c : CodeCache) (p : Page) (i : Word) :
    (c.invalidate p).compiled i = c.compiled i := rfl

include hlast in
theorem ahead_next_iff {i : Word} (hi : page i ≠ page s.addr) :
    Ahead ⟨s.cache.invalidate (page s.addr), lastSlot s.addr + 4#32⟩ i ↔ Ahead s i := by
  have hnext := toNat_addr_next hlast
  have hne : (page i).toNat ≠ (page s.addr).toNat := fun h => hi (BitVec.eq_of_toNat_eq h)
  rw [toNat_page] at hnext
  rw [toNat_page, toNat_page] at hne
  simp only [Ahead, compiled_invalidate, hnext]
  refine and_congr_right fun haligned => and_congr_right fun _ => ?_
  omega

include hs hlast in
theorem carried_next (hp : page s.addr < p) :
    carried ⟨s.cache.invalidate (page s.addr), lastSlot s.addr + 4#32⟩ p = 0 ∧
      carried s p = 0 := by
  constructor
  · have hle := carried_le ⟨s.cache.invalidate (page s.addr), lastSlot s.addr + 4#32⟩ p
    simp only [toNat_addr_next hlast] at hle
    omega
  · exact carried_of_realigned ⟨page s.addr, BitVec.le_refl _, hp, breaks_of_leaves hs⟩

include hs hlast in
theorem meets_next_iff {addrMax : Word} (hp : p ≠ page s.addr) :
    Meets addrMax ⟨s.cache.invalidate (page s.addr), lastSlot s.addr + 4#32⟩ p ↔
      Meets addrMax s p := by
  have hbehind : ∀ {i}, page i = p → Ahead s i → page s.addr < p := by
    rintro i rfl h
    have hle := page_le_of_ahead h
    have hne : (page i).toNat ≠ (page s.addr).toNat := fun h => hp (BitVec.eq_of_toNat_eq h)
    rw [BitVec.le_def] at hle
    rw [BitVec.lt_def]
    omega
  constructor
  · rintro ⟨i, rfl, hi, hlt⟩
    have hahead := (ahead_next_iff hlast hp).mp hi
    obtain ⟨hnew, hold⟩ := carried_next hs hlast (hbehind rfl hahead)
    exact ⟨i, rfl, hahead, by rwa [hold, ← hnew]⟩
  · rintro ⟨i, rfl, hi, hlt⟩
    obtain ⟨hnew, hold⟩ := carried_next hs hlast (hbehind rfl hi)
    exact ⟨i, rfl, (ahead_next_iff hlast hp).mpr hi, by rwa [hnew, ← hold]⟩

end LeavesPage

def lastPage : Page := BitVec.allOnes 20

/-- The scan does not come to the last page, or ends in it before it leaves it. -/
def EndsInTime (addrMax : Word) (s : Scan) : Prop :=
  max s.addr.toNat (0xFFFFF000 + carried s lastPage) < addrMax.toNat →
    s.cache.invalidCode lastPage = false ∧ s.cache.blocks lastPage ≠ none ∧
      addrMax.toNat ≤ 0xFFFFFFFC + carried s lastPage ∧ ¬ Meets addrMax s lastPage

theorem toNat_lastPage : lastPage.toNat = 0xFFFFF := rfl

theorem page_eq_lastPage_iff {a : Word} : page a = lastPage ↔ 0xFFFFF000 ≤ a.toNat := by
  have hlt := a.isLt
  rw [← BitVec.toNat_inj, toNat_page, toNat_lastPage]
  omega

section Turn

variable {addrMax : Word} {s : Scan}

theorem addr_succ_le (hs : ¬ Leaves s) (hlast : s.addr.toNat + 4 < 2 ^ 32)
    (hpage : page s.addr ≠ lastPage) :
    s.addr.toNat + 4 ≤ 0xFFFFF000 + carried s lastPage := by
  rw [Ne, page_eq_lastPage_iff] at hpage
  by_cases h : Realigned s lastPage
  · obtain ⟨q, hle, hlt, hbreaks⟩ := h
    have hnext := page_succ_le_of_breaks hs hlast hle hbreaks
    rw [BitVec.le_def, toNat_page, toNat_addr_succ hlast] at hnext
    rw [BitVec.lt_def, toNat_lastPage] at hlt
    omega
  · rw [carried, if_neg h]
    omega

theorem endsInTime_succ_iff (hs : ¬ Leaves s) (hlast : s.addr.toNat + 4 < 2 ^ 32)
    (hgo : s.addr < addrMax) :
    EndsInTime addrMax ⟨s.cache, s.addr + 4#32⟩ ↔ EndsInTime addrMax s := by
  simp only [EndsInTime, meets_succ_iff hs hlast, carried_succ hs hlast, toNat_addr_succ hlast]
  rw [BitVec.lt_def] at hgo
  by_cases hpage : page s.addr = lastPage
  · have hcarried : carried s lastPage = s.addr.toNat % 4 := by
      rw [← hpage]
      exact carried_self s
    rw [page_eq_lastPage_iff] at hpage
    rw [hcarried, max_eq_left (by omega), max_eq_left (by omega)]
    refine ⟨fun h _ => ?_, fun h _ => h hgo⟩
    by_cases hend : s.addr.toNat + 4 < addrMax.toNat
    · exact h hend
    · rw [← page_eq_lastPage_iff] at hpage
      rw [Leaves, hpage, not_or, not_or] at hs
      refine ⟨Bool.eq_false_iff.mpr hs.1, hs.2.1, by omega, ?_⟩
      rintro ⟨i, hi, hahead, hlt⟩
      have hbehind := add_four_lt_of_ahead (by rwa [Leaves, hpage, not_or, not_or]) hahead
      have haligned := hahead.1
      omega
  · have hle := addr_succ_le hs hlast hpage
    rw [max_eq_right (by omega), max_eq_right (by omega)]

theorem not_endsInTime_of_wrap (hlast : ¬ s.addr.toNat + 4 < 2 ^ 32)
    (hgo : s.addr < addrMax) :
    ¬ EndsInTime addrMax ⟨s.cache, s.addr + 4#32⟩ ∧ ¬ EndsInTime addrMax s := by
  have hlt := s.addr.isLt
  have hcarried : carried s lastPage = s.addr.toNat % 4 := by
    rw [← page_eq_lastPage_iff.mpr (show 0xFFFFF000 ≤ s.addr.toNat by omega)]
    exact carried_self s
  have hnext : (s.addr + 4#32).toNat = s.addr.toNat % 4 := by
    rw [BitVec.toNat_add, BitVec.toNat_ofNat]
    omega
  have hle := carried_le ⟨s.cache, s.addr + 4#32⟩ lastPage
  simp only [hnext] at hle
  rw [BitVec.lt_def] at hgo
  constructor
  · intro h
    have hend := (h (by simp only [hnext]; omega)).2.2.1
    omega
  · intro h
    have hend := (h (by rw [hcarried]; omega)).2.2.1
    omega

theorem endsInTime_next_iff (hs : Leaves s) (hpage : page s.addr ≠ lastPage) :
    EndsInTime addrMax ⟨s.cache.invalidate (page s.addr), lastSlot s.addr + 4#32⟩ ↔
      EndsInTime addrMax s := by
  have hbehind : page s.addr < lastPage := by
    have hne : (page s.addr).toNat ≠ lastPage.toNat := fun h => hpage (BitVec.eq_of_toNat_eq h)
    have hlt := (page s.addr).isLt
    rw [toNat_lastPage] at hne
    rw [BitVec.lt_def, toNat_lastPage]
    omega
  obtain ⟨hnew, hold⟩ := carried_next hs hpage hbehind
  have hnext := toNat_addr_next hpage
  rw [BitVec.lt_def, toNat_lastPage] at hbehind
  have haddr : s.addr.toNat < 0xFFFFF000 := by
    rw [toNat_page] at hbehind
    omega
  simp only [EndsInTime, meets_next_iff hs hpage (Ne.symm hpage), hnew, hold, hnext]
  rw [max_eq_right (by omega), max_eq_right (by omega)]
  simp only [CodeCache.invalidate, Function.update_of_ne (Ne.symm hpage)]

theorem not_endsInTime_of_leaves (hs : Leaves s) (hpage : page s.addr = lastPage)
    (hgo : s.addr < addrMax) :
    ¬ EndsInTime addrMax ⟨s.cache.invalidate (page s.addr), lastSlot s.addr + 4#32⟩ ∧
      ¬ EndsInTime addrMax s := by
  have hself : carried s lastPage = s.addr.toNat % 4 := by
    rw [← hpage]
    exact carried_self s
  have haddr := page_eq_lastPage_iff.mp hpage
  have hnext : (lastSlot s.addr + 4#32).toNat = 0 := by
    have hlt := s.addr.isLt
    rw [toNat_lastSlot_add]
    omega
  have hle := carried_le
    ⟨s.cache.invalidate (page s.addr), lastSlot s.addr + 4#32⟩ lastPage
  simp only [hnext] at hle
  rw [BitVec.lt_def] at hgo
  constructor
  · intro h
    have hvalid := (h (by simp only [hnext]; omega)).1
    rw [hpage] at hvalid
    simp only [CodeCache.invalidate, Function.update_self] at hvalid
    exact absurd hvalid (by decide)
  · intro h
    obtain ⟨hvalid, hblock, -, hmeets⟩ := h (by rw [hself]; omega)
    rw [Leaves, hpage, hvalid] at hs
    rcases hs with hs | hs | hs
    · exact absurd hs (by decide)
    · exact hblock hs
    · exact hmeets (hpage ▸ meets_of_compiled hs (BitVec.lt_def.mpr hgo))

theorem endsInTime_scanTurn_iff (hgo : s.addr < addrMax) :
    EndsInTime addrMax (scanTurn s) ↔ EndsInTime addrMax s := by
  rcases scanTurn_cases s with ⟨hs, heq⟩ | ⟨hs, heq⟩ <;> rw [heq]
  · by_cases hpage : page s.addr = lastPage
    · obtain ⟨hnew, hold⟩ := not_endsInTime_of_leaves hs hpage hgo
      exact iff_of_false hnew hold
    · exact endsInTime_next_iff hs hpage
  · by_cases hlast : s.addr.toNat + 4 < 2 ^ 32
    · exact endsInTime_succ_iff hs hlast hgo
    · obtain ⟨hnew, hold⟩ := not_endsInTime_of_wrap hlast hgo
      exact iff_of_false hnew hold

theorem lt_of_not_endsInTime (h : ¬ EndsInTime addrMax s) : s.addr < addrMax := by
  rw [EndsInTime, Classical.not_imp] at h
  exact BitVec.lt_def.mpr (lt_of_le_of_lt (le_max_left _ _) h.1)

/-- The pages that are marked behind the scan: those marked already and those where it meets a
compiled instruction. -/
def Marked (addrMax : Word) (s : Scan) (p : Page) : Prop :=
  s.cache.invalidCode p = true ∨ Meets addrMax s p

theorem lt_scanTurn (hend : EndsInTime addrMax s) (hgo : s.addr < addrMax) :
    s.addr.toNat < (scanTurn s).addr.toNat := by
  rcases scanTurn_cases s with ⟨hs, heq⟩ | ⟨hs, heq⟩ <;> rw [heq]
  · have hpage : page s.addr ≠ lastPage := fun hpage =>
      (not_endsInTime_of_leaves hs hpage hgo).2 hend
    rw [toNat_addr_next hpage, toNat_page]
    omega
  · have hlast : s.addr.toNat + 4 < 2 ^ 32 := by
      by_contra hlast
      exact (not_endsInTime_of_wrap hlast hgo).2 hend
    rw [toNat_addr_succ hlast]
    omega

theorem marked_scanTurn_iff (hend : EndsInTime addrMax s) (hgo : s.addr < addrMax)
    (hblock : s.cache.blocks p ≠ none) : Marked addrMax (scanTurn s) p ↔ Marked addrMax s p := by
  rcases scanTurn_cases s with ⟨hs, heq⟩ | ⟨hs, heq⟩ <;> rw [heq]
  · have hpage : page s.addr ≠ lastPage := fun hpage =>
      (not_endsInTime_of_leaves hs hpage hgo).2 hend
    by_cases hp : p = page s.addr
    · subst hp
      refine iff_of_true (.inl ?_) ?_
      · simp only [CodeCache.invalidate, Function.update_self]
      · rcases hs with hs | hs | hs
        · exact .inl hs
        · exact absurd hs hblock
        · exact .inr (meets_of_compiled hs hgo)
    · rw [Marked, Marked, meets_next_iff hs hpage hp]
      simp only [CodeCache.invalidate, Function.update_of_ne hp]
  · have hlast : s.addr.toNat + 4 < 2 ^ 32 := by
      by_contra hlast
      exact (not_endsInTime_of_wrap hlast hgo).2 hend
    rw [Marked, Marked, meets_succ_iff hs hlast]

theorem blocks_scanTurn (s : Scan) : (scanTurn s).cache.blocks = s.cache.blocks := by
  rcases scanTurn_cases s with ⟨-, heq⟩ | ⟨-, heq⟩ <;> rw [heq]
  rfl

theorem not_meets_of_le (h : ¬ s.addr < addrMax) (p : Page) : ¬ Meets addrMax s p := by
  rintro ⟨i, rfl, ⟨haligned, -, hahead⟩, hlt⟩
  rw [BitVec.lt_def] at h
  have hpage : page i = page s.addr := by
    apply BitVec.eq_of_toNat_eq
    rw [toNat_page, toNat_page]
    omega
  rw [hpage, carried_self] at hlt
  omega

end Turn

section Range

variable {c : CodeCache} {address : Word} {size : Nat}

def MarksAll (c : CodeCache) (address : Word) (size : Nat) : Prop :=
  ∀ i, Overlaps c address size i → Marked (rangeEnd address size) ⟨c, address⟩ (page i)

/-- A scan passes the last word of the range. -/
def PassesLast (c : CodeCache) (address : Word) (size : Nat) : Prop :=
  (address.toNat + size - 1) % 4 < address.toNat % 4 ∧
    (∀ p, InRange address size p → c.invalidCode p = false ∧ c.blocks p ≠ none) ∧
    (∃ i, Overlaps c address size i) ∧
    ∀ i, Overlaps c address size i → i.toNat = (address.toNat + size - 1) / 4 * 4

variable {addrMax : Word} {s : Scan} {i : Word}

theorem visits_of_not_endsInTime (h : ¬ EndsInTime addrMax s) (turns : Nat) :
    visits (scanning addrMax) scanTurn turns s = none := by
  apply visits_eq_none (P := fun s => ¬ EndsInTime addrMax s) _ _ turns h
  · intro s hs
    exact decide_eq_true (lt_of_not_endsInTime hs)
  · intro s hs
    rwa [endsInTime_scanTurn_iff (lt_of_not_endsInTime hs)]

/-- What a scan that ends keeps. -/
structure Scanned (addrMax : Word) (s₀ s : Scan) : Prop where
  ends : EndsInTime addrMax s
  forward : s₀.addr.toNat ≤ s.addr.toNat
  blocks : s.cache.blocks = s₀.cache.blocks
  marked : ∀ p, s₀.cache.blocks p ≠ none → (Marked addrMax s p ↔ Marked addrMax s₀ p)

theorem Scanned.turn {s₀ : Scan} (h : Scanned addrMax s₀ s) (hgo : s.addr < addrMax) :
    Scanned addrMax s₀ (scanTurn s) where
  ends := (endsInTime_scanTurn_iff hgo).mpr h.ends
  forward := h.forward.trans (lt_scanTurn h.ends hgo).le
  blocks := (blocks_scanTurn s).trans h.blocks
  marked p hp := by
    rw [marked_scanTurn_iff h.ends hgo (h.blocks ▸ hp), h.marked p hp]

theorem Scanned.refl (h : EndsInTime addrMax s) : Scanned addrMax s s :=
  { ends := h, forward := le_refl _, blocks := rfl, marked := fun _ _ => Iff.rfl }

theorem visits_of_endsInTime (h : EndsInTime addrMax s) :
    ∃ turns states, visits (scanning addrMax) scanTurn turns s = some states ∧
      ∀ t ∈ states, s.addr.toNat ≤ t.addr.toNat ∧ t.addr < addrMax := by
  obtain ⟨states, hstates, hmem⟩ := @visits_of_measure Scan (scanning addrMax) scanTurn
    (Scanned addrMax s) (fun t => addrMax.toNat - t.addr.toNat)
    (by
      intro t ht hgo
      have hlt := BitVec.lt_def.mp (of_decide_eq_true hgo)
      omega)
    (by
      intro t ht hgo
      have hlt := of_decide_eq_true hgo
      have hforward := lt_scanTurn ht.ends hlt
      refine ⟨ht.turn hlt, ?_⟩
      rw [BitVec.lt_def] at hlt
      omega)
    _ s (Scanned.refl h) (le_refl _)
  refine ⟨_, states, hstates, fun t ht => ?_⟩
  obtain ⟨hscanned, hgo⟩ := hmem t ht
  exact ⟨hscanned.forward, of_decide_eq_true hgo⟩

theorem marked_of_leaves {after : Scan} (h : EndsInTime addrMax s) {turns : Nat}
    (hleaves : leaves (scanning addrMax) scanTurn turns s = some after)
    (hp : s.cache.blocks p ≠ none) : after.cache.invalidCode p = true ↔ Marked addrMax s p := by
  obtain ⟨hscanned, hstop⟩ := leaves_induct (P := Scanned addrMax s)
    (fun t ht hgo => ht.turn (of_decide_eq_true hgo)) _ (Scanned.refl h) hleaves
  have hmeets := not_meets_of_le (fun hlt => hstop (decide_eq_true hlt)) p
  rw [← hscanned.marked p hp, Marked, or_iff_left hmeets]

theorem toNat_rangeEnd (address : Word) (size : Nat) :
    (rangeEnd address size).toNat = (address.toNat + size) % 2 ^ 32 := by
  rw [rangeEnd, BitVec.toNat_add, BitVec.toNat_ofNat]
  omega

theorem blocks_ne_none_of_overlaps (h : Overlaps c address size i) : c.blocks (page i) ≠ none := by
  intro hnone
  have hcompiled := h.2.1
  rw [CodeCache.compiled, hnone] at hcompiled
  exact absurd hcompiled Bool.false_ne_true

theorem invalidatesRange_iff_marksAll (hsize : 0 < size) :
    InvalidatesRange c address size ↔
      EndsInTime (rangeEnd address size) ⟨c, address⟩ ∧ MarksAll c address size := by
  have hne : ¬ size = 0 := by omega
  simp only [InvalidatesRange, pagesRead, invalidateCachedCodeHacktarux, if_neg hne]
  constructor
  · rintro ⟨turns, pages, after, hpages, hafter, -, hmarked⟩
    have hend : EndsInTime (rangeEnd address size) ⟨c, address⟩ := by
      by_contra hend
      rw [visits_of_not_endsInTime hend, Option.map_none] at hpages
      exact absurd hpages (Option.some_ne_none pages).symm
    obtain ⟨s, hs, rfl⟩ := Option.map_eq_some_iff.mp hafter
    refine ⟨hend, fun i hi => ?_⟩
    rw [← marked_of_leaves hend hs (blocks_ne_none_of_overlaps hi)]
    exact hmarked i hi
  · rintro ⟨hend, hmarked⟩
    obtain ⟨turns, states, hstates, hmem⟩ := visits_of_endsInTime hend
    obtain ⟨after, hafter⟩ : ∃ after,
        leaves (scanning (rangeEnd address size)) scanTurn turns ⟨c, address⟩ = some after := by
      rw [← Option.isSome_iff_exists, isSome_leaves, hstates, Option.isSome_some]
    refine ⟨turns, states.map fun s => page s.addr, after.cache, by rw [hstates, Option.map_some],
      by rw [hafter, Option.map_some], fun p hp => ?_, fun i hi => ?_⟩
    · obtain ⟨t, ht, rfl⟩ := List.mem_map.mp hp
      obtain ⟨hle, hlt⟩ := hmem t ht
      rw [BitVec.lt_def, toNat_rangeEnd] at hlt
      exact ⟨t.addr, rfl, BitVec.le_def.mpr hle,
        lt_of_lt_of_le hlt (Nat.mod_le _ _)⟩
    · rw [marked_of_leaves hend hafter (blocks_ne_none_of_overlaps hi)]
      exact hmarked i hi

theorem ahead_iff_of_overlaps :
    Overlaps c address size i ↔ Ahead ⟨c, address⟩ i ∧ i.toNat < address.toNat + size := by
  simp only [Overlaps, Ahead, and_assoc]

theorem inRange_of_overlaps (h : Overlaps c address size i) {q : Page} (hle : page address ≤ q)
    (hge : q ≤ page i) (hsize : 0 < size) : InRange address size q := by
  obtain ⟨haligned, -, hahead, hlt⟩ := h
  rw [BitVec.le_def, toNat_page] at hle hge
  by_cases hq : q = page address
  · exact ⟨address, hq.symm, BitVec.le_refl _, by omega⟩
  · have hne : q.toNat ≠ (page address).toNat := fun h => hq (BitVec.eq_of_toNat_eq h)
    have hbase := Tlb.toNat_base q
    rw [toNat_page] at hne
    refine ⟨Tlb.base q, ?_, BitVec.le_def.mpr (by omega), by omega⟩
    apply BitVec.eq_of_toNat_eq
    rw [toNat_page]
    omega

theorem passesLast_of_not_marked (hsmall : address.toNat + size < 2 ^ 32)
    (hi : Overlaps c address size i)
    (hmarked : ¬ Marked (rangeEnd address size) ⟨c, address⟩ (page i)) :
    PassesLast c address size := by
  have hbound : (rangeEnd address size).toNat = address.toNat + size := by
    rw [toNat_rangeEnd, Nat.mod_eq_of_lt hsmall]
  rw [Marked, not_or, Meets] at hmarked
  obtain ⟨hvalid, hmeets⟩ := hmarked
  have hpassed : ∀ j, page j = page i → Ahead ⟨c, address⟩ j →
      address.toNat + size ≤ j.toNat + carried ⟨c, address⟩ (page i) := by
    intro j hj hahead
    by_contra hlt
    exact hmeets ⟨j, hj, hahead, by omega⟩
  have hahead := (ahead_iff_of_overlaps.mp hi).1
  have hlast := hpassed i rfl hahead
  have hend := hi.2.2.2
  have haligned := hi.1
  have hstraight : ¬ Realigned ⟨c, address⟩ (page i) := by
    intro h
    rw [carried_of_realigned h] at hlast
    omega
  rw [carried, if_neg hstraight] at hpassed hlast
  have hkept : ∀ q, page address ≤ q → q < page i → ¬ Breaks ⟨c, address⟩ q :=
    fun q hle hlt hbreaks => hstraight ⟨q, hle, hlt, hbreaks⟩
  refine ⟨by simp only at hlast; omega, fun p hp => ?_, ⟨i, hi⟩, fun j hj => ?_⟩
  · obtain ⟨a, rfl, hle, hlt⟩ := hp
    by_cases hp : page a = page i
    · rw [hp]
      exact ⟨Bool.eq_false_iff.mpr hvalid, blocks_ne_none_of_overlaps hi⟩
    · have hne : (page a).toNat ≠ (page i).toNat := fun h => hp (BitVec.eq_of_toNat_eq h)
      rw [BitVec.le_def] at hle
      have hbreaks := hkept (page a)
        (by rw [BitVec.le_def, toNat_page, toNat_page]; omega)
        (by
          rw [BitVec.lt_def]
          simp only at hlast
          rw [toNat_page, toNat_page] at hne ⊢
          omega)
      rw [Breaks, not_or, not_or] at hbreaks
      exact ⟨Bool.eq_false_iff.mpr hbreaks.1, hbreaks.2.1⟩
  · have hjahead := (ahead_iff_of_overlaps.mp hj).1
    have hjend := hj.2.2.2
    have hjaligned := hj.1
    have hle := page_le_of_ahead hjahead
    simp only at hlast hle
    by_cases hpage : page j = page i
    · have hjlast := hpassed j hpage hjahead
      simp only at hjlast
      omega
    · exfalso
      have hne : (page j).toNat ≠ (page i).toNat := fun h => hpage (BitVec.eq_of_toNat_eq h)
      refine hkept (page j) hle ?_ (.inr (.inr ⟨j, rfl, hjahead⟩))
      rw [BitVec.lt_def]
      rw [toNat_page, toNat_page] at hne ⊢
      omega

theorem not_marksAll_of_passesLast (hsize : 0 < size) (hsmall : address.toNat + size < 2 ^ 32)
    (h : PassesLast c address size) : ¬ MarksAll c address size := by
  obtain ⟨hoffset, hvalid, ⟨i, hi⟩, honly⟩ := h
  intro hall
  have hilast := honly i hi
  have hstraight : ¬ Realigned ⟨c, address⟩ (page i) := by
    rintro ⟨q, hle, hlt, hbreaks⟩
    obtain ⟨hq, hblock⟩ := hvalid q (inRange_of_overlaps hi hle (BitVec.le_of_lt hlt) hsize)
    rcases hbreaks with h | h | ⟨j, rfl, hj⟩
    · exact Bool.false_ne_true (hq.symm.trans h)
    · exact hblock h
    · rw [BitVec.lt_def, toNat_page, toNat_page] at hlt
      have hend := hi.2.2.2
      have hjlast := honly j (ahead_iff_of_overlaps.mpr ⟨hj, by omega⟩)
      omega
  rcases hall i hi with h | ⟨j, hj, hahead, hlt⟩
  · have hle := page_le_of_ahead (ahead_iff_of_overlaps.mp hi).1
    have hpage := hvalid (page i) (inRange_of_overlaps hi hle (BitVec.le_refl _) hsize)
    exact Bool.false_ne_true (hpage.1.symm.trans h)
  · rw [carried, if_neg hstraight, toNat_rangeEnd, Nat.mod_eq_of_lt hsmall] at hlt
    have hjlast := honly j (ahead_iff_of_overlaps.mpr ⟨hahead, by omega⟩)
    simp only at hlt
    omega

theorem marksAll_iff (hsize : 0 < size) (hsmall : address.toNat + size < 2 ^ 32) :
    MarksAll c address size ↔ ¬ PassesLast c address size := by
  constructor
  · exact fun hall hpasses => not_marksAll_of_passesLast hsize hsmall hpasses hall
  · intro hnot i hi
    by_contra hmarked
    exact hnot (passesLast_of_not_marked hsmall hi hmarked)

/-- The exact condition under which a range is invalidated: the scan ends in time; where the range
ends below the end of all addresses, its last word is not passed; and where the range reaches the
end of all addresses, each page with a compiled instruction of it is marked already, or has one
that lies before the bound that has wrapped. -/
theorem invalidatesRange_iff (c : CodeCache) (address : Word) (size : Nat) (hsize : 0 < size) :
    InvalidatesRange c address size ↔
      EndsInTime (rangeEnd address size) ⟨c, address⟩ ∧
      (address.toNat + size < 2 ^ 32 → ¬ PassesLast c address size) ∧
      (2 ^ 32 ≤ address.toNat + size → MarksAll c address size) := by
  rw [invalidatesRange_iff_marksAll hsize]
  refine and_congr_right fun _ => ?_
  by_cases hsmall : address.toNat + size < 2 ^ 32
  · rw [marksAll_iff hsize hsmall]
    exact ⟨fun h => ⟨fun _ => h, fun hle => absurd hle (by omega)⟩, fun h => h.1 hsmall⟩
  · exact ⟨fun h => ⟨fun hlt => absurd hlt hsmall, fun _ => h⟩, fun h => h.2 (by omega)⟩

/-- A word at an unaligned address below the last page, where no code is kept yet. -/
theorem invalidatesRange_iff_word :
    InvalidatesRange ⟨fun _ => true, fun _ => none⟩ 0x80001002#32 4 :=
  (invalidatesRange_iff ⟨fun _ => true, fun _ => none⟩ 0x80001002#32 4 (by decide)).mpr
    ⟨fun h => absurd (lt_of_le_of_lt (le_max_right _ _) h) (by
      simp only [show (rangeEnd 0x80001002#32 4).toNat = 0x80001006 from rfl]
      omega),
    fun _ h => absurd (h.2.1 (page 0x80001002#32) ⟨_, rfl, by decide, by decide⟩).1 (by decide),
    fun h => absurd h (by decide)⟩

/-- A word in the last page, where no code is kept yet: the scan never ends. -/
theorem last_page_is_not_invalidated :
    ¬ ∀ (c : CodeCache) (address : Word) (size : Nat), 0 < size →
      InvalidatesRange c address size := by
  intro h
  obtain ⟨turns, pages, -, hpages, -⟩ :=
    h ⟨fun _ => true, fun _ => none⟩ 0xFFFFFFF0#32 4 (by decide)
  have hend : ¬ EndsInTime (rangeEnd 0xFFFFFFF0#32 4)
      ⟨⟨fun _ => true, fun _ => none⟩, 0xFFFFFFF0#32⟩ := by
    intro hend
    have hle := carried_le ⟨⟨fun _ => true, fun _ => none⟩, 0xFFFFFFF0#32⟩ lastPage
    have hzero : (0xFFFFFFF0#32).toNat % 4 = 0 := rfl
    have hvalid := (hend (by
      rw [max_lt_iff, show (rangeEnd 0xFFFFFFF0#32 4).toNat = 0xFFFFFFF4 from rfl]
      simp only at hle
      exact ⟨by decide, by omega⟩)).1
    exact absurd hvalid Bool.noConfusion
  rw [pagesRead, if_neg (by decide), visits_of_not_endsInTime hend, Option.map_none] at hpages
  exact absurd hpages (Option.some_ne_none pages).symm

end Range

end ParallelN64.R4300
