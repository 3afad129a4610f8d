import ParallelN64.R4300.Memory

/-!
# Probing the translation buffer

`TLBP` looks for the first entry whose page number agrees with that of EntryHi outside of the
page mask of the entry. The translation goes by the addresses that an entry was given when it was
written: from the page number as written on, for as many pages as the mask says. The two agree on
an entry whose mask is a run of ones that the page number written leaves clear.
-/

namespace ParallelN64.R4300

open Savestate (TlbEntry)
open Tlb

def vpn2Field (entryHi : Word) : Word := (entryHi &&& 0xFFFFE000#32) >>> 13

def maskOf (e : TlbEntry) : Word := e.mask.signExtend 32

def compared (e : TlbEntry) : Word := ~~~maskOf e

def Agrees (e : TlbEntry) (vpn2 : Word) : Prop := e.vpn2 &&& compared e = vpn2 &&& compared e

instance (e : TlbEntry) (vpn2 : Word) : Decidable (Agrees e vpn2) :=
  inferInstanceAs (Decidable (_ = _))

/-- An entry that `TLBP` takes. -/
def ProbeMatches (e : TlbEntry) (entryHi : Word) : Prop :=
  Agrees e (vpn2Field entryHi) ∧ (e.g ≠ 0#8 ∨ e.asid.setWidth 32 = entryHi &&& 0xFF#32)

instance (e : TlbEntry) (entryHi : Word) : Decidable (ProbeMatches e entryHi) :=
  inferInstanceAs (Decidable (_ ∧ _))

/-- The Index register behind `TLBP`. -/
def tlbp (entries : Fin 32 → TlbEntry) (index entryHi : Word) : Word :=
  ((List.finRange 32).find? fun i => ProbeMatches (entries i) entryHi).elim
    (index ||| 0x80000000#32) fun i => BitVec.ofNat 32 i

/-- `TLBP` reports an entry. -/
def Reports (entries : Fin 32 → TlbEntry) (index entryHi : Word) (i : Fin 32) : Prop :=
  tlbp entries index entryHi = BitVec.ofNat 32 i

theorem find?_finRange_eq_some_iff {n : Nat} {p : Fin n → Bool} {i : Fin n} :
    (List.finRange n).find? p = some i ↔ p i = true ∧ ∀ k < i, p k = false := by
  rw [List.find?_eq_some_iff_getElem]
  refine and_congr_right fun _ => ?_
  simp only [List.getElem_finRange, List.length_finRange, Bool.not_eq_true']
  constructor
  · rintro ⟨j, hj, heq, hbefore⟩ k hk
    have hk' : k.val < j := by
      rw [← heq] at hk
      exact hk
    exact hbefore k hk'
  · intro hbefore
    exact ⟨i, i.isLt, rfl, fun j hj => hbefore ⟨j, by omega⟩ hj⟩

theorem reports_iff {entries : Fin 32 → TlbEntry} {index entryHi : Word} {i : Fin 32} :
    Reports entries index entryHi i ↔
      ProbeMatches (entries i) entryHi ∧ ∀ k < i, ¬ ProbeMatches (entries k) entryHi := by
  have hfind : ((List.finRange 32).find? fun i => ProbeMatches (entries i) entryHi) = some i ↔
      ProbeMatches (entries i) entryHi ∧ ∀ k < i, ¬ ProbeMatches (entries k) entryHi := by
    rw [find?_finRange_eq_some_iff]
    simp only [decide_eq_true_eq, decide_eq_false_iff_not]
  rw [← hfind, Reports, tlbp]
  cases (List.finRange 32).find? fun i => ProbeMatches (entries i) entryHi with
  | none =>
    refine iff_of_false ?_ (Option.some_ne_none i).symm
    intro h
    have hmsb := congrArg BitVec.msb h
    simp only [Option.elim_none, BitVec.msb_or] at hmsb
    have hi := i.isLt
    have hsmall : (BitVec.ofNat 32 i.val).msb = false := by
      rw [BitVec.msb_eq_false_iff_two_mul_lt, BitVec.toNat_ofNat]
      omega
    rw [hsmall, show (0x80000000#32).msb = true from rfl, Bool.or_true] at hmsb
    exact absurd hmsb (by decide)
  | some k =>
    simp only [Option.elim_some, Option.some.injEq]
    constructor
    · intro h
      have hval := congrArg BitVec.toNat h
      have hk := k.isLt
      have hi := i.isLt
      rw [BitVec.toNat_ofNat, BitVec.toNat_ofNat] at hval
      exact Fin.ext (by omega)
    · rintro rfl
      rfl

def Through (t : Translation) (h : RomHacks) (i : Fin 32) (address : Word) : Prop :=
  h.goldenEye address = none ∧ ∃ value, entryValue .read (t.entries i) (page address) = some value ∧
    t.physical h .read address = some ((value &&& 0xFFFFF000#32) ||| (address &&& 0xFFF#32))

def InPair (vpn2 address : Word) : Prop := address >>> 13 = vpn2

def PairThrough (t : Translation) (h : RomHacks) (vpn2 : Word) (i : Fin 32) : Prop :=
  (∃ address, InPair vpn2 address ∧ Through t h i address) ∧
    ∀ address, InPair vpn2 address → ∀ k, Through t h k address → k = i

def InSpan (e : TlbEntry) (vpn2 : Word) : Prop :=
  (e.vEven ≠ 0#8 ∨ e.vOdd ≠ 0#8) ∧ ∃ p : Page, InPair vpn2 (base p) ∧
    (inRange e.startEven e.endEven p = true ∨ inRange e.startOdd e.endOdd p = true)

def Apart (entries : Fin 32 → TlbEntry) : Prop :=
  ∀ i k vpn2, InSpan (entries i) vpn2 → InSpan (entries k) vpn2 → i = k

theorem base_page_shift (address : Word) : base (page address) >>> 13 = address >>> 13 := by
  apply BitVec.eq_of_toNat_eq
  rw [BitVec.toNat_ushiftRight, BitVec.toNat_ushiftRight, toNat_base, toNat_page,
    Nat.shiftRight_eq_div_pow, Nat.shiftRight_eq_div_pow]
  omega

theorem inSpan_of_halfMaps {e : TlbEntry} {h : Half} {p : Page}
    (hhalf : h = even e ∨ h = odd e) (hmaps : halfMaps .read h p = true) :
    InSpan e (base p >>> 13) := by
  have hcovers := halfCovers_of_halfMaps hmaps
  rw [halfCovers, Bool.and_eq_true, active] at hcovers
  obtain ⟨hactive, hrange⟩ := hcovers
  rw [Bool.and_eq_true, decide_eq_true_eq] at hactive
  rcases hhalf with rfl | rfl
  · exact ⟨.inl hactive.1, p, rfl, .inl hrange⟩
  · exact ⟨.inr hactive.1, p, rfl, .inr hrange⟩

variable {t : Translation}

theorem Through.inSpan {h : RomHacks} {i : Fin 32} {address : Word}
    (hthrough : Through t h i address) : InSpan (t.entries i) (address >>> 13) := by
  obtain ⟨-, value, hvalue, -⟩ := hthrough
  obtain ⟨half, hhalf, hmaps, -⟩ := half_of_entryValue hvalue
  rw [← base_page_shift]
  exact inSpan_of_halfMaps hhalf hmaps

theorem pairThrough_iff {h : RomHacks} (hapart : Apart t.entries) {vpn2 : Word} {j : Fin 32}
    (hmapped : ∃ address, InPair vpn2 address ∧ Through t h j address) (i : Fin 32) :
    PairThrough t h vpn2 i ↔ i = j := by
  obtain ⟨a, ha, hthrough⟩ := hmapped
  have hspan := hthrough.inSpan
  have honly : ∀ address, InPair vpn2 address → ∀ k, Through t h k address → k = j := by
    intro address hpair k hk
    have hspan' := hk.inSpan
    rw [hpair] at hspan'
    rw [ha] at hspan
    exact hapart _ _ _ hspan' hspan
  constructor
  · rintro ⟨⟨address, hpair, hi⟩, -⟩
    exact honly address hpair i hi
  · rintro rfl
    exact ⟨⟨a, ha, hthrough⟩, honly⟩

section Masks

variable {e : TlbEntry} {vpn2 : Word}

/-- The mask is a run of ones that the page number written leaves clear. -/
def MaskAligned (e : TlbEntry) : Prop :=
  ∃ k, (maskOf e).toNat + 1 = 2 ^ k ∧ 2 ^ k ∣ e.vpn2.toNat

def HasHalf (e : TlbEntry) : Prop := e.vEven ≠ 0#8 ∨ e.vOdd ≠ 0#8

/-- The bits of the mask that were written in the page number and the distance to the page number
looked for add up to bits of the mask. -/
def InBlock (e : TlbEntry) (vpn2 : Word) : Prop :=
  ((e.vpn2 &&& maskOf e) + (vpn2 - e.vpn2)) &&& compared e = 0#32

/-- An entry as `TLBWrite` or power on leaves it. -/
def Written (e : TlbEntry) : Prop := e = blankEntry ∨ ∃ old regs, e = entryOf old regs

theorem and_disjoint (x m : Word) : (x &&& m) &&& (x &&& ~~~m) = 0#32 := by
  ext i
  simp only [BitVec.getElem_and, BitVec.getElem_not]
  cases x[i] <;> cases m[i] <;> simp

theorem and_add_and_not (x m : Word) : (x &&& m) + (x &&& ~~~m) = x := by
  rw [BitVec.add_eq_or_of_and_eq_zero _ _ (and_disjoint x m)]
  ext i
  simp only [BitVec.getElem_or, BitVec.getElem_and, BitVec.getElem_not]
  cases x[i] <;> cases m[i] <;> simp

theorem toNat_and_not {x m : Word} {k : Nat} (hm : m.toNat + 1 = 2 ^ k) :
    (x &&& ~~~m).toNat = x.toNat - x.toNat % 2 ^ k := by
  have hsum := congrArg BitVec.toNat (and_add_and_not x m)
  rw [BitVec.toNat_add_of_and_eq_zero (and_disjoint x m)] at hsum
  have hlow : (x &&& m).toNat = x.toNat % 2 ^ k := by
    rw [BitVec.toNat_and, ← Nat.and_two_pow_sub_one_eq_mod]
    exact congrArg (x.toNat &&& ·) (by omega)
  omega

theorem inBlock_iff_agrees : InBlock e vpn2 ↔ Agrees e vpn2 := by
  rw [InBlock, Agrees, compared]
  generalize maskOf e = m
  have hrest : (e.vpn2 &&& m) + (vpn2 - e.vpn2) = vpn2 - (e.vpn2 &&& ~~~m) := by
    have hsplit := and_add_and_not e.vpn2 m
    generalize e.vpn2 &&& m = low at hsplit ⊢
    generalize e.vpn2 &&& ~~~m = high at hsplit ⊢
    rw [← hsplit]
    bv_omega
  rw [hrest]
  constructor
  · intro h
    have hlow := and_add_and_not (vpn2 - (e.vpn2 &&& ~~~m)) m
    rw [h, BitVec.add_zero] at hlow
    have hvpn2 : vpn2 = (e.vpn2 &&& ~~~m) + ((vpn2 - (e.vpn2 &&& ~~~m)) &&& m) := by
      rw [hlow, BitVec.add_comm, BitVec.sub_add_cancel]
    have hdisjoint : (e.vpn2 &&& ~~~m) &&& ((vpn2 - (e.vpn2 &&& ~~~m)) &&& m) = 0#32 := by
      generalize vpn2 - (e.vpn2 &&& ~~~m) = rest
      ext i
      simp only [BitVec.getElem_and, BitVec.getElem_not, BitVec.getElem_zero]
      cases m[i] <;> simp
    rw [BitVec.add_eq_or_of_and_eq_zero _ _ hdisjoint] at hvpn2
    rw [hvpn2]
    generalize vpn2 - (e.vpn2 &&& ~~~m) = rest
    ext i
    simp only [BitVec.getElem_and, BitVec.getElem_or, BitVec.getElem_not]
    cases m[i] <;> simp
  · intro h
    have hsplit := and_add_and_not vpn2 m
    have hlow : vpn2 - (vpn2 &&& ~~~m) = vpn2 &&& m := by
      exact (BitVec.eq_sub_iff_add_eq.mpr hsplit).symm
    rw [h, hlow]
    ext i
    simp only [BitVec.getElem_and, BitVec.getElem_not, BitVec.getElem_zero]
    cases m[i] <;> simp

theorem agrees_iff_of_aligned {k : Nat} (hmask : (maskOf e).toNat + 1 = 2 ^ k)
    (hvpn2 : 2 ^ k ∣ e.vpn2.toNat) :
    Agrees e vpn2 ↔ e.vpn2.toNat ≤ vpn2.toNat ∧ vpn2.toNat < e.vpn2.toNat + 2 ^ k := by
  rw [Agrees, ← BitVec.toNat_inj, compared, toNat_and_not hmask, toNat_and_not hmask,
    Nat.mod_eq_zero_of_dvd hvpn2, Nat.sub_zero]
  obtain ⟨q, hq⟩ := hvpn2
  have hdiv := Nat.div_add_mod vpn2.toNat (2 ^ k)
  have hlt := Nat.mod_lt vpn2.toNat (Nat.two_pow_pos k)
  constructor
  · intro h
    omega
  · rintro ⟨hle, hbelow⟩
    have hquot : vpn2.toNat / 2 ^ k = q := by
      rw [hq] at hle hbelow
      exact Nat.div_eq_of_lt_le (by rwa [Nat.mul_comm]) (by rw [Nat.succ_mul, Nat.mul_comm q]; exact hbelow)
    rw [hquot] at hdiv
    omega

theorem inRange_iff {start stop : Word} {p : Page} : inRange start stop p = true ↔
    start.toNat ≤ p.toNat * 0x1000 ∧ p.toNat * 0x1000 < stop.toNat := by
  rw [inRange, Bool.and_eq_true, decide_eq_true_iff, decide_eq_true_iff, BitVec.le_def,
    BitVec.lt_def, toNat_base]

theorem inPair_base_iff {p : Page} : InPair vpn2 (base p) ↔ vpn2.toNat = p.toNat / 2 := by
  rw [InPair, ← BitVec.toNat_inj, BitVec.toNat_ushiftRight, toNat_base, Nat.shiftRight_eq_div_pow]
  omega

variable {old : TlbEntry} {regs : TlbRegs}

theorem toNat_vpn2_entryOf_lt : (entryOf old regs).vpn2.toNat < 2 ^ 19 := by
  have hlt := (regs.entryHi &&& 0xFFFFE000#32).isLt
  have hvpn2 : (entryOf old regs).vpn2 = (regs.entryHi &&& 0xFFFFE000#32) >>> 13 := rfl
  rw [hvpn2, BitVec.toNat_ushiftRight, Nat.shiftRight_eq_div_pow]
  omega

theorem maskOf_entryOf : maskOf (entryOf old regs) = (regs.pageMask &&& 0x1FFE000#32) >>> 13 ∧
    (maskOf (entryOf old regs)).toNat < 2 ^ 12 := by
  have hmask : maskOf (entryOf old regs) =
      (((regs.pageMask &&& 0x1FFE000#32) >>> 13).setWidth 16).signExtend 32 := rfl
  have hlt : ((regs.pageMask &&& 0x1FFE000#32) >>> 13).toNat < 2 ^ 12 := by
    have hle : (regs.pageMask &&& 0x1FFE000#32).toNat ≤ 0x1FFE000 := by
      rw [BitVec.toNat_and]
      exact Nat.and_le_right
    rw [BitVec.toNat_ushiftRight, Nat.shiftRight_eq_div_pow]
    omega
  generalize (regs.pageMask &&& 0x1FFE000#32) >>> 13 = mask at hmask hlt
  have hnarrow : (mask.setWidth 16).toNat = mask.toNat := by
    rw [BitVec.toNat_setWidth]
    exact Nat.mod_eq_of_lt (by omega)
  have hmsb : (mask.setWidth 16).msb = false :=
    BitVec.msb_eq_false_iff_two_mul_lt.mpr (by omega)
  have hwide : maskOf (entryOf old regs) = mask := by
    rw [hmask, BitVec.signExtend_eq_setWidth_of_msb_false hmsb]
    refine BitVec.eq_of_toNat_eq ?_
    rw [BitVec.toNat_setWidth, hnarrow]
    exact Nat.mod_eq_of_lt mask.isLt
  exact ⟨hwide, hwide ▸ hlt⟩

/-- The pages of an entry whose mask is aligned do not wrap. -/
theorem toNat_entryOf {k : Nat} (hmask : (maskOf (entryOf old regs)).toNat + 1 = 2 ^ k)
    (hdvd : 2 ^ k ∣ (entryOf old regs).vpn2.toNat) :
    let e := entryOf old regs
    e.vpn2.toNat + 2 ^ k ≤ 2 ^ 19 ∧ e.startEven.toNat = e.vpn2.toNat * 0x2000 ∧
      e.endEven.toNat = e.vpn2.toNat * 0x2000 + 2 ^ k * 0x1000 - 1 ∧
      e.startOdd.toNat = e.vpn2.toNat * 0x2000 + 2 ^ k * 0x1000 ∧
      e.endOdd.toNat = e.vpn2.toNat * 0x2000 + 2 ^ k * 0x2000 - 1 := by
  intro e
  have hmask : (maskOf e).toNat + 1 = 2 ^ k := hmask
  have hvpn2 : e.vpn2.toNat < 2 ^ 19 := toNat_vpn2_entryOf_lt
  have hlow : (maskOf e).toNat < 2 ^ 12 := maskOf_entryOf.2
  have hk : k ≤ 12 := (Nat.pow_le_pow_iff_right (by decide)).mp (show 2 ^ k ≤ 2 ^ 12 by omega)
  have hroom : 2 ^ k ≤ 2 ^ 19 - e.vpn2.toNat :=
    Nat.le_of_dvd (by omega) (Nat.dvd_sub (Nat.pow_dvd_pow 2 (by omega)) hdvd)
  have hwide : (regs.pageMask &&& 0x1FFE000#32) >>> 13 = maskOf e := maskOf_entryOf.1.symm
  have heven : e.startEven = e.vpn2 <<< 13 := rfl
  have hend : e.endEven = e.startEven + maskOf e <<< 12 + 0xFFF#32 := by rw [← hwide]; rfl
  have hodd : e.startOdd = e.endEven + 1#32 := rfl
  have hstop : e.endOdd = e.startOdd + maskOf e <<< 12 + 0xFFF#32 := by rw [← hwide]; rfl
  have hfff : (0xFFF#32).toNat = 0xFFF := rfl
  have hone : (1#32).toNat = 1 := rfl
  have hstart : e.startEven.toNat = e.vpn2.toNat * 0x2000 := by
    rw [heven, BitVec.toNat_shiftLeft, Nat.shiftLeft_eq]
    exact Nat.mod_eq_of_lt (by omega)
  have hpages : (maskOf e <<< 12).toNat = (maskOf e).toNat * 0x1000 := by
    rw [BitVec.toNat_shiftLeft, Nat.shiftLeft_eq]
    exact Nat.mod_eq_of_lt (by omega)
  have hendEven : e.endEven.toNat = e.vpn2.toNat * 0x2000 + 2 ^ k * 0x1000 - 1 := by
    rw [hend, BitVec.toNat_add, BitVec.toNat_add, hstart, hpages, hfff]
    omega
  have hstartOdd : e.startOdd.toNat = e.vpn2.toNat * 0x2000 + 2 ^ k * 0x1000 := by
    rw [hodd, BitVec.toNat_add, hendEven, hone]
    omega
  refine ⟨by omega, hstart, hendEven, hstartOdd, ?_⟩
  rw [hstop, BitVec.toNat_add, BitVec.toNat_add, hstartOdd, hpages, hfff]
  omega

/-- The pages of an entry with an aligned mask are those of the pairs that `TLBP` takes it for. -/
theorem inSpan_iff_agrees (hwritten : Written e) (haligned : MaskAligned e) (hhalf : HasHalf e)
    (hvpn2 : vpn2.toNat < 2 ^ 19) : InSpan e vpn2 ↔ Agrees e vpn2 := by
  obtain ⟨k, hmask, hdvd⟩ := haligned
  rw [agrees_iff_of_aligned hmask hdvd, InSpan, ← HasHalf, and_iff_right hhalf]
  obtain rfl | ⟨old, regs, rfl⟩ := hwritten
  · exact absurd hhalf (by simp [HasHalf, blankEntry])
  obtain ⟨hroom, hstart, hend, hstart', hend'⟩ := toNat_entryOf hmask hdvd
  simp only [inRange_iff, inPair_base_iff, hstart, hend, hstart', hend']
  constructor
  · rintro ⟨p, hpair, hrange⟩
    omega
  · rintro ⟨hle, hlt⟩
    have hp : (BitVec.ofNat 20 (vpn2.toNat * 2)).toNat = vpn2.toNat * 2 := by
      rw [BitVec.toNat_ofNat]
      exact Nat.mod_eq_of_lt (by omega)
    refine ⟨BitVec.ofNat 20 (vpn2.toNat * 2), ?_, ?_⟩
    · rw [hp]
      omega
    · rw [hp]
      omega

end Masks

/-- What `TLBP` needs to take the entry that has the pair. Masks that are runs of ones, left clear in
the page number, do no harm; of the other entries, the one that has the pair must have it in the
block of its mask, and none before it may. -/
structure ProbeFinds (entries : Fin 32 → TlbEntry) (entryHi : Word) (j : Fin 32) : Prop where
  agrees : ¬MaskAligned (entries j) → InBlock (entries j) (vpn2Field entryHi)
  first : ∀ k < j, ¬(MaskAligned (entries k) ∧ HasHalf (entries k)) →
    (entries k).g ≠ 0#8 ∨ (entries k).asid.setWidth 32 = entryHi &&& 0xFF#32 →
    ¬InBlock (entries k) (vpn2Field entryHi)

theorem toNat_vpn2Field_lt (entryHi : Word) : (vpn2Field entryHi).toNat < 2 ^ 19 := by
  have hlt := (entryHi &&& 0xFFFFE000#32).isLt
  rw [vpn2Field, BitVec.toNat_ushiftRight, Nat.shiftRight_eq_div_pow]
  omega

theorem agrees_of_aligned {e : TlbEntry} {entryHi : Word} (hwritten : Written e)
    (haligned : MaskAligned e) (hspan : InSpan e (vpn2Field entryHi)) :
    Agrees e (vpn2Field entryHi) :=
  (inSpan_iff_agrees hwritten haligned hspan.1 (toNat_vpn2Field_lt entryHi)).mp hspan

theorem probeFinds_iff {entries : Fin 32 → TlbEntry} (hwritten : ∀ i, Written (entries i))
    (hapart : Apart entries) {entryHi : Word} {j : Fin 32}
    (hspan : InSpan (entries j) (vpn2Field entryHi)) :
    ProbeFinds entries entryHi j ↔ Agrees (entries j) (vpn2Field entryHi) ∧
      ∀ k < j, ¬ProbeMatches (entries k) entryHi := by
  constructor
  · rintro ⟨hagrees, hfirst⟩
    refine ⟨?_, fun k hk hmatch => ?_⟩
    · by_cases haligned : MaskAligned (entries j)
      · exact agrees_of_aligned (hwritten j) haligned hspan
      · exact inBlock_iff_agrees.mp (hagrees haligned)
    · by_cases hplain : MaskAligned (entries k) ∧ HasHalf (entries k)
      · have hspan' := (inSpan_iff_agrees (hwritten k) hplain.1 hplain.2
          (toNat_vpn2Field_lt entryHi)).mpr hmatch.1
        exact hk.ne (hapart k j _ hspan' hspan)
      · exact hfirst k hk hplain hmatch.2 (inBlock_iff_agrees.mpr hmatch.1)
  · rintro ⟨hagrees, hfirst⟩
    exact ⟨fun _ => inBlock_iff_agrees.mpr hagrees, fun k hk _ htaken hblock =>
      hfirst k hk ⟨inBlock_iff_agrees.mp hblock, htaken⟩⟩

/-- `TLBP` and the translation agree on a pair that a global entry translates, exactly when the
masks that are not aligned spare the pair. -/
theorem tlbp_agrees_iff (t : Translation) (h : RomHacks) (hwritten : ∀ i, Written (t.entries i))
    (hapart : Apart t.entries) (index entryHi : Word) (j : Fin 32)
    (hglobal : (t.entries j).g ≠ 0#8)
    (hmapped : ∃ address, InPair (vpn2Field entryHi) address ∧ Through t h j address) :
    (∀ i, Reports t.entries index entryHi i ↔ PairThrough t h (vpn2Field entryHi) i) ↔
      ProbeFinds t.entries entryHi j := by
  have hspan : InSpan (t.entries j) (vpn2Field entryHi) := by
    obtain ⟨a, ha, hthrough⟩ := hmapped
    exact ha ▸ hthrough.inSpan
  rw [probeFinds_iff hwritten hapart hspan]
  constructor
  · intro hall
    have hreport := (hall j).mpr ((pairThrough_iff hapart hmapped j).mpr rfl)
    obtain ⟨hmatch, hfirst⟩ := reports_iff.mp hreport
    exact ⟨hmatch.1, hfirst⟩
  · rintro ⟨hagrees, hbefore⟩ i
    have hj : Reports t.entries index entryHi j :=
      reports_iff.mpr ⟨⟨hagrees, .inl hglobal⟩, hbefore⟩
    rw [pairThrough_iff hapart hmapped]
    constructor
    · intro hi
      obtain ⟨hmatch, hfirst⟩ := reports_iff.mp hi
      rcases lt_trichotomy i j with hlt | heq | hgt
      · exact absurd hmatch (hbefore i hlt)
      · exact heq
      · exact absurd ⟨hagrees, .inl hglobal⟩ (hfirst j hgt)
    · rintro rfl
      exact hj

/-- The buffer after one entry was written. -/
structure Holds (t : Translation) (regs : TlbRegs) : Prop where
  entries : t.entries = Function.update (fun _ => blankEntry) 0 (entryOf blankEntry regs)
  luts : ∀ p value, entryValue .read (entryOf blankEntry regs) p = some value →
    t.luts.of .read p = value

theorem exists_holds {regs : TlbRegs}
    (hsome : (tlbWrite poweronTlb 0 regs 0x80000000#32).isSome = true) :
    ∃ t : Translation, Holds t regs := by
  obtain ⟨t, ht⟩ := Option.isSome_iff_exists.mp hsome
  have hspared : spared (poweronTlb.entries 0) 0x80000000#32 = false := by decide
  have hrun : poweronTlb.run [.tlbwi 0#32 regs 0x80000000#32] = some t := by
    simp only [TlbState.run, TlbState.step]
    change ((some (0 : Fin 32)).bind fun idx =>
      tlbWrite poweronTlb idx regs 0x80000000#32).bind some = some t
    rw [Option.bind_some, ht, Option.bind_some]
  refine ⟨⟨t, leads_run leads_poweronTlb hrun⟩, entries_tlbWrite hspared ht, ?_⟩
  intro p value hvalue
  have happly := tlbWrite_apply (leads_poweronTlb.starts 0) hspared ht .read p
  exact happly.trans (by rw [show poweronTlb.entries 0 = blankEntry from rfl, hvalue]; rfl)

theorem Holds.apart {regs : TlbRegs} (h : Holds t regs) : Apart t.entries := by
  have honly : ∀ i vpn2, InSpan (t.entries i) vpn2 → i = 0 := by
    intro i vpn2 hspan
    by_contra hne
    rw [h.entries, Function.update_of_ne hne] at hspan
    rcases hspan.1 with hv | hv
    · exact hv rfl
    · exact hv rfl
  intro i k vpn2 hi hk
  rw [honly i vpn2 hi, honly k vpn2 hk]

theorem Holds.written {regs : TlbRegs} (h : Holds t regs) (i : Fin 32) : Written (t.entries i) := by
  rw [h.entries]
  by_cases hi : i = 0
  · subst hi
    exact .inr ⟨blankEntry, regs, Function.update_self ..⟩
  · exact .inl (Function.update_of_ne hi ..)

theorem Holds.through {regs : TlbRegs} (h : Holds t regs) {hacks : RomHacks}
    {address value : Word} (hhacks : hacks.goldenEye address = none)
    (hvalue : entryValue .read (entryOf blankEntry regs) (page address) = some value) :
    Through t hacks 0 address := by
  have hlut := h.luts _ _ hvalue
  refine ⟨hhacks, value, by rw [h.entries, Function.update_self, hvalue], ?_⟩
  rw [Translation.physical, hhacks, Option.none_or]
  change (if t.luts.of .read (page address) ≠ 0#32 then
    some ((t.luts.of .read (page address) &&& 0xFFFFF000#32) ||| (address &&& 0xFFF#32))
      else none) = _
  rw [hlut, if_pos (entryValue_ne_zero hvalue)]

def plainRom : RomHacks := ⟨.normalRom, 0#16⟩

def globalEntry (entryHi : Word) : TlbRegs := ⟨0x43#32, 0x143#32, entryHi, 0x6000#32⟩

/-- A page number written with a bit of the mask: the entry translates the pairs 1 to 4, and
`TLBP` takes it for the pairs 0 to 3. -/
theorem tlbp_misses_translated_pair :
    ¬ ∀ (t : Translation) (h : RomHacks) (_ : ∀ i, Written (t.entries i)) (_ : Apart t.entries)
      (index entryHi : Word) (j : Fin 32) (_ : (t.entries j).g ≠ 0#8)
      (_ : ∃ address, InPair (vpn2Field entryHi) address ∧ Through t h j address) (i : Fin 32),
      Reports t.entries index entryHi i ↔ PairThrough t h (vpn2Field entryHi) i := by
  intro hall
  obtain ⟨t, ht⟩ := @exists_holds (globalEntry 0x2000#32) (by decide)
  have hentry : t.entries 0 = entryOf blankEntry (globalEntry 0x2000#32) := by
    rw [ht.entries, Function.update_self]
  have hmapped : ∃ address, InPair (vpn2Field 0x8000#32) address ∧ Through t plainRom 0 address :=
    ⟨0x8000#32, rfl, ht.through (by decide) (by decide : _ = some 0x80007FFF#32)⟩
  have hreport := (hall t plainRom ht.written ht.apart 0#32 0x8000#32 0 (by rw [hentry]; decide) hmapped 0).mpr
    ((pairThrough_iff ht.apart hmapped 0).mpr rfl)
  have hagrees := (reports_iff.mp hreport).1.1
  rw [hentry] at hagrees
  exact absurd hagrees (by decide)

/-- With the page number 0, `TLBP` and the translation agree on the pairs of the entry. -/
theorem tlbp_agrees_iff_aligned :
    ∃ t : Translation, ∀ i, Reports t.entries 0#32 0x2000#32 i ↔
      PairThrough t plainRom (vpn2Field 0x2000#32) i := by
  obtain ⟨t, ht⟩ := @exists_holds (globalEntry 0#32) (by decide)
  have hentry : t.entries 0 = entryOf blankEntry (globalEntry 0#32) := by
    rw [ht.entries, Function.update_self]
  refine ⟨t, (tlbp_agrees_iff t plainRom ht.written ht.apart 0#32 0x2000#32 0 ?_ ?_).mpr ⟨?_, ?_⟩⟩
  · rw [hentry]
    decide
  · exact ⟨0x2000#32, rfl, ht.through (by decide) (by decide : _ = some 0x80003FFF#32)⟩
  · exact fun hmask => absurd ⟨2, by rw [hentry]; decide, by rw [hentry]; decide⟩ hmask
  · intro k hk
    exact absurd hk (Fin.not_lt_zero k)

end ParallelN64.R4300
