import ParallelN64.Rdp.FrameBuffers
import ParallelN64.R4300.RdramBytes

/-!
# What the framebuffer protection covers

The memory map is right: every framebuffer is behind its handlers, and the map is restored. The
dirty flags are not: a page is marked where its number, taken for an address, is in the extent of
the framebuffer, and the flags of the last 64 KiB are set for their first page only.
-/

namespace ParallelN64.Rdp

open R4300 (Word toNat_and_mask)

local instance neZeroInfos : @NeZero Nat Zero.ofOfNat0 6 := ⟨Nat.succ_ne_zero 5⟩

namespace FrameBufferInfo

variable {info : FrameBufferInfo}

/-- The flags that a descriptor sets: from the first page of its first 64 KiB to the first page of
its last. -/
def Reaches (info : FrameBufferInfo) (page : Nat) : Prop :=
  info.addr ≠ 0#32 ∧ info.start.toNat >>> 16 <<< 4 ≤ page ∧
    (page : Int) ≤ (info.stop.toInt >>> (16 : Nat)) * 2 ^ 4

instance (page : Nat) : Decidable (info.Reaches page) := inferInstanceAs (Decidable (_ ∧ _ ∧ _))

def Maps (info : FrameBufferInfo) (region : Nat) : Prop :=
  info.addr ≠ 0#32 ∧ ∃ j ∈ FbState.upTo (info.start.toNat >>> 16) (info.stop.toInt >>> (16 : Nat)),
    region = 0x8000 + j ∨ region = 0xA000 + j

theorem toNat_stop (h : info.InRdram) :
    info.stop.toNat = (info.start.toNat + info.bytes + (2 ^ 32 - 1)) % 2 ^ 32 := by
  have hbytes : (info.width * info.height * info.size).toNat = info.bytes := by
    have hlt : info.bytes < 2 ^ 32 := by
      unfold InRdram at h
      omega
    rw [BitVec.toNat_mul, BitVec.toNat_mul, Nat.mod_mul_mod]
    exact Nat.mod_eq_of_lt hlt
  rw [stop, BitVec.toNat_sub, BitVec.toNat_add, hbytes, BitVec.toNat_ofNat]
  omega

theorem toInt_stop (h : info.InRdram) :
    info.stop.toInt = (info.start.toNat : Int) + info.bytes - 1 := by
  have hnat := toNat_stop h
  unfold InRdram at h
  rw [BitVec.toInt_eq_toNat_cond]
  split <;> omega

theorem overlaps_iff {page : Nat} : info.Overlaps page ↔ info.addr ≠ 0#32 ∧ 0 < info.bytes ∧
    info.start.toNat / 0x1000 ≤ page ∧ page ≤ (info.start.toNat + info.bytes - 1) / 0x1000 := by
  constructor
  · rintro ⟨haddr, k, hk, hpage⟩
    exact ⟨haddr, by omega, by omega, by omega⟩
  · rintro ⟨haddr, hpos, hlow, hhigh⟩
    refine ⟨haddr, page * 0x1000 - info.start.toNat, ?_, ?_⟩ <;> omega

end FrameBufferInfo

namespace FbState

variable {s : FbState} {info : FrameBufferInfo}

theorem mem_upTo {a j : Nat} {b : Int} : j ∈ upTo a b ↔ a ≤ j ∧ (j : Int) ≤ b := by
  rw [upTo, List.mem_range'_1]
  omega

variable {region : Nat}

section Mapping

variable {handlers : RegionHandlers} {l : List Nat}

theorem foldl_mapRdram (handlers : RegionHandlers) (l : List Nat) (s : FbState) :
    l.foldl (mapRdram · handlers ·) s =
      { s with map := (l.foldl (mapRdram · handlers ·) s).map } := by
  induction l generalizing s with
  | nil => rfl
  | cons j l ih =>
    rw [List.foldl_cons, ih]
    rfl

theorem foldl_mapRdram_of_not_mem (h : ¬ ∃ j ∈ l, region = 0x8000 + j ∨ region = 0xA000 + j) :
    (l.foldl (mapRdram · handlers ·) s).map region = s.map region := by
  induction l generalizing s with
  | nil => rfl
  | cons j l ih =>
    have hne : ¬ (region = 0x8000 + j ∨ region = 0xA000 + j) :=
      fun hregion => h ⟨j, List.mem_cons_self, hregion⟩
    rw [not_or] at hne
    rw [List.foldl_cons, ih fun ⟨k, hk, hregion⟩ => h ⟨k, List.mem_cons_of_mem _ hk, hregion⟩]
    simp only [mapRdram]
    rw [Function.update_of_ne hne.2, Function.update_of_ne hne.1]

theorem foldl_mapRdram_of_mem (h : ∃ j ∈ l, region = 0x8000 + j ∨ region = 0xA000 + j) :
    (l.foldl (mapRdram · handlers ·) s).map region = handlers := by
  induction l generalizing s with
  | nil =>
    obtain ⟨j, hj, -⟩ := h
    exact absurd hj List.not_mem_nil
  | cons j l ih =>
    rw [List.foldl_cons]
    by_cases hrest : ∃ j ∈ l, region = 0x8000 + j ∨ region = 0xA000 + j
    · exact ih hrest
    · rw [foldl_mapRdram_of_not_mem hrest]
      obtain ⟨k, hk, hregion⟩ := h
      rcases List.mem_cons.mp hk with rfl | hk
      · simp only [mapRdram]
        rcases hregion with rfl | rfl
        · rw [Function.update_of_ne (by omega), Function.update_self]
        · rw [Function.update_self]
      · exact absurd ⟨k, hk, hregion⟩ hrest

end Mapping

theorem foldl_setDirty (f : Nat → Bool) (l : List Nat) (s : FbState) :
    l.foldl (fun s j => s.setDirty j (f j)) s =
      { s with dirtyPage := fun page => if page ∈ l then f page else s.dirtyPage page } := by
  induction l generalizing s with
  | nil => simp
  | cons j l ih =>
    rw [List.foldl_cons, ih]
    simp only [setDirty, mk.injEq, and_self, and_true]
    ext page
    by_cases hmem : page ∈ l
    · simp [hmem]
    · by_cases hj : page = j
      · subst hj
        simp [hmem]
      · simp [hmem, hj]

section Descriptor

open FrameBufferInfo

theorem protectOne_eq (haddr : info.addr ≠ 0#32) : s.protectOne info =
    { dirtyPage := fun page =>
        if page ∈
            upTo (info.start.toNat >>> 16 <<< 4) ((info.stop.toInt >>> (16 : Nat)) * 2 ^ 4) then
          decide (info.start.toNat ≤ page ∧ (page : Int) ≤ info.stop.toInt)
        else s.dirtyPage page
      infos := s.infos
      once := false
      fastMemory := if s.once then false else s.fastMemory
      map := ((upTo (info.start.toNat >>> 16) (info.stop.toInt >>> (16 : Nat))).foldl
        (mapRdram · .rdramFB ·) s).map } := by
  unfold protectOne
  rw [if_neg haddr]
  simp only
  rw [foldl_setDirty, foldl_mapRdram]
  cases s.once <;> simp

theorem protectOne_of_addr_eq_zero (haddr : info.addr = 0#32) : s.protectOne info = s :=
  if_pos haddr

theorem protectOne_infos : (s.protectOne info).infos = s.infos := by
  by_cases haddr : info.addr = 0#32
  · rw [protectOne_of_addr_eq_zero haddr]
  · rw [protectOne_eq haddr]

theorem protectOne_dirtyPage (page : Nat) : (s.protectOne info).dirtyPage page =
    if info.Reaches page then decide (info.start.toNat ≤ page) else s.dirtyPage page := by
  by_cases haddr : info.addr = 0#32
  · rw [protectOne_of_addr_eq_zero haddr, if_neg fun h => h.1 haddr]
  · rw [protectOne_eq haddr]
    simp only
    by_cases hreach : info.Reaches page
    · have hmem := mem_upTo.mpr hreach.2
      have hstop : (page : Int) ≤ info.stop.toInt := by
        have hle := hreach.2.2
        rw [Int.shiftRight_eq_div_pow] at hle
        omega
      rw [if_pos hmem, if_pos hreach]
      simp [hstop]
    · have hmem : page ∉
          upTo (info.start.toNat >>> 16 <<< 4) ((info.stop.toInt >>> (16 : Nat)) * 2 ^ 4) :=
        fun hmem => hreach ⟨haddr, mem_upTo.mp hmem⟩
      rw [if_neg hmem, if_neg hreach]

theorem protectOne_map_of_maps (h : info.Maps region) :
    (s.protectOne info).map region = .rdramFB := by
  rw [protectOne_eq h.1]
  exact foldl_mapRdram_of_mem h.2

theorem protectOne_map_of_not_maps (h : ¬ info.Maps region) :
    (s.protectOne info).map region = s.map region := by
  by_cases haddr : info.addr = 0#32
  · rw [protectOne_of_addr_eq_zero haddr]
  · rw [protectOne_eq haddr]
    exact foldl_mapRdram_of_not_mem fun hmem => h ⟨haddr, hmem⟩

theorem unprotectOne_map_of_maps (h : info.Maps region) :
    (s.unprotectOne info).map region = .rdram := by
  rw [unprotectOne, if_neg h.1]
  exact foldl_mapRdram_of_mem h.2

theorem unprotectOne_map_of_not_maps (h : ¬ info.Maps region) :
    (s.unprotectOne info).map region = s.map region := by
  unfold unprotectOne
  split
  · rfl
  · rename_i haddr
    exact foldl_mapRdram_of_not_mem fun hmem => h ⟨haddr, hmem⟩

end Descriptor

section Descriptors

variable {reported : Fin fbInfosCount → FrameBufferInfo} {l : List FrameBufferInfo}

theorem foldl_protectOne_infos : (l.foldl protectOne s).infos = s.infos := by
  induction l generalizing s with
  | nil => rfl
  | cons info l ih => rw [List.foldl_cons, ih, protectOne_infos]

theorem foldl_protectOne_dirtyPage (page : Nat) : (l.foldl protectOne s).dirtyPage page =
    (l.reverse.find? (·.Reaches page)).elim (s.dirtyPage page)
      fun info => decide (info.start.toNat ≤ page) := by
  induction l using List.reverseRecOn with
  | nil => rfl
  | append_singleton l info ih =>
    rw [List.foldl_append, List.foldl_cons, List.foldl_nil, protectOne_dirtyPage,
      List.reverse_append, List.reverse_singleton, List.singleton_append, List.find?_cons]
    by_cases hreach : info.Reaches page
    · simp [hreach]
    · rw [if_neg hreach, ih]
      simp [hreach]

theorem foldl_map_of_maps {step : FbState → FrameBufferInfo → FbState} {handlers : RegionHandlers}
    (hmaps : ∀ t info, info.Maps region → (step t info).map region = handlers)
    (hkeeps : ∀ t info, ¬ info.Maps region → (step t info).map region = t.map region)
    (h : ∃ info ∈ l, info.Maps region) : (l.foldl step s).map region = handlers := by
  induction l using List.reverseRecOn with
  | nil =>
    obtain ⟨info, hmem, -⟩ := h
    exact absurd hmem List.not_mem_nil
  | append_singleton l last ih =>
    rw [List.foldl_append, List.foldl_cons, List.foldl_nil]
    by_cases hlast : last.Maps region
    · exact hmaps _ _ hlast
    · rw [hkeeps _ _ hlast]
      obtain ⟨info, hmem, hinfo⟩ := h
      rcases List.mem_append.mp hmem with hmem | hmem
      · exact ih ⟨info, hmem, hinfo⟩
      · rw [List.mem_singleton.mp hmem] at hinfo
        exact absurd hinfo hlast

theorem foldl_map_of_not_maps {step : FbState → FrameBufferInfo → FbState}
    (hkeeps : ∀ t info, ¬ info.Maps region → (step t info).map region = t.map region)
    (h : ∀ info ∈ l, ¬ info.Maps region) : (l.foldl step s).map region = s.map region := by
  induction l generalizing s with
  | nil => rfl
  | cons info l ih =>
    rw [List.foldl_cons, ih fun i hi => h i (List.mem_cons_of_mem _ hi)]
    exact hkeeps s info (h info List.mem_cons_self)

def lastReach (reported : Fin fbInfosCount → FrameBufferInfo) (page : Nat) :
    Option FrameBufferInfo :=
  if (reported 0).addr ≠ 0#32 then (List.ofFn reported).reverse.find? (·.Reaches page) else none

theorem protectFramebuffers_eq : s.protectFramebuffers reported =
    if (reported 0).addr ≠ 0#32 then
      (List.ofFn reported).foldl protectOne { s with infos := reported }
    else { s with infos := reported } := rfl

theorem protectFramebuffers_infos : (s.protectFramebuffers reported).infos = reported := by
  rw [protectFramebuffers_eq]
  split
  · exact foldl_protectOne_infos
  · rfl

theorem protectFramebuffers_dirtyPage (page : Nat) :
    (s.protectFramebuffers reported).dirtyPage page =
      (lastReach reported page).elim (s.dirtyPage page)
        fun info => decide (info.start.toNat ≤ page) := by
  rw [protectFramebuffers_eq, lastReach]
  split
  · exact foldl_protectOne_dirtyPage page
  · rfl

def Mapped (reported : Fin fbInfosCount → FrameBufferInfo) (region : Nat) : Prop :=
  (reported 0).addr ≠ 0#32 ∧ ∃ i, (reported i).Maps region

theorem protectFramebuffers_map_of_mapped (h : Mapped reported region) :
    (s.protectFramebuffers reported).map region = .rdramFB := by
  obtain ⟨hfirst, i, hi⟩ := h
  rw [protectFramebuffers_eq, if_pos hfirst]
  apply foldl_map_of_maps (fun _ _ => protectOne_map_of_maps)
    (fun _ _ => protectOne_map_of_not_maps)
  exact ⟨reported i, List.mem_ofFn.mpr ⟨i, rfl⟩, hi⟩

theorem protectFramebuffers_map_of_not_mapped (h : ¬ Mapped reported region) :
    (s.protectFramebuffers reported).map region = s.map region := by
  rw [protectFramebuffers_eq]
  split
  · rename_i hfirst
    refine foldl_map_of_not_maps (fun _ _ => protectOne_map_of_not_maps) ?_
    intro info hinfo hmaps
    obtain ⟨i, rfl⟩ := List.mem_ofFn.mp hinfo
    exact h ⟨hfirst, i, hmaps⟩
  · rfl

theorem unprotectFramebuffers_map_of_mapped (h : Mapped s.infos region) :
    s.unprotectFramebuffers.map region = .rdram := by
  obtain ⟨hfirst, i, hi⟩ := h
  unfold unprotectFramebuffers
  rw [if_pos hfirst]
  apply foldl_map_of_maps (fun _ _ => unprotectOne_map_of_maps)
    (fun _ _ => unprotectOne_map_of_not_maps)
  exact ⟨s.infos i, List.mem_ofFn.mpr ⟨i, rfl⟩, hi⟩

theorem unprotectFramebuffers_map_of_not_mapped (h : ¬ Mapped s.infos region) :
    s.unprotectFramebuffers.map region = s.map region := by
  unfold unprotectFramebuffers
  split
  · rename_i hfirst
    refine foldl_map_of_not_maps (fun _ _ => unprotectOne_map_of_not_maps) ?_
    intro info hinfo hmaps
    obtain ⟨i, rfl⟩ := List.mem_ofFn.mp hinfo
    exact h ⟨hfirst, i, hmaps⟩
  · rfl

end Descriptors

section Reads

variable {address : Word} {l : List FrameBufferInfo} {calls : List Word}

theorem preReadOne_of_clean (h : s.dirtyPage (pageOf address) = false) (info : FrameBufferInfo) :
    preReadOne address (calls, s) info = (calls, s) := by
  rw [preReadOne, if_neg]
  rw [h]
  exact fun hboth => Bool.false_ne_true hboth.2

theorem foldl_preReadOne_of_clean (h : s.dirtyPage (pageOf address) = false) :
    l.foldl (preReadOne address) (calls, s) = (calls, s) := by
  induction l with
  | nil => rfl
  | cons info l ih => rw [List.foldl_cons, preReadOne_of_clean h, ih]

theorem foldl_preReadOne_of_miss (h : ∀ info ∈ l, ¬ info.Hits address) :
    l.foldl (preReadOne address) (calls, s) = (calls, s) := by
  induction l with
  | nil => rfl
  | cons info l ih =>
    have hmiss : preReadOne address (calls, s) info = (calls, s) :=
      if_neg fun hboth => h info List.mem_cons_self hboth.1
    rw [List.foldl_cons, hmiss, ih fun i hi => h i (List.mem_cons_of_mem _ hi)]

theorem foldl_preReadOne_of_hit (hdirty : s.dirtyPage (pageOf address) = true)
    (h : ∃ info ∈ l, info.Hits address) : l.foldl (preReadOne address) (calls, s) =
      (calls ++ [address], s.setDirty (pageOf address) false) := by
  induction l with
  | nil =>
    obtain ⟨info, hmem, -⟩ := h
    exact absurd hmem List.not_mem_nil
  | cons info l ih =>
    rw [List.foldl_cons]
    by_cases hhit : info.Hits address
    · have hone : preReadOne address (calls, s) info =
          (calls ++ [address], s.setDirty (pageOf address) false) := if_pos ⟨hhit, hdirty⟩
      rw [hone, foldl_preReadOne_of_clean (Function.update_self _ _ _)]
    · have hone : preReadOne address (calls, s) info = (calls, s) :=
        if_neg fun hboth => hhit hboth.1
      rw [hone]
      obtain ⟨other, hmem, hother⟩ := h
      rcases List.mem_cons.mp hmem with rfl | hmem
      · exact absurd hother hhit
      · exact ih ⟨other, hmem, hother⟩

theorem cpuRead_eq (s : FbState) (address : Word) :
    s.map (address >>> 16).toNat = .rdramFB ∧ s.dirtyPage (pageOf address) = true ∧
        (∃ i, (s.infos i).Hits address) ∧
        s.cpuRead address = ([address], s.setDirty (pageOf address) false) ∨
      ¬ (s.map (address >>> 16).toNat = .rdramFB ∧ s.dirtyPage (pageOf address) = true ∧
        ∃ i, (s.infos i).Hits address) ∧ s.cpuRead address = ([], s) := by
  have hcases : s.cpuRead address =
      if s.map (address >>> 16).toNat = .rdramFB then s.preFramebufferRead address
      else ([], s) := by
    unfold cpuRead
    split
    · rename_i hmap
      rw [if_pos hmap]
    · rename_i hmap
      rw [if_neg hmap]
  rw [hcases]
  by_cases hmap : s.map (address >>> 16).toNat = .rdramFB
  · rw [if_pos hmap, preFramebufferRead]
    by_cases hdirty : s.dirtyPage (pageOf address) = true
    · by_cases hhit : ∃ i, (s.infos i).Hits address
      · refine .inl ⟨hmap, hdirty, hhit, ?_⟩
        obtain ⟨i, hi⟩ := hhit
        exact foldl_preReadOne_of_hit hdirty ⟨s.infos i, List.mem_ofFn.mpr ⟨i, rfl⟩, hi⟩
      · refine .inr ⟨fun h => hhit h.2.2, foldl_preReadOne_of_miss ?_⟩
        intro info hinfo hi
        obtain ⟨i, rfl⟩ := List.mem_ofFn.mp hinfo
        exact hhit ⟨i, hi⟩
    · refine .inr ⟨fun h => hdirty h.2.1, foldl_preReadOne_of_clean ?_⟩
      simpa using hdirty
  · rw [if_neg hmap]
    exact .inr ⟨fun h => hmap h.1, rfl⟩

theorem cpuRead_fixed (s : FbState) (address : Word) :
    (s.cpuRead address).2.infos = s.infos ∧ (s.cpuRead address).2.map = s.map := by
  rcases cpuRead_eq s address with ⟨-, -, -, heq⟩ | ⟨-, heq⟩
  · rw [heq]
    exact ⟨rfl, rfl⟩
  · rw [heq]
    exact ⟨rfl, rfl⟩

theorem cpuReads_fixed (s : FbState) (reads : List Word) :
    (s.cpuReads reads).infos = s.infos ∧ (s.cpuReads reads).map = s.map := by
  unfold cpuReads
  induction reads generalizing s with
  | nil => exact ⟨rfl, rfl⟩
  | cons address reads ih =>
    rw [List.foldl_cons]
    obtain ⟨hinfos, hmap⟩ := ih (s.cpuRead address).2
    rw [hinfos, hmap]
    exact cpuRead_fixed s address

theorem cpuReads_dirtyPage {page : Nat} {reads : List Word}
    (h : ∀ address ∈ reads, pageOf address = page → ∀ i, ¬ (s.infos i).Hits address) :
    (s.cpuReads reads).dirtyPage page = s.dirtyPage page := by
  unfold cpuReads
  induction reads generalizing s with
  | nil => rfl
  | cons address reads ih =>
    have hfirst : (s.cpuRead address).2.dirtyPage page = s.dirtyPage page := by
      rcases cpuRead_eq s address with ⟨-, -, ⟨i, hi⟩, heq⟩ | ⟨-, heq⟩
      · have hne : page ≠ pageOf address := by
          rintro rfl
          exact h address List.mem_cons_self rfl i hi
        rw [heq]
        exact Function.update_of_ne hne _ _
      · rw [heq]
    rw [List.foldl_cons, ih, hfirst]
    intro a ha hpage i
    rw [(cpuRead_fixed s address).1]
    exact h a (List.mem_cons_of_mem _ ha) hpage i

end Reads

section Restored

variable {reported : Fin fbInfosCount → FrameBufferInfo}

def InRdramRegion (region : Nat) : Prop :=
  ∃ j < 0x80, region = 0x8000 + j ∨ region = 0xA000 + j

def PlainMap (s : FbState) : Prop := ∀ region, InRdramRegion region → s.map region = .rdram

theorem inRdramRegion_of_maps (h : info.InRdram) (hmaps : info.Maps region) :
    InRdramRegion region := by
  obtain ⟨-, j, hj, hregion⟩ := hmaps
  rw [mem_upTo, FrameBufferInfo.toInt_stop h, Int.shiftRight_eq_div_pow] at hj
  unfold FrameBufferInfo.InRdram at h
  exact ⟨j, by omega, hregion⟩

theorem inRdramRegion_of_mapped (hextents : ∀ i, (reported i).addr ≠ 0#32 → (reported i).InRdram)
    (h : Mapped reported region) : InRdramRegion region := by
  obtain ⟨-, i, hi⟩ := h
  exact inRdramRegion_of_maps (hextents i hi.1) hi

theorem unprotect_protect_map {t : FbState} (hplain : PlainMap s)
    (hextents : ∀ i, (reported i).addr ≠ 0#32 → (reported i).InRdram)
    (hinfos : t.infos = reported) (hmap : t.map = (s.protectFramebuffers reported).map) :
    t.unprotectFramebuffers.map = s.map := by
  funext region
  by_cases hmapped : Mapped reported region
  · have hmapped' := hmapped
    rw [← hinfos] at hmapped'
    rw [unprotectFramebuffers_map_of_mapped hmapped']
    exact (hplain region (inRdramRegion_of_mapped hextents hmapped)).symm
  · have hmapped' := hmapped
    rw [← hinfos] at hmapped'
    rw [unprotectFramebuffers_map_of_not_mapped hmapped', hmap,
      protectFramebuffers_map_of_not_mapped hmapped]

theorem BeforeProtect.plainMap (h : BeforeProtect s) : PlainMap s := by
  induction h with
  | poweron others =>
    rintro region ⟨j, hj, hregion⟩
    refine if_pos ?_
    omega
  | task reported reads before extents ih =>
    obtain ⟨hinfos, hmap⟩ := cpuReads_fixed (protectFramebuffers _ reported) reads
    rw [protectFramebuffers_infos] at hinfos
    intro region hregion
    rw [unprotect_protect_map ih extents hinfos hmap]
    exact ih region hregion

end Restored

section Cover

variable {reported : Fin fbInfosCount → FrameBufferInfo} {page : Nat} {address : Word}

def InPage (page : Nat) (address : Word) : Prop :=
  address.toNat / 0x1000 = 0x80000 + page ∨ address.toNat / 0x1000 = 0xA0000 + page

def Overlapped (reported : Fin fbInfosCount → FrameBufferInfo) (page : Nat) : Prop :=
  ∃ i, (reported i).Overlaps page

/-- Framebuffer protection covers exactly the framebuffers. The first read of a page is taken
among those that count. -/
structure Covers (counts : Word → Prop) (s : FbState)
    (reported : Fin fbInfosCount → FrameBufferInfo) : Prop where
  dirty : ∀ page, Overlapped reported page → (s.protectFramebuffers reported).dirtyPage page = true
  handled : ∀ page, Overlapped reported page → ∀ address, InPage page address →
    (s.protectFramebuffers reported).map (address >>> 16).toNat = .rdramFB
  read : ∀ page, Overlapped reported page → ∀ reads : List Word,
    (∀ a ∈ reads, pageOf a = page → ∀ i, ¬ (reported i).Hits a) →
    ∀ address, InPage page address → counts address →
      (((s.protectFramebuffers reported).cpuReads reads).cpuRead address).1 = [address]
  clean : ∀ page < 0x800, ¬ Overlapped reported page →
    (s.protectFramebuffers reported).dirtyPage page = false
  restored : (s.protectFramebuffers reported).unprotectFramebuffers.map = s.map

/-- The last descriptor that reaches a page starts at an address that is at most the number of the
page. A page that none reaches is dirty already exactly where a framebuffer overlaps it. -/
structure Marked (s : FbState) (reported : Fin fbInfosCount → FrameBufferInfo) : Prop where
  first : ∀ page, Overlapped reported page → (reported 0).addr ≠ 0#32
  dirty : ∀ page, Overlapped reported page →
    (∃ info, lastReach reported page = some info ∧ info.start.toNat ≤ page) ∨
      lastReach reported page = none ∧ s.dirtyPage page = true
  clean : ∀ page < 0x800, ¬ Overlapped reported page → lastReach reported page = none →
    s.dirtyPage page = false

def Whole (reported : Fin fbInfosCount → FrameBufferInfo) : Prop :=
  ∀ page, Overlapped reported page → ∀ address, InPage page address →
    ∃ i, (reported i).Hits address

theorem lt_of_overlapped (hextents : ∀ i, (reported i).addr ≠ 0#32 → (reported i).InRdram)
    (h : Overlapped reported page) : page < 0x800 := by
  obtain ⟨i, hi⟩ := h
  rw [FrameBufferInfo.overlaps_iff] at hi
  have hextent := hextents i hi.1
  unfold FrameBufferInfo.InRdram at hextent
  omega

theorem pageOf_of_inPage (hpage : page < 0x800) (h : InPage page address) :
    pageOf address = page := by
  rw [pageOf, BitVec.toNat_ushiftRight, toNat_and_mask _ _ (n := 23) rfl, Nat.shiftRight_eq_div_pow]
  unfold InPage at h
  omega

theorem region_of_inPage (h : InPage page address) :
    (address >>> 16).toNat = 0x8000 + page / 16 ∨ (address >>> 16).toNat = 0xA000 + page / 16 := by
  rw [BitVec.toNat_ushiftRight, Nat.shiftRight_eq_div_pow]
  unfold InPage at h
  omega

theorem exists_inPage (hpage : page < 0x800) : ∃ address, InPage page address := by
  refine ⟨BitVec.ofNat 32 ((0x80000 + page) * 0x1000), .inl ?_⟩
  rw [BitVec.toNat_ofNat]
  omega

theorem mapped_of_overlapped (hextents : ∀ i, (reported i).addr ≠ 0#32 → (reported i).InRdram)
    (hfirst : (reported 0).addr ≠ 0#32) (h : Overlapped reported page)
    (haddress : InPage page address) : Mapped reported (address >>> 16).toNat := by
  obtain ⟨i, hi⟩ := h
  rw [FrameBufferInfo.overlaps_iff] at hi
  obtain ⟨haddr, hpos, hlow, hhigh⟩ := hi
  refine ⟨hfirst, i, haddr, page / 16, ?_, region_of_inPage haddress⟩
  rw [mem_upTo, FrameBufferInfo.toInt_stop (hextents i haddr), Nat.shiftRight_eq_div_pow,
    Int.shiftRight_eq_div_pow]
  constructor <;> omega

theorem overlaps_of_reaches (h : info.InRdram) (hreach : info.Reaches page)
    (hstart : info.start.toNat ≤ page) : info.Overlaps page := by
  obtain ⟨haddr, -, hhigh⟩ := hreach
  rw [FrameBufferInfo.toInt_stop h, Int.shiftRight_eq_div_pow] at hhigh
  rw [FrameBufferInfo.overlaps_iff]
  refine ⟨haddr, by omega, by omega, by omega⟩

theorem mem_of_lastReach (h : lastReach reported page = some info) :
    (∃ i, reported i = info) ∧ info.Reaches page := by
  unfold lastReach at h
  split at h
  · have hmem := List.mem_reverse.mp (List.mem_of_find?_eq_some h)
    have hreach := List.find?_some h
    exact ⟨List.mem_ofFn.mp hmem, of_decide_eq_true hreach⟩
  · exact absurd h.symm (Option.some_ne_none info)

theorem protect_dirtyPage_iff : (s.protectFramebuffers reported).dirtyPage page = true ↔
    (∃ info, lastReach reported page = some info ∧ info.start.toNat ≤ page) ∨
      lastReach reported page = none ∧ s.dirtyPage page = true := by
  rw [protectFramebuffers_dirtyPage]
  cases lastReach reported page with
  | none => simp
  | some info => simp

theorem covers_iff (hs : PlainMap s)
    (hextents : ∀ i, (reported i).addr ≠ 0#32 → (reported i).InRdram) (counts : Word → Prop) :
    Covers counts s reported ↔ Marked s reported ∧
      ∀ page, Overlapped reported page → ∀ address, InPage page address → counts address →
        ∃ i, (reported i).Hits address := by
  constructor
  · intro h
    refine ⟨⟨?_, fun page hpage => protect_dirtyPage_iff.mp (h.dirty page hpage), ?_⟩, ?_⟩
    · intro page hpage hzero
      obtain ⟨address, haddress⟩ := exists_inPage (lt_of_overlapped hextents hpage)
      have hmap := h.handled page hpage address haddress
      rw [protectFramebuffers_map_of_not_mapped fun hmapped => hmapped.1 hzero] at hmap
      have hplain : InRdramRegion (address >>> 16).toNat :=
        ⟨page / 16, by have hlt := lt_of_overlapped hextents hpage; omega,
          region_of_inPage haddress⟩
      rw [hs _ hplain] at hmap
      exact RegionHandlers.noConfusion hmap
    · intro page hlt hpage hnone
      have hclean := h.clean page hlt hpage
      rw [protectFramebuffers_dirtyPage, hnone] at hclean
      exact hclean
    · intro page hpage address haddress hcounts
      have hread := h.read page hpage [] (fun a ha => absurd ha List.not_mem_nil) address haddress
        hcounts
      rcases cpuRead_eq ((s.protectFramebuffers reported).cpuReads []) address with
        ⟨-, -, hhit, -⟩ | ⟨-, heq⟩
      · rw [(cpuReads_fixed _ _).1, protectFramebuffers_infos] at hhit
        exact hhit
      · rw [heq] at hread
        exact absurd hread.symm (List.cons_ne_nil _ _)
  · rintro ⟨hmarked, hhits⟩
    have hdirty (page : Nat) (hpage : Overlapped reported page) :=
      protect_dirtyPage_iff.mpr (hmarked.dirty page hpage)
    have hhandled (page : Nat) (hpage : Overlapped reported page) (address : Word)
        (haddress : InPage page address) :=
      protectFramebuffers_map_of_mapped (s := s)
        (mapped_of_overlapped hextents (hmarked.first page hpage) hpage haddress)
    refine ⟨hdirty, hhandled, ?_, ?_, ?_⟩
    · intro page hpage reads hreads address haddress hcounts
      obtain ⟨hinfos, hmap⟩ := cpuReads_fixed (s.protectFramebuffers reported) reads
      rw [protectFramebuffers_infos] at hinfos
      have hstill : ((s.protectFramebuffers reported).cpuReads reads).dirtyPage page = true := by
        rw [cpuReads_dirtyPage]
        · exact hdirty page hpage
        · rw [protectFramebuffers_infos]
          exact hreads
      rcases cpuRead_eq ((s.protectFramebuffers reported).cpuReads reads) address with
        ⟨-, -, -, heq⟩ | ⟨hnot, -⟩
      · rw [heq]
      · refine absurd ⟨?_, ?_, ?_⟩ hnot
        · rw [hmap]
          exact hhandled page hpage address haddress
        · rw [pageOf_of_inPage (lt_of_overlapped hextents hpage) haddress]
          exact hstill
        · rw [hinfos]
          exact hhits page hpage address haddress hcounts
    · intro page hlt hpage
      rw [← Bool.not_eq_true, protect_dirtyPage_iff]
      rintro (⟨info, hlast, hstart⟩ | ⟨hnone, hbefore⟩)
      · obtain ⟨⟨i, rfl⟩, hreach⟩ := mem_of_lastReach hlast
        exact hpage ⟨i, overlaps_of_reaches (hextents i hreach.1) hreach hstart⟩
      · rw [hmarked.clean page hlt hpage hnone] at hbefore
        exact Bool.false_ne_true hbefore
    · exact unprotect_protect_map hs hextents protectFramebuffers_infos rfl

/-- The protection covers exactly the framebuffers where the flags come out right by the numbers.
If the first read of a page counts wherever it is, the framebuffers must also fill their pages. -/
theorem protectFramebuffers_covers_iff (hs : BeforeProtect s)
    (hextents : ∀ i, (reported i).addr ≠ 0#32 → (reported i).InRdram) :
    (Covers (fun address => ∃ i, (reported i).Hits address) s reported ↔ Marked s reported) ∧
      (Covers (fun _ => True) s reported ↔ Marked s reported ∧ Whole reported) := by
  have hiff := covers_iff hs.plainMap hextents
  constructor
  · rw [hiff]
    exact ⟨fun h => h.1, fun h => ⟨h, fun _ _ _ _ hhit => hhit⟩⟩
  · rw [hiff]
    constructor
    · rintro ⟨hmarked, hhits⟩
      exact ⟨hmarked, fun page hpage address haddress => hhits page hpage address haddress trivial⟩
    · rintro ⟨hmarked, hwhole⟩
      exact ⟨hmarked, fun page hpage address haddress _ => hwhole page hpage address haddress⟩

def single (info : FrameBufferInfo) : Fin fbInfosCount → FrameBufferInfo :=
  fun i => if i = 0 then info else ⟨0#32, 0#32, 0#32, 0#32⟩

def firstPage : FrameBufferInfo := ⟨0x80000000#32, 2#32, 0x800#32, 1#32⟩

theorem eq_zero_of_overlapped_firstPage (h : Overlapped (single firstPage) page) : page = 0 := by
  obtain ⟨i, hi⟩ := h
  by_cases hzero : i = 0
  · subst hzero
    obtain ⟨-, k, hk, hpage⟩ := hi
    have hbytes : (single firstPage 0).bytes = 0x1000 := rfl
    have hstart : (single firstPage 0).start.toNat = 0 := rfl
    omega
  · have hnone : single firstPage i = ⟨0#32, 0#32, 0#32, 0#32⟩ := if_neg hzero
    rw [hnone] at hi
    exact absurd rfl hi.1

/-- A page at the start of RDRAM is covered. -/
theorem firstPage_covered :
    Covers (fun address => ∃ i, (single firstPage i).Hits address) (poweron id)
        (single firstPage) ∧
      Covers (fun _ => True) (poweron id) (single firstPage) := by
  have hextents : ∀ i, (single firstPage i).addr ≠ 0#32 → (single firstPage i).InRdram := by
    decide
  have hmarked : Marked (poweron id) (single firstPage) := by
    refine ⟨fun _ _ => by decide, ?_, fun _ _ _ _ => rfl⟩
    intro page hpage
    rw [eq_zero_of_overlapped_firstPage hpage]
    exact .inl ⟨firstPage, by decide, Nat.zero_le _⟩
  have hwhole : Whole (single firstPage) := by
    intro page hpage address haddress
    rw [eq_zero_of_overlapped_firstPage hpage] at haddress
    have hlow : (address &&& 0x7FFFFF#32).toNat < 0x1000 := by
      rw [toNat_and_mask _ _ (n := 23) rfl]
      unfold InPage at haddress
      omega
    have hstart : (single firstPage 0).start = 0#32 := by decide
    have hstop : (single firstPage 0).stop = 0xFFF#32 := by decide
    refine ⟨0, by decide, ?_, ?_⟩
    · rw [hstart, BitVec.le_def]
      exact Nat.zero_le _
    · rw [hstop, BitVec.le_def]
      exact Nat.le_of_lt_succ hlow
  have hiff := protectFramebuffers_covers_iff (.poweron id) hextents
  exact ⟨hiff.1.mpr hmarked, hiff.2.mpr ⟨hmarked, hwhole⟩⟩

def screen : FrameBufferInfo := ⟨0x80100000#32, 2#32, 320#32, 240#32⟩

/-- Its pages are not marked. -/
theorem screen_not_covered :
    ¬ Covers (fun address => ∃ i, (single screen i).Hits address) (poweron id)
      (single screen) := by
  intro h
  have hpage : Overlapped (single screen) 0x100 := ⟨0, by decide, 0, by decide, by decide⟩
  have hdirty := h.dirty 0x100 hpage
  have hlast : lastReach (single screen) 0x100 = some screen := by decide
  rw [protectFramebuffers_dirtyPage, hlast] at hdirty
  exact absurd hdirty (by decide)

end Cover

end FbState

end ParallelN64.Rdp
