import Mathlib.Logic.Function.Basic
import ParallelN64.Rom.OpenRom

/-!
# Bringing an image into the order of the console

An image comes as it is, with the bytes of its halfwords swapped, or with the bytes of its words
reversed. `swap_rom` looks at the first byte and exchanges bytes in place, group by group, up to a
length. An image is padded to whole groups, and the loops are right because of that.
-/

namespace ParallelN64.Rom

open ParallelN64.Core

/-- `Z64IMAGE`, `V64IMAGE` and `N64IMAGE`. -/
inductive ImageType where
  | z64 | v64 | n64
  deriving DecidableEq, Repr

/-- Memory from a pointer on, and the places that were read or written. -/
structure LocalRom where
  bytes : Nat → UInt8
  touched : List Nat

namespace LocalRom

/-- Exchange two bytes through `temp`. -/
def exchange (rom : LocalRom) (i j : Nat) : LocalRom where
  bytes := Function.update (Function.update rom.bytes i (rom.bytes j)) j (rom.bytes i)
  touched := i :: j :: rom.touched

/-- The loop for `.v64` images. -/
def byteswapLoop (loadlength : Int) (i : Nat) (rom : LocalRom) : LocalRom :=
  if (i : Int) < loadlength then byteswapLoop loadlength (i + 2) (rom.exchange i (i + 1)) else rom
termination_by (loadlength - i).toNat

/-- The loop for `.n64` images. -/
def wordswapLoop (loadlength : Int) (i : Nat) (rom : LocalRom) : LocalRom :=
  if (i : Int) < loadlength then
    wordswapLoop loadlength (i + 4) ((rom.exchange i (i + 3)).exchange (i + 1) (i + 2))
  else rom
termination_by (loadlength - i).toNat

/-- `localrom[0]`. -/
def first (rom : LocalRom) : UInt8 × LocalRom :=
  (rom.bytes 0, { rom with touched := 0 :: rom.touched })

/-- `swap_rom`. The length is an `int`: the command that opens a ROM takes it as one and refuses
what is below 4096. The counters stay at or below the length of an image of whole groups. -/
def swapRom (rom : LocalRom) (loadlength : BitVec 32) : ImageType × LocalRom :=
  let (byte, rom) := rom.first
  if byte = 0x37 then (.v64, rom.byteswapLoop loadlength.toInt 0)
  else if byte = 0x40 then (.n64, rom.wordswapLoop loadlength.toInt 0)
  else (.z64, rom)

def Holds (rom : LocalRom) : Nat → Bytes → Prop
  | _, [] => True
  | i, byte :: image => rom.bytes i = byte ∧ rom.Holds (i + 1) image

variable {rom : LocalRom} {image : Bytes} {i : Nat}

theorem Holds.congr {rom' : LocalRom} (h : rom.Holds i image)
    (hsame : ∀ j, i ≤ j → j < i + image.length → rom'.bytes j = rom.bytes j) :
    rom'.Holds i image := by
  induction image generalizing i with
  | nil => trivial
  | cons byte image ih =>
    rw [List.length_cons] at hsame
    refine ⟨?_, ih h.2 fun j hj hlt => hsame j (by omega) (by omega)⟩
    rw [hsame i (Nat.le_refl i) (by omega)]
    exact h.1

theorem holds_append (front : Bytes) {back : Bytes} :
    rom.Holds i (front ++ back) ↔ rom.Holds i front ∧ rom.Holds (i + front.length) back := by
  induction front generalizing i with
  | nil => simp [Holds]
  | cons byte front ih =>
    have hshift : i + 1 + front.length = i + (front.length + 1) := by omega
    rw [List.cons_append, Holds, Holds, ih, List.length_cons, hshift, and_assoc]

/-- A change of a range of memory: what is there afterwards, that nothing else changes, and that
nothing else is looked at. -/
structure Rewrites (rom rom' : LocalRom) (i : Nat) (length : Nat) (image : Bytes) : Prop where
  holds : rom'.Holds i image
  frame : ∀ j, j < i ∨ i + length ≤ j → rom'.bytes j = rom.bytes j
  inside : ∀ j ∈ rom'.touched, j ∈ rom.touched ∨ i ≤ j ∧ j < i + length

namespace Rewrites

variable {rom rom₁ rom' : LocalRom} {i : Nat}

theorem refl : rom.Rewrites rom i 0 [] := ⟨trivial, fun _ _ => rfl, fun _ hj => .inl hj⟩

theorem append {m n : Nat} {group image : Bytes} (hgroup : rom.Rewrites rom₁ i m group)
    (hlength : group.length = m) (hrest : rom₁.Rewrites rom' (i + m) n image) :
    rom.Rewrites rom' i (m + n) (group ++ image) := by
  subst hlength
  constructor
  · rw [holds_append]
    refine ⟨hgroup.holds.congr fun j _ hlt => hrest.frame j (.inl hlt), hrest.holds⟩
  · intro j hj
    rw [hrest.frame j (by omega), hgroup.frame j (by omega)]
  · intro j hj
    rcases hrest.inside j hj with hj | hj
    · rcases hgroup.inside j hj with hj | hj
      · exact .inl hj
      · exact .inr (by omega)
    · exact .inr (by omega)

end Rewrites

section Groups

variable {rom : LocalRom} {i : Nat} {a b c d : UInt8}

theorem exchange_bytes (rom : LocalRom) (i j k : Nat) : (rom.exchange i j).bytes k =
    if k = j then rom.bytes i else if k = i then rom.bytes j else rom.bytes k := by
  simp only [exchange, Function.update_apply]

theorem byteswap_group (h : rom.Holds i [a, b]) :
    rom.Rewrites (rom.exchange i (i + 1)) i 2 [b, a] := by
  obtain ⟨ha, hb, -⟩ := h
  constructor
  · simp [Holds, exchange_bytes, ha, hb]
  · intro j hj
    rw [exchange_bytes, if_neg (by omega), if_neg (by omega)]
  · intro j hj
    simp only [exchange, List.mem_cons] at hj
    rcases hj with rfl | rfl | hj
    · exact .inr (by omega)
    · exact .inr (by omega)
    · exact .inl hj

theorem wordswap_group (h : rom.Holds i [a, b, c, d]) :
    rom.Rewrites ((rom.exchange i (i + 3)).exchange (i + 1) (i + 2)) i 4 [d, c, b, a] := by
  obtain ⟨ha, hb, hc, hd, -⟩ := h
  constructor
  · simp [Holds, exchange_bytes, ha, hb, hc, hd, Nat.add_assoc]
  · intro j hj
    simp only [exchange_bytes]
    rw [if_neg (by omega), if_neg (by omega), if_neg (by omega), if_neg (by omega)]
  · intro j hj
    simp only [exchange, List.mem_cons] at hj
    rcases hj with rfl | rfl | rfl | rfl | hj
    · exact .inr (by omega)
    · exact .inr (by omega)
    · exact .inr (by omega)
    · exact .inr (by omega)
    · exact .inl hj

end Groups

theorem byteswapLoop_rewrites (hwhole : 2 ∣ image.length) (h : rom.Holds i image) :
    rom.Rewrites (rom.byteswapLoop ((i + image.length : Nat)) i) i image.length
      (byteswap image) := by
  fun_induction byteswap image generalizing i rom with
  | case1 a b rest ih =>
    rw [List.length_cons, List.length_cons] at hwhole
    obtain ⟨hgroup, hrest⟩ := (holds_append [a, b]).mp h
    have hswap := byteswap_group hgroup
    have hkept : (rom.exchange i (i + 1)).Holds (i + 2) rest :=
      hrest.congr fun j hj _ => hswap.frame j (.inr hj)
    have hlength : i + (rest.length + 1 + 1) = i + 2 + rest.length := by omega
    have hlt : (i : Int) < ((i + 2 + rest.length : Nat) : Int) := by omega
    have hloop := ih (by omega) hkept
    rw [List.length_cons, List.length_cons, hlength, byteswapLoop, if_pos hlt]
    have hsum : rest.length + 1 + 1 = 2 + rest.length := by omega
    rw [hsum]
    exact hswap.append rfl hloop
  | case2 rest hshort =>
    cases rest with
    | nil =>
      rw [byteswapLoop, if_neg (by simp)]
      exact .refl
    | cons a rest =>
      cases rest with
      | nil => simp at hwhole
      | cons b rest => exact (hshort a b rest rfl).elim

theorem wordswapLoop_rewrites (hwhole : 4 ∣ image.length) (h : rom.Holds i image) :
    rom.Rewrites (rom.wordswapLoop ((i + image.length : Nat)) i) i image.length
      (wordswap image) := by
  fun_induction wordswap image generalizing i rom with
  | case1 a b c d rest ih =>
    simp only [List.length_cons] at hwhole
    obtain ⟨hgroup, hrest⟩ := (holds_append [a, b, c, d]).mp h
    have hswap := wordswap_group hgroup
    have hkept := hrest.congr fun j hj _ => hswap.frame j (.inr hj)
    have hlength : i + (rest.length + 1 + 1 + 1 + 1) = i + 4 + rest.length := by omega
    have hlt : (i : Int) < ((i + 4 + rest.length : Nat) : Int) := by omega
    have hloop := ih (by omega) hkept
    rw [List.length_cons, List.length_cons, List.length_cons, List.length_cons, hlength,
      wordswapLoop, if_pos hlt]
    have hsum : rest.length + 1 + 1 + 1 + 1 = 4 + rest.length := by omega
    rw [hsum]
    exact hswap.append rfl hloop
  | case2 rest hshort =>
    match rest, hwhole, hshort with
    | [], _, _ =>
      rw [wordswapLoop, if_neg (by simp)]
      exact .refl
    | a :: b :: c :: d :: rest, _, hshort => exact (hshort a b c d rest rfl).elim
    | [_], hwhole, _ => simp at hwhole
    | [_, _], hwhole, _ => simp at hwhole
    | [_, _, _], hwhole, _ => simp at hwhole

end LocalRom

variable (image : Bytes)

theorem length_byteswap : (byteswap image).length = image.length := by
  fun_induction byteswap image with
  | case1 a b rest ih => simp [ih]
  | case2 rest hshort => rfl

theorem length_wordswap : (wordswap image).length = image.length := by
  fun_induction wordswap image with
  | case1 a b c d rest ih => simp [ih]
  | case2 rest hshort => rfl

theorem byteswap_byteswap : byteswap (byteswap image) = image := by
  fun_induction byteswap image with
  | case1 a b rest ih => rw [byteswap, ih]
  | case2 rest hshort => rw [byteswap.eq_2 _ hshort]

theorem wordswap_wordswap : wordswap (wordswap image) = image := by
  fun_induction wordswap image with
  | case1 a b c d rest ih => rw [wordswap, ih]
  | case2 rest hshort => rw [wordswap.eq_2 _ hshort]

namespace ImageType

def group : ImageType → Nat
  | z64 => 1
  | v64 => 2
  | n64 => 4

def encode : ImageType → Bytes → Bytes
  | z64, image => image
  | v64, image => byteswap image
  | n64, image => wordswap image

def paddingLength (t : ImageType) (length : Nat) : Nat := (t.group - length % t.group) % t.group

theorem group_dvd_of_padded (t : ImageType) (length : Nat) :
    t.group ∣ length + t.paddingLength length := by
  cases t <;> simp only [group, paddingLength] <;> omega

end ImageType

/-- An image in the order of the console begins with `Z64_SIGNATURE`. -/
def IsZ64 (image : Bytes) : Prop := image.take 4 = [0x80, 0x37, 0x12, 0x40]

theorem IsZ64.exists_eq {image : Bytes} (h : IsZ64 image) :
    ∃ rest, image = 0x80 :: 0x37 :: 0x12 :: 0x40 :: rest :=
  ⟨image.drop 4, by rw [← List.take_append_drop 4 image, h]; rfl⟩

/-- The routine on an image in memory. -/
structure Normalises (rom : LocalRom) (loadlength : BitVec 32) (t : ImageType) (image : Bytes) :
    Prop where
  imagetype : (rom.swapRom loadlength).1 = t
  holds : (rom.swapRom loadlength).2.Holds 0 image
  inside : ∀ j ∈ (rom.swapRom loadlength).2.touched, j ∈ rom.touched ∨ j < image.length
  frame : ∀ j, image.length ≤ j → (rom.swapRom loadlength).2.bytes j = rom.bytes j
  again : ((rom.swapRom loadlength).2.swapRom loadlength).2.bytes =
    (rom.swapRom loadlength).2.bytes

section Routine

variable {rom : LocalRom} {loadlength : BitVec 32} {image : Bytes}

theorem LocalRom.swapRom_of_isZ64 (hz : IsZ64 image) (h : rom.Holds 0 image) :
    rom.swapRom loadlength = (.z64, rom.first.2) := by
  obtain ⟨rest, rfl⟩ := hz.exists_eq
  have hbyte : rom.first.1 = 0x80 := h.1
  simp only [swapRom, hbyte]
  rfl

theorem Normalises.of_rewrites {t : ImageType} {rom' : LocalRom} (hz : IsZ64 image)
    (hrun : rom.swapRom loadlength = (t, rom')) (hpos : 0 < image.length)
    (h : rom.first.2.Rewrites rom' 0 image.length image) : Normalises rom loadlength t image := by
  constructor
  · rw [hrun]
  · rw [hrun]
    exact h.holds
  · rw [hrun]
    intro j hj
    rcases h.inside j hj with hj | hj
    · rcases List.mem_cons.mp hj with rfl | hj
      · exact .inr hpos
      · exact .inl hj
    · exact .inr (by omega)
  · rw [hrun]
    intro j hj
    exact h.frame j (.inr (by omega))
  · rw [hrun, LocalRom.swapRom_of_isZ64 hz h.holds]
    rfl

/-- An image in any of the three encodings, padded to whole groups, becomes the image with its
padding in the order of the console. -/
theorem swapRom_normalises (z padding : Bytes) (hz : IsZ64 z) (t : ImageType)
    (hpadding : padding.length = t.paddingLength z.length)
    (hlength : loadlength.toInt = (z ++ padding).length)
    (hrom : rom.Holds 0 (t.encode (z ++ padding))) :
    isValidRom (t.encode (z ++ padding)) = true ∧
      Normalises rom loadlength t (z ++ padding) := by
  have hwhole : t.group ∣ (z ++ padding).length := by
    rw [List.length_append, hpadding]
    exact t.group_dvd_of_padded z.length
  have hz' : IsZ64 (z ++ padding) := by
    obtain ⟨rest, rfl⟩ := hz.exists_eq
    rfl
  obtain ⟨rest, heq⟩ := hz'.exists_eq
  have hpos : 0 < (z ++ padding).length := by rw [heq]; exact Nat.zero_lt_succ _
  generalize z ++ padding = image at *
  cases t with
  | z64 =>
    refine ⟨by rw [heq]; rfl, .of_rewrites hz' (LocalRom.swapRom_of_isZ64 hz' hrom) hpos ?_⟩
    exact ⟨hrom.congr fun _ _ _ => rfl, fun _ _ => rfl, fun _ hj => .inl hj⟩
  | v64 =>
    have hread : rom.first.2.Holds 0 (byteswap image) := hrom.congr fun _ _ _ => rfl
    have hfirst : rom.first.1 = 0x37 := by
      rw [heq] at hrom
      exact hrom.1
    have hrun : rom.swapRom loadlength = (.v64, rom.first.2.byteswapLoop loadlength.toInt 0) := by
      simp only [LocalRom.swapRom, hfirst]
      rfl
    have hloop := LocalRom.byteswapLoop_rewrites (by rwa [length_byteswap]) hread
    rw [byteswap_byteswap, length_byteswap, Nat.zero_add, ← hlength] at hloop
    exact ⟨by rw [heq]; rfl, .of_rewrites hz' hrun hpos hloop⟩
  | n64 =>
    have hread : rom.first.2.Holds 0 (wordswap image) := hrom.congr fun _ _ _ => rfl
    have hfirst : rom.first.1 = 0x40 := by
      rw [heq] at hrom
      exact hrom.1
    have hrun : rom.swapRom loadlength = (.n64, rom.first.2.wordswapLoop loadlength.toInt 0) := by
      simp only [LocalRom.swapRom, hfirst]
      rfl
    have hloop := LocalRom.wordswapLoop_rewrites (by rwa [length_wordswap]) hread
    rw [wordswap_wordswap, length_wordswap, Nat.zero_add, ← hlength] at hloop
    exact ⟨by rw [heq]; rfl, .of_rewrites hz' hrun hpos hloop⟩

/-- Five bytes in swapped halfwords come back with the byte that pads them. -/
theorem swapRom_normalises_five :
    Normalises ⟨fun i => ([0x37, 0x80, 0x40, 0x12, 0xFF, 0x21] : Bytes).getD i 0, []⟩ 6#32 .v64
      [0x80, 0x37, 0x12, 0x40, 0x21, 0xFF] :=
  (swapRom_normalises [0x80, 0x37, 0x12, 0x40, 0x21] [0xFF] rfl .v64 (by decide)
    (by decide) ⟨rfl, rfl, rfl, rfl, rfl, rfl, trivial⟩).2

end Routine

end ParallelN64.Rom
