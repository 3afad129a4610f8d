import ParallelN64.Pi.Loops

/-!
# Copying an image into main memory

A write of the length register asks for a number of bytes of the cartridge image or of the 64DD
image. What arrives is what the image has at the requested offset, in big-endian order, for every
byte that lies inside the image and inside memory.
-/

namespace ParallelN64.Pi

open ParallelN64.Core R4300

/-- The image that a cartridge address selects, and the offset in it. -/
def imageOf (cart : Word) : Option (Region × Word) :=
  if 0x06000000#32 ≤ cart ∧ cart < 0x08000000#32 then some (.ddRom, cart - 0x06000000#32)
  else if 0x10000000#32 ≤ cart ∧ cart < 0x1FC00000#32 then
    some (.cartRom, (cart - 0x10000000#32) &&& 0x3FFFFFF#32)
  else none

def requestedLength (wrLen : Word) : Nat := (wrLen &&& 0xFFFFFE#32).toNat + 2

def PiMachine.imageByte (m : PiMachine) (cfg : PiConfig) (region : Region) (offset : Nat) : UInt8 :=
  if offset < cfg.size region / 4 * 4 then m.buffers.bytes ⟨region, offset ^^^ 3⟩
  else m.buffers.bytes ⟨region, offset⟩

/-- A request of the length register: where it reads and writes, and how much. -/
structure Request where
  region : Region
  offset : Nat
  dram : Nat
  length : Nat

def PiMachine.request (m : PiMachine) (wrLen : Word) : Option Request :=
  (imageOf (m.device.pi .cartAddr)).map fun (region, offset) =>
    ⟨region, offset.toNat, (m.device.pi .dramAddr).toNat, requestedLength wrLen⟩

/-- A transfer copies exactly the requested bytes and ends soon. -/
structure CopiesExactly (cfg : PiConfig) (r : Request) (m : PiMachine)
    (result : PiMachine × List Call) : Prop where
  /-- The bytes that lie inside the image and inside memory arrive. -/
  copied : ∀ i < r.length, r.dram + i < rdramSize → r.offset + i < cfg.size r.region →
    result.1.rdramByte (r.dram + i) = m.imageByte cfg r.region (r.offset + i)
  /-- Everything else stays. -/
  kept : ∀ a < rdramSize, (∀ i < r.length, r.dram + i = a → cfg.size r.region ≤ r.offset + i) →
    result.1.rdramByte a = m.rdramByte a
  /-- Nothing outside the image is used. -/
  inside : ∃ used, result.1.buffers.used = m.buffers.used ++ used ∧
    ∀ p ∈ used, p.region = .rdram ∨ p.region = r.region ∧ p.index < cfg.size r.region
  /-- The end of the transfer is scheduled. -/
  scheduled : ∃ delay < 0x1000000#32, result.2 = [.updateCount, .addEvent .pi delay]

def holdsSize (cfg : PiConfig) (cart : Word) (address : Nat) : Prop :=
  (cart = 0x10001000#32 ∨ cart = 0x06001000#32) ∧
    address / 4 = (if cfg.cicX105 then 0x3F0 else 0x318) / 4

/-- The bytes of an image that are served: its whole words. Of the 64DD image only the first
4 MiB are, and not more than the cartridge image has. -/
def served (cfg : PiConfig) (r : Request) (i : Nat) : Prop :=
  r.offset + i < cfg.size r.region / 4 * 4 ∧
    (r.region = .ddRom → r.offset < 0x400000 ∧ r.offset + i < cfg.cartRomSize.toNat / 4 * 4)

/-- A transfer copies the requested bytes that are served, all but the last byte of memory,
and leaves the rest of memory alone. The size of memory is stored where the boot code looks
for it. -/
structure CopiesServed (cfg : PiConfig) (r : Request) (m : PiMachine)
    (result : PiMachine × List Call) : Prop where
  /-- The bytes that are served arrive. -/
  copied : ∀ i < r.length, r.dram + i < rdramSize - 1 → served cfg r i →
    ¬ holdsSize cfg (m.device.pi .cartAddr) (r.dram + i) →
      result.1.rdramByte (r.dram + i) = m.imageByte cfg r.region (r.offset + i)
  /-- Everything else stays. -/
  kept : ∀ a < rdramSize, (∀ i < r.length, r.dram + i = a → cfg.size r.region ≤ r.offset + i) →
    ¬ holdsSize cfg (m.device.pi .cartAddr) a → result.1.rdramByte a = m.rdramByte a
  /-- The size of memory is stored. -/
  sizeStored : r.offset ≤ cfg.size r.region → r.dram < rdramSize →
    ∀ a, holdsSize cfg (m.device.pi .cartAddr) a →
      result.1.rdramByte a = ⟨(cfg.dramSize >>> (8 * (3 - a % 4))).setWidth 8⟩
  /-- No other image is used, and nothing outside an image of whole words. -/
  inside : ∃ used, result.1.buffers.used = m.buffers.used ++ used ∧
    ∀ p ∈ used, p.region = .rdram ∨ p.region = r.region ∧
      (r.region = .cartRom ∨ cfg.size r.region % 4 = 0 → p.index < cfg.size r.region)
  /-- The end of a transfer that starts inside the image and inside memory is scheduled
  soon. -/
  scheduled : ∃ delay, result.2 = [.updateCount, .addEvent .pi delay] ∧
    (r.offset ≤ cfg.size r.region → r.dram < rdramSize → delay < 0x1000000#32)

variable {offset : Word} {region : Region} (cfg : PiConfig)

theorem toNat_cutLength {length size dram : Word} (hoffset : offset.toNat ≤ size.toNat)
    (hdram : dram.toNat ≤ 0x7FFFFF) (hlength : length.toNat ≤ 0x1000000)
    (hsmall : offset.toNat < 0x10000000) :
    (cutLength length offset size dram).toNat =
      min (min length.toNat (size.toNat - offset.toNat)) (0x7FFFFF - dram.toNat) := by
  have hfirst : (if size < offset + length then size - offset else length).toNat =
      min length.toNat (size.toNat - offset.toNat) := by
    have hsum : (offset + length).toNat = offset.toNat + length.toNat :=
      BitVec.toNat_add_of_lt (by omega)
    split_ifs with h
    · rw [BitVec.lt_def, hsum] at h
      rw [BitVec.toNat_sub_of_le (BitVec.le_def.mpr hoffset)]
      omega
    · rw [BitVec.lt_def, hsum] at h
      omega
  simp only [cutLength]
  generalize (if size < offset + length then size - offset else length) = cut at hfirst
  have hsum : (dram + cut).toNat = dram.toNat + cut.toNat :=
    BitVec.toNat_add_of_lt (by omega)
  have hend : (0x7FFFFF#32).toNat = 0x7FFFFF := rfl
  split_ifs with h
  · rw [BitVec.lt_def, hsum, hend] at h
    rw [BitVec.toNat_sub_of_le (BitVec.le_def.mpr hdram), hend]
    omega
  · rw [BitVec.lt_def, hsum, hend] at h
    omega

theorem toNat_length (wrLen : Word) :
    ((wrLen &&& 0xFFFFFE#32) + 2#32).toNat = requestedLength wrLen := by
  have hle : (wrLen &&& 0xFFFFFE#32).toNat ≤ 0xFFFFFE := by
    rw [BitVec.toNat_and]
    exact Nat.and_le_right
  have htwo : (2#32).toNat = 2 := rfl
  exact BitVec.toNat_add_of_lt (by omega)

theorem requestedLength_le (wrLen : Word) : requestedLength wrLen ≤ 0x1000000 := by
  have hle : (wrLen &&& 0xFFFFFE#32).toNat ≤ 0xFFFFFE := by
    rw [BitVec.toNat_and]
    exact Nat.and_le_right
  rw [requestedLength]
  omega

theorem imageOf_eq_some {cart : Word} (h : imageOf cart = some (region, offset)) :
    (region = .ddRom ∧ 0x06000000#32 ≤ cart ∧ cart < 0x08000000#32 ∧
        offset = cart - 0x06000000#32) ∨
      (region = .cartRom ∧ 0x10000000#32 ≤ cart ∧ cart < 0x1FC00000#32 ∧
        offset = (cart - 0x10000000#32) &&& 0x3FFFFFF#32) := by
  rw [imageOf] at h
  split_ifs at h with hdd hcart
  · obtain ⟨rfl, rfl⟩ := Prod.mk.inj (Option.some.inj h)
    exact .inl ⟨rfl, hdd.1, hdd.2, rfl⟩
  · obtain ⟨rfl, rfl⟩ := Prod.mk.inj (Option.some.inj h)
    exact .inr ⟨rfl, hcart.1, hcart.2, rfl⟩

def PiConfig.imageSize (cfg : PiConfig) (region : Region) : Word :=
  if region = .ddRom then cfg.ddRomSize else cfg.cartRomSize

def romAddress (region : Region) (offset : Word) : Word :=
  if region = .ddRom then offset &&& 0x3FFFFF#32 else offset

/-- The moves of a transfer from an image. -/
def imageMoves (cfg : PiConfig) (region : Region) (cart offset dram wrLen : Word) :
    List (Move Region) :=
  if cfg.imageSize region < offset ∨ 0x7FFFFF#32 < dram then []
  else
    readMoves region cfg.cartRomSize (romAddress region offset) dram
        (cutLength ((wrLen &&& 0xFFFFFE#32) + 2#32) offset (cfg.imageSize region) dram) ++
      if cart = 0x10001000#32 ∨ cart = 0x06001000#32 then sizeHackMoves cfg else []

theorem and_iplMask {cart : Word} (hlo : 0x06000000#32 ≤ cart) (hhi : cart < 0x08000000#32) :
    (cart - 0x06000000#32) &&& 0x1FFFFFF#32 = cart - 0x06000000#32 := by
  apply BitVec.eq_of_toNat_eq
  rw [BitVec.toNat_and]
  refine (Nat.and_two_pow_sub_one_eq_mod _ 25).trans (Nat.mod_eq_of_lt ?_)
  bv_omega

theorem dmaPiWriteData_eq (m : PiMachine)
    (h : imageOf (m.device.pi .cartAddr) = some (region, offset)) :
    m.dmaPiWriteData cfg =
      m.moves (imageMoves cfg region (m.device.pi .cartAddr) offset (m.device.pi .dramAddr)
        (m.device.pi .wrLen)) := by
  rcases imageOf_eq_some h with ⟨rfl, hlo, hhi, rfl⟩ | ⟨rfl, hlo, hhi, rfl⟩
  · have hnot : ¬ 0x1FC00000#32 ≤ m.device.pi .cartAddr := by bv_omega
    have hcart : m.device.pi .cartAddr ≠ 0x10001000#32 := by bv_omega
    rw [PiMachine.dmaPiWriteData]
    simp only [hlo, hhi, hnot, hcart, and_self, not_true_eq_false, and_false, if_false, if_true,
      false_or, PiMachine.iplMoves, imageMoves, PiConfig.imageSize, romAddress,
      and_iplMask hlo hhi]
  · have hfar : ¬ m.device.pi .cartAddr < 0x10000000#32 := by bv_omega
    have hnot : ¬ 0x1FC00000#32 ≤ m.device.pi .cartAddr := by bv_omega
    have hdd : ¬ m.device.pi .cartAddr < 0x08000000#32 := by bv_omega
    have hcart : m.device.pi .cartAddr ≠ 0x06001000#32 := by bv_omega
    rw [PiMachine.dmaPiWriteData]
    simp only [hfar, hnot, hdd, hcart, and_false, false_and, if_false, or_false,
      PiMachine.cartMoves, imageMoves, PiConfig.imageSize, romAddress, reduceCtorEq]

theorem piWriteDelay_eq (d : Device) (h : imageOf (d.pi .cartAddr) = some (region, offset)) :
    d.piWriteDelay cfg.toConfig =
      cutLength ((d.pi .wrLen &&& 0xFFFFFE#32) + 2#32) offset (cfg.imageSize region)
        (d.pi .dramAddr) / 8#32 := by
  rcases imageOf_eq_some h with ⟨rfl, hlo, hhi, rfl⟩ | ⟨rfl, hlo, hhi, rfl⟩
  · have hnot : ¬ 0x1FC00000#32 ≤ d.pi .cartAddr := by bv_omega
    simp only [Device.piWriteDelay, hlo, hhi, hnot, decide_true, Bool.and_self, Bool.not_true,
      Bool.and_false, Bool.false_eq_true, if_false, if_true, PiConfig.imageSize,
      and_iplMask hlo hhi]
  · have hfar : ¬ d.pi .cartAddr < 0x10000000#32 := by bv_omega
    have hnot : ¬ 0x1FC00000#32 ≤ d.pi .cartAddr := by bv_omega
    have hdd : ¬ d.pi .cartAddr < 0x08000000#32 := by bv_omega
    simp only [Device.piWriteDelay, hfar, hnot, hdd, decide_false, Bool.and_false,
      Bool.false_and, Bool.false_eq_true, if_false, PiConfig.imageSize, reduceCtorEq]

section Transfer

variable {cfg : PiConfig} {region : Region} {cart offset dram wrLen : Word}

variable (b : Buffers Region) {a : Nat}

theorem bytes_sizeHackMoves_of_ne (h : a / 4 ≠ (if cfg.cicX105 then 0x3F0 else 0x318) / 4) :
    (b.moves (sizeHackMoves cfg)).bytes ⟨.rdram, a ^^^ 3⟩ = b.bytes ⟨.rdram, a ^^^ 3⟩ := by
  have hword := xor_three_div_four a
  apply bytes_storeWord_of_ne
  intro _
  dsimp only
  split_ifs at h ⊢
  · omega
  · omega

theorem bytes_sizeHackMoves (h : a / 4 = (if cfg.cicX105 then 0x3F0 else 0x318) / 4) :
    (b.moves (sizeHackMoves cfg)).bytes ⟨.rdram, a ^^^ 3⟩ =
      ⟨(cfg.dramSize >>> (8 * (3 - a % 4))).setWidth 8⟩ := by
  have hbyte : a ^^^ 3 = (if cfg.cicX105 then 0x3F0 else 0x318) + (3 - a % 4) := by
    rw [xor_three_eq, h]
    split_ifs <;> rfl
  rw [hbyte]
  exact bytes_storeWord b (by omega)

theorem imageMoves_of_outside (h : cfg.imageSize region < offset ∨ 0x7FFFFF#32 < dram) :
    imageMoves cfg region cart offset dram wrLen = [] :=
  if_pos h

theorem imageMoves_of_inside (hoffset : offset ≤ cfg.imageSize region) (hdram : dram ≤ 0x7FFFFF#32) :
    imageMoves cfg region cart offset dram wrLen =
      readMoves region cfg.cartRomSize (romAddress region offset) dram
          (cutLength ((wrLen &&& 0xFFFFFE#32) + 2#32) offset (cfg.imageSize region) dram) ++
        if cart = 0x10001000#32 ∨ cart = 0x06001000#32 then sizeHackMoves cfg else [] := by
  refine if_neg ?_
  rintro (h | h)
  · exact absurd h (BitVec.not_lt.mpr hoffset)
  · exact absurd h (BitVec.not_lt.mpr hdram)

theorem bytes_sizeHack_of_not (h : ¬ holdsSize cfg cart a) :
    (b.moves (if cart = 0x10001000#32 ∨ cart = 0x06001000#32 then sizeHackMoves cfg
      else [])).bytes ⟨.rdram, a ^^^ 3⟩ = b.bytes ⟨.rdram, a ^^^ 3⟩ := by
  split_ifs with hcart
  · exact bytes_sizeHackMoves_of_ne b fun heq => h ⟨hcart, heq⟩
  · rfl

theorem toNat_romAddress_add_le (i : Nat) :
    (romAddress region offset + BitVec.ofNat 32 i).toNat ≤ offset.toNat + i := by
  have haddress : (romAddress region offset).toNat ≤ offset.toNat := by
    rw [romAddress]
    split_ifs
    · rw [BitVec.toNat_and]
      exact Nat.and_le_left
    · exact Nat.le_refl _
  rw [BitVec.toNat_add, BitVec.toNat_ofNat]
  have hle := Nat.mod_le (BitVec.toNat (romAddress region offset) + i % 2 ^ 32) (2 ^ 32)
  have hmod := Nat.mod_le i (2 ^ 32)
  omega

theorem bytes_imageMoves_of_holdsSize (hoffset : offset ≤ cfg.imageSize region)
    (hdram : dram ≤ 0x7FFFFF#32) (ha : holdsSize cfg cart a) :
    (b.moves (imageMoves cfg region cart offset dram wrLen)).bytes ⟨.rdram, a ^^^ 3⟩ =
      ⟨(cfg.dramSize >>> (8 * (3 - a % 4))).setWidth 8⟩ := by
  rw [imageMoves_of_inside hoffset hdram, Buffers.moves_append, if_pos ha.1]
  exact bytes_sizeHackMoves _ ha.2

variable (h : imageOf cart = some (region, offset))

include h

theorem size_eq_imageSize : cfg.size region = (cfg.imageSize region).toNat := by
  rcases imageOf_eq_some h with ⟨rfl, _⟩ | ⟨rfl, _⟩ <;> rfl

theorem region_ne_rdram : region ≠ .rdram := by
  rcases imageOf_eq_some h with ⟨rfl, _⟩ | ⟨rfl, _⟩
  · decide
  · decide

theorem offset_lt : offset.toNat < 0x4000000 := by
  rcases imageOf_eq_some h with ⟨_, hlo, hhi, rfl⟩ | ⟨_, _, _, rfl⟩
  · bv_omega
  · rw [BitVec.toNat_and]
    exact Nat.lt_of_le_of_lt Nat.and_le_right (by decide)

theorem toNat_cutLength_request
    (hoffset : offset ≤ cfg.imageSize region) (hdram : dram ≤ 0x7FFFFF#32) :
    (cutLength ((wrLen &&& 0xFFFFFE#32) + 2#32) offset (cfg.imageSize region) dram).toNat =
      min (min (requestedLength wrLen) (cfg.size region - offset.toNat))
        (0x7FFFFF - dram.toNat) := by
  have hlt := offset_lt h
  have hle := requestedLength_le wrLen
  rw [toNat_cutLength (BitVec.le_def.mp hoffset) (BitVec.le_def.mp hdram)
    (by rw [toNat_length]; exact hle) (by omega), toNat_length, size_eq_imageSize h]

theorem toNat_romAddress_add {i : Nat}
    (hmib : region = .ddRom → offset.toNat < 0x400000) (hi : i < 0x1000000) :
    (romAddress region offset + BitVec.ofNat 32 i).toNat = offset.toNat + i := by
  have hlt := offset_lt h
  have haddress : (romAddress region offset).toNat = offset.toNat := by
    rw [romAddress]
    split_ifs with hregion
    · rw [BitVec.toNat_and]
      exact (Nat.and_two_pow_sub_one_eq_mod _ 22).trans (Nat.mod_eq_of_lt (hmib hregion))
    · rfl
  rw [toNat_add_of_lt (by omega), haddress]

theorem bytes_imageMoves {i : Nat}
    (hi : i < requestedLength wrLen) (hin : dram.toNat + i < rdramSize - 1)
    (hsize : offset.toNat + i < cfg.size region / 4 * 4) (hdd : region = .ddRom →
      offset.toNat < 0x400000 ∧ offset.toNat + i < cfg.cartRomSize.toNat / 4 * 4)
    (hhack : ¬ holdsSize cfg cart (dram.toNat + i)) :
    (b.moves (imageMoves cfg region cart offset dram wrLen)).bytes
        ⟨.rdram, (dram.toNat + i) ^^^ 3⟩ =
      b.bytes ⟨region, (offset.toNat + i) ^^^ 3⟩ := by
  have hend : rdramSize - 1 = 0x7FFFFF := rfl
  have hoffset : offset ≤ cfg.imageSize region := by
    rw [BitVec.le_def, ← size_eq_imageSize h]
    omega
  have hdram : dram ≤ 0x7FFFFF#32 := by
    rw [BitVec.le_def]
    exact (by omega : dram.toNat ≤ 0x7FFFFF)
  have hle := requestedLength_le wrLen
  have hlength := @toNat_cutLength_request cfg region cart offset dram wrLen h hoffset hdram
  have haddress := toNat_romAddress_add (i := i) h (fun hregion => (hdd hregion).1) (by omega)
  have hmod : (dram.toNat + i) % 2 ^ 26 = dram.toNat + i := Nat.mod_eq_of_lt (by omega)
  rw [imageMoves_of_inside hoffset hdram, Buffers.moves_append, bytes_sizeHack_of_not _ hhack]
  have hloop := @bytes_readMoves region cfg.cartRomSize (romAddress region offset) dram _ b
    (region_ne_rdram h) (by rw [hlength]; omega) i (by rw [hlength]; omega) (by rw [hmod]; omega)
  rw [hmod, haddress] at hloop
  refine hloop.trans (if_pos ?_)
  rcases imageOf_eq_some h with ⟨rfl, _⟩ | ⟨rfl, _⟩
  · exact xor_three_lt (hdd rfl).2
  · exact xor_three_lt hsize

theorem bytes_imageMoves_of_kept
    (ha : ∀ i < requestedLength wrLen, dram.toNat + i = a → cfg.size region ≤ offset.toNat + i)
    (hhack : ¬ holdsSize cfg cart a) :
    (b.moves (imageMoves cfg region cart offset dram wrLen)).bytes ⟨.rdram, a ^^^ 3⟩ =
      b.bytes ⟨.rdram, a ^^^ 3⟩ := by
  by_cases hout : cfg.imageSize region < offset ∨ 0x7FFFFF#32 < dram
  · rw [imageMoves_of_outside hout, Buffers.moves_nil]
  · rw [not_or, BitVec.not_lt, BitVec.not_lt] at hout
    have hlength := @toNat_cutLength_request cfg region cart offset dram wrLen h hout.1 hout.2
    rw [imageMoves_of_inside hout.1 hout.2, Buffers.moves_append, bytes_sizeHack_of_not _ hhack]
    apply bytes_readMoves_of_forall_ne
    intro i hi heq
    rw [hlength] at hi
    have hmod : (dram.toNat + i) % 2 ^ 26 = dram.toNat + i := Nat.mod_eq_of_lt (by omega)
    have hkept := ha i (by omega) (hmod.symm.trans heq)
    omega

theorem places_imageMoves {p : Place Region}
    (hp : p ∈ (imageMoves cfg region cart offset dram wrLen).flatMap Move.places) :
    p.region = .rdram ∨ p.region = region ∧
      (region = .cartRom ∨ cfg.size region % 4 = 0 → p.index < cfg.size region) := by
  by_cases hout : cfg.imageSize region < offset ∨ 0x7FFFFF#32 < dram
  · rw [imageMoves_of_outside hout] at hp
    exact absurd hp List.not_mem_nil
  · rw [not_or, BitVec.not_lt, BitVec.not_lt] at hout
    have hlength := @toNat_cutLength_request cfg region cart offset dram wrLen h hout.1 hout.2
    rw [imageMoves_of_inside hout.1 hout.2, List.flatMap_append, List.mem_append] at hp
    rcases hp with hp | hp
    · rcases places_readMoves hp with hram | ⟨i, hi, rfl, hguard⟩
      · exact .inl hram.1
      · refine .inr ⟨rfl, fun hwhole => ?_⟩
        rcases hwhole with rfl | hwhole
        · exact hguard
        · have hle := @toNat_romAddress_add_le region offset i
          rw [hlength] at hi
          exact (xor_three_lt_iff hwhole).mpr (by omega)
    · split_ifs at hp with hcart
      · exact .inl (places_storeWord hp).1
      · exact absurd hp List.not_mem_nil

theorem delay_lt (hoffset : offset ≤ cfg.imageSize region)
    (hdram : dram ≤ 0x7FFFFF#32) :
    cutLength ((wrLen &&& 0xFFFFFE#32) + 2#32) offset (cfg.imageSize region) dram / 8#32 <
      0x1000000#32 := by
  have hle := requestedLength_le wrLen
  have hlength := @toNat_cutLength_request cfg region cart offset dram wrLen h hoffset hdram
  have height : (8#32).toNat = 8 := rfl
  have hbound : (0x1000000#32).toNat = 0x1000000 := rfl
  rw [BitVec.lt_def, BitVec.toNat_udiv, hlength, height, hbound]
  omega

end Transfer

theorem writePiRegs_wrLen_buffers (m : PiMachine) (value mask : Word)
    (h : imageOf (m.device.pi .cartAddr) = some (region, offset)) :
    (m.writePiRegs cfg .wrLen value mask).1.buffers =
      m.buffers.moves (imageMoves cfg region (m.device.pi .cartAddr) offset
        (m.device.pi .dramAddr) (maskedWrite (m.device.pi .wrLen) value mask)) := by
  let device := m.device.setPi .wrLen (maskedWrite (m.device.pi .wrLen) value mask)
  exact congrArg PiMachine.buffers (dmaPiWriteData_eq cfg { m with device } h)

theorem writePiRegs_wrLen_calls (m : PiMachine) (value mask : Word)
    (h : imageOf (m.device.pi .cartAddr) = some (region, offset)) :
    (m.writePiRegs cfg .wrLen value mask).2 =
      [.updateCount, .addEvent .pi (cutLength
        ((maskedWrite (m.device.pi .wrLen) value mask &&& 0xFFFFFE#32) + 2#32) offset
        (cfg.imageSize region) (m.device.pi .dramAddr) / 8#32)] := by
  let device := m.device.setPi .wrLen (maskedWrite (m.device.pi .wrLen) value mask)
  have hdelay := piWriteDelay_eq cfg device h
  have hcalls : (device.dmaPiWrite cfg.toConfig).2 =
      [.updateCount, .addEvent .pi (device.piWriteDelay cfg.toConfig)] := by
    rw [Device.dmaPiWrite]
    split_ifs <;> rfl
  rw [hdelay] at hcalls
  exact hcalls

/-- A write of the length register copies what is served of the selected image, stores the
size of memory behind a transfer from a fixed address, and changes nothing else. -/
theorem writePiRegs_wrLen_copies (cfg : PiConfig) (m : PiMachine) (value mask : Word) (r : Request)
    (h : m.request (maskedWrite (m.device.pi .wrLen) value mask) = some r) :
    CopiesServed cfg r m (m.writePiRegs cfg .wrLen value mask) := by
  obtain ⟨⟨region, offset⟩, himage, rfl⟩ := Option.map_eq_some_iff.mp h
  have hbuffers := writePiRegs_wrLen_buffers cfg m value mask himage
  have hcalls := writePiRegs_wrLen_calls cfg m value mask himage
  have hinside : offset.toNat ≤ cfg.size region → (m.device.pi .dramAddr).toNat < rdramSize →
      offset ≤ cfg.imageSize region ∧ m.device.pi .dramAddr ≤ 0x7FFFFF#32 := by
    intro hoffset hdram
    rw [size_eq_imageSize himage] at hoffset
    exact ⟨hoffset, Nat.le_of_lt_succ hdram⟩
  constructor
  · intro i hi hin hserved hhack
    rw [PiMachine.rdramByte, hbuffers, PiMachine.imageByte, if_pos hserved.1]
    exact bytes_imageMoves _ himage hi hin hserved.1 hserved.2 hhack
  · intro a _ ha hhack
    rw [PiMachine.rdramByte, hbuffers]
    exact bytes_imageMoves_of_kept _ himage ha hhack
  · intro hoffset hdram a ha
    rw [PiMachine.rdramByte, hbuffers]
    exact bytes_imageMoves_of_holdsSize _ (hinside hoffset hdram).1 (hinside hoffset hdram).2 ha
  · rw [hbuffers, Buffers.used_moves]
    exact ⟨_, rfl, fun p hp => places_imageMoves himage hp⟩
  · refine ⟨_, hcalls, fun hoffset hdram => ?_⟩
    exact delay_lt himage (hinside hoffset hdram).1 (hinside hoffset hdram).2

def addressed (cart dram : Word) : PiMachine :=
  { blankMachine with
    device := (blankDevice.setPi .cartAddr cart).setPi .dramAddr dram }

/-- The blank machine loads from the start of the cartridge. -/
theorem loads_from_cartridge :
    CopiesServed samplePiConfig ⟨.cartRom, 0, 0x100, 0x1000⟩ (addressed 0x10000000#32 0x100#32)
      ((addressed 0x10000000#32 0x100#32).writePiRegs samplePiConfig .wrLen 0xFFF#32
        0xFFFFFFFF#32) :=
  writePiRegs_wrLen_copies samplePiConfig (addressed 0x10000000#32 0x100#32) 0xFFF#32
    0xFFFFFFFF#32 ⟨.cartRom, 0, 0x100, 0x1000⟩ rfl

/-- Loading two bytes from behind the boot code stores the size of memory as well. -/
theorem boot_load_stores_size :
    (addressed 0x10001000#32 0#32).request 0#32 = some ⟨.cartRom, 0x1000, 0, 2⟩ ∧
      ¬ CopiesExactly samplePiConfig ⟨.cartRom, 0x1000, 0, 2⟩ (addressed 0x10001000#32 0#32)
        ((addressed 0x10001000#32 0#32).writePiRegs samplePiConfig .wrLen 0#32
          0xFFFFFFFF#32) := by
  refine ⟨rfl, fun h => ?_⟩
  have hfar : ∀ i < 2, 0 + i = 0x319 → samplePiConfig.size .cartRom ≤ 0x1000 + i := by
    intro i hi heq
    omega
  have hkept := h.kept 0x319 (by decide) hfar
  exact absurd hkept (by decide)

end ParallelN64.Pi
