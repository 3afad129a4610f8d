import ParallelN64.Si.Pif

/-!
# Bounds of the command loops

Both loops end after at most 64 turns. They stay inside the memories exactly when every
command that they come to has the bytes that its handler uses, and when the blocks of the
EEPROM and of a cartridge that commands select do not reach over an end.
-/

namespace ParallelN64.Si

open ParallelN64.Core

section Needs

variable (cfg : PifConfig) (s : Pif) (channel : Fin 4) (i : Nat)

/-- The bytes that a controller command uses when it is written. -/
def controllerNeeds : Nat :=
  match (s.byte (i + 2)).toNat with
  | 0x00 | 0xFF => if s.byte (i + 1) &&& 0x80 ≠ 0 ∨ cfg.connected channel = .none then 3 else 6
  | 0x02 | 0x03 => if cfg.connected channel = .none then 3 else 6 + pakChunkSize
  | _ => 3

/-- The bytes that a cartridge command uses when it is written. -/
def cartNeeds : Nat :=
  match (s.byte (i + 2)).toNat with
  | 0x00 => 3 + (s.byte (i + 1) &&& 3).toNat
  | 0x04 | 0x05 => if eepromAddress s i < cfg.eepromSize then 12 else 4
  | 0x06 => 6
  | 0x07 => if s.byte (i + 3) = 0 ∨ s.byte (i + 3) = 2 then 13 else 4
  | _ => 3

def EepromFits : Prop :=
  (s.byte (i + 2)).toNat = 0x04 ∨ (s.byte (i + 2)).toNat = 0x05 →
    eepromAddress s i < cfg.eepromSize → eepromAddress s i + 8 ≤ cfg.eepromSize

def BlockFits (p : Block) : Prop := p.index + pakChunkSize ≤ cfg.size p.region

def inGbCart (address : BitVec 32) : Bool := 0x0C ≤ (address >>> 12).toNat ∧ (address >>> 12).toNat ≤ 0x0F

/-- The block of a cartridge that a pak command reads or writes ends inside. -/
def PakFits : Prop :=
  cfg.connected channel ≠ .none → cfg.pak channel = .transfer → inGbCart (pakAddress s i) = true →
    let t := s.transferpak channel
    let address := gbCartAddress t (pakAddress s i)
    ((s.byte (i + 2)).toNat = 0x02 → t.enabled = true →
      ∀ p, readGbCart (cfg.gbCart channel) t channel address = .block p → BlockFits cfg p) ∧
    ((s.byte (i + 2)).toNat = 0x03 →
      ∀ p, (writeGbCart (cfg.gbCart channel) t channel address (s.byte (i + 5))).1 = some p →
        BlockFits cfg p)

/-- A command that is written has all bytes that it uses. -/
def WriteFits (channel : Nat) : Prop :=
  if h : channel < 4 then
    i + controllerNeeds cfg s ⟨channel, h⟩ i ≤ pifRamSize ∧ PakFits cfg s ⟨channel, h⟩ i
  else if channel = 4 then i + cartNeeds cfg s i ≤ pifRamSize ∧ EepromFits cfg s i
  else i + 2 ≤ pifRamSize

def ReadFits (channel : Nat) : Prop :=
  if h : channel < 4 then
    i + (if s.byte (i + 2) = 0x01 ∧ cfg.connected ⟨channel, h⟩ ≠ .none then 7 else 3) ≤ pifRamSize
  else i + 2 ≤ pifRamSize

end Needs

def Walk.visits (w : Walk) : Nat → Cursor → List Cursor
  | 0, _ => []
  | turns + 1, c => if c.index < 0x40 then c :: w.visits turns (w.step c) else []

section Runs

variable {w : Walk}

variable {c : Cursor} {turns : Nat}

theorem index_lt_step (w : Walk) (h : c.index < 0x40) : c.index < (w.step c).index := by
  rw [Walk.step]
  dsimp only
  split_ifs <;> simp only <;> omega

theorem used_step (c : Cursor) :
    (w.step c).pif.buffers.used =
      c.pif.buffers.used ++ (w.turn c).1.flatMap Move.places := by
  have hmoves := Buffers.used_moves c.pif.buffers (w.turn c).1
  rw [Walk.step]
  dsimp only
  split_ifs <;> exact hmoves

theorem exists_run (h : 0x40 ≤ c.index + turns) : ∃ s, w.run turns c = some s := by
  induction turns generalizing c with
  | zero => exact ⟨c.pif, by rw [Walk.run, if_neg (by omega)]⟩
  | succ turns ih =>
    rw [Walk.run]
    by_cases hindex : c.index < 0x40
    · rw [if_pos hindex]
      have hstep := index_lt_step w hindex
      exact ih (by omega)
    · exact ⟨c.pif, by rw [if_neg hindex]⟩

theorem used_run {s : Pif} (h : w.run turns c = some s) :
    s.buffers.used = c.pif.buffers.used ++
      (w.visits turns c).flatMap fun c => (w.turn c).1.flatMap Move.places := by
  induction turns generalizing c with
  | zero =>
    rw [Walk.run] at h
    split_ifs at h
    obtain rfl := Option.some.inj h
    exact (List.append_nil _).symm
  | succ turns ih =>
    rw [Walk.run] at h
    rw [Walk.visits]
    split_ifs at h ⊢
    · rw [ih h, used_step, List.flatMap_cons, List.append_assoc]
    · obtain rfl := Option.some.inj h
      exact (List.append_nil _).symm

theorem index_lt_of_mem_visits {v : Cursor} (h : v ∈ w.visits turns c) : v.index < 0x40 := by
  induction turns generalizing c with
  | zero => exact absurd h List.not_mem_nil
  | succ turns ih =>
    rw [Walk.visits] at h
    split_ifs at h with hindex
    · rcases List.mem_cons.mp h with rfl | hrest
      · exact hindex
      · exact ih hrest
    · exact absurd h List.not_mem_nil

end Runs

section Handlers

variable {cfg : PifConfig} {s : Pif} {channel : Fin 4} {i : Nat}

@[simp] theorem lt_size_ram {k : Nat} : (ram k).index < cfg.size (ram k).region ↔ k < 64 := Iff.rfl

@[simp] theorem inside_errorMoves {bit : UInt8} : Inside cfg.size (errorMoves s i bit) ↔ i + 1 < 64 := by
  simp [errorMoves]

theorem inside_fill_ram {k : Nat} {value : UInt8} :
    Inside cfg.size (fillWith pakChunkSize (ram k) value) ↔ k + pakChunkSize ≤ 64 :=
  inside_fill (by decide)

theorem inside_crcMoves {b : Buffers PifRegion} :
    Inside cfg.size (crcMoves i b) ↔ i + 6 + pakChunkSize ≤ 64 := by
  rw [crcMoves, inside_append, inside_loop]
  simp only [within_look, inside_cons, within_put, lt_size_ram, inside_nil, and_true, pakChunkSize]
  constructor
  · omega
  · intro h
    exact ⟨fun k hk => by omega, by omega⟩

theorem inside_controllerStatus :
    Inside cfg.size (controllerStatus cfg s channel i) ↔
      if s.byte (i + 1) &&& 0x80 ≠ 0 ∨ cfg.connected channel = .none then i + 1 < 64
      else i + 5 < 64 := by
  rw [controllerStatus, inside_cons, within_look, lt_size_ram]
  by_cases hlength : s.byte (i + 1) &&& 0x80 ≠ 0
  · rw [if_pos hlength, if_pos (.inl hlength)]
    exact and_iff_left inside_nil
  · rw [if_neg hlength]
    by_cases hnone : cfg.connected channel = .none
    · have hor : s.byte (i + 1) &&& 0x80 ≠ 0 ∨ cfg.connected channel = .none := .inr hnone
      rw [if_pos hor, hnone, inside_errorMoves]
      exact and_self_iff
    · rw [if_neg (not_or_intro hlength hnone)]
      cases hconnected : cfg.connected channel with
      | none => exact absurd hconnected hnone
      | _ =>
        simp only [List.cons_append, List.nil_append, inside_cons, within_put, lt_size_ram,
          inside_nil, and_true]
        omega

theorem inside_controllerReadButtons (h : i + 1 < 64) :
    Inside cfg.size (controllerReadButtons cfg s channel i) := by
  rw [controllerReadButtons]
  split_ifs
  · exact inside_errorMoves.mpr h
  · exact inside_nil

theorem pakAddress_mod (s : Pif) (i : Nat) : (pakAddress s i).toNat % 32 = 0 := by
  have hlow : ((s.byte (i + 4) &&& 0xE0).toBitVec.setWidth 32).toNat % 2 ^ 5 = 0 := by
    have hand : ((s.byte (i + 4) &&& 0xE0).toBitVec).toNat = (s.byte (i + 4)).toNat &&& 0xE0 :=
      UInt8.toNat_and ..
    rw [BitVec.toNat_setWidth_of_le (by decide), hand, Nat.and_mod_two_pow]
    exact Nat.and_zero _
  have hhigh : ((s.byte (i + 3)).toBitVec.setWidth 32 <<< 8).toNat % 2 ^ 5 = 0 := by
    rw [BitVec.toNat_shiftLeft, Nat.shiftLeft_eq]
    omega
  rw [pakAddress, BitVec.toNat_or]
  refine (Nat.or_mod_two_pow (n := 5)).trans ?_
  rw [hhigh, hlow]
  rfl

variable {address : BitVec 32} {data : Nat} {t : Transferpak}

theorem mempakBlock_le (hmod : address.toNat % 32 = 0) (h : address < 0x8000#32) :
    address.toNat + pakChunkSize ≤ mempakSize := by
  have hlt : address.toNat < 0x8000 := BitVec.lt_def.mp h
  rw [pakChunkSize, mempakSize]
  omega

theorem inside_mempakRead (hmod : address.toNat % 32 = 0) :
    Inside cfg.size (mempakRead channel address (ram data)) ↔ data + pakChunkSize ≤ 64 := by
  rw [mempakRead]
  split_ifs with h
  · rw [inside_copy (by decide)]
    exact and_iff_right (mempakBlock_le hmod h)
  · exact inside_fill_ram

theorem inside_mempakWrite (hmod : address.toNat % 32 = 0) (hdata : data + pakChunkSize ≤ 64) :
    Inside cfg.size (mempakWrite channel address (ram data)) := by
  rw [mempakWrite]
  split_ifs with h
  · exact (inside_copy (by decide)).mpr ⟨hdata, mempakBlock_le hmod h⟩
  · exact inside_nil

theorem inside_rumblepakWrite (hdata : data + pakChunkSize ≤ 64) :
    Inside cfg.size (rumblepakWrite address (ram data)) := by
  rw [rumblepakWrite]
  split_ifs
  · have hfirst : data < 64 := by
      rw [pakChunkSize] at hdata
      omega
    simp [hfirst]
  · exact inside_nil

theorem inside_gbReadMoves (hdata : data + pakChunkSize ≤ 64) :
    Inside cfg.size (gbReadMoves cfg t channel address (ram data)) ↔
      ∀ p, readGbCart (cfg.gbCart channel) t channel (gbCartAddress t address) = .block p →
        BlockFits cfg p := by
  rw [gbReadMoves]
  cases hread : readGbCart (cfg.gbCart channel) t channel (gbCartAddress t address) with
  | nothing => exact iff_of_true inside_nil fun p h => GbRead.noConfusion h
  | zeros => exact iff_of_true (inside_fill_ram.mpr hdata) fun p h => GbRead.noConfusion h
  | block p =>
    rw [inside_copy (by decide)]
    refine ⟨fun h q hq => ?_, fun h => ⟨h p rfl, hdata⟩⟩
    obtain rfl := GbRead.block.inj hq
    exact h.1

theorem mem_gbCart (h : inGbCart address = true) :
    (address >>> 12).toNat = 0xC ∨ (address >>> 12).toNat = 0xD ∨
      (address >>> 12).toNat = 0xE ∨ (address >>> 12).toNat = 0xF := by
  rw [inGbCart, decide_eq_true_eq] at h
  omega

theorem inside_transferpakRead (hdata : data + pakChunkSize ≤ 64) :
    Inside cfg.size (transferpakRead cfg t channel address (ram data)).1 ↔
      (inGbCart address = true → t.enabled = true → ∀ p,
        readGbCart (cfg.gbCart channel) t channel (gbCartAddress t address) = .block p →
          BlockFits cfg p) := by
  have hfirst : data < 64 := by
    rw [pakChunkSize] at hdata
    omega
  rw [transferpakRead]
  split
  case h_1 h => exact iff_of_true (inside_fill_ram.mpr hdata) fun hin => by simp [inGbCart, h] at hin
  case h_2 h =>
    refine iff_of_true ?_ fun hin => by simp [inGbCart, h] at hin
    split_ifs
    · rw [inside_append]
      exact ⟨inside_fill_ram.mpr hdata, by simp [hfirst]⟩
    · rw [inside_append]
      exact ⟨inside_fill_ram.mpr hdata, inside_nil⟩
    · exact inside_nil
  case h_7 h8 hB hC hD hE hF =>
    refine iff_of_true inside_nil fun hin => ?_
    rcases mem_gbCart hin with h | h | h | h
    · exact absurd h hC
    · exact absurd h hD
    · exact absurd h hE
    · exact absurd h hF
  all_goals
    rename_i h
    have hin : inGbCart address = true := by simp [inGbCart, h]
    cases henabled : t.enabled with
    | true =>
      rw [if_pos rfl, inside_gbReadMoves hdata]
      exact ⟨fun hall _ _ => hall, fun hall => hall hin rfl⟩
    | false => exact iff_of_true inside_nil fun _ hon => Bool.noConfusion hon

theorem inside_transferpakWrite (hdata : data + pakChunkSize ≤ 64) {value : UInt8} :
    Inside cfg.size (transferpakWrite cfg t channel address (ram data) value).1 ↔
      (inGbCart address = true → ∀ p,
        (writeGbCart (cfg.gbCart channel) t channel (gbCartAddress t address) value).1 = some p →
          BlockFits cfg p) := by
  have hfirst : Within cfg.size (look (ram data)).places := by
    rw [within_look, lt_size_ram]
    rw [pakChunkSize] at hdata
    omega
  rw [transferpakWrite]
  dsimp only
  rw [inside_cons, and_iff_right hfirst]
  split
  case h_1 h => exact iff_of_true inside_nil fun hin => by simp [inGbCart, h] at hin
  case h_2 h => exact iff_of_true inside_nil fun hin => by simp [inGbCart, h] at hin
  case h_3 h => exact iff_of_true inside_nil fun hin => by simp [inGbCart, h] at hin
  case h_8 h8 hA hB hC hD hE hF =>
    refine iff_of_true inside_nil fun hin => ?_
    rcases mem_gbCart hin with h | h | h | h
    · exact absurd h hC
    · exact absurd h hD
    · exact absurd h hE
    · exact absurd h hF
  all_goals
    rename_i h
    have hin : inGbCart address = true := by simp [inGbCart, h]
    cases hwrite : (writeGbCart (cfg.gbCart channel) t channel (gbCartAddress t address) value).1 with
    | none => exact iff_of_true inside_nil fun _ p hp => absurd hp.symm (Option.some_ne_none p)
    | some p =>
      refine (inside_copy (by decide)).trans ⟨fun hall _ q hq => ?_, fun hall => ⟨hdata, ?_⟩⟩
      · obtain rfl := Option.some.inj hq
        exact hall.2
      · exact hall hin p rfl

theorem inside_pakCommand {block : BitVec 32 → Moves × Transferpak} {fits : Prop}
    (h : i + 5 + pakChunkSize ≤ 64 → (Inside cfg.size (block (pakAddress s i)).1 ↔ fits)) :
    i + 2 < 64 ∧ Inside cfg.size (pakCommand cfg s channel i block).1 ↔
      i + (if cfg.connected channel = .none then 3 else 6 + pakChunkSize) ≤ 64 ∧
        (cfg.connected channel ≠ .none → fits) := by
  rw [pakCommand]
  by_cases hnone : cfg.connected channel = .none
  · rw [if_pos hnone, if_pos hnone, inside_errorMoves]
    have hfits : cfg.connected channel ≠ .none → fits := fun hne => absurd hnone hne
    rw [and_iff_left hfits]
    omega
  · rw [if_neg hnone, if_neg hnone]
    dsimp only
    rw [inside_cons, inside_cons, inside_append, inside_crcMoves, within_look, within_look,
      lt_size_ram, lt_size_ram, ← Nat.add_assoc]
    constructor
    · rintro ⟨-, -, -, hblock, hcrc⟩
      exact ⟨hcrc, fun _ => (h (by omega)).mp hblock⟩
    · rintro ⟨hcrc, hfits⟩
      exact ⟨by omega, by omega, by omega, (h (by omega)).mpr (hfits hnone), hcrc⟩

theorem inside_controllerReadPak (h : (s.byte (i + 2)).toNat = 0x02) :
    i + 2 < 64 ∧ Inside cfg.size (controllerReadPak cfg s channel i).1 ↔
      i + (if cfg.connected channel = .none then 3 else 6 + pakChunkSize) ≤ 64 ∧
        PakFits cfg s channel i := by
  rw [PakFits, controllerReadPak]
  refine inside_pakCommand fun hdata => ?_
  rw [pakRead]
  cases hpak : cfg.pak channel with
  | none => exact iff_of_true (inside_fill_ram.mpr hdata) fun htransfer => PakType.noConfusion htransfer
  | mem =>
    exact iff_of_true ((inside_mempakRead (pakAddress_mod s i)).mpr hdata) fun htransfer =>
      PakType.noConfusion htransfer
  | rumble =>
    exact iff_of_true (inside_fill_ram.mpr hdata) fun htransfer => PakType.noConfusion htransfer
  | transfer =>
    refine (inside_transferpakRead hdata).trans ⟨fun hall _ hin => ⟨fun _ => hall hin, ?_⟩, ?_⟩
    · intro hwrite
      omega
    · intro hall hin
      exact (hall rfl hin).1 h

theorem inside_controllerWritePak (h : (s.byte (i + 2)).toNat = 0x03) :
    i + 2 < 64 ∧ Inside cfg.size (controllerWritePak cfg s channel i).1 ↔
      i + (if cfg.connected channel = .none then 3 else 6 + pakChunkSize) ≤ 64 ∧
        PakFits cfg s channel i := by
  rw [PakFits, controllerWritePak]
  refine inside_pakCommand fun hdata => ?_
  rw [pakWrite]
  cases hpak : cfg.pak channel with
  | none => exact iff_of_true inside_nil fun htransfer => PakType.noConfusion htransfer
  | mem =>
    exact iff_of_true (inside_mempakWrite (pakAddress_mod s i) hdata) fun htransfer =>
      PakType.noConfusion htransfer
  | rumble => exact iff_of_true (inside_rumblepakWrite hdata) fun htransfer => PakType.noConfusion htransfer
  | transfer =>
    refine (inside_transferpakWrite hdata).trans ⟨fun hall _ hin => ⟨?_, fun _ => hall hin⟩, ?_⟩
    · intro hread
      omega
    · intro hall hin
      exact (hall rfl hin).2 h

theorem inside_controllerCommand :
    i + 2 < 64 ∧ Inside cfg.size (controllerCommand cfg s channel i).1 ↔
      i + controllerNeeds cfg s channel i ≤ 64 ∧ PakFits cfg s channel i := by
  have hother : (s.byte (i + 2)).toNat ≠ 0x02 → (s.byte (i + 2)).toNat ≠ 0x03 →
      PakFits cfg s channel i :=
    fun h2 h3 _ _ _ => ⟨fun h => absurd h h2, fun h => absurd h h3⟩
  rw [controllerCommand]
  split
  case h_1 h =>
    rw [and_iff_left (hother (by omega) (by omega)), inside_controllerStatus]
    simp only [controllerNeeds, h]
    split_ifs <;> omega
  case h_2 h =>
    rw [and_iff_left (hother (by omega) (by omega)), inside_controllerStatus]
    simp only [controllerNeeds, h]
    split_ifs <;> omega
  case h_3 h =>
    rw [and_iff_left (hother (by omega) (by omega))]
    simp only [controllerNeeds, h]
    exact ⟨fun hin => hin.1, fun hle => ⟨hle, inside_controllerReadButtons (by omega)⟩⟩
  case h_4 h =>
    simp only [controllerNeeds, h]
    exact inside_controllerReadPak h
  case h_5 h =>
    simp only [controllerNeeds, h]
    exact inside_controllerWritePak h
  case h_6 h0 hFF h1 h2 h3 =>
    have hneeds : controllerNeeds cfg s channel i = 3 := by
      rw [controllerNeeds]
      split
      · exact absurd ‹_› h0
      · exact absurd ‹_› hFF
      · exact absurd ‹_› h2
      · exact absurd ‹_› h3
      · rfl
    rw [and_iff_left (hother h2 h3), hneeds]
    exact and_iff_left inside_nil

theorem inside_eepromStatus :
    i + 2 < 64 ∧ Inside cfg.size (eepromStatus cfg s i) ↔
      i + (3 + (s.byte (i + 1) &&& 3).toNat) ≤ 64 := by
  have hle : (s.byte (i + 1) &&& 3).toNat ≤ 3 := by
    rw [UInt8.toNat_and]
    exact Nat.and_le_right
  have hlt : ∀ n : UInt8, n < s.byte (i + 1) &&& 3 ↔ n.toNat < (s.byte (i + 1) &&& 3).toNat :=
    fun n => UInt8.lt_iff_toNat_lt
  rw [eepromStatus, inside_cons, within_look, lt_size_ram]
  by_cases hsize : s.byte (i + 1) ≠ 3
  · rw [if_pos hsize]
    simp only [inside_append, inside_errorMoves, hlt, UInt8.reduceToNat]
    split_ifs
    all_goals
      simp only [inside_cons, within_put, lt_size_ram, inside_nil, and_true]
      omega
  · rw [if_neg hsize, not_not.mp hsize]
    simp only [inside_cons, within_put, lt_size_ram, inside_nil, and_true]
    have hthree : ((3 : UInt8) &&& 3).toNat = 3 := rfl
    omega

theorem inside_eeprom {ms : Moves}
    (hms : Inside cfg.size ms ↔ eepromAddress s i + 8 ≤ cfg.eepromSize ∧ i + 4 + 8 ≤ 64) :
    i + 2 < 64 ∧ Inside cfg.size (look (ram (i + 3)) ::
        if eepromAddress s i < cfg.eepromSize then ms else []) ↔
      i + (if eepromAddress s i < cfg.eepromSize then 12 else 4) ≤ 64 ∧
        (eepromAddress s i < cfg.eepromSize → eepromAddress s i + 8 ≤ cfg.eepromSize) := by
  rw [inside_cons, within_look, lt_size_ram]
  split_ifs with h
  · rw [hms]
    omega
  · simp only [inside_nil, and_true]
    omega

theorem inside_afRtcRead :
    i + 2 < 64 ∧ Inside cfg.size (afRtcRead cfg s i) ↔
      i + (if s.byte (i + 3) = 0 ∨ s.byte (i + 3) = 2 then 13 else 4) ≤ 64 := by
  rw [afRtcRead, inside_cons, within_look, lt_size_ram]
  split
  case h_1 h =>
    have hblock : s.byte (i + 3) = 0 := UInt8.toNat_inj.mp h
    rw [if_pos (.inl hblock)]
    simp only [inside_cons, within_put, lt_size_ram, inside_nil, and_true]
    omega
  case h_2 h =>
    have hblock : s.byte (i + 3) = 2 := UInt8.toNat_inj.mp h
    rw [if_pos (.inr hblock)]
    simp only [inside_cons, within_put, lt_size_ram, inside_nil, and_true]
    omega
  case h_3 h0 h2 =>
    rw [if_neg, and_iff_left inside_nil]
    · omega
    · rintro (hblock | hblock)
      · exact h0 (congrArg UInt8.toNat hblock)
      · exact h2 (congrArg UInt8.toNat hblock)

theorem inside_cartCommand :
    i + 2 < 64 ∧ Inside cfg.size (cartCommand cfg s i) ↔
      i + cartNeeds cfg s i ≤ 64 ∧ EepromFits cfg s i := by
  have hother : (s.byte (i + 2)).toNat ≠ 0x04 → (s.byte (i + 2)).toNat ≠ 0x05 →
      EepromFits cfg s i :=
    fun h4 h5 hcmd => absurd hcmd (not_or_intro h4 h5)
  rw [cartCommand]
  split
  case h_1 h =>
    rw [and_iff_left (hother (by omega) (by omega)), inside_eepromStatus]
    simp only [cartNeeds, h]
  case h_2 h =>
    rw [EepromFits, eepromRead]
    simp only [cartNeeds, h, true_or, forall_const]
    refine inside_eeprom ((inside_copy (by decide)).trans ?_)
    exact Iff.rfl
  case h_3 h =>
    rw [EepromFits, eepromWrite]
    simp only [cartNeeds, h, or_true, forall_const]
    refine inside_eeprom ((inside_copy (by decide)).trans ?_)
    exact and_comm
  case h_4 h =>
    rw [and_iff_left (hother (by omega) (by omega)), afRtcStatus]
    simp only [cartNeeds, h, inside_cons, within_put, lt_size_ram, inside_nil, and_true]
    omega
  case h_5 h =>
    rw [and_iff_left (hother (by omega) (by omega)), inside_afRtcRead]
    simp only [cartNeeds, h]
  case h_6 h0 h4 h5 h6 h7 =>
    have hneeds : cartNeeds cfg s i = 3 := by
      rw [cartNeeds]
      split
      · exact absurd ‹_› h0
      · exact absurd ‹_› h4
      · exact absurd ‹_› h5
      · exact absurd ‹_› h6
      · exact absurd ‹_› h7
      · rfl
    rw [and_iff_left (hother h4 h5), hneeds]
    exact and_iff_left inside_nil

theorem inside_readController :
    i + 2 < 64 ∧ Inside cfg.size (readController cfg s channel i) ↔
      i + (if s.byte (i + 2) = 0x01 ∧ cfg.connected channel ≠ .none then 7 else 3) ≤ 64 := by
  rw [readController]
  split_ifs
  · rw [inside_loop]
    simp only [within_put, lt_size_ram]
    constructor
    · rintro ⟨-, hall⟩
      have hlast := hall 3 (by decide)
      omega
    · intro hle
      exact ⟨by omega, fun k hk => by omega⟩
  · exact and_iff_left inside_nil

end Handlers

section Loops

variable {cfg : PifConfig} {c : Cursor}

theorem inside_turn {w : Walk} {fits : Prop} (hindex : c.index < 0x40)
    (h : c.index + 1 < 64 ∧ Inside cfg.size (w.command c.pif c.index c.channel).1 ↔ fits) :
    Inside cfg.size (w.turn c).1 ↔ (startsCommand (c.pif.byte c.index) = true → fits) := by
  have hfirst : Within cfg.size (look (ram c.index)).places := by
    rw [within_look, lt_size_ram]
    exact hindex
  rw [Walk.turn]
  dsimp only
  split_ifs with hstarts
  · rw [List.cons_append, inside_cons, inside_append, inside_cons, inside_cons, and_iff_right hfirst,
      and_iff_right hfirst, within_look, lt_size_ram, ← h]
    exact ⟨fun hin _ => ⟨hin.2.1, hin.1⟩, fun hfits => ⟨(hfits hstarts).2, (hfits hstarts).1, inside_nil⟩⟩
  · rw [inside_cons, and_iff_right hfirst]
    exact iff_of_true inside_nil fun hon => absurd hon hstarts

theorem inside_writeCommand (cfg : PifConfig) (s : Pif) (i channel : Nat) :
    i + 1 < 64 ∧ Inside cfg.size (writeCommand cfg s i channel).1 ↔ WriteFits cfg s i channel := by
  rw [writeCommand, WriteFits, pifRamSize]
  by_cases hport : channel < 4
  · rw [dif_pos hport, dif_pos hport, ← inside_controllerCommand]
    dsimp only
    rw [inside_cons, within_look, lt_size_ram]
    exact ⟨fun hin => hin.2, fun hin => ⟨by omega, hin⟩⟩
  · rw [dif_neg hport, dif_neg hport]
    by_cases hcart : channel = 4
    · rw [if_pos hcart, if_pos hcart, ← inside_cartCommand, inside_cons, within_look, lt_size_ram]
      exact ⟨fun hin => hin.2, fun hin => ⟨by omega, hin⟩⟩
    · rw [if_neg hcart, if_neg hcart]
      exact and_iff_left inside_nil

theorem inside_readCommand (cfg : PifConfig) (s : Pif) (i channel : Nat) :
    i + 1 < 64 ∧ Inside cfg.size (readCommand cfg s i channel).1 ↔ ReadFits cfg s i channel := by
  rw [readCommand, ReadFits, pifRamSize]
  by_cases hport : channel < 4
  · rw [dif_pos hport, dif_pos hport, ← inside_readController, inside_cons, within_look, lt_size_ram]
    exact ⟨fun hin => hin.2, fun hin => ⟨by omega, hin⟩⟩
  · rw [dif_neg hport, dif_neg hport]
    exact and_iff_left inside_nil

def Walk.runMoves (w : Walk) (c : Cursor) : Moves := (w.visits 0x40 c).flatMap fun c => (w.turn c).1

theorem inside_runMoves {w : Walk} {fits : Cursor → Prop}
    (h : ∀ c, c.index + 1 < 64 ∧ Inside cfg.size (w.command c.pif c.index c.channel).1 ↔ fits c) :
    Inside cfg.size (w.runMoves c) ↔
      ∀ v ∈ w.visits 0x40 c, startsCommand (v.pif.byte v.index) = true → fits v := by
  have hall : Inside cfg.size (w.runMoves c) ↔
      ∀ v ∈ w.visits 0x40 c, Inside cfg.size (w.turn v).1 := by
    rw [Walk.runMoves]
    generalize w.visits 0x40 c = visits
    induction visits with
    | nil => exact iff_of_true inside_nil fun v hv => absurd hv List.not_mem_nil
    | cons v visits ih => rw [List.flatMap_cons, inside_append, ih, List.forall_mem_cons]
  rw [hall]
  exact forall₂_congr fun v hv => inside_turn (index_lt_of_mem_visits hv) (h v)

theorem exists_run_used (w : Walk) (s : Pif) :
    ∃ s', w.run 0x40 ⟨s, 0, 0⟩ = some s' ∧
      s'.buffers.used = s.buffers.used ++ (w.runMoves ⟨s, 0, 0⟩).flatMap Move.places := by
  have hends : ∃ s', w.run 0x40 ⟨s, 0, 0⟩ = some s' := exists_run (Nat.le_add_left ..)
  obtain ⟨s', hrun⟩ := hends
  refine ⟨s', hrun, (used_run hrun).trans ?_⟩
  rw [Walk.runMoves, List.flatMap_assoc]

end Loops

def EndsInside (cfg : PifConfig) (s : Pif) (result : Option Pif) : Prop :=
  ∃ s' places, result = some s' ∧ s'.buffers.used = s.buffers.used ++ places ∧
    Within cfg.size places

def WritesFit (cfg : PifConfig) (s : Pif) : Prop :=
  ∀ v ∈ (writeWalk cfg).visits 0x40 ⟨s, 0, 0⟩,
    startsCommand (v.pif.byte v.index) = true → WriteFits cfg v.pif v.index v.channel

def ReadsFit (cfg : PifConfig) (s : Pif) : Prop :=
  ∀ v ∈ (readWalk cfg).visits 0x40 ⟨s, 0, 0⟩,
    startsCommand (v.pif.byte v.index) = true → ReadFits cfg v.pif v.index v.channel

def Pif.entered (s : Pif) : Pif := { s with cicChallenge := false }.moves [look (ram 0x3F)]

section Updates

variable {cfg : PifConfig} {s s' : Pif}

theorem endsInside_some {places : List (Place PifRegion)}
    (h : s'.buffers.used = s.buffers.used ++ places) :
    EndsInside cfg s (some s') ↔ Within cfg.size places := by
  refine ⟨?_, fun hin => ⟨s', places, rfl, h, hin⟩⟩
  rintro ⟨t, places', hsome, hplaces, hin⟩
  obtain rfl := Option.some.inj hsome
  rw [List.append_cancel_left (h.symm.trans hplaces)]
  exact hin

theorem inside_challengeMoves : Inside cfg.size (challengeMoves s) := by
  rw [challengeMoves, inside_append, inside_append, inside_append, inside_loop, inside_loop]
  simp only [within_look, within_put, lt_size_ram, inside_cons, inside_nil]
  exact ⟨⟨⟨fun k hk => by omega, by decide⟩, fun k hk => by omega⟩, by decide⟩

theorem endsInside_moves (t : Pif) {before : List (Place PifRegion)} {ms : Moves}
    (hbuffers : t.buffers = s'.buffers.moves ms) (hbefore : s'.buffers.used = s.buffers.used ++ before)
    (hin : Within cfg.size before) (hms : Inside cfg.size ms) : EndsInside cfg s (some t) := by
  refine ⟨t, before ++ ms.flatMap Move.places, rfl, ?_, List.forall_mem_append.mpr ⟨hin, hms⟩⟩
  rw [hbuffers, Buffers.used_moves, hbefore, List.append_assoc]

theorem used_entered : s.entered.buffers.used = s.buffers.used ++ (look (ram 0x3F)).places := rfl

theorem within_entered : Within cfg.size (look (ram 0x3F)).places := by
  rw [within_look, lt_size_ram]
  decide

theorem updatePifWrite_of_lt (h : 1 < s.byte 0x3F) :
    EndsInside cfg s (updatePifWrite cfg s) := by
  have hentered : 1 < s.entered.byte 0x3F := h
  have heq : updatePifWrite cfg s = _ := if_pos hentered
  rw [heq]
  split
  · exact endsInside_moves _ rfl used_entered within_entered inside_challengeMoves
  · refine endsInside_moves _ rfl used_entered within_entered ?_
    rw [inside_cons, within_put, lt_size_ram]
    exact ⟨by decide, inside_nil⟩
  · exact (endsInside_some used_entered).mpr within_entered

theorem updatePifWrite_spec (cfg : PifConfig) (s : Pif) :
    (∃ s', updatePifWrite cfg s = some s') ∧
      (EndsInside cfg s (updatePifWrite cfg s) ↔ 1 < s.byte 0x3F ∨ WritesFit cfg s.entered) := by
  by_cases hlast : 1 < s.byte 0x3F
  · have hends : EndsInside cfg s (updatePifWrite cfg s) := updatePifWrite_of_lt hlast
    refine ⟨?_, iff_of_true hends (.inl hlast)⟩
    obtain ⟨s', -, hsome, -⟩ := hends
    exact ⟨s', hsome⟩
  · have heq : updatePifWrite cfg s = (writeWalk cfg).run 0x40 ⟨s.entered, 0, 0⟩ := if_neg hlast
    obtain ⟨s', hrun, hused⟩ := exists_run_used (writeWalk cfg) s.entered
    rw [used_entered, List.append_assoc] at hused
    refine ⟨⟨s', heq.trans hrun⟩, ?_⟩
    rw [heq, hrun, endsInside_some hused, or_iff_right hlast]
    refine List.forall_mem_append.trans ((and_iff_right within_entered).trans ?_)
    exact inside_runMoves fun c => inside_writeCommand cfg c.pif c.index c.channel

theorem updatePifRead_spec (cfg : PifConfig) (s : Pif) :
    (∃ s', updatePifRead cfg s = some s') ∧
      (EndsInside cfg s (updatePifRead cfg s) ↔ s.cicChallenge = true ∨ ReadsFit cfg s) := by
  by_cases hchallenge : s.cicChallenge = true
  · have heq : updatePifRead cfg s = some s := if_pos hchallenge
    refine ⟨⟨s, heq⟩, iff_of_true ?_ (.inl hchallenge)⟩
    rw [heq]
    exact ⟨s, [], rfl, (List.append_nil _).symm, fun p hp => absurd hp List.not_mem_nil⟩
  · have heq : updatePifRead cfg s = (readWalk cfg).run 0x40 ⟨s, 0, 0⟩ := if_neg hchallenge
    obtain ⟨s', hrun, hused⟩ := exists_run_used (readWalk cfg) s
    refine ⟨⟨s', heq.trans hrun⟩, ?_⟩
    rw [heq, hrun, endsInside_some hused, or_iff_right hchallenge]
    exact inside_runMoves fun c => inside_readCommand cfg c.pif c.index c.channel

end Updates

/-- Both updates end on every content of the memory. The update that writes stays inside the
memories exactly when its last byte selects no commands or all commands it comes to fit, and
the update that reads exactly when there is a challenge or all commands it comes to fit. -/
theorem updates_end_inside_iff (cfg : PifConfig) (s : Pif) :
    (∃ s', updatePifWrite cfg s = some s') ∧ (∃ s', updatePifRead cfg s = some s') ∧
      (EndsInside cfg s (updatePifWrite cfg s) ↔ 1 < s.byte 0x3F ∨ WritesFit cfg s.entered) ∧
      (EndsInside cfg s (updatePifRead cfg s) ↔ s.cicChallenge = true ∨ ReadsFit cfg s) := by
  obtain ⟨hwriteEnds, hwrite⟩ := updatePifWrite_spec cfg s
  obtain ⟨hreadEnds, hread⟩ := updatePifRead_spec cfg s
  exact ⟨hwriteEnds, hreadEnds, hwrite, hread⟩

/-- Four controllers with memory paks, and an EEPROM of 4 kbit. -/
def samplePifConfig : PifConfig where
  connected _ := .joypad
  pak _ := .mem
  gbCart _ := ⟨.absent, 0, none, false⟩
  eepromSize := 0x200
  eepromId := 0x8000#16
  input _ := 0#32
  time := ⟨0, 0, 0, 1, 0, 0, 100⟩

def sampleBytes : List UInt8 := [0x01, 0x1B, 0x00] ++ List.replicate 27 0 ++ [0x03, 0x21, 0x02]

def sampleCommands : Pif where
  buffers := ⟨fun p => if p.region = .ram then sampleBytes.getD p.index 0 else 0, []⟩
  transferpak _ := ⟨false, 0#32, 0, 0, 0#32, 0#32⟩
  cicChallenge := false

/-- The data of the second command goes behind the end of the memory. -/
theorem pak_read_leaves_ram :
    ¬ EndsInside samplePifConfig sampleCommands
      (updatePifWrite samplePifConfig sampleCommands) := by
  rw [(updatePifWrite_spec samplePifConfig sampleCommands).2]
  rintro (hlast | hfits)
  · exact absurd hlast (by decide)
  · let first : Cursor := ⟨sampleCommands.entered, 0, 0⟩
    have hmem : (writeWalk samplePifConfig).step first ∈
        (writeWalk samplePifConfig).visits 0x40 first := by
      rw [Walk.visits, if_pos (by decide)]
      apply List.mem_cons_of_mem
      rw [Walk.visits, if_pos (by decide)]
      exact List.mem_cons_self
    have hsecond := hfits _ hmem (by decide)
    rw [WriteFits, dif_pos (by decide)] at hsecond
    exact absurd hsecond.1 (by decide)

end ParallelN64.Si
