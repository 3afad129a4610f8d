import ParallelN64.Si.PifBounds

/-!
# The commands of the two loops

The loop over written commands and the loop over read commands go along the same memory by rules of
their own. Handlers of written commands store behind the command bytes that the loop has come to,
or set error bits beside a length, so the loop goes by the memory that it leaves. Replies of
controllers have four bytes, whatever length the command asks for.
-/

namespace ParallelN64.Si

open ParallelN64.Core

/-- Where a loop is: at a byte, with a channel. -/
structure Spot where
  index : Nat
  channel : Nat
  deriving DecidableEq

def Cursor.spot (c : Cursor) : Spot := ⟨c.index, c.channel⟩

def Cursor.hasCommand (c : Cursor) : Bool := startsCommand (c.pif.byte c.index)

def Walk.commands (w : Walk) (c : Cursor) : List Spot :=
  ((w.visits 0x40 c).filter Cursor.hasCommand).map Cursor.spot

/-- The commands that `update_pif_write` comes to. -/
def writtenCommands (cfg : PifConfig) (s : Pif) : List Spot :=
  if 1 < s.byte 0x3F then [] else (writeWalk cfg).commands ⟨s.entered, 0, 0⟩

/-- The commands that `update_pif_read` comes to. -/
def readCommands (cfg : PifConfig) (s : Pif) : List Spot :=
  if s.cicChallenge then [] else (readWalk cfg).commands ⟨s, 0, 0⟩

def slotSize (m : Nat → UInt8) (i : Nat) : Nat := (m i).toNat + (m (i + 1) &&& 0x3F).toNat

def Cursor.InSlot (c : Cursor) (k : Nat) : Prop :=
  c.index + 2 ≤ k ∧ k < c.index + 2 + slotSize c.pif.byte c.index

def Cursor.Replies (cfg : PifConfig) (c : Cursor) (k : Nat) : Prop :=
  ∃ m ∈ (readCommand cfg c.pif c.index c.channel).1, m.dst = some (ram k)

/-- Both loops come to the same commands, and replies are stored in the slots of the commands that
were issued. -/
structure WalksAlike (cfg : PifConfig) (s s' : Pif) : Prop where
  commands : readCommands cfg s' = writtenCommands cfg s
  replies : ∀ v ∈ (readWalk cfg).visits 0x40 ⟨s', 0, 0⟩, v.hasCommand = true →
    ∀ k, v.Replies cfg k → ∃ issued ∈ (writeWalk cfg).visits 0x40 ⟨s.entered, 0, 0⟩,
      issued.hasCommand = true ∧ issued.spot = v.spot ∧ issued.InSlot k

section Rules

variable (w : Walk) (m : Nat → UInt8)

/-- Where a loop goes on. -/
def Walk.nextSpot (c : Spot) : Spot :=
  if m c.index = 0x00 then
    ⟨(if 6 < c.channel + 1 then 0x40 else c.index) + 1, c.channel + 1⟩
  else if w.skipped (m c.index) then ⟨c.index + 1, c.channel⟩
  else if startsCommand (m c.index) then
    ⟨c.index + (slotSize m c.index + 1) + 1, c.channel + 1⟩
  else ⟨0x40 + 1, c.channel⟩

def Walk.spots (w : Walk) (m : Nat → UInt8) : Nat → Spot → List Spot
  | 0, _ => []
  | turns + 1, c => if c.index < 0x40 then c :: spots w m turns (w.nextSpot m c) else []

def Walk.commandSpots (c : Spot) : List Spot :=
  (w.spots m 0x40 c).filter fun c => startsCommand (m c.index)

def isMarker (byte : UInt8) : Bool := byte = 0xB4 || byte = 0x56 || byte = 0xB8

def ReplyFits (cfg : PifConfig) (c : Spot) : Prop :=
  ∀ h : c.channel < 4, m (c.index + 2) = 0x01 → cfg.connected ⟨c.channel, h⟩ ≠ .none →
    5 ≤ slotSize m c.index

variable {w m}

variable {c : Spot}

theorem index_lt_nextSpot (h : c.index < 0x40) : c.index < (w.nextSpot m c).index := by
  rw [Walk.nextSpot]
  split_ifs <;> simp only <;> omega

theorem spots_of_le {turns : Nat} (h : 0x40 ≤ c.index) : w.spots m turns c = [] := by
  cases turns with
  | zero => rfl
  | succ turns => rw [Walk.spots, if_neg (Nat.not_lt.mpr h)]

theorem spots_eq_of_le {turns turns' : Nat} (h : 0x40 ≤ c.index + turns)
    (h' : 0x40 ≤ c.index + turns') : w.spots m turns c = w.spots m turns' c := by
  induction turns generalizing turns' c with
  | zero =>
    have hend : 0x40 ≤ c.index := h
    rw [spots_of_le hend, spots_of_le hend]
  | succ turns ih =>
    by_cases hindex : c.index < 0x40
    · cases turns' with
      | zero => exact absurd hindex (Nat.not_lt.mpr h')
      | succ turns' =>
        have hnext : c.index < (w.nextSpot m c).index := index_lt_nextSpot hindex
        have hrest : w.spots m turns (w.nextSpot m c) = w.spots m turns' (w.nextSpot m c) :=
          ih (by omega) (by omega)
        rw [Walk.spots, Walk.spots, if_pos hindex, if_pos hindex, hrest]
    · rw [spots_of_le (Nat.not_lt.mp hindex), spots_of_le (Nat.not_lt.mp hindex)]

end Rules

def StoresFrom (j : Nat) (ms : Moves) : Prop := ∀ m ∈ ms, ∀ k, m.dst = some (ram k) → j ≤ k

section StoresFrom

variable {j : Nat} {ms ms' : Moves}

@[simp] theorem storesFrom_nil : StoresFrom j [] := fun _ h => absurd h List.not_mem_nil

@[simp] theorem storesFrom_cons {m : Move PifRegion} :
    StoresFrom j (m :: ms) ↔ (∀ k, m.dst = some (ram k) → j ≤ k) ∧ StoresFrom j ms :=
  List.forall_mem_cons

@[simp] theorem storesFrom_append :
    StoresFrom j (ms ++ ms') ↔ StoresFrom j ms ∧ StoresFrom j ms' :=
  List.forall_mem_append

@[simp] theorem look_dst_iff {p : Place PifRegion} :
    (∀ k, (look p).dst = some (ram k) → j ≤ k) ↔ True :=
  iff_of_true (fun _ h => absurd h.symm (Option.some_ne_none _)) trivial

@[simp] theorem put_dst_iff {i : Nat} {value : UInt8} :
    (∀ k, (put (ram i) value).dst = some (ram k) → j ≤ k) ↔ j ≤ i := by
  constructor
  · intro h
    exact h i rfl
  · intro h k hk
    have hindex : i = k := congrArg Place.index (Option.some.inj hk)
    omega

variable {count : Nat}

theorem storesFrom_loop {body : Nat → Move PifRegion}
    (h : ∀ i < count, ∀ k, (body i).dst = some (ram k) → j ≤ k) :
    StoresFrom j (loop count body) := by
  intro m hm
  obtain ⟨i, hi, rfl⟩ := mem_loop.mp hm
  exact h i hi

theorem storesFrom_copy {dst src : Block} (h : dst.region = .ram → j ≤ dst.index) :
    StoresFrom j (copy count dst src) := by
  apply storesFrom_loop
  intro i _ k hk
  have hplace : dst.at i = ram k := Option.some.inj hk
  have hindex : dst.index + i = k := congrArg Place.index hplace
  have hle := h (congrArg Place.region hplace)
  omega

theorem storesFrom_fill {i : Nat} {value : UInt8} (h : j ≤ i) :
    StoresFrom j (fillWith count (ram i) value) := by
  apply storesFrom_loop
  intro n _ k hk
  have hindex : i + n = k := congrArg Place.index (Option.some.inj hk)
  omega

end StoresFrom

section Handlers

variable {cfg : PifConfig} {s : Pif} {channel : Fin 4} {i : Nat}

variable {t : Transferpak} {address : BitVec 32} {j : Nat} {p : Block} {ms : Moves}

theorem storesFrom_gbReadMoves (h : j ≤ i) :
    StoresFrom j (gbReadMoves cfg t channel address (ram i)) := by
  rw [gbReadMoves]
  split
  · exact storesFrom_nil
  · exact storesFrom_fill h
  · exact storesFrom_copy fun _ => h

theorem storesFrom_pakRead (h : j ≤ i) :
    StoresFrom j (pakRead cfg t channel address (ram i)).1 := by
  rw [pakRead]
  split
  · exact storesFrom_fill h
  · dsimp only
    rw [mempakRead]
    split_ifs
    · exact storesFrom_copy fun _ => h
    · exact storesFrom_fill h
  · exact storesFrom_fill h
  · rw [transferpakRead]
    split
    · exact storesFrom_fill h
    · split_ifs
      · simp [storesFrom_fill h, h]
      · simp [storesFrom_fill h]
      · exact storesFrom_nil
    all_goals
      first
      | exact storesFrom_nil
      | split_ifs
        · exact storesFrom_gbReadMoves h
        · exact storesFrom_nil

theorem region_of_blockInside {region : PifRegion} {size : Nat} {offset : BitVec 32}
    (h : blockInside region size offset = some p) : p.region = region := by
  rw [blockInside] at h
  split_ifs at h
  exact (congrArg Place.region (Option.some.inj h)).symm

theorem region_of_ramBlock {cart : GbCart} {offset : BitVec 32}
    (h : ramBlock cart channel offset = some p) : p.region = .gbRam channel := by
  rw [ramBlock, Option.bind_eq_some_iff] at h
  obtain ⟨size, -, hblock⟩ := h
  exact region_of_blockInside hblock

theorem region_ne_of_writeGbCart {cart : GbCart} {value : UInt8}
    (h : (writeGbCart cart t channel address value).1 = some p) : p.region ≠ .ram := by
  have hbanked (hasRtc : Bool) (hsome : writeGbCartBanked cart t channel address hasRtc = some p) :
      p.region ≠ .ram := by
    rw [writeGbCartBanked] at hsome
    split at hsome
    · split_ifs at hsome
      rw [region_of_ramBlock hsome]
      exact PifRegion.noConfusion
    · exact absurd hsome.symm (Option.some_ne_none _)
  rw [writeGbCart] at h
  split at h
  · dsimp only at h
    rw [writeGbCartNormal] at h
    split at h
    · rw [region_of_ramBlock h]
      exact PifRegion.noConfusion
    · exact absurd h.symm (Option.some_ne_none _)
  · exact hbanked _ h
  · exact hbanked _ h
  · exact absurd h.symm (Option.some_ne_none _)
  · obtain rfl := Option.some.inj h
    exact PifRegion.noConfusion

theorem storesFrom_pakWrite {data : Block} {value : UInt8} :
    StoresFrom j (pakWrite cfg t channel address data value).1 := by
  rw [pakWrite]
  split
  · exact storesFrom_nil
  · dsimp only
    rw [mempakWrite]
    split_ifs
    · exact storesFrom_copy fun h => PifRegion.noConfusion h
    · exact storesFrom_nil
  · dsimp only
    rw [rumblepakWrite]
    split_ifs
    · simp
    · exact storesFrom_nil
  · rw [transferpakWrite]
    dsimp only
    rw [storesFrom_cons, look_dst_iff, true_and]
    split
    all_goals
      first
      | exact storesFrom_nil
      | dsimp only
        cases hwrite : (writeGbCart (cfg.gbCart channel) t channel (gbCartAddress t address)
            value).1 with
        | none => exact storesFrom_nil
        | some p => exact storesFrom_copy fun h => absurd h (region_ne_of_writeGbCart hwrite)

def Tidy (s : Pif) (i : Nat) (ms : Moves) : Prop :=
  ∀ m ∈ ms, ∀ k, m.dst = some (ram k) →
    i + 3 ≤ k ∨ k = i + 1 ∧ m.src = none ∧ m.fill &&& 0x3F = s.byte (i + 1) &&& 0x3F

theorem StoresFrom.tidy (h : StoresFrom (i + 3) ms) : Tidy s i ms :=
  fun m hm k hk => .inl (h m hm k hk)

theorem tidy_nil : Tidy s i [] := fun _ h => absurd h List.not_mem_nil

@[simp] theorem tidy_append {ms' : Moves} : Tidy s i (ms ++ ms') ↔ Tidy s i ms ∧ Tidy s i ms' :=
  List.forall_mem_append

@[simp] theorem tidy_look {p : Place PifRegion} : Tidy s i (look p :: ms) ↔ Tidy s i ms :=
  List.forall_mem_cons.trans
    (and_iff_right fun _ h => absurd h.symm (Option.some_ne_none _))

theorem tidy_errorMoves {bit : UInt8} (h : bit &&& 0x3F = 0) : Tidy s i (errorMoves s i bit) := by
  rw [errorMoves, tidy_look]
  intro m hm k hk
  obtain rfl := List.mem_singleton.mp hm
  have hindex : i + 1 = k := congrArg Place.index (Option.some.inj hk)
  refine .inr ⟨hindex.symm, rfl, ?_⟩
  have hbits : (s.byte (i + 1) ||| bit) &&& 0x3F = (s.byte (i + 1) &&& 0x3F) ||| (bit &&& 0x3F) :=
    UInt8.toBitVec_inj.mp BitVec.and_or_distrib_right
  rw [h, UInt8.or_zero] at hbits
  exact hbits

theorem tidy_controllerStatus : Tidy s i (controllerStatus cfg s channel i) := by
  rw [controllerStatus, tidy_look]
  by_cases hlength : s.byte (i + 1) &&& 0x80 ≠ 0
  · rw [if_pos hlength]
    exact tidy_nil
  · rw [if_neg hlength]
    split
    · exact tidy_errorMoves rfl
    · apply StoresFrom.tidy
      split <;> simp

theorem tidy_controllerReadButtons : Tidy s i (controllerReadButtons cfg s channel i) := by
  rw [controllerReadButtons]
  split_ifs
  · exact tidy_errorMoves rfl
  · exact tidy_nil

theorem tidy_pakCommand {block : BitVec 32 → Moves × Transferpak}
    (h : ∀ address, StoresFrom (i + 3) (block address).1) :
    Tidy s i (pakCommand cfg s channel i block).1 := by
  rw [pakCommand]
  split_ifs
  · exact tidy_errorMoves rfl
  · have hcrc (b : Buffers PifRegion) : StoresFrom (i + 3) (crcMoves i b) := by
      rw [crcMoves, storesFrom_append]
      refine ⟨storesFrom_loop fun k _ => look_dst_iff.mpr trivial, ?_⟩
      rw [storesFrom_cons, put_dst_iff]
      exact ⟨by omega, storesFrom_nil⟩
    apply StoresFrom.tidy
    simp [h, hcrc]

theorem tidy_controllerCommand : Tidy s i (controllerCommand cfg s channel i).1 := by
  rw [controllerCommand]
  split
  · exact tidy_controllerStatus
  · exact tidy_controllerStatus
  · exact tidy_controllerReadButtons
  · exact tidy_pakCommand fun address => storesFrom_pakRead (by omega)
  · exact tidy_pakCommand fun address => storesFrom_pakWrite
  · exact tidy_nil

theorem tidy_eepromStatus : Tidy s i (eepromStatus cfg s i) := by
  have hput (p : Prop) [Decidable p] {k : Nat} {value : UInt8} (h : i + 3 ≤ k) :
      Tidy s i (if p then [put (ram k) value] else []) := by
    split_ifs
    · exact StoresFrom.tidy (by simp [h])
    · exact tidy_nil
  rw [eepromStatus, tidy_look]
  by_cases hsize : s.byte (i + 1) ≠ 3
  · rw [if_pos hsize]
    simp only [tidy_append]
    exact ⟨⟨⟨tidy_errorMoves rfl, hput _ (by omega)⟩, hput _ (by omega)⟩, hput _ (by omega)⟩
  · rw [if_neg hsize]
    exact StoresFrom.tidy (by simp)

theorem tidy_cartCommand : Tidy s i (cartCommand cfg s i) := by
  rw [cartCommand]
  split
  · exact tidy_eepromStatus
  · rw [eepromRead, tidy_look]
    split_ifs
    · exact (storesFrom_copy fun _ => Nat.le_succ _).tidy
    · exact tidy_nil
  · rw [eepromWrite, tidy_look]
    split_ifs
    · exact (storesFrom_copy fun h => PifRegion.noConfusion h).tidy
    · exact tidy_nil
  · apply StoresFrom.tidy
    simp [afRtcStatus]
  · rw [afRtcRead, tidy_look]
    apply StoresFrom.tidy
    split <;> simp
  · exact tidy_nil

theorem storesFrom_readController : StoresFrom (i + 3) (readController cfg s channel i) := by
  rw [readController]
  split_ifs
  · apply storesFrom_loop
    intro k _ n hn
    have hindex : i + 3 + k = n := congrArg Place.index (Option.some.inj hn)
    omega
  · exact storesFrom_nil

end Handlers

/-- The handlers of a loop are tidy, and it skips no command. -/
structure Walk.Tidy (w : Walk) : Prop where
  command : ∀ s i channel, Si.Tidy s i (w.command s i channel).1
  skipped : ∀ byte, w.skipped byte = true → startsCommand byte = false

theorem tidy_writeWalk (cfg : PifConfig) : (writeWalk cfg).Tidy where
  command s i channel := by
    change Tidy s i (writeCommand cfg s i channel).1
    rw [writeCommand]
    split_ifs
    · exact tidy_look.mpr tidy_controllerCommand
    · exact tidy_look.mpr tidy_cartCommand
    · exact tidy_nil
  skipped byte h := by
    obtain rfl : byte = 0xFF := of_decide_eq_true h
    rfl

theorem tidy_readWalk (cfg : PifConfig) : (readWalk cfg).Tidy where
  command s i channel := by
    change Tidy s i (readCommand cfg s i channel).1
    rw [readCommand]
    split_ifs
    · exact tidy_look.mpr storesFrom_readController.tidy
    · exact tidy_nil
  skipped byte h := by
    simp only [readWalk, Bool.or_eq_true, decide_eq_true_eq] at h
    rcases h with ((rfl | rfl) | rfl) | rfl <;> rfl

section Turns

variable {w : Walk} {c : Cursor} {m : Nat → UInt8}

theorem byte_step (w : Walk) (c : Cursor) (k : Nat) :
    (w.step c).pif.byte k = (c.pif.moves (w.turn c).1).byte k := by
  rw [Walk.step]
  dsimp only
  split_ifs <;> rfl

theorem tidy_turn (h : w.Tidy) (c : Cursor) : Si.Tidy c.pif c.index (w.turn c).1 := by
  rw [Walk.turn]
  dsimp only
  split_ifs
  · refine tidy_append.mpr ⟨tidy_look.mpr (h.command c.pif c.index c.channel), ?_⟩
    exact tidy_look.mpr (tidy_look.mpr tidy_nil)
  · exact tidy_look.mpr tidy_nil

variable {s : Pif} {i k turns : Nat}

theorem Tidy.byte_moves {ms : Moves} (h : Si.Tidy s i ms) (hk : k < i + 3) (hlength : k ≠ i + 1) :
    (s.moves ms).byte k = s.byte k := by
  apply Buffers.bytes_moves_of_forall_ne
  intro m hm hdst
  rcases h m hm k hdst with hle | ⟨heq, -⟩
  · omega
  · exact hlength heq

theorem Tidy.length_moves {ms : Moves} (h : Si.Tidy s i ms) :
    (s.moves ms).byte (i + 1) &&& 0x3F = s.byte (i + 1) &&& 0x3F := by
  suffices hall : ∀ b : Buffers PifRegion,
      b.bytes (ram (i + 1)) &&& 0x3F = s.byte (i + 1) &&& 0x3F →
        (b.moves ms).bytes (ram (i + 1)) &&& 0x3F = s.byte (i + 1) &&& 0x3F from hall s.buffers rfl
  induction ms with
  | nil => exact fun b hb => hb
  | cons m ms ih =>
    intro b hb
    apply ih fun m' hm' => h m' (List.mem_cons_of_mem m hm')
    by_cases hdst : m.dst = some (ram (i + 1))
    · rcases h m List.mem_cons_self _ hdst with hle | ⟨-, hsrc, hfill⟩
      · omega
      · rw [Buffers.bytes_move_of_eq hdst, Buffers.value, hsrc]
        exact hfill
    · rw [Buffers.bytes_move_of_ne hdst]
      exact hb

theorem byte_step_of_lt (h : w.Tidy) (c : Cursor) (hk : k < c.index + 3)
    (hlength : k ≠ c.index + 1) : (w.step c).pif.byte k = c.pif.byte k := by
  rw [byte_step]
  exact (tidy_turn h c).byte_moves hk hlength

theorem slotSize_step (h : w.Tidy) (c : Cursor) :
    slotSize (w.step c).pif.byte c.index = slotSize c.pif.byte c.index := by
  have hlength := (tidy_turn h c).length_moves
  rw [slotSize, slotSize, byte_step_of_lt h c (by omega) (by omega), byte_step, hlength]

theorem spot_step (h : w.Tidy) (hbyte : c.pif.byte c.index = m c.index)
    (hsize : c.hasCommand = true → slotSize c.pif.byte c.index = slotSize m c.index) :
    (w.step c).spot = w.nextSpot m c.spot := by
  have hstep := slotSize_step h c
  have hspot : m c.spot.index = c.pif.byte c.index := hbyte.symm
  rw [Walk.nextSpot, hspot]
  rw [Walk.step] at hstep ⊢
  dsimp only at hstep ⊢
  by_cases hzero : c.pif.byte c.index = 0x00
  · rw [if_pos hzero, if_pos hzero]
    rfl
  · rw [if_neg hzero, if_neg hzero]
    by_cases hskipped : w.skipped (c.pif.byte c.index) = true
    · rw [if_pos hskipped, if_pos hskipped]
      rfl
    · rw [if_neg hskipped, if_neg hskipped]
      by_cases hcommand : startsCommand (c.pif.byte c.index) = true
      · rw [if_neg hzero, if_neg hskipped, if_pos hcommand] at hstep
        have hslot : slotSize m c.spot.index = slotSize c.pif.byte c.index := (hsize hcommand).symm
        rw [if_pos hcommand, if_pos hcommand, hslot, ← hstep]
        rfl
      · rw [if_neg hcommand, if_neg hcommand]
        rfl

theorem nextSpot_of_command (h : w.Tidy) {spot : Spot}
    (hcommand : startsCommand (m spot.index) = true) :
    w.nextSpot m spot = ⟨spot.index + (slotSize m spot.index + 1) + 1, spot.channel + 1⟩ := by
  have hne : m spot.index ≠ 0x00 := by
    intro hzero
    rw [hzero] at hcommand
    exact absurd hcommand (by decide)
  have hskipped : ¬ w.skipped (m spot.index) = true := by
    intro hskip
    exact absurd ((h.skipped _ hskip).symm.trans hcommand) (by decide)
  rw [Walk.nextSpot, if_neg hne, if_neg hskipped, if_pos hcommand]

theorem slotSize_pos (h : startsCommand (m i) = true) : 0 < slotSize m i := by
  have hpos : 0 < (m i).toNat := by
    apply Nat.pos_of_ne_zero
    intro hzero
    rw [UInt8.toNat_inj.mp (hzero.trans UInt8.toNat_zero.symm)] at h
    exact absurd h (by decide)
  rw [slotSize]
  omega

theorem index_step_of_hasCommand (h : w.Tidy) (hcommand : c.hasCommand = true) :
    (w.step c).index = c.index + (slotSize c.pif.byte c.index + 1) + 1 := by
  have hspot : (w.step c).spot = w.nextSpot c.pif.byte c.spot := spot_step h rfl fun _ => rfl
  have hnext : w.nextSpot c.pif.byte c.spot =
      ⟨c.spot.index + (slotSize c.pif.byte c.spot.index + 1) + 1, c.spot.channel + 1⟩ :=
    nextSpot_of_command h hcommand
  exact congrArg Spot.index (hspot.trans hnext)

theorem byte_run_of_lt (h : w.Tidy) (hrun : w.run turns c = some s) (hk : k < c.index) :
    s.byte k = c.pif.byte k := by
  induction turns generalizing c with
  | zero =>
    rw [Walk.run] at hrun
    split_ifs at hrun
    obtain rfl := Option.some.inj hrun
    rfl
  | succ turns ih =>
    rw [Walk.run] at hrun
    split_ifs at hrun with hindex
    · have hstep : c.index < (w.step c).index := index_lt_step w hindex
      rw [ih hrun (by omega), byte_step_of_lt h c (by omega) (by omega)]
    · obtain rfl := Option.some.inj hrun
      rfl

theorem run_step (h : w.Tidy) (hindex : c.index < 0x40) (hrun : w.run turns (w.step c) = some s) :
    c.pif.byte c.index = s.byte c.index ∧
      (c.hasCommand = true → slotSize c.pif.byte c.index = slotSize s.byte c.index) := by
  have hstep : c.index < (w.step c).index := index_lt_step w hindex
  have hbyte : s.byte c.index = (w.step c).pif.byte c.index := byte_run_of_lt h hrun hstep
  constructor
  · rw [hbyte, byte_step_of_lt h c (by omega) (by omega)]
  · intro hcommand
    have hpos := slotSize_pos hcommand
    have hnext := index_step_of_hasCommand h hcommand
    have hlength : s.byte (c.index + 1) = (w.step c).pif.byte (c.index + 1) :=
      byte_run_of_lt h hrun (by omega)
    rw [← slotSize_step h c, slotSize, slotSize, hbyte, hlength]

theorem visits_of_run (h : w.Tidy) (hrun : w.run turns c = some s) :
    (w.visits turns c).map Cursor.spot = w.spots s.byte turns c.spot ∧
      ∀ v ∈ w.visits turns c, v.pif.byte v.index = s.byte v.index ∧
        (v.hasCommand = true → slotSize v.pif.byte v.index = slotSize s.byte v.index) := by
  induction turns generalizing c with
  | zero => exact ⟨rfl, fun v hv => absurd hv List.not_mem_nil⟩
  | succ turns ih =>
    rw [Walk.run] at hrun
    rw [Walk.visits, Walk.spots]
    by_cases hindex : c.index < 0x40
    · rw [if_pos hindex] at hrun
      obtain ⟨hspots, hvisits⟩ := ih hrun
      obtain ⟨hbyte, hsize⟩ := run_step h hindex hrun
      rw [if_pos hindex, if_pos (show c.spot.index < 0x40 from hindex), List.map_cons, hspots,
        spot_step h hbyte hsize]
      exact ⟨rfl, List.forall_mem_cons.mpr ⟨⟨hbyte, hsize⟩, hvisits⟩⟩
    · rw [if_neg hindex, if_neg (show ¬ c.spot.index < 0x40 from hindex)]
      exact ⟨rfl, fun v hv => absurd hv List.not_mem_nil⟩

theorem commands_eq (hspots : (w.visits 0x40 c).map Cursor.spot = w.spots m 0x40 c.spot)
    (hbytes : ∀ v ∈ w.visits 0x40 c, v.pif.byte v.index = m v.index) :
    w.commands c = w.commandSpots m c.spot := by
  rw [Walk.commands, Walk.commandSpots, ← hspots, List.filter_map]
  apply congrArg
  apply List.filter_congr
  intro v hv
  exact congrArg startsCommand (hbytes v hv)

end Turns

section Replies

variable {cfg : PifConfig} {m : Nat → UInt8} {c : Cursor}

theorem replies_iff {k : Nat} :
    c.Replies cfg k ↔ ∃ h : c.channel < 4, c.pif.byte (c.index + 2) = 0x01 ∧
      cfg.connected ⟨c.channel, h⟩ ≠ .none ∧ c.index + 3 ≤ k ∧ k < c.index + 7 := by
  rw [Cursor.Replies, readCommand]
  by_cases hport : c.channel < 4
  · rw [dif_pos hport]
    dsimp only
    constructor
    · rintro ⟨move, hmove, hdst⟩
      rcases List.mem_cons.mp hmove with rfl | hreply
      · exact absurd hdst.symm (Option.some_ne_none _)
      · rw [readController] at hreply
        split_ifs at hreply with hread
        · obtain ⟨n, hn, rfl⟩ := mem_loop.mp hreply
          have hindex : c.index + 3 + n = k := congrArg Place.index (Option.some.inj hdst)
          exact ⟨hport, hread.1, hread.2, by omega, by omega⟩
        · exact absurd hreply List.not_mem_nil
    · rintro ⟨_, hbyte, hconnected, hlow, hhigh⟩
      refine ⟨put (ram k) ⟨(cfg.input ⟨c.channel, hport⟩ >>> (8 * (k - (c.index + 3)))).setWidth 8⟩,
        List.mem_cons_of_mem _ ?_, rfl⟩
      rw [readController, if_pos ⟨hbyte, hconnected⟩]
      refine mem_loop.mpr ⟨k - (c.index + 3), by omega, ?_⟩
      rw [Nat.add_sub_cancel' hlow]
  · rw [dif_neg hport]
    constructor
    · rintro ⟨move, hmove, -⟩
      exact absurd hmove List.not_mem_nil
    · rintro ⟨h, -⟩
      exact absurd h hport

def Cursor.Agrees (m : Nat → UInt8) (c : Cursor) : Prop := ∀ k, c.index ≤ k → c.pif.byte k = m k

theorem Cursor.Agrees.slotSize_eq (h : c.Agrees m) : slotSize c.pif.byte c.index = slotSize m c.index := by
  rw [slotSize, slotSize, h _ (Nat.le_refl _), h _ (Nat.le_succ _)]

theorem replies_fit_iff (h : c.Agrees m) :
    (∀ k, c.Replies cfg k → k < c.index + 2 + slotSize m c.index) ↔ ReplyFits m cfg c.spot := by
  have hbyte : c.pif.byte (c.index + 2) = m (c.index + 2) := h _ (Nat.le_add_right ..)
  constructor
  · intro hall hport hread hconnected
    have hlast := hall (c.index + 6)
      (replies_iff.mpr ⟨hport, hbyte.trans hread, hconnected, by omega, by omega⟩)
    change 5 ≤ slotSize m c.index
    omega
  · intro hfits k hreply
    obtain ⟨hport, hread, hconnected, hlow, hhigh⟩ := replies_iff.mp hreply
    have hroom : 5 ≤ slotSize m c.index := hfits hport (hbyte.symm.trans hread) hconnected
    omega

theorem byte_readStep {k : Nat} (h : c.hasCommand = true → ¬ c.Replies cfg k) :
    ((readWalk cfg).step c).pif.byte k = c.pif.byte k := by
  rw [byte_step, Pif.byte, Pif.byte]
  apply Buffers.bytes_moves_of_forall_ne
  intro move hmove hdst
  rw [Walk.turn] at hmove
  dsimp only at hmove
  split_ifs at hmove with hcommand
  · rw [List.cons_append, List.mem_cons, List.mem_append, List.mem_pair] at hmove
    rcases hmove with rfl | hreply | rfl | rfl
    · exact absurd hdst.symm (Option.some_ne_none _)
    · exact h hcommand ⟨move, hreply, hdst⟩
    · exact absurd hdst.symm (Option.some_ne_none _)
    · exact absurd hdst.symm (Option.some_ne_none _)
  · obtain rfl := List.mem_singleton.mp hmove
    exact absurd hdst.symm (Option.some_ne_none _)

theorem agrees_step (h : c.Agrees m) (hindex : c.index < 0x40)
    (hfits : c.hasCommand = true → ReplyFits m cfg c.spot) :
    ((readWalk cfg).step c).Agrees m ∧
      ((readWalk cfg).step c).spot = (readWalk cfg).nextSpot m c.spot := by
  have htidy := tidy_readWalk cfg
  have hspot : ((readWalk cfg).step c).spot = (readWalk cfg).nextSpot m c.spot :=
    spot_step htidy (h _ (Nat.le_refl _)) fun _ => h.slotSize_eq
  refine ⟨fun k hk => ?_, hspot⟩
  have hstep : c.index < ((readWalk cfg).step c).index := index_lt_step _ hindex
  rw [byte_readStep, h k (by omega)]
  intro hcommand hreply
  have hroom := (replies_fit_iff h).mpr (hfits hcommand) k hreply
  have hnext := index_step_of_hasCommand htidy hcommand
  rw [h.slotSize_eq] at hnext
  omega

theorem visits_of_agrees {turns : Nat} (h : c.Agrees m)
    (hfits : ∀ v ∈ (readWalk cfg).visits turns c, v.Agrees m →
      v.spot ∈ (readWalk cfg).spots m turns c.spot → v.hasCommand = true → ReplyFits m cfg v.spot) :
    ((readWalk cfg).visits turns c).map Cursor.spot = (readWalk cfg).spots m turns c.spot ∧
      ∀ v ∈ (readWalk cfg).visits turns c, v.Agrees m := by
  induction turns generalizing c with
  | zero => exact ⟨rfl, fun v hv => absurd hv List.not_mem_nil⟩
  | succ turns ih =>
    rw [Walk.visits, Walk.spots] at hfits ⊢
    by_cases hindex : c.index < 0x40
    · rw [if_pos hindex, if_pos (show c.spot.index < 0x40 from hindex)] at hfits ⊢
      obtain ⟨hagrees, hspot⟩ := agrees_step h hindex (hfits c List.mem_cons_self h List.mem_cons_self)
      have hrest := ih hagrees fun v hv hagree hmem hcommand =>
        hfits v (List.mem_cons_of_mem c hv) hagree (List.mem_cons_of_mem _ (hspot ▸ hmem)) hcommand
      rw [List.map_cons, hrest.1, hspot]
      exact ⟨rfl, List.forall_mem_cons.mpr ⟨h, hrest.2⟩⟩
    · rw [if_neg hindex, if_neg (show ¬ c.spot.index < 0x40 from hindex)]
      exact ⟨rfl, fun v hv => absurd hv List.not_mem_nil⟩

variable {spot : Spot}

theorem nextSpot_of_not_marker (h : isMarker (m spot.index) = false) :
    (readWalk cfg).nextSpot m spot = (writeWalk cfg).nextSpot m spot := by
  have hskipped : (readWalk cfg).skipped (m spot.index) = (writeWalk cfg).skipped (m spot.index) := by
    change (((m spot.index = 0xFF || m spot.index = 0xB4) || m spot.index = 0x56 : Bool) ||
      m spot.index = 0xB8 : Bool) = _
    rw [Bool.or_assoc, Bool.or_assoc, ← Bool.or_assoc (decide (m spot.index = 0xB4))]
    rw [isMarker] at h
    rw [h, Bool.or_false]
    rfl
  rw [Walk.nextSpot, Walk.nextSpot, hskipped]

theorem startsCommand_of_marker {byte : UInt8} (h : isMarker byte = true) :
    startsCommand byte = false := by
  simp only [isMarker, Bool.or_eq_true, decide_eq_true_eq] at h
  rcases h with (rfl | rfl) | rfl <;> rfl

theorem nextSpot_of_marker (h : isMarker (m spot.index) = true) :
    (writeWalk cfg).nextSpot m spot = ⟨0x40 + 1, spot.channel⟩ := by
  have hrules : m spot.index ≠ 0x00 ∧ (writeWalk cfg).skipped (m spot.index) ≠ true := by
    simp only [isMarker, Bool.or_eq_true, decide_eq_true_eq] at h
    rcases h with (h | h) | h <;> rw [h] <;> exact ⟨by decide, Bool.false_ne_true⟩
  rw [Walk.nextSpot, if_neg hrules.1, if_neg hrules.2, startsCommand_of_marker h,
    if_neg Bool.false_ne_true]

theorem filter_spots_eq_iff {turns : Nat} (hturns : 0x40 ≤ spot.index + turns) :
    ((readWalk cfg).spots m turns spot).filter (fun c => startsCommand (m c.index)) =
        ((writeWalk cfg).spots m turns spot).filter (fun c => startsCommand (m c.index)) ↔
      ∀ c ∈ (writeWalk cfg).spots m turns spot, isMarker (m c.index) = true →
        (readWalk cfg).commandSpots m c = [] := by
  induction turns generalizing spot with
  | zero =>
    rw [spots_of_le hturns, spots_of_le hturns]
    exact iff_of_true rfl fun c hc => absurd hc List.not_mem_nil
  | succ turns ih =>
    by_cases hindex : spot.index < 0x40
    · by_cases hmarker : isMarker (m spot.index) = true
      · have hwritten : (writeWalk cfg).spots m (turns + 1) spot = [spot] := by
          rw [Walk.spots, if_pos hindex, nextSpot_of_marker hmarker, spots_of_le (Nat.le_succ _)]
        have hnone : [spot].filter (fun c => startsCommand (m c.index)) = [] := by
          rw [List.filter_singleton, startsCommand_of_marker hmarker]
          rfl
        have hread : (readWalk cfg).spots m (turns + 1) spot = (readWalk cfg).spots m 0x40 spot :=
          spots_eq_of_le hturns (Nat.le_add_left ..)
        rw [hwritten, hnone, hread, List.forall_mem_singleton]
        exact ⟨fun hread _ => hread, fun hread => hread hmarker⟩
      · have hplain : isMarker (m spot.index) = false := Bool.not_eq_true _ ▸ hmarker
        have hnext : spot.index < ((writeWalk cfg).nextSpot m spot).index := index_lt_nextSpot hindex
        have hroom : 0x40 ≤ ((writeWalk cfg).nextSpot m spot).index + turns := by omega
        have hrest := ih hroom
        rw [Walk.spots, Walk.spots, if_pos hindex, if_pos hindex, nextSpot_of_not_marker hplain,
          List.forall_mem_cons, List.filter_cons, List.filter_cons]
        refine Iff.trans ?_ (and_iff_right fun h => absurd h hmarker).symm
        rw [← hrest]
        split_ifs
        · exact List.cons_inj_right spot
        · exact Iff.rfl
    · have hend : 0x40 ≤ spot.index := Nat.not_lt.mp hindex
      rw [spots_of_le hend, spots_of_le hend]
      exact iff_of_true rfl fun c hc => absurd hc List.not_mem_nil

end Replies

section Passes

variable {cfg : PifConfig} {s s' : Pif}

/-- Whatever the memory left by the written commands is, this is when both loops are alike on it:
every command has room for the reply of its controller, and behind a marker no command is read. -/
structure LeavesAlike (cfg : PifConfig) (m : Nat → UInt8) : Prop where
  fits : ∀ c ∈ (writeWalk cfg).commandSpots m ⟨0, 0⟩, ReplyFits m cfg c
  markers : ∀ c ∈ (writeWalk cfg).spots m 0x40 ⟨0, 0⟩, isMarker (m c.index) = true →
    (readWalk cfg).commandSpots m c = []

theorem cicChallenge_run {w : Walk} {turns : Nat} {c : Cursor} (h : w.run turns c = some s) :
    s.cicChallenge = c.pif.cicChallenge := by
  induction turns generalizing c with
  | zero =>
    rw [Walk.run] at h
    split_ifs at h
    obtain rfl := Option.some.inj h
    rfl
  | succ turns ih =>
    rw [Walk.run] at h
    split_ifs at h
    · rw [ih h, Walk.step]
      dsimp only
      split_ifs <;> rfl
    · obtain rfl := Option.some.inj h
      rfl

theorem agrees_start (s : Pif) : Cursor.Agrees s.byte ⟨s, 0, 0⟩ := fun _ _ => rfl

theorem mem_commandSpots {w : Walk} {m : Nat → UInt8} {c spot : Spot} :
    c ∈ w.commandSpots m spot ↔ c ∈ w.spots m 0x40 spot ∧ startsCommand (m c.index) = true :=
  List.mem_filter

theorem walksAlike_iff (hlast : ¬ 1 < s.byte 0x3F)
    (hrun : (writeWalk cfg).run 0x40 ⟨s.entered, 0, 0⟩ = some s') :
    WalksAlike cfg s s' ↔ LeavesAlike cfg s'.byte := by
  have hflag : s'.cicChallenge = false := cicChallenge_run hrun
  have hread : readCommands cfg s' = (readWalk cfg).commands ⟨s', 0, 0⟩ := by
    rw [readCommands, hflag, if_neg Bool.false_ne_true]
  obtain ⟨hspots, hvisits⟩ := visits_of_run (tidy_writeWalk cfg) hrun
  have hwritten : writtenCommands cfg s = (writeWalk cfg).commandSpots s'.byte ⟨0, 0⟩ := by
    rw [writtenCommands, if_neg hlast]
    exact commands_eq hspots fun v hv => (hvisits v hv).1
  have hmarkers : (readWalk cfg).commandSpots s'.byte ⟨0, 0⟩ =
      (writeWalk cfg).commandSpots s'.byte ⟨0, 0⟩ ↔ _ := filter_spots_eq_iff (Nat.le_add_left ..)
  constructor
  · rintro ⟨hcommands, hreplies⟩
    have hfits : ∀ v ∈ (readWalk cfg).visits 0x40 ⟨s', 0, 0⟩, v.Agrees s'.byte →
        v.hasCommand = true → ReplyFits s'.byte cfg v.spot := by
      intro v hv hagrees hcommand
      refine (replies_fit_iff hagrees).mp fun k hk => ?_
      obtain ⟨issued, hissued, hstarts, hspot, hslot⟩ := hreplies v hv hcommand k hk
      have hindex : issued.index = v.index := congrArg Spot.index hspot
      rw [Cursor.InSlot, (hvisits issued hissued).2 hstarts, hindex] at hslot
      exact hslot.2
    obtain ⟨hreadSpots, hagrees⟩ := visits_of_agrees (agrees_start s')
      fun v hv hagree _ hcommand => hfits v hv hagree hcommand
    have hsame : (readWalk cfg).commandSpots s'.byte ⟨0, 0⟩ =
        (writeWalk cfg).commandSpots s'.byte ⟨0, 0⟩ := by
      rw [← hwritten, ← hcommands, hread]
      exact (commands_eq hreadSpots fun v hv => hagrees v hv _ (Nat.le_refl _)).symm
    refine ⟨fun c hc => ?_, hmarkers.mp hsame⟩
    rw [← hsame] at hc
    obtain ⟨hmem, hstarts⟩ := mem_commandSpots.mp hc
    obtain ⟨v, hv, rfl⟩ := List.mem_map.mp (hreadSpots ▸ hmem)
    have hbyte : v.pif.byte v.index = s'.byte v.index := hagrees v hv _ (Nat.le_refl _)
    exact hfits v hv (hagrees v hv) ((congrArg startsCommand hbyte).trans hstarts)
  · rintro ⟨hfits, hends⟩
    have hsame := hmarkers.mpr hends
    have hroom : ∀ v ∈ (readWalk cfg).visits 0x40 ⟨s', 0, 0⟩, v.Agrees s'.byte →
        v.spot ∈ (readWalk cfg).spots s'.byte 0x40 ⟨0, 0⟩ → v.hasCommand = true →
          ReplyFits s'.byte cfg v.spot := by
      intro v hv hagree hmem hcommand
      have hbyte : v.pif.byte v.index = s'.byte v.index := hagree _ (Nat.le_refl _)
      apply hfits
      rw [← hsame]
      exact mem_commandSpots.mpr ⟨hmem, (congrArg startsCommand hbyte).symm.trans hcommand⟩
    obtain ⟨hreadSpots, hagrees⟩ := visits_of_agrees (agrees_start s') hroom
    have hcommands : readCommands cfg s' = writtenCommands cfg s := by
      rw [hread, hwritten, ← hsame]
      exact commands_eq hreadSpots fun v hv => hagrees v hv _ (Nat.le_refl _)
    refine ⟨hcommands, fun v hv hcommand k hk => ?_⟩
    have hmem : v.spot ∈ (readWalk cfg).commands ⟨s', 0, 0⟩ :=
      List.mem_map_of_mem (List.mem_filter.mpr ⟨hv, hcommand⟩)
    rw [← hread, hcommands, writtenCommands, if_neg hlast] at hmem
    obtain ⟨issued, hissued, hspot⟩ := List.mem_map.mp hmem
    obtain ⟨hvisited, hstarts⟩ := List.mem_filter.mp hissued
    have hindex : issued.index = v.index := congrArg Spot.index hspot
    have hslot := (replies_fit_iff (hagrees v hv)).mpr (hfits v.spot ?_) k hk
    · obtain ⟨-, -, -, hlow, -⟩ := replies_iff.mp hk
      refine ⟨issued, hvisited, hstarts, hspot, ?_⟩
      rw [Cursor.InSlot, (hvisits issued hvisited).2 hstarts, hindex]
      exact ⟨by omega, hslot⟩
    · rw [← hwritten, writtenCommands, if_neg hlast, ← hspot]
      exact List.mem_map_of_mem hissued

/-- The two passes on a memory whose last byte selects commands come to the same commands, and store
replies in the slots of the commands that were issued, exactly where the memory between them gives
every button command room for four bytes, and no command to read behind a marker byte that the
first pass gives up at. -/
theorem passes_walk_alike_iff (cfg : PifConfig) (s : Pif) (hlast : s.byte 0x3F ≤ 1) :
    ∃ s', updatePifWrite cfg s = some s' ∧
      (WalksAlike cfg s s' ↔ LeavesAlike cfg s'.byte) := by
  have hcommands : ¬ 1 < s.byte 0x3F := UInt8.not_lt.mpr hlast
  have hwrite : updatePifWrite cfg s = (writeWalk cfg).run 0x40 ⟨s.entered, 0, 0⟩ := if_neg hcommands
  obtain ⟨s', hrun⟩ := (updatePifWrite_spec cfg s).1
  exact ⟨s', hrun, walksAlike_iff hcommands (hwrite.symm.trans hrun)⟩

end Passes

def pifWith (bytes : List UInt8) : Pif where
  buffers := ⟨fun p => if p.region = .ram then bytes.getD p.index 0 else 0, []⟩
  transferpak _ := ⟨false, 0#32, 0, 0, 0#32, 0#32⟩
  cicChallenge := false

def buttonPif : Pif := pifWith [0x01, 0x04, 0x01, 0, 0, 0, 0, 0xFE]
def markerPif : Pif := pifWith [0xB4, 0x01, 0x04, 0x01, 0, 0, 0, 0, 0xFE]

/-- A button command alone is walked alike. -/
theorem passes_walk_alike_button :
    ∃ s', updatePifWrite samplePifConfig buttonPif = some s' ∧
      WalksAlike samplePifConfig buttonPif s' := by
  obtain ⟨s', hwrite, halike⟩ := passes_walk_alike_iff samplePifConfig buttonPif (by decide)
  have hbytes : s'.byte = buttonPif.byte := by
    have hsome : (updatePifWrite samplePifConfig buttonPif).map Pif.byte = some s'.byte := by
      rw [hwrite, Option.map_some]
    exact (Option.some.inj hsome).symm
  have hcommands : (writeWalk samplePifConfig).commandSpots buttonPif.byte ⟨0, 0⟩ = [⟨0, 0⟩] := rfl
  refine ⟨s', hwrite, halike.mpr ?_⟩
  rw [hbytes]
  constructor
  · rw [hcommands]
    intro c hc _ _ _
    obtain rfl := List.mem_singleton.mp hc
    decide
  · decide

/-- Behind a marker a command is read that was never written. -/
theorem marker_splits_walks :
    markerPif.byte 0x3F ≤ 1 ∧ ∃ s', updatePifWrite samplePifConfig markerPif = some s' ∧
      writtenCommands samplePifConfig markerPif = [] ∧
      readCommands samplePifConfig s' = [⟨1, 0⟩] ∧
      ¬ WalksAlike samplePifConfig markerPif s' := by
  have hread : readCommands samplePifConfig
      ((writeWalk samplePifConfig).step ⟨markerPif.entered, 0, 0⟩).pif = [⟨1, 0⟩] := rfl
  have hwritten : writtenCommands samplePifConfig markerPif = [] := rfl
  refine ⟨by decide, _, rfl, hwritten, hread, fun h => ?_⟩
  have hsame := h.commands
  rw [hwritten] at hsame
  exact List.cons_ne_nil _ _ (hread.symm.trans hsame)

end ParallelN64.Si
