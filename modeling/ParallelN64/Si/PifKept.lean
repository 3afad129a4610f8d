import ParallelN64.Si.PifWalks

/-!
# Memories that keep what is stored

Memory paks and the EEPROM are stores of blocks. Whatever the processor puts into the memory of the
serial interface and whatever commands come between, a block has what was last stored in it, and a
command that reads it delivers that.
-/

namespace ParallelN64.Si

open ParallelN64.Core

def PifRegion.kept : PifRegion → Bool
  | .mempak _ | .eeprom => true
  | _ => false

/-- A block that a command stores. -/
structure StoredBlock where
  place : Block
  bytes : List UInt8

/-- What a byte is after a block was stored. -/
def StoredBlock.at (p : Block) (old : UInt8) (b : StoredBlock) : UInt8 :=
  if p.region = b.place.region ∧ b.place.index ≤ p.index then
    b.bytes.getD (p.index - b.place.index) old
  else old

/-- What a byte is after blocks were stored, one after the other. -/
def lastStored (blocks : List StoredBlock) (p : Block) (old : UInt8) : UInt8 :=
  blocks.foldl (StoredBlock.at p) old

section Commands

variable (cfg : PifConfig) (s : Pif) (i : Nat)

def Pif.block (start count : Nat) (place : Block) : StoredBlock :=
  ⟨place, (List.range count).map fun k => s.byte (start + k)⟩

abbrev ReachesPak (command : UInt8) (channel : Fin 4) : Prop :=
  s.byte (i + 2) = command ∧ cfg.connected channel ≠ .none ∧ cfg.pak channel = .mem ∧
    pakAddress s i < 0x8000#32

abbrev ReachesEeprom (command : UInt8) : Prop :=
  s.byte (i + 2) = command ∧ eepromAddress s i < cfg.eepromSize

/-- Where the data of a command is, how long it is, and the block that it is kept in. -/
def keptBlock (pak eeprom : UInt8) (channel : Nat) : Option (Nat × Nat × Block) :=
  if h : channel < 4 then
    if ReachesPak cfg s i pak ⟨channel, h⟩ then
      some (i + 5, pakChunkSize, ⟨.mempak ⟨channel, h⟩, (pakAddress s i).toNat⟩)
    else none
  else if channel = 4 ∧ ReachesEeprom cfg s i eeprom then
    some (i + 4, 8, ⟨.eeprom, eepromAddress s i⟩)
  else none

/-- What a written command reads. -/
def readBlock (channel : Nat) : Option (Nat × Nat × Block) := keptBlock cfg s i 0x02 0x04 channel

/-- What a written command stores. -/
def storedBlocks (channel : Nat) : List StoredBlock :=
  (keptBlock cfg s i 0x03 0x05 channel).toList.map fun (start, count, q) => s.block start count q

/-- The blocks that a loop over written commands stores. -/
def Cursor.storedBlocks (c : Cursor) : List StoredBlock :=
  if c.hasCommand then Si.storedBlocks cfg c.pif c.index c.channel else []

/-- What happens to the memory of the serial interface: it is stored to, and its commands are
written or read. -/
inductive SerialAction where
  | store (bytes : Nat → UInt8)
  | write
  | read

def SerialAction.perform : SerialAction → Option Pif
  | .store bytes =>
    some { s with buffers := { s.buffers with
      bytes := fun p => if p.region = .ram then bytes p.index else s.buffers.bytes p } }
  | .write => updatePifWrite cfg s
  | .read => updatePifRead cfg s

def SerialAction.storedBlocks : SerialAction → List StoredBlock
  | .write =>
    if 1 < s.byte 0x3F then []
    else ((writeWalk cfg).visits 0x40 ⟨s.entered, 0, 0⟩).flatMap (Cursor.storedBlocks cfg)
  | _ => []

/-- What is left after a session, and the blocks that it stored. -/
def session (s : Pif) : List SerialAction → Option (Pif × List StoredBlock)
  | [] => some (s, [])
  | a :: rest => do
    let s' ← a.perform cfg s
    let (t, blocks) ← session s' rest
    return (t, a.storedBlocks cfg s ++ blocks)

end Commands

/-- No byte of a memory that keeps its contents is stored to. -/
def Keeps (ms : Moves) : Prop := ∀ m ∈ ms, ∀ p, m.dst = some p → p.region.kept = false

section Keeps

variable {ms ms' : Moves} {p q : Block} {value : UInt8} {count : Nat} {s : Pif}

@[simp] theorem keeps_nil : Keeps [] := fun _ h => absurd h List.not_mem_nil

@[simp] theorem keeps_append : Keeps (ms ++ ms') ↔ Keeps ms ∧ Keeps ms' := List.forall_mem_append

@[simp] theorem keeps_look : Keeps (look p :: ms) ↔ Keeps ms :=
  List.forall_mem_cons.trans (and_iff_right fun _ h => absurd h.symm (Option.some_ne_none _))

@[simp] theorem keeps_put {i : Nat} : Keeps (put (ram i) value :: ms) ↔ Keeps ms :=
  List.forall_mem_cons.trans (and_iff_right fun _ h => Option.some.inj h ▸ rfl)

theorem keeps_loop {body : Nat → Move PifRegion}
    (h : ∀ k < count, ∀ p, (body k).dst = some p → p.region.kept = false) :
    Keeps (loop count body) := by
  intro m hm
  obtain ⟨k, hk, rfl⟩ := mem_loop.mp hm
  exact h k hk

theorem keeps_copyTo (h : p.region.kept = false) : Keeps (copy count p q) :=
  keeps_loop fun _ _ _ hdst => Option.some.inj hdst ▸ h

@[simp] theorem keeps_copy {i : Nat} : Keeps (copy count (ram i) q) := keeps_copyTo rfl

@[simp] theorem keeps_fill {i : Nat} : Keeps (fillWith count (ram i) value) :=
  keeps_loop fun _ _ _ hdst => Option.some.inj hdst ▸ rfl

theorem bytes_of_keeps {b : Buffers PifRegion} (h : Keeps ms) (hp : p.region.kept = true) :
    (b.moves ms).bytes p = b.bytes p :=
  Buffers.bytes_moves_of_forall_ne fun m hm hdst =>
    Bool.false_ne_true ((h m hm p hdst).symm.trans hp)

theorem bytes_moves_congr {b b' : Buffers PifRegion} (h : b.bytes = b'.bytes) (ms : Moves) :
    (b.moves ms).bytes = (b'.moves ms).bytes := by
  induction ms generalizing b b' with
  | nil => exact h
  | cons m ms ih =>
    apply ih
    have hvalue : b.value m = b'.value m := by rw [Buffers.value, h]; rfl
    simp only [Buffers.move, h, hvalue]

theorem bytes_moves_look {b : Buffers PifRegion} (ms : Moves) :
    (b.moves (look q :: ms)).bytes p = (b.moves ms).bytes p := by
  have hlook : (b.move (look q)).bytes = b.bytes := rfl
  exact congrFun (bytes_moves_congr hlook ms) p

/-- What a block stores is copied from the memory of the serial interface. -/
theorem bytes_copy (s : Pif) (start : Nat) (hq : q.region.kept = true) :
    (s.buffers.moves (copy count q (ram start))).bytes p =
      (s.block start count q).at p (s.buffers.bytes p) := by
  by_cases hin : (p.region = q.region ∧ q.index ≤ p.index) ∧ p.index - q.index < count
  · have hplace : q.at (p.index - q.index) = p := by
      rw [Place.at, ← hin.1.1, Nat.add_sub_of_le hin.1.2]
    have hstored : (s.block start count q).at p (s.buffers.bytes p) =
        s.byte (start + (p.index - q.index)) := by
      refine (if_pos hin.1).trans ?_
      simp [Pif.block, hin.2]
    rw [hstored]
    refine (Buffers.bytes_loop_of_eq hin.2 (congrArg some hplace) ?_ ?_).trans rfl
    · intro j _ hj
      have hindex : q.index + j = p.index := congrArg Place.index (Option.some.inj hj)
      omega
    · intro src hsrc j _ hj
      obtain rfl := Option.some.inj hsrc
      have hregion : q.region = .ram := congrArg Place.region (Option.some.inj hj)
      rw [hregion] at hq
      exact Bool.false_ne_true hq
  · have hold : (s.block start count q).at p (s.buffers.bytes p) = s.buffers.bytes p := by
      rw [StoredBlock.at]
      split_ifs with hplace
      · have hcount := not_and.mp hin hplace
        simp [Pif.block, hcount]
      · rfl
    rw [hold]
    apply Buffers.bytes_loop_of_ne
    intro j hj hdst
    obtain rfl := Option.some.inj hdst
    exact hin ⟨⟨rfl, Nat.le_add_right ..⟩, by simpa [Place.at] using hj⟩

end Keeps

section Handlers

variable {cfg : PifConfig} {s : Pif} {channel : Fin 4} {i : Nat} {q : Block}

@[simp] theorem keeps_errorMoves {bit : UInt8} : Keeps (errorMoves s i bit) := by
  simp [errorMoves]

@[simp] theorem keeps_crcMoves (b : Buffers PifRegion) : Keeps (crcMoves i b) := by
  rw [crcMoves, keeps_append]
  exact ⟨keeps_loop fun _ _ _ h => absurd h.symm (Option.some_ne_none _), by simp⟩

@[simp] theorem keeps_controllerStatus : Keeps (controllerStatus cfg s channel i) := by
  rw [controllerStatus, keeps_look]
  by_cases hlength : s.byte (i + 1) &&& 0x80 ≠ 0
  · simp [hlength]
  · rw [if_neg hlength]
    split
    · simp
    · split <;> simp

theorem keeps_pakRead {t : Transferpak} {address : BitVec 32} :
    Keeps (pakRead cfg t channel address (ram i)).1 := by
  have hcart (address : BitVec 32) : Keeps (gbReadMoves cfg t channel address (ram i)) := by
    rw [gbReadMoves]
    split <;> simp
  rw [pakRead]
  split
  · simp
  · dsimp only
    rw [mempakRead]
    split_ifs <;> simp
  · simp [rumblepakRead]
  · rw [transferpakRead]
    split <;> (try split_ifs) <;> simp [hcart]

theorem kept_writeGbCart {cart : GbCart} {t : Transferpak} {address : BitVec 32} {value : UInt8}
    {p : Block} (h : (writeGbCart cart t channel address value).1 = some p) :
    p.region.kept = false := by
  have hblock {offset : BitVec 32} (hsome : ramBlock cart channel offset = some p) :
      p.region.kept = false := by
    rw [region_of_ramBlock hsome]
    rfl
  have hbanked (hasRtc : Bool) (hsome : writeGbCartBanked cart t channel address hasRtc = some p) :
      p.region.kept = false := by
    rw [writeGbCartBanked] at hsome
    split at hsome
    · split_ifs at hsome
      exact hblock hsome
    · exact absurd hsome.symm (Option.some_ne_none _)
  rw [writeGbCart] at h
  split at h
  · dsimp only at h
    rw [writeGbCartNormal] at h
    split at h
    · exact hblock h
    · exact absurd h.symm (Option.some_ne_none _)
  · exact hbanked _ h
  · exact hbanked _ h
  · exact absurd h.symm (Option.some_ne_none _)
  · obtain rfl := Option.some.inj h
    rfl

theorem keeps_pakWrite {t : Transferpak} {address : BitVec 32} {value : UInt8}
    (hmem : cfg.pak channel = .mem → ¬address < 0x8000#32) :
    Keeps (pakWrite cfg t channel address (ram i) value).1 := by
  rw [pakWrite]
  split
  · exact keeps_nil
  · next h =>
    dsimp only
    rw [mempakWrite, if_neg (hmem h)]
    exact keeps_nil
  · dsimp only
    rw [rumblepakWrite]
    split_ifs <;> simp
  · rw [transferpakWrite]
    dsimp only
    rw [keeps_look]
    split
    all_goals
      first
      | exact keeps_nil
      | dsimp only
        cases hwrite : (writeGbCart (cfg.gbCart channel) t channel (gbCartAddress t address)
            value).1 with
        | none => exact keeps_nil
        | some p => exact keeps_copyTo (kept_writeGbCart hwrite)

theorem keeps_pakCommand {block : BitVec 32 → Moves × Transferpak}
    (h : cfg.connected channel ≠ .none → Keeps (block (pakAddress s i)).1) :
    Keeps (pakCommand cfg s channel i block).1 := by
  rw [pakCommand]
  split_ifs with hnone
  · simp
  · simp [h hnone]

theorem keeps_cartCommand (h : ¬ReachesEeprom cfg s i 0x05) : Keeps (cartCommand cfg s i) := by
  rw [cartCommand]
  split
  · rw [eepromStatus, keeps_look]
    split_ifs <;> simp
  · rw [eepromRead, keeps_look]
    split_ifs <;> simp
  · next hcommand =>
    rw [eepromWrite, keeps_look, if_neg fun hlt => h ⟨UInt8.toNat_inj.mp hcommand, hlt⟩]
    exact keeps_nil
  · simp [afRtcStatus]
  · rw [afRtcRead, keeps_look]
    split <;> simp
  · exact keeps_nil

theorem keeps_controllerCommand (h : ¬ReachesPak cfg s i 0x03 channel) :
    Keeps (controllerCommand cfg s channel i).1 := by
  rw [controllerCommand]
  split
  · simp
  · simp
  · dsimp only
    rw [controllerReadButtons]
    split_ifs <;> simp
  · exact keeps_pakCommand fun _ => keeps_pakRead
  · next hcommand =>
    exact keeps_pakCommand fun hnone => keeps_pakWrite fun hmem hlt =>
      h ⟨UInt8.toNat_inj.mp hcommand, hnone, hmem, hlt⟩
  · exact keeps_nil

theorem bytes_pakCommand {block : BitVec 32 → Moves × Transferpak}
    (hconnected : cfg.connected channel ≠ .none) {p : Block} (hp : p ≠ ram (i + 5 + pakChunkSize)) :
    (s.buffers.moves (pakCommand cfg s channel i block).1).bytes p =
      (s.buffers.moves (block (pakAddress s i)).1).bytes p := by
  rw [pakCommand, if_neg hconnected]
  refine (bytes_moves_look _).trans ((bytes_moves_look _).trans ?_)
  rw [Buffers.moves_append]
  apply Buffers.bytes_moves_of_forall_ne
  intro m hm hdst
  rcases List.mem_append.mp hm with hlook | hput
  · obtain ⟨k, -, rfl⟩ := mem_loop.mp hlook
    exact absurd hdst.symm (Option.some_ne_none _)
  · rw [List.mem_singleton.mp hput] at hdst
    exact hp (Option.some.inj hdst).symm

theorem bytes_pakWrite {p : Block} (h : ReachesPak cfg s i 0x03 channel)
    (hp : p.region.kept = true) :
    (s.buffers.moves (controllerCommand cfg s channel i).1).bytes p =
      (s.block (i + 5) pakChunkSize ⟨.mempak channel, (pakAddress s i).toNat⟩).at p
        (s.buffers.bytes p) := by
  have hcommand : (s.byte (i + 2)).toNat = 0x03 := congrArg UInt8.toNat h.1
  have hne : p ≠ ram (i + 5 + pakChunkSize) := by
    rintro rfl
    exact Bool.false_ne_true hp
  rw [controllerCommand, hcommand]
  refine (bytes_pakCommand h.2.1 hne).trans ?_
  rw [pakWrite, h.2.2.1, mempakWrite, if_pos h.2.2.2]
  exact bytes_copy s (i + 5) rfl

theorem bytes_eepromWrite {p : Block} (h : ReachesEeprom cfg s i 0x05) :
    (s.buffers.moves (cartCommand cfg s i)).bytes p =
      (s.block (i + 4) 8 ⟨.eeprom, eepromAddress s i⟩).at p (s.buffers.bytes p) := by
  have hcommand : (s.byte (i + 2)).toNat = 0x05 := congrArg UInt8.toNat h.1
  rw [cartCommand, hcommand]
  refine (bytes_moves_look _).trans ?_
  rw [if_pos h.2]
  exact bytes_copy s (i + 4) rfl

theorem byte_copy {start count k : Nat} (hq : q.region ≠ .ram) (hk : k < count) (s : Pif) :
    (s.buffers.moves (copy count (ram start) q)).bytes (ram (start + k)) =
      s.buffers.bytes (q.at k) := by
  refine Buffers.bytes_loop_of_eq hk rfl ?_ ?_
  · intro j _ hj
    exact Nat.add_left_cancel (congrArg Place.index (Option.some.inj hj))
  · intro src hsrc j _ hj
    obtain rfl := Option.some.inj hsrc
    exact hq (congrArg Place.region (Option.some.inj hj)).symm

theorem byte_pakRead {k : Nat} (h : ReachesPak cfg s i 0x02 channel) (hk : k < pakChunkSize) :
    (s.buffers.moves (controllerCommand cfg s channel i).1).bytes (ram (i + 5 + k)) =
      s.buffers.bytes ⟨.mempak channel, (pakAddress s i).toNat + k⟩ := by
  have hcommand : (s.byte (i + 2)).toNat = 0x02 := congrArg UInt8.toNat h.1
  have hne : ram (i + 5 + k) ≠ ram (i + 5 + pakChunkSize) := fun heq =>
    Nat.ne_of_lt hk (Nat.add_left_cancel (congrArg Place.index heq))
  rw [controllerCommand, hcommand]
  refine (bytes_pakCommand h.2.1 hne).trans ?_
  rw [pakRead, h.2.2.1, mempakRead, if_pos h.2.2.2]
  exact byte_copy PifRegion.noConfusion hk s

theorem byte_eepromRead {k : Nat} (h : ReachesEeprom cfg s i 0x04) (hk : k < 8) :
    (s.buffers.moves (cartCommand cfg s i)).bytes (ram (i + 4 + k)) =
      s.buffers.bytes ⟨.eeprom, eepromAddress s i + k⟩ := by
  have hcommand : (s.byte (i + 2)).toNat = 0x04 := congrArg UInt8.toNat h.1
  rw [cartCommand, hcommand]
  refine (bytes_moves_look _).trans ?_
  rw [if_pos h.2]
  exact byte_copy PifRegion.noConfusion hk s

/-- A command that reads a block copies it from where it is kept. -/
theorem byte_writeCommand {channel start count k : Nat}
    (h : readBlock cfg s i channel = some (start, count, q)) (hk : k < count) :
    (s.buffers.moves (writeCommand cfg s i channel).1).bytes (ram (start + k)) =
      s.buffers.bytes (q.at k) := by
  rw [readBlock, keptBlock] at h
  rw [writeCommand]
  by_cases hlt : channel < 4
  · rw [dif_pos hlt] at h ⊢
    split_ifs at h with hreads
    obtain ⟨rfl, rfl, rfl⟩ := h
    exact (bytes_moves_look _).trans (byte_pakRead hreads hk)
  · rw [dif_neg hlt] at h ⊢
    split_ifs at h with hreads
    obtain ⟨rfl, rfl, rfl⟩ := h
    rw [if_pos hreads.1]
    exact (bytes_moves_look _).trans (byte_eepromRead hreads.2 hk)

/-- A written command stores its block, and nothing else that is kept. -/
theorem bytes_writeCommand {p : Block} (hp : p.region.kept = true) (channel : Nat) :
    (s.buffers.moves (writeCommand cfg s i channel).1).bytes p =
      lastStored (storedBlocks cfg s i channel) p (s.buffers.bytes p) := by
  rw [writeCommand, storedBlocks, keptBlock]
  by_cases hlt : channel < 4
  · rw [dif_pos hlt, dif_pos hlt]
    refine (bytes_moves_look _).trans ?_
    split_ifs with hstores
    · exact bytes_pakWrite hstores hp
    · exact bytes_of_keeps (keeps_controllerCommand hstores) hp
  · rw [dif_neg hlt, dif_neg hlt]
    by_cases hfour : channel = 4
    · rw [if_pos hfour]
      refine (bytes_moves_look _).trans ?_
      split_ifs with hstores
      · exact bytes_eepromWrite hstores.2
      · exact bytes_of_keeps (keeps_cartCommand fun h => hstores ⟨hfour, h⟩) hp
    · rw [if_neg hfour, if_neg fun h => hfour h.1]
      rfl

end Handlers

section Runs

variable {cfg : PifConfig} {w : Walk} {c : Cursor} {s t : Pif} {p : Block} {turns : Nat}
  {f : Cursor → List StoredBlock}

theorem lastStored_append (blocks blocks' : List StoredBlock) (p : Block) (old : UInt8) :
    lastStored (blocks ++ blocks') p old = lastStored blocks' p (lastStored blocks p old) :=
  List.foldl_append

theorem buffers_step (w : Walk) (c : Cursor) :
    (w.step c).pif.buffers = c.pif.buffers.moves (w.turn c).1 := by
  rw [Walk.step]
  dsimp only
  split_ifs <;> rfl

theorem bytes_commandStep (p : Block) (hcommand : c.hasCommand = true) :
    ((writeWalk cfg).step c).pif.buffers.bytes p =
      (c.pif.buffers.moves (writeCommand cfg c.pif c.index c.channel).1).bytes p := by
  have hstarts : startsCommand (c.pif.byte c.index) = true := hcommand
  rw [buffers_step, Walk.turn]
  dsimp only
  rw [if_pos hstarts, Buffers.moves_append]
  exact (Buffers.bytes_moves_of_forall_ne (by simp [look])).trans (bytes_moves_look _)

theorem bytes_writeStep (hp : p.region.kept = true) (c : Cursor) :
    ((writeWalk cfg).step c).pif.buffers.bytes p =
      lastStored (c.storedBlocks cfg) p (c.pif.buffers.bytes p) := by
  rw [Cursor.storedBlocks]
  split_ifs with hcommand
  · rw [bytes_commandStep p hcommand, bytes_writeCommand hp]
  · have hskips : ¬startsCommand (c.pif.byte c.index) = true := hcommand
    rw [buffers_step, Walk.turn]
    dsimp only
    rw [if_neg hskips]
    rfl

theorem keeps_readCommand {i channel : Nat} : Keeps (readCommand cfg s i channel).1 := by
  rw [readCommand]
  split_ifs
  · rw [keeps_look, readController]
    split_ifs
    · exact keeps_loop fun _ _ _ h => Option.some.inj h ▸ rfl
    · exact keeps_nil
  · exact keeps_nil

theorem bytes_readStep (hp : p.region.kept = true) (c : Cursor) :
    ((readWalk cfg).step c).pif.buffers.bytes p = c.pif.buffers.bytes p := by
  rw [buffers_step, Walk.turn]
  dsimp only
  split_ifs
  · exact bytes_of_keeps (keeps_append.mpr ⟨keeps_look.mpr keeps_readCommand, by simp⟩) hp
  · rfl

/-- What a step stores is there in the places that a loop comes to later. -/
theorem bytes_of_visits
    (h : ∀ c, (w.step c).pif.buffers.bytes p = lastStored (f c) p (c.pif.buffers.bytes p))
    {before after : List Cursor} {v : Cursor} (hvisits : w.visits turns c = before ++ v :: after) :
    v.pif.buffers.bytes p = lastStored (before.flatMap f) p (c.pif.buffers.bytes p) := by
  induction turns generalizing c before with
  | zero => simp [Walk.visits] at hvisits
  | succ turns ih =>
    rw [Walk.visits] at hvisits
    split_ifs at hvisits
    · cases before with
      | nil => rw [(List.cons.inj hvisits).1]; rfl
      | cons u before =>
        obtain ⟨rfl, hrest⟩ := List.cons.inj hvisits
        rw [ih hrest, h, List.flatMap_cons, lastStored_append]
    · simp at hvisits

theorem bytes_run
    (h : ∀ c, (w.step c).pif.buffers.bytes p = lastStored (f c) p (c.pif.buffers.bytes p))
    (hrun : w.run turns c = some t) :
    t.buffers.bytes p =
      lastStored ((w.visits turns c).flatMap f) p (c.pif.buffers.bytes p) := by
  induction turns generalizing c with
  | zero =>
    rw [Walk.run] at hrun
    split_ifs at hrun
    obtain rfl := Option.some.inj hrun
    rfl
  | succ turns ih =>
    rw [Walk.run] at hrun
    rw [Walk.visits]
    split_ifs at hrun ⊢
    · rw [ih hrun, h, List.flatMap_cons, lastStored_append]
    · obtain rfl := Option.some.inj hrun
      rfl

theorem kept_of_readBlock {i channel start count : Nat} {q : Block}
    (h : readBlock cfg s i channel = some (start, count, q)) : q.region.kept = true := by
  rw [readBlock, keptBlock] at h
  split_ifs at h <;> obtain ⟨-, -, rfl⟩ := h <;> rfl

variable {a : SerialAction} {actions : List SerialAction}

theorem bytes_updatePifWrite (hp : p.region.kept = true) (h : updatePifWrite cfg s = some t) :
    t.buffers.bytes p =
      lastStored (SerialAction.write.storedBlocks cfg s) p (s.buffers.bytes p) := by
  rw [SerialAction.storedBlocks]
  by_cases hlast : 1 < s.byte 0x3F
  · rw [if_pos hlast]
    have hentered : 1 < s.entered.byte 0x3F := hlast
    have heq : updatePifWrite cfg s = _ := if_pos hentered
    rw [heq] at h
    split at h
    · obtain rfl := Option.some.inj h
      refine bytes_of_keeps (b := s.entered.buffers) ?_ hp
      rw [challengeMoves]
      simp only [keeps_append, keeps_put, keeps_nil, and_true]
      exact ⟨keeps_loop fun _ _ _ hdst => absurd hdst.symm (Option.some_ne_none _),
        keeps_loop fun _ _ _ hdst => Option.some.inj hdst ▸ rfl⟩
    · obtain rfl := Option.some.inj h
      exact bytes_of_keeps (b := s.entered.buffers) (by simp) hp
    · obtain rfl := Option.some.inj h
      rfl
  · rw [if_neg hlast]
    have heq : updatePifWrite cfg s = (writeWalk cfg).run 0x40 ⟨s.entered, 0, 0⟩ := if_neg hlast
    exact bytes_run (bytes_writeStep hp) (heq.symm.trans h)

theorem bytes_updatePifRead (hp : p.region.kept = true) (h : updatePifRead cfg s = some t) :
    t.buffers.bytes p = s.buffers.bytes p := by
  rw [updatePifRead] at h
  split_ifs at h
  · rw [Option.some.inj h]
  · have hrun := bytes_run (f := fun _ => []) (bytes_readStep hp) h
    rwa [List.flatMap_eq_nil_iff.mpr fun _ _ => rfl] at hrun

theorem bytes_perform (hp : p.region.kept = true) (h : a.perform cfg s = some t) :
    t.buffers.bytes p = lastStored (a.storedBlocks cfg s) p (s.buffers.bytes p) := by
  cases a with
  | store bytes =>
    obtain rfl := Option.some.inj h
    refine if_neg fun hram => ?_
    rw [hram] at hp
    exact Bool.false_ne_true hp
  | write => exact bytes_updatePifWrite hp h
  | read => exact bytes_updatePifRead hp h

theorem exists_perform (cfg : PifConfig) (s : Pif) (a : SerialAction) :
    ∃ t, a.perform cfg s = some t := by
  cases a with
  | store bytes => exact ⟨_, rfl⟩
  | write => exact (updatePifWrite_spec cfg s).1
  | read => exact (updatePifRead_spec cfg s).1

theorem bytes_session (cfg : PifConfig) (s : Pif) (actions : List SerialAction) :
    ∃ t stored, session cfg s actions = some (t, stored) ∧
      ∀ p, p.region.kept = true →
        t.buffers.bytes p = lastStored stored p (s.buffers.bytes p) := by
  induction actions generalizing s with
  | nil => exact ⟨s, [], rfl, fun p _ => rfl⟩
  | cons a actions ih =>
    obtain ⟨s', hperform⟩ := exists_perform cfg s a
    obtain ⟨t, stored, hsession, hbytes⟩ := ih s'
    refine ⟨t, a.storedBlocks cfg s ++ stored, ?_, fun p hp => ?_⟩
    · rw [session, hperform, Option.bind_eq_bind, Option.bind_some, hsession]
      rfl
    · rw [hbytes p hp, bytes_perform hp hperform, lastStored_append]

end Runs

/-- After every session each byte of a memory pak and of the EEPROM is what was last stored in it,
and every command of the next written pass that reads a block delivers what the session and the
commands before it last stored there. -/
theorem session_delivers_last_stored (cfg : PifConfig) (s : Pif) (actions : List SerialAction) :
    ∃ t stored, session cfg s actions = some (t, stored) ∧
      (∀ p, p.region.kept = true → t.buffers.bytes p = lastStored stored p (s.buffers.bytes p)) ∧
      ∀ before v after,
        (writeWalk cfg).visits 0x40 ⟨t.entered, 0, 0⟩ = before ++ v :: after →
        v.hasCommand = true →
        ∀ start count q, readBlock cfg v.pif v.index v.channel = some (start, count, q) →
        ∀ k < count, ((writeWalk cfg).step v).pif.byte (start + k) =
          lastStored (stored ++ before.flatMap (Cursor.storedBlocks cfg)) (q.at k)
            (s.buffers.bytes (q.at k)) := by
  obtain ⟨t, stored, hsession, hbytes⟩ := bytes_session cfg s actions
  refine ⟨t, stored, hsession, hbytes, ?_⟩
  intro before v after hvisits hcommand start count q hread k hk
  have hregion : q.region.kept = true := kept_of_readBlock hread
  have hkept : (q.at k).region.kept = true := hregion
  rw [Pif.byte, bytes_commandStep _ hcommand, byte_writeCommand hread hk,
    bytes_of_visits (bytes_writeStep hkept) hvisits,
    lastStored_append, ← hbytes _ hkept]
  rfl

end ParallelN64.Si
