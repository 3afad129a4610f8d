import ParallelN64.Core.Transfer
import ParallelN64.Rsp.VectorAccess

/-!
# Unaligned pairs and transposes

Two loads of a register, or two stores, together move 16 bytes from any address on, and stores and
loads of turned rows transpose a group of registers. Seen as bytes, these operations are transfers
between data memory and registers.
-/

namespace ParallelN64.Rsp.Ls

open ParallelN64.Core Su

/-- Data memory, in the order of the host, and the registers in order of their bytes. -/
inductive Region where
  | dmem
  | vreg (reg : Nat)
  deriving DecidableEq

/-- The bytes of a state. -/
def State.view (s : State) : Buffers Region where
  bytes p :=
    match p.region with
    | .dmem => ⟨s.dmem p.index⟩
    | .vreg reg => ⟨byteFromHalfWords (s.regs reg) p.index⟩
  used := []

namespace Access

def IsByte : Access → Prop
  | loadByte .. | storeByte .. => True
  | _ => False

def toMove : Access → Move Region
  | loadByte place reg i => ⟨some ⟨.dmem, (bes place).toNat⟩, some ⟨.vreg reg, i⟩, 0⟩
  | storeByte place reg i => ⟨some ⟨.vreg reg, i⟩, some ⟨.dmem, (bes place).toNat⟩, 0⟩
  | _ => ⟨none, none, 0⟩

end Access

open Access

section Bytes

variable (arr : HalfWords)

theorem replace_low (x : BitVec 16) (b : BitVec 8) :
    (((x &&& 0xFF00#16) ||| b.setWidth 16) >>> 8).setWidth 8 = (x >>> 8).setWidth 8 ∧
      ((x &&& 0xFF00#16) ||| b.setWidth 16).setWidth 8 = b := by
  have hones : ∀ k < 8, (0xFF00#16).getLsbD (8 + k) = true := by decide
  constructor
  · ext k hk
    simp [hones k hk]
  · ext k hk
    simp

theorem replace_high (x : BitVec 16) (b : BitVec 8) :
    (((x &&& 0xFF#16) ||| b.setWidth 16 <<< 8) >>> 8).setWidth 8 = b ∧
      ((x &&& 0xFF#16) ||| b.setWidth 16 <<< 8).setWidth 8 = x.setWidth 8 := by
  constructor
  · have hzeros : ∀ k, (hk : k < 8) → (255#16)[8 + k] = false := by decide
    ext k hk
    have hlt : 8 + k < 16 := by omega
    have hin : k < 16 := by omega
    simp [hzeros k hk, BitVec.getLsbD_eq_getElem hk, hlt, hin]
  · have hones : ∀ k, (hk : k < 8) → (255#8)[k] = true := by decide
    ext k hk
    simp [hones k hk]

theorem byteFromHalfWords_write (i j : Nat) (b : BitVec 8) :
    byteFromHalfWords (writeByteToHalfWords arr i b) j =
      if j = i then b else byteFromHalfWords arr j := by
  unfold byteFromHalfWords writeByteToHalfWords
  by_cases hlane : j / 2 = i / 2
  · obtain ⟨hlow, hhigh⟩ := And.intro (replace_low (arr (i / 2)) b) (replace_high (arr (i / 2)) b)
    rw [hlane, Function.update_self]
    rcases Nat.mod_two_eq_zero_or_one i with hi | hi
    · rcases Nat.mod_two_eq_zero_or_one j with hj | hj
      · simp [hi, hhigh.1, show j = i by omega]
      · simp [hi, hj, hhigh.2, show j ≠ i by omega]
    · rcases Nat.mod_two_eq_zero_or_one j with hj | hj
      · simp [hi, hj, hlow.1, show j ≠ i by omega]
      · simp [hi, hlow.2, show j = i by omega]
  · have hne : j ≠ i := fun h => hlane (h ▸ rfl)
    rw [Function.update_of_ne hlane, if_neg hne]

theorem lane_eq (lane : Nat) :
    arr lane = byteFromHalfWords arr (2 * lane) ++ byteFromHalfWords arr (2 * lane + 1) := by
  have heven : (2 * lane + 1) / 2 = lane := by omega
  have hodd : (2 * lane + 1) % 2 = 1 := by omega
  rw [byteFromHalfWords, byteFromHalfWords, heven, if_pos hodd, Nat.mul_mod_right,
    if_neg (by decide), Nat.mul_div_cancel_left _ (by decide)]
  apply BitVec.eq_of_toNat_eq
  refine Eq.trans ?_ (BitVec.toNat_append _ _).symm
  rw [← Nat.shiftLeft_add_eq_or_of_lt (BitVec.isLt _), Nat.shiftLeft_eq, BitVec.toNat_setWidth,
    BitVec.toNat_setWidth, BitVec.toNat_ushiftRight, Nat.shiftRight_eq_div_pow]
  omega

theorem hostByte_mes (i : Nat) : hostByte arr (mes i) = byteFromHalfWords arr i := by
  have hmod : mes i % 2 = 1 - i % 2 := by
    have hxor := Nat.xor_mod_two_pow (a := i) (b := 1) (n := 1)
    rw [mes]
    rcases Nat.mod_two_eq_zero_or_one i with hi | hi
    · rw [hi] at hxor ⊢
      exact hxor
    · rw [hi] at hxor ⊢
      exact hxor
  rw [hostByte, byteFromHalfWords, mes_div_two, hmod]
  rcases Nat.mod_two_eq_zero_or_one i with hi | hi
  · rw [hi, if_neg (by decide)]
  · rw [hi, if_pos rfl]
    exact congrArg (BitVec.setWidth 8) (BitVec.ushiftRight_zero _)

end Bytes

section View

variable (s : State)

theorem bytes_view_execute {access : Access} (h : access.IsByte) :
    (access.execute s).view.bytes = (s.view.move access.toMove).bytes := by
  cases access with
  | loadByte place reg i =>
    change (s.setReg reg _).view.bytes =
      Function.update s.view.bytes ⟨.vreg reg, i⟩ (UInt8.ofBitVec (s.readMemU8 place))
    ext1 p
    by_cases hp : p = ⟨.vreg reg, i⟩
    · rw [hp, Function.update_self]
      change UInt8.ofBitVec (byteFromHalfWords (Function.update s.regs reg _ reg) i) = _
      rw [Function.update_self, byteFromHalfWords_write, if_pos rfl]
    · rw [Function.update_of_ne hp]
      rcases p with ⟨_ | r, j⟩
      · rfl
      · change UInt8.ofBitVec (byteFromHalfWords (Function.update s.regs reg _ r) j) = _
        by_cases hreg : r = reg
        · subst hreg
          rw [Function.update_self, byteFromHalfWords_write, if_neg fun h =>
            hp (congrArg (Place.mk (Region.vreg r)) h)]
          rfl
        · rw [Function.update_of_ne hreg]
          rfl
  | storeByte place reg i =>
    change (s.writeMemU8 place _).view.bytes =
      Function.update s.view.bytes ⟨.dmem, (bes place).toNat⟩
        (UInt8.ofBitVec (byteFromHalfWords (s.regs reg) i))
    ext1 p
    by_cases hp : p = ⟨.dmem, (bes place).toNat⟩
    · rw [hp, Function.update_self]
      exact congrArg UInt8.ofBitVec (Function.update_self ..)
    · rw [Function.update_of_ne hp]
      rcases p with ⟨_ | r, j⟩
      · exact congrArg UInt8.ofBitVec
          (Function.update_of_ne (fun h => hp (congrArg (Place.mk Region.dmem) h)) ..)
      · rfl
  | loadHostByte | loadLane | fetchTemp | unloadTemp | storeHostByte | storeHalf | storeLane
  | storeBits | storeZero => exact h.elim

theorem bytes_moves_congr_bytes {b b' : Buffers Region} (h : b.bytes = b'.bytes)
    (ms : List (Move Region)) : (b.moves ms).bytes = (b'.moves ms).bytes := by
  induction ms generalizing b b' with
  | nil => exact h
  | cons m ms ih =>
    apply ih
    have hvalue : b.value m = b'.value m := by
      rw [Buffers.value, Buffers.value, h]
    rw [Buffers.move, Buffers.move, h, hvalue]

theorem bytes_view_foldl {ι : Type} (indices : List ι) (access : ι → Access)
    (h : ∀ x, (access x).IsByte) :
    ((indices.map access).foldl execute s).view.bytes =
      (s.view.moves (indices.map (toMove ∘ access))).bytes := by
  induction indices generalizing s with
  | nil => rfl
  | cons x indices ih =>
    rw [List.map_cons, List.foldl_cons, ih, List.map_cons, Buffers.moves_cons]
    exact bytes_moves_congr_bytes (bytes_view_execute s (h x)) _

end View

section Pairs

variable (s : State) (rt : Nat) (a : BitVec 32)

/-- `LQV` at an address and `LRV` 16 bytes on. -/
def loadPair : State := runAt (runAt s .lqv rt 0 a) .lrv rt 0 (a + 16)

/-- `SQV` at an address and `SRV` 16 bytes on. -/
def storePair : State := runAt (runAt s .sqv rt 0 a) .srv rt 0 (a + 16)

theorem range_split {r : Nat} (hr : r < 16) :
    List.range 16 = List.range (16 - r) ++ (List.range r).map fun k => 16 - r + k := by
  rw [← List.range_add, Nat.sub_add_cancel (Nat.le_of_lt hr)]

theorem toNat_add_sixteen_mod : (a + 16).toNat % 16 = a.toNat % 16 := by
  have hsum : (a + 16).toNat = (a.toNat + 16) % 2 ^ 32 := BitVec.toNat_add ..
  omega

theorem masked_next_row (k : Nat) :
    masked (((a + 16) &&& ~~~15#32) + BitVec.ofNat 32 k) =
      masked (a + BitVec.ofNat 32 (16 - a.toNat % 16 + k)) := by
  have hrow := toNat_row (a + 16) 15#32 4 rfl
  have hmod := toNat_add_sixteen_mod a
  have hsum : (a + 16).toNat = (a.toNat + 16) % 2 ^ 32 := BitVec.toNat_add ..
  apply masked_congr
  rw [BitVec.toNat_add, BitVec.toNat_add, BitVec.toNat_ofNat, BitVec.toNat_ofNat, hrow]
  generalize (a + 16).toNat = n at hmod hsum
  generalize a.toNat = m at hmod hsum
  omega

theorem accesses_loadPair :
    VectorOp.lqv.accesses rt 0 a ++ VectorOp.lrv.accesses rt 0 (a + 16) =
      (List.range 16).map fun i => loadByte (masked (a + BitVec.ofNat 32 i)) rt i := by
  have hfirst : (a &&& 15#32).toNat = a.toNat % 16 := toNat_and_mask a 15#32 4 rfl
  have hsecond : ((a + 16) &&& 15#32).toNat = a.toNat % 16 :=
    (toNat_and_mask (a + 16) 15#32 4 rfl).trans (toNat_add_sixteen_mod a)
  have hnext := masked_next_row a
  have hlt : a.toNat % 16 < 16 := Nat.mod_lt _ (by decide)
  rw [VectorOp.accesses, VectorOp.accesses, Ls.lqv, Ls.lrv, hfirst, hsecond]
  generalize a.toNat % 16 = r at hlt hnext
  have hcount : min (16 + 0 - r) 16 - 0 = 16 - r := by omega
  have hrest : 16 - (16 + 0 - r) = r := by omega
  rw [range_split hlt, List.map_append, List.map_map, hcount, hrest]
  refine congrArg₂ _ (List.map_congr_left fun k hk => ?_) (List.map_congr_left fun k hk => ?_)
  · have hk := List.mem_range.mp hk
    rw [show (0 + k) % 16 = k by omega]
  · have hk := List.mem_range.mp hk
    rw [hnext, show (16 + 0 - r + k) % 16 = 16 - r + k by omega]
    rfl

theorem masked_row_add (b : BitVec 32) {k : Nat} (h : b.toNat % 16 + k < 16) :
    masked b + BitVec.ofNat 32 k = masked (b + BitVec.ofNat 32 k) := by
  apply BitVec.eq_of_toNat_eq
  rw [toNat_masked, BitVec.toNat_add, BitVec.toNat_add, BitVec.toNat_ofNat, toNat_masked]
  generalize b.toNat = n at h
  omega

theorem accesses_storePair :
    VectorOp.sqv.accesses rt 0 a ++ VectorOp.srv.accesses rt 0 (a + 16) =
      (List.range 16).map fun i => storeByte (masked (a + BitVec.ofNat 32 i)) rt i := by
  have hmask (b : BitVec 32) : masked b &&& 15#32 = b &&& 15#32 := masked_and_of_low b _ rfl
  have hfirst : (a &&& 15#32).toNat = a.toNat % 16 := toNat_and_mask a 15#32 4 rfl
  have hsecond : ((a + 16) &&& 15#32).toNat = a.toNat % 16 :=
    (toNat_and_mask (a + 16) 15#32 4 rfl).trans (toNat_add_sixteen_mod a)
  have hnext := masked_next_row a
  have hzero : ((a + 16) &&& ~~~15#32).toNat % 16 = 0 := by
    rw [toNat_row (a + 16) 15#32 4 rfl]
    generalize (a + 16).toNat = n
    omega
  have hlt : a.toNat % 16 < 16 := Nat.mod_lt _ (by decide)
  rw [VectorOp.accesses, VectorOp.accesses, Ls.sqv, Ls.srv, hmask, hmask, hfirst, hsecond,
    masked_and]
  rw [range_split hlt, List.map_append, List.map_map]
  refine congrArg₂ _ (List.map_congr_left fun k hk => ?_) (List.map_congr_left fun k hk => ?_)
  · have hk := List.mem_range.mp hk
    rw [masked_row_add a (by omega), show (0 + k) % 16 = k by omega]
  · have hk := List.mem_range.mp hk
    rw [masked_row_add _ (by omega), masked_next_row,
      show (0 + k + (16 - a.toNat % 16)) % 16 = 16 - a.toNat % 16 + k by omega]
    rfl

end Pairs

section Transfer

variable {s : State}

theorem regs_eq_of_bytes {t : State} {reg : Nat}
    (h : ∀ i, t.view.bytes ⟨.vreg reg, i⟩ = s.view.bytes ⟨.vreg reg, i⟩) :
    t.regs reg = s.regs reg := by
  ext1 lane
  have hbyte (i : Nat) : byteFromHalfWords (t.regs reg) i = byteFromHalfWords (s.regs reg) i :=
    congrArg UInt8.toBitVec (h i)
  rw [lane_eq (t.regs reg), lane_eq (s.regs reg), hbyte, hbyte]

theorem dmem_eq_of_bytes {t : State} {i : Nat}
    (h : t.view.bytes ⟨.dmem, i⟩ = s.view.bytes ⟨.dmem, i⟩) : t.dmem i = s.dmem i :=
  congrArg UInt8.toBitVec h

theorem bes_masked_inj (a : BitVec 32) {i j : Nat} (hi : i < 4096) (hj : j < 4096)
    (h : (bes (masked (a + BitVec.ofNat 32 i))).toNat =
      (bes (masked (a + BitVec.ofNat 32 j))).toNat) : i = j := by
  have hsame := congrArg (· ^^^ (3 : BitVec 32)) (BitVec.eq_of_toNat_eq h)
  simp only [bes, BitVec.xor_assoc, BitVec.xor_self, BitVec.xor_zero] at hsame
  have hnat := congrArg BitVec.toNat hsame
  rw [toNat_masked, toNat_masked, BitVec.toNat_add, BitVec.toNat_add, BitVec.toNat_ofNat,
    BitVec.toNat_ofNat] at hnat
  omega

variable {ι : Type} (indices : List ι) (place : ι → BitVec 32) (reg byte : ι → Nat)

theorem loads_spec
    (honce : ∀ x ∈ indices, ∀ y ∈ indices, reg y = reg x → byte y = byte x → y = x) (s : State) :
    let t := (indices.map fun x => loadByte (place x) (reg x) (byte x)).foldl execute s
    (∀ x ∈ indices, byteFromHalfWords (t.regs (reg x)) (byte x) = s.readMemU8 (place x)) ∧
      (∀ r, (∀ x ∈ indices, reg x ≠ r) → t.regs r = s.regs r) ∧ t.dmem = s.dmem := by
  intro t
  have hview := bytes_view_foldl s indices (fun x => loadByte (place x) (reg x) (byte x))
    fun _ => trivial
  refine ⟨fun x hx => ?_, fun r hr => regs_eq_of_bytes fun i => ?_,
    funext fun i => dmem_eq_of_bytes ?_⟩
  · have hmove := Buffers.bytes_moves_of_mem (b := s.view)
      (List.mem_map_of_mem (f := toMove ∘ fun x => loadByte (place x) (reg x) (byte x)) hx) rfl
      (fun m hm hdst => by
        obtain ⟨y, hy, rfl⟩ := List.mem_map.mp hm
        have hplace := Option.some.inj hdst
        rw [honce x hx y hy (Region.vreg.inj (congrArg Place.region hplace))
          (congrArg Place.index hplace)])
      (fun q hq m hm hdst => by
        obtain ⟨y, hy, rfl⟩ := List.mem_map.mp hm
        cases Option.some.inj hq
        cases Option.some.inj hdst)
    exact congrArg UInt8.toBitVec ((congrFun hview _).trans hmove)
  · refine (congrFun hview _).trans (Buffers.bytes_moves_of_forall_ne fun m hm hdst => ?_)
    obtain ⟨y, hy, rfl⟩ := List.mem_map.mp hm
    exact hr y hy (Region.vreg.inj (congrArg Place.region (Option.some.inj hdst)))
  · refine (congrFun hview _).trans (Buffers.bytes_moves_of_forall_ne fun m hm hdst => ?_)
    obtain ⟨y, hy, rfl⟩ := List.mem_map.mp hm
    cases Option.some.inj hdst

theorem stores_spec
    (honce : ∀ x ∈ indices, ∀ y ∈ indices, (bes (place y)).toNat = (bes (place x)).toNat → y = x)
    (s : State) :
    let t := (indices.map fun x => storeByte (place x) (reg x) (byte x)).foldl execute s
    (∀ x ∈ indices, t.readMemU8 (place x) = byteFromHalfWords (s.regs (reg x)) (byte x)) ∧
      (∀ i, (∀ x ∈ indices, (bes (place x)).toNat ≠ i) → t.dmem i = s.dmem i) ∧
      t.regs = s.regs := by
  intro t
  have hview := bytes_view_foldl s indices (fun x => storeByte (place x) (reg x) (byte x))
    fun _ => trivial
  refine ⟨fun x hx => ?_, fun i hi => dmem_eq_of_bytes ?_,
    funext fun r => regs_eq_of_bytes fun i => ?_⟩
  · have hmove := Buffers.bytes_moves_of_mem (b := s.view)
      (List.mem_map_of_mem (f := toMove ∘ fun x => storeByte (place x) (reg x) (byte x)) hx) rfl
      (fun m hm hdst => by
        obtain ⟨y, hy, rfl⟩ := List.mem_map.mp hm
        rw [honce x hx y hy (congrArg Place.index (Option.some.inj hdst))])
      (fun q hq m hm hdst => by
        obtain ⟨y, hy, rfl⟩ := List.mem_map.mp hm
        cases Option.some.inj hq
        cases Option.some.inj hdst)
    exact congrArg UInt8.toBitVec ((congrFun hview _).trans hmove)
  · refine (congrFun hview _).trans (Buffers.bytes_moves_of_forall_ne fun m hm hdst => ?_)
    obtain ⟨y, hy, rfl⟩ := List.mem_map.mp hm
    exact hi y hy (congrArg Place.index (Option.some.inj hdst))
  · refine (congrFun hview _).trans (Buffers.bytes_moves_of_forall_ne fun m hm hdst => ?_)
    obtain ⟨y, hy, rfl⟩ := List.mem_map.mp hm
    cases Option.some.inj hdst

end Transfer

section PairSpecs

variable (s : State) (rt : Nat) (a : BitVec 32)

def State.byteAt : BitVec 8 := s.readMemU8 (masked a)

theorem loadPair_spec :
    (∀ i < 16, byteFromHalfWords ((loadPair s rt a).regs rt) i =
        s.byteAt (a + BitVec.ofNat 32 i)) ∧
      (∀ r, r ≠ rt → (loadPair s rt a).regs r = s.regs r) ∧ (loadPair s rt a).dmem = s.dmem := by
  have hrun : loadPair s rt a = ((List.range 16).map fun i =>
      loadByte (masked (a + BitVec.ofNat 32 i)) rt i).foldl execute s := by
    rw [← accesses_loadPair, List.foldl_append]
    rfl
  have hspec := loads_spec (List.range 16) (fun i => masked (a + BitVec.ofNat 32 i)) (fun _ => rt)
    (fun i => i) (fun _ _ _ _ _ h => h) s
  rw [hrun]
  exact ⟨fun i hi => hspec.1 i (List.mem_range.mpr hi),
    fun r hr => hspec.2.1 r fun _ _ => Ne.symm hr, hspec.2.2⟩

theorem storePair_spec :
    (∀ i < 16, (storePair s rt a).byteAt (a + BitVec.ofNat 32 i) =
        byteFromHalfWords (s.regs rt) i) ∧
      (∀ j, (∀ i < 16, (bes (masked (a + BitVec.ofNat 32 i))).toNat ≠ j) →
        (storePair s rt a).dmem j = s.dmem j) ∧ (storePair s rt a).regs = s.regs := by
  have hrun : storePair s rt a = ((List.range 16).map fun i =>
      storeByte (masked (a + BitVec.ofNat 32 i)) rt i).foldl execute s := by
    rw [← accesses_storePair, List.foldl_append]
    rfl
  have hin (i : Nat) (hi : i ∈ List.range 16) : i < 4096 :=
    Nat.lt_trans (List.mem_range.mp hi) (by decide)
  have hspec := stores_spec (List.range 16) (fun i => masked (a + BitVec.ofNat 32 i))
    (fun _ => rt) (fun i => i) (fun i hi j hj h => bes_masked_inj a (hin j hj) (hin i hi) h) s
  rw [hrun]
  exact ⟨fun i hi => hspec.1 i (List.mem_range.mpr hi),
    fun j hj => hspec.2.1 j fun i hi => hj i (List.mem_range.mp hi), hspec.2.2⟩

end PairSpecs

section Halves

variable (s : State) (rt : Nat)

theorem execute_storeHalf {p : BitVec 32} (lane : Nat) (heven : p.toNat % 2 = 0) :
    (storeHalf p rt lane).execute s =
      (storeHostByte (p + 1#32) rt (mes (2 * lane + 1))).execute
        ((storeHostByte p rt (mes (2 * lane))).execute s) := by
  obtain ⟨hlow, hhigh⟩ := two_mul_half p
  obtain ⟨hclear, hset⟩ := even_bits heven
  rw [hset] at hlow
  rw [hclear, hlow] at hhigh
  have heq : (2 * lane + 1) / 2 = lane := by omega
  have hodd : (2 * lane + 1) % 2 = 1 := by omega
  have hne : (bes p).toNat ≠ (bes (p + 1#32)).toNat := by omega
  simp only [execute, State.writeMemU16, State.writeMemU8, hostByte_mes, byteFromHalfWords, hlow,
    hhigh, heq, if_pos hodd, Nat.mul_mod_right, if_neg Nat.zero_ne_one,
    Nat.mul_div_cancel_left lane Nat.two_pos]
  rw [Function.update_comm hne]

theorem sdv_paths {e : Nat} {a : BitVec 32} (he : e % 2 = 0) (hle : e ≤ 8)
    (ha : (masked a).toNat % 2 = 0) :
    (sdvHalves rt e a).foldl execute s = (sdvBytes rt e a).foldl execute s := by
  rw [toNat_masked] at ha
  have hrange : List.range 8 = (List.range 4).flatMap fun i => [2 * i, 2 * i + 1] := rfl
  rw [sdvHalves, sdvBytes, hrange, List.map_flatMap, List.foldl_flatMap, List.foldl_map]
  refine List.foldl_ext _ _ _ fun t i hi => ?_
  have hlt := List.mem_range.mp hi
  have heven : (a + BitVec.ofNat 32 (2 * i)).toNat % 2 = 0 := by
    rw [BitVec.toNat_add, BitVec.toNat_ofNat]
    omega
  have hmasked : (masked (a + BitVec.ofNat 32 (2 * i))).toNat % 2 = 0 := by
    rw [toNat_masked]
    omega
  have hnext : masked (a + BitVec.ofNat 32 (2 * i + 1)) =
      masked (a + BitVec.ofNat 32 (2 * i)) + 1#32 := by
    rw [masked_add_one _ heven, BitVec.ofNat_add, ← BitVec.add_assoc]
  rw [masked_masked_add, execute_storeHalf t rt _ hmasked]
  simp only [List.map_cons, List.map_nil, List.foldl_cons, List.foldl_nil, masked_masked_add, hnext]
  rw [show (e + 2 * i) % 16 = 2 * (e / 2 + i) by omega,
    show (e + (2 * i + 1)) % 16 = 2 * (e / 2 + i) + 1 by omega]

end Halves

section Transpose

variable (s : State) (rt : Nat) (a : BitVec 32)

def storeTurned : State :=
  (List.range 8).foldl (fun t m => runAt t .stv rt (2 * m) (a + BitVec.ofNat 32 (16 * m))) s

def loadTurned : State :=
  (List.range 8).foldl
    (fun t m => runAt t .ltv rt ((16 - 2 * m) % 16) (a + BitVec.ofNat 32 (16 * m))) s

def grid : List (Nat × Nat) := (List.range 8).flatMap fun m => (List.range 16).map fun k => (m, k)

theorem mem_grid {x : Nat × Nat} : x ∈ grid ↔ x.1 < 8 ∧ x.2 < 16 := by
  simp only [grid, List.mem_flatMap, List.mem_map, List.mem_range]
  constructor
  · rintro ⟨m, hm, k, hk, rfl⟩
    exact ⟨hm, hk⟩
  · exact fun h => ⟨x.1, h.1, x.2, h.2, rfl⟩

def turned (x : Nat × Nat) : Nat := (16 - 2 * x.1 + x.2) % 16

def turnedPlace (x : Nat × Nat) : BitVec 32 :=
  masked (a + BitVec.ofNat 32 (16 * x.1 + turned x))

variable {a}

theorem toNat_row_address (ha : a.toNat % 16 = 0) (m : Nat) :
    (a + BitVec.ofNat 32 (16 * m)).toNat % 16 = 0 := by
  rw [BitVec.toNat_add, BitVec.toNat_ofNat]
  generalize a.toNat = n at ha
  omega

theorem turnedPlace_eq (ha : a.toNat % 16 = 0) {m k : Nat} {x : BitVec 32}
    (hx : x.toNat % 16 = turned (m, k)) :
    (masked (a + BitVec.ofNat 32 (16 * m)) &&& ~~~7#32) + (x &&& 15#32) =
      turnedPlace a (m, k) := by
  have hzero := toNat_row_address ha m
  have hlt : turned (m, k) < 16 := Nat.mod_lt _ (by decide)
  apply BitVec.eq_of_toNat_eq
  rw [toNat_masked_row, hx, turnedPlace, toNat_masked, toNat_masked]
  rw [BitVec.toNat_add, BitVec.toNat_ofNat] at hzero ⊢
  rw [BitVec.toNat_add, BitVec.toNat_ofNat]
  generalize a.toNat = n at ha hzero
  generalize turned (m, k) = t at hlt
  omega

theorem stv_row (ha : a.toNat % 16 = 0) {m : Nat} (hm : m < 8) :
    Ls.stv rt (2 * m) (a + BitVec.ofNat 32 (16 * m)) =
      (List.range 16).map fun k =>
        storeByte (turnedPlace a (m, k)) (rt / 8 * 8 + k / 2) (turned (m, k)) := by
  have hzero := toNat_row_address ha m
  have heven : 2 * m / 2 * 2 = 2 * m := by omega
  have hlow := toNat_and_mask (masked (a + BitVec.ofNat 32 (16 * m))) 7#32 3 rfl
  rw [toNat_masked] at hlow
  rw [Ls.stv, heven]
  refine List.map_congr_left fun k hk => ?_
  have hk := List.mem_range.mp hk
  rw [storeByte.injEq]
  refine ⟨turnedPlace_eq ha ?_, rfl, rfl⟩
  rw [BitVec.toNat_add, BitVec.toNat_sub, hlow, BitVec.toNat_ofNat, BitVec.toNat_ofNat, turned]
  generalize (a + BitVec.ofNat 32 (16 * m)).toNat = n at hzero
  omega

theorem ltv_row (ha : a.toNat % 16 = 0) {m : Nat} (hm : m < 8) :
    Ls.ltv rt ((16 - 2 * m) % 16) (a + BitVec.ofNat 32 (16 * m)) =
      (List.range 16).map fun k =>
        loadByte (turnedPlace a (m, k)) (rt / 8 * 8 + turned (m, k) / 2) k := by
  have hzero := toNat_row_address ha m
  have hfifteen : (a + BitVec.ofNat 32 (16 * m)) &&& 15#32 = 0#32 :=
    BitVec.eq_of_toNat_eq ((toNat_and_mask _ 15#32 4 rfl).trans hzero)
  have height : (a + BitVec.ofNat 32 (16 * m)) &&& 8#32 = 0#32 := by
    rw [show 8#32 = 15#32 &&& 8#32 from rfl, ← BitVec.and_assoc, hfifteen]
    rfl
  rw [ltv_eq, height]
  refine List.map_congr_left fun k hk => ?_
  have hk := List.mem_range.mp hk
  rw [loadByte.injEq]
  refine ⟨?_, ?_, by omega⟩
  · rw [← masked_row, turnedPlace_eq ha, turnedPlace, masked_masked]
    rw [BitVec.add_zero, BitVec.toNat_add, BitVec.toNat_ofNat, BitVec.toNat_ofNat, turned]
    omega
  · rw [turned]
    omega

theorem storeTurned_eq (ha : a.toNat % 16 = 0) :
    storeTurned s rt a = (grid.map fun x =>
      storeByte (turnedPlace a x) (rt / 8 * 8 + x.2 / 2) (turned x)).foldl execute s := by
  rw [grid, List.map_flatMap, List.foldl_flatMap, storeTurned]
  refine List.foldl_ext _ _ _ fun t m hm => ?_
  rw [List.map_map, runAt, VectorOp.accesses, stv_row rt ha (List.mem_range.mp hm)]
  rfl

theorem loadTurned_eq (ha : a.toNat % 16 = 0) :
    loadTurned s rt a = (grid.map fun x =>
      loadByte (turnedPlace a x) (rt / 8 * 8 + turned x / 2) x.2).foldl execute s := by
  rw [grid, List.map_flatMap, List.foldl_flatMap, loadTurned]
  refine List.foldl_ext _ _ _ fun t m hm => ?_
  rw [List.map_map, runAt, VectorOp.accesses, ltv_row rt ha (List.mem_range.mp hm)]
  rfl

theorem eq_of_turned {x y : Nat × Nat} (hx : x ∈ grid) (hy : y ∈ grid) (hrow : y.1 = x.1)
    (h : turned y = turned x) : y = x := by
  have hxlt := mem_grid.mp hx
  have hylt := mem_grid.mp hy
  rw [turned, turned, hrow] at h
  exact Prod.ext hrow (by omega)

theorem transpose_spec (ha : a.toNat % 16 = 0) {r c : Nat} (hr : r < 8) (hc : c < 8) :
    (loadTurned (storeTurned s rt a) rt a).regs (rt / 8 * 8 + r) c =
      s.regs (rt / 8 * 8 + c) r := by
  have hstores := stores_spec grid (turnedPlace a) (fun x => rt / 8 * 8 + x.2 / 2) turned
    (fun x hx y hy h => by
      have hxt : turned x < 16 := Nat.mod_lt _ (by decide)
      have hyt : turned y < 16 := Nat.mod_lt _ (by decide)
      have hxlt := mem_grid.mp hx
      have hylt := mem_grid.mp hy
      have hsame := bes_masked_inj a (by omega) (by omega) h
      exact eq_of_turned hx hy (by omega) (by omega)) s
  have hloads := loads_spec grid (turnedPlace a) (fun x => rt / 8 * 8 + turned x / 2) Prod.snd
    (fun x hx y hy hreg hbyte => by
      have hxlt := mem_grid.mp hx
      have hylt := mem_grid.mp hy
      rw [turned, turned, hbyte] at hreg
      exact Prod.ext (by omega) hbyte) (storeTurned s rt a)
  rw [← storeTurned_eq s rt ha] at hstores
  rw [← loadTurned_eq (storeTurned s rt a) rt ha] at hloads
  have hbyte (half : Nat) (hhalf : half < 2) :
      byteFromHalfWords ((loadTurned (storeTurned s rt a) rt a).regs (rt / 8 * 8 + r))
          (2 * c + half) = byteFromHalfWords (s.regs (rt / 8 * 8 + c)) (2 * r + half) := by
    have hx : ((8 + c - r) % 8, 2 * c + half) ∈ grid := mem_grid.mpr ⟨by omega, by omega⟩
    have hturned : turned ((8 + c - r) % 8, 2 * c + half) = 2 * r + half := by
      rw [turned]
      omega
    have hload := hloads.1 _ hx
    have hstore := hstores.1 _ hx
    rw [hturned] at hload hstore
    have hreg : (2 * r + half) / 2 = r := by omega
    have hlane : (2 * c + half) / 2 = c := by omega
    simp only [hreg, hlane] at hload hstore
    exact hload.trans hstore
  rw [lane_eq ((loadTurned (storeTurned s rt a) rt a).regs (rt / 8 * 8 + r)) c,
    lane_eq (s.regs (rt / 8 * 8 + c)) r]
  exact congrArg₂ _ (hbyte 0 (by decide)) (hbyte 1 (by decide))

end Transpose

/-- The pair of loads fills a register with the 16 bytes from an address on, and changes nothing
else. -/
def LoadsPair (s : State) (rt : Nat) (a : BitVec 32) : Prop :=
  (∀ lane < 8, (loadPair s rt a).regs rt lane =
      s.byteAt (a + BitVec.ofNat 32 (2 * lane)) ++ s.byteAt (a + BitVec.ofNat 32 (2 * lane + 1))) ∧
    (∀ r, r ≠ rt → (loadPair s rt a).regs r = s.regs r) ∧ (loadPair s rt a).dmem = s.dmem

/-- The pair of stores puts a register into the 16 bytes from an address on, and changes nothing
else. -/
def StoresPair (s : State) (rt : Nat) (a : BitVec 32) : Prop :=
  (∀ lane < 8, (storePair s rt a).byteAt (a + BitVec.ofNat 32 (2 * lane)) ++
      (storePair s rt a).byteAt (a + BitVec.ofNat 32 (2 * lane + 1)) = s.regs rt lane) ∧
    (∀ j, (∀ i < 16, (bes (masked (a + BitVec.ofNat 32 i))).toNat ≠ j) →
      (storePair s rt a).dmem j = s.dmem j) ∧ (storePair s rt a).regs = s.regs

theorem loadsPair (s : State) (rt : Nat) (a : BitVec 32) : LoadsPair s rt a := by
  obtain ⟨hbytes, hregs, hdmem⟩ := loadPair_spec s rt a
  refine ⟨fun lane hlane => ?_, hregs, hdmem⟩
  rw [lane_eq ((loadPair s rt a).regs rt) lane, hbytes _ (by omega), hbytes _ (by omega)]

theorem storesPair (s : State) (rt : Nat) (a : BitVec 32) : StoresPair s rt a := by
  obtain ⟨hbytes, hdmem, hregs⟩ := storePair_spec s rt a
  refine ⟨fun lane hlane => ?_, hdmem, hregs⟩
  rw [hbytes _ (by omega), hbytes _ (by omega)]
  exact (lane_eq (s.regs rt) lane).symm

/-- Unaligned pairs load, store and return a register, the paths of `SDV` agree, and turned rows
transpose a group of registers. -/
theorem pairs_and_transpose (s : State) (rt rt' : BitVec 5) (a : BitVec 32) :
    LoadsPair s rt.toNat a ∧ StoresPair s rt.toNat a ∧
      (∀ lane < 8, (loadPair (storePair s rt.toNat a) rt'.toNat a).regs rt'.toNat lane =
        s.regs rt.toNat lane) ∧
      (∀ e, e % 2 = 0 → e ≤ 8 → (masked a).toNat % 2 = 0 →
        (sdvHalves rt.toNat e a).foldl execute s = (sdvBytes rt.toNat e a).foldl execute s) ∧
      (a.toNat % 16 = 0 → ∀ r < 8, ∀ c < 8,
        (loadTurned (storeTurned s rt.toNat a) rt.toNat a).regs (rt.toNat / 8 * 8 + r) c =
          s.regs (rt.toNat / 8 * 8 + c) r) := by
  refine ⟨loadsPair s _ a, storesPair s _ a, fun lane hlane => ?_,
    fun e he hle ha => sdv_paths s _ he hle ha,
    fun ha r hr c hc => transpose_spec s _ ha hr hc⟩
  exact ((loadsPair _ rt'.toNat a).1 lane hlane).trans ((storesPair s rt.toNat a).1 lane hlane)

def numbered : State :=
  ⟨fun _ => 0, fun _ => 0, fun reg lane => BitVec.ofNat 16 (8 * reg + lane), fun _ => 0⟩

/-- Rows that go on at the start of data memory. -/
theorem pairs_and_transpose_numbered :
    (loadTurned (storeTurned numbered (3#5).toNat 0xFE0#32) (3#5).toNat 0xFE0#32).regs
      ((3#5).toNat / 8 * 8 + 1) 2 = 17#16 :=
  (pairs_and_transpose numbered 3#5 3#5 0xFE0#32).2.2.2.2 (by decide) 1 (by decide) 2 (by decide)

end ParallelN64.Rsp.Ls
