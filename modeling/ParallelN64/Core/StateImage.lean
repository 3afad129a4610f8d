import Mathlib.Data.List.GetD
import Mathlib.Data.List.OfFn
import ParallelN64.Core.Layout

/-!
# The image of a state, written and read in steps

A writer puts arrays of little-endian integers one after the other and may change the state in
between. A reader takes arrays, skips bytes, or changes the state. The two are written
independently; a reader undoes a writer when, on the bytes of a state, it restores what it says it
restores.
-/

namespace ParallelN64.Core

/-- The bytes of a buffer. -/
abbrev Memory := Nat → UInt8

/-- The bytes from a place on. -/
def readBytes (mem : Memory) : Nat → Nat → Bytes
  | _, 0 => []
  | start, n + 1 => mem start :: readBytes mem (start + 1) n

variable (mem : Memory) {start : Nat} {bs : Bytes} {width count : Nat}

@[simp] theorem length_readBytes (start n : Nat) : (readBytes mem start n).length = n := by
  induction n generalizing start with
  | zero => rfl
  | succ n ih => rw [readBytes, List.length_cons, ih]

theorem readBytes_add (start m n : Nat) :
    readBytes mem start (m + n) = readBytes mem start m ++ readBytes mem (start + m) n := by
  induction m generalizing start with
  | zero => rw [Nat.zero_add, Nat.add_zero, readBytes, List.nil_append]
  | succ m ih =>
    rw [Nat.succ_add, readBytes, readBytes, ih, List.cons_append, Nat.add_right_comm, Nat.add_assoc]

/-- The bytes stand in the buffer. -/
def Holds (mem : Memory) (start : Nat) (bs : Bytes) : Prop := readBytes mem start bs.length = bs

theorem holds_append_iff {mem : Memory} {as : Bytes} :
    Holds mem start (as ++ bs) ↔ Holds mem start as ∧ Holds mem (start + as.length) bs := by
  rw [Holds, List.length_append, readBytes_add, Holds, Holds]
  constructor
  · intro h
    exact List.append_inj h (length_readBytes mem start as.length)
  · rintro ⟨has, hbs⟩
    rw [has, hbs]

theorem readAt_readBytes {total offset size : Nat} (h : offset + size ≤ total) :
    readAt (readBytes mem start total) offset size =
      some (readBytes mem (start + offset) size) := by
  obtain ⟨rest, rfl⟩ := Nat.exists_eq_add_of_le h
  rw [readAt_eq_some]
  constructor
  · rw [length_readBytes]
    exact Nat.le_add_right _ _
  · rw [readBytes_add, readBytes_add, List.append_assoc,
      List.drop_left' (length_readBytes mem start offset),
      List.take_left' (length_readBytes mem (start + offset) size)]

theorem Holds.congr {mem mem' : Memory} (h : Holds mem start bs)
    (hagree : ∀ address, start ≤ address → address < start + bs.length →
      mem' address = mem address) : Holds mem' start bs := by
  induction bs generalizing start with
  | nil => rfl
  | cons b bs ih =>
    obtain ⟨hhead, htail⟩ := List.cons.inj h
    have hlength : (b :: bs).length = bs.length + 1 := rfl
    have hrest : Holds mem' (start + 1) bs :=
      ih htail fun address hle hlt => hagree address (by omega) (by omega)
    rw [Holds, List.length_cons, readBytes, hagree start (le_refl start) (by omega), hhead]
    exact congrArg (b :: ·) hrest

/-- Writes bytes from a place on. -/
def writeBytes (mem : Memory) (start : Nat) (bs : Bytes) : Memory := fun address =>
  if start ≤ address then bs.getD (address - start) (mem address) else mem address

theorem writeBytes_of_lt {mem : Memory} {address : Nat} (h : address < start) :
    writeBytes mem start bs address = mem address :=
  if_neg (Nat.not_le.mpr h)

theorem writeBytes_of_ge {mem : Memory} {address : Nat} (h : start + bs.length ≤ address) :
    writeBytes mem start bs address = mem address := by
  rw [writeBytes, if_pos (by omega), List.getD_eq_getElem?_getD, List.getElem?_eq_none (by omega),
    Option.getD_none]

theorem holds_writeBytes (start : Nat) (bs : Bytes) : Holds (writeBytes mem start bs) start bs := by
  induction bs generalizing mem start with
  | nil => rfl
  | cons b bs ih =>
    have hhead : writeBytes mem start (b :: bs) start = b := by
      rw [writeBytes, if_pos (le_refl start), Nat.sub_self, List.getD_cons_zero]
    have htail : writeBytes mem start (b :: bs) =
        writeBytes (Function.update mem start b) (start + 1) bs := by
      funext address
      rcases Nat.lt_trichotomy address start with hlt | rfl | hgt
      · rw [writeBytes_of_lt hlt, writeBytes_of_lt (by omega),
          Function.update_of_ne (by omega)]
      · rw [hhead, writeBytes_of_lt (Nat.lt_succ_self _), Function.update_self]
      · obtain ⟨k, rfl⟩ := Nat.exists_eq_add_of_lt hgt
        have hsub : start + k + 1 - start = k + 1 := by omega
        have hsub' : start + k + 1 - (start + 1) = k := by omega
        rw [writeBytes, if_pos (by omega), writeBytes, if_pos (by omega), hsub, hsub',
          List.getD_cons_succ, Function.update_of_ne (by omega)]
    rw [Holds, List.length_cons, readBytes, hhead, htail]
    exact congrArg (b :: ·) (ih _ _)

theorem writeBytes_append (start : Nat) (as bs : Bytes) :
    writeBytes (writeBytes mem start as) (start + as.length) bs =
      writeBytes mem start (as ++ bs) := by
  funext address
  rcases Nat.lt_or_ge address start with hlt | hge
  · rw [writeBytes_of_lt (by omega), writeBytes_of_lt hlt, writeBytes_of_lt hlt]
  · obtain ⟨k, rfl⟩ := Nat.exists_eq_add_of_le hge
    rcases Nat.lt_or_ge k as.length with hk | hk
    · rw [writeBytes_of_lt (by omega), writeBytes, if_pos hge, writeBytes, if_pos hge,
        Nat.add_sub_cancel_left, List.getD_append _ _ _ _ hk]
    · rw [writeBytes, if_pos (by omega), writeBytes_of_ge (by omega), writeBytes, if_pos hge,
        Nat.add_sub_cancel_left, Nat.add_sub_add_left, List.getD_append_right _ _ _ _ hk]

/-- The bytes of an array of words. -/
def encodeArray (width : Nat) {count : Nat} (source : Fin count → BitVec (8 * width)) : Bytes :=
  (List.ofFn fun i => encodeLE width (source i).toNat).flatten

/-- The word at a place. -/
def decodeInt (mem : Memory) (start width : Nat) : BitVec (8 * width) :=
  BitVec.ofNat (8 * width) (decodeLE (readBytes mem start width))

/-- The words from a place on. -/
def decodeArray (mem : Memory) (start width count : Nat) : Fin count → BitVec (8 * width) :=
  fun i => decodeInt mem (start + i * width) width

theorem length_of_mem_encodeRows {source : Fin count → BitVec (8 * width)} :
    ∀ row ∈ List.ofFn fun i => encodeLE width (source i).toNat, row.length = width := by
  intro row hrow
  obtain ⟨i, rfl⟩ := (List.mem_ofFn' _ _).mp hrow
  exact length_encodeLE width _

@[simp] theorem length_encodeArray (source : Fin count → BitVec (8 * width)) :
    (encodeArray width source).length = count * width := by
  rw [encodeArray, length_flatten_of_length length_of_mem_encodeRows, List.length_ofFn]

theorem decodeArray_of_holds {mem : Memory} {source : Fin count → BitVec (8 * width)}
    (h : Holds mem start (encodeArray width source)) :
    decodeArray mem start width count = source := by
  funext i
  have hbound : (i : Nat) * width + width ≤ count * width := by
    rw [← Nat.succ_mul]
    exact Nat.mul_le_mul_right width i.isLt
  have hrow : readBytes mem (start + i * width) width = encodeLE width (source i).toNat := by
    have hread := @readAt_readBytes mem start _ _ _ hbound
    rw [Holds, length_encodeArray] at h
    have hi : (i : Nat) < (List.ofFn fun i => encodeLE width (source i).toNat).length := by
      rw [List.length_ofFn]
      exact i.isLt
    have htable := @readAt_table [] [] _ width i length_of_mem_encodeRows hi
    rw [List.nil_append, List.append_nil, List.length_nil, Nat.zero_add, List.getElem_ofFn] at htable
    rw [h, encodeArray, htable] at hread
    exact (Option.some.inj hread).symm
  have hlt : (source i).toNat < 256 ^ width := by
    have hbits := (source i).isLt
    rwa [Nat.pow_mul] at hbits
  rw [decodeArray, decodeInt, hrow, decodeLE_encodeLE hlt, BitVec.ofNat_toNat, BitVec.setWidth_eq]

variable {σ ρ : Type*}

/-- One step of a writer. -/
inductive SaveStep (σ : Type*) where
  | array (width count : Nat) (source : σ → Fin count → BitVec (8 * width))
  | act (change : σ → σ)

/-- One step of a reader. -/
inductive LoadStep (σ : Type*) where
  | array (width count : Nat) (store : (Fin count → BitVec (8 * width)) → σ → σ)
  | skip (bytes : Nat)
  | act (change : σ → σ)

/-- Saves one word. -/
def SaveStep.data (width : Nat) (value : σ → BitVec (8 * width)) : SaveStep σ :=
  .array width 1 fun s _ => value s

/-- Loads one word. -/
def LoadStep.data (width : Nat) (store : BitVec (8 * width) → σ → σ) : LoadStep σ :=
  .array width 1 fun values => store (values 0)

/-- The bytes a step takes. -/
def SaveStep.size : SaveStep σ → Nat
  | .array width count _ => count * width
  | .act _ => 0

/-- The bytes a step writes. -/
def SaveStep.bytes : SaveStep σ → σ → Bytes
  | .array width _ source, s => encodeArray width (source s)
  | .act _, _ => []

/-- The state after a step. -/
def SaveStep.next : SaveStep σ → σ → σ
  | .array _ _ _, s => s
  | .act change, s => change s

@[simp] theorem SaveStep.length_bytes (step : SaveStep σ) (s : σ) :
    (step.bytes s).length = step.size := by
  cases step with
  | array width count source => exact length_encodeArray _
  | act change => rfl

/-- The bytes all steps take. -/
def totalSize (steps : List (SaveStep σ)) : Nat := (steps.map SaveStep.size).sum

/-- The bytes all steps write. -/
def written : List (SaveStep σ) → σ → Bytes
  | [], _ => []
  | step :: rest, s => step.bytes s ++ written rest (step.next s)

/-- The state after all steps. -/
def finish (steps : List (SaveStep σ)) (s : σ) : σ := steps.foldl (fun s step => step.next s) s

@[simp] theorem length_written (steps : List (SaveStep σ)) (s : σ) :
    (written steps s).length = totalSize steps := by
  induction steps generalizing s with
  | nil => rfl
  | cons step rest ih =>
    rw [written, List.length_append, SaveStep.length_bytes, ih, totalSize, totalSize, List.map_cons,
      List.sum_cons]

theorem totalSize_append (first rest : List (SaveStep σ)) :
    totalSize (first ++ rest) = totalSize first + totalSize rest := by
  rw [totalSize, List.map_append, List.sum_append, totalSize, totalSize]

/-- The image of two lists of steps is the images one after the other. -/
theorem written_append (first rest : List (SaveStep σ)) (s : σ) :
    written (first ++ rest) s = written first s ++ written rest (finish first s) := by
  induction first generalizing s with
  | nil => rfl
  | cons step first ih =>
    rw [List.cons_append, written, written, ih, List.append_assoc]
    rfl

theorem finish_append (first rest : List (SaveStep σ)) (s : σ) :
    finish (first ++ rest) s = finish rest (finish first s) :=
  List.foldl_append

/-- One step of a reader: the state and the address of the cursor. -/
def LoadStep.run (mem : Memory) (step : LoadStep σ) (p : σ × Nat) : σ × Nat :=
  match step with
  | .array width count store => (store (decodeArray mem p.2 width count) p.1, p.2 + count * width)
  | .skip bytes => (p.1, p.2 + bytes)
  | .act change => (change p.1, p.2)

/-- Runs the steps from a place on. -/
def load (mem : Memory) (steps : List (LoadStep σ)) (p : σ × Nat) : σ × Nat :=
  steps.foldl (fun p step => step.run mem p) p

/-- The bytes a step passes. -/
def LoadStep.size : LoadStep σ → Nat
  | .array width count _ => count * width
  | .skip bytes => bytes
  | .act _ => 0

theorem load_snd (steps : List (LoadStep σ)) (p : σ × Nat) :
    (load mem steps p).2 = p.2 + (steps.map LoadStep.size).sum := by
  induction steps generalizing p with
  | nil => rfl
  | cons step rest ih =>
    have hstep : (step.run mem p).2 = p.2 + step.size := by
      cases step with
      | _ => rfl
    rw [load, List.foldl_cons, ← load, ih, hstep, List.map_cons, List.sum_cons, Nat.add_assoc]

theorem load_append (first rest : List (LoadStep σ)) (p : σ × Nat) :
    load mem (first ++ rest) p = load mem rest (load mem first p) :=
  List.foldl_append

/-- On the bytes of a state, which the writer leaves as it was, the reader restores something of
that state and comes to the end of the bytes. -/
def Undoes (saves : List (SaveStep σ)) (loads : List (LoadStep σ)) (restore : σ → σ → σ) : Prop :=
  ∀ s, finish saves s = s ∧ ∀ t mem start, Holds mem start (written saves s) →
    load mem loads (t, start) = (restore s t, start + totalSize saves)

section Undoes

variable {saves saves' : List (SaveStep σ)} {loads loads' : List (LoadStep σ)}
  {restore restore' : σ → σ → σ}

theorem Undoes.congr (h : Undoes saves loads restore) (heq : ∀ s t, restore s t = restore' s t) :
    Undoes saves loads restore' := by
  intro s
  obtain ⟨hfinish, hload⟩ := h s
  refine ⟨hfinish, fun t mem start hholds => ?_⟩
  rw [← heq]
  exact hload t mem start hholds

theorem Undoes.nil : Undoes (σ := σ) [] [] fun _ t => t :=
  fun _ => ⟨rfl, fun _ _ _ _ => rfl⟩

/-- Loading part by part undoes saving part by part. -/
theorem Undoes.append (h : Undoes saves loads restore) (h' : Undoes saves' loads' restore') :
    Undoes (saves ++ saves') (loads ++ loads') fun s t => restore' s (restore s t) := by
  intro s
  obtain ⟨hfinish, hload⟩ := h s
  obtain ⟨hfinish', hload'⟩ := h' s
  refine ⟨by rw [finish_append, hfinish, hfinish'], fun t mem start hholds => ?_⟩
  rw [written_append, hfinish, holds_append_iff, length_written] at hholds
  rw [load_append, hload t mem start hholds.1, hload' _ mem _ hholds.2, totalSize_append,
    Nat.add_assoc]

theorem Undoes.array (width count : Nat) (source : σ → Fin count → BitVec (8 * width))
    (store : (Fin count → BitVec (8 * width)) → σ → σ) :
    Undoes [.array width count source] [.array width count store]
      fun s t => store (source s) t := by
  refine fun s => ⟨rfl, fun t mem start hholds => ?_⟩
  rw [written, written, List.append_nil] at hholds
  have hdecode : decodeArray mem start width count = source s := decodeArray_of_holds hholds
  rw [load, List.foldl_cons, List.foldl_nil, LoadStep.run, hdecode]
  rfl

theorem Undoes.data (width : Nat) (value : σ → BitVec (8 * width))
    (store : BitVec (8 * width) → σ → σ) :
    Undoes [.data width value] [.data width store] fun s t => store (value s) t :=
  Undoes.array width 1 _ _

theorem Undoes.skip (saves : List (SaveStep σ)) {bytes : Nat} (hsize : totalSize saves = bytes)
    (hfinish : ∀ s, finish saves s = s) : Undoes saves [.skip bytes] fun _ t => t := by
  subst hsize
  exact fun s => ⟨hfinish s, fun _ _ _ _ => rfl⟩

theorem Undoes.act (change : σ → σ) : Undoes [] [.act change] fun _ t => change t :=
  fun _ => ⟨rfl, fun _ _ _ _ => rfl⟩

theorem Undoes.registers (width : Nat) (get : σ → ρ → BitVec (8 * width))
    (set : ρ → BitVec (8 * width) → σ → σ) {sources targets : List ρ}
    (hlength : sources.length = targets.length) :
    Undoes (sources.map fun r => .data width fun s => get s r)
      (targets.map fun r => .data width (set r))
      fun s t => (sources.zip targets).foldl (fun t p => set p.2 (get s p.1) t) t := by
  induction sources generalizing targets with
  | nil =>
    obtain rfl : targets = [] := List.length_eq_zero_iff.mp hlength.symm
    exact Undoes.nil
  | cons source sources ih =>
    cases targets with
    | nil => exact absurd hlength (Nat.succ_ne_zero _)
    | cons target targets =>
      have hhead := Undoes.data width (fun s => get s source) (set target)
      exact hhead.append (ih (Nat.succ.inj hlength))

theorem Undoes.flatMap {ι : Type*} {saves : ι → List (SaveStep σ)} {loads : ι → List (LoadStep σ)}
    {restore : ι → σ → σ → σ} (h : ∀ i, Undoes (saves i) (loads i) (restore i)) (l : List ι) :
    Undoes (l.flatMap saves) (l.flatMap loads) fun s t => l.foldl (fun t i => restore i s t) t := by
  induction l with
  | nil => exact Undoes.nil
  | cons i l ih =>
    rw [List.flatMap_cons, List.flatMap_cons]
    exact (h i).append ih

end Undoes

/-- A part of a state that can be read and replaced. -/
structure Part (σ α : Type*) where
  get : σ → α
  put : α → σ → σ
  get_put : ∀ a t, get (put a t) = a
  put_put : ∀ a b t, put a (put b t) = put a t
  put_get : ∀ t, put (get t) t = t

/-- A part of a part. -/
def Part.comp {α β : Type*} (outer : Part σ α) (inner : Part α β) : Part σ β where
  get t := inner.get (outer.get t)
  put b t := outer.put (inner.put b (outer.get t)) t
  get_put b t := by rw [outer.get_put, inner.get_put]
  put_put a b t := by rw [outer.get_put, inner.put_put, outer.put_put]
  put_get t := by rw [inner.put_get, outer.put_get]

/-- Changes a part of a state. -/
def Part.modify {α : Type*} (part : Part σ α) (change : α → α) (t : σ) : σ :=
  part.put (change (part.get t)) t

section Part

variable {α : Type*} {part : Part σ α} {saves saves' : List (SaveStep σ)}
  {loads loads' : List (LoadStep σ)} {change change' : σ → α → α}

theorem Part.modify_modify (f g : α → α) (t : σ) :
    part.modify g (part.modify f t) = part.modify (fun a => g (f a)) t := by
  rw [modify, modify, modify, part.get_put, part.put_put]

theorem Part.foldl_modify {ι : Type*} (f : ι → α → α) (l : List ι) (t : σ) :
    l.foldl (fun t i => part.modify (f i) t) t =
      part.modify (fun a => l.foldl (fun a i => f i a) a) t := by
  induction l generalizing t with
  | nil => exact (part.put_get t).symm
  | cons i l ih => rw [List.foldl_cons, ih, Part.modify_modify]; rfl

theorem Undoes.append_modify (h : Undoes saves loads fun s => part.modify (change s))
    (h' : Undoes saves' loads' fun s => part.modify (change' s)) :
    Undoes (saves ++ saves') (loads ++ loads')
      fun s => part.modify fun a => change' s (change s a) :=
  (h.append h').congr fun _ _ => Part.modify_modify _ _ _

theorem Undoes.skip_modify (h : Undoes saves loads fun _ t => t) :
    Undoes saves loads fun _ => part.modify fun a => a :=
  h.congr fun _ t => (part.put_get t).symm

theorem Undoes.congr_modify (h : Undoes saves loads fun s => part.modify (change s))
    (heq : ∀ s a, change s a = change' s a) : Undoes saves loads fun s => part.modify (change' s) :=
  h.congr fun s t => by rw [Part.modify, Part.modify, heq]

end Part

end ParallelN64.Core
