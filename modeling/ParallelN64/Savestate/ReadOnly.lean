import ParallelN64.R4300.Interpreter
import ParallelN64.Savestate.Writer

/-!
# Saving as a read-only operation

A writer that fits puts all its bytes; one that does not stops in front of the first field
that does not fit, with the machine as it is there. Between unpacking and packing the
floating point registers the machine is not what it was.
-/

namespace ParallelN64.Savestate

open R4300 ParallelN64.Core

def SavestateWriter.put (writer : SavestateWriter) (bs : Bytes) : SavestateWriter :=
  { writer with
    data := writer.data.map fun mem => writeBytes mem writer.offset bs
    offset := writer.offset + bs.length }

theorem SavestateWriter.put_nil (writer : SavestateWriter) : writer.put [] = writer := by
  have hwrite (mem : Memory) : writeBytes mem writer.offset [] = mem := by
    funext address
    rcases Nat.lt_or_ge address writer.offset with hlt | hge
    · exact writeBytes_of_lt hlt
    · exact writeBytes_of_ge hge
  obtain ⟨data, offset, capacity⟩ := writer
  simp [put, hwrite]

theorem SavestateWriter.put_append (writer : SavestateWriter) (as bs : Bytes) :
    (writer.put as).put bs = writer.put (as ++ bs) := by
  obtain ⟨data, offset, capacity⟩ := writer
  simp [put, Function.comp_def, writeBytes_append, Nat.add_assoc]

section Writing

variable {writer : SavestateWriter} {width count : Nat} {src : Bytes}

theorem SavestateWriter.putArray_of_le (hcap : writer.capacity ≤ sizeMax)
    (hsrc : src.length = count * width)
    (hfit : writer.offset + count * width ≤ writer.capacity) :
    writer.putArray width count src = some (writer.put src) := by
  have hover : ¬(count ≠ 0 ∧ sizeMax / count < width) := by
    rintro ⟨hcount, hlt⟩
    rw [Nat.div_lt_iff_lt_mul (Nat.pos_of_ne_zero hcount), Nat.mul_comm] at hlt
    omega
  rw [putArray, if_neg hover, if_neg (by rw [Nat.mul_comm]; omega), put, hsrc, Nat.mul_comm width]

theorem SavestateWriter.putArray_eq_some {writer' : SavestateWriter}
    (hsrc : src.length = count * width) (h : writer.putArray width count src = some writer') :
    writer.offset + count * width ≤ writer.capacity ∧ writer' = writer.put src := by
  rw [putArray] at h
  split at h
  · cases h
  · split at h
    · cases h
    · next hfit =>
      rw [Nat.mul_comm width] at hfit h
      refine ⟨by omega, ?_⟩
      rw [← Option.some.inj h, put, hsrc]

variable {steps : List (SaveStep Machine)} {s : Machine}

theorem writeSteps_of_le (hcap : writer.capacity ≤ sizeMax)
    (hfit : writer.offset + totalSize steps ≤ writer.capacity) :
    writeSteps steps s writer = ⟨true, finish steps s, writer.put (written steps s)⟩ := by
  induction steps generalizing s writer with
  | nil => rw [writeSteps, written, SavestateWriter.put_nil]; rfl
  | cons step rest ih =>
    rw [totalSize, List.map_cons, List.sum_cons, ← totalSize] at hfit
    cases step with
    | array width count source =>
      rw [SaveStep.size] at hfit
      have hput := SavestateWriter.putArray_of_le hcap (length_encodeArray (source s))
        (by omega : writer.offset + count * width ≤ writer.capacity)
      have hoffset : (writer.put (encodeArray width (source s))).offset =
          writer.offset + count * width := by
        rw [SavestateWriter.put, length_encodeArray]
      have hrest := @ih (writer.put (encodeArray width (source s))) s hcap
        (by rw [hoffset, Nat.add_assoc]; exact hfit)
      rw [SavestateWriter.put_append] at hrest
      rw [writeSteps, hput]
      exact hrest
    | act change =>
      rw [SaveStep.size, Nat.zero_add] at hfit
      rw [writeSteps, ih hcap hfit]
      rfl

theorem machine_writeSteps (hquiet : ∀ step ∈ steps, ∀ s, step.next s = s) :
    (writeSteps steps s writer).machine = s := by
  induction steps generalizing s writer with
  | nil => rfl
  | cons step rest ih =>
    have hrest := fun step hstep => hquiet step (List.mem_cons_of_mem _ hstep)
    cases step with
    | array width count source =>
      rw [writeSteps]
      split
      · rfl
      · exact ih hrest
    | act change =>
      have hchange : change s = s := hquiet _ List.mem_cons_self s
      rw [writeSteps, hchange]
      exact ih hrest

theorem data_writeSteps {mem : Memory} (hdata : writer.data = some mem) :
    ∃ mem', (writeSteps steps s writer).writer.data = some mem' ∧
      ∀ address, writer.capacity ≤ address → mem' address = mem address := by
  induction steps generalizing s writer mem with
  | nil => exact ⟨mem, hdata, fun _ _ => rfl⟩
  | cons step rest ih =>
    cases step with
    | array width count source =>
      rw [writeSteps]
      split
      · exact ⟨mem, hdata, fun _ _ => rfl⟩
      · next writer' hput =>
        have hlength := length_encodeArray (source s)
        obtain ⟨hfit, rfl⟩ := SavestateWriter.putArray_eq_some hlength hput
        have hput' : (writer.put (encodeArray width (source s))).data =
            some (writeBytes mem writer.offset (encodeArray width (source s))) := by
          rw [SavestateWriter.put, hdata, Option.map_some]
        obtain ⟨mem', hmem', hrest⟩ := ih hput'
        refine ⟨mem', hmem', fun address haddress => (hrest address haddress).trans ?_⟩
        exact writeBytes_of_ge (by omega)
    | act change => exact ih hdata

theorem writeSteps_append (first rest : List (SaveStep Machine)) :
    writeSteps (first ++ rest) s writer =
      if (writeSteps first s writer).ok then
        writeSteps rest (writeSteps first s writer).machine (writeSteps first s writer).writer
      else writeSteps first s writer := by
  induction first generalizing s writer with
  | nil => rfl
  | cons step first ih =>
    cases step with
    | array width count source =>
      rw [List.cons_append, writeSteps, writeSteps]
      split
      · rfl
      · exact ih
    | act change => exact ih

theorem ok_writeSteps_of_gt (hoffset : writer.offset ≤ writer.capacity)
    (hfit : writer.capacity < writer.offset + totalSize steps) :
    (writeSteps steps s writer).ok = false := by
  induction steps generalizing s writer with
  | nil =>
    have hzero : totalSize ([] : List (SaveStep Machine)) = 0 := rfl
    omega
  | cons step rest ih =>
    rw [totalSize, List.map_cons, List.sum_cons, ← totalSize] at hfit
    cases step with
    | array width count source =>
      rw [writeSteps]
      split
      · rfl
      · next writer' hput =>
        have hlength := length_encodeArray (source s)
        obtain ⟨hle, rfl⟩ := SavestateWriter.putArray_eq_some hlength hput
        have hoffset' : (writer.put (encodeArray width (source s))).offset =
            writer.offset + count * width := by
          rw [SavestateWriter.put, hlength]
        refine ih (hoffset'.trans_le hle) ?_
        rw [hoffset', Nat.add_assoc]
        exact hfit
    | act change =>
      rw [SaveStep.size, Nat.zero_add] at hfit
      exact ih hoffset hfit

end Writing

theorem ofFormat_toFormat (s : Machine) : s.toFormat.ofFormat = s := by
  rw [Machine.toFormat]
  split
  · next hmode =>
    have hunpack : shuffleFprData 0#32 0x04000000#32 s.cp1 = unpackFgr s.cp1 := rfl
    have hpack : shuffleFprData 0x04000000#32 0#32 (unpackFgr s.cp1) = s.cp1 :=
      packFgr_unpackFgr s.cp1
    rw [Machine.ofFormat, if_pos hmode, hunpack, hpack]
  · next hmode => rw [Machine.ofFormat, if_neg hmode]

theorem toFormat_eq_self_iff (s : Machine) :
    s.toFormat = s ↔ s.device.status &&& 0x04000000#32 ≠ 0#32 ∨ unpackFgr s.cp1 = s.cp1 := by
  rw [Machine.toFormat]
  split
  · next hmode =>
    have hunpack : shuffleFprData 0#32 0x04000000#32 s.cp1 = unpackFgr s.cp1 := rfl
    rw [hunpack, hmode]
    constructor
    · exact fun h => Or.inr (congrArg Machine.cp1 h)
    · rintro (h | h)
      · exact absurd rfl h
      · rw [h]
  · next hmode => exact iff_of_true rfl (Or.inl hmode)

def cp1Offset : Nat := 16786348

def cp1Size : Nat := 256

theorem totalSize_saveFront : totalSize saveFront = cp1Offset := by decide +kernel

def SaveStep.isArray {σ : Type*} : SaveStep σ → Bool
  | .array _ _ _ => true
  | .act _ => false

theorem next_of_isArray {step : SaveStep Machine} (h : SaveStep.isArray step = true) (s : Machine) :
    step.next s = s := by
  cases step with
  | array width count source => rfl
  | act change => exact absurd h Bool.false_ne_true

theorem saveFront_quiet : ∀ step ∈ saveFront, ∀ s, step.next s = s := by
  have hall : saveFront.all SaveStep.isArray = true := by decide +kernel
  exact fun step hstep => next_of_isArray (List.all_eq_true.mp hall step hstep)

theorem saveBack_quiet (queue : List Word) :
    ∀ step ∈ saveBack ++ saveQueue queue, ∀ s, step.next s = s := by
  have hall : saveBack.all SaveStep.isArray = true := by decide +kernel
  intro step hstep
  rcases List.mem_append.mp hstep with hback | hqueue
  · exact next_of_isArray (List.all_eq_true.mp hall step hback)
  · obtain rfl := List.mem_singleton.mp hqueue
    exact next_of_isArray rfl

theorem machine_saveCp1 (s : Machine) (queue : List Word) {writer : SavestateWriter}
    (hcap : writer.capacity ≤ sizeMax) :
    (writeSteps (saveCp1 ++ (saveBack ++ saveQueue queue)) s writer).machine =
      if writer.capacity < writer.offset + cp1Size then s.toFormat else s := by
  have hlength : (encodeArray 8 s.toFormat.cp1).length = 32 * 8 := length_encodeArray _
  rw [saveCp1, List.cons_append, writeSteps, List.cons_append, writeSteps]
  split
  · next hput =>
    split
    · rfl
    · next hfit =>
      rw [SavestateWriter.putArray_of_le hcap hlength (Nat.le_of_not_lt hfit)] at hput
      cases hput
  · next writer' hput =>
    obtain ⟨hfit, -⟩ := SavestateWriter.putArray_eq_some hlength hput
    have hroom : ¬writer.capacity < writer.offset + cp1Size := Nat.not_lt.mpr hfit
    rw [if_neg hroom, List.cons_append, writeSteps, ofFormat_toFormat, List.nil_append]
    exact machine_writeSteps (saveBack_quiet queue)

theorem machine_savestatesWriteM64p (s : Machine) {data : Option Memory} {capacity : Nat}
    (hcap : capacity ≤ sizeMax) :
    (s.savestatesWriteM64p ⟨data, 0, capacity⟩).machine =
      if cp1Offset ≤ capacity ∧ capacity < cp1Offset + cp1Size then s.toFormat else s := by
  have hfront : (writeSteps saveFront s ⟨data, 0, capacity⟩).machine = s :=
    machine_writeSteps saveFront_quiet
  rw [Machine.savestatesWriteM64p, writeSteps_append]
  rcases Nat.lt_or_ge capacity cp1Offset with hlt | hge
  · have hshort : capacity < 0 + totalSize saveFront := by
      rw [totalSize_saveFront, Nat.zero_add]
      exact hlt
    rw [ok_writeSteps_of_gt (Nat.zero_le _) hshort, if_neg (by simp), if_neg (by omega)]
    exact hfront
  · have hfit : 0 + totalSize saveFront ≤ capacity := by
      rw [totalSize_saveFront, Nat.zero_add]
      exact hge
    have hwrite := @writeSteps_of_le ⟨data, 0, capacity⟩ saveFront s hcap hfit
    have hoffset : (SavestateWriter.put ⟨data, 0, capacity⟩ (written saveFront s)).offset =
        cp1Offset := by
      rw [SavestateWriter.put, length_written, totalSize_saveFront, Nat.zero_add]
    rw [hwrite] at hfront ⊢
    rw [if_pos rfl, machine_saveCp1 _ _ hcap, hoffset, hfront]
    exact if_congr (by simp only [hge, true_and]; rfl) rfl rfl

theorem machine_savestatesGetM64pSize (s : Machine) : s.savestatesGetM64pSize.2 = s := by
  have hroom : ¬(cp1Offset ≤ sizeMax ∧ sizeMax < cp1Offset + cp1Size) := by decide
  rw [Machine.savestatesGetM64pSize, machine_savestatesWriteM64p s (le_refl sizeMax),
    if_neg hroom]

/-- Saving and asking for the size leave the machine as it was, and nothing is stored behind the
capacity, exactly when the floating point registers are in 64-bit mode, do not depend on the mode,
or their array is not the first field that does not fit. -/
theorem savestatesSaveM64p_readOnly_iff (s : Machine) (data : Option Memory) (size : UInt64) :
    ((s.savestatesSaveM64p data size).machine = s ∧ s.savestatesGetM64pSize.2 = s ∧
        ∀ mem ∈ data, ∃ mem' ∈ (s.savestatesSaveM64p data size).writer.data,
          ∀ address, size.toNat ≤ address → mem' address = mem address) ↔
      data = none ∨ s.device.status &&& 0x04000000#32 ≠ 0#32 ∨ unpackFgr s.cp1 = s.cp1 ∨
        size.toNat < cp1Offset ∨ cp1Offset + cp1Size ≤ size.toNat := by
  have hcap : size.toNat ≤ sizeMax := Nat.le_sub_one_of_lt size.toNat_lt
  cases data with
  | none =>
    refine iff_of_true ⟨rfl, machine_savestatesGetM64pSize s, ?_⟩ (Or.inl rfl)
    exact fun mem hmem => absurd hmem (Option.not_mem_none mem)
  | some mem =>
    have hmachine := @machine_savestatesWriteM64p s (some mem) _ hcap
    have hdata : ∀ mem₀ ∈ some mem, ∃ mem' ∈ (s.savestatesSaveM64p (some mem) size).writer.data,
        ∀ address, size.toNat ≤ address → mem' address = mem₀ address := by
      rintro mem₀ hmem
      obtain rfl := Option.some.inj hmem
      exact data_writeSteps rfl
    rw [and_iff_left hdata, and_iff_left (machine_savestatesGetM64pSize s),
      Machine.savestatesSaveM64p, hmachine]
    split
    · next hcut =>
      rw [toFormat_eq_self_iff]
      constructor
      · rintro (hmode | hfixed)
        · exact Or.inr (Or.inl hmode)
        · exact Or.inr (Or.inr (Or.inl hfixed))
      · rintro (hnone | hmode | hfixed | hlt | hge)
        · cases hnone
        · exact Or.inl hmode
        · exact Or.inr hfixed
        · omega
        · omega
    · next hcut =>
      refine iff_of_true rfl (Or.inr (Or.inr (Or.inr ?_)))
      omega

/-- A machine in 32-bit mode with a number in one floating point register. -/
def sampleMachine : Machine where
  device := blankDevice
  md5 := fun _ => 0#8
  rdramRegs := fun _ => 0#32
  ri := fun _ => 0#32
  dram := fun _ => 0#32
  spMem := fun _ => 0#32
  pifRam := fun _ => 0#8
  useFlashram := 0#32
  flashram := ⟨0#32, 0#64, 0#32, 0#32⟩
  tlbLutR := fun _ => 0#32
  tlbLutW := fun _ => 0#32
  tlb := fun _ => ⟨0#16, 0#32, 0#8, 0#8, 0#32, 0#8, 0#8, 0#8, 0#32, 0#8, 0#8, 0#8, 0#8, 0#32, 0#32,
    0#32, 0#32, 0#32, 0#32⟩
  llbit := 0#32
  regs := fun _ => 0#64
  lo := 0#64
  hi := 0#64
  cp1 := Function.update (fun _ => 0#64) 0 0x3F80000000000000#64
  fprPointers := false
  fcr0 := 0#32
  fcr31 := 0#32

/-- A buffer that ends where the floating point registers begin leaves them unpacked. -/
theorem save_leaves_registers_unpacked :
    (sampleMachine.savestatesSaveM64p (some fun _ => 0) 16786348).machine.cp1 1 =
        0x3F800000#64 ∧
      sampleMachine.cp1 1 = 0#64 := by
  have hmachine := @machine_savestatesWriteM64p sampleMachine (some fun _ => 0) 16786348
    (by decide)
  constructor
  · rw [Machine.savestatesSaveM64p]
    refine (congrArg (fun s : Machine => s.cp1 1) hmachine).trans ?_
    rfl
  · rfl

end ParallelN64.Savestate
