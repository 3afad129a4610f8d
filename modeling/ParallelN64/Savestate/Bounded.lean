import ParallelN64.Savestate.ReadOnly
import ParallelN64.Savestate.Reader

/-!
# How far loading reads

The loader reads the header until something differs, or else every field and 1024 bytes of
queue behind them, however long the saved queue is. What it rejects it has not stored.
-/

namespace ParallelN64.Savestate

open R4300 ParallelN64.Core

def queueOffset : Nat := 16788292

theorem load_loadFields_snd (data : Memory) (s : Machine) :
    (load data loadFields (s, headerSize)).2 = queueOffset := by
  have hsize : headerSize + (loadFields.map LoadStep.size).sum = queueOffset := by decide +kernel
  rw [load_snd, hsize]

def Machine.saveSteps (s : Machine) : List (SaveStep Machine) :=
  saveFront ++ (saveCp1 ++ (saveBack ++ saveQueue s.device.interrupts.saveEventqueueInfos))

theorem finish_of_quiet {steps : List (SaveStep Machine)}
    (hquiet : ∀ step ∈ steps, ∀ s, step.next s = s) (s : Machine) : finish steps s = s := by
  induction steps with
  | nil => rfl
  | cons step rest ih =>
    rw [finish, List.foldl_cons, hquiet step List.mem_cons_self s]
    exact ih fun step' hstep' => hquiet step' (List.mem_cons_of_mem step hstep')

theorem finish_saveSteps (s : Machine) : finish s.saveSteps s = s := by
  have hcp1 : finish saveCp1 s = s := ofFormat_toFormat s
  rw [Machine.saveSteps, finish_append, finish_of_quiet saveFront_quiet, finish_append, hcp1,
    finish_of_quiet (saveBack_quiet _)]

theorem totalSize_saveSteps (s : Machine) :
    totalSize s.saveSteps = queueOffset + s.device.interrupts.saveEventqueueInfos.length * 4 := by
  have hfixed : cp1Offset + (totalSize saveCp1 + totalSize saveBack) = queueOffset := by
    decide +kernel
  have hqueue (queue : List Word) : totalSize (saveQueue queue) = queue.length * 4 := rfl
  rw [Machine.saveSteps, totalSize_append, totalSize_append, totalSize_append, totalSize_saveFront,
    hqueue, ← hfixed]
  omega

variable {s : Machine} {mem : Memory} {size : UInt64} {data : Memory}

theorem savestatesSaveM64p_of_le (h : totalSize s.saveSteps ≤ size.toNat) :
    s.savestatesSaveM64p (some mem) size =
      ⟨true, s, SavestateWriter.put ⟨some mem, 0, size.toNat⟩ (written s.saveSteps s)⟩ := by
  have hcap : size.toNat ≤ sizeMax := Nat.le_sub_one_of_lt size.toNat_lt
  have hfit : 0 + totalSize s.saveSteps ≤ size.toNat := (Nat.zero_add _).trans_le h
  have hwrite := @writeSteps_of_le ⟨some mem, 0, size.toNat⟩ s.saveSteps s hcap hfit
  rw [finish_saveSteps] at hwrite
  exact hwrite

theorem ok_savestatesSaveM64p_iff :
    (s.savestatesSaveM64p (some mem) size).ok = true ↔ totalSize s.saveSteps ≤ size.toNat := by
  constructor
  · intro hok
    by_contra hgt
    have hfit : size.toNat < 0 + totalSize s.saveSteps := by omega
    have hfail := @ok_writeSteps_of_gt ⟨some mem, 0, size.toNat⟩ s.saveSteps s (Nat.zero_le _) hfit
    have hrun : (s.savestatesSaveM64p (some mem) size).ok = false := hfail
    rw [hrun] at hok
    exact Bool.false_ne_true hok
  · intro hle
    rw [savestatesSaveM64p_of_le hle]

theorem savestatesGetM64pSize_eq (h : totalSize s.saveSteps ≤ sizeMax) :
    s.savestatesGetM64pSize.1 = totalSize s.saveSteps := by
  have hfit : 0 + totalSize s.saveSteps ≤ sizeMax := (Nat.zero_add _).trans_le h
  have hwrite := @writeSteps_of_le ⟨none, 0, sizeMax⟩ s.saveSteps s (le_refl sizeMax) hfit
  have hrun : s.savestatesWriteM64p ⟨none, 0, sizeMax⟩ =
      writeSteps s.saveSteps s ⟨none, 0, sizeMax⟩ := rfl
  rw [Machine.savestatesGetM64pSize, hrun, hwrite]
  dsimp only
  rw [if_pos rfl, SavestateWriter.put, length_written, Nat.zero_add]

theorem byte_of_holds {start count : Nat} {source : Fin count → BitVec (8 * 1)}
    (h : Holds data start (encodeArray 1 source)) (i : Fin count) :
    (data (start + i)).toBitVec = source i := by
  have hdecode := congrFun (decodeArray_of_holds h) i
  have hvalue : decodeLE (readBytes data (start + i * 1) 1) = (data (start + i)).toNat := by
    rw [Nat.mul_one, readBytes, readBytes, decodeLE, decodeLE, Nat.mul_zero, Nat.add_zero]
  rw [← hdecode, decodeArray, decodeInt, hvalue]
  apply BitVec.eq_of_toNat_eq
  exact (Nat.mod_eq_of_lt (data (start + i)).toNat_lt).symm

theorem header_of_holds (h : Holds data 0 (written saveHeader s)) :
    magicDifference data = none ∧ readVersion data = 0x00010000#32 ∧
      ∀ t : Machine, t.md5 = s.md5 → t.sameMd5 data = true := by
  rw [saveHeader, written, written, written, written, List.append_nil, holds_append_iff,
    holds_append_iff] at h
  obtain ⟨hmagic, hversion, hmd5⟩ := h
  refine ⟨?_, ?_, fun t ht => ?_⟩
  · rw [magicDifference, List.find?_eq_none]
    intro k _
    have hbyte := byte_of_holds hmagic k
    rw [Nat.zero_add] at hbyte
    simp [hbyte]
  · have hbyte (k : Fin 4) : (data (8 + k)).toBitVec = versionBytes k := byte_of_holds hversion k
    have h0 : (data 8).toBitVec = versionBytes 0 := hbyte 0
    have h1 : (data 9).toBitVec = versionBytes 1 := hbyte 1
    have h2 : (data 10).toBitVec = versionBytes 2 := hbyte 2
    have h3 : (data 11).toBitVec = versionBytes 3 := hbyte 3
    rw [readVersion, h0, h1, h2, h3]
    rfl
  · refine decide_eq_true fun i => ?_
    rw [ht]
    exact byte_of_holds hmd5 i

theorem holds_saveHeader (h : Holds data 0 (written s.saveSteps s)) :
    Holds data 0 (written saveHeader s) := by
  simp only [Machine.saveSteps, saveFront, List.append_assoc] at h
  rw [written_append, holds_append_iff] at h
  exact h.1

theorem holds_of_saved (hok : (s.savestatesSaveM64p (some mem) size).ok = true)
    (hdata : ∀ saved ∈ (s.savestatesSaveM64p (some mem) size).writer.data,
      ∀ address < (s.savestatesSaveM64p (some mem) size).writer.offset,
        data address = saved address) : Holds data 0 (written s.saveSteps s) := by
  have hle := ok_savestatesSaveM64p_iff.mp hok
  rw [savestatesSaveM64p_of_le hle] at hdata
  refine (holds_writeBytes mem 0 (written s.saveSteps s)).congr fun address _ hlt => ?_
  refine hdata _ rfl address ?_
  exact hlt

theorem savestatesLoadM64p_of_header {t : Machine} (size : UInt64)
    (hmagic : magicDifference data = none) (hversion : readVersion data = 0x00010000#32)
    (hmd5 : t.sameMd5 data = true) :
    t.savestatesLoadM64p data size =
      let s := (load data loadFields (t, headerSize)).1
      let queue := List.ofFn (decodeArray data queueOffset 4 queueWords)
      match s.device.interrupts.loadEventqueueInfos s.device.count queue with
      | none => ⟨none, s, queueOffset + queueWords * 4⟩
      | some interrupts =>
        let d := { s.device with interrupts, lastAddr := s.device.pc }
        ⟨some true, { s with device := d }, queueOffset + queueWords * 4⟩ := by
  have hcursor := load_loadFields_snd data t
  rw [Machine.savestatesLoadM64p, hmagic]
  dsimp only
  rw [if_neg (by simp [hversion]), if_neg (by simp [hmd5]), hcursor] <;> rfl

/-- What must be in the buffer for loading to stay inside it. -/
def Machine.LoadsWithin (t : Machine) (data : Memory) (size : Nat) : Prop :=
  match magicDifference data with
  | some k => k < size
  | none =>
    if readVersion data ≠ 0x00010000#32 then 12 ≤ size
    else if !t.sameMd5 data then 44 ≤ size
    else queueOffset + 1024 ≤ size ∧
      ∃ n < 128, decodeInt data (queueOffset + 8 * n) 4 = queueTerminator

theorem terminator_iff (data : Memory) :
    (∃ n, (List.ofFn (decodeArray data queueOffset 4 queueWords))[2 * n]? =
        some queueTerminator) ↔
      ∃ n < 128, decodeInt data (queueOffset + 8 * n) 4 = queueTerminator := by
  have hget (n : Nat) (hn : n < 128) :
      (List.ofFn (decodeArray data queueOffset 4 queueWords))[2 * n]? =
        some (decodeInt data (queueOffset + 8 * n) 4) := by
    have hlt : 2 * n < queueWords := by
      have hwords : queueWords = 256 := rfl
      omega
    have haddress : queueOffset + 2 * n * 4 = queueOffset + 8 * n := by omega
    rw [List.getElem?_ofFn, dif_pos hlt, decodeArray, haddress]
  constructor
  · rintro ⟨n, hn⟩
    obtain ⟨hlt, -⟩ := List.getElem?_eq_some_iff.mp hn
    have hwords : queueWords = 256 := rfl
    rw [List.length_ofFn] at hlt
    have hbound : n < 128 := by omega
    refine ⟨n, hbound, ?_⟩
    rw [hget n hbound] at hn
    exact Option.some.inj hn
  · rintro ⟨n, hlt, hn⟩
    exact ⟨n, by rw [hget n hlt, hn]⟩

/-- Loading reads only the buffer, its queue reader stops inside its copy and what it rejects leaves
the machine as it was, exactly when the buffer holds enough for its content. -/
theorem savestatesLoadM64p_bounded_iff (t : Machine) (data : Memory) (size : UInt64) :
    ((t.savestatesLoadM64p data size).reach ≤ size.toNat ∧
        (t.savestatesLoadM64p data size).result ≠ none ∧
        ((t.savestatesLoadM64p data size).result = some false →
          (t.savestatesLoadM64p data size).machine = t)) ↔
      t.LoadsWithin data size.toNat := by
  rw [Machine.LoadsWithin]
  cases hmagic : magicDifference data with
  | some k =>
    have hrun : t.savestatesLoadM64p data size = ⟨some false, t, k + 1⟩ := by
      rw [Machine.savestatesLoadM64p, hmagic]
    rw [hrun]
    simp [Nat.succ_le_iff]
  | none =>
    dsimp only
    by_cases hversion : readVersion data = 0x00010000#32
    · rw [if_neg (not_not.mpr hversion)]
      cases hmd5 : t.sameMd5 data with
      | false =>
        have hrun : t.savestatesLoadM64p data size = ⟨some false, t, headerSize⟩ := by
          rw [Machine.savestatesLoadM64p, hmagic]
          simp [hversion, hmd5]
        rw [hrun]
        simp [headerSize]
      | true =>
        have hrun := savestatesLoadM64p_of_header size hmagic hversion hmd5
        have hstops := @loadEvents_ne_none_iff
          { (load data loadFields (t, headerSize)).1.device.interrupts with q := clearQueue }
          (load data loadFields (t, headerSize)).1.device.count
          (List.ofFn (decodeArray data queueOffset 4 queueWords))
        rw [terminator_iff] at hstops
        rw [if_neg (by simp), ← hstops, hrun]
        dsimp only
        rw [Interrupts.loadEventqueueInfos]
        split
        · next hload =>
          exact iff_of_false (fun h => h.2.1 rfl) fun h => h.2 hload
        · next i hload =>
          have hstop : Interrupts.loadEvents _ _ _ ≠ none := fun hnone =>
            Option.some_ne_none i (hload.symm.trans hnone)
          exact ⟨fun h => ⟨h.1, hstop⟩, fun h => ⟨h.1, Option.some_ne_none true, fun hfalse =>
            absurd (Option.some.inj hfalse) (by decide)⟩⟩
    · have hrun : t.savestatesLoadM64p data size = ⟨some false, t, 12⟩ := by
        rw [Machine.savestatesLoadM64p, hmagic]
        simp [hversion]
      rw [hrun, if_pos hversion]
      simp

theorem sample_fits (pi : PiReg → Word) :
    (Machine.savestatesSaveM64p { sampleMachine with device := { blankDevice with pi } }
      (some fun _ => 0) 16788296).ok = true := by
  have hsize : queueOffset + 1 * 4 ≤ UInt64.toNat 16788296 := by decide +kernel
  rw [ok_savestatesSaveM64p_iff, totalSize_saveSteps]
  exact hsize

/-- A buffer that holds exactly a savestate is read 1020 bytes past its end. -/
theorem saved_buffer_is_read_past_its_end :
    sampleMachine.savestatesGetM64pSize.1 = 16788296 ∧
      (sampleMachine.savestatesSaveM64p (some fun _ => 0) 16788296).ok = true ∧
      ∀ saved ∈ (sampleMachine.savestatesSaveM64p (some fun _ => 0) 16788296).writer.data,
        (sampleMachine.savestatesLoadM64p saved 16788296).reach = 16788296 + 1020 := by
  have hsize : totalSize sampleMachine.saveSteps = 16788296 := totalSize_saveSteps sampleMachine
  have hmax : totalSize sampleMachine.saveSteps ≤ sizeMax := by
    rw [hsize]
    decide
  have hok : (sampleMachine.savestatesSaveM64p (some fun _ => 0) 16788296).ok = true :=
    sample_fits _
  refine ⟨(savestatesGetM64pSize_eq hmax).trans hsize, hok, fun saved hsaved => ?_⟩
  have hholds : Holds saved 0 (written sampleMachine.saveSteps sampleMachine) := by
    refine holds_of_saved hok fun saved' hsaved' address _ => ?_
    rw [Option.mem_unique hsaved hsaved']
  obtain ⟨hmagic, hversion, hmd5⟩ := header_of_holds (holds_saveHeader hholds)
  rw [savestatesLoadM64p_of_header _ hmagic hversion (hmd5 sampleMachine rfl)]
  dsimp only
  split
  · rfl
  · rfl

end ParallelN64.Savestate
