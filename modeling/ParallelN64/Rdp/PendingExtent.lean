import ParallelN64.Rdp.Batch

/-!
# Texture loads from a pending framebuffer

A batch draws to its framebuffers, and a texture that is loaded from one of them must wait for
the batch. The bytes of a framebuffer are counted from its format; whether a load must wait is
decided in pixels, from the offset of its address in memory, which is shifted by the size of a
pixel.
-/

namespace ParallelN64.Rdp

variable {R : DrawRecords}

/-- Bytes of the color framebuffer that the batch draws to. -/
def Renderer.getByteSizeForBoundColorFramebuffer (r : Renderer R) : UInt32 :=
  let pixelCount := r.fb.width * r.fb.deducedHeight
  match r.fb.fmt with
  | .RGBA8888 => pixelCount * 4
  | .RGBA5551 | .IA88 => pixelCount * 2
  | _ => pixelCount

def Renderer.getByteSizeForBoundDepthFramebuffer (r : Renderer R) : UInt32 :=
  r.fb.width * r.fb.deducedHeight * 2

def Renderer.InExtent (r : Renderer R) (base byteSize addr : UInt32) : Prop :=
  ∃ k < byteSize.toNat, addr.toNat % r.rdramSize.toNat = (base.toNat + k) % r.rdramSize.toNat

/-- An address is in a framebuffer with writes that the batch has not submitted. -/
def Renderer.InPendingExtent (r : Renderer R) (addr : UInt32) : Prop :=
  (r.fb.colorWritePending = true ∧
      r.InExtent r.fb.addr r.getByteSizeForBoundColorFramebuffer addr) ∨
    (r.fb.depthWritePending = true ∧
      r.InExtent r.fb.depthAddr r.getByteSizeForBoundDepthFramebuffer addr)

/-- A load from a framebuffer with pending writes asks for a flush, and its chunks are loaded after
the batch is submitted. -/
def Renderer.FlushesPending (r : Renderer R) (addr : UInt32) : Prop :=
  r.InPendingExtent addr → r.tmemUploadNeedsFlush addr = true ∧
    ∀ iterations, r.loadTile addr iterations =
      iterations.foldl Renderer.loadTileIteration r.flushQueues

def Renderer.offset (r : Renderer R) (base addr : UInt32) : Nat :=
  (addr - base).toNat % r.rdramSize.toNat

def Renderer.pendingPixels (r : Renderer R) : Nat := (r.fb.deducedHeight * r.fb.width).toNat

theorem and_rdramSize_sub_one {size : UInt32} {k : Nat} (hsize : size.toNat = 2 ^ k) (x : UInt32) :
    (x &&& (size - 1)).toNat = x.toNat % size.toNat := by
  have hone : (1 : UInt32) ≤ size := by
    rw [UInt32.le_iff_toNat_le, hsize]
    exact Nat.one_le_two_pow
  rw [UInt32.toNat_and, UInt32.toNat_sub_of_le _ _ hone, hsize]
  exact Nat.and_two_pow_sub_one_eq_mod _ _

theorem Renderer.inExtent_iff {r : Renderer R} {k : Nat} (hsize : r.rdramSize.toNat = 2 ^ k)
    (base byteSize addr : UInt32) :
    r.InExtent base byteSize addr ↔ r.offset base addr < byteSize.toNat := by
  have hk : k < 32 := by
    have hlt := r.rdramSize.toNat_lt
    rw [hsize] at hlt
    exact (Nat.pow_lt_pow_iff_right (by decide)).mp hlt
  have hdvd : r.rdramSize.toNat ∣ 2 ^ 32 := by
    rw [hsize]
    exact pow_dvd_pow 2 hk.le
  -- The base and the offset make the address again.
  have hsum : (base.toNat + r.offset base addr) % r.rdramSize.toNat =
      addr.toNat % r.rdramSize.toNat := by
    unfold Renderer.offset
    rw [Nat.add_mod_mod, UInt32.toNat_sub, ← Nat.add_mod_mod, Nat.mod_mod_of_dvd _ hdvd,
      Nat.add_mod_mod]
    have hle := base.toNat_lt
    rw [show base.toNat + (2 ^ 32 - base.toNat + addr.toNat) = addr.toNat + 2 ^ 32 by omega]
    obtain ⟨c, hc⟩ := hdvd
    rw [hc, Nat.add_mul_mod_self_left]
  constructor
  · rintro ⟨i, hi, haddr⟩
    rw [← hsum] at haddr
    have hmod : r.offset base addr % r.rdramSize.toNat = i % r.rdramSize.toNat :=
      Nat.ModEq.add_left_cancel' base.toNat haddr
    rw [Renderer.offset, Nat.mod_mod] at hmod
    rw [Renderer.offset, hmod]
    exact (Nat.mod_le _ _).trans_lt hi
  · exact fun h => ⟨r.offset base addr, h, hsum.symm⟩

def FBFormat.pixelBytes : FBFormat → Nat
  | .RGBA8888 => 4
  | .RGBA5551 | .IA88 => 2
  | .I4 | .I8 => 1

def FBFormat.offsetBytes : FBFormat → Nat
  | .RGBA8888 => 4
  | .RGBA5551 | .I8 => 2
  | .I4 | .IA88 => 1

theorem FBFormat.pixelBytes_le_offsetBytes {fmt : FBFormat} (h : fmt ≠ .IA88) :
    fmt.pixelBytes ≤ fmt.offsetBytes := by
  cases fmt with
  | IA88 => exact absurd rfl h
  | I4 | RGBA5551 | RGBA8888 => exact le_rfl
  | I8 => exact Nat.le_succ 1

theorem Renderer.colorByteSize_le (r : Renderer R) :
    r.getByteSizeForBoundColorFramebuffer.toNat ≤ r.pendingPixels * r.fb.fmt.pixelBytes := by
  unfold Renderer.getByteSizeForBoundColorFramebuffer Renderer.pendingPixels FBFormat.pixelBytes
  rw [UInt32.mul_comm r.fb.deducedHeight]
  generalize r.fb.width * r.fb.deducedHeight = pixelCount
  cases r.fb.fmt with
  | I4 | I8 => exact (Nat.mul_one _).ge
  | RGBA5551 | IA88 | RGBA8888 =>
    simp only [UInt32.toNat_mul]
    exact Nat.mod_le _ _

theorem Renderer.depthByteSize_le (r : Renderer R) :
    r.getByteSizeForBoundDepthFramebuffer.toNat ≤ r.pendingPixels * 2 := by
  unfold Renderer.getByteSizeForBoundDepthFramebuffer Renderer.pendingPixels
  rw [UInt32.mul_comm r.fb.deducedHeight, UInt32.toNat_mul]
  exact Nat.mod_le _ _

theorem Renderer.tmemUploadNeedsFlush_iff {r : Renderer R} {k : Nat}
    (hsize : r.rdramSize.toNat = 2 ^ k) (addr : UInt32) :
    r.tmemUploadNeedsFlush addr = true ↔
      (r.fb.colorWritePending = true ∧
          r.offset r.fb.addr addr < r.pendingPixels * r.fb.fmt.offsetBytes) ∨
        (r.fb.depthWritePending = true ∧
          r.offset r.fb.depthAddr addr < r.pendingPixels * 2) := by
  unfold Renderer.tmemUploadNeedsFlush Renderer.pendingPixels Renderer.offset
  simp only [Bool.or_eq_true, Bool.and_eq_true, decide_eq_true_eq, UInt32.lt_iff_toNat_lt]
  refine or_congr (and_congr_right fun _ => ?_) (and_congr_right fun _ => ?_)
  · unfold FBFormat.offsetBytes
    cases r.fb.fmt <;>
      simp [and_rdramSize_sub_one hsize, Nat.shiftRight_eq_div_pow,
        Nat.div_lt_iff_lt_mul]
  · simp [and_rdramSize_sub_one hsize, Nat.shiftRight_eq_div_pow, Nat.div_lt_iff_lt_mul]

/-- Loads from pending framebuffers wait for the batch exactly when the color framebuffer is not
one of 16 bits of intensity and alpha, has no pending writes or has the address outside the second
half of its bytes, or the address is in the depth framebuffer and that has pending writes. -/
theorem Renderer.flushesPending_iff {r : Renderer R} {k : Nat}
    (hsize : r.rdramSize.toNat = 2 ^ k) (addr : UInt32) :
    r.FlushesPending addr ↔
      (r.fb.fmt = .IA88 → r.fb.colorWritePending = true →
        r.pendingPixels ≤ r.offset r.fb.addr addr →
        r.offset r.fb.addr addr < r.getByteSizeForBoundColorFramebuffer.toNat →
        r.fb.depthWritePending = true ∧ r.offset r.fb.depthAddr addr < r.pendingPixels * 2) := by
  have hloads : r.tmemUploadNeedsFlush addr = true → ∀ iterations, r.loadTile addr iterations =
      iterations.foldl Renderer.loadTileIteration r.flushQueues := by
    intro hflush iterations
    rw [Renderer.loadTile, if_pos hflush]
  unfold Renderer.FlushesPending Renderer.InPendingExtent
  rw [Renderer.inExtent_iff hsize, Renderer.inExtent_iff hsize]
  constructor
  · intro h hfmt hcolor hlow hhigh
    obtain ⟨hflush, -⟩ := h (Or.inl ⟨hcolor, hhigh⟩)
    rcases (Renderer.tmemUploadNeedsFlush_iff hsize addr).mp hflush with ⟨-, hlt⟩ | hdepth
    · rw [hfmt] at hlt
      exact absurd hlt (by simpa [FBFormat.offsetBytes] using hlow)
    · exact hdepth
  · intro h hpending
    suffices hflush : r.tmemUploadNeedsFlush addr = true from ⟨hflush, hloads hflush⟩
    rw [Renderer.tmemUploadNeedsFlush_iff hsize]
    rcases hpending with ⟨hcolor, hlt⟩ | ⟨hdepth, hlt⟩
    · by_cases hfmt : r.fb.fmt = .IA88
      · rcases Nat.lt_or_ge (r.offset r.fb.addr addr) r.pendingPixels with hin | hout
        · refine Or.inl ⟨hcolor, ?_⟩
          rw [hfmt]
          simpa [FBFormat.offsetBytes] using hin
        · exact Or.inr (h hfmt hcolor hout hlt)
      · refine Or.inl ⟨hcolor, hlt.trans_le (r.colorByteSize_le.trans ?_)⟩
        exact Nat.mul_le_mul_left _ (FBFormat.pixelBytes_le_offsetBytes hfmt)
    · exact Or.inr ⟨hdepth, hlt.trans_le r.depthByteSize_le⟩

/-- Records of a renderer whose states carry nothing. -/
def plainRecords : DrawRecords where
  AttributeSetup := Unit
  DerivedSetup := Unit
  StaticRasterizationState := Unit
  DepthBlendState := Unit
  TileInfo := Unit
  UploadInfo := Unit
  Constants := Unit
  decStatic := inferInstance
  decDepth := inferInstance
  decTile := inferInstance
  primDepthAttributes _ attr := attr
  buildDerivedAttributes _ _ _ := ()
  staticFlags _ := 0
  deduceStaticState _ _ state := state
  normalizeStaticState state := state
  depthUpdate _ := false
  computeConservativeMaxNumTiles _ _ := 1

/-- A renderer with 8 MiB of memory that has drawn to 320 by 240 pixels at 1 MiB. -/
def drawnRenderer (fmt : FBFormat) : Renderer plainRecords where
  caps := {}
  rdramSize := 0x800000
  fb :=
    { addr := 0x100000, width := 320, deducedHeight := 240, fmt, colorWritePending := true }
  stream :=
    { staticRasterState := (), depthBlendState := (), scissorState := applySetScissorWords 0 0 }
  tiles _ := ()
  constants := ()

/-- A load from the last line of an RGBA5551 framebuffer waits. -/
theorem drawnRenderer_flushesPending :
    (drawnRenderer .RGBA5551).FlushesPending (0x100000 + 2 * 320 * 239) :=
  (Renderer.flushesPending_iff (k := 23) rfl _).mpr fun hfmt => absurd hfmt (by decide)

/-- A load from the last line of an IA88 framebuffer does not. -/
theorem drawnRenderer_not_flushesPending :
    ¬ (drawnRenderer .IA88).FlushesPending (0x100000 + 2 * 320 * 239) := by
  intro h
  have hpending : (drawnRenderer .IA88).InPendingExtent (0x100000 + 2 * 320 * 239) :=
    Or.inl ⟨rfl, 2 * 320 * 239, by decide, by decide⟩
  exact absurd (h hpending).1 (by decide)

end ParallelN64.Rdp
