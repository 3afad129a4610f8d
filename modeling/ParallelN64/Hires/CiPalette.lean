import ParallelN64.Hires.RiceCrc
import ParallelN64.Rdp.TileLoad

/-!
# Palettes of indexed textures

An indexed texture uses some entries of its palette. One scan of its texels finds the largest
index and stops at the last entry, another marks every index; both read the texels from memory or
from texture memory. The key of the palette is a checksum of its first entries, or of those that
are used, read where entries are two bytes apart or where they are eight bytes apart.
-/

namespace ParallelN64.Hires

open Rdp

def rowBytes (size : TextureSize) (keyWidthPixels : UInt32) : UInt32 :=
  match size with
  | .Bpp4 => (keyWidthPixels + 1) >>> 1
  | _ => keyWidthPixels

/-- The bytes of a region, line by line. -/
def regionBytes (memory : List UInt8) (srcBaseAddr rowStrideBytes : UInt32)
    (rowBytes height : Nat) : List UInt8 :=
  (List.range height).flatMap fun y =>
    (List.range rowBytes).map fun x =>
      wrappedReadU8 memory (rowAddr memory.length srcBaseAddr rowStrideBytes y + UInt32.ofNat x)

def nibbles (v : UInt8) : List Nat := [((v >>> 4) &&& 0xf).toNat, (v &&& 0xf).toNat]

/-- The indices of a byte. -/
def byteIndices (size : TextureSize) (v : UInt8) : List Nat :=
  match size with
  | .Bpp4 => nibbles v
  | .Bpp8 => [v.toNat]
  | _ => []

/-- The largest index of some bytes; the scan stops at the last entry. -/
def ciMaxIndex (last : Nat) (indices : UInt8 → List Nat) : Nat → List UInt8 → Nat
  | cimax, [] => cimax
  | cimax, v :: bytes =>
    let cimax := (indices v).foldl max cimax
    if cimax = last then cimax else ciMaxIndex last indices cimax bytes

def computeCi8MaxIndex (rdram : List UInt8) (baseAddr width height rowStride : UInt32) : Nat :=
  ciMaxIndex 0xff (byteIndices .Bpp8) 0
    (regionBytes rdram baseAddr rowStride (rowBytes .Bpp8 width).toNat height.toNat)

def computeCi4MaxIndex (rdram : List UInt8) (baseAddr width height rowStride : UInt32) : Nat :=
  ciMaxIndex 0xf (byteIndices .Bpp4) 0
    (regionBytes rdram baseAddr rowStride (rowBytes .Bpp4 width).toNat height.toNat)

/-- Number of palette entries up to the largest index. -/
def computeHiresCiPaletteEntryCount (size : TextureSize) (cpuRdram : List UInt8)
    (srcBaseAddr keyWidthPixels keyHeightPixels rowStrideBytes : UInt32) : Nat :=
  if cpuRdram.length = 0 then 0
  else
    match size with
    | .Bpp8 =>
      min (computeCi8MaxIndex cpuRdram srcBaseAddr keyWidthPixels keyHeightPixels rowStrideBytes +
        1) 256
    | .Bpp4 =>
      min (computeCi4MaxIndex cpuRdram srcBaseAddr keyWidthPixels keyHeightPixels rowStrideBytes +
        1) 16
    | _ => 0

/-- Which indices a region uses; the mask has one bit for each. -/
structure HiresCIPaletteUsage where
  usedMask : Nat → Bool := fun _ => false
  usedCount : Nat := 0
  minIndex : Nat := 0
  maxIndex : Nat := 0
  valid : Bool := false

/-- Mark an index. -/
def HiresCIPaletteUsage.mark (usage : HiresCIPaletteUsage) (index : Nat) : HiresCIPaletteUsage :=
  if usage.usedMask index then usage
  else
    { usedMask := fun i => i = index || usage.usedMask i
      usedCount := usage.usedCount + 1
      minIndex := if usage.valid then min usage.minIndex index else index
      maxIndex := if usage.valid then max usage.maxIndex index else index
      valid := true }

/-- Mark all indices of a region. -/
def scanUsage (size : TextureSize) (memory : List UInt8) (srcBaseAddr keyWidthPixels
    keyHeightPixels rowStrideBytes : UInt32) : HiresCIPaletteUsage :=
  if memory.length = 0 then {}
  else
    ((regionBytes memory srcBaseAddr rowStrideBytes (rowBytes size keyWidthPixels).toNat
      keyHeightPixels.toNat).flatMap (byteIndices size)).foldl HiresCIPaletteUsage.mark {}

def computeHiresCiPaletteUsage (size : TextureSize) (cpuRdram : List UInt8)
    (srcBaseAddr keyWidthPixels keyHeightPixels rowStrideBytes : UInt32) : HiresCIPaletteUsage :=
  scanUsage size cpuRdram srcBaseAddr keyWidthPixels keyHeightPixels rowStrideBytes

def computeHiresCiPaletteUsageTmem (size : TextureSize) (tmem : List UInt8)
    (srcBaseAddr keyWidthPixels keyHeightPixels rowStrideBytes : UInt32) : HiresCIPaletteUsage :=
  scanUsage size tmem srcBaseAddr keyWidthPixels keyHeightPixels rowStrideBytes

def computeHiresCiPaletteEntryCountTmem (size : TextureSize) (tmem : List UInt8)
    (srcBaseAddr keyWidthPixels keyHeightPixels rowStrideBytes : UInt32) : Nat :=
  let usage := computeHiresCiPaletteUsageTmem size tmem srcBaseAddr keyWidthPixels keyHeightPixels
    rowStrideBytes
  if usage.valid then
    match size with
    | .Bpp8 => min (usage.maxIndex + 1) 256
    | .Bpp4 => min (usage.maxIndex + 1) 16
    | _ => 0
  else 0

def paletteSize : TextureSize → Nat
  | .Bpp8 => 256
  | .Bpp4 => 16
  | _ => 0

def paletteStart (size : TextureSize) (palette : UInt32) : Nat :=
  match size with
  | .Bpp4 => min palette.toNat 15 * 16
  | _ => 0

def packEntries (tlut : List UInt8) (stride : Nat) (entries : List Nat) : List UInt8 :=
  entries.flatMap fun entry =>
    [tlut.getD (entry * stride) 0, tlut.getD (entry * stride + 1) 0]

/-- The checksum of packed entries, in an array of 512 bytes. -/
def packedCrc (packed : List UInt8) : UInt32 :=
  let packedEntries := packed.length / 2
  if packedEntries = 0 then 0
  else
    riceCrc32Wrapped (packed ++ List.replicate (512 - packed.length) 0) 0
      (UInt32.ofNat packedEntries) 1 2 (UInt32.ofNat packedEntries * 2)

def usedIndices (size : TextureSize) (usage : HiresCIPaletteUsage) : List Nat :=
  (List.range (paletteSize size)).filter usage.usedMask

def computeHiresCiPaletteCrcForUsedIndices (size : TextureSize) (palette : UInt32)
    (tlutShadow : List UInt8) (tlutShadowValid : Bool) (usage : HiresCIPaletteUsage) : UInt32 :=
  if !usage.valid || usage.usedCount = 0 then 0
  else if !tlutShadowValid || tlutShadow.length < 512 then 0
  else
    packedCrc (packEntries tlutShadow 2
      ((usedIndices size usage).map fun index => paletteStart size palette + index))

def computeHiresCiPaletteCrcForUsedIndicesTmem (size : TextureSize) (palette : UInt32)
    (tlutTmemShadow : List UInt8) (tlutShadowValid : Bool) (usage : HiresCIPaletteUsage) :
    UInt32 :=
  if !usage.valid || usage.usedCount = 0 then 0
  else if !tlutShadowValid || tlutTmemShadow.length < 2048 then 0
  else
    packedCrc (packEntries tlutTmemShadow 8
      ((usedIndices size usage).map fun index => paletteStart size palette + index))

def computeHiresCiPaletteCrcForEntriesTmem (size : TextureSize) (palette : UInt32)
    (tlutTmemShadow : List UInt8) (tlutShadowValid : Bool) (entries : Nat) : UInt32 :=
  if !tlutShadowValid || tlutTmemShadow.length < 2048 then 0
  else
    packedCrc (packEntries tlutTmemShadow 8
      ((List.range (min entries (paletteSize size))).map fun index =>
        paletteStart size palette + index))

/-- The checksum of the first entries, read in place. -/
def computeHiresCiPaletteCrcForEntries (size : TextureSize) (palette : UInt32)
    (tlutShadow : List UInt8) (tlutShadowValid : Bool) (entries : Nat) : UInt32 :=
  if !tlutShadowValid || tlutShadow.length < 512 then 0
  else
    match size with
    | .Bpp8 =>
      let entries := min entries 256
      if entries = 0 then 0
      else riceCrc32Wrapped tlutShadow 0 (UInt32.ofNat entries) 1 2 512
    | .Bpp4 =>
      let entries := min entries 16
      if entries = 0 then 0
      else
        riceCrc32Wrapped tlutShadow (UInt32.ofNat (min palette.toNat 15 * 32))
          (UInt32.ofNat entries) 1 2 32
    | _ => 0

end ParallelN64.Hires
