import Mathlib.Data.List.Range
import Mathlib.Data.UInt

/-!
# The checksum of a texture

A texture is hashed line by line, each line from its end in words of four bytes. The checksum
reads a memory through a mask that is the size of the memory less one, so the memory repeats when
its size is a power of two.
-/

namespace ParallelN64.Hires

def maskedAddress (size : Nat) (addr : UInt32) : Nat := (addr &&& UInt32.ofNat (size - 1)).toNat

def wrappedReadU8 (memory : List UInt8) (addr : UInt32) : UInt8 :=
  memory.getD (maskedAddress memory.length addr) 0

def word32 (byte : Nat → UInt8) : UInt32 :=
  (byte 0).toUInt32 ||| ((byte 1).toUInt32 <<< 8) ||| ((byte 2).toUInt32 <<< 16) |||
    ((byte 3).toUInt32 <<< 24)

def wrappedReadU32 (memory : List UInt8) (addr : UInt32) : UInt32 :=
  word32 fun i => wrappedReadU8 memory (addr + UInt32.ofNat i)

def lineOffsets (bytesPerLine : Nat) : List Nat :=
  (List.range (bytesPerLine / 4)).map fun i => bytesPerLine - 4 - 4 * i

def hashWord (read : Nat → UInt32) (acc : UInt32 × UInt32) (x : Nat) : UInt32 × UInt32 :=
  let esi := read x ^^^ UInt32.ofNat x
  ((acc.1 <<< 4) + ((acc.1 >>> 28) &&& 15) + esi, esi)

def hashLine (read : Nat → UInt32) (bytesPerLine y : Nat) (crc : UInt32) : UInt32 :=
  let acc := (lineOffsets bytesPerLine).foldl (hashWord read) (crc, 0)
  acc.1 + (acc.2 ^^^ UInt32.ofNat y)

def hashLines (read : Nat → Nat → UInt32) (bytesPerLine height : Nat) : UInt32 :=
  (List.range height).foldl
    (fun crc line => hashLine (read line) bytesPerLine (height - 1 - line) crc) 0

def bytesPerLine (width size : UInt32) : UInt32 := (width <<< size) >>> 1

def signedHeight (height : UInt32) : Nat := if height.toNat < 2 ^ 31 then height.toNat else 0

def rowAddr (memorySize : Nat) (baseAddr rowStride : UInt32) (line : Nat) : UInt32 :=
  (baseAddr + UInt32.ofNat line * rowStride) &&& UInt32.ofNat (memorySize - 1)

/-- The checksum of a texture in a memory; without a memory or a texture it is zero. -/
def riceCrc32Wrapped (memory : List UInt8) (baseAddr width height size rowStride : UInt32) :
    UInt32 :=
  if memory.length = 0 ∨ width = 0 ∨ height = 0 then 0
  else if bytesPerLine width size < 4 then 0
  else
    hashLines
      (fun line x =>
        wrappedReadU32 memory (rowAddr memory.length baseAddr rowStride line + UInt32.ofNat x))
      (bytesPerLine width size).toNat (signedHeight height)

/-- The positions of a memory that the checksum reads, in its order. -/
def riceReads (memorySize : Nat) (baseAddr width height size rowStride : UInt32) : List Nat :=
  if memorySize = 0 ∨ width = 0 ∨ height = 0 then []
  else if bytesPerLine width size < 4 then []
  else
    (List.range (signedHeight height)).flatMap fun line =>
      (lineOffsets (bytesPerLine width size).toNat).flatMap fun x =>
        (List.range 4).map fun i =>
          maskedAddress memorySize
            (rowAddr memorySize baseAddr rowStride line + UInt32.ofNat x + UInt32.ofNat i)

theorem hashLine_congr {read read' : Nat → UInt32} {bytesPerLine : Nat}
    (h : ∀ x ∈ lineOffsets bytesPerLine, read x = read' x) (y : Nat) (crc : UInt32) :
    hashLine read bytesPerLine y crc = hashLine read' bytesPerLine y crc := by
  unfold hashLine
  have hfold : (lineOffsets bytesPerLine).foldl (hashWord read) (crc, 0) =
      (lineOffsets bytesPerLine).foldl (hashWord read') (crc, 0) := by
    refine List.foldl_ext _ _ _ fun acc x hx => ?_
    unfold hashWord
    rw [h x hx]
  rw [hfold]

theorem hashLines_congr {read read' : Nat → Nat → UInt32} {bytesPerLine height : Nat}
    (h : ∀ line < height, ∀ x ∈ lineOffsets bytesPerLine, read line x = read' line x) :
    hashLines read bytesPerLine height = hashLines read' bytesPerLine height := by
  unfold hashLines
  refine List.foldl_ext _ _ _ fun crc line hline => ?_
  exact hashLine_congr (h line (List.mem_range.mp hline)) _ _

theorem word32_congr {byte byte' : Nat → UInt8} (h : ∀ i < 4, byte i = byte' i) :
    word32 byte = word32 byte' := by
  unfold word32
  rw [h 0 (by decide), h 1 (by decide), h 2 (by decide), h 3 (by decide)]

theorem mem_lineOffsets {bytesPerLine x : Nat} (h : x ∈ lineOffsets bytesPerLine) :
    x + 4 ≤ bytesPerLine := by
  obtain ⟨i, hi, rfl⟩ := List.mem_map.mp h
  have hlt := List.mem_range.mp hi
  omega

theorem maskedAddress_eq {size : Nat} (hsize : size ≤ 2 ^ 32) (addr : UInt32) :
    maskedAddress size addr = addr.toNat &&& (size - 1) := by
  unfold maskedAddress
  rw [UInt32.toNat_and, UInt32.toNat_ofNat', Nat.mod_eq_of_lt (by omega)]

theorem maskedAddress_of_lt {k : Nat} (hk : k ≤ 32) {addr : UInt32} (h : addr.toNat < 2 ^ k) :
    maskedAddress (2 ^ k) addr = addr.toNat := by
  rw [maskedAddress_eq (Nat.pow_le_pow_right (by decide) hk), Nat.and_two_pow_sub_one_eq_mod,
    Nat.mod_eq_of_lt h]

theorem bytesPerLine_two (width : UInt32) :
    (bytesPerLine width 2).toNat = width.toNat % 2 ^ 30 * 2 := by
  unfold bytesPerLine
  have hshift : (width <<< 2).toNat = width.toNat * 4 % 2 ^ 32 := by
    rw [UInt32.toNat_shiftLeft]
    change width.toNat <<< 2 % 2 ^ 32 = _
    rw [Nat.shiftLeft_eq]
  rw [UInt32.toNat_shiftRight, hshift]
  change (width.toNat * 4 % 2 ^ 32) >>> 1 = _
  rw [Nat.shiftRight_eq_div_pow]
  omega

end ParallelN64.Hires
