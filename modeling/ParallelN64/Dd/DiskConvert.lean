import ParallelN64.Dd.Drive

/-!
# From an SDK dump to a MAME image

An SDK dump leaves out the twelve bad tracks of each zone and has the zones in the order of its disk
type. The conversion goes through the tracks of each zone, upwards on the first head and downwards
on the second; it fills the ones on the zone's list of bad tracks with zeros and copies the two
blocks of the others from the dump.
-/

namespace ParallelN64.Dd.Convert

def zoneSecSize : List Nat :=
  [232, 216, 208, 192, 176, 160, 144, 128, 216, 208, 192, 176, 160, 144, 128, 112]

def zoneTracks : List Nat :=
  [158, 158, 149, 149, 149, 149, 149, 114, 158, 158, 149, 149, 149, 149, 149, 114]

def diskTypeZones : List (List Nat) :=
  [[0, 1, 2, 9, 8, 3, 4, 5, 6, 7, 15, 14, 13, 12, 11, 10],
    [0, 1, 2, 3, 10, 9, 8, 4, 5, 6, 7, 15, 14, 13, 12, 11],
    [0, 1, 2, 3, 4, 11, 10, 9, 8, 5, 6, 7, 15, 14, 13, 12],
    [0, 1, 2, 3, 4, 5, 12, 11, 10, 9, 8, 6, 7, 15, 14, 13],
    [0, 1, 2, 3, 4, 5, 6, 13, 12, 11, 10, 9, 8, 7, 15, 14],
    [0, 1, 2, 3, 4, 5, 6, 7, 14, 13, 12, 11, 10, 9, 8, 15],
    [0, 1, 2, 3, 4, 5, 6, 7, 15, 14, 13, 12, 11, 10, 9, 8]]

def revDiskTypeZones : List (List Nat) :=
  [[0, 1, 2, 5, 6, 7, 8, 9, 4, 3, 15, 14, 13, 12, 11, 10],
    [0, 1, 2, 3, 7, 8, 9, 10, 6, 5, 4, 15, 14, 13, 12, 11],
    [0, 1, 2, 3, 4, 9, 10, 11, 8, 7, 6, 5, 15, 14, 13, 12],
    [0, 1, 2, 3, 4, 5, 11, 12, 10, 9, 8, 7, 6, 15, 14, 13],
    [0, 1, 2, 3, 4, 5, 6, 13, 12, 11, 10, 9, 8, 7, 15, 14],
    [0, 1, 2, 3, 4, 5, 6, 7, 14, 13, 12, 11, 10, 9, 8, 15],
    [0, 1, 2, 3, 4, 5, 6, 7, 15, 14, 13, 12, 11, 10, 9, 8]]

def startBlock : List (List Nat) :=
  [[0, 0, 0, 1, 0, 1, 0, 1, 1, 1, 1, 0, 1, 0, 1, 1],
    [0, 0, 0, 1, 1, 0, 1, 0, 1, 1, 0, 1, 0, 1, 0, 0],
    [0, 0, 0, 1, 0, 1, 0, 1, 1, 1, 0, 1, 1, 0, 1, 1],
    [0, 0, 0, 1, 0, 1, 1, 0, 1, 1, 0, 1, 0, 1, 0, 0],
    [0, 0, 0, 1, 0, 1, 0, 1, 1, 1, 0, 1, 0, 1, 1, 1],
    [0, 0, 0, 1, 0, 1, 0, 1, 0, 0, 1, 0, 1, 0, 1, 0],
    [0, 0, 0, 1, 0, 1, 0, 1, 0, 0, 1, 0, 1, 0, 1, 1]]

/-- `ZoneTracks[zone]`. -/
def tracks (zone : Nat) : Nat := zoneTracks.getD zone 0

/-- `BLOCKSIZE`. -/
def blockSize (zone : Nat) : Nat := zoneSecSize.getD zone 0 * sectorsPerBlock

/-- `TRACKSIZE`. -/
def trackSize (zone : Nat) : Nat := blockSize zone * blocksPerTrack

/-- `ZONESIZE`. -/
def zoneSize (zone : Nat) : Nat := trackSize zone * tracks zone

/-- `VZONESIZE`. -/
def vZoneSize (zone : Nat) : Nat := trackSize zone * (tracks zone - 0xC)

def mameFormatDumpSize : Nat := 0x0435B0C0
def sdkFormatDumpSize : Nat := 0x03DEC800

/-- `InStart`, for the zones in the order of the dump. -/
def inStart (types : List Nat) : Nat → Nat
  | 0 => 0
  | zone + 1 => inStart types zone + vZoneSize (types.getD zone 0)

/-- `OutStart`. -/
def outStart : Nat → Nat
  | 0 => 0
  | zone + 1 => outStart zone + zoneSize zone

abbrev Dump := Nat → UInt8

/-- A block of the image, from the dump or of zeros. -/
structure BlockMove where
  source : Option Nat
  dest : Nat
  size : Nat
  deriving DecidableEq, Repr

/-- `SystemData[0x20 + zone * 0xC + atrack]`. -/
def badTrack (dump : Dump) (zone atrack : Nat) : Nat := (dump (0x20 + zone * 0xC + atrack)).toNat

/-- `disktype`. -/
def diskType (dump : Dump) : Nat := (dump 5).toNat % 16

def trackMoves (source0 source1 : Option Nat) (out size : Nat) : List BlockMove :=
  [⟨source0, out, size⟩, ⟨source1, out + size, size⟩]

/-- The tracks of a zone on the first head. -/
def copyHead0 (dump : Dump) (zone : Nat) : List Nat → Nat → Nat → Nat → Nat → List BlockMove
  | [], _, _, _, _ => []
  | track :: rest, atrack, cur, block, out =>
    let size := blockSize zone
    let next := out + size + size
    if atrack < 0xC ∧ track = badTrack dump zone atrack then
      trackMoves none none out size ++ copyHead0 dump zone rest (atrack + 1) cur block next
    else if block % 2 = 1 then
      trackMoves (some (cur + size)) (some cur) out size ++
        copyHead0 dump zone rest atrack (cur + size + size) (1 - block) next
    else
      trackMoves (some cur) (some (cur + size)) out size ++
        copyHead0 dump zone rest atrack (cur + size + size) (1 - block) next

/-- The tracks of a zone on the second head. -/
def copyHead1 (dump : Dump) (zone : Nat) : List Nat → Int → Nat → Nat → List BlockMove
  | [], _, _, _ => []
  | track :: rest, atrack, cur, block =>
    let size := blockSize zone
    let out := outStart zone + (tracks zone - track) * trackSize zone
    if atrack > -1 ∧ tracks zone - track = badTrack dump zone atrack.toNat then
      trackMoves none none out size ++ copyHead1 dump zone rest (atrack - 1) cur block
    else if block % 2 = 1 then
      trackMoves (some (cur + size)) (some cur) out size ++
        copyHead1 dump zone rest atrack (cur + size + size) (1 - block)
    else
      trackMoves (some cur) (some (cur + size)) out size ++
        copyHead1 dump zone rest atrack (cur + size + size) (1 - block)

/-- The blocks of a zone. -/
def copyZone (dump : Dump) (types rev start : List Nat) (zone : Nat) : List BlockMove :=
  let inOffset := inStart types (rev.getD zone 0)
  if zone < 8 then
    copyHead0 dump zone (List.range (tracks zone)) 0 inOffset (start.getD zone 0) (outStart zone)
  else copyHead1 dump zone (List.range' 1 (tracks zone)) 0xB inOffset (start.getD zone 0)

/-- `dd_convert_to_mame`. There is no result where the disk type has no row in the tables. -/
def convertToMame (dump : Dump) : Option (List BlockMove) := do
  let types ← diskTypeZones[diskType dump]?
  let rev ← revDiskTypeZones[diskType dump]?
  let start ← startBlock[diskType dump]?
  some ((List.range 16).flatMap (copyZone dump types rev start))

def BlockMove.run (dump : Dump) (image : Nat → UInt8) (move : BlockMove) : Nat → UInt8 := fun k =>
  if move.dest ≤ k ∧ k < move.dest + move.size then
    move.source.elim 0 fun source => dump (source + (k - move.dest))
  else image k

def moved (dump : Dump) (image : Nat → UInt8) (moves : List BlockMove) : Nat → UInt8 :=
  moves.foldl (BlockMove.run dump) image

end ParallelN64.Dd.Convert
