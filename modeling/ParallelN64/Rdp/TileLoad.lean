import ParallelN64.Core.Window

/-!
# Loading a tile in parts

A load puts lines of a texture in memory into the 4 KiB of texture memory. A load of more than
that is issued in parts of whole lines, an even number of them, each at its own offset in texture
memory. A part sets the size of the tile, and the size of the whole load is set again at the end.
-/

namespace ParallelN64.Rdp

open ParallelN64.Core

inductive TextureSize
  | Bpp4
  | Bpp8
  | Bpp16
  | Bpp32
  deriving DecidableEq

def TextureSize.toUInt32 : TextureSize → UInt32
  | .Bpp4 => 0
  | .Bpp8 => 1
  | .Bpp16 => 2
  | .Bpp32 => 3

/-- Texture formats; three values of the field name none. -/
inductive TextureFormat
  | RGBA
  | YUV
  | CI
  | IA
  | I
  | other (value : UInt32)
  deriving DecidableEq

def TextureFormat.toUInt32 : TextureFormat → UInt32
  | .RGBA => 0
  | .YUV => 1
  | .CI => 2
  | .IA => 3
  | .I => 4
  | .other value => value

inductive UploadMode
  | Tile
  | TLUT
  | Block
  deriving DecidableEq

def UploadMode.toUInt32 : UploadMode → UInt32
  | .Tile => 0
  | .TLUT => 1
  | .Block => 2

structure TileSize where
  slo : UInt32 := 0
  shi : UInt32 := 0
  tlo : UInt32 := 0
  thi : UInt32 := 0
  deriving DecidableEq

structure TileMeta where
  offset : UInt32 := 0
  stride : UInt32 := 0
  fmt : TextureFormat := .RGBA
  size : TextureSize := .Bpp16
  deriving DecidableEq

structure TileInfo where
  size : TileSize := {}
  tileMeta : TileMeta := {}
  deriving DecidableEq

/-- A load; coordinates are in quarters of a texel. -/
structure LoadTileInfo where
  texAddr : UInt32
  texWidth : UInt32
  slo : UInt16
  tlo : UInt16
  shi : UInt16
  thi : UInt16
  size : TextureSize
  mode : UploadMode
  deriving DecidableEq

def LoadTileInfo.tileSize (info : LoadTileInfo) : TileSize where
  slo := info.slo.toUInt32
  shi := info.shi.toUInt32
  tlo := info.tlo.toUInt32
  thi := info.thi.toUInt32

/-- What a part of a load hands to the shader. -/
structure UploadInfo where
  width : UInt32
  height : UInt32
  vramAddr : UInt32
  vramWidth : UInt32
  vramSize : UInt32
  vramEffectiveWidth : UInt32
  tmemOffset : UInt32
  tmemStrideWords : UInt32
  tmemSize : UInt32
  tmemFmt : UInt32
  mode : UInt32
  dxt : UInt32 := 0
  deriving DecidableEq

/-- Formats and sizes that no part is uploaded with. -/
def refusesFormats (tileMeta : TileMeta) (info : LoadTileInfo) : Bool :=
  (tileMeta.fmt = .YUV && (tileMeta.size ≠ .Bpp16 || info.size ≠ .Bpp16)) ||
  info.size = .Bpp4 ||
  (tileMeta.size = .Bpp32 && tileMeta.fmt ≠ .RGBA) ||
  (info.mode = .TLUT && tileMeta.size = .Bpp32) ||
  (info.mode ≠ .TLUT &&
    ((info.size = .Bpp32 && tileMeta.size = .Bpp8) ||
      (info.size = .Bpp16 && tileMeta.size = .Bpp4) ||
      (info.size = .Bpp32 && tileMeta.size = .Bpp4)))

def LoadTileInfo.lineWidth (info : LoadTileInfo) : UInt32 :=
  (((info.shi >>> 2).toUInt32 - (info.slo >>> 2).toUInt32) + 1) &&& 0xfff

def LoadTileInfo.lineCount (info : LoadTileInfo) : UInt32 :=
  ((info.thi >>> 2).toUInt32 - (info.tlo >>> 2).toUInt32) + 1

def vramEffectiveWidth (info : LoadTileInfo) (width : UInt32) : UInt32 :=
  match info.size with
  | .Bpp8 => (width + 7) &&& ~~~7
  | .Bpp16 => if info.mode = .TLUT then width else (width + 3) &&& ~~~3
  | .Bpp32 => (width + 1) &&& ~~~1
  | .Bpp4 => 0

def uploadWidth (tileMeta : TileMeta) (width : UInt32) : UInt32 :=
  match tileMeta.size with
  | .Bpp4 => ((width + 15) &&& ~~~15) >>> 2
  | .Bpp8 => ((width + 7) &&& ~~~7) >>> 1
  | .Bpp16 =>
    let width := (width + 3) &&& ~~~3
    if tileMeta.fmt = .YUV then width >>> 1 else width
  | .Bpp32 => (width + 1) &&& ~~~1

section Load

-- The upload of a block, whose lines follow from its increment; the results hold for any.
variable (blockUpload : TileMeta → LoadTileInfo → UInt32 → Option UploadInfo)

/-- The upload of a part, unless it is refused. -/
def tileUpload (tileMeta : TileMeta) (info : LoadTileInfo) (tmemOffset : UInt32) :
    Option UploadInfo :=
  if refusesFormats tileMeta info then none
  else if info.mode = .Block then blockUpload tileMeta info tmemOffset
  else
    let uploadX := (info.slo >>> 2).toUInt32
    let uploadY := (info.tlo >>> 2).toUInt32
    let width := info.lineWidth
    let height := info.lineCount
    if width = 0 then none
    else if 1 < height && info.mode = .TLUT then none
    else some
      { width := uploadWidth tileMeta width
        height
        vramAddr := info.texAddr +
          ((info.texWidth * uploadY + uploadX) <<< (info.size.toUInt32 - 1))
        vramWidth := info.texWidth
        vramSize := info.size.toUInt32
        vramEffectiveWidth := vramEffectiveWidth info width
        tmemOffset := (tileMeta.offset + tmemOffset) &&& 0xfff
        tmemStrideWords := tileMeta.stride >>> 1
        tmemSize := tileMeta.size.toUInt32
        tmemFmt := tileMeta.fmt.toUInt32
        mode := info.mode.toUInt32 }

/-- A part that was issued: its lines and its offset in texture memory. -/
structure PartialLoad where
  info : LoadTileInfo
  tmemOffset : UInt32
  deriving DecidableEq

/-- The tile, the parts that were issued and what they uploaded. -/
structure LoadRun where
  tile : TileInfo
  partials : List PartialLoad := []
  uploads : List UploadInfo := []
  deriving DecidableEq

/-- Issue one part; it sets the size of the tile whether or not it is refused. -/
def LoadRun.loadTileIteration (run : LoadRun) (part : PartialLoad) : LoadRun where
  tile := { run.tile with size := part.info.tileSize }
  partials := run.partials ++ [part]
  uploads := run.uploads ++
    (tileUpload blockUpload run.tile.tileMeta part.info part.tmemOffset).toList

/-- A conservative number of bytes that a line covers in texture memory. -/
def bytesCoveredPerLine (tileMeta : TileMeta) (info : LoadTileInfo) : UInt32 :=
  let pixelsCoveredPerLine :=
    if tileMeta.fmt = .YUV then info.lineWidth * 2 else info.lineWidth
  let quadWords := ((pixelsCoveredPerLine <<< tileMeta.size.toUInt32) + 15) >>> 4
  let quadWordsCoveredPerLine :=
    if info.size.toUInt32 < tileMeta.size.toUInt32 then
      quadWords <<< (tileMeta.size.toUInt32 - info.size.toUInt32)
    else if tileMeta.size.toUInt32 < info.size.toUInt32 then
      quadWords >>> (info.size.toUInt32 - tileMeta.size.toUInt32)
    else quadWords
  let bytes := quadWordsCoveredPerLine * 8
  if bytes < tileMeta.stride then tileMeta.stride else bytes

def maxLinesPerIteration (tileMeta : TileMeta) (info : LoadTileInfo) : UInt32 :=
  (0x1000 / bytesCoveredPerLine tileMeta info) &&& ~~~1

def needsSplit (tileMeta : TileMeta) (info : LoadTileInfo) : Bool :=
  info.mode = .Tile && 0x1000 < bytesCoveredPerLine tileMeta info * info.lineCount

/-- The part of some lines. -/
def partialLoad (tileMeta : TileMeta) (info : LoadTileInfo) (line toCopyLines : UInt32) :
    PartialLoad :=
  let tlo := (info.tlo.toUInt32 + (line <<< 2)).toUInt16
  let thi := (tlo.toUInt32 + ((toCopyLines - 1) <<< 2)).toUInt16
  { info := { info with tlo, thi }, tmemOffset := line * tileMeta.stride }

/-- Issue the parts from a line on. The loop may take too many rounds for the fuel. -/
def loadTileLoop (info : LoadTileInfo) (numLines maxLines : UInt32) :
    Nat → UInt32 → LoadRun → Option LoadRun
  | 0, _, _ => none
  | fuel + 1, line, run =>
    if line < numLines then
      let toCopyLines := if maxLines < numLines - line then maxLines else numLines - line
      loadTileLoop info numLines maxLines fuel (line + maxLines)
        (run.loadTileIteration blockUpload (partialLoad run.tile.tileMeta info line toCopyLines))
    else some run

/-- Load a tile. -/
def loadTile (fuel : Nat) (tile : TileInfo) (info : LoadTileInfo) : Option LoadRun :=
  let run : LoadRun := { tile }
  if info.mode ≠ .Block && (info.thi >>> 2 < info.tlo >>> 2 || info.lineWidth = 0) then some run
  else if info.mode = .Block && (info.shi.toUInt32 - info.slo.toUInt32 + 1) &&& 0xfff = 0 then
    some run
  else if needsSplit tile.tileMeta info then
    if maxLinesPerIteration tile.tileMeta info = 0 then some run
    else do
      let run ← loadTileLoop blockUpload info info.lineCount
        (maxLinesPerIteration tile.tileMeta info) fuel 0 run
      return { run with tile := { run.tile with size := info.tileSize } }
  else some (run.loadTileIteration blockUpload { info, tmemOffset := 0 })

end Load

end ParallelN64.Rdp
