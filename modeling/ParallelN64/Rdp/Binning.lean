import Mathlib.Order.Interval.Finset.Nat
import Mathlib.Data.Finset.Prod
import ParallelN64.Rdp.Batch

/-!
# Binning primitives to tiles

The screen is cut in tiles of 8 by 8 pixels. A shader decides for every tile and every primitive
whether the primitive can touch the tile, and every tile it accepts takes room in the work list. The
renderer bounds the number of these tiles before it draws, from the same edges, but from lines of
its own choice.
-/

namespace ParallelN64.Rdp

/-- The factors that a command processor upscales by. -/
inductive Upscaling
  | x1
  | x2
  | x4
  | x8
  deriving DecidableEq

def Upscaling.factor : Upscaling → Int
  | .x1 => 1
  | .x2 => 2
  | .x4 => 4
  | .x8 => 8

def triangleSetupFlipBit : UInt8 := 1

def TriangleSetup.flip (setup : TriangleSetup) : Bool :=
  setup.flags &&& triangleSetupFlipBit != 0

def wrap32 (x : Int) : Int := x.bmod (2 ^ 32)

/-- An edge through `x` at line `base`, on line `y`. -/
def edgeAt (scaling : Int) (x dxdy : Int32) (base y : Int) : Int :=
  scaling * x.toInt + (y - base) * dxdy.toInt

def TriangleSetup.xhAt (setup : TriangleSetup) (scaling y : Int) : Int :=
  edgeAt scaling setup.xh setup.dxhdy (scaling * (4 * (setup.yh.toInt / 4))) y

def TriangleSetup.xmAt (setup : TriangleSetup) (scaling y : Int) : Int :=
  edgeAt scaling setup.xm setup.dxmdy (scaling * (4 * (setup.yh.toInt / 4))) y

def TriangleSetup.xlAt (setup : TriangleSetup) (scaling y : Int) : Int :=
  edgeAt scaling setup.xl setup.dxldy (scaling * setup.ym.toInt) y

/-- The edge opposite to the high one: the middle edge above line `ym`, the low edge from there. -/
def TriangleSetup.xOppositeAt (setup : TriangleSetup) (scaling y : Int) : Int :=
  if y < scaling * setup.ym.toInt then setup.xmAt scaling y else setup.xlAt scaling y

def interpolateX (setup : TriangleSetup) (y scaling : Int) : Int × Int :=
  let xhShifted := wrap32 (setup.xhAt scaling y) / 2 ^ 15
  let xlShifted := wrap32 (setup.xOppositeAt scaling y) / 2 ^ 15
  if setup.flip then (xhShifted, xlShifted) else (xlShifted, xhShifted)

structure IVec4 where
  x : Int
  y : Int
  z : Int
  w : Int

namespace IVec4

def map (f : Int → Int) (v : IVec4) : IVec4 := ⟨f v.x, f v.y, f v.z, f v.w⟩

def toList (v : IVec4) : List Int := [v.x, v.y, v.z, v.w]

def minimum4 (v : IVec4) : Int := min (min v.x v.z) (min v.y v.w)

def maximum4 (v : IVec4) : Int := max (max v.x v.z) (max v.y v.w)

end IVec4

/-- The leftmost left edge and the rightmost right edge of four lines. The shader steps the four
lines together, each as the renderer steps one. -/
def interpolateXs (setup : TriangleSetup) (ys : IVec4) (scaling : Int) : Int × Int :=
  ((ys.map fun y => (interpolateX setup y scaling).1).minimum4,
    (ys.map fun y => (interpolateX setup y scaling).2).maximum4)

def clamp (x lo hi : Int) : Int := min (max x lo) hi

/-- The first line of a primitive from pixel row `lo` on. -/
def binStartY (setup : TriangleSetup) (lo scaling : Int) : Int :=
  max (lo * 4) (scaling * setup.yh.toInt)

/-- The last line of a primitive down to pixel row `hi`. -/
def binEndY (setup : TriangleSetup) (hi scaling : Int) : Int :=
  min (hi * 4 + 3) (scaling * setup.yl.toInt - 1)

/-- The lines that the shader samples between the pixel rows `lo` and `hi`. -/
def binLines (setup : TriangleSetup) (lo hi scaling : Int) : IVec4 :=
  let startY := binStartY setup lo scaling
  let endY := binEndY setup hi scaling
  ⟨startY, endY, clamp (setup.ym.toInt * scaling - 1) startY endY,
    clamp (setup.ym.toInt * scaling) startY endY⟩

/-- Whether a primitive can touch the pixels from `lo` to `hi`. -/
def binPrimitive (setup : TriangleSetup) (lo hi : Int × Int) (scaling : Int) : Bool :=
  if binEndY setup hi.2 scaling < binStartY setup lo.2 scaling then false
  else
    let xRange := interpolateXs setup (binLines setup lo.2 hi.2 scaling) scaling
    max xRange.1 lo.1 ≤ min xRange.2 hi.1

def scissorBase (scissor : ScissorState) (scaling : Int) : Int × Int :=
  (scaling * (scissor.xlo.val / 4 : Int), scaling * (scissor.ylo.val / 4 : Int))

def scissorEnd (scissor : ScissorState) (scaling : Int) : Int × Int :=
  (scaling * ((scissor.xhi.val + 3) / 4 : Int) - 1,
    scaling * ((scissor.yhi.val + 3) / 4 : Int) - 1)

/-- Width and height of a framebuffer in pixels. -/
structure Resolution where
  width : Nat
  height : Nat

/-- Whether the shader accepts a primitive between two pixels, clipped to the scissor rectangle
widened by `margin` on its near sides. -/
def binClipped (setup : TriangleSetup) (scissor : ScissorState) (scaling margin : Int)
    (base last : Int × Int) : Bool :=
  let clippedBaseCoord :=
    (max base.1 ((scissorBase scissor scaling).1 - margin),
      max base.2 ((scissorBase scissor scaling).2 - margin))
  let clippedEndCoord :=
    (min last.1 (scissorEnd scissor scaling).1, min last.2 (scissorEnd scissor scaling).2)
  binPrimitive setup clippedBaseCoord clippedEndCoord scaling

/-- Whether the shader accepts a primitive in a tile. -/
def binTile (setup : TriangleSetup) (scissor : ScissorState) (scaling : Int)
    (resolution : Resolution) (tile : Nat × Nat) : Bool :=
  binClipped setup scissor scaling 0 (tile.1 * 8, tile.2 * 8)
    (min (tile.1 * 8 + 8 : Int) resolution.width - 1,
      min (tile.2 * 8 + 8 : Int) resolution.height - 1)

/-- Whether the shader accepts a primitive in a group of 8 by `tilesY` tiles. The tiles of a
group are tested only then. -/
def binMetaTile (setup : TriangleSetup) (scissor : ScissorState) (scaling : Int)
    (resolution : Resolution) (tilesY : Nat) (metaTile : Nat × Nat) : Bool :=
  binClipped setup scissor scaling 1 (metaTile.1 * 64, metaTile.2 * (8 * tilesY))
    (min (metaTile.1 * 64 + 64 : Int) resolution.width - 1,
      min (metaTile.2 * (8 * tilesY) + 8 * tilesY : Int) resolution.height - 1)

/-- The tiles of a framebuffer in which the shader accepts a primitive. -/
def binnedTiles (setup : TriangleSetup) (scissor : ScissorState) (scaling : Int)
    (resolution : Resolution) : Finset (Nat × Nat) :=
  (Finset.range ((resolution.width + 7) / 8) ×ˢ
    Finset.range ((resolution.height + 7) / 8)).filter
      fun tile => binTile setup scissor scaling resolution tile

def estimateStartY (setup : TriangleSetup) (scissor : ScissorState) (scaling : Int) : Int :=
  max (scissor.ylo.val : Int) (4 * (setup.yh.toInt / 4)) * scaling

def estimateEndY (setup : TriangleSetup) (scissor : ScissorState) (scaling : Int) : Int :=
  min ((scissor.yhi.val : Int) - 1) (4 * ((setup.yl.toInt - 1) / 4) + 3) * scaling

/-- The lines that the renderer samples. -/
def estimateLines (setup : TriangleSetup) (scissor : ScissorState) (scaling : Int) : IVec4 :=
  let startY := estimateStartY setup scissor scaling
  let endY := estimateEndY setup scissor scaling
  let ym := scaling * setup.ym.toInt
  if ym > startY ∧ ym < endY then ⟨startY, endY, ym, ym - 1⟩ else ⟨startY, endY, startY, startY⟩

/-- A bound on the number of tiles that a primitive can touch. -/
def computeConservativeMaxNumTiles (setup : TriangleSetup) (scissor : ScissorState)
    (scaling : Int) : Nat :=
  if setup.yl.toInt ≤ setup.yh.toInt then 0
  else
    let startY := estimateStartY setup scissor scaling
    let endY := estimateEndY setup scissor scaling
    if endY < startY then 0
    else
      let lines := estimateLines setup scissor scaling
      let xLeft := lines.map fun y => (interpolateX setup y scaling).1
      let xRight := lines.map fun y => (interpolateX setup y scaling).2
      let startX :=
        max (min (min xLeft.x xLeft.y) (min xLeft.z xLeft.w)) (scissorBase scissor scaling).1
      let endX :=
        min (max (max xRight.x xRight.y) (max xRight.z xRight.w)) (scissorEnd scissor scaling).1
      if endX < startX then 0
      else ((endX / 8 - startX / 8 + 1) * (endY / 32 - startY / 32 + 1)).toNat

end ParallelN64.Rdp
