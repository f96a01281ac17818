import Mathlib.Algebra.Order.Ring.Unbundled.Rat
import Mathlib.Algebra.Ring.Nat
import Mathlib.Data.Fin.VecNotation
import Mathlib.Data.Int.Range
import Mathlib.Data.Rat.Defs

/-! The rasteriser of `plumos_cart3d.h`. Floating-point arithmetic and the conversions from
and to it are arbitrary functions; the two buffers of a target are one function of the
pixel index. -/

namespace PlumosBubble.Cart3d

instance neZero_3 : NeZero 3 := ⟨by decide⟩

/-- The operations on `float` that the rasteriser uses. -/
class FloatOps (F : Type) extends Add F, Sub F, Mul F, Div F, Neg F where
  lt : F → F → Bool
  le : F → F → Bool
  /-- A constant of the source. -/
  const : ℚ → F
  ofInt : ℤ → F
  toInt : F → ℤ
  ofByte : UInt8 → F
  toByte : F → UInt8
  floor : F → F
  ceil : F → F
  fmin : F → F → F
  fmax : F → F → F
  expf : F → F

open FloatOps

/-- The colour of a pixel in `rgb`, and its value in `depth`. -/
structure Pixel (F : Type) where
  rgb : Fin 3 → UInt8
  depth : F

/-- `struct cart3d_tex`. -/
structure Tex where
  rgb : ℕ → UInt8
  width : ℤ
  height : ℤ
  filterNearest : Bool

/-- A projected triangle: screen `x`, screen `y` and `1/w` of its corners. -/
abbrev Corners (F : Type) := Fin 3 → Fin 3 → F

section Bounds

variable {F : Type} [FloatOps F]

/-- `(int)floorf(fminf(a, fminf(b, c)))`. -/
def floorMin (a b c : F) : ℤ := toInt (floor (fmin a (fmin b c)))

/-- `(int)ceilf(fmaxf(a, fmaxf(b, c)))`. -/
def ceilMax (a b c : F) : ℤ := toInt (ceil (fmax a (fmax b c)))

end Bounds

/-- `struct cart3d_draw`, as `cart3d_emit` fills it in. -/
structure Draw (F : Type) [FloatOps F] where
  s : Corners F
  uv : Fin 3 → Fin 2 → F
  tex : Option Tex
  colour : Fin 3 → UInt8
  shade : F
  alpha : F
  rim : F
  gloss : Bool
  ymin : ℤ
  ymax : ℤ
  ymin_eq : ymin = floorMin (s 0 1) (s 1 1) (s 2 1)
  ymax_eq : ymax = ceilMax (s 0 1) (s 1 1) (s 2 1)

section Raster

variable {F : Type} [FloatOps F]

/-- Bring `c` between two bounds, as the source does with two comparisons. -/
def clampTo (lo hi c : F) : F :=
  let c := if lt c lo then lo else c
  if lt hi c then hi else c

/-- `cart3d_sample`. -/
def sample (tex : Tex) (u v : F) : Fin 3 → F :=
  let tu := clampTo (const 0) (ofInt (tex.width - 1)) (u * ofInt (tex.width - 1))
  let tv := clampTo (const 0) (ofInt (tex.height - 1)) (v * ofInt (tex.height - 1))
  let texel (x y : ℤ) (i : Fin 3) : F :=
    ofByte (tex.rgb ((y.toNat * tex.width.toNat + x.toNat) * 3 + i))
  if tex.filterNearest then
    texel (toInt (tu + const 0.5)) (toInt (tv + const 0.5))
  else
    let x0 := toInt tu
    let y0 := toInt tv
    let x1 := if x0 + 1 < tex.width then x0 + 1 else x0
    let y1 := if y0 + 1 < tex.height then y0 + 1 else y0
    let fx := tu - ofInt x0
    let fy := tv - ofInt y0
    fun i =>
      let a := texel x0 y0 i + (texel x1 y0 i - texel x0 y0 i) * fx
      let b := texel x0 y1 i + (texel x1 y1 i - texel x0 y1 i) * fx
      a + (b - a) * fy

/-- The values that `cart3d_raster_band` steps from pixel to pixel. -/
structure Fragment (F : Type) where
  w : Fin 3 → F
  iw : F
  uw : F
  vw : F

/-- The colour of a fragment before light. -/
def source (d : Draw F) (f : Fragment F) : Fin 3 → F :=
  match d.tex with
  | none => fun i => ofByte (d.colour i)
  | some tex =>
    let inv := const 1 / f.iw
    let u := f.uw * inv
    let v := f.vw * inv
    let src := sample tex u v
    if d.gloss then
      let e := (u * const 0.75 + v - const 0.40) / const 0.17
      let lift := const 1 + const 0.15 * (const 1 - v)
      let streak := if lt (-const 3) e && lt e (const 3) then expf (-e * e) else const 0
      fun i => src i * lift + const 24 * streak
    else src

/-- What a fragment leaves of the pixel it falls on. -/
def shadePixel (d : Draw F) (zwrite : Bool) (f : Fragment F) (p : Pixel F) : Pixel F :=
  if lt p.depth f.iw then
    { rgb := fun i =>
        let c := clampTo (const 0) (const 255) (source d f i * d.shade + d.rim)
        let c :=
          if lt d.alpha (const 0.999) then
            ofByte (p.rgb i) * (const 1 - d.alpha) + c * d.alpha
          else c
        toByte (c + const 0.5)
      depth := if zwrite then f.iw else p.depth }
  else p

/-- The part of `cart3d_raster_band` before its loops: what the triangle has to do with the
columns and rows of the target. -/
structure Setup (F : Type) where
  minx : ℤ
  maxx : ℤ
  invArea : F
  dwdx : Fin 3 → F
  u : Fin 3 → F
  v : Fin 3 → F
  diwdx : F
  duwdx : F
  dvwdx : F

def area (s : Corners F) : F :=
  (s 1 0 - s 0 0) * (s 2 1 - s 0 1) - (s 2 0 - s 0 0) * (s 1 1 - s 0 1)

def setup (width : ℤ) (d : Draw F) : Setup F :=
  let s := d.s
  let invArea := const 1 / area s
  let dwdx : Fin 3 → F := ![-(s 2 1 - s 1 1), -(s 0 1 - s 2 1), -(s 1 1 - s 0 1)]
  let u : Fin 3 → F := if d.tex.isSome then fun j => d.uv j 0 * s j 2 else fun _ => const 0
  let v : Fin 3 → F := if d.tex.isSome then fun j => d.uv j 1 * s j 2 else fun _ => const 0
  let slope (a : Fin 3 → F) : F := (dwdx 0 * a 0 + dwdx 1 * a 1 + dwdx 2 * a 2) * invArea
  { minx := max 0 (floorMin (s 0 0) (s 1 0) (s 2 0))
    maxx := min (width - 1) (ceilMax (s 0 0) (s 1 0) (s 2 0))
    invArea
    dwdx
    u
    v
    diwdx := slope fun j => s j 2
    duwdx := if d.tex.isSome then slope u else const 0
    dvwdx := if d.tex.isSome then slope v else const 0 }

/-- The edge functions at the first column of a row. -/
def rowEdges (c : Setup F) (s : Corners F) (y : ℤ) : Fin 3 → F :=
  let px := ofInt c.minx + const 0.5
  let py := ofInt y + const 0.5
  ![(s 2 0 - s 1 0) * (py - s 1 1) - (s 2 1 - s 1 1) * (px - s 1 0),
    (s 0 0 - s 2 0) * (py - s 2 1) - (s 0 1 - s 2 1) * (px - s 2 0),
    (s 1 0 - s 0 0) * (py - s 0 1) - (s 1 1 - s 0 1) * (px - s 0 0)]

/-- What one edge leaves of the columns of a row. -/
def clipSpan (c : Setup F) (row slope : F) (span : ℤ × ℤ) : ℤ × ℤ :=
  if lt (const 1e-9) slope || lt slope (-const 1e-9) then
    let bound := ofInt c.minx - row / slope
    let bound :=
      if lt bound (ofInt c.minx - const 2) then ofInt c.minx - const 2
      else if lt (ofInt c.maxx + const 2) bound then ofInt c.maxx + const 2
      else bound
    if lt (const 0) slope then (span.1, min span.2 (toInt (floor bound) + 1))
    else (max span.1 (toInt (ceil bound) - 1), span.2)
  else if lt (const 0) row then (1, 0)
  else span

/-- The columns of a row that the triangle may cover. -/
def rowSpan (c : Setup F) (row : Fin 3 → F) : ℤ × ℤ :=
  let span := (List.finRange 3).foldl (fun span e => clipSpan c (row e) (c.dwdx e) span)
    (c.minx, c.maxx)
  (max span.1 c.minx, min span.2 c.maxx)

/-- The fragment at a column of a row. -/
def firstFragment (c : Setup F) (d : Draw F) (row : Fin 3 → F) (x : ℤ) : Fragment F :=
  let w : Fin 3 → F := fun e => row e + ofInt (x - c.minx) * c.dwdx e
  let interp (a : Fin 3 → F) : F := (w 0 * a 0 + w 1 * a 1 + w 2 * a 2) * c.invArea
  { w
    iw := interp fun j => d.s j 2
    uw := if d.tex.isSome then interp c.u else const 0
    vw := if d.tex.isSome then interp c.v else const 0 }

/-- The fragment at the next column. -/
def Fragment.step (c : Setup F) (f : Fragment F) : Fragment F where
  w e := f.w e + c.dwdx e
  iw := f.iw + c.diwdx
  uw := f.uw + c.duwdx
  vw := f.vw + c.dvwdx

/-- The index of a pixel. -/
def pixelIndex (width x y : ℤ) : ℕ := y.toNat * width.toNat + x.toNat

/-- What `cart3d_raster_band` does with one pixel. -/
def writeFragment (width : ℤ) (d : Draw F) (zwrite : Bool) (y : ℤ) (f : Fragment F) (x : ℤ)
    (pixels : ℕ → Pixel F) : ℕ → Pixel F :=
  if le (f.w 0) (const 0) && le (f.w 1) (const 0) && le (f.w 2) (const 0) then
    Function.update pixels (pixelIndex width x y)
      (shadePixel d zwrite f (pixels (pixelIndex width x y)))
  else pixels

/-- The loop of `cart3d_raster_band` over the columns of a row. -/
def rasterRow (width : ℤ) (d : Draw F) (zwrite : Bool) (y : ℤ) (pixels : ℕ → Pixel F) :
    ℕ → Pixel F :=
  let c := setup width d
  let row := rowEdges c d.s y
  let span := rowSpan c row
  ((Int.range span.1 (span.2 + 1)).foldl
    (fun (p : (ℕ → Pixel F) × Fragment F) x =>
      (writeFragment width d zwrite y p.2 x p.1, p.2.step c))
    (pixels, firstFragment c d row span.1)).1

/-- The rows that `cart3d_raster_band` goes through. -/
def bandRows (width : ℤ) (d : Draw F) (bandY0 bandY1 : ℤ) : List ℤ :=
  if le (-const 1e-6) (area d.s) then []
  else
    let c := setup width d
    let miny := max bandY0 (floorMin (d.s 0 1) (d.s 1 1) (d.s 2 1))
    let maxy := min (bandY1 - 1) (ceilMax (d.s 0 1) (d.s 1 1) (d.s 2 1))
    if c.maxx < c.minx || maxy < miny then [] else Int.range miny (maxy + 1)

/-- `cart3d_raster_band`. -/
def rasterBand (width : ℤ) (d : Draw F) (zwrite : Bool) (bandY0 bandY1 : ℤ)
    (pixels : ℕ → Pixel F) : ℕ → Pixel F :=
  (bandRows width d bandY0 bandY1).foldl (fun pixels y => rasterRow width d zwrite y pixels)
    pixels

/-- `cart3d_draw_list_band`. -/
def drawListBand (width height : ℤ) (draws : List (Draw F)) (zwrite : Bool)
    (bandY0 bandY1 : ℤ) (pixels : ℕ → Pixel F) : ℕ → Pixel F :=
  let bandY0 := max bandY0 0
  let bandY1 := min bandY1 height
  draws.foldl (fun pixels d =>
    if d.ymax < bandY0 || bandY1 ≤ d.ymin then pixels
    else rasterBand width d zwrite bandY0 bandY1 pixels) pixels

/-- `cart3d_draw_list`. -/
def drawList (width height : ℤ) (draws : List (Draw F)) (zwrite : Bool)
    (pixels : ℕ → Pixel F) : ℕ → Pixel F :=
  drawListBand width height draws zwrite 0 height pixels

end Raster

end PlumosBubble.Cart3d
