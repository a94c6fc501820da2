import ConsoleVideo.Environment
import ConsoleVideo.Vram
import ConsoleVideo.Grid

/-!
# Shading

Every shape ends up as fragments, points with a base colour and a texture coordinate, and every
fragment is laid down in the same way.

* `TexturePage.sample` — the texel at a coordinate, none where the texture is transparent;
* `Pen` — what laying down takes from the settings, `Paint` — what it takes from the shape;
* `Pen.shade` — lays down one fragment: skips masked and transparent points, tints the texel,
  mixes with what is there and writes the pixel; `shade_of_masked` and `shade_eq_self_or_set` say
  that it changes at most the cell of the fragment, and none that is protected;
* `Scan` — the fragments of a shape row by row; `Scan.paint` lays them down in that order
  (`paint_eq_foldl`).
-/

namespace ConsoleVideo

/-! ### Texels -/

/-- The texel at column `u` and row `v` of a page.  Indexed pages hold several texels to a cell and
resolve them through the row of cells that starts at the colour table; a texel of zero is
transparent. -/
def TexturePage.sample (page : TexturePage) (clut : Clut) (vram : Vram) (u v : Nat) :
    Option Deep :=
  let row := page.y + v
  let texel :=
    match page.depth with
    | .indexed4 =>
      let cell := (vram.nativeAt (page.x + u / 4 : Nat) row).toNat
      vram.nativeAt (clut.x + cell / Nat.pow 16 (u % 4) % 16 : Nat) clut.y
    | .indexed8 =>
      let cell := (vram.nativeAt (page.x + u / 2 : Nat) row).toNat
      vram.nativeAt (clut.x + cell / Nat.pow 256 (u % 2) % 256 : Nat) clut.y
    | .direct | .reserved => vram.nativeAt (page.x + u : Nat) row
  if texel = 0 then none else some (Native.expand texel)

/-- A texture as a shape uses it. -/
structure Texture where
  page : TexturePage
  clut : Clut
  /-- Texels are taken as they are, not tinted. -/
  raw : Bool
  deriving DecidableEq

/-! ### Laying down a fragment -/

/-- What laying down takes from the settings. -/
structure Pen where
  window : TextureWindow
  blend : BlendMode
  setMask : Bool
  checkMask : Bool
  deriving DecidableEq

/-- The pen of the current settings. -/
def Pen.ofSettings (status : Status) (environment : Environment) : Pen where
  window := environment.window
  blend := status.blend
  setMask := status.setMask
  checkMask := status.checkMask

/-- What laying down takes from the shape. -/
structure Paint where
  texture : Option Texture
  translucent : Bool
  deriving DecidableEq

/-- A point of a shape. -/
structure Fragment where
  x : Int
  y : Int
  base : Deep
  /-- The texture coordinate, which counts only if the shape is textured. -/
  u : Nat
  v : Nat
  deriving DecidableEq

namespace Pen

/-- The pixel that results where `color` is drawn over `back`. -/
def mix (pen : Pen) (translucent : Bool) (back color : Deep) : Deep :=
  let visible := if translucent then pen.blend.mix back color else color
  Deep.withMask visible (pen.setMask || Deep.isMasked color)

/-- The colour that a fragment brings, and whether it is mixed with what is there; none where the
texture is transparent.  Textured points are translucent only where the texel says so. -/
def source (pen : Pen) (paint : Paint) (vram : Vram) (fragment : Fragment) :
    Option (Deep × Bool) :=
  match paint.texture with
  | none => some (Deep.color fragment.base, paint.translucent)
  | some texture =>
    (texture.page.sample texture.clut vram (pen.window.u.apply fragment.u)
        (pen.window.v.apply fragment.v)).map fun texel =>
      (if texture.raw then texel else Deep.modulate fragment.base texel,
        paint.translucent && Deep.isMasked texel)

/-- Lays down one fragment. -/
def shade (pen : Pen) (paint : Paint) (vram : Vram) (fragment : Fragment) : Vram :=
  if pen.checkMask && vram.isMasked fragment.x fragment.y then vram
  else match pen.source paint vram fragment with
    | none => vram
    | some (color, translucent) =>
      vram.set fragment.x fragment.y
        (pen.mix translucent (vram.deepAt fragment.x fragment.y) color)

theorem shade_of_masked {pen : Pen} {paint : Paint} {vram : Vram} {fragment : Fragment}
    (check : pen.checkMask = true) (masked : vram.isMasked fragment.x fragment.y = true) :
    pen.shade paint vram fragment = vram := by
  simp [shade, check, masked]

theorem shade_eq_self_or_set (pen : Pen) (paint : Paint) (vram : Vram) (fragment : Fragment) :
    pen.shade paint vram fragment = vram ∨
      ∃ color, pen.shade paint vram fragment = vram.set fragment.x fragment.y color := by
  unfold shade
  split
  · exact .inl rfl
  · split
    · exact .inl rfl
    · exact .inr ⟨_, rfl⟩

end Pen

/-! ### Whole shapes -/

/-- A shape as fragments, row by row. -/
structure Scan where
  rows : List Int
  row : Int → List Fragment

namespace Scan

/-- All fragments in drawing order. -/
def fragments (scan : Scan) : List Fragment :=
  scan.rows.flatMap scan.row

/-- Lays down all fragments. -/
def paint (scan : Scan) (pen : Pen) (paint : Paint) (vram : Vram) : Vram :=
  scan.rows.foldl (fun vram y => (scan.row y).foldl (pen.shade paint) vram) vram

theorem paint_eq_foldl (scan : Scan) (pen : Pen) (paint : Paint) (vram : Vram) :
    scan.paint pen paint vram = scan.fragments.foldl (pen.shade paint) vram := by
  simp [Scan.paint, fragments, List.foldl_flatMap]

end Scan

end ConsoleVideo
