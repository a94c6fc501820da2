import ConsoleVideo.Drawing.Shading
import ConsoleVideo.Primitive

/-!
# Rectangles and sprites

An upright rectangle covers every point between its corners that lies in the drawing area; a sprite
steps through its texture one texel per point, backwards along a flipped axis.

* `Sprite` — a rectangle with the drawing offset and the flips applied;
* `Sprite.columns`, `Sprite.rows` — the points it covers, clipped to the drawing area;
* `Sprite.texelAt` — the texture coordinate of a point;
* `Sprite.scan` — its fragments.
-/

namespace ConsoleVideo

/-- An upright rectangle on the plane. -/
structure Sprite where
  origin : Vertex
  width : Nat
  height : Nat
  base : Deep
  texCoord : TexCoord
  flipX : Bool
  flipY : Bool
  deriving DecidableEq

namespace Sprite

/-- A rectangle moved by the drawing offset. -/
def ofRectangle (rectangle : Rectangle) (environment : Environment) : Sprite where
  origin := rectangle.position.offset environment.offset.x environment.offset.y
  width := rectangle.width
  height := rectangle.height
  base := rectangle.color.deep
  texCoord := (rectangle.texture.map (·.texCoord)).getD ⟨0, 0⟩
  flipX := environment.flipX
  flipY := environment.flipY

/-- The columns inside the drawing area. -/
def columns (sprite : Sprite) (area : DrawingArea) : List Int :=
  span (max sprite.origin.x area.left)
    (min (wrap32 (sprite.origin.x + sprite.width - 1)) area.right)

/-- The rows inside the drawing area. -/
def rows (sprite : Sprite) (area : DrawingArea) : List Int :=
  span (max sprite.origin.y area.top)
    (min (wrap32 (sprite.origin.y + sprite.height - 1)) area.bottom)

/-- A texture coordinate `distance` texels after `start`, or before it. -/
def texelAt (start : UInt8) (flip : Bool) (distance : Int) : Nat :=
  (((start.toNat : Int) + if flip then -distance else distance) % 256).toNat

/-- The fragments of a row. -/
def row (sprite : Sprite) (area : DrawingArea) (y : Int) : List Fragment :=
  let v := texelAt sprite.texCoord.v sprite.flipY (y - sprite.origin.y)
  (sprite.columns area).map fun x =>
    { x := x
      y := y
      base := sprite.base
      u := texelAt sprite.texCoord.u sprite.flipX (x - sprite.origin.x)
      v := v }

def scan (sprite : Sprite) (area : DrawingArea) : Scan where
  rows := sprite.rows area
  row := sprite.row area

end Sprite

end ConsoleVideo
