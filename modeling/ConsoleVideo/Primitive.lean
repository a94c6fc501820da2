import ConsoleVideo.Operand

/-!
# What drawing commands ask for

A drawing command, read out of its words but with no setting applied yet:

* `Polygon`, `Line`, `Rectangle` — drawn through the drawing environment;
* `Fill`, `VramCopy`, `ImageLoad`, `VramRect` — acting on the picture memory directly;
* `VramRect.ofWords` — how a transfer states its block, where a size of zero means the maximum.
-/

namespace ConsoleVideo

/-! ### Shapes -/

/-- A corner of a polygon. -/
structure Corner where
  position : Vertex
  color : Color
  texCoord : TexCoord
  deriving DecidableEq, Inhabited

/-- The texture of a polygon, which brings its own page. -/
structure PolygonTexture where
  clut : Clut
  /-- The page attribute, 16 bits. -/
  pageWord : Word
  /-- Texels are taken as they are, not tinted. -/
  raw : Bool
  deriving DecidableEq

/-- The page that the texture lies in. -/
def PolygonTexture.page (texture : PolygonTexture) : TexturePage :=
  TexturePage.ofWord texture.pageWord

/-- A triangle, or the two triangles of a quadrilateral. -/
structure Polygon where
  first : Corner
  second : Corner
  third : Corner
  /-- A quadrilateral has this one too. -/
  fourth : Option Corner
  shaded : Bool
  texture : Option PolygonTexture
  translucent : Bool
  deriving DecidableEq

/-- A straight line, both ends included. -/
structure Line where
  start : Vertex
  stop : Vertex
  startColor : Color
  stopColor : Color
  translucent : Bool
  deriving DecidableEq

/-- The texture of a sprite, which lies in the page that the status selects. -/
structure SpriteTexture where
  texCoord : TexCoord
  clut : Clut
  /-- Texels are taken as they are, not tinted. -/
  raw : Bool
  deriving DecidableEq

/-- An upright rectangle, a sprite if it is textured. -/
structure Rectangle where
  position : Vertex
  width : Nat
  height : Nat
  color : Color
  texture : Option SpriteTexture
  translucent : Bool
  deriving DecidableEq

/-! ### Blocks of picture memory -/

/-- A block filled with one colour. -/
structure Fill where
  color : Color
  x : Nat
  y : Nat
  width : Nat
  height : Nat
  deriving DecidableEq

/-- A block of picture memory; it wraps around the edges. -/
structure VramRect where
  x : Nat
  y : Nat
  width : Nat
  height : Nat
  deriving DecidableEq

namespace VramRect

/-- A size in `[1, limit]` from its field, where zero and the limit are the same. -/
def wrappedSize (n limit : Nat) : Nat :=
  (n + limit - 1) % limit + 1

theorem wrappedSize_pos (n limit : Nat) : 0 < wrappedSize n limit :=
  Nat.succ_pos _

theorem wrappedSize_le {n limit : Nat} (h : 0 < limit) : wrappedSize n limit ≤ limit :=
  Nat.mod_lt _ h

/-- A block from its position word and its size word, columns in the low half of each. -/
def ofWords (position size : Word) : VramRect where
  x := position.field 0 10
  y := position.field 16 9
  width := wrappedSize (size.field 0 16) 1024
  height := wrappedSize (size.field 16 16) 512

/-- The number of pixels. -/
def pixelCount (rect : VramRect) : Nat :=
  rect.width * rect.height

/-- The number of words that carry the pixels, two to a word. -/
def wordCount (rect : VramRect) : Nat :=
  (rect.pixelCount + 1) / 2

end VramRect

/-- A block copied to another place. -/
structure VramCopy where
  fromX : Nat
  fromY : Nat
  toX : Nat
  toY : Nat
  width : Nat
  height : Nat
  deriving DecidableEq

/-- Pixels for a block, two to a word, the low half first. -/
structure ImageLoad where
  rect : VramRect
  payload : Array Word
  deriving DecidableEq

namespace ImageLoad

/-- The half of a word that holds a pixel with this index. -/
def half (w : Word) (i : Nat) : Native :=
  UInt16.ofNat (if i % 2 = 0 then w.toNat else w.toNat / 65536)

/-- Pixel `i` of the block, row by row, if the payload reaches that far. -/
def pixel? (load : ImageLoad) (i : Nat) : Option Native :=
  load.payload[i / 2]?.map (half · i)

end ImageLoad

end ConsoleVideo
