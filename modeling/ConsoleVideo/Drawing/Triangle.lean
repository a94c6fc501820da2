import ConsoleVideo.Drawing.Shading
import ConsoleVideo.Primitive

/-!
# Triangles

A triangle covers the points that lie on the inner side of its three edges.

* `Point` — a corner on the plane, with colour and texture coordinate as integers;
  `Point.clip` pulls it into the drawing area;
* `orient` — twice the signed area of three points;
* `Triangle` — three corners in clockwise order around a positive area;
  `Triangle.ofPoints?` finds it, and finds none for points in a row;
* `Triangle.covers` — the edge test, with points on a shared edge given to one side only;
* `Triangle.interpolate` — a value carried by the corners, at a point;
* `Triangle.scan` — the fragments inside the drawing area.
-/

namespace ConsoleVideo

/-- A corner on the plane. -/
structure Point where
  x : Int
  y : Int
  red : Int
  green : Int
  blue : Int
  u : Int
  v : Int
  deriving DecidableEq

namespace Point

/-- A corner moved by the drawing offset. -/
def ofCorner (corner : Corner) (offset : DrawOffset) : Point :=
  let position := corner.position.offset offset.x offset.y
  { x := position.x
    y := position.y
    red := corner.color.red.toNat
    green := corner.color.green.toNat
    blue := corner.color.blue.toNat
    u := corner.texCoord.u.toNat
    v := corner.texCoord.v.toNat }

/-- A coordinate pulled between two bounds; the lower one is tried first. -/
def clamp (lo hi x : Int) : Int :=
  if x < lo then lo else if hi < x then hi else x

/-- The corner pulled into the drawing area, its texture coordinate dragged along. -/
def clip (area : DrawingArea) (p : Point) : Point :=
  let x := clamp area.left area.right p.x
  let y := clamp area.top area.bottom p.y
  { p with x := x, y := y, u := p.u + (x - p.x), v := p.v + (y - p.y) }

end Point

/-- Twice the signed area of the triangle `a`, `b`, `(x, y)`: positive if it runs clockwise on the
screen. -/
def orient (a b : Point) (x y : Int) : Int :=
  (b.x - a.x) * (y - a.y) - (b.y - a.y) * (x - a.x)

/-- Three corners in clockwise order. -/
structure Triangle where
  a : Point
  b : Point
  c : Point
  deriving DecidableEq

/-- The smallest of three. -/
def least (a b c : Int) : Int := min (min a b) c

/-- The largest of three. -/
def greatest (a b c : Int) : Int := max (max a b) c

/-- Whether three corners are so close together that they are drawn at all. -/
def fitsTogether (a b c : Point) : Bool :=
  greatest a.x b.x c.x - least a.x b.x c.x ≤ 1023 &&
    greatest a.y b.y c.y - least a.y b.y c.y ≤ 511

namespace Triangle

/-- Twice the area. -/
def area2 (t : Triangle) : Int :=
  orient t.a t.b t.c.x t.c.y

/-- The triangle of three corners after clipping; none if they are too far apart or in a row. -/
def ofPoints? (area : DrawingArea) (a b c : Point) : Option Triangle :=
  if fitsTogether a b c then
    let t : Triangle := ⟨a.clip area, b.clip area, c.clip area⟩
    if t.area2 = 0 then none
    else if t.area2 < 0 then some ⟨t.a, t.c, t.b⟩
    else some t
  else none

/-! ### Coverage -/

/-- How far inside the edge opposite to each corner a point lies. -/
structure Weights where
  a : Int
  b : Int
  c : Int
  deriving DecidableEq

/-- The weights of a point. -/
def weights (t : Triangle) (x y : Int) : Weights where
  a := orient t.b t.c x y
  b := orient t.c t.a x y
  c := orient t.a t.b x y

/-- Whether an edge owns the points on it: it runs right along the top, or up on the left. -/
def ownsEdge (p q : Point) : Bool :=
  (p.y == q.y && decide (p.x < q.x)) || decide (q.y < p.y)

/-- Inside an edge, or on it and owned by it. -/
def insideEdge (weight : Int) (owned : Bool) : Bool :=
  if owned then 0 ≤ weight else 1 ≤ weight

/-- Whether a point with these weights belongs to the triangle. -/
def covers (t : Triangle) (w : Weights) : Bool :=
  insideEdge w.a (ownsEdge t.b t.c) && insideEdge w.b (ownsEdge t.c t.a) &&
    insideEdge w.c (ownsEdge t.a t.b)

/-! ### Interpolation -/

/-- The mean of three values by weight, truncated. -/
def interpolate (t : Triangle) (w : Weights) (a b c : Int) : Int :=
  (w.a * a + w.b * b + w.c * c).tdiv t.area2

/-- A colour channel at a point, kept within a byte. -/
def channel (t : Triangle) (w : Weights) (a b c : Int) : Nat :=
  (max 0 (min 255 (t.interpolate w a b c))).toNat

/-- A texture coordinate at a point, within a page. -/
def texel (t : Triangle) (w : Weights) (a b c : Int) : Nat :=
  (t.interpolate w a b c % 256).toNat

/-- The base colour at a point. -/
def baseAt (t : Triangle) (shaded : Bool) (w : Weights) : Deep :=
  if shaded then
    Deep.ofChannels (t.channel w t.a.red t.b.red t.c.red)
      (t.channel w t.a.green t.b.green t.c.green) (t.channel w t.a.blue t.b.blue t.c.blue)
  else
    Deep.ofChannels t.a.red.toNat t.a.green.toNat t.a.blue.toNat

/-- The fragment of a point, if the triangle covers it. -/
def fragment? (t : Triangle) (shaded textured : Bool) (x y : Int) : Option Fragment :=
  let w := t.weights x y
  if t.covers w then
    some {
      x := x
      y := y
      base := t.baseAt shaded w
      u := if textured then t.texel w t.a.u t.b.u t.c.u else 0
      v := if textured then t.texel w t.a.v t.b.v t.c.v else 0 }
  else none

/-- The fragments inside the drawing area. -/
def scan (t : Triangle) (area : DrawingArea) (shaded textured : Bool) : Scan :=
  let columns := span (max (least t.a.x t.b.x t.c.x) area.left)
    (min (greatest t.a.x t.b.x t.c.x) area.right)
  { rows := span (max (least t.a.y t.b.y t.c.y) area.top)
      (min (greatest t.a.y t.b.y t.c.y) area.bottom)
    row := fun y => columns.filterMap fun x => t.fragment? shaded textured x y }

/-- Lays down the triangle of three corners. -/
def draw (area : DrawingArea) (a b c : Point) (shaded : Bool) (pen : Pen) (paint : Paint)
    (vram : Vram) : Vram :=
  match ofPoints? area a b c with
  | none => vram
  | some t => (t.scan area shaded paint.texture.isSome).paint pen paint vram

end Triangle

end ConsoleVideo
