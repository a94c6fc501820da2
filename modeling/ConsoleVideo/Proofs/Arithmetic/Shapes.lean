import ConsoleVideo.Proofs.Arithmetic.Lines
import ConsoleVideo.Proofs.Command.Positions
import ConsoleVideo.Proofs.Drawing.Interpolation

/-!
# Rectangles and polygons in 32 and 64 bits

A rectangle looks for its corner, and for the distance of every point from it, in 32 bits.  A triangle
moves its corners in 32 bits and leaves them for 64: its edges are products of two distances, and what
it mixes at a point are products of these with what the corners carry, texture coordinates among them
that were dragged along.

* `Sprite.fragment?`, `Rectangle.draw?` — a point of a rectangle, and all of it;
* `Point.IsNear` — how far corners and what they carry can be from zero, `Point.isNear_clip` — in the
  drawing area too;
* `orient_between` — how large the edges can be;
* `Triangle.lay?`, `Triangle.draw?` — a point of a triangle, and all of it;
* `Polygon.draw?` — the triangles of a polygon.
-/

namespace ConsoleVideo

open Alu (s32 u32 s64 byte)

/-! ### Rectangles -/

namespace Sprite

/-- The fragment of a point of the rectangle, with or without a texture. -/
def fragment? (sprite : Sprite) (x y : Int) : Option Fragment := do
  let right ← s32.sub x sprite.origin.x
  let right ← u32.fit right
  let below ← s32.sub y sprite.origin.y
  let below ← u32.fit below
  return {
    x := x
    y := y
    base := sprite.base
    u := texelAt sprite.texCoord.u sprite.flipX right
    v := texelAt sprite.texCoord.v sprite.flipY below }

/-- Draws the rectangle, point by point. -/
def draw? (sprite : Sprite) (area : DrawingArea) (pen : Pen) (paint : Paint) (vram : Vram) :
    Option Vram := do
  let width ← s32.fit sprite.width
  let beside ← s32.add sprite.origin.x width
  let right ← s32.sub beside 1
  let height ← s32.fit sprite.height
  let below ← s32.add sprite.origin.y height
  let bottom ← s32.sub below 1
  (span (max sprite.origin.y area.top) (min bottom area.bottom)).foldlM (fun vram y =>
    (span (max sprite.origin.x area.left) (min right area.right)).foldlM (fun vram x => do
      let fragment ← sprite.fragment? x y
      return pen.shade paint vram fragment) vram) vram

/-- A point of the rectangle is not before its corner. -/
theorem fragment?_eq {sprite : Sprite} (horigin : sprite.origin.IsNear) {x y : Int}
    (hx : sprite.origin.x ≤ x ∧ x ≤ 4096) (hy : sprite.origin.y ≤ y ∧ y ≤ 4096) :
    sprite.fragment? x y =
      some { x := x
             y := y
             base := sprite.base
             u := texelAt sprite.texCoord.u sprite.flipX (x - sprite.origin.x)
             v := texelAt sprite.texCoord.v sprite.flipY (y - sprite.origin.y) } := by
  have hcolumn := horigin.x
  have hrow := horigin.y
  simp (disch := omega) only [fragment?, Alu.sub, Alu.s32_fit, Alu.u32_fit, Option.bind_eq_bind,
    Option.bind_some, Option.pure_def]

theorem draw?_eq {sprite : Sprite} (horigin : sprite.origin.IsNear) (hwidth : sprite.width ≤ 1023)
    (hheight : sprite.height ≤ 511) (area : DrawingArea) (pen : Pen) (paint : Paint) (vram : Vram) :
    sprite.draw? area pen paint vram = some ((sprite.scan area).paint pen paint vram) := by
  have hx := horigin.x
  have hy := horigin.y
  have hcolumns : sprite.columns area = span (max sprite.origin.x area.left)
      (min (sprite.origin.x + sprite.width - 1) area.right) := by
    rw [columns, wrap32_of_range (by omega) (by omega)]
  have hrows : sprite.rows area = span (max sprite.origin.y area.top)
      (min (sprite.origin.y + sprite.height - 1) area.bottom) := by
    rw [rows, wrap32_of_range (by omega) (by omega)]
  simp (disch := omega) only [draw?, Alu.add, Alu.sub, Alu.s32_fit, Option.bind_eq_bind,
    Option.bind_some, Option.pure_def, ← hcolumns, ← hrows]
  refine foldlM_eq_some (fun vram y hrow => ?_) vram
  simp only [scan, row, List.foldl_map]
  refine foldlM_eq_some (fun vram x hcolumn => ?_) vram
  rw [hrows, mem_span] at hrow
  rw [hcolumns, mem_span] at hcolumn
  rw [fragment?_eq horigin (by omega) (by omega), Option.bind_some]

end Sprite

namespace Rectangle

/-- Draws the rectangle. -/
def draw? (rectangle : Rectangle) (environment : Environment) (pen : Pen) (paint : Paint)
    (vram : Vram) : Option Vram := do
  let origin ← rectangle.position.offset? environment.offset.x environment.offset.y
  { Sprite.ofRectangle rectangle environment with origin := origin }.draw? environment.area pen paint
    vram

theorem draw?_eq {rectangle : Rectangle} {environment : Environment}
    (hsized : Job.Sized (.rectangle rectangle)) (henvironment : environment.InRange) (pen : Pen)
    (paint : Paint) (vram : Vram) :
    rectangle.draw? environment pen paint vram =
      some (((Sprite.ofRectangle rectangle environment).scan environment.area).paint pen paint
        vram) := by
  obtain ⟨hposition, hwidth, hheight⟩ := hsized
  rw [draw?, Vertex.offset?_eq hposition henvironment]
  have hnear : (Sprite.ofRectangle rectangle environment).origin.IsNear :=
    Vertex.isNear_offset hposition henvironment
  exact Sprite.draw?_eq hnear hwidth hheight environment.area pen paint vram

end Rectangle

/-! ### Corners -/

namespace Point

/-- A corner moved by the drawing offset. -/
def ofCorner? (corner : Corner) (offset : DrawOffset) : Option Point := do
  let position ← corner.position.offset? offset.x offset.y
  return {
    x := position.x
    y := position.y
    red := corner.color.red.toNat
    green := corner.color.green.toNat
    blue := corner.color.blue.toNat
    u := corner.texCoord.u.toNat
    v := corner.texCoord.v.toNat }

/-- A coordinate pulled between two bounds, and what it drags along. -/
def pull? (lo hi x dragged : Int) : Option (Int × Int) :=
  if x < lo then do
    let distance ← s64.sub lo x
    let dragged ← s64.add dragged distance
    return (lo, dragged)
  else if hi < x then do
    let distance ← s64.sub x hi
    let dragged ← s64.sub dragged distance
    return (hi, dragged)
  else some (x, dragged)

/-- The corner pulled into the drawing area, its texture coordinate dragged along. -/
def clip? (area : DrawingArea) (p : Point) : Option Point := do
  let (x, u) ← pull? area.left area.right p.x p.u
  let (y, v) ← pull? area.top area.bottom p.y p.v
  return { p with x := x, y := y, u := u, v := v }

/-- The corner is where the drawing offset can have moved one, and its texture coordinate is not further
from zero than so much. -/
structure IsNear (p : Point) (reach : Int) : Prop where
  x : -2048 ≤ p.x ∧ p.x ≤ 2046
  y : -2048 ≤ p.y ∧ p.y ≤ 2046
  u : -reach ≤ p.u ∧ p.u ≤ reach
  v : -reach ≤ p.v ∧ p.v ≤ reach
  bytes : p.InBytes

section Pull

variable {lo hi x : Int} (hlo : 0 ≤ lo ∧ lo < 1024) (hhi : 0 ≤ hi ∧ hi < 1024)
  (hx : -2048 ≤ x ∧ x ≤ 2046)

include hlo hhi hx

theorem clamp_between : -2048 ≤ clamp lo hi x ∧ clamp lo hi x ≤ 2046 := by
  rw [clamp]
  split_ifs <;> omega

theorem pull?_eq {dragged : Int} (hdragged : -255 ≤ dragged ∧ dragged ≤ 255) :
    pull? lo hi x dragged = some (clamp lo hi x, dragged + (clamp lo hi x - x)) := by
  rw [pull?, clamp]
  split_ifs
  · simp (disch := omega) only [Alu.add, Alu.sub, Alu.s64_fit, Option.bind_eq_bind,
      Option.bind_some, Option.pure_def]
  · simp (disch := omega) only [Alu.sub, Alu.s64_fit, Option.bind_eq_bind, Option.bind_some,
      Option.pure_def, sub_sub_eq_add_sub, add_sub_assoc]
  · simp

end Pull

variable {environment : Environment} (henvironment : environment.InRange)

include henvironment

theorem ofCorner?_eq {corner : Corner} (hcorner : corner.position.Fits) :
    ofCorner? corner environment.offset = some (ofCorner corner environment.offset) := by
  rw [ofCorner?, Vertex.offset?_eq hcorner henvironment]
  rfl

theorem isNear_ofCorner {corner : Corner} (hcorner : corner.position.Fits) :
    (ofCorner corner environment.offset).IsNear 255 := by
  have hplace := Vertex.isNear_offset hcorner henvironment
  have hu := corner.texCoord.u.toNat_lt
  have hv := corner.texCoord.v.toNat_lt
  constructor
  · exact hplace.x
  · exact hplace.y
  · simp only [ofCorner]
    omega
  · simp only [ofCorner]
    omega
  · exact inBytes_ofCorner corner environment.offset

variable {p : Point}

theorem clip?_eq (h : p.IsNear 255) : p.clip? environment.area = some (p.clip environment.area) := by
  have hcolumn := pull?_eq henvironment.left henvironment.right h.x h.u
  have hrow := pull?_eq henvironment.top henvironment.bottom h.y h.v
  simp only [clip?, hcolumn, hrow, Option.bind_eq_bind, Option.bind_some, Option.pure_def]
  rfl

/-- A texture coordinate is dragged as far as its corner is moved. -/
theorem isNear_clip (h : p.IsNear 255) : (p.clip environment.area).IsNear 8192 := by
  obtain ⟨hx, hy, hu, hv, hbytes⟩ := h
  have hcolumn := clamp_between henvironment.left henvironment.right hx
  have hrow := clamp_between henvironment.top henvironment.bottom hy
  constructor
  · exact hcolumn
  · exact hrow
  · simp only [clip]
    omega
  · simp only [clip]
    omega
  · exact hbytes.clip environment.area

end Point

/-! ### Edges -/

/-- Twice the signed area of the triangle `a`, `b`, `(x, y)`. -/
def orient? (a b : Point) (x y : Int) : Option Int := do
  let right ← s64.sub b.x a.x
  let below ← s64.sub y a.y
  let first ← s64.mul right below
  let down ← s64.sub b.y a.y
  let beside ← s64.sub x a.x
  let second ← s64.mul down beside
  s64.sub first second

section Edges

variable {a b : Point} {reach x y : Int} (ha : a.IsNear reach) (hb : b.IsNear reach)
  (hx : -2048 ≤ x ∧ x ≤ 2046) (hy : -2048 ≤ y ∧ y ≤ 2046)

include ha hb hx hy

/-- Both products of an edge are those of two distances of twelve bits. -/
theorem orient_products_between :
    (-(4094 * 4094) ≤ (b.x - a.x) * (y - a.y) ∧ (b.x - a.x) * (y - a.y) ≤ 4094 * 4094) ∧
      -(4094 * 4094) ≤ (b.y - a.y) * (x - a.x) ∧ (b.y - a.y) * (x - a.x) ≤ 4094 * 4094 := by
  have hax := ha.x
  have hay := ha.y
  have hbx := hb.x
  have hby := hb.y
  exact ⟨mul_bounded (by omega) (by omega), mul_bounded (by omega) (by omega)⟩

theorem orient_between : -33554432 ≤ orient a b x y ∧ orient a b x y ≤ 33554432 := by
  obtain ⟨hfirst, hsecond⟩ := orient_products_between ha hb hx hy
  rw [orient]
  omega

theorem orient?_eq : orient? a b x y = some (orient a b x y) := by
  obtain ⟨hfirst, hsecond⟩ := orient_products_between ha hb hx hy
  have hax := ha.x
  have hay := ha.y
  have hbx := hb.x
  have hby := hb.y
  simp (disch := omega) only [orient?, Alu.sub, Alu.mul, Alu.s64_fit, Option.bind_eq_bind,
    Option.bind_some]
  rfl

end Edges

/-! ### Triangles -/

namespace Triangle

/-- The weights of a point. -/
def weights? (t : Triangle) (x y : Int) : Option Weights := do
  let a ← orient? t.b t.c x y
  let b ← orient? t.c t.a x y
  let c ← orient? t.a t.b x y
  return ⟨a, b, c⟩

/-- Inside an edge, or on it and owned by it: an edge that does not own its points takes one off. -/
def insideEdge? (weight : Int) (owned : Bool) : Option Bool := do
  let biased ← s64.add weight (if owned then 0 else -1)
  return 0 ≤ biased

/-- Whether a point with these weights belongs to the triangle. -/
def covers? (t : Triangle) (w : Weights) : Option Bool := do
  let a ← insideEdge? w.a (ownsEdge t.b t.c)
  let b ← insideEdge? w.b (ownsEdge t.c t.a)
  let c ← insideEdge? w.c (ownsEdge t.a t.b)
  return a && b && c

/-- The mean of three values by weight, truncated. -/
def interpolate? (area2 : Int) (w : Weights) (a b c : Int) : Option Int := do
  let first ← s64.mul w.a a
  let second ← s64.mul w.b b
  let both ← s64.add first second
  let third ← s64.mul w.c c
  let all ← s64.add both third
  s64.div all area2

/-- A colour channel at a point, and the byte that it is kept in. -/
def channel? (area2 : Int) (w : Weights) (a b c : Int) : Option Nat := do
  let value ← interpolate? area2 w a b c
  let value ← byte.fit (max 0 (min 255 value))
  return value.toNat

/-- A texture coordinate at a point, within a page. -/
def texel? (area2 : Int) (w : Weights) (a b c : Int) : Option Nat := do
  let value ← interpolate? area2 w a b c
  return (value % 256).toNat

/-- The base colour at a point. -/
def baseAt? (t : Triangle) (area2 : Int) (shaded : Bool) (w : Weights) : Option Deep :=
  if shaded then do
    let red ← channel? area2 w t.a.red t.b.red t.c.red
    let green ← channel? area2 w t.a.green t.b.green t.c.green
    let blue ← channel? area2 w t.a.blue t.b.blue t.c.blue
    return Deep.ofChannels red green blue
  else do
    let red ← byte.fit t.a.red
    let green ← byte.fit t.a.green
    let blue ← byte.fit t.a.blue
    return Deep.ofChannels red.toNat green.toNat blue.toNat

/-- The texture coordinate at a point, if the triangle has a texture. -/
def texCoordAt? (t : Triangle) (area2 : Int) (textured : Bool) (w : Weights) : Option (Nat × Nat) :=
  if textured then do
    let u ← texel? area2 w t.a.u t.b.u t.c.u
    let v ← texel? area2 w t.a.v t.b.v t.c.v
    return (u, v)
  else some (0, 0)

/-- The fragment of a point, if the triangle covers it. -/
def fragmentAt? (t : Triangle) (area2 : Int) (shaded textured : Bool) (x y : Int) :
    Option (Option Fragment) := do
  let w ← t.weights? x y
  let covered ← t.covers? w
  if covered then
    let base ← t.baseAt? area2 shaded w
    let (u, v) ← t.texCoordAt? area2 textured w
    let x ← s32.fit x
    let y ← s32.fit y
    return some { x := x, y := y, base := base, u := u, v := v }
  else
    return none

/-- Lays down the points that the triangle covers in the drawing area. -/
def paint? (t : Triangle) (area2 : Int) (area : DrawingArea) (shaded : Bool) (pen : Pen)
    (paint : Paint) (vram : Vram) : Option Vram :=
  (span (max (least t.a.y t.b.y t.c.y) area.top)
    (min (greatest t.a.y t.b.y t.c.y) area.bottom)).foldlM (fun vram y =>
      (span (max (least t.a.x t.b.x t.c.x) area.left)
        (min (greatest t.a.x t.b.x t.c.x) area.right)).foldlM (fun vram x => do
          match ← t.fragmentAt? area2 shaded paint.texture.isSome x y with
          | none => return vram
          | some fragment => return pen.shade paint vram fragment) vram) vram

/-- Lays down the triangle, or its mirror image if its area is negative. -/
def drawClipped? (area : DrawingArea) (t : Triangle) (shaded : Bool) (pen : Pen) (paint : Paint)
    (vram : Vram) : Option Vram := do
  let area2 ← orient? t.a t.b t.c.x t.c.y
  if area2 = 0 then
    return vram
  else if area2 < 0 then
    let area2 ← s64.neg area2
    t.mirror.paint? area2 area shaded pen paint vram
  else
    t.paint? area2 area shaded pen paint vram

/-- Lays down the triangle of three corners. -/
def draw? (area : DrawingArea) (a b c : Point) (shaded : Bool) (pen : Pen) (paint : Paint)
    (vram : Vram) : Option Vram := do
  let width ← s64.sub (greatest a.x b.x c.x) (least a.x b.x c.x)
  let height ← s64.sub (greatest a.y b.y c.y) (least a.y b.y c.y)
  if 1023 < width ∨ 511 < height then
    return vram
  else
    let a ← a.clip? area
    let b ← b.clip? area
    let c ← c.clip? area
    drawClipped? area ⟨a, b, c⟩ shaded pen paint vram

/-! ### Triangles that fit -/

/-- The corners are where clipping leaves them. -/
structure IsNear (t : Triangle) : Prop where
  a : t.a.IsNear 8192
  b : t.b.IsNear 8192
  c : t.c.IsNear 8192

/-- No weight is larger than the largest edge. -/
structure Weights.IsSmall (w : Weights) : Prop where
  a : -33554432 ≤ w.a ∧ w.a ≤ 33554432
  b : -33554432 ≤ w.b ∧ w.b ≤ 33554432
  c : -33554432 ≤ w.c ∧ w.c ≤ 33554432

variable {t : Triangle} {w : Weights}

section Places

variable {x y : Int} (h : t.IsNear) (hx : -2048 ≤ x ∧ x ≤ 2046) (hy : -2048 ≤ y ∧ y ≤ 2046)

include h hx hy

theorem isSmall_weights : (t.weights x y).IsSmall where
  a := orient_between h.b h.c hx hy
  b := orient_between h.c h.a hx hy
  c := orient_between h.a h.b hx hy

theorem weights?_eq : t.weights? x y = some (t.weights x y) := by
  rw [weights?, orient?_eq h.b h.c hx hy, orient?_eq h.c h.a hx hy, orient?_eq h.a h.b hx hy]
  rfl

end Places

/-! ### At a point -/

theorem insideEdge?_eq {weight : Int} (hweight : -33554432 ≤ weight ∧ weight ≤ 33554432)
    (owned : Bool) : insideEdge? weight owned = some (insideEdge weight owned) := by
  rw [insideEdge?, insideEdge]
  cases owned
  · simp (disch := omega) only [Alu.add, Alu.s64_fit, Option.bind_eq_bind, Option.bind_some,
      Option.pure_def, Bool.false_eq_true, if_false]
    congr 2
    exact propext (by omega)
  · simp (disch := omega) only [Alu.add, Alu.s64_fit, Option.bind_eq_bind, Option.bind_some,
      Option.pure_def, if_true, Int.add_zero]

theorem covers?_eq (hw : w.IsSmall) : t.covers? w = some (t.covers w) := by
  rw [covers?, insideEdge?_eq hw.a, insideEdge?_eq hw.b, insideEdge?_eq hw.c]
  rfl

/-- A value that the corners carry: a colour channel, or a texture coordinate as far as it may have been
dragged. -/
def IsCarried (value : Int) : Prop :=
  -8192 ≤ value ∧ value ≤ 8192

variable {a b c : Int}

theorem interpolate?_eq (hw : w.IsSmall) (harea : t.area2 ≠ 0) (ha : IsCarried a)
    (hb : IsCarried b) (hc : IsCarried c) :
    interpolate? t.area2 w a b c = some (t.interpolate w a b c) := by
  have hfirst := mul_bounded hw.a ha
  have hsecond := mul_bounded hw.b hb
  have hthird := mul_bounded hw.c hc
  -- The area may be as small as one, and so the quotient as large as the sum.
  have hquotient := Int.natAbs_tdiv_le_natAbs (w.a * a + w.b * b + w.c * c) t.area2
  simp (disch := omega) only [interpolate?, Alu.mul, Alu.add, Alu.div_eq harea, Alu.s64_fit,
    Option.bind_eq_bind, Option.bind_some]
  rfl

theorem channel?_eq (hw : w.IsSmall) (harea : t.area2 ≠ 0) (ha : IsCarried a) (hb : IsCarried b)
    (hc : IsCarried c) : channel? t.area2 w a b c = some (t.channel w a b c) := by
  rw [channel?, interpolate?_eq hw harea ha hb hc, Option.bind_eq_bind, Option.bind_some,
    Alu.byte_fit (by omega) (by omega)]
  rfl

theorem texel?_eq (hw : w.IsSmall) (harea : t.area2 ≠ 0) (ha : IsCarried a) (hb : IsCarried b)
    (hc : IsCarried c) : texel? t.area2 w a b c = some (t.texel w a b c) := by
  rw [texel?, interpolate?_eq hw harea ha hb hc]
  rfl

/-- Bytes are carried. -/
theorem isCarried_of_inBytes {p : Point} (h : p.InBytes) {channel : Point → Int}
    (hchannel : channel ∈ [Point.red, Point.green, Point.blue]) : IsCarried (channel p) := by
  have hbyte := h channel hchannel
  exact ⟨by omega, by omega⟩

theorem baseAt?_eq (h : t.IsNear) (hw : w.IsSmall) (harea : t.area2 ≠ 0) (shaded : Bool) :
    t.baseAt? t.area2 shaded w = some (t.baseAt shaded w) := by
  rw [baseAt?, baseAt]
  split
  · have hchannel : ∀ channel ∈ [Point.red, Point.green, Point.blue],
        channel? t.area2 w (channel t.a) (channel t.b) (channel t.c) =
          some (t.channel w (channel t.a) (channel t.b) (channel t.c)) := fun channel hmem =>
      channel?_eq hw harea (isCarried_of_inBytes h.a.bytes hmem)
        (isCarried_of_inBytes h.b.bytes hmem) (isCarried_of_inBytes h.c.bytes hmem)
    rw [hchannel Point.red (by simp), hchannel Point.green (by simp),
      hchannel Point.blue (by simp)]
    rfl
  · have hbyte : ∀ channel ∈ [Point.red, Point.green, Point.blue],
        byte.fit (channel t.a) = some (channel t.a) := fun channel hmem =>
      Alu.byte_fit (h.a.bytes channel hmem).1 (h.a.bytes channel hmem).2
    rw [hbyte Point.red (by simp), hbyte Point.green (by simp), hbyte Point.blue (by simp)]
    rfl

theorem texCoordAt?_eq (h : t.IsNear) (hw : w.IsSmall) (harea : t.area2 ≠ 0) (textured : Bool) :
    t.texCoordAt? t.area2 textured w =
      some (if textured then t.texel w t.a.u t.b.u t.c.u else 0,
        if textured then t.texel w t.a.v t.b.v t.c.v else 0) := by
  rw [texCoordAt?]
  cases textured with
  | false => rfl
  | true =>
    simp only [if_true, texel?_eq hw harea h.a.u h.b.u h.c.u, texel?_eq hw harea h.a.v h.b.v h.c.v,
      Option.bind_eq_bind, Option.bind_some, Option.pure_def]

/-- **At every point of the drawing area the fragment can be computed**, also where it is none. -/
theorem fragmentAt?_eq (h : t.IsNear) (harea : t.area2 ≠ 0) {x y : Int}
    (hx : -2048 ≤ x ∧ x ≤ 2046) (hy : -2048 ≤ y ∧ y ≤ 2046) (shaded textured : Bool) :
    t.fragmentAt? t.area2 shaded textured x y = some (t.fragment? shaded textured x y) := by
  have hw := isSmall_weights h hx hy
  simp (disch := omega) only [fragmentAt?, fragment?, weights?_eq h hx hy, covers?_eq hw,
    baseAt?_eq h hw harea, texCoordAt?_eq h hw harea, Alu.s32_fit, Option.bind_eq_bind,
    Option.bind_some, Option.pure_def, ← apply_ite some]

/-! ### The whole triangle -/

theorem extent_eq {p q r : Int} (hp : -2048 ≤ p ∧ p ≤ 2046) (hq : -2048 ≤ q ∧ q ≤ 2046)
    (hr : -2048 ≤ r ∧ r ≤ 2046) :
    s64.sub (greatest p q r) (least p q r) = some (greatest p q r - least p q r) := by
  simp only [greatest, least]
  exact Alu.s64_fit (by omega) (by omega)

variable {environment : Environment} (henvironment : environment.InRange)

include henvironment

theorem paint?_eq (h : t.IsNear) (harea : t.area2 ≠ 0) (shaded : Bool) (pen : Pen) (paint : Paint)
    (vram : Vram) :
    t.paint? t.area2 environment.area shaded pen paint vram =
      some ((t.scan environment.area shaded paint.texture.isSome).paint pen paint vram) := by
  have hleft := henvironment.left
  have hright := henvironment.right
  have htop := henvironment.top
  have hbottom := henvironment.bottom
  refine foldlM_eq_some (fun vram y hrow => ?_) vram
  simp only [scan, List.foldl_filterMap]
  refine foldlM_eq_some (fun vram x hcolumn => ?_) vram
  rw [mem_span] at hrow hcolumn
  rw [fragmentAt?_eq h harea (by omega) (by omega), Option.bind_eq_bind, Option.bind_some]
  cases t.fragment? shaded paint.texture.isSome x y <;> rfl

theorem drawClipped?_eq (h : t.IsNear) (shaded : Bool) (pen : Pen) (paint : Paint) (vram : Vram) :
    drawClipped? environment.area t shaded pen paint vram =
      some (match (if t.area2 = 0 then none else if t.area2 < 0 then some t.mirror else some t) with
        | none => vram
        | some t => (t.scan environment.area shaded paint.texture.isSome).paint pen paint vram) := by
  have harea : orient? t.a t.b t.c.x t.c.y = some t.area2 := orient?_eq h.a h.b h.c.x h.c.y
  have hrange : -33554432 ≤ t.area2 ∧ t.area2 ≤ 33554432 := orient_between h.a h.b h.c.x h.c.y
  have hmirror := area2_mirror t
  rw [drawClipped?, harea, Option.bind_eq_bind, Option.bind_some]
  split_ifs with hzero hneg
  · rfl
  · have hturned : s64.neg t.area2 = some t.mirror.area2 := by
      rw [hmirror]
      exact Alu.s64_fit (by omega) (by omega)
    rw [hturned, Option.bind_some]
    exact paint?_eq (t := t.mirror) henvironment ⟨h.a, h.c, h.b⟩ (by omega) shaded pen paint vram
  · exact paint?_eq henvironment h hzero shaded pen paint vram

/-- **Three corners are drawn without an overflow**, wherever the drawing offset has moved them. -/
theorem draw?_eq {a b c : Point} (ha : a.IsNear 255) (hb : b.IsNear 255) (hc : c.IsNear 255)
    (shaded : Bool) (pen : Pen) (paint : Paint) (vram : Vram) :
    draw? environment.area a b c shaded pen paint vram =
      some (draw environment.area a b c shaded pen paint vram) := by
  have hnear : (clipped environment.area a b c).IsNear := ⟨Point.isNear_clip henvironment ha,
    Point.isNear_clip henvironment hb, Point.isNear_clip henvironment hc⟩
  have hwidth := extent_eq ha.x hb.x hc.x
  have hheight := extent_eq ha.y hb.y hc.y
  simp only [draw?, hwidth, hheight, Option.bind_eq_bind, Option.bind_some, Option.pure_def]
  by_cases hfits : fitsTogether a b c = true
  · have hclose := hfits
    simp only [fitsTogether, Bool.and_eq_true, decide_eq_true_eq] at hclose
    rw [if_neg (by omega), Point.clip?_eq henvironment ha, Option.bind_some,
      Point.clip?_eq henvironment hb, Option.bind_some, Point.clip?_eq henvironment hc,
      Option.bind_some, draw, ofPoints?, if_pos hfits]
    exact drawClipped?_eq henvironment hnear shaded pen paint vram
  · have hfar := hfits
    simp only [fitsTogether, Bool.and_eq_true, decide_eq_true_eq] at hfar
    rw [if_pos (by omega), draw, ofPoints?, if_neg hfits]

end Triangle

/-! ### Polygons -/

namespace Polygon

/-- Draws the triangle of the first three corners, and that of the last three if there are four. -/
def draw? (polygon : Polygon) (status : Status) (environment : Environment) (vram : Vram) :
    Option Vram := do
  let pen := Pen.ofSettings status environment
  let paint := Gpu.polygonPaint status polygon
  let first ← Point.ofCorner? polygon.first environment.offset
  let second ← Point.ofCorner? polygon.second environment.offset
  let third ← Point.ofCorner? polygon.third environment.offset
  let half ← Triangle.draw? environment.area first second third polygon.shaded pen paint vram
  match polygon.fourth with
  | none => return half
  | some fourth =>
    let fourth ← Point.ofCorner? fourth environment.offset
    Triangle.draw? environment.area second third fourth polygon.shaded pen paint half

theorem draw?_eq {polygon : Polygon} {environment : Environment}
    (hplaced : Job.Placed (.polygon polygon)) (henvironment : environment.InRange) (status : Status)
    (vram : Vram) :
    polygon.draw? status environment vram =
      some (Gpu.drawPolygon status environment polygon vram) := by
  have hcorner : ∀ corner ∈ polygon.corners, Point.ofCorner? corner environment.offset =
      some (Point.ofCorner corner environment.offset) :=
    fun corner hmem => Point.ofCorner?_eq henvironment (hplaced corner hmem)
  have hnear : ∀ corner ∈ polygon.corners,
      (Point.ofCorner corner environment.offset).IsNear 255 :=
    fun corner hmem => Point.isNear_ofCorner henvironment (hplaced corner hmem)
  obtain ⟨first, second, third, fourth, shaded, texture, translucent⟩ := polygon
  simp only [corners, List.forall_mem_cons] at hcorner hnear
  obtain ⟨hfirst, hsecond, hthird, hlast⟩ := hcorner
  obtain ⟨hnearFirst, hnearSecond, hnearThird, hnearLast⟩ := hnear
  simp only [draw?, Gpu.drawPolygon, hfirst, hsecond, hthird, Option.bind_eq_bind,
    Option.bind_some, Triangle.draw?_eq henvironment hnearFirst hnearSecond hnearThird]
  cases fourth with
  | none => rfl
  | some fourth =>
    simp only [hlast fourth (by simp), Option.bind_some,
      Triangle.draw?_eq henvironment hnearSecond hnearThird (hnearLast fourth (by simp))]

end Polygon

end ConsoleVideo
