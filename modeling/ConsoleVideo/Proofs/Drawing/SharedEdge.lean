import ConsoleVideo.Proofs.Drawing.Places
import Mathlib.Tactic.LinearCombination
import Mathlib.Tactic.Ring

/-!
# Shared edges

A quadrilateral is drawn as two triangles with an edge in common.  The triangles do not look at each
other, each one only turns its corners clockwise and asks of every edge which way it runs.  Yet the
points on the common edge are neither drawn twice nor left out.

* `Triangle.inside`, `Triangle.inside_swap` — every point is inside an edge in exactly one of its two
  directions;
* `Triangle.surrounds`, `Triangle.mem_places_of_pos` — a triangle in the drawing area comes upon
  the points inside its three edges; neither its bounding box nor the area cuts any of them off;
* `Point.Between`, `Triangle.surrounds_of_between` — strictly between two corners, the edge through
  them decides alone;
* `Quad.Unfolded`, `Gpu.sharedEdge_drawn_once` — what follows for the two halves of a quadrilateral.
-/

namespace ConsoleVideo

/-! ### Signed areas -/

theorem orient_swap (p q : Point) (x y : Int) : orient q p x y = -orient p q x y := by
  unfold orient
  ring

/-- The area does not depend on the corner that the way around starts from. -/
theorem orient_rotate (p q r : Point) : orient q r p.x p.y = orient p q r.x r.y := by
  unfold orient
  ring

theorem orient_left (p q : Point) : orient p q p.x p.y = 0 := by
  unfold orient
  ring

theorem orient_right (p q : Point) : orient p q q.x q.y = 0 := by
  unfold orient
  ring

/-- The areas that a point makes with the edges of a triangle add up to that of the triangle. -/
theorem orient_add_orient (p q r : Point) (x y : Int) :
    orient q r x y + orient r p x y + orient p q x y = orient p q r.x r.y := by
  unfold orient
  ring

/-- A point is the mean of the corners by the areas that it makes with the edges across from them. -/
theorem orient_mul_x (p q r : Point) (x y : Int) :
    orient p q r.x r.y * x = orient q r x y * p.x + orient r p x y * q.x + orient p q x y * r.x := by
  unfold orient
  ring

theorem orient_mul_y (p q r : Point) (x y : Int) :
    orient p q r.x r.y * y = orient q r x y * p.y + orient r p x y * q.y + orient p q x y * r.y := by
  unfold orient
  ring

theorem ne_of_orient_ne_zero {p q : Point} {x y : Int} (h : orient p q x y ≠ 0) :
    p.x ≠ q.x ∨ p.y ≠ q.y := by
  by_contra hsame
  rw [not_or, not_not, not_not] at hsame
  refine h ?_
  rw [orient, hsame.1, hsame.2, sub_self, sub_self, zero_mul, zero_mul, sub_self]

/-! ### Between two corners -/

/-- The point lies on the straight line between two corners and is neither of them: it is their mean
by two weights, of which none is zero. -/
def Point.Between (p q : Point) (place : Vertex) : Prop :=
  ∃ m n : Int, 0 < m ∧ 0 < n ∧
    (m + n) * place.x = m * p.x + n * q.x ∧ (m + n) * place.y = m * p.y + n * q.y

namespace Point.Between

variable {p q : Point} {place : Vertex}

theorem symm (h : p.Between q place) : q.Between p place := by
  obtain ⟨m, n, hm, hn, hx, hy⟩ := h
  exact ⟨n, m, hn, hm, by rw [add_comm n, hx, add_comm], by rw [add_comm n, hy, add_comm]⟩

/-- Towards a corner that is off a line, a point leaves the line at once. -/
theorem orient_pos (h : p.Between q place) {u v : Point} (hp : 0 < orient u v p.x p.y)
    (hq : orient u v q.x q.y = 0) : 0 < orient u v place.x place.y := by
  obtain ⟨m, n, hm, hn, hx, hy⟩ := h
  have hmean : (m + n) * orient u v place.x place.y =
      m * orient u v p.x p.y + n * orient u v q.x q.y := by
    unfold orient
    linear_combination (v.x - u.x) * hy - (v.y - u.y) * hx
  refine (mul_pos_iff_of_pos_left (add_pos hm hn)).1 ?_
  rw [hmean, hq, mul_zero, add_zero]
  exact mul_pos hm hp

end Point.Between

namespace Triangle

variable {area : DrawingArea} {a b c p q r s : Point} {place : Vertex}

/-! ### Edges -/

/-- On the inner side of the edge from `p` to `q`, or on the edge and owned by it. -/
def inside (p q : Point) (place : Vertex) : Bool :=
  insideEdge (orient p q place.x place.y) (ownsEdge p q)

theorem orient_nonneg_of_inside (h : inside p q place = true) :
    0 ≤ orient p q place.x place.y := by
  unfold inside insideEdge at h
  split at h
  · exact of_decide_eq_true h
  · exact le_trans zero_le_one (of_decide_eq_true h)

theorem inside_of_orient_pos (h : 0 < orient p q place.x place.y) : inside p q place = true := by
  unfold inside insideEdge
  split
  · exact decide_eq_true h.le
  · exact decide_eq_true h

/-- An edge owns its points in exactly one of its two directions. -/
theorem ownsEdge_swap (h : p.x ≠ q.x ∨ p.y ≠ q.y) : ownsEdge q p = !ownsEdge p q := by
  rw [Bool.eq_iff_iff]
  simp only [ownsEdge, Bool.or_eq_true, Bool.and_eq_true, beq_iff_eq, decide_eq_true_eq,
    Bool.not_eq_true', Bool.or_eq_false_iff, Bool.and_eq_false_iff, beq_eq_false_iff_ne,
    decide_eq_false_iff_not]
  omega

/-- **Every point is inside an edge in exactly one of its two directions.** -/
theorem inside_swap (h : p.x ≠ q.x ∨ p.y ≠ q.y) : inside q p place = !inside p q place := by
  rw [inside, inside, orient_swap, ownsEdge_swap h]
  cases ownsEdge p q with
  | false =>
    simp only [insideEdge, Bool.not_false, if_true, Bool.false_eq_true, if_false]
    grind
  | true =>
    simp only [insideEdge, Bool.not_true, if_true, Bool.false_eq_true, if_false]
    grind

/-! ### Three edges -/

/-- Inside all three edges of a way around. -/
def surrounds (p q r : Point) (place : Vertex) : Bool :=
  inside q r place && inside r p place && inside p q place

theorem surrounds_rotate (p q r : Point) (place : Vertex) :
    surrounds q r p place = surrounds p q r place := by
  rw [surrounds, surrounds, Bool.and_comm, ← Bool.and_assoc, Bool.and_right_comm]

theorem covers_weights (t : Triangle) (place : Vertex) :
    t.covers (t.weights place.x place.y) = surrounds t.a t.b t.c place := rfl

/-- A mean is not below what none of the values is below. -/
theorem le_mean {u v w x y z lo mean : Int} (hu : 0 ≤ u) (hv : 0 ≤ v) (hw : 0 ≤ w)
    (hsome : 0 < u + v + w) (hmean : (u + v + w) * mean = u * x + v * y + w * z)
    (hx : lo ≤ x) (hy : lo ≤ y) (hz : lo ≤ z) : lo ≤ mean := by
  refine le_of_mul_le_mul_left ?_ hsome
  rw [hmean, add_mul, add_mul]
  exact add_le_add (add_le_add (mul_le_mul_of_nonneg_left hx hu) (mul_le_mul_of_nonneg_left hy hv))
    (mul_le_mul_of_nonneg_left hz hw)

/-- **What three edges surround lies in every upright rectangle that the corners lie in.** -/
theorem mem_box_of_surrounds (hpos : 0 < orient a b c.x c.y)
    (h : surrounds a b c place = true) {box : DrawingArea}
    (ha : box.contains a.x a.y = true) (hb : box.contains b.x b.y = true)
    (hc : box.contains c.x c.y = true) : box.contains place.x place.y = true := by
  rw [surrounds, Bool.and_eq_true, Bool.and_eq_true] at h
  obtain ⟨⟨hbc, hca⟩, hab⟩ := h
  have hu := orient_nonneg_of_inside hbc
  have hv := orient_nonneg_of_inside hca
  have hw := orient_nonneg_of_inside hab
  have hx := orient_mul_x a b c place.x place.y
  have hy := orient_mul_y a b c place.x place.y
  rw [← orient_add_orient a b c place.x place.y] at hpos hx hy
  rw [DrawingArea.contains_iff] at ha hb hc ⊢
  -- An upper bound is a lower bound of the negated coordinates.
  refine ⟨le_mean hu hv hw hpos hx ha.1 hb.1 hc.1, ?_,
    le_mean hu hv hw hpos hy ha.2.2.1 hb.2.2.1 hc.2.2.1, ?_⟩
  · refine neg_le_neg_iff.1 (le_mean hu hv hw hpos (x := -a.x) (y := -b.x) (z := -c.x) ?_
      (neg_le_neg ha.2.1) (neg_le_neg hb.2.1) (neg_le_neg hc.2.1))
    linear_combination -hx
  · refine neg_le_neg_iff.1 (le_mean hu hv hw hpos (x := -a.y) (y := -b.y) (z := -c.y) ?_
      (neg_le_neg ha.2.2.2) (neg_le_neg hb.2.2.2) (neg_le_neg hc.2.2.2))
    linear_combination -hy

/-! ### Triangles in the drawing area -/

theorem clip_of_contains (h : area.contains p.x p.y = true) : p.clip area = p := by
  rw [DrawingArea.contains_iff] at h
  have hx : Point.clamp area.left area.right p.x = p.x := by
    unfold Point.clamp
    grind
  have hy : Point.clamp area.top area.bottom p.y = p.y := by
    unfold Point.clamp
    grind
  simp only [Point.clip, hx, hy, sub_self, add_zero]

section InArea

variable (ha : area.contains a.x a.y = true) (hb : area.contains b.x b.y = true)
  (hc : area.contains c.x c.y = true) (hfits : fitsTogether a b c = true)

include ha hb hc hfits

/-- Corners in clockwise order keep it. -/
theorem ofPoints?_of_pos (hpos : 0 < orient a b c.x c.y) :
    ofPoints? area a b c = some ⟨a, b, c⟩ := by
  rw [ofPoints?, if_pos hfits]
  simp only [clip_of_contains ha, clip_of_contains hb, clip_of_contains hc, area2]
  rw [if_neg hpos.ne', if_neg hpos.not_gt]

/-- Other corners are turned around. -/
theorem ofPoints?_of_neg (hneg : orient a b c.x c.y < 0) :
    ofPoints? area a b c = some ⟨a, c, b⟩ := by
  rw [ofPoints?, if_pos hfits]
  simp only [clip_of_contains ha, clip_of_contains hb, clip_of_contains hc, area2]
  rw [if_neg hneg.ne, if_pos hneg]

end InArea

/-- Nothing of a triangle in the drawing area is cut off. -/
theorem mem_place_scan (t : Triangle) (ha : area.contains t.a.x t.a.y = true)
    (hb : area.contains t.b.x t.b.y = true) (hc : area.contains t.c.x t.c.y = true)
    (hpos : 0 < orient t.a t.b t.c.x t.c.y) :
    place ∈ (t.scan area false false).fragments.map Fragment.place ↔
      surrounds t.a t.b t.c place = true := by
  rw [place_scan, List.mem_flatMap]
  constructor
  · rintro ⟨y, -, hrow⟩
    obtain ⟨x, -, hplace⟩ := List.mem_filterMap.1 hrow
    split at hplace
    · next hcovers =>
      obtain rfl := Option.some.inj hplace
      exact (t.covers_weights ⟨x, y⟩).symm.trans hcovers
    · exact absurd hplace (Option.some_ne_none place).symm
  · intro h
    have harea := mem_box_of_surrounds hpos h ha hb hc
    have hbounds : DrawingArea.contains ⟨least t.a.x t.b.x t.c.x, least t.a.y t.b.y t.c.y,
        greatest t.a.x t.b.x t.c.x, greatest t.a.y t.b.y t.c.y⟩ place.x place.y = true := by
      refine mem_box_of_surrounds hpos h ?_ ?_ ?_ <;>
        · rw [DrawingArea.contains_iff]
          simp only [least, greatest]
          omega
    rw [DrawingArea.contains_iff] at harea hbounds
    dsimp only at hbounds
    refine ⟨place.y, mem_span.2 (by omega), List.mem_filterMap.2 ⟨place.x, mem_span.2 (by omega), ?_⟩⟩
    exact if_pos ((t.covers_weights place).trans h)

section InArea

variable (ha : area.contains a.x a.y = true) (hb : area.contains b.x b.y = true)
  (hc : area.contains c.x c.y = true) (hfits : fitsTogether a b c = true)

include ha hb hc hfits

/-- **A triangle in the drawing area comes upon what its edges surround**, in the direction in which
they run clockwise. -/
theorem mem_places_of_pos (hpos : 0 < orient a b c.x c.y) :
    place ∈ places area a b c ↔ surrounds a b c place = true := by
  rw [places, fragments, ofPoints?_of_pos ha hb hc hfits hpos]
  exact mem_place_scan ⟨a, b, c⟩ ha hb hc hpos

theorem mem_places_of_neg (hneg : orient a b c.x c.y < 0) :
    place ∈ places area a b c ↔ surrounds a c b place = true := by
  have hpos : 0 < orient a c b.x b.y := by
    rw [← orient_rotate, ← orient_rotate, orient_swap]
    exact neg_pos.2 hneg
  rw [places, fragments, ofPoints?_of_neg ha hb hc hfits hneg]
  exact mem_place_scan ⟨a, c, b⟩ ha hc hb hpos

end InArea

/-! ### Two triangles with an edge in common -/

/-- **Strictly between two corners the edge through them decides alone.** -/
theorem surrounds_of_between (hpos : 0 < orient p q r.x r.y) (h : p.Between q place) :
    surrounds p q r place = inside p q place := by
  have hp : 0 < orient q r p.x p.y := by rwa [orient_rotate]
  have hq : 0 < orient r p q.x q.y := by rwa [orient_rotate, orient_rotate]
  have hqr := inside_of_orient_pos (h.orient_pos hp (orient_left q r))
  have hrp := inside_of_orient_pos (h.symm.orient_pos hq (orient_right r p))
  rw [surrounds, hqr, hrp, Bool.true_and, Bool.true_and]

/-- **What two triangles on different sides of an edge share out**: they have no point in common, and
every point strictly between the corners of the edge goes to one of them. -/
theorem apart_and_once {first second : List Vertex} (hr : 0 < orient p q r.x r.y)
    (hs : 0 < orient q p s.x s.y)
    (hfirst : ∀ place, place ∈ first ↔ surrounds p q r place = true)
    (hsecond : ∀ place, place ∈ second ↔ surrounds q p s place = true) :
    (∀ place ∈ first, place ∉ second) ∧
      ∀ place, p.Between q place → Xor (place ∈ first) (place ∈ second) := by
  have hne := ne_of_orient_ne_zero hr.ne'
  constructor
  · intro place hmem hboth
    have hpq := (Bool.and_eq_true_iff.1 ((hfirst place).1 hmem)).2
    have hqp := (Bool.and_eq_true_iff.1 ((hsecond place).1 hboth)).2
    rw [inside_swap hne, hpq] at hqp
    exact Bool.noConfusion hqp
  · intro place hbetween
    rw [hfirst, hsecond, surrounds_of_between hr hbetween, surrounds_of_between hs hbetween.symm,
      inside_swap hne]
    cases inside p q place with
    | false => exact .inr ⟨rfl, Bool.false_ne_true⟩
    | true => exact .inl ⟨rfl, Bool.false_ne_true⟩

end Triangle

/-! ### Quadrilaterals -/

/-- The corners of a quadrilateral on the plane. -/
structure Quad where
  a : Point
  b : Point
  c : Point
  d : Point
  deriving DecidableEq

/-- The corners of a polygon that has four, moved by the drawing offset. -/
def Polygon.quad? (polygon : Polygon) (offset : DrawOffset) : Option Quad :=
  polygon.fourth.map fun fourth =>
    ⟨Point.ofCorner polygon.first offset, Point.ofCorner polygon.second offset,
      Point.ofCorner polygon.third offset, Point.ofCorner fourth offset⟩

/-- The quadrilateral lies in the drawing area, neither half is too large, and the halves lie on
different sides of the edge that they have in common. -/
structure Quad.Unfolded (quad : Quad) (area : DrawingArea) : Prop where
  a_mem : area.contains quad.a.x quad.a.y = true
  b_mem : area.contains quad.b.x quad.b.y = true
  c_mem : area.contains quad.c.x quad.c.y = true
  d_mem : area.contains quad.d.x quad.d.y = true
  first_fits : fitsTogether quad.a quad.b quad.c = true
  second_fits : fitsTogether quad.b quad.c quad.d = true
  opposite : orient quad.b quad.c quad.a.x quad.a.y * orient quad.b quad.c quad.d.x quad.d.y < 0

namespace Quad.Unfolded

open Triangle

variable {quad : Quad} {area : DrawingArea} (h : quad.Unfolded area)

include h

/-- **The halves of a quadrilateral have no point in common, and leave none of their edge out.** -/
theorem apart_and_once :
    (∀ place ∈ places area quad.a quad.b quad.c, place ∉ places area quad.b quad.c quad.d) ∧
      ∀ place, quad.b.Between quad.c place →
        Xor (place ∈ places area quad.a quad.b quad.c)
          (place ∈ places area quad.b quad.c quad.d) := by
  obtain ⟨ha, hb, hc, hd, hfirst, hsecond, hopposite⟩ := h
  -- The half on the inner side of the edge from `b` to `c` keeps the order of its corners, the other
  -- half is turned around.
  rcases mul_neg_iff.1 hopposite with ⟨hpos, hneg⟩ | ⟨hneg, hpos⟩
  · have hturned : 0 < orient quad.c quad.b quad.d.x quad.d.y := by
      rw [orient_swap]
      exact neg_pos.2 hneg
    refine Triangle.apart_and_once hpos hturned (fun place => ?_) fun place => ?_
    · rw [orient_rotate] at hpos
      rw [surrounds_rotate, mem_places_of_pos ha hb hc hfirst hpos]
    · rw [surrounds_rotate, surrounds_rotate, mem_places_of_neg hb hc hd hsecond hneg]
  · have hturned : 0 < orient quad.c quad.b quad.a.x quad.a.y := by
      rw [orient_swap]
      exact neg_pos.2 hneg
    have hmem : ∀ place, place ∈ places area quad.a quad.b quad.c ↔
        surrounds quad.c quad.b quad.a place = true := by
      intro place
      rw [orient_rotate] at hneg
      rw [surrounds_rotate, mem_places_of_neg ha hb hc hfirst hneg]
    obtain ⟨hapart, honce⟩ := Triangle.apart_and_once hturned hpos hmem fun place =>
      mem_places_of_pos hb hc hd hsecond hpos
    exact ⟨hapart, fun place hbetween => honce place hbetween.symm⟩

end Quad.Unfolded

/-! ### Drawing a quadrilateral -/

/-- A triangle is drawn by laying down its fragments. -/
theorem Triangle.draw_eq_foldl (area : DrawingArea) (a b c : Point) (shaded : Bool) (pen : Pen)
    (paint : Paint) (vram : Vram) :
    draw area a b c shaded pen paint vram =
      (fragments area a b c shaded paint.texture.isSome).foldl (pen.shade paint) vram := by
  rw [draw, fragments]
  cases ofPoints? area a b c with
  | none => rfl
  | some t => exact Scan.paint_eq_foldl _ pen paint vram

namespace Gpu

/-- **The common edge of the halves of a quadrilateral is drawn once**, shaded or not, textured or
not, translucent or not.  What reaches the pen are the fragments of the two halves.  No point is among
both of them, and every point strictly between the ends of the common edge is among one of them. -/
theorem sharedEdge_drawn_once {gpu : Gpu} {polygon : Polygon} {quad : Quad}
    (hquad : polygon.quad? gpu.environment.offset = some quad)
    (h : quad.Unfolded gpu.environment.area) :
    let status := polygonStatus gpu.status gpu.environment.textureDisableAllowed polygon
    let paint := polygonPaint status polygon
    let half := fun a b c =>
      Triangle.fragments gpu.environment.area a b c polygon.shaded paint.texture.isSome
    let first := half quad.a quad.b quad.c
    let second := half quad.b quad.c quad.d
    (gpu.run (.polygon polygon)).vram =
        (first ++ second).foldl ((Pen.ofSettings status gpu.environment).shade paint) gpu.vram ∧
      (∀ place ∈ first.map Fragment.place, place ∉ second.map Fragment.place) ∧
      ∀ place, quad.b.Between quad.c place →
        Xor (place ∈ first.map Fragment.place) (place ∈ second.map Fragment.place) := by
  intro status paint half first second
  obtain ⟨fourth, hfourth, rfl⟩ := Option.map_eq_some_iff.1 hquad
  have hfirst : first.map Fragment.place = _ := Triangle.place_fragments _ _ _ _ _ _
  have hsecond : second.map Fragment.place = _ := Triangle.place_fragments _ _ _ _ _ _
  rw [hfirst, hsecond]
  refine ⟨?_, h.apart_and_once⟩
  show drawPolygon status gpu.environment polygon gpu.vram = _
  rw [drawPolygon, hfourth, List.foldl_append]
  simp only [Triangle.draw_eq_foldl]
  rfl

/-- A textured, shaded and translucent quadrilateral; one point of its slanted diagonal, the corners
apart, lies on the grid. -/
theorem sharedEdge_drawn_once_slanted :
    let corner := fun (x y : Int) (u v : UInt8) => (⟨⟨x, y⟩, ⟨255, 128, 0⟩, ⟨u, v⟩⟩ : Corner)
    let polygon : Polygon := ⟨corner 1 1 0 0, corner 7 2 9 0, corner 3 4 0 9, some (corner 9 6 9 9),
      true, some ⟨⟨0, 0⟩, 0, false⟩, true⟩
    let half := fun a b c =>
      (Triangle.fragments powerOn.environment.area a b c true true).map Fragment.place
    ∃ quad, polygon.quad? powerOn.environment.offset = some quad ∧
      quad.Unfolded powerOn.environment.area ∧
      (∀ place ∈ half quad.a quad.b quad.c, place ∉ half quad.b quad.c quad.d) ∧
      quad.b.Between quad.c ⟨5, 3⟩ ∧
      Xor (⟨5, 3⟩ ∈ half quad.a quad.b quad.c) (⟨5, 3⟩ ∈ half quad.b quad.c quad.d) := by
  intro corner polygon half
  let quad : Quad := ⟨⟨1, 1, 255, 128, 0, 0, 0⟩, ⟨7, 2, 255, 128, 0, 9, 0⟩,
    ⟨3, 4, 255, 128, 0, 0, 9⟩, ⟨9, 6, 255, 128, 0, 9, 9⟩⟩
  have hquad : polygon.quad? powerOn.environment.offset = some quad := by decide +kernel
  have hunfolded : quad.Unfolded powerOn.environment.area :=
    ⟨by decide, by decide, by decide, by decide, by decide, by decide, by decide⟩
  have hbetween : quad.b.Between quad.c ⟨5, 3⟩ := ⟨1, 1, by decide⟩
  obtain ⟨-, hapart, honce⟩ := sharedEdge_drawn_once hquad hunfolded
  exact ⟨quad, hquad, hunfolded, hapart, hbetween, honce _ hbetween⟩

end Gpu

end ConsoleVideo
