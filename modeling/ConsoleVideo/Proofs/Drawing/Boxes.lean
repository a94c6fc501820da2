import ConsoleVideo.Proofs.Command.Operands
import ConsoleVideo.Proofs.Drawing.Clipping

/-!
# Upright boxes

An upright box may be drawn as a quadrilateral or as a rectangle.  A rectangle takes the points of the
box that lie in the drawing area.  A quadrilateral has its corners moved into the area, and the points
on its right and lower edge left to its neighbours.  A box that goes beyond the right or the lower
bound thus has its edge moved onto this bound, and leaves the last column or the last row of the
drawing area to a neighbour that is not there.

* `Triangle.Upright.mem_places` — the two halves of an upright quadrilateral share it out, less its
  right and its lower edge;
* `Box.Corners.mem_places_quad`, `Box.Corners.mem_places_rectangle` — what is come upon of a box in
  either way;
* `Gpu.run_quad_eq_run_rectangle` — the quadrilateral is the rectangle in a drawing area without its
  last column and row.
-/

namespace ConsoleVideo

/-- The drawing area without its last column and its last row. -/
def DrawingArea.trimmed (area : DrawingArea) : DrawingArea :=
  { area with right := area.right - 1, bottom := area.bottom - 1 }

/-! ### Upright edges -/

namespace Triangle

variable {area : DrawingArea} {p q r s : Point} {place : Vertex}

/-- A point lies inside an edge or inside its reverse, and never inside both. -/
theorem inside_swap_iff (h : p.x ≠ q.x ∨ p.y ≠ q.y) :
    inside q p place = true ↔ ¬ inside p q place = true := by
  rw [inside_swap h, Bool.not_eq_true', Bool.not_eq_true]

/-- What lies inside an edge that runs up is to its right. -/
theorem inside_of_upwards (hx : p.x = q.x) (hy : q.y < p.y) :
    inside p q place = true ↔ p.x ≤ place.x := by
  have horient : orient p q place.x place.y = (p.y - q.y) * (place.x - p.x) := by
    unfold orient
    rw [hx]
    ring
  have hheight : 0 < p.y - q.y := by omega
  have howns : ownsEdge p q = true := by simp [ownsEdge, hy]
  rw [inside, insideEdge, howns, horient, if_pos rfl, decide_eq_true_eq,
    mul_nonneg_iff_of_pos_left hheight, sub_nonneg]

/-- What lies inside an edge that runs to the right is below it. -/
theorem inside_of_rightwards (hx : p.x < q.x) (hy : p.y = q.y) :
    inside p q place = true ↔ p.y ≤ place.y := by
  have horient : orient p q place.x place.y = (q.x - p.x) * (place.y - p.y) := by
    unfold orient
    rw [hy]
    ring
  have hwidth : 0 < q.x - p.x := by omega
  have howns : ownsEdge p q = true := by simp [ownsEdge, hx, hy]
  rw [inside, insideEdge, howns, horient, if_pos rfl, decide_eq_true_eq,
    mul_nonneg_iff_of_pos_left hwidth, sub_nonneg]

/-- Of two products with positive factors, the larger one has its other factor positive if the smaller
one does not have it negative. -/
theorem pos_of_mul_lt {m n u v : Int} (hm : 0 < m) (hn : 0 < n) (h : n * v < m * u) (hv : 0 ≤ v) :
    0 < u :=
  (mul_pos_iff_of_pos_left hm).1 ((mul_nonneg hn.le hv).trans_lt h)

theorem pos_of_mul_le {m n u v : Int} (hm : 0 < m) (hn : 0 < n) (h : n * v ≤ m * u) (hv : 0 < v) :
    0 < u :=
  (mul_pos_iff_of_pos_left hm).1 ((mul_pos hn hv).trans_le h)

/-- Between the moved ends of a stretch lies what lies on the stretch and in the area, the last column
of the area apart. -/
theorem clamp_le_and_lt_clamp_iff {lo hi x x' z : Int} (h : lo ≤ hi) (hx : x ≤ x') :
    Point.clamp lo hi x ≤ z ∧ z < Point.clamp lo hi x' ↔
      (x ≤ z ∧ z < x') ∧ lo ≤ z ∧ z ≤ hi - 1 := by
  unfold Point.clamp
  split_ifs <;> omega

theorem places_clip {a b c : Point} (hfits : fitsTogether a b c = true) :
    places area (a.clip area) (b.clip area) (c.clip area) = places area a b c := by
  rw [places, places, fragments_clip hfits]

theorem places_of_area2 {a b c : Point} (h : (clipped area a b c).area2 = 0) :
    places area a b c = [] := by
  rw [places, fragments_of_area2 h, List.map_nil]

/-- The corners of an upright quadrilateral, the upper ones first and of each two the left one. -/
structure Upright (p q r s : Point) : Prop where
  left : r.x = p.x
  right : s.x = q.x
  top : q.y = p.y
  bottom : s.y = r.y
  width : p.x ≤ q.x
  height : p.y ≤ r.y

namespace Upright

variable (h : Upright p q r s)

include h

/-- A quadrilateral stays upright when its corners are moved into the drawing area. -/
theorem clip (hproper : area.IsProper) :
    Upright (p.clip area) (q.clip area) (r.clip area) (s.clip area) where
  left := congrArg (Point.clamp area.left area.right) h.left
  right := congrArg (Point.clamp area.left area.right) h.right
  top := congrArg (Point.clamp area.top area.bottom) h.top
  bottom := congrArg (Point.clamp area.top area.bottom) h.bottom
  width := Point.clamp_mono hproper.1 h.width
  height := Point.clamp_mono hproper.2 h.height

theorem orient_first : orient p q r.x r.y = (q.x - p.x) * (r.y - p.y) := by
  unfold orient
  rw [h.left, h.top]
  ring

theorem orient_second : orient q r s.x s.y = -((q.x - p.x) * (r.y - p.y)) := by
  unfold orient
  rw [h.left, h.top, h.right, h.bottom]
  ring

/-- The diagonal as it is seen from the upper right corner. -/
theorem orient_diagonal_right (x y : Int) :
    orient q r x y = (r.y - p.y) * (q.x - x) - (q.x - p.x) * (y - p.y) := by
  unfold orient
  rw [h.left, h.top]
  ring

/-- The diagonal as it is seen from the lower left corner. -/
theorem orient_diagonal_left (x y : Int) :
    orient q r x y = (q.x - p.x) * (r.y - y) - (r.y - p.y) * (x - p.x) := by
  unfold orient
  rw [h.left, h.top]
  ring

/-- The diagonal runs down and to the left, and does not have its points to itself. -/
theorem inside_diagonal (hheight : p.y < r.y) :
    inside q r place = true ↔ 0 < orient q r place.x place.y := by
  have hdown : q.y < r.y := h.top.trans_lt hheight
  have howns : ownsEdge q r = false := by simp [ownsEdge, hdown.ne, hdown.le]
  rw [inside, insideEdge, howns, if_neg Bool.false_ne_true, decide_eq_true_eq]
  exact Iff.rfl

variable (hwidth : p.x < q.x) (hheight : p.y < r.y)

include hwidth hheight

/-- The upper left half has the left and the upper edge to itself. -/
theorem surrounds_first :
    surrounds p q r place = true ↔
      0 < orient q r place.x place.y ∧ p.x ≤ place.x ∧ p.y ≤ place.y := by
  have hleft : inside r p place = true ↔ p.x ≤ place.x := by
    rw [inside_of_upwards h.left hheight, h.left]
  have htop : inside p q place = true ↔ p.y ≤ place.y := inside_of_rightwards hwidth h.top.symm
  rw [surrounds, Bool.and_eq_true, Bool.and_eq_true, h.inside_diagonal hheight, hleft, htop,
    and_assoc]

/-- The lower right half has the diagonal to itself. -/
theorem surrounds_second :
    surrounds q s r place = true ↔
      ¬ 0 < orient q r place.x place.y ∧ place.x < q.x ∧ place.y < r.y := by
  have hacross : r.x < q.x := h.left.trans_lt hwidth
  have hdown : q.y < r.y := h.top.trans_lt hheight
  have hqs : q.y < s.y := hdown.trans_eq h.bottom.symm
  have hrs : r.x < s.x := hacross.trans_eq h.right.symm
  have hright : inside q s place = true ↔ place.x < q.x := by
    rw [inside_swap_iff (.inr hqs.ne'), inside_of_upwards h.right hqs, h.right, not_le]
  have hbottom : inside s r place = true ↔ place.y < r.y := by
    rw [inside_swap_iff (.inl hrs.ne), inside_of_rightwards hrs h.bottom.symm, not_le]
  have hdiagonal : inside r q place = true ↔ ¬ 0 < orient q r place.x place.y := by
    rw [inside_swap_iff (.inr hdown.ne), h.inside_diagonal hheight]
  rw [surrounds, Bool.and_eq_true, Bool.and_eq_true, hright, hbottom, hdiagonal]
  constructor
  · rintro ⟨⟨hy, hd⟩, hx⟩
    exact ⟨hd, hx, hy⟩
  · rintro ⟨hd, hx, hy⟩
    exact ⟨⟨hy, hd⟩, hx⟩

/-- The halves of an upright quadrilateral in the drawing area share it out, less its right and its
lower edge. -/
theorem mem_places_of_contains (hp : area.contains p.x p.y = true)
    (hq : area.contains q.x q.y = true) (hr : area.contains r.x r.y = true)
    (hs : area.contains s.x s.y = true) (hfirst : fitsTogether p q r = true)
    (hsecond : fitsTogether q r s = true) :
    (place ∈ places area p q r ∨ place ∈ places area q r s) ↔
      (p.x ≤ place.x ∧ place.x < q.x) ∧ p.y ≤ place.y ∧ place.y < r.y := by
  have hw : 0 < q.x - p.x := sub_pos.2 hwidth
  have hh : 0 < r.y - p.y := sub_pos.2 hheight
  have hpos : 0 < orient p q r.x r.y := by
    rw [h.orient_first]
    exact mul_pos hw hh
  have hneg : orient q r s.x s.y < 0 := by
    rw [h.orient_second]
    exact neg_neg_of_pos (mul_pos hw hh)
  have hright := h.orient_diagonal_right place.x place.y
  have hleft := h.orient_diagonal_left place.x place.y
  rw [mem_places_of_pos hp hq hr hfirst hpos, mem_places_of_neg hq hr hs hsecond hneg,
    h.surrounds_first hwidth hheight, h.surrounds_second hwidth hheight]
  constructor
  · rintro (⟨hd, hx, hy⟩ | ⟨hd, hx, hy⟩)
    -- What is above the diagonal is to the left of the one end and above the other.
    · have hx' : 0 < q.x - place.x :=
        pos_of_mul_lt hh hw (sub_pos.1 (hright ▸ hd)) (sub_nonneg.2 hy)
      have hy' : 0 < r.y - place.y :=
        pos_of_mul_lt hw hh (sub_pos.1 (hleft ▸ hd)) (sub_nonneg.2 hx)
      omega
    · have hx' : 0 < place.x - p.x :=
        pos_of_mul_le hh hw (sub_nonpos.1 (hleft ▸ not_lt.1 hd)) (sub_pos.2 hy)
      have hy' : 0 < place.y - p.y :=
        pos_of_mul_le hw hh (sub_nonpos.1 (hright ▸ not_lt.1 hd)) (sub_pos.2 hx)
      omega
  · rintro ⟨⟨hx, hx'⟩, hy, hy'⟩
    by_cases hd : 0 < orient q r place.x place.y
    · exact .inl ⟨hd, hx, hy⟩
    · exact .inr ⟨hd, hx', hy'⟩

omit hwidth hheight

/-- The same for any quadrilateral, by its corners as they are after clipping. -/
theorem mem_places_of_isProper (hproper : area.IsProper) (hfirst : fitsTogether p q r = true)
    (hsecond : fitsTogether q r s = true) :
    (place ∈ places area p q r ∨ place ∈ places area q r s) ↔
      ((p.clip area).x ≤ place.x ∧ place.x < (q.clip area).x) ∧
        (p.clip area).y ≤ place.y ∧ place.y < (r.clip area).y := by
  have hmoved := h.clip hproper
  rcases hmoved.width.eq_or_lt with hnarrow | hwidth
  · rw [places_of_area2 (orient_of_upright hnarrow (hmoved.left.trans hnarrow)),
      places_of_area2 (orient_of_upright (hnarrow.symm.trans hmoved.left.symm)
        (hmoved.right.trans (hnarrow.symm.trans hmoved.left.symm)))]
    simp only [List.not_mem_nil, or_self, false_iff]
    omega
  rcases hmoved.height.eq_or_lt with hflat | hheight
  · rw [places_of_area2 (orient_of_level hmoved.top.symm (hflat.symm.trans hmoved.top.symm)),
      places_of_area2 (orient_of_level (hmoved.top.trans hflat) hmoved.bottom)]
    simp only [List.not_mem_nil, or_self, false_iff]
    omega
  rw [← places_clip hfirst, ← places_clip hsecond]
  exact hmoved.mem_places_of_contains hwidth hheight (Point.contains_clip hproper p)
    (Point.contains_clip hproper q) (Point.contains_clip hproper r) (Point.contains_clip hproper s)
    (fitsTogether_clip hproper hfirst) (fitsTogether_clip hproper hsecond)

/-- **The halves of an upright quadrilateral share out what of it lies in the drawing area**, less its
right and its lower edge, and less the last column and the last row of the area. -/
theorem mem_places (hfirst : fitsTogether p q r = true) (hsecond : fitsTogether q r s = true) :
    (place ∈ places area p q r ∨ place ∈ places area q r s) ↔
      ((p.x ≤ place.x ∧ place.x < q.x) ∧ p.y ≤ place.y ∧ place.y < r.y) ∧
        area.trimmed.contains place.x place.y = true := by
  by_cases hproper : area.IsProper
  · have hx : (p.clip area).x ≤ place.x ∧ place.x < (q.clip area).x ↔
        (p.x ≤ place.x ∧ place.x < q.x) ∧ area.left ≤ place.x ∧ place.x ≤ area.right - 1 :=
      clamp_le_and_lt_clamp_iff hproper.1 h.width
    have hy : (p.clip area).y ≤ place.y ∧ place.y < (r.clip area).y ↔
        (p.y ≤ place.y ∧ place.y < r.y) ∧ area.top ≤ place.y ∧ place.y ≤ area.bottom - 1 :=
      clamp_le_and_lt_clamp_iff hproper.2 h.height
    rw [h.mem_places_of_isProper hproper hfirst hsecond, hx, hy, DrawingArea.contains_iff]
    simp only [DrawingArea.trimmed]
    omega
  · have hnone : ∀ {a b c : Point}, place ∉ places area a b c := by
      intro a b c hmem
      have hcontains := DrawingArea.contains_iff.1 (contains_of_mem_places hmem)
      exact hproper ⟨by omega, by omega⟩
    simp only [hnone, or_self, false_iff, DrawingArea.contains_iff, DrawingArea.trimmed]
    intro hinside
    exact hproper ⟨by omega, by omega⟩

end Upright

end Triangle

/-! ### Boxes -/

/-- An upright box on the plane, no larger than a triangle may be. -/
structure Box where
  x : Int
  y : Int
  width : Nat
  height : Nat
  width_pos : 0 < width
  width_le : width ≤ 1023
  height_pos : 0 < height
  height_le : height ≤ 511

namespace Box

/-- The points of a box. -/
def Covers (box : Box) (place : Vertex) : Prop :=
  (box.x ≤ place.x ∧ place.x < box.x + box.width) ∧
    box.y ≤ place.y ∧ place.y < box.y + box.height

instance (box : Box) (place : Vertex) : Decidable (box.Covers place) :=
  inferInstanceAs (Decidable ((_ ∧ _) ∧ _ ∧ _))

/-- Four vertices that the drawing offset moves to the corners of a box.  The right and the lower ones
come to lie just beside it. -/
structure Corners (box : Box) (offset : DrawOffset) where
  topLeft : Vertex
  topRight : Vertex
  bottomLeft : Vertex
  bottomRight : Vertex
  offset_topLeft : topLeft.offset offset.x offset.y = ⟨box.x, box.y⟩
  offset_topRight : topRight.offset offset.x offset.y = ⟨box.x + box.width, box.y⟩
  offset_bottomLeft : bottomLeft.offset offset.x offset.y = ⟨box.x, box.y + box.height⟩
  offset_bottomRight :
    bottomRight.offset offset.x offset.y = ⟨box.x + box.width, box.y + box.height⟩

namespace Corners

variable {box : Box} {offset : DrawOffset}

/-- The box as a quadrilateral of one solid colour. -/
def quad (corners : box.Corners offset) (color : Color) : Polygon where
  first := ⟨corners.topLeft, color, ⟨0, 0⟩⟩
  second := ⟨corners.topRight, color, ⟨0, 0⟩⟩
  third := ⟨corners.bottomLeft, color, ⟨0, 0⟩⟩
  fourth := some ⟨corners.bottomRight, color, ⟨0, 0⟩⟩
  shaded := false
  texture := none
  translucent := false

/-- The box as a rectangle of one solid colour. -/
def rectangle (corners : box.Corners offset) (color : Color) : Rectangle where
  position := corners.topLeft
  width := box.width
  height := box.height
  color := color
  texture := none
  translucent := false

end Corners

/-- A corner without a texture. -/
def corner (color : Color) (x y : Int) : Point :=
  ⟨x, y, color.red.toNat, color.green.toNat, color.blue.toNat, 0, 0⟩

theorem ofCorner_eq {color : Color} {vertex : Vertex} {offset : DrawOffset} {x y : Int}
    (h : vertex.offset offset.x offset.y = ⟨x, y⟩) :
    Point.ofCorner ⟨vertex, color, ⟨0, 0⟩⟩ offset = corner color x y := by
  simp [Point.ofCorner, h, corner]

theorem deep_corner (color : Color) (x y : Int) : (corner color x y).deep = color.deep := by
  simp [corner, Point.deep, Color.deep]

namespace Corners

variable {box : Box} {environment : Environment} (corners : box.Corners environment.offset)
  (color : Color) {place : Vertex}

/-! ### The quadrilateral -/

/-- The upper left half of the quadrilateral comes first. -/
theorem places_quad :
    let q := corner color (box.x + box.width) box.y
    let r := corner color box.x (box.y + box.height)
    (Job.polygon (corners.quad color)).places environment =
      Triangle.places environment.area (corner color box.x box.y) q r ++
        Triangle.places environment.area q r
          (corner color (box.x + box.width) (box.y + box.height)) := by
  simp only [Job.places, Polygon.places, quad, ofCorner_eq corners.offset_topLeft,
    ofCorner_eq corners.offset_topRight, ofCorner_eq corners.offset_bottomLeft,
    ofCorner_eq corners.offset_bottomRight]

/-- **A quadrilateral takes the points of the box that lie in the drawing area**, but for those in the
last column and the last row of the area. -/
theorem mem_places_quad :
    place ∈ (Job.polygon (corners.quad color)).places environment ↔
      box.Covers place ∧ environment.area.trimmed.contains place.x place.y = true := by
  have hwidth := box.width_le
  have hheight := box.height_le
  have hupright : Triangle.Upright (corner color box.x box.y)
      (corner color (box.x + box.width) box.y) (corner color box.x (box.y + box.height))
      (corner color (box.x + box.width) (box.y + box.height)) := by
    constructor <;> simp [corner]
  rw [places_quad, List.mem_append, hupright.mem_places]
  · rfl
  all_goals
    simp only [fitsTogether, Bool.and_eq_true, decide_eq_true_eq]
    simp only [corner, least, greatest]
    omega

/-! ### The rectangle -/

omit color in
include corners in
/-- The box lies in the range of the coordinate adders. -/
theorem range :
    (-2147483648 ≤ box.x ∧ box.x + box.width ≤ 2147483647) ∧
      -2147483648 ≤ box.y ∧ box.y + box.height ≤ 2147483647 := by
  have hfirst := corners.offset_topLeft
  have hlast := corners.offset_bottomRight
  simp only [Vertex.offset, Vertex.mk.injEq] at hfirst hlast
  rw [← hlast.1, ← hlast.2, ← hfirst.1, ← hfirst.2]
  exact ⟨⟨(wrap32_range _).1, (wrap32_range _).2⟩, (wrap32_range _).1, (wrap32_range _).2⟩

/-- **A rectangle takes the points of the box that lie in the drawing area.** -/
theorem mem_places_rectangle :
    place ∈ (Job.rectangle (corners.rectangle color)).places environment ↔
      box.Covers place ∧ environment.area.contains place.x place.y = true := by
  obtain ⟨⟨hleft, hright⟩, htop, hbottom⟩ := corners.range
  have hwidth := box.width_pos
  have hheight := box.height_pos
  have horigin : (Sprite.ofRectangle (corners.rectangle color) environment).origin =
      ⟨box.x, box.y⟩ := corners.offset_topLeft
  have hx : wrap32 (box.x + box.width - 1) = box.x + box.width - 1 :=
    wrap32_of_range (by omega) (by omega)
  have hy : wrap32 (box.y + box.height - 1) = box.y + box.height - 1 :=
    wrap32_of_range (by omega) (by omega)
  rw [Job.places, Sprite.mem_places, Sprite.columns, Sprite.rows, horigin, mem_span, mem_span,
    DrawingArea.contains_iff]
  simp only [Sprite.ofRectangle, rectangle, hx, hy, Covers]
  omega

end Corners

end Box

/-! ### Both ways -/

namespace Gpu

/-- The hardware with another drawing area. -/
def withArea (gpu : Gpu) (area : DrawingArea) : Gpu :=
  { gpu with environment := { gpu.environment with area := area } }

variable (gpu : Gpu) {box : Box} (corners : box.Corners gpu.environment.offset) (color : Color)

/-- The quadrilateral is drawn as the triangle of its first three corners and that of its last. -/
theorem run_quad :
    let q := Box.corner color (box.x + box.width) box.y
    let r := Box.corner color box.x (box.y + box.height)
    gpu.run (.polygon (corners.quad color)) =
      (gpu.drawTriangle (Box.corner color box.x box.y) q r false Paint.solid).drawTriangle q r
        (Box.corner color (box.x + box.width) (box.y + box.height)) false Paint.solid := by
  intro q r
  have hpaint : polygonPaint gpu.status (corners.quad color) = Paint.solid := by
    simp [polygonPaint, Box.Corners.quad, Paint.solid]
  have hstatus : polygonStatus gpu.status gpu.environment.textureDisableAllowed
      (corners.quad color) = gpu.status := rfl
  rw [run_polygon]
  simp only [hstatus, hpaint]
  simp only [Box.Corners.quad, Box.ofCorner_eq corners.offset_topLeft,
    Box.ofCorner_eq corners.offset_topRight, Box.ofCorner_eq corners.offset_bottomLeft,
    Box.ofCorner_eq corners.offset_bottomRight]
  rfl

theorem both_run_quad (i : Fin Vram.size) :
    (gpu.run (.polygon (corners.quad color))).vram.both i =
      if ((Job.polygon (corners.quad color)).footprint gpu.environment).contains i then
        (Pen.ofSettings gpu.status gpu.environment).laid false color.deep (gpu.vram.both i)
      else gpu.vram.both i := by
  let q := Box.corner color (box.x + box.width) box.y
  let r := Box.corner color box.x (box.y + box.height)
  let s := Box.corner color (box.x + box.width) (box.y + box.height)
  let first := (Triangle.places gpu.environment.area (Box.corner color box.x box.y) q r).map
    Vertex.cell
  let second := (Triangle.places gpu.environment.area q r s).map Vertex.cell
  let pen := Pen.ofSettings gpu.status gpu.environment
  have hfirst : (gpu.drawTriangle (Box.corner color box.x box.y) q r false Paint.solid).vram.both i =
      if first.contains i then pen.laid false color.deep (gpu.vram.both i)
      else gpu.vram.both i := by
    rw [both_drawTriangle_solid, Box.deep_corner]
  have hcells : (Job.polygon (corners.quad color)).footprint gpu.environment = first ++ second := by
    rw [Job.footprint, corners.places_quad, List.map_append]
  rw [run_quad, both_drawTriangle_solid, hfirst, Box.deep_corner, hcells]
  show (if second.contains i then pen.laid false color.deep _ else _) =
    if (first ++ second).contains i then pen.laid false color.deep (gpu.vram.both i)
    else gpu.vram.both i
  by_cases h₁ : i ∈ first <;> by_cases h₂ : i ∈ second <;> simp [h₁, h₂, pen.laid_laid]

theorem both_run_rectangle (i : Fin Vram.size) :
    (gpu.run (.rectangle (corners.rectangle color))).vram.both i =
      if ((Job.rectangle (corners.rectangle color)).footprint gpu.environment).contains i then
        (Pen.ofSettings gpu.status gpu.environment).laid false color.deep (gpu.vram.both i)
      else gpu.vram.both i := by
  let sprite := Sprite.ofRectangle (corners.rectangle color) gpu.environment
  have hpaint : rectanglePaint gpu.status (corners.rectangle color) = Paint.solid := by
    simp [rectanglePaint, Box.Corners.rectangle, Paint.solid]
  have hbase : ∀ fragment ∈ (sprite.scan gpu.environment.area).fragments,
      fragment.base = color.deep := by
    intro fragment hmem
    obtain ⟨y, -, hrow⟩ := List.mem_flatMap.1 hmem
    obtain ⟨x, -, rfl⟩ := List.mem_map.1 hrow
    rfl
  have hrun : (gpu.run (.rectangle (corners.rectangle color))).vram =
      (sprite.scan gpu.environment.area).paint (Pen.ofSettings gpu.status gpu.environment)
        (rectanglePaint gpu.status (corners.rectangle color)) gpu.vram := rfl
  rw [hrun, Scan.paint_eq_foldl, hpaint, Pen.both_foldl_shade _ hbase]
  rfl

/-- **A box drawn as a quadrilateral is the box drawn as a rectangle, in a drawing area without its last
column and its last row.**  So the two are the same where the box has nothing to leave out there. -/
theorem run_quad_eq_run_rectangle :
    let quad := (gpu.run (.polygon (corners.quad color))).vram
    quad = ((gpu.withArea gpu.environment.area.trimmed).run
        (.rectangle (corners.rectangle color))).vram ∧
      ((∀ place, box.Covers place → gpu.environment.area.contains place.x place.y = true →
          place.x < gpu.environment.area.right ∧ place.y < gpu.environment.area.bottom) →
        quad = (gpu.run (.rectangle (corners.rectangle color))).vram) := by
  intro quad
  have hpicture : ∀ area, (∀ place, box.Covers place →
      (gpu.environment.area.trimmed.contains place.x place.y = true ↔
        area.contains place.x place.y = true)) →
      quad = ((gpu.withArea area).run (.rectangle (corners.rectangle color))).vram := by
    intro area hsame
    let moved : box.Corners (gpu.withArea area).environment.offset := corners
    refine Vram.ext_both fun i => ?_
    have hcells : ((Job.polygon (corners.quad color)).footprint gpu.environment).contains i =
        ((Job.rectangle (moved.rectangle color)).footprint
          (gpu.withArea area).environment).contains i := by
      rw [Bool.eq_iff_iff]
      simp only [List.contains_iff_mem, Job.footprint, List.mem_map, corners.mem_places_quad,
        moved.mem_places_rectangle]
      exact exists_congr fun place => and_congr_left fun _ => and_congr_right (hsame place)
    rw [both_run_quad, hcells]
    exact (both_run_rectangle (gpu.withArea area) moved color i).symm
  refine ⟨hpicture _ fun _ _ => Iff.rfl, fun hinner => ?_⟩
  refine hpicture gpu.environment.area fun place hcovers => ?_
  have hplace := hinner place hcovers
  simp only [DrawingArea.contains_iff, DrawingArea.trimmed] at hplace ⊢
  omega

/-- A box that goes beyond the upper and the left bound, but stays clear of the others. -/
theorem run_quad_eq_run_rectangle_upper :
    let box : Box := ⟨-2, -3, 40, 30, by decide, by decide, by decide, by decide⟩
    let corners : box.Corners powerOn.environment.offset :=
      ⟨⟨-2, -3⟩, ⟨38, -3⟩, ⟨-2, 27⟩, ⟨38, 27⟩, by decide, by decide, by decide, by decide⟩
    (powerOn.run (.polygon (corners.quad ⟨255, 128, 0⟩))).vram =
      (powerOn.run (.rectangle (corners.rectangle ⟨255, 128, 0⟩))).vram := by
  intro box corners
  refine (run_quad_eq_run_rectangle powerOn corners ⟨255, 128, 0⟩).2 fun place hcovers _ => ?_
  obtain ⟨⟨-, hx⟩, -, hy⟩ : (-2 ≤ place.x ∧ place.x < -2 + 40) ∧ -3 ≤ place.y ∧ place.y < -3 + 30 :=
    hcovers
  show place.x < 1023 ∧ place.y < 511
  omega

/-- **The last row of the drawing area is missing from a box that goes beyond it**, when the box is drawn
as a quadrilateral. -/
theorem not_forall_run_quad_eq_run_rectangle :
    ¬ ∀ (gpu : Gpu) (box : Box) (corners : box.Corners gpu.environment.offset) (color : Color),
      0 ≤ gpu.environment.area.left → gpu.environment.area.right ≤ 1023 →
      0 ≤ gpu.environment.area.top → gpu.environment.area.bottom ≤ 511 →
      corners.topLeft.Fits → corners.topRight.Fits → corners.bottomLeft.Fits →
      corners.bottomRight.Fits →
      (gpu.run (.polygon (corners.quad color))).vram =
        (gpu.run (.rectangle (corners.rectangle color))).vram := by
  intro h
  let box : Box := ⟨0, 500, 4, 20, by decide, by decide, by decide, by decide⟩
  let corners : box.Corners powerOn.environment.offset :=
    ⟨⟨0, 500⟩, ⟨4, 500⟩, ⟨0, 520⟩, ⟨4, 520⟩, by decide, by decide, by decide, by decide⟩
  let color : Color := ⟨255, 0, 0⟩
  let environment := powerOn.environment
  have hrectangle : Vertex.cell ⟨0, 511⟩ ∈
      (Job.rectangle (corners.rectangle color)).footprint environment :=
    List.mem_map_of_mem ((corners.mem_places_rectangle color).2 (by decide))
  have hquad : Vertex.cell ⟨0, 511⟩ ∉ (Job.polygon (corners.quad color)).footprint environment := by
    intro hmem
    obtain ⟨place, hplace, hcell⟩ := List.mem_map.1 hmem
    obtain ⟨⟨-, htop, -⟩, harea⟩ := (corners.mem_places_quad color).1 hplace
    have hbottom : place.y ≤ 510 := (DrawingArea.contains_iff.1 harea).2.2.2
    have hrow := (Vram.cell_eq_iff.1 hcell).2
    change 500 ≤ place.y at htop
    change place.y % 512 = 511 % 512 at hrow
    omega
  have hboth := congrArg (Vram.both · (Vertex.cell ⟨0, 511⟩))
    (h powerOn box corners color (by decide) (by decide) (by decide) (by decide) (by decide)
      (by decide) (by decide) (by decide))
  have hdrawn := (powerOn.both_run_rectangle corners color (Vertex.cell ⟨0, 511⟩)).trans
    (if_pos (List.contains_iff_mem.2 hrectangle))
  have hleft := (powerOn.both_run_quad corners color (Vertex.cell ⟨0, 511⟩)).trans
    (if_neg (mt List.contains_iff_mem.1 hquad))
  have hsame := hleft.symm.trans (hboth.trans hdrawn)
  rw [Pen.laid_solid, show powerOn.vram.both _ = (0, 0) from Vram.both_blank _] at hsame
  exact absurd hsame (by decide +kernel)

end Gpu

end ConsoleVideo
