import ConsoleVideo.Proofs.Drawing.Images
import ConsoleVideo.Proofs.Drawing.Strokes

/-!
# Where drawing goes

Which points a job comes upon is settled by its own words, the drawing area and the drawing offset,
and does not depend on the picture.  What becomes of a point without a texture follows from what its
cell held before, so that such jobs have nothing to do with each other as long as they keep to
different cells.

* `Job.places` — the points that a job comes upon, in its order, and `Job.footprint`, their cells;
* `Triangle.place_fragments` — colours and textures do not move a triangle;
* `Scan.forall₂_strokes`, `Polygon.forall₂_strokes`, `Grid.forall₂_strokes` — strokes and places belong
  together one by one;
* `Stroke.IsAt` — a stroke that looks at one cell and changes no other, with `IsAt.comm`;
* `Pen.laid`, `Pen.both_shade` — what a fragment without a texture makes of its cell;
* `Gpu.strokes_at_footprint` — the strokes of a job without a texture are such strokes, each at its
  place;
* `Gpu.execute_comm_of_disjoint` — jobs with disjoint footprints may be carried out in any order.
-/

namespace ConsoleVideo

/-! ### Places -/

/-- The cell that a point of the plane is kept in. -/
def Vertex.cell (place : Vertex) : Fin Vram.size :=
  Vram.cell place.x place.y

def Fragment.place (fragment : Fragment) : Vertex :=
  ⟨fragment.x, fragment.y⟩

def Scan.places (scan : Scan) : List Vertex :=
  scan.fragments.map Fragment.place

/-- The points of a block, row by row. -/
def Grid.places (x y width height : Nat) : List Vertex :=
  (offsets width height).map fun offset => ⟨(x + offset.1 : Nat), (y + offset.2 : Nat)⟩

namespace Triangle

/-- The fragments of the triangle of three corners. -/
def fragments (area : DrawingArea) (a b c : Point) (shaded textured : Bool) : List Fragment :=
  match ofPoints? area a b c with
  | none => []
  | some t => (t.scan area shaded textured).fragments

/-- The points of the triangle of three corners. -/
def places (area : DrawingArea) (a b c : Point) : List Vertex :=
  (fragments area a b c false false).map Fragment.place

theorem place_fragment? (t : Triangle) (shaded textured : Bool) (x y : Int) :
    (t.fragment? shaded textured x y).map Fragment.place =
      if t.covers (t.weights x y) then some ⟨x, y⟩ else none := by
  rw [fragment?]
  split <;> rfl

/-- A triangle comes upon the points that it covers, row by row. -/
theorem place_scan (t : Triangle) (area : DrawingArea) (shaded textured : Bool) :
    (t.scan area shaded textured).fragments.map Fragment.place =
      (span (max (least t.a.y t.b.y t.c.y) area.top)
        (min (greatest t.a.y t.b.y t.c.y) area.bottom)).flatMap fun y =>
          (span (max (least t.a.x t.b.x t.c.x) area.left)
            (min (greatest t.a.x t.b.x t.c.x) area.right)).filterMap fun x =>
              if t.covers (t.weights x y) then some ⟨x, y⟩ else none := by
  rw [Scan.fragments, List.map_flatMap]
  refine List.flatMap_congr fun y _ => ?_
  rw [scan, List.map_filterMap]
  exact List.filterMap_congr fun x _ => t.place_fragment? shaded textured x y

/-- **Colours and textures do not move a triangle.** -/
theorem place_fragments (area : DrawingArea) (a b c : Point) (shaded textured : Bool) :
    (fragments area a b c shaded textured).map Fragment.place = places area a b c := by
  rw [places, fragments, fragments]
  cases ofPoints? area a b c with
  | none => rfl
  | some t => exact (t.place_scan area shaded textured).trans (t.place_scan area false false).symm

end Triangle

namespace Sprite

variable (sprite : Sprite) (area : DrawingArea)

/-- A rectangle comes upon the points of its columns and rows that lie in the drawing area. -/
theorem places_scan :
    (sprite.scan area).places =
      (sprite.rows area).flatMap fun y => (sprite.columns area).map fun x => ⟨x, y⟩ := by
  simp only [Scan.places, Scan.fragments, scan, row, List.map_flatMap, List.map_map,
    Function.comp_def, Fragment.place]

theorem mem_places {place : Vertex} :
    place ∈ (sprite.scan area).places ↔
      place.x ∈ sprite.columns area ∧ place.y ∈ sprite.rows area := by
  simp only [places_scan, List.mem_flatMap, List.mem_map]
  constructor
  · rintro ⟨y, hy, x, hx, rfl⟩
    exact ⟨hx, hy⟩
  · rintro ⟨hx, hy⟩
    exact ⟨place.y, hy, place.x, hx, rfl⟩

end Sprite

/-- The points of the triangles that a polygon is drawn as. -/
def Polygon.places (polygon : Polygon) (environment : Environment) : List Vertex :=
  let point := fun corner => Point.ofCorner corner environment.offset
  let half := Triangle.places environment.area (point polygon.first) (point polygon.second)
    (point polygon.third)
  match polygon.fourth with
  | none => half
  | some fourth =>
    half ++ Triangle.places environment.area (point polygon.second) (point polygon.third)
      (point fourth)

namespace Job

/-- The points that a job comes upon, in its order. -/
def places (job : Job) (environment : Environment) : List Vertex :=
  match job with
  | .fill block => Grid.places block.x block.y block.width block.height
  | .polygon shape => shape.places environment
  | .line stretch => ((Segment.ofLine stretch environment.offset).scan environment.area).places
  | .rectangle shape => ((Sprite.ofRectangle shape environment).scan environment.area).places
  | .copy block => Grid.places block.toX block.toY block.width block.height
  | .upload image => Grid.places image.rect.x image.rect.y image.rect.width image.rect.height
  | _ => []

/-- The cells that a job comes upon. -/
def footprint (job : Job) (environment : Environment) : List (Fin Vram.size) :=
  (job.places environment).map Vertex.cell

/-- Fills, lines, and polygons and rectangles without a texture. -/
def isPlain : Job → Bool
  | .fill _ | .line _ => true
  | .polygon shape => shape.texture.isNone
  | .rectangle shape => shape.texture.isNone
  | _ => false

end Job

/-! ### Strokes and their places -/

section AtPlaces

-- What holds of every single stroke and the cell of its place holds of the strokes of a shape and its
-- places, one by one.
variable {R : Stroke → Fin Vram.size → Prop}

theorem Grid.forall₂_strokes {act : Vram → Nat → Nat → Vram} {x y : Nat}
    (hact : ∀ dx dy : Nat, R (fun vram => act vram dx dy) (Vram.cell (x + dx : Nat) (y + dy : Nat)))
    (width height : Nat) :
    List.Forall₂ R (strokes width height act) ((places x y width height).map Vertex.cell) := by
  rw [strokes, places, List.map_map, List.forall₂_map_left_iff, List.forall₂_map_right_iff,
    List.forall₂_same]
  exact fun offset _ => hact offset.1 offset.2

variable {pen : Pen} {paint : Paint}
  (hshade : ∀ fragment : Fragment, R (fun vram => pen.shade paint vram fragment) fragment.place.cell)

include hshade

theorem Scan.forall₂_strokes (scan : Scan) :
    List.Forall₂ R (scan.strokes pen paint) (scan.places.map Vertex.cell) := by
  rw [strokes, places, List.map_map, List.forall₂_map_left_iff, List.forall₂_map_right_iff,
    List.forall₂_same]
  exact fun fragment _ => hshade fragment

theorem Triangle.forall₂_strokes (area : DrawingArea) (a b c : Point) (shaded : Bool) :
    List.Forall₂ R (strokes area a b c shaded pen paint) ((places area a b c).map Vertex.cell) := by
  rw [← place_fragments area a b c shaded paint.texture.isSome, strokes, fragments]
  cases ofPoints? area a b c with
  | none => exact .nil
  | some t => exact Scan.forall₂_strokes hshade _

omit hshade in
theorem Polygon.forall₂_strokes {polygon : Polygon} {status : Status} {environment : Environment}
    (hshade : ∀ fragment : Fragment, R (fun vram =>
      (Pen.ofSettings status environment).shade (Gpu.polygonPaint status polygon) vram fragment)
        fragment.place.cell) :
    List.Forall₂ R (polygon.strokes status environment)
      ((polygon.places environment).map Vertex.cell) := by
  rw [strokes, places]
  cases polygon.fourth with
  | none => exact Triangle.forall₂_strokes hshade _ _ _ _ _
  | some fourth =>
    simp only [List.map_append]
    exact List.rel_append (Triangle.forall₂_strokes hshade _ _ _ _ _)
      (Triangle.forall₂_strokes hshade _ _ _ _ _)

end AtPlaces

/-! ### Strokes that keep to one cell -/

theorem Vram.ext_both {vram other : Vram} (h : ∀ i, vram.both i = other.both i) : vram = other := by
  have hdeep : vram.deep = other.deep := Vector.ext fun i hi => congrArg Prod.fst (h ⟨i, hi⟩)
  have hnative : vram.native = other.native := Vector.ext fun i hi => congrArg Prod.snd (h ⟨i, hi⟩)
  obtain ⟨deep, native⟩ := vram
  obtain ⟨deep', native'⟩ := other
  exact congr (congrArg Vram.mk hdeep) hnative

/-- The stroke makes something of what a cell holds and leaves all other cells alone. -/
def Stroke.IsAt (stroke : Stroke) (i : Fin Vram.size) : Prop :=
  ∃ new : Deep × Native → Deep × Native, ∀ vram j,
    (stroke vram).both j = if i = j then new (vram.both j) else vram.both j

namespace Stroke.IsAt

variable {stroke other : Stroke} {i j : Fin Vram.size}

/-- **Strokes at different cells do not notice each other.** -/
theorem comm (h : stroke.IsAt i) (h' : other.IsAt j) (hne : i ≠ j) (vram : Vram) :
    other (stroke vram) = stroke (other vram) := by
  obtain ⟨new, hnew⟩ := h
  obtain ⟨new', hnew'⟩ := h'
  refine Vram.ext_both fun k => ?_
  rw [hnew', hnew, hnew, hnew']
  by_cases hi : i = k
  · have hj : j ≠ k := fun hj => hne (hi.trans hj.symm)
    rw [if_neg hj, if_neg hj]
  · rw [if_neg hi, if_neg hi]

variable {strokes later : List Stroke} {cells others : List (Fin Vram.size)}

theorem drawn_comm (h : stroke.IsAt i) (hlater : List.Forall₂ IsAt later others) (hi : i ∉ others)
    (vram : Vram) : (stroke vram).drawn later = stroke (vram.drawn later) := by
  induction hlater generalizing vram with
  | nil => rfl
  | @cons next j later others hnext _ ih =>
    rw [List.mem_cons, not_or] at hi
    show (next (stroke vram)).drawn later = stroke ((next vram).drawn later)
    rw [h.comm hnext hi.1, ih hi.2]

/-- **What is drawn in different cells may be drawn in any order.** -/
theorem drawn_comm_of_disjoint (h : List.Forall₂ IsAt strokes cells)
    (hlater : List.Forall₂ IsAt later others) (hdisjoint : ∀ i ∈ cells, i ∉ others) (vram : Vram) :
    (vram.drawn strokes).drawn later = (vram.drawn later).drawn strokes := by
  induction h generalizing vram with
  | nil => rfl
  | @cons stroke i strokes cells hstroke _ ih =>
    show ((stroke vram).drawn strokes).drawn later = (stroke (vram.drawn later)).drawn strokes
    rw [ih fun j hj => hdisjoint j (List.mem_cons_of_mem i hj),
      hstroke.drawn_comm hlater (hdisjoint i List.mem_cons_self)]

end Stroke.IsAt

/-! ### Fills and shapes without a texture -/

/-- What a fragment without a texture makes of what its cell holds. -/
def Pen.laid (pen : Pen) (translucent : Bool) (base : Deep) (old : Deep × Native) : Deep × Native :=
  if pen.checkMask && Native.isMasked old.2 then old
  else
    let color := Deep.ofWord (pen.mix translucent old.1 (Deep.color base))
    (color, Deep.pack color)

/-- Without a texture, a fragment is mixed with nothing but what it lies on. -/
theorem Pen.both_shade (pen : Pen) {paint : Paint} (hplain : paint.texture = none) (vram : Vram)
    (fragment : Fragment) (j : Fin Vram.size) :
    (pen.shade paint vram fragment).both j =
      if fragment.place.cell = j then pen.laid paint.translucent fragment.base (vram.both j)
      else vram.both j := by
  have hshade : pen.shade paint vram fragment =
      if pen.checkMask && Native.isMasked (vram.both fragment.place.cell).2 then vram
      else vram.set fragment.x fragment.y (pen.mix paint.translucent
        (vram.both fragment.place.cell).1 (Deep.color fragment.base)) := by
    rw [Pen.shade, Pen.source, hplain]
    rfl
  rw [hshade, apply_ite (Vram.both · j), Vram.set, Vram.both_put, Pen.laid]
  by_cases hj : fragment.place.cell = j
  · subst hj
    rw [if_pos rfl]
    exact congrArg _ (if_pos rfl)
  · rw [if_neg hj]
    exact (congrArg _ (if_neg hj)).trans (ite_self _)

namespace Stroke.IsAt

theorem set (x y : Int) (color : Deep) : IsAt (fun vram => vram.set x y color) (Vram.cell x y) :=
  ⟨fun _ => (Deep.ofWord color, Deep.pack (Deep.ofWord color)), fun vram j => vram.both_put _ j _ _⟩

theorem shade (pen : Pen) {paint : Paint} (hplain : paint.texture = none) (fragment : Fragment) :
    IsAt (fun vram => pen.shade paint vram fragment) fragment.place.cell :=
  ⟨pen.laid paint.translucent fragment.base, fun vram j => pen.both_shade hplain vram fragment j⟩

end Stroke.IsAt

/-! ### Jobs -/

namespace Gpu

variable {gpu : Gpu} {job first second : Job}

/-- **The strokes of a job without a texture keep to its footprint**, one cell each. -/
theorem strokes_at_footprint (gpu : Gpu) (hplain : job.isPlain = true) :
    List.Forall₂ Stroke.IsAt (gpu.strokes job) (job.footprint gpu.environment) := by
  cases job with
  | fill fill =>
    exact Grid.forall₂_strokes (fun dx dy => Stroke.IsAt.set _ _ fill.color.deep) fill.width
      fill.height
  | polygon polygon =>
    refine Polygon.forall₂_strokes (Stroke.IsAt.shade _ ?_)
    rw [polygonPaint, Option.isNone_iff_eq_none.1 hplain, Option.map_none, ite_self]
  | line line => exact Scan.forall₂_strokes (Stroke.IsAt.shade _ rfl) _
  | rectangle rectangle =>
    refine Scan.forall₂_strokes (Stroke.IsAt.shade _ ?_) _
    rw [rectanglePaint, Option.isNone_iff_eq_none.1 hplain, Option.map_none, ite_self]
  | _ => exact Bool.noConfusion hplain

/-- A job without a texture changes the picture only. -/
theorem run_eq_drawn (gpu : Gpu) (hplain : job.isPlain = true) :
    gpu.run job = { gpu with vram := gpu.vram.drawn (gpu.strokes job) } := by
  rw [← vram_run]
  cases job with
  | polygon polygon =>
    have hstatus : polygonStatus gpu.status gpu.environment.textureDisableAllowed polygon =
        gpu.status := by
      rw [polygonStatus, Option.isNone_iff_eq_none.1 hplain]
    rw [run, runPolygon, hstatus]
  | fill fill => rfl
  | line line => rfl
  | rectangle rectangle => rfl
  | _ => exact Bool.noConfusion hplain

/-- The strokes of a job do not depend on the picture. -/
theorem strokes_congr (gpu : Gpu) (vram : Vram) (job : Job) :
    Gpu.strokes { gpu with vram := vram } job = gpu.strokes job := by
  cases job <;> rfl

/-- Two jobs without a texture draw the strokes of the one and then those of the other. -/
theorem execute_execute_eq_drawn (gpu : Gpu) (hfirst : first.isPlain = true)
    (hsecond : second.isPlain = true) :
    (gpu.execute first).1.execute second =
      ({ gpu with
          vram := (gpu.vram.drawn (gpu.strokes first)).drawn (gpu.strokes second) }, none) := by
  have hexecute : ∀ (gpu : Gpu) {job : Job}, job.isPlain = true →
      gpu.execute job = (gpu.run job, none) := by
    intro gpu job hplain
    have hnow : job.isDeferred = false := by
      cases job <;> first | rfl | exact Bool.noConfusion hplain
    rw [execute, hnow]
    rfl
  rw [hexecute gpu hfirst, hexecute _ hsecond, run_eq_drawn gpu hfirst, run_eq_drawn _ hsecond]
  simp only [strokes_congr]

/-- **Drawing in different places commutes.**  Fills, lines, polygons and rectangles without a
texture, translucent or not, whose fragments lie in different cells under the drawing area and offset
in force, lead to the same hardware in either order. -/
theorem execute_comm_of_disjoint (hfirst : first.isPlain = true) (hsecond : second.isPlain = true)
    (hdisjoint : ∀ i ∈ first.footprint gpu.environment, i ∉ second.footprint gpu.environment) :
    (gpu.execute first).1.execute second = (gpu.execute second).1.execute first := by
  have hcomm := Stroke.IsAt.drawn_comm_of_disjoint (gpu.strokes_at_footprint hfirst)
    (gpu.strokes_at_footprint hsecond) hdisjoint gpu.vram
  rw [execute_execute_eq_drawn gpu hfirst hsecond, execute_execute_eq_drawn gpu hsecond hfirst,
    hcomm]

/-- A translucent triangle that the upper edge of the drawing area cuts off, and a translucent line
along its longest side. -/
theorem execute_comm_of_disjoint_translucent :
    let corner := fun x y : Int => (⟨⟨x, y⟩, ⟨255, 128, 0⟩, ⟨0, 0⟩⟩ : Corner)
    let first := Job.polygon ⟨corner 0 (-1), corner 3 (-1), corner 0 3, none, true, none, true⟩
    let second := Job.line ⟨⟨3, 0⟩, ⟨1, 2⟩, ⟨0, 0, 255⟩, ⟨0, 0, 255⟩, true⟩
    first.isPlain = true ∧ second.isPlain = true ∧
      (∀ i ∈ first.footprint powerOn.environment, i ∉ second.footprint powerOn.environment) ∧
      (powerOn.execute first).1.execute second = (powerOn.execute second).1.execute first := by
  intro corner first second
  have hall : (first.footprint powerOn.environment).all (fun i =>
      !(second.footprint powerOn.environment).contains i) = true := by
    decide +kernel
  have hdisjoint : ∀ i ∈ first.footprint powerOn.environment,
      i ∉ second.footprint powerOn.environment := by
    intro i hi hmem
    have hapart := List.all_eq_true.1 hall i hi
    rw [List.contains_iff_mem.2 hmem] at hapart
    exact Bool.noConfusion hapart
  exact ⟨rfl, rfl, hdisjoint, execute_comm_of_disjoint rfl rfl hdisjoint⟩

end Gpu

end ConsoleVideo
