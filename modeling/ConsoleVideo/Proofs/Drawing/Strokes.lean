import ConsoleVideo.Gpu.Basic

/-!
# Drawing stroke by stroke

A job draws many pixels, and some of them more than once: the halves of a polygon may overlap, and a
copy comes upon what it has just copied.  Between the pictures before and after a job there is hence a
row of others, one for each pixel that is come upon.

* `Stroke`, `Gpu.strokes` — the steps of a job, each at one pixel;
* `Gpu.vram_run` — carrying out a job is carrying out its strokes in their order.
-/

namespace ConsoleVideo

/-- What happens to the picture when drawing comes upon one pixel. -/
abbrev Stroke := Vram → Vram

/-- The picture after some strokes. -/
def Vram.drawn (vram : Vram) (strokes : List Stroke) : Vram :=
  strokes.foldl (fun vram stroke => stroke vram) vram

theorem Vram.drawn_append (vram : Vram) (strokes later : List Stroke) :
    vram.drawn (strokes ++ later) = (vram.drawn strokes).drawn later :=
  List.foldl_append

/-! ### Shapes -/

def Scan.strokes (scan : Scan) (pen : Pen) (paint : Paint) : List Stroke :=
  scan.fragments.map fun fragment vram => pen.shade paint vram fragment

theorem Scan.paint_eq_drawn (scan : Scan) (pen : Pen) (paint : Paint) (vram : Vram) :
    scan.paint pen paint vram = vram.drawn (scan.strokes pen paint) := by
  rw [paint_eq_foldl, Vram.drawn, strokes, List.foldl_map]

def Triangle.strokes (area : DrawingArea) (a b c : Point) (shaded : Bool) (pen : Pen)
    (paint : Paint) : List Stroke :=
  match ofPoints? area a b c with
  | none => []
  | some t => (t.scan area shaded paint.texture.isSome).strokes pen paint

theorem Triangle.draw_eq_drawn (area : DrawingArea) (a b c : Point) (shaded : Bool) (pen : Pen)
    (paint : Paint) (vram : Vram) :
    draw area a b c shaded pen paint vram =
      vram.drawn (strokes area a b c shaded pen paint) := by
  rw [draw, strokes]
  cases ofPoints? area a b c with
  | none => rfl
  | some t => exact Scan.paint_eq_drawn _ pen paint vram

/-- The strokes of the triangles that a polygon is drawn as. -/
def Polygon.strokes (polygon : Polygon) (status : Status) (environment : Environment) :
    List Stroke :=
  let pen := Pen.ofSettings status environment
  let paint := Gpu.polygonPaint status polygon
  let point := fun corner => Point.ofCorner corner environment.offset
  let half := Triangle.strokes environment.area (point polygon.first) (point polygon.second)
    (point polygon.third) polygon.shaded pen paint
  match polygon.fourth with
  | none => half
  | some fourth =>
    half ++ Triangle.strokes environment.area (point polygon.second) (point polygon.third)
      (point fourth) polygon.shaded pen paint

theorem Polygon.draw_eq_drawn (polygon : Polygon) (status : Status) (environment : Environment)
    (vram : Vram) :
    Gpu.drawPolygon status environment polygon vram =
      vram.drawn (polygon.strokes status environment) := by
  rw [Gpu.drawPolygon, strokes]
  cases polygon.fourth with
  | none => exact Triangle.draw_eq_drawn _ _ _ _ _ _ _ vram
  | some fourth =>
    simp only
    rw [Vram.drawn_append, Triangle.draw_eq_drawn, Triangle.draw_eq_drawn]

/-! ### Blocks -/

/-- The steps of a walk over a block. -/
def Grid.strokes (width height : Nat) (act : Vram → Nat → Nat → Vram) : List Stroke :=
  (offsets width height).map fun offset vram => act vram offset.1 offset.2

theorem Grid.walk_eq_drawn (width height : Nat) (act : Vram → Nat → Nat → Vram) (vram : Vram) :
    walk width height act vram = vram.drawn (strokes width height act) := by
  rw [walk_eq_foldl, Vram.drawn, strokes, List.foldl_map]

/-! ### Jobs -/

namespace Gpu

/-- The strokes of a job, in the order in which it comes upon the pixels. -/
def strokes (gpu : Gpu) : Job → List Stroke
  | .fill fill =>
    Grid.strokes fill.width fill.height fun vram dx dy =>
      vram.set (fill.x + dx : Nat) (fill.y + dy : Nat) fill.color.deep
  | .polygon polygon =>
    polygon.strokes (polygonStatus gpu.status gpu.environment.textureDisableAllowed polygon)
      gpu.environment
  | .line line =>
    ((Segment.ofLine line gpu.environment.offset).scan gpu.environment.area).strokes
      (Pen.ofSettings gpu.status gpu.environment)
      { texture := none, translucent := line.translucent }
  | .rectangle rectangle =>
    ((Sprite.ofRectangle rectangle gpu.environment).scan gpu.environment.area).strokes
      (Pen.ofSettings gpu.status gpu.environment) (rectanglePaint gpu.status rectangle)
  | .copy copy =>
    Grid.strokes copy.width copy.height (copy.step gpu.status.setMask gpu.status.checkMask)
  | .upload image =>
    Grid.strokes image.rect.width image.rect.height
      (image.step gpu.status.setMask gpu.status.checkMask)
  | _ => []

/-- **Carrying out a job is carrying out its strokes.** -/
theorem vram_run (gpu : Gpu) (job : Job) :
    (gpu.run job).vram = gpu.vram.drawn (gpu.strokes job) := by
  cases job with
  | fill fill => exact Grid.walk_eq_drawn _ _ _ gpu.vram
  | polygon polygon => exact polygon.draw_eq_drawn _ gpu.environment gpu.vram
  | line line => exact Scan.paint_eq_drawn _ _ _ gpu.vram
  | rectangle rectangle => exact Scan.paint_eq_drawn _ _ _ gpu.vram
  | copy copy => exact Grid.walk_eq_drawn _ _ _ gpu.vram
  | upload image => exact Grid.walk_eq_drawn _ _ _ gpu.vram
  | _ => rfl

end Gpu

end ConsoleVideo
