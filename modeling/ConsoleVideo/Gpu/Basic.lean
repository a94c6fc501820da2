import ConsoleVideo.Command.Decoder
import ConsoleVideo.Drawing.Block
import ConsoleVideo.Drawing.Segment
import ConsoleVideo.Drawing.Sprite
import ConsoleVideo.Drawing.Triangle
import ConsoleVideo.Surface
import ConsoleVideo.Timing

/-!
# The video hardware and its jobs

* `Gpu` — everything the hardware holds; `Gpu.powerOn` is how it starts;
* `Gpu.run` — carries out one drawing command, with `Gpu.runPolygon`, `Gpu.runLine` and
  `Gpu.runRectangle` for the shapes;
* `Gpu.execute` — carries out a job, or hands it back if it needs the surface;
* `Gpu.present` — carries out any job with the surface at hand;
* `Gpu.drain` and `Gpu.drainTo` — carry out the waiting jobs without and with the surface.
-/

namespace ConsoleVideo

/-- Everything the hardware holds. -/
structure Gpu where
  vram : Vram
  status : Status
  environment : Environment
  display : DisplayGeometry
  decoder : Decoder
  queue : JobQueue
  /-- Words that wait to be read back, oldest first. -/
  readback : List Word
  /-- What the readback register shows when nothing waits. -/
  latch : Word
  timing : DisplayTiming
  deriving DecidableEq

namespace Gpu

/-- The hardware after a reset, with a blank picture memory. -/
def powerOn : Gpu where
  vram := Vram.blank
  status := Status.reset
  environment := Environment.reset
  display := DisplayGeometry.reset
  decoder := .idle
  queue := .empty
  readback := []
  latch := 0
  timing := DisplayTiming.start

/-- The hardware with its DMA request brought up to date. -/
def refreshDmaRequest (gpu : Gpu) : Gpu :=
  { gpu with status := gpu.status.refreshDmaRequest }

/-! ### Shapes -/

/-- The status under which a polygon is drawn: a textured one selects its page. -/
def polygonStatus (status : Status) (disableAllowed : Bool) (polygon : Polygon) : Status :=
  match polygon.texture with
  | none => status
  | some texture => status.applyPage texture.pageWord disableAllowed

/-- The paint of a polygon, which has no texture where textures are switched off. -/
def polygonPaint (status : Status) (polygon : Polygon) : Paint where
  texture :=
    if status.textureDisable then none
    else polygon.texture.map fun t => { page := t.page, clut := t.clut, raw := t.raw }
  translucent := polygon.translucent

/-- The picture with a polygon drawn into it: the triangle of its first three corners, and that of
its last three if it has four. -/
def drawPolygon (status : Status) (environment : Environment) (polygon : Polygon) (vram : Vram) :
    Vram :=
  let pen := Pen.ofSettings status environment
  let paint := polygonPaint status polygon
  let area := environment.area
  let point := fun corner => Point.ofCorner corner environment.offset
  let half := Triangle.draw area (point polygon.first) (point polygon.second)
    (point polygon.third) polygon.shaded pen paint vram
  match polygon.fourth with
  | none => half
  | some fourth =>
    Triangle.draw area (point polygon.second) (point polygon.third) (point fourth) polygon.shaded
      pen paint half

/-- Draws a polygon; the page of a textured one stays selected. -/
def runPolygon (gpu : Gpu) (polygon : Polygon) : Gpu :=
  let status := polygonStatus gpu.status gpu.environment.textureDisableAllowed polygon
  { gpu with
    status := status
    vram := drawPolygon status gpu.environment polygon gpu.vram }

/-- Draws a line. -/
def runLine (gpu : Gpu) (line : Line) : Gpu :=
  let pen := Pen.ofSettings gpu.status gpu.environment
  let scan := (Segment.ofLine line gpu.environment.offset).scan gpu.environment.area
  { gpu with vram := scan.paint pen { texture := none, translucent := line.translucent } gpu.vram }

/-- The paint of a rectangle, whose texture lies in the page that the status selects. -/
def rectanglePaint (status : Status) (rectangle : Rectangle) : Paint where
  texture :=
    if status.textureDisable then none
    else rectangle.texture.map fun t =>
      { page := status.texturePage, clut := t.clut, raw := t.raw }
  translucent := rectangle.translucent

/-- Draws a rectangle. -/
def runRectangle (gpu : Gpu) (rectangle : Rectangle) : Gpu :=
  let pen := Pen.ofSettings gpu.status gpu.environment
  let paint := rectanglePaint gpu.status rectangle
  let scan := (Sprite.ofRectangle rectangle gpu.environment).scan gpu.environment.area
  { gpu with vram := scan.paint pen paint gpu.vram }

/-! ### Jobs -/

/-- Carries out a drawing command.  A request to resize the surface changes nothing here. -/
def run (gpu : Gpu) (job : Job) : Gpu :=
  match job with
  | .nop | .clearCache | .resizeSurface => gpu
  | .fill fill => { gpu with vram := fill.draw gpu.vram }
  | .polygon polygon => gpu.runPolygon polygon
  | .line line => gpu.runLine line
  | .rectangle rectangle => gpu.runRectangle rectangle
  | .copy copy =>
    { gpu with vram := copy.draw gpu.status.setMask gpu.status.checkMask gpu.vram }
  | .upload image =>
    { gpu with vram := image.draw gpu.status.setMask gpu.status.checkMask gpu.vram }
  | .download rect =>
    { gpu with
      readback := gpu.readback ++ rect.read gpu.vram
      status := { gpu.status with readySend := true } }
  | .drawMode value =>
    { gpu with
      status := gpu.status.applyDrawMode value gpu.environment.textureDisableAllowed
      environment := { gpu.environment with flipX := value.bit 12, flipY := value.bit 13 } }
  | .textureWindow window =>
    { gpu with environment := { gpu.environment with window := window } }
  | .areaTopLeft x y =>
    { gpu with
      environment := { gpu.environment with
        area := { gpu.environment.area with left := x, top := y } } }
  | .areaBottomRight x y =>
    { gpu with
      environment := { gpu.environment with
        area := { gpu.environment.area with right := x, bottom := y } } }
  | .drawOffset offset =>
    { gpu with environment := { gpu.environment with offset := offset } }
  | .maskBits set check =>
    { gpu with status := { gpu.status with setMask := set, checkMask := check } }
  | .interruptRequest =>
    { gpu with status := { gpu.status with interrupt := true } }

/-- Carries out a job without the surface, or hands it back if it needs the surface. -/
def execute (gpu : Gpu) (job : Job) : Gpu × Option Job :=
  if job.isDeferred then (gpu, some job) else (gpu.run job, none)

/-- Carries out a job with the surface at hand. -/
def present (gpu : Gpu) (surface : Surface) (job : Job) : Gpu × Surface :=
  match job with
  | .resizeSurface => (gpu, surface.follow gpu.status)
  | job => (gpu.run job, surface)

/-- Carries out a job that was taken from the queue, or puts it back. -/
def drainJob (gpu : Gpu) (job : Job) : Gpu :=
  if job.isDeferred then { gpu with queue := gpu.queue.push job } else gpu.run job

/-- Carries out the waiting jobs in their order; those that need the surface stay. -/
def drain (gpu : Gpu) : Gpu :=
  gpu.queue.jobs.foldl drainJob { gpu with queue := .empty }

/-- Carries out the waiting jobs in their order, with the surface at hand. -/
def drainTo (gpu : Gpu) (surface : Surface) : Gpu × Surface :=
  gpu.queue.jobs.foldl (fun s job => s.1.present s.2 job) ({ gpu with queue := .empty }, surface)

/-- The surface composed anew from what the hardware holds. -/
def showOn (gpu : Gpu) (surface : Surface) : Surface :=
  surface.refresh gpu.vram gpu.status gpu.display

end Gpu

end ConsoleVideo
