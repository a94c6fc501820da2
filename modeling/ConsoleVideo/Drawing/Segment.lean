import ConsoleVideo.Drawing.Shading
import ConsoleVideo.Primitive

/-!
# Lines

A line steps from end to end, one cell at a time along its longer axis, and runs from one colour to
the other.

* `Segment` — a line with the drawing offset applied; `Segment.fits` is the size limit;
* `Segment.points` — the points it visits, from the running error of the shorter axis;
  `length_points` counts them;
* `Segment.colorAt` — the colour at a step;
* `Segment.scan` — the fragments inside the drawing area.
-/

namespace ConsoleVideo

/-- A line between two points of the plane. -/
structure Segment where
  start : Vertex
  /-- From start to stop. -/
  dx : Int
  dy : Int
  startColor : Color
  stopColor : Color
  deriving DecidableEq

namespace Segment

/-- A line moved by the drawing offset. -/
def ofLine (line : Line) (offset : DrawOffset) : Segment :=
  let start := line.start.offset offset.x offset.y
  let stop := line.stop.offset offset.x offset.y
  { start := start
    dx := wrap32 (stop.x - start.x)
    dy := wrap32 (stop.y - start.y)
    startColor := line.startColor
    stopColor := line.stopColor }

/-- Longer lines are not drawn at all. -/
def fits (segment : Segment) : Bool :=
  segment.dx.natAbs ≤ 1023 && segment.dy.natAbs ≤ 511

/-- The number of steps, one less than the points. -/
def steps (segment : Segment) : Nat :=
  max segment.dx.natAbs segment.dy.natAbs

/-- The direction of a step. -/
def direction (d : Int) : Int :=
  if 0 ≤ d then 1 else -1

/-- `n + 1` points from `point` on, where `error` is the lead of one axis over the other. -/
def walk (segment : Segment) : Nat → Int → Vertex → List Vertex
  | 0, _, point => [point]
  | n + 1, error, point =>
    let long := (segment.dx.natAbs : Int)
    let short := -(segment.dy.natAbs : Int)
    let stepX := decide (short ≤ 2 * error)
    let stepY := decide (2 * error ≤ long)
    let next : Vertex :=
      { x := if stepX then wrap32 (point.x + direction segment.dx) else point.x
        y := if stepY then wrap32 (point.y + direction segment.dy) else point.y }
    point :: segment.walk n
      (error + (if stepX then short else 0) + (if stepY then long else 0)) next

/-- The points of the line, from its start to its end. -/
def points (segment : Segment) : List Vertex :=
  segment.walk segment.steps (segment.dx.natAbs - segment.dy.natAbs) segment.start

theorem length_walk (segment : Segment) (n : Nat) (error : Int) (point : Vertex) :
    (segment.walk n error point).length = n + 1 := by
  induction n generalizing error point with
  | zero => rfl
  | succ n ih => simp [walk, ih]

theorem length_points (segment : Segment) : segment.points.length = segment.steps + 1 :=
  length_walk ..

/-- A channel at step `i`: on the way from `start` to `stop`, truncated towards `start`. -/
def channelAt (segment : Segment) (start stop : UInt8) (i : Nat) : Nat :=
  if segment.steps = 0 then start.toNat
  else ((start.toNat : Int) +
    Int.tdiv (((stop.toNat : Int) - start.toNat) * i) segment.steps).toNat

/-- The colour at step `i`. -/
def colorAt (segment : Segment) (i : Nat) : Deep :=
  Deep.ofChannels (segment.channelAt segment.startColor.red segment.stopColor.red i)
    (segment.channelAt segment.startColor.green segment.stopColor.green i)
    (segment.channelAt segment.startColor.blue segment.stopColor.blue i)

/-- The points inside the drawing area, with their colours. -/
def fragments (segment : Segment) (area : DrawingArea) : List Fragment :=
  segment.points.zipIdx.filterMap fun (point, i) =>
    if area.contains point.x point.y then
      some { x := point.x, y := point.y, base := segment.colorAt i, u := 0, v := 0 }
    else none

/-- The line as one row of fragments. -/
def scan (segment : Segment) (area : DrawingArea) : Scan where
  rows := if segment.fits then [segment.start.y] else []
  row := fun _ => segment.fragments area

end Segment

end ConsoleVideo
