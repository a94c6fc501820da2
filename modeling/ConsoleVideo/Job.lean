import ConsoleVideo.Environment
import ConsoleVideo.Primitive

/-!
# Jobs

A complete drawing command becomes one job; jobs are carried out in the order they were queued.

* `Job` — what is to be done; one kind, `Job.resizeSurface`, needs the surface that shows the
  picture and waits for whoever owns it (`Job.isDeferred`);
* `JobQueue` — the jobs that wait, oldest first; `JobQueue.toList` is what the laws are about.
-/

namespace ConsoleVideo

/-- One complete drawing command. -/
inductive Job where
  | nop
  | clearCache
  | fill (fill : Fill)
  | polygon (polygon : Polygon)
  | line (line : Line)
  | rectangle (rectangle : Rectangle)
  /-- Within the picture memory. -/
  | copy (copy : VramCopy)
  /-- From the processor into the picture memory. -/
  | upload (image : ImageLoad)
  /-- From the picture memory into the readback queue. -/
  | download (rect : VramRect)
  | drawMode (value : Word)
  | textureWindow (window : TextureWindow)
  | areaTopLeft (x y : Int)
  | areaBottomRight (x y : Int)
  | drawOffset (offset : DrawOffset)
  | maskBits (set check : Bool)
  | interruptRequest
  /-- Brings the surface to the size of the display. -/
  | resizeSurface
  deriving DecidableEq

namespace Job

/-- Whether the job needs the surface. -/
def isDeferred : Job → Bool
  | resizeSurface => true
  | _ => false

/-- What the job is called. -/
def title : Job → String
  | nop => "nop"
  | clearCache => "clear cache"
  | fill _ => "fill rectangle"
  | polygon p => if p.fourth.isSome then "quad" else "triangle"
  | line _ => "line"
  | rectangle _ => "rectangle"
  | copy _ => "VRAM→VRAM copy"
  | upload _ => "CPU→VRAM copy"
  | download _ => "VRAM→CPU copy"
  | drawMode _ => "draw mode"
  | textureWindow _ => "texture window"
  | areaTopLeft .. => "draw area top-left"
  | areaBottomRight .. => "draw area bottom-right"
  | drawOffset _ => "draw offset"
  | maskBits .. => "mask bit setting"
  | interruptRequest => "interrupt request"
  | resizeSurface => "render job"

end Job

/-! ### The queue -/

/-- The jobs that wait, oldest first. -/
structure JobQueue where
  jobs : Array Job
  deriving DecidableEq

namespace JobQueue

def empty : JobQueue := ⟨#[]⟩

/-- The waiting jobs, oldest first. -/
def toList (queue : JobQueue) : List Job :=
  queue.jobs.toList

def size (queue : JobQueue) : Nat :=
  queue.jobs.size

/-- Adds a job at the end. -/
def push (queue : JobQueue) (job : Job) : JobQueue :=
  ⟨queue.jobs.push job⟩

/-- Whether every waiting job needs the surface. -/
def allDeferred (queue : JobQueue) : Bool :=
  queue.jobs.all Job.isDeferred

/-- Adds a request to resize the surface, unless one is waiting: it will see the latest mode. -/
def pushResize (queue : JobQueue) : JobQueue :=
  if queue.jobs.any Job.isDeferred then queue else queue.push .resizeSurface

/-- The oldest job and the rest. -/
def pop? (queue : JobQueue) : Option (Job × JobQueue) :=
  queue.jobs[0]?.map fun job => (job, ⟨queue.jobs.extract 1⟩)

@[simp] theorem toList_empty : empty.toList = [] := rfl

@[simp] theorem toList_push (queue : JobQueue) (job : Job) :
    (queue.push job).toList = queue.toList ++ [job] := by
  simp [toList, push]

theorem size_eq_length (queue : JobQueue) : queue.size = queue.toList.length := by
  simp [size, toList]

theorem allDeferred_eq (queue : JobQueue) :
    queue.allDeferred = queue.toList.all Job.isDeferred := by
  simp [allDeferred, toList]

theorem toList_pushResize (queue : JobQueue) :
    queue.pushResize.toList =
      if queue.toList.any Job.isDeferred then queue.toList
      else queue.toList ++ [.resizeSurface] := by
  unfold pushResize
  rw [show queue.jobs.any Job.isDeferred = queue.toList.any Job.isDeferred by simp [toList]]
  split <;> simp

theorem toList_of_pop?_eq_some {queue rest : JobQueue} {job : Job}
    (h : queue.pop? = some (job, rest)) : queue.toList = job :: rest.toList := by
  obtain ⟨⟨jobs⟩⟩ := queue
  cases jobs with
  | nil => simp [pop?] at h
  | cons j js =>
    simp only [pop?, List.getElem?_toArray, List.getElem?_cons_zero, Option.map_some,
      Option.some.injEq, Prod.mk.injEq] at h
    obtain ⟨rfl, rfl⟩ := h
    simp [toList]

end JobQueue

end ConsoleVideo
