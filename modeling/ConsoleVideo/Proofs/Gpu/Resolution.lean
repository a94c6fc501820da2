import ConsoleVideo.Proofs.Gpu.Ports

/-!
# The size of the surface

The surface is to have the size of the display, and whoever selects a display mode asks for it to be
resized.  The request waits in the queue with the drawing commands, so that dropping these drops it
too, and then the surface keeps its old size until a mode is selected anew.

* `Screen`, `ScreenOp`, `Screen.run` — the hardware, the surface, and what happens to them;
* `ModeLog` — what the operations by themselves say about the size;
* `Gpu.foldl_present_snd` — requests to resize collapse into one, wherever they stand among the other
  jobs;
* `Screen.Follows`, `Screen.follows_run` — the invariant: hardware, surface and queue are as the log
  says;
* `Screen.size_eq_resolution_iff` — when exactly the surface follows;
* `Screen.size_eq_resolution_of_kept` — it follows as long as no request is dropped.
-/

namespace ConsoleVideo

/-- The hardware and the surface that shows its picture. -/
structure Screen where
  gpu : Gpu
  surface : Surface

/-- What happens to the hardware and the surface. -/
inductive ScreenOp where
  | port (op : PortOp)
  /-- The waiting jobs are carried out with the surface at hand. -/
  | present

namespace Screen

/-- The start, with a surface for the display. -/
def powerOn : Screen where
  gpu := Gpu.powerOn
  surface := Surface.ofView .display

def act (screen : Screen) : ScreenOp → Screen
  | .port op => { screen with gpu := screen.gpu.act op }
  | .present =>
    { gpu := (screen.gpu.drainTo screen.surface).1
      surface := (screen.gpu.drainTo screen.surface).2 }

/-- What operations lead to from the start. -/
def run (ops : List ScreenOp) : Screen :=
  ops.foldl act powerOn

def size (screen : Screen) : Nat × Nat :=
  (screen.surface.width, screen.surface.height)

def resolution (screen : Screen) : Nat × Nat :=
  screen.gpu.status.displayResolution

end Screen

/-! ### The log -/

/-- What the operations say about the size, with no hardware in sight. -/
structure ModeLog where
  /-- The columns and rows of the mode selected last. -/
  mode : Nat × Nat
  /-- The columns and rows that the surface was last brought to. -/
  shown : Nat × Nat
  /-- Whether a request to resize the surface is waiting. -/
  asked : Bool

namespace ModeLog

/-- The columns and rows that a display mode word selects. -/
def resolutionOf (w : Word) : Nat × Nat :=
  let columns := if w.bit 6 then 368 else [256, 320, 512, 640].getD (w.field 0 2) 0
  let rows := if w.bit 3 then 256 else 240
  (columns, if w.bit 2 && w.bit 5 then 2 * rows else rows)

def powerOn : ModeLog where
  mode := (256, 240)
  shown := (256, 240)
  asked := false

/-- Only three control commands and the surface itself have to do with the size. -/
def note (log : ModeLog) : ScreenOp → ModeLog
  | .port (.control w) =>
    match Control.ofWord? w with
    | some .reset => { log with mode := (256, 240), asked := true }
    | some (.displayMode w) => { log with mode := resolutionOf w, asked := true }
    | some .resetCommands => { log with asked := false }
    | _ => log
  | .port _ => log
  | .present => { log with shown := if log.asked then log.mode else log.shown, asked := false }

/-- The log of operations from the start. -/
def ofOps (ops : List ScreenOp) : ModeLog :=
  ops.foldl note powerOn

/-- The surface has the size of the mode, or will have it when it is next at hand. -/
def Current (log : ModeLog) : Prop :=
  log.asked = true ∨ log.shown = log.mode

/-- No request to resize the surface is dropped on the way. -/
def Kept (log : ModeLog) : List ScreenOp → Prop
  | [] => True
  | op :: ops =>
    (∀ w, op = .port (.control w) → Control.ofWord? w = some .resetCommands → log.asked = false) ∧
      (log.note op).Kept ops

variable {log : ModeLog}

theorem shown_note_present_iff (log : ModeLog) :
    (log.note .present).shown = (log.note .present).mode ↔ log.Current := by
  show (if log.asked then log.mode else log.shown) = log.mode ↔
    (log.asked = true ∨ log.shown = log.mode)
  cases log.asked with
  | false => simp
  | true => simp

/-- Whoever changes the mode asks for a resize, and a request ends with the surface resized. -/
theorem Current.note (h : log.Current) {op : ScreenOp}
    (hkept : ∀ w, op = .port (.control w) → Control.ofWord? w = some .resetCommands →
      log.asked = false) : (log.note op).Current := by
  cases op with
  | present => exact .inr ((shown_note_present_iff log).2 h)
  | port op =>
    cases op with
    | control w =>
      rw [ModeLog.note]
      cases hcommand : Control.ofWord? w with
      | none => exact h
      | some command =>
        cases command with
        | reset => exact .inl rfl
        | displayMode mode => exact .inl rfl
        | resetCommands =>
          -- Nothing was asked for, so what is dropped does not matter.
          refine .inr (h.resolve_left ?_)
          rw [hkept w rfl hcommand]
          exact Bool.false_ne_true
        | _ => exact h
    | _ => exact h

theorem Current.foldl (h : log.Current) {ops : List ScreenOp} (hkept : log.Kept ops) :
    (ops.foldl ModeLog.note log).Current := by
  induction ops generalizing log with
  | nil => exact h
  | cons op ops ih => exact ih (h.note hkept.1) hkept.2

end ModeLog

/-! ### The resolution -/

theorem Status.displayWidth_eq (s : Status) :
    s.displayWidth =
      if s.columns368 then 368 else [256, 320, 512, 640].getD s.columns.val 0 := by
  unfold displayWidth
  split
  · rfl
  · generalize s.columns = columns
    revert columns
    decide

theorem Status.displayResolution_reset : reset.displayResolution = (256, 240) := by decide

namespace Gpu

variable {gpu : Gpu}

/-- No drawing command changes the display mode. -/
theorem displayResolution_runAll (gpu : Gpu) (jobs : List Job) :
    (gpu.runAll jobs).status.displayResolution = gpu.status.displayResolution :=
  gpu.status_runAll Status.displayResolution (fun _ => rfl) jobs

theorem displayResolution_refreshDmaRequest (gpu : Gpu) :
    gpu.refreshDmaRequest.status.displayResolution = gpu.status.displayResolution := rfl

theorem displayResolution_reset (gpu : Gpu) :
    gpu.reset.status.displayResolution = (256, 240) := by
  rw [show gpu.reset.status = Status.reset from rfl, Status.displayResolution_reset]

theorem displayResolution_setDisplayMode (gpu : Gpu) (w : Word) :
    (gpu.setDisplayMode w).status.displayResolution = ModeLog.resolutionOf w := by
  rw [Status.displayResolution, Status.displayWidth_eq]
  rfl

/-- The hardware with a display mode and with what waits for the surface. -/
structure Holds (mode : Nat × Nat) (queue : JobQueue) (gpu : Gpu) : Prop where
  mode : gpu.status.displayResolution = mode
  queue : gpu.queue = queue

/-- **Only the control register changes the display mode or what waits for the surface.** -/
theorem transferStable_holds {mode : Nat × Nat} {queue : JobQueue} (hsettled : queue.IsSettled) :
    TransferStable (Holds mode queue) where
  writeBlock := by
    intro gpu ws h
    rw [← h.queue] at hsettled
    rw [writeBlock_of_isSettled hsettled]
    exact ⟨(displayResolution_runAll gpu _).trans h.mode, h.queue⟩
  read := by
    intro gpu h
    rw [read]
    cases gpu.readback with
    | nil => exact ⟨h.mode, h.queue⟩
    | cons w ws => exact ⟨h.mode, h.queue⟩

end Gpu

/-! ### Requests to resize -/

namespace Surface

variable (surface : Surface)

theorem view_follow (status : Status) : (surface.follow status).view = surface.view := by
  show (surface.resize _ _).view = surface.view
  rw [resize]
  split <;> rfl

/-- Of the status only the resolution matters. -/
theorem follow_congr {status other : Status}
    (h : status.displayResolution = other.displayResolution) :
    surface.follow status = surface.follow other := by
  have hwanted : wantedSize surface.view status = wantedSize surface.view other := by
    cases surface.view with
    | display => exact h
    | vram => rfl
  rw [follow, follow, hwanted]

/-- A surface that follows already stays as it is. -/
theorem follow_follow (status : Status) :
    (surface.follow status).follow status = surface.follow status := by
  have hsize := surface.size_resize (wantedSize surface.view status).1
    (wantedSize surface.view status).2
  rw [follow, view_follow]
  exact if_pos hsize

end Surface

namespace Gpu

/-- **However many requests to resize there are, and wherever they stand among the other jobs, the
surface comes to follow the status that there was at the start.** -/
theorem foldl_present_snd (gpu : Gpu) (surface : Surface) (jobs : List Job) :
    (jobs.foldl (fun s job => s.1.present s.2 job) (gpu, surface)).2 =
      if jobs.any Job.isDeferred then surface.follow gpu.status else surface := by
  induction jobs generalizing gpu surface with
  | nil => rfl
  | cons job jobs ih =>
    show (jobs.foldl (fun s job => s.1.present s.2 job)
      ((gpu.present surface job).1, (gpu.present surface job).2)).2 = _
    rw [ih, List.any_cons]
    cases hjob : job.isDeferred with
    | true =>
      obtain rfl : job = .resizeSurface := by cases job <;> first | rfl | exact Bool.noConfusion hjob
      show (if jobs.any Job.isDeferred then (surface.follow gpu.status).follow gpu.status
        else surface.follow gpu.status) = surface.follow gpu.status
      rw [Surface.follow_follow, ite_self]
    | false =>
      have hpresent : gpu.present surface job = (gpu.run job, surface) := by
        cases job <;> first | rfl | exact Bool.noConfusion hjob
      have hmode : (gpu.run job).status.displayResolution = gpu.status.displayResolution :=
        displayResolution_runAll gpu [job]
      rw [hpresent, Surface.follow_congr surface hmode, Bool.false_or]

theorem drainTo_snd (gpu : Gpu) (surface : Surface) :
    (gpu.drainTo surface).2 =
      if gpu.queue.toList.any Job.isDeferred then surface.follow gpu.status else surface := by
  rw [drainTo_eq_foldl, foldl_present_snd]
  rfl

end Gpu

/-! ### The invariant -/

namespace Screen

variable {screen : Screen} {log : ModeLog}

/-- Hardware, surface and queue are as the log says. -/
structure Follows (screen : Screen) (log : ModeLog) : Prop where
  view : screen.surface.view = .display
  mode : screen.resolution = log.mode
  shown : screen.size = log.shown
  queue : screen.gpu.queue.toList = if log.asked then [.resizeSurface] else []

namespace Follows

theorem isSettled (h : screen.Follows log) : screen.gpu.queue.IsSettled := by
  rw [JobQueue.IsSettled, h.queue]
  cases log.asked with
  | false => exact .inl rfl
  | true => exact .inr rfl

/-- As long as the surface is not touched, only the mode and the waiting request matter. -/
theorem of_gpu (h : screen.Follows log) {gpu : Gpu} {mode : Nat × Nat} {asked : Bool}
    (hmode : gpu.status.displayResolution = mode)
    (hqueue : gpu.queue.toList = if asked then [.resizeSurface] else []) :
    Follows { screen with gpu := gpu } { log with mode := mode, asked := asked } :=
  ⟨h.view, hmode, h.shown, hqueue⟩

theorem control (h : screen.Follows log) (w : Word) :
    Follows { screen with gpu := (screen.gpu.writeControl w).1 }
      (log.note (.port (.control w))) := by
  rw [Gpu.writeControl, ModeLog.note]
  cases Control.ofWord? w with
  | none => exact h
  | some command =>
    show Follows { screen with gpu := (screen.gpu.control command).refreshDmaRequest } _
    have hmode := Gpu.displayResolution_refreshDmaRequest (screen.gpu.control command)
    cases command with
    | reset =>
      exact h.of_gpu (hmode.trans (Gpu.displayResolution_reset screen.gpu))
        (JobQueue.toList_pushResize_of_isSettled JobQueue.isSettled_empty)
    | resetCommands => exact h.of_gpu (hmode.trans h.mode) rfl
    | displayMode mode =>
      exact h.of_gpu (hmode.trans (Gpu.displayResolution_setDisplayMode screen.gpu mode))
        (JobQueue.toList_pushResize_of_isSettled h.isSettled)
    | _ => exact h.of_gpu (hmode.trans h.mode) h.queue

/-- What leaves the display mode and the queue alone leaves the log alone. -/
theorem of_holds (h : screen.Follows log) {gpu : Gpu}
    (hgpu : gpu.Holds screen.resolution screen.gpu.queue) :
    Follows { screen with gpu := gpu } log :=
  h.of_gpu (hgpu.mode.trans h.mode) ((congrArg JobQueue.toList hgpu.queue).trans h.queue)

theorem port (h : screen.Follows log) (op : PortOp) :
    Follows { screen with gpu := screen.gpu.act op } (log.note (.port op)) := by
  have hstable : TransferStable (Gpu.Holds screen.resolution screen.gpu.queue) :=
    Gpu.transferStable_holds h.isSettled
  have hself : screen.gpu.Holds screen.resolution screen.gpu.queue := ⟨rfl, rfl⟩
  cases op with
  | control w => exact h.control w
  | write w => exact h.of_holds (hstable.writeBlock [w] hself)
  | writeBlock ws => exact h.of_holds (hstable.writeBlock ws hself)
  | read => exact h.of_holds (hstable.read hself)
  | tick cycles irq => exact h.of_holds ⟨rfl, rfl⟩
  | drain =>
    show Follows { screen with gpu := screen.gpu.drain } log
    rw [Gpu.drain_of_isSettled h.isSettled]
    exact h
  | dma dma ram irq => exact h.of_holds (hstable.tickDma hself)

/-- With the surface at hand, a waiting request makes it follow, and none waits afterwards. -/
theorem present (h : screen.Follows log) : Follows (screen.act .present) (log.note .present) := by
  have hgpu : (screen.act .present).gpu = screen.gpu.withQueue .empty :=
    Gpu.drainTo_of_isSettled h.isSettled screen.surface
  have hmode : (screen.act .present).resolution = log.mode := by
    rw [resolution, hgpu]
    exact h.mode
  have hqueue : (screen.act .present).gpu.queue.toList = [] := by
    rw [hgpu]
    rfl
  have hsurface : (screen.act .present).surface =
      if log.asked then screen.surface.follow screen.gpu.status else screen.surface := by
    show (screen.gpu.drainTo screen.surface).2 = _
    rw [Gpu.drainTo_snd, h.queue]
    cases log.asked <;> rfl
  cases hasked : log.asked with
  | false =>
    rw [hasked, if_neg Bool.false_ne_true] at hsurface
    refine ⟨?_, hmode, ?_, hqueue⟩
    · rw [hsurface]
      exact h.view
    · rw [size, hsurface]
      show screen.size = if log.asked then log.mode else log.shown
      rw [hasked]
      exact h.shown
  | true =>
    rw [hasked, if_pos rfl] at hsurface
    refine ⟨?_, hmode, ?_, hqueue⟩
    · rw [hsurface, Surface.view_follow]
      exact h.view
    · have hwanted : Surface.wantedSize screen.surface.view screen.gpu.status = log.mode := by
        rw [h.view]
        exact h.mode
      have hresized := screen.surface.size_resize log.mode.1 log.mode.2
      rw [size, hsurface, Surface.follow, hwanted]
      show (_, _) = if log.asked then log.mode else log.shown
      rw [hasked, hresized.1, hresized.2]
      rfl

theorem act (h : screen.Follows log) (op : ScreenOp) : (screen.act op).Follows (log.note op) := by
  cases op with
  | port op => exact h.port op
  | present => exact h.present

end Follows

theorem follows_powerOn : powerOn.Follows ModeLog.powerOn where
  view := rfl
  mode := Status.displayResolution_reset
  shown := rfl
  queue := rfl

theorem follows_foldl (h : screen.Follows log) (ops : List ScreenOp) :
    (ops.foldl Screen.act screen).Follows (ops.foldl ModeLog.note log) := by
  induction ops generalizing screen log with
  | nil => exact h
  | cons op ops ih => exact ih (h.act op)

theorem follows_run (ops : List ScreenOp) : (run ops).Follows (ModeLog.ofOps ops) :=
  follows_foldl follows_powerOn ops

theorem follows_run_present (ops : List ScreenOp) :
    (run (ops ++ [.present])).Follows ((ModeLog.ofOps ops).note .present) := by
  have hrun : run (ops ++ [.present]) = (run ops).act .present := by
    rw [run, List.foldl_append]
    rfl
  rw [hrun]
  exact (follows_run ops).present

/-! ### When the surface follows -/

/-- **When exactly the surface has the size of the display after the waiting jobs were carried
out**: if a request to resize it was waiting, or if the mode selected last has the size that it was
last brought to. -/
theorem size_eq_resolution_iff (ops : List ScreenOp) :
    (run (ops ++ [.present])).size = (run (ops ++ [.present])).resolution ↔
      (ModeLog.ofOps ops).asked = true ∨ (ModeLog.ofOps ops).shown = (ModeLog.ofOps ops).mode := by
  have h := follows_run_present ops
  rw [h.shown, h.mode]
  exact ModeLog.shown_note_present_iff (ModeLog.ofOps ops)

/-- The surface does not always follow: the commands are dropped between the selection of a mode of
320 columns and the next picture. -/
theorem not_forall_size_eq_resolution :
    ¬ ∀ ops : List ScreenOp,
      (run (ops ++ [.present])).size = (run (ops ++ [.present])).resolution := by
  intro hall
  have hsize : (run [.port (.control 0x08000001), .port (.control 0x01000000), .present]).size =
      (256, 240) := by rfl
  have hresolution : (run [.port (.control 0x08000001), .port (.control 0x01000000),
      .present]).resolution = (320, 240) := by rfl
  have hequal : ((256, 240) : Nat × Nat) = (320, 240) :=
    (hsize.symm.trans (hall [.port (.control 0x08000001), .port (.control 0x01000000)])).trans
      hresolution
  exact absurd hequal (by decide)

/-- **The surface follows as long as no request to resize it is dropped.** -/
theorem size_eq_resolution_of_kept {ops : List ScreenOp} (hkept : ModeLog.powerOn.Kept ops) :
    (run (ops ++ [.present])).size = (run (ops ++ [.present])).resolution := by
  have h := follows_run_present ops
  have hpowerOn : ModeLog.powerOn.Current := .inr rfl
  rw [h.shown, h.mode]
  exact (ModeLog.shown_note_present_iff (ModeLog.ofOps ops)).2 (hpowerOn.foldl hkept)

end Screen

end ConsoleVideo
