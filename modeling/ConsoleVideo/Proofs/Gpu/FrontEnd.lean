import ConsoleVideo.Gpu.Access

/-!
# The front end

Words come in through the decoder, wait as jobs in the queue, and meanwhile two flags of the status
tell software and the DMA controller whether to send more.  The jobs themselves neither see nor
change any of this, so taking words in and carrying jobs out can be looked at apart.

* `FrontEnd` — the decoder, the queue and the two flags, with `Gpu.withFrontEnd`;
* `Gpu.run_withFrontEnd` — a job commutes with any change of the front end;
* `Gpu.runAll` — jobs carried out one after the other; `Gpu.status_runAll` — what of the status they
  leave alone;
* `Gpu.drain_eq`, `Gpu.settle_eq` — draining runs the waiting jobs and keeps the deferred ones.
-/

namespace ConsoleVideo

/-- What takes commands in. -/
structure FrontEnd where
  decoder : Decoder
  queue : JobQueue
  readyCommand : Bool
  dmaRequest : Bool

namespace JobQueue

/-- The jobs that wait for the surface. -/
def deferred (queue : JobQueue) : JobQueue :=
  ⟨queue.jobs.filter Job.isDeferred⟩

/-- The queue with more jobs at its end. -/
def pushAll (queue : JobQueue) (jobs : List Job) : JobQueue :=
  ⟨queue.jobs ++ jobs.toArray⟩

@[simp] theorem toList_deferred (queue : JobQueue) :
    queue.deferred.toList = queue.toList.filter Job.isDeferred := by
  simp [deferred, toList]

@[simp] theorem toList_pushAll (queue : JobQueue) (jobs : List Job) :
    (queue.pushAll jobs).toList = queue.toList ++ jobs := by
  simp [pushAll, toList]

theorem ext_toList {queue other : JobQueue} (h : queue.toList = other.toList) : queue = other := by
  obtain ⟨jobs⟩ := queue
  obtain ⟨others⟩ := other
  exact congrArg JobQueue.mk (Array.toList_inj.1 h)

theorem pushAll_nil (queue : JobQueue) : queue.pushAll [] = queue :=
  ext_toList (by simp)

theorem pushAll_cons (queue : JobQueue) (job : Job) (jobs : List Job) :
    queue.pushAll (job :: jobs) = (queue.push job).pushAll jobs :=
  ext_toList (by simp)

theorem deferred_deferred (queue : JobQueue) : queue.deferred.deferred = queue.deferred :=
  ext_toList (by simp)

/-- Jobs that are not deferred do not stay. -/
theorem deferred_pushAll {queue : JobQueue} {jobs : List Job}
    (h : ∀ job ∈ jobs, job.isDeferred = false) :
    (queue.pushAll jobs).deferred = queue.deferred := by
  apply ext_toList
  have hnone : jobs.filter Job.isDeferred = [] :=
    List.filter_eq_nil_iff.2 fun job hjob => by rw [h job hjob]; exact Bool.false_ne_true
  rw [toList_deferred, toList_pushAll, List.filter_append, hnone, List.append_nil, toList_deferred]

theorem allDeferred_deferred (queue : JobQueue) : queue.deferred.allDeferred = true := by
  rw [allDeferred_eq, toList_deferred, List.all_eq_true]
  exact fun job hjob => (List.mem_filter.1 hjob).2

end JobQueue

/-- The status with everything cleared that jobs write into it. -/
def Status.undrawn (s : Status) : Status :=
  { s.applyDrawMode 0 false with
    setMask := false
    checkMask := false
    interrupt := false
    readySend := false }

namespace Gpu

variable (gpu : Gpu)

def frontEnd : FrontEnd where
  decoder := gpu.decoder
  queue := gpu.queue
  readyCommand := gpu.status.readyCommand
  dmaRequest := gpu.status.dmaRequest

/-- The hardware behind another front end. -/
def withFrontEnd (front : FrontEnd) : Gpu :=
  { gpu with
    decoder := front.decoder
    queue := front.queue
    status := { gpu.status with
      readyCommand := front.readyCommand
      dmaRequest := front.dmaRequest } }

@[simp] theorem withFrontEnd_frontEnd : gpu.withFrontEnd gpu.frontEnd = gpu := rfl

@[simp] theorem frontEnd_withFrontEnd (front : FrontEnd) :
    (gpu.withFrontEnd front).frontEnd = front := rfl

@[simp] theorem withFrontEnd_withFrontEnd (front other : FrontEnd) :
    (gpu.withFrontEnd front).withFrontEnd other = gpu.withFrontEnd other := rfl

/-- The DMA request is derived from the direction and the other two ready flags. -/
@[simp] theorem wantedDmaRequest_withFrontEnd (front : FrontEnd) :
    (gpu.withFrontEnd front).status.wantedDmaRequest = gpu.status.wantedDmaRequest := rfl

/-- **Jobs are carried out behind the front end.** -/
theorem run_withFrontEnd (front : FrontEnd) (job : Job) :
    (gpu.withFrontEnd front).run job = (gpu.run job).withFrontEnd front := by
  cases job with
  | polygon polygon =>
    obtain ⟨first, second, third, fourth, shaded, texture, translucent⟩ := polygon
    cases texture <;> rfl
  | _ => rfl

theorem frontEnd_run (job : Job) : (gpu.run job).frontEnd = gpu.frontEnd := by
  have h := run_withFrontEnd gpu gpu.frontEnd job
  rw [withFrontEnd_frontEnd] at h
  rw [h, frontEnd_withFrontEnd]

/-- No job adds another one. -/
theorem queue_run (job : Job) : (gpu.run job).queue = gpu.queue :=
  congrArg FrontEnd.queue (frontEnd_run gpu job)

/-- A deferred job does nothing without the surface. -/
theorem run_of_isDeferred {job : Job} (h : job.isDeferred = true) : gpu.run job = gpu := by
  cases job <;> first | rfl | exact Bool.noConfusion h

/-! ### Many jobs -/

/-- The hardware after jobs that are carried out one after the other. -/
def runAll (jobs : List Job) : Gpu :=
  jobs.foldl run gpu

theorem runAll_append (jobs later : List Job) :
    gpu.runAll (jobs ++ later) = (gpu.runAll jobs).runAll later :=
  List.foldl_append

theorem runAll_withFrontEnd (front : FrontEnd) (jobs : List Job) :
    (gpu.withFrontEnd front).runAll jobs = (gpu.runAll jobs).withFrontEnd front := by
  induction jobs generalizing gpu with
  | nil => rfl
  | cons job jobs ih =>
    show ((gpu.withFrontEnd front).run job).runAll jobs = _
    rw [run_withFrontEnd, ih]
    rfl

theorem frontEnd_runAll (jobs : List Job) : (gpu.runAll jobs).frontEnd = gpu.frontEnd := by
  induction jobs generalizing gpu with
  | nil => rfl
  | cons job jobs ih => exact (ih (gpu.run job)).trans (frontEnd_run gpu job)

theorem queue_runAll (jobs : List Job) : (gpu.runAll jobs).queue = gpu.queue :=
  congrArg FrontEnd.queue (frontEnd_runAll gpu jobs)

/-- **What jobs write into the status** is the drawing mode, the mask bits, the interrupt, and that
there is something to read back. -/
theorem undrawn_run (job : Job) : (gpu.run job).status.undrawn = gpu.status.undrawn := by
  cases job with
  | polygon polygon =>
    obtain ⟨first, second, third, fourth, shaded, texture, translucent⟩ := polygon
    cases texture <;> rfl
  | _ => rfl

theorem undrawn_runAll (jobs : List Job) :
    (gpu.runAll jobs).status.undrawn = gpu.status.undrawn := by
  induction jobs generalizing gpu with
  | nil => rfl
  | cons job jobs ih => exact (ih (gpu.run job)).trans (undrawn_run gpu job)

/-- What is read off the rest of the status stays as it is. -/
theorem status_runAll {α : Type} (read : Status → α) (hread : ∀ s, read s.undrawn = read s)
    (jobs : List Job) : read (gpu.runAll jobs).status = read gpu.status := by
  rw [← hread, undrawn_runAll, hread]

theorem runAll_of_deferred {jobs : List Job} (h : ∀ job ∈ jobs, job.isDeferred = true) :
    gpu.runAll jobs = gpu := by
  induction jobs with
  | nil => rfl
  | cons job jobs ih =>
    show (gpu.run job).runAll jobs = gpu
    rw [run_of_isDeferred gpu (h job List.mem_cons_self)]
    exact ih fun later hlater => h later (List.mem_cons_of_mem job hlater)

/-! ### Draining -/

/-- The hardware with another queue. -/
def withQueue (queue : JobQueue) : Gpu :=
  gpu.withFrontEnd { gpu.frontEnd with queue := queue }

@[simp] theorem withQueue_withQueue (queue other : JobQueue) :
    (gpu.withQueue queue).withQueue other = gpu.withQueue other := rfl

theorem runAll_withQueue (queue : JobQueue) (jobs : List Job) :
    (gpu.withQueue queue).runAll jobs = (gpu.runAll jobs).withQueue queue := by
  rw [withQueue, runAll_withFrontEnd, withQueue, frontEnd_runAll]

theorem foldl_drainJob (jobs : List Job) :
    jobs.foldl drainJob gpu =
      (gpu.runAll jobs).withQueue (gpu.queue.pushAll (jobs.filter Job.isDeferred)) := by
  -- The queue that drained jobs go back to starts out as any queue, not only as the empty one.
  induction jobs generalizing gpu with
  | nil =>
    rw [List.filter_nil, JobQueue.pushAll_nil]
    rfl
  | cons job jobs ih =>
    show jobs.foldl drainJob (gpu.drainJob job) = _
    rw [ih]
    cases hjob : job.isDeferred with
    | true =>
      have hrun : gpu.runAll (job :: jobs) = gpu.runAll jobs := by
        show (gpu.run job).runAll jobs = _
        rw [run_of_isDeferred gpu hjob]
      have hpush : gpu.drainJob job = gpu.withQueue (gpu.queue.push job) := by
        rw [drainJob, if_pos hjob]
        rfl
      rw [List.filter_cons_of_pos hjob, JobQueue.pushAll_cons, hrun, hpush, runAll_withQueue,
        withQueue_withQueue]
      rfl
    | false =>
      have hrun : gpu.drainJob job = gpu.run job := by
        rw [drainJob, if_neg (by rw [hjob]; exact Bool.false_ne_true)]
      rw [List.filter_cons_of_neg (by rw [hjob]; exact Bool.false_ne_true), hrun, queue_run]
      rfl

/-- **Draining carries out the waiting jobs in their order and keeps the deferred ones.** -/
theorem drain_eq :
    gpu.drain = (gpu.runAll gpu.queue.toList).withQueue gpu.queue.deferred := by
  have hempty : gpu.drain = gpu.queue.jobs.toList.foldl drainJob (gpu.withQueue .empty) := by
    rw [Array.foldl_toList]
    rfl
  have hqueue : JobQueue.empty.pushAll (gpu.queue.jobs.toList.filter Job.isDeferred) =
      gpu.queue.deferred :=
    JobQueue.ext_toList (by
      rw [JobQueue.toList_pushAll, JobQueue.toList_empty, List.nil_append, JobQueue.toList_deferred]
      rfl)
  rw [hempty, foldl_drainJob, runAll_withQueue, withQueue_withQueue, ← hqueue]
  rfl

/-- After a drain the hardware is ready as soon as no command is in progress. -/
theorem settle_eq :
    gpu.settle = (gpu.runAll gpu.queue.toList).withFrontEnd {
      decoder := gpu.decoder
      queue := gpu.queue.deferred
      readyCommand := gpu.decoder.isIdle
      dmaRequest := (gpu.runAll gpu.queue.toList).status.wantedDmaRequest } := by
  have hdecoder : gpu.drain.decoder = gpu.decoder := by
    rw [drain_eq]
    exact congrArg FrontEnd.decoder (frontEnd_runAll gpu gpu.queue.toList)
  have hready : gpu.drain.isReady = gpu.decoder.isIdle := by
    have hqueue : gpu.drain.queue = gpu.queue.deferred := by
      rw [drain_eq]
      rfl
    rw [isReady, hdecoder, hqueue, JobQueue.allDeferred_deferred, Bool.and_true]
  have hsettle : gpu.settle = gpu.drain.withFrontEnd {
      decoder := gpu.drain.decoder
      queue := gpu.drain.queue
      readyCommand := gpu.drain.isReady
      dmaRequest := gpu.drain.status.wantedDmaRequest } := rfl
  rw [hsettle, hdecoder, hready, drain_eq]
  rfl

theorem settle_withFrontEnd (front : FrontEnd) :
    (gpu.withFrontEnd front).settle = (gpu.runAll front.queue.toList).withFrontEnd {
      decoder := front.decoder
      queue := front.queue.deferred
      readyCommand := front.decoder.isIdle
      dmaRequest := (gpu.runAll front.queue.toList).status.wantedDmaRequest } := by
  have hrun : (gpu.withFrontEnd front).runAll (gpu.withFrontEnd front).queue.toList =
      (gpu.runAll front.queue.toList).withFrontEnd front :=
    runAll_withFrontEnd gpu front front.queue.toList
  rw [settle_eq, hrun, withFrontEnd_withFrontEnd, wantedDmaRequest_withFrontEnd]
  rfl

end Gpu

end ConsoleVideo
