import ConsoleVideo.Proofs.Gpu.Deferral
import ConsoleVideo.Proofs.Gpu.Handshake

/-!
# Words that are fed

Words of drawing commands can be fed instead of written: their jobs then wait until the queue is
drained, with the surface at hand or without.  In the end everything is as if they had been written,
but for one bit: whoever writes words brings the DMA request up to date, and whoever drains the
queue does not.

* `Gpu.readySend_runAll`, `Gpu.wantedDmaRequest_runAll_eq_iff` — which jobs have a part in the DMA
  request;
* `Gpu.drain_feedAll`, `Gpu.writeAll_of_isWhole` — both ways carry out the same jobs, and one of
  them brings the DMA request up to date;
* `Gpu.AwaitsFetch` — the controller waits for words that the commands are about to fetch;
* `Gpu.drain_feedAll_eq_iff` — the two ways agree in every other case, and in nothing but the DMA
  request do they ever differ.
-/

namespace ConsoleVideo.Gpu

variable {gpu : Gpu} {ws : List Word}

/-! ### The DMA request -/

/-- Among the jobs, downloads alone announce that there is something to read back. -/
theorem readySend_run (gpu : Gpu) (job : Job) :
    (gpu.run job).status.readySend = (gpu.status.readySend || job.isDownload) := by
  cases job with
  | download rect => exact (Bool.or_true gpu.status.readySend).symm
  | polygon polygon =>
    obtain ⟨first, second, third, fourth, shaded, texture, translucent⟩ := polygon
    cases texture <;> exact (Bool.or_false gpu.status.readySend).symm
  | _ => exact (Bool.or_false gpu.status.readySend).symm

theorem readySend_runAll (gpu : Gpu) (jobs : List Job) :
    (gpu.runAll jobs).status.readySend = (gpu.status.readySend || jobs.any Job.isDownload) := by
  induction jobs generalizing gpu with
  | nil => exact (Bool.or_false gpu.status.readySend).symm
  | cons job jobs ih =>
    show ((gpu.run job).runAll jobs).status.readySend = _
    rw [ih, readySend_run, List.any_cons, Bool.or_assoc]

/-- **Jobs call for another DMA request only if the controller waits for words to be read back**,
if there were none, and if a download brings some. -/
theorem wantedDmaRequest_runAll_eq_iff (gpu : Gpu) (jobs : List Job) :
    (gpu.runAll jobs).status.wantedDmaRequest = gpu.status.wantedDmaRequest ↔
      ¬ (gpu.status.direction = .fromReadback ∧ gpu.status.readySend = false ∧
        jobs.any Job.isDownload = true) := by
  -- The direction is software's business, and blocks of words are always welcome.
  have hdirection : (gpu.runAll jobs).status.direction = gpu.status.direction :=
    gpu.status_runAll Status.direction (fun _ => rfl) jobs
  have hblock : (gpu.runAll jobs).status.readyBlock = gpu.status.readyBlock :=
    gpu.status_runAll Status.readyBlock (fun _ => rfl) jobs
  rw [Status.wantedDmaRequest, Status.wantedDmaRequest, hdirection, hblock, readySend_runAll]
  cases gpu.status.direction with
  | fromReadback =>
    cases gpu.status.readySend <;> cases jobs.any Job.isDownload <;> simp
  | _ => simp

theorem refreshDmaRequest_eq_self_iff (gpu : Gpu) :
    gpu.refreshDmaRequest = gpu ↔ gpu.status.wantedDmaRequest = gpu.status.dmaRequest := by
  constructor
  · intro h
    exact congrArg (fun gpu => gpu.status.dmaRequest) h
  · intro h
    rw [refreshDmaRequest, Status.refreshDmaRequest, h]

/-! ### Both ways -/

/-- Complete commands leave their jobs in the queue and nothing else behind. -/
theorem feedAll_of_isWhole (hidle : gpu.decoder = .idle) (h : Framing.IsWhole ws) :
    gpu.feedAll ws = (gpu.withQueue (gpu.queue.pushAll (Framing.jobs ws)), none) := by
  have htake := Framing.takeAll_of_isWhole h
  rw [← hidle] at htake
  rw [feedAll_eq, htake]
  rfl

/-- **Words that are fed have their jobs carried out when the queue is drained**, and nothing else
happens. -/
theorem drain_feedAll (hsettled : gpu.queue.IsSettled) (hidle : gpu.decoder = .idle)
    (h : Framing.IsWhole ws) : (gpu.feedAll ws).1.drain = gpu.runAll (Framing.jobs ws) := by
  have hdrawing : ∀ job ∈ Framing.jobs ws, job.isDeferred = false := by
    have hmade : ∀ job ∈ (Decoder.idle.takeAll ws).2.1, job.IsDrawing :=
      Decoder.isDrawing_of_mem_takeAll
    rw [Framing.takeAll_of_isWhole h] at hmade
    exact fun job hjob => (hmade job hjob).isDeferred
  have hqueue : (gpu.queue.pushAll (Framing.jobs ws)).deferred = gpu.queue := by
    rw [JobQueue.deferred_pushAll hdrawing, hsettled.deferred_eq]
  rw [feedAll_of_isWhole hidle h, drain_eq, runAll_withQueue, withQueue_withQueue]
  show (gpu.runAll (gpu.queue.pushAll (Framing.jobs ws)).toList).withQueue
    (gpu.queue.pushAll (Framing.jobs ws)).deferred = _
  -- What waited before are requests to resize, and these do nothing.
  rw [JobQueue.toList_pushAll, runAll_append, runAll_of_deferred gpu hsettled.isDeferred, hqueue]
  exact congrArg (gpu.runAll (Framing.jobs ws)).withQueue (queue_runAll gpu _).symm

/-- **Words that are written have their jobs carried out at once**, and the DMA request is brought
up to date. -/
theorem writeAll_of_isWhole (hgpu : gpu.Handshake) (hidle : gpu.decoder = .idle)
    (h : Framing.IsWhole ws) :
    gpu.writeAll ws = ((gpu.runAll (Framing.jobs ws)).refreshDmaRequest, none) := by
  have htake := Framing.takeAll_of_isWhole h
  rw [← hidle] at htake
  have hfront : ∀ request : Bool, FrontEnd.mk gpu.decoder gpu.queue gpu.decoder.isIdle request =
      { (gpu.runAll (Framing.jobs ws)).frontEnd with dmaRequest := request } := by
    intro request
    rw [frontEnd_runAll, ← hgpu.readyCommand]
    rfl
  have hsecond : (gpu.writeBlock ws).2 = none := by
    rw [writeBlock_eq, htake]
  have hfirst : (gpu.writeBlock ws).1 = (gpu.runAll (Framing.jobs ws)).refreshDmaRequest := by
    rw [writeBlock_of_isSettled hgpu.queue, htake]
    dsimp only
    rw [hfront]
    rfl
  rw [hgpu.writeAll_eq_writeBlock]
  exact Prod.ext hfirst hsecond

/-! ### Where the two ways agree -/

/-- The controller waits for words to be read back, there are none, and the commands fetch some. -/
def AwaitsFetch (gpu : Gpu) (ws : List Word) : Prop :=
  gpu.status.direction = .fromReadback ∧ gpu.readback = [] ∧ Framing.Fetches ws

/-- The DMA request is out of date after the jobs exactly where the controller waits for them. -/
theorem refreshDmaRequest_runAll_eq_self_iff (hgpu : gpu.Handshake) (h : Framing.IsWhole ws) :
    (gpu.runAll (Framing.jobs ws)).refreshDmaRequest = gpu.runAll (Framing.jobs ws) ↔
      ¬ gpu.AwaitsFetch ws := by
  have hrequest : (gpu.runAll (Framing.jobs ws)).status.dmaRequest =
      gpu.status.wantedDmaRequest :=
    (congrArg FrontEnd.dmaRequest (frontEnd_runAll gpu (Framing.jobs ws))).trans hgpu.dmaRequest
  have hsend : gpu.status.readySend = false ↔ gpu.readback = [] := by
    rw [hgpu.readySend, Bool.not_eq_false', List.isEmpty_iff]
  rw [refreshDmaRequest_eq_self_iff, hrequest, wantedDmaRequest_runAll_eq_iff, AwaitsFetch, hsend,
    Framing.any_isDownload_jobs_iff h]

/-- With the surface at hand the DMA request stays as it is as well. -/
theorem drainTo_refreshDmaRequest (hsettled : gpu.queue.IsSettled) (surface : Surface) :
    gpu.refreshDmaRequest.drainTo surface =
      ((gpu.drainTo surface).1.refreshDmaRequest, (gpu.drainTo surface).2) := by
  apply Prod.ext
  · rw [drainTo_of_isSettled hsettled]
    have hrequested : gpu.refreshDmaRequest.queue.IsSettled := hsettled
    exact drainTo_of_isSettled hrequested surface
  · rw [drainTo_snd, drainTo_snd]
    rfl

theorem drainTo_refreshDmaRequest_eq_iff (hsettled : gpu.queue.IsSettled) (surface : Surface) :
    gpu.refreshDmaRequest.drainTo surface = gpu.drainTo surface ↔ gpu.refreshDmaRequest = gpu := by
  have hempty : (gpu.withQueue .empty).refreshDmaRequest = gpu.withQueue .empty ↔
      gpu.refreshDmaRequest = gpu := by
    rw [refreshDmaRequest_eq_self_iff, refreshDmaRequest_eq_self_iff]
    exact Iff.rfl
  rw [drainTo_refreshDmaRequest hsettled, Prod.ext_iff, drainTo_of_isSettled hsettled, hempty]
  exact and_iff_left rfl

/-- **When exactly complete commands may be fed as well as written.**  Neither way refuses a word.
Fed and drained, without the surface or with it, they leave everything as it is after they were
written, with the same surface, as soon as somebody brings the DMA request up to date; and nobody
has to, unless the controller waits for words that they fetch. -/
theorem drain_feedAll_eq_iff (hgpu : gpu.Reachable) (hidle : gpu.decoder.isIdle = true)
    (h : Framing.IsWhole ws) (surface : Surface) :
    let fed := (gpu.feedAll ws).1
    let written := (gpu.writeAll ws).1
    (gpu.feedAll ws).2 = none ∧ (gpu.writeAll ws).2 = none ∧
      fed.drain.refreshDmaRequest = written ∧
      (fed.drainTo surface).1.refreshDmaRequest = (written.drainTo surface).1 ∧
      (fed.drainTo surface).2 = (written.drainTo surface).2 ∧
      (fed.drain = written ↔ ¬ gpu.AwaitsFetch ws) ∧
      (fed.drainTo surface = written.drainTo surface ↔ ¬ gpu.AwaitsFetch ws) := by
  have hdecoder := Decoder.eq_idle_of_isIdle hidle
  have hhand := hgpu.handshake
  have hfed := drain_feedAll hhand.queue hdecoder h
  have hwritten := writeAll_of_isWhole hhand hdecoder h
  have hsettled : (gpu.runAll (Framing.jobs ws)).queue.IsSettled := by
    rw [queue_runAll]
    exact hhand.queue
  have hshown : (gpu.feedAll ws).1.drainTo surface =
      (gpu.runAll (Framing.jobs ws)).drainTo surface := by
    rw [← drainTo_drain, hfed]
  have hboth := drainTo_refreshDmaRequest hsettled surface
  have hiff := refreshDmaRequest_runAll_eq_self_iff hhand h
  intro fed written
  refine ⟨?_, ?_, ?_, ?_, ?_, ?_, ?_⟩
  · rw [feedAll_of_isWhole hdecoder h]
  · rw [hwritten]
  · show (gpu.feedAll ws).1.drain.refreshDmaRequest = (gpu.writeAll ws).1
    rw [hfed, hwritten]
  · show ((gpu.feedAll ws).1.drainTo surface).1.refreshDmaRequest =
      ((gpu.writeAll ws).1.drainTo surface).1
    rw [hshown, hwritten, hboth]
  · show ((gpu.feedAll ws).1.drainTo surface).2 = ((gpu.writeAll ws).1.drainTo surface).2
    rw [hshown, hwritten, hboth]
  · show (gpu.feedAll ws).1.drain = (gpu.writeAll ws).1 ↔ _
    rw [hfed, hwritten, ← hiff]
    exact eq_comm
  · show (gpu.feedAll ws).1.drainTo surface = (gpu.writeAll ws).1.drainTo surface ↔ _
    rw [hshown, hwritten, ← hiff, ← drainTo_refreshDmaRequest_eq_iff hsettled surface]
    exact eq_comm

/-- A command that fetches one pixel. -/
theorem isWhole_fetch : Framing.IsWhole [0xC0000000, 0, 0x00010001] := by
  have hcut : Framing.cut [0xC0000000, 0, 0x00010001] =
      ([.command [0xC0000000, 0, 0x00010001]], []) := by
    decide +kernel
  constructor
  · rw [hcut]
  · rw [hcut]
    intro w hw
    exact nomatch List.mem_singleton.1 hw

/-- The controller waits for the pixel that is fetched. -/
theorem drain_feedAll_eq_iff_fetch :
    let gpu := powerOn.act (.control 0x04000003)
    let ws : List Word := [0xC0000000, 0, 0x00010001]
    let surface := Surface.ofView .display
    let fed := (gpu.feedAll ws).1
    let written := (gpu.writeAll ws).1
    gpu.Reachable ∧ gpu.decoder.isIdle = true ∧ Framing.IsWhole ws ∧
      (gpu.feedAll ws).2 = none ∧ (gpu.writeAll ws).2 = none ∧
      fed.drain.refreshDmaRequest = written ∧
      (fed.drainTo surface).1.refreshDmaRequest = (written.drainTo surface).1 ∧
      (fed.drainTo surface).2 = (written.drainTo surface).2 ∧
      (fed.drain = written ↔ ¬ gpu.AwaitsFetch ws) ∧
      (fed.drainTo surface = written.drainTo surface ↔ ¬ gpu.AwaitsFetch ws) := by
  intro gpu ws surface fed written
  have hgpu : gpu.Reachable := Reachable.powerOn.act (.control 0x04000003)
  have hidle : gpu.decoder.isIdle = true := by decide +kernel
  exact ⟨hgpu, hidle, isWhole_fetch, drain_feedAll_eq_iff hgpu hidle isWhole_fetch surface⟩

/-- Feeding and writing do not always agree: the request for the pixel that is fetched is missing. -/
theorem not_forall_drain_feedAll_eq :
    ¬ ∀ (gpu : Gpu) (ws : List Word), gpu.Reachable → gpu.decoder.isIdle = true →
      Framing.IsWhole ws → (gpu.feedAll ws).1.drain = (gpu.writeAll ws).1 := by
  intro hall
  have hgpu : (powerOn.act (.control 0x04000003)).Reachable :=
    Reachable.powerOn.act (.control 0x04000003)
  have hsame := hall (powerOn.act (.control 0x04000003)) [0xC0000000, 0, 0x00010001] hgpu
    (by decide +kernel) isWhole_fetch
  have hfed : ((powerOn.act (.control 0x04000003)).feedAll
      [0xC0000000, 0, 0x00010001]).1.drain.status.word.bit 25 = false := by
    decide +kernel
  have hwritten : ((powerOn.act (.control 0x04000003)).writeAll
      [0xC0000000, 0, 0x00010001]).1.status.word.bit 25 = true := by
    decide +kernel
  rw [hsame, hwritten] at hfed
  exact Bool.noConfusion hfed

end ConsoleVideo.Gpu
