import ConsoleVideo.Proofs.Gpu.Resolution

/-!
# Putting off what needs the surface

Draining takes jobs from the queue one after the other.  Whoever has no surface at hand puts a
request to resize it aside and back into the queue afterwards, so that it is carried out after jobs
that were queued behind it.  Nobody can tell: no drawing command changes the size that is asked for,
and a surface that has this size stays as it is.

* `Gpu.takeOut`, `Gpu.showOut` — the two loops, round by round, with what the first one carries out
  and puts aside; they end because no job adds another one;
* `Gpu.drain_eq_takeOut`, `Gpu.drainTo_eq_showOut` — draining is these loops;
* `Gpu.drainTo_drain` — draining first without the surface and then with it is draining with it;
* `Gpu.drain_harmless` — what is carried out when, and that it makes no difference.
-/

namespace ConsoleVideo

/-! ### The loops -/

/-- What has come out of the queue: the hardware that is left, the jobs that were carried out and
those that were put aside, both in the order in which they came. -/
structure TakenOut where
  gpu : Gpu
  done : List Job
  aside : List Job

theorem JobQueue.size_lt_of_pop? {queue rest : JobQueue} {job : Job}
    (h : queue.pop? = some (job, rest)) : rest.size < queue.size := by
  rw [size_eq_length, size_eq_length, toList_of_pop?_eq_some h, List.length_cons]
  exact Nat.lt_succ_self _

theorem JobQueue.pop?_of_toList {queue : JobQueue} {job : Job} {jobs : List Job}
    (h : queue.toList = job :: jobs) : ∃ rest, queue.pop? = some (job, rest) ∧ rest.toList = jobs := by
  have hqueue : queue = ⟨(job :: jobs).toArray⟩ := ext_toList h
  subst hqueue
  exact ⟨⟨jobs.toArray⟩, by simp [pop?], rfl⟩

namespace Gpu

variable (gpu : Gpu) (surface : Surface)

theorem queue_execute (job : Job) : (gpu.execute job).1.queue = gpu.queue := by
  rw [execute]
  split
  · rfl
  · exact queue_run gpu job

theorem queue_present (job : Job) : (gpu.present surface job).1.queue = gpu.queue := by
  rw [present_fst, queue_run]

theorem run_withQueue (queue : JobQueue) (job : Job) :
    (gpu.withQueue queue).run job = (gpu.run job).withQueue queue :=
  runAll_withQueue gpu queue [job]

/-- Takes jobs out of the queue until none is left; what is handed back is put aside. -/
def takeOut (gpu : Gpu) : TakenOut :=
  match _ : gpu.queue.pop? with
  | none => ⟨gpu, [], []⟩
  | some (job, rest) =>
    let round := (gpu.withQueue rest).execute job
    let later := round.1.takeOut
    match round.2 with
    | none => { later with done := job :: later.done }
    | some back => { later with aside := back :: later.aside }
termination_by gpu.queue.size
decreasing_by
  rw [queue_execute]
  exact JobQueue.size_lt_of_pop? ‹_›

/-- Takes jobs out of the queue until none is left, with the surface at hand. -/
def showOut (gpu : Gpu) (surface : Surface) : Gpu × Surface :=
  match _ : gpu.queue.pop? with
  | none => (gpu, surface)
  | some (job, rest) =>
    let round := (gpu.withQueue rest).present surface job
    round.1.showOut round.2
termination_by gpu.queue.size
decreasing_by
  rw [queue_present]
  exact JobQueue.size_lt_of_pop? ‹_›

variable {gpu} {job : Job} {rest : JobQueue}

theorem takeOut_of_none (h : gpu.queue.pop? = none) : gpu.takeOut = ⟨gpu, [], []⟩ := by
  rw [takeOut]
  split
  · rfl
  · next hpop => simp [h] at hpop

/-- A job that does without the surface is carried out, and the loop goes on. -/
theorem takeOut_of_run (h : gpu.queue.pop? = some (job, rest)) (hjob : job.isDeferred = false) :
    gpu.takeOut =
      let later := ((gpu.withQueue rest).run job).takeOut
      { later with done := job :: later.done } := by
  have hround : (gpu.withQueue rest).execute job = ((gpu.withQueue rest).run job, none) := by
    rw [execute, hjob]
    rfl
  rw [takeOut]
  split
  · next hpop => simp [h] at hpop
  · next first others hpop =>
    obtain ⟨rfl, rfl⟩ := Prod.mk.inj (Option.some.inj (h.symm.trans hpop))
    simp only [hround]

/-- A job that needs the surface comes back and is put aside, and the loop goes on. -/
theorem takeOut_of_aside (h : gpu.queue.pop? = some (job, rest)) (hjob : job.isDeferred = true) :
    gpu.takeOut =
      let later := (gpu.withQueue rest).takeOut
      { later with aside := job :: later.aside } := by
  have hround : (gpu.withQueue rest).execute job = (gpu.withQueue rest, some job) := by
    rw [execute, hjob]
    rfl
  rw [takeOut]
  split
  · next hpop => simp [h] at hpop
  · next first others hpop =>
    obtain ⟨rfl, rfl⟩ := Prod.mk.inj (Option.some.inj (h.symm.trans hpop))
    simp only [hround]

/-- **What is carried out without the surface**: every job that does without it, once, in the order
of the queue.  The others are put aside in that order. -/
theorem takeOut_eq (gpu : Gpu) : gpu.takeOut = {
    gpu := (gpu.runAll gpu.queue.toList).withQueue .empty
    done := gpu.queue.toList.filter fun job => !job.isDeferred
    aside := gpu.queue.toList.filter Job.isDeferred } := by
  induction hjobs : gpu.queue.toList generalizing gpu with
  | nil =>
    have hqueue : gpu.queue = .empty := JobQueue.ext_toList hjobs
    rw [takeOut_of_none (by rw [hqueue]; rfl), ← hqueue]
    rfl
  | cons job jobs ih =>
    obtain ⟨rest, hpop, hrest⟩ := JobQueue.pop?_of_toList hjobs
    cases hjob : job.isDeferred with
    | false =>
      have hqueue : ((gpu.withQueue rest).run job).queue.toList = jobs := by
        rw [queue_run]
        exact hrest
      rw [takeOut_of_run hpop hjob, ih _ hqueue, run_withQueue, runAll_withQueue,
        withQueue_withQueue]
      simp only [List.filter_cons, hjob, Bool.not_false, if_true, Bool.false_eq_true, if_false]
      rfl
    | true =>
      have hrun : gpu.runAll (job :: jobs) = gpu.runAll jobs := by
        show (gpu.run job).runAll jobs = _
        rw [run_of_isDeferred gpu hjob]
      rw [takeOut_of_aside hpop hjob, ih _ hrest, hrun, runAll_withQueue, withQueue_withQueue]
      simp only [List.filter_cons, hjob, Bool.not_true, if_true, Bool.false_eq_true, if_false]

/-- Puts jobs back into the queue. -/
def putBack (gpu : Gpu) (jobs : List Job) : Gpu :=
  jobs.foldl (fun gpu job => { gpu with queue := gpu.queue.push job }) gpu

theorem putBack_eq (gpu : Gpu) (jobs : List Job) :
    gpu.putBack jobs = gpu.withQueue (gpu.queue.pushAll jobs) := by
  induction jobs generalizing gpu with
  | nil =>
    rw [JobQueue.pushAll_nil]
    rfl
  | cons job jobs ih =>
    show (gpu.withQueue (gpu.queue.push job)).putBack jobs = _
    rw [ih, JobQueue.pushAll_cons]
    rfl

/-- **Draining is the loop, with what was put aside back in the queue.** -/
theorem drain_eq_takeOut (gpu : Gpu) : gpu.drain = gpu.takeOut.gpu.putBack gpu.takeOut.aside := by
  have hqueue : JobQueue.empty.pushAll (gpu.queue.toList.filter Job.isDeferred) =
      gpu.queue.deferred :=
    JobQueue.ext_toList (by simp)
  rw [drain_eq, takeOut_eq, putBack_eq, ← hqueue]
  rfl

theorem showOut_of_none (h : gpu.queue.pop? = none) : gpu.showOut surface = (gpu, surface) := by
  rw [showOut]
  split
  · rfl
  · next hpop => simp [h] at hpop

theorem showOut_of_some (h : gpu.queue.pop? = some (job, rest)) :
    gpu.showOut surface =
      ((gpu.withQueue rest).present surface job).1.showOut
        ((gpu.withQueue rest).present surface job).2 := by
  rw [showOut]
  split
  · next hpop => simp [h] at hpop
  · next first others hpop =>
    obtain ⟨rfl, rfl⟩ := Prod.mk.inj (Option.some.inj (h.symm.trans hpop))
    rfl

theorem present_withQueue (gpu : Gpu) (queue : JobQueue) (surface : Surface) (job : Job) :
    (gpu.withQueue queue).present surface job =
      ((gpu.present surface job).1.withQueue queue, (gpu.present surface job).2) := by
  cases job with
  | resizeSurface => rfl
  | _ => exact congrArg (·, surface) (run_withQueue gpu queue _)

theorem showOut_eq_foldl (gpu : Gpu) (surface : Surface) :
    gpu.showOut surface =
      gpu.queue.toList.foldl (fun s job => s.1.present s.2 job) (gpu.withQueue .empty, surface) := by
  induction hjobs : gpu.queue.toList generalizing gpu surface with
  | nil =>
    have hqueue : gpu.queue = .empty := JobQueue.ext_toList hjobs
    rw [showOut_of_none surface (by rw [hqueue]; rfl), ← hqueue]
    rfl
  | cons job jobs ih =>
    obtain ⟨rest, hpop, hrest⟩ := JobQueue.pop?_of_toList hjobs
    have hqueue : ((gpu.present surface job).1.withQueue rest).queue.toList = jobs := hrest
    rw [showOut_of_some surface hpop, List.foldl_cons]
    simp only [present_withQueue]
    rw [ih _ _ hqueue]
    rfl

/-- **Draining with the surface at hand is the loop.** -/
theorem drainTo_eq_showOut (gpu : Gpu) (surface : Surface) :
    gpu.drainTo surface = gpu.showOut surface := by
  rw [drainTo_eq_foldl, showOut_eq_foldl]

end Gpu

/-! ### Putting off -/

namespace Gpu

/-- **Draining without the surface first makes no difference to draining with it.** -/
theorem drainTo_drain (gpu : Gpu) (surface : Surface) :
    gpu.drain.drainTo surface = gpu.drainTo surface := by
  have hqueue : gpu.drain.queue.toList = gpu.queue.toList.filter Job.isDeferred := by
    rw [drain_eq]
    exact JobQueue.toList_deferred gpu.queue
  have hresolution : gpu.drain.status.displayResolution = gpu.status.displayResolution := by
    rw [drain_eq]
    exact displayResolution_runAll gpu gpu.queue.toList
  apply Prod.ext
  · have hkept : gpu.drain.runAll gpu.drain.queue.toList = gpu.drain := by
      refine runAll_of_deferred gpu.drain fun job hjob => ?_
      rw [hqueue] at hjob
      exact (List.mem_filter.1 hjob).2
    rw [drainTo_eq, drainTo_eq, hkept, drain_eq, withQueue_withQueue]
  · have hany : (gpu.queue.toList.filter Job.isDeferred).any Job.isDeferred =
        gpu.queue.toList.any Job.isDeferred := by
      rw [List.any_filter]
      simp only [Bool.and_self]
    rw [drainTo_snd, drainTo_snd, hqueue, hany, Surface.follow_congr surface hresolution]

/-- A request to resize does nothing without the surface, so it may as well be left out. -/
theorem runAll_filter (gpu : Gpu) (jobs : List Job) :
    gpu.runAll (jobs.filter fun job => !job.isDeferred) = gpu.runAll jobs := by
  induction jobs generalizing gpu with
  | nil => rfl
  | cons job jobs ih =>
    cases hjob : job.isDeferred with
    | false =>
      rw [List.filter_cons_of_pos (by rw [hjob]; rfl)]
      exact ih (gpu.run job)
    | true =>
      rw [List.filter_cons_of_neg (by rw [hjob]; exact Bool.false_ne_true), ih]
      show gpu.runAll jobs = (gpu.run job).runAll jobs
      rw [run_of_isDeferred gpu hjob]

/-- **Putting off what needs the surface does no harm.**  Whatever waits in the queue, the loop
without the surface carries out each job that does without it, once and in the order of the queue,
and leaves the others in theirs; and the loop with the surface leads from there to the hardware, the
empty queue and the surface that it leads to at once. -/
theorem drain_harmless (gpu : Gpu) (surface : Surface) :
    gpu.drain = gpu.takeOut.gpu.putBack gpu.takeOut.aside ∧
      gpu.takeOut.done = gpu.queue.toList.filter (fun job => !job.isDeferred) ∧
      gpu.takeOut.aside = gpu.queue.toList.filter Job.isDeferred ∧
      gpu.takeOut.gpu = (gpu.runAll gpu.takeOut.done).withQueue .empty ∧
      gpu.drain.queue.toList = gpu.queue.toList.filter Job.isDeferred ∧
      gpu.drainTo surface = gpu.showOut surface ∧
      gpu.drain.drainTo surface = gpu.drainTo surface ∧
      (gpu.drainTo surface).1.queue = .empty := by
  have hqueue : gpu.drain.queue = gpu.queue.deferred := by
    rw [drain_eq]
    rfl
  have hempty : (gpu.drainTo surface).1.queue = .empty := by
    rw [drainTo_eq]
    rfl
  refine ⟨drain_eq_takeOut gpu, ?_, ?_, ?_, ?_, drainTo_eq_showOut gpu surface,
    drainTo_drain gpu surface, hempty⟩
  · rw [takeOut_eq]
  · rw [takeOut_eq]
  · rw [takeOut_eq, runAll_filter]
  · rw [hqueue, JobQueue.toList_deferred]

end Gpu

end ConsoleVideo
