import ConsoleVideo.Proofs.Snapshot.Resume
import ConsoleVideo.Replay

/-!
# In one hand or under a worker

A trace can be replayed with the hardware in one hand or with a worker that carries out the waiting
jobs and shows the picture.  So that nothing waits at the end, the worker is told a last tick of no
cycles, and this tick is one tick more than the trace holds.

* `Gpu.run_tick`, `Gpu.drainTo_tick` — the beam and the jobs do not see each other;
* `Stage.host`, `Stage.playAll_host` — up to the last tick a worker holds what is otherwise in one
  hand;
* `Outcome.flushed`, `Replay.hosted_eq_map_direct` — the last tick is the only difference;
* `Gpu.BeamCurrent`, `Gpu.tick_zero_eq_self_iff` — what a tick of no cycles brings up to date;
* `Replay.hosted_agrees_iff` — when exactly the two ways leave the same hardware and the same dump;
* `Replay.hosted_eq_direct_of_tick` — they do if nothing after the last tick of the trace concerns
  the beam.
-/

namespace ConsoleVideo

/-! ### The beam and the jobs -/

namespace Gpu

variable (gpu : Gpu) (cycles : Nat) (irq : Interrupts)

/-- **Jobs neither move the beam nor see where it is.** -/
theorem run_tick (job : Job) :
    (gpu.tick cycles irq).1.run job = ((gpu.run job).tick cycles irq).1 := by
  cases job with
  | polygon polygon =>
    obtain ⟨first, second, third, fourth, shaded, texture, translucent⟩ := polygon
    cases texture <;> rfl
  | _ => rfl

theorem runAll_tick (jobs : List Job) :
    (gpu.tick cycles irq).1.runAll jobs = ((gpu.runAll jobs).tick cycles irq).1 := by
  induction jobs generalizing gpu with
  | nil => rfl
  | cons job jobs ih =>
    show ((gpu.tick cycles irq).1.run job).runAll jobs = _
    rw [run_tick, ih]
    rfl

theorem present_tick (surface : Surface) (job : Job) :
    (gpu.tick cycles irq).1.present surface job =
      (((gpu.present surface job).1.tick cycles irq).1, (gpu.present surface job).2) := by
  cases job with
  | resizeSurface => rfl
  | _ => exact congrArg (·, surface) (run_tick gpu cycles irq _)

theorem foldl_present_tick (surface : Surface) (jobs : List Job) :
    jobs.foldl (fun s job => s.1.present s.2 job) ((gpu.tick cycles irq).1, surface) =
      (((jobs.foldl (fun s job => s.1.present s.2 job) (gpu, surface)).1.tick cycles irq).1,
        (jobs.foldl (fun s job => s.1.present s.2 job) (gpu, surface)).2) := by
  induction jobs generalizing gpu surface with
  | nil => rfl
  | cons job jobs ih =>
    simp only [List.foldl_cons, present_tick]
    exact ih (gpu.present surface job).1 (gpu.present surface job).2

/-- **Whether the beam moves before or after the waiting jobs are carried out is all the same.** -/
theorem drainTo_tick (surface : Surface) :
    (gpu.tick cycles irq).1.drainTo surface =
      (((gpu.drainTo surface).1.tick cycles irq).1, (gpu.drainTo surface).2) := by
  simp only [drainTo, ← Array.foldl_toList]
  exact foldl_present_tick { gpu with queue := .empty } cycles irq surface gpu.queue.jobs.toList

end Gpu

/-! ### Up to the last tick -/

namespace Stage

variable (settings : Settings)

/-- What is in one hand, handed over to a running worker. -/
def host : Stage → Hosted
  | ⟨gpu, irq, surface, ticks⟩ => ⟨⟨gpu, irq, surface, true⟩, ticks⟩

theorem play_host (event : TraceEvent) (stage : Stage) :
    stage.host.play settings event = (stage.play settings event).map host := by
  obtain ⟨gpu, irq, surface, ticks⟩ := stage
  have haccepted : ∀ outcome : Gpu × Option DeviceError,
      Hosted.accepted irq surface true ticks outcome =
        (accepted irq surface ticks outcome).map host := by
    rintro ⟨gpu, _ | e⟩ <;> rfl
  cases event with
  | draw w => exact haccepted (gpu.write w)
  | control w => exact haccepted (gpu.writeControl w)
  | tick requested => rfl

/-- **A worker does what is otherwise done in one hand**, and fails where this fails. -/
theorem playAll_host (events : List TraceEvent) (stage : Stage) :
    stage.host.playAll settings events = (stage.playAll settings events).map host := by
  induction events generalizing stage with
  | nil => rfl
  | cons event events ih =>
    simp only [Hosted.playAll, playAll, play_host]
    cases stage.play settings event with
    | error e => rfl
    | ok stage => exact ih stage

end Stage

/-! ### The last tick -/

/-- What is left after one more tick, of no cycles. -/
def Outcome.flushed (outcome : Outcome) : Outcome :=
  { outcome with gpu := (outcome.gpu.tick 0 Interrupts.quiet).1 }

/-- The worker's last tick shows what would be shown without it, and then the beam is all that it
has to do with. -/
theorem Stage.finish_host (stage : Stage) : stage.host.finish = .ok stage.finish.flushed := by
  obtain ⟨gpu, irq, surface, ticks⟩ := stage
  show Except.ok (Outcome.mk ((gpu.tick 0 irq).1.drainTo surface).1
    (((gpu.tick 0 irq).1.drainTo surface).1.showOn ((gpu.tick 0 irq).1.drainTo surface).2)
    ticks) = _
  rw [Gpu.drainTo_tick]
  rfl

/-- **The two ways differ by the last tick and by nothing else**, and they fail alike. -/
theorem Replay.hosted_eq_map_direct (settings : Settings) (events : List TraceEvent) :
    hosted settings events = (direct settings events).map Outcome.flushed := by
  have hplay := Stage.playAll_host settings events (Stage.powerOn settings.view)
  rw [hosted, direct, show Hosted.mk (Worker.powerOn settings.view) 0 =
    (Stage.powerOn settings.view).host from rfl, hplay]
  cases Stage.playAll settings events (Stage.powerOn settings.view) with
  | error e => rfl
  | ok stage => exact stage.finish_host

/-! ### What the last tick brings up to date -/

/-- The beam is inside a line of the current mode, and everything that is derived from its position
is as the current mode and geometry have it. -/
structure Gpu.BeamCurrent (gpu : Gpu) : Prop where
  line : gpu.timing.videoCycles < (VideoMode.ofStatus gpu.status).lineLength
  inHBlank : gpu.timing.inHBlank =
    (decide (gpu.timing.videoCycles / 100 < gpu.display.lineStart) ||
      decide (gpu.display.lineEnd ≤ gpu.timing.videoCycles / 100))
  inVBlank : gpu.timing.inVBlank =
    (decide (gpu.timing.scanline < gpu.display.firstLine) ||
      decide (gpu.display.endLine ≤ gpu.timing.scanline))
  oddLine : gpu.status.oddLine = gpu.timing.oddLine gpu.status
  interlaceField : gpu.status.interlaceField =
    (!gpu.status.isInterlaced480 || gpu.timing.oddField)

/-- Over no cycles a beam that is inside its line stays where it is. -/
theorem DisplayTiming.advance_zero {timing : DisplayTiming} {status : Status}
    (hremainder : timing.remainder < 7)
    (hline : timing.videoCycles < (VideoMode.ofStatus status).lineLength)
    (display : DisplayGeometry) :
    timing.advance 0 status display = (timing.shownIn display, 0) := by
  have hlength := VideoMode.lineLength_range status
  have hscaled : (0 * 1100 + timing.remainder) / 7 = 0 ∧
      (0 * 1100 + timing.remainder) % 7 = timing.remainder := by omega
  have hsmall : timing.videoCycles < 18446744073709551616 := by omega
  have hfield : (timing.oddField != (status.isInterlaced480 && (0 % 2 == 1))) = timing.oddField := by
    simp
  simp only [advance, shownIn, hscaled.1, hscaled.2, Nat.add_zero, Nat.mod_eq_of_lt hsmall,
    Nat.div_eq_of_lt hline, Nat.mod_eq_of_lt hline, stepLines, hfield]

namespace Gpu

variable {gpu : Gpu} {irq : Interrupts}

theorem beamCurrent_tick (gpu : Gpu) (cycles : Nat) (irq : Interrupts) :
    (gpu.tick cycles irq).1.BeamCurrent where
  line := Nat.mod_lt _ (Nat.zero_lt_of_lt (VideoMode.lineLength_range gpu.status).1)
  inHBlank := rfl
  inVBlank := rfl
  oddLine := rfl
  interlaceField := rfl

/-- **A tick of no cycles changes nothing exactly where the beam is current.** -/
theorem tick_zero_eq_self_iff (hremainder : gpu.timing.remainder < 7) :
    (gpu.tick 0 irq).1 = gpu ↔ gpu.BeamCurrent := by
  constructor
  · intro hself
    rw [← hself]
    exact beamCurrent_tick gpu 0 irq
  · intro h
    have htiming : (gpu.timing.advance 0 gpu.status gpu.display).1 = gpu.timing := by
      rw [DisplayTiming.advance_zero hremainder h.line, DisplayTiming.shownIn, ← h.inHBlank,
        ← h.inVBlank]
    rw [tick, htiming, ← h.oddLine, ← h.interlaceField]

/-- What a tick of no cycles leaves alone. -/
def Steady (gpu : Gpu) : Prop :=
  (gpu.tick 0 Interrupts.quiet).1 = gpu

theorem steady_tick (gpu : Gpu) (cycles : Nat) (irq : Interrupts) :
    (gpu.tick cycles irq).1.Steady :=
  (tick_zero_eq_self_iff (Nat.mod_lt _ (by decide))).2 (beamCurrent_tick gpu cycles irq)

end Gpu

/-! ### What does not concern the beam -/

/-- Whether the command selects a mode or says when the picture is shown. -/
def Control.concernsBeam : Control → Bool
  | .reset | .displayMode _ | .lineRange .. | .frameRange .. => true
  | _ => false

/-- Whether the event is a word that does so. -/
def TraceEvent.concernsBeam : TraceEvent → Bool
  | .control w => (Control.ofWord? w).any Control.concernsBeam
  | _ => false

namespace Gpu

theorem control_tick (gpu : Gpu) (cycles : Nat) (irq : Interrupts) {command : Control}
    (h : command.concernsBeam = false) :
    ((gpu.control command).tick cycles irq).1 = (gpu.tick cycles irq).1.control command := by
  cases command with
  | reset | displayMode w | lineRange first last | frameRange first last =>
    exact Bool.noConfusion h
  | _ => rfl

namespace Steady

variable {gpu : Gpu} (h : gpu.Steady)

include h

theorem runAll (jobs : List Job) : (gpu.runAll jobs).Steady := by
  rw [Steady, ← runAll_tick, h]

theorem withFrontEnd (front : FrontEnd) : (gpu.withFrontEnd front).Steady := by
  show (gpu.tick 0 Interrupts.quiet).1.withFrontEnd front = gpu.withFrontEnd front
  rw [h]

theorem write (w : Word) : (gpu.write w).1.Steady := by
  rw [Gpu.write, writeBlock_eq]
  exact (h.runAll _).withFrontEnd _

theorem control {command : Control} (hcommand : command.concernsBeam = false) :
    (gpu.control command).refreshDmaRequest.Steady := by
  have hcontrol : ((gpu.control command).tick 0 Interrupts.quiet).1 = gpu.control command := by
    rw [control_tick gpu 0 Interrupts.quiet hcommand, h]
  exact congrArg refreshDmaRequest hcontrol

theorem writeControl {w : Word} (hw : TraceEvent.concernsBeam (.control w) = false) :
    (gpu.writeControl w).1.Steady := by
  rw [TraceEvent.concernsBeam] at hw
  rw [Gpu.writeControl]
  cases hcommand : Control.ofWord? w with
  | none => exact h
  | some command =>
    rw [hcommand] at hw
    exact h.control hw

theorem drainTo (surface : Surface) : (gpu.drainTo surface).1.Steady := by
  have hcomm := congrArg Prod.fst (drainTo_tick gpu 0 Interrupts.quiet surface)
  rw [h] at hcomm
  exact hcomm.symm

end Steady

end Gpu

/-! ### Through a trace -/

namespace Stage

variable {settings : Settings} {stage last : Stage} {events : List TraceEvent}

/-- The hardware after an event. -/
def gpuAfter (settings : Settings) (stage : Stage) : TraceEvent → Gpu
  | .draw w => (stage.gpu.write w).1
  | .control w => (stage.gpu.writeControl w).1
  | .tick requested =>
    ((stage.gpu.tick (Replay.cycles settings requested) stage.irq).1.drainTo stage.surface).1

theorem gpu_of_play {event : TraceEvent} (h : stage.play settings event = .ok last) :
    last.gpu = stage.gpuAfter settings event := by
  obtain ⟨gpu, irq, surface, ticks⟩ := stage
  have haccepted : ∀ outcome : Gpu × Option DeviceError,
      accepted irq surface ticks outcome = .ok last → last.gpu = outcome.1 := by
    rintro ⟨gpu, _ | e⟩ houtcome
    · rw [← Except.ok.inj houtcome]
    · exact nomatch houtcome
  cases event with
  | draw w => exact haccepted (gpu.write w) h
  | control w => exact haccepted (gpu.writeControl w) h
  | tick requested =>
    rw [← Except.ok.inj h]
    rfl

/-- What no event of a trace breaks holds at its end. -/
theorem of_playAll {P : Gpu → Prop}
    (hplay : ∀ event ∈ events, ∀ stage next : Stage, P stage.gpu →
      stage.play settings event = .ok next → P next.gpu)
    (hstage : P stage.gpu) (h : stage.playAll settings events = .ok last) : P last.gpu := by
  induction events generalizing stage with
  | nil =>
    rw [← Except.ok.inj h]
    exact hstage
  | cons event events ih =>
    rw [playAll] at h
    cases hnext : stage.play settings event with
    | error e =>
      rw [hnext] at h
      exact nomatch h
    | ok next =>
      rw [hnext] at h
      exact ih (fun later hlater => hplay later (List.mem_cons_of_mem event hlater))
        (hplay event List.mem_cons_self stage next hstage hnext) h

theorem playAll_append (before after : List TraceEvent) (stage : Stage) :
    stage.playAll settings (before ++ after) =
      (stage.playAll settings before).bind (playAll settings after) := by
  induction before generalizing stage with
  | nil => rfl
  | cons event before ih =>
    rw [List.cons_append, playAll, playAll]
    cases stage.play settings event with
    | error e => rfl
    | ok next => exact ih next

/-- The hardware of a trace has gone through operations only. -/
theorem reachable_of_playAll (hstage : stage.gpu.Reachable)
    (h : stage.playAll settings events = .ok last) : last.gpu.Reachable := by
  refine of_playAll (fun event _ stage next hgpu hplay => ?_) hstage h
  rw [gpu_of_play hplay]
  cases event with
  | draw w => exact hgpu.act (.write w)
  | control w => exact hgpu.act (.control w)
  | tick requested => exact (hgpu.act (.tick _ _)).present _

/-- A tick does not fail, and it brings everything about the beam up to date. -/
theorem exists_steady_of_tick (settings : Settings) (stage : Stage) (requested : Word) :
    ∃ next, stage.play settings (.tick requested) = .ok next ∧ next.gpu.Steady := by
  obtain ⟨gpu, irq, surface, ticks⟩ := stage
  exact ⟨_, rfl, (Gpu.steady_tick gpu (Replay.cycles settings requested) irq).drainTo surface⟩

/-- **After a tick the hardware is steady until an event concerns the beam.** -/
theorem steady_of_playAll (hstage : stage.gpu.Steady)
    (hevents : ∀ event ∈ events, event.concernsBeam = false)
    (h : stage.playAll settings events = .ok last) : last.gpu.Steady := by
  refine of_playAll (fun event hevent stage next hgpu hplay => ?_) hstage h
  rw [gpu_of_play hplay]
  cases event with
  | draw w => exact hgpu.write w
  | control w => exact hgpu.writeControl (hevents _ hevent)
  | tick requested => exact (Gpu.steady_tick stage.gpu _ stage.irq).drainTo stage.surface

end Stage

/-! ### Where the two ways agree -/

namespace Snapshot

variable {gpu other : Gpu} {dma : Dma}

/-- A dump tells the status and the beam. -/
theorem status_timing_of_dump_eq (hgpu : gpu.InRange) (hother : other.InRange)
    (h : dump gpu dma = dump other dma) :
    gpu.status = other.status ∧ gpu.timing = other.timing := by
  have hcapture : capture gpu dma = capture other dma := Except.ok.inj
    ((decode_dump gpu dma).symm.trans ((congrArg decode h).trans (decode_dump other dma)))
  have hregisters : registersOf gpu = registersOf other := by
    simp only [capture, mk.injEq] at hcapture
    exact hcapture.2.2.1
  constructor
  · have hword : gpu.status.word = other.status.word := by
      simp only [registersOf, Registers.mk.injEq] at hregisters
      exact hregisters.1
    rw [← Status.ofWord_word gpu.status, hword, Status.ofWord_word]
  · rw [← timingOf_registersOf hgpu.timing, hregisters, timingOf_registersOf hother.timing]

end Snapshot

namespace Replay

variable {settings : Settings} {events : List TraceEvent} {outcome : Outcome}

theorem exists_stage_of_direct (h : direct settings events = .ok outcome) :
    ∃ stage, Stage.playAll settings events (Stage.powerOn settings.view) = .ok stage ∧
      outcome.gpu = (stage.gpu.drainTo stage.surface).1 := by
  rw [direct] at h
  cases hstage : Stage.playAll settings events (Stage.powerOn settings.view) with
  | error e =>
    rw [hstage] at h
    exact nomatch h
  | ok stage =>
    rw [hstage] at h
    refine ⟨stage, rfl, ?_⟩
    rw [← Except.ok.inj h]
    rfl

theorem reachable_of_direct (h : direct settings events = .ok outcome) :
    outcome.gpu.Reachable := by
  obtain ⟨stage, hstage, hgpu⟩ := exists_stage_of_direct h
  rw [hgpu]
  exact (Stage.reachable_of_playAll .powerOn hstage).present stage.surface

/-- **When exactly a worker leaves what is left in one hand.**  A trace that can be replayed in one
hand can be replayed under a worker, with the same picture after as many ticks; the hardware is that
of one more tick of no cycles, and it is the same, and its dump is the same, if the beam was
current. -/
theorem hosted_agrees_iff (h : direct settings events = .ok outcome) :
    ∃ under, hosted settings events = .ok under ∧
      under.surface = outcome.surface ∧ under.ticks = outcome.ticks ∧
      under.gpu = (outcome.gpu.tick 0 Interrupts.quiet).1 ∧
      (under.gpu = outcome.gpu ↔ outcome.gpu.BeamCurrent) ∧
      ∀ dma, Snapshot.dump under.gpu dma = Snapshot.dump outcome.gpu dma ↔
        outcome.gpu.BeamCurrent := by
  have hreachable := reachable_of_direct h
  have hrange : outcome.gpu.InRange :=
    hreachable.of_stable Gpu.InRange.portStable Gpu.InRange.powerOn
  have hsame : (outcome.gpu.tick 0 Interrupts.quiet).1 = outcome.gpu ↔ outcome.gpu.BeamCurrent :=
    Gpu.tick_zero_eq_self_iff hrange.timing.remainder
  have hhosted : hosted settings events = .ok outcome.flushed := by
    rw [hosted_eq_map_direct, h]
    rfl
  refine ⟨outcome.flushed, hhosted, rfl, rfl, rfl, hsame, fun dma => ?_⟩
  constructor
  · intro hdump
    -- A tick changes only the status and the beam, and both can be read off the dump.
    obtain ⟨hstatus, htiming⟩ := Snapshot.status_timing_of_dump_eq
      (hrange.tick 0 Interrupts.quiet) hrange hdump
    refine hsame.1 ?_
    show { outcome.gpu with
      timing := (outcome.gpu.tick 0 Interrupts.quiet).1.timing
      status := (outcome.gpu.tick 0 Interrupts.quiet).1.status } = outcome.gpu
    rw [hstatus, htiming]
  · intro hcurrent
    exact congrArg (Snapshot.dump · dma) (hsame.2 hcurrent)

/-- After a frame of a mode without fields, a mode with fields is selected. -/
theorem hosted_agrees_iff_interlaced :
    ∃ outcome, direct Settings.standard [.tick 0, .control 0x08000027] = .ok outcome ∧
      ∃ under, hosted Settings.standard [.tick 0, .control 0x08000027] = .ok under ∧
        under.surface = outcome.surface ∧ under.ticks = outcome.ticks ∧
        under.gpu = (outcome.gpu.tick 0 Interrupts.quiet).1 ∧
        (under.gpu = outcome.gpu ↔ outcome.gpu.BeamCurrent) ∧
        ∀ dma, Snapshot.dump under.gpu dma = Snapshot.dump outcome.gpu dma ↔
          outcome.gpu.BeamCurrent :=
  ⟨_, rfl, hosted_agrees_iff rfl⟩

/-- The two ways do not always agree: the last tick shows the field of a mode that was selected after
the last tick of the trace. -/
theorem not_forall_hosted_agrees :
    ¬ ∀ (settings : Settings) (events : List TraceEvent) (outcome : Outcome),
      direct settings events = .ok outcome →
      ∃ under, hosted settings events = .ok under ∧ under.surface = outcome.surface ∧
        under.ticks = outcome.ticks ∧ under.gpu = outcome.gpu := by
  intro hall
  have hdirect : (direct Settings.standard [.tick 0, .control 0x08000027]).toOption.map
      (·.gpu.status.interlaceField) = some true := by
    decide +kernel
  have hhosted : (hosted Settings.standard [.tick 0, .control 0x08000027]).toOption.map
      (·.gpu.status.interlaceField) = some false := by
    decide +kernel
  cases houtcome : direct Settings.standard [.tick 0, .control 0x08000027] with
  | error e =>
    rw [houtcome] at hdirect
    exact nomatch hdirect
  | ok outcome =>
    obtain ⟨under, hunder, -, -, hgpu⟩ := hall Settings.standard _ outcome houtcome
    rw [houtcome] at hdirect
    rw [hunder] at hhosted
    have hfield : outcome.gpu.status.interlaceField = false := by
      rw [← hgpu]
      exact Option.some.inj hhosted
    exact Bool.noConfusion ((Option.some.inj hdirect).symm.trans hfield)

/-- **The two ways agree if nothing after the last tick concerns the beam**, and fail alike. -/
theorem hosted_eq_direct_of_tick (before after : List TraceEvent) (requested : Word)
    (hafter : ∀ event ∈ after, event.concernsBeam = false) :
    hosted settings (before ++ .tick requested :: after) =
      direct settings (before ++ .tick requested :: after) := by
  rw [hosted_eq_map_direct]
  cases houtcome : direct settings (before ++ .tick requested :: after) with
  | error e => rfl
  | ok outcome =>
    obtain ⟨last, hplayed, hgpu⟩ := exists_stage_of_direct houtcome
    have hlast : last.gpu.Steady := by
      rw [Stage.playAll_append] at hplayed
      cases hbefore : Stage.playAll settings before (Stage.powerOn settings.view) with
      | error e =>
        rw [hbefore] at hplayed
        exact nomatch hplayed
      | ok stage =>
        obtain ⟨next, hnext, hsteady⟩ := Stage.exists_steady_of_tick settings stage requested
        rw [hbefore] at hplayed
        simp only [Except.bind, Stage.playAll, hnext] at hplayed
        exact Stage.steady_of_playAll hsteady hafter hplayed
    have hsteady : outcome.gpu.Steady := by
      rw [hgpu]
      exact hlast.drainTo last.surface
    show Except.ok { outcome with gpu := (outcome.gpu.tick 0 Interrupts.quiet).1 } = _
    rw [hsteady]

end Replay

end ConsoleVideo
