import ConsoleVideo.Settings
import ConsoleVideo.Trace
import ConsoleVideo.Worker

/-!
# Replaying a trace

A trace is replayed on hardware at its start, in one of two ways.

* `Replay.cycles` — how long a tick lasts;
* `Stage` and `Stage.play` — hardware, interrupts and surface in one hand: a tick moves the beam,
  carries out the waiting jobs and composes the surface;
* `Hosted` and `Hosted.play` — the same under a worker, which is told each tick;
* `Replay.direct`, `Replay.hosted` — the two ways over a whole trace, ended so that nothing waits;
* `Replay.run` — the way that the settings ask for.
-/

namespace ConsoleVideo

/-- What a replayed trace leaves behind. -/
structure Outcome where
  gpu : Gpu
  surface : Surface
  /-- How many ticks the trace held. -/
  ticks : Nat

namespace Replay

/-- How many processor cycles a tick lasts; one of zero cycles lasts a frame. -/
def cycles (settings : Settings) (requested : Word) : Nat :=
  if requested = 0 then settings.frameTicks.toNat else requested.toNat

end Replay

/-! ### In one hand -/

/-- Hardware, interrupts and surface in one hand. -/
structure Stage where
  gpu : Gpu
  irq : Interrupts
  surface : Surface
  ticks : Nat

namespace Stage

/-- Hardware at its start. -/
def powerOn (view : View) : Stage where
  gpu := Gpu.powerOn
  irq := Interrupts.quiet
  surface := Surface.ofView view
  ticks := 0

/-- A word that a register has taken, or why it has not. -/
def accepted (irq : Interrupts) (surface : Surface) (ticks : Nat) :
    Gpu × Option DeviceError → Except DeviceError Stage
  | (gpu, none) => .ok ⟨gpu, irq, surface, ticks⟩
  | (_, some e) => .error e

/-- Carries out one event. -/
def play (settings : Settings) (event : TraceEvent) : Stage → Except DeviceError Stage
  | ⟨gpu, irq, surface, ticks⟩ =>
    match event with
    | .draw w => accepted irq surface ticks (gpu.write w)
    | .control w => accepted irq surface ticks (gpu.writeControl w)
    | .tick requested =>
      match gpu.tick (Replay.cycles settings requested) irq with
      | (gpu, irq, _) =>
        match gpu.drainTo surface with
        | (gpu, surface) => .ok ⟨gpu, irq, gpu.showOn surface, ticks + 1⟩

/-- Carries out events in their order, up to the first that fails. -/
def playAll (settings : Settings) : List TraceEvent → Stage → Except DeviceError Stage
  | [], stage => .ok stage
  | event :: events, stage =>
    match stage.play settings event with
    | .error e => .error e
    | .ok stage => stage.playAll settings events

/-- What is left after the waiting jobs have been carried out. -/
def finish : Stage → Outcome
  | ⟨gpu, _, surface, ticks⟩ =>
    match gpu.drainTo surface with
    | (gpu, surface) => ⟨gpu, gpu.showOn surface, ticks⟩

end Stage

/-! ### Under a worker -/

/-- A worker, and how many ticks it has been told. -/
structure Hosted where
  worker : Worker
  ticks : Nat

namespace Hosted

/-- A word that a register of the worker's hardware has taken, or why it has not. -/
def accepted (irq : Interrupts) (surface : Surface) (running : Bool) (ticks : Nat) :
    Gpu × Option DeviceError → Except DeviceError Hosted
  | (gpu, none) => .ok ⟨⟨gpu, irq, surface, running⟩, ticks⟩
  | (_, some e) => .error e

/-- Carries out one event; a tick is left to the worker. -/
def play (settings : Settings) (event : TraceEvent) : Hosted → Except DeviceError Hosted
  | ⟨⟨gpu, irq, surface, running⟩, ticks⟩ =>
    match event with
    | .draw w => accepted irq surface running ticks (gpu.write w)
    | .control w => accepted irq surface running ticks (gpu.writeControl w)
    | .tick requested =>
      match Worker.tick ⟨gpu, irq, surface, running⟩ (Replay.cycles settings requested) with
      | (worker, .ok _) => .ok ⟨worker, ticks + 1⟩
      | (_, .error e) => .error e

/-- Carries out events in their order, up to the first that fails. -/
def playAll (settings : Settings) : List TraceEvent → Hosted → Except DeviceError Hosted
  | [], hosted => .ok hosted
  | event :: events, hosted =>
    match hosted.play settings event with
    | .error e => .error e
    | .ok hosted => hosted.playAll settings events

/-- What is left after one more tick of no cycles, with which the worker carries out the waiting
jobs. -/
def finish : Hosted → Except DeviceError Outcome
  | ⟨worker, ticks⟩ =>
    match worker.tick 0 with
    | (worker, .ok _) => .ok ⟨worker.gpu, worker.surface, ticks⟩
    | (_, .error e) => .error e

end Hosted

/-! ### Whole traces -/

namespace Replay

/-- A trace replayed in one hand. -/
def direct (settings : Settings) (events : List TraceEvent) : Except DeviceError Outcome :=
  (Stage.playAll settings events (Stage.powerOn settings.view)).map Stage.finish

/-- A trace replayed under a worker. -/
def hosted (settings : Settings) (events : List TraceEvent) : Except DeviceError Outcome :=
  match Hosted.playAll settings events ⟨Worker.powerOn settings.view, 0⟩ with
  | .error e => .error e
  | .ok stage => stage.finish

/-- A trace replayed as the settings ask. -/
def run (settings : Settings) (events : List TraceEvent) : Except DeviceError Outcome :=
  if settings.threaded then hosted settings events else direct settings events

end Replay

end ConsoleVideo
