import ConsoleVideo.Gpu.Beam
import ConsoleVideo.Gpu.Control

/-!
# The display worker

A worker owns the surface.  It takes commands from a queue, one after the other, and answers each
tick with a sample.

* `WorkerCommand` — what it is told;
* `Worker` — what it works on, with `Worker.powerOn`;
* `Worker.handle` — one command: the beam moves, the waiting jobs are carried out, the surface is
  composed anew;
* `Worker.run` — a queue of commands, with the samples in the order of the ticks;
* `Worker.tick` — one tick and its answer, which a stopped worker does not give.
-/

namespace ConsoleVideo

/-- What the worker is told. -/
inductive WorkerCommand where
  /-- Move the beam on by this many processor cycles. -/
  | tick (cycles : Nat)
  | stop
  deriving DecidableEq

/-- What the worker works on. -/
structure Worker where
  gpu : Gpu
  irq : Interrupts
  surface : Surface
  running : Bool

namespace Worker

/-- A running worker on hardware at its start. -/
def powerOn (view : View) : Worker where
  gpu := Gpu.powerOn
  irq := Interrupts.quiet
  surface := Surface.ofView view
  running := true

/-- What a tick does to the hardware, the interrupts and the surface. -/
def advance (worker : Worker) (cycles : Nat) : Worker × TimingSample :=
  match worker.gpu.tick cycles worker.irq with
  | (gpu, irq, sample) =>
    match gpu.drainTo worker.surface with
    | (gpu, surface) =>
      ({ worker with gpu := gpu, irq := irq, surface := gpu.showOn surface }, sample)

/-- Carries out one command; a tick is answered with a sample. -/
def handle (worker : Worker) (command : WorkerCommand) : Worker × Option TimingSample :=
  if worker.running then
    match command with
    | .tick cycles =>
      match worker.advance cycles with
      | (worker, sample) => (worker, some sample)
    | .stop => ({ worker with running := false }, none)
  else (worker, none)

/-- Carries out commands in their order; also gives the answers in that order. -/
def run (worker : Worker) : List WorkerCommand → Worker × List TimingSample
  | [] => (worker, [])
  | command :: commands =>
    match worker.handle command with
    | (worker, sample) =>
      match worker.run commands with
      | (worker, samples) => (worker, sample.toList ++ samples)

/-- One tick and its answer. -/
def tick (worker : Worker) (cycles : Nat) : Worker × Except DeviceError TimingSample :=
  match worker.handle (.tick cycles) with
  | (worker, some sample) => (worker, .ok sample)
  | (worker, none) => (worker, .error .workerStopped)

end Worker

end ConsoleVideo
