import ConsoleVideo.Worker

/-!
# Calls to the worker

The worker runs beside those who call it.  A call puts a tick into a queue that takes any number of
them, and then waits for a sample; the samples come back through a channel that holds one.  Neither the
tick nor the sample says whose it is.

* `Exchange` — the worker, what is under way in both directions, the calls that wait, and what has
  happened so far;
* `Exchange.Act` — one step of a caller, of the worker, or of whoever else works on the hardware;
* `Exchange.step?` — what a step does, if it need not wait; `Exchange.run?` — steps one after the other.

To stop the worker one has to be the last to hold it, so that no call is in progress then; stopping is
not a step here.
-/

namespace ConsoleVideo

/-- A call that waits for its sample. -/
structure Call where
  caller : Nat
  /-- How many calls were made before, by anyone. -/
  number : Nat
  deriving DecidableEq

/-- A worker and its callers.  The last three fields are for the record. -/
structure Exchange where
  worker : Worker
  /-- The ticks that the worker has not taken yet, by their cycles, oldest first. -/
  commands : List Nat
  /-- The sample that the worker holds until there is room for it. -/
  inHand : Option TimingSample
  /-- The sample that the next caller gets. -/
  channel : Option TimingSample
  waiting : List Call
  /-- The cycles of all calls so far. -/
  asked : List Nat
  /-- The ticks that the worker has carried out, with their samples. -/
  made : List (Nat × TimingSample)
  /-- The numbers of the calls that are complete, with the samples that they gave. -/
  returned : List (Nat × TimingSample)

namespace Exchange

/-- A worker that starts on shared hardware, before the first call. -/
def start (gpu : Gpu) (irq : Interrupts) (view : View) : Exchange where
  worker := { gpu := gpu, irq := irq, surface := Surface.ofView view, running := true }
  commands := []
  inHand := none
  channel := none
  waiting := []
  asked := []
  made := []
  returned := []

/-- A step. -/
inductive Act where
  /-- A caller sends a tick. -/
  | call (caller cycles : Nat)
  /-- The worker carries out the oldest tick. -/
  | take
  /-- The worker puts its sample into the channel. -/
  | deliver
  /-- A caller receives a sample, which completes the call. -/
  | receive (caller : Nat)
  /-- Others work on the hardware, the interrupts or the surface. -/
  | others (gpu : Gpu) (irq : Interrupts) (surface : Surface)

/-- The caller whose step it is, if it is one of a caller. -/
def Act.caller? : Act → Option Nat
  | call caller _ | receive caller => some caller
  | _ => none

/-- The call that a caller waits for. -/
def callOf? (exchange : Exchange) (caller : Nat) : Option Call :=
  exchange.waiting.find? fun call => call.caller == caller

/-- What a step does; none if it has to wait. -/
def step? (exchange : Exchange) : Act → Option Exchange
  | .call caller cycles =>
    match exchange.callOf? caller with
    | some _ => none
    | none => some { exchange with
        commands := exchange.commands ++ [cycles]
        waiting := exchange.waiting ++ [⟨caller, exchange.asked.length⟩]
        asked := exchange.asked ++ [cycles] }
  | .take =>
    match exchange.inHand, exchange.commands with
    | none, cycles :: commands =>
      match exchange.worker.handle (.tick cycles) with
      | (worker, some sample) => some { exchange with
          worker := worker
          commands := commands
          inHand := some sample
          made := exchange.made ++ [(cycles, sample)] }
      | (_, none) => none
    | _, _ => none
  | .deliver =>
    match exchange.inHand, exchange.channel with
    | some sample, none => some { exchange with inHand := none, channel := some sample }
    | _, _ => none
  | .receive caller =>
    match exchange.callOf? caller, exchange.channel with
    | some call, some sample => some { exchange with
        channel := none
        waiting := exchange.waiting.erase call
        returned := exchange.returned ++ [(call.number, sample)] }
    | _, _ => none
  | .others gpu irq surface => some { exchange with
      worker := { exchange.worker with gpu := gpu, irq := irq, surface := surface } }

/-- Steps one after the other; none if one of them has to wait. -/
def run? (exchange : Exchange) : List Act → Option Exchange
  | [] => some exchange
  | act :: acts => (exchange.step? act).bind fun next => next.run? acts

end Exchange

end ConsoleVideo
