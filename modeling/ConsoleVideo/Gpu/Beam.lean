import ConsoleVideo.Gpu.Access
import ConsoleVideo.Interrupts

/-!
# The beam

* `Gpu.tick` — moves the beam on, shows its line and field in the status, and raises interrupts.
-/

namespace ConsoleVideo.Gpu

/-- What the timers see. -/
def timingSample (gpu : Gpu) : TimingSample :=
  gpu.timing.sample gpu.status

/-- The interrupt lines that a tick raises: always that of the display, and that of drawing while
a command asks for it. -/
def tickLines (status : Status) : UInt16 :=
  if status.interrupt then Interrupts.vblank ||| Interrupts.drawing else Interrupts.vblank

/-- Moves the beam on by `cycles` processor cycles. -/
def tick (gpu : Gpu) (cycles : Nat) (irq : Interrupts) : Gpu × Interrupts × TimingSample :=
  let timing := (gpu.timing.advance cycles gpu.status gpu.display).1
  let status := { gpu.status with
    oddLine := timing.oddLine gpu.status
    interlaceField := !gpu.status.isInterlaced480 || timing.oddField }
  ({ gpu with timing := timing, status := status }, irq.request (tickLines status),
    timing.sample status)

end ConsoleVideo.Gpu
