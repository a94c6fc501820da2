import ConsoleVideo.Word

/-!
# The interrupt controller

Devices request interrupts on numbered lines; software enables lines and acknowledges requests.

* `Interrupts` — the requested and the enabled lines;
* `Interrupts.request`, `acknowledge`, `writeStatus`, `writeMask` — what devices and software do;
* `Interrupts.pending` — whether the processor is interrupted.
-/

namespace ConsoleVideo

/-- A bit for each interrupt line. -/
structure Interrupts where
  /-- The requested lines. -/
  status : UInt16
  /-- The enabled lines. -/
  mask : UInt16
  deriving DecidableEq

namespace Interrupts

/-- The line raised at every display tick. -/
def vblank : UInt16 := 0x0001

/-- The line that drawing commands raise. -/
def drawing : UInt16 := 0x0002

/-- The line raised by finished DMA transfers. -/
def dma : UInt16 := 0x0008

/-- No line requested or enabled. -/
def quiet : Interrupts := ⟨0, 0⟩

def request (irq : Interrupts) (lines : UInt16) : Interrupts :=
  { irq with status := irq.status ||| lines }

def acknowledge (irq : Interrupts) (lines : UInt16) : Interrupts :=
  { irq with status := irq.status &&& ~~~lines }

/-- Keeps the requests whose bits are written as 1. -/
def writeStatus (irq : Interrupts) (w : Word) : Interrupts :=
  { irq with status := irq.status &&& w.toUInt16 }

def writeMask (irq : Interrupts) (w : Word) : Interrupts :=
  { irq with mask := w.toUInt16 }

/-- Whether a requested line is enabled. -/
def pending (irq : Interrupts) : Bool :=
  irq.status &&& irq.mask != 0

end Interrupts

end ConsoleVideo
