import ConsoleVideo.Bus
import ConsoleVideo.Dma.Basic
import ConsoleVideo.Gpu.Control
import ConsoleVideo.Interrupts

/-!
# The devices of the machine

What the processor reaches at which address:

* `Gpu.device` — the command and the control register, whole words only;
* `Dma.device` — the registers of the DMA controller;
* `Interrupts.device` — requests and enabled lines.
-/

namespace ConsoleVideo

/-- An error of the hardware as an error of an access. -/
def answered {σ : Type} : σ × Option DeviceError → σ × Option Error
  | (s, e) => (s, e.map .device)

/-- Offset 0 reads back and takes drawing commands, offset 4 shows the status and takes control
commands. -/
def Gpu.device : Device Gpu where
  name := "GPU"
  first := 0x1F801810
  last := 0x1F801817
  wordsOnly := true
  read := fun gpu offset =>
    if offset = 0 then
      match gpu.read with
      | (gpu, w) => (gpu, .ok w)
    else if offset = 4 then (gpu, .ok gpu.status.word)
    else (gpu, .error (.device (.misaligned offset 4)))
  write := fun gpu offset w =>
    if offset = 0 then answered (gpu.write w)
    else if offset = 4 then answered (gpu.writeControl w)
    else (gpu, some (.device (.misaligned offset 4)))

/-- From the address register of channel 2 to the interrupt register. -/
def Dma.device : Device Dma where
  name := "DMA"
  first := Dma.base
  last := Dma.base + 0x57
  wordsOnly := false
  read := fun dma offset =>
    match Dma.register? offset with
    | .error e => (dma, .error e)
    | .ok register => (dma, (dma.get register).mapError .device)
  write := fun dma offset w =>
    match Dma.register? offset with
    | .error e => (dma, some e)
    | .ok register => answered (dma.put register w)

/-- Offset 0 has the requests, offset 4 the enabled lines. -/
def Interrupts.device : Device Interrupts where
  name := "Interrupt Controller"
  first := 0x1F801070
  last := 0x1F801077
  wordsOnly := false
  read := fun irq offset =>
    if offset = 0 then (irq, .ok irq.status.toUInt32)
    else if offset = 4 then (irq, .ok irq.mask.toUInt32)
    else (irq, .error (.unmapped (0x1F801070 + offset)))
  write := fun irq offset w =>
    if offset = 0 then (irq.writeStatus w, none)
    else if offset = 4 then (irq.writeMask w, none)
    else (irq, some (.unmapped (0x1F801070 + offset)))

end ConsoleVideo
