import ConsoleVideo.Gpu.Access

/-!
# The control register

Control commands are single words that act at once, past the waiting jobs.

* `Control` — the commands with their operands; `Control.ofWord?` reads them;
* `Gpu.control` — what each of them does;
* `Gpu.writeControl` — the control register, which refuses words without a meaning.
-/

namespace ConsoleVideo

/-- A control command. -/
inductive Control where
  | reset
  | resetCommands
  | acknowledgeInterrupt
  | displayDisable (disabled : Bool)
  | dmaDirection (direction : DmaDirection)
  | displayStart (x y : Nat)
  | lineRange (first last : Nat)
  | frameRange (first last : Nat)
  | displayMode (value : Word)
  | allowTextureDisable (allowed : Bool)
  /-- Puts a piece of information where the readback register shows it. -/
  | inform (index : Nat)
  deriving DecidableEq

/-- The command of a word, selected by its high byte. -/
def Control.ofWord? (w : Word) : Option Control :=
  match w.field 24 8 with
  | 0x00 => some reset
  | 0x01 => some resetCommands
  | 0x02 => some acknowledgeInterrupt
  | 0x03 => some (displayDisable (w.bit 0))
  | 0x04 => some (dmaDirection (DmaDirection.ofCode (w.field 0 2)))
  | 0x05 => some (displayStart (w.field 0 10) (w.field 10 9))
  | 0x06 => some (lineRange (w.field 0 12) (w.field 12 12))
  | 0x07 => some (frameRange (w.field 0 10) (w.field 10 10))
  | 0x08 => some (displayMode w)
  | 0x09 => some (allowTextureDisable (w.bit 0))
  | number => if 0x10 ≤ number ∧ number ≤ 0x1F then some (inform (w.field 0 3)) else none

namespace Gpu

/-- Drops the waiting jobs and the command in progress. -/
def resetCommands (gpu : Gpu) : Gpu :=
  { gpu with
    queue := .empty
    decoder := .idle
    status := { gpu.status with readyCommand := true } }

/-- Back to the settings of the start; the picture memory, the beam and the last word read stay. -/
def reset (gpu : Gpu) : Gpu :=
  { gpu with
    queue := JobQueue.empty.pushResize
    decoder := .idle
    status := Status.reset
    display := DisplayGeometry.reset
    environment := Environment.reset
    readback := [] }

/-- The display mode that a word selects; the surface is to follow. -/
def setDisplayMode (gpu : Gpu) (w : Word) : Gpu :=
  { gpu with
    status := { gpu.status with
      columns := ⟨w.field 0 2, w.field_lt 0 2⟩
      doubleRows := w.bit 2
      pal := w.bit 3
      deepDisplay := w.bit 4
      interlace := w.bit 5
      columns368 := w.bit 6
      reverse := w.bit 7 }
    queue := gpu.queue.pushResize }

/-- The piece of information with a number, if there is one. -/
def information? (gpu : Gpu) (index : Nat) : Option Word :=
  match index with
  | 2 => some gpu.environment.window.word
  | 3 => some gpu.environment.area.topLeftWord
  | 4 => some gpu.environment.area.bottomRightWord
  | 5 => some gpu.environment.offset.word
  | 7 => some 2
  | _ => none

/-- Carries out a control command. -/
def control (gpu : Gpu) (command : Control) : Gpu :=
  match command with
  | .reset => gpu.reset
  | .resetCommands => gpu.resetCommands
  | .acknowledgeInterrupt => { gpu with status := { gpu.status with interrupt := false } }
  | .displayDisable disabled =>
    { gpu with status := { gpu.status with displayDisabled := disabled } }
  | .dmaDirection direction => { gpu with status := { gpu.status with direction := direction } }
  | .displayStart x y => { gpu with display := { gpu.display with startX := x, startY := y } }
  | .lineRange first last =>
    { gpu with display := { gpu.display with lineStart := first, lineEnd := last } }
  | .frameRange first last =>
    { gpu with display := { gpu.display with firstLine := first, endLine := last } }
  | .displayMode w => gpu.setDisplayMode w
  | .allowTextureDisable allowed =>
    { gpu with environment := { gpu.environment with textureDisableAllowed := allowed } }
  | .inform index => { gpu with latch := (gpu.information? index).getD gpu.latch }

/-- Writes a word to the control register. -/
def writeControl (gpu : Gpu) (w : Word) : Gpu × Option DeviceError :=
  match Control.ofWord? w with
  | none => (gpu, some (.unknownControl w))
  | some command => ((gpu.control command).refreshDmaRequest, none)

end Gpu

end ConsoleVideo
