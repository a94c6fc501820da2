import ConsoleVideo.Dma.Basic
import ConsoleVideo.Gpu.Basic
import ConsoleVideo.Snapshot.Bytes

/-!
# Saved states

A saved state holds what the hardware and the table channel need to go on later; commands in flight
and words that wait to be read back are not part of it.

* `Registers` — the settings and counters of the hardware, each in the width it is saved in;
* `Snapshot` — these with the picture memory and the table channel;
* `Snapshot.encode` and `Snapshot.decode` — a saved state as bytes;
* `Snapshot.capture` and `Snapshot.apply` — from and to the hardware.  Applying either succeeds as
  a whole or changes nothing.
-/

namespace ConsoleVideo

/-- The settings and counters of the hardware. -/
structure Registers where
  status : Word
  startX : Word
  startY : Word
  lineStart : Word
  lineEnd : Word
  firstLine : Word
  endLine : Word
  left : Int32
  top : Int32
  right : Int32
  bottom : Int32
  offsetX : Int32
  offsetY : Int32
  window : Word
  flipX : Bool
  flipY : Bool
  textureDisableAllowed : Bool
  videoCycles : UInt64
  remainder : Word
  scanline : Word
  oddField : Bool
  inHBlank : Bool
  inVBlank : Bool
  latch : Word
  deriving DecidableEq

/-- A saved state. -/
structure Snapshot where
  deep : Array Deep
  native : Array Native
  registers : Registers
  /-- The registers of the table channel. -/
  table : DmaChannel
  deriving DecidableEq

namespace Snapshot

/-! ### Bytes -/

def putWord (w : Word) (rest : List UInt8) : List UInt8 :=
  putNumber 4 w.toNat rest

def takeWord : Taker Word :=
  UInt32.ofNat <$> takeNumber 4

def putSigned (n : Int32) (rest : List UInt8) : List UInt8 :=
  putWord n.toUInt32 rest

def takeSigned : Taker Int32 :=
  UInt32.toInt32 <$> takeWord

/-- The registers in the order of the format, before `rest`. -/
def putRegisters (r : Registers) (rest : List UInt8) : List UInt8 :=
  putWord r.status <|
  putWord r.startX <| putWord r.startY <|
  putWord r.lineStart <| putWord r.lineEnd <| putWord r.firstLine <| putWord r.endLine <|
  putSigned r.left <| putSigned r.top <| putSigned r.right <| putSigned r.bottom <|
  putSigned r.offsetX <| putSigned r.offsetY <|
  putWord r.window <|
  putFlag r.flipX <| putFlag r.flipY <|
  putFlag r.textureDisableAllowed <|
  putNumber 8 r.videoCycles.toNat <|
  putWord r.remainder <| putWord r.scanline <|
  putFlag r.oddField <|
  putFlag r.inHBlank <| putFlag r.inVBlank <|
  putWord r.latch rest

def takeRegisters : Taker Registers := do
  let status ← takeWord
  let startX ← takeWord
  let startY ← takeWord
  let lineStart ← takeWord
  let lineEnd ← takeWord
  let firstLine ← takeWord
  let endLine ← takeWord
  let left ← takeSigned
  let top ← takeSigned
  let right ← takeSigned
  let bottom ← takeSigned
  let offsetX ← takeSigned
  let offsetY ← takeSigned
  let window ← takeWord
  let flipX ← takeFlag
  let flipY ← takeFlag
  let textureDisableAllowed ← takeFlag
  let videoCycles ← takeNumber 8
  let remainder ← takeWord
  let scanline ← takeWord
  let oddField ← takeFlag
  let inHBlank ← takeFlag
  let inVBlank ← takeFlag
  let latch ← takeWord
  pure {
    status, startX, startY, lineStart, lineEnd, firstLine, endLine, left, top, right, bottom,
    offsetX, offsetY, window, flipX, flipY, textureDisableAllowed,
    videoCycles := UInt64.ofNat videoCycles, remainder, scanline, oddField, inHBlank, inVBlank,
    latch }

/-- The saved state as bytes. -/
def encode (s : Snapshot) : List UInt8 :=
  putArray 4 UInt32.toNat s.deep <|
  putArray 2 UInt16.toNat s.native <|
  putRegisters s.registers <|
  putWord s.table.address <| putWord s.table.block <| putWord s.table.control []

/-- A saved state from the front of a sequence of bytes. -/
def take : Taker Snapshot := do
  let deep ← takeArray 4 UInt32.ofNat
  let native ← takeArray 2 UInt16.ofNat
  let registers ← takeRegisters
  let address ← takeWord
  let block ← takeWord
  let control ← takeWord
  pure { deep, native, registers, table := { address, block, control } }

/-- The saved state that a sequence of bytes is, with nothing left over. -/
def decode (bytes : List UInt8) : Except SnapshotError Snapshot := do
  let (s, rest) ← take bytes
  if rest.isEmpty then pure s else throw (.trailing rest.length)

/-! ### Hardware -/

/-- The settings and counters of the hardware. -/
def registersOf (gpu : Gpu) : Registers where
  status := gpu.status.word
  startX := UInt32.ofNat gpu.display.startX
  startY := UInt32.ofNat gpu.display.startY
  lineStart := UInt32.ofNat gpu.display.lineStart
  lineEnd := UInt32.ofNat gpu.display.lineEnd
  firstLine := UInt32.ofNat gpu.display.firstLine
  endLine := UInt32.ofNat gpu.display.endLine
  left := Int32.ofInt gpu.environment.area.left
  top := Int32.ofInt gpu.environment.area.top
  right := Int32.ofInt gpu.environment.area.right
  bottom := Int32.ofInt gpu.environment.area.bottom
  offsetX := Int32.ofInt gpu.environment.offset.x
  offsetY := Int32.ofInt gpu.environment.offset.y
  window := gpu.environment.window.word
  flipX := gpu.environment.flipX
  flipY := gpu.environment.flipY
  textureDisableAllowed := gpu.environment.textureDisableAllowed
  videoCycles := UInt64.ofNat gpu.timing.videoCycles
  remainder := UInt32.ofNat gpu.timing.remainder
  scanline := UInt32.ofNat gpu.timing.scanline
  oddField := gpu.timing.oddField
  inHBlank := gpu.timing.inHBlank
  inVBlank := gpu.timing.inVBlank
  latch := gpu.latch

/-- What is saved of the hardware and the table channel. -/
def capture (gpu : Gpu) (dma : Dma) : Snapshot where
  deep := gpu.vram.deep.toArray
  native := gpu.vram.native.toArray
  registers := registersOf gpu
  table := dma.table

/-- The environment that was saved. -/
def environmentOf (r : Registers) : Environment where
  area := ⟨r.left.toInt, r.top.toInt, r.right.toInt, r.bottom.toInt⟩
  offset := ⟨r.offsetX.toInt, r.offsetY.toInt⟩
  window := TextureWindow.ofWord r.window
  flipX := r.flipX
  flipY := r.flipY
  textureDisableAllowed := r.textureDisableAllowed

/-- The display geometry that was saved. -/
def displayOf (r : Registers) : DisplayGeometry where
  startX := r.startX.toNat
  startY := r.startY.toNat
  lineStart := r.lineStart.toNat
  lineEnd := r.lineEnd.toNat
  firstLine := r.firstLine.toNat
  endLine := r.endLine.toNat

/-- The beam that was saved. -/
def timingOf (r : Registers) : DisplayTiming where
  videoCycles := r.videoCycles.toNat
  remainder := r.remainder.toNat
  scanline := r.scanline.toNat
  oddField := r.oddField
  inHBlank := r.inHBlank
  inVBlank := r.inVBlank

/-- The hardware in a saved state.  Commands in flight are not overwritten. -/
def restore (s : Snapshot) (gpu : Gpu) : Except Error Gpu :=
  if 0 < gpu.queue.size || !gpu.decoder.isIdle then
    .error (.device (.commandsPending gpu.queue.size))
  else match Vram.ofArrays? s.deep s.native with
    | none => .error (.snapshot .pictureSize)
    | some vram => .ok { gpu with
        vram := vram
        status := Status.ofWord s.registers.status
        environment := environmentOf s.registers
        display := displayOf s.registers
        readback := []
        latch := s.registers.latch
        timing := timingOf s.registers }

/-- The hardware and the controller in a saved state. -/
def apply (s : Snapshot) (gpu : Gpu) (dma : Dma) : Except Error (Gpu × Dma) :=
  (s.restore gpu).map fun gpu =>
    (gpu, dma.restoreTable s.table.address s.table.block s.table.control)

/-- The bytes of the current state. -/
def dump (gpu : Gpu) (dma : Dma) : List UInt8 :=
  (capture gpu dma).encode

/-- The hardware and the controller in the state that was dumped into bytes. -/
def load (bytes : List UInt8) (gpu : Gpu) (dma : Dma) : Except Error (Gpu × Dma) :=
  match decode bytes with
  | .error e => .error (.snapshot e)
  | .ok s => s.apply gpu dma

end Snapshot

end ConsoleVideo
