import ConsoleVideo.Error

/-!
# The DMA controller

Two channels move words without the processor: channel 2 between the main memory and the video
hardware, channel 6 clears ordering tables.

* `DmaChannel` — the three registers of a channel and what their bits say;
* `Dma` — the controller; `Dma.powerOn` is how it starts;
* `DmaRegister` — the registers by name; `Dma.get` and `Dma.put` read and write them;
* `Dma.complete` — flags a finished transfer.
-/

namespace ConsoleVideo

/-- The registers of a channel. -/
structure DmaChannel where
  address : Word
  /-- Words per block in the low half, blocks in the high half. -/
  block : Word
  control : Word
  deriving DecidableEq

namespace DmaChannel

/-- How a transfer is cut into blocks. -/
inductive SyncMode where
  /-- All at once, on a trigger. -/
  | manual
  /-- Block by block. -/
  | blocks
  /-- Along a linked list. -/
  | list
  | unknown
  deriving DecidableEq

def isBusy (channel : DmaChannel) : Bool :=
  channel.control.bit 24

def isTriggered (channel : DmaChannel) : Bool :=
  channel.control.bit 28

/-- Words go from the main memory to the device. -/
def fromRam (channel : DmaChannel) : Bool :=
  channel.control.bit 0

/-- Addresses count down. -/
def backward (channel : DmaChannel) : Bool :=
  channel.control.bit 1

def syncMode (channel : DmaChannel) : SyncMode :=
  match channel.control.field 9 2 with
  | 0 => .manual
  | 1 => .blocks
  | 2 => .list
  | _ => .unknown

/-- Whether the channel is to run now. -/
def isReady (channel : DmaChannel) : Bool :=
  channel.isBusy && (channel.syncMode != .manual || channel.isTriggered)

/-- Words in a block; zero means the most there can be. -/
def blockSize (channel : DmaChannel) : Nat :=
  match channel.block.field 0 16 with
  | 0 => 65536
  | n => n

def blockCount (channel : DmaChannel) : Nat :=
  channel.block.field 16 16

/-- The distance from one word to the next. -/
def step (channel : DmaChannel) : Word :=
  if channel.backward then 0 - 4 else 4

/-- Clears the busy and the trigger bit. -/
def deactivate (channel : DmaChannel) : DmaChannel :=
  { channel with control := channel.control &&& ~~~0x11000000 }

end DmaChannel

/-- The controller. -/
structure Dma where
  /-- Channel 2. -/
  video : DmaChannel
  /-- Channel 6. -/
  table : DmaChannel
  priority : Word
  interrupt : Word
  deriving DecidableEq

/-- The registers of the controller. -/
inductive DmaRegister where
  | address (channel : Nat)
  | block (channel : Nat)
  | control (channel : Nat)
  | priority
  | interrupt
  deriving DecidableEq

namespace Dma

/-- The controller at the start. -/
def powerOn : Dma where
  video := ⟨0, 0, 0⟩
  table := ⟨0, 0, 2⟩
  priority := 0x07654321
  interrupt := 0

/-! ### Channels -/

/-- The channel with a number. -/
def channel (dma : Dma) (number : Nat) : Except DeviceError DmaChannel :=
  match number with
  | 2 => .ok dma.video
  | 6 => .ok dma.table
  | _ => .error (.dma (.unknownChannel number))

/-- The controller with a channel changed. -/
def modify (dma : Dma) (number : Nat) (f : DmaChannel → DmaChannel) : Dma × Option DeviceError :=
  match number with
  | 2 => ({ dma with video := f dma.video }, none)
  | 6 => ({ dma with table := f dma.table }, none)
  | _ => (dma, some (.dma (.unknownChannel number)))

/-- Addresses have 24 bits. -/
def addressOf (w : Word) : Word :=
  w &&& 0x00FFFFFF

/-- The control word of the table channel: software sets bits 24, 28 and 30, and bit 1 is always
set. -/
def tableControl (w : Word) : Word :=
  (w &&& 0x51000000) ||| 0x00000002

/-- Writes the control word of a channel.  On the table channel only its own bits may be set. -/
def putControl (dma : Dma) (number : Nat) (w : Word) : Dma × Option DeviceError :=
  if number = 6 then
    if w &&& ~~~0x51000002 != 0 then (dma, some (.readOnlyBits "OTC CHCR" w))
    else ({ dma with table := { dma.table with control := tableControl w } }, none)
  else dma.modify number fun channel => { channel with control := w }

/-! ### Interrupts -/

/-- The interrupt register as software reads it: bit 31 says whether the line is raised, by force
or by the flag of an enabled channel. -/
def readInterrupt (dma : Dma) : Word :=
  let flags := dma.interrupt.field 24 7
  let enabled := dma.interrupt.field 16 7
  let signal := dma.interrupt.bit 15 || (dma.interrupt.bit 23 && flags &&& enabled != 0)
  (dma.interrupt &&& 0x7FFFFFFF) ||| (if signal then 0x80000000 else 0)

/-- Writes the interrupt register: flags written as 1 are cleared, the enable bits are stored. -/
def writeInterrupt (dma : Dma) (w : Word) : Dma :=
  { dma with
    interrupt := (dma.interrupt &&& 0x7F000000 &&& ~~~(w &&& 0x7F000000)) ||| (w &&& 0x00FF803F) }

/-- Flags a finished transfer, if the channel and the whole are enabled; also says whether the
line is raised. -/
def complete (dma : Dma) (number : Nat) : Dma × Bool :=
  if dma.interrupt.bit (16 + number) && dma.interrupt.bit 23 then
    ({ dma with interrupt := dma.interrupt ||| UInt32.ofNat (Nat.pow 2 (24 + number)) }, true)
  else (dma, false)

/-! ### Registers by name -/

/-- Reads a register. -/
def get (dma : Dma) : DmaRegister → Except DeviceError Word
  | .address number => (dma.channel number).map (·.address)
  | .block number => (dma.channel number).map (·.block)
  | .control number => (dma.channel number).map (·.control)
  | .priority => .ok dma.priority
  | .interrupt => .ok dma.readInterrupt

/-- Writes a register. -/
def put (dma : Dma) (register : DmaRegister) (w : Word) : Dma × Option DeviceError :=
  match register with
  | .address number => dma.modify number fun channel => { channel with address := addressOf w }
  | .block number => dma.modify number fun channel => { channel with block := w }
  | .control number => dma.putControl number w
  | .priority => ({ dma with priority := w }, none)
  | .interrupt => (dma.writeInterrupt w, none)

/-- The table channel as three words. -/
def restoreTable (dma : Dma) (address block control : Word) : Dma :=
  { dma with table := ⟨addressOf address, block, tableControl control⟩ }

/-- The first address of the registers. -/
def base : Word := 0x1F8010A0

/-- The register at an offset: three to a channel, in sixteen bytes, and two shared ones.  Within
a channel, whatever is neither the address nor the block register is the control register. -/
def register? (offset : Word) : Except Error DmaRegister :=
  if offset = 0x50 then .ok .priority
  else if offset = 0x54 then .ok .interrupt
  else
    let number := 2 + offset.toNat / 16
    let place := offset.toNat % 16
    if (number = 2 ∨ number = 6) ∧ place ≤ 8 then
      .ok (if place = 0 then .address number else if place = 4 then .block number
        else .control number)
    else .error (.unmapped (base + offset))

end Dma

end ConsoleVideo
