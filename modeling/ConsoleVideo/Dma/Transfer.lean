import ConsoleVideo.Dma.Basic
import ConsoleVideo.Gpu.Access
import ConsoleVideo.Interrupts
import ConsoleVideo.Ram

/-!
# DMA transfers

* `Machine` — the video hardware, the DMA controller, the main memory and the interrupt controller;
* `Transfer.block` — moves one block of words between the main memory and the video hardware;
* `Transfer.blocks` — moves several, one after the other;
* `Transfer.chase` — follows a linked list of command words and feeds it to the video hardware;
* `Transfer.clearTable` — writes an empty ordering table;
* `Machine.tickDma` — runs every channel that is ready.
-/

namespace ConsoleVideo

/-- The video hardware with everything around it. -/
structure Machine where
  gpu : Gpu
  dma : Dma
  ram : Ram
  irq : Interrupts
  deriving DecidableEq

namespace Transfer

/-! ### Blocks -/

/-- The address of word `i` of a block. -/
def addressAt (start step : Word) (i : Nat) : Word :=
  start + step * UInt32.ofNat i

/-- The words of a block in the main memory. -/
def stage (ram : Ram) (start step : Word) (count : Nat) : List Word :=
  (List.range count).map fun i => ram.read (addressAt start step i)

/-- Writes words to the main memory, `step` apart. -/
def store (step : Word) : Ram → Word → List Word → Ram
  | ram, _, [] => ram
  | ram, address, w :: ws => store step (ram.write address w) (address + step) ws

/-- What a transfer works on. -/
structure Ends where
  gpu : Gpu
  ram : Ram
  deriving DecidableEq

/-- Moves a block of `count` words.  Towards the main memory, all words are read back before the
first is written; from it, all words are staged before the first is taken in. -/
def block (ends : Ends) (fromRam : Bool) (start step : Word) (count : Nat) :
    Ends × Option DeviceError :=
  if fromRam then
    match ends.gpu.writeBlock (stage ends.ram start step count) with
    | (gpu, e) => ({ ends with gpu := gpu }, e)
  else
    match ends.gpu.readMany count with
    | (gpu, words) => ({ gpu := gpu, ram := store step ends.ram start words.toList }, none)

/-- Moves `blocks` blocks of `count` words, one after the other, up to the first that fails; also
says where the next one would start. -/
def blocks (fromRam : Bool) (step : Word) (count : Nat) :
    Nat → Ends → Word → Ends × Except DeviceError Word
  | 0, ends, start => (ends, .ok start)
  | more + 1, ends, start =>
    match block ends fromRam start step count with
    | (ends, some e) => (ends, .error e)
    | (ends, none) =>
      blocks fromRam step count more ends (Ram.align (addressAt start step count))

/-! ### Linked lists -/

/-- The words that follow a header, as many as its high byte says. -/
def payload (ram : Ram) (address : Word) : List Word :=
  (List.range ((ram.read address).field 24 8)).map fun i =>
    ram.read (address + 4 * UInt32.ofNat (i + 1))

/-- Whether a header is the last one: bit 23 of its next field is set. -/
def isLast (header : Word) : Bool :=
  header.bit 23

/-- The address of the header after one that is not the last. -/
def next (header : Word) : Word :=
  Ram.align (UInt32.ofNat (header.field 0 24))

/-- How following a list ends. -/
inductive Chase where
  | finished
  | failed (e : DeviceError)
  /-- The links ran out at this header. -/
  | endless (address : Word)
  deriving DecidableEq

/-- Follows a list for at most the given number of links, feeding the words of every link. -/
def chase (ram : Ram) : Nat → Gpu → Word → Gpu × Chase
  | 0, gpu, address => (gpu, .endless address)
  | links + 1, gpu, address =>
    match gpu.writeBlock (payload ram address) with
    | (gpu, some e) => (gpu, .failed e)
    | (gpu, none) =>
      let header := ram.read address
      if isLast header then (gpu, .finished) else chase ram links gpu (next header)

/-- What the address register of a channel shows after a list. -/
def endOfList : Word := 0x00FFFFFF

/-! ### Ordering tables -/

/-- Writes `count` entries downwards from an address, each pointing to the one below it and the
lowest one ending the list. -/
def clearTable : Ram → Word → Nat → Ram
  | ram, _, 0 => ram
  | ram, address, 1 => ram.write address endOfList
  | ram, address, count + 2 =>
    let below := Ram.align (address - 4)
    clearTable (ram.write address below) below (count + 1)

/-! ### Channels -/

/-- Carries out what channel 2 is programmed to do; also says what its address register shows
afterwards, where that changes. -/
def run (channel : DmaChannel) (ends : Ends) : Ends × Option Word × Option DeviceError :=
  match channel.syncMode with
  | .manual => several 1
  | .blocks => several channel.blockCount
  | .list =>
    if channel.fromRam then
      let start := Ram.align channel.address
      match chase ends.ram Ram.size ends.gpu start with
      | (gpu, .finished) => ({ ends with gpu := gpu }, some endOfList, none)
      | (gpu, .failed e) => ({ ends with gpu := gpu }, none, some e)
      | (gpu, .endless address) =>
        ({ ends with gpu := gpu }, some address, some (.dma (.endlessList start)))
    else (ends, none, some (.dma .listTowardsRam))
  | .unknown => (ends, none, some (.unsupported (.syncMode 3)))
where
  /-- Moves a number of blocks. -/
  several (count : Nat) : Ends × Option Word × Option DeviceError :=
    match blocks channel.fromRam channel.step channel.blockSize count ends channel.address with
    | (ends, .ok address) => (ends, some address, none)
    | (ends, .error e) => (ends, none, some e)

end Transfer

namespace Machine

/-- Everything at its start. -/
def powerOn : Machine where
  gpu := Gpu.powerOn
  dma := Dma.powerOn
  ram := Ram.blank
  irq := Interrupts.quiet

/-- Flags a finished transfer and raises the interrupt line where that is enabled. -/
def completeDma (machine : Machine) (number : Nat) : Machine :=
  match machine.dma.complete number with
  | (dma, raised) =>
    { machine with
      dma := dma
      irq := if raised then machine.irq.request Interrupts.dma else machine.irq }

/-- Runs channel 2 if it is ready.  It is inactive afterwards, whether it failed or not. -/
def tickVideo (machine : Machine) : Machine × Option DeviceError :=
  let channel := machine.dma.video
  if channel.isReady then
    match Transfer.run channel ⟨machine.gpu, machine.ram⟩ with
    | (⟨gpu, ram⟩, address, e) =>
      let channel := { channel.deactivate with address := address.getD channel.address }
      let machine :=
        { machine with gpu := gpu, ram := ram, dma := { machine.dma with video := channel } }
      match e with
      | none => (machine.completeDma 2, none)
      | some e => (machine, some e)
  else (machine, none)

/-- Runs channel 6 if it is ready. -/
def tickTable (machine : Machine) : Machine :=
  let channel := machine.dma.table
  if channel.isReady then
    completeDma
      { machine with
        ram := Transfer.clearTable machine.ram (Ram.align channel.address) channel.blockSize
        dma := { machine.dma with table := channel.deactivate } } 6
  else machine

/-- Runs every channel that is ready, channel 6 only if channel 2 did not fail. -/
def tickDma (machine : Machine) : Machine × Option DeviceError :=
  match machine.tickVideo with
  | (machine, some e) => (machine, some e)
  | (machine, none) => (machine.tickTable, none)

end Machine

end ConsoleVideo
