import ConsoleVideo.Gpu.Basic

/-!
# The command and readback registers

Drawing commands go in word by word, readback words come out.

* `Gpu.feed` — takes a word into the decoder and queues the job it completes;
* `Gpu.feedAll` — takes words up to the first that is refused;
* `Gpu.writeBlock` — the command register: takes a block of words, then carries out what waits;
  `Gpu.write` is the block of one word;
* `Gpu.read` — the readback register.
-/

namespace ConsoleVideo.Gpu

/-- Takes a word of a drawing command and queues the job it completes. -/
def feed (gpu : Gpu) (w : Word) : Gpu × Option DeviceError :=
  match gpu.decoder.push w with
  | (decoder, .error e) => ({ gpu with decoder := decoder }, some e)
  | (decoder, .ok none) => ({ gpu with decoder := decoder }, none)
  | (decoder, .ok (some job)) =>
    ({ gpu with decoder := decoder, queue := gpu.queue.push job }, none)

/-- Takes words up to the first one that is refused. -/
def feedAll (gpu : Gpu) : List Word → Gpu × Option DeviceError
  | [] => (gpu, none)
  | w :: ws =>
    match gpu.feed w with
    | (gpu, some e) => (gpu, some e)
    | (gpu, none) => gpu.feedAll ws

/-- Whether nothing is in progress that keeps a new command waiting. -/
def isReady (gpu : Gpu) : Bool :=
  gpu.decoder.isIdle && gpu.queue.allDeferred

/-- What follows a write to the command register: the jobs are carried out, and the hardware is
ready again if nothing is in progress. -/
def settle (gpu : Gpu) : Gpu :=
  let gpu := gpu.drain
  { gpu with status := { gpu.status with readyCommand := gpu.isReady }.refreshDmaRequest }

/-- Writes a block of words to the command register; words after the first refused one are lost. -/
def writeBlock (gpu : Gpu) (words : List Word) : Gpu × Option DeviceError :=
  let busy := { gpu with status := { gpu.status with readyCommand := false } }
  match busy.feedAll words with
  | (gpu, e) => (gpu.settle, e)

/-- Writes one word to the command register. -/
def write (gpu : Gpu) (w : Word) : Gpu × Option DeviceError :=
  gpu.writeBlock [w]

/-- Reads the readback register: the oldest waiting word, or else the last one again. -/
def read (gpu : Gpu) : Gpu × Word :=
  let (latch, rest) :=
    match gpu.readback with
    | [] => (gpu.latch, [])
    | w :: ws => (w, ws)
  let status := { gpu.status with readySend := gpu.status.readySend && !rest.isEmpty }
  ({ gpu with latch := latch, readback := rest, status := status.refreshDmaRequest }, latch)

/-- Reads the readback register `n` times, adding to the words read before. -/
def readOnto (gpu : Gpu) (words : Array Word) : Nat → Gpu × Array Word
  | 0 => (gpu, words)
  | n + 1 =>
    match gpu.read with
    | (gpu, w) => gpu.readOnto (words.push w) n

/-- Reads the readback register `n` times. -/
def readMany (gpu : Gpu) (n : Nat) : Gpu × Array Word :=
  gpu.readOnto #[] n

end ConsoleVideo.Gpu
