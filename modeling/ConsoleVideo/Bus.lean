import ConsoleVideo.Error

/-!
# Devices on the bus

The processor reaches devices through their registers, 32 bits each.

* `Width` — how much one access moves;
* `Device` — a range of addresses with what reading and writing an aligned word does there;
* `Device.readAt`, `Device.writeAt` — accesses of any width.  A narrow read takes its part of the
  word; a narrow write replaces its part and writes the word back, unless the device only answers
  whole words.
-/

namespace ConsoleVideo

/-- How much one access moves. -/
inductive Width where
  | byte
  | half
  | word
  deriving DecidableEq

namespace Width

def bytes : Width → Nat
  | byte => 1
  | half => 2
  | word => 4

/-- The first bit of the part of a word that an access at an offset moves. -/
def shift (width : Width) (offset : Word) : Nat :=
  match width with
  | byte => offset.toNat % 4 * 8
  | half => offset.toNat / 2 % 2 * 16
  | word => 0

/-- How many values the part can take. -/
def range (width : Width) : Nat :=
  Nat.pow 2 (8 * width.bytes)

/-- The part of a word that an access moves. -/
def extract (width : Width) (offset : Word) (w : Word) : Word :=
  UInt32.ofNat (w.toNat / Nat.pow 2 (width.shift offset) % width.range)

/-- The word with that part replaced. -/
def insert (width : Width) (offset : Word) (w value : Word) : Word :=
  let unit := Nat.pow 2 (width.shift offset)
  let below := w.toNat % unit
  let above := w.toNat / unit / width.range
  UInt32.ofNat (below + unit * (value.toNat % width.range + width.range * above))

end Width

/-- A range of addresses and what happens there. -/
structure Device (σ : Type) where
  name : String
  /-- The first and the last address. -/
  first : Word
  last : Word
  /-- Whether narrow accesses are refused. -/
  wordsOnly : Bool
  read : σ → Word → σ × Except Error Word
  write : σ → Word → Word → σ × Option Error

namespace Device

variable {σ : Type}

/-- Whether the device answers to an address. -/
def contains (device : Device σ) (address : Word) : Bool :=
  device.first ≤ address && address ≤ device.last

/-- The offset of the word that an offset lies in. -/
def aligned (offset : Word) : Word :=
  UInt32.ofNat (offset.toNat / 4 * 4)

/-- Reads at an offset. -/
def readAt (device : Device σ) (width : Width) (s : σ) (offset : Word) : σ × Except Error Word :=
  if width = .word then device.read s offset
  else if device.wordsOnly then (s, .error (.device (.misaligned offset width.bytes)))
  else match device.read s (aligned offset) with
    | (s, .ok w) => (s, .ok (width.extract offset w))
    | (s, .error e) => (s, .error e)

/-- Writes at an offset. -/
def writeAt (device : Device σ) (width : Width) (s : σ) (offset value : Word) : σ × Option Error :=
  if width = .word then device.write s offset value
  else if device.wordsOnly then (s, some (.device (.misaligned offset width.bytes)))
  else match device.read s (aligned offset) with
    | (s, .ok w) => device.write s (aligned offset) (width.insert offset w value)
    | (s, .error e) => (s, some e)

end Device

end ConsoleVideo
