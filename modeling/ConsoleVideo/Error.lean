import ConsoleVideo.Text

/-!
# What can go wrong

Every failure of the library is one of the causes below.

* `DeviceError` — the software asked the video hardware for something it does not do;
* `SnapshotError` — bytes that are no saved state, or a saved state that does not fit;
* `SettingsError` — settings, environment or a trace that cannot be read;
* `Error` — any of them, an address nobody answers to, or a file that cannot be used;
* `Error.message` — the one place that words them.
-/

namespace ConsoleVideo

/-- A DMA transfer that cannot be carried out. -/
inductive DmaFault where
  | unknownChannel (channel : Nat)
  | listTowardsRam
  /-- The list that starts here has more links than the memory has words. -/
  | endlessList (start : Word)
  deriving DecidableEq

/-- A documented feature of the hardware that is not offered. -/
inductive MissingFeature where
  | polyline (opcode : Nat)
  | syncMode (mode : Nat)
  deriving DecidableEq

/-- The hardware was asked for something it does not do. -/
inductive DeviceError where
  /-- An access of `bytes` bytes where only an aligned word is answered. -/
  | misaligned (offset : Word) (bytes : Nat)
  /-- A write that sets bits of a register that software may not set. -/
  | readOnlyBits (register : String) (value : Word)
  /-- A drawing command whose opcode has no meaning. -/
  | unknownCommand (word : Word)
  /-- A control command whose number has no meaning. -/
  | unknownControl (word : Word)
  | unsupported (feature : MissingFeature)
  | dma (fault : DmaFault)
  /-- A state cannot be restored over commands in flight. -/
  | commandsPending (jobs : Nat)
  | workerStopped
  deriving DecidableEq

/-- Bytes that are no saved state, or a saved state that does not fit. -/
inductive SnapshotError where
  /-- The bytes end inside a number of which `missing` bytes are absent. -/
  | endOfInput (missing : Nat)
  | notBoolean (byte : UInt8)
  | trailing (bytes : Nat)
  /-- The picture memory in the state is not of the size of the hardware's. -/
  | pictureSize
  deriving DecidableEq

/-- Settings, environment or a trace that cannot be read. -/
inductive SettingsError where
  /-- The settings text is not what it should be; `reason` says where. -/
  | malformed (reason : String)
  | unknownView (text : String)
  | notBoolean (name text : String)
  | badTrace (path : String) (reason : String)
  deriving DecidableEq

/-- Any failure of the library. -/
inductive Error where
  /-- Nobody answers to this address. -/
  | unmapped (address : Word)
  | file (reason : String)
  | settings (cause : SettingsError)
  | snapshot (cause : SnapshotError)
  | device (cause : DeviceError)
  deriving DecidableEq

/-! ### Their wording -/

def DmaFault.message : DmaFault → String
  | .unknownChannel channel => s!"channel {channel} is not modelled"
  | .listTowardsRam => "linked list transfer towards RAM"
  | .endlessList start =>
    "linked list from 0x" ++ Text.upperHex 6 start.toNat ++ " exceeds 524288 links"

def MissingFeature.message : MissingFeature → String
  | .polyline opcode => "polyline GP0(0x" ++ Text.upperHex 2 opcode ++ ")"
  | .syncMode mode => s!"DMA sync mode {mode}"

def DeviceError.message : DeviceError → String
  | .misaligned offset bytes =>
    s!"Misaligned register access: {bytes}-byte access at offset 0x" ++ Text.upperHex 1 offset.toNat
  | .readOnlyBits register value =>
    "Write to " ++ register ++ " asserts read-only bits: " ++ Text.word value
  | .unknownCommand word =>
    "Unknown GP0 opcode 0x" ++ Text.upperHex 2 (word.field 24 8) ++
      " (word " ++ Text.word word ++ ")"
  | .unknownControl word =>
    "Unknown GP1 command 0x" ++ Text.upperHex 2 (word.field 24 8) ++
      " (word " ++ Text.word word ++ ")"
  | .unsupported feature => "Unsupported GPU feature: " ++ feature.message
  | .dma fault => "DMA error: " ++ fault.message
  | .commandsPending jobs => s!"Command queue holds {jobs} pending jobs"
  | .workerStopped => "GPU thread is no longer running"

/-- The reasons of the byte reader are shown as records. -/
def SnapshotError.message : SnapshotError → String
  | .endOfInput missing => s!"UnexpectedEnd \x7b additional: {missing} \x7d"
  | .notBoolean byte => s!"InvalidBooleanValue({byte.toNat})"
  | .trailing bytes => s!"{bytes} trailing bytes after state"
  | .pictureSize => "VRAM arrays have the wrong size"

def SettingsError.message : SettingsError → String
  | .malformed reason => "Failed to parse config: " ++ reason
  | .unknownView text => "PSRX_GPU_VIEW: unknown view '" ++ text ++ "'"
  | .notBoolean name text => name ++ ": expected a boolean, got '" ++ text ++ "'"
  | .badTrace path reason => "Invalid trace " ++ path ++ ": " ++ reason

def Error.message : Error → String
  | .unmapped address => "Invalid memory access at 0x" ++ Text.upperHex 8 address.toNat
  | .file reason => "I/O error: " ++ reason
  | .settings cause => "Configuration error: " ++ cause.message
  | .snapshot cause => "Save state error: " ++ cause.message
  | .device cause => "GPU error: " ++ cause.message

/-! ### Their record form, which ends a failed run -/

/-- The cause as a record of its parts. -/
def DeviceError.record : DeviceError → String
  | .misaligned offset bytes =>
    s!"MisalignedAccess \x7b offset: {offset.toNat}, size: {bytes} \x7d"
  | .readOnlyBits register value =>
    "ReadOnlyBit \x7b register: \"" ++ register ++ s!"\", value: {value.toNat} \x7d"
  | .unknownCommand word =>
    s!"UnknownGp0Opcode \x7b opcode: {word.field 24 8}, word: {word.toNat} \x7d"
  | .unknownControl word =>
    s!"UnknownGp1Command \x7b command: {word.field 24 8}, word: {word.toNat} \x7d"
  | .unsupported feature => "Unsupported(\"" ++ feature.message ++ "\")"
  | .dma fault => "DmaError(\"" ++ fault.message ++ "\")"
  | .commandsPending jobs => s!"QueueNotEmpty \x7b pending: {jobs} \x7d"
  | .workerStopped => "ThreadDisconnected"

/-- The cause as a record: of a device its parts, of anything else its kind and wording. -/
def Error.record : Error → String
  | .unmapped address => s!"InvalidMemoryAccess \x7b address: {address.toNat} \x7d"
  | .file reason => "Io(\"" ++ reason ++ "\")"
  | .settings cause => "Config(\"" ++ cause.message ++ "\")"
  | .snapshot cause => "SaveState(\"" ++ cause.message ++ "\")"
  | .device cause => "Gpu(" ++ cause.record ++ ")"

end ConsoleVideo
