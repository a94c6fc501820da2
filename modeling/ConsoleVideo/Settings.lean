import ConsoleVideo.Error
import ConsoleVideo.Surface
import ConsoleVideo.Text.Blank
import ConsoleVideo.Toml.Document

/-!
# Settings

What is shown and how a trace is replayed follows from settings.  They are read from a document
and overridden by variables.

* `Settings` — the settings, with `Settings.standard`;
* `Settings.ofDocument` — the settings of a document; what it leaves out keeps its standard;
* `Settings.override` — the settings after the variables, of which a faulty one is the last that
  counts;
* `Settings.json` — the settings as text.
-/

namespace ConsoleVideo

/-- What is shown and how a trace is replayed. -/
structure Settings where
  view : View
  /-- Whether a worker of its own draws. -/
  threaded : Bool
  traceCommands : Bool
  /-- How many processor cycles a tick takes that does not say. -/
  frameTicks : Word
  deriving DecidableEq

namespace Settings

/-- The settings that hold where nothing else is said; a tick is a frame of 60 Hz. -/
def standard : Settings where
  view := .display
  threaded := false
  traceCommands := false
  frameTicks := 564480

/-! ### From a document -/

/-- The view with a name. -/
def viewNamed : String → Option View
  | "display" => some .display
  | "vram" => some .vram
  | _ => none

/-- The name of a view. -/
def viewName : View → String
  | .display => "display"
  | .vram => "vram"

@[simp] theorem viewNamed_viewName (v : View) : viewNamed (viewName v) = some v := by
  cases v <;> rfl

/-- Whether a value holds nothing. -/
def isVacant : Toml.Value → Bool
  | .array items => items.isEmpty
  | .table _ entries => entries.isEmpty
  | _ => false

/-- A view: its name, or a table with nothing under its name. -/
def viewOf : Toml.Value → Option View
  | .text name => viewNamed name
  | .table _ [(name, v)] => if isVacant v then viewNamed name else none
  | _ => none

/-- A truth value. -/
def flagOf : Toml.Value → Option Bool
  | .boolean b => some b
  | _ => none

/-- A number of cycles that fits into a word. -/
def cyclesOf : Toml.Value → Option Word
  | .integer (.ofNat n) => if n < 4294967296 then some (UInt32.ofNat n) else none
  | _ => none

/-- The value of a key as `read` understands it, or the standard if the key is missing. -/
def entry {α : Type} (t : Toml.Table) (key : String) (read : Toml.Value → Option α)
    (standard : α) : Except SettingsError α :=
  match t.get? key with
  | none => .ok standard
  | some v =>
    match read v with
    | some a => .ok a
    | none => .error (.malformed ("invalid value of '" ++ key ++ "'"))

/-- The settings in a table.  Keys that name no setting are left alone. -/
def ofTable (t : Toml.Table) : Except SettingsError Settings := do
  let view ← entry t "view" viewOf standard.view
  let threaded ← entry t "threaded" flagOf standard.threaded
  let traceCommands ← entry t "trace_commands" flagOf standard.traceCommands
  let frameTicks ← entry t "frame_ticks" cyclesOf standard.frameTicks
  pure ⟨view, threaded, traceCommands, frameTicks⟩

/-- The settings of a document. -/
def ofDocument (text : String) : Except SettingsError Settings :=
  match Toml.parse text with
  | .error reason => .error (.malformed reason)
  | .ok t => ofTable t

/-! ### From variables -/

/-- The view that a variable names, in any case and between blanks. -/
def readView (text : String) : Except SettingsError View :=
  let name := Text.lowered text
  match viewNamed name with
  | some view => .ok view
  | none => .error (.unknownView name)

/-- The truth value that a variable names, in any case and between blanks; nothing is no. -/
def readFlag (name text : String) : Except SettingsError Bool :=
  let word := Text.lowered text
  if ["1", "true", "yes", "on"].contains word then .ok true
  else if ["0", "false", "no", "off", ""].contains word then .ok false
  else .error (.notBoolean name word)

/-- What a variable says, if it is set; else the old value. -/
def overridden {α : Type} (text : Option String) (read : String → Except SettingsError α)
    (old : α) : Except SettingsError α :=
  match text with
  | some text => read text
  | none => .ok old

/-- The settings after the variables that `lookup` finds.  The first one at fault ends the reading;
those before it count. -/
def override (settings : Settings) (lookup : String → Option String) :
    Settings × Option SettingsError :=
  match overridden (lookup "PSRX_GPU_VIEW") readView settings.view with
  | .error e => (settings, some e)
  | .ok view =>
    let settings := { settings with view := view }
    match overridden (lookup "PSRX_GPU_THREADED") (readFlag "PSRX_GPU_THREADED")
        settings.threaded with
    | .error e => (settings, some e)
    | .ok threaded =>
      let settings := { settings with threaded := threaded }
      match overridden (lookup "PSRX_GPU_TRACE") (readFlag "PSRX_GPU_TRACE")
          settings.traceCommands with
      | .error e => (settings, some e)
      | .ok traceCommands => ({ settings with traceCommands := traceCommands }, none)

/-! ### As text -/

/-- The settings as an object, a setting on each line. -/
def json (s : Settings) : String :=
  "\x7b\n  \"view\": \"" ++ viewName s.view ++ "\",\n  \"threaded\": " ++ toString s.threaded ++
    ",\n  \"trace_commands\": " ++ toString s.traceCommands ++ ",\n  \"frame_ticks\": " ++
    toString s.frameTicks.toNat ++ "\n\x7d"

end Settings

end ConsoleVideo
