import ConsoleVideo.Program.Options
import ConsoleVideo.Replay
import ConsoleVideo.Snapshot.Basic
import ConsoleVideo.Snapshot.Note
import ConsoleVideo.VariableFile

/-!
# A run of the program

The program replays a trace and writes what is left.  It meets the outside world only through a
host, so that a run can be followed without one.

* `Host` — files, variables and the clock;
* `Exit` — how a run ends, with the code that it leaves;
* `Program.settings` — the settings of a document, the variables and the options, in this order;
* `Program.write` — the picture and the state, where the options ask for them;
* `Program.run` — a whole run.
-/

namespace ConsoleVideo

/-- The outside world. -/
structure Host (m : Type → Type) where
  /-- The text of a file, or why it cannot be read. -/
  readText (path : String) : m (Except String String)
  /-- Writes a file; gives the reason if it cannot. -/
  writeBytes (path : String) (bytes : List UInt8) : m (Except String Unit)
  /-- The value of a variable that is set. -/
  lookup (name : String) : m (Option String)
  /-- The text of the file of variables, if there is one. -/
  variableText : m (Option String)
  /-- The date and time. -/
  now : m String

/-- How a run ends. -/
inductive Exit where
  | done
  | usage (why : Usage)
  | failed (cause : Error)

/-- The code that a run leaves. -/
def Exit.code : Exit → Nat
  | .done => 0
  | .usage .help => 0
  | .usage (.faulty _) => 2
  | .failed _ => 1

namespace Program

variable {m : Type → Type} [Monad m]

/-- The text of a file. -/
def readText (host : Host m) (path : String) : ExceptT Error m String :=
  ExceptT.mk do
    pure ((← host.readText path).mapError .file)

/-- Writes a file. -/
def writeBytes (host : Host m) (path : String) (bytes : List UInt8) : ExceptT Error m Unit :=
  ExceptT.mk do
    pure ((← host.writeBytes path bytes).mapError .file)

/-- The variables that the file of variables adds to those that are set. -/
def loaded (host : Host m) : m (List (String × String)) := do
  match ← host.variableText with
  | none => pure []
  | some text => VariableFile.load host.lookup [] (VariableFile.assignments text).1

/-- The variables that bear on the settings. -/
def settingNames : List String :=
  ["PSRX_GPU_VIEW", "PSRX_GPU_THREADED", "PSRX_GPU_TRACE"]

/-- The values of the variables that bear on the settings. -/
def settingVariables (host : Host m) (more : List (String × String)) :
    m (List (String × Option String)) :=
  settingNames.mapM fun name => do
    pure (name, ← VariableFile.known host.lookup more name)

/-- The settings after the options. -/
def optioned (options : Options) (s : Settings) : Settings :=
  { s with
    view := if options.vramViewer then .vram else s.view
    threaded := s.threaded || options.threaded }

/-- The settings that a run goes by: those of the document, overridden by the variables and then by
the options. -/
def settings (host : Host m) (more : List (String × String)) (options : Options) :
    ExceptT Error m Settings := do
  let written ←
    match options.config with
    | none => pure Settings.standard
    | some path =>
      let text ← readText host path
      ExceptT.mk (pure ((Settings.ofDocument text).mapError .settings))
  let values ← ExceptT.lift (settingVariables host more)
  match written.override fun name => (values.lookup name).join with
  | (_, some e) => throw (.settings e)
  | (s, none) => pure (optioned options s)

/-- The events of the trace. -/
def events (host : Host m) (options : Options) : ExceptT Error m (List TraceEvent) := do
  let text ← readText host options.trace
  match Trace.parse text with
  | .ok events => pure events
  | .error reason => throw (.settings (.badTrace options.trace reason))

/-- Writes the picture, and the state with a note beside it. -/
def write (host : Host m) (options : Options) (outcome : Outcome) : ExceptT Error m Unit := do
  if let some path := options.frameOut then
    writeBytes host path outcome.surface.ppm
  if let some path := options.stateOut then
    writeBytes host path (Snapshot.dump outcome.gpu Dma.powerOn)
    let now ← ExceptT.lift host.now
    let note := Snapshot.Note.of now outcome.gpu outcome.ticks
    writeBytes host (Snapshot.Note.fileName path) note.json.toUTF8.toList

/-- Replays the trace and writes what is left. -/
def replay (host : Host m) (more : List (String × String)) (options : Options) :
    ExceptT Error m Unit := do
  let settings ← settings host more options
  let events ← events host options
  match Replay.run settings events with
  | .error e => throw (.device e)
  | .ok outcome => write host options outcome

/-- A run with the words of a command line. -/
def run (host : Host m) (words : List String) : m Exit := do
  let more ← loaded host
  match Options.parse words with
  | .error why => pure (.usage why)
  | .ok options =>
    match ← (replay host more options).run with
    | .ok () => pure .done
    | .error e => pure (.failed e)

end Program

end ConsoleVideo
