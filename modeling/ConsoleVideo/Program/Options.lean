/-!
# Options of the command line

The program takes the path of a trace and some options.

* `Options` — what the command line asks for;
* `Usage` — why nothing is run: help was asked for, or the command line is faulty;
* `Options.Switch`, `Options.Path` — the options without and with a value, and their spellings;
* `Options.Draft.read` — the words of the command line, one after the other; the first that is
  faulty or asks for help decides;
* `Options.parse` — the whole command line.
-/

namespace ConsoleVideo

/-- What the command line asks for. -/
structure Options where
  /-- The path of the trace. -/
  trace : String
  /-- The path of the settings document. -/
  config : Option String
  /-- Show all of the picture memory. -/
  vramViewer : Bool
  /-- Draw under a worker. -/
  threaded : Bool
  /-- Where the last picture is written. -/
  frameOut : Option String
  /-- Where the last state is written. -/
  stateOut : Option String
  deriving DecidableEq

/-- Why nothing is run. -/
inductive Usage where
  | help
  | faulty (reason : String)
  deriving DecidableEq

namespace Options

/-- An option without a value. -/
inductive Switch where
  | vramViewer
  | threaded
  deriving DecidableEq

/-- An option with a path behind it. -/
inductive Path where
  | config
  | frameOut
  | stateOut
  deriving DecidableEq

/-- What a word that begins with a dash stands for. -/
inductive Spelled where
  | help
  | switch (s : Switch)
  | path (p : Path)
  deriving DecidableEq

/-- The long spellings, behind two dashes. -/
def long? : String → Option Spelled
  | "help" => some .help
  | "vram-viewer" => some (.switch .vramViewer)
  | "threaded" => some (.switch .threaded)
  | "config" => some (.path .config)
  | "frame-out" => some (.path .frameOut)
  | "state-out" => some (.path .stateOut)
  | _ => none

/-- The short spellings, behind one dash. -/
def short? : Char → Option Spelled
  | 'h' => some .help
  | 'c' => some (.path .config)
  | _ => none

/-! ### Words -/

/-- A word of the command line. -/
inductive Token where
  | value (text : String)
  /-- Two dashes alone: only values follow. -/
  | divider
  /-- An option, and what is attached to it. -/
  | option (spelled : Spelled) (attached : Option String)
  | unknown
  deriving DecidableEq

/-- What a word is.  A value is attached to a long option behind an equals sign, and to a short one
with or without. -/
def Token.ofWord (word : String) : Token :=
  match word.toList with
  | ['-', '-'] => .divider
  | '-' :: '-' :: cs =>
    let (name, rest) := cs.span (· ≠ '=')
    match long? (String.ofList name), rest with
    | some spelled, [] => .option spelled none
    | some spelled, _ :: rest => .option spelled (some (String.ofList rest))
    | none, _ => .unknown
  | '-' :: c :: cs =>
    match short? c, cs with
    | some .help, _ => .option .help none
    | some spelled, [] => .option spelled none
    | some spelled, '=' :: rest => .option spelled (some (String.ofList rest))
    | some spelled, rest => .option spelled (some (String.ofList rest))
    | none, _ => .unknown
  | _ => .value word

/-! ### The command line -/

/-- What has been read of the command line. -/
structure Draft where
  trace : Option String
  config : Option String
  vramViewer : Bool
  threaded : Bool
  frameOut : Option String
  stateOut : Option String

namespace Draft

/-- Nothing has been read. -/
def empty : Draft :=
  ⟨none, none, false, false, none, none⟩

/-- A path in a place that is still free. -/
def fill (old : Option String) (text : String) : Except Usage (Option String) :=
  if text = "" then .error (.faulty "empty path")
  else match old with
    | some _ => .error (.faulty ("unexpected argument '" ++ text ++ "'"))
    | none => .ok (some text)

/-- The trace, which is named once. -/
def withTrace (d : Draft) (text : String) : Except Usage Draft :=
  (fill d.trace text).map fun trace => { d with trace := trace }

/-- An option with its path; each comes at most once. -/
def withPath (d : Draft) (p : Path) (text : String) : Except Usage Draft :=
  match p with
  | .config => (fill d.config text).map fun config => { d with config := config }
  | .frameOut => (fill d.frameOut text).map fun frameOut => { d with frameOut := frameOut }
  | .stateOut => (fill d.stateOut text).map fun stateOut => { d with stateOut := stateOut }

/-- An option without a value; each comes at most once. -/
def withSwitch (d : Draft) : Switch → Except Usage Draft
  | .vramViewer =>
    if d.vramViewer then .error (.faulty "'--vram-viewer' comes twice")
    else .ok { d with vramViewer := true }
  | .threaded =>
    if d.threaded then .error (.faulty "'--threaded' comes twice")
    else .ok { d with threaded := true }

/-- The words behind two dashes, which are values. -/
def readValues : List String → Draft → Except Usage Draft
  | [], d => .ok d
  | word :: words, d =>
    match d.withTrace word with
    | .error e => .error e
    | .ok d => readValues words d

/-- The words of the command line.  The value of an option is attached to it or is the next word,
which then may not be an option itself. -/
def read : List String → Draft → Except Usage Draft
  | [], d => .ok d
  | word :: words, d =>
    match Token.ofWord word with
    | .unknown => .error (.faulty ("unexpected argument '" ++ word ++ "'"))
    | .divider => readValues words d
    | .value text =>
      match d.withTrace text with
      | .error e => .error e
      | .ok d => read words d
    | .option .help none => .error .help
    | .option (.switch s) none =>
      match d.withSwitch s with
      | .error e => .error e
      | .ok d => read words d
    | .option (.path p) (some text) =>
      match d.withPath p text with
      | .error e => .error e
      | .ok d => read words d
    | .option (.path p) none =>
      match words with
      | next :: rest =>
        match Token.ofWord next with
        | .value text =>
          match d.withPath p text with
          | .error e => .error e
          | .ok d => read rest d
        | _ => .error (.faulty ("'" ++ word ++ "' needs a value"))
      | [] => .error (.faulty ("'" ++ word ++ "' needs a value"))
    | .option _ (some text) => .error (.faulty ("unexpected value '" ++ text ++ "'"))

/-- The options of a command line that has been read; it names a trace. -/
def finish (d : Draft) : Except Usage Options :=
  match d.trace with
  | none => .error (.faulty "the path of a trace is missing")
  | some trace => .ok ⟨trace, d.config, d.vramViewer, d.threaded, d.frameOut, d.stateOut⟩

end Draft

/-- The options that the words of a command line give. -/
def parse (words : List String) : Except Usage Options :=
  match Draft.read words Draft.empty with
  | .error e => .error e
  | .ok d => d.finish

/-- How the program is called. -/
def help : String :=
  "Replay a GPU command trace\n\n" ++
  "Usage: console-video [OPTIONS] <TRACE>\n\n" ++
  "Arguments:\n" ++
  "  <TRACE>  Path to a JSON command trace\n\n" ++
  "Options:\n" ++
  "  -c, --config <CONFIG>        TOML configuration file\n" ++
  "      --vram-viewer            Show the whole VRAM instead of the display area\n" ++
  "      --threaded               Render on the dedicated GPU thread\n" ++
  "      --frame-out <FRAME_OUT>  Write the final frame as a binary PPM\n" ++
  "      --state-out <STATE_OUT>  Write a GPU state dump (plus a JSON description next to it)\n" ++
  "  -h, --help                   Print help\n"

end Options

end ConsoleVideo
