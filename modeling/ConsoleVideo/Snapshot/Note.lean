import ConsoleVideo.Gpu.Basic

/-!
# A note beside a snapshot

A snapshot is bytes alone.  A note beside it tells a reader what it shows.

* `Snapshot.Note` — when it was taken, the resolution of the display, and the ticks before it;
* `Note.json` — the note as an object, a line for each value;
* `Note.fileName` — the name of the file that holds the note of a snapshot.
-/

namespace ConsoleVideo.Snapshot

/-- What a snapshot shows. -/
structure Note where
  /-- The date and time at which it was taken. -/
  timestamp : String
  width : Nat
  height : Nat
  ticks : Nat
  deriving DecidableEq

namespace Note

/-- A note on hardware after so many ticks. -/
def of (timestamp : String) (gpu : Gpu) (ticks : Nat) : Note where
  timestamp := timestamp
  width := gpu.status.displayResolution.1
  height := gpu.status.displayResolution.2
  ticks := ticks

/-- The note as an object, a line for each value. -/
def json (note : Note) : String :=
  "\x7b\n  \"timestamp\": \"" ++ note.timestamp ++ "\",\n  \"resolution\": [\n    " ++
    toString note.width ++ ",\n    " ++ toString note.height ++ "\n  ],\n  \"ticks\": " ++
    toString note.ticks ++ "\n\x7d"

/-! ### Its file -/

/-- A file name without its ending.  A dot in front of the name begins no ending. -/
def stem (name : List Char) : List Char :=
  match name.reverse.dropWhile (· ≠ '.') with
  | _ :: rest => if rest = [] then name else rest.reverse
  | [] => name

/-- The path of the note of a snapshot: its ending is replaced by `json`. -/
def fileName (path : String) : String :=
  let (name, folder) := path.toList.reverse.span (· ≠ '/')
  String.ofList (folder.reverse ++ stem name.reverse) ++ ".json"

end Note

end ConsoleVideo.Snapshot
