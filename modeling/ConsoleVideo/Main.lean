import ConsoleVideo.Program.Run
import Std.Time.Format

/-!
# The program

The host of the program: files, variables and the clock of the machine that it runs on.
-/

namespace ConsoleVideo

/-- What an action gives, or the text of its failure. -/
def attempt {α : Type} (action : IO α) : IO (Except String α) :=
  try
    return .ok (← action)
  catch e => return .error (toString e)

/-- The first file of variables in the current folder or in those above it. -/
def findVariables : Nat → String → IO (Option String)
  | 0, _ => return none
  | folders + 1, path => do
    match ← attempt (IO.FS.readFile path) with
    | .ok text => return some text
    | .error _ => findVariables folders ("../" ++ path)

/-- The date and time in the universal time zone. -/
def dateAndTime : IO String := do
  let time ← Std.Time.Timestamp.now
  return (Std.Time.DateTime.ofTimestampWithZone time Std.Time.TimeZone.GMT).format
    "uuuu-MM-dd'T'HH:mm:ss.SSSSSSSSS'Z'"

/-- The machine that the program runs on. -/
def machine : Host IO where
  readText path := attempt (IO.FS.readFile path)
  writeBytes path bytes := attempt (IO.FS.writeBinFile path ⟨bytes.toArray⟩)
  lookup name := IO.getEnv name
  variableText := do
    let folder ← IO.currentDir
    findVariables ((folder.toString.splitOn "/").length) ".env"
  now := dateAndTime

/-- Tells on the terminal how a run has ended. -/
def report : Exit → IO Unit
  | .done => pure ()
  | .usage .help => IO.print Options.help
  | .usage (.faulty reason) => IO.eprintln ("error: " ++ reason)
  | .failed cause => IO.eprintln ("Error: " ++ cause.record)

end ConsoleVideo

/-- Runs the program with the words of its command line. -/
def main (words : List String) : IO UInt32 := do
  let exit ← ConsoleVideo.Program.run ConsoleVideo.machine words
  ConsoleVideo.report exit
  return UInt32.ofNat exit.code
