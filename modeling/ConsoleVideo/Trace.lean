import ConsoleVideo.Text.Reader
import ConsoleVideo.Word

/-!
# Command traces

A trace is what software did to the video hardware: the words it wrote to the two registers, and the
time that went by.

* `TraceEvent` — one of these;
* `Trace.spelled` — a name whose characters may be written by their codes;
* `Trace.event` — an object with the name of an event and its number;
* `Trace.parse` — a whole trace: a list of events in brackets.
-/

namespace ConsoleVideo

/-- What software did to the video hardware. -/
inductive TraceEvent where
  /-- A word for the command register. -/
  | draw (word : Word)
  /-- A word for the control register. -/
  | control (word : Word)
  /-- So many processor cycles go by; zero stands for the cycles of a frame. -/
  | tick (cycles : Word)
  deriving DecidableEq

namespace Trace

open Reader

/-- The names of the events. -/
def names : List (String × (Word → TraceEvent)) :=
  [("gp0", .draw), ("gp1", .control), ("tick", .tick)]

/-- Leaves out blanks. -/
def blanks : Reader Unit :=
  dropWhile fun c => c = ' ' || c = '\n' || c = '\t' || c = '\r'

/-! ### Names -/

/-- The number of a hexadecimal digit. -/
def hexValue? (c : Char) : Option Nat :=
  let d := c.toLower
  if d.isDigit then some (d.toNat - '0'.toNat)
  else if 'a' ≤ d ∧ d ≤ 'f' then some (d.toNat - 'a'.toNat + 10)
  else none

/-- The number of four hexadecimal digits. -/
def code? (a b c d : Char) : Option Nat := do
  pure (((← hexValue? a) * 16 + (← hexValue? b)) * 256 + (← hexValue? c) * 16 + (← hexValue? d))

/-- What follows a name, of which each character stands for itself or is given by its code. -/
def spelled : List Char → List Char → Option (List Char)
  | [], rest => some rest
  | x :: name, '\\' :: 'u' :: a :: b :: c :: d :: rest =>
    if code? a b c d = some x.toNat then spelled name rest else none
  | x :: name, y :: rest => if x = y then spelled name rest else none
  | _ :: _, [] => none

/-- The kind of event that a name in quotation marks gives. -/
def kind : Reader (Word → TraceEvent) := do
  expect '"'
  fun cs =>
    match names.findSome? fun (name, make) =>
        match spelled name.toList cs with
        | some ('"' :: rest) => some (make, rest)
        | _ => none with
    | some found => .ok found
    | none => .error "unknown kind of event"

/-! ### Events -/

/-- A whole number that fits into a word, without superfluous zeros. -/
def number : Reader Word := do
  let digits ← takeWhile Char.isDigit
  let n := digits.foldl (fun n c => 10 * n + (c.toNat - '0'.toNat)) 0
  if digits.isEmpty then refuse "number expected"
  else if digits.head? = some '0' ∧ digits.length ≠ 1 then refuse "number begins with a zero"
  else if n < 4294967296 then pure (UInt32.ofNat n)
  else refuse "number does not fit into a word"

/-- An object with the name of an event and its number. -/
def event : Reader TraceEvent := do
  expect '\x7b'
  blanks
  let make ← kind
  blanks
  expect ':'
  blanks
  let n ← number
  blanks
  expect '\x7d'
  pure (make n)

/-- The events behind the ones already read, the last one first, up to the closing bracket. -/
def moreEvents (read : List TraceEvent) : Reader (List TraceEvent ⊕ List TraceEvent) := do
  blanks
  let e ← event
  blanks
  if ← accept [','] then pure (.inl (e :: read))
  else
    expect ']'
    pure (.inr (e :: read).reverse)

/-- A list of events in brackets. -/
def events : Reader (List TraceEvent) := do
  blanks
  expect '['
  blanks
  let read ← if ← accept [']'] then pure [] else iterate moreEvents []
  blanks
  pure read

/-- The events of a trace, or why the text is none. -/
def parse (text : String) : Except String (List TraceEvent) :=
  whole events text

end Trace

end ConsoleVideo
