import ConsoleVideo.Text.Blank
import ConsoleVideo.Text.Reader

/-!
# Files of variables

A file of variables sets a variable per line, `name = value`.  Values may be quoted, may run over
several lines inside quotation marks, and may refer to other variables.

* `VariableFile.Piece`, `VariableFile.Assignment` — what a line sets, before references are
  replaced;
* `VariableFile.joined` — the lines of a file, with those joined that a quotation runs over;
* `VariableFile.pieces` — a value, read character by character;
* `VariableFile.assignments` — the assignments of a file up to the first faulty line;
* `VariableFile.load` — the variables that the assignments add to those that are set already.
-/

namespace ConsoleVideo.VariableFile

open Reader

/-- A part of a value. -/
inductive Piece where
  | character (c : Char)
  /-- The value of another variable. -/
  | reference (name : String)
  deriving DecidableEq

/-- A variable and its value. -/
structure Assignment where
  name : String
  value : List Piece
  deriving DecidableEq

/-! ### Lines -/

/-- Where a line stands while it is looked through for its end. -/
inductive LineState where
  | plain
  /-- After a blank, where a comment may begin. -/
  | blank
  | escape
  | single
  | singleEscape
  | double
  | doubleEscape
  | comment
  deriving DecidableEq

namespace LineState

/-- What a character that opens something leads to. -/
def opening (c : Char) : Option LineState :=
  match c with
  | '\\' => some .escape
  | '"' => some .double
  | '\'' => some .single
  | _ => none

/-- The state after a character. -/
def step : LineState → Char → LineState
  | .plain, c =>
    (opening c).getD (if Text.isBlank c && c ≠ '\n' && c ≠ '\r' then .blank else .plain)
  | .blank, c => if c = '#' then .comment else (opening c).getD .plain
  | .escape, _ => .plain
  | .single, c => if c = '\\' then .singleEscape else if c = '\'' then .plain else .single
  | .singleEscape, _ => .single
  | .double, c => if c = '\\' then .doubleEscape else if c = '"' then .plain else .double
  | .doubleEscape, _ => .double
  | .comment, _ => .comment

/-- The state after some characters, and those in front of a comment. -/
def scan (state : LineState) : List Char → LineState × List Char
  | [] => (state, [])
  | c :: cs =>
    match state.step c with
    | .comment => (.comment, [])
    | next =>
      match scan next cs with
      | (last, kept) => (last, c :: kept)

end LineState

/-- The lines of a text, each with its end. -/
def rawLines : List Char → List (List Char)
  | [] => []
  | c :: cs =>
    if c = '\n' then [c] :: rawLines cs
    else match rawLines cs with
      | [] => [[c]]
      | line :: lines => (c :: line) :: lines

theorem flatten_rawLines (cs : List Char) : (rawLines cs).flatten = cs := by
  induction cs with
  | nil => rfl
  | cons c cs ih =>
    unfold rawLines
    split
    · simp [ih]
    · split
      · next h => simp [h] at ih; simp [← ih]
      · next h => simp [h] at ih; simp [← ih]

/-- A line without its end. -/
def withoutEnd (line : List Char) : List Char :=
  match line.reverse with
  | '\n' :: '\r' :: rest => rest.reverse
  | '\n' :: rest => rest.reverse
  | _ => line

/-- The lines of a file.  A line that does not end by itself is joined with the next; a file that
ends before it does has no last line, which `none` shows.  A line that begins with `#` is empty. -/
def joined (begun : List Char) (state : LineState) : List (List Char) → List (Option (List Char))
  | [] => if state = .plain then [] else [none]
  | raw :: raws =>
    let line := begun ++ raw
    if (Text.trimLeft line).head? = some '#' then some [] :: joined [] .plain raws
    else match state.scan raw with
      | (.plain, _) => some (withoutEnd line) :: joined [] .plain raws
      | (.comment, kept) => some (begun ++ kept) :: joined [] .plain raws
      | (state, _) => joined line state raws

/-! ### Values -/

/-- Where a value stands while it is read. -/
inductive ValueState where
  | bare
  | single
  | double
  /-- After a backslash. -/
  | escape (quoted : Bool)
  /-- In the name of a variable, of which the characters are given in reverse. -/
  | name (quoted braced : Bool) (read : List Char)
  /-- After a blank, where only a comment may follow. -/
  | over
  | comment

namespace ValueState

/-- The state inside or outside quotation marks. -/
def within (quoted : Bool) : ValueState :=
  if quoted then .double else .bare

/-- A reference to the variable with the given name in reverse. -/
def referenceTo (read : List Char) : Piece :=
  .reference (String.ofList read.reverse)

/-- Whether a character belongs to a name: letters and digits do, and beyond ASCII all but
blanks. -/
def isNameChar (c : Char) : Bool :=
  c.isAlphanum || ('\x7f' < c && !Text.isBlank c)

/-- The state after a character, with the pieces that are complete; none if the character may not
come. -/
def step : ValueState → Char → Option (ValueState × List Piece)
  | .bare, c =>
    match c with
    | '$' => some (.name false false [], [])
    | '\'' => some (.single, [])
    | '"' => some (.double, [])
    | '\\' => some (.escape false, [])
    | ' ' | '\t' => some (.over, [])
    | c => some (.bare, [.character c])
  | .single, c => if c = '\'' then some (.bare, []) else some (.single, [.character c])
  | .double, c =>
    match c with
    | '$' => some (.name true false [], [])
    | '"' => some (.bare, [])
    | '\\' => some (.escape true, [])
    | c => some (.double, [.character c])
  | .escape quoted, c =>
    match c with
    | '\\' | '\'' | '"' | '$' | ' ' => some (within quoted, [.character c])
    | 'n' => some (within quoted, [.character '\n'])
    | _ => none
  | .name quoted true read, c =>
    if c = '\x7d' then some (within quoted, [referenceTo read])
    else some (.name quoted true (c :: read), [])
  | .name quoted false read, c =>
    if isNameChar c then some (.name quoted false (c :: read), [])
    else if c = '\x7b' ∧ read = [] then some (.name quoted true [], [])
    else if c = '$' then some (.name quoted false [], [referenceTo read])
    else some (within quoted, [referenceTo read, .character c])
  | .over, c =>
    if c = ' ' ∨ c = '\t' then some (.over, []) else if c = '#' then some (.comment, []) else none
  | .comment, _ => some (.comment, [])

/-- What the end of the value completes; none if it may not end here. -/
def finish : ValueState → Option (List Piece)
  | .bare | .escape false | .over | .comment => some []
  | .name false false read => some [referenceTo read]
  | _ => none

end ValueState

/-- The pieces of a value; none if it is faulty. -/
def pieces (state : ValueState) : List Char → Option (List Piece)
  | [] => state.finish
  | c :: cs =>
    match state.step c with
    | none => none
    | some (next, made) => (pieces next cs).map (made ++ ·)

/-! ### Assignments -/

/-- The name of a variable. -/
def variableName : Reader String := do
  let cs ← takeWhile fun c => c.isAlphanum || c = '_' || c = '.'
  match cs with
  | c :: _ =>
    if c.isAlpha || c = '_' then pure (String.ofList cs) else refuse "name begins with a digit"
  | [] => refuse "name expected"

/-- The rest of the line as a value; nothing and a comment are an empty value. -/
def assignedValue : Reader (List Piece)
  | [] => .ok ([], [])
  | '#' :: _ => .ok ([], [])
  | cs =>
    match pieces .bare cs with
    | some value => .ok (value, [])
    | none => .error "faulty value"

/-- An assignment; the word `export` may come first. -/
def assignment : Reader Assignment := do
  let first ← variableName
  dropWhile Text.isBlank
  let name ←
    if first = "export" then
      if ← accept ['='] then pure first
      else
        let name ← variableName
        dropWhile Text.isBlank
        expect '='
        pure name
    else
      expect '='
      pure first
  dropWhile Text.isBlank
  pure ⟨name, ← assignedValue⟩

/-- What a line sets, if it is neither empty nor a comment. -/
def line (cs : List Char) : Except String (Option Assignment) :=
  match Text.trim cs with
  | [] => .ok none
  | '#' :: _ => .ok none
  | cs => (assignment cs).map fun result => some result.1

/-- The assignments in some lines up to the first faulty one, and what is wrong with it. -/
def upToFault : List (Option (List Char)) → List Assignment × Option String
  | [] => ([], none)
  | none :: _ => ([], some "file ends in a quotation")
  | some cs :: lines =>
    match line cs with
    | .error reason => ([], some reason)
    | .ok found =>
      match upToFault lines with
      | (assignments, fault) => (found.toList ++ assignments, fault)

/-- The assignments in a file up to the first faulty line, and what is wrong with that.  A byte
order mark is left out. -/
def assignments (text : String) : List Assignment × Option String :=
  match text.toList with
  | '\uFEFF' :: cs => upToFault (joined [] .plain (rawLines cs))
  | cs => upToFault (joined [] .plain (rawLines cs))

/-! ### Loading -/

variable {m : Type → Type} [Monad m]

/-- The value of a variable that is set, or else that has been loaded. -/
def known (lookup : String → m (Option String)) (loaded : List (String × String))
    (name : String) : m (Option String) := do
  pure ((← lookup name).or (loaded.lookup name))

/-- A value with its references replaced; what is not set counts as empty. -/
def resolved (lookup : String → m (Option String)) : List Piece → m String
  | [] => pure ""
  | .character c :: rest => do pure (String.singleton c ++ (← resolved lookup rest))
  | .reference name :: rest => do
    pure (((← lookup name).getD "") ++ (← resolved lookup rest))

/-- The variables that assignments add.  What is set already stays, and what is assigned twice
keeps its first value. -/
def load (lookup : String → m (Option String)) (loaded : List (String × String)) :
    List Assignment → m (List (String × String))
  | [] => pure loaded
  | a :: rest => do
    match ← known lookup loaded a.name with
    | some _ => load lookup loaded rest
    | none =>
      let value ← resolved (known lookup loaded) a.value
      load lookup (loaded ++ [(a.name, value)]) rest

end ConsoleVideo.VariableFile
