import ConsoleVideo.Text.Reader
import ConsoleVideo.Toml.Scalar

/-!
# Blanks, comments and quoted text

* `Toml.blanks`, `Toml.newline?`, `Toml.comment?`, `Toml.layout` — what may stand between values;
* `Toml.escaped` — the character behind a backslash;
* `Toml.basic`, `Toml.literal` — text on one line, with escapes and without;
* `Toml.basicBlock`, `Toml.literalBlock` — text over several lines;
* `Toml.quoted?` — text after any of the four opening marks.
-/

namespace ConsoleVideo.Toml

open Reader

/-! ### Between values -/

/-- Leaves out spaces and tabs. -/
def blanks : Reader Unit :=
  dropWhile fun c => c = ' ' || c = '\t'

/-- Takes the end of a line, if it comes. -/
def newline? : Reader Bool := do
  if ← accept ['\n'] then pure true else accept ['\r', '\n']

/-- Whether a character may stand for itself in text and comments: no control character but the
tab may. -/
def isPlain (c : Char) : Bool :=
  c = '\t' || (' ' ≤ c && c ≠ '\x7f')

/-- Takes a comment up to the end of its line, if one comes. -/
def comment? : Reader Bool := do
  if ← accept ['#'] then
    dropWhile isPlain
    pure true
  else pure false

/-- Leaves out spaces, tabs, comments and ends of lines. -/
def layout : Reader Unit :=
  iterate (fun _ => do
    blanks
    let _ ← comment?
    if ← newline? then pure (.inl ()) else pure (.inr ())) ()

/-! ### Quoted text -/

/-- The character with the code point that the next `digits` hexadecimal digits give. -/
def codePoint (digits : Nat) : Reader Char := fun cs =>
  let code := cs.take digits
  if code.length = digits ∧ code.all isHexDigit ∧ (numeral 16 code).isValidChar then
    .ok (Char.ofNat (numeral 16 code), cs.drop digits)
  else .error "invalid code point"

/-- The character that stands behind a backslash. -/
def escaped : Reader Char := do
  match ← next with
  | 'b' => pure '\x08'
  | 't' => pure '\t'
  | 'n' => pure '\n'
  | 'f' => pure '\x0c'
  | 'r' => pure '\r'
  | 'e' => pure '\x1b'
  | '"' => pure '"'
  | '\\' => pure '\\'
  | 'x' => codePoint 2
  | 'u' => codePoint 4
  | 'U' => codePoint 8
  | c => refuse s!"unknown escape '{c}'"

/-- Text from its characters, the last one first. -/
def ofReversed (cs : List Char) : String :=
  String.ofList cs.reverse

/-- A character that stands for itself, before the ones already read. -/
def plain (read : List Char) (c : Char) : Reader (List Char ⊕ String) :=
  if isPlain c then pure (.inl (c :: read)) else refuse "control character in text"

/-- Text with escapes, up to its closing mark. -/
def basic : Reader String :=
  iterate (fun read => do
    match ← next with
    | '"' => pure (.inr (ofReversed read))
    | '\\' => do pure (.inl ((← escaped) :: read))
    | c => plain read c) []

/-- Text without escapes, up to its closing mark. -/
def literal : Reader String :=
  iterate (fun read => do
    match ← next with
    | '\'' => pure (.inr (ofReversed read))
    | c => plain read c) []

/-- What three to five quotation marks close: the last three close the text, the others belong
to it. -/
def closing? (mark : Char) (read : List Char) : Reader (Option String) := do
  if ← accept (List.replicate 5 mark) then pure (some (ofReversed (mark :: mark :: read)))
  else if ← accept (List.replicate 4 mark) then pure (some (ofReversed (mark :: read)))
  else if ← accept (List.replicate 3 mark) then pure (some (ofReversed read))
  else pure none

/-- The end of a line behind a backslash, with all blanks and empty lines after it. -/
def joinedLines : Reader Unit := do
  blanks
  if ← newline? then
    iterate (fun _ => do
      blanks
      if ← newline? then pure (.inl ()) else pure (.inr ())) ()
  else refuse "text after a backslash and blanks"

/-- Text over several lines, with escapes, up to its closing marks. -/
def basicBlock : Reader String :=
  iterate (fun read => do
    if let some text ← closing? '"' read then pure (.inr text)
    else if ← newline? then pure (.inl ('\n' :: read))
    else if ← accept ['\\'] then
      match ← peek with
      | some ' ' | some '\t' | some '\n' | some '\r' => do
        joinedLines
        pure (.inl read)
      | _ => do pure (.inl ((← escaped) :: read))
    else plain read (← next)) []

/-- Text over several lines, without escapes, up to its closing marks. -/
def literalBlock : Reader String :=
  iterate (fun read => do
    if let some text ← closing? '\'' read then pure (.inr text)
    else if ← newline? then pure (.inl ('\n' :: read))
    else plain read (← next)) []

/-- Text in quotation marks of any kind, if some come.  The end of a line right after the opening
marks of a block does not belong to it. -/
def quoted? : Reader (Option String) := do
  if ← accept ['"', '"', '"'] then
    let _ ← newline?
    some <$> basicBlock
  else if ← accept ['\'', '\'', '\''] then
    let _ ← newline?
    some <$> literalBlock
  else if ← accept ['"'] then some <$> basic
  else if ← accept ['\''] then some <$> literal
  else pure none

end ConsoleVideo.Toml
