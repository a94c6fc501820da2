import ConsoleVideo.Toml.Quoted

/-!
# Settings documents

A document is a sequence of lines: a header in brackets opens a table, and a line `key = value`
adds to the table that is open.

* `Toml.keyPath` — a key, behind the dotted path that leads to it;
* `Toml.value` — a value, with arrays and tables in it nested up to a depth;
* `Toml.line` — one line and what it does to the document;
* `Toml.parse` — the table that a whole document describes.
-/

namespace ConsoleVideo.Toml

open Reader

/-! ### Keys -/

/-- Whether a character may stand in a key without quotation marks. -/
def isBareKeyChar (c : Char) : Bool :=
  c.isAlphanum || c = '_' || c = '-'

/-- A key without dots. -/
def simpleKey : Reader String := do
  if ← accept ['"'] then basic
  else if ← accept ['\''] then literal
  else
    let cs ← takeWhile isBareKeyChar
    if cs.isEmpty then refuse "key expected" else pure (String.ofList cs)

/-- A key and the keys in front of it, with the dots and blanks between them. -/
def keyPath : Reader (List String × String) :=
  iterate (fun path => do
    let key ← simpleKey
    blanks
    if ← accept ['.'] then
      blanks
      pure (.inl (path ++ [key]))
    else pure (.inr (path, key))) []

/-! ### Values -/

/-- The characters of an unquoted value.  A single space may part a date from a time. -/
def scalarRun : Reader (List Char) := fun cs =>
  match cs.span isScalarChar with
  | (date, ' ' :: rest) =>
    if afterDate? date = some [] ∧ rest.head?.any Char.isDigit then
      let (time, rest) := rest.span isScalarChar
      .ok (date ++ ' ' :: time, rest)
    else .ok (date, ' ' :: rest)
  | run => .ok run

/-- A value that holds no other. -/
def simpleValue : Reader Value := do
  if let some text ← quoted? then pure (.text text)
  else
    let cs ← scalarRun
    match scalar? cs with
    | some v => pure v
    | none => refuse ("no value: " ++ String.ofList cs)

/-- The rest of an array, up to its closing bracket. -/
def arrayItems (element : Reader Value) : Reader Value :=
  iterate (fun items => do
    layout
    if ← accept [']'] then pure (.inr (.array items.reverse))
    else
      let item ← element
      layout
      if ← accept [','] then pure (.inl (item :: items))
      else
        expect ']'
        pure (.inr (.array (item :: items).reverse))) []

/-- A key path, an equals sign and a value. -/
def assignment (element : Reader Value) : Reader (List String × String × Value) := do
  let (path, key) ← keyPath
  expect '='
  blanks
  let v ← element
  pure (path, key, v)

/-- The rest of a table in braces, up to its closing brace. -/
def inlineEntries (element : Reader Value) : Reader Value :=
  iterate (fun t => do
    layout
    if ← accept ['}'] then pure (.inr (.table .inline t.entries))
    else
      let (path, key, v) ← assignment element
      let t ← t.insert path key v
      layout
      if ← accept [','] then pure (.inl t)
      else
        expect '}'
        pure (.inr (.table .inline t.entries))) (Table.empty .header)

/-- A value, with arrays and tables in it nested up to a depth. -/
def value : Nat → Reader Value
  | 0 => simpleValue
  | depth + 1 => do
    if ← accept ['['] then arrayItems (value depth)
    else if ← accept ['{'] then inlineEntries (value depth)
    else simpleValue

/-- How deeply arrays and tables in braces may be nested. -/
def maxDepth : Nat := 80

/-! ### Lines -/

/-- What may follow on a line, up to its end. -/
def lineEnd : Reader Unit := do
  blanks
  let _ ← comment?
  if ← newline? then pure ()
  else match ← peek with
    | none => pure ()
    | some c => refuse s!"unexpected '{c}' at the end of a line"

/-- A header up to its closing brackets. -/
def header (brackets : List Char) : Reader (List String × String) := do
  blanks
  let target ← keyPath
  if ← accept brackets then pure target else refuse "header is not closed"

/-- The document so far, and the path of the table that is open. -/
structure Draft where
  root : Table
  opened : List String

/-- One line; the document is over where no line follows. -/
def line (draft : Draft) : Reader (Draft ⊕ Table) := do
  blanks
  if ← accept ['[', '['] then
    let (path, key) ← header [']', ']']
    let root ← draft.root.appendHeader path key
    lineEnd
    pure (.inl ⟨root, path ++ [key]⟩)
  else if ← accept ['['] then
    let (path, key) ← header [']']
    let root ← draft.root.openHeader path key
    lineEnd
    pure (.inl ⟨root, path ++ [key]⟩)
  else match ← peek with
    | none => pure (.inr draft.root)
    | some '#' | some '\n' | some '\r' => do
      lineEnd
      pure (.inl draft)
    | some _ => do
      let (path, key, v) ← assignment (value maxDepth)
      let root ← draft.root.within false draft.opened (Table.insert path key v)
      lineEnd
      pure (.inl { draft with root := root })

/-- A whole document, behind a byte order mark if there is one. -/
def document : Reader Table := do
  let _ ← accept ['\uFEFF']
  iterate line ⟨Table.empty .header, []⟩

/-- The table that a document describes, or why it is none. -/
def parse (text : String) : Except String Table :=
  whole document text

end ConsoleVideo.Toml
