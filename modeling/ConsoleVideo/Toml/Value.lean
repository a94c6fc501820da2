/-!
# Values and tables of a settings document

A settings document is a table of keys and values.  What a later line may add to a table depends
on how the table came about.

* `Toml.Value` — text, numbers, moments, truth values, arrays and tables;
* `Toml.Origin` — how a table came about;
* `Toml.Table` — a table, with `get?` and `put` (`get?_put`);
* `Table.within` — a change to the table at the end of a path of keys;
* `Table.insert`, `Table.openHeader`, `Table.appendHeader` — what a line `key = value`, a line
  `[header]` and a line `[[header]]` do.
-/

namespace ConsoleVideo.Toml

/-- How a table came about. -/
inductive Origin where
  /-- By a header of its own, or as the document. -/
  | header
  /-- By a longer header that passes through it. -/
  | path
  /-- By a dotted key that passes through it. -/
  | dotted
  /-- In braces, which closes it for good. -/
  | inline
  deriving DecidableEq

/-- A value of a settings document. -/
inductive Value where
  | text (characters : String)
  | integer (value : Int)
  /-- A floating-point number, as it is written. -/
  | float (literal : String)
  /-- A date, a time or both, as it is written. -/
  | moment (literal : String)
  | boolean (value : Bool)
  | array (items : List Value)
  | table (origin : Origin) (entries : List (String × Value))
  /-- The tables that headers in double brackets have opened, the latest first. -/
  | tables (elements : List (List (String × Value)))

/-- A table: its keys and values in the order in which they came. -/
structure Table where
  origin : Origin
  entries : List (String × Value)

namespace Table

/-- A table without keys. -/
def empty (origin : Origin) : Table :=
  ⟨origin, []⟩

/-- The table as a value. -/
def toValue (t : Table) : Value :=
  .table t.origin t.entries

/-- The value of a key. -/
def get? (t : Table) (key : String) : Option Value :=
  t.entries.lookup key

/-- Entries with a value put in the place of the key's old one, or else at the end. -/
def putEntry (key : String) (value : Value) : List (String × Value) → List (String × Value)
  | [] => [(key, value)]
  | (k, v) :: rest =>
    if k = key then (key, value) :: rest else (k, v) :: putEntry key value rest

/-- The table with a value for a key. -/
def put (t : Table) (key : String) (value : Value) : Table :=
  { t with entries := putEntry key value t.entries }

theorem lookup_putEntry (key other : String) (value : Value) (entries : List (String × Value)) :
    (putEntry key value entries).lookup other =
      if other = key then some value else entries.lookup other := by
  induction entries with
  | nil =>
    by_cases h : other = key
    · simp [putEntry, h]
    · simp [putEntry, h]
  | cons entry rest ih =>
    obtain ⟨k, v⟩ := entry
    unfold putEntry
    by_cases hk : k = key
    · subst hk
      by_cases h : other = k
      · simp [h]
      · have hb : (other == k) = false := by simpa using h
        simp [List.lookup_cons, h, hb]
    · rw [if_neg hk]
      simp only [List.lookup_cons, ih]
      by_cases h : other = key
      · subst h
        have hb : (other == k) = false := by simpa using Ne.symm hk
        simp [hb]
      · simp [h]

theorem get?_put (t : Table) (key other : String) (value : Value) :
    (t.put key value).get? other = if other = key then some value else t.get? other :=
  lookup_putEntry key other value t.entries

/-! ### Lines of a document -/

/-- Changes the table at the end of a path.  Missing tables are made on the way.  The path passes
through the latest of an array of tables, but through no closed table, and a dotted path through
no table that has a header. -/
def within (dotted : Bool) :
    List String → (Table → Except String Table) → Table → Except String Table
  | [], change, t => change t
  | key :: path, change, t =>
    match t.get? key with
    | none =>
      (within dotted path change (empty (if dotted then .dotted else .path))).map fun sub =>
        t.put key sub.toValue
    | some (.table origin entries) =>
      if origin = .inline ∨ (dotted ∧ origin = .header) then
        .error s!"table '{key}' cannot be extended"
      else
        (within dotted path change ⟨origin, entries⟩).map fun sub => t.put key sub.toValue
    | some (.tables (latest :: earlier)) =>
      (within dotted path change ⟨.header, latest⟩).map fun sub =>
        t.put key (.tables (sub.entries :: earlier))
    | some _ => .error s!"'{key}' is not a table"

/-- Puts a new key at the end of a dotted path.  Only dotted keys add to a table that they made,
and they add to no other. -/
def insert (path : List String) (key : String) (value : Value) : Table → Except String Table :=
  within true path fun t =>
    if decide (t.origin = .dotted) == path.isEmpty then
      .error s!"table of '{key}' has its own header"
    else match t.get? key with
      | some _ => .error s!"duplicate key '{key}'"
      | none => .ok (t.put key value)

/-- Opens the table of a header.  A table that exists must have come about by a longer header. -/
def openHeader (path : List String) (key : String) : Table → Except String Table :=
  within false path fun t =>
    match t.get? key with
    | none => .ok (t.put key (.table .header []))
    | some (.table .path entries) => .ok (t.put key (.table .header entries))
    | some _ => .error s!"duplicate key '{key}'"

/-- Opens one more table of an array of tables. -/
def appendHeader (path : List String) (key : String) : Table → Except String Table :=
  within false path fun t =>
    match t.get? key with
    | none => .ok (t.put key (.tables [[]]))
    | some (.tables elements) => .ok (t.put key (.tables ([] :: elements)))
    | some _ => .error s!"duplicate key '{key}'"

end Table

end ConsoleVideo.Toml
