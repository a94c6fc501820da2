import ConsoleVideo.Toml.Value

/-!
# Unquoted values

An unquoted value is a run of letters, digits and a few marks.  What it is follows from its
characters.

* `Toml.grouped?` — digits in groups that single underscores part;
* `Toml.integer?` — decimal, hexadecimal, octal and binary whole numbers;
* `Toml.isFloat` — floating-point numbers that do not exceed the double format;
* `Toml.isMoment` — dates and times of the calendar and the day;
* `Toml.scalar?` — the value of the whole run.
-/

namespace ConsoleVideo.Toml

/-! ### Whole numbers -/

/-- The number that a digit stands for. -/
def digitValue (c : Char) : Nat :=
  if c.isDigit then c.toNat - '0'.toNat else c.toLower.toNat - 'a'.toNat + 10

/-- Whether a character is a hexadecimal digit. -/
def isHexDigit (c : Char) : Bool :=
  c.isDigit || ('a' ≤ c.toLower && c.toLower ≤ 'f')

/-- The number that digits stand for in a base. -/
def numeral (base : Nat) (digits : List Char) : Nat :=
  digits.foldl (fun n c => base * n + digitValue c) 0

/-- The digits of one or more groups.  An underscore stands between two digits. -/
def grouped? (isDigit : Char → Bool) : List Char → Option (List Char)
  | [] => none
  | [c] => if isDigit c then some [c] else none
  | c :: '_' :: rest => if isDigit c then (grouped? isDigit rest).map (c :: ·) else none
  | c :: rest => if isDigit c then (grouped? isDigit rest).map (c :: ·) else none

/-- The characters behind a sign, and whether it is a minus. -/
def unsigned : List Char → Bool × List Char
  | '-' :: rest => (true, rest)
  | '+' :: rest => (false, rest)
  | rest => (false, rest)

/-- Decimal digits that start with a zero only if there are no more. -/
def decimal? (cs : List Char) : Option (List Char) :=
  match grouped? Char.isDigit cs with
  | some ('0' :: _ :: _) => none
  | digits => digits

/-- A whole number with its sign; only a decimal number has one. -/
def integer? : List Char → Option Int
  | '0' :: 'x' :: cs => (grouped? isHexDigit cs).map fun ds => numeral 16 ds
  | '0' :: 'o' :: cs => (grouped? (fun c => '0' ≤ c && c ≤ '7') cs).map fun ds => numeral 8 ds
  | '0' :: 'b' :: cs => (grouped? (fun c => c = '0' || c = '1') cs).map fun ds => numeral 2 ds
  | cs =>
    match unsigned cs with
    | (negative, cs) =>
      (decimal? cs).map fun ds => if negative then -(numeral 10 ds : Int) else numeral 10 ds

/-- Whether a whole number fits into 128 bits, with or without a sign. -/
def fits (n : Int) : Bool :=
  -(Nat.pow 2 127 : Int) ≤ n && n < (Nat.pow 2 128 : Int)

/-! ### Floating-point numbers -/

/-- Whether `digits · 10 ^ exponent` rounds to a finite double: it stays below the middle between
the greatest double and the next power of two.  Exponents far from the limit are not raised. -/
def isFinite (digits : List Char) (exponent : Int) : Bool :=
  let n := numeral 10 digits
  let limit := Nat.pow 2 1024 - Nat.pow 2 970
  if n = 0 then true
  else if 400 < exponent then false
  else if exponent + digits.length < 300 then true
  else if 0 ≤ exponent then n * Nat.pow 10 exponent.toNat < limit
  else n < limit * Nat.pow 10 (-exponent).toNat

/-- The exponent that follows an `e`, if it does. -/
def exponent? : List Char → Option Int
  | [] => some 0
  | _ :: cs =>
    match unsigned cs with
    | (negative, cs) =>
      (grouped? Char.isDigit cs).map fun ds =>
        if negative then -(numeral 10 ds : Int) else numeral 10 ds

/-- Whether an unsigned run is a floating-point number within the double format: a whole part,
then a fraction, an exponent or both. -/
def isUnsignedFloat (cs : List Char) : Bool :=
  let isMark := fun c => c = 'e' || c = 'E'
  let (mantissa, power) := cs.span (!isMark ·)
  let (whole, fraction) := mantissa.span (· ≠ '.')
  match decimal? whole, exponent? power with
  | some ds, some n =>
    match fraction with
    | [] => !power.isEmpty && isFinite ds n
    | _ :: fraction =>
      match grouped? Char.isDigit fraction with
      | some more => isFinite (ds ++ more) (n - more.length)
      | none => false
  | _, _ => false

/-- Whether a run is a floating-point number. -/
def isFloat (cs : List Char) : Bool :=
  let magnitude := (unsigned cs).2
  magnitude = "inf".toList || magnitude = "nan".toList || isUnsignedFloat magnitude

/-! ### Dates and times -/

/-- The number that some characters stand for, if there are as many and all are digits. -/
def field? (width : Nat) (cs : List Char) : Option (Nat × List Char) :=
  let digits := cs.take width
  if digits.length = width ∧ digits.all Char.isDigit then some (numeral 10 digits, cs.drop width)
  else none

/-- How many days a month has. -/
def daysIn (year month : Nat) : Nat :=
  if month = 2 then
    if year % 4 = 0 ∧ (year % 100 ≠ 0 ∨ year % 400 = 0) then 29 else 28
  else if month = 4 ∨ month = 6 ∨ month = 9 ∨ month = 11 then 30 else 31

/-- What follows a date of the calendar. -/
def afterDate? (cs : List Char) : Option (List Char) :=
  match field? 4 cs with
  | some (year, '-' :: cs) =>
    match field? 2 cs with
    | some (month, '-' :: cs) =>
      match field? 2 cs with
      | some (day, cs) =>
        if 1 ≤ month ∧ month ≤ 12 ∧ 1 ≤ day ∧ day ≤ daysIn year month then some cs else none
      | none => none
    | _ => none
  | _ => none

/-- What follows hours and minutes. -/
def afterMinutes? (cs : List Char) : Option (List Char) :=
  match field? 2 cs with
  | some (hour, ':' :: cs) =>
    match field? 2 cs with
    | some (minute, cs) => if hour ≤ 23 ∧ minute ≤ 59 then some cs else none
    | none => none
  | _ => none

/-- What follows a time of the day.  Seconds may be left out; a leap second is a second, and a
fraction has digits. -/
def afterTime? (cs : List Char) : Option (List Char) :=
  match afterMinutes? cs with
  | some (':' :: cs) =>
    match field? 2 cs with
    | some (second, cs) =>
      if second ≤ 60 then
        match cs with
        | '.' :: d :: cs => if d.isDigit then some (cs.dropWhile Char.isDigit) else none
        | '.' :: [] => none
        | cs => some cs
      else none
    | none => none
  | rest => rest

/-- Whether the rest of a moment is empty or a distance from universal time. -/
def isOffset : List Char → Bool
  | [] => true
  | ['Z'] => true
  | ['z'] => true
  | sign :: cs => (sign = '+' || sign = '-') && afterMinutes? cs = some []

/-- Whether a run is a date, a time, or a date and a time. -/
def isMoment (cs : List Char) : Bool :=
  match afterDate? cs with
  | some [] => true
  | some (mark :: time) =>
    (mark = 'T' || mark = 't' || mark = ' ') && (afterTime? time).any isOffset
  | none => afterTime? cs = some []

/-! ### All of them -/

/-- Whether a character may stand in an unquoted value. -/
def isScalarChar (c : Char) : Bool :=
  c.isAlphanum || "_+-.:".toList.contains c

/-- The value that a run of characters stands for. -/
def scalar? (cs : List Char) : Option Value :=
  if cs = "true".toList then some (.boolean true)
  else if cs = "false".toList then some (.boolean false)
  else if isMoment cs then some (.moment (String.ofList cs))
  else match integer? cs with
    | some n => if fits n then some (.integer n) else none
    | none => if isFloat cs then some (.float (String.ofList cs)) else none

end ConsoleVideo.Toml
