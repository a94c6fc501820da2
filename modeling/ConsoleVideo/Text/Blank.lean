/-!
# Blank characters and letter case

Settings given as text may be surrounded by blanks and written in either case.

* `Text.blanks` — the code points with the Unicode property `White_Space`;
* `Text.isBlank` — membership in that table;
* `Text.trimLeft`, `Text.trimRight`, `Text.trim` — characters without blanks at an end;
* `Text.lowered` — trimmed and with the letters `A`–`Z` in lower case; other letters stay.
-/

namespace ConsoleVideo.Text

/-- The code points with the property `White_Space`, in their order. -/
def blanks : List Nat :=
  [0x9, 0xA, 0xB, 0xC, 0xD, 0x20, 0x85, 0xA0, 0x1680, 0x2000, 0x2001, 0x2002, 0x2003, 0x2004,
    0x2005, 0x2006, 0x2007, 0x2008, 0x2009, 0x200A, 0x2028, 0x2029, 0x202F, 0x205F, 0x3000]

/-- Whether a character is white space. -/
def isBlank (c : Char) : Bool :=
  blanks.contains c.toNat

/-- The characters from the first that is not blank. -/
def trimLeft (cs : List Char) : List Char :=
  cs.dropWhile isBlank

/-- The characters up to the last that is not blank. -/
def trimRight (cs : List Char) : List Char :=
  (trimLeft cs.reverse).reverse

/-- The characters without blanks at either end. -/
def trim (cs : List Char) : List Char :=
  trimRight (trimLeft cs)

/-- A text without blanks at either end and with the letters `A`–`Z` in lower case. -/
def lowered (s : String) : String :=
  String.ofList ((trim s.toList).map Char.toLower)

end ConsoleVideo.Text
