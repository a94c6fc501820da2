/-!
# Reading text

A reader takes characters from the front of a text, or refuses it with a reason.

* `Reader` — a step over the characters that are left;
* `Reader.peek`, `Reader.next`, `Reader.accept`, `Reader.expect`, `Reader.takeWhile` and
  `Reader.dropWhile` — the basic steps;
* `Reader.iterate` — a step that is repeated until it has a result;
* `Reader.whole` — what a reader makes of a whole text.
-/

namespace ConsoleVideo

/-- Takes characters from the front of a text, or refuses it with a reason. -/
abbrev Reader := StateT (List Char) (Except String)

namespace Reader

variable {α σ : Type}

/-- Refuses the text. -/
def refuse (reason : String) : Reader α :=
  fun _ => .error reason

/-- The first character, which stays. -/
def peek : Reader (Option Char) :=
  fun cs => .ok (cs.head?, cs)

/-- Takes the first character. -/
def next : Reader Char
  | [] => .error "unexpected end"
  | c :: cs => .ok (c, cs)

/-- Takes the given characters if the text begins with them; says whether it does. -/
def accept (word : List Char) : Reader Bool :=
  fun cs => if word.isPrefixOf cs then .ok (true, cs.drop word.length) else .ok (false, cs)

/-- Takes the given character, which has to come. -/
def expect (c : Char) : Reader Unit
  | [] => .error "unexpected end"
  | d :: cs => if d = c then .ok ((), cs) else .error s!"expected '{c}', found '{d}'"

/-- Takes the longest run of characters of a class. -/
def takeWhile (p : Char → Bool) : Reader (List Char) :=
  fun cs => .ok (cs.span p)

/-- Leaves out the longest run of characters of a class. -/
def dropWhile (p : Char → Bool) : Reader Unit :=
  fun cs => .ok ((), cs.dropWhile p)

/-- At most `rounds` rounds of `step`. -/
def rounds (step : σ → Reader (σ ⊕ α)) : Nat → σ → Reader α
  | 0, _ => refuse "no progress"
  | n + 1, s => do
    match ← step s with
    | .inl s => rounds step n s
    | .inr a => pure a

/-- Repeats `step` from a start until it has a result.  Rounds that go on have to take a
character, for there are no more rounds than characters, and one to end with. -/
def iterate (step : σ → Reader (σ ⊕ α)) (s : σ) : Reader α :=
  fun cs => rounds step (cs.length + 1) s cs

/-- What a reader makes of a whole text; nothing may be left. -/
def whole (reader : Reader α) (text : String) : Except String α :=
  match reader text.toList with
  | .ok (a, []) => .ok a
  | .ok (_, c :: _) => .error s!"unexpected '{c}'"
  | .error reason => .error reason

end Reader

end ConsoleVideo
