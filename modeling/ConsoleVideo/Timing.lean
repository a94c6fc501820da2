import ConsoleVideo.Environment

/-!
# Display timing

The video clock runs at 11/7 of the processor clock.  Positions in a line are counted in hundredths
of a video cycle, so that nothing is lost to rounding.

* `VideoMode` — lines per frame and cycles per line;
* `DisplayTiming` — where the beam is;
* `DisplayTiming.advance` — moves it on by a number of processor cycles and counts the frames that
  ended, with the whole lines taken in one division (`stepLines`);
* `TimingSample` — what the timers see.
-/

namespace ConsoleVideo

/-- The television standard. -/
structure VideoMode where
  /-- Video cycles in a line. -/
  cyclesPerLine : Nat
  linesPerFrame : Nat
  deriving DecidableEq

namespace VideoMode

def ntsc : VideoMode := ⟨3413, 263⟩

def pal : VideoMode := ⟨3406, 314⟩

/-- The standard that the status selects. -/
def ofStatus (status : Status) : VideoMode :=
  if status.pal then pal else ntsc

/-- The length of a line in hundredths of a video cycle. -/
def lineLength (mode : VideoMode) : Nat :=
  mode.cyclesPerLine * 100

theorem lineLength_range (status : Status) :
    340600 ≤ (ofStatus status).lineLength ∧ (ofStatus status).lineLength ≤ 341300 := by
  unfold ofStatus
  split <;> decide

theorem linesPerFrame_range (status : Status) :
    263 ≤ (ofStatus status).linesPerFrame ∧ (ofStatus status).linesPerFrame ≤ 314 := by
  unfold ofStatus
  split <;> decide

end VideoMode

/-- Where the beam is. -/
structure DisplayTiming where
  /-- The position in the line, in hundredths of a video cycle. -/
  videoCycles : Nat
  /-- Sevenths of such a unit that are carried over. -/
  remainder : Nat
  scanline : Nat
  /-- Which field of an interlaced picture is shown. -/
  oddField : Bool
  /-- Outside the shown part of the line. -/
  inHBlank : Bool
  /-- Outside the shown lines. -/
  inVBlank : Bool
  deriving DecidableEq

/-- What the timers see. -/
structure TimingSample where
  dotClock : Nat
  inHBlank : Bool
  inVBlank : Bool
  scanline : Nat
  deriving DecidableEq

namespace DisplayTiming

/-- The beam at the start of everything. -/
def start : DisplayTiming where
  videoCycles := 0
  remainder := 0
  scanline := 0
  oddField := false
  inHBlank := false
  inVBlank := false

/-- The line that is `count` lines after `line`, and how many frames ended on the way.  A line
beyond the frame, as a mode change may leave behind, ends the frame at the next step. -/
def stepLines (linesPerFrame line count : Nat) : Nat × Nat :=
  match count with
  | 0 => (line, 0)
  | more + 1 =>
    let next := (line + 1) % 4294967296
    if linesPerFrame ≤ next then (more % linesPerFrame, 1 + more / linesPerFrame)
    else ((next + more) % linesPerFrame, (next + more) / linesPerFrame)

/-- Inside the frame, lines are counted modulo its length. -/
theorem stepLines_of_lt {linesPerFrame line count : Nat} (inside : line < linesPerFrame)
    (small : linesPerFrame < 4294967296) :
    stepLines linesPerFrame line count =
      ((line + count) % linesPerFrame, (line + count) / linesPerFrame) := by
  cases count with
  | zero => simp [stepLines, Nat.mod_eq_of_lt inside, Nat.div_eq_of_lt inside]
  | succ more =>
    have next : (line + 1) % 4294967296 = line + 1 := Nat.mod_eq_of_lt (by omega)
    simp only [stepLines, next]
    split
    · have whole : line + (more + 1) = more + linesPerFrame := by omega
      rw [whole, Nat.add_mod_right, Nat.add_div_right more (by omega)]
      simp [Nat.add_comm]
    · simp [Nat.add_assoc, Nat.add_comm 1 more]

/-- Moves the beam on by `cycles` processor cycles; also says how many frames ended. -/
def advance (timing : DisplayTiming) (cycles : Nat) (status : Status)
    (display : DisplayGeometry) : DisplayTiming × Nat :=
  let mode := VideoMode.ofStatus status
  let scaled := cycles * 1100 + timing.remainder
  let position := (timing.videoCycles + scaled / 7) % 18446744073709551616
  let (line, frames) :=
    stepLines mode.linesPerFrame timing.scanline (position / mode.lineLength)
  let videoCycles := position % mode.lineLength
  let dot := videoCycles / 100
  ({ videoCycles := videoCycles
     remainder := scaled % 7
     scanline := line
     oddField := timing.oddField != (status.isInterlaced480 && frames % 2 == 1)
     inHBlank := dot < display.lineStart || display.lineEnd ≤ dot
     inVBlank := line < display.firstLine || display.endLine ≤ line }, frames)

/-- Whether the line being drawn is an odd one. -/
def oddLine (timing : DisplayTiming) (status : Status) : Bool :=
  if timing.inVBlank then false
  else if status.isInterlaced480 then timing.oddField
  else timing.scanline % 2 == 1

/-- What the timers see. -/
def sample (timing : DisplayTiming) (status : Status) : TimingSample where
  dotClock := status.dotClock
  inHBlank := timing.inHBlank
  inVBlank := timing.inVBlank
  scanline := timing.scanline

end DisplayTiming

end ConsoleVideo
