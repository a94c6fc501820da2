import ConsoleVideo.Proofs.Arithmetic.Alu
import ConsoleVideo.Proofs.Gpu.Ranges

/-!
# The beam in 32 and 64 bits

The time that one step brings is counted in 64 bits without a sign and carried into lines and frames one
by one, in counters of 32 bits.  It takes a line to end a frame, so that the frames that can end are
bounded by the time, and that by what a step can bring.

* `Carry.line?`, `Carry.lines?` — the beam carried on by a line, and by all that there are;
* `Carry.IsSmall` — what keeps the counters from running over, and `IsSmall.line` — one line keeps it;
* `DisplayTiming.behind?` — the position before anything is carried;
* `DisplayTiming.advance?`, `DisplayTiming.advance?_eq` — the whole step.
-/

namespace ConsoleVideo

open Alu (u32 u64)

/-! ### Line by line -/

namespace Carry

section Loop

variable (lineLength linesPerFrame : Nat) (interlaced : Bool)

/-- Carries one line. -/
def line? (c : Carry) : Option Carry := do
  let videoCycles ← u64.sub c.videoCycles lineLength
  let next ← u32.add c.scanline 1
  if linesPerFrame ≤ next then
    let frames ← u32.add c.frames 1
    return {
      videoCycles := videoCycles.toNat
      scanline := 0
      oddField := c.oddField != interlaced
      frames := frames.toNat }
  else
    return { c with videoCycles := videoCycles.toNat, scanline := next.toNat }

variable {lineLength linesPerFrame interlaced}

/-- A line takes its length off. -/
theorem videoCycles_of_line? {c next : Carry}
    (h : c.line? lineLength linesPerFrame interlaced = some next) :
    next.videoCycles = c.videoCycles - lineLength := by
  simp only [line?, Option.bind_eq_bind, Option.pure_def, Option.bind_eq_some_iff, Alu.sub,
    Alu.fit, Option.ite_none_right_eq_some, Option.some.injEq] at h
  obtain ⟨videoCycles, ⟨-, rfl⟩, scanline, -, hnext⟩ := h
  split at hnext
  · obtain ⟨frames, -, hended⟩ := Option.bind_eq_some_iff.1 hnext
    obtain rfl := Option.some.inj hended
    exact Int.toNat_sub c.videoCycles lineLength
  · obtain rfl := Option.some.inj hnext
    exact Int.toNat_sub c.videoCycles lineLength

variable (lineLength linesPerFrame interlaced)

/-- Carries lines as long as there is one. -/
def lines? (c : Carry) : Option Carry :=
  if 0 < lineLength ∧ lineLength ≤ c.videoCycles then
    match _h : c.line? lineLength linesPerFrame interlaced with
    | none => none
    | some next => lines? next
  else some c
termination_by c.videoCycles
decreasing_by
  have hline := videoCycles_of_line? _h
  omega

end Loop

/-- The counters do not run over.  Every frame that has ended has taken more than the length of a line,
of all the time that one step can bring. -/
structure IsSmall (c : Carry) : Prop where
  scanline : c.scanline < 314
  frames : 340600 * c.frames + c.videoCycles ≤ 675000000000

variable {mode : VideoMode} {interlaced : Bool} {c : Carry}

theorem IsSmall.line?_eq (h : c.IsSmall) (hlength : mode.lineLength ≤ 341300)
    (hline : mode.lineLength ≤ c.videoCycles) :
    c.line? mode.lineLength mode.linesPerFrame interlaced = some (c.line mode interlaced) := by
  have hscanline := h.scanline
  have hframes := h.frames
  have hnext : (c.scanline + 1) % 4294967296 = c.scanline + 1 := Nat.mod_eq_of_lt (by omega)
  have hcycles : u64.sub c.videoCycles mode.lineLength =
      some ((c.videoCycles - mode.lineLength : Nat) : Int) := by
    rw [Nat.cast_sub hline]
    exact Alu.u64_fit (by omega) (by omega)
  have hsucc : u32.add c.scanline 1 = some ((c.scanline + 1 : Nat) : Int) :=
    Alu.u32_fit (by omega) (by omega)
  have hended : u32.add c.frames 1 = some ((c.frames + 1 : Nat) : Int) :=
    Alu.u32_fit (by omega) (by omega)
  simp only [line?, line, hcycles, hsucc, hended, hnext, Option.bind_eq_bind, Option.bind_some,
    Option.pure_def, Int.toNat_natCast, Nat.cast_le, ← apply_ite some]

variable (hlength : 340600 ≤ mode.lineLength ∧ mode.lineLength ≤ 341300)
  (hframe : 263 ≤ mode.linesPerFrame ∧ mode.linesPerFrame ≤ 314)

include hlength hframe

/-- **A line keeps the counters small**: what a frame adds to them is less than what its line takes. -/
theorem IsSmall.line (h : c.IsSmall) (hline : mode.lineLength ≤ c.videoCycles) :
    (c.line mode interlaced).IsSmall := by
  have hscanline := h.scanline
  have hframes := h.frames
  have hnext : (c.scanline + 1) % 4294967296 = c.scanline + 1 := Nat.mod_eq_of_lt (by omega)
  rw [Carry.line, hnext]
  split
  · exact ⟨Nat.zero_lt_succ 313, by dsimp only; omega⟩
  · exact ⟨by dsimp only; omega, by dsimp only; omega⟩

/-- **All lines are carried without an overflow.** -/
theorem IsSmall.lines?_eq (h : c.IsSmall) :
    c.lines? mode.lineLength mode.linesPerFrame interlaced = some (c.lines mode interlaced) := by
  induction c using Carry.lines.induct mode interlaced with
  | case1 c hline ih =>
    rw [lines?, if_pos hline, lines, if_pos hline]
    have hcarried : c.line? mode.lineLength mode.linesPerFrame interlaced =
        some (c.line mode interlaced) := h.line?_eq hlength.2 hline.2
    have hrest := ih (h.line hlength hframe hline.2)
    split
    · next hnone =>
      rw [hcarried] at hnone
      exact absurd hnone (Option.some_ne_none _)
    · next next hnext =>
      rw [hcarried, Option.some.injEq] at hnext
      rw [← hnext, hrest]
  | case2 c hline => rw [lines?, if_neg hline, lines, if_neg hline]

end Carry

/-! ### The whole step -/

namespace DisplayTiming

/-- Adds the cycles to the position in the line, before anything is carried; also says which sevenths are
left over. -/
def behind? (timing : DisplayTiming) (cycles : Nat) : Option (Int × Int) := do
  let product ← u64.mul cycles 1100
  let scaled ← u64.add product timing.remainder
  let whole ← u64.div scaled 7
  let videoCycles ← u64.add timing.videoCycles whole
  let left ← u64.rem scaled 7
  let remainder ← u32.fit left
  return (videoCycles, remainder)

/-- The dot that the beam is at. -/
def dot? (videoCycles : Int) : Option Int := do
  let hundredths ← u64.div videoCycles 100
  u32.fit hundredths

/-- Moves the beam on by `cycles` processor cycles; also says how many frames ended. -/
def advance? (timing : DisplayTiming) (cycles : Nat) (status : Status)
    (display : DisplayGeometry) : Option (DisplayTiming × Nat) := do
  let mode := VideoMode.ofStatus status
  let (videoCycles, remainder) ← timing.behind? cycles
  let lineLength ← u64.mul mode.cyclesPerLine 100
  let carried ← Carry.lines? lineLength.toNat mode.linesPerFrame status.isInterlaced480
    { videoCycles := videoCycles.toNat
      scanline := timing.scanline
      oddField := timing.oddField
      frames := 0 }
  let dot ← dot? carried.videoCycles
  return ({
    videoCycles := carried.videoCycles
    remainder := remainder.toNat
    scanline := carried.scanline
    oddField := carried.oddField
    inHBlank := dot < display.lineStart || display.lineEnd ≤ dot
    inVBlank := carried.scanline < display.firstLine || display.endLine ≤ carried.scanline },
    carried.frames)

theorem dot?_eq {videoCycles : Nat} (h : videoCycles < 341300) :
    dot? videoCycles = some ((videoCycles / 100 : Nat) : Int) := by
  have hhundredths : u64.div videoCycles 100 = some ((videoCycles / 100 : Nat) : Int) :=
    Alu.div_natCast (by decide) (show (videoCycles : Int) ≤ 18446744073709551615 by omega)
      (by decide)
  rw [dot?, hhundredths]
  exact Alu.u32_fit (by omega) (by omega)

variable {timing : DisplayTiming} (h : timing.InRange) {cycles : Nat} (hcycles : cycles < 4294967296)

include h hcycles

theorem behind?_eq : timing.behind? cycles =
    some (((timing.behind cycles).videoCycles : Int),
      (((cycles * 1100 + timing.remainder) % 7 : Nat) : Int)) := by
  have hvideoCycles := h.videoCycles
  have hremainder := h.remainder
  have hbehind := videoCycles_behind hvideoCycles hremainder hcycles
  generalize hscaled : cycles * 1100 + timing.remainder = scaled at hbehind ⊢
  have hbound : (scaled : Int) ≤ u64.hi := by
    show (scaled : Int) ≤ 18446744073709551615
    omega
  have hproduct : u64.mul cycles 1100 = some ((cycles * 1100 : Nat) : Int) :=
    Alu.u64_fit (by omega) (by omega)
  have hsum : u64.add ((cycles * 1100 : Nat) : Int) timing.remainder = some (scaled : Int) := by
    rw [← hscaled, Nat.cast_add]
    exact Alu.u64_fit (by omega) (by omega)
  have hwhole : u64.div scaled 7 = some ((scaled / 7 : Nat) : Int) :=
    Alu.div_natCast (by decide) hbound (by decide)
  have hleft : u64.rem scaled 7 = some ((scaled % 7 : Nat) : Int) :=
    Alu.rem_natCast (by decide) hbound (by decide)
  have hadded : u64.add timing.videoCycles ((scaled / 7 : Nat) : Int) =
      some ((timing.behind cycles).videoCycles : Int) := by
    rw [hbehind, Nat.cast_add]
    exact Alu.u64_fit (by omega) (by omega)
  have hkept : u32.fit ((scaled % 7 : Nat) : Int) = some ((scaled % 7 : Nat) : Int) :=
    Alu.u32_fit (by omega) (by omega)
  simp only [behind?, hproduct, hsum, hwhole, hadded, hleft, hkept, Option.bind_eq_bind,
    Option.bind_some, Option.pure_def]

theorem isSmall_behind : (timing.behind cycles).IsSmall where
  scanline := h.scanline
  frames := by
    have hvideoCycles := h.videoCycles
    have hremainder := h.remainder
    rw [videoCycles_behind hvideoCycles hremainder hcycles]
    -- No frame has ended yet.
    show 340600 * 0 + _ ≤ _
    omega

/-- **A step of the beam is computed without an overflow**, however long it is. -/
theorem advance?_eq (status : Status) (display : DisplayGeometry) :
    timing.advance? cycles status display = some (timing.advance cycles status display) := by
  have hlength := VideoMode.lineLength_range status
  have hframe := VideoMode.linesPerFrame_range status
  have hwide : u64.mul (VideoMode.ofStatus status).cyclesPerLine 100 =
      some ((VideoMode.ofStatus status).lineLength : Int) := by
    rw [VideoMode.lineLength, Nat.cast_mul]
    rw [VideoMode.lineLength] at hlength
    exact Alu.u64_fit (by omega) (by omega)
  have hinside : ((timing.behind cycles).lines (VideoMode.ofStatus status)
      status.isInterlaced480).videoCycles < (VideoMode.ofStatus status).lineLength :=
    Carry.videoCycles_lines_lt (by omega) (timing.behind cycles)
  have hloop : Carry.lines? (VideoMode.ofStatus status).lineLength
      (VideoMode.ofStatus status).linesPerFrame status.isInterlaced480
      { videoCycles := (timing.behind cycles).videoCycles
        scanline := timing.scanline
        oddField := timing.oddField
        frames := 0 } =
        some ((timing.behind cycles).lines (VideoMode.ofStatus status) status.isInterlaced480) :=
    (isSmall_behind h hcycles).lines?_eq hlength hframe
  simp only [advance?, behind?_eq h hcycles, hwide, hloop, dot?_eq (hinside.trans_le hlength.2),
    advance_eq_lines, Int.toNat_natCast, Nat.cast_lt, Nat.cast_le, Option.bind_eq_bind,
    Option.bind_some, Option.pure_def]
  rfl

end DisplayTiming

end ConsoleVideo
