import ConsoleVideo.Timing

/-!
# The clock that the beam is

Line, position in the line and the sevenths that are carried over are the digits of one number: the
time since the first counted frame began.  Moving the beam on adds to it and loses nothing, however
the time is cut.

* `Carry.lines` — the beam carried on line by line; `Carry.Accounts` — what one line keeps, and so
  all of them;
* `DisplayTiming.advance_eq_lines` — moving the beam on does that, with one division in place of the
  loop;
* `DisplayTiming.elapsed`, `DisplayTiming.Later` — the time that the beam shows, and the beam that
  is later by some cycles; `Later.trans`, `Later.unique`;
* `DisplayTiming.advanceEach_conserves` — pieces of time add up.
-/

namespace ConsoleVideo

/-! ### Line by line -/

/-- The beam on its way: what is left of the line's position is carried into lines, and lines into
frames. -/
structure Carry where
  videoCycles : Nat
  scanline : Nat
  oddField : Bool
  frames : Nat

namespace Carry

variable (mode : VideoMode) (interlaced : Bool)

/-- How far the beam is from the first line of the first counted frame. -/
def position (c : Carry) : Nat :=
  c.videoCycles + mode.lineLength * (c.scanline + mode.linesPerFrame * c.frames)

/-- Carries one line.  Beyond the last line the next frame begins, with the other field if the
picture is interlaced. -/
def line (c : Carry) : Carry :=
  let next := (c.scanline + 1) % 4294967296
  if mode.linesPerFrame ≤ next then
    { videoCycles := c.videoCycles - mode.lineLength
      scanline := 0
      oddField := c.oddField != interlaced
      frames := c.frames + 1 }
  else { c with videoCycles := c.videoCycles - mode.lineLength, scanline := next }

/-- Carries lines as long as there is one. -/
def lines (c : Carry) : Carry :=
  if 0 < mode.lineLength ∧ mode.lineLength ≤ c.videoCycles then
    lines (c.line mode interlaced)
  else c
termination_by c.videoCycles
decreasing_by
  unfold line
  dsimp only
  split
  all_goals
    dsimp only
    omega

/-- What carrying keeps: the position, the beam inside the frame, and a field that has changed once
with each frame. -/
structure Accounts (position : Nat) (field : Bool) (c : Carry) : Prop where
  position : c.position mode = position
  scanline : c.scanline < mode.linesPerFrame
  oddField : c.oddField = (field != (interlaced && c.frames % 2 == 1))

variable {mode interlaced} {position : Nat} {field : Bool} {c : Carry}

theorem field_succ (field interlaced : Bool) (frames : Nat) :
    ((field != (interlaced && frames % 2 == 1)) != interlaced) =
      (field != (interlaced && (frames + 1) % 2 == 1)) := by
  rcases Nat.mod_two_eq_zero_or_one frames with h | h
  · rw [Nat.add_mod, h]
    cases field <;> cases interlaced <;> rfl
  · rw [Nat.add_mod, h]
    cases field <;> cases interlaced <;> rfl

theorem Accounts.line (h : Accounts mode interlaced position field c)
    (hframe : mode.linesPerFrame < 4294967296) (hline : mode.lineLength ≤ c.videoCycles) :
    Accounts mode interlaced position field (c.line mode interlaced) := by
  have hinside := h.scanline
  have hnext : (c.scanline + 1) % 4294967296 = c.scanline + 1 := Nat.mod_eq_of_lt (by omega)
  have hposition := h.position
  rw [Carry.line, hnext]
  split
  · -- The last line of the frame.
    have hlines : mode.linesPerFrame * (c.frames + 1) =
        c.scanline + mode.linesPerFrame * c.frames + 1 := by
      rw [Nat.mul_succ]
      omega
    constructor
    · rw [← hposition, Carry.position, Carry.position]
      dsimp only
      rw [Nat.zero_add, hlines, Nat.mul_succ]
      omega
    · exact Nat.zero_lt_of_lt hinside
    · exact h.oddField ▸ field_succ field interlaced c.frames
  · have hlines : c.scanline + 1 + mode.linesPerFrame * c.frames =
        c.scanline + mode.linesPerFrame * c.frames + 1 := by
      omega
    constructor
    · rw [← hposition, Carry.position, Carry.position]
      dsimp only
      rw [hlines, Nat.mul_succ]
      omega
    · dsimp only
      omega
    · exact h.oddField

/-- **Carrying keeps the accounts.** -/
theorem Accounts.lines (h : Accounts mode interlaced position field c)
    (hframe : mode.linesPerFrame < 4294967296) :
    Accounts mode interlaced position field (c.lines mode interlaced) := by
  induction c using Carry.lines.induct mode interlaced with
  | case1 c hline ih =>
    rw [Carry.lines, if_pos hline]
    exact ih (h.line hframe hline.2)
  | case2 c hline =>
    rw [Carry.lines, if_neg hline]
    exact h

/-- In the end the beam is inside a line. -/
theorem videoCycles_lines_lt (hlength : 0 < mode.lineLength) (c : Carry) :
    (c.lines mode interlaced).videoCycles < mode.lineLength := by
  induction c using Carry.lines.induct mode interlaced with
  | case1 c hline ih =>
    rw [Carry.lines, if_pos hline]
    exact ih
  | case2 c hline =>
    rw [Carry.lines, if_neg hline]
    omega

end Carry

/-! ### In one division -/

namespace DisplayTiming

/-- One more line in front: the beam may leave the frame with it. -/
theorem stepLines_succ {linesPerFrame : Nat} (line count : Nat) (hpos : 0 < linesPerFrame)
    (hsmall : linesPerFrame < 4294967296) :
    stepLines linesPerFrame line (count + 1) =
      if linesPerFrame ≤ (line + 1) % 4294967296 then
        ((stepLines linesPerFrame 0 count).1, 1 + (stepLines linesPerFrame 0 count).2)
      else stepLines linesPerFrame ((line + 1) % 4294967296) count := by
  rw [stepLines]
  split
  · rw [stepLines_of_lt hpos hsmall, Nat.zero_add]
  next hinside => rw [stepLines_of_lt (Nat.lt_of_not_le hinside) hsmall]

/-- Lines are counted inside the frame as soon as one of them has ended. -/
theorem stepLines_lt_iff {linesPerFrame : Nat} (line count : Nat)
    (hpos : 0 < linesPerFrame) :
    (stepLines linesPerFrame line count).1 < linesPerFrame ↔ line < linesPerFrame ∨ 0 < count := by
  cases count with
  | zero => simp [stepLines]
  | succ more =>
    have hinside : (stepLines linesPerFrame line (more + 1)).1 < linesPerFrame := by
      rw [stepLines]
      split
      · exact Nat.mod_lt _ hpos
      · exact Nat.mod_lt _ hpos
    exact iff_of_true hinside (.inr (Nat.zero_lt_succ more))

end DisplayTiming

/-- What comes out of the loop, with the number of lines from one division. -/
theorem Carry.lines_eq {mode : VideoMode} (interlaced : Bool) (hlength : 0 < mode.lineLength)
    (hpos : 0 < mode.linesPerFrame) (hsmall : mode.linesPerFrame < 4294967296) (c : Carry) :
    c.lines mode interlaced =
      let stepped := DisplayTiming.stepLines mode.linesPerFrame c.scanline
        (c.videoCycles / mode.lineLength)
      { videoCycles := c.videoCycles % mode.lineLength
        scanline := stepped.1
        oddField := c.oddField != (interlaced && stepped.2 % 2 == 1)
        frames := c.frames + stepped.2 } := by
  induction c using Carry.lines.induct mode interlaced with
  | case1 c hline ih =>
    obtain ⟨rest, hrest⟩ := Nat.exists_eq_add_of_le hline.2
    have hdiv : c.videoCycles / mode.lineLength = rest / mode.lineLength + 1 := by
      rw [hrest, Nat.add_div_left rest hlength]
    have hmod : c.videoCycles % mode.lineLength = rest % mode.lineLength := by
      rw [hrest, Nat.add_mod_left]
    have hsub : c.videoCycles - mode.lineLength = rest := by omega
    rw [Carry.lines, if_pos hline, ih, hdiv, hmod, DisplayTiming.stepLines_succ _ _ hpos hsmall,
      Carry.line]
    dsimp only
    split
    · -- The frame that ends here is one more, and so is the change of the field.
      dsimp only
      rw [hsub]
      congr 1
      · rw [Nat.add_comm 1, ← Carry.field_succ]
        cases c.oddField <;> cases interlaced <;> cases (_ % 2 == 1 : Bool) <;> rfl
      · omega
    · dsimp only
      rw [hsub]
  | case2 c hline =>
    have hinside : c.videoCycles < mode.lineLength := by omega
    rw [Carry.lines, if_neg hline, Nat.mod_eq_of_lt hinside, Nat.div_eq_of_lt hinside]
    simp [DisplayTiming.stepLines]

namespace DisplayTiming

/-- The beam with its flags as the geometry has them. -/
def shownIn (timing : DisplayTiming) (display : DisplayGeometry) : DisplayTiming :=
  { timing with
    inHBlank := timing.videoCycles / 100 < display.lineStart ||
      display.lineEnd ≤ timing.videoCycles / 100
    inVBlank := timing.scanline < display.firstLine || display.endLine ≤ timing.scanline }

/-- The beam with the cycles added to its position in the line, before anything is carried. -/
def behind (timing : DisplayTiming) (cycles : Nat) : Carry where
  videoCycles := (timing.videoCycles + (cycles * 1100 + timing.remainder) / 7) %
    18446744073709551616
  scanline := timing.scanline
  oddField := timing.oddField
  frames := 0

/-- The counter is wide enough for a line and all the time that one step can bring. -/
theorem videoCycles_behind {timing : DisplayTiming} {cycles : Nat}
    (hline : timing.videoCycles < 341300) (hseven : timing.remainder < 7)
    (hcycles : cycles < 4294967296) :
    (timing.behind cycles).videoCycles =
      timing.videoCycles + (cycles * 1100 + timing.remainder) / 7 :=
  Nat.mod_eq_of_lt (by omega)

/-- **Moving the beam on carries lines one by one**: whatever the beam, the mode and the time are. -/
theorem advance_eq_lines (timing : DisplayTiming) (cycles : Nat) (status : Status)
    (display : DisplayGeometry) :
    timing.advance cycles status display =
      let carried := (timing.behind cycles).lines (VideoMode.ofStatus status)
        status.isInterlaced480
      (({ timing with
          videoCycles := carried.videoCycles
          remainder := (cycles * 1100 + timing.remainder) % 7
          scanline := carried.scanline
          oddField := carried.oddField } : DisplayTiming).shownIn display, carried.frames) := by
  have hlength := VideoMode.lineLength_range status
  have hframe := VideoMode.linesPerFrame_range status
  rw [Carry.lines_eq status.isInterlaced480 (by omega) (by omega) (by omega)]
  dsimp only [behind]
  rw [Nat.zero_add]
  rfl

/-! ### The time that the beam shows -/

/-- The beam is inside a line and inside the frame. -/
structure Within (timing : DisplayTiming) (mode : VideoMode) : Prop where
  videoCycles : timing.videoCycles < mode.lineLength
  scanline : timing.scanline < mode.linesPerFrame
  remainder : timing.remainder < 7

/-- The time since the first of `frames` frames began, in sevenths of the unit of the position. -/
def elapsed (timing : DisplayTiming) (mode : VideoMode) (frames : Nat) : Nat :=
  timing.remainder + 7 * (timing.videoCycles +
    mode.lineLength * (timing.scanline + mode.linesPerFrame * frames))

theorem elapsed_add (timing : DisplayTiming) (mode : VideoMode) (m n : Nat) :
    timing.elapsed mode (m + n) =
      timing.elapsed mode n + 7 * (mode.lineLength * (mode.linesPerFrame * m)) := by
  have hlines : timing.scanline + mode.linesPerFrame * (m + n) =
      timing.scanline + mode.linesPerFrame * n + mode.linesPerFrame * m := by
    rw [Nat.mul_add]
    omega
  rw [elapsed, elapsed, hlines, Nat.mul_add mode.lineLength]
  omega

/-- What the time shows: quotients and remainders are the frames, the line, the position in it and
the sevenths. -/
theorem elapsed_digits {timing : DisplayTiming} {mode : VideoMode} (h : timing.Within mode)
    (frames : Nat) :
    timing.remainder = timing.elapsed mode frames % 7 ∧
      timing.videoCycles = timing.elapsed mode frames / 7 % mode.lineLength ∧
      timing.scanline =
        timing.elapsed mode frames / 7 / mode.lineLength % mode.linesPerFrame ∧
      frames = timing.elapsed mode frames / 7 / mode.lineLength / mode.linesPerFrame := by
  have hlength : 0 < mode.lineLength := Nat.zero_lt_of_lt h.videoCycles
  have hframe : 0 < mode.linesPerFrame := Nat.zero_lt_of_lt h.scanline
  have hseventh : timing.elapsed mode frames / 7 = timing.videoCycles +
      mode.lineLength * (timing.scanline + mode.linesPerFrame * frames) := by
    rw [elapsed, Nat.add_mul_div_left _ _ (by decide), Nat.div_eq_of_lt h.remainder, Nat.zero_add]
  have hline : timing.elapsed mode frames / 7 / mode.lineLength =
      timing.scanline + mode.linesPerFrame * frames := by
    rw [hseventh, Nat.add_mul_div_left _ _ hlength, Nat.div_eq_of_lt h.videoCycles, Nat.zero_add]
  refine ⟨?_, ?_, ?_, ?_⟩
  · rw [elapsed, Nat.add_mul_mod_self_left, Nat.mod_eq_of_lt h.remainder]
  · rw [hseventh, Nat.add_mul_mod_self_left, Nat.mod_eq_of_lt h.videoCycles]
  · rw [hline, Nat.add_mul_mod_self_left, Nat.mod_eq_of_lt h.scanline]
  · rw [hline, Nat.add_mul_div_left _ _ hframe, Nat.div_eq_of_lt h.scanline, Nat.zero_add]

/-- `after` is the beam that is `cycles` processor cycles later, with `frames` ends of frames in
between. -/
structure Later (status : Status) (timing : DisplayTiming) (cycles frames : Nat)
    (after : DisplayTiming) : Prop where
  within : after.Within (VideoMode.ofStatus status)
  elapsed : after.elapsed (VideoMode.ofStatus status) frames =
    timing.elapsed (VideoMode.ofStatus status) 0 + 1100 * cycles
  oddField : after.oddField =
    (timing.oddField != (status.isInterlaced480 && frames % 2 == 1))

variable {status : Status} {timing next after : DisplayTiming} {m n f g : Nat}

theorem Later.refl (h : timing.Within (VideoMode.ofStatus status)) :
    Later status timing 0 0 timing where
  within := h
  elapsed := rfl
  oddField := by simp

/-- **Pieces of time add up**, and so do the frames that end in them. -/
theorem Later.trans (h : Later status timing m f next) (hnext : Later status next n g after) :
    Later status timing (m + n) (f + g) after where
  within := hnext.within
  elapsed := by
    have hfirst := h.elapsed
    have hframes := elapsed_add next (VideoMode.ofStatus status) f 0
    rw [Nat.add_zero] at hframes
    rw [elapsed_add, hnext.elapsed]
    omega
  oddField := by
    rw [hnext.oddField, h.oddField]
    rcases Nat.mod_two_eq_zero_or_one f with hf | hf <;>
      rcases Nat.mod_two_eq_zero_or_one g with hg | hg <;>
      rw [Nat.add_mod, hf, hg] <;>
      cases timing.oddField <;> cases status.isInterlaced480 <;> rfl

/-- **The time fixes the beam**, and how many frames have ended. -/
theorem Later.unique (h : Later status timing n f next) (h' : Later status timing n g after)
    (display : DisplayGeometry) :
    next.shownIn display = after.shownIn display ∧ f = g := by
  have hsame : next.elapsed (VideoMode.ofStatus status) f =
      after.elapsed (VideoMode.ofStatus status) g :=
    h.elapsed.trans h'.elapsed.symm
  obtain ⟨hremainder, hcycles, hline, hframes⟩ := elapsed_digits h.within f
  obtain ⟨hremainder', hcycles', hline', hframes'⟩ := elapsed_digits h'.within g
  rw [hsame] at hremainder hcycles hline hframes
  have hfg : f = g := hframes.trans hframes'.symm
  have hfield : next.oddField = after.oddField := by
    rw [h.oddField, h'.oddField, hfg]
  rw [shownIn, shownIn, hremainder.trans hremainder'.symm, hcycles.trans hcycles'.symm,
    hline.trans hline'.symm, hfield]
  exact ⟨rfl, hfg⟩

/-- **The beam is later by the cycles that it was moved on**, if it was inside the frame before. -/
theorem later_advance (h : timing.Within (VideoMode.ofStatus status)) (hn : n < 4294967296)
    (display : DisplayGeometry) :
    Later status timing n (timing.advance n status display).2
      (timing.advance n status display).1 := by
  have hlength := VideoMode.lineLength_range status
  have hframe := VideoMode.linesPerFrame_range status
  have hwide := videoCycles_behind (Nat.lt_of_lt_of_le h.videoCycles hlength.2) h.remainder hn
  have hstart : Carry.Accounts (VideoMode.ofStatus status) status.isInterlaced480
      ((timing.behind n).position (VideoMode.ofStatus status)) timing.oddField
      (timing.behind n) := by
    constructor
    · rfl
    · exact h.scanline
    · simp [behind]
  have hend := hstart.lines (by omega)
  have hposition := hend.position
  rw [advance_eq_lines]
  constructor
  · exact ⟨Carry.videoCycles_lines_lt (by omega) _, hend.scanline, Nat.mod_lt _ (by decide)⟩
  · rw [Carry.position, Carry.position, hwide] at hposition
    dsimp only [elapsed, shownIn]
    rw [hposition]
    dsimp only [behind]
    omega
  · exact hend.oddField

/-! ### Any number of pieces -/

/-- The cycles of all pieces together. -/
def total : List Word → Nat
  | [] => 0
  | cycles :: more => cycles.toNat + total more

/-- Moves the beam on by one piece after the other; also adds up how many frames ended. -/
def advanceEach (timing : DisplayTiming) (status : Status) (display : DisplayGeometry) :
    List Word → DisplayTiming × Nat
  | [] => (timing, 0)
  | cycles :: more =>
    let next := timing.advance cycles.toNat status display
    let last := next.1.advanceEach status display more
    (last.1, next.2 + last.2)

theorem later_advanceEach (h : timing.Within (VideoMode.ofStatus status))
    (display : DisplayGeometry) (cycles : List Word) :
    Later status timing (total cycles) (timing.advanceEach status display cycles).2
      (timing.advanceEach status display cycles).1 := by
  induction cycles generalizing timing with
  | nil => exact Later.refl h
  | cons first more ih =>
    have hfirst := later_advance h first.toNat_lt display
    have hmore := ih hfirst.within
    rw [total, advanceEach]
    exact hfirst.trans hmore

/-- The flags are as the geometry has them as soon as the beam has been moved on. -/
theorem advance_shownIn (timing : DisplayTiming) (cycles : Nat) (status : Status)
    (display : DisplayGeometry) :
    (timing.advance cycles status display).1.shownIn display =
      (timing.advance cycles status display).1 :=
  rfl

theorem advanceEach_shownIn (timing : DisplayTiming) (status : Status)
    (display : DisplayGeometry) {cycles : List Word} (h : cycles ≠ []) :
    (timing.advanceEach status display cycles).1.shownIn display =
      (timing.advanceEach status display cycles).1 := by
  induction cycles generalizing timing with
  | nil => exact absurd rfl h
  | cons first more ih =>
    cases more with
    | nil => exact advance_shownIn timing first.toNat status display
    | cons second more =>
      rw [advanceEach]
      exact ih (timing.advance first.toNat status display).1 (List.cons_ne_nil second more)

/-- **The display timing never drifts.**  From a beam inside the frame, the beam after any number of
steps shows exactly the time that the steps took together; it is inside the frame again, and an
interlaced picture shows the other field exactly if an odd number of frames ended.  One step over
all that time leads to the same beam with the same flags, and to the same number of frames. -/
theorem advanceEach_conserves (h : timing.Within (VideoMode.ofStatus status))
    (display : DisplayGeometry) (cycles : List Word) :
    let mode := VideoMode.ofStatus status
    let last := (timing.advanceEach status display cycles).1
    let frames := (timing.advanceEach status display cycles).2
    last.remainder + 7 * (last.videoCycles +
        mode.lineLength * (last.scanline + mode.linesPerFrame * frames)) =
      timing.remainder + 7 * (timing.videoCycles + mode.lineLength * timing.scanline) +
        1100 * total cycles ∧
      last.Within mode ∧
      (last.oddField ≠ timing.oddField ↔ status.isInterlaced480 = true ∧ frames % 2 = 1) ∧
      (cycles ≠ [] → total cycles < 4294967296 →
        timing.advance (total cycles) status display = (last, frames)) := by
  have hlater := later_advanceEach h display cycles
  intro mode last frames
  refine ⟨hlater.elapsed, hlater.within, ?_, ?_⟩
  · rw [hlater.oddField]
    show (timing.oddField != (status.isInterlaced480 && frames % 2 == 1)) ≠ timing.oddField ↔ _
    rcases Nat.mod_two_eq_zero_or_one frames with hf | hf <;> rw [hf] <;>
      cases timing.oddField <;> cases status.isInterlaced480 <;> decide
  · -- Both beams are later by the same time, so they are the same beam.
    intro hcycles htotal
    obtain ⟨hbeam, hframes⟩ := (later_advance h htotal display).unique hlater display
    rw [advance_shownIn, advanceEach_shownIn timing status display hcycles] at hbeam
    exact Prod.ext hbeam hframes

/-- Three frames of an interlaced picture end, the first of them with the very first cycle. -/
theorem advanceEach_conserves_interlaced :
    let status := Status.ofWord 0x00580000
    let timing : DisplayTiming := { start with
      videoCycles := 340599, remainder := 6, scanline := 313, oddField := true }
    let display := DisplayGeometry.reset
    let cycles : List Word := [1, 680581, 680581, 5]
    let mode := VideoMode.ofStatus status
    let last := (timing.advanceEach status display cycles).1
    let frames := (timing.advanceEach status display cycles).2
    timing.Within mode ∧ cycles ≠ [] ∧ total cycles < 4294967296 ∧ frames = 3 ∧
      last.remainder + 7 * (last.videoCycles +
          mode.lineLength * (last.scanline + mode.linesPerFrame * frames)) =
        timing.remainder + 7 * (timing.videoCycles + mode.lineLength * timing.scanline) +
          1100 * total cycles ∧
      last.Within mode ∧
      (last.oddField ≠ timing.oddField ↔ status.isInterlaced480 = true ∧ frames % 2 = 1) ∧
      timing.advance (total cycles) status display = (last, frames) := by
  intro status timing display cycles mode last frames
  have hwithin : timing.Within mode := by
    constructor <;> decide +kernel
  obtain ⟨hclock, hlast, hfield, hone⟩ := advanceEach_conserves hwithin display cycles
  have hpieces : cycles ≠ [] := List.cons_ne_nil 1 _
  have htotal : total cycles < 4294967296 := by decide +kernel
  exact ⟨hwithin, hpieces, htotal, by decide +kernel, hclock, hlast, hfield, hone hpieces htotal⟩

end DisplayTiming

end ConsoleVideo
