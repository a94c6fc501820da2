import ConsoleVideo.Proofs.Gpu.Ranges
import ConsoleVideo.Proofs.Gpu.Resolution

/-!
# The beam and the frame

Whatever the hardware is told, after a tick the beam is inside a line of the mode in force.  It need
not be in one of the lines of the frame: a control word may select the standard with fewer lines
while the beam is below them, and only the end of a line brings it back.

* `Gpu.InFrame`, `Gpu.EndsLine` — the beam is in a line of the frame; a tick ends a line;
* `Gpu.inFrame_tick_iff` — what a tick does;
* `Screen.Strands` — what takes the beam out of the frame; `Screen.inFrame_act_or`,
  `Screen.inFrame_run_or` — nothing else does, in one step and in any number of them;
* `Screen.beam_tick_run` — the beam after any tick.
-/

namespace ConsoleVideo

/-! ### Ticks -/

namespace Gpu

variable {gpu : Gpu}

/-- The beam is in one of the lines of the frame. -/
def InFrame (gpu : Gpu) : Prop :=
  gpu.timing.scanline < (VideoMode.ofStatus gpu.status).linesPerFrame

/-- Over `cycles` processor cycles the beam comes to the end of its line. -/
def EndsLine (gpu : Gpu) (cycles : Nat) : Prop :=
  (VideoMode.ofStatus gpu.status).lineLength ≤
    gpu.timing.videoCycles + (cycles * 1100 + gpu.timing.remainder) / 7

theorem inFrame_tick (gpu : Gpu) (cycles : Nat) (irq : Interrupts) :
    (gpu.tick cycles irq).1.InFrame ↔ gpu.InFrame ∨
      0 < (gpu.timing.behind cycles).videoCycles / (VideoMode.ofStatus gpu.status).lineLength := by
  have hframe := VideoMode.linesPerFrame_range gpu.status
  exact DisplayTiming.stepLines_lt_iff gpu.timing.scanline
    ((gpu.timing.behind cycles).videoCycles / (VideoMode.ofStatus gpu.status).lineLength) (by omega)

/-- **A tick brings the beam into the frame exactly if it ends a line**, unless it was there before. -/
theorem inFrame_tick_iff (h : gpu.InRange) {cycles : Nat} (hcycles : cycles < 4294967296)
    (irq : Interrupts) :
    (gpu.tick cycles irq).1.InFrame ↔ gpu.InFrame ∨ gpu.EndsLine cycles := by
  have hlength := VideoMode.lineLength_range gpu.status
  have hwide := DisplayTiming.videoCycles_behind h.timing.videoCycles h.timing.remainder hcycles
  rw [inFrame_tick, hwide, Nat.div_pos_iff, EndsLine]
  exact or_congr_right (and_iff_right (by omega))

/-- Time alone never takes the beam out of the frame. -/
theorem InFrame.tick (h : gpu.InFrame) (cycles : Nat) (irq : Interrupts) :
    (gpu.tick cycles irq).1.InFrame :=
  (inFrame_tick gpu cycles irq).2 (.inl h)

/-! ### Everything else -/

/-- The beam and the standard are these. -/
structure Beams (timing : DisplayTiming) (pal : Bool) (gpu : Gpu) : Prop where
  timing : gpu.timing = timing
  pal : gpu.status.pal = pal

variable {timing : DisplayTiming} {pal : Bool}

theorem Beams.runAll (h : gpu.Beams timing pal) (jobs : List Job) :
    (gpu.runAll jobs).Beams timing pal where
  timing := (gpu.display_runAll jobs).2.trans h.timing
  pal := (gpu.status_runAll Status.pal (fun _ => rfl) jobs).trans h.pal

/-- **Words for drawing and words read back leave the beam and the standard alone.** -/
theorem transferStable_beams : TransferStable (Beams timing pal) where
  writeBlock := by
    intro gpu ws h
    have hjobs := h.runAll (gpu.queue.toList ++ (gpu.decoder.takeAll ws).2.1)
    rw [writeBlock_eq]
    exact ⟨hjobs.timing, hjobs.pal⟩
  read := by
    intro gpu h
    rw [read]
    cases gpu.readback with
    | nil => exact ⟨h.timing, h.pal⟩
    | cons w ws => exact ⟨h.timing, h.pal⟩

theorem Beams.drain (h : gpu.Beams timing pal) : gpu.drain.Beams timing pal := by
  have hjobs := h.runAll gpu.queue.toList
  rw [drain_eq]
  exact ⟨hjobs.timing, hjobs.pal⟩

theorem Beams.present (h : gpu.Beams timing pal) (surface : Surface) :
    (gpu.drainTo surface).1.Beams timing pal := by
  have hjobs := h.runAll gpu.queue.toList
  rw [drainTo_eq]
  exact ⟨hjobs.timing, hjobs.pal⟩

/-- Control words do not move the beam. -/
theorem timing_writeControl (gpu : Gpu) (w : Word) :
    (gpu.writeControl w).1.timing = gpu.timing := by
  rw [writeControl]
  cases Control.ofWord? w with
  | none => rfl
  | some command =>
    show (gpu.control command).timing = gpu.timing
    cases command with
    | reset => rw [control, reset]
    | resetCommands => rw [control, resetCommands]
    | displayMode w => rw [control, setDisplayMode]
    | _ => rw [control]

/-- With the beam and the standard as they were it is in the frame if it was. -/
theorem InFrame.of_beams (h : gpu.InFrame) {after : Gpu}
    (hsame : after.Beams gpu.timing gpu.status.pal) : after.InFrame := by
  rw [InFrame, VideoMode.ofStatus, hsame.timing, hsame.pal]
  exact h

end Gpu

/-! ### Runs -/

namespace Screen

variable {screen : Screen}

/-- A control word selects the standard with fewer lines while the beam is below them. -/
structure Strands (screen : Screen) (op : ScreenOp) : Prop where
  control : ∃ w, op = .port (.control w)
  long : screen.gpu.status.pal = true
  short : (screen.act op).gpu.status.pal = false
  below : VideoMode.ntsc.linesPerFrame ≤ screen.gpu.timing.scanline

theorem inFrame_control_or (h : screen.gpu.InFrame) (w : Word) :
    (screen.act (.port (.control w))).gpu.InFrame ∨ screen.Strands (.port (.control w)) := by
  have htiming : (screen.act (.port (.control w))).gpu.timing = screen.gpu.timing :=
    screen.gpu.timing_writeControl w
  rw [Gpu.InFrame, VideoMode.ofStatus] at h
  rw [Gpu.InFrame, VideoMode.ofStatus, htiming]
  cases hafter : (screen.act (.port (.control w))).gpu.status.pal with
  | true =>
    -- The longer standard has all the lines of the shorter one.
    refine .inl (Nat.lt_of_lt_of_le h ?_)
    split <;> decide
  | false =>
    by_cases hbelow : VideoMode.ntsc.linesPerFrame ≤ screen.gpu.timing.scanline
    · cases hbefore : screen.gpu.status.pal with
      | true => exact .inr ⟨⟨w, rfl⟩, hbefore, hafter, hbelow⟩
      | false =>
        rw [hbefore] at h
        exact absurd hbelow (Nat.not_le.2 h)
    · exact .inl (Nat.not_le.1 hbelow)

/-- **A beam in the frame stays there**, unless a control word strands it. -/
theorem inFrame_act_or (h : screen.gpu.InFrame) (op : ScreenOp) :
    (screen.act op).gpu.InFrame ∨ screen.Strands op := by
  have hself : screen.gpu.Beams screen.gpu.timing screen.gpu.status.pal := ⟨rfl, rfl⟩
  cases op with
  | present => exact .inl (h.of_beams (hself.present screen.surface))
  | port op =>
    cases op with
    | control w => exact inFrame_control_or h w
    | tick cycles irq => exact .inl (h.tick cycles irq)
    | write w => exact .inl (h.of_beams (Gpu.transferStable_beams.writeBlock [w] hself))
    | writeBlock ws => exact .inl (h.of_beams (Gpu.transferStable_beams.writeBlock ws hself))
    | read => exact .inl (h.of_beams (Gpu.transferStable_beams.read hself))
    | drain => exact .inl (h.of_beams hself.drain)
    | dma dma ram irq => exact .inl (h.of_beams (Gpu.transferStable_beams.tickDma hself))

theorem inFrame_foldl_or (h : screen.gpu.InFrame) (ops : List ScreenOp) :
    (ops.foldl act screen).gpu.InFrame ∨ ∃ before op later,
      ops = before ++ op :: later ∧ (before.foldl act screen).Strands op := by
  -- By induction on what is still to come: it starts from any beam in the frame.
  induction ops generalizing screen with
  | nil => exact .inl h
  | cons op ops ih =>
    rcases inFrame_act_or h op with hnext | hstrands
    · rcases ih hnext with hlast | ⟨before, other, later, rfl, hother⟩
      · exact .inl hlast
      · exact .inr ⟨op :: before, other, later, rfl, hother⟩
    · exact .inr ⟨[], op, ops, rfl, hstrands⟩

/-- **Whenever the beam is out of the frame, a control word has stranded it.** -/
theorem inFrame_run_or (ops : List ScreenOp) :
    (run ops).gpu.InFrame ∨ ∃ before op later,
      ops = before ++ op :: later ∧ (run before).Strands op :=
  inFrame_foldl_or (by decide +kernel : Gpu.powerOn.timing.scanline < _) ops

/-- What operations lead to is reachable. -/
theorem reachable_run (ops : List ScreenOp) : (run ops).gpu.Reachable := by
  refine List.foldlRecOn (motive := fun screen : Screen => screen.gpu.Reachable) ops act
    Gpu.Reachable.powerOn fun screen hscreen op _ => ?_
  cases op with
  | port op => exact hscreen.act op
  | present => exact hscreen.present screen.surface

/-- **Where the beam is after a tick**, whatever happened before: inside a line of the mode in force,
with less than a whole unit carried over.  It is in a line of the frame exactly if it was there
before, or if the tick ended a line; and it was there before unless a control word that selected the
standard with fewer lines had stranded it below them. -/
theorem beam_tick_run (ops : List ScreenOp) (cycles : Word) (irq : Interrupts) :
    let gpu := (run ops).gpu
    let after := (gpu.tick cycles.toNat irq).1
    let mode := VideoMode.ofStatus after.status
    after.timing.videoCycles < mode.lineLength ∧
      after.timing.remainder < 7 ∧
      after.timing.scanline < VideoMode.pal.linesPerFrame ∧
      (after.timing.scanline < mode.linesPerFrame ↔
        gpu.InFrame ∨ gpu.EndsLine cycles.toNat) ∧
      (gpu.InFrame ∨ ∃ before op later,
        ops = before ++ op :: later ∧ (run before).Strands op) := by
  intro gpu after mode
  have hrange : gpu.InRange := (reachable_run ops).of_stable Gpu.InRange.portStable .powerOn
  have hafter := hrange.tick cycles.toNat irq
  have hlength := VideoMode.lineLength_range gpu.status
  refine ⟨?_, hafter.timing.remainder, hafter.timing.scanline, ?_, inFrame_run_or ops⟩
  · exact Nat.mod_lt _ (Nat.zero_lt_of_lt hlength.1)
  · exact Gpu.inFrame_tick_iff hrange cycles.toNat_lt irq

/-- The beam is not always in a line of the frame: in line 300 of the longer standard the other one
is selected, and a tick that ends no line leaves the beam there. -/
theorem not_forall_beam_tick_run :
    ¬ ∀ (ops : List ScreenOp) (cycles : Word) (irq : Interrupts),
      ((run ops).gpu.tick cycles.toNat irq).1.timing.Within
        (VideoMode.ofStatus ((run ops).gpu.tick cycles.toNat irq).1.status) := by
  intro hall
  have hinside := (hall [.port (.control 0x08000008), .port (.tick 650237 Interrupts.quiet),
    .port (.control 0x08000000)] 1000 Interrupts.quiet).scanline
  exact absurd hinside (by decide +kernel)

end Screen

end ConsoleVideo
