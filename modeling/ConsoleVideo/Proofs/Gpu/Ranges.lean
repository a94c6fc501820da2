import ConsoleVideo.Proofs.Gpu.Ports
import ConsoleVideo.Proofs.Timing.Clock

/-!
# The ranges of the settings

Settings come out of fields of a few bits, and the beam is counted modulo the length of a line and
the lines of a frame.  So none of them ever needs the width that it is kept in.

* `Job.InRange`, `Control.InRange` — what commands put into the settings fits the fields that it
  comes from;
* `DisplayTiming.inRange_advance` — the beam stays inside the picture;
* `Gpu.InRange` — the invariant; `InRange.portStable` — every operation keeps it.
-/

namespace ConsoleVideo

/-! ### Ranges -/

/-- Corners have ten bits, the offset eleven in two's complement. -/
structure Environment.InRange (e : Environment) : Prop where
  left : 0 ≤ e.area.left ∧ e.area.left < 1024
  top : 0 ≤ e.area.top ∧ e.area.top < 1024
  right : 0 ≤ e.area.right ∧ e.area.right < 1024
  bottom : 0 ≤ e.area.bottom ∧ e.area.bottom < 1024
  offsetX : -1024 ≤ e.offset.x ∧ e.offset.x ≤ 1023
  offsetY : -1024 ≤ e.offset.y ∧ e.offset.y ≤ 1023

/-- No part of the geometry has more than twelve bits. -/
structure DisplayGeometry.InRange (d : DisplayGeometry) : Prop where
  startX : d.startX < 4096
  startY : d.startY < 4096
  lineStart : d.lineStart < 4096
  lineEnd : d.lineEnd < 4096
  firstLine : d.firstLine < 4096
  endLine : d.endLine < 4096

/-- The beam is in a line of the longer standard and in a frame of the one with more lines. -/
structure DisplayTiming.InRange (t : DisplayTiming) : Prop where
  videoCycles : t.videoCycles < 341300
  remainder : t.remainder < 7
  scanline : t.scanline < 314

/-- What the job puts into the environment is in range. -/
def Job.InRange : Job → Prop
  | .areaTopLeft x y => (0 ≤ x ∧ x < 1024) ∧ 0 ≤ y ∧ y < 1024
  | .areaBottomRight x y => (0 ≤ x ∧ x < 1024) ∧ 0 ≤ y ∧ y < 1024
  | .drawOffset offset => (-1024 ≤ offset.x ∧ offset.x ≤ 1023) ∧ -1024 ≤ offset.y ∧ offset.y ≤ 1023
  | _ => True

/-- What the command puts into the geometry is in range. -/
def Control.InRange : Control → Prop
  | .displayStart x y => x < 4096 ∧ y < 4096
  | .lineRange first last => first < 4096 ∧ last < 4096
  | .frameRange first last => first < 4096 ∧ last < 4096
  | _ => True

/-! ### What words ask for -/

theorem Word.field_ten_inRange (w : Word) (lo : Nat) :
    0 ≤ (Word.field w lo 10 : Int) ∧ (Word.field w lo 10 : Int) < 1024 :=
  ⟨Int.natCast_nonneg _, Int.ofNat_lt.2 (Word.field_lt w lo 10)⟩

theorem Word.field_lt_of_le {w : Word} {lo width : Nat} (h : width ≤ 12) :
    Word.field w lo width < 4096 :=
  Nat.lt_of_lt_of_le (Word.field_lt w lo width) (Nat.pow_le_pow_right (by decide) h)

theorem DrawOffset.inRange_ofWord (w : Word) : Job.InRange (.drawOffset (ofWord w)) := by
  simp only [Job.InRange, ofWord]
  exact ⟨signed11_range w.toNat, signed11_range (w.toNat / 2048)⟩

/-- **Drawing commands put nothing out of range into the environment.** -/
theorem Command.inRange_of_build? {command : Command} {words : List Word} {job : Job}
    (h : command.build? words = some job) : job.InRange := by
  cases job with
  | areaTopLeft x y | areaBottomRight x y =>
    cases command <;>
      simp only [build?, Option.bind_eq_bind, Option.pure_def, Option.bind_eq_some_iff,
        Option.map_eq_some_iff, Option.some.injEq, reduceCtorEq, and_false, exists_false,
        Job.areaTopLeft.injEq, Job.areaBottomRight.injEq] at h
    obtain ⟨w, -, rfl, rfl⟩ := h
    exact ⟨Word.field_ten_inRange w 0, Word.field_ten_inRange w 10⟩
  | drawOffset offset =>
    cases command <;>
      simp only [build?, Option.bind_eq_bind, Option.pure_def, Option.bind_eq_some_iff,
        Option.map_eq_some_iff, Option.some.injEq, reduceCtorEq, and_false, exists_false,
        Job.drawOffset.injEq] at h
    obtain ⟨w, -, rfl⟩ := h
    exact DrawOffset.inRange_ofWord w
  | _ => trivial

theorem Decoder.inRange_of_mem_takeAll {decoder : Decoder} {ws : List Word} :
    ∀ job ∈ (decoder.takeAll ws).2.1, job.InRange :=
  of_mem_takeAll Command.inRange_of_build? fun _ => trivial

/-- **Control commands put nothing out of range into the geometry.** -/
theorem Control.inRange_of_ofWord? {w : Word} {command : Control} (h : ofWord? w = some command) :
    command.InRange := by
  unfold ofWord? at h
  split at h
  case h_6 | h_7 | h_8 =>
    obtain rfl := Option.some.inj h
    exact ⟨Word.field_lt_of_le (by decide), Word.field_lt_of_le (by decide)⟩
  case h_11 =>
    split at h
    · obtain rfl := Option.some.inj h
      trivial
    · exact absurd h nofun
  all_goals
    obtain rfl := Option.some.inj h
    trivial

/-! ### The beam -/

namespace DisplayTiming

theorem stepLines_lt {linesPerFrame line : Nat} (count : Nat) (hpos : 0 < linesPerFrame)
    (hlines : linesPerFrame ≤ 314) (hline : line < 314) :
    (stepLines linesPerFrame line count).1 < 314 := by
  cases count with
  | zero => exact hline
  | succ more =>
    have hinside := (stepLines_lt_iff line (more + 1) hpos).2 (.inr (Nat.zero_lt_succ more))
    exact Nat.lt_of_lt_of_le hinside hlines

/-- **The beam stays inside the picture**, however far it is moved on and whatever the mode was
before. -/
theorem inRange_advance {timing : DisplayTiming} (h : timing.InRange) (cycles : Nat)
    (status : Status) (display : DisplayGeometry) :
    (timing.advance cycles status display).1.InRange := by
  have hlength := VideoMode.lineLength_range status
  have hframe := VideoMode.linesPerFrame_range status
  constructor
  · exact Nat.lt_of_lt_of_le (Nat.mod_lt _ (by omega)) hlength.2
  · exact Nat.mod_lt _ (by decide)
  · exact stepLines_lt _ (by omega) hframe.2 h.scanline

end DisplayTiming

/-! ### Operations -/

namespace Gpu

/-- Every setting is in the range that commands can give it, and so is the beam; only a request to
resize the surface waits. -/
structure InRange (gpu : Gpu) : Prop where
  environment : gpu.environment.InRange
  display : gpu.display.InRange
  timing : gpu.timing.InRange
  queue : gpu.queue.IsSettled

variable {gpu : Gpu}

theorem environment_run (h : gpu.environment.InRange) {job : Job} (hjob : job.InRange) :
    (gpu.run job).environment.InRange := by
  cases job with
  | areaTopLeft x y => exact { h with left := hjob.1, top := hjob.2 }
  | areaBottomRight x y => exact { h with right := hjob.1, bottom := hjob.2 }
  | drawOffset offset => exact { h with offsetX := hjob.1, offsetY := hjob.2 }
  | drawMode value => exact { h with }
  | textureWindow window => exact { h with }
  | _ => exact h

theorem environment_runAll (h : gpu.environment.InRange) {jobs : List Job}
    (hjobs : ∀ job ∈ jobs, job.InRange) : (gpu.runAll jobs).environment.InRange :=
  List.foldlRecOn (motive := fun gpu => gpu.environment.InRange) jobs run h
    fun _ hgpu job hjob => environment_run hgpu (hjobs job hjob)

/-- Jobs draw and set up drawing; what is shown, and when, is none of their business. -/
theorem display_runAll (gpu : Gpu) (jobs : List Job) :
    (gpu.runAll jobs).display = gpu.display ∧ (gpu.runAll jobs).timing = gpu.timing := by
  refine List.foldlRecOn (motive := fun later => later.display = gpu.display ∧
    later.timing = gpu.timing) jobs run ⟨rfl, rfl⟩ fun later hlater job _ => ?_
  cases job <;> exact hlater

namespace InRange

theorem powerOn : Gpu.powerOn.InRange where
  environment := by constructor <;> decide
  display := by constructor <;> decide
  timing := by constructor <;> decide
  queue := JobQueue.isSettled_empty

theorem writeBlock (h : gpu.InRange) (ws : List Word) : (gpu.writeBlock ws).1.InRange := by
  have hjobs : ∀ job ∈ (gpu.decoder.takeAll ws).2.1, job.InRange := Decoder.inRange_of_mem_takeAll
  have hkept := gpu.display_runAll (gpu.decoder.takeAll ws).2.1
  rw [writeBlock_of_isSettled h.queue]
  constructor
  · exact environment_runAll h.environment hjobs
  · exact hkept.1.symm ▸ h.display
  · exact hkept.2.symm ▸ h.timing
  · exact h.queue

theorem read (h : gpu.InRange) : gpu.read.1.InRange := by
  rw [Gpu.read]
  exact ⟨h.environment, h.display, h.timing, h.queue⟩

theorem control (h : gpu.InRange) {command : Control} (hcommand : command.InRange) :
    (gpu.control command).InRange := by
  cases command with
  | reset =>
    rw [Gpu.control, Gpu.reset]
    exact ⟨powerOn.environment, powerOn.display, h.timing, JobQueue.isSettled_empty.pushResize⟩
  | resetCommands => exact { h with queue := JobQueue.isSettled_empty }
  | displayStart x y =>
    exact { h with display := { h.display with startX := hcommand.1, startY := hcommand.2 } }
  | lineRange first last =>
    exact { h with display := { h.display with lineStart := hcommand.1, lineEnd := hcommand.2 } }
  | frameRange first last =>
    exact { h with display := { h.display with firstLine := hcommand.1, endLine := hcommand.2 } }
  | displayMode w => exact { h with queue := h.queue.pushResize }
  | allowTextureDisable allowed => exact { h with environment := { h.environment with } }
  | _ => exact ⟨h.environment, h.display, h.timing, h.queue⟩

theorem writeControl (h : gpu.InRange) (w : Word) : (gpu.writeControl w).1.InRange := by
  rw [Gpu.writeControl]
  cases hcommand : Control.ofWord? w with
  | none => exact h
  | some command =>
    have hcontrol := h.control (Control.inRange_of_ofWord? hcommand)
    exact ⟨hcontrol.environment, hcontrol.display, hcontrol.timing, hcontrol.queue⟩

theorem tick (h : gpu.InRange) (cycles : Nat) (irq : Interrupts) :
    (gpu.tick cycles irq).1.InRange where
  environment := h.environment
  display := h.display
  timing := DisplayTiming.inRange_advance h.timing cycles gpu.status gpu.display
  queue := h.queue

theorem drain (h : gpu.InRange) : gpu.drain.InRange := by
  rw [drain_of_isSettled h.queue]
  exact h

theorem present (h : gpu.InRange) (surface : Surface) : (gpu.drainTo surface).1.InRange := by
  rw [drainTo_of_isSettled h.queue]
  exact ⟨h.environment, h.display, h.timing, JobQueue.isSettled_empty⟩

/-- **Every operation keeps the settings in range.** -/
theorem portStable : PortStable InRange where
  writeBlock := fun ws h => h.writeBlock ws
  read := fun h => h.read
  writeControl := fun w h => h.writeControl w
  tick := fun cycles irq h => h.tick cycles irq
  drain := fun h => h.drain
  present := fun surface h => h.present surface

end InRange

end Gpu

end ConsoleVideo
