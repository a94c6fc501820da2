import ConsoleVideo.Proofs.Arithmetic.Beam
import ConsoleVideo.Proofs.Arithmetic.Blocks
import ConsoleVideo.Proofs.Arithmetic.Shapes

/-!
# Nothing overflows

Whatever has been done to the hardware, its settings are in range, and so are the jobs that its decoder
makes.  All that is computed to carry them out, or to move the beam on, then fits into the units that
compute it: nothing wraps around unless it is meant to, and nothing stops.

* `Gpu.run?` — a drawing command, carried out with arithmetic units;
* `Gpu.run?_eq`, `Gpu.foldlM_run?_eq` — one job, and jobs one after the other;
* `Gpu.Reachable.isDecoded` — the jobs that the decoder makes of a block, whatever it has received before;
* `Gpu.runs_without_overflow` — in every state that the hardware comes to.
-/

namespace ConsoleVideo

/-! ### What the decoder has received -/

namespace Decoder

/-- The jobs of a block are answers to its words. -/
theorem mem_answers_of_mem_takeAll {decoder : Decoder} {ws : List Word} {job : Job}
    (h : job ∈ (decoder.takeAll ws).2.1) : .ok (some job) ∈ (decoder.pushAll ws).2 := by
  induction ws generalizing decoder with
  | nil => exact absurd h List.not_mem_nil
  | cons w ws ih =>
    rw [takeAll] at h
    rw [pushAll]
    rcases hpush : decoder.push w with ⟨next, e | first⟩
    · rw [hpush] at h
      exact absurd h List.not_mem_nil
    · rw [hpush] at h
      rcases List.mem_append.1 h with hfirst | hlater
      · rw [Option.mem_toList.1 hfirst]
        exact List.mem_cons_self
      · exact List.mem_cons_of_mem _ (ih hlater)

end Decoder

namespace Gpu

variable {gpu : Gpu}

theorem Reachable.exists_holding (hgpu : gpu.Reachable) : ∃ held, gpu.Holding held := by
  induction hgpu with
  | powerOn => exact ⟨[], holding_powerOn⟩
  | act op _ ih =>
    obtain ⟨held, hheld⟩ := ih
    exact ⟨op.heldAfter held, hheld.act op⟩
  | @present gpu surface _ ih =>
    obtain ⟨held, hheld⟩ := ih
    refine ⟨held, Handshake.portStable.present surface hheld.handshake, ?_, hheld.inProgress⟩
    rw [drainTo_of_isSettled hheld.handshake.queue]
    exact hheld.decoder

/-- **The jobs that a block makes are jobs of a stream of words**, which begins with the command in
progress. -/
theorem Reachable.isDecoded (hgpu : gpu.Reachable) {ws : List Word} {job : Job}
    (h : job ∈ (gpu.decoder.takeAll ws).2.1) : job.IsDecoded := by
  obtain ⟨held, hheld⟩ := hgpu.exists_holding
  refine ⟨held ++ ws, ?_⟩
  rw [Decoder.pushAll_append, ← hheld.decoder]
  exact List.mem_append_right _ (Decoder.mem_answers_of_mem_takeAll h)

/-! ### Jobs -/

/-- Carries out a drawing command with arithmetic units. -/
def run? (gpu : Gpu) (job : Job) : Option Gpu :=
  let pen := Pen.ofSettings gpu.status gpu.environment
  match job with
  | .fill fill => do
    let vram ← fill.draw? gpu.vram
    return { gpu with vram := vram }
  | .polygon polygon => do
    let status := polygonStatus gpu.status gpu.environment.textureDisableAllowed polygon
    let vram ← polygon.draw? status gpu.environment gpu.vram
    return { gpu with status := status, vram := vram }
  | .line line => do
    let vram ← line.draw? gpu.environment pen gpu.vram
    return { gpu with vram := vram }
  | .rectangle rectangle => do
    let vram ← rectangle.draw? gpu.environment pen (rectanglePaint gpu.status rectangle) gpu.vram
    return { gpu with vram := vram }
  | .copy copy => do
    let vram ← copy.draw? gpu.status.setMask gpu.status.checkMask gpu.vram
    return { gpu with vram := vram }
  | .upload image => do
    let vram ← image.draw? gpu.status.setMask gpu.status.checkMask gpu.vram
    return { gpu with vram := vram }
  | .download rect => do
    let words ← rect.read? gpu.vram
    return {
      gpu with
      readback := gpu.readback ++ words
      status := { gpu.status with readySend := true } }
  | job => some (gpu.run job)

/-- **A job whose numbers are those of words is carried out without an overflow.** -/
theorem run?_eq (hgpu : gpu.environment.InRange) {job : Job} (hjob : job.Bounded) :
    gpu.run? job = some (gpu.run job) := by
  obtain ⟨hsized, hplaced, -⟩ := hjob
  cases job with
  | fill fill =>
    rw [run?, Fill.draw?_eq hsized hplaced]
    rfl
  | polygon polygon =>
    rw [run?, Polygon.draw?_eq hplaced hgpu]
    rfl
  | line line =>
    rw [run?, Line.draw?_eq hsized hgpu]
    rfl
  | rectangle rectangle =>
    rw [run?, Rectangle.draw?_eq hsized hgpu]
    rfl
  | copy copy =>
    rw [run?, VramCopy.draw?_eq hsized hplaced]
    rfl
  | upload image =>
    rw [run?, ImageLoad.draw?_eq hsized hplaced]
    rfl
  | download rect =>
    rw [run?, VramRect.read?_eq hplaced.1 hplaced.2]
    rfl
  | _ => rfl

/-- Jobs leave the settings in range for the jobs after them. -/
theorem foldlM_run?_eq (hgpu : gpu.environment.InRange) {jobs : List Job}
    (hjobs : ∀ job ∈ jobs, job.Bounded) : jobs.foldlM run? gpu = some (gpu.runAll jobs) := by
  induction jobs generalizing gpu with
  | nil => rfl
  | cons job jobs ih =>
    have hjob := hjobs job List.mem_cons_self
    rw [List.foldlM_cons, run?_eq hgpu hjob]
    exact ih (environment_run hgpu hjob.inRange) fun later hlater =>
      hjobs later (List.mem_cons_of_mem job hlater)

/-! ### Whatever has been done -/

/-- **Nothing overflows**, whatever has been done to the hardware.  The jobs that its decoder makes of
any words are jobs of a stream; such jobs are carried out one after the other, and the beam is moved on
by any number of cycles that a word can hold, as by integers without a width, all sums, products and
quotients being in the range of the unit that computes them and all channels bytes. -/
theorem runs_without_overflow (hgpu : gpu.Reachable) :
    (∀ ws, ∀ job ∈ (gpu.decoder.takeAll ws).2.1, job.IsDecoded) ∧
      (∀ jobs : List Job, (∀ job ∈ jobs, job.IsDecoded) →
        jobs.foldlM run? gpu = some (gpu.runAll jobs)) ∧
      ∀ cycles : Word, gpu.timing.advance? cycles.toNat gpu.status gpu.display =
        some (gpu.timing.advance cycles.toNat gpu.status gpu.display) := by
  have hrange := hgpu.of_stable InRange.portStable InRange.powerOn
  exact ⟨fun ws job hjob => hgpu.isDecoded hjob,
    fun jobs hjobs => foldlM_run?_eq hrange.environment fun job hjob => (hjobs job hjob).bounded,
    fun cycles => DisplayTiming.advance?_eq hrange.timing cycles.toNat_lt gpu.status gpu.display⟩

/-- A triangle at the corner of all vertices, which the drawing offset moves as far again, and the
longest step of the beam, over more than seven thousand frames. -/
theorem runs_without_overflow_extreme :
    let corner := fun x y : Int => (⟨⟨x, y⟩, ⟨255, 0, 0⟩, ⟨0, 0⟩⟩ : Corner)
    let offset := Job.drawOffset ⟨-1024, -1024⟩
    let triangle := Job.polygon ⟨corner (-1024) (-1024), corner (-1) (-1024),
      corner (-1024) (-513), none, false, none, false⟩
    powerOn.Reachable ∧ offset.IsDecoded ∧ triangle.IsDecoded ∧
      [offset, triangle].foldlM run? powerOn = some (powerOn.runAll [offset, triangle]) ∧
      powerOn.timing.advance? (0xFFFFFFFF : Word).toNat powerOn.status powerOn.display =
        some (powerOn.timing.advance (0xFFFFFFFF : Word).toNat powerOn.status powerOn.display) ∧
      (powerOn.timing.advance (0xFFFFFFFF : Word).toNat powerOn.status powerOn.display).2 = 7519 := by
  intro corner offset triangle
  have hoffset : (Decoder.idle.pushAll [0xE5200400]).2[0]? = some (Except.ok (some offset)) := by
    decide +kernel
  have htriangle : (Decoder.idle.pushAll [0x200000FF, 0x04000400, 0x040007FF, 0x05FF0400]).2[3]? =
      some (Except.ok (some triangle)) := by
    decide +kernel
  have hmove : offset.IsDecoded := ⟨_, List.mem_of_getElem? hoffset⟩
  have hdraw : triangle.IsDecoded := ⟨_, List.mem_of_getElem? htriangle⟩
  obtain ⟨-, hruns, hbeam⟩ := runs_without_overflow .powerOn
  exact ⟨.powerOn, hmove, hdraw, hruns _ (by simp [hmove, hdraw]), hbeam 0xFFFFFFFF, by decide⟩

end Gpu

end ConsoleVideo
