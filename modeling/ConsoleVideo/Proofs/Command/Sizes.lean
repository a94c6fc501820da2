import ConsoleVideo.Proofs.Command.Framing
import ConsoleVideo.Proofs.Command.Operands
import ConsoleVideo.Proofs.Drawing.Images

/-!
# How large things are that commands ask for

A job may hold any numbers, but the decoder makes none that the fields of a word cannot state: vertices
have eleven bits, rectangles and fills ten for their columns and nine for their rows, and transfers go
up to the size of the picture memory.

* `Job.IsDecoded` — the jobs that the decoder makes, of whatever words;
* `Job.IsDecoded.of_build?` — what holds of the jobs that commands describe holds of these;
* `Job.Sized` — what is drawn has the size that its fields can state;
* `Job.IsDecoded.sized` — as all jobs have that the decoder makes.
-/

namespace ConsoleVideo

namespace Job

/-- The decoder makes this job when it is given some stream of words, refused ones among them or
not. -/
def IsDecoded (job : Job) : Prop :=
  ∃ ws, .ok (some job) ∈ (Decoder.idle.pushAll ws).2

/-- What is drawn has the size that the fields of its words can state. -/
def Sized : Job → Prop
  | .fill block => block.width ≤ 1023 ∧ block.height ≤ 511
  | .line stretch => stretch.start.Fits ∧ stretch.stop.Fits
  | .rectangle shape => shape.position.Fits ∧ shape.width ≤ 1023 ∧ shape.height ≤ 511
  | .copy block => block.width ≤ 1024 ∧ block.height ≤ 512
  | .upload image => image.rect.Fits
  | _ => True

end Job

/-! ### What words ask for -/

namespace Command

variable {command : Command} {words : List Word} {job : Job}

/-- An opcode that fixes the side of a rectangle fixes a short one. -/
theorem side_le_of_ofOpcode? {opcode side : Nat} {style : RectangleStyle}
    (h : ofOpcode? opcode = some (.rectangle style)) (hside : style.side = some side) :
    side ≤ 16 := by
  have hstyle : style.side = side? opcode := by
    unfold ofOpcode? at h
    grind
  rw [hstyle, side?] at hside
  grind

theorem sized_of_rectangle? {style : RectangleStyle} {shape : Rectangle}
    (hsides : ∀ side, style.side = some side → side ≤ 16)
    (h : rectangle? style words = some shape) : Job.Sized (.rectangle shape) := by
  obtain ⟨side, textured, translucent, raw⟩ := style
  have hfields : ∃ position : Word, shape.position = Vertex.ofWord position ∧
      ((side = some shape.width ∧ side = some shape.height) ∨
        ∃ size : Word, shape.width = size.field 0 10 ∧ shape.height = size.field 16 9) := by
    cases textured <;> cases side <;>
      simp [rectangle?, Option.bind_eq_some_iff] at h <;> grind
  obtain ⟨position, hposition, hsize⟩ := hfields
  refine ⟨hposition ▸ Vertex.fits_ofWord position, ?_⟩
  rcases hsize with ⟨hwidth, hheight⟩ | ⟨size, hwidth, hheight⟩
  · have hwide := hsides _ hwidth
    have hhigh := hsides _ hheight
    omega
  · have hwide := size.field_lt 0 10
    have hhigh := size.field_lt 16 9
    rw [hwidth, hheight]
    exact ⟨Nat.le_of_lt_succ hwide, Nat.le_of_lt_succ hhigh⟩

/-- **No command asks for more than its fields can state.** -/
theorem sized_of_build? {opcode : Nat} (hopcode : ofOpcode? opcode = some command)
    (h : command.build? words = some job) : job.Sized := by
  cases command with
  | polyline => exact absurd h (Option.some_ne_none job).symm
  | rectangle style =>
    obtain ⟨shape, hshape, rfl⟩ := Option.map_eq_some_iff.1 h
    exact sized_of_rectangle? (fun side hside => side_le_of_ofOpcode? hopcode hside) hshape
  | fill =>
    simp only [build?, Option.bind_eq_bind, Option.pure_def, Option.bind_eq_some_iff,
      Option.some.injEq] at h
    obtain ⟨color, -, corner, -, size, -, rfl⟩ := h
    exact ⟨Nat.le_of_lt_succ (size.field_lt 0 10), Nat.le_of_lt_succ (size.field_lt 16 9)⟩
  | line shaded translucent =>
    simp only [build?, Option.bind_eq_bind, Option.pure_def, Option.bind_eq_some_iff,
      Option.some.injEq] at h
    obtain ⟨color, -, start, -, stopColor, -, stop, -, rfl⟩ := h
    exact ⟨Vertex.fits_ofWord start, Vertex.fits_ofWord stop⟩
  | copy =>
    simp only [build?, Option.bind_eq_bind, Option.pure_def, Option.bind_eq_some_iff,
      Option.some.injEq] at h
    obtain ⟨source, -, target, -, size, -, rfl⟩ := h
    have hfits := VramRect.fits_ofWords source size
    exact ⟨hfits.width, hfits.height⟩
  | upload =>
    simp only [build?, Option.bind_eq_bind, Option.pure_def, Option.bind_eq_some_iff,
      Option.some.injEq] at h
    obtain ⟨position, -, size, -, rfl⟩ := h
    exact VramRect.fits_ofWords position size
  | _ =>
    simp only [build?, Option.bind_eq_bind, Option.pure_def, Option.bind_eq_some_iff,
      Option.map_eq_some_iff, Option.some.injEq] at h
    grind [Job.Sized]

end Command

/-! ### What the decoder makes -/

namespace Framing

/-- Jobs come from complete commands. -/
theorem exists_words_of_mem_answers {ws : List Word} {job : Job}
    (h : .ok (some job) ∈ answers ws) : ∃ words, Frame.job? words = some job := by
  rw [answers, List.mem_append, List.mem_flatMap] at h
  rcases h with ⟨frame, -, hframe⟩ | hrest
  · cases frame with
    | refused w =>
      have herror : (.ok (some job) : Answer) = .error (refusal w) := List.mem_singleton.1 hframe
      cases herror
    | command words =>
      rw [Frame.answers, List.mem_append] at hframe
      rcases hframe with hnone | hlast
      · exact absurd (Except.ok.inj (List.eq_of_mem_replicate hnone)) (Option.some_ne_none job)
      · exact ⟨words, (Except.ok.inj (List.mem_singleton.1 hlast)).symm⟩
  · exact absurd (Except.ok.inj (List.eq_of_mem_replicate hrest)) (Option.some_ne_none job)

end Framing

/-- **What holds of the jobs that commands describe holds of all jobs that the decoder makes**: they
differ in the pixels of images only. -/
theorem Job.IsDecoded.of_build? {P : Job → Prop}
    (hbuild : ∀ {opcode : Nat} {command : Command} {words : List Word} {job : Job},
      Command.ofOpcode? opcode = some command → command.build? words = some job → P job)
    (hupload : ∀ {image : ImageLoad} (payload : Array Word),
      P (.upload image) → P (.upload { image with payload := payload }))
    {job : Job} (h : job.IsDecoded) : P job := by
  obtain ⟨ws, hmem⟩ := h
  obtain ⟨decoder, hrun, -⟩ := Framing.pushAll_idle_eq ws
  rw [hrun] at hmem
  obtain ⟨words, hjob⟩ := Framing.exists_words_of_mem_answers hmem
  simp only [Framing.Frame.job?, Option.bind_eq_bind, Option.bind_eq_some_iff, Option.pure_def,
    Option.some.injEq] at hjob
  obtain ⟨command, hcommand, built, hbuilt, rfl⟩ := hjob
  have hholds := hbuild hcommand hbuilt
  cases built with
  | upload image => exact hupload _ hholds
  | _ => exact hholds

/-- **The decoder makes nothing larger than words can state.** -/
theorem Job.IsDecoded.sized {job : Job} (h : job.IsDecoded) : job.Sized :=
  h.of_build? Command.sized_of_build? fun _ himage => himage

end ConsoleVideo
