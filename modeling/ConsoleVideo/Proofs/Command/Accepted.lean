import ConsoleVideo.Proofs.Command.Jobs

/-!
# Commands that are accepted

Words come in portions.  A portion may end inside of a command, whose other words come with a later
one, and with a word that is refused the rest of its portion is lost.

* `Framing.accepted`, `Framing.held` — the complete commands in a portion, and what it leaves of the
  command in progress;
* `Framing.takeAll_idle`, `Framing.takeAll_held` — the decoder makes the jobs of these commands and
  holds these words;
* `Job.isUnguarded` — the jobs that mask flags do not stand up to;
  `Framing.Frame.IsHarmless.isUnguarded` — they show in the opcodes.
-/

namespace ConsoleVideo

namespace Framing

/-! ### Portions -/

namespace Frame

/-- The frame is a command that is offered. -/
def isCommand : Frame → Bool
  | refused _ => false
  | command _ => true

end Frame

/-- The complete commands before the first refused word. -/
def accepted (ws : List Word) : List (List Word) :=
  ((cut ws).1.takeWhile Frame.isCommand).map Frame.words

/-- The words of the command in progress, unless a word was refused before it. -/
def held (ws : List Word) : List Word :=
  if (cut ws).1.all Frame.isCommand then (cut ws).2 else []

/-- **The decoder makes the jobs of the accepted commands and holds the command in progress.** -/
theorem takeAll_idle (ws : List Word) :
    (Decoder.idle.takeAll ws).1 = (Decoder.idle.pushAll (held ws)).1 ∧
      (Decoder.idle.takeAll ws).2.1 = (accepted ws).filterMap Frame.job? ∧
      ((cut ws).1.all Frame.isCommand = true → (Decoder.idle.takeAll ws).2.2 = none) ∧
      cut (held ws) = ([], held ws) := by
  induction ws using cut_induction with
  | hnil => simp [accepted, held, cut, Decoder.takeAll, Decoder.pushAll]
  | hrefused w ws hstart ih =>
    have haccepted : accepted (w :: ws) = [] := by
      rw [accepted, cut_refused hstart]
      rfl
    have hheld : held (w :: ws) = [] := by
      rw [held, cut_refused hstart]
      rfl
    rw [haccepted, hheld, Decoder.takeAll, push_refused hstart, cut_refused hstart]
    exact ⟨rfl, rfl, fun hall => Bool.noConfusion hall, by rw [cut]⟩
  | hcomplete w us vs hstart hlength hcut ih =>
    obtain ⟨hdecoder, hjobs, hnone, hrest⟩ := ih
    obtain ⟨job, hjob, hpush⟩ := pushAll_complete hstart hlength
    rw [Frame.answers, hjob] at hpush
    have hfirst := Decoder.takeAll_of_pushAll hpush
    have haccepted : accepted (w :: (us ++ vs)) = (w :: us) :: accepted vs := by
      rw [accepted, hcut]
      rfl
    have hheld : held (w :: (us ++ vs)) = held vs := by
      rw [held, hcut]
      rfl
    rw [haccepted, hheld, hcut, ← List.cons_append, Decoder.takeAll_append, hfirst,
      List.filterMap_cons_some hjob]
    exact ⟨hdecoder, congrArg (job :: ·) hjobs, hnone, hrest⟩
  | hunfinished w ws hstart hlength =>
    obtain ⟨decoder, hpush, -, -⟩ := pushAll_unfinished hstart hlength
    have hcut := cut_unfinished hstart hlength
    have hheld : held (w :: ws) = w :: ws := by
      rw [held, hcut]
      rfl
    have htake : Decoder.idle.takeAll (w :: ws) = (decoder, [], none) := by
      have hanswers : (Decoder.idle.pushAll (w :: ws)).2 =
          (List.replicate (ws.length + 1) none).map .ok := by
        rw [hpush, List.map_replicate]
      rw [Decoder.takeAll_of_answers hanswers, hpush, List.filterMap_replicate_of_none rfl]
    rw [htake, hheld, hpush, accepted, hcut]
    exact ⟨rfl, rfl, fun _ => rfl, rfl⟩

/-- **The words of a command in progress and a portion are taken as one.** -/
theorem takeAll_held {start : List Word} (hstart : cut start = ([], start)) (ws : List Word) :
    ((Decoder.idle.pushAll start).1.takeAll ws).1 =
        (Decoder.idle.pushAll (held (start ++ ws))).1 ∧
      ((Decoder.idle.pushAll start).1.takeAll ws).2.1 =
        (accepted (start ++ ws)).filterMap Frame.job? := by
  obtain ⟨hdecoder, hjobs, hnone, -⟩ := takeAll_idle start
  have haccepted : accepted start = [] := by
    rw [accepted, hstart]
    rfl
  have hheld : held start = start := by
    rw [held, hstart]
    rfl
  have htake : Decoder.idle.takeAll start = ((Decoder.idle.pushAll start).1, [], none) := by
    rw [hheld] at hdecoder
    rw [haccepted] at hjobs
    exact Prod.ext hdecoder (Prod.ext hjobs (hnone (by rw [hstart]; rfl)))
  obtain ⟨hlast, hall, -, -⟩ := takeAll_idle (start ++ ws)
  rw [Decoder.takeAll_append, htake] at hlast hall
  exact ⟨hlast, hall⟩

end Framing

/-! ### Mask flags -/

/-- The job writes pixels whatever their mask flag says, or changes what mask flags mean. -/
def Job.isUnguarded : Job → Bool
  | fill _ => true
  | maskBits _ _ => true
  | _ => false

namespace Command

variable {command : Command} {words : List Word} {job : Job}

theorem isUnguarded_of_build? (h : command.build? words = some job)
    (hjob : job.isUnguarded = true) : command = fill ∨ command = maskBits := by
  cases job with
  | fill rect =>
    left
    cases command <;>
      simp only [build?, Option.bind_eq_bind, Option.pure_def, Option.bind_eq_some_iff,
        Option.map_eq_some_iff, Option.some.injEq, reduceCtorEq, and_false, exists_false] at h
    rfl
  | maskBits set check =>
    right
    cases command <;>
      simp only [build?, Option.bind_eq_bind, Option.pure_def, Option.bind_eq_some_iff,
        Option.map_eq_some_iff, Option.some.injEq, reduceCtorEq, and_false, exists_false] at h
    rfl
  | _ => exact Bool.noConfusion hjob

theorem opcode_of_unguarded {w : Word}
    (h : ofOpcode? (opcode w) = some fill ∨ ofOpcode? (opcode w) = some maskBits) :
    opcode w = 0x02 ∨ opcode w = 0xE6 := by
  have hall : ∀ opcode : Fin 256,
      ofOpcode? opcode = some fill ∨ ofOpcode? opcode = some maskBits →
        opcode.val = 0x02 ∨ opcode.val = 0xE6 := by
    decide +kernel
  exact hall ⟨opcode w, w.field_lt 24 8⟩ h

end Command

namespace Framing

/-- The command is neither a fill nor a mask setting. -/
def Frame.IsHarmless (words : List Word) : Prop :=
  Command.opcode (words.headD 0) ≠ 0x02 ∧ Command.opcode (words.headD 0) ≠ 0xE6

/-- **Fills and mask settings show in the opcodes of the commands.** -/
theorem Frame.IsHarmless.isUnguarded {words : List Word} {job : Job} (hharmless : IsHarmless words)
    (h : job? words = some job) : job.isUnguarded = false := by
  simp only [job?, Option.bind_eq_bind, Option.bind_eq_some_iff, Option.pure_def,
    Option.some.injEq] at h
  obtain ⟨command, hcommand, built, hbuilt, rfl⟩ := h
  have hsame : (withPixels (words.drop 3) built).isUnguarded = built.isUnguarded := by
    cases built <;> rfl
  rw [hsame, ← Bool.not_eq_true]
  intro hunguarded
  have hopcode : Command.opcode (words.headD 0) = 0x02 ∨ Command.opcode (words.headD 0) = 0xE6 := by
    apply Command.opcode_of_unguarded
    rcases Command.isUnguarded_of_build? hbuilt hunguarded with rfl | rfl
    · exact .inl hcommand
    · exact .inr hcommand
  rcases hopcode with hopcode | hopcode
  · exact hharmless.1 hopcode
  · exact hharmless.2 hopcode

end Framing

end ConsoleVideo
