import ConsoleVideo.Proofs.Command.Framing

/-!
# The jobs in a stream

What the decoder is for are the jobs.  This file takes them together over a list of words, where
they come from words that are refused nowhere and from words that are.

* `Decoder.takeAll` — the jobs in a list of words, up to the first word that is refused;
* `Decoder.of_mem_takeAll` — what holds of the jobs that commands describe holds of all of them;
* `Decoder.takeAll_of_pushAll` — words that are answered with one job make that job, as those of an
  upload do (`takeAll_upload`);
* `Framing.IsWhole`, `Framing.takeAll_of_isWhole` — complete commands that are offered make their
  jobs one after the other, and leave the decoder idle;
* `Framing.Fetches`, `Framing.any_isDownload_jobs_iff` — whether a command among them reads pixels
  from the picture memory.
-/

namespace ConsoleVideo

namespace Decoder

theorem eq_idle_of_isIdle {decoder : Decoder} (h : decoder.isIdle = true) : decoder = .idle := by
  cases decoder with
  | idle => rfl
  | operands command received => exact Bool.noConfusion h
  | payload rect received => exact Bool.noConfusion h

/-- What the decoder makes of words, up to the first one that it refuses. -/
def takeAll (decoder : Decoder) : List Word → Decoder × List Job × Option DeviceError
  | [] => (decoder, [], none)
  | w :: ws =>
    match decoder.push w with
    | (next, .error e) => (next, [], some e)
    | (next, .ok job) =>
      match next.takeAll ws with
      | (last, jobs, e) => (last, job.toList ++ jobs, e)

theorem takeAll_append (decoder : Decoder) (us vs : List Word) :
    decoder.takeAll (us ++ vs) =
      match decoder.takeAll us with
      | (next, jobs, some e) => (next, jobs, some e)
      | (next, jobs, none) =>
        ((next.takeAll vs).1, jobs ++ (next.takeAll vs).2.1, (next.takeAll vs).2.2) := by
  induction us generalizing decoder with
  | nil => rfl
  | cons u us ih =>
    simp only [List.cons_append, takeAll]
    rcases decoder.push u with ⟨next, e | job⟩
    · rfl
    · simp only [ih]
      rcases next.takeAll us with ⟨last, jobs, _ | e⟩
      · simp only [List.append_assoc]
      · rfl

section Made

variable {P : Job → Prop}
  (hbuild : ∀ {command : Command} {words : List Word} {job : Job},
    command.build? words = some job → P job)
  (hupload : ∀ image, P (.upload image))

include hbuild hupload

theorem of_push {decoder next : Decoder} {w : Word} {job : Job}
    (h : decoder.push w = (next, .ok (some job))) : P job := by
  have hadvance : ∀ (command : Command) (words : List Word),
      advance command words = (next, .ok (some job)) → P job := by
    intro command words h
    unfold advance at h
    split at h
    · simp at h
    · split at h
      · simp at h
      · simp at h
      · next built _ hbuilt =>
        obtain rfl : built = job := by simpa using congrArg Prod.snd h
        exact hbuild hbuilt
  cases decoder with
  | idle =>
    simp only [push] at h
    split at h
    · simp at h
    · exact hadvance _ _ h
  | operands command received => exact hadvance _ _ h
  | payload rect received =>
    simp only [push] at h
    split at h
    · simp at h
    · simp only [Prod.mk.injEq, Except.ok.injEq, Option.some.injEq] at h
      rw [← h.2]
      exact hupload _

/-- **What holds of the jobs that commands describe holds of all that the decoder makes**: uploads
are the only jobs that it completes by itself. -/
theorem of_mem_takeAll {decoder : Decoder} {ws : List Word} :
    ∀ job ∈ (decoder.takeAll ws).2.1, P job := by
  induction ws generalizing decoder with
  | nil => exact fun job hjob => absurd hjob List.not_mem_nil
  | cons w ws ih =>
    intro job hjob
    simp only [takeAll] at hjob
    rcases hpush : decoder.push w with ⟨next, e | _ | first⟩
    · simp [hpush] at hjob
    · simp only [hpush, Option.toList_none, List.nil_append] at hjob
      exact ih job hjob
    · simp only [hpush, Option.toList_some, List.singleton_append, List.mem_cons] at hjob
      rcases hjob with rfl | hlater
      · exact of_push hbuild hupload hpush
      · exact ih job hlater

end Made

/-- The decoder makes jobs of drawing commands only. -/
theorem isDrawing_of_mem_takeAll {decoder : Decoder} {ws : List Word} :
    ∀ job ∈ (decoder.takeAll ws).2.1, job.IsDrawing :=
  of_mem_takeAll Command.isDrawing_of_build? fun _ =>
    ⟨rfl, fun _ himage => Job.noConfusion himage⟩

/-! ### From answers to jobs -/

variable {decoder : Decoder}

/-- Where nothing is refused, the jobs are those of the answers. -/
theorem takeAll_of_answers {ws : List Word} {answers : List (Option Job)}
    (h : (decoder.pushAll ws).2 = answers.map .ok) :
    decoder.takeAll ws = ((decoder.pushAll ws).1, answers.filterMap id, none) := by
  induction ws generalizing decoder answers with
  | nil =>
    obtain rfl : answers = [] := List.map_eq_nil_iff.1 h.symm
    rfl
  | cons w ws ih =>
    cases answers with
    | nil => exact absurd h (List.cons_ne_nil _ _)
    | cons answer answers =>
      rw [pushAll, List.map_cons] at h
      obtain ⟨hfirst, hrest⟩ := List.cons.inj h
      have hpush : decoder.push w = ((decoder.push w).1, .ok answer) := Prod.ext rfl hfirst
      rw [takeAll, hpush, pushAll]
      simp only [ih hrest]
      cases answer with
      | none => rfl
      | some job => rfl

theorem takeAll_of_pushAll {last : Decoder} {ws : List Word} {n : Nat} {job : Job}
    (h : decoder.pushAll ws = (last, List.replicate n (.ok none) ++ [.ok (some job)])) :
    decoder.takeAll ws = (last, [job], none) := by
  have hanswers : (decoder.pushAll ws).2 = (List.replicate n none ++ [some job]).map .ok := by
    rw [h, List.map_append, List.map_replicate]
    rfl
  have hjobs : (List.replicate n none ++ [some job]).filterMap id = [job] := by
    rw [List.filterMap_append, List.filterMap_replicate_of_none rfl]
    rfl
  rw [takeAll_of_answers hanswers, hjobs, h]

/-- An upload with all of its pixels. -/
theorem takeAll_upload {load position size : Word} {pixels : List Word}
    (hload : Command.ofOpcode? (Command.opcode load) = some .upload)
    (hpixels : pixels.length = (VramRect.ofWords position size).wordCount) :
    idle.takeAll (load :: position :: size :: pixels) =
      (.idle, [.upload ⟨VramRect.ofWords position size, pixels.toArray⟩], none) :=
  takeAll_of_pushAll (Framing.pushAll_upload hload
    (hpixels.trans (Framing.payloadLength_eq position size).symm))

end Decoder

/-! ### Streams of complete commands -/

namespace Framing

/-- Complete commands that are offered, one after the other, and nothing else. -/
structure IsWhole (ws : List Word) : Prop where
  complete : (cut ws).2 = []
  offered : ∀ w, .refused w ∉ (cut ws).1

/-- The jobs of the commands in a stream. -/
def jobs (ws : List Word) : List Job :=
  (cut ws).1.filterMap fun frame => Frame.job? frame.words

/-- **Complete commands are taken with their jobs, and the decoder is idle again.** -/
theorem takeAll_of_isWhole {ws : List Word} (h : IsWhole ws) :
    Decoder.idle.takeAll ws = (.idle, jobs ws, none) := by
  induction ws using cut_induction with
  | hnil => simp [Decoder.takeAll, jobs, cut]
  | hrefused w ws hstart ih =>
    refine absurd ?_ (h.offered w)
    rw [cut_refused hstart]
    exact List.mem_cons_self
  | hcomplete w us vs hstart hlength hcut ih =>
    have hrest : IsWhole vs := by
      constructor
      · have hcomplete := h.complete
        rw [hcut] at hcomplete
        exact hcomplete
      · intro v hv
        refine h.offered v ?_
        rw [hcut]
        exact List.mem_cons_of_mem _ hv
    obtain ⟨job, hjob, hpush⟩ := pushAll_complete hstart hlength
    rw [Frame.answers, hjob] at hpush
    have hfirst := Decoder.takeAll_of_pushAll hpush
    have hjobs : jobs (w :: (us ++ vs)) = job :: jobs vs := by
      rw [jobs, hcut]
      exact List.filterMap_cons_some hjob
    rw [hjobs, ← List.cons_append, Decoder.takeAll_append, hfirst]
    simp only [ih hrest]
    rfl
  | hunfinished w ws hstart hlength =>
    have hcomplete := h.complete
    rw [cut_unfinished hstart hlength] at hcomplete
    exact absurd hcomplete (List.cons_ne_nil w ws)

end Framing

/-! ### Reading from the picture memory -/

/-- Whether the job reads pixels from the picture memory. -/
def Job.isDownload : Job → Bool
  | download _ => true
  | _ => false

namespace Command

variable {command : Command} {words : List Word} {job : Job}

theorem eq_download_of_build? {rect : VramRect}
    (h : command.build? words = some (.download rect)) : command = download := by
  cases command <;>
    simp only [build?, Option.bind_eq_bind, Option.pure_def, Option.bind_eq_some_iff,
      Option.map_eq_some_iff, Option.some.injEq, reduceCtorEq, and_false, exists_false] at h
  rfl

theorem isDownload_of_build? (h : command.build? words = some job) :
    job.isDownload = true ↔ command = download := by
  constructor
  · intro hjob
    cases job with
    | download rect => exact eq_download_of_build? h
    | _ => exact Bool.noConfusion hjob
  · rintro rfl
    simp only [build?, Option.bind_eq_bind, Option.pure_def, Option.bind_eq_some_iff,
      Option.some.injEq] at h
    obtain ⟨position, -, size, -, rfl⟩ := h
    rfl

theorem eq_download_iff (w : Word) :
    ofOpcode? (opcode w) = some download ↔ 0xC0 ≤ opcode w ∧ opcode w ≤ 0xDF := by
  have hall : ∀ opcode : Fin 256, ofOpcode? opcode = some download ↔
      0xC0 ≤ opcode.val ∧ opcode.val ≤ 0xDF := by
    decide +kernel
  exact hall ⟨opcode w, w.field_lt 24 8⟩

end Command

namespace Framing

theorem Frame.isDownload_withPixels (pixels : List Word) (job : Job) :
    (withPixels pixels job).isDownload = job.isDownload := by
  cases job <;> rfl

theorem Frame.isDownload_of_job? {words : List Word} {job : Job} (h : job? words = some job) :
    job.isDownload = true ↔
      0xC0 ≤ Command.opcode (words.headD 0) ∧ Command.opcode (words.headD 0) ≤ 0xDF := by
  simp only [job?, Option.bind_eq_bind, Option.bind_eq_some_iff, Option.pure_def,
    Option.some.injEq] at h
  obtain ⟨command, hcommand, built, hbuilt, rfl⟩ := h
  rw [isDownload_withPixels, Command.isDownload_of_build? hbuilt, ← Command.eq_download_iff,
    hcommand, Option.some.injEq]

/-- Some command of the stream reads pixels from the picture memory. -/
def Fetches (ws : List Word) : Prop :=
  ∃ words, .command words ∈ (cut ws).1 ∧
    0xC0 ≤ Command.opcode (words.headD 0) ∧ Command.opcode (words.headD 0) ≤ 0xDF

/-- **Whether pixels are read shows in the opcodes of the stream.** -/
theorem any_isDownload_jobs_iff {ws : List Word} (h : IsWhole ws) :
    (jobs ws).any Job.isDownload = true ↔ Fetches ws := by
  obtain ⟨-, -, -, -, hjobs⟩ := pushAll_idle_eq ws
  rw [List.any_eq_true]
  constructor
  · rintro ⟨job, hjob, hdownload⟩
    obtain ⟨frame, hframe, hmade⟩ := List.mem_filterMap.1 hjob
    cases frame with
    | refused w => exact absurd hframe (h.offered w)
    | command words => exact ⟨words, hframe, (Frame.isDownload_of_job? hmade).1 hdownload⟩
  · rintro ⟨words, hframe, hopcode⟩
    obtain ⟨job, hmade⟩ := Option.isSome_iff_exists.1 (hjobs words hframe)
    exact ⟨job, List.mem_filterMap.2 ⟨_, hframe, hmade⟩, (Frame.isDownload_of_job? hmade).2 hopcode⟩

end Framing

end ConsoleVideo
