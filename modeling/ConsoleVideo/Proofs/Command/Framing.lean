import ConsoleVideo.Proofs.Command.Build
import ConsoleVideo.Proofs.Command.Frame

/-!
# Decoding is cutting

The decoder sees one word at a time and keeps no more than the command in progress.  It nevertheless
answers every stream as if it had been cut into commands beforehand.

* `Decoder.pushAll` — the decoder fed a whole stream;
* `Decoder.pushAll_operands`, `Decoder.pushAll_payload` — a command up to its last word;
* `Framing.pushAll_complete`, `Framing.pushAll_unfinished` — one command, with or without its end;
* `Framing.pushAll_eq_cut` — the decoder and the cut agree on every stream.
-/

namespace ConsoleVideo

/-! ### The decoder fed a whole stream -/

namespace Decoder

variable {command : Command} {rect : VramRect}

/-- Takes the words of a stream one after the other; also gives their answers. -/
def pushAll (decoder : Decoder) : List Word → Decoder × List Answer
  | [] => (decoder, [])
  | w :: ws =>
    let next := (decoder.push w).1.pushAll ws
    (next.1, (decoder.push w).2 :: next.2)

theorem pushAll_append (decoder : Decoder) (us vs : List Word) :
    decoder.pushAll (us ++ vs) =
      (((decoder.pushAll us).1.pushAll vs).1,
        (decoder.pushAll us).2 ++ ((decoder.pushAll us).1.pushAll vs).2) := by
  induction us generalizing decoder with
  | nil => rfl
  | cons u us ih => simp only [List.cons_append, pushAll, ih]

/-- The first word of a command is taken like the words after it. -/
theorem pushAll_idle {w : Word} {ws : List Word} (h : Command.lookup w = .ok command) :
    idle.pushAll (w :: ws) = (operands command []).pushAll (w :: ws) := by
  have hpush : idle.push w = (operands command []).push w := by
    simp only [push, h, List.nil_append]
  simp only [pushAll, hpush]

/-- Short of its word count a command only gathers words. -/
theorem pushAll_operands (received ws : List Word)
    (h : received.length + ws.length < command.wordCount) :
    (operands command received).pushAll ws =
      (operands command (received ++ ws), List.replicate ws.length (.ok none)) := by
  induction ws generalizing received with
  | nil => simp [pushAll]
  | cons w ws ih =>
    rw [List.length_cons] at h
    have hpush : (operands command received).push w =
        (operands command (received ++ [w]), .ok none) := by
      simp only [push, advance]
      rw [if_pos (by rw [List.length_append, List.length_singleton]; omega)]
    have hrest := ih (received ++ [w]) (by rw [List.length_append, List.length_singleton]; omega)
    simp only [pushAll, hpush, hrest, List.append_assoc, List.singleton_append,
      List.length_cons, List.replicate_succ]

/-- Short of its last pixels an upload only gathers words. -/
theorem pushAll_payload (received : Array Word) (ws : List Word)
    (h : received.size + ws.length < rect.wordCount) :
    (payload rect received).pushAll ws =
      (payload rect (received ++ ws.toArray), List.replicate ws.length (.ok none)) := by
  induction ws generalizing received with
  | nil => simp [pushAll]
  | cons w ws ih =>
    rw [List.length_cons] at h
    have hpush : (payload rect received).push w = (payload rect (received.push w), .ok none) := by
      simp only [push]
      rw [if_pos (by rw [Array.size_push]; omega)]
    have hrest := ih (received.push w) (by rw [Array.size_push]; omega)
    simp only [pushAll, hpush, hrest, List.length_cons, List.replicate_succ]
    congr 2
    simp

/-- All words of a command but the last are answered with nothing, the last one with what `advance`
makes of them. -/
theorem pushAll_command (w : Word) (ws : List Word) (hlookup : Command.lookup w = .ok command)
    (h : ws.length + 1 = command.wordCount) :
    idle.pushAll (w :: ws) =
      ((advance command (w :: ws)).1,
        List.replicate ws.length (.ok none) ++ [(advance command (w :: ws)).2]) := by
  obtain ⟨us, v, huv⟩ : ∃ us v, w :: ws = us ++ [v] :=
    ⟨_, _, (List.dropLast_concat_getLast (List.cons_ne_nil w ws)).symm⟩
  have hlength : us.length = ws.length := by
    have := congrArg List.length huv
    rw [List.length_cons, List.length_append, List.length_singleton] at this
    omega
  rw [pushAll_idle hlookup, huv, pushAll_append,
    pushAll_operands [] us (by rw [List.length_nil]; omega), hlength]
  rfl

/-- **The pixels of an upload**: the last one completes the job. -/
theorem pushAll_pixels {ws : List Word} (h : ws.length = rect.wordCount) (hpos : ws ≠ []) :
    (payload rect #[]).pushAll ws =
      (idle, List.replicate (ws.length - 1) (.ok none) ++
        [.ok (some (.upload ⟨rect, ws.toArray⟩))]) := by
  obtain ⟨us, v, rfl⟩ : ∃ us v, ws = us ++ [v] :=
    ⟨_, _, (List.dropLast_concat_getLast hpos).symm⟩
  rw [List.length_append, List.length_singleton] at h
  rw [pushAll_append, pushAll_payload #[] us (by rw [List.size_toArray, List.length_nil]; omega)]
  have hpush : (payload rect us.toArray).push v =
      (idle, .ok (some (.upload ⟨rect, us.toArray.push v⟩))) := by
    simp only [push]
    rw [if_neg (by rw [Array.size_push, List.size_toArray]; omega)]
  simp [pushAll, hpush]

end Decoder

namespace Framing

/-! ### Frame by frame -/

/-- **A refused word takes nothing else with it.** -/
theorem push_refused {w : Word} (h : entry (Command.opcode w) = .refused) :
    Decoder.idle.push w = (.idle, .error (refusal w)) := by
  have hcommand := ofOpcode?_of_refused h
  unfold refusal
  split at hcommand
  · next hrange =>
    rw [if_pos hrange]
    simp only [Decoder.push, Command.lookup, hcommand]
    rfl
  · next hrange =>
    rw [if_neg hrange]
    simp only [Decoder.push, Command.lookup, hcommand]

variable {w : Word} {ws : List Word} {command : Command}

/-- A command other than an upload is complete with its own words. -/
theorem advance_of_ne_upload (words : List Word) (hoffered : command ≠ .polyline)
    (hupload : command ≠ .upload) (h : words.length = command.wordCount)
    (hcommand : Command.ofOpcode? (Command.opcode (words.headD 0)) = some command) :
    ∃ job, Frame.job? words = some job ∧
      Decoder.advance command words = (.idle, .ok (some job)) := by
  obtain ⟨job, hjob⟩ := Option.isSome_iff_exists.1
    (Command.build?_isSome hoffered (Nat.le_of_eq h.symm))
  have hkind : ∀ image, job ≠ .upload image := by
    rintro image rfl
    exact hupload (Command.eq_upload_of_build? hjob).1
  refine ⟨job, ?_, ?_⟩
  · simp only [Frame.job?, hcommand, hjob, Option.bind_eq_bind, Option.bind_some]
    cases job with
    | upload image => exact absurd rfl (hkind image)
    | _ => rfl
  · unfold Decoder.advance
    rw [if_neg (by omega), hjob]
    cases job with
    | upload image => exact absurd rfl (hkind image)
    | _ => rfl

/-- An upload goes on with its pixels. -/
theorem advance_upload (position size : Word) :
    Decoder.advance .upload [w, position, size] =
      (.payload (VramRect.ofWords position size) #[], .ok none) := rfl

/-- The upload that `position`, `size` and its pixels make up. -/
theorem pushAll_upload {position size : Word} {pixels : List Word}
    (hcommand : Command.ofOpcode? (Command.opcode w) = some .upload)
    (h : pixels.length = payloadLength size) :
    Decoder.idle.pushAll (w :: position :: size :: pixels) =
      (.idle, List.replicate (pixels.length + 2) (.ok none) ++
        [.ok (some (.upload ⟨VramRect.ofWords position size, pixels.toArray⟩))]) := by
  have hlookup : Command.lookup w = .ok .upload := by simp only [Command.lookup, hcommand]
  have hpos := payloadLength_pos size
  have hsome : pixels ≠ [] := List.ne_nil_of_length_pos (by omega)
  have hcount : pixels.length = (VramRect.ofWords position size).wordCount := by
    rw [h, payloadLength_eq]
  have hown := Decoder.pushAll_command w [position, size] hlookup rfl
  rw [advance_upload] at hown
  show Decoder.idle.pushAll ([w, position, size] ++ pixels) = _
  rw [Decoder.pushAll_append, hown, Decoder.pushAll_pixels hcount hsome]
  obtain ⟨n, hn⟩ : ∃ n, pixels.length = n + 1 := ⟨pixels.length - 1, by omega⟩
  rw [hn]
  rfl

/-- **A command whose words are all there is answered with its job.** -/
theorem pushAll_complete (hstart : entry (Command.opcode w) ≠ .refused)
    (h : length? w ws = some (ws.length + 1)) :
    ∃ job, Frame.job? (w :: ws) = some job ∧
      Decoder.idle.pushAll (w :: ws) = (.idle, (Frame.command (w :: ws)).answers) := by
  obtain ⟨command, hcommand, hoffered⟩ := exists_command hstart
  by_cases hupload : command = .upload
  · subst hupload
    rw [length?_of_upload hcommand, Option.map_eq_some_iff] at h
    obtain ⟨size, hsize, hlength⟩ := h
    match ws, hsize with
    | position :: _ :: pixels, rfl =>
      simp only [List.length_cons] at hlength
      have hjob : Frame.job? (w :: position :: size :: pixels) =
          some (.upload ⟨VramRect.ofWords position size, pixels.toArray⟩) := by
        simp only [Frame.job?, List.headD_cons, hcommand]
        rfl
      refine ⟨_, hjob, ?_⟩
      rw [pushAll_upload hcommand (by omega), Frame.answers, hjob]
      rfl
  · have hwords : ws.length + 1 = command.wordCount := by
      rw [length?_of_ne_upload hcommand hoffered hupload] at h
      exact (Option.some.inj h).symm
    have hlookup : Command.lookup w = .ok command := by simp only [Command.lookup, hcommand]
    obtain ⟨job, hjob, hadvance⟩ := advance_of_ne_upload (w :: ws) hoffered hupload hwords hcommand
    refine ⟨job, hjob, ?_⟩
    rw [Decoder.pushAll_command w ws hlookup hwords, hadvance, Frame.answers, hjob]
    rfl

/-- **A command whose last word is missing is answered with nothing so far.** -/
theorem pushAll_unfinished (hstart : entry (Command.opcode w) ≠ .refused)
    (h : ∀ n, length? w ws = some n → ws.length + 1 < n) :
    ∃ decoder, Decoder.idle.pushAll (w :: ws) =
        (decoder, List.replicate (ws.length + 1) (.ok none)) ∧
      decoder.pending = ws.length + 1 ∧ decoder.isIdle = false := by
  obtain ⟨command, hcommand, hoffered⟩ := exists_command hstart
  have hlookup : Command.lookup w = .ok command := by simp only [Command.lookup, hcommand]
  have hgather : ws.length + 1 < command.wordCount → ∃ decoder, Decoder.idle.pushAll (w :: ws) =
      (decoder, List.replicate (ws.length + 1) (.ok none)) ∧
        decoder.pending = ws.length + 1 ∧ decoder.isIdle = false := by
    intro hshort
    refine ⟨.operands command (w :: ws), ?_, rfl, rfl⟩
    rw [Decoder.pushAll_idle hlookup, Decoder.pushAll_operands [] _ (by simpa using hshort)]
    rfl
  by_cases hupload : command = .upload
  · subst hupload
    match ws with
    | [] => exact hgather (show 1 < 3 by decide)
    | [_] => exact hgather (show 2 < 3 by decide)
    | position :: size :: pixels =>
      -- The command has its own words, so the decoder already gathers pixels.
      have hlength := h _ (length?_of_upload hcommand)
      simp only [List.length_cons] at hlength
      have hown := Decoder.pushAll_command w [position, size] hlookup rfl
      rw [advance_upload] at hown
      refine ⟨.payload (VramRect.ofWords position size) pixels.toArray, ?_, ?_, rfl⟩
      · show Decoder.idle.pushAll ([w, position, size] ++ pixels) = _
        rw [Decoder.pushAll_append, hown, Decoder.pushAll_payload #[] pixels
          (by rw [← payloadLength_eq, List.size_toArray, List.length_nil]; omega)]
        rw [Array.empty_append]
        rfl
      · simp only [Decoder.pending, List.size_toArray, List.length_cons]
        omega
  · exact hgather (h _ (length?_of_ne_upload hcommand hoffered hupload))

/-! ### The whole stream -/

/-- **The decoder follows the cut.**  Its answers are those of the frames, and what it holds at the
end is what is left over. -/
theorem pushAll_idle_eq (ws : List Word) :
    ∃ decoder, Decoder.idle.pushAll ws = (decoder, answers ws) ∧
      decoder.pending = (cut ws).2.length ∧
      (decoder.isIdle = true ↔ (cut ws).2 = []) ∧
      ∀ words, .command words ∈ (cut ws).1 → (Frame.job? words).isSome := by
  -- Every frame leaves the decoder idle, so the rest of the stream starts as the stream did.
  induction ws using cut_induction with
  | hnil =>
    exact ⟨.idle, by simp [Decoder.pushAll, answers, cut], by simp [cut, Decoder.pending],
      by simp [cut, Decoder.isIdle], by simp [cut]⟩
  | hrefused w ws hstart ih =>
    obtain ⟨decoder, hrun, hpending, hidle, hjobs⟩ := ih
    refine ⟨decoder, ?_, ?_, ?_, ?_⟩
    · simp only [Decoder.pushAll, push_refused hstart, hrun, answers_of_cut (cut_refused hstart)]
      rfl
    · rw [cut_refused hstart, hpending]
    · rw [cut_refused hstart, hidle]
    · rw [cut_refused hstart]
      intro words hwords
      exact hjobs words (by simpa using hwords)
  | hcomplete w us vs hstart hlength hcut ih =>
    obtain ⟨decoder, hrun, hpending, hidle, hjobs⟩ := ih
    obtain ⟨job, hjob, hframe⟩ := pushAll_complete hstart hlength
    refine ⟨decoder, ?_, ?_, ?_, ?_⟩
    · rw [answers_of_cut hcut, List.flatMap_cons, List.append_assoc, ← List.cons_append,
        Decoder.pushAll_append, hframe, hrun]
      rfl
    · rw [hcut, hpending]
    · rw [hcut, hidle]
    · rw [hcut]
      intro words hwords
      rcases List.mem_cons.1 hwords with hfirst | hlater
      · obtain rfl := Frame.command.inj hfirst
        rw [hjob]
        rfl
      · exact hjobs words hlater
  | hunfinished w ws hstart hlength =>
    obtain ⟨decoder, hrun, hpending, hbusy⟩ := pushAll_unfinished hstart hlength
    refine ⟨decoder, ?_, ?_, ?_, ?_⟩
    · rw [hrun, answers_of_cut (cut_unfinished hstart hlength)]
      rfl
    · rw [cut_unfinished hstart hlength, hpending]
      rfl
    · rw [cut_unfinished hstart hlength, hbusy]
      simp
    · rw [cut_unfinished hstart hlength]
      intro words hwords
      exact absurd hwords List.not_mem_nil

/-- The last word of a frame is answered with an error or a job. -/
theorem getLast?_answers {frame : Frame}
    (hjob : ∀ words, frame = .command words → (Frame.job? words).isSome) :
    ∃ answer, frame.answers.getLast? = some answer ∧ answer ≠ .ok none := by
  cases frame with
  | refused w => exact ⟨.error (refusal w), rfl, fun h => nomatch h⟩
  | command words =>
    obtain ⟨job, hjob⟩ := Option.isSome_iff_exists.1 (hjob words rfl)
    refine ⟨.ok (some job), ?_, by simp⟩
    rw [Frame.answers, List.getLast?_concat, hjob]

/-- **The stream is at a boundary exactly where its last word was answered with something.** -/
theorem rest_eq_nil_iff (ws : List Word) :
    (cut ws).2 = [] ↔ (answers ws).getLast? ≠ some (.ok none) := by
  obtain ⟨-, -, -, -, hjobs⟩ := pushAll_idle_eq ws
  cases hrest : (cut ws).2 with
  | nil =>
    refine iff_of_true rfl ?_
    rw [answers, hrest, List.length_nil, List.replicate_zero, List.append_nil]
    rcases List.eq_nil_or_concat (cut ws).1 with hframes | ⟨frames, last, hframes⟩
    · simp [hframes]
    · have hlast : ∀ words, last = .command words → (Frame.job? words).isSome := by
        rintro words rfl
        exact hjobs words (by simp [hframes])
      obtain ⟨answer, hanswer, hsomething⟩ := getLast?_answers hlast
      rw [hframes, List.concat_eq_append, List.flatMap_append, List.flatMap_singleton,
        List.getLast?_append, hanswer, Option.some_or]
      exact fun h => hsomething (Option.some.inj h)
  | cons w rest =>
    refine iff_of_false (List.cons_ne_nil w rest) ?_
    rw [answers, hrest, List.length_cons, List.replicate_succ', ← List.append_assoc,
      List.getLast?_concat]
    exact not_not_intro rfl

/-- **Decoding a stream is cutting it into commands.**  The answers are those of the cut; a job
comes with the last word of its command and is made of its words; the decoder holds the words since
the last boundary, which is where an error or a job was answered; and whatever a builder reads is
there. -/
theorem pushAll_eq_cut (ws : List Word) :
    (Decoder.idle.pushAll ws).2 = answers ws ∧
      (cut ws).1.flatMap Frame.words ++ (cut ws).2 = ws ∧
      (∀ words, .command words ∈ (cut ws).1 → ∃ job, Frame.job? words = some job) ∧
      (Decoder.idle.pushAll ws).1.pending = (cut ws).2.length ∧
      ((Decoder.idle.pushAll ws).1.isIdle = true ↔ (cut ws).2 = []) ∧
      ((Decoder.idle.pushAll ws).1.isIdle = true ↔ (answers ws).getLast? ≠ some (.ok none)) ∧
      ∀ (command : Command) (words : List Word), command ≠ .polyline →
        command.wordCount ≤ words.length → (command.build? words).isSome := by
  obtain ⟨decoder, hrun, hpending, hidle, hjobs⟩ := pushAll_idle_eq ws
  rw [hrun]
  refine ⟨rfl, flatMap_words_cut ws, ?_, hpending, hidle, ?_, ?_⟩
  · exact fun words hwords => Option.isSome_iff_exists.1 (hjobs words hwords)
  · exact hidle.trans (rest_eq_nil_iff ws)
  · exact fun command words => Command.build?_isSome

end Framing

end ConsoleVideo
