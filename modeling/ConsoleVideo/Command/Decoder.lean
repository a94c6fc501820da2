import ConsoleVideo.Command.Basic

/-!
# From a stream of words to jobs

Commands arrive one word at a time and are not separated by anything but their lengths.

* `Decoder` — what has been received of the command in progress;
* `Decoder.push` — takes one word and answers with the job it completes, if any.  A word that
  starts no command, or one that is not offered, is dropped with an error;
* `Decoder.pending` — how many words of the command in progress were received.
-/

namespace ConsoleVideo

/-- The command in progress. -/
inductive Decoder where
  | idle
  /-- Words of a command whose own words are not complete. -/
  | operands (command : Command) (received : List Word)
  /-- Pixels of an upload whose own words are complete. -/
  | payload (rect : VramRect) (received : Array Word)
  deriving DecidableEq

namespace Decoder

/-- Whether no command is in progress. -/
def isIdle : Decoder → Bool
  | idle => true
  | _ => false

/-- How many words of the command in progress were received. -/
def pending : Decoder → Nat
  | idle => 0
  | operands _ received => received.length
  | payload _ received => 3 + received.size

/-- Goes on with a command of which `words` were received: completes it if none is missing.  An
upload is complete only with its pixels, and it has at least one. -/
def advance (command : Command) (words : List Word) :
    Decoder × Except DeviceError (Option Job) :=
  if words.length < command.wordCount then (operands command words, .ok none)
  else match command.build? words with
    | none => (idle, .error (.unsupported (.polyline (Command.opcode (words.headD 0)))))
    | some (.upload image) => (payload image.rect image.payload, .ok none)
    | some job => (idle, .ok (some job))

/-- Takes one word. -/
def push (decoder : Decoder) (w : Word) : Decoder × Except DeviceError (Option Job) :=
  match decoder with
  | idle =>
    match Command.lookup w with
    | .error e => (idle, .error e)
    | .ok command => advance command [w]
  | operands command received => advance command (received ++ [w])
  | payload rect received =>
    let received := received.push w
    if received.size < rect.wordCount then (payload rect received, .ok none)
    else (idle, .ok (some (.upload { rect := rect, payload := received })))

/-- After a job or an error no command is in progress. -/
theorem push_of_answer {decoder next : Decoder} {w : Word} {answer : Except DeviceError (Option Job)}
    (h : decoder.push w = (next, answer)) (hanswer : answer ≠ .ok none) : next = idle := by
  have advanced : ∀ {command : Command} {words : List Word},
      advance command words = (next, answer) → next = idle := by
    intro command words h
    unfold advance at h
    grind
  unfold push at h
  grind

end Decoder

end ConsoleVideo
