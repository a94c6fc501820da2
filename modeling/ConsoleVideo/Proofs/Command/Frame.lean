import ConsoleVideo.Proofs.Command.Build

/-!
# Where commands end

Nothing separates the commands of a stream but their lengths.  This file says from the whole stream,
with no decoder in sight, where each command ends and which answers its words get.

* `entry` — the documented length of a command by its opcode, with `entry_opcode`: the command
  table has the same lengths;
* `Frame` — a complete command, or a word that is refused, with its answers;
* `cut` — the frames of a stream and the words of the command in progress at its end;
* `cut_induction` — induction from frame to frame;
* `answers` — what the words of a stream are answered with.
-/

namespace ConsoleVideo

/-- What one word is answered with: nothing, a job, or an error. -/
abbrev Answer := Except DeviceError (Option Job)

namespace Framing

/-! ### The documented lengths -/

/-- What the opcode of a first word says about the length. -/
inductive Entry where
  /-- No command, or one that is not offered. -/
  | refused
  | fixed (length : Nat)
  /-- Three words and the pixels that the third one announces. -/
  | sized
  deriving DecidableEq

/-- The length table. -/
def entry (opcode : Nat) : Entry :=
  if opcode = 0x00 ∨ opcode = 0x01 ∨ opcode = 0x1F then .fixed 1
  else if opcode = 0x02 then .fixed 3
  else if 0x20 ≤ opcode ∧ opcode ≤ 0x3F then
    let corners := if opcode.testBit 3 then 4 else 3
    .fixed (1 + corners + (if opcode.testBit 2 then corners else 0) +
      if opcode.testBit 4 then corners - 1 else 0)
  else if 0x40 ≤ opcode ∧ opcode ≤ 0x5F then
    if opcode.testBit 3 then .refused else .fixed (if opcode.testBit 4 then 4 else 3)
  else if 0x60 ≤ opcode ∧ opcode ≤ 0x7F then
    .fixed (2 + (if opcode.testBit 2 then 1 else 0) + if opcode / 8 % 4 = 0 then 1 else 0)
  else if 0x80 ≤ opcode ∧ opcode ≤ 0x9F then .fixed 4
  else if 0xA0 ≤ opcode ∧ opcode ≤ 0xBF then .sized
  else if 0xC0 ≤ opcode ∧ opcode ≤ 0xDF then .fixed 3
  else if 0xE1 ≤ opcode ∧ opcode ≤ 0xE6 then .fixed 1
  else .refused

/-- How many words carry the pixels of a block with this size word: a zero field is the maximum,
and two pixels go to a word. -/
def payloadLength (size : Word) : Nat :=
  let width := (((size &&& 0xFFFF) - 1) &&& 0x3FF) + 1
  let height := (((size >>> 16) - 1) &&& 0x1FF) + 1
  (width.toNat * height.toNat + 1) / 2

/-- The error of a first word that is refused. -/
def refusal (w : Word) : DeviceError :=
  if 0x40 ≤ Command.opcode w ∧ Command.opcode w ≤ 0x5F then
    .unsupported (.polyline (Command.opcode w))
  else .unknownCommand w

/-- The length of the command that starts with `w`, if `ws` already has the words that say so. -/
def length? (w : Word) (ws : List Word) : Option Nat :=
  match entry (Command.opcode w) with
  | .refused => none
  | .fixed n => some n
  | .sized => ws[1]?.map fun size => 3 + payloadLength size

/-! ### Frames -/

/-- A piece of the stream between two boundaries. -/
inductive Frame where
  | refused (w : Word)
  | command (words : List Word)
  deriving DecidableEq

namespace Frame

def words : Frame → List Word
  | refused w => [w]
  | command words => words

/-- A job with the pixels that come with it, where it is an upload. -/
def withPixels (pixels : List Word) : Job → Job
  | .upload image => .upload { image with payload := pixels.toArray }
  | job => job

/-- The job of a complete command, made from all of its words. -/
def job? (words : List Word) : Option Job := do
  let command ← Command.ofOpcode? (Command.opcode (words.headD 0))
  let job ← command.build? words
  pure (withPixels (words.drop 3) job)

/-- The answers to the words of a frame: only the last one is answered with something. -/
def answers : Frame → List Answer
  | refused w => [.error (refusal w)]
  | command words => List.replicate (words.length - 1) (.ok none) ++ [.ok (job? words)]

end Frame

/-- The frames of a stream, and the words after the last boundary. -/
def cut : List Word → List Frame × List Word
  | [] => ([], [])
  | w :: ws =>
    if entry (Command.opcode w) = .refused then
      let later := cut ws
      (.refused w :: later.1, later.2)
    else match length? w ws with
      | none => ([], w :: ws)
      | some n =>
        if n ≤ ws.length + 1 then
          let later := cut (ws.drop (n - 1))
          (.command (w :: ws.take (n - 1)) :: later.1, later.2)
        else ([], w :: ws)
termination_by ws => ws.length
decreasing_by all_goals simp only [List.length_cons, List.length_drop]; omega

/-- The answers to a stream. -/
def answers (ws : List Word) : List Answer :=
  (cut ws).1.flatMap Frame.answers ++ List.replicate (cut ws).2.length (.ok none)

/-- A rectangle, a polyline that is refused, and an upload of three pixels in progress. -/
example :
    cut [0x68000000, 0, 0x48000000, 0xA0000000, 0, 0x00010003, 0x22221111] =
      ([.command [0x68000000, 0], .refused 0x48000000],
        [0xA0000000, 0, 0x00010003, 0x22221111]) := by
  decide +kernel

/-! ### The documented table and the decoder's -/

/-- The bits of a word under a mask of the lowest `bits` ones. -/
theorem toNat_and_mask (w mask : Word) (bits : Nat) (h : mask.toNat = Nat.pow 2 bits - 1) :
    (w &&& mask).toNat = w.toNat % Nat.pow 2 bits := by
  rw [UInt32.toNat_and, h]
  exact Nat.and_two_pow_sub_one_eq_mod w.toNat bits

/-- The documented number of pixel words is that of the block which the decoder makes. -/
theorem payloadLength_eq (position size : Word) :
    payloadLength size = (VramRect.ofWords position size).wordCount := by
  have hsize := size.toNat_lt
  have hwidth : ((((size &&& 0xFFFF) - 1) &&& 0x3FF) + 1).toNat =
      (VramRect.ofWords position size).width := by
    rw [UInt32.toNat_add, toNat_and_mask _ 0x3FF 10 rfl, UInt32.toNat_sub,
      toNat_and_mask _ 0xFFFF 16 rfl]
    simp only [VramRect.ofWords, VramRect.wrappedSize, Word.field, Nat.pow_eq, UInt32.reduceToNat]
    omega
  have hheight : ((((size >>> 16) - 1) &&& 0x1FF) + 1).toNat =
      (VramRect.ofWords position size).height := by
    have hhigh : (size >>> 16).toNat = size.toNat / 65536 := by
      rw [UInt32.toNat_shiftRight, Nat.shiftRight_eq_div_pow]
      rfl
    rw [UInt32.toNat_add, toNat_and_mask _ 0x1FF 9 rfl, UInt32.toNat_sub, hhigh]
    simp only [VramRect.ofWords, VramRect.wrappedSize, Word.field, Nat.pow_eq, UInt32.reduceToNat]
    omega
  unfold payloadLength VramRect.wordCount VramRect.pixelCount
  rw [← hwidth, ← hheight]

/-- No block is empty, so no upload is complete with its own words. -/
theorem payloadLength_pos (size : Word) : 0 < payloadLength size := by
  rw [payloadLength_eq 0 size]
  exact VramRect.wordCount_ofWords_pos 0 size

/-- The entry that a command should have. -/
def Entry.ofCommand : Option Command → Entry
  | none | some .polyline => .refused
  | some .upload => .sized
  | some command => .fixed command.wordCount

/-- The length table agrees with the command table, opcode by opcode. -/
theorem entry_opcode (w : Word) :
    entry (Command.opcode w) = Entry.ofCommand (Command.ofOpcode? (Command.opcode w)) := by
  have hall : ∀ opcode : Fin 256, entry opcode = Entry.ofCommand (Command.ofOpcode? opcode) := by
    decide +kernel
  exact hall ⟨Command.opcode w, w.field_lt 24 8⟩

/-- What is refused between 0x40 and 0x5F is a polyline; nothing else there is refused. -/
theorem ofOpcode?_of_refused {w : Word} (h : entry (Command.opcode w) = .refused) :
    Command.ofOpcode? (Command.opcode w) =
      if 0x40 ≤ Command.opcode w ∧ Command.opcode w ≤ 0x5F then some .polyline else none := by
  have hall : ∀ opcode : Fin 256, entry opcode = .refused → Command.ofOpcode? opcode =
      if 0x40 ≤ opcode.val ∧ opcode.val ≤ 0x5F then some .polyline else none := by
    decide +kernel
  exact hall ⟨Command.opcode w, w.field_lt 24 8⟩ h

/-- A first word that is not refused starts a command that is offered. -/
theorem exists_command {w : Word} (h : entry (Command.opcode w) ≠ .refused) :
    ∃ command, Command.ofOpcode? (Command.opcode w) = some command ∧ command ≠ .polyline := by
  rw [entry_opcode] at h
  cases hcommand : Command.ofOpcode? (Command.opcode w) with
  | none => simp [hcommand, Entry.ofCommand] at h
  | some command =>
    refine ⟨command, rfl, ?_⟩
    rintro rfl
    simp [hcommand, Entry.ofCommand] at h

variable {w : Word} {ws : List Word} {command : Command}

/-- The length of an offered command other than an upload is that of its own words. -/
theorem length?_of_ne_upload (hcommand : Command.ofOpcode? (Command.opcode w) = some command)
    (hoffered : command ≠ .polyline) (hupload : command ≠ .upload) :
    length? w ws = some command.wordCount := by
  have hentry : entry (Command.opcode w) = .fixed command.wordCount := by
    rw [entry_opcode, hcommand]
    cases command <;> first | rfl | contradiction
  simp only [length?, hentry]

theorem length?_of_upload (hcommand : Command.ofOpcode? (Command.opcode w) = some .upload) :
    length? w ws = ws[1]?.map fun size => 3 + payloadLength size := by
  have hentry : entry (Command.opcode w) = .sized := by
    rw [entry_opcode, hcommand]
    rfl
  simp only [length?, hentry]

/-! ### From frame to frame -/

/-- A length that is known does not depend on what follows the command. -/
theorem length?_take {n : Nat} (hstart : entry (Command.opcode w) ≠ .refused)
    (h : length? w ws = some n) : 0 < n ∧ length? w (ws.take (n - 1)) = some n := by
  obtain ⟨command, hcommand, hoffered⟩ := exists_command hstart
  by_cases hupload : command = .upload
  · subst hupload
    rw [length?_of_upload hcommand] at h ⊢
    obtain ⟨size, hsize, rfl⟩ := Option.map_eq_some_iff.1 h
    have hpos := payloadLength_pos size
    refine ⟨by omega, ?_⟩
    rw [List.getElem?_take_of_lt (by omega), hsize]
    rfl
  · rw [length?_of_ne_upload hcommand hoffered hupload] at h ⊢
    obtain rfl := Option.some.inj h
    exact ⟨command.wordCount_pos, rfl⟩

theorem cut_refused (h : entry (Command.opcode w) = .refused) :
    cut (w :: ws) = (.refused w :: (cut ws).1, (cut ws).2) := by
  rw [cut, if_pos h]

theorem cut_complete {n : Nat} (hstart : entry (Command.opcode w) ≠ .refused)
    (h : length? w ws = some n) (hn : n ≤ ws.length + 1) :
    cut (w :: ws) =
      (.command (w :: ws.take (n - 1)) :: (cut (ws.drop (n - 1))).1,
        (cut (ws.drop (n - 1))).2) := by
  rw [cut, if_neg hstart, h]
  exact if_pos hn

theorem cut_unfinished (hstart : entry (Command.opcode w) ≠ .refused)
    (h : ∀ n, length? w ws = some n → ws.length + 1 < n) : cut (w :: ws) = ([], w :: ws) := by
  rw [cut, if_neg hstart]
  cases hlength : length? w ws with
  | none => rfl
  | some n => exact if_neg (by have := h n hlength; omega)

theorem answers_of_cut {frames : List Frame} {rest : List Word} (h : cut ws = (frames, rest)) :
    answers ws = frames.flatMap Frame.answers ++ List.replicate rest.length (.ok none) := by
  rw [answers, h]

/-- Induction along the cut: a stream ends, starts with a refused word, starts with a complete
command, or is a command in progress. -/
theorem cut_induction {P : List Word → Prop} (hnil : P [])
    (hrefused : ∀ w ws, entry (Command.opcode w) = .refused → P ws → P (w :: ws))
    (hcomplete : ∀ w us vs, entry (Command.opcode w) ≠ .refused →
      length? w us = some (us.length + 1) →
      cut (w :: (us ++ vs)) = (.command (w :: us) :: (cut vs).1, (cut vs).2) →
      P vs → P (w :: (us ++ vs)))
    (hunfinished : ∀ w ws, entry (Command.opcode w) ≠ .refused →
      (∀ n, length? w ws = some n → ws.length + 1 < n) → P (w :: ws))
    (ws : List Word) : P ws := by
  induction ws using cut.induct with
  | case1 => exact hnil
  | case2 w ws hstart ih => exact hrefused w ws hstart ih
  | case3 w ws hstart hlength =>
    refine hunfinished w ws hstart fun n hn => ?_
    rw [hlength] at hn
    exact absurd hn (Option.some_ne_none n).symm
  | case4 w ws hstart n hlength hn ih =>
    obtain ⟨hpos, htake⟩ := length?_take hstart hlength
    have hcount : (ws.take (n - 1)).length + 1 = n := by
      rw [List.length_take]
      omega
    have hcut := cut_complete hstart hlength hn
    have hwhole := hcomplete w (ws.take (n - 1)) (ws.drop (n - 1)) hstart (by rw [htake, hcount])
    rw [List.take_append_drop] at hwhole
    exact hwhole hcut ih
  | case5 w ws hstart n hlength hn =>
    refine hunfinished w ws hstart fun m hm => ?_
    rw [hlength] at hm
    obtain rfl := Option.some.inj hm
    omega

/-- The frames and what is left over are the stream, cut into pieces. -/
theorem flatMap_words_cut (ws : List Word) :
    (cut ws).1.flatMap Frame.words ++ (cut ws).2 = ws := by
  induction ws using cut_induction with
  | hnil => simp [cut]
  | hrefused w ws hstart ih =>
    rw [cut_refused hstart]
    simpa [Frame.words] using ih
  | hcomplete w us vs hstart hlength hcut ih =>
    rw [hcut]
    simpa [Frame.words] using ih
  | hunfinished w ws hstart hlength =>
    rw [cut_unfinished hstart hlength]
    rfl

end Framing

end ConsoleVideo
