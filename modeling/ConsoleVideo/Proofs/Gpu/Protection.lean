import ConsoleVideo.Proofs.Dma.Traffic
import ConsoleVideo.Proofs.Drawing.Masking

/-!
# Mask protection

Software sets mask flags to keep parts of the picture from being drawn over.  Whether that holds is
not a matter of one command: words come through the command register, in blocks, and from the DMA
controller, commands go on from one operation to the next, and control words drop them halfway.

* `PortOp.words`, `PortOp.commands` — the words that operations bring, and the commands that they
  complete;
* `Gpu.shots`, `Gpu.film` — all pictures on the way, stroke by stroke;
* `Gpu.IsDrawn`, `IsDrawn.act` — parts of the hardware that only drawing commands and the reset
  change, and what an operation does to them; `Gpu.act_drawing` — what it does to the picture;
* `Gpu.Holding` — the decoder holds the command in progress, through a whole run;
* `Gpu.Guarded`, `Gpu.along_film` — as long as no command passes over the flags, all strokes spare
  what is masked;
* `Gpu.film_masked` — what that means for single cells.
-/

namespace ConsoleVideo

/-! ### Control words -/

namespace Control

theorem ofWord?_eq_reset (w : Word) : ofWord? w = some reset ↔ w.field 24 8 = 0x00 := by
  unfold ofWord?
  split <;> simp_all

theorem ofWord?_eq_resetCommands (w : Word) :
    ofWord? w = some resetCommands ↔ w.field 24 8 = 0x01 := by
  unfold ofWord?
  split <;> simp_all

end Control

/-! ### Commands in a run -/

namespace PortOp

/-- The words that an operation brings to the command register. -/
def words : PortOp → List Word
  | .write w => [w]
  | .writeBlock ws => ws
  | .dma controller ram _ => Transfer.sent ram controller.video
  | _ => []

/-- Both resets drop the command in progress. -/
def drops : PortOp → Bool
  | .control w => decide (w.field 24 8 ≤ 1)
  | _ => false

/-- What is left of the command in progress, of which some words were there before. -/
def heldAfter (held : List Word) (op : PortOp) : List Word :=
  if op.drops then [] else Framing.held (held ++ op.words)

/-- The commands that are completed by operations. -/
def commands : List Word → List PortOp → List (List Word)
  | _, [] => []
  | held, op :: ops => Framing.accepted (held ++ op.words) ++ commands (op.heldAfter held) ops

/-- A rectangle across a tick, and a line that a control word drops. -/
example :
    commands [] [.writeBlock [0x60FFFFFF, 0], .tick 100 .quiet, .write 0x00020003,
      .writeBlock [0x40FFFFFF, 0], .control 0x01000000, .write 0x00020003] =
      [[0x60FFFFFF, 0, 0x00020003], [0x00020003]] := by
  decide +kernel

end PortOp

/-! ### Pictures in a run -/

namespace Gpu

/-- The pictures before and after every stroke of some jobs. -/
def shots (gpu : Gpu) : List Job → List Vram
  | [] => []
  | job :: jobs =>
    (gpu.strokes job).scanl (fun vram stroke => stroke vram) gpu.vram ++ (gpu.run job).shots jobs

/-- The pictures in the course of some operations, from the first to the last. -/
def film (gpu : Gpu) : List PortOp → List Vram
  | [] => [gpu.vram]
  | op :: ops =>
    gpu.vram :: gpu.shots (gpu.decoder.takeAll op.words).2.1 ++ (gpu.act op).film ops

/-- The film of a run goes on with the film of what follows. -/
theorem film_append (gpu : Gpu) (earlier later : List PortOp) :
    ∃ pictures, gpu.film (earlier ++ later) = pictures ++ (earlier.foldl act gpu).film later := by
  induction earlier generalizing gpu with
  | nil => exact ⟨[], rfl⟩
  | cons op earlier ih =>
    obtain ⟨pictures, hrest⟩ := ih (gpu.act op)
    rw [List.cons_append, film, hrest, ← List.append_assoc, List.foldl_cons]
    exact ⟨_, rfl⟩

theorem getLast?_film (gpu : Gpu) (ops : List PortOp) :
    (gpu.film ops).getLast? = some (ops.foldl act gpu).vram := by
  obtain ⟨pictures, hfilm⟩ := gpu.film_append ops []
  rw [List.append_nil] at hfilm
  rw [hfilm, film, List.getLast?_concat]

/-- The pictures between operations are on the film. -/
theorem vram_mem_film (gpu : Gpu) (earlier later : List PortOp) :
    (earlier.foldl act gpu).vram ∈ gpu.film (earlier ++ later) := by
  obtain ⟨pictures, hfilm⟩ := gpu.film_append earlier later
  rw [hfilm]
  refine List.mem_append_right pictures ?_
  cases later <;> exact List.mem_cons_self

/-! ### Operations -/

/-- A part of the hardware that only drawing commands and the reset change. -/
structure IsDrawn {α : Type} (part : Gpu → α) : Prop where
  withFrontEnd : ∀ (gpu : Gpu) (front : FrontEnd), part (gpu.withFrontEnd front) = part gpu
  read : ∀ gpu : Gpu, part gpu.read.1 = part gpu
  tick : ∀ (gpu : Gpu) (cycles : Nat) (irq : Interrupts), part (gpu.tick cycles irq).1 = part gpu
  control : ∀ (gpu : Gpu) {command : Control}, command ≠ .reset →
    part (gpu.control command) = part gpu

/-- The picture and the rules for mask flags are such parts. -/
theorem isDrawn_vram :
    IsDrawn fun gpu => (gpu.vram, gpu.status.setMask, gpu.status.checkMask) where
  withFrontEnd := fun _ _ => rfl
  read := fun _ => rfl
  tick := fun _ _ _ => rfl
  control := fun _ command hreset => by
    cases command with
    | reset => exact absurd rfl hreset
    | _ => rfl

theorem decoder_writeControl (gpu : Gpu) (w : Word) :
    (gpu.writeControl w).1.decoder = if (PortOp.control w).drops then .idle else gpu.decoder := by
  have hdrops : (PortOp.control w).drops = true ↔
      Control.ofWord? w = some .reset ∨ Control.ofWord? w = some .resetCommands := by
    rw [Control.ofWord?_eq_reset, Control.ofWord?_eq_resetCommands, PortOp.drops,
      decide_eq_true_iff]
    omega
  rw [writeControl]
  simp only [hdrops]
  cases Control.ofWord? w with
  | none => rfl
  | some command => cases command <;> rfl

variable {gpu : Gpu}

section Act

variable (h : gpu.Handshake)

include h

/-- **An operation does to such a part what the commands do that its words complete.** -/
theorem IsDrawn.act {α : Type} {part : Gpu → α} (hpart : IsDrawn part) {op : PortOp}
    (hreset : ∀ w, op = .control w → w.field 24 8 ≠ 0x00) :
    part (gpu.act op) = part (gpu.runAll (gpu.decoder.takeAll op.words).2.1) := by
  have hblock : ∀ ws, part (gpu.writeBlock ws).1 =
      part (gpu.runAll (gpu.decoder.takeAll ws).2.1) := by
    intro ws
    rw [writeBlock_of_isSettled h.queue, hpart.withFrontEnd]
  cases op with
  | write w => exact hblock [w]
  | writeBlock ws => exact hblock ws
  | control w =>
    show part (gpu.writeControl w).1 = part gpu
    rw [writeControl]
    cases hcommand : Control.ofWord? w with
    | none => rfl
    | some command =>
      have hother : command ≠ .reset := by
        rintro rfl
        exact hreset w rfl ((Control.ofWord?_eq_reset w).1 hcommand)
      have hfront : (gpu.control command).refreshDmaRequest =
          (gpu.control command).withFrontEnd { (gpu.control command).frontEnd with
            dmaRequest := (gpu.control command).status.wantedDmaRequest } := rfl
      show part (gpu.control command).refreshDmaRequest = part gpu
      rw [hfront, hpart.withFrontEnd, hpart.control gpu hother]
  | read => exact hpart.read gpu
  | tick cycles irq => exact hpart.tick gpu cycles irq
  | drain =>
    rw [Gpu.act, drain_of_isSettled h.queue]
    rfl
  | dma dma ram irq =>
    rcases @Machine.gpu_tickDma ⟨gpu, dma, ram, irq⟩ h with hsent | ⟨hnone, n, hread⟩
    · rw [Gpu.act, hsent]
      exact hblock _
    · have hwords : (PortOp.dma dma ram irq).words = [] := hnone
      rw [Gpu.act, hread, hwords]
      exact gpu.readMany_kept part hpart.read n

/-- An operation takes its words into the decoder, unless it drops the command in progress. -/
theorem decoder_act (op : PortOp) :
    (gpu.act op).decoder = if op.drops then .idle else (gpu.decoder.takeAll op.words).1 := by
  have hblock : ∀ ws, (gpu.writeBlock ws).1.decoder = (gpu.decoder.takeAll ws).1 := by
    intro ws
    rw [writeBlock_of_isSettled h.queue]
    rfl
  cases op with
  | write w => exact hblock [w]
  | writeBlock ws => exact hblock ws
  | control w => exact gpu.decoder_writeControl w
  | read => rfl
  | tick cycles irq => rfl
  | drain =>
    rw [act, drain_of_isSettled h.queue]
    rfl
  | dma dma ram irq =>
    rcases @Machine.gpu_tickDma ⟨gpu, dma, ram, irq⟩ h with hsent | ⟨hnone, n, hread⟩
    · rw [act, hsent]
      exact hblock _
    · have hwords : (PortOp.dma dma ram irq).words = [] := hnone
      rw [act, hread, hwords]
      exact gpu.readMany_kept Gpu.decoder (fun _ => rfl) n

/-- **An operation carries out the commands that its words complete, and does nothing else to the
picture.** -/
theorem act_drawing {op : PortOp} (hreset : ∀ w, op = .control w → w.field 24 8 ≠ 0x00) :
    (gpu.runAll (gpu.decoder.takeAll op.words).2.1).SameDrawing (gpu.act op) := by
  have hdrawn := isDrawn_vram.act h hreset
  simp only [Prod.mk.injEq] at hdrawn
  exact ⟨hdrawn.1, hdrawn.2.1, hdrawn.2.2⟩

end Act

/-! ### Runs -/

/-- The hardware keeps its handshake, and the decoder holds the command in progress. -/
structure Holding (gpu : Gpu) (held : List Word) : Prop where
  handshake : gpu.Handshake
  decoder : gpu.decoder = (Decoder.idle.pushAll held).1
  inProgress : Framing.cut held = ([], held)

/-- **The decoder goes on holding the command in progress**, and no other words. -/
theorem Holding.act {held : List Word} (h : gpu.Holding held) (op : PortOp) :
    (gpu.act op).Holding (op.heldAfter held) := by
  have hdecoder := (Framing.takeAll_held h.inProgress op.words).1
  rw [← h.decoder] at hdecoder
  have hafter := decoder_act h.handshake op
  refine ⟨Handshake.portStable.act h.handshake op, ?_, ?_⟩
  · rw [hafter, PortOp.heldAfter]
    cases op.drops with
    | false => exact hdecoder
    | true => rfl
  · rw [PortOp.heldAfter]
    cases op.drops with
    | false => exact (Framing.takeAll_idle (held ++ op.words)).2.2.2
    | true => rw [if_pos rfl, Framing.cut]

/-- The command in progress is held, and mask flags are looked at. -/
structure Guarded (gpu : Gpu) (held : List Word) : Prop extends gpu.Holding held where
  checkMask : gpu.status.checkMask = true

/-- The pictures of harmless jobs spare what is masked. -/
theorem along_shots (hcheck : gpu.status.checkMask = true) {jobs : List Job}
    (hjobs : ∀ job ∈ jobs, job.isUnguarded = false) :
    Vram.Along gpu.status.setMask gpu.vram (gpu.shots jobs) (gpu.runAll jobs).vram ∧
      (gpu.runAll jobs).status.setMask = gpu.status.setMask ∧
      (gpu.runAll jobs).status.checkMask = true := by
  induction jobs generalizing gpu with
  | nil => exact ⟨.nil _ _, rfl, hcheck⟩
  | cons job jobs ih =>
    have hjob := hjobs job List.mem_cons_self
    obtain ⟨hset, hkept⟩ := @maskBits_run gpu job hjob
    have hfirst := Vram.Along.scanl (sparedBy_strokes hcheck hjob) gpu.vram
    rw [← vram_run] at hfirst
    obtain ⟨hrest, hset', hcheck'⟩ := ih (hkept.trans hcheck)
      fun later hlater => hjobs later (List.mem_cons_of_mem job hlater)
    rw [hset] at hrest hset'
    rw [shots]
    exact ⟨hfirst.append hrest, hset', hcheck'⟩

/-- **An operation without harmful commands spares what is masked.** -/
theorem Guarded.act {held : List Word} (h : gpu.Guarded held) {op : PortOp}
    (hcommands : ∀ words ∈ Framing.accepted (held ++ op.words), Framing.Frame.IsHarmless words)
    (hreset : ∀ w, op = .control w → w.field 24 8 ≠ 0x00) :
    Vram.Along gpu.status.setMask gpu.vram (gpu.shots (gpu.decoder.takeAll op.words).2.1)
        (gpu.act op).vram ∧
      (gpu.act op).status.setMask = gpu.status.setMask ∧
      (gpu.act op).Guarded (op.heldAfter held) := by
  have htaken := (Framing.takeAll_held h.inProgress op.words).2
  rw [← h.decoder] at htaken
  have hjobs : ∀ job ∈ (gpu.decoder.takeAll op.words).2.1, job.isUnguarded = false := by
    intro job hjob
    rw [htaken] at hjob
    obtain ⟨words, hwords, hbuilt⟩ := List.mem_filterMap.1 hjob
    exact (hcommands words hwords).isUnguarded hbuilt
  obtain ⟨halong, hset, hcheck⟩ := along_shots h.checkMask hjobs
  have hdrawing := act_drawing h.handshake hreset
  refine ⟨?_, hdrawing.setMask.trans hset, h.toHolding.act op, hdrawing.checkMask.trans hcheck⟩
  rw [hdrawing.vram]
  exact halong

theorem along_film {held : List Word} (h : gpu.Guarded held) {ops : List PortOp}
    (hcommands : ∀ words ∈ PortOp.commands held ops, Framing.Frame.IsHarmless words)
    (hreset : ∀ w, PortOp.control w ∈ ops → w.field 24 8 ≠ 0x00) :
    Vram.Along gpu.status.setMask gpu.vram (gpu.film ops) (ops.foldl Gpu.act gpu).vram := by
  induction ops generalizing gpu held with
  | nil => exact .cons (.refl _ _) (.nil _ _)
  | cons op ops ih =>
    rw [PortOp.commands] at hcommands
    obtain ⟨hfirst, hset, hguarded⟩ := h.act
      (fun words hwords => hcommands words (List.mem_append_left _ hwords))
      (fun w hw => hreset w (hw ▸ List.mem_cons_self))
    have hrest := ih hguarded
      (fun words hwords => hcommands words (List.mem_append_right _ hwords))
      (fun w hw => hreset w (List.mem_cons_of_mem op hw))
    rw [hset] at hrest
    rw [film, List.foldl_cons, List.cons_append]
    exact .cons (.refl _ _) (hfirst.append hrest)

/-- **What is masked is not drawn over.**  Over a whole run of words, blocks, DMA transfers and
ticks, cut into commands wherever one ends, a cell that is masked at the start is the same in every
picture, stroke by stroke.  Where flags are set as well, any cell is as it was up to some picture, and
masked and the same from then on. -/
theorem film_masked (hgpu : gpu.Reachable) (hidle : gpu.decoder = .idle)
    (hcheck : gpu.status.word.bit 12 = true) {ops : List PortOp}
    (hcommands : ∀ words ∈ PortOp.commands [] ops,
      Command.opcode (words.headD 0) ≠ 0x02 ∧ Command.opcode (words.headD 0) ≠ 0xE6)
    (hreset : ∀ w, PortOp.control w ∈ ops → w.field 24 8 ≠ 0x00) :
    (∀ earlier later, ops = earlier ++ later → (earlier.foldl act gpu).vram ∈ gpu.film ops) ∧
      (gpu.film ops).getLast? = some (ops.foldl act gpu).vram ∧
      (∀ i, gpu.vram.Masked i → ∀ vram ∈ gpu.film ops, vram.both i = gpu.vram.both i) ∧
      (gpu.status.word.bit 11 = true → ∀ i, ∃ before after new, gpu.film ops = before ++ after ∧
        (∀ vram ∈ before, vram.both i = gpu.vram.both i) ∧
        ∀ vram ∈ after, vram.Masked i ∧ vram.both i = new) := by
  have hbit11 : gpu.status.word.bit 11 = gpu.status.setMask := Status.bit_word gpu.status 11
  have hbit12 : gpu.status.word.bit 12 = gpu.status.checkMask := Status.bit_word gpu.status 12
  have hguarded : gpu.Guarded [] := {
    handshake := hgpu.handshake
    checkMask := hbit12.symm.trans hcheck
    decoder := hidle
    inProgress := by rw [Framing.cut] }
  have halong := along_film hguarded hcommands hreset
  refine ⟨?_, gpu.getLast?_film ops, fun i hmasked vram hvram => ?_, fun hset i => ?_⟩
  · rintro earlier later rfl
    exact gpu.vram_mem_film earlier later
  · exact (halong.before vram hvram).both_eq hmasked
  · rw [← hbit11, hset] at halong
    exact halong.splits i

/-- A rectangle over a masked pixel, whose last word comes after a tick, a dot whose last word comes
from memory, and a line that a control word drops halfway. -/
theorem film_masked_rectangle :
    let gpu := powerOn.act (.writeBlock [0xA0000000, 0, 0x00010002, 0x8000FFFF, 0xE6000003])
    let channel : DmaChannel := ⟨0, 1, 0x11000001⟩
    let ops : List PortOp := [.writeBlock [0x60FFFFFF, 0], .tick 100 .quiet, .write 0x00020003,
      .write 0x680000FF, .dma { Dma.powerOn with video := channel } .blank .quiet,
      .write 0x40FFFFFF, .control 0x01000000]
    gpu.Reachable ∧ gpu.decoder = .idle ∧ gpu.status.word.bit 12 = true ∧
      gpu.status.word.bit 11 = true ∧
      (∀ words ∈ PortOp.commands [] ops,
        Command.opcode (words.headD 0) ≠ 0x02 ∧ Command.opcode (words.headD 0) ≠ 0xE6) ∧
      (∀ w, PortOp.control w ∈ ops → w.field 24 8 ≠ 0x00) ∧
      (∀ earlier later, ops = earlier ++ later → (earlier.foldl act gpu).vram ∈ gpu.film ops) ∧
      (gpu.film ops).getLast? = some (ops.foldl act gpu).vram ∧
      (∀ i, gpu.vram.Masked i → ∀ vram ∈ gpu.film ops, vram.both i = gpu.vram.both i) ∧
      (gpu.status.word.bit 11 = true → ∀ i, ∃ before after new, gpu.film ops = before ++ after ∧
        (∀ vram ∈ before, vram.both i = gpu.vram.both i) ∧
        ∀ vram ∈ after, vram.Masked i ∧ vram.both i = new) := by
  intro gpu channel ops
  have hgpu : gpu.Reachable := .act (.writeBlock _) .powerOn
  have hidle : gpu.decoder = .idle := by decide +kernel
  have hcheck : gpu.status.word.bit 12 = true := by decide +kernel
  have hset : gpu.status.word.bit 11 = true := by decide +kernel
  have hcommands : ∀ words ∈ PortOp.commands [] ops,
      Command.opcode (words.headD 0) ≠ 0x02 ∧ Command.opcode (words.headD 0) ≠ 0xE6 := by
    decide +kernel
  have hreset : ∀ w, PortOp.control w ∈ ops → w.field 24 8 ≠ 0x00 := by
    intro w hw
    have hword : w = 0x01000000 := by simpa [ops] using hw
    rw [hword]
    decide
  exact ⟨hgpu, hidle, hcheck, hset, hcommands, hreset,
    film_masked hgpu hidle hcheck hcommands hreset⟩

end Gpu

end ConsoleVideo
