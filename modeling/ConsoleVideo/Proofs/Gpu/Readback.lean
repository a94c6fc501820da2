import ConsoleVideo.Proofs.Gpu.Protection

/-!
# What is read back

Blocks of the picture are fetched whole and read word by word, while commands go on and information
is asked for through the same register.  Seen from outside this is a queue with a last word shown,
and what it hands out are the pixels as they were when their command was carried out.

* `packed` — pixels two to a word, with `VramRect.read_eq_packed`;
* `ReadbackEvent`, `ReadbackPort.Run` — what happens at the readback register of any hardware, and
  `Run.conserves`: nothing is lost, doubled or moved;
* `Gpu.fetches`, `Gpu.readbackLog` — the blocks that commands fetch, read off the picture before
  each of them, and the events of a run;
* `Gpu.run_readbackLog` — the hardware is such a port;
* `Gpu.readback_in_order` — what this means for a run from the start.
-/

namespace ConsoleVideo

/-! ### Pixels in words -/

/-- Pixels two to a word, the first one in the low half; an odd one is alone in the last word. -/
def packed : List Native → List Word
  | [] => []
  | [pixel] => [UInt32.ofNat pixel.toNat]
  | low :: high :: pixels => UInt32.ofNat (low.toNat + 65536 * high.toNat) :: packed pixels

theorem packed_eq_map (pixels : List Native) :
    packed pixels = (List.range ((pixels.length + 1) / 2)).map fun k =>
      UInt32.ofNat ((pixels.getD (2 * k) 0).toNat + 65536 * (pixels.getD (2 * k + 1) 0).toNat) := by
  induction pixels using packed.induct with
  | case1 => rfl
  | case2 pixel => simp [packed]
  | case3 low high pixels ih =>
    have hcount : ((low :: high :: pixels).length + 1) / 2 = (pixels.length + 1) / 2 + 1 := by
      simp only [List.length_cons]
      omega
    rw [packed, ih, hcount, List.range_succ_eq_map, List.map_cons, List.map_map]
    rfl

/-- Counting row by row, cell `i` is in column `i % width` and row `i / width`. -/
theorem Grid.offsets_eq_map (width height : Nat) :
    offsets width height =
      (List.range (width * height)).map fun i => (i % width, i / width) := by
  induction height with
  | zero => rfl
  | succ height ih =>
    have hlast : (List.range width).map (fun dx => (dx, height)) =
        (List.range width).map fun dx =>
          ((width * height + dx) % width, (width * height + dx) / width) := by
      refine List.map_congr_left fun dx hdx => ?_
      have hlt : dx < width := List.mem_range.1 hdx
      rw [Nat.mul_add_mod, Nat.mod_eq_of_lt hlt, Nat.mul_add_div (Nat.zero_lt_of_lt hlt),
        Nat.div_eq_of_lt hlt, Nat.add_zero]
    rw [offsets, List.range_succ, List.flatMap_append, List.flatMap_singleton, hlast]
    rw [offsets] at ih
    rw [ih, Nat.mul_succ, List.range_add, List.map_append, List.map_map]
    rfl

namespace VramRect

/-- The pixels of a block, row by row. -/
def pixels (rect : VramRect) (vram : Vram) : List Native :=
  (Grid.offsets rect.width rect.height).map fun (dx, dy) =>
    vram.nativeAt (rect.x + dx : Nat) (rect.y + dy : Nat)

theorem pixels_eq_map (rect : VramRect) (vram : Vram) :
    rect.pixels vram = (List.range rect.pixelCount).map (rect.pixel vram) := by
  rw [pixels, Grid.offsets_eq_map, List.map_map]
  rfl

/-- **A block is read as its pixels, two to a word.** -/
theorem read_eq_packed (rect : VramRect) (vram : Vram) :
    rect.read vram = packed (rect.pixels vram) := by
  rw [packed_eq_map, pixels_eq_map, List.length_map, List.length_range]
  refine List.map_congr_left fun k hk => ?_
  have hcount : k < (rect.pixelCount + 1) / 2 := List.mem_range.1 hk
  have hlow : ((List.range rect.pixelCount).map (rect.pixel vram)).getD (2 * k) 0 =
      rect.pixel vram (2 * k) := by
    have hlt : 2 * k < rect.pixelCount := by omega
    simp [List.getD, hlt]
  rw [readWord, hlow]
  by_cases hlt : 2 * k + 1 < rect.pixelCount
  · simp [List.getD, hlt]
  · simp [List.getD, hlt]

end VramRect

/-! ### A port -/

/-- What happens at the readback register. -/
inductive ReadbackEvent where
  /-- A command fetches a block. -/
  | fetched (words : List Word)
  /-- A word is read while words wait. -/
  | taken (w : Word)
  /-- A control command has a piece of information shown. -/
  | informed (w : Word)
  /-- A word is read while none waits. -/
  | repeated (w : Word)

namespace ReadbackEvent

/-- The words that are fetched, one block after the other. -/
def fetchedWords (log : List ReadbackEvent) : List Word :=
  log.flatMap fun
    | fetched words => words
    | _ => []

/-- The words that are read while words wait. -/
def takenWords (log : List ReadbackEvent) : List Word :=
  log.flatMap fun
    | taken w => [w]
    | _ => []

/-- The word that was taken or given as information last, if there is one. -/
def lastShown (shown : Word) (log : List ReadbackEvent) : Word :=
  log.foldl (fun shown event =>
    match event with
    | taken w | informed w => w
    | _ => shown) shown

end ReadbackEvent

/-- The readback register: the words that wait, oldest first, and the word that it shows. -/
structure ReadbackPort where
  waiting : List Word
  shown : Word

namespace ReadbackPort

open ReadbackEvent

/-- The events that a port can go through, and where they lead. -/
inductive Run : ReadbackPort → List ReadbackEvent → ReadbackPort → Prop
  | nil (port : ReadbackPort) : Run port [] port
  | fetched {waiting words : List Word} {shown : Word} {log : List ReadbackEvent}
      {last : ReadbackPort} :
      Run ⟨waiting ++ words, shown⟩ log last → Run ⟨waiting, shown⟩ (.fetched words :: log) last
  | taken {rest : List Word} {w shown : Word} {log : List ReadbackEvent} {last : ReadbackPort} :
      Run ⟨rest, w⟩ log last → Run ⟨w :: rest, shown⟩ (.taken w :: log) last
  | informed {waiting : List Word} {w shown : Word} {log : List ReadbackEvent}
      {last : ReadbackPort} :
      Run ⟨waiting, w⟩ log last → Run ⟨waiting, shown⟩ (.informed w :: log) last
  | repeated {shown : Word} {log : List ReadbackEvent} {last : ReadbackPort} :
      Run ⟨[], shown⟩ log last → Run ⟨[], shown⟩ (.repeated shown :: log) last

variable {port middle last : ReadbackPort} {log later : List ReadbackEvent}

theorem Run.append (h : Run port log middle) (hlater : Run middle later last) :
    Run port (log ++ later) last := by
  induction h with
  | nil port => exact hlater
  | fetched _ ih => exact .fetched (ih hlater)
  | taken _ ih => exact .taken (ih hlater)
  | informed _ ih => exact .informed (ih hlater)
  | repeated _ ih => exact .repeated (ih hlater)

theorem Run.split (h : Run port (log ++ later) last) :
    ∃ middle, Run port log middle ∧ Run middle later last := by
  induction log generalizing port with
  | nil => exact ⟨port, .nil port, h⟩
  | cons event log ih =>
    cases h with
    | fetched h =>
      obtain ⟨middle, hfirst, hrest⟩ := ih h
      exact ⟨middle, .fetched hfirst, hrest⟩
    | taken h =>
      obtain ⟨middle, hfirst, hrest⟩ := ih h
      exact ⟨middle, .taken hfirst, hrest⟩
    | informed h =>
      obtain ⟨middle, hfirst, hrest⟩ := ih h
      exact ⟨middle, .informed hfirst, hrest⟩
    | repeated h =>
      obtain ⟨middle, hfirst, hrest⟩ := ih h
      exact ⟨middle, .repeated hfirst, hrest⟩

/-- **Nothing is lost, doubled or moved**: what waited and what was fetched is what was taken and
what still waits, in this order. -/
theorem Run.conserves (h : Run port log last) :
    port.waiting ++ fetchedWords log = takenWords log ++ last.waiting := by
  induction h with
  | nil port => exact List.append_nil port.waiting
  | @fetched waiting words shown log last _ ih =>
    show waiting ++ (words ++ fetchedWords log) = takenWords log ++ last.waiting
    rw [← List.append_assoc]
    exact ih
  | @taken rest w shown log last _ ih =>
    show w :: (rest ++ fetchedWords log) = w :: (takenWords log ++ last.waiting)
    exact congrArg (w :: ·) ih
  | informed _ ih => exact ih
  | repeated _ ih => exact ih

theorem Run.shown_eq (h : Run port log last) : last.shown = lastShown port.shown log := by
  induction h with
  | nil port => rfl
  | fetched _ ih => exact ih
  | taken _ ih => exact ih
  | informed _ ih => exact ih
  | repeated _ ih => exact ih

/-- **A word is repeated where everything that was fetched has been taken**, and it is the last one
shown. -/
theorem Run.of_repeated {before after : List ReadbackEvent} {w : Word}
    (h : Run port (before ++ .repeated w :: after) last) :
    port.waiting ++ fetchedWords before = takenWords before ∧ w = lastShown port.shown before := by
  obtain ⟨middle, hbefore, hrest⟩ := h.split
  have hconserves := hbefore.conserves
  have hshown := hbefore.shown_eq
  cases hrest with
  | repeated hafter =>
    rw [List.append_nil] at hconserves
    exact ⟨hconserves, hshown⟩

/-- Blocks that are fetched wait behind what waits already. -/
theorem run_fetched (waiting : List Word) (shown : Word) (blocks : List (List Word)) :
    Run ⟨waiting, shown⟩ (blocks.map .fetched) ⟨waiting ++ blocks.flatten, shown⟩ := by
  induction blocks generalizing waiting with
  | nil =>
    rw [List.flatten_nil, List.append_nil]
    exact .nil _
  | cons block blocks ih =>
    have hrest := ih (waiting ++ block)
    rw [List.append_assoc] at hrest
    exact .fetched hrest

end ReadbackPort

/-! ### Commands that fetch -/

namespace Framing

variable {words : List Word} {job : Job}

theorem isSome_job?_of_mem_accepted {ws : List Word} (h : words ∈ accepted ws) :
    (Frame.job? words).isSome := by
  obtain ⟨-, -, -, -, hjobs⟩ := pushAll_idle_eq ws
  obtain ⟨frame, hframe, rfl⟩ := List.mem_map.1 h
  have hcut := (List.takeWhile_sublist Frame.isCommand).subset hframe
  cases frame with
  | refused w => exact absurd (List.all_eq_true.1 List.all_takeWhile _ hframe) Bool.false_ne_true
  | command words => exact hjobs words hcut

/-- A job that reads from the picture memory reads the block of its second and third word. -/
theorem Frame.rect_of_job? {rect : VramRect} (h : job? words = some (.download rect)) :
    rect = VramRect.ofWords (words.getD 1 0) (words.getD 2 0) := by
  simp only [job?, Option.bind_eq_bind, Option.bind_eq_some_iff, Option.pure_def,
    Option.some.injEq] at h
  obtain ⟨command, -, built, hbuilt, hjob⟩ := h
  obtain rfl : built = .download rect := by
    cases built <;> first | exact hjob | cases hjob
  obtain rfl := Command.eq_download_of_build? hbuilt
  simp only [Command.build?, Option.bind_eq_bind, Option.bind_eq_some_iff, Option.pure_def,
    Option.some.injEq, Job.download.injEq] at hbuilt
  obtain ⟨position, hposition, size, hsize, rfl⟩ := hbuilt
  rw [List.getD, hposition, List.getD, hsize]
  rfl

end Framing

namespace Gpu

/-- The block that a command fetches from a picture, if it is one that does. -/
def fetched (vram : Vram) (words : List Word) : List (List Word) :=
  if 0xC0 ≤ Command.opcode (words.headD 0) ∧ Command.opcode (words.headD 0) ≤ 0xDF then
    [packed ((VramRect.ofWords (words.getD 1 0) (words.getD 2 0)).pixels vram)]
  else []

/-- The blocks that commands fetch, each from the picture that the commands before it leave. -/
def fetches (gpu : Gpu) : List (List Word) → List (List Word)
  | [] => []
  | words :: commands =>
    fetched gpu.vram words ++ (gpu.runAll (Framing.Frame.job? words).toList).fetches commands

/-- What an operation does at the readback register, where some words of a command in progress were
held. -/
def readbackEvents (gpu : Gpu) (held : List Word) : PortOp → List ReadbackEvent
  | .read => [if gpu.readback.isEmpty then .repeated gpu.read.2 else .taken gpu.read.2]
  | .control w =>
    match Control.ofWord? w with
    | some (.inform index) => ((gpu.information? index).map .informed).toList
    | _ => []
  | op => (gpu.fetches (Framing.accepted (held ++ op.words))).map .fetched

/-- What operations do at the readback register, one after the other. -/
def readbackLog (gpu : Gpu) (held : List Word) : List PortOp → List ReadbackEvent
  | [] => []
  | op :: ops => gpu.readbackEvents held op ++ (gpu.act op).readbackLog (op.heldAfter held) ops

/-- The readback register. -/
def port (gpu : Gpu) : ReadbackPort where
  waiting := gpu.readback
  shown := gpu.latch

variable {gpu : Gpu}

/-- Only a download has to do with the readback register. -/
theorem readback_run (gpu : Gpu) (job : Job) :
    (gpu.run job).readback = gpu.readback ++
        (match job with
        | .download rect => rect.read gpu.vram
        | _ => []) ∧
      (gpu.run job).latch = gpu.latch := by
  cases job with
  | download rect => exact ⟨rfl, rfl⟩
  | _ => exact ⟨(List.append_nil gpu.readback).symm, rfl⟩

/-- **A command fetches what its words say**, and puts it behind what waits. -/
theorem readback_run_job? {words : List Word} {job : Job}
    (h : Framing.Frame.job? words = some job) :
    (gpu.run job).readback = gpu.readback ++ (fetched gpu.vram words).flatten := by
  have hdownload := Framing.Frame.isDownload_of_job? h
  rw [(gpu.readback_run job).1, fetched]
  congr 1
  cases job with
  | download rect =>
    rw [if_pos (hdownload.1 rfl), Framing.Frame.rect_of_job? h, ← VramRect.read_eq_packed,
      List.flatten_singleton]
  | _ =>
    rw [if_neg fun hopcode => Bool.false_ne_true (hdownload.2 hopcode)]
    rfl

theorem readback_runAll (gpu : Gpu) {commands : List (List Word)}
    (h : ∀ words ∈ commands, (Framing.Frame.job? words).isSome) :
    (gpu.runAll (commands.filterMap Framing.Frame.job?)).readback =
        gpu.readback ++ (gpu.fetches commands).flatten ∧
      (gpu.runAll (commands.filterMap Framing.Frame.job?)).latch = gpu.latch := by
  induction commands generalizing gpu with
  | nil => exact ⟨(List.append_nil gpu.readback).symm, rfl⟩
  | cons words commands ih =>
    obtain ⟨job, hjob⟩ := Option.isSome_iff_exists.1 (h words List.mem_cons_self)
    have hrest := ih (gpu.run job) fun later hlater => h later (List.mem_cons_of_mem words hlater)
    rw [readback_run_job? hjob, (gpu.readback_run job).2] at hrest
    rw [List.filterMap_cons_some hjob, fetches, hjob, List.flatten_append, ← List.append_assoc]
    exact hrest

/-! ### Runs -/

theorem holding_powerOn : powerOn.Holding [] where
  handshake := handshake_powerOn
  decoder := rfl
  inProgress := by rw [Framing.cut]

/-- Reading takes the oldest word, or shows the last one again. -/
theorem run_read (gpu : Gpu) (held : List Word) :
    gpu.port.Run (gpu.readbackEvents held .read) gpu.read.1.port := by
  rw [readbackEvents, port, port, read]
  cases gpu.readback with
  | nil => exact .repeated (.nil _)
  | cons w ws => exact .taken (.nil _)

/-- Of the control commands only the reset and the request for information have to do with the
readback register. -/
theorem run_writeControl (gpu : Gpu) (held : List Word) {w : Word} (hw : w.field 24 8 ≠ 0x00) :
    gpu.port.Run (gpu.readbackEvents held (.control w)) (gpu.writeControl w).1.port := by
  have hreset : Control.ofWord? w ≠ some .reset := fun h => hw ((Control.ofWord?_eq_reset w).1 h)
  rw [readbackEvents, writeControl]
  cases hcommand : Control.ofWord? w with
  | none => exact .nil _
  | some command =>
    cases command with
    | reset => exact absurd hcommand hreset
    | inform index =>
      show gpu.port.Run ((gpu.information? index).map .informed).toList
        ⟨gpu.readback, (gpu.information? index).getD gpu.latch⟩
      cases gpu.information? index with
      | none => exact .nil _
      | some information => exact .informed (.nil _)
    | _ => exact .nil _

/-- Words are taken as commands, and these fetch. -/
theorem run_writeBlock {held : List Word} (h : gpu.Holding held) (ws : List Word) :
    gpu.port.Run ((gpu.fetches (Framing.accepted (held ++ ws))).map .fetched)
      (gpu.writeBlock ws).1.port := by
  have htaken := (Framing.takeAll_held h.inProgress ws).2
  rw [← h.decoder] at htaken
  have hjobs : ∀ words ∈ Framing.accepted (held ++ ws), (Framing.Frame.job? words).isSome :=
    fun words hwords => Framing.isSome_job?_of_mem_accepted hwords
  obtain ⟨hreadback, hlatch⟩ := gpu.readback_runAll hjobs
  have hport : (gpu.writeBlock ws).1.port =
      ⟨gpu.readback ++ (gpu.fetches (Framing.accepted (held ++ ws))).flatten, gpu.latch⟩ := by
    rw [writeBlock_of_isSettled h.handshake.queue, htaken, ← hreadback, ← hlatch]
    rfl
  rw [hport]
  exact ReadbackPort.run_fetched _ _ _

/-- **An operation leads the port through its events.** -/
theorem run_readbackEvents {held : List Word} (h : gpu.Holding held) {op : PortOp}
    (hreset : ∀ w, op = .control w → w.field 24 8 ≠ 0x00)
    (hdma : ∀ dma ram irq, op ≠ .dma dma ram irq) :
    gpu.port.Run (gpu.readbackEvents held op) (gpu.act op).port := by
  have hnone := run_writeBlock h []
  rw [h.handshake.writeBlock_nil] at hnone
  cases op with
  | write w => exact run_writeBlock h [w]
  | writeBlock ws => exact run_writeBlock h ws
  | control w => exact gpu.run_writeControl held (hreset w rfl)
  | read => exact gpu.run_read held
  | tick cycles irq => exact hnone
  | drain =>
    rw [act, drain_of_isSettled h.handshake.queue]
    exact hnone
  | dma dma ram irq => exact absurd rfl (hdma dma ram irq)

/-- **The hardware is a port**, whatever is done in between. -/
theorem run_readbackLog {held : List Word} (h : gpu.Holding held) {ops : List PortOp}
    (hreset : ∀ w, PortOp.control w ∈ ops → w.field 24 8 ≠ 0x00)
    (hdma : ∀ dma ram irq, PortOp.dma dma ram irq ∉ ops) :
    gpu.port.Run (gpu.readbackLog held ops) (ops.foldl act gpu).port := by
  induction ops generalizing gpu held with
  | nil => exact .nil gpu.port
  | cons op ops ih =>
    have hfirst : ∀ w, op = .control w → w.field 24 8 ≠ 0x00 :=
      fun w hw => hreset w (hw ▸ List.mem_cons_self)
    have hstep := run_readbackEvents h hfirst fun dma ram irq hop =>
      hdma dma ram irq (hop ▸ List.mem_cons_self)
    have hrest := ih (h.act op) (fun w hw => hreset w (List.mem_cons_of_mem op hw))
      fun dma ram irq hop => hdma dma ram irq (List.mem_cons_of_mem op hop)
    exact hstep.append hrest

open ReadbackEvent

/-- **Nothing that is read back is lost, doubled or moved.**  In a run of commands, blocks, control
words other than the reset, reads and ticks, the words that were fetched, each block from the picture
that its command found, are those that were read while words waited and then those that still wait.
A word that is read while none waits is the last one that was read or given as information. -/
theorem readback_in_order {ops : List PortOp}
    (hreset : ∀ w, PortOp.control w ∈ ops → w.field 24 8 ≠ 0x00)
    (hdma : ∀ dma ram irq, PortOp.dma dma ram irq ∉ ops) :
    let log := powerOn.readbackLog [] ops
    fetchedWords log = takenWords log ++ (ops.foldl act powerOn).readback ∧
      ∀ before w after, log = before ++ .repeated w :: after →
        fetchedWords before = takenWords before ∧ w = lastShown 0 before := by
  intro log
  have hrun : powerOn.port.Run log (ops.foldl act powerOn).port :=
    run_readbackLog holding_powerOn hreset hdma
  refine ⟨hrun.conserves, fun before w after hlog => ?_⟩
  rw [hlog] at hrun
  exact hrun.of_repeated

/-- An image of three pixels is fetched, and drawn over before it is read; meanwhile a single pixel is
fetched and information is asked for. -/
theorem readback_in_order_drawn_over :
    let ops : List PortOp := [
      .writeBlock [0xA0000000, 0, 0x00010003, 0x22221111, 0x00003333, 0xC0000000, 0], .tick 100 .quiet,
      .write 0x00010003, .read, .writeBlock [0x020000FF, 0, 0x00010010, 0xC0000000, 2, 0x00010001],
      .control 0x10000003, .read, .read, .read, .control 0x10000004, .read]
    (∀ w, PortOp.control w ∈ ops → w.field 24 8 ≠ 0x00) ∧
      (∀ dma ram irq, PortOp.dma dma ram irq ∉ ops) ∧
      let log := powerOn.readbackLog [] ops
      fetchedWords log = takenWords log ++ (ops.foldl act powerOn).readback ∧
        ∀ before w after, log = before ++ .repeated w :: after →
          fetchedWords before = takenWords before ∧ w = lastShown 0 before := by
  intro ops
  have hreset : ∀ w, PortOp.control w ∈ ops → w.field 24 8 ≠ 0x00 := by
    intro w hw
    have hword : w = 0x10000003 ∨ w = 0x10000004 := by simpa [ops] using hw
    rcases hword with rfl | rfl
    · decide
    · decide
  have hdma : ∀ dma ram irq, PortOp.dma dma ram irq ∉ ops := by simp [ops]
  exact ⟨hreset, hdma, readback_in_order hreset hdma⟩

end Gpu

end ConsoleVideo
