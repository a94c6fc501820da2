import ConsoleVideo.Proofs.Gpu.Ports

/-!
# The handshake

Four flags of the status tell software and the DMA controller what the hardware is ready for.  They
are stored beside the state that they describe and are updated wherever that state changes, so it
takes an invariant to see that they tell the truth.

* `Gpu.Announced` — what waits to be read back is announced;
* `Gpu.Handshake` — the invariant: the four flags agree with the decoder, the queue and the readback
  queue;
* `Gpu.Handshake.portStable` — every operation keeps it;
* `Gpu.Handshake.writeBlocks_flatten`, `Gpu.Handshake.writeAll_eq_writeBlock` — where it holds, a
  block of no words changes nothing, so that words may come in any blocks at all;
* `Gpu.bits_of_reachable` — what software sees of it in the status word.
-/

namespace ConsoleVideo.Gpu

variable {gpu : Gpu}

/-- The flags that drawing commands have a part in. -/
structure Announced (gpu : Gpu) : Prop where
  readySend : gpu.status.readySend = !gpu.readback.isEmpty
  readyBlock : gpu.status.readyBlock = true

/-- The flags that software polls. -/
structure Handshake (gpu : Gpu) : Prop extends Announced gpu where
  queue : gpu.queue.IsSettled
  readyCommand : gpu.status.readyCommand = gpu.decoder.isIdle
  dmaRequest : gpu.status.dmaRequest = gpu.status.wantedDmaRequest

/-! ### Drawing commands -/

namespace Announced

/-- A download adds at least one word, and no other command touches the readback queue. -/
theorem run (h : gpu.Announced) {job : Job} (hjob : job.IsDrawing) : (gpu.run job).Announced := by
  cases job with
  | download rect =>
    constructor
    · have hlength : (gpu.readback ++ rect.read gpu.vram).length ≠ 0 := by
        have := hjob.wordCount_pos rect rfl
        rw [List.length_append, VramRect.length_read]
        omega
      have hsome : (gpu.readback ++ rect.read gpu.vram).isEmpty = false := by
        rw [List.isEmpty_eq_false_iff]
        exact fun hnil => hlength (by rw [hnil]; rfl)
      show true = !(gpu.readback ++ rect.read gpu.vram).isEmpty
      rw [hsome]
      rfl
    · exact h.readyBlock
  | polygon polygon =>
    obtain ⟨first, second, third, fourth, shaded, texture, translucent⟩ := polygon
    cases texture with
    | none => exact ⟨h.readySend, h.readyBlock⟩
    | some texture => exact ⟨h.readySend, h.readyBlock⟩
  | _ => exact ⟨h.readySend, h.readyBlock⟩

theorem runAll (h : gpu.Announced) {jobs : List Job} (hjobs : ∀ job ∈ jobs, job.IsDrawing) :
    (gpu.runAll jobs).Announced := by
  induction jobs generalizing gpu with
  | nil => exact h
  | cons job jobs ih =>
    exact ih (h.run (hjobs job List.mem_cons_self)) fun later hlater =>
      hjobs later (List.mem_cons_of_mem job hlater)

theorem withFrontEnd (h : gpu.Announced) (front : FrontEnd) :
    (gpu.withFrontEnd front).Announced :=
  ⟨h.readySend, h.readyBlock⟩

end Announced

/-! ### Operations -/

/-- Bringing the DMA request up to date completes the handshake. -/
theorem handshake_refreshDmaRequest (hannounced : gpu.Announced) (hqueue : gpu.queue.IsSettled)
    (hready : gpu.status.readyCommand = gpu.decoder.isIdle) : gpu.refreshDmaRequest.Handshake where
  readySend := hannounced.readySend
  readyBlock := hannounced.readyBlock
  queue := hqueue
  readyCommand := hready
  dmaRequest := rfl

theorem handshake_powerOn : powerOn.Handshake where
  readySend := by decide
  readyBlock := by decide
  queue := JobQueue.isSettled_empty
  readyCommand := by decide
  dmaRequest := by decide

namespace Handshake

theorem writeBlock (h : gpu.Handshake) (ws : List Word) : (gpu.writeBlock ws).1.Handshake := by
  have hdrawing : ∀ job ∈ (gpu.decoder.takeAll ws).2.1, job.IsDrawing :=
    Decoder.isDrawing_of_mem_takeAll
  have hrun := h.toAnnounced.runAll hdrawing
  rw [writeBlock_of_isSettled h.queue]
  exact {
    hrun.withFrontEnd _ with
    queue := h.queue
    readyCommand := rfl
    dmaRequest := (wantedDmaRequest_withFrontEnd _ _).symm }

/-- The last word read takes its announcement with it. -/
theorem read (h : gpu.Handshake) : gpu.read.1.Handshake := by
  have hsend := h.readySend
  rw [Gpu.read]
  cases hreadback : gpu.readback with
  | nil =>
    have hrest : Announced { gpu with
        readback := []
        status := { gpu.status with readySend := gpu.status.readySend && false } } :=
      ⟨Bool.and_false gpu.status.readySend, h.readyBlock⟩
    exact handshake_refreshDmaRequest hrest h.queue h.readyCommand
  | cons w ws =>
    -- Something waited, so the flag was set, and it stays as long as something is left.
    have hrest : Announced { gpu with
        latch := w
        readback := ws
        status := { gpu.status with readySend := gpu.status.readySend && !ws.isEmpty } } := by
      refine ⟨?_, h.readyBlock⟩
      show (gpu.status.readySend && !ws.isEmpty) = !ws.isEmpty
      rw [hsend, hreadback]
      rfl
    exact handshake_refreshDmaRequest hrest h.queue h.readyCommand

theorem control (h : gpu.Handshake) (command : Control) :
    (gpu.control command).refreshDmaRequest.Handshake := by
  cases command with
  | reset =>
    exact handshake_refreshDmaRequest
      ⟨handshake_powerOn.readySend, handshake_powerOn.readyBlock⟩
      JobQueue.isSettled_empty.pushResize handshake_powerOn.readyCommand
  | resetCommands =>
    exact handshake_refreshDmaRequest ⟨h.readySend, h.readyBlock⟩ JobQueue.isSettled_empty rfl
  | displayMode w =>
    exact handshake_refreshDmaRequest ⟨h.readySend, h.readyBlock⟩ h.queue.pushResize h.readyCommand
  | _ =>
    exact handshake_refreshDmaRequest ⟨h.readySend, h.readyBlock⟩ h.queue h.readyCommand

theorem writeControl (h : gpu.Handshake) (w : Word) : (gpu.writeControl w).1.Handshake := by
  rw [Gpu.writeControl]
  cases Control.ofWord? w with
  | none => exact h
  | some command => exact h.control command

theorem tick (h : gpu.Handshake) (cycles : Nat) (irq : Interrupts) :
    (gpu.tick cycles irq).1.Handshake where
  readySend := h.readySend
  readyBlock := h.readyBlock
  queue := h.queue
  readyCommand := h.readyCommand
  dmaRequest := h.dmaRequest

theorem drain (h : gpu.Handshake) : gpu.drain.Handshake := by
  rw [drain_of_isSettled h.queue]
  exact h

theorem present (h : gpu.Handshake) (surface : Surface) : (gpu.drainTo surface).1.Handshake := by
  rw [drainTo_of_isSettled h.queue]
  exact {
    h.toAnnounced.withFrontEnd _ with
    queue := JobQueue.isSettled_empty
    readyCommand := h.readyCommand
    dmaRequest := h.dmaRequest }

/-- **Every operation keeps the handshake**, also one that fails. -/
theorem portStable : PortStable Handshake where
  writeBlock := fun ws h => h.writeBlock ws
  read := fun h => h.read
  writeControl := fun w h => h.writeControl w
  tick := fun cycles irq h => h.tick cycles irq
  drain := fun h => h.drain
  present := fun surface h => h.present surface

end Handshake

theorem Reachable.handshake (h : gpu.Reachable) : gpu.Handshake :=
  h.of_stable Handshake.portStable handshake_powerOn

/-! ### Blocks of no words -/

namespace Handshake

/-- What a block of no words would bring up to date is up to date. -/
theorem writeBlock_nil (h : gpu.Handshake) : gpu.writeBlock [] = (gpu, none) := by
  have hkept : gpu.withFrontEnd {
      decoder := gpu.decoder
      queue := gpu.queue
      readyCommand := gpu.decoder.isIdle
      dmaRequest := gpu.status.wantedDmaRequest } = gpu := by
    rw [← h.readyCommand, ← h.dmaRequest]
    exact withFrontEnd_frontEnd gpu
  have hfirst : (gpu.writeBlock []).1 = gpu := by
    rw [writeBlock_of_isSettled h.queue]
    exact hkept
  exact Prod.ext hfirst rfl

theorem writeBlocks_flatten (h : gpu.Handshake) (blocks : List (List Word)) :
    gpu.writeBlocks blocks = gpu.writeBlock blocks.flatten := by
  cases blocks with
  | nil => exact h.writeBlock_nil.symm
  | cons block blocks => rw [writeBlocks_eq_writeBlock, List.flatten_cons]

theorem writeAll_eq_writeBlock (h : gpu.Handshake) (ws : List Word) :
    gpu.writeAll ws = gpu.writeBlock ws := by
  rw [writeAll_eq_writeBlocks, h.writeBlocks_flatten, ← List.flatMap_def, List.flatMap_singleton']

end Handshake

/-! ### The status word -/

/-- **What software reads is true, whatever has happened**: bit 26 says that no command is in
progress and that nothing waits but at most one request to resize the surface, bit 27 that there is
something to read back, bit 28 is always set, and bit 25 follows the DMA direction. -/
theorem bits_of_reachable (h : gpu.Reachable) :
    (gpu.status.word.bit 26 = true ↔
      gpu.decoder.isIdle = true ∧ gpu.queue.allDeferred = true ∧ gpu.queue.size ≤ 1) ∧
    (gpu.status.word.bit 27 = true ↔ gpu.readback ≠ []) ∧
    gpu.status.word.bit 28 = true ∧
    gpu.status.word.bit 25 = gpu.status.wantedDmaRequest ∧
    gpu.queue.allDeferred = true ∧ gpu.queue.size ≤ 1 := by
  have hhand := h.handshake
  have hbit26 : gpu.status.word.bit 26 = gpu.status.readyCommand := Status.bit_word gpu.status 26
  have hbit27 : gpu.status.word.bit 27 = gpu.status.readySend := Status.bit_word gpu.status 27
  have hbit28 : gpu.status.word.bit 28 = gpu.status.readyBlock := Status.bit_word gpu.status 28
  have hbit25 : gpu.status.word.bit 25 = gpu.status.dmaRequest := Status.bit_word gpu.status 25
  refine ⟨?_, ?_, ?_, ?_, hhand.queue.allDeferred, hhand.queue.size_le_one⟩
  · rw [hbit26, hhand.readyCommand]
    exact ⟨fun hidle => ⟨hidle, hhand.queue.allDeferred, hhand.queue.size_le_one⟩,
      fun hready => hready.1⟩
  · rw [hbit27, hhand.readySend, Bool.not_eq_true', List.isEmpty_eq_false_iff]
  · rw [hbit28]
    exact hhand.readyBlock
  · rw [hbit25]
    exact hhand.dmaRequest

/-- One word is read back while the DMA controller is told to fetch it. -/
theorem bits_of_reachable_download :
    let gpu := (powerOn.act (.writeBlock [0xC0000000, 0, 0x00010001])).act (.control 0x04000003)
    gpu.Reachable ∧
      (gpu.status.word.bit 26 = true ↔
        gpu.decoder.isIdle = true ∧ gpu.queue.allDeferred = true ∧ gpu.queue.size ≤ 1) ∧
      (gpu.status.word.bit 27 = true ↔ gpu.readback ≠ []) ∧
      gpu.status.word.bit 28 = true ∧
      gpu.status.word.bit 25 = gpu.status.wantedDmaRequest ∧
      gpu.queue.allDeferred = true ∧ gpu.queue.size ≤ 1 :=
  have hreachable := (Reachable.powerOn.act (.writeBlock [0xC0000000, 0, 0x00010001])).act
    (.control 0x04000003)
  ⟨hreachable, bits_of_reachable hreachable⟩

end ConsoleVideo.Gpu
