import ConsoleVideo.Proofs.Command.Jobs
import ConsoleVideo.Proofs.Gpu.FrontEnd

/-!
# Blocks of words

A block of words is decoded whole before the first of its jobs is carried out, while words that are
written one by one have their jobs carried out in between.  Software cannot tell the difference.

* `Gpu.writeBlock_eq` — a block is decoded first and then carried out;
* `Gpu.writeBlock_append` — two blocks are as good as one;
* `Gpu.writeBlocks_eq_writeAll` — any way of cutting a list of words gives the same.
-/

namespace ConsoleVideo

namespace Gpu

variable (gpu : Gpu)

/-- Feeding words only concerns the decoder and the queue. -/
theorem feedAll_eq (ws : List Word) :
    gpu.feedAll ws =
      (gpu.withFrontEnd { gpu.frontEnd with
        decoder := (gpu.decoder.takeAll ws).1
        queue := gpu.queue.pushAll (gpu.decoder.takeAll ws).2.1 },
        (gpu.decoder.takeAll ws).2.2) := by
  induction ws generalizing gpu with
  | nil =>
    simp only [feedAll, Decoder.takeAll, JobQueue.pushAll_nil]
    rfl
  | cons w ws ih =>
    simp only [feedAll, feed, Decoder.takeAll]
    rcases gpu.decoder.push w with ⟨next, e | _ | job⟩
    · simp only [JobQueue.pushAll_nil]
      rfl
    · simp only [ih]
      rfl
    · simp only [ih, Option.toList_some, List.singleton_append, JobQueue.pushAll_cons]
      rfl

/-- **A block is decoded first and then carried out**, after what was waiting before. -/
theorem writeBlock_eq (ws : List Word) :
    gpu.writeBlock ws =
      ((gpu.runAll (gpu.queue.toList ++ (gpu.decoder.takeAll ws).2.1)).withFrontEnd {
        decoder := (gpu.decoder.takeAll ws).1
        queue := gpu.queue.deferred
        readyCommand := (gpu.decoder.takeAll ws).1.isIdle
        dmaRequest := (gpu.runAll (gpu.queue.toList ++
          (gpu.decoder.takeAll ws).2.1)).status.wantedDmaRequest },
        (gpu.decoder.takeAll ws).2.2) := by
  have hfed : gpu.writeBlock ws =
      ((gpu.withFrontEnd {
        decoder := (gpu.decoder.takeAll ws).1
        queue := gpu.queue.pushAll (gpu.decoder.takeAll ws).2.1
        readyCommand := false
        dmaRequest := gpu.status.dmaRequest }).settle, (gpu.decoder.takeAll ws).2.2) := by
    show (((gpu.withFrontEnd { gpu.frontEnd with readyCommand := false }).feedAll ws).1.settle,
      ((gpu.withFrontEnd { gpu.frontEnd with readyCommand := false }).feedAll ws).2) = _
    rw [feedAll_eq]
    rfl
  have hdrawing : ∀ job ∈ (gpu.decoder.takeAll ws).2.1, job.isDeferred = false :=
    fun job hjob => (Decoder.isDrawing_of_mem_takeAll job hjob).isDeferred
  rw [hfed, settle_withFrontEnd, JobQueue.toList_pushAll, JobQueue.deferred_pushAll hdrawing]

theorem writeBlock_withFrontEnd (front : FrontEnd) (ws : List Word) :
    (gpu.withFrontEnd front).writeBlock ws =
      ((gpu.runAll (front.queue.toList ++ (front.decoder.takeAll ws).2.1)).withFrontEnd {
        decoder := (front.decoder.takeAll ws).1
        queue := front.queue.deferred
        readyCommand := (front.decoder.takeAll ws).1.isIdle
        dmaRequest := (gpu.runAll (front.queue.toList ++
          (front.decoder.takeAll ws).2.1)).status.wantedDmaRequest },
        (front.decoder.takeAll ws).2.2) := by
  have hrun := runAll_withFrontEnd gpu front (front.queue.toList ++ (front.decoder.takeAll ws).2.1)
  have hblock := writeBlock_eq (gpu.withFrontEnd front) ws
  rw [show (gpu.withFrontEnd front).queue = front.queue from rfl,
    show (gpu.withFrontEnd front).decoder = front.decoder from rfl, hrun,
    withFrontEnd_withFrontEnd, wantedDmaRequest_withFrontEnd] at hblock
  exact hblock

/-! ### Cutting a list of words into blocks -/

/-- Writes blocks one after the other, up to the first one with a word that is refused. -/
def writeBlocks (gpu : Gpu) : List (List Word) → Gpu × Option DeviceError
  | [] => (gpu, none)
  | block :: blocks =>
    match gpu.writeBlock block with
    | (gpu, some e) => (gpu, some e)
    | (gpu, none) => gpu.writeBlocks blocks

/-- Writes words one after the other, up to the first one that is refused. -/
def writeAll (gpu : Gpu) : List Word → Gpu × Option DeviceError
  | [] => (gpu, none)
  | w :: ws =>
    match gpu.write w with
    | (gpu, some e) => (gpu, some e)
    | (gpu, none) => gpu.writeAll ws

/-- **Two blocks are as good as one**, also where the first one ends inside a command or is cut off
by an error. -/
theorem writeBlock_append (us vs : List Word) :
    gpu.writeBlock (us ++ vs) =
      match gpu.writeBlock us with
      | (gpu, some e) => (gpu, some e)
      | (gpu, none) => gpu.writeBlock vs := by
  rw [writeBlock_eq gpu us, writeBlock_eq gpu (us ++ vs), Decoder.takeAll_append]
  rcases gpu.decoder.takeAll us with ⟨next, jobs, _ | e⟩
  · -- The second block comes upon the jobs that the first one left, and they do nothing again.
    have hkept : ∀ later : Gpu, later.runAll gpu.queue.deferred.toList = later := by
      intro later
      refine runAll_of_deferred later fun job hjob => ?_
      rw [JobQueue.toList_deferred] at hjob
      exact (List.mem_filter.1 hjob).2
    simp only [writeBlock_withFrontEnd, JobQueue.deferred_deferred]
    rw [← List.append_assoc, runAll_append _ _ (next.takeAll vs).2.1,
      runAll_append _ gpu.queue.deferred.toList, hkept]
  · rfl

/-- Any number of blocks, as long as there is one, are as good as one. -/
theorem writeBlocks_eq_writeBlock (block : List Word) (blocks : List (List Word)) :
    gpu.writeBlocks (block :: blocks) = gpu.writeBlock (block ++ blocks.flatten) := by
  induction blocks generalizing gpu block with
  | nil =>
    rw [List.flatten_nil, List.append_nil, writeBlocks]
    rcases gpu.writeBlock block with ⟨gpu, _ | e⟩ <;> rfl
  | cons next blocks ih =>
    rw [List.flatten_cons, writeBlock_append, writeBlocks]
    rcases gpu.writeBlock block with ⟨gpu, _ | e⟩
    · exact ih gpu next
    · rfl

/-- Single words are blocks of one word. -/
theorem writeAll_eq_writeBlocks (ws : List Word) :
    gpu.writeAll ws = gpu.writeBlocks (ws.map fun w => [w]) := by
  induction ws generalizing gpu with
  | nil => rfl
  | cons w ws ih =>
    rw [List.map_cons, writeBlocks, writeAll, write]
    rcases gpu.writeBlock [w] with ⟨gpu, _ | e⟩
    · exact ih gpu
    · rfl

/-- **It does not matter how a list of words is cut into blocks**: the outcome and the hardware
afterwards are those of its words written one by one. -/
theorem writeBlocks_eq_writeAll (blocks : List (List Word)) (h : blocks.flatten ≠ []) :
    gpu.writeBlocks blocks = gpu.writeAll blocks.flatten := by
  cases blocks with
  | nil => exact absurd rfl h
  | cons block blocks =>
    rw [writeBlocks_eq_writeBlock, writeAll_eq_writeBlocks]
    cases hwords : (block :: blocks).flatten with
    | nil => exact absurd hwords h
    | cons w ws =>
      rw [List.map_cons, writeBlocks_eq_writeBlock, ← List.flatten_cons, hwords,
        ← List.flatMap_def, List.flatMap_singleton']
      rfl

/-- A fill that is shared by two blocks, and a refused polyline before the end of the second. -/
theorem writeBlocks_eq_writeAll_fill :
    [[0x020000FF, 0], [0x00010010, 0x48000000, 0]].flatten ≠ ([] : List Word) ∧
      powerOn.writeBlocks [[0x020000FF, 0], [0x00010010, 0x48000000, 0]] =
        powerOn.writeAll [0x020000FF, 0, 0x00010010, 0x48000000, 0] :=
  ⟨by decide, writeBlocks_eq_writeAll powerOn _ (by decide)⟩

end Gpu

end ConsoleVideo
