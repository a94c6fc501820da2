import ConsoleVideo.Dma.Transfer
import ConsoleVideo.Gpu.Beam
import ConsoleVideo.Gpu.Control
import ConsoleVideo.Proofs.Gpu.Blocks

/-!
# The ports

Software, the DMA controller and the clock act on the hardware through a handful of operations, and
now and then the waiting jobs are carried out with the surface at hand.

* `PortOp`, `Gpu.act` — the operations that do without the surface;
* `Gpu.drainTo_eq` — with the surface at hand, draining does the same to the hardware, and no job
  stays;
* `JobQueue.IsSettled` — between operations nothing waits but a resize of the surface, so that a
  write carries out its own jobs and nothing else;
* `TransferStable` — a property that survives port accesses survives every DMA transfer;
* `Gpu.Reachable` — the states that the hardware can come to; `Reachable.of_stable` — what every
  operation keeps (`PortStable`) holds in all of them.
-/

namespace ConsoleVideo

/-- What happens to the hardware without the surface. -/
inductive PortOp where
  | write (w : Word)
  | writeBlock (ws : List Word)
  /-- Also words that the control register refuses. -/
  | control (w : Word)
  | read
  | tick (cycles : Nat) (irq : Interrupts)
  | drain
  /-- A tick of the DMA controller, however it is programmed and whatever the memory holds. -/
  | dma (dma : Dma) (ram : Ram) (irq : Interrupts)

namespace Gpu

variable (gpu : Gpu)

/-- The hardware after an operation, failed or not. -/
def act : PortOp → Gpu
  | .write w => (gpu.write w).1
  | .writeBlock ws => (gpu.writeBlock ws).1
  | .control w => (gpu.writeControl w).1
  | .read => gpu.read.1
  | .tick cycles irq => (gpu.tick cycles irq).1
  | .drain => gpu.drain
  | .dma dma ram irq => (Machine.tickDma ⟨gpu, dma, ram, irq⟩).1.gpu

/-- The surface is all that a job with the surface at hand has more than `run`. -/
theorem present_fst (surface : Surface) (job : Job) :
    (gpu.present surface job).1 = gpu.run job := by
  cases job <;> rfl

theorem foldl_present_fst (surface : Surface) (jobs : List Job) :
    (jobs.foldl (fun s job => s.1.present s.2 job) (gpu, surface)).1 = gpu.runAll jobs := by
  induction jobs generalizing gpu surface with
  | nil => rfl
  | cons job jobs ih =>
    show (jobs.foldl (fun s job => s.1.present s.2 job)
      ((gpu.present surface job).1, (gpu.present surface job).2)).1 = (gpu.run job).runAll jobs
    rw [ih, present_fst]

theorem drainTo_eq_foldl (surface : Surface) :
    gpu.drainTo surface =
      gpu.queue.toList.foldl (fun s job => s.1.present s.2 job)
        (gpu.withQueue .empty, surface) := by
  rw [drainTo, ← Array.foldl_toList]
  rfl

/-- **With the surface at hand every job is carried out and none stays.** -/
theorem drainTo_eq (surface : Surface) :
    (gpu.drainTo surface).1 = (gpu.runAll gpu.queue.toList).withQueue .empty := by
  rw [drainTo_eq_foldl, foldl_present_fst, runAll_withQueue]

end Gpu

/-! ### Settled queues -/

/-- Nothing waits but a request to resize the surface, and that only once. -/
def JobQueue.IsSettled (queue : JobQueue) : Prop :=
  queue.toList = [] ∨ queue.toList = [.resizeSurface]

namespace JobQueue

variable {queue : JobQueue}

theorem isSettled_empty : empty.IsSettled :=
  .inl rfl

theorem toList_pushResize_of_isSettled (h : queue.IsSettled) :
    queue.pushResize.toList = [.resizeSurface] := by
  rw [toList_pushResize]
  rcases h with hnone | hone
  · rw [hnone]
    rfl
  · rw [hone]
    rfl

theorem IsSettled.pushResize (h : queue.IsSettled) : queue.pushResize.IsSettled :=
  .inr (toList_pushResize_of_isSettled h)

theorem IsSettled.isDeferred (h : queue.IsSettled) :
    ∀ job ∈ queue.toList, job.isDeferred = true := by
  intro job hjob
  rcases h with hnone | hone
  · rw [hnone] at hjob
    exact absurd hjob List.not_mem_nil
  · rw [hone] at hjob
    rw [List.mem_singleton.1 hjob]
    rfl

theorem IsSettled.deferred_eq (h : queue.IsSettled) : queue.deferred = queue := by
  apply ext_toList
  rw [toList_deferred]
  exact List.filter_eq_self.2 h.isDeferred

theorem IsSettled.size_le_one (h : queue.IsSettled) : queue.size ≤ 1 := by
  rw [size_eq_length]
  rcases h with hnone | hone
  · rw [hnone]
    exact Nat.zero_le 1
  · rw [hone]
    exact Nat.le_refl 1

theorem IsSettled.allDeferred (h : queue.IsSettled) : queue.allDeferred = true := by
  rw [allDeferred_eq]
  exact List.all_eq_true.2 h.isDeferred

end JobQueue

namespace Gpu

variable {gpu : Gpu} (hsettled : gpu.queue.IsSettled)

include hsettled

theorem drain_of_isSettled : gpu.drain = gpu := by
  rw [drain_eq, runAll_of_deferred gpu hsettled.isDeferred, hsettled.deferred_eq]
  rfl

theorem drainTo_of_isSettled (surface : Surface) :
    (gpu.drainTo surface).1 = gpu.withQueue .empty := by
  rw [drainTo_eq, runAll_of_deferred gpu hsettled.isDeferred]

/-- A block carries out the jobs that it completes, and what waits goes on waiting. -/
theorem writeBlock_of_isSettled (ws : List Word) :
    (gpu.writeBlock ws).1 = (gpu.runAll (gpu.decoder.takeAll ws).2.1).withFrontEnd {
      decoder := (gpu.decoder.takeAll ws).1
      queue := gpu.queue
      readyCommand := (gpu.decoder.takeAll ws).1.isIdle
      dmaRequest := (gpu.runAll (gpu.decoder.takeAll ws).2.1).status.wantedDmaRequest } := by
  rw [writeBlock_eq, runAll_append, runAll_of_deferred gpu hsettled.isDeferred,
    hsettled.deferred_eq]

end Gpu

/-! ### DMA transfers -/

/-- What holds on as long as only the command and the readback register are used. -/
structure TransferStable (P : Gpu → Prop) : Prop where
  writeBlock : ∀ {gpu : Gpu} (ws : List Word), P gpu → P (gpu.writeBlock ws).1
  read : ∀ {gpu : Gpu}, P gpu → P gpu.read.1

namespace TransferStable

open Transfer

variable {P : Gpu → Prop} (h : TransferStable P)

include h

theorem readOnto {gpu : Gpu} (words : Array Word) (n : Nat) (hgpu : P gpu) :
    P (gpu.readOnto words n).1 := by
  induction n generalizing gpu words with
  | zero => exact hgpu
  | succ n ih => exact ih (words.push gpu.read.2) (h.read hgpu)

theorem block {ends : Ends} (fromRam : Bool) (start step : Word) (count : Nat)
    (hgpu : P ends.gpu) : P (Transfer.block ends fromRam start step count).1.gpu := by
  cases fromRam with
  | true => exact h.writeBlock (stage ends.ram start step count) hgpu
  | false => exact h.readOnto #[] count hgpu

theorem blocks {ends : Ends} (fromRam : Bool) (step : Word) (count more : Nat) (start : Word)
    (hgpu : P ends.gpu) : P (Transfer.blocks fromRam step count more ends start).1.gpu := by
  induction more generalizing ends start with
  | zero => exact hgpu
  | succ more ih =>
    have hblock := h.block fromRam start step count hgpu
    rw [Transfer.blocks]
    generalize Transfer.block ends fromRam start step count = outcome at hblock ⊢
    obtain ⟨ends, _ | e⟩ := outcome
    · exact ih (Ram.align (addressAt start step count)) hblock
    · exact hblock

theorem chase {gpu : Gpu} (ram : Ram) (links : Nat) (address : Word) (hgpu : P gpu) :
    P (Transfer.chase ram links gpu address).1 := by
  induction links generalizing gpu address with
  | zero => exact hgpu
  | succ links ih =>
    have hlink := h.writeBlock (payload ram address) hgpu
    rw [Transfer.chase]
    generalize gpu.writeBlock (payload ram address) = outcome at hlink ⊢
    obtain ⟨gpu, _ | e⟩ := outcome
    · show P (if isLast (ram.read address) then (gpu, Chase.finished)
        else Transfer.chase ram links gpu (next (ram.read address))).1
      split
      · exact hlink
      · exact ih (next (ram.read address)) hlink
    · exact hlink

theorem run {ends : Ends} (channel : DmaChannel) (hgpu : P ends.gpu) :
    P (Transfer.run channel ends).1.gpu := by
  -- Two of the modes move blocks and differ in their number only.
  have hseveral : ∀ count : Nat, P (Transfer.run.several channel ends count).1.gpu := by
    intro count
    have hblocks := h.blocks channel.fromRam channel.step channel.blockSize count channel.address
      hgpu
    rw [Transfer.run.several]
    generalize Transfer.blocks channel.fromRam channel.step channel.blockSize count ends
      channel.address = outcome at hblocks ⊢
    obtain ⟨ends, e | address⟩ := outcome <;> exact hblocks
  rw [Transfer.run]
  cases channel.syncMode with
  | manual => exact hseveral 1
  | blocks => exact hseveral channel.blockCount
  | list =>
    cases channel.fromRam with
    | false => exact hgpu
    | true =>
      have hchase := h.chase ends.ram Ram.size (Ram.align channel.address) hgpu
      simp only [if_true]
      generalize Transfer.chase ends.ram Ram.size ends.gpu (Ram.align channel.address) =
        outcome at hchase ⊢
      obtain ⟨gpu, _ | e | address⟩ := outcome <;> exact hchase
  | unknown => exact hgpu

theorem tickVideo {machine : Machine} (hgpu : P machine.gpu) : P machine.tickVideo.1.gpu := by
  have hrun : P (Transfer.run machine.dma.video ⟨machine.gpu, machine.ram⟩).1.gpu :=
    h.run machine.dma.video hgpu
  rw [Machine.tickVideo]
  split
  · generalize Transfer.run machine.dma.video ⟨machine.gpu, machine.ram⟩ = outcome at hrun ⊢
    obtain ⟨ends, address, _ | e⟩ := outcome <;> exact hrun
  · exact hgpu

/-- **A property that port accesses keep is kept by every DMA transfer**, failed ones included. -/
theorem tickDma {machine : Machine} (hgpu : P machine.gpu) : P machine.tickDma.1.gpu := by
  have hvideo := h.tickVideo hgpu
  rw [Machine.tickDma]
  generalize machine.tickVideo = outcome at hvideo ⊢
  obtain ⟨machine, _ | e⟩ := outcome
  · show P machine.tickTable.gpu
    rw [Machine.tickTable]
    split <;> exact hvideo
  · exact hvideo

end TransferStable

/-! ### Reachable states -/

/-- What holds on whatever is done to the hardware. -/
structure PortStable (P : Gpu → Prop) : Prop extends TransferStable P where
  writeControl : ∀ {gpu : Gpu} (w : Word), P gpu → P (gpu.writeControl w).1
  tick : ∀ {gpu : Gpu} (cycles : Nat) (irq : Interrupts), P gpu → P (gpu.tick cycles irq).1
  drain : ∀ {gpu : Gpu}, P gpu → P gpu.drain
  present : ∀ {gpu : Gpu} (surface : Surface), P gpu → P (gpu.drainTo surface).1

theorem PortStable.act {P : Gpu → Prop} (h : PortStable P) {gpu : Gpu} (hgpu : P gpu)
    (op : PortOp) : P (gpu.act op) := by
  cases op with
  | write w => exact h.writeBlock [w] hgpu
  | writeBlock ws => exact h.writeBlock ws hgpu
  | control w => exact h.writeControl w hgpu
  | read => exact h.read hgpu
  | tick cycles irq => exact h.tick cycles irq hgpu
  | drain => exact h.drain hgpu
  | dma dma ram irq => exact h.toTransferStable.tickDma hgpu

/-- The states that the hardware comes to from the start, whatever acts on it. -/
inductive Gpu.Reachable : Gpu → Prop
  | powerOn : Reachable powerOn
  | act {gpu : Gpu} (op : PortOp) : Reachable gpu → Reachable (gpu.act op)
  | present {gpu : Gpu} (surface : Surface) : Reachable gpu → Reachable (gpu.drainTo surface).1

/-- **What holds at the start and is kept by every operation always holds.** -/
theorem Gpu.Reachable.of_stable {P : Gpu → Prop} (h : PortStable P) (hpowerOn : P Gpu.powerOn)
    {gpu : Gpu} (hgpu : gpu.Reachable) : P gpu := by
  induction hgpu with
  | powerOn => exact hpowerOn
  | act op _ ih => exact h.act ih op
  | present surface _ ih => exact h.present surface ih

end ConsoleVideo
