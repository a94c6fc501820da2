import ConsoleVideo.Proofs.Dma.Fetch

/-!
# The traffic of a tick

Whatever the controller is programmed to do, the hardware sees no more of it than a block of words
that come in, or some words being read back.  Words are also sent where the transfer fails later on,
or where a list has no end.

* `Transfer.along` — the words behind the headers of a list, as far as it is followed;
* `Transfer.sent` — the words that a channel sends;
* `Machine.gpu_tickDma` — what a tick does to the hardware.
-/

namespace ConsoleVideo

namespace Transfer

/-- The words of a list that is followed for at most the given number of links. -/
def along (ram : Ram) : Nat → Word → List Word
  | 0, _ => []
  | links + 1, address =>
    payload ram address ++
      if isLast (ram.read address) then [] else along ram links (next (ram.read address))

/-- The words that a channel sends to the hardware, if it is ready. -/
def sent (ram : Ram) (channel : DmaChannel) : List Word :=
  if channel.isReady && channel.fromRam then
    match channel.syncMode with
    | .manual => wordsAt ram channel.address channel.step channel.blockSize
    | .blocks =>
      wordsAt ram channel.address channel.step (channel.blockSize * channel.blockCount)
    | .list => along ram Ram.size channel.listStart
    | .unknown => []
  else []

variable {gpu : Gpu} {ram : Ram} {channel : DmaChannel}

/-- Following a list sends its words, up to the first that is refused. -/
theorem chase_fst (h : gpu.Handshake) (links : Nat) (address : Word) :
    (chase ram links gpu address).1 = (gpu.writeBlock (along ram links address)).1 := by
  induction links generalizing gpu address with
  | zero =>
    rw [along, h.writeBlock_nil]
    rfl
  | succ links ih =>
    have hnext := h.writeBlock (payload ram address)
    rw [chase, along, Gpu.writeBlock_append]
    generalize gpu.writeBlock (payload ram address) = fed at hnext
    rcases fed with ⟨gpu, _ | e⟩
    · simp only
      split
      · rw [hnext.writeBlock_nil]
      · exact ih hnext _
    · rfl

theorem gpu_run_of_list (hsync : channel.syncMode = .list) (hfrom : channel.fromRam = true)
    (ends : Ends) :
    (run channel ends).1.gpu = (chase ends.ram Ram.size ends.gpu channel.listStart).1 := by
  rw [run_of_list hsync hfrom]
  rcases chase ends.ram Ram.size ends.gpu channel.listStart with ⟨gpu, _ | e | address⟩ <;> rfl

/-- **A channel that sends does no more than writing its words.** -/
theorem gpu_run_of_fromRam (h : gpu.Handshake) (hready : channel.isReady = true)
    (hfrom : channel.fromRam = true) :
    (run channel ⟨gpu, ram⟩).1.gpu = (gpu.writeBlock (sent ram channel)).1 := by
  rw [sent, hready, hfrom, Bool.true_and, if_pos rfl]
  cases hsync : channel.syncMode with
  | manual =>
    obtain ⟨address, hrun, -⟩ := run_of_sends h hfrom (.manual hsync)
    rw [hrun]
  | blocks =>
    obtain ⟨address, hseveral, -⟩ := several_eq h hfrom ram channel.blockCount
    rw [run, hsync]
    simp only [hseveral]
  | list =>
    rw [gpu_run_of_list hsync hfrom]
    exact chase_fst h Ram.size channel.listStart
  | unknown =>
    rw [run, hsync, h.writeBlock_nil]

theorem run_of_list_towardsRam (hsync : channel.syncMode = .list) (hto : channel.fromRam = false)
    (ends : Ends) : run channel ends = (ends, none, some (.dma .listTowardsRam)) := by
  have hnot : ¬ channel.fromRam = true := by
    rw [hto]
    exact Bool.false_ne_true
  rw [run, hsync]
  exact if_neg hnot

/-- **A channel that does not send does no more than reading back.** -/
theorem gpu_run_of_towardsRam (gpu : Gpu) (ram : Ram) (hto : channel.fromRam = false) :
    ∃ n, (run channel ⟨gpu, ram⟩).1.gpu = (gpu.readMany n).1 := by
  cases hsync : channel.syncMode with
  | manual =>
    rw [run, hsync]
    exact ⟨_, congrArg (·.1.gpu) (several_fetch hto gpu ram 1)⟩
  | blocks =>
    rw [run_fetch hto hsync]
    exact ⟨_, rfl⟩
  | list =>
    rw [run_of_list_towardsRam hsync hto]
    exact ⟨0, rfl⟩
  | unknown =>
    rw [run, hsync]
    exact ⟨0, rfl⟩

end Transfer

/-! ### The whole tick -/

namespace Machine

variable {machine : Machine}

theorem gpu_tickTable (machine : Machine) : machine.tickTable.gpu = machine.gpu := by
  rw [tickTable]
  split <;> rfl

theorem gpu_tickDma_eq (machine : Machine) :
    machine.tickDma.1.gpu =
      if machine.dma.video.isReady then
        (Transfer.run machine.dma.video ⟨machine.gpu, machine.ram⟩).1.gpu
      else machine.gpu := by
  have hvideo : machine.tickVideo.1.gpu =
      if machine.dma.video.isReady then
        (Transfer.run machine.dma.video ⟨machine.gpu, machine.ram⟩).1.gpu
      else machine.gpu := by
    rw [tickVideo]
    simp only
    split
    · generalize Transfer.run machine.dma.video ⟨machine.gpu, machine.ram⟩ = outcome
      obtain ⟨ends, address, _ | e⟩ := outcome <;> rfl
    · rfl
  rw [← hvideo, tickDma]
  generalize machine.tickVideo = outcome
  obtain ⟨machine, _ | e⟩ := outcome
  · exact gpu_tickTable machine
  · rfl

/-- **A tick writes a block of words, or else it sends nothing and reads some words back.** -/
theorem gpu_tickDma (h : machine.gpu.Handshake) :
    machine.tickDma.1.gpu =
        (machine.gpu.writeBlock (Transfer.sent machine.ram machine.dma.video)).1 ∨
      (Transfer.sent machine.ram machine.dma.video = [] ∧
        ∃ n, machine.tickDma.1.gpu = (machine.gpu.readMany n).1) := by
  rw [gpu_tickDma_eq]
  cases hready : machine.dma.video.isReady with
  | false =>
    right
    refine ⟨?_, 0, rfl⟩
    rw [Transfer.sent, hready]
    rfl
  | true =>
    cases hfrom : machine.dma.video.fromRam with
    | true =>
      left
      rw [if_pos rfl]
      exact Transfer.gpu_run_of_fromRam h hready hfrom
    | false =>
      right
      refine ⟨?_, ?_⟩
      · rw [Transfer.sent, hfrom, Bool.and_false]
        rfl
      · rw [if_pos rfl]
        exact Transfer.gpu_run_of_towardsRam machine.gpu machine.ram hfrom

end Machine

end ConsoleVideo
