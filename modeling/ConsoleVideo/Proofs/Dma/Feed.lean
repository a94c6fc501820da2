import ConsoleVideo.Proofs.Dma.Links
import ConsoleVideo.Proofs.Dma.Table
import ConsoleVideo.Proofs.Gpu.Handshake

/-!
# Feeding the hardware

The controller stages words in blocks and cuts them wherever its programming says.  What reaches the
hardware is nevertheless no more than a row of words, and it might as well have been written by
software, word after word.

* `Transfer.wordsAt`, `Transfer.Sends` — the words that a channel is programmed to send, with no
  blocks in sight;
* `Transfer.blocks_eq` — blocks continue each other, over the end of the memory too;
* `Transfer.run_of_sends` — a channel sends its words, and its address register shows where it
  stopped;
* `Machine.tickDma_sends` — a transfer from the main memory does what writing its words does.
-/

namespace ConsoleVideo

/-! ### Addresses in steps -/

namespace Ram

/-- In whole words it does not matter whether an address is brought into the memory before or after
going on from it. -/
theorem slot_align_add (address k : Word) :
    slot (align address + 4 * k) = slot (address + 4 * k) := by
  apply Fin.ext
  show (align address + 4 * k).toNat / 4 % 524288 = (address + 4 * k).toNat / 4 % 524288
  rw [UInt32.toNat_add, UInt32.toNat_add, UInt32.toNat_mul, toNat_align]
  show (4 * (address.toNat / 4 % 524288) + 4 * k.toNat % 4294967296) % 4294967296 / 4 % 524288 =
    (address.toNat + 4 * k.toNat % 4294967296) % 4294967296 / 4 % 524288
  omega

theorem align_align_add (address k : Word) :
    align (align address + 4 * k) = align (address + 4 * k) := by
  rw [align, slot_align_add, align]

/-- Addresses of the same word have the same lowest form. -/
theorem align_congr {address other : Word} (h : slot address = slot other) :
    align address = align other := by
  rw [align, h, align]

theorem write_congr {ram : Ram} {address other w : Word} (h : slot address = slot other) :
    ram.write address w = ram.write other w := by
  simp only [write, h]

theorem read_mask (ram : Ram) (address : Word) :
    ram.read (address &&& 0x001FFFFC) = ram.read address := by
  rw [← align_eq_and]
  exact read_congr (slot_align address)

end Ram

/-- Both directions go in whole words. -/
theorem DmaChannel.exists_step_eq (channel : DmaChannel) : ∃ k : Word, channel.step = 4 * k := by
  rw [step]
  split
  · exact ⟨0xFFFFFFFF, by decide⟩
  · exact ⟨1, by decide⟩

namespace Transfer

variable {ram : Ram} {channel : DmaChannel}

/-! ### What is sent -/

/-- The words at `count` addresses that are `step` apart, each brought into the memory. -/
def wordsAt (ram : Ram) (start step : Word) (count : Nat) : List Word :=
  (List.range count).map fun i => ram.read ((start + step * UInt32.ofNat i) &&& 0x001FFFFC)

/-- The words that a channel is programmed to send, and what its address register shows when it has
sent them. -/
inductive Sends (ram : Ram) (channel : DmaChannel) : List Word → Word → Prop
  | manual : channel.syncMode = .manual →
      Sends ram channel (wordsAt ram channel.address channel.step channel.blockSize)
        ((channel.address + channel.step * UInt32.ofNat channel.blockSize) &&& 0x001FFFFC)
  | blocks : channel.syncMode = .blocks → channel.blockCount ≠ 0 →
      Sends ram channel
        (wordsAt ram channel.address channel.step (channel.blockSize * channel.blockCount))
        ((channel.address +
          channel.step * UInt32.ofNat (channel.blockSize * channel.blockCount)) &&& 0x001FFFFC)
  /-- Where nothing is sent, the address register is left alone. -/
  | noBlocks : channel.syncMode = .blocks → channel.blockCount = 0 →
      Sends ram channel [] channel.address
  | list {n : Nat} : channel.syncMode = .list → EndsAt ram channel.listStart n →
      Sends ram channel (payloads ram channel.listStart (n + 1)).flatten 0x00FFFFFF

/-- Whatever is not a list without an end says what it sends. -/
theorem exists_sends (hmode : channel.syncMode ≠ .unknown)
    (hlist : channel.syncMode = .list →
      ∃ n, isLast (ram.read (link ram channel.listStart n)) = true) :
    ∃ words last, Sends ram channel words last := by
  cases hsync : channel.syncMode with
  | manual => exact ⟨_, _, .manual hsync⟩
  | blocks =>
    by_cases hcount : channel.blockCount = 0
    · exact ⟨_, _, .noBlocks hsync hcount⟩
    · exact ⟨_, _, .blocks hsync hcount⟩
  | list =>
    obtain ⟨n, hn⟩ := exists_endsAt (hlist hsync)
    exact ⟨_, _, .list hsync hn⟩
  | unknown => exact absurd hsync hmode

/-! ### Blocks -/

theorem stage_eq_wordsAt (ram : Ram) (start step : Word) (count : Nat) :
    stage ram start step count = wordsAt ram start step count := by
  simp only [stage, wordsAt, addressAt, Ram.read_mask]

theorem addressAt_add (start step : Word) (m n : Nat) :
    addressAt start step (m + n) = addressAt start step m + step * UInt32.ofNat n := by
  rw [addressAt, addressAt, UInt32.ofNat_add, UInt32.mul_add, UInt32.add_assoc]

section Step

variable {step : Word} (hstep : ∃ k : Word, step = 4 * k)

include hstep

theorem align_addressAt_align (start : Word) (m n : Nat) :
    Ram.align (addressAt (Ram.align (addressAt start step m)) step n) =
      Ram.align (addressAt start step (m + n)) := by
  obtain ⟨k, rfl⟩ := hstep
  rw [addressAt_add, addressAt, UInt32.mul_assoc, Ram.align_align_add]

/-- **A block goes on where the one before it stopped.** -/
theorem stage_add (ram : Ram) (start : Word) (m n : Nat) :
    stage ram start step (m + n) =
      stage ram start step m ++ stage ram (Ram.align (addressAt start step m)) step n := by
  obtain ⟨k, rfl⟩ := hstep
  have hread : ∀ i, ram.read (addressAt (Ram.align (addressAt start (4 * k) m)) (4 * k) i) =
      ram.read (addressAt start (4 * k) (m + i)) := by
    intro i
    rw [addressAt_add, addressAt, UInt32.mul_assoc]
    exact Ram.read_congr (Ram.slot_align_add _ _)
  simp only [stage, List.range_add, List.map_append, List.map_map, Function.comp_def, hread]

/-- **Blocks are sent as the words in them**, and end where the last of these lies. -/
theorem blocks_eq {gpu : Gpu} (h : gpu.Handshake) (count more : Nat) (start : Word) :
    blocks true step count more ⟨gpu, ram⟩ start =
      (⟨(gpu.writeBlock (stage ram start step (count * more))).1, ram⟩,
        match (gpu.writeBlock (stage ram start step (count * more))).2 with
        | none => .ok (if more = 0 then start
            else Ram.align (addressAt start step (count * more)))
        | some e => .error e) := by
  induction more generalizing gpu start with
  | zero =>
    rw [Nat.mul_zero, show stage ram start step 0 = [] from rfl, h.writeBlock_nil]
    rfl
  | succ more ih =>
    have hnext := h.writeBlock (stage ram start step count)
    rw [blocks, block, Nat.mul_succ, Nat.add_comm (count * more), stage_add hstep,
      Gpu.writeBlock_append]
    simp only [if_true]
    generalize gpu.writeBlock (stage ram start step count) = sent at hnext ⊢
    rcases sent with ⟨next, _ | e⟩
    · simp only [ih hnext]
      cases more with
      | zero => rfl
      | succ more =>
        simp only [Nat.succ_ne_zero, if_false, align_addressAt_align hstep]
    · rfl

end Step

/-! ### Channels -/

section Channel

variable {gpu : Gpu} (hgpu : gpu.Handshake) (hfrom : channel.fromRam = true)

include hgpu hfrom

/-- The blocks of a channel send one row of words. -/
theorem several_eq (ram : Ram) (count : Nat) :
    ∃ address, run.several channel ⟨gpu, ram⟩ count =
        (⟨(gpu.writeBlock (wordsAt ram channel.address channel.step
            (channel.blockSize * count))).1, ram⟩, address,
          (gpu.writeBlock (wordsAt ram channel.address channel.step
            (channel.blockSize * count))).2) ∧
      ((gpu.writeBlock (wordsAt ram channel.address channel.step
          (channel.blockSize * count))).2 = none →
        address = some (if count = 0 then channel.address
          else (channel.address + channel.step * UInt32.ofNat (channel.blockSize * count)) &&&
            0x001FFFFC)) := by
  rw [run.several, hfrom, blocks_eq channel.exists_step_eq hgpu, stage_eq_wordsAt,
    Ram.align_eq_and, addressAt]
  rcases gpu.writeBlock (wordsAt ram channel.address channel.step (channel.blockSize * count)) with
    ⟨gpu, _ | e⟩
  · exact ⟨_, rfl, fun _ => rfl⟩
  · exact ⟨none, rfl, fun hok => absurd hok (Option.some_ne_none e)⟩

/-- **A channel sends the words that it is programmed to send**, up to the first that is refused. -/
theorem run_of_sends {words : List Word} {last : Word} (h : Sends ram channel words last) :
    ∃ address, run channel ⟨gpu, ram⟩ =
        (⟨(gpu.writeBlock words).1, ram⟩, address, (gpu.writeBlock words).2) ∧
      ((gpu.writeBlock words).2 = none → address = some last) := by
  cases h with
  | manual hsync =>
    have hone := several_eq hgpu hfrom ram 1
    rw [Nat.mul_one] at hone
    rw [run, hsync]
    exact hone
  | blocks hsync hcount =>
    have hseveral := several_eq hgpu hfrom ram channel.blockCount
    rw [if_neg hcount] at hseveral
    rw [run, hsync]
    exact hseveral
  | noBlocks hsync hcount =>
    have hnone := several_eq hgpu hfrom ram 0
    rw [run, hsync]
    simp only [hcount]
    exact hnone
  | list hsync hends =>
    rw [run_of_endsAt hsync hfrom hends, hgpu.writeBlocks_flatten]
    refine ⟨_, rfl, fun hok => ?_⟩
    rw [hok]
    rfl

end Channel

end Transfer

/-! ### The whole tick -/

namespace Machine

variable {machine : Machine}

/-- The other channel has no part in a tick for which it is not ready. -/
theorem tickDma_of_table_idle (htable : machine.dma.table.isReady = false) :
    machine.tickDma = machine.tickVideo := by
  have hkept := table_tickVideo machine
  rw [tickDma]
  generalize machine.tickVideo = outcome at hkept ⊢
  obtain ⟨machine, _ | e⟩ := outcome
  · have hidle : machine.dma.table.isReady = false := by
      rw [hkept]
      exact htable
    simp only [tickTable, hidle, Bool.false_eq_true, if_false]
  · rfl

theorem video_completeDma (machine : Machine) (number : Nat) :
    (machine.completeDma number).dma.video = machine.dma.video := by
  show (machine.dma.complete number).1.video = machine.dma.video
  rw [Dma.complete]
  split <;> rfl

/-- Flagging the end of a transfer has nothing to do with what was transferred. -/
theorem tickVideo_of_run {ends : Transfer.Ends} {address : Option Word} {e : Option DeviceError}
    (hready : machine.dma.video.isReady = true)
    (hrun : Transfer.run machine.dma.video ⟨machine.gpu, machine.ram⟩ = (ends, address, e)) :
    machine.tickVideo.1.gpu = ends.gpu ∧ machine.tickVideo.1.ram = ends.ram ∧
      machine.tickVideo.2 = e ∧
      machine.tickVideo.1.dma.video.address = address.getD machine.dma.video.address := by
  rw [tickVideo]
  simp only [hready, if_true, hrun]
  cases e with
  | none =>
    refine ⟨rfl, rfl, rfl, ?_⟩
    rw [video_completeDma]
  | some e => exact ⟨rfl, rfl, rfl, rfl⟩

/-- **A transfer from the main memory does what writing its words one by one does**, and meets the
same error.  The memory stays as it was, and where no word was refused, the address register shows
where the transfer stopped. -/
theorem tickDma_sends (hgpu : machine.gpu.Reachable) (hready : machine.dma.video.isReady = true)
    (htable : machine.dma.table.isReady = false) (hfrom : machine.dma.video.fromRam = true)
    (hmode : machine.dma.video.syncMode ≠ .unknown)
    (hlist : machine.dma.video.syncMode = .list → ∃ n, Transfer.isLast (machine.ram.read
      (Transfer.link machine.ram machine.dma.video.listStart n)) = true) :
    ∃ words last, Transfer.Sends machine.ram machine.dma.video words last ∧
      machine.tickDma.1.gpu = (machine.gpu.writeAll words).1 ∧
      machine.tickDma.2 = (machine.gpu.writeAll words).2 ∧
      machine.tickDma.1.ram = machine.ram ∧
      (machine.tickDma.2 = none → machine.tickDma.1.dma.video.address = last) := by
  obtain ⟨words, last, hsends⟩ := Transfer.exists_sends hmode hlist
  obtain ⟨address, hrun, haddress⟩ := Transfer.run_of_sends hgpu.handshake hfrom hsends
  obtain ⟨hends, hram, herror, hregister⟩ := tickVideo_of_run hready hrun
  refine ⟨words, last, hsends, ?_⟩
  rw [tickDma_of_table_idle htable, hgpu.handshake.writeAll_eq_writeBlock]
  refine ⟨hends, herror, hram, fun hok => ?_⟩
  rw [hregister, haddress (herror.symm.trans hok)]
  rfl

/-- A list of one header with two words behind it. -/
theorem tickDma_sends_list :
    let machine : Machine :=
      { powerOn with
        dma := { Dma.powerOn with video := ⟨0x100, 0, 0x01000401⟩ }
        ram := ((Ram.blank.write 0x100 0x02800000).write 0x104 0xE1000005).write 0x108 0xE6000001 }
    machine.gpu.Reachable ∧ machine.dma.video.isReady = true ∧
    machine.dma.table.isReady = false ∧ machine.dma.video.fromRam = true ∧
    machine.dma.video.syncMode ≠ .unknown ∧
    (machine.dma.video.syncMode = .list → ∃ n, Transfer.isLast (machine.ram.read
      (Transfer.link machine.ram machine.dma.video.listStart n)) = true) ∧
    ∃ words last, Transfer.Sends machine.ram machine.dma.video words last ∧
      machine.tickDma.1.gpu = (machine.gpu.writeAll words).1 ∧
      machine.tickDma.2 = (machine.gpu.writeAll words).2 ∧
      machine.tickDma.1.ram = machine.ram ∧
      (machine.tickDma.2 = none → machine.tickDma.1.dma.video.address = last) := by
  intro machine
  have hready : machine.dma.video.isReady = true := by decide
  have htable : machine.dma.table.isReady = false := by decide
  have hfrom : machine.dma.video.fromRam = true := by decide
  have hmode : machine.dma.video.syncMode ≠ .unknown := by decide
  have hlist : machine.dma.video.syncMode = .list → ∃ n, Transfer.isLast (machine.ram.read
      (Transfer.link machine.ram machine.dma.video.listStart n)) = true :=
    fun _ => ⟨0, by decide +kernel⟩
  exact ⟨.powerOn, hready, htable, hfrom, hmode, hlist,
    tickDma_sends .powerOn hready htable hfrom hmode hlist⟩

/-- A transfer of no blocks leaves the address register as it was, even where that is beyond the
memory. -/
theorem not_forall_address_tickDma :
    ¬ ∀ machine : Machine, machine.gpu.Reachable → machine.dma.video.isReady = true →
      machine.dma.table.isReady = false → machine.dma.video.fromRam = true →
      machine.dma.video.syncMode = .blocks → machine.tickDma.2 = none →
      machine.tickDma.1.dma.video.address =
        (machine.dma.video.address + machine.dma.video.step *
          UInt32.ofNat (machine.dma.video.blockSize * machine.dma.video.blockCount)) &&&
          0x001FFFFC := by
  intro h
  let machine : Machine :=
    { powerOn with dma := { Dma.powerOn with video := ⟨0x00200000, 0x10, 0x01000201⟩ } }
  have hmasked := h machine .powerOn (by decide) (by decide) (by decide) (by decide)
    (by decide +kernel)
  exact absurd hmasked (by decide +kernel)

end Machine

end ConsoleVideo
