import ConsoleVideo.Proofs.Dma.Registers
import ConsoleVideo.Proofs.Dma.Traffic

/-!
# Transfers that fail

A transfer is refused before its first word because of how the channel is programmed, or stops at a
word that the hardware refuses, or gives up on a list that has no end.  In each of these cases the
memory is as it was before: words that are fetched cannot fail, and words that are sent are only
read.

* `Transfer.blocks_sends` — what sending blocks does, as the blocks that the hardware sees;
* `Transfer.Failure` — the ways a transfer can fail, and what the address register shows after each;
* `Transfer.run_failed` — there are no others;
* `Machine.tickVideo_eq_of_failed` — what the video channel does where its transfer fails;
* `Machine.tickDma_failed` — what a tick that fails leaves as it was.
-/

namespace ConsoleVideo

namespace DmaChannel

/-- Stopping a channel clears bits 24 and 28 of its control word, and no other. -/
theorem bit_control_deactivate (channel : DmaChannel) (k : Nat) :
    channel.deactivate.control.bit k = (channel.control.bit k && k != 24 && k != 28) := by
  have hmask : ∀ j < 32, (~~~0x11000000 : Word).bit j = (j != 24 && j != 28) := by decide
  show (channel.control &&& ~~~0x11000000).bit k = _
  rw [Word.bit_and, Bool.and_assoc]
  by_cases hk : k < 32
  · rw [hmask k hk]
  · rw [Word.bit_of_le _ (Nat.le_of_not_lt hk), Bool.false_and, Bool.false_and]

end DmaChannel

namespace Transfer

/-! ### Sending blocks -/

/-- A block that is sent only reads the memory. -/
theorem block_sends (ends : Ends) (start step : Word) (count : Nat) :
    block ends true start step count =
      (⟨(ends.gpu.writeBlock (stage ends.ram start step count)).1, ends.ram⟩,
        (ends.gpu.writeBlock (stage ends.ram start step count)).2) :=
  rfl

/-- **Blocks that are sent leave the memory as it was**, and only the hardware can refuse them. -/
theorem blocks_sends (step : Word) (count more : Nat) (ends : Ends) (start : Word) :
    (blocks true step count more ends start).1.ram = ends.ram ∧
    ∀ e, (blocks true step count more ends start).2 = .error e →
      ∃ sent, (ends.gpu.writeBlocks sent).2 = some e := by
  induction more generalizing ends start with
  | zero => exact ⟨rfl, fun e he => nomatch he⟩
  | succ more ih =>
    rw [blocks, block_sends]
    cases hsent : ends.gpu.writeBlock (stage ends.ram start step count) with
    | mk gpu refused =>
      cases refused with
      | some e =>
        refine ⟨rfl, fun e' he => ⟨[stage ends.ram start step count], ?_⟩⟩
        rw [Gpu.writeBlocks, hsent]
        exact congrArg some (Except.error.inj he)
      | none =>
        obtain ⟨hram, herror⟩ := ih ⟨gpu, ends.ram⟩ (Ram.align (addressAt start step count))
        refine ⟨hram, fun e he => ?_⟩
        obtain ⟨sent, hrefused⟩ := herror e he
        refine ⟨stage ends.ram start step count :: sent, ?_⟩
        rw [Gpu.writeBlocks, hsent]
        exact hrefused

/-! ### The ways to fail -/

/-- How the transfer of a channel can fail, with the error and what the address register shows
afterwards, where that changes. -/
inductive Failure (channel : DmaChannel) (ends : Ends) : DeviceError → Option Word → Prop
  /-- The hardware refuses a word of one of the blocks that it was sent. -/
  | refused {e : DeviceError} {sent : List (List Word)} :
      channel.fromRam = true → (ends.gpu.writeBlocks sent).2 = some e → Failure channel ends e none
  | towardsRam : channel.syncMode = .list → channel.fromRam = false →
      Failure channel ends (.dma .listTowardsRam) none
  | unknownMode : channel.syncMode = .unknown →
      Failure channel ends (.unsupported (.syncMode 3)) none
  /-- The register shows where the links ran out. -/
  | endless : channel.syncMode = .list → channel.fromRam = true →
      (∀ n, isLast (ends.ram.read (link ends.ram channel.listStart n)) = false) →
      Failure channel ends (.dma (.endlessList channel.listStart))
        (some (link ends.ram channel.listStart Ram.size))

/-- Only giving up on a list changes the address register. -/
theorem Failure.address_eq_none {channel : DmaChannel} {ends : Ends} {e : DeviceError}
    {address : Option Word} (h : Failure channel ends e address)
    (he : ∀ start, e ≠ .dma (.endlessList start)) : address = none := by
  cases h with
  | refused => rfl
  | towardsRam => rfl
  | unknownMode => rfl
  | endless => exact absurd rfl (he channel.listStart)

variable {channel : DmaChannel} {ends after : Ends} {address : Option Word} {e : DeviceError}

/-- Blocks fail where one of them is refused. -/
theorem several_failed {count : Nat} (h : run.several channel ends count = (after, address, some e)) :
    after.ram = ends.ram ∧ Failure channel ends e address := by
  cases hfrom : channel.fromRam with
  | false =>
    rw [several_fetch hfrom ends.gpu ends.ram count] at h
    cases h
  | true =>
    obtain ⟨hram, herror⟩ :=
      blocks_sends channel.step channel.blockSize count ends channel.address
    rw [run.several, hfrom] at h
    generalize blocks true channel.step channel.blockSize count ends channel.address = moved
      at h hram herror
    obtain ⟨moved, e' | last⟩ := moved
    · cases h
      obtain ⟨sent, hrefused⟩ := herror e rfl
      exact ⟨hram, .refused hfrom hrefused⟩
    · cases h

/-- A list fails where a word behind its headers is refused, or because it has no end. -/
theorem list_failed (hlist : channel.syncMode = .list) (hfrom : channel.fromRam = true)
    (h : run channel ends = (after, address, some e)) :
    after.ram = ends.ram ∧ Failure channel ends e address := by
  by_cases hends : ∃ n, isLast (ends.ram.read (link ends.ram channel.listStart n)) = true
  · obtain ⟨n, hn⟩ := exists_endsAt hends
    rw [run_of_endsAt hlist hfrom hn] at h
    cases hsent : ends.gpu.writeBlocks (payloads ends.ram channel.listStart (n + 1)) with
    | mk gpu refused =>
      rw [hsent] at h
      cases refused with
      | none => cases h
      | some e' =>
        cases h
        exact ⟨rfl, .refused hfrom (congrArg Prod.snd hsent)⟩
  · have hgoesOn : ∀ n, isLast (ends.ram.read (link ends.ram channel.listStart n)) = false :=
      fun n => Bool.eq_false_iff.2 fun hlast => hends ⟨n, hlast⟩
    rw [run_of_list hlist hfrom, chase_of_endless fun m _ => hgoesOn m] at h
    cases hsent : ends.gpu.writeBlocks (payloads ends.ram channel.listStart Ram.size) with
    | mk gpu refused =>
      rw [hsent] at h
      cases refused with
      | none =>
        cases h
        exact ⟨rfl, .endless hlist hfrom hgoesOn⟩
      | some e' =>
        cases h
        exact ⟨rfl, .refused hfrom (congrArg Prod.snd hsent)⟩

/-- **A transfer that fails does so in one of these ways**, and leaves the memory as it was. -/
theorem run_failed (h : run channel ends = (after, address, some e)) :
    after.ram = ends.ram ∧ Failure channel ends e address := by
  cases hsync : channel.syncMode with
  | manual =>
    rw [run, hsync] at h
    exact several_failed h
  | blocks =>
    rw [run, hsync] at h
    exact several_failed h
  | list =>
    cases hfrom : channel.fromRam with
    | false =>
      rw [run_of_list_towardsRam hsync hfrom] at h
      cases h
      exact ⟨rfl, .towardsRam hsync hfrom⟩
    | true => exact list_failed hsync hfrom h
  | unknown =>
    rw [run, hsync] at h
    cases h
    exact ⟨rfl, .unknownMode hsync⟩

end Transfer

/-! ### The tick -/

namespace Machine

variable {machine : Machine} {e : DeviceError}

/-- **The video channel fails with its transfer.**  It is stopped, and nothing is flagged. -/
theorem tickVideo_eq_of_failed (h : machine.tickVideo.2 = some e) :
    ∃ gpu address,
      Transfer.Failure machine.dma.video ⟨machine.gpu, machine.ram⟩ e address ∧
      machine.tickVideo.1 =
        { machine with
          gpu := gpu
          dma := { machine.dma with
            video := { machine.dma.video.deactivate with
              address := address.getD machine.dma.video.address } } } := by
  rw [tickVideo] at h ⊢
  simp only at h ⊢
  split at h
  · next hready =>
    rw [if_pos hready]
    cases hrun : Transfer.run machine.dma.video ⟨machine.gpu, machine.ram⟩ with
    | mk after rest =>
      obtain ⟨address, failed⟩ := rest
      rw [hrun] at h
      cases failed with
      | none => cases h
      | some e' =>
        obtain rfl : e' = e := Option.some.inj h
        obtain ⟨hram, hfailure⟩ := Transfer.run_failed hrun
        obtain ⟨gpu, ram⟩ := after
        obtain rfl : ram = machine.ram := hram
        exact ⟨gpu, address, hfailure, rfl⟩
  · cases h

/-- A tick that fails does so in the video channel, and does not get to the table channel. -/
theorem tickDma_of_failed (h : machine.tickDma.2 = some e) :
    machine.tickDma = machine.tickVideo ∧ machine.tickVideo.2 = some e := by
  rw [tickDma] at h ⊢
  generalize machine.tickVideo = outcome at h ⊢
  obtain ⟨after, _ | e'⟩ := outcome
  · cases h
  · exact ⟨rfl, h⟩

/-- **A tick that fails changes the hardware and the video channel only.**  Of the control word of
that channel the busy and the trigger bit are cleared and no other, and its address register is left
alone unless the controller gave up on a list. -/
theorem tickDma_failed (h : machine.tickDma.2 = some e) :
    machine.tickDma.1.ram = machine.ram ∧
    machine.tickDma.1.irq.status = machine.irq.status ∧
    machine.tickDma.1.irq.mask = machine.irq.mask ∧
    machine.tickDma.1.dma.priority = machine.dma.priority ∧
    machine.tickDma.1.dma.interrupt = machine.dma.interrupt ∧
    machine.tickDma.1.dma.table = machine.dma.table ∧
    machine.tickDma.1.dma.video.block = machine.dma.video.block ∧
    (∀ k, machine.tickDma.1.dma.video.control.bit k =
      (machine.dma.video.control.bit k && k != 24 && k != 28)) ∧
    ((∀ start, e ≠ .dma (.endlessList start)) →
      machine.tickDma.1.dma.video.address = machine.dma.video.address) := by
  obtain ⟨htick, hvideo⟩ := tickDma_of_failed h
  obtain ⟨gpu, address, hfailure, hafter⟩ := tickVideo_eq_of_failed hvideo
  rw [htick, hafter]
  refine ⟨rfl, rfl, rfl, rfl, rfl, rfl, rfl, machine.dma.video.bit_control_deactivate, ?_⟩
  intro he
  rw [hfailure.address_eq_none he]
  rfl

/-- The second header of the list has a word behind it that means nothing; the table channel is
ready too, and every interrupt is enabled. -/
theorem tickDma_failed_second_link :
    let machine : Machine :=
      { Machine.powerOn with
        ram := ((Ram.blank.write 0 0x00000010).write 0x10 0x01800000).write 0x14 0xE7000000
        dma := { Dma.powerOn with
          video := ⟨0, 0x00020003, 0x11000401⟩
          table := ⟨0x40, 4, 0x11000002⟩
          interrupt := 0x00FF0000 } }
    machine.tickDma.2 = some (.unknownCommand 0xE7000000) ∧
    machine.tickDma.1.ram = machine.ram ∧
    machine.tickDma.1.irq.status = machine.irq.status ∧
    machine.tickDma.1.irq.mask = machine.irq.mask ∧
    machine.tickDma.1.dma.priority = machine.dma.priority ∧
    machine.tickDma.1.dma.interrupt = machine.dma.interrupt ∧
    machine.tickDma.1.dma.table = machine.dma.table ∧
    machine.tickDma.1.dma.video.block = machine.dma.video.block ∧
    (∀ k, machine.tickDma.1.dma.video.control.bit k =
      (machine.dma.video.control.bit k && k != 24 && k != 28)) ∧
    machine.tickDma.1.dma.video.address = machine.dma.video.address := by
  intro machine
  have hfails : machine.tickDma.2 = some (.unknownCommand 0xE7000000) := by decide +kernel
  obtain ⟨hram, hstatus, hmask, hpriority, hinterrupt, htable, hblock, hcontrol, haddress⟩ :=
    tickDma_failed hfails
  exact ⟨hfails, hram, hstatus, hmask, hpriority, hinterrupt, htable, hblock, hcontrol,
    haddress fun _ => DeviceError.noConfusion⟩

end Machine

end ConsoleVideo
