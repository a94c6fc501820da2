import ConsoleVideo.Proofs.Dma.Fetch
import ConsoleVideo.Proofs.Gpu.RoundTrip

/-!
# Pictures by way of the main memory

Software saves a block of the picture to the main memory and loads it again, to the same place or to
another one.  Neither side of the transfer knows the other: the hardware packs pixels into words and
unpacks them, channel 2 cuts the words into blocks, in either direction, and over the end of the memory.

* `VramRect.pixel?_read` — a block that was packed into words is unpacked as it was;
* `Gpu.writeBlock_download`, `Gpu.writeBlock_upload` — both commands, with a pause before the pixels;
* `Machine.tickDma_fetch`, `Machine.tickDma_send` — both transfers;
* `Machine.tickDma_relay` — a block comes to another place as it was.
-/

namespace ConsoleVideo

/-! ### Packing and unpacking -/

namespace VramRect

variable {rect : VramRect} {i : Nat}

/-- Half a word is the pixel that was packed into it. -/
theorem half_readWord (vram : Vram) (hi : i < rect.pixelCount) :
    ImageLoad.half (rect.readWord vram (i / 2)) i = rect.pixel vram i := by
  apply UInt16.toNat_inj.1
  have hlow := (rect.pixel vram (2 * (i / 2))).toNat_lt
  have hhigh := (rect.pixel vram (2 * (i / 2) + 1)).toNat_lt
  rw [readWord]
  rcases Nat.mod_two_eq_zero_or_one i with heven | hodd
  · have hindex : 2 * (i / 2) = i := by omega
    rw [ImageLoad.toNat_half_low _ heven, UInt32.toNat_ofNat']
    rw [hindex] at hlow ⊢
    split <;> omega
  · have hindex : 2 * (i / 2) + 1 = i := by omega
    rw [ImageLoad.toNat_half_high _ hodd, UInt32.toNat_ofNat', hindex, if_pos hi]
    rw [hindex] at hhigh
    omega

/-- **A block that was packed into words is unpacked as it was.** -/
theorem pixel?_read (vram : Vram) (target : VramRect) (hi : i < rect.pixelCount) :
    (ImageLoad.mk target (rect.read vram).toArray).pixel? i = some (rect.pixel vram i) := by
  have hword : i / 2 < rect.wordCount := by
    rw [wordCount]
    omega
  have hget : (rect.read vram).toArray[i / 2]? = some (rect.readWord vram (i / 2)) := by
    rw [List.getElem?_toArray, read, List.getElem?_map, List.getElem?_range hword]
    rfl
  rw [ImageLoad.pixel?, hget, Option.map_some, half_readWord vram hi]

/-- Counting row by row comes to the pixel of a cell. -/
theorem pixel_cellAt (vram : Vram) {offset : Nat × Nat} (hoffset : offset.1 < rect.width) :
    rect.pixel vram (offset.2 * rect.width + offset.1) =
      vram.native.get (rect.cellAt offset) := by
  have hcolumn : (offset.2 * rect.width + offset.1) % rect.width = offset.1 := by
    rw [Nat.mul_comm, Nat.mul_add_mod, Nat.mod_eq_of_lt hoffset]
  have hrow : (offset.2 * rect.width + offset.1) / rect.width = offset.2 := by
    rw [Nat.mul_comm, Nat.mul_add_div (Nat.zero_lt_of_lt hoffset), Nat.div_eq_of_lt hoffset,
      Nat.add_zero]
  rw [pixel, hcolumn, hrow]
  rfl

theorem index_lt {offset : Nat × Nat} (hoffset : offset ∈ Grid.offsets rect.width rect.height) :
    offset.2 * rect.width + offset.1 < rect.pixelCount := by
  obtain ⟨hcolumn, hrow⟩ := Grid.mem_offsets.1 hoffset
  calc offset.2 * rect.width + offset.1
      < offset.2 * rect.width + rect.width := Nat.add_lt_add_left hcolumn _
    _ = (offset.2 + 1) * rect.width := (Nat.succ_mul _ _).symm
    _ ≤ rect.height * rect.width := Nat.mul_le_mul_right _ hrow
    _ = rect.pixelCount := Nat.mul_comm _ _

/-- No block has more words than half the picture memory has pixels. -/
theorem Fits.wordCount_le (h : rect.Fits) : rect.wordCount ≤ 262144 := by
  have hcount := h.pixelCount_le
  rw [wordCount]
  omega

end VramRect

/-- **A block that is loaded from the words of another one** has the pixels of that, wherever either
lies and whatever was there. -/
theorem ImageLoad.get_draw_read {rect target : VramRect} (htarget : target.Fits)
    (hwidth : target.width = rect.width) (hheight : target.height = rect.height)
    (source vram : Vram) {offset : Nat × Nat}
    (hoffset : offset ∈ Grid.offsets rect.width rect.height) :
    ((ImageLoad.mk target (rect.read source).toArray).draw false false vram).native.get
        (target.cellAt offset) = source.native.get (rect.cellAt offset) := by
  have htaken : offset ∈ Grid.offsets target.width target.height := by
    rw [hwidth, hheight]
    exact hoffset
  have hcell := (ImageLoad.mk target (rect.read source).toArray).both_draw false false htarget vram
    htaken
  rw [written] at hcell
  simp only [hwidth, VramRect.pixel?_read source target (VramRect.index_lt hoffset),
    VramRect.pixel_cellAt source (Grid.mem_offsets.1 hoffset).1] at hcell
  exact congrArg Prod.snd hcell

/-! ### Both commands -/

namespace Gpu

variable {gpu : Gpu}

/-- A block of words is as good as the jobs that the decoder makes of it. -/
theorem writeBlock_of_takeAll (hgpu : gpu.Handshake) {ws : List Word} {last : Decoder}
    {jobs : List Job} {e : Option DeviceError} (h : gpu.decoder.takeAll ws = (last, jobs, e)) :
    gpu.writeBlock ws =
      ((gpu.runAll jobs).withFrontEnd {
        decoder := last
        queue := gpu.queue
        readyCommand := last.isIdle
        dmaRequest := (gpu.runAll jobs).status.wantedDmaRequest }, e) := by
  have hfirst := writeBlock_of_isSettled hgpu.queue ws
  have hsecond := congrArg Prod.snd (gpu.writeBlock_eq ws)
  rw [h] at hfirst hsecond
  exact Prod.ext hfirst hsecond

/-- A download puts the words of its block behind those that wait, and changes nothing else that
drawing goes by. -/
theorem writeBlock_download (hgpu : gpu.Handshake) (hidle : gpu.decoder = .idle)
    {fetch position size : Word}
    (hfetch : Command.ofOpcode? (Command.opcode fetch) = some .download) :
    ∃ asked, gpu.writeBlock [fetch, position, size] = (asked, none) ∧ asked.Handshake ∧
      asked.decoder = .idle ∧ gpu.SameDrawing asked ∧
      asked.readback = gpu.readback ++ (VramRect.ofWords position size).read gpu.vram := by
  have hlookup : Command.lookup fetch = .ok .download := by simp only [Command.lookup, hfetch]
  have htake : gpu.decoder.takeAll [fetch, position, size] =
      (.idle, [.download (VramRect.ofWords position size)], none) := by
    rw [hidle]
    exact Decoder.takeAll_of_pushAll (Decoder.pushAll_command fetch [position, size] hlookup rfl)
  have hrun : gpu.runAll [.download (VramRect.ofWords position size)] =
      { gpu with
        readback := gpu.readback ++ (VramRect.ofWords position size).read gpu.vram
        status := { gpu.status with readySend := true } } := by
    simp only [runAll, List.foldl_cons, List.foldl_nil, run]
  have hblock := writeBlock_of_takeAll hgpu htake
  have hhand := hgpu.writeBlock [fetch, position, size]
  rw [hrun] at hblock
  rw [hblock] at hhand
  refine ⟨_, hblock, hhand, rfl, ⟨rfl, rfl, rfl⟩, ?_⟩
  dsimp only [withFrontEnd]

/-- An upload may pause in front of its pixels. -/
theorem writeBlock_upload (hgpu : gpu.Handshake) (hidle : gpu.decoder = .idle)
    {load position size : Word} {pixels : List Word}
    (hload : Command.ofOpcode? (Command.opcode load) = some .upload)
    (hpixels : pixels.length = (VramRect.ofWords position size).wordCount) :
    ∃ opened done, gpu.writeBlock [load, position, size] = (opened, none) ∧ opened.Handshake ∧
      opened.writeBlock pixels = (done, none) ∧ done.decoder = .idle ∧
      done.readback = gpu.readback ∧
      done.vram = (ImageLoad.mk (VramRect.ofWords position size) pixels.toArray).draw
        gpu.status.setMask gpu.status.checkMask gpu.vram := by
  have htake : gpu.decoder.takeAll ([load, position, size] ++ pixels) =
      (.idle, [.upload ⟨VramRect.ofWords position size, pixels.toArray⟩], none) := by
    rw [hidle]
    exact Decoder.takeAll_upload hload hpixels
  have hrun : gpu.runAll [.upload ⟨VramRect.ofWords position size, pixels.toArray⟩] =
      { gpu with
        vram := (ImageLoad.mk (VramRect.ofWords position size) pixels.toArray).draw
          gpu.status.setMask gpu.status.checkMask gpu.vram } := by
    simp only [runAll, List.foldl_cons, List.foldl_nil, run]
  have hblock := writeBlock_of_takeAll hgpu htake
  have hhand := hgpu.writeBlock [load, position, size]
  rw [hrun, writeBlock_append] at hblock
  generalize gpu.writeBlock [load, position, size] = outcome at hblock hhand
  rcases outcome with ⟨opened, _ | e⟩
  · refine ⟨opened, _, rfl, hhand, hblock, rfl, ?_, ?_⟩
    · dsimp only [withFrontEnd]
    · dsimp only [withFrontEnd]
  · exact absurd (congrArg Prod.snd hblock) (Option.some_ne_none e)

/-- Reading all that waits leaves nothing waiting, and nothing else changed that drawing goes by. -/
theorem readMany_waiting (hgpu : gpu.Handshake) {waiting : List Word}
    (h : gpu.readback = waiting) :
    ∃ last, gpu.readMany waiting.length = (last, waiting.toArray) ∧ last.Handshake ∧
      last.readback = [] ∧ last.decoder = gpu.decoder ∧ gpu.SameDrawing last := by
  obtain ⟨last, hlast, hnone, -⟩ := readOnto_waiting h #[]
  rw [Array.empty_append] at hlast
  have hhand := Handshake.portStable.toTransferStable.readOnto #[] waiting.length hgpu
  have hdecoder := gpu.readMany_kept decoder (fun _ => rfl) waiting.length
  have hdrawing := SameDrawing.readMany gpu waiting.length
  rw [readMany, hlast] at hdecoder hdrawing
  rw [hlast] at hhand
  exact ⟨last, hlast, hhand, hnone, hdecoder, hdrawing⟩

end Gpu

/-! ### Both transfers -/

/-- Two settings of a channel that move the same blocks, first to the main memory and then from
it. -/
structure DmaChannel.IsRelay (there back : DmaChannel) : Prop where
  address : back.address = there.address
  block : back.block = there.block
  backward : back.backward = there.backward
  ready_there : there.isReady = true
  ready_back : back.isReady = true
  syncMode_there : there.syncMode = .blocks
  syncMode_back : back.syncMode = .blocks
  fromRam_there : there.fromRam = false
  fromRam_back : back.fromRam = true

namespace DmaChannel.IsRelay

variable {there back : DmaChannel} (h : there.IsRelay back)

include h

theorem step_eq : back.step = there.step := by
  rw [step, step, h.backward]

theorem words_eq : back.blockSize * back.blockCount = there.blockSize * there.blockCount := by
  rw [blockSize, blockCount, h.block]
  rfl

theorem blockCount_ne_zero (hpos : 0 < there.blockSize * there.blockCount) :
    back.blockCount ≠ 0 := by
  intro hzero
  rw [← h.words_eq, hzero, Nat.mul_zero] at hpos
  exact Nat.lt_irrefl 0 hpos

end DmaChannel.IsRelay

namespace Machine

variable {machine : Machine} (hready : machine.dma.video.isReady = true)
  (htable : machine.dma.table.isReady = false) (hsync : machine.dma.video.syncMode = .blocks)

include hready htable hsync

/-- A transfer to the main memory reads back as many words as its blocks have and stores them in a
row. -/
theorem tickDma_fetch (hto : machine.dma.video.fromRam = false) :
    machine.tickDma.1.gpu = (machine.gpu.readMany
        (machine.dma.video.blockSize * machine.dma.video.blockCount)).1 ∧
      machine.tickDma.1.ram = Transfer.store machine.dma.video.step machine.ram
        machine.dma.video.address (machine.gpu.readMany
          (machine.dma.video.blockSize * machine.dma.video.blockCount)).2.toList ∧
      machine.tickDma.2 = none ∧ machine.tickDma.1.dma.table.isReady = false := by
  obtain ⟨hgpu, hram, herror, -⟩ :=
    tickVideo_of_run hready (Transfer.run_fetch hto hsync machine.gpu machine.ram)
  rw [tickDma_of_table_idle htable, table_tickVideo]
  exact ⟨hgpu, hram, herror, htable⟩

/-- A transfer from the main memory sends the words of its blocks in a row. -/
theorem tickDma_send (hfrom : machine.dma.video.fromRam = true) (hgpu : machine.gpu.Handshake)
    (hcount : machine.dma.video.blockCount ≠ 0) :
    let sent := machine.gpu.writeBlock (Transfer.wordsAt machine.ram machine.dma.video.address
      machine.dma.video.step (machine.dma.video.blockSize * machine.dma.video.blockCount))
    machine.tickDma.1.gpu = sent.1 ∧ machine.tickDma.1.ram = machine.ram ∧
      machine.tickDma.2 = sent.2 := by
  intro sent
  obtain ⟨address, hrun, -⟩ := Transfer.run_of_sends hgpu hfrom (.blocks hsync hcount)
  obtain ⟨hends, hram, herror, -⟩ := tickVideo_of_run hready hrun
  rw [tickDma_of_table_idle htable]
  exact ⟨hends, hram, herror⟩

end Machine

/-! ### There and back -/

namespace Machine

/-- The machine with channel 2 programmed and with what is behind it. -/
def withVideo (machine : Machine) (gpu : Gpu) (channel : DmaChannel) : Machine :=
  { machine with gpu := gpu, dma := { machine.dma with video := channel } }

/-- Words that were asked for are fetched from the hardware, and it is as before. -/
theorem tickDma_download {machine : Machine} {channel : DmaChannel} {fetch position size : Word}
    (hgpu : machine.gpu.Handshake) (hidle : machine.gpu.decoder = .idle)
    (hempty : machine.gpu.readback = []) (htable : machine.dma.table.isReady = false)
    (hfetch : Command.ofOpcode? (Command.opcode fetch) = some .download)
    (hready : channel.isReady = true) (hsync : channel.syncMode = .blocks)
    (hto : channel.fromRam = false)
    (hcount : channel.blockSize * channel.blockCount =
      (VramRect.ofWords position size).wordCount) :
    let asked := machine.gpu.writeAll [fetch, position, size]
    let fetched := (machine.withVideo asked.1 channel).tickDma
    asked.2 = none ∧ fetched.2 = none ∧ fetched.1.dma.table.isReady = false ∧
    fetched.1.ram = Transfer.store channel.step machine.ram channel.address
      ((VramRect.ofWords position size).read machine.gpu.vram) ∧
    fetched.1.gpu.Handshake ∧ fetched.1.gpu.decoder = .idle ∧ fetched.1.gpu.readback = [] ∧
    machine.gpu.SameDrawing fetched.1.gpu := by
  dsimp only
  obtain ⟨asked, hasked, haskedHand, haskedIdle, haskedDrawing, hwaiting⟩ :=
    @Gpu.writeBlock_download machine.gpu hgpu hidle fetch position size hfetch
  rw [hempty, List.nil_append] at hwaiting
  obtain ⟨last, hlast, hlastHand, hlastEmpty, hlastDecoder, hlastDrawing⟩ :=
    Gpu.readMany_waiting haskedHand hwaiting
  rw [VramRect.length_read, ← hcount] at hlast
  obtain ⟨hends, hram, hok, hidleTable⟩ :=
    @tickDma_fetch (machine.withVideo asked channel) hready htable hsync hto
  rw [hgpu.writeAll_eq_writeBlock, hasked]
  refine ⟨rfl, hok, hidleTable, ?_, ?_⟩
  · rw [hram]
    show Transfer.store channel.step machine.ram channel.address
      (asked.readMany (channel.blockSize * channel.blockCount)).2.toList = _
    rw [hlast]
  · have hgpu' : (machine.withVideo asked channel).tickDma.1.gpu = last := by
      rw [hends]
      exact congrArg Prod.fst hlast
    rw [hgpu']
    exact ⟨hlastHand, hlastDecoder.trans haskedIdle, hlastEmpty, haskedDrawing.trans hlastDrawing⟩

/-- Pixels that were announced are sent from the main memory and drawn. -/
theorem tickDma_upload {machine : Machine} {channel : DmaChannel} {load position size : Word}
    {pixels : List Word} (hgpu : machine.gpu.Handshake) (hidle : machine.gpu.decoder = .idle)
    (htable : machine.dma.table.isReady = false)
    (hload : Command.ofOpcode? (Command.opcode load) = some .upload)
    (hready : channel.isReady = true) (hsync : channel.syncMode = .blocks)
    (hfrom : channel.fromRam = true) (hcount : channel.blockCount ≠ 0)
    (hsends : Transfer.wordsAt machine.ram channel.address channel.step
      (channel.blockSize * channel.blockCount) = pixels)
    (hpixels : pixels.length = (VramRect.ofWords position size).wordCount) :
    let opened := machine.gpu.writeAll [load, position, size]
    let sent := (machine.withVideo opened.1 channel).tickDma
    opened.2 = none ∧ sent.2 = none ∧ sent.1.ram = machine.ram ∧ sent.1.gpu.decoder = .idle ∧
    sent.1.gpu.readback = machine.gpu.readback ∧
    sent.1.gpu.vram = (ImageLoad.mk (VramRect.ofWords position size) pixels.toArray).draw
      machine.gpu.status.setMask machine.gpu.status.checkMask machine.gpu.vram := by
  dsimp only
  obtain ⟨opened, done, hopened, hopenedHand, hdone, hdoneIdle, hdoneReadback, hdoneVram⟩ :=
    Gpu.writeBlock_upload hgpu hidle hload hpixels
  obtain ⟨hends, hram, hok⟩ :=
    @tickDma_send (machine.withVideo opened channel) hready htable hsync hfrom hopenedHand hcount
  have hsent : opened.writeBlock (Transfer.wordsAt machine.ram channel.address channel.step
      (channel.blockSize * channel.blockCount)) = (done, none) := by
    rw [hsends]
    exact hdone
  have hgpu' : (machine.withVideo opened channel).tickDma.1.gpu = done :=
    hends.trans (congrArg Prod.fst hsent)
  rw [hgpu.writeAll_eq_writeBlock, hopened]
  refine ⟨rfl, hok.trans (congrArg Prod.snd hsent), hram, ?_⟩
  rw [hgpu']
  exact ⟨hdoneIdle, hdoneReadback, hdoneVram⟩

/-- **A block comes to another place as it was.**  Software asks for the pixels of a block, has
channel 2 fetch them, announces pixels for a block of the same size, and has channel 2 send what it
fetched.  Nothing is refused; the second block then has the pixels that the first one had at the
start, also where they overlap or wrap around the edges; and nothing else has changed in the picture
memory, nor in the main memory outside the words that were addressed, upwards or downwards and over
its end. -/
theorem tickDma_relay {machine : Machine} {there back : DmaChannel}
    {fetch position size load position' size' : Word}
    (hgpu : machine.gpu.Reachable) (hidle : machine.gpu.decoder = .idle)
    (hempty : machine.gpu.readback = []) (hset : machine.gpu.status.setMask = false)
    (hcheck : machine.gpu.status.checkMask = false) (htable : machine.dma.table.isReady = false)
    (hfetch : Command.ofOpcode? (Command.opcode fetch) = some .download)
    (hload : Command.ofOpcode? (Command.opcode load) = some .upload)
    (hwidth : (VramRect.ofWords position' size').width = (VramRect.ofWords position size).width)
    (hheight : (VramRect.ofWords position' size').height = (VramRect.ofWords position size).height)
    (hrelay : there.IsRelay back)
    (hcount : there.blockSize * there.blockCount = (VramRect.ofWords position size).wordCount) :
    let rect := VramRect.ofWords position size
    let target := VramRect.ofWords position' size'
    let asked := machine.gpu.writeAll [fetch, position, size]
    let fetched := (machine.withVideo asked.1 there).tickDma
    let opened := fetched.1.gpu.writeAll [load, position', size']
    let sent := (fetched.1.withVideo opened.1 back).tickDma
    (asked.2 = none ∧ fetched.2 = none ∧ opened.2 = none ∧ sent.2 = none) ∧
    (∀ offset ∈ Grid.offsets rect.width rect.height,
      sent.1.gpu.vram.native.get (target.cellAt offset) =
        machine.gpu.vram.native.get (rect.cellAt offset)) ∧
    (∀ i, ¬ target.Covers i → sent.1.gpu.vram.both i = machine.gpu.vram.both i) ∧
    (∀ address, (∀ k < rect.wordCount,
        Ram.slot address ≠ Ram.slot (there.address + there.step * UInt32.ofNat k)) →
      sent.1.ram.read address = machine.ram.read address) ∧
    sent.1.gpu.decoder = .idle ∧ sent.1.gpu.readback = [] := by
  intro rect target asked fetched opened sent
  have hfits : rect.Fits := VramRect.fits_ofWords position size
  have hlength : (rect.read machine.gpu.vram).length = rect.wordCount :=
    VramRect.length_read rect machine.gpu.vram
  have hsmall : (rect.read machine.gpu.vram).length ≤ 524288 :=
    hlength ▸ Nat.le_trans hfits.wordCount_le (by decide)
  obtain ⟨haskedOk, hfetchedOk, hfetchedTable, hfetchedRam, hfetchedHand, hfetchedIdle,
    hfetchedEmpty, hdrawing⟩ :=
    tickDma_download hgpu.handshake hidle hempty htable hfetch hrelay.ready_there
      hrelay.syncMode_there hrelay.fromRam_there hcount
  have hpos : 0 < there.blockSize * there.blockCount := by
    rw [hcount]
    exact VramRect.wordCount_ofWords_pos position size
  -- What is sent is what was stored.
  have hsends : Transfer.wordsAt fetched.1.ram back.address back.step
      (back.blockSize * back.blockCount) = rect.read machine.gpu.vram := by
    rw [hrelay.words_eq, hcount, hrelay.address, hrelay.step_eq, hfetchedRam]
    exact hlength ▸ Transfer.wordsAt_store there machine.ram there.address hsmall
  have hpixels : (rect.read machine.gpu.vram).length = target.wordCount := by
    rw [hlength, VramRect.wordCount, VramRect.wordCount, VramRect.pixelCount, VramRect.pixelCount,
      hwidth, hheight]
  obtain ⟨hopenedOk, hsentOk, hsentRam, hsentIdle, hsentReadback, hsentVram⟩ :=
    tickDma_upload hfetchedHand hfetchedIdle hfetchedTable hload hrelay.ready_back
      hrelay.syncMode_back hrelay.fromRam_back (hrelay.blockCount_ne_zero hpos) hsends hpixels
  rw [hdrawing.setMask, hdrawing.checkMask, hset, hcheck, hdrawing.vram] at hsentVram
  refine ⟨⟨haskedOk, hfetchedOk, hopenedOk, hsentOk⟩, ?_, ?_, ?_, hsentIdle,
    hsentReadback.trans hfetchedEmpty⟩
  · intro offset hoffset
    rw [hsentVram]
    exact ImageLoad.get_draw_read (VramRect.fits_ofWords position' size') hwidth hheight _ _ hoffset
  · intro i houtside
    rw [hsentVram]
    exact ImageLoad.both_draw_outside _ _ _ _ houtside
  · intro address houtside
    rw [hsentRam, hfetchedRam]
    refine Transfer.read_store_outside _ fun k hk => houtside k ?_
    exact hlength ▸ hk

/-- Three pixels in the last row, around the right edge of the picture memory, moved by one column over
the end of the main memory. -/
theorem tickDma_relay_wrapped :
    let machine : Machine :=
      { powerOn with gpu := Gpu.powerOn.act (.writeBlock [0x020000FF, 0, 0x00010010]) }
    let there : DmaChannel := ⟨0x001FFFFC, 0x00020001, 0x01000200⟩
    let back : DmaChannel := ⟨0x001FFFFC, 0x00020001, 0x01000201⟩
    let fetch : Word := 0xC0000000
    let load : Word := 0xA0000000
    let position : Word := 0x01FF03FF
    let position' : Word := 0x01FF0000
    let size : Word := 0x00010003
    machine.gpu.Reachable ∧ machine.gpu.decoder = .idle ∧ machine.gpu.readback = [] ∧
    machine.gpu.status.setMask = false ∧ machine.gpu.status.checkMask = false ∧
    machine.dma.table.isReady = false ∧
    Command.ofOpcode? (Command.opcode fetch) = some .download ∧
    Command.ofOpcode? (Command.opcode load) = some .upload ∧ there.IsRelay back ∧
    there.blockSize * there.blockCount = (VramRect.ofWords position size).wordCount ∧
    let rect := VramRect.ofWords position size
    let target := VramRect.ofWords position' size
    let asked := machine.gpu.writeAll [fetch, position, size]
    let fetched := (machine.withVideo asked.1 there).tickDma
    let opened := fetched.1.gpu.writeAll [load, position', size]
    let sent := (fetched.1.withVideo opened.1 back).tickDma
    (asked.2 = none ∧ fetched.2 = none ∧ opened.2 = none ∧ sent.2 = none) ∧
    (∀ offset ∈ Grid.offsets rect.width rect.height,
      sent.1.gpu.vram.native.get (target.cellAt offset) =
        machine.gpu.vram.native.get (rect.cellAt offset)) ∧
    (∀ i, ¬ target.Covers i → sent.1.gpu.vram.both i = machine.gpu.vram.both i) ∧
    (∀ address, (∀ k < rect.wordCount,
        Ram.slot address ≠ Ram.slot (there.address + there.step * UInt32.ofNat k)) →
      sent.1.ram.read address = machine.ram.read address) ∧
    sent.1.gpu.decoder = .idle ∧ sent.1.gpu.readback = [] := by
  intro machine there back fetch load position position' size
  have hgpu : machine.gpu.Reachable := .act (.writeBlock [0x020000FF, 0, 0x00010010]) .powerOn
  have hidle : machine.gpu.decoder = .idle := by decide +kernel
  have hempty : machine.gpu.readback = [] := by decide +kernel
  have hset : machine.gpu.status.setMask = false := by decide +kernel
  have hcheck : machine.gpu.status.checkMask = false := by decide +kernel
  have htable : machine.dma.table.isReady = false := by decide
  have hfetch : Command.ofOpcode? (Command.opcode fetch) = some .download := by decide
  have hload : Command.ofOpcode? (Command.opcode load) = some .upload := by decide
  have hrelay : there.IsRelay back :=
    ⟨rfl, rfl, by decide, by decide, by decide, by decide, by decide, by decide, by decide⟩
  have hcount : there.blockSize * there.blockCount = (VramRect.ofWords position size).wordCount := by
    decide
  exact ⟨hgpu, hidle, hempty, hset, hcheck, htable, hfetch, hload, hrelay, hcount,
    tickDma_relay hgpu hidle hempty hset hcheck htable hfetch hload rfl rfl hrelay hcount⟩

end Machine

end ConsoleVideo
