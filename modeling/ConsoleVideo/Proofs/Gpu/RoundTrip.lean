import ConsoleVideo.Proofs.Drawing.Images
import ConsoleVideo.Proofs.Gpu.Handshake

/-!
# Images through the ports

An image goes into the picture memory through the command register and comes out of it through the
readback register.

* `Gpu.writeAll_image` — an upload and a download of the same block, word by word;
* `Gpu.readOnto_waiting` — reading as many words as wait;
* `Gpu.image_round_trip` — the words that are read are the words that were written.
-/

namespace ConsoleVideo

namespace Gpu

variable {gpu : Gpu} {load fetch position size : Word} {pixels : List Word}

/-! ### Words in -/

/-- **An upload and a download, word by word**, are carried out with nothing refused. -/
theorem writeAll_image (hgpu : gpu.Handshake) (hidle : gpu.decoder = .idle)
    (hload : Command.ofOpcode? (Command.opcode load) = some .upload)
    (hfetch : Command.ofOpcode? (Command.opcode fetch) = some .download)
    (hpixels : pixels.length = (VramRect.ofWords position size).wordCount) :
    let rect := VramRect.ofWords position size
    let image : ImageLoad := ⟨rect, pixels.toArray⟩
    ∃ written, gpu.writeAll (load :: position :: size :: pixels ++ [fetch, position, size]) =
        (written, none) ∧
      written.vram = image.draw gpu.status.setMask gpu.status.checkMask gpu.vram ∧
      written.readback = gpu.readback ++ rect.read written.vram := by
  intro rect image
  have hlookup : Command.lookup fetch = .ok .download := by simp only [Command.lookup, hfetch]
  have hupload : Decoder.idle.takeAll (load :: position :: size :: pixels) =
      (.idle, [.upload image], none) :=
    Decoder.takeAll_upload hload hpixels
  have hdownload : Decoder.idle.takeAll [fetch, position, size] =
      (.idle, [.download rect], none) :=
    Decoder.takeAll_of_pushAll (Decoder.pushAll_command fetch [position, size] hlookup rfl)
  have htake : gpu.decoder.takeAll (load :: position :: size :: pixels ++ [fetch, position, size]) =
      (.idle, [.upload image, .download rect], none) := by
    rw [hidle, Decoder.takeAll_append, hupload]
    simp only [hdownload]
    rfl
  have hfirst := writeBlock_of_isSettled hgpu.queue
    (load :: position :: size :: pixels ++ [fetch, position, size])
  have hsecond := congrArg Prod.snd (gpu.writeBlock_eq
    (load :: position :: size :: pixels ++ [fetch, position, size]))
  have hrun : gpu.runAll [.upload image, .download rect] =
      { gpu with
        vram := image.draw gpu.status.setMask gpu.status.checkMask gpu.vram
        readback := gpu.readback ++
          rect.read (image.draw gpu.status.setMask gpu.status.checkMask gpu.vram)
        status := { gpu.status with readySend := true } } := by
    simp only [runAll, List.foldl_cons, List.foldl_nil, run]
  rw [htake] at hfirst hsecond
  rw [hrun] at hfirst
  rw [hgpu.writeAll_eq_writeBlock]
  refine ⟨_, Prod.ext hfirst hsecond, ?_, ?_⟩
  · dsimp only
  · dsimp only

/-! ### Words out -/

/-- As many words as wait are read in their order, and nothing waits then. -/
theorem readOnto_waiting {waiting : List Word} (h : gpu.readback = waiting) (words : Array Word) :
    ∃ last, gpu.readOnto words waiting.length = (last, words ++ waiting.toArray) ∧
      last.readback = [] ∧ last.vram = gpu.vram := by
  induction waiting generalizing gpu words with
  | nil => exact ⟨gpu, by simp [readOnto], h, rfl⟩
  | cons w waiting ih =>
    have hread : ∃ next, gpu.read = (next, w) ∧ next.readback = waiting ∧ next.vram = gpu.vram := by
      rw [read, h]
      exact ⟨_, rfl, rfl, rfl⟩
    obtain ⟨next, hnext, hwaiting, hvram⟩ := hread
    obtain ⟨last, hlast, hempty, hkept⟩ := ih hwaiting (words.push w)
    refine ⟨last, ?_, hempty, hkept.trans hvram⟩
    rw [List.length_cons, readOnto, hnext]
    simp only [hlast]
    simp

/-! ### There and back -/

/-- **An image comes back as it was written**, whatever block it is written to.  Where the mask flag
is switched on, every pixel has it; behind an odd last pixel there is nothing; and no other cell of
the picture memory has changed. -/
theorem image_round_trip (hgpu : gpu.Reachable) (hidle : gpu.decoder = .idle)
    (hempty : gpu.readback = []) (hcheck : gpu.status.checkMask = false)
    (hload : Command.ofOpcode? (Command.opcode load) = some .upload)
    (hfetch : Command.ofOpcode? (Command.opcode fetch) = some .download)
    (hpixels : pixels.length = (VramRect.ofWords position size).wordCount) :
    let rect := VramRect.ofWords position size
    ∃ written last,
      gpu.writeAll (load :: position :: size :: pixels ++ [fetch, position, size]) =
        (written, none) ∧
      written.readMany rect.wordCount =
        (last, (ImageLoad.echo gpu.status.setMask rect.pixelCount pixels).toArray) ∧
      last.status.word.bit 27 = false ∧
      ∀ i, ¬ rect.Covers i → last.vram.both i = gpu.vram.both i := by
  intro rect
  obtain ⟨written, hwritten, hvram, hreadback⟩ :=
    writeAll_image hgpu.handshake hidle hload hfetch hpixels
  have hcomplete : (ImageLoad.mk rect pixels.toArray).payload.size = rect.wordCount := hpixels
  have hwaiting : written.readback = ImageLoad.echo gpu.status.setMask rect.pixelCount pixels := by
    rw [hreadback, hempty, List.nil_append, hvram, hcheck]
    exact VramRect.read_draw (VramRect.fits_ofWords position size) _ _ hcomplete
  have hcount : (ImageLoad.echo gpu.status.setMask rect.pixelCount pixels).length =
      rect.wordCount := by
    rw [ImageLoad.echo, List.length_mapIdx, hpixels]
  obtain ⟨last, hlast, hnone, hkept⟩ := readOnto_waiting hwaiting #[]
  rw [hcount, Array.empty_append] at hlast
  have hhand : last.Handshake := by
    have hblock := hgpu.handshake.writeBlock
      (load :: position :: size :: pixels ++ [fetch, position, size])
    rw [← hgpu.handshake.writeAll_eq_writeBlock, hwritten] at hblock
    have hreads := Handshake.portStable.toTransferStable.readOnto #[] rect.wordCount hblock
    rw [hlast] at hreads
    exact hreads
  refine ⟨written, last, hwritten, hlast, ?_, fun i houtside => ?_⟩
  · rw [show last.status.word.bit 27 = last.status.readySend from Status.bit_word last.status 27,
      hhand.readySend, hnone]
    rfl
  · rw [hkept, hvram]
    exact ImageLoad.both_draw_outside _ _ _ _ houtside

/-- Three pixels in the last row that wrap around the right edge of the picture memory, with the mask
flag switched on. -/
theorem image_round_trip_wrapped :
    let gpu := powerOn.act (.write 0xE6000001)
    let load : Word := 0xA0000000
    let fetch : Word := 0xC0000000
    let position : Word := 0x01FF03FF
    let size : Word := 0x00010003
    let pixels : List Word := [0x00020001, 0xFFFF0003]
    let rect := VramRect.ofWords position size
    gpu.Reachable ∧ gpu.decoder = .idle ∧ gpu.readback = [] ∧ gpu.status.checkMask = false ∧
    Command.ofOpcode? (Command.opcode load) = some .upload ∧
    Command.ofOpcode? (Command.opcode fetch) = some .download ∧
    pixels.length = rect.wordCount ∧
    ∃ written last,
      gpu.writeAll (load :: position :: size :: pixels ++ [fetch, position, size]) =
        (written, none) ∧
      written.readMany rect.wordCount =
        (last, (ImageLoad.echo gpu.status.setMask rect.pixelCount pixels).toArray) ∧
      last.status.word.bit 27 = false ∧
      ∀ i, ¬ rect.Covers i → last.vram.both i = gpu.vram.both i := by
  intro gpu load fetch position size pixels rect
  have hgpu : gpu.Reachable := Reachable.powerOn.act (.write 0xE6000001)
  have hidle : gpu.decoder = .idle := by decide +kernel
  have hempty : gpu.readback = [] := by decide +kernel
  have hcheck : gpu.status.checkMask = false := by decide +kernel
  have hload : Command.ofOpcode? (Command.opcode load) = some .upload := by decide
  have hfetch : Command.ofOpcode? (Command.opcode fetch) = some .download := by decide
  have hpixels : pixels.length = rect.wordCount := by decide
  exact ⟨hgpu, hidle, hempty, hcheck, hload, hfetch, hpixels,
    image_round_trip hgpu hidle hempty hcheck hload hfetch hpixels⟩

end Gpu

end ConsoleVideo
