import ConsoleVideo.Proofs.Gpu.Handshake
import ConsoleVideo.Proofs.Snapshot.Loading

/-!
# Flags of loaded states

The status word is saved, what two of its flags speak about is not: the decoder stays that of the
hardware that is loaded into, and the readback queue is emptied.  So a dump that was taken with a
command in progress, or with words that wait to be read back, is loaded with flags that are wrong.

* `Gpu.Truthful` — the flags are true of the hardware;
* `Gpu.Reachable.truthful` — they always are as long as nothing is loaded;
* `Snapshot.truthful_load_iff` — when exactly they are after a load.
-/

namespace ConsoleVideo

/-- Three flags of the status word are true of the hardware that shows them. -/
structure Gpu.Truthful (gpu : Gpu) : Prop where
  /-- Something waits to be read back. -/
  bit27 : gpu.status.word.bit 27 = true ↔ gpu.readback ≠ []
  /-- Commands may be sent. -/
  bit26 : gpu.status.word.bit 26 = true ↔
    gpu.decoder.isIdle = true ∧ gpu.queue.allDeferred = true
  /-- The DMA controller is asked to act. -/
  bit25 : gpu.status.word.bit 25 = gpu.status.wantedDmaRequest

theorem Gpu.Reachable.truthful {gpu : Gpu} (h : gpu.Reachable) : gpu.Truthful := by
  have hhand := h.handshake
  have hbit27 : gpu.status.word.bit 27 = gpu.status.readySend := Status.bit_word gpu.status 27
  have hbit26 : gpu.status.word.bit 26 = gpu.status.readyCommand := Status.bit_word gpu.status 26
  have hbit25 : gpu.status.word.bit 25 = gpu.status.dmaRequest := Status.bit_word gpu.status 25
  constructor
  · rw [hbit27, hhand.readySend, Bool.not_eq_true', List.isEmpty_eq_false_iff]
  · rw [hbit26, hhand.readyCommand]
    exact ⟨fun hidle => ⟨hidle, hhand.queue.allDeferred⟩, fun hready => hready.1⟩
  · rw [hbit25]
    exact hhand.dmaRequest

namespace Snapshot

variable {source target : Gpu}

theorem isFree_resumed (source : Gpu) (htarget : target.IsFree) :
    (resumed source target).IsFree :=
  ⟨htarget.queue, htarget.decoder⟩

/-- The flags were true of the source, so they are true of the loaded hardware as far as it holds
the same. -/
theorem truthful_resumed_iff (hsource : source.Reachable) (htarget : target.IsFree) :
    (resumed source target).Truthful ↔
      source.decoder.isIdle = true ∧ source.readback = [] := by
  have hflags := hsource.truthful
  have hqueue : source.queue.allDeferred = true := hsource.handshake.queue.allDeferred
  have hfree : (resumed source target).queue.allDeferred = true := by
    rw [JobQueue.allDeferred_eq, (isFree_resumed source htarget).queue]
    rfl
  constructor
  · intro h
    constructor
    · have hready : source.status.word.bit 26 = true :=
        h.bit26.2 ⟨(isFree_resumed source htarget).decoder, hfree⟩
      exact (hflags.bit26.1 hready).1
    · cases hreadback : source.readback with
      | nil => rfl
      | cons w ws =>
        have hwaiting : source.readback ≠ [] := by
          rw [hreadback]
          exact List.cons_ne_nil w ws
        exact absurd rfl (h.bit27.1 (hflags.bit27.2 hwaiting))
  · intro ⟨hidle, hnone⟩
    constructor
    · show source.status.word.bit 27 = true ↔ ([] : List Word) ≠ []
      rw [hflags.bit27, hnone]
    · show source.status.word.bit 26 = true ↔ _
      exact ⟨fun _ => ⟨(isFree_resumed source htarget).decoder, hfree⟩,
        fun _ => hflags.bit26.2 ⟨hidle, hqueue⟩⟩
    · exact hflags.bit25

/-- **When exactly the flags of a loaded state are true.**  Every dump can be loaded where no command
is in flight, and leaves no command and no readback word behind; the flags are those of the moment
of the dump, and so they are true if there was no command and no readback word then, either. -/
theorem truthful_load_iff (hsource : source.Reachable) (htarget : target.IsFree)
    (dma other : Dma) :
    ∃ loaded controller, load (dump source dma) target other = .ok (loaded, controller) ∧
      loaded.IsFree ∧ loaded.readback = [] ∧
      (loaded.status.word.bit 27 = true ↔ source.readback ≠ []) ∧
      (loaded.status.word.bit 26 = true ↔ source.decoder.isIdle = true) ∧
      loaded.status.word.bit 25 = loaded.status.wantedDmaRequest ∧
      (loaded.Truthful ↔ source.decoder.isIdle = true ∧ source.readback = []) := by
  have hflags := hsource.truthful
  have hqueue : source.queue.allDeferred = true := hsource.handshake.queue.allDeferred
  refine ⟨resumed source target, _, load_dump htarget, isFree_resumed source htarget, rfl,
    hflags.bit27, ?_, hflags.bit25, truthful_resumed_iff hsource htarget⟩
  exact hflags.bit26.trans ⟨fun hready => hready.1, fun hidle => ⟨hidle, hqueue⟩⟩

/-- A dump that is taken with a readback word waiting and a fill begun. -/
theorem truthful_load_iff_busy :
    let source := Gpu.powerOn.act (.writeBlock [0xC0000000, 0, 0x00010001, 0x02000000])
    source.Reachable ∧ Gpu.powerOn.IsFree ∧
      ∃ loaded controller,
        load (dump source Dma.powerOn) Gpu.powerOn Dma.powerOn = .ok (loaded, controller) ∧
        loaded.IsFree ∧ loaded.readback = [] ∧
        (loaded.status.word.bit 27 = true ↔ source.readback ≠ []) ∧
        (loaded.status.word.bit 26 = true ↔ source.decoder.isIdle = true) ∧
        loaded.status.word.bit 25 = loaded.status.wantedDmaRequest ∧
        (loaded.Truthful ↔ source.decoder.isIdle = true ∧ source.readback = []) :=
  have hsource := Gpu.Reachable.powerOn.act (.writeBlock [0xC0000000, 0, 0x00010001, 0x02000000])
  have htarget : Gpu.powerOn.IsFree := ⟨rfl, rfl⟩
  ⟨hsource, htarget, truthful_load_iff hsource htarget Dma.powerOn Dma.powerOn⟩

/-- Loading does not always leave true flags: what was dumped had a word to be read back and a
command in progress, and what was loaded has neither. -/
theorem not_forall_truthful_load :
    ¬ ∀ (source target loaded : Gpu) (dma other controller : Dma),
      source.Reachable → target.IsFree →
      load (dump source dma) target other = .ok (loaded, controller) → loaded.Truthful := by
  intro hall
  let source := Gpu.powerOn.act (.writeBlock [0xC0000000, 0, 0x00010001, 0x02000000])
  have hsource : source.Reachable := Gpu.Reachable.powerOn.act _
  have htarget : Gpu.powerOn.IsFree := ⟨rfl, rfl⟩
  have htruthful : (resumed source Gpu.powerOn).Truthful :=
    hall source Gpu.powerOn _ Dma.powerOn Dma.powerOn _ hsource htarget (load_dump htarget)
  have hbusy : source.decoder.isIdle = false := by rfl
  have hidle := ((truthful_resumed_iff hsource htarget).1 htruthful).1
  exact Bool.noConfusion (hbusy.symm.trans hidle)

end Snapshot

end ConsoleVideo
