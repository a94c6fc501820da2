import ConsoleVideo.Proofs.Gpu.Ports
import ConsoleVideo.Proofs.Snapshot.Format

/-!
# Loading what was dumped

A dump goes through bytes and through the widths of the format, and is then put over whatever the
hardware held before.  What comes out depends on the hardware that was dumped and, where commands
in flight are concerned, on the hardware that it is loaded into.

* `Gpu.IsFree` — no command is in flight, so that nothing is lost by loading;
* `Snapshot.resumed` — the hardware after a load;
* `Snapshot.load_dump_eq_ok_iff` — a dump is loaded exactly where no command is in flight, and then
  as a whole;
* `Gpu.Attainable` — the states that the hardware can come to if dumps are loaded on the way, with
  `Attainable.of_stable`.
-/

namespace ConsoleVideo

/-- No command is in progress and no job waits. -/
structure Gpu.IsFree (gpu : Gpu) : Prop where
  queue : gpu.queue.toList = []
  decoder : gpu.decoder.isIdle = true

namespace Snapshot

variable {source target loaded : Gpu} {dma other controller : Dma}

theorem fits_capture (gpu : Gpu) (dma : Dma) : (capture gpu dma).Fits where
  deep := by
    have hsize : (capture gpu dma).deep.size = Vram.size := gpu.vram.deep.size_toArray
    rw [hsize]
    decide
  native := by
    have hsize : (capture gpu dma).native.size = Vram.size := gpu.vram.native.size_toArray
    rw [hsize]
    decide

theorem decode_dump (gpu : Gpu) (dma : Dma) : decode (dump gpu dma) = .ok (capture gpu dma) :=
  decode_encode (fits_capture gpu dma)

/-- The hardware of `target` with what a dump of `source` brings back. -/
def resumed (source target : Gpu) : Gpu :=
  { target with
    vram := source.vram
    status := source.status
    environment := environmentOf (registersOf source)
    display := displayOf (registersOf source)
    readback := []
    latch := source.latch
    timing := timingOf (registersOf source) }

/-- The picture memory and the status come back as they were, whatever they are. -/
theorem restore_capture (source target : Gpu) (dma : Dma) :
    (capture source dma).restore target =
      if 0 < target.queue.size || !target.decoder.isIdle then
        .error (.device (.commandsPending target.queue.size))
      else .ok (resumed source target) := by
  have hstatus : Status.ofWord (capture source dma).registers.status = source.status :=
    Status.ofWord_word source.status
  have hvram : Vram.ofArrays? (capture source dma).deep (capture source dma).native =
      some source.vram :=
    Vram.ofArrays?_toArray source.vram
  rw [restore, hvram, hstatus]
  rfl

theorem isFree_iff : target.IsFree ↔ (0 < target.queue.size || !target.decoder.isIdle) = false := by
  rw [Bool.or_eq_false_iff, Bool.not_eq_false', decide_eq_false_iff_not, Nat.not_lt, Nat.le_zero,
    JobQueue.size_eq_length, List.length_eq_zero_iff]
  exact ⟨fun h => ⟨h.queue, h.decoder⟩, fun h => ⟨h.1, h.2⟩⟩

/-- **A dump is loaded exactly where no command is in flight**, and then as a whole. -/
theorem load_dump_eq_ok_iff :
    load (dump source dma) target other = .ok (loaded, controller) ↔
      target.IsFree ∧ loaded = resumed source target ∧
        controller = other.restoreTable dma.table.address dma.table.block dma.table.control := by
  rw [load, decode_dump]
  show (capture source dma).apply target other = _ ↔ _
  rw [apply, restore_capture, isFree_iff]
  cases 0 < target.queue.size || !target.decoder.isIdle with
  | true => simp [Except.map]
  | false =>
    rw [if_neg Bool.false_ne_true]
    show Except.ok (resumed source target, _) = Except.ok (loaded, controller) ↔ _
    rw [Except.ok.injEq, Prod.mk.injEq]
    exact ⟨fun h => ⟨rfl, h.1.symm, h.2.symm⟩, fun h => ⟨h.2.1.symm, h.2.2.symm⟩⟩

theorem load_dump (h : target.IsFree) :
    load (dump source dma) target other =
      .ok (resumed source target,
        other.restoreTable dma.table.address dma.table.block dma.table.control) :=
  load_dump_eq_ok_iff.2 ⟨h, rfl, rfl⟩

end Snapshot

/-! ### Histories with loads -/

/-- The states that the hardware comes to from the start, whatever acts on it and whichever dumps of
such states are loaded. -/
inductive Gpu.Attainable : Gpu → Prop
  | powerOn : Attainable powerOn
  | act {gpu : Gpu} (op : PortOp) : Attainable gpu → Attainable (gpu.act op)
  | present {gpu : Gpu} (surface : Surface) : Attainable gpu → Attainable (gpu.drainTo surface).1
  | load {source target loaded : Gpu} {dma other controller : Dma} :
      Attainable source → Attainable target →
      Snapshot.load (Snapshot.dump source dma) target other = .ok (loaded, controller) →
      Attainable loaded

/-- What every operation keeps and every load takes over holds in all histories with loads. -/
theorem Gpu.Attainable.of_stable {P : Gpu → Prop} (h : PortStable P) (hpowerOn : P Gpu.powerOn)
    (hload : ∀ {source target : Gpu}, P source → target.IsFree →
      P (Snapshot.resumed source target))
    {gpu : Gpu} (hgpu : gpu.Attainable) : P gpu := by
  induction hgpu with
  | powerOn => exact hpowerOn
  | act op _ ih => exact h.act ih op
  | present surface _ ih => exact h.present surface ih
  | load _ _ hok ihsource _ =>
    -- The target only gets this far with no command in flight.
    obtain ⟨htarget, rfl, -⟩ := Snapshot.load_dump_eq_ok_iff.1 hok
    exact hload ihsource htarget

end ConsoleVideo
