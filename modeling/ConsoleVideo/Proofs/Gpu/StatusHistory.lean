import ConsoleVideo.Proofs.Gpu.Ports
import ConsoleVideo.Proofs.Gpu.StatusRegister
import ConsoleVideo.Proofs.Snapshot.Steps

/-!
# The history of the status register

Drawing commands, control commands, reads and the beam each assign to some part of the status, and a
load to all of it.  Listed as assignments they say what becomes of the register that the status is
stored in: whatever acts on the hardware and whatever is loaded on the way, it stays canonical, and
the status word is all that is needed to bring it back.

* `Job.statusWrites`, `Control.statusWrites` — what each job and each control command assigns;
* `Gpu.blockWrites`, `Gpu.readWrites`, `Gpu.controlWrites`, `Gpu.tickWrites` — what each operation
  assigns, with an equation for the status after it;
* `Gpu.Visited` — the states that the hardware can come to if any bytes are loaded that are accepted;
* `Gpu.Retains` — the register after a history, with `Retains.stores` and `Gpu.visited_iff`;
* `Gpu.Visited.status_lossless` — the status word loses nothing.
-/

namespace ConsoleVideo

/-! ### What is assigned -/

/-- What a job assigns to the status. -/
def Job.statusWrites (disableAllowed : Bool) : Job → List StatusWrite
  | .polygon shape =>
    match shape.texture with
    | none => []
    | some texture => [.page texture.pageWord disableAllowed]
  | .download _ => [.flag .readySend true]
  | .drawMode value =>
    [.page value disableAllowed, .flag .dither (value.bit 9), .flag .drawToDisplay (value.bit 10)]
  | .maskBits set check => [.flag .setMask set, .flag .checkMask check]
  | .interruptRequest => [.flag .interrupt true]
  | _ => []

/-- What a control command assigns to the status. -/
def Control.statusWrites : Control → List StatusWrite
  | .reset => [.flag .readyCommand true, .word 0x14802000]
  | .resetCommands => [.flag .readyCommand true]
  | .acknowledgeInterrupt => [.flag .interrupt false]
  | .displayDisable disabled => [.flag .displayDisabled disabled]
  | .dmaDirection direction => [.direction direction]
  | .displayMode w =>
    [.columns w, .flag .doubleRows (w.bit 2), .flag .pal (w.bit 3), .flag .deepDisplay (w.bit 4),
      .flag .interlace (w.bit 5), .flag .columns368 (w.bit 6), .flag .reverse (w.bit 7)]
  | _ => []

theorem Status.assignAll_append (s : Status) (writes later : List StatusWrite) :
    s.assignAll (writes ++ later) = (s.assignAll writes).assignAll later :=
  List.foldl_append

namespace Gpu

variable (gpu : Gpu)

/-- What jobs assign to the status. -/
def jobWrites (jobs : List Job) : List StatusWrite :=
  jobs.flatMap (Job.statusWrites gpu.environment.textureDisableAllowed)

/-- What a block of words assigns: the hardware is busy, the jobs are carried out, and it is ready
again if nothing is in progress. -/
def blockWrites (ws : List Word) : List StatusWrite :=
  .flag .readyCommand false ::
    (gpu.jobWrites (gpu.queue.toList ++ (gpu.decoder.takeAll ws).2.1) ++
      if (gpu.writeBlock ws).1.isReady then [.flag .readyCommand true, .request] else [.request])

/-- What reading back assigns. -/
def readWrites : List StatusWrite :=
  if gpu.readback.tail.isEmpty then [.flag .readySend false, .request] else [.request]

/-- What a word for the control register assigns. -/
def controlWrites (w : Word) : List StatusWrite :=
  match Control.ofWord? w with
  | none => []
  | some command => command.statusWrites ++ [.request]

/-- What the beam assigns. -/
def tickWrites (cycles : Nat) : List StatusWrite :=
  let timing := (gpu.timing.advance cycles gpu.status gpu.display).1
  [.flag .oddLine (timing.oddLine gpu.status),
    .flag .interlaceField (!gpu.status.isInterlaced480 || timing.oddField)]

/-! ### The status afterwards -/

theorem status_run (job : Job) :
    (gpu.run job).status =
      gpu.status.assignAll (job.statusWrites gpu.environment.textureDisableAllowed) := by
  cases job with
  | polygon polygon =>
    obtain ⟨first, second, third, fourth, shaded, texture, translucent⟩ := polygon
    cases texture <;> rfl
  | _ => rfl

/-- No job changes what decides about the texture switch. -/
theorem disableAllowed_run (job : Job) :
    (gpu.run job).environment.textureDisableAllowed = gpu.environment.textureDisableAllowed := by
  cases job <;> rfl

theorem status_runAll_eq (jobs : List Job) :
    (gpu.runAll jobs).status = gpu.status.assignAll (gpu.jobWrites jobs) := by
  induction jobs generalizing gpu with
  | nil => rfl
  | cons job jobs ih =>
    show ((gpu.run job).runAll jobs).status = _
    rw [ih, status_run, jobWrites, disableAllowed_run, jobWrites, List.flatMap_cons,
      Status.assignAll_append]

/-- Words that are only taken in assign nothing. -/
theorem status_feed (w : Word) : (gpu.feed w).1.status = gpu.status := by
  rw [feed]
  rcases gpu.decoder.push w with ⟨decoder, e | _ | job⟩ <;> rfl

theorem status_drain : gpu.drain.status = gpu.status.assignAll (gpu.jobWrites gpu.queue.toList) := by
  rw [drain_eq, ← status_runAll_eq]
  rfl

theorem status_drainTo (surface : Surface) :
    (gpu.drainTo surface).1.status = gpu.status.assignAll (gpu.jobWrites gpu.queue.toList) := by
  rw [drainTo_eq, ← status_runAll_eq]
  rfl

/-- **A block assigns to the status** before its jobs, with them and after them. -/
theorem status_writeBlock (ws : List Word) :
    (gpu.writeBlock ws).1.status = gpu.status.assignAll (gpu.blockWrites ws) := by
  have hready : (gpu.writeBlock ws).1.isReady = (gpu.decoder.takeAll ws).1.isIdle := by
    rw [writeBlock_eq, isReady]
    show ((gpu.decoder.takeAll ws).1.isIdle && gpu.queue.deferred.allDeferred) = _
    rw [JobQueue.allDeferred_deferred, Bool.and_true]
  -- The jobs are carried out behind the flag that says busy.
  have hjobs : (gpu.status.assign (.flag .readyCommand false)).assignAll
      (gpu.jobWrites (gpu.queue.toList ++ (gpu.decoder.takeAll ws).2.1)) =
        ((gpu.runAll (gpu.queue.toList ++ (gpu.decoder.takeAll ws).2.1)).withFrontEnd
          { gpu.frontEnd with readyCommand := false }).status := by
    rw [← runAll_withFrontEnd]
    exact (status_runAll_eq (gpu.withFrontEnd { gpu.frontEnd with readyCommand := false }) _).symm
  show _ = (gpu.status.assign (.flag .readyCommand false)).assignAll _
  rw [Status.assignAll_append, hjobs, hready, writeBlock_eq]
  cases hidle : (gpu.decoder.takeAll ws).1.isIdle <;> rfl

theorem status_read : gpu.read.1.status = gpu.status.assignAll gpu.readWrites := by
  have hread : gpu.read.1.status =
      { gpu.status with
        readySend := gpu.status.readySend && !gpu.readback.tail.isEmpty }.refreshDmaRequest := by
    rw [read]
    cases gpu.readback <;> rfl
  rw [hread, readWrites]
  cases gpu.readback.tail.isEmpty with
  | true =>
    rw [Bool.not_true, Bool.and_false]
    rfl
  | false =>
    rw [Bool.not_false, Bool.and_true]
    rfl

theorem status_writeControl (w : Word) :
    (gpu.writeControl w).1.status = gpu.status.assignAll (controlWrites w) := by
  rw [writeControl, controlWrites]
  cases Control.ofWord? w with
  | none => rfl
  | some command =>
    cases command with
    | reset => rfl
    | displayMode w =>
      simp only [control, setDisplayMode, refreshDmaRequest, Control.statusWrites, Status.assignAll,
        List.cons_append, List.nil_append, List.foldl_cons, List.foldl_nil, Status.assign, Status.put]
    | _ => rfl

theorem status_tick (cycles : Nat) (irq : Interrupts) :
    (gpu.tick cycles irq).1.status = gpu.status.assignAll (gpu.tickWrites cycles) :=
  rfl

end Gpu

/-- A load assigns the word that was saved. -/
theorem Snapshot.status_of_load {bytes : List UInt8} {target loaded : Gpu} {dma controller : Dma}
    (h : load bytes target dma = .ok (loaded, controller)) :
    ∃ s, decode bytes = .ok s ∧ loaded.status = Status.ofWord s.registers.status := by
  rw [load] at h
  cases hdecode : decode bytes with
  | error e =>
    rw [hdecode] at h
    cases h
  | ok s =>
    rw [hdecode] at h
    simp only [apply, restore] at h
    refine ⟨s, rfl, ?_⟩
    split at h
    · cases h
    · split at h
      · cases h
      · obtain ⟨rfl, -⟩ := Prod.mk.inj (Except.ok.inj h)
        rfl

/-! ### Histories -/

namespace Gpu

/-- The states that the hardware comes to from the start, whatever acts on it and whichever bytes are
loaded, as long as they are accepted. -/
inductive Visited : Gpu → Prop
  | powerOn : Visited powerOn
  | act {gpu : Gpu} (op : PortOp) : Visited gpu → Visited (gpu.act op)
  | present {gpu : Gpu} (surface : Surface) : Visited gpu → Visited (gpu.drainTo surface).1
  /-- A word that is only taken in, so that its job goes on waiting. -/
  | feed {gpu : Gpu} (w : Word) : Visited gpu → Visited (gpu.feed w).1
  | load {target loaded : Gpu} {dma controller : Dma} (bytes : List UInt8) :
      Visited target → Snapshot.load bytes target dma = .ok (loaded, controller) → Visited loaded

/-- What a history leaves in the register, operation by operation. -/
inductive Retains : Gpu → StatusRegister → Prop
  | powerOn : Retains powerOn (StatusRegister.ofWord 0x14802000)
  | writeBlock {gpu : Gpu} {r : StatusRegister} (ws : List Word) :
      Retains gpu r → Retains (gpu.writeBlock ws).1 (r.assignAll (gpu.blockWrites ws))
  | read {gpu : Gpu} {r : StatusRegister} :
      Retains gpu r → Retains gpu.read.1 (r.assignAll gpu.readWrites)
  | control {gpu : Gpu} {r : StatusRegister} (w : Word) :
      Retains gpu r → Retains (gpu.writeControl w).1 (r.assignAll (controlWrites w))
  | tick {gpu : Gpu} {r : StatusRegister} (cycles : Nat) (irq : Interrupts) :
      Retains gpu r → Retains (gpu.tick cycles irq).1 (r.assignAll (gpu.tickWrites cycles))
  | drain {gpu : Gpu} {r : StatusRegister} :
      Retains gpu r → Retains gpu.drain (r.assignAll (gpu.jobWrites gpu.queue.toList))
  | present {gpu : Gpu} {r : StatusRegister} (surface : Surface) :
      Retains gpu r →
      Retains (gpu.drainTo surface).1 (r.assignAll (gpu.jobWrites gpu.queue.toList))
  | feed {gpu : Gpu} {r : StatusRegister} (w : Word) : Retains gpu r → Retains (gpu.feed w).1 r
  | load {target loaded : Gpu} {dma controller : Dma} {r : StatusRegister} {bytes : List UInt8}
      {s : Snapshot} : Retains target r → Snapshot.decode bytes = .ok s →
      Snapshot.load bytes target dma = .ok (loaded, controller) →
      Retains loaded (r.assign (.word s.registers.status))

/-- The operations that a transfer is made of keep to a history, and so do all others. -/
theorem portStable_retains : PortStable fun gpu => ∃ r, Retains gpu r where
  writeBlock ws h := h.imp' _ fun _ hr => hr.writeBlock ws
  read h := h.imp' _ fun _ hr => hr.read
  writeControl w h := h.imp' _ fun _ hr => hr.control w
  tick cycles irq h := h.imp' _ fun _ hr => hr.tick cycles irq
  drain h := h.imp' _ fun _ hr => hr.drain
  present surface h := h.imp' _ fun _ hr => hr.present surface

variable {gpu : Gpu} {r : StatusRegister}

theorem Retains.visited (h : gpu.Retains r) : gpu.Visited := by
  induction h with
  | powerOn => exact .powerOn
  | writeBlock ws _ ih => exact ih.act (.writeBlock ws)
  | read _ ih => exact ih.act .read
  | control w _ ih => exact ih.act (.control w)
  | tick cycles irq _ ih => exact ih.act (.tick cycles irq)
  | drain _ ih => exact ih.act .drain
  | present surface _ ih => exact ih.present surface
  | feed w _ ih => exact ih.feed w
  | load _ _ hload ih => exact ih.load _ hload

/-- **The states that the hardware comes to are those with a history.** -/
theorem visited_iff : gpu.Visited ↔ ∃ r, gpu.Retains r := by
  constructor
  · intro h
    induction h with
    | powerOn => exact ⟨_, .powerOn⟩
    | act op _ ih => exact portStable_retains.act ih op
    | present surface _ ih => exact portStable_retains.present surface ih
    | feed w _ ih => exact ih.imp fun _ hr => hr.feed w
    | load bytes _ hload ih =>
      obtain ⟨r, hr⟩ := ih
      obtain ⟨s, hdecode, -⟩ := Snapshot.status_of_load hload
      exact ⟨_, hr.load hdecode hload⟩
  · rintro ⟨r, hr⟩
    exact hr.visited

/-- **In every history the register is that of the status.** -/
theorem Retains.stores (h : gpu.Retains r) : r.Stores gpu.status := by
  induction h with
  | powerOn => exact StatusRegister.stores_ofWord 0x14802000
  | writeBlock ws _ ih =>
    rw [status_writeBlock]
    exact ih.assignAll _
  | read _ ih =>
    rw [status_read]
    exact ih.assignAll _
  | control w _ ih =>
    rw [status_writeControl]
    exact ih.assignAll _
  | tick cycles irq _ ih =>
    rw [status_tick]
    exact ih.assignAll _
  | drain _ ih =>
    rw [status_drain]
    exact ih.assignAll _
  | present surface _ ih =>
    rw [status_drainTo]
    exact ih.assignAll _
  | feed w _ ih =>
    rw [status_feed]
    exact ih
  | load _ hdecode hload ih =>
    obtain ⟨s, hs, hstatus⟩ := Snapshot.status_of_load hload
    obtain rfl := Except.ok.inj (hdecode.symm.trans hs)
    rw [hstatus]
    exact ih.assign (.word _)

/-- **The status word loses nothing.**  Every word is the word of what it is read as, and in every
state that the hardware comes to the register is canonical, is what its word is read as, and is the
only one with this word. -/
theorem Visited.status_lossless (h : gpu.Visited) :
    (∀ w, (Status.ofWord w).word = w ∧ (StatusRegister.ofWord w).word = w) ∧
    (∃ r, gpu.Retains r) ∧
    ∀ r, gpu.Retains r →
      r.Canonical ∧ r.word = gpu.status.word ∧ StatusRegister.ofWord r.word = r ∧
      Status.ofWord gpu.status.word = gpu.status ∧
      ∀ (other : Gpu) r', other.Retains r' → r'.word = r.word →
        r' = r ∧ other.status = gpu.status := by
  refine ⟨fun w => ⟨Status.word_ofWord w, StatusRegister.word_ofWord w⟩, visited_iff.1 h, ?_⟩
  intro r hr
  refine ⟨hr.stores.canonical, hr.stores.word_eq, hr.stores.canonical.ofWord_word,
    Status.ofWord_word gpu.status, ?_⟩
  intro other r' hr' hword
  have hsame : other.status = gpu.status := by
    rw [hr'.stores.word_eq, hr.stores.word_eq] at hword
    rw [← Status.ofWord_word other.status, hword, Status.ofWord_word]
  have hstores := hr'.stores
  rw [hsame] at hstores
  exact ⟨hstores.unique hr.stores, hsame⟩

/-- A saved state with every bit of the status set. -/
theorem status_lossless_loaded :
    let s : Snapshot :=
      { Snapshot.capture powerOn Dma.powerOn with
        registers := { Snapshot.registersOf powerOn with status := 0xFFFFFFFF } }
    ∃ loaded controller,
      Snapshot.load s.encode powerOn Dma.powerOn = .ok (loaded, controller) ∧ loaded.Visited ∧
      loaded.status.word = 0xFFFFFFFF ∧
      (∀ w, (Status.ofWord w).word = w ∧ (StatusRegister.ofWord w).word = w) ∧
      (∃ r, loaded.Retains r) ∧
      ∀ r, loaded.Retains r →
        r.Canonical ∧ r.word = loaded.status.word ∧ StatusRegister.ofWord r.word = r ∧
        Status.ofWord loaded.status.word = loaded.status ∧
        ∀ (other : Gpu) r', other.Retains r' → r'.word = r.word →
          r' = r ∧ other.status = loaded.status := by
  intro s
  have hfits := Snapshot.fits_capture powerOn Dma.powerOn
  have hdecode : Snapshot.decode s.encode = .ok s :=
    Snapshot.decode_encode ⟨hfits.deep, hfits.native⟩
  have hok : (Snapshot.load s.encode powerOn Dma.powerOn).isOk = true :=
    (Snapshot.isOk_load_iff _ _ _).2
      ⟨⟨rfl, rfl⟩, s, hdecode, powerOn.vram.deep.size_toArray, powerOn.vram.native.size_toArray⟩
  cases hload : Snapshot.load s.encode powerOn Dma.powerOn with
  | error e =>
    rw [hload] at hok
    exact Bool.noConfusion hok
  | ok outcome =>
    obtain ⟨loaded, controller⟩ := outcome
    obtain ⟨saved, hsaved, hstatus⟩ := Snapshot.status_of_load hload
    obtain rfl : s = saved := Except.ok.inj (hdecode.symm.trans hsaved)
    have hvisited : loaded.Visited := Visited.powerOn.load s.encode hload
    refine ⟨loaded, controller, rfl, hvisited, ?_, hvisited.status_lossless⟩
    rw [hstatus, Status.word_ofWord]

end Gpu

end ConsoleVideo
