import ConsoleVideo.Proofs.Dma.Table
import ConsoleVideo.Proofs.Gpu.Ranges
import ConsoleVideo.Proofs.Snapshot.Loading

/-!
# Going on from a saved state

Registers are saved in widths that are too narrow for some values and come back through masks, so
that a loaded state is the dumped one only because no history leads to such values.

* `environmentOf_registersOf`, `displayOf_registersOf`, `timingOf_registersOf` — what is in range
  survives being saved;
* `Gpu.Attainable.inRange` — everything is in range, also after loads;
* `resumed_eq_self` — hardware at rest is loaded as it was;
* `Session` — the hardware and the controller together, and what is seen of them;
* `Session.Same`, `Session.Same.run` — what is not saved of the controller does not matter for what
  is seen later;
* `Snapshot.load_dump_resumes` — after a load everything goes on as it would have gone on before.
-/

namespace ConsoleVideo

/-- Nothing is in flight in either direction. -/
structure Gpu.IsAtRest (gpu : Gpu) : Prop extends gpu.IsFree where
  readback : gpu.readback = []

namespace Snapshot

variable {gpu source target : Gpu}

/-! ### Registers -/

theorem toInt_ofInt {n : Int} (hlower : -1024 ≤ n) (hupper : n ≤ 1023) :
    (Int32.ofInt n).toInt = n := by
  apply Int32.toInt_ofInt_of_le
  · omega
  · omega

theorem toInt_ofInt_of_corner {n : Int} (h : 0 ≤ n ∧ n < 1024) : (Int32.ofInt n).toInt = n :=
  toInt_ofInt (Int.le_trans (by decide) h.1) (Int.le_of_lt_add_one h.2)

theorem toNat_ofNat {n : Nat} (h : n < 4096) : (UInt32.ofNat n).toNat = n :=
  UInt32.toNat_ofNat_of_lt' (Nat.lt_of_lt_of_le h (by decide))

theorem environmentOf_registersOf (h : gpu.environment.InRange) :
    environmentOf (registersOf gpu) = gpu.environment := by
  simp only [environmentOf, registersOf, TextureWindow.ofWord_word,
    toInt_ofInt_of_corner h.left, toInt_ofInt_of_corner h.top, toInt_ofInt_of_corner h.right,
    toInt_ofInt_of_corner h.bottom, toInt_ofInt h.offsetX.1 h.offsetX.2,
    toInt_ofInt h.offsetY.1 h.offsetY.2]

theorem displayOf_registersOf (h : gpu.display.InRange) :
    displayOf (registersOf gpu) = gpu.display := by
  simp only [displayOf, registersOf, toNat_ofNat h.startX, toNat_ofNat h.startY,
    toNat_ofNat h.lineStart, toNat_ofNat h.lineEnd, toNat_ofNat h.firstLine, toNat_ofNat h.endLine]

theorem timingOf_registersOf (h : gpu.timing.InRange) :
    timingOf (registersOf gpu) = gpu.timing := by
  have hcycles : (UInt64.ofNat gpu.timing.videoCycles).toNat = gpu.timing.videoCycles :=
    UInt64.toNat_ofNat_of_lt' (Nat.lt_trans h.videoCycles (by decide))
  have hremainder : (UInt32.ofNat gpu.timing.remainder).toNat = gpu.timing.remainder :=
    toNat_ofNat (Nat.lt_trans h.remainder (by decide))
  have hscanline : (UInt32.ofNat gpu.timing.scanline).toNat = gpu.timing.scanline :=
    toNat_ofNat (Nat.lt_trans h.scanline (by decide))
  simp only [timingOf, registersOf, hcycles, hremainder, hscanline]

/-- Of hardware in range everything comes back but what is in flight. -/
theorem resumed_eq (hsource : source.InRange) (target : Gpu) :
    resumed source target =
      { source with decoder := target.decoder, queue := target.queue, readback := [] } := by
  rw [resumed, environmentOf_registersOf hsource.environment, displayOf_registersOf hsource.display,
    timingOf_registersOf hsource.timing]

/-- **Hardware at rest is loaded as it was**, whatever the hardware was like that it is loaded
into. -/
theorem resumed_eq_self (hsource : source.InRange) (hrest : source.IsAtRest)
    (htarget : target.IsFree) : resumed source target = source := by
  have hqueue : target.queue = source.queue :=
    JobQueue.ext_toList (htarget.queue.trans hrest.queue.symm)
  have hdecoder : target.decoder = source.decoder :=
    (Decoder.eq_idle_of_isIdle htarget.decoder).trans
      (Decoder.eq_idle_of_isIdle hrest.decoder).symm
  rw [resumed_eq hsource, hqueue, hdecoder, ← hrest.readback]

theorem inRange_resumed (hsource : source.InRange) (htarget : target.IsFree) :
    (resumed source target).InRange := by
  rw [resumed_eq hsource]
  exact ⟨hsource.environment, hsource.display, hsource.timing, .inl htarget.queue⟩

end Snapshot

theorem Gpu.Attainable.inRange {gpu : Gpu} (h : gpu.Attainable) : gpu.InRange :=
  h.of_stable Gpu.InRange.portStable Gpu.InRange.powerOn Snapshot.inRange_resumed

/-! ### What is seen -/

/-- The registers of the table channel. -/
inductive TableRegister where
  | address
  | block
  | control

/-- The register by its name in the controller. -/
def TableRegister.name : TableRegister → DmaRegister
  | address => .address 6
  | block => .block 6
  | control => .control 6

/-- The hardware and the controller. -/
structure Session where
  gpu : Gpu
  dma : Dma

/-- What software and the devices around do. -/
inductive SessionOp where
  /-- An operation of the hardware.  A tick of the controller finds the table channel as it is and
  the other registers as they are given: these are not saved, and software writes them anew. -/
  | port (op : PortOp)
  /-- The waiting jobs are carried out and the picture is shown. -/
  | present (surface : Surface)
  | put (register : TableRegister) (w : Word)
  | get (register : TableRegister)

/-- What they see of it. -/
inductive Session.Answer where
  | done
  | outcome (e : Option DeviceError)
  | word (w : Word)
  | register (w : Except DeviceError Word)
  | sample (irq : Interrupts) (sample : TimingSample)
  | transfer (dma : Dma) (ram : Ram) (irq : Interrupts) (e : Option DeviceError)
  | shown (surface : Surface)

namespace Session

def act (s : Session) : SessionOp → Session × Answer
  | .port (.write w) => ({ s with gpu := (s.gpu.write w).1 }, .outcome (s.gpu.write w).2)
  | .port (.writeBlock ws) =>
    ({ s with gpu := (s.gpu.writeBlock ws).1 }, .outcome (s.gpu.writeBlock ws).2)
  | .port (.control w) =>
    ({ s with gpu := (s.gpu.writeControl w).1 }, .outcome (s.gpu.writeControl w).2)
  | .port .read => ({ s with gpu := s.gpu.read.1 }, .word s.gpu.read.2)
  | .port (.tick cycles irq) =>
    let (gpu, irq, sample) := s.gpu.tick cycles irq
    ({ s with gpu := gpu }, .sample irq sample)
  | .port .drain => ({ s with gpu := s.gpu.drain }, .done)
  | .port (.dma rest ram irq) =>
    let (machine, e) := Machine.tickDma ⟨s.gpu, { rest with table := s.dma.table }, ram, irq⟩
    (⟨machine.gpu, machine.dma⟩, .transfer machine.dma machine.ram machine.irq e)
  | .present surface =>
    let (gpu, surface) := s.gpu.drainTo surface
    ({ s with gpu := gpu }, .shown (gpu.showOn surface))
  | .put register w =>
    let (dma, e) := s.dma.put register.name w
    ({ s with dma := dma }, .outcome e)
  | .get register => (s, .register (s.dma.get register.name))

/-- What is seen of operations, with the status word after each of them. -/
def run (s : Session) : List SessionOp → Session × List (Answer × Word)
  | [] => (s, [])
  | op :: ops =>
    let (next, answer) := s.act op
    let (last, answers) := next.run ops
    (last, (answer, next.gpu.status.word) :: answers)

/-- The hardware is the same, and so is what is saved of the controller. -/
structure Same (s t : Session) : Prop where
  gpu : s.gpu = t.gpu
  table : s.dma.table = t.dma.table

variable {s t : Session}

/-- What is written to a register of the table channel concerns the channel and nothing else. -/
theorem exists_put (register : TableRegister) (w : Word) :
    ∃ (f : DmaChannel → DmaChannel) (e : Option DeviceError), ∀ dma : Dma,
      dma.put register.name w = ({ dma with table := f dma.table }, e) := by
  cases register with
  | address => exact ⟨fun channel => { channel with address := Dma.addressOf w }, none, fun _ => rfl⟩
  | block => exact ⟨fun channel => { channel with block := w }, none, fun _ => rfl⟩
  | control =>
    by_cases hbits : w &&& ~~~0x51000002 != 0
    · exact ⟨id, some (.readOnlyBits "OTC CHCR" w), fun _ => if_pos hbits⟩
    · exact ⟨fun channel => { channel with control := Dma.tableControl w }, none,
        fun _ => if_neg hbits⟩

theorem exists_get (register : TableRegister) :
    ∃ f : DmaChannel → Word, ∀ dma : Dma, dma.get register.name = .ok (f dma.table) := by
  cases register with
  | address => exact ⟨DmaChannel.address, fun dma => rfl⟩
  | block => exact ⟨DmaChannel.block, fun dma => rfl⟩
  | control => exact ⟨DmaChannel.control, fun dma => rfl⟩

/-- **Nothing tells sessions apart that are the same in what is saved**, and they stay the same. -/
theorem Same.act (h : s.Same t) (op : SessionOp) :
    (s.act op).2 = (t.act op).2 ∧ (s.act op).1.Same (t.act op).1 := by
  obtain ⟨gpu, dma⟩ := s
  obtain ⟨other, controller⟩ := t
  obtain ⟨hgpu, htable⟩ := h
  obtain rfl : gpu = other := hgpu
  replace htable : dma.table = controller.table := htable
  cases op with
  | port op =>
    cases op with
    | dma rest ram irq =>
      -- Of the controller only the table channel goes into a tick, and that is the same.
      simp only [Session.act, htable]
      exact ⟨trivial, rfl, rfl⟩
    | _ => exact ⟨rfl, rfl, htable⟩
  | present surface => exact ⟨rfl, rfl, htable⟩
  | put register w =>
    obtain ⟨f, e, hput⟩ := exists_put register w
    simp only [Session.act, hput]
    exact ⟨trivial, rfl, congrArg f htable⟩
  | get register =>
    obtain ⟨f, hget⟩ := exists_get register
    simp only [Session.act, hget, htable]
    exact ⟨trivial, rfl, htable⟩

theorem Same.run (h : s.Same t) (ops : List SessionOp) :
    (s.run ops).2 = (t.run ops).2 ∧ (s.run ops).1.Same (t.run ops).1 := by
  induction ops generalizing s t with
  | nil => exact ⟨rfl, h⟩
  | cons op ops ih =>
    obtain ⟨hanswer, hnext⟩ := h.act op
    obtain ⟨hanswers, hlast⟩ := ih hnext
    refine ⟨?_, hlast⟩
    show ((s.act op).2, (s.act op).1.gpu.status.word) :: ((s.act op).1.run ops).2 =
      ((t.act op).2, (t.act op).1.gpu.status.word) :: ((t.act op).1.run ops).2
    rw [hanswer, hnext.gpu, hanswers]

/-- Only what is saved is dumped. -/
theorem Same.dump_eq (h : s.Same t) : Snapshot.dump s.gpu s.dma = Snapshot.dump t.gpu t.dma := by
  rw [Snapshot.dump, Snapshot.dump, Snapshot.capture, Snapshot.capture, h.gpu, h.table]

end Session

/-! ### Going on -/

namespace Snapshot

/-- **A dump of hardware at rest brings back all of it.**  Where no command is in flight, loading it
gives the hardware that was dumped and its table channel, which are dumped to the same bytes again;
whatever is done from then on is answered as it would have been before. -/
theorem load_dump_resumes {gpu target : Gpu} {dma : Dma} (hgpu : gpu.Attainable)
    (hdma : dma.Attainable) (hrest : gpu.IsAtRest) (htarget : target.IsFree) (other : Dma) :
    ∃ loaded controller, load (dump gpu dma) target other = .ok (loaded, controller) ∧
      loaded = gpu ∧ controller = { other with table := dma.table } ∧
      dump loaded controller = dump gpu dma ∧
      ∀ ops : List SessionOp,
        (Session.run ⟨loaded, controller⟩ ops).2 = (Session.run ⟨gpu, dma⟩ ops).2 ∧
        (Session.run ⟨loaded, controller⟩ ops).1.Same (Session.run ⟨gpu, dma⟩ ops).1 := by
  have hload : load (dump gpu dma) target other = .ok (resumed gpu target,
      other.restoreTable dma.table.address dma.table.block dma.table.control) :=
    load_dump htarget
  rw [resumed_eq_self hgpu.inRange hrest htarget, Dma.restoreTable_self hdma.canonical other]
    at hload
  have hsame : Session.Same ⟨gpu, { other with table := dma.table }⟩ ⟨gpu, dma⟩ := ⟨rfl, rfl⟩
  exact ⟨gpu, { other with table := dma.table }, hload, rfl, rfl, hsame.dump_eq, hsame.run⟩

/-- A picture is dumped in the middle of a frame and loaded where other settings were made. -/
theorem load_dump_resumes_drawn :
    let gpu := ((Gpu.powerOn.act (.writeBlock [0x02804020, 0, 0x00010010, 0xE5000C03])).act
      (.control 0x05004020)).act (.tick 100000 Interrupts.quiet)
    let dma := (Dma.powerOn.put (.address 6) 0xFF001FFC).1
    let target := Gpu.powerOn.act (.write 0xE6000003)
    gpu.Attainable ∧ dma.Attainable ∧ gpu.IsAtRest ∧ target.IsFree ∧
      ∃ loaded controller, load (dump gpu dma) target Dma.powerOn = .ok (loaded, controller) ∧
        loaded = gpu ∧ controller = { Dma.powerOn with table := dma.table } ∧
        dump loaded controller = dump gpu dma ∧
        ∀ ops : List SessionOp,
          (Session.run ⟨loaded, controller⟩ ops).2 = (Session.run ⟨gpu, dma⟩ ops).2 ∧
          (Session.run ⟨loaded, controller⟩ ops).1.Same (Session.run ⟨gpu, dma⟩ ops).1 :=
  have hgpu := ((Gpu.Attainable.powerOn.act
    (.writeBlock [0x02804020, 0, 0x00010010, 0xE5000C03])).act (.control 0x05004020)).act
    (.tick 100000 Interrupts.quiet)
  have hdma := Dma.Attainable.powerOn.put (.address 6) 0xFF001FFC
  have hrest := ⟨⟨rfl, rfl⟩, rfl⟩
  have htarget := ⟨rfl, rfl⟩
  ⟨hgpu, hdma, hrest, htarget, load_dump_resumes hgpu hdma hrest htarget Dma.powerOn⟩

end Snapshot

end ConsoleVideo
