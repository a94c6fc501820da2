import ConsoleVideo.Proofs.Snapshot.Resume

/-!
# All or nothing

A load first looks: at the bytes, at what is in flight, at the sizes of the two pictures.  Then it
writes, one field after the other and in two devices.  Nothing is ever left half loaded only because
no step that may refuse comes after one that writes.

* `Loading` — steps taken one after the other; a step that refuses does not take back what was
  written before it;
* `Loading.IsLook`, `Loading.IsWrite`, `Loading.IsAtomic` — steps that write nothing, that refuse
  nothing, and that do not refuse once they have written, with the ways to put them together;
* `loading` — a load as its steps, with `load_eq_outcome`: this is the load that is carried out;
* `load_all_or_nothing` — when a load goes through, and what is left if it does not.
-/

namespace ConsoleVideo.Snapshot

/-! ### Steps -/

/-- Steps on the hardware and the controller that may refuse.  What was written before a refusal
stays written. -/
abbrev Loading (α : Type) := ExceptT Error (StateM Session) α

namespace Loading

variable {α β : Type} {first : Loading α} {next : α → Loading β}

/-- What steps come to, and what they leave. -/
def outcome (steps : Loading α) (session : Session) : Except Error α × Session :=
  (steps.run.run session).run

/-- Steps after others find what these have left, unless these have refused. -/
theorem outcome_bind (first : Loading α) (next : α → Loading β) (session : Session) :
    (first >>= next).outcome session =
      match first.outcome session with
      | (.ok a, left) => (next a).outcome left
      | (.error e, left) => (.error e, left) := by
  show (ExceptT.bindCont next (first.outcome session).1) (first.outcome session).2 = _
  rcases first.outcome session with ⟨_ | _, left⟩
  · rfl
  · rfl

/-- The steps write nothing. -/
def IsLook (steps : Loading α) : Prop :=
  ∀ session, (steps.outcome session).2 = session

/-- The steps refuse nothing. -/
def IsWrite (steps : Loading α) : Prop :=
  ∀ session, ∃ a left, steps.outcome session = (.ok a, left)

/-- Where the steps refuse, they have not written. -/
def IsAtomic (steps : Loading α) : Prop :=
  ∀ session e left, steps.outcome session = (.error e, left) → left = session

/-- Looking first takes nothing away from what comes later. -/
theorem IsLook.bind (h : first.IsLook) (hnext : ∀ a, (next a).IsAtomic) :
    (first >>= next).IsAtomic := by
  intro session e left houtcome
  rw [outcome_bind] at houtcome
  have hsame := h session
  rcases hfirst : first.outcome session with ⟨_ | a, middle⟩
  · rw [hfirst] at houtcome hsame
    exact (Prod.mk.inj houtcome).2.symm.trans hsame
  · rw [hfirst] at houtcome hsame
    obtain rfl : middle = session := hsame
    exact hnext a middle e left houtcome

/-- After the last step that may refuse, anything may be written. -/
theorem IsAtomic.bind (h : first.IsAtomic) (hnext : ∀ a, (next a).IsWrite) :
    (first >>= next).IsAtomic := by
  intro session e left houtcome
  rw [outcome_bind] at houtcome
  rcases hfirst : first.outcome session with ⟨_ | a, middle⟩
  · rw [hfirst] at houtcome
    rw [← (Prod.mk.inj houtcome).2]
    exact h session _ middle hfirst
  · rw [hfirst] at houtcome
    obtain ⟨b, last, hlast⟩ := hnext a middle
    -- The first steps went through, so the refusal would be one of the writes.
    have hcontra : ((.ok b : Except Error β), last) = (.error e, left) := hlast.symm.trans houtcome
    cases hcontra

/-- The writes `changes`, one after the other. -/
def writeAll (changes : List (Session → Session)) : Loading Unit :=
  changes.forM fun change => modify change

theorem outcome_writeAll (changes : List (Session → Session)) (session : Session) :
    (writeAll changes).outcome session =
      (.ok (), changes.foldl (fun session change => change session) session) := by
  induction changes generalizing session with
  | nil => rfl
  | cons change changes ih =>
    show (modify change >>= fun _ => writeAll changes : Loading Unit).outcome session = _
    rw [outcome_bind]
    exact ih (change session)

theorem isWrite_writeAll (changes : List (Session → Session)) : (writeAll changes).IsWrite :=
  fun session => ⟨(), _, outcome_writeAll changes session⟩

end Loading

/-! ### The steps of a load -/

/-- The bytes are read. -/
def parsing (bytes : List UInt8) : Loading Snapshot :=
  match decode bytes with
  | .ok s => pure s
  | .error e => throw (.snapshot e)

/-- It is refused to overwrite commands in flight. -/
def checkFree : Loading Unit := do
  let session ← get
  if 0 < session.gpu.queue.size || !session.gpu.decoder.isIdle then
    throw (.device (.commandsPending session.gpu.queue.size))

/-- The picture memory is replaced as a whole, unless an array is of the wrong size. -/
def replacePicture (deep : Array Deep) (native : Array Native) : Loading Unit :=
  match Vram.ofArrays? deep native with
  | none => throw (.snapshot .pictureSize)
  | some vram => modify fun session => { session with gpu := { session.gpu with vram := vram } }

/-- The fields of the hardware that are written, in the order in which they are. -/
def registerWrites (r : Registers) : List (Gpu → Gpu) := [
  fun gpu => { gpu with status := Status.ofWord r.status },
  fun gpu => { gpu with display := displayOf r },
  fun gpu => { gpu with
    environment := { gpu.environment with area := (environmentOf r).area } },
  fun gpu => { gpu with
    environment := { gpu.environment with offset := (environmentOf r).offset } },
  fun gpu => { gpu with
    environment := { gpu.environment with window := TextureWindow.ofWord r.window } },
  fun gpu => { gpu with
    environment := { gpu.environment with flipX := r.flipX, flipY := r.flipY } },
  fun gpu => { gpu with
    environment := { gpu.environment with
      textureDisableAllowed := r.textureDisableAllowed } },
  fun gpu => { gpu with timing := timingOf r },
  fun gpu => { gpu with readback := [] },
  fun gpu => { gpu with latch := r.latch }]

/-- All that is written once the picture memory is replaced. -/
def writes (s : Snapshot) : List (Session → Session) :=
  (registerWrites s.registers).map (fun write session =>
    { session with gpu := write session.gpu }) ++
  [fun session => { session with
    dma := session.dma.restoreTable s.table.address s.table.block s.table.control }]

/-- A load, step by step. -/
def loading (bytes : List UInt8) : Loading Unit := do
  let s ← parsing bytes
  checkFree
  replacePicture s.deep s.native
  Loading.writeAll (writes s)

theorem outcome_parsing (bytes : List UInt8) (session : Session) :
    (parsing bytes).outcome session =
      match decode bytes with
      | .ok s => (.ok s, session)
      | .error e => (.error (.snapshot e), session) := by
  rw [parsing]
  cases decode bytes with
  | ok s => rfl
  | error e => rfl

theorem outcome_checkFree (session : Session) :
    checkFree.outcome session =
      if 0 < session.gpu.queue.size || !session.gpu.decoder.isIdle then
        (.error (.device (.commandsPending session.gpu.queue.size)), session)
      else (.ok (), session) := by
  show (Loading.outcome (if 0 < session.gpu.queue.size || !session.gpu.decoder.isIdle then
    throw (.device (.commandsPending session.gpu.queue.size)) else pure ()) session) = _
  split
  · rfl
  · rfl

theorem outcome_replacePicture (deep : Array Deep) (native : Array Native) (session : Session) :
    (replacePicture deep native).outcome session =
      match Vram.ofArrays? deep native with
      | none => (.error (.snapshot .pictureSize), session)
      | some vram => (.ok (), { session with gpu := { session.gpu with vram := vram } }) := by
  rw [replacePicture]
  cases Vram.ofArrays? deep native with
  | none => rfl
  | some vram => rfl

/-- **Every step that may refuse comes before every step that writes.** -/
theorem isAtomic_loading (bytes : List UInt8) : (loading bytes).IsAtomic := by
  have hparsing : (parsing bytes).IsLook := by
    intro session
    rw [outcome_parsing]
    cases decode bytes with
    | ok s => rfl
    | error e => rfl
  have hcheck : checkFree.IsLook := by
    intro session
    rw [outcome_checkFree, apply_ite Prod.snd, ite_self]
  have hpicture : ∀ deep native, (replacePicture deep native).IsAtomic := by
    intro deep native session e left houtcome
    rw [outcome_replacePicture] at houtcome
    cases hvram : Vram.ofArrays? deep native with
    | none =>
      rw [hvram] at houtcome
      exact (Prod.mk.inj houtcome).2.symm
    | some vram =>
      rw [hvram] at houtcome
      cases houtcome
  exact hparsing.bind fun s => hcheck.bind fun _ =>
    (hpicture s.deep s.native).bind fun _ => Loading.isWrite_writeAll (writes s)

/-- The steps come to what `load` says. -/
theorem load_eq_outcome (bytes : List UInt8) (session : Session) :
    load bytes session.gpu session.dma =
      match (loading bytes).outcome session with
      | (.ok (), left) => .ok (left.gpu, left.dma)
      | (.error e, _) => .error e := by
  rw [load, loading, Loading.outcome_bind, outcome_parsing]
  cases decode bytes with
  | error e => rfl
  | ok s =>
    show s.apply session.gpu session.dma = _
    simp only [Loading.outcome_bind, outcome_checkFree, apply, restore]
    by_cases hfree : (0 < session.gpu.queue.size || !session.gpu.decoder.isIdle) = true
    · rw [if_pos hfree, if_pos hfree]
      rfl
    · rw [if_neg hfree, if_neg hfree]
      simp only [outcome_replacePicture]
      cases Vram.ofArrays? s.deep s.native with
      | none => rfl
      | some vram =>
        simp only [Loading.outcome_writeAll]
        rfl

/-- A load goes through exactly where nothing is in flight and the bytes are a saved state with two
pictures of the right size. -/
theorem isOk_load_iff (bytes : List UInt8) (gpu : Gpu) (dma : Dma) :
    (load bytes gpu dma).isOk = true ↔
      gpu.IsFree ∧ ∃ s, decode bytes = .ok s ∧
        s.deep.size = Vram.size ∧ s.native.size = Vram.size := by
  rw [load]
  cases hdecode : decode bytes with
  | error e => simp [Except.isOk, Except.toBool]
  | ok s =>
    show (s.apply gpu dma).isOk = true ↔ _
    rw [apply, restore, isFree_iff]
    cases 0 < gpu.queue.size || !gpu.decoder.isIdle with
    | true => simp [Except.map, Except.isOk, Except.toBool]
    | false =>
      have hsize : (Vram.ofArrays? s.deep s.native).isSome ↔ _ := Vram.ofArrays?_isSome
      cases hvram : Vram.ofArrays? s.deep s.native with
      | none =>
        rw [hvram] at hsize
        simp [Except.map, Except.isOk, Except.toBool, ← hsize]
      | some vram =>
        rw [hvram] at hsize
        simp [Except.map, Except.isOk, Except.toBool, ← hsize]

/-- **A load is all or nothing**, on any bytes and in any state of the hardware and the controller.
It goes through exactly where nothing is in flight and the bytes are a saved state with two pictures
of the right size; otherwise it refuses, and its steps leave both devices as they were. -/
theorem load_all_or_nothing (bytes : List UInt8) (session : Session) :
    ((load bytes session.gpu session.dma).isOk = true ↔
      session.gpu.queue.toList = [] ∧ session.gpu.decoder.isIdle = true ∧
        ∃ s, decode bytes = .ok s ∧ s.deep.size = Vram.size ∧ s.native.size = Vram.size) ∧
      match load bytes session.gpu session.dma with
      | .ok (gpu, dma) => (loading bytes).outcome session = (.ok (), ⟨gpu, dma⟩)
      | .error e => (loading bytes).outcome session = (.error e, session) := by
  constructor
  · rw [isOk_load_iff]
    exact ⟨fun ⟨h, hs⟩ => ⟨h.queue, h.decoder, hs⟩, fun ⟨hq, hd, hs⟩ => ⟨⟨hq, hd⟩, hs⟩⟩
  · rw [load_eq_outcome]
    rcases houtcome : (loading bytes).outcome session with ⟨e | _, left⟩
    · rw [isAtomic_loading bytes session e left houtcome]
    · rfl

end ConsoleVideo.Snapshot
