import ConsoleVideo.Snapshot.Basic

/-!
# The format of saved states

Nothing marks where a field of a saved state begins, so the bytes mean something only because
reading goes through the same fields in the same order as writing, and takes each value from exactly
the bytes that are written for it.

* `Takes` — a reader takes exactly what a writer puts; `Takes.bind` puts readers of single fields
  together, so that a record needs one line for each of its fields;
* `takes_registers`, `takes_array`, `takes_snapshot` — the parts of the format and the whole;
* `Snapshot.Fits` — the arrays are short enough for their lengths to be written;
* `put_inj` — no saved state begins like another one;
* `encode_decode_unambiguous` — a saved state and its bytes determine each other.
-/

namespace ConsoleVideo.Snapshot

variable {α β : Type}

/-! ### Readers and writers -/

/-- The reader takes the valid values, each of them from the bytes that `put` writes for it and
from no others, and leaves what comes after them. -/
structure Takes (taker : Taker α) (valid : α → Prop) (put : α → List UInt8 → List UInt8) :
    Prop where
  ok_iff {bytes a rest} : taker bytes = .ok (a, rest) ↔ valid a ∧ put a rest = bytes

theorem bind_eq_ok_iff {first : Taker α} {next : α → Taker β} {bytes rest : List UInt8} {b : β} :
    (first >>= next) bytes = .ok (b, rest) ↔
      ∃ a middle, first bytes = .ok (a, middle) ∧ next a middle = .ok (b, rest) := by
  show (first bytes >>= fun taken => next taken.1 taken.2) = .ok (b, rest) ↔ _
  cases first bytes with
  | error e => simp [bind, Except.bind]
  | ok taken =>
    constructor
    · exact fun h => ⟨taken.1, taken.2, rfl, h⟩
    · rintro ⟨a, middle, htaken, h⟩
      obtain rfl := Except.ok.inj htaken
      exact h

namespace Takes

variable {taker : Taker α} {valid : α → Prop} {put : α → List UInt8 → List UInt8}

/-- At the end of a record every field is known, and nothing more is read. -/
theorem pure {a : α} (hvalid : ∀ b, valid b ↔ b = a) :
    Takes (pure a) valid fun _ rest => rest := by
  refine ⟨fun {bytes b rest} => ?_⟩
  show Except.ok (a, bytes) = Except.ok (b, rest) ↔ valid b ∧ rest = bytes
  rw [hvalid, Except.ok.injEq, Prod.mk.injEq, eq_comm, @eq_comm _ bytes]

/-- **One field after the other.**  A reader for a field of `β`, then a reader for the values of `β`
that have what was read in that field. -/
theorem bind {next : α → Taker β} {validNext : β → Prop} {putNext : β → List UInt8 → List UInt8}
    (h : Takes taker valid put) (field : β → α) (hfield : ∀ b, validNext b → valid (field b))
    (hnext : ∀ a, valid a → Takes (next a) (fun b => validNext b ∧ field b = a) putNext) :
    Takes (taker >>= next) validNext fun b rest => put (field b) (putNext b rest) := by
  refine ⟨fun {bytes b rest} => ?_⟩
  rw [bind_eq_ok_iff]
  constructor
  · rintro ⟨a, middle, hfirst, hrest⟩
    obtain ⟨ha, rfl⟩ := h.ok_iff.1 hfirst
    obtain ⟨⟨hb, rfl⟩, rfl⟩ := (hnext a ha).ok_iff.1 hrest
    exact ⟨hb, rfl⟩
  · rintro ⟨hb, rfl⟩
    exact ⟨field b, putNext b rest, h.ok_iff.2 ⟨hfield b hb, rfl⟩,
      (hnext (field b) (hfield b hb)).ok_iff.2 ⟨⟨hb, rfl⟩, rfl⟩⟩

/-- The same bytes read as another type. -/
theorem map (h : Takes taker valid put) {f : α → β} {g : β → α} (hleft : ∀ b, f (g b) = b)
    (hright : ∀ a, valid a → g (f a) = a) :
    Takes (f <$> taker) (fun b => valid (g b)) fun b rest => put (g b) rest := by
  rw [← bind_pure_comp]
  refine h.bind g (fun b hb => hb) fun a ha => Takes.pure fun b => ?_
  constructor
  · rintro ⟨-, rfl⟩
    exact (hleft b).symm
  · rintro rfl
    rw [hright a ha]
    exact ⟨ha, rfl⟩

theorem of_valid (h : Takes taker valid put) (hvalid : ∀ a, valid a) :
    Takes taker (fun _ => True) put where
  ok_iff := by simp [h.ok_iff, hvalid]

end Takes

/-! ### Numbers and truth values -/

theorem takes_number (width : Nat) :
    Takes (takeNumber width) (· < Nat.pow 256 width) (putNumber width) := by
  refine ⟨fun {bytes n rest} => ?_⟩
  constructor
  · intro h
    exact ⟨(putNumber_of_takeNumber h).2, (putNumber_of_takeNumber h).1.symm⟩
  · rintro ⟨hsmall, rfl⟩
    rw [takeNumber_putNumber, Nat.mod_eq_of_lt hsmall]

theorem takes_word : Takes takeWord (fun _ => True) putWord :=
  ((takes_number 4).map (fun _ => UInt32.ofNat_toNat)
    fun _ hn => UInt32.toNat_ofNat_of_lt' hn).of_valid fun w => w.toNat_lt

theorem takes_native :
    Takes (UInt16.ofNat <$> takeNumber 2) (fun _ => True)
      fun (n : Native) rest => putNumber 2 n.toNat rest :=
  ((takes_number 2).map (fun _ => UInt16.ofNat_toNat)
    fun _ hn => UInt16.toNat_ofNat_of_lt' hn).of_valid fun n => n.toNat_lt

theorem takes_signed : Takes takeSigned (fun _ => True) putSigned :=
  takes_word.map (fun n => Int32.toInt32_toUInt32 n) fun _ _ => rfl

/-- A byte other than 0 and 1 is no truth value. -/
theorem takes_flag : Takes takeFlag (fun _ => True) putFlag := by
  refine (takes_number 1).bind Bool.toNat (fun b _ => by cases b <;> decide) fun n _ => ?_
  match n with
  | 0 => exact Takes.pure fun b => by simp
  | 1 => exact Takes.pure fun b => by simp
  | n + 2 =>
    refine ⟨fun {bytes b rest} => ?_⟩
    constructor
    · nofun
    · rintro ⟨⟨-, h⟩, -⟩
      have := b.toNat_le
      omega

/-! ### Arrays -/

section Arrays

variable {width : Nat} {toNat : α → Nat} {ofNat : Nat → α}

theorem takeElements_succ (count : Nat) (xs : Array α) :
    takeElements width ofNat (count + 1) xs =
      (ofNat <$> takeNumber width) >>= fun a => takeElements width ofNat count (xs.push a) := by
  funext bytes
  rw [map_eq_pure_bind, bind_assoc]
  show takeElements width ofNat (count + 1) xs bytes = (takeNumber width bytes >>= _)
  rw [takeElements]
  cases takeNumber width bytes <;> rfl

theorem putElements_cons (x : α) (xs : List α) (rest : List UInt8) :
    putElements width toNat (x :: xs).toArray rest =
      putNumber width (toNat x) (putElements width toNat xs.toArray rest) := by
  simp [putElements]

variable (helement : Takes (ofNat <$> takeNumber width) (fun _ => True)
  fun a rest => putNumber width (toNat a) rest)

include helement

/-- The elements that are taken come after those that were taken before. -/
theorem takeElements_eq_ok_iff {count : Nat} {xs ys : Array α} {bytes rest : List UInt8} :
    takeElements width ofNat count xs bytes = .ok (ys, rest) ↔
      ∃ zs : List α, zs.length = count ∧ xs ++ zs = ys ∧
        putElements width toNat zs.toArray rest = bytes := by
  induction count generalizing xs bytes with
  | zero =>
    simp only [takeElements, Except.ok.injEq, Prod.mk.injEq, List.length_eq_zero_iff]
    constructor
    · rintro ⟨rfl, rfl⟩
      exact ⟨[], rfl, Array.appendList_nil, rfl⟩
    · rintro ⟨zs, rfl, rfl, rfl⟩
      exact ⟨Array.appendList_nil.symm, rfl⟩
  | succ count ih =>
    rw [takeElements_succ, bind_eq_ok_iff]
    simp only [helement.ok_iff, ih]
    constructor
    · rintro ⟨z, middle, ⟨-, rfl⟩, zs, rfl, rfl, rfl⟩
      exact ⟨z :: zs, rfl, by simp, putElements_cons z zs rest⟩
    · rintro ⟨_ | ⟨z, zs⟩, hlength, rfl, rfl⟩
      · exact Nat.noConfusion hlength
      · exact ⟨z, putElements width toNat zs.toArray rest, ⟨trivial, (putElements_cons z zs rest).symm⟩,
          zs, Nat.succ.inj hlength, by simp, rfl⟩

/-- An array is read as long as its length says. -/
theorem takes_array :
    Takes (takeArray width ofNat) (fun xs => xs.size < Nat.pow 256 8) (putArray width toNat) := by
  refine (takes_number 8).bind Array.size (fun _ hsize => hsize) fun count hcount => ⟨?_⟩
  intro bytes xs rest
  rw [takeElements_eq_ok_iff helement]
  constructor
  · rintro ⟨zs, rfl, rfl, rfl⟩
    simpa using hcount
  · rintro ⟨⟨-, rfl⟩, rfl⟩
    exact ⟨xs.toList, rfl, by simp, rfl⟩

end Arrays

/-! ### Records -/

theorem takes_registers : Takes takeRegisters (fun _ => True) putRegisters := by
  unfold takeRegisters putRegisters
  refine takes_word.bind Registers.status (fun _ _ => trivial) fun status _ => ?_
  refine takes_word.bind Registers.startX (fun _ _ => trivial) fun startX _ => ?_
  refine takes_word.bind Registers.startY (fun _ _ => trivial) fun startY _ => ?_
  refine takes_word.bind Registers.lineStart (fun _ _ => trivial) fun lineStart _ => ?_
  refine takes_word.bind Registers.lineEnd (fun _ _ => trivial) fun lineEnd _ => ?_
  refine takes_word.bind Registers.firstLine (fun _ _ => trivial) fun firstLine _ => ?_
  refine takes_word.bind Registers.endLine (fun _ _ => trivial) fun endLine _ => ?_
  refine takes_signed.bind Registers.left (fun _ _ => trivial) fun left _ => ?_
  refine takes_signed.bind Registers.top (fun _ _ => trivial) fun top _ => ?_
  refine takes_signed.bind Registers.right (fun _ _ => trivial) fun right _ => ?_
  refine takes_signed.bind Registers.bottom (fun _ _ => trivial) fun bottom _ => ?_
  refine takes_signed.bind Registers.offsetX (fun _ _ => trivial) fun offsetX _ => ?_
  refine takes_signed.bind Registers.offsetY (fun _ _ => trivial) fun offsetY _ => ?_
  refine takes_word.bind Registers.window (fun _ _ => trivial) fun window _ => ?_
  refine takes_flag.bind Registers.flipX (fun _ _ => trivial) fun flipX _ => ?_
  refine takes_flag.bind Registers.flipY (fun _ _ => trivial) fun flipY _ => ?_
  refine takes_flag.bind Registers.textureDisableAllowed (fun _ _ => trivial) fun allowed _ => ?_
  -- The cycles are a number of eight bytes first and a word of 64 bits after.
  refine (takes_number 8).bind (fun r : Registers => r.videoCycles.toNat)
    (fun r _ => r.videoCycles.toNat_lt) fun videoCycles hcycles => ?_
  refine takes_word.bind Registers.remainder (fun _ _ => trivial) fun remainder _ => ?_
  refine takes_word.bind Registers.scanline (fun _ _ => trivial) fun scanline _ => ?_
  refine takes_flag.bind Registers.oddField (fun _ _ => trivial) fun oddField _ => ?_
  refine takes_flag.bind Registers.inHBlank (fun _ _ => trivial) fun inHBlank _ => ?_
  refine takes_flag.bind Registers.inVBlank (fun _ _ => trivial) fun inVBlank _ => ?_
  refine takes_word.bind Registers.latch (fun _ _ => trivial) fun latch _ => ?_
  refine Takes.pure fun r => ?_
  have hword (n : UInt64) : n.toNat = videoCycles ↔ n = UInt64.ofNat videoCycles := by
    rw [← UInt64.toNat_inj, UInt64.toNat_ofNat_of_lt' hcycles]
  cases r
  simp only [hword, Registers.mk.injEq, true_and, and_assoc]

/-- The lengths of the arrays can be written in eight bytes. -/
structure Fits (s : Snapshot) : Prop where
  deep : s.deep.size < Nat.pow 2 64
  native : s.native.size < Nat.pow 2 64

/-- The saved state as bytes, before `rest`. -/
def put (s : Snapshot) (rest : List UInt8) : List UInt8 :=
  putArray 4 UInt32.toNat s.deep <|
  putArray 2 UInt16.toNat s.native <|
  putRegisters s.registers <|
  putWord s.table.address <| putWord s.table.block <| putWord s.table.control rest

/-- **Reading a saved state inverts writing it**, whatever follows it. -/
theorem takes_snapshot : Takes take Fits put := by
  unfold take
  refine (takes_array takes_word).bind Snapshot.deep (fun _ hfits => hfits.deep)
    fun deep hdeep => ?_
  refine (takes_array takes_native).bind Snapshot.native (fun _ hfits => hfits.1.native)
    fun native hnative => ?_
  refine takes_registers.bind Snapshot.registers (fun _ _ => trivial) fun registers _ => ?_
  refine takes_word.bind (fun s : Snapshot => s.table.address) (fun _ _ => trivial)
    fun address _ => ?_
  refine takes_word.bind (fun s : Snapshot => s.table.block) (fun _ _ => trivial)
    fun block _ => ?_
  refine takes_word.bind (fun s : Snapshot => s.table.control) (fun _ _ => trivial)
    fun control _ => ?_
  refine Takes.pure fun s => ?_
  constructor
  · rintro ⟨⟨⟨⟨⟨⟨-, rfl⟩, rfl⟩, rfl⟩, rfl⟩, rfl⟩, rfl⟩
    rfl
  · rintro rfl
    exact ⟨⟨⟨⟨⟨⟨⟨hdeep, hnative⟩, rfl⟩, rfl⟩, rfl⟩, rfl⟩, rfl⟩, rfl⟩

/-! ### The whole state -/

variable {s t : Snapshot} {bytes rest more : List UInt8}

theorem decode_eq_ok_iff : decode bytes = .ok s ↔ s.Fits ∧ s.encode = bytes := by
  have hend : decode bytes = .ok s ↔ take bytes = .ok (s, []) := by
    rw [decode]
    show (take bytes >>= _) = _ ↔ _
    cases take bytes with
    | error e => simp [bind, Except.bind]
    | ok taken =>
      obtain ⟨u, rest⟩ := taken
      cases rest with
      | nil => simp [bind, Except.bind, pure, Except.pure]
      | cons b rest => simp [bind, Except.bind, throw, throwThe, MonadExceptOf.throw]
  rw [hend]
  exact takes_snapshot.ok_iff

theorem decode_encode (h : s.Fits) : decode s.encode = .ok s :=
  decode_eq_ok_iff.2 ⟨h, rfl⟩

/-- **No saved state begins like another one.** -/
theorem put_inj (hs : s.Fits) (ht : t.Fits) (h : s.put rest = t.put more) :
    s = t ∧ rest = more := by
  have hfirst : take (t.put more) = .ok (s, rest) := takes_snapshot.ok_iff.2 ⟨hs, h⟩
  have hsecond : take (t.put more) = .ok (t, more) := takes_snapshot.ok_iff.2 ⟨ht, rfl⟩
  rw [hfirst, Except.ok.injEq, Prod.mk.injEq] at hsecond
  exact hsecond

/-- What is written comes before what was there. -/
theorem putNumber_append (width n : Nat) (rest more : List UInt8) :
    putNumber width n (rest ++ more) = putNumber width n rest ++ more := by
  induction width generalizing n with
  | zero => rfl
  | succ width ih => rw [putNumber, putNumber, ih, List.cons_append]

theorem putElements_append (width : Nat) (toNat : α → Nat) (xs : Array α)
    (rest more : List UInt8) :
    putElements width toNat xs (rest ++ more) = putElements width toNat xs rest ++ more := by
  obtain ⟨xs⟩ := xs
  induction xs with
  | nil => rfl
  | cons x xs ih => rw [putElements_cons, putElements_cons, ih, putNumber_append]

theorem put_append (s : Snapshot) (rest more : List UInt8) :
    s.put (rest ++ more) = s.put rest ++ more := by
  simp only [put, putArray, putRegisters, putSigned, putWord, putFlag, putNumber_append,
    putElements_append]

theorem put_eq_append (s : Snapshot) (rest : List UInt8) : s.put rest = s.encode ++ rest :=
  put_append s [] rest

theorem length_putElements (width : Nat) (toNat : α → Nat) (xs : Array α) (rest : List UInt8) :
    (putElements width toNat xs rest).length = width * xs.size + rest.length := by
  obtain ⟨xs⟩ := xs
  induction xs with
  | nil => simp [putElements]
  | cons x xs ih =>
    rw [putElements_cons, length_putNumber, ih]
    simp only [List.size_toArray, List.length_cons, Nat.mul_succ]
    omega

theorem length_encode (s : Snapshot) :
    s.encode.length = 16 + 4 * s.deep.size + 2 * s.native.size + 94 := by
  show (s.put []).length = _
  simp only [put, putArray, putRegisters, putSigned, putWord, putFlag, length_putNumber,
    length_putElements, List.length_nil]
  omega

/-- Bytes that were cut off or went on are no saved state. -/
theorem eq_encode_of_prefix (hs : s.Fits) (ht : decode bytes = .ok t)
    (h : bytes <+: s.encode ∨ s.encode <+: bytes) : bytes = s.encode := by
  obtain ⟨hfits, rfl⟩ := decode_eq_ok_iff.1 ht
  rcases h with ⟨more, hmore⟩ | ⟨more, hmore⟩
  · rw [← put_eq_append] at hmore
    rw [(put_inj hfits hs hmore).1]
  · rw [← put_eq_append] at hmore
    rw [(put_inj hs hfits hmore).1]

/-- **A saved state and its bytes determine each other.**  The bytes of a state have a length that
only depends on the pictures, reading them gives the state back, nothing else is read as this state,
and nothing that is shorter or longer at the end is read as any state. -/
theorem encode_decode_unambiguous (s : Snapshot) :
    s.encode.length = 16 + 4 * s.deep.size + 2 * s.native.size + 94 ∧
      (∀ bytes, decode bytes = .ok s ↔ s.Fits ∧ s.encode = bytes) ∧
      ∀ bytes t, s.Fits → decode bytes = .ok t → bytes <+: s.encode ∨ s.encode <+: bytes →
        bytes = s.encode :=
  ⟨length_encode s, fun _ => decode_eq_ok_iff, fun _ _ hs ht h => eq_encode_of_prefix hs ht h⟩

end ConsoleVideo.Snapshot
