import ConsoleVideo.Proofs.Command.Frame
import ConsoleVideo.Proofs.Dma.Registers
import ConsoleVideo.Status

/-!
# The status register as it is stored

The status word is put together from a register that has more room than 32 bits: twenty flags at
their places in a whole word, and beside them numbers of which only the low bits count.  Two
registers could hence show the same word, and a word that is saved could come back as another
register.  That does not happen as long as the register is canonical: it then is what its own word is
read as.

* `StatusFlag`, `StatusRegister` — the register, with `StatusRegister.word` and
  `StatusRegister.ofWord`;
* `StatusRegister.word_ofWord` — the fields and the flags tile the word;
* `StatusRegister.Stores` — the register of a status, which is canonical and the only one;
* `StatusWrite` — what the hardware assigns to its status;
* `StatusRegister.Stores.assign` — an assignment keeps the register that of its status.
-/

namespace ConsoleVideo

/-! ### Flags -/

/-- The single bits of the status. -/
inductive StatusFlag where
  | pageY
  | dither
  | drawToDisplay
  | setMask
  | checkMask
  | interlaceField
  | reverse
  | textureDisable
  | columns368
  | doubleRows
  | pal
  | deepDisplay
  | interlace
  | displayDisabled
  | interrupt
  | dmaRequest
  | readyCommand
  | readySend
  | readyBlock
  | oddLine
  deriving DecidableEq

namespace StatusFlag

/-- Where the flag is in the status word. -/
def position : StatusFlag → Nat
  | pageY => 4
  | dither => 9
  | drawToDisplay => 10
  | setMask => 11
  | checkMask => 12
  | interlaceField => 13
  | reverse => 14
  | textureDisable => 15
  | columns368 => 16
  | doubleRows => 19
  | pal => 20
  | deepDisplay => 21
  | interlace => 22
  | displayDisabled => 23
  | interrupt => 24
  | dmaRequest => 25
  | readyCommand => 26
  | readySend => 27
  | readyBlock => 28
  | oddLine => 31

/-- The word with this flag alone. -/
def mask (flag : StatusFlag) : Word :=
  1 <<< UInt32.ofNat flag.position

/-- Every flag, from the lowest upwards. -/
def list : List StatusFlag :=
  [pageY, dither, drawToDisplay, setMask, checkMask, interlaceField, reverse, textureDisable,
    columns368, doubleRows, pal, deepDisplay, interlace, displayDisabled, interrupt, dmaRequest,
    readyCommand, readySend, readyBlock, oddLine]

/-- The word with every flag. -/
def all : Word :=
  list.foldl (fun w flag => w ||| flag.mask) 0

theorem position_lt (flag : StatusFlag) : flag.position < 32 := by
  cases flag <;> decide

theorem position_inj {flag other : StatusFlag} (h : flag.position = other.position) :
    flag = other := by
  cases flag <;> cases other <;> first | rfl | exact absurd h (by decide)

theorem bit_mask (flag : StatusFlag) {k : Nat} (hk : k < 32) :
    flag.mask.bit k = decide (k = flag.position) := by
  have hmask : ∀ j < 32, flag.mask.bit j = decide (j = flag.position) := by
    cases flag <;> decide
  exact hmask k hk

/-- The mask of them all has nothing but flags. -/
theorem bit_all_iff {k : Nat} (hk : k < 32) :
    all.bit k = true ↔ ∃ flag : StatusFlag, flag.position = k := by
  have hany : ∀ j < 32, all.bit j = list.any fun flag => flag.position == j := by decide
  constructor
  · intro hbit
    rw [hany k hk] at hbit
    obtain ⟨flag, -, hflag⟩ := List.any_eq_true.1 hbit
    exact ⟨flag, eq_of_beq hflag⟩
  · rintro ⟨flag, rfl⟩
    cases flag <;> decide

theorem mask_and_all (flag : StatusFlag) : flag.mask &&& all = flag.mask := by
  cases flag <;> decide

end StatusFlag

/-! ### Single bits of a status -/

namespace Status

/-- A flag of the status. -/
def flag (s : Status) : StatusFlag → Bool
  | .pageY => s.pageY
  | .dither => s.dither
  | .drawToDisplay => s.drawToDisplay
  | .setMask => s.setMask
  | .checkMask => s.checkMask
  | .interlaceField => s.interlaceField
  | .reverse => s.reverse
  | .textureDisable => s.textureDisable
  | .columns368 => s.columns368
  | .doubleRows => s.doubleRows
  | .pal => s.pal
  | .deepDisplay => s.deepDisplay
  | .interlace => s.interlace
  | .displayDisabled => s.displayDisabled
  | .interrupt => s.interrupt
  | .dmaRequest => s.dmaRequest
  | .readyCommand => s.readyCommand
  | .readySend => s.readySend
  | .readyBlock => s.readyBlock
  | .oddLine => s.oddLine

/-- The status with a flag set or cleared. -/
def put (s : Status) (flag : StatusFlag) (on : Bool) : Status :=
  match flag with
  | .pageY => { s with pageY := on }
  | .dither => { s with dither := on }
  | .drawToDisplay => { s with drawToDisplay := on }
  | .setMask => { s with setMask := on }
  | .checkMask => { s with checkMask := on }
  | .interlaceField => { s with interlaceField := on }
  | .reverse => { s with reverse := on }
  | .textureDisable => { s with textureDisable := on }
  | .columns368 => { s with columns368 := on }
  | .doubleRows => { s with doubleRows := on }
  | .pal => { s with pal := on }
  | .deepDisplay => { s with deepDisplay := on }
  | .interlace => { s with interlace := on }
  | .displayDisabled => { s with displayDisabled := on }
  | .interrupt => { s with interrupt := on }
  | .dmaRequest => { s with dmaRequest := on }
  | .readyCommand => { s with readyCommand := on }
  | .readySend => { s with readySend := on }
  | .readyBlock => { s with readyBlock := on }
  | .oddLine => { s with oddLine := on }

theorem flag_put (s : Status) (flag other : StatusFlag) (on : Bool) :
    (s.put flag on).flag other = if other = flag then on else s.flag other := by
  cases flag <;> cases other <;> rfl

theorem flag_ofWord (w : Word) (flag : StatusFlag) :
    (ofWord w).flag flag = w.bit flag.position := by
  cases flag <;> rfl

/-- A status is its flags and its five numbers. -/
theorem ext_flag {s t : Status} (hflag : ∀ flag, s.flag flag = t.flag flag)
    (hpage : s.pageX = t.pageX) (hblend : s.blend = t.blend) (hdepth : s.depth = t.depth)
    (hcolumns : s.columns = t.columns) (hdirection : s.direction = t.direction) : s = t := by
  cases s
  cases t
  simp only [Status.mk.injEq]
  exact ⟨hpage, hflag .pageY, hblend, hdepth, hflag .dither, hflag .drawToDisplay, hflag .setMask,
    hflag .checkMask, hflag .interlaceField, hflag .reverse, hflag .textureDisable,
    hflag .columns368, hcolumns, hflag .doubleRows, hflag .pal, hflag .deepDisplay,
    hflag .interlace, hflag .displayDisabled, hflag .interrupt, hflag .dmaRequest,
    hflag .readyCommand, hflag .readySend, hflag .readyBlock, hdirection, hflag .oddLine⟩

end Status

/-! ### The register -/

/-- The register as it is stored: the flags at their places in a word, and the numbers in bytes. -/
structure StatusRegister where
  flags : Word
  pageX : UInt8
  blend : BlendMode
  depth : TextureDepth
  columns : UInt8
  direction : DmaDirection
  deriving DecidableEq

namespace StatusRegister

/-- The word that software reads. -/
def word (r : StatusRegister) : Word :=
  r.flags ||| r.pageX.toUInt32 &&& 0xF ||| UInt32.ofNat r.blend.code <<< (5 : Word) |||
    UInt32.ofNat r.depth.code <<< (7 : Word) ||| (r.columns.toUInt32 &&& 3) <<< (17 : Word) |||
    UInt32.ofNat r.direction.code <<< (29 : Word)

/-- The register that a word is read as. -/
def ofWord (w : Word) : StatusRegister where
  flags := w &&& StatusFlag.all
  pageX := (w &&& 0xF).toUInt8
  blend := BlendMode.ofCode (w >>> 5).toNat
  depth := TextureDepth.ofCode (w >>> 7).toNat
  columns := ((w >>> 17) &&& 3).toUInt8
  direction := DmaDirection.ofCode (w >>> 29).toNat

/-- The numbers are no larger than their fields, and there are no flags beside the defined ones. -/
structure Canonical (r : StatusRegister) : Prop where
  pageX : r.pageX < 16
  columns : r.columns < 4
  flags : r.flags &&& StatusFlag.all = r.flags

/-! ### The word -/

/-- The two bits from `lo` upwards, taken out of a word and put back in. -/
theorem shifted_field (w lo : Word) (hlo : lo.toNat < 31) :
    UInt32.ofNat ((w >>> lo).toNat % 4) <<< lo = w &&& ((3 : Word) <<< lo) := by
  have hlow : ((w >>> lo) &&& 3).toNat = (w >>> lo).toNat % 4 :=
    Framing.toNat_and_mask (w >>> lo) 3 2 rfl
  have hshift : lo.toNat % 32 = lo.toNat := Nat.mod_eq_of_lt (by omega)
  rw [← hlow, UInt32.ofNat_toNat, UInt32.shiftLeft_and]
  apply UInt32.toNat_inj.1
  apply Nat.eq_of_testBit_eq
  intro k
  rw [UInt32.toNat_and, UInt32.toNat_and, Nat.testBit_and, Nat.testBit_and, UInt32.toNat_shiftLeft,
    UInt32.toNat_shiftRight, hshift, UInt32.toNat_shiftLeft, hshift, Nat.testBit_mod_two_pow,
    Nat.testBit_mod_two_pow, Nat.testBit_shiftLeft, Nat.testBit_shiftLeft, Nat.testBit_shiftRight]
  by_cases hk : lo.toNat ≤ k
  · rw [Nat.add_sub_cancel' hk, decide_eq_true hk]
    cases decide (k < 32) <;> simp
  · rw [decide_eq_false hk]
    simp

/-- **The flags and the fields tile the word**, without a gap. -/
theorem word_ofWord (w : Word) : (ofWord w).word = w := by
  have hpage : ((w &&& 0xF).toUInt8.toUInt32 &&& 0xF) = w &&& 0xF := by
    apply UInt32.toNat_inj.1
    rw [Framing.toNat_and_mask _ 0xF 4 rfl, UInt8.toNat_toUInt32, UInt32.toNat_toUInt8,
      Framing.toNat_and_mask _ 0xF 4 rfl]
    show w.toNat % 16 % 256 % 16 = w.toNat % 16
    omega
  have hcolumns : (((w >>> 17) &&& 3).toUInt8.toUInt32 &&& 3) <<< (17 : Word) =
      w &&& 3 <<< (17 : Word) := by
    rw [← shifted_field w 17 (by decide)]
    congr 1
    apply UInt32.toNat_inj.1
    rw [Framing.toNat_and_mask _ 3 2 rfl, UInt8.toNat_toUInt32, UInt32.toNat_toUInt8,
      Framing.toNat_and_mask _ 3 2 rfl, UInt32.toNat_ofNat']
    show (w >>> 17).toNat % 4 % 256 % 4 = (w >>> 17).toNat % 4 % 4294967296
    omega
  have hall : StatusFlag.all ||| 0xF ||| (3 : Word) <<< (5 : Word) ||| (3 : Word) <<< (7 : Word) |||
      (3 : Word) <<< (17 : Word) ||| (3 : Word) <<< (29 : Word) = -1 := by decide
  simp only [word, ofWord, BlendMode.code_ofCode, TextureDepth.code_ofCode,
    DmaDirection.code_ofCode, hpage, hcolumns]
  rw [shifted_field w 5 (by decide), shifted_field w 7 (by decide),
    shifted_field w 29 (by decide)]
  simp only [UInt32.and_comm w]
  rw [← Dma.or_and, ← Dma.or_and, ← Dma.or_and, ← Dma.or_and, ← Dma.or_and, hall,
    UInt32.neg_one_and]

/-! ### The status in the register -/

/-- Whether a flag is set. -/
def has (r : StatusRegister) (flag : StatusFlag) : Bool :=
  r.flags.bit flag.position

/-- The status that is stored, with the bits of the numbers that count. -/
def status (r : StatusRegister) : Status where
  pageX := ⟨r.pageX.toNat % 16, Nat.mod_lt _ (by decide)⟩
  pageY := r.has .pageY
  blend := r.blend
  depth := r.depth
  dither := r.has .dither
  drawToDisplay := r.has .drawToDisplay
  setMask := r.has .setMask
  checkMask := r.has .checkMask
  interlaceField := r.has .interlaceField
  reverse := r.has .reverse
  textureDisable := r.has .textureDisable
  columns368 := r.has .columns368
  columns := ⟨r.columns.toNat % 4, Nat.mod_lt _ (by decide)⟩
  doubleRows := r.has .doubleRows
  pal := r.has .pal
  deepDisplay := r.has .deepDisplay
  interlace := r.has .interlace
  displayDisabled := r.has .displayDisabled
  interrupt := r.has .interrupt
  dmaRequest := r.has .dmaRequest
  readyCommand := r.has .readyCommand
  readySend := r.has .readySend
  readyBlock := r.has .readyBlock
  direction := r.direction
  oddLine := r.has .oddLine

theorem flag_status (r : StatusRegister) (flag : StatusFlag) : r.status.flag flag = r.has flag := by
  cases flag <;> rfl

/-- Flags that agree one by one are the same word if there are no others in it. -/
theorem flags_congr {v w : Word} (hv : v &&& StatusFlag.all = v) (hw : w &&& StatusFlag.all = w)
    (h : ∀ flag : StatusFlag, v.bit flag.position = w.bit flag.position) : v = w := by
  apply UInt32.toNat_inj.1
  apply Nat.eq_of_testBit_eq
  intro k
  show v.bit k = w.bit k
  rw [Word.bit_of_and_eq hv, Word.bit_of_and_eq hw]
  by_cases hk : k < 32
  · cases hall : StatusFlag.all.bit k with
    | true =>
      obtain ⟨flag, rfl⟩ := (StatusFlag.bit_all_iff hk).1 hall
      rw [h flag]
    | false => rw [Bool.and_false, Bool.and_false]
  · rw [StatusFlag.all.bit_of_le (Nat.le_of_not_lt hk), Bool.and_false, Bool.and_false]

/-- **A status has one canonical register.** -/
theorem Canonical.status_inj {r other : StatusRegister} (h : r.Canonical) (h' : other.Canonical)
    (hstatus : r.status = other.status) : r = other := by
  have hflags : r.flags = other.flags := by
    refine flags_congr h.flags h'.flags fun flag => ?_
    have hflag := congrArg (Status.flag · flag) hstatus
    simp only [flag_status] at hflag
    exact hflag
  have hpage : r.pageX = other.pageX := by
    have hlt : r.pageX.toNat < 16 := h.pageX
    have hlt' : other.pageX.toNat < 16 := h'.pageX
    have hmod : r.pageX.toNat % 16 = other.pageX.toNat % 16 :=
      congrArg (fun s => s.pageX.val) hstatus
    exact UInt8.toNat_inj.1 (by omega)
  have hcolumns : r.columns = other.columns := by
    have hlt : r.columns.toNat < 4 := h.columns
    have hlt' : other.columns.toNat < 4 := h'.columns
    have hmod : r.columns.toNat % 4 = other.columns.toNat % 4 :=
      congrArg (fun s => s.columns.val) hstatus
    exact UInt8.toNat_inj.1 (by omega)
  obtain ⟨flags, pageX, blend, depth, columns, direction⟩ := r
  obtain ⟨flags', pageX', blend', depth', columns', direction'⟩ := other
  obtain rfl : flags = flags' := hflags
  obtain rfl : pageX = pageX' := hpage
  obtain rfl : columns = columns' := hcolumns
  obtain rfl : blend = blend' := congrArg Status.blend hstatus
  obtain rfl : depth = depth' := congrArg Status.depth hstatus
  obtain rfl : direction = direction' := congrArg Status.direction hstatus
  rfl

/-- The two bits from `lo` upwards as a field. -/
theorem shiftRight_field (w : Word) {lo : Word} {n : Nat} (hlo : lo.toNat % 32 = n) :
    (w >>> lo).toNat % 4 = w.field n 2 := by
  rw [UInt32.toNat_shiftRight, hlo, Nat.shiftRight_eq_div_pow]
  rfl

/-- The low bits of a word as they are stored in a byte. -/
theorem toUInt8_mask (w : Word) {mask : Word} (bits : Nat) (hmask : mask.toNat = Nat.pow 2 bits - 1)
    (hbits : bits ≤ 8) : (w &&& mask).toUInt8.toNat = w.toNat % Nat.pow 2 bits := by
  have hsmall : w.toNat % Nat.pow 2 bits < 2 ^ 8 :=
    Nat.lt_of_lt_of_le (Nat.mod_lt _ (Nat.two_pow_pos bits))
      (Nat.pow_le_pow_right (by decide) hbits)
  rw [UInt32.toNat_toUInt8, Framing.toNat_and_mask w mask bits hmask, Nat.mod_eq_of_lt hsmall]

/-- What a word is read as is canonical. -/
theorem canonical_ofWord (w : Word) : (ofWord w).Canonical where
  pageX := by
    show (w &&& 0xF).toUInt8.toNat < 16
    rw [toUInt8_mask w 4 rfl (by decide)]
    exact Nat.mod_lt _ (by decide)
  columns := by
    show ((w >>> 17) &&& 3).toUInt8.toNat < 4
    rw [toUInt8_mask _ 2 rfl (by decide)]
    exact Nat.mod_lt _ (by decide)
  flags := by
    show w &&& StatusFlag.all &&& StatusFlag.all = w &&& StatusFlag.all
    rw [UInt32.and_assoc, UInt32.and_self]

/-- The register that a word is read as stores the status that the word describes. -/
theorem status_ofWord (w : Word) : (ofWord w).status = Status.ofWord w := by
  refine Status.ext_flag (fun flag => ?_) (Fin.ext ?_) ?_ ?_ (Fin.ext ?_) ?_
  · have hmask : StatusFlag.all.bit flag.position = true :=
      (StatusFlag.bit_all_iff flag.position_lt).2 ⟨flag, rfl⟩
    rw [flag_status, Status.flag_ofWord]
    show (w &&& StatusFlag.all).bit flag.position = w.bit flag.position
    rw [Word.bit_and, hmask, Bool.and_true]
  · show (w &&& 0xF).toUInt8.toNat % 16 = w.toNat / 1 % 16
    rw [toUInt8_mask w 4 rfl (by decide), Nat.div_one]
    exact Nat.mod_mod w.toNat 16
  · show BlendMode.ofCode (w >>> 5).toNat = BlendMode.ofCode (w.field 5 2)
    rw [← BlendMode.ofCode_code (BlendMode.ofCode _), BlendMode.code_ofCode, shiftRight_field w rfl]
    rfl
  · show TextureDepth.ofCode (w >>> 7).toNat = TextureDepth.ofCode (w.field 7 2)
    rw [← TextureDepth.ofCode_code (TextureDepth.ofCode _), TextureDepth.code_ofCode,
      shiftRight_field w rfl]
    rfl
  · show ((w >>> 17) &&& 3).toUInt8.toNat % 4 = w.field 17 2
    rw [toUInt8_mask _ 2 rfl (by decide)]
    show (w >>> 17).toNat % 4 % 4 = w.field 17 2
    rw [Nat.mod_mod, shiftRight_field w rfl]
    rfl
  · show DmaDirection.ofCode (w >>> 29).toNat = DmaDirection.ofCode (w.field 29 2)
    rw [← DmaDirection.ofCode_code (DmaDirection.ofCode _), DmaDirection.code_ofCode,
      shiftRight_field w rfl]
    rfl

/-- The register of a status, and the only one. -/
structure Stores (r : StatusRegister) (s : Status) : Prop where
  canonical : r.Canonical
  status_eq : r.status = s

theorem stores_ofWord (w : Word) : (ofWord w).Stores (Status.ofWord w) :=
  ⟨canonical_ofWord w, status_ofWord w⟩

theorem Stores.unique {r other : StatusRegister} {s : Status} (h : r.Stores s)
    (h' : other.Stores s) : r = other :=
  h.canonical.status_inj h'.canonical (h.status_eq.trans h'.status_eq.symm)

/-- **The register of a status is what the status word is read as.** -/
theorem Stores.eq_ofWord {r : StatusRegister} {s : Status} (h : r.Stores s) : r = ofWord s.word := by
  have hread := stores_ofWord s.word
  rw [Status.ofWord_word] at hread
  exact h.unique hread

/-- It shows the status word. -/
theorem Stores.word_eq {r : StatusRegister} {s : Status} (h : r.Stores s) : r.word = s.word := by
  rw [h.eq_ofWord, word_ofWord]

/-- **A canonical register is what its own word is read as.** -/
theorem Canonical.ofWord_word {r : StatusRegister} (h : r.Canonical) : ofWord r.word = r := by
  have hstores : r.Stores r.status := ⟨h, rfl⟩
  rw [hstores.word_eq]
  exact hstores.eq_ofWord.symm

end StatusRegister

/-! ### Assignments -/

/-- What the hardware assigns to its status. -/
inductive StatusWrite where
  | flag (flag : StatusFlag) (on : Bool)
  /-- A page attribute: bits 0–8, and the texture switch where permitted. -/
  | page (value : Word) (disableAllowed : Bool)
  /-- The code of the horizontal resolution, from the low bits of a word. -/
  | columns (value : Word)
  | direction (direction : DmaDirection)
  /-- The DMA request, as the direction and the ready flags call for it. -/
  | request
  /-- All of it, as a word describes it. -/
  | word (w : Word)
  deriving DecidableEq

/-- Two bits make no more than four codes. -/
theorem Word.lowCode_lt (w : Word) : w.field 0 2 < 4 :=
  w.field_lt 0 2

/-- The status after an assignment. -/
def Status.assign (s : Status) : StatusWrite → Status
  | .flag flag on => s.put flag on
  | .page value disableAllowed => s.applyPage value disableAllowed
  | .columns value => { s with columns := ⟨value.field 0 2, value.lowCode_lt⟩ }
  | .direction direction => { s with direction := direction }
  | .request => s.refreshDmaRequest
  | .word w => Status.ofWord w

/-- The status after assignments, one after the other. -/
def Status.assignAll (s : Status) (writes : List StatusWrite) : Status :=
  writes.foldl Status.assign s

namespace StatusRegister

/-- Sets or clears a flag. -/
def put (r : StatusRegister) (flag : StatusFlag) (on : Bool) : StatusRegister :=
  { r with flags := if on then r.flags ||| flag.mask else r.flags &&& ~~~flag.mask }

/-- The DMA request that the direction and the ready flags call for. -/
def wantedDmaRequest (r : StatusRegister) : Bool :=
  match r.direction with
  | .off => false
  | .fifo => true
  | .toCommands => r.has .readyBlock
  | .fromReadback => r.has .readySend

/-- The register with the numbers of a page attribute. -/
def withPage (r : StatusRegister) (value : Word) : StatusRegister :=
  { r with
    pageX := (value &&& 0xF).toUInt8
    blend := BlendMode.ofCode (value >>> 5).toNat
    depth := TextureDepth.ofCode (value >>> 7).toNat }

/-- The register after an assignment. -/
def assign (r : StatusRegister) : StatusWrite → StatusRegister
  | .flag flag on => r.put flag on
  | .page value disableAllowed =>
    ((r.withPage value).put .pageY (value.bit 4)).put .textureDisable
      (disableAllowed && value.bit 11)
  | .columns value => { r with columns := (value &&& 3).toUInt8 }
  | .direction direction => { r with direction := direction }
  | .request => r.put .dmaRequest r.wantedDmaRequest
  | .word w => ofWord w

/-- The register after assignments, one after the other. -/
def assignAll (r : StatusRegister) (writes : List StatusWrite) : StatusRegister :=
  writes.foldl assign r

/-- Setting or clearing a flag leaves the others alone. -/
theorem has_put (r : StatusRegister) (flag other : StatusFlag) (on : Bool) :
    (r.put flag on).has other = if other = flag then on else r.has other := by
  have hplace : other.position = flag.position ↔ other = flag :=
    ⟨StatusFlag.position_inj, congrArg StatusFlag.position⟩
  have hmask : flag.mask.bit other.position = decide (other = flag) := by
    rw [StatusFlag.bit_mask flag other.position_lt, decide_eq_decide.2 hplace]
  unfold put has
  cases on with
  | true =>
    rw [if_pos rfl, Word.bit_or, hmask]
    by_cases h : other = flag
    · rw [decide_eq_true h, if_pos h, Bool.or_true]
    · rw [decide_eq_false h, if_neg h, Bool.or_false]
  | false =>
    rw [if_neg Bool.false_ne_true, Word.bit_and, Word.bit_not _ other.position_lt, hmask]
    by_cases h : other = flag
    · rw [decide_eq_true h, if_pos h, Bool.not_true, Bool.and_false]
    · rw [decide_eq_false h, if_neg h, Bool.not_false, Bool.and_true]

theorem status_put (r : StatusRegister) (flag : StatusFlag) (on : Bool) :
    (r.put flag on).status = r.status.put flag on := by
  refine Status.ext_flag (fun other => ?_) ?_ ?_ ?_ ?_ ?_
  · rw [flag_status, has_put, Status.flag_put, flag_status]
  all_goals cases flag <;> rfl

theorem status_withPage (r : StatusRegister) (value : Word) :
    (r.withPage value).status = { r.status with
      pageX := ⟨value.field 0 4, value.field_lt 0 4⟩
      blend := BlendMode.ofCode (value.field 5 2)
      depth := TextureDepth.ofCode (value.field 7 2) } := by
  -- The numbers are taken out of the attribute as they are taken out of a status word.
  have hread := status_ofWord value
  have hpage : (ofWord value).status.pageX = (Status.ofWord value).pageX := by rw [hread]
  have hblend : (ofWord value).status.blend = (Status.ofWord value).blend := by rw [hread]
  have hdepth : (ofWord value).status.depth = (Status.ofWord value).depth := by rw [hread]
  exact Status.ext_flag (fun flag => by cases flag <;> rfl) hpage hblend hdepth rfl rfl

/-- **An assignment to the register is one to the status that it stores.** -/
theorem status_assign (r : StatusRegister) (write : StatusWrite) :
    (r.assign write).status = r.status.assign write := by
  cases write with
  | flag flag on => exact status_put r flag on
  | page value disableAllowed =>
    rw [assign, status_put, status_put, status_withPage]
    rfl
  | columns value =>
    have hcolumns : (value &&& 3).toUInt8.toNat % 4 = value.field 0 2 := by
      rw [toUInt8_mask value 2 rfl (by decide)]
      show value.toNat % 4 % 4 = value.toNat / 1 % 4
      rw [Nat.mod_mod, Nat.div_one]
    exact Status.ext_flag (fun flag => by cases flag <;> rfl) rfl rfl rfl (Fin.ext hcolumns) rfl
  | direction direction => rfl
  | request =>
    rw [assign, status_put]
    rfl
  | word w => exact status_ofWord w

theorem Canonical.put {r : StatusRegister} (h : r.Canonical) (flag : StatusFlag) (on : Bool) :
    (r.put flag on).Canonical := by
  refine ⟨h.pageX, h.columns, ?_⟩
  cases on with
  | true =>
    show (r.flags ||| flag.mask) &&& StatusFlag.all = r.flags ||| flag.mask
    rw [Dma.or_and, h.flags, StatusFlag.mask_and_all]
  | false =>
    show r.flags &&& ~~~flag.mask &&& StatusFlag.all = r.flags &&& ~~~flag.mask
    rw [UInt32.and_assoc, UInt32.and_comm _ StatusFlag.all, ← UInt32.and_assoc, h.flags]

/-- **Every assignment leaves the register canonical.** -/
theorem Canonical.assign {r : StatusRegister} (h : r.Canonical) (write : StatusWrite) :
    (r.assign write).Canonical := by
  cases write with
  | flag flag on => exact h.put flag on
  | page value disableAllowed =>
    have hpage : (r.withPage value).Canonical :=
      ⟨(canonical_ofWord value).pageX, h.columns, h.flags⟩
    exact (hpage.put .pageY _).put .textureDisable _
  | columns value =>
    refine ⟨h.pageX, ?_, h.flags⟩
    show (value &&& 3).toUInt8.toNat < 4
    rw [toUInt8_mask value 2 rfl (by decide)]
    exact Nat.mod_lt _ (by decide)
  | direction direction => exact ⟨h.pageX, h.columns, h.flags⟩
  | request => exact h.put .dmaRequest _
  | word w => exact canonical_ofWord w

/-- Assignments go to the register of a status as they go to the status. -/
theorem Stores.assign {r : StatusRegister} {s : Status} (h : r.Stores s) (write : StatusWrite) :
    (r.assign write).Stores (s.assign write) := by
  refine ⟨h.canonical.assign write, ?_⟩
  rw [status_assign, h.status_eq]

theorem Stores.assignAll {r : StatusRegister} {s : Status} (h : r.Stores s)
    (writes : List StatusWrite) : (r.assignAll writes).Stores (s.assignAll writes) := by
  induction writes generalizing r s with
  | nil => exact h
  | cons write writes ih => exact ih (h.assign write)

end StatusRegister

end ConsoleVideo
