import ConsoleVideo.Operand

/-!
# The status word

Software watches the hardware through one 32-bit word.

* `Status` — what each of the 32 bits means;
* `Status.word` and `Status.ofWord` — the word and its reading, inverse to each other
  (`word_ofWord`, `ofWord_word`);
* `Status.applyPage`, `Status.applyDrawMode` — what drawing commands write into it;
* the resolution, the page for sprites and the DMA request that follow from it.
-/

namespace ConsoleVideo

/-- Where the DMA request line listens. -/
inductive DmaDirection where
  | off
  | fifo
  | toCommands
  | fromReadback
  deriving DecidableEq

namespace DmaDirection

/-- The direction that the low two bits of a number select. -/
def ofCode (n : Nat) : DmaDirection :=
  match n % 4 with
  | 0 => off
  | 1 => fifo
  | 2 => toCommands
  | _ => fromReadback

/-- The two bits that select the direction. -/
def code : DmaDirection → Nat
  | off => 0
  | fifo => 1
  | toCommands => 2
  | fromReadback => 3

@[simp] theorem ofCode_code (d : DmaDirection) : ofCode d.code = d := by
  cases d <;> rfl

@[simp] theorem code_ofCode (n : Nat) : (ofCode n).code = n % 4 := by
  have : n % 4 = 0 ∨ n % 4 = 1 ∨ n % 4 = 2 ∨ n % 4 = 3 := by omega
  rcases this with h | h | h | h <;> simp [ofCode, code, h]

end DmaDirection

/-- What the bits of the status word mean, from the lowest upwards. -/
structure Status where
  /-- The page column in units of 64 cells (bits 0–3). -/
  pageX : Fin 16
  /-- Whether the page starts at row 256 (bit 4). -/
  pageY : Bool
  /-- Bits 5–6. -/
  blend : BlendMode
  /-- Bits 7–8. -/
  depth : TextureDepth
  dither : Bool
  drawToDisplay : Bool
  /-- Drawn pixels come out masked (bit 11). -/
  setMask : Bool
  /-- Masked pixels are not drawn over (bit 12). -/
  checkMask : Bool
  interlaceField : Bool
  reverse : Bool
  textureDisable : Bool
  /-- 368 columns, whatever `columns` says (bit 16). -/
  columns368 : Bool
  /-- The code of the horizontal resolution (bits 17–18). -/
  columns : Fin 4
  doubleRows : Bool
  pal : Bool
  deepDisplay : Bool
  interlace : Bool
  displayDisabled : Bool
  interrupt : Bool
  dmaRequest : Bool
  readyCommand : Bool
  readySend : Bool
  readyBlock : Bool
  /-- Bits 29–30. -/
  direction : DmaDirection
  oddLine : Bool
  deriving DecidableEq

/-- How the displayed pixels are stored. -/
inductive DisplayDepth where
  /-- One native pixel per cell. -/
  | native
  /-- Three bytes per pixel, packed across the cells. -/
  | packed24
  deriving DecidableEq

namespace Status

/-! ### The word -/

/-- The 32 bits, lowest first. -/
def bits (s : Status) : List Bool :=
  [s.pageX.val.testBit 0, s.pageX.val.testBit 1, s.pageX.val.testBit 2, s.pageX.val.testBit 3,
    s.pageY, s.blend.code.testBit 0, s.blend.code.testBit 1, s.depth.code.testBit 0,
    s.depth.code.testBit 1, s.dither, s.drawToDisplay, s.setMask, s.checkMask, s.interlaceField,
    s.reverse, s.textureDisable, s.columns368, s.columns.val.testBit 0, s.columns.val.testBit 1,
    s.doubleRows, s.pal, s.deepDisplay, s.interlace, s.displayDisabled, s.interrupt, s.dmaRequest,
    s.readyCommand, s.readySend, s.readyBlock, s.direction.code.testBit 0,
    s.direction.code.testBit 1, s.oddLine]

theorem length_bits (s : Status) : s.bits.length = 32 := rfl

/-- The status as software reads it. -/
def word (s : Status) : Word :=
  UInt32.ofNat (ofBits s.bits)

/-- The status that a word describes. -/
def ofWord (w : Word) : Status where
  pageX := ⟨w.field 0 4, w.field_lt 0 4⟩
  pageY := w.bit 4
  blend := BlendMode.ofCode (w.field 5 2)
  depth := TextureDepth.ofCode (w.field 7 2)
  dither := w.bit 9
  drawToDisplay := w.bit 10
  setMask := w.bit 11
  checkMask := w.bit 12
  interlaceField := w.bit 13
  reverse := w.bit 14
  textureDisable := w.bit 15
  columns368 := w.bit 16
  columns := ⟨w.field 17 2, w.field_lt 17 2⟩
  doubleRows := w.bit 19
  pal := w.bit 20
  deepDisplay := w.bit 21
  interlace := w.bit 22
  displayDisabled := w.bit 23
  interrupt := w.bit 24
  dmaRequest := w.bit 25
  readyCommand := w.bit 26
  readySend := w.bit 27
  readyBlock := w.bit 28
  direction := DmaDirection.ofCode (w.field 29 2)
  oddLine := w.bit 31

/-- The status after a reset: display off, first field, ready for commands and blocks. -/
def reset : Status :=
  ofWord 0x14802000

theorem bit_word (s : Status) (k : Nat) : s.word.bit k = s.bits.getD k false := by
  have small := ofBits_lt s.bits
  rw [length_bits] at small
  unfold word Word.bit
  rw [UInt32.toNat_ofNat', Nat.mod_eq_of_lt small, testBit_ofBits]

theorem ofWord_word (s : Status) : ofWord s.word = s := by
  have page : s.word.field 0 4 = s.pageX.val := by
    apply Word.field_eq_of_bits s.pageX.isLt
    intro i hi
    rw [bit_word]
    have : i = 0 ∨ i = 1 ∨ i = 2 ∨ i = 3 := by omega
    rcases this with h | h | h | h <;> subst h <;> simp [bits, -Nat.testBit_zero]
  have blend : s.word.field 5 2 = s.blend.code := by
    apply Word.field_eq_of_bits (by cases s.blend <;> decide)
    intro i hi
    rw [bit_word]
    have : i = 0 ∨ i = 1 := by omega
    rcases this with h | h <;> subst h <;> simp [bits, -Nat.testBit_zero]
  have depth : s.word.field 7 2 = s.depth.code := by
    apply Word.field_eq_of_bits (by cases s.depth <;> decide)
    intro i hi
    rw [bit_word]
    have : i = 0 ∨ i = 1 := by omega
    rcases this with h | h <;> subst h <;> simp [bits, -Nat.testBit_zero]
  have columns : s.word.field 17 2 = s.columns.val := by
    apply Word.field_eq_of_bits s.columns.isLt
    intro i hi
    rw [bit_word]
    have : i = 0 ∨ i = 1 := by omega
    rcases this with h | h <;> subst h <;> simp [bits, -Nat.testBit_zero]
  have direction : s.word.field 29 2 = s.direction.code := by
    apply Word.field_eq_of_bits (by cases s.direction <;> decide)
    intro i hi
    rw [bit_word]
    have : i = 0 ∨ i = 1 := by omega
    rcases this with h | h <;> subst h <;> simp [bits, -Nat.testBit_zero]
  simp only [ofWord, page, blend, depth, columns, direction, bit_word]
  simp [bits]

theorem word_ofWord (w : Word) : (ofWord w).word = w := by
  apply UInt32.toNat_inj.1
  apply Nat.eq_of_testBit_eq
  intro i
  show ((ofWord w).word).bit i = w.bit i
  rw [bit_word]
  have blend : w.field 5 2 % 4 = w.field 5 2 := Nat.mod_eq_of_lt (w.field_lt 5 2)
  have depth : w.field 7 2 % 4 = w.field 7 2 := Nat.mod_eq_of_lt (w.field_lt 7 2)
  have direction : w.field 29 2 % 4 = w.field 29 2 := Nat.mod_eq_of_lt (w.field_lt 29 2)
  by_cases h : i < 32
  · have : i = 0 ∨ i = 1 ∨ i = 2 ∨ i = 3 ∨ i = 4 ∨ i = 5 ∨ i = 6 ∨ i = 7 ∨ i = 8 ∨ i = 9 ∨ i = 10 ∨
      i = 11 ∨ i = 12 ∨ i = 13 ∨ i = 14 ∨ i = 15 ∨ i = 16 ∨ i = 17 ∨ i = 18 ∨ i = 19 ∨ i = 20 ∨
      i = 21 ∨ i = 22 ∨ i = 23 ∨ i = 24 ∨ i = 25 ∨ i = 26 ∨ i = 27 ∨ i = 28 ∨ i = 29 ∨ i = 30 ∨
      i = 31 := by omega
    rcases this with h | h | h | h | h | h | h | h | h | h | h | h | h | h | h | h | h | h | h |
      h | h | h | h | h | h | h | h | h | h | h | h | h <;> subst h <;>
      simp [bits, ofWord, Word.testBit_field, blend, depth, direction, -Nat.testBit_zero]
  · have high : w.bit i = false := by
      unfold Word.bit
      exact Nat.testBit_lt_two_pow (Nat.lt_of_lt_of_le w.toNat_lt
        (Nat.pow_le_pow_right (by decide) (by omega)))
    rw [high, List.getD_eq_getElem?_getD, List.getElem?_eq_none (by simpa [bits] using h)]
    rfl

/-! ### What drawing commands write -/

/-- The page attribute of a textured polygon: bits 0–8, and the texture switch where permitted. -/
def applyPage (s : Status) (page : Word) (disableAllowed : Bool) : Status :=
  { s with
    pageX := ⟨page.field 0 4, page.field_lt 0 4⟩
    pageY := page.bit 4
    blend := BlendMode.ofCode (page.field 5 2)
    depth := TextureDepth.ofCode (page.field 7 2)
    textureDisable := disableAllowed && page.bit 11 }

/-- The draw mode setting: a page attribute with two more switches. -/
def applyDrawMode (s : Status) (value : Word) (disableAllowed : Bool) : Status :=
  { s.applyPage value disableAllowed with
    dither := value.bit 9
    drawToDisplay := value.bit 10 }

/-! ### What follows from it -/

/-- The page that sprites read. -/
def texturePage (s : Status) : TexturePage where
  x := s.pageX.val * 64
  y := if s.pageY then 256 else 0
  blend := s.blend
  depth := s.depth
  disable := s.textureDisable

/-- The displayed columns. -/
def displayWidth (s : Status) : Nat :=
  if s.columns368 then 368
  else match s.columns with
    | 0 => 256
    | 1 => 320
    | 2 => 512
    | 3 => 640

/-- Whether both fields together show 480 or 512 rows. -/
def isInterlaced480 (s : Status) : Bool :=
  s.doubleRows && s.interlace

/-- The displayed columns and rows. -/
def displayResolution (s : Status) : Nat × Nat :=
  let rows := if s.pal then 256 else 240
  (s.displayWidth, if s.isInterlaced480 then 2 * rows else rows)

def displayDepth (s : Status) : DisplayDepth :=
  if s.deepDisplay then .packed24 else .native

/-- The video clock cycles per dot. -/
def dotClock (s : Status) : Nat :=
  if s.columns368 then 7
  else match s.columns with
    | 0 => 10
    | 1 => 8
    | 2 => 5
    | 3 => 4

/-- The DMA request that the direction and the ready flags call for. -/
def wantedDmaRequest (s : Status) : Bool :=
  match s.direction with
  | .off => false
  | .fifo => true
  | .toCommands => s.readyBlock
  | .fromReadback => s.readySend

/-- The status with its DMA request brought up to date. -/
def refreshDmaRequest (s : Status) : Status :=
  { s with dmaRequest := s.wantedDmaRequest }

end Status

end ConsoleVideo
