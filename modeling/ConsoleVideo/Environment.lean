import ConsoleVideo.Status

/-!
# The drawing environment and the display geometry

Settings that outlast the command that made them.

* `DrawingArea` — the rectangle that drawing is confined to;
* `DrawOffset` — what is added to every vertex;
* `TextureWindow` — which bits of a texture coordinate are replaced, one `WindowAxis` for columns
  and one for rows; `WindowAxis.apply_lt` keeps coordinates inside a page;
* `Environment` — these together with the sprite flips and the texture permission;
* `DisplayGeometry` — which part of the picture memory is shown, and when.

Each setting can be read back as the word that made it.
-/

namespace ConsoleVideo

/-! ### Clipping and translation -/

/-- The rectangle that drawing is confined to, all four bounds included. -/
structure DrawingArea where
  left : Int
  top : Int
  right : Int
  bottom : Int
  deriving DecidableEq

namespace DrawingArea

/-- The whole picture memory. -/
def full : DrawingArea := ⟨0, 0, 1023, 511⟩

/-- Whether a point may be drawn. -/
def contains (area : DrawingArea) (x y : Int) : Bool :=
  area.left ≤ x && x ≤ area.right && area.top ≤ y && y ≤ area.bottom

theorem contains_iff {area : DrawingArea} {x y : Int} :
    area.contains x y = true ↔
      area.left ≤ x ∧ x ≤ area.right ∧ area.top ≤ y ∧ y ≤ area.bottom := by
  simp [contains, and_assoc]

/-- A corner as software set it: ten bits of column, ten bits of row. -/
def cornerWord (x y : Int) : Word :=
  UInt32.ofNat ((x % 1024).toNat + 1024 * (y % 1024).toNat)

def topLeftWord (area : DrawingArea) : Word :=
  cornerWord area.left area.top

def bottomRightWord (area : DrawingArea) : Word :=
  cornerWord area.right area.bottom

end DrawingArea

/-- What is added to every vertex. -/
structure DrawOffset where
  x : Int
  y : Int
  deriving DecidableEq

namespace DrawOffset

def zero : DrawOffset := ⟨0, 0⟩

/-- Columns in bits 0–10, rows in bits 11–21, both in two's complement. -/
def ofWord (w : Word) : DrawOffset where
  x := signed11 w.toNat
  y := signed11 (w.toNat / 2048)

/-- The 22 bits that software set. -/
def word (offset : DrawOffset) : Word :=
  UInt32.ofNat ((offset.x % 2048).toNat + 2048 * (offset.y % 2048).toNat)

end DrawOffset

/-! ### The texture window -/

/-- One axis of the texture window, in units of eight texels. -/
structure WindowAxis where
  /-- Which bits of the coordinate are replaced. -/
  mask : Fin 32
  /-- What they are replaced by. -/
  offset : Fin 32
  deriving DecidableEq

namespace WindowAxis

/-- The bits of a coordinate that pass through. -/
def kept (axis : WindowAxis) : Nat :=
  255 - 8 * axis.mask.val

/-- The bits that are forced. -/
def forced (axis : WindowAxis) : Nat :=
  (axis.offset.val &&& axis.mask.val) * 8

/-- The coordinate that is sampled for `u`. -/
def apply (axis : WindowAxis) (u : Nat) : Nat :=
  (u % 256 &&& axis.kept) ||| axis.forced

theorem forced_lt (axis : WindowAxis) : axis.forced < 256 := by
  have := Nat.and_le_left (n := axis.offset.val) (m := axis.mask.val)
  have := axis.offset.isLt
  unfold forced
  omega

theorem apply_lt (axis : WindowAxis) (u : Nat) : axis.apply u < 256 :=
  Nat.or_lt_two_pow (n := 8)
    (Nat.lt_of_le_of_lt Nat.and_le_left (Nat.mod_lt u (by decide))) axis.forced_lt

end WindowAxis

/-- Which part of a texture page is sampled. -/
structure TextureWindow where
  u : WindowAxis
  v : WindowAxis
  deriving DecidableEq

namespace TextureWindow

/-- Masks in bits 0–4 and 5–9, offsets in bits 10–14 and 15–19. -/
def ofWord (w : Word) : TextureWindow where
  u := ⟨⟨w.field 0 5, w.field_lt 0 5⟩, ⟨w.field 10 5, w.field_lt 10 5⟩⟩
  v := ⟨⟨w.field 5 5, w.field_lt 5 5⟩, ⟨w.field 15 5, w.field_lt 15 5⟩⟩

/-- The 20 bits that software set. -/
def word (window : TextureWindow) : Word :=
  UInt32.ofNat (window.u.mask.val + 32 * window.v.mask.val + 1024 * window.u.offset.val +
    32768 * window.v.offset.val)

/-- The window that leaves every coordinate alone. -/
def whole : TextureWindow := ofWord 0

theorem toNat_word (window : TextureWindow) :
    window.word.toNat = window.u.mask.val + 32 * window.v.mask.val +
      1024 * window.u.offset.val + 32768 * window.v.offset.val := by
  have := window.u.mask.isLt
  have := window.v.mask.isLt
  have := window.u.offset.isLt
  have := window.v.offset.isLt
  unfold word
  rw [UInt32.toNat_ofNat']
  omega

theorem ofWord_word (window : TextureWindow) : ofWord window.word = window := by
  obtain ⟨⟨⟨um, hum⟩, ⟨uo, huo⟩⟩, ⟨⟨vm, hvm⟩, ⟨vo, hvo⟩⟩⟩ := window
  simp only [ofWord, Word.field, Nat.pow_eq, toNat_word, TextureWindow.mk.injEq,
    WindowAxis.mk.injEq, Fin.mk.injEq]
  omega

end TextureWindow

/-! ### Together -/

/-- The settings that drawing commands share. -/
structure Environment where
  area : DrawingArea
  offset : DrawOffset
  window : TextureWindow
  /-- Sprites run through their texture backwards along this axis. -/
  flipX : Bool
  flipY : Bool
  /-- Commands may switch textures off. -/
  textureDisableAllowed : Bool
  deriving DecidableEq

/-- The environment after a reset. -/
def Environment.reset : Environment where
  area := DrawingArea.full
  offset := DrawOffset.zero
  window := TextureWindow.whole
  flipX := false
  flipY := false
  textureDisableAllowed := false

/-- Which part of the picture memory is shown, and when. -/
structure DisplayGeometry where
  /-- The top left corner of the shown part. -/
  startX : Nat
  startY : Nat
  /-- The shown part of a line, in dots. -/
  lineStart : Nat
  lineEnd : Nat
  /-- The shown lines of a frame. -/
  firstLine : Nat
  endLine : Nat
  deriving DecidableEq

/-- The geometry after a reset. -/
def DisplayGeometry.reset : DisplayGeometry where
  startX := 0
  startY := 0
  lineStart := 0x200
  lineEnd := 0xC00
  firstLine := 0x10
  endLine := 0x100

end ConsoleVideo
