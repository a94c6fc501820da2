import ConsoleVideo.Pixel

/-!
# Operands of drawing commands

The words of a drawing command carry colours, positions and references to textures.

* `Color`, `Vertex`, `TexCoord`, `Clut`, `TexturePage` — what the fields of such words mean, each
  with an `ofWord` that reads it;
* `TextureDepth` — how texels are stored;
* `Vertex.offset` — moving a vertex by the drawing offset, in 32-bit arithmetic.
-/

namespace ConsoleVideo

/-! ### Colours -/

/-- A colour of eight bits per channel. -/
structure Color where
  red : UInt8
  green : UInt8
  blue : UInt8
  deriving DecidableEq, Inhabited

/-- The colour in the low 24 bits, red lowest. -/
def Color.ofWord (w : Word) : Color where
  red := UInt8.ofNat (Deep.red w)
  green := UInt8.ofNat (Deep.green w)
  blue := UInt8.ofNat (Deep.blue w)

/-- The unmasked pixel of this colour. -/
def Color.deep (c : Color) : Deep :=
  Deep.ofChannels c.red.toNat c.green.toNat c.blue.toNat

@[simp] theorem Color.ofWord_deep (c : Color) : Color.ofWord c.deep = c := by
  obtain ⟨hred, hgreen, hblue⟩ :=
    Deep.channels_ofChannels c.red.toNat_lt c.green.toNat_lt c.blue.toNat_lt
  rw [ofWord, deep, hred, hgreen, hblue, UInt8.ofNat_toNat, UInt8.ofNat_toNat, UInt8.ofNat_toNat]

/-! ### Positions -/

/-- A point that a drawing command names. -/
structure Vertex where
  x : Int
  y : Int
  deriving DecidableEq, Inhabited

/-- Columns in bits 0–10, rows in bits 16–26, both in two's complement. -/
def Vertex.ofWord (w : Word) : Vertex where
  x := signed11 w.toNat
  y := signed11 (w.toNat / 65536)

/-- The vertex moved by `(dx, dy)`, in 32-bit arithmetic. -/
def Vertex.offset (v : Vertex) (dx dy : Int) : Vertex where
  x := wrap32 (v.x + dx)
  y := wrap32 (v.y + dy)

/-! ### Textures -/

/-- A position in a texture page. -/
structure TexCoord where
  u : UInt8
  v : UInt8
  deriving DecidableEq, Inhabited

/-- Columns in bits 0–7, rows in bits 8–15. -/
def TexCoord.ofWord (w : Word) : TexCoord where
  u := UInt8.ofNat (w.field 0 8)
  v := UInt8.ofNat (w.field 8 8)

/-- Where a colour table starts in picture memory. -/
structure Clut where
  x : Nat
  y : Nat
  deriving DecidableEq, Inhabited

/-- Columns, in units of 16 cells, in bits 16–21, rows in bits 22–30. -/
def Clut.ofWord (w : Word) : Clut where
  x := w.field 16 6 * 16
  y := w.field 22 9

/-- How the texels of a page are stored. -/
inductive TextureDepth where
  /-- Four texels to a cell, through a colour table of 16. -/
  | indexed4
  /-- Two texels to a cell, through a colour table of 256. -/
  | indexed8
  /-- One texel to a cell. -/
  | direct
  /-- A code without meaning of its own, which samples like `direct`. -/
  | reserved
  deriving DecidableEq

namespace TextureDepth

/-- The depth that the low two bits of a number select. -/
def ofCode (n : Nat) : TextureDepth :=
  match n % 4 with
  | 0 => indexed4
  | 1 => indexed8
  | 2 => direct
  | _ => reserved

/-- The two bits that select the depth. -/
def code : TextureDepth → Nat
  | indexed4 => 0
  | indexed8 => 1
  | direct => 2
  | reserved => 3

@[simp] theorem ofCode_code (d : TextureDepth) : ofCode d.code = d := by
  cases d <;> rfl

@[simp] theorem code_ofCode (n : Nat) : (ofCode n).code = n % 4 := by
  have : n % 4 = 0 ∨ n % 4 = 1 ∨ n % 4 = 2 ∨ n % 4 = 3 := by omega
  rcases this with h | h | h | h <;> simp [ofCode, code, h]

end TextureDepth

/-- A block of picture memory that holds texels, and how to read them. -/
structure TexturePage where
  /-- The leftmost column, a multiple of 64. -/
  x : Nat
  /-- The top row, 0 or 256. -/
  y : Nat
  blend : BlendMode
  depth : TextureDepth
  /-- Asks to draw without the texture, which only counts where that is permitted. -/
  disable : Bool
  deriving DecidableEq

/-- The page that an attribute selects. -/
def TexturePage.ofWord (w : Word) : TexturePage where
  x := w.field 0 4 * 64
  y := w.field 4 1 * 256
  blend := BlendMode.ofCode (w.field 5 2)
  depth := TextureDepth.ofCode (w.field 7 2)
  disable := w.bit 11

end ConsoleVideo
