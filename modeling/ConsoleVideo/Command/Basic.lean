import ConsoleVideo.Job
import ConsoleVideo.Error

/-!
# Drawing commands

The high byte of a command's first word, its opcode, selects the command and its form.

* `Command` — the commands with what their opcode bits say;
* `Command.ofOpcode?` — the opcode table; `Command.lookup` refuses words without an entry;
* `Command.wordCount` — how many words a command has, the first one included;
* `Command.build?` — the job that the words of a command describe; it reads no word beyond
  `wordCount`, and none is missing if there are that many.
-/

namespace ConsoleVideo

/-- What the opcode of a polygon says. -/
structure PolygonStyle where
  /-- Every corner has its own colour. -/
  shaded : Bool
  quad : Bool
  textured : Bool
  translucent : Bool
  raw : Bool
  deriving DecidableEq

namespace PolygonStyle

/-- The number of corners. -/
def corners (style : PolygonStyle) : Nat :=
  if style.quad then 4 else 3

/-- From one corner's words to the next one's: a position, and what goes with it. -/
def stride (style : PolygonStyle) : Nat :=
  1 + style.textured.toNat + style.shaded.toNat

/-- Corner `i`: its colour comes before its position, or is the colour in the first word; its
texture coordinate comes after. -/
def corner? (style : PolygonStyle) (words : List Word) (i : Nat) : Option Corner := do
  let color ← words[if style.shaded then i * style.stride else 0]?
  let position ← words[i * style.stride + 1]?
  let texCoord ←
    if style.textured then words[i * style.stride + 2]?.map TexCoord.ofWord
    else pure ⟨0, 0⟩
  pure ⟨Vertex.ofWord position, Color.ofWord color, texCoord⟩

/-- The texture, if there is one: the first texture word names the colour table, the second one
the page. -/
def texture? (style : PolygonStyle) (words : List Word) : Option (Option PolygonTexture) :=
  if style.textured then do
    let first ← words[2]?
    let second ← words[style.stride + 2]?
    pure (some {
      clut := Clut.ofWord first
      pageWord := UInt32.ofNat (second.field 16 16)
      raw := style.raw })
  else pure none

/-- A polygon from its words. -/
def polygon? (style : PolygonStyle) (words : List Word) : Option Polygon := do
  let first ← style.corner? words 0
  let second ← style.corner? words 1
  let third ← style.corner? words 2
  let fourth ← if style.quad then (style.corner? words 3).map some else pure none
  let texture ← style.texture? words
  pure {
    first := first
    second := second
    third := third
    fourth := fourth
    shaded := style.shaded
    texture := texture
    translucent := style.translucent }

end PolygonStyle

/-- What the opcode of a rectangle says. -/
structure RectangleStyle where
  /-- Side length, if the opcode fixes it; otherwise the last word has the size. -/
  side : Option Nat
  textured : Bool
  translucent : Bool
  raw : Bool
  deriving DecidableEq

/-- A drawing command, up to the words that follow its opcode. -/
inductive Command where
  | nop
  | clearCache
  | fill
  | interruptRequest
  | polygon (style : PolygonStyle)
  | line (shaded translucent : Bool)
  /-- A line of open length, which is not offered. -/
  | polyline
  | rectangle (style : RectangleStyle)
  | copy
  | upload
  | download
  | drawMode
  | textureWindow
  | areaTopLeft
  | areaBottomRight
  | drawOffset
  | maskBits
  deriving DecidableEq

namespace Command

/-- The side length in bits 3 and 4 of a rectangle's opcode. -/
def side? (opcode : Nat) : Option Nat :=
  match opcode / 8 % 4 with
  | 0 => none
  | 1 => some 1
  | 2 => some 8
  | _ => some 16

/-- The command of an opcode, if it has one. -/
def ofOpcode? (opcode : Nat) : Option Command :=
  match opcode / 32 with
  | 0 =>
    if opcode = 0x00 then some nop
    else if opcode = 0x01 then some clearCache
    else if opcode = 0x02 then some fill
    else if opcode = 0x1F then some interruptRequest
    else none
  | 1 => some (polygon {
      shaded := opcode.testBit 4
      quad := opcode.testBit 3
      textured := opcode.testBit 2
      translucent := opcode.testBit 1
      raw := opcode.testBit 0 })
  | 2 =>
    if opcode.testBit 3 then some polyline
    else some (line (opcode.testBit 4) (opcode.testBit 1))
  | 3 => some (rectangle {
      side := side? opcode
      textured := opcode.testBit 2
      translucent := opcode.testBit 1
      raw := opcode.testBit 0 })
  | 4 => some copy
  | 5 => some upload
  | 6 => some download
  | _ =>
    if opcode = 0xE1 then some drawMode
    else if opcode = 0xE2 then some textureWindow
    else if opcode = 0xE3 then some areaTopLeft
    else if opcode = 0xE4 then some areaBottomRight
    else if opcode = 0xE5 then some drawOffset
    else if opcode = 0xE6 then some maskBits
    else none

/-- The opcode of a command's first word. -/
def opcode (w : Word) : Nat :=
  w.field 24 8

/-- The command that a word starts. -/
def lookup (w : Word) : Except DeviceError Command :=
  match ofOpcode? (opcode w) with
  | some command => .ok command
  | none => .error (.unknownCommand w)

/-- What the command is called. -/
def title : Command → String
  | nop => "nop"
  | clearCache => "clear cache"
  | fill => "fill rectangle"
  | interruptRequest => "interrupt request"
  | polygon _ => "polygon"
  | line shaded _ => if shaded then "shaded line" else "line"
  | polyline => "polyline"
  | rectangle _ => "rectangle"
  | copy => "VRAM→VRAM copy"
  | upload => "CPU→VRAM copy"
  | download => "VRAM→CPU copy"
  | drawMode => "draw mode"
  | textureWindow => "texture window"
  | areaTopLeft => "draw area top-left"
  | areaBottomRight => "draw area bottom-right"
  | drawOffset => "draw offset"
  | maskBits => "mask bit setting"

/-! ### Lengths -/

/-- How many words the command has, the first one included. -/
def wordCount : Command → Nat
  | polygon style => style.corners * style.stride + 1 - style.shaded.toNat
  | line shaded _ => if shaded then 4 else 3
  | rectangle style => 2 + style.textured.toNat + if style.side.isSome then 0 else 1
  | fill | upload | download => 3
  | copy => 4
  | _ => 1

/-- A polygon has a first word, a word per corner, a texture word per corner if it is textured and
a colour word per further corner if it is shaded. -/
theorem wordCount_polygon (style : PolygonStyle) :
    (polygon style).wordCount = 1 + style.corners + (if style.textured then style.corners else 0) +
      if style.shaded then style.corners - 1 else 0 := by
  obtain ⟨shaded, quad, textured, translucent, raw⟩ := style
  cases shaded <;> cases quad <;> cases textured <;> rfl

theorem wordCount_pos (command : Command) : 0 < command.wordCount := by
  unfold wordCount PolygonStyle.corners PolygonStyle.stride
  split
  · next style => cases style.shaded <;> cases style.quad <;> cases style.textured <;> decide
  all_goals (try split) <;> omega

/-! ### From words to jobs -/

/-- A rectangle from its words. -/
def rectangle? (style : RectangleStyle) (words : List Word) : Option Rectangle := do
  let color ← words[0]?
  let position ← words[1]?
  let texture ←
    if style.textured then do
      let texel ← words[2]?
      pure (some { texCoord := TexCoord.ofWord texel, clut := Clut.ofWord texel, raw := style.raw })
    else pure none
  let (width, height) ←
    match style.side with
    | some side => pure (side, side)
    | none => do
      let size ← words[2 + style.textured.toNat]?
      pure (size.field 0 10, size.field 16 9)
  pure {
    position := Vertex.ofWord position
    width := width
    height := height
    color := Color.ofWord color
    texture := texture
    translucent := style.translucent }

/-- The job that the words of a command describe; none if words are missing. -/
def build? (command : Command) (words : List Word) : Option Job :=
  match command with
  | nop => some .nop
  | clearCache => some .clearCache
  | interruptRequest => some .interruptRequest
  | polyline => none
  | polygon style => (style.polygon? words).map .polygon
  | rectangle style => (rectangle? style words).map .rectangle
  | fill => do
    let color ← words[0]?
    let corner ← words[1]?
    let size ← words[2]?
    pure (.fill {
      color := Color.ofWord color
      x := corner.field 0 10
      y := corner.field 16 9
      width := size.field 0 10
      height := size.field 16 9 })
  | line shaded translucent => do
    let color ← words[0]?
    let start ← words[1]?
    let stopColor ← words[if shaded then 2 else 0]?
    let stop ← words[if shaded then 3 else 2]?
    pure (.line {
      start := Vertex.ofWord start
      stop := Vertex.ofWord stop
      startColor := Color.ofWord color
      stopColor := Color.ofWord stopColor
      translucent := translucent })
  | copy => do
    let source ← words[1]?
    let target ← words[2]?
    let size ← words[3]?
    let rect := VramRect.ofWords source size
    pure (.copy {
      fromX := rect.x
      fromY := rect.y
      toX := target.field 0 10
      toY := target.field 16 9
      width := rect.width
      height := rect.height })
  | upload => do
    let position ← words[1]?
    let size ← words[2]?
    pure (.upload { rect := VramRect.ofWords position size, payload := #[] })
  | download => do
    let position ← words[1]?
    let size ← words[2]?
    pure (.download (VramRect.ofWords position size))
  | drawMode => words[0]?.map fun w => .drawMode (UInt32.ofNat (w.field 0 24))
  | textureWindow => words[0]?.map fun w => .textureWindow (TextureWindow.ofWord w)
  | areaTopLeft => words[0]?.map fun w => .areaTopLeft (w.field 0 10) (w.field 10 10)
  | areaBottomRight => words[0]?.map fun w => .areaBottomRight (w.field 0 10) (w.field 10 10)
  | drawOffset => words[0]?.map fun w => .drawOffset (DrawOffset.ofWord w)
  | maskBits => words[0]?.map fun w => .maskBits (w.bit 0) (w.bit 1)

end Command

end ConsoleVideo
