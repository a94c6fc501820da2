import ConsoleVideo.Vram
import ConsoleVideo.Grid
import ConsoleVideo.Primitive

/-!
# Blocks of picture memory

Fills and transfers act on blocks of cells without regard to the drawing area; blocks wrap around
the edges.

* `Fill.draw` — one colour everywhere, whatever is masked;
* `VramCopy.draw` — pixel by pixel in row order, so that overlapping blocks repeat;
* `ImageLoad.draw` — pixels from the processor;
* `VramRect.read` — the pixels of a block as words, two to a word.
-/

namespace ConsoleVideo

/-- Fills the block, clearing the mask flags. -/
def Fill.draw (fill : Fill) (vram : Vram) : Vram :=
  let color := fill.color.deep
  Grid.walk fill.width fill.height
    (fun vram dx dy => vram.set (fill.x + dx : Nat) (fill.y + dy : Nat) color) vram

/-- Copies one pixel of the block. -/
def VramCopy.step (copy : VramCopy) (setMask checkMask : Bool) (vram : Vram) (dx dy : Nat) : Vram :=
  let x : Int := (copy.toX + dx : Nat)
  let y : Int := (copy.toY + dy : Nat)
  if checkMask && vram.isMasked x y then vram
  else
    let copied := vram.copy (copy.fromX + dx : Nat) (copy.fromY + dy : Nat) x y
    if setMask then copied.raiseMask x y else copied

/-- Copies the block. -/
def VramCopy.draw (copy : VramCopy) (setMask checkMask : Bool) (vram : Vram) : Vram :=
  Grid.walk copy.width copy.height (copy.step setMask checkMask) vram

/-- Writes one pixel of the block, unless the payload ends before it. -/
def ImageLoad.step (load : ImageLoad) (setMask checkMask : Bool) (vram : Vram) (dx dy : Nat) :
    Vram :=
  match load.pixel? (dy * load.rect.width + dx) with
  | none => vram
  | some pixel =>
    let x : Int := (load.rect.x + dx : Nat)
    let y : Int := (load.rect.y + dy : Nat)
    if checkMask && vram.isMasked x y then vram
    else vram.setNative x y (Native.forceMask pixel setMask)

/-- Writes the block. -/
def ImageLoad.draw (load : ImageLoad) (setMask checkMask : Bool) (vram : Vram) : Vram :=
  Grid.walk load.rect.width load.rect.height (load.step setMask checkMask) vram

namespace VramRect

/-- Pixel `i` of the block, row by row. -/
def pixel (rect : VramRect) (vram : Vram) (i : Nat) : Native :=
  vram.nativeAt (rect.x + i % rect.width : Nat) (rect.y + i / rect.width : Nat)

/-- Word `k` of the block: two pixels, the first one in the low half. -/
def readWord (rect : VramRect) (vram : Vram) (k : Nat) : Word :=
  let low := (rect.pixel vram (2 * k)).toNat
  let high := if 2 * k + 1 < rect.pixelCount then (rect.pixel vram (2 * k + 1)).toNat else 0
  UInt32.ofNat (low + 65536 * high)

/-- The block as words. -/
def read (rect : VramRect) (vram : Vram) : List Word :=
  (List.range rect.wordCount).map (rect.readWord vram)

@[simp] theorem length_read (rect : VramRect) (vram : Vram) :
    (rect.read vram).length = rect.wordCount := by
  simp [read]

end VramRect

end ConsoleVideo
