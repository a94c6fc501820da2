import ConsoleVideo.Proofs.Arithmetic.Alu
import ConsoleVideo.Proofs.Command.Positions
import ConsoleVideo.Proofs.Drawing.Fills
import ConsoleVideo.Proofs.Drawing.Sources
import ConsoleVideo.Proofs.Gpu.Readback

/-!
# Blocks in 32 bits

Fills and transfers find the places of a block by adding to its corner, in 32 bits without a sign; an
image counts its pixels and divides by its width.  Corners and sizes are so small that no sum wraps
before the picture memory itself does.

* `VramRect.place?`, `VramRect.place?_eq` — a place of a block; `VramRect.pixelCount?` and
  `VramRect.pixelCount?_eq` — how many there are;
* `Fill.draw?`, `VramCopy.draw?`, `ImageLoad.draw?` and `VramRect.read?` — what is done with the blocks,
  and that it comes out as with any integers.
-/

namespace ConsoleVideo

open Alu (u32)

namespace VramRect

/-- The place of a pixel of the block. -/
def place? (rect : VramRect) (dx dy : Int) : Option Vertex := do
  let x ← u32.add rect.x dx
  let y ← u32.add rect.y dy
  return ⟨x, y⟩

/-- The number of pixels. -/
def pixelCount? (rect : VramRect) : Option Nat :=
  (u32.mul rect.width rect.height).map Int.toNat

/-- The block as words. -/
def read? (rect : VramRect) (vram : Vram) : Option (List Word) := do
  let pixels ← (Grid.offsets rect.width rect.height).mapM fun (dx, dy) => do
    let place ← rect.place? dx dy
    return vram.nativeAt place.x place.y
  return packed pixels

variable {rect : VramRect} (hbegins : rect.Begins) (hfits : rect.Fits)

include hbegins hfits

theorem place?_eq {dx dy : Nat} (hcell : (dx, dy) ∈ Grid.offsets rect.width rect.height) :
    rect.place? dx dy = some ⟨(rect.x + dx : Nat), (rect.y + dy : Nat)⟩ := by
  obtain ⟨hdx, hdy⟩ := Grid.mem_offsets.1 hcell
  have hx := hbegins.x
  have hy := hbegins.y
  have hwidth := hfits.width
  have hheight := hfits.height
  simp (disch := omega) only [place?, Alu.add, Alu.u32_fit, Option.bind_eq_bind, Option.bind_some,
    Option.pure_def, Nat.cast_add]

theorem read?_eq (vram : Vram) : rect.read? vram = some (rect.read vram) := by
  have hpixels : ((Grid.offsets rect.width rect.height).mapM fun (dx, dy) => do
      let place ← rect.place? dx dy
      return vram.nativeAt place.x place.y) = some (rect.pixels vram) :=
    mapM_eq_some fun (dx, dy) hcell => by
      simp only [place?_eq hbegins hfits hcell, Option.bind_eq_bind, Option.bind_some,
        Option.pure_def]
  rw [read?, hpixels, read_eq_packed]
  rfl

omit hbegins

theorem pixelCount?_eq : rect.pixelCount? = some rect.pixelCount := by
  have hcount : rect.width * rect.height ≤ 1024 * 512 := hfits.pixelCount_le
  rw [pixelCount?, Alu.mul, ← Nat.cast_mul, Alu.u32_fit (by omega) (by omega)]
  rfl

end VramRect

/-! ### Fills -/

namespace Fill

/-- Fills the block. -/
def draw? (fill : Fill) (vram : Vram) : Option Vram :=
  (Grid.offsets fill.width fill.height).foldlM (fun vram (dx, dy) => do
    let place ← fill.block.place? dx dy
    return vram.set place.x place.y fill.color.deep) vram

theorem draw?_eq {fill : Fill} (hsized : Job.Sized (.fill fill)) (hplaced : Job.Placed (.fill fill))
    (vram : Vram) : fill.draw? vram = some (fill.draw vram) := by
  have hbegins : fill.block.Begins := ⟨hplaced.1, hplaced.2⟩
  have hfits : fill.block.Fits := ⟨hsized.1.trans (by decide), hsized.2.trans (by decide)⟩
  rw [draw, Grid.walk_eq_foldl, draw?]
  refine foldlM_eq_some (fun vram (dx, dy) hcell => ?_) vram
  simp only [VramRect.place?_eq hbegins hfits hcell, Option.bind_eq_bind, Option.bind_some,
    Option.pure_def]
  rfl

end Fill

/-! ### Copies -/

namespace VramCopy

/-- Copies one pixel of the block; a masked one does not ask where it would come from. -/
def step? (copy : VramCopy) (setMask checkMask : Bool) (vram : Vram) (dx dy : Nat) :
    Option Vram := do
  let target ← copy.target.place? dx dy
  if checkMask && vram.isMasked target.x target.y then
    return vram
  else
    let source ← copy.source.place? dx dy
    let copied := vram.copy source.x source.y target.x target.y
    return if setMask then copied.raiseMask target.x target.y else copied

/-- Copies the block. -/
def draw? (copy : VramCopy) (setMask checkMask : Bool) (vram : Vram) : Option Vram :=
  (Grid.offsets copy.width copy.height).foldlM
    (fun vram (dx, dy) => copy.step? setMask checkMask vram dx dy) vram

theorem draw?_eq {copy : VramCopy} (hsized : Job.Sized (.copy copy))
    (hplaced : Job.Placed (.copy copy)) (setMask checkMask : Bool) (vram : Vram) :
    copy.draw? setMask checkMask vram = some (copy.draw setMask checkMask vram) := by
  obtain ⟨⟨hfromX, hfromY⟩, htoX, htoY⟩ := hplaced
  obtain ⟨hwidth, hheight⟩ := hsized
  rw [draw, Grid.walk_eq_foldl, draw?]
  refine foldlM_eq_some (fun vram (dx, dy) hcell => ?_) vram
  have htarget : copy.target.place? dx dy = some ⟨(copy.toX + dx : Nat), (copy.toY + dy : Nat)⟩ :=
    VramRect.place?_eq ⟨htoX, htoY⟩ ⟨hwidth, hheight⟩ hcell
  have hsource : copy.source.place? dx dy =
      some ⟨(copy.fromX + dx : Nat), (copy.fromY + dy : Nat)⟩ :=
    VramRect.place?_eq ⟨hfromX, hfromY⟩ ⟨hwidth, hheight⟩ hcell
  simp only [step?, htarget, hsource, Option.bind_eq_bind, Option.bind_some, Option.pure_def,
    ← apply_ite some]
  rfl

end VramCopy

/-! ### Images -/

namespace ImageLoad

/-- Writes pixel `i` of the block, unless the payload ends before it. -/
def step? (load : ImageLoad) (setMask checkMask : Bool) (vram : Vram) (i : Nat) : Option Vram :=
  match load.pixel? i with
  | none => some vram
  | some pixel => do
    let index ← u32.fit i
    let column ← u32.rem index load.rect.width
    let row ← u32.div index load.rect.width
    let place ← load.rect.place? column row
    return if checkMask && vram.isMasked place.x place.y then vram
      else vram.setNative place.x place.y (Native.forceMask pixel setMask)

/-- Writes the block. -/
def draw? (load : ImageLoad) (setMask checkMask : Bool) (vram : Vram) : Option Vram := do
  let count ← load.rect.pixelCount?
  (List.range count).foldlM (load.step? setMask checkMask) vram

theorem draw?_eq {load : ImageLoad} (hsized : Job.Sized (.upload load))
    (hplaced : Job.Placed (.upload load)) (setMask checkMask : Bool) (vram : Vram) :
    load.draw? setMask checkMask vram = some (load.draw setMask checkMask vram) := by
  have hfits : load.rect.Fits := hsized
  have hbegins : load.rect.Begins := hplaced
  have hcount := hfits.pixelCount_le
  rw [draw, Grid.walk_eq_foldl, Grid.offsets_eq_map, List.foldl_map, draw?,
    VramRect.pixelCount?_eq hfits, Option.bind_eq_bind, Option.bind_some]
  refine foldlM_eq_some (fun vram i hi => ?_) vram
  have hlt : i < load.rect.pixelCount := List.mem_range.1 hi
  have hwidth : load.rect.width ≠ 0 := by
    rintro hzero
    rw [VramRect.pixelCount, hzero, Nat.zero_mul] at hlt
    exact Nat.not_lt_zero i hlt
  have hcell : (i % load.rect.width, i / load.rect.width) ∈
      Grid.offsets load.rect.width load.rect.height := by
    rw [Grid.offsets_eq_map]
    exact List.mem_map.2 ⟨i, hi, rfl⟩
  have hplace := VramRect.place?_eq hbegins hfits hcell
  have hindex : i / load.rect.width * load.rect.width + i % load.rect.width = i :=
    Nat.div_add_mod' i load.rect.width
  rw [step, step?, hindex]
  cases load.pixel? i with
  | none => rfl
  | some pixel =>
    have hfit : u32.fit i = some (i : Int) := Alu.u32_fit (by omega) (by omega)
    have hdiv : u32.div i load.rect.width = some ((i / load.rect.width : Nat) : Int) :=
      Alu.div_natCast (by decide) (show (i : Int) ≤ 4294967295 by omega) hwidth
    have hrem : u32.rem i load.rect.width = some ((i % load.rect.width : Nat) : Int) :=
      Alu.rem_natCast (by decide) (show (i : Int) ≤ 4294967295 by omega) hwidth
    simp only [hfit, hdiv, hrem, hplace, Option.bind_eq_bind, Option.bind_some, Option.pure_def]

end ImageLoad

end ConsoleVideo
