import ConsoleVideo.Environment
import ConsoleVideo.Vram
import ConsoleVideo.Text

/-!
# The surface

What is shown is composed on a surface of opaque pixels.

* `View` — the display, or the whole picture memory for diagnosis;
* `Surface` — a rectangle of pixels, of exactly the size it states;
* `Surface.resize` — clears it, unless the size stays;
* `Surface.refresh` — composes it anew from the picture memory;
* `Surface.ppm` — the surface as the bytes of a PPM picture.
-/

namespace ConsoleVideo

/-- What a surface shows. -/
inductive View where
  /-- The displayed part of the picture memory. -/
  | display
  /-- All of the picture memory. -/
  | vram
  deriving DecidableEq

/-- A pixel of the surface: red lowest, opacity highest. -/
abbrev Rgba := UInt32

namespace Rgba

/-- The opaque pixel with the given channels. -/
def opaquePixel (red green blue : Nat) : Rgba :=
  UInt32.ofNat (red + 256 * green + 65536 * blue + 4278190080)

/-- The opaque pixel with the colour of a cell. -/
def ofDeep (c : Deep) : Rgba :=
  opaquePixel (Deep.red c) (Deep.green c) (Deep.blue c)

/-- Red, green and blue as bytes. -/
def rgb (p : Rgba) : List UInt8 :=
  [UInt8.ofNat (Deep.red p), UInt8.ofNat (Deep.green p), UInt8.ofNat (Deep.blue p)]

/-- Red, green, blue and opacity as bytes. -/
def bytes (p : Rgba) : List UInt8 :=
  rgb p ++ [UInt8.ofNat (p.toNat / 16777216)]

end Rgba

/-- A rectangle of pixels, row by row. -/
structure Surface where
  view : View
  width : Nat
  height : Nat
  pixels : Array Rgba
  size_pixels : pixels.size = width * height := by simp

namespace Surface

/-- A surface of transparent black. -/
def blank (view : View) (width height : Nat) : Surface where
  view := view
  width := width
  height := height
  pixels := Array.replicate (width * height) 0

/-- A surface at the initial size of its view. -/
def ofView : View → Surface
  | .display => blank .display 256 240
  | .vram => blank .vram 1024 512

/-- The pixel in column `x` of row `y`, if it is on the surface. -/
def pixel? (surface : Surface) (x y : Nat) : Option Rgba :=
  if x < surface.width then surface.pixels[y * surface.width + x]? else none

/-- The surface at another size, cleared; a surface that has the size is left alone. -/
def resize (surface : Surface) (width height : Nat) : Surface :=
  if surface.width = width ∧ surface.height = height then surface
  else blank surface.view width height

theorem size_resize (surface : Surface) (width height : Nat) :
    (surface.resize width height).width = width ∧
      (surface.resize width height).height = height := by
  unfold resize
  split
  · assumption
  · exact ⟨rfl, rfl⟩

/-- The size that the view has under a status. -/
def wantedSize (view : View) (status : Status) : Nat × Nat :=
  match view with
  | .display => status.displayResolution
  | .vram => (1024, 512)

/-- The surface at the size that its view has under a status. -/
def follow (surface : Surface) (status : Status) : Surface :=
  let size := wantedSize surface.view status
  surface.resize size.1 size.2

/-! ### Composition -/

/-- The surface with every pixel made anew from its place and its old value. -/
@[specialize] def compose (surface : Surface) (f : Nat → Nat → Rgba → Rgba) : Surface where
  view := surface.view
  width := surface.width
  height := surface.height
  pixels := surface.pixels.mapIdx fun i old => f (i % surface.width) (i / surface.width) old
  size_pixels := by simp [surface.size_pixels]

/-- Byte `n` of a row of the picture memory that starts in column `startX`. -/
def rowByte (vram : Vram) (startX row n : Nat) : Nat :=
  let cell := (vram.nativeAt (startX + n / 2 : Nat) row).toNat
  if n % 2 = 0 then cell % 256 else cell / 256

/-- The pixel shown in column `x` of row `y` of the display. -/
def displayedPixel (vram : Vram) (display : DisplayGeometry) (depth : DisplayDepth) (x y : Nat) :
    Rgba :=
  let row := display.startY + y
  match depth with
  | .native => Rgba.ofDeep (vram.deepAt (display.startX + x : Nat) row)
  | .packed24 =>
    let byte := rowByte vram display.startX row
    Rgba.opaquePixel (byte (3 * x)) (byte (3 * x + 1)) (byte (3 * x + 2))

/-- Composes the surface from the picture memory: the display, black if it is switched off, or the
cells themselves as far as there are any. -/
def refresh (surface : Surface) (vram : Vram) (status : Status) (display : DisplayGeometry) :
    Surface :=
  match surface.view with
  | .vram =>
    surface.compose fun x y old =>
      if x < 1024 ∧ y < 512 then Rgba.ofDeep (vram.deepAt x y) else old
  | .display =>
    if status.displayDisabled then surface.compose fun _ _ _ => Rgba.opaquePixel 0 0 0
    else
      let depth := status.displayDepth
      surface.compose fun x y _ => displayedPixel vram display depth x y

/-! ### Export -/

/-- The text before the pixels of a PPM picture. -/
def ppmHeader (width height : Nat) : String :=
  s!"P6\n{width} {height}\n255\n"

/-- The surface as a PPM picture, without opacity. -/
def ppm (surface : Surface) : List UInt8 :=
  (ppmHeader surface.width surface.height).toList.map (fun c => UInt8.ofNat c.toNat) ++
    surface.pixels.toList.flatMap Rgba.rgb

end Surface

end ConsoleVideo
