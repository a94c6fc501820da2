import ConsoleVideo.Pixel

/-!
# The picture memory

The hardware draws into a memory of 1024 × 512 pixels.  Positions are integers and wrap around both
edges, so every position names a cell.

* `Vram` — both forms of every pixel, each in an array of exactly `Vram.size` elements;
* `Vram.cell` — the cell of a position, with `cell_eq_iff`;
* `Vram.set`, `Vram.setNative`, `Vram.copy`, `Vram.raiseMask` — the only ways to change one cell;
* `Vram.ofArrays?` — a whole picture from its two forms, refused unless both have the right size.
-/

namespace ConsoleVideo

/-- The number of cells, 1024 in each of 512 rows. -/
abbrev Vram.size : Nat := 524288

/-- The picture memory: each cell in both forms. -/
structure Vram where
  deep : Vector Deep Vram.size
  native : Vector Native Vram.size
  deriving DecidableEq

namespace Vram

/-- Black and unmasked everywhere. -/
def blank : Vram where
  deep := Vector.replicate size 0
  native := Vector.replicate size 0

instance : Inhabited Vram := ⟨blank⟩

/-! ### Positions -/

/-- The cell at column `x` and row `y`, which wrap around the edges. -/
def cell (x y : Int) : Fin size :=
  ⟨(y % 512 * 1024 + x % 1024).toNat, by unfold size; omega⟩

theorem cell_eq_iff {x y x' y' : Int} :
    cell x y = cell x' y' ↔ x % 1024 = x' % 1024 ∧ y % 512 = y' % 512 := by
  unfold cell
  rw [Fin.mk.injEq]
  omega

/-! ### Reading -/

/-- The pixel at a position in its deep form. -/
def deepAt (vram : Vram) (x y : Int) : Deep :=
  vram.deep[cell x y]

/-- The pixel at a position in its native form. -/
def nativeAt (vram : Vram) (x y : Int) : Native :=
  vram.native[cell x y]

/-- Whether the pixel at a position is masked. -/
def isMasked (vram : Vram) (x y : Int) : Bool :=
  (vram.nativeAt x y).isMasked

/-! ### Writing -/

/-- Writes both forms of one cell. -/
def put (vram : Vram) (i : Fin size) (deep : Deep) (native : Native) : Vram where
  deep := vram.deep.set i deep
  native := vram.native.set i native

/-- Writes a pixel given in its deep form. -/
def set (vram : Vram) (x y : Int) (color : Deep) : Vram :=
  let color := Deep.ofWord color
  vram.put (cell x y) color (Deep.pack color)

/-- Writes a pixel given in its native form. -/
def setNative (vram : Vram) (x y : Int) (pixel : Native) : Vram :=
  vram.put (cell x y) (Native.expand pixel) pixel

/-- Copies both forms of a pixel to another position. -/
def copy (vram : Vram) (fromX fromY toX toY : Int) : Vram :=
  vram.put (cell toX toY) (vram.deepAt fromX fromY) (vram.nativeAt fromX fromY)

/-- Raises the mask flag of a pixel in both forms. -/
def raiseMask (vram : Vram) (x y : Int) : Vram :=
  vram.put (cell x y) (Deep.raiseMask (vram.deepAt x y))
    (Native.forceMask (vram.nativeAt x y) true)

/-- The picture given by two arrays, if both have the right size. -/
def ofArrays? (deep : Array Deep) (native : Array Native) : Option Vram :=
  if h : deep.size = size ∧ native.size = size then
    some ⟨⟨deep, h.1⟩, ⟨native, h.2⟩⟩
  else
    none

theorem ofArrays?_isSome {deep : Array Deep} {native : Array Native} :
    (ofArrays? deep native).isSome ↔ deep.size = size ∧ native.size = size := by
  unfold ofArrays?
  split <;> simp_all

@[simp] theorem ofArrays?_toArray (vram : Vram) :
    ofArrays? vram.deep.toArray vram.native.toArray = some vram := by
  simp [ofArrays?]

/-! ### What a write changes -/

theorem deep_put (vram : Vram) (i j : Fin size) (deep : Deep) (native : Native) :
    (vram.put i deep native).deep[j] = if i = j then deep else vram.deep[j] := by
  simp [put, Vector.getElem_set, Fin.ext_iff]

theorem native_put (vram : Vram) (i j : Fin size) (deep : Deep) (native : Native) :
    (vram.put i deep native).native[j] = if i = j then native else vram.native[j] := by
  simp [put, Vector.getElem_set, Fin.ext_iff]

end Vram

end ConsoleVideo
