import ConsoleVideo.Proofs.Command.Operands
import ConsoleVideo.Proofs.Dma.Relay
import ConsoleVideo.Proofs.Gpu.Readback
import ConsoleVideo.Proofs.Snapshot.Picture

/-!
# Bitmaps on the display

A display of 24 bits takes three bytes for a pixel, so that a pixel begins in the middle of a cell of the
picture memory as often as not.  Rows begin with a cell, and an odd row leaves half of its last cell
unused.  The bytes of a bitmap go into words, from there into cells, from there onto the surface and from
there into a file, and come out as they were.

* `Surface.put?`, `Surface.paint?` — a surface that is written pixel by pixel and refuses to go beyond its
  pixels; `paint?_eq_compose` — it never has to;
* `getElem?_flatMap_of_length` — finding a place among blocks of one length;
* `Bitmap`, `Bitmap.Carries` — a picture as bytes, and the words that carry it;
* `ImageLoad.exists_pixel?` — two bytes make a pixel of an upload;
* `Bitmap.displayedPixel_eq` — what is displayed of a bitmap that was uploaded;
* `Gpu.ppm_upload` — a bitmap that is uploaded, shown and exported.
-/

namespace ConsoleVideo

/-! ### Pixel by pixel -/

namespace Surface

/-- The surface with one pixel replaced, if its pixels go that far. -/
def put? (surface : Surface) (x y : Nat) (p : Rgba) : Option Surface :=
  if h : y * surface.width + x < surface.pixels.size then
    some {
      view := surface.view
      width := surface.width
      height := surface.height
      pixels := surface.pixels.set (y * surface.width + x) p
      size_pixels := by rw [Array.size_set, surface.size_pixels] }
  else none

/-- The surface with every pixel replaced, row by row and one after the other. -/
def paint? (surface : Surface) (f : Nat → Nat → Rgba) : Option Surface :=
  (Grid.offsets surface.width surface.height).foldlM
    (fun painted cell => painted.put? cell.1 cell.2 (f cell.1 cell.2)) surface

variable (surface : Surface) (f : Nat → Nat → Rgba)

/-- The surface when its first pixels are replaced. -/
def paintedUpTo (k : Nat) : Surface :=
  surface.compose fun x y old => if y * surface.width + x < k then f x y else old

theorem paintedUpTo_zero : surface.paintedUpTo f 0 = surface := by
  refine ext rfl rfl (Array.ext ?_ fun i _ _ => ?_)
  · simp [paintedUpTo, compose]
  · simp [paintedUpTo, compose]

/-- The next pixel is there to be replaced. -/
theorem put?_paintedUpTo {k : Nat} (hk : k < surface.width * surface.height) :
    (surface.paintedUpTo f k).put? (k % surface.width) (k / surface.width)
        (f (k % surface.width) (k / surface.width)) =
      some (surface.paintedUpTo f (k + 1)) := by
  have hplace (i : Nat) : i / surface.width * surface.width + i % surface.width = i :=
    Nat.div_add_mod' i surface.width
  have hinside : k / surface.width * (surface.paintedUpTo f k).width + k % surface.width <
      (surface.paintedUpTo f k).pixels.size := by
    rw [size_pixels]
    exact (hplace k).trans_lt hk
  rw [put?, dif_pos hinside]
  refine congrArg some (ext rfl rfl (Array.ext ?_ fun i _ _ => ?_))
  · simp [paintedUpTo, compose]
  · simp only [paintedUpTo, compose, Array.getElem_set, Array.getElem_mapIdx, hplace]
    by_cases hsame : k = i
    · subst hsame
      rw [if_pos rfl, if_pos (Nat.lt_succ_self k)]
    · rw [if_neg hsame]
      by_cases hbefore : i < k
      · rw [if_pos hbefore, if_pos (Nat.lt_succ_of_lt hbefore)]
      · rw [if_neg hbefore, if_neg (by omega)]

/-- **Painting never goes beyond the pixels**, and makes all of them anew. -/
theorem paint?_eq_compose : surface.paint? f = some (surface.compose fun x y _ => f x y) := by
  have hfirst : ∀ k ≤ surface.width * surface.height,
      (List.range k).foldlM (fun painted i => painted.put? (i % surface.width) (i / surface.width)
        (f (i % surface.width) (i / surface.width))) surface = some (surface.paintedUpTo f k) := by
    intro k hk
    induction k with
    | zero => rw [paintedUpTo_zero]; rfl
    | succ k ih =>
      rw [List.range_succ, List.foldlM_append, ih (Nat.le_of_succ_le hk)]
      simp [put?_paintedUpTo surface f hk]
  have hall : surface.paintedUpTo f (surface.width * surface.height) =
      surface.compose fun x y _ => f x y := by
    refine ext rfl rfl (Array.ext ?_ fun i hi _ => ?_)
    · simp [paintedUpTo, compose]
    · rw [size_pixels] at hi
      simp only [paintedUpTo, compose, Array.getElem_mapIdx, Nat.div_add_mod']
      exact if_pos hi
  rw [paint?, Grid.offsets_eq_map, List.foldlM_map, hfirst _ le_rfl, hall]

/-- The pixels that are made row by row, each from its place. -/
theorem toList_compose :
    (surface.compose fun x y _ => f x y).pixels.toList =
      (Grid.offsets surface.width surface.height).map fun cell => f cell.1 cell.2 := by
  rw [Grid.offsets_eq_map, List.map_map]
  refine List.ext_getElem ?_ fun i _ _ => ?_
  · simp [compose, surface.size_pixels]
  · simp [compose]

/-- What is exported are the pixels row by row. -/
theorem ppm_compose :
    (surface.compose fun x y _ => f x y).ppm =
      (ppmHeader surface.width surface.height).toList.map (fun c => UInt8.ofNat c.toNat) ++
        (List.range surface.height).flatMap fun y =>
          (List.range surface.width).flatMap fun x => Rgba.rgb (f x y) := by
  rw [ppm, toList_compose, Grid.offsets]
  simp only [List.map_flatMap, List.flatMap_assoc, List.map_map, List.flatMap_map]
  rfl

end Surface

/-! ### Bytes -/

/-- Among blocks of one length a place is found by counting blocks. -/
theorem getElem?_flatMap_of_length {α β : Type} {f : α → List β} {n : Nat}
    (hlength : ∀ a, (f a).length = n) (l : List α) (k : Nat) {i : Nat} (hi : i < n) :
    (l.flatMap f)[n * k + i]? = l[k]?.bind fun a => (f a)[i]? := by
  induction l generalizing k with
  | nil => rfl
  | cons a l ih =>
    rw [List.flatMap_cons]
    cases k with
    | zero =>
      rw [Nat.mul_zero, Nat.zero_add, List.getElem?_append_left (hi.trans_eq (hlength a).symm)]
      rfl
    | succ k =>
      have hlater : n * (k + 1) + i = n + (n * k + i) := by
        rw [Nat.mul_succ]
        omega
      rw [hlater, List.getElem?_append_right (by rw [hlength]; omega), hlength,
        Nat.add_sub_cancel_left, ih]
      rfl

namespace Word

/-- Byte `k` of a word, the lowest one first. -/
def byte (w : Word) (k : Nat) : UInt8 :=
  UInt8.ofNat (w.toNat / 256 ^ k)

def bytes (w : Word) : List UInt8 :=
  [byte w 0, byte w 1, byte w 2, byte w 3]

theorem length_bytes (w : Word) : (bytes w).length = 4 := rfl

end Word

/-- **Two bytes make a pixel of an upload**, the first one its lower half. -/
theorem ImageLoad.exists_pixel? (load : ImageLoad) {i : Nat} {low high : UInt8}
    (hlow : (load.payload.toList.flatMap Word.bytes)[2 * i]? = some low)
    (hhigh : (load.payload.toList.flatMap Word.bytes)[2 * i + 1]? = some high) :
    ∃ pixel, load.pixel? i = some pixel ∧ pixel.toNat % 256 = low.toNat ∧
      pixel.toNat / 256 = high.toNat := by
  have hplace : 2 * i = 4 * (i / 2) + 2 * (i % 2) := by
    omega
  rw [hplace, getElem?_flatMap_of_length Word.length_bytes _ _ (by omega)] at hlow
  rw [hplace, Nat.add_assoc, getElem?_flatMap_of_length Word.length_bytes _ _ (by omega)] at hhigh
  obtain ⟨w, hw, hlow⟩ := Option.bind_eq_some_iff.1 hlow
  rw [hw, Option.bind_some] at hhigh
  rw [Array.getElem?_toList] at hw
  refine ⟨half w i, by rw [pixel?, hw]; rfl, ?_⟩
  have hword := w.toNat_lt
  rcases Nat.mod_two_eq_zero_or_one i with heven | hodd
  · rw [heven] at hlow hhigh
    obtain rfl := Option.some.inj hlow
    obtain rfl := Option.some.inj hhigh
    rw [half, if_pos heven, UInt16.toNat_ofNat', Word.byte, Word.byte, UInt8.toNat_ofNat',
      UInt8.toNat_ofNat']
    omega
  · rw [hodd] at hlow hhigh
    obtain rfl := Option.some.inj hlow
    obtain rfl := Option.some.inj hhigh
    rw [half, if_neg (by omega), UInt16.toNat_ofNat', Word.byte, Word.byte, UInt8.toNat_ofNat',
      UInt8.toNat_ofNat']
    omega

/-! ### Bitmaps -/

/-- Red, green and blue. -/
def Color.bytes (c : Color) : List UInt8 :=
  [c.red, c.green, c.blue]

theorem Color.length_bytes (c : Color) : c.bytes.length = 3 := rfl

/-- A picture of three bytes per pixel. -/
structure Bitmap where
  width : Nat
  height : Nat
  color : Nat → Nat → Color

namespace Bitmap

variable (bitmap : Bitmap)

/-- The bytes of a row. -/
def row (y : Nat) : List UInt8 :=
  (List.range bitmap.width).flatMap fun x => (bitmap.color x y).bytes

/-- All bytes, row by row. -/
def bytes : List UInt8 :=
  (List.range bitmap.height).flatMap bitmap.row

/-- How many cells of the picture memory a row takes, at two bytes to the cell. -/
def cellsPerRow : Nat :=
  (3 * bitmap.width + 1) / 2

/-- The words carry the bitmap row by row.  A row of an odd length is followed by one more byte,
whatever it is, and so are the rows by two more if the last word is not full. -/
structure Carries (words : List Word) : Prop where
  length : words.length = (bitmap.cellsPerRow * bitmap.height + 1) / 2
  bytes : ∃ (spare : Nat → List UInt8) (rest : List UInt8),
    (∀ y, (spare y).length = 3 * bitmap.width % 2) ∧
      words.flatMap Word.bytes =
        ((List.range bitmap.height).flatMap fun y => bitmap.row y ++ spare y) ++ rest

theorem length_row (y : Nat) : (bitmap.row y).length = 3 * bitmap.width := by
  simp [row, Color.bytes, Nat.mul_comm]

variable {bitmap}

theorem lt_of_getElem?_row {y n : Nat} {byte : UInt8} (h : (bitmap.row y)[n]? = some byte) :
    n < 3 * bitmap.width :=
  (List.getElem?_eq_some_iff.1 h).1.trans_eq (bitmap.length_row y)

theorem getElem?_row {x y : Nat} (hx : x < bitmap.width) {k : Nat} (hk : k < 3) :
    (bitmap.row y)[3 * x + k]? = (bitmap.color x y).bytes[k]? := by
  rw [row, getElem?_flatMap_of_length (fun _ => Color.length_bytes _) _ _ hk, List.getElem?_range hx]
  rfl

/-- Every row begins with a pixel of the upload and takes up whole ones. -/
theorem Carries.exists_spare {words : List Word} (h : bitmap.Carries words) {y : Nat}
    (hy : y < bitmap.height) :
    ∃ spare, (bitmap.row y ++ spare).length = 2 * bitmap.cellsPerRow ∧
      ∀ n < 2 * bitmap.cellsPerRow,
        (words.flatMap Word.bytes)[2 * bitmap.cellsPerRow * y + n]? =
          (bitmap.row y ++ spare)[n]? := by
  obtain ⟨spare, rest, hspare, hbytes⟩ := h.bytes
  have hlength : ∀ y, (bitmap.row y ++ spare y).length = 2 * bitmap.cellsPerRow := by
    intro y
    rw [List.length_append, length_row, hspare, cellsPerRow]
    omega
  refine ⟨spare y, hlength y, fun n hn => ?_⟩
  have hrow := getElem?_flatMap_of_length hlength (List.range bitmap.height) y hn
  rw [List.getElem?_range hy, Option.bind_some] at hrow
  have hinside : n < (bitmap.row y ++ spare y).length := hn.trans_eq (hlength y).symm
  rw [List.getElem?_eq_getElem hinside] at hrow ⊢
  rw [hbytes, List.getElem?_append_left (List.getElem?_eq_some_iff.1 hrow).1, hrow]

/-- **Every byte of a row is half of a pixel of the upload.** -/
theorem Carries.exists_pixel {words : List Word} (h : bitmap.Carries words) {y n : Nat} {byte : UInt8}
    (hy : y < bitmap.height) (hbyte : (bitmap.row y)[n]? = some byte) (rect : VramRect) :
    ∃ pixel, (ImageLoad.mk rect words.toArray).pixel? (y * bitmap.cellsPerRow + n / 2) = some pixel ∧
      (if n % 2 = 0 then pixel.toNat % 256 else pixel.toNat / 256) = byte.toNat := by
  obtain ⟨spare, hlength, hrow⟩ := h.exists_spare hy
  have hn := lt_of_getElem?_row hbyte
  have hpadded : (bitmap.row y ++ spare)[n]? = some byte := by
    rw [List.getElem?_append_left (hn.trans_eq (bitmap.length_row y).symm), hbyte]
  have hsent : ∀ m < 2 * bitmap.cellsPerRow, ∃ sent, (bitmap.row y ++ spare)[m]? = some sent ∧
      (words.flatMap Word.bytes)[2 * bitmap.cellsPerRow * y + m]? = some sent := by
    intro m hm
    have hinside := List.getElem?_eq_getElem (hm.trans_eq hlength.symm)
    exact ⟨_, hinside, (hrow m hm).trans hinside⟩
  have hcell : 2 * (n / 2) + 1 < 2 * bitmap.cellsPerRow := by
    unfold cellsPerRow
    omega
  obtain ⟨low, hlow, hlow'⟩ := hsent (2 * (n / 2)) (Nat.lt_of_succ_lt hcell)
  obtain ⟨high, hhigh, hhigh'⟩ := hsent (2 * (n / 2) + 1) hcell
  have hindex : 2 * bitmap.cellsPerRow * y + 2 * (n / 2) =
      2 * (y * bitmap.cellsPerRow + n / 2) := by
    rw [Nat.mul_add, Nat.mul_comm y, Nat.mul_assoc]
  rw [hindex] at hlow'
  rw [← Nat.add_assoc, hindex] at hhigh'
  obtain ⟨pixel, hpixel, hpixelLow, hpixelHigh⟩ :=
    ImageLoad.exists_pixel? ⟨rect, words.toArray⟩ hlow' hhigh'
  refine ⟨pixel, hpixel, ?_⟩
  split_ifs with heven
  · have hsame : 2 * (n / 2) = n := by omega
    rw [hsame, hpadded] at hlow
    rw [hpixelLow, Option.some.inj hlow]
  · have hsame : 2 * (n / 2) + 1 = n := by omega
    rw [hsame, hpadded] at hhigh
    rw [hpixelHigh, Option.some.inj hhigh]

/-! ### On the display -/

/-- The block that a bitmap is uploaded to, if it is shown from this place on. -/
def rect (bitmap : Bitmap) (startX startY : Nat) : VramRect :=
  ⟨startX % 1024, startY % 512, bitmap.cellsPerRow, bitmap.height⟩

/-- The words of a transfer can name this block. -/
theorem ofWords_putPair (hwidth : 1 ≤ bitmap.width ∧ bitmap.width ≤ 682)
    (hheight : 1 ≤ bitmap.height ∧ bitmap.height ≤ 512) (startX startY : Nat) (position size : Word) :
    VramRect.ofWords (putPair startX startY position)
      (putPair bitmap.cellsPerRow bitmap.height size) = bitmap.rect startX startY := by
  have hcells : 0 < bitmap.cellsPerRow ∧ bitmap.cellsPerRow ≤ 1024 := by
    unfold cellsPerRow
    omega
  have hnamed : (bitmap.rect startX startY).IsNamed :=
    ⟨Nat.mod_lt _ (by decide), Nat.mod_lt _ (by decide), hcells, hheight⟩
  have hstart : putPair startX startY position = putPair (startX % 1024) (startY % 512) position := by
    rw [putPair, putPair, Nat.mod_mod, Nat.mod_mod]
  rw [hstart]
  exact VramRect.ofWords_putPair hnamed position size

section Shown

variable {words : List Word} (h : bitmap.Carries words) (hwidth : bitmap.width ≤ 682)
  (hheight : bitmap.height ≤ 512) (startX startY : Nat) (vram : Vram)

include h hwidth hheight

theorem rowByte_draw {y n : Nat} {byte : UInt8} (hy : y < bitmap.height)
    (hbyte : (bitmap.row y)[n]? = some byte) :
    Surface.rowByte
      ((ImageLoad.mk (bitmap.rect startX startY) words.toArray).draw false false vram) startX
      (startY + y) n = byte.toNat := by
  have hn := lt_of_getElem?_row hbyte
  have hcells : bitmap.cellsPerRow ≤ 1024 ∧ n / 2 < bitmap.cellsPerRow := by
    unfold cellsPerRow
    omega
  obtain ⟨pixel, hpixel, hhalf⟩ := h.exists_pixel hy hbyte (bitmap.rect startX startY)
  have hnative := ImageLoad.nativeAt_draw ⟨bitmap.rect startX startY, words.toArray⟩
    ⟨hcells.1, hheight⟩ startX startY rfl rfl hcells.2 hy hpixel vram
  rw [Surface.rowByte, hnative]
  exact hhalf

/-- **The display shows the bitmap.** -/
theorem displayedPixel_draw {display : DisplayGeometry} {x y : Nat} (hx : x < bitmap.width)
    (hy : y < bitmap.height) :
    Surface.displayedPixel
      ((ImageLoad.mk (bitmap.rect display.startX display.startY) words.toArray).draw false false vram)
      display .packed24 x y =
      Rgba.opaquePixel (bitmap.color x y).red.toNat (bitmap.color x y).green.toNat
        (bitmap.color x y).blue.toNat := by
  have hbyte := fun (k : Nat) (byte : UInt8) (hk : k < 3)
      (hcolor : (bitmap.color x y).bytes[k]? = some byte) =>
    rowByte_draw h hwidth hheight display.startX display.startY vram hy
      ((getElem?_row hx hk).trans hcolor)
  have hred := hbyte 0 _ (by decide) rfl
  have hgreen := hbyte 1 _ (by decide) rfl
  have hblue := hbyte 2 _ (by decide) rfl
  rw [Nat.add_zero] at hred
  rw [Surface.displayedPixel, hred, hgreen, hblue]

end Shown

end Bitmap

/-! ### There and out again -/

theorem Rgba.rgb_opaquePixel (c : Color) :
    rgb (opaquePixel c.red.toNat c.green.toNat c.blue.toNat) = c.bytes := by
  have hred := c.red.toNat_lt
  have hgreen := c.green.toNat_lt
  have hblue := c.blue.toNat_lt
  simp only [rgb, opaquePixel, Deep.red, Deep.green, Deep.blue, Color.bytes, List.cons.injEq,
    ← UInt8.toNat_inj, UInt8.toNat_ofNat', UInt32.toNat_ofNat', and_true]
  omega

theorem Rgba.opacity_opaquePixel (c : Color) :
    (opaquePixel c.red.toNat c.green.toNat c.blue.toNat).toNat / 16777216 = 255 := by
  have hred := c.red.toNat_lt
  have hgreen := c.green.toNat_lt
  have hblue := c.blue.toNat_lt
  rw [opaquePixel, UInt32.toNat_ofNat']
  omega

namespace Gpu

variable {gpu : Gpu} {bitmap : Bitmap} {words : List Word} {surface : Surface}

theorem showOn_deepDisplay (hon : gpu.status.displayDisabled = false)
    (hdeep : gpu.status.deepDisplay = true) (hview : surface.view = .display) :
    gpu.showOn surface =
      surface.compose fun x y _ => Surface.displayedPixel gpu.vram gpu.display .packed24 x y := by
  simp [showOn, Surface.refresh, hview, hon, Status.displayDepth, hdeep]

/-- An upload is written word by word, and changes nothing else that is shown. -/
theorem writeAll_upload (hgpu : gpu.Handshake) (hidle : gpu.decoder = .idle) {load position size : Word}
    (hload : Command.ofOpcode? (Command.opcode load) = some .upload)
    (hwords : words.length = (VramRect.ofWords position size).wordCount) :
    ∃ written, gpu.writeAll (load :: position :: size :: words) = (written, none) ∧
      written.vram = (ImageLoad.mk (VramRect.ofWords position size) words.toArray).draw
        gpu.status.setMask gpu.status.checkMask gpu.vram ∧
      written.display = gpu.display ∧
      written.status.displayDisabled = gpu.status.displayDisabled ∧
      written.status.deepDisplay = gpu.status.deepDisplay := by
  have htake : gpu.decoder.takeAll (load :: position :: size :: words) =
      (.idle, [.upload ⟨VramRect.ofWords position size, words.toArray⟩], none) := by
    rw [hidle]
    exact Decoder.takeAll_upload hload hwords
  have hrun : gpu.runAll [.upload ⟨VramRect.ofWords position size, words.toArray⟩] =
      { gpu with
        vram := (ImageLoad.mk (VramRect.ofWords position size) words.toArray).draw
          gpu.status.setMask gpu.status.checkMask gpu.vram } := by
    simp only [runAll, List.foldl_cons, List.foldl_nil, run]
  have hblock := writeBlock_of_takeAll hgpu htake
  rw [hrun, ← hgpu.writeAll_eq_writeBlock] at hblock
  refine ⟨_, hblock, ?_, ?_, ?_, ?_⟩
  all_goals dsimp only [withFrontEnd]

/-- **A bitmap survives upload, display and export.**  It may be uploaded to any place, wrapping around
the edges, with rows of an odd length among them; the display shows what starts there at 24 bits.
Composing the surface writes no pixel that it does not have, every pixel is opaque, whatever the surface
showed before, and what is exported are the bytes of the bitmap. -/
theorem ppm_upload (hgpu : gpu.Reachable) (hidle : gpu.decoder = .idle)
    (hset : gpu.status.setMask = false) (hcheck : gpu.status.checkMask = false)
    (hon : gpu.status.displayDisabled = false) (hdeep : gpu.status.deepDisplay = true) {load : Word}
    (hload : Command.ofOpcode? (Command.opcode load) = some .upload)
    (hwidth : 1 ≤ bitmap.width ∧ bitmap.width ≤ 682)
    (hheight : 1 ≤ bitmap.height ∧ bitmap.height ≤ 512) (hwords : bitmap.Carries words)
    (hview : surface.view = .display) (hsize : surface.size = (bitmap.width, bitmap.height))
    (position size : Word) :
    ∃ written,
      gpu.writeAll (load :: putPair gpu.display.startX gpu.display.startY position ::
        putPair bitmap.cellsPerRow bitmap.height size :: words) = (written, none) ∧
      surface.paint? (Surface.displayedPixel written.vram written.display .packed24) =
        some (written.showOn surface) ∧
      (∀ p ∈ (written.showOn surface).pixels.toList, p.toNat / 16777216 = 255) ∧
      (written.showOn surface).ppm =
        (Surface.ppmHeader bitmap.width bitmap.height).toList.map (fun c => UInt8.ofNat c.toNat) ++
          bitmap.bytes := by
  have hrect := Bitmap.ofWords_putPair hwidth hheight gpu.display.startX gpu.display.startY position size
  have hlength : words.length = (VramRect.ofWords
      (putPair gpu.display.startX gpu.display.startY position)
      (putPair bitmap.cellsPerRow bitmap.height size)).wordCount := by
    rw [hrect]
    exact hwords.length
  obtain ⟨written, hwritten, hvram, hdisplay, hdisabled, hdepth⟩ :=
    writeAll_upload hgpu.handshake hidle hload hlength
  have hshown := showOn_deepDisplay (hdisabled.trans hon) (hdepth.trans hdeep) hview
  obtain ⟨hcolumns, hrows⟩ := Prod.mk.inj hsize
  have hpixel : ∀ x < bitmap.width, ∀ y < bitmap.height,
      Surface.displayedPixel written.vram written.display .packed24 x y =
        Rgba.opaquePixel (bitmap.color x y).red.toNat (bitmap.color x y).green.toNat
          (bitmap.color x y).blue.toNat := by
    intro x hx y hy
    rw [hvram, hdisplay, hrect, hset, hcheck]
    exact Bitmap.displayedPixel_draw hwords hwidth.2 hheight.2 gpu.vram hx hy
  refine ⟨written, hwritten, ?_, ?_, ?_⟩
  · rw [hshown, Surface.paint?_eq_compose]
  · intro p hp
    rw [hshown, Surface.toList_compose] at hp
    obtain ⟨cell, hcell, rfl⟩ := List.mem_map.1 hp
    obtain ⟨hx, hy⟩ := Grid.mem_offsets.1 hcell
    rw [hpixel _ (hx.trans_eq hcolumns) _ (hy.trans_eq hrows), Rgba.opacity_opaquePixel]
  · rw [hshown, Surface.ppm_compose, hcolumns, hrows]
    refine congrArg _ (List.flatMap_congr fun y hy => List.flatMap_congr fun x hx => ?_)
    rw [hpixel x (List.mem_range.1 hx) y (List.mem_range.1 hy), Rgba.rgb_opaquePixel]

/-- Nine pixels that are shown around the lower right corner of the picture memory, with a byte to spare
in every row and two at the end. -/
theorem ppm_upload_wrapped :
    let gpu := ((powerOn.act (.control 0x03000000)).act (.control 0x08000010)).act
      (.control 0x0507FBFE)
    let bitmap : Bitmap := ⟨3, 3, fun x y => ⟨UInt8.ofNat x, UInt8.ofNat y, 9⟩⟩
    let words : List Word := [0x01090000, 0x00020900, 0x0100AA09, 0x09010109, 0xAA090102, 0x01090200,
      0x02020902, 0xBBBBAA09]
    let surface := Surface.blank .display 3 3
    gpu.Reachable ∧ gpu.decoder = .idle ∧ gpu.status.displayDisabled = false ∧
      gpu.status.deepDisplay = true ∧ bitmap.Carries words ∧
      ∃ written,
        gpu.writeAll (0xA0000000 :: 0x01FE03FE :: 0x00030005 :: words) = (written, none) ∧
        surface.paint? (Surface.displayedPixel written.vram written.display .packed24) =
          some (written.showOn surface) ∧
        (∀ p ∈ (written.showOn surface).pixels.toList, p.toNat / 16777216 = 255) ∧
        (written.showOn surface).ppm =
          [0x50, 0x36, 0x0A, 0x33, 0x20, 0x33, 0x0A, 0x32, 0x35, 0x35, 0x0A,
            0, 0, 9, 1, 0, 9, 2, 0, 9,
            0, 1, 9, 1, 1, 9, 2, 1, 9,
            0, 2, 9, 1, 2, 9, 2, 2, 9] := by
  intro gpu bitmap words surface
  have hreachable : gpu.Reachable :=
    .act (.control _) (.act (.control _) (.act (.control _) .powerOn))
  have hidle : gpu.decoder = .idle := by decide +kernel
  have hon : gpu.status.displayDisabled = false := by decide +kernel
  have hdeep : gpu.status.deepDisplay = true := by decide +kernel
  have hspare : [(0xAA : UInt8)].length = 3 * bitmap.width % 2 := by decide
  have hcarries : bitmap.Carries words :=
    ⟨by decide, fun _ => [0xAA], [0xBB, 0xBB], fun _ => hspare, by decide +kernel⟩
  have hposition : putPair gpu.display.startX gpu.display.startY 0 = 0x01FE03FE := by
    decide +kernel
  have hsize : putPair bitmap.cellsPerRow bitmap.height 0 = 0x00030005 := by
    decide +kernel
  have hload : Command.ofOpcode? (Command.opcode 0xA0000000) = some .upload := by decide
  have hview : surface.view = .display := rfl
  obtain ⟨written, hwritten, hpaint, halpha, hppm⟩ := ppm_upload hreachable hidle
    (by decide +kernel) (by decide +kernel) hon hdeep hload (by decide) (by decide) hcarries hview
    rfl 0 0
  rw [hposition, hsize] at hwritten
  exact ⟨hreachable, hidle, hon, hdeep, hcarries, written, hwritten, hpaint, halpha,
    hppm.trans (by decide +kernel)⟩

end Gpu

end ConsoleVideo
