import ConsoleVideo.Drawing.Block
import Mathlib.Data.List.Nodup

/-!
# Images in the picture memory

A block is written cell by cell, through coordinates that wrap around both edges, and read back by
counting pixels.  No block is larger than the memory, so that it never comes upon its own cells a
second time, and what was written to it is what is read.

* `Vram.both` — both forms of a cell, with `both_put`;
* `VramRect.Fits`, `VramRect.cellAt_inj` — wrapping takes different pixels of a block to different
  cells;
* `Vram.Writes` — steps that write one cell each; `Writes.walk_inside`, `Writes.walk_outside` — what a
  walk of such steps leaves in its block and beside it;
* `ImageLoad.both_draw`, `ImageLoad.both_draw_outside` — what an image leaves in every cell, with
  `nativeAt_draw`;
* `VramRect.read_draw` — an image that is read back.
-/

namespace ConsoleVideo

theorem Grid.nodup_offsets (width height : Nat) : (offsets width height).Nodup := by
  rw [offsets, List.nodup_flatMap]
  constructor
  · intro dy _
    exact List.nodup_range.map fun dx dx' h => congrArg Prod.fst h
  · refine List.nodup_range.imp fun {dy dy'} hne => ?_
    intro cell hcell hcell'
    obtain ⟨dx, -, rfl⟩ := List.mem_map.1 hcell
    obtain ⟨dx', -, h⟩ := List.mem_map.1 hcell'
    exact hne (congrArg Prod.snd h).symm

/-! ### The cells of a block -/

namespace VramRect

variable {rect : VramRect}

/-- The cell of a pixel of the block. -/
def cellAt (rect : VramRect) (offset : Nat × Nat) : Fin Vram.size :=
  Vram.cell (rect.x + offset.1 : Nat) (rect.y + offset.2 : Nat)

/-- The block is no larger than the picture memory. -/
structure Fits (rect : VramRect) : Prop where
  width : rect.width ≤ 1024
  height : rect.height ≤ 512

/-- A cell belongs to the block. -/
def Covers (rect : VramRect) (i : Fin Vram.size) : Prop :=
  ∃ offset ∈ Grid.offsets rect.width rect.height, rect.cellAt offset = i

theorem fits_ofWords (position size : Word) : (ofWords position size).Fits where
  width := wrappedSize_le (by decide)
  height := wrappedSize_le (by decide)

/-- No block has more pixels than the picture memory. -/
theorem Fits.pixelCount_le (h : rect.Fits) : rect.pixelCount ≤ 1024 * 512 :=
  Nat.mul_le_mul h.width h.height

/-- **A block does not wrap onto itself.** -/
theorem cellAt_inj (h : rect.Fits) {offset other : Nat × Nat}
    (hoffset : offset ∈ Grid.offsets rect.width rect.height)
    (hother : other ∈ Grid.offsets rect.width rect.height)
    (hcell : rect.cellAt offset = rect.cellAt other) : offset = other := by
  obtain ⟨dx, dy⟩ := offset
  obtain ⟨dx', dy'⟩ := other
  obtain ⟨hdx, hdy⟩ := Grid.mem_offsets.1 hoffset
  obtain ⟨hdx', hdy'⟩ := Grid.mem_offsets.1 hother
  obtain ⟨hcolumn, hrow⟩ := Vram.cell_eq_iff.1 hcell
  have hwidth := h.width
  have hheight := h.height
  simp only at hdx hdy hdx' hdy' hcolumn hrow
  have hx : dx = dx' := by omega
  have hy : dy = dy' := by omega
  rw [hx, hy]

/-- Pixel `i` of the block is where counting row by row comes to it. -/
theorem mem_offsets_of_lt {i : Nat} (h : i < rect.pixelCount) :
    (i % rect.width, i / rect.width) ∈ Grid.offsets rect.width rect.height := by
  have hwidth : 0 < rect.width := by
    rcases Nat.eq_zero_or_pos rect.width with hzero | hpos
    · rw [pixelCount, hzero, Nat.zero_mul] at h
      exact absurd h (Nat.not_lt_zero i)
    · exact hpos
  exact Grid.mem_offsets.2 ⟨Nat.mod_lt i hwidth, Nat.div_lt_of_lt_mul h⟩

end VramRect

/-! ### Writing cell by cell -/

namespace Vram

theorem get_deep_put (vram : Vram) (i j : Fin size) (deep : Deep) (native : Native) :
    (vram.put i deep native).deep.get j = if i = j then deep else vram.deep.get j :=
  deep_put vram i j deep native

theorem get_native_put (vram : Vram) (i j : Fin size) (deep : Deep) (native : Native) :
    (vram.put i deep native).native.get j = if i = j then native else vram.native.get j :=
  native_put vram i j deep native

/-- Both forms of a cell. -/
def both (vram : Vram) (i : Fin size) : Deep × Native :=
  (vram.deep.get i, vram.native.get i)

theorem both_put (vram : Vram) (i j : Fin size) (deep : Deep) (native : Native) :
    (vram.put i deep native).both j = if i = j then (deep, native) else vram.both j := by
  rw [both, get_deep_put, get_native_put]
  split <;> rfl

/-- Every step writes the cell of its offset and no other one, and what it writes follows from what
was there. -/
def Writes (act : Vram → Nat → Nat → Vram) (place : Nat × Nat → Fin size)
    (new : Nat × Nat → Deep × Native → Deep × Native) : Prop :=
  ∀ (vram : Vram) (offset : Nat × Nat) (i : Fin size),
    (act vram offset.1 offset.2).both i =
      if place offset = i then new offset (vram.both i) else vram.both i

namespace Writes

variable {act : Vram → Nat → Nat → Vram} {place : Nat × Nat → Fin size}
  {new : Nat × Nat → Deep × Native → Deep × Native} (h : Writes act place new)

include h

theorem foldl_outside {offsets : List (Nat × Nat)} {i : Fin size}
    (houtside : ∀ offset ∈ offsets, place offset ≠ i) (vram : Vram) :
    (offsets.foldl (fun vram offset => act vram offset.1 offset.2) vram).both i = vram.both i := by
  induction offsets generalizing vram with
  | nil => rfl
  | cons offset offsets ih =>
    rw [List.foldl_cons, ih fun later hlater => houtside later (List.mem_cons_of_mem offset hlater),
      h vram offset i, if_neg (houtside offset List.mem_cons_self)]

/-- A cell that is come upon once has what was written to it then. -/
theorem foldl_inside {offsets : List (Nat × Nat)}
    (hdistinct : offsets.Pairwise fun offset later => place offset ≠ place later)
    {offset : Nat × Nat} (hoffset : offset ∈ offsets) (vram : Vram) :
    (offsets.foldl (fun vram offset => act vram offset.1 offset.2) vram).both (place offset) =
      new offset (vram.both (place offset)) := by
  induction offsets generalizing vram with
  | nil => exact absurd hoffset List.not_mem_nil
  | cons first offsets ih =>
    obtain ⟨hfirst, hrest⟩ := List.pairwise_cons.1 hdistinct
    rw [List.foldl_cons]
    rcases List.mem_cons.1 hoffset with rfl | hlater
    · rw [h.foldl_outside fun later hlater => (hfirst later hlater).symm, h vram offset,
        if_pos rfl]
    · rw [ih hrest hlater, h vram first, if_neg (hfirst offset hlater)]

variable {width height : Nat} (vram : Vram)

/-- **A walk leaves the cells beside its block as they were.** -/
theorem walk_outside {i : Fin size}
    (houtside : ∀ offset ∈ Grid.offsets width height, place offset ≠ i) :
    (Grid.walk width height act vram).both i = vram.both i := by
  rw [Grid.walk_eq_foldl]
  exact h.foldl_outside houtside vram

/-- **A walk writes every cell of its block once**, if the block does not come upon a cell twice. -/
theorem walk_inside
    (hinj : ∀ offset ∈ Grid.offsets width height, ∀ other ∈ Grid.offsets width height,
      place offset = place other → offset = other)
    {offset : Nat × Nat} (hoffset : offset ∈ Grid.offsets width height) :
    (Grid.walk width height act vram).both (place offset) =
      new offset (vram.both (place offset)) := by
  have hdistinct : (Grid.offsets width height).Pairwise
      fun offset later => place offset ≠ place later :=
    (Grid.nodup_offsets width height).imp_of_mem fun hoffset hlater hne hplace =>
      hne (hinj _ hoffset _ hlater hplace)
  rw [Grid.walk_eq_foldl]
  exact h.foldl_inside hdistinct hoffset vram

end Writes

end Vram

/-! ### Images -/

namespace ImageLoad

variable (load : ImageLoad) (setMask checkMask : Bool)

/-- What an image makes of a cell. -/
def written (offset : Nat × Nat) (old : Deep × Native) : Deep × Native :=
  match load.pixel? (offset.2 * load.rect.width + offset.1) with
  | none => old
  | some pixel =>
    if checkMask && Native.isMasked old.2 then old
    else (Native.expand (Native.forceMask pixel setMask), Native.forceMask pixel setMask)

theorem writes_step :
    Vram.Writes (load.step setMask checkMask) load.rect.cellAt (load.written setMask checkMask) := by
  intro vram offset i
  rw [step, written]
  cases load.pixel? (offset.2 * load.rect.width + offset.1) with
  | none => exact (ite_self (vram.both i)).symm
  | some pixel =>
    show Vram.both (if checkMask && Native.isMasked (vram.both (load.rect.cellAt offset)).2 then vram
      else vram.put (load.rect.cellAt offset) (Native.expand (Native.forceMask pixel setMask))
        (Native.forceMask pixel setMask)) i = _
    rw [apply_ite (Vram.both · i), Vram.both_put]
    by_cases hplace : load.rect.cellAt offset = i
    · subst hplace
      rw [if_pos rfl, if_pos rfl]
    · rw [if_neg hplace, if_neg hplace, ite_self]

/-- **An image reaches every cell of its block once.** -/
theorem both_draw (hrect : load.rect.Fits) (vram : Vram) {offset : Nat × Nat}
    (hoffset : offset ∈ Grid.offsets load.rect.width load.rect.height) :
    (load.draw setMask checkMask vram).both (load.rect.cellAt offset) =
      load.written setMask checkMask offset (vram.both (load.rect.cellAt offset)) :=
  (load.writes_step setMask checkMask).walk_inside vram
    (fun _ hoffset _ hother => VramRect.cellAt_inj hrect hoffset hother) hoffset

/-- **An image leaves the cells beside its block as they were.** -/
theorem both_draw_outside (vram : Vram) {i : Fin Vram.size} (houtside : ¬ load.rect.Covers i) :
    (load.draw setMask checkMask vram).both i = vram.both i :=
  (load.writes_step setMask checkMask).walk_outside vram fun offset hoffset hcell =>
    houtside ⟨offset, hoffset, hcell⟩

/-- A pixel of an image is found by counting on from the corner of its block, beyond the edges too. -/
theorem nativeAt_draw (hrect : load.rect.Fits) (startX startY : Nat)
    (hx : load.rect.x = startX % 1024) (hy : load.rect.y = startY % 512) {dx dy : Nat}
    (hdx : dx < load.rect.width) (hdy : dy < load.rect.height) {pixel : Native}
    (hpixel : load.pixel? (dy * load.rect.width + dx) = some pixel) (vram : Vram) :
    (load.draw false false vram).nativeAt (startX + dx : Nat) (startY + dy : Nat) = pixel := by
  have hdrawn := load.both_draw false false hrect vram
    (Grid.mem_offsets.2 ⟨hdx, hdy⟩ : (dx, dy) ∈ Grid.offsets load.rect.width load.rect.height)
  have hcell : Vram.cell (startX + dx : Nat) (startY + dy : Nat) = load.rect.cellAt (dx, dy) := by
    rw [VramRect.cellAt, Vram.cell_eq_iff, hx, hy]
    omega
  rw [← hcell, written, hpixel] at hdrawn
  exact congrArg Prod.snd hdrawn

/-! ### Reading an image back -/

/-- The words of a payload as they come back: with the mask flag of every pixel set where that is
switched on, and with nothing behind the last pixel. -/
def echo (setMask : Bool) (pixelCount : Nat) (payload : List Word) : List Word :=
  payload.mapIdx fun k w =>
    let sent := if setMask then w ||| 0x80008000 else w
    if 2 * k + 1 < pixelCount then sent else sent &&& 0xFFFF

end ImageLoad

/-- The mask flag is the highest bit. -/
theorem Native.toNat_forceMask (n : Native) : (forceMask n true).toNat = n.toNat ||| 0x8000 := by
  have hsmall := n.toNat_lt
  have hcolor : (n.toNat ||| 0x8000) % 2 ^ 15 = n.toNat % 2 ^ 15 ||| 0 := Nat.or_mod_two_pow
  have hflag : (n.toNat ||| 0x8000) / 2 ^ 15 = n.toNat / 2 ^ 15 ||| 1 := Nat.or_div_two_pow
  have hset : n.toNat / 2 ^ 15 ||| 1 = 1 := by
    have hbit : n.toNat / 2 ^ 15 = 0 ∨ n.toNat / 2 ^ 15 = 1 := by omega
    rcases hbit with hclear | hset
    · rw [hclear]
      rfl
    · rw [hset]
      rfl
  rw [Nat.or_zero] at hcolor
  rw [hset] at hflag
  rw [forceMask, if_pos rfl, UInt16.toNat_ofNat']
  omega

namespace ImageLoad

theorem toNat_half_low (w : Word) {i : Nat} (h : i % 2 = 0) :
    (half w i).toNat = w.toNat % 65536 := by
  rw [half, if_pos h, UInt16.toNat_ofNat']

theorem toNat_half_high (w : Word) {i : Nat} (h : i % 2 = 1) :
    (half w i).toNat = w.toNat / 65536 := by
  have hword := w.toNat_lt
  rw [half, if_neg (by omega), UInt16.toNat_ofNat']
  omega

/-- The flags of a word are those of its halves. -/
theorem toNat_sent (w : Word) (setMask : Bool) {i j : Nat} (hi : i % 2 = 0) (hj : j % 2 = 1) :
    (if setMask then w ||| 0x80008000 else w).toNat =
      (Native.forceMask (half w i) setMask).toNat +
        65536 * (Native.forceMask (half w j) setMask).toNat := by
  cases setMask with
  | false =>
    show w.toNat = (half w i).toNat + 65536 * (half w j).toNat
    rw [toNat_half_low w hi, toNat_half_high w hj, Nat.mod_add_div]
  | true =>
    have hlow : (w.toNat ||| 0x80008000) % 2 ^ 16 = w.toNat % 2 ^ 16 ||| 0x8000 :=
      Nat.or_mod_two_pow
    have hhigh : (w.toNat ||| 0x80008000) / 2 ^ 16 = w.toNat / 2 ^ 16 ||| 0x8000 :=
      Nat.or_div_two_pow
    rw [Native.toNat_forceMask, Native.toNat_forceMask, toNat_half_low w hi, toNat_half_high w hj]
    show (w.toNat ||| 0x80008000) =
      (w.toNat % 2 ^ 16 ||| 0x8000) + 2 ^ 16 * (w.toNat / 2 ^ 16 ||| 0x8000)
    rw [← hlow, ← hhigh, Nat.mod_add_div]

variable {load : ImageLoad}

theorem pixel?_eq {k i : Nat} (hk : k < load.payload.size) (hi : i / 2 = k) :
    load.pixel? i = some (half load.payload[k] i) := by
  rw [pixel?, hi, Array.getElem?_eq_getElem hk, Option.map_some]

end ImageLoad

namespace VramRect

variable {load : ImageLoad} (hrect : load.rect.Fits) (setMask : Bool) (vram : Vram)

include hrect

theorem pixel_draw {i : Nat} (hi : i < load.rect.pixelCount) {pixel : Native}
    (hpixel : load.pixel? i = some pixel) :
    load.rect.pixel (load.draw setMask false vram) i = Native.forceMask pixel setMask := by
  have hcell := load.both_draw setMask false hrect vram (mem_offsets_of_lt hi)
  have hindex : i / load.rect.width * load.rect.width + i % load.rect.width = i :=
    Nat.div_add_mod' i load.rect.width
  rw [ImageLoad.written, hindex, hpixel] at hcell
  exact congrArg Prod.snd hcell

/-- **An image comes back word by word**, if its payload was complete and nothing was masked. -/
theorem read_draw (hpayload : load.payload.size = load.rect.wordCount) :
    load.rect.read (load.draw setMask false vram) =
      ImageLoad.echo setMask load.rect.pixelCount load.payload.toList := by
  apply List.ext_getElem
  · rw [length_read, ImageLoad.echo, List.length_mapIdx, Array.length_toList, hpayload]
  intro k hread hecho
  rw [length_read] at hread
  have hword : k < load.payload.size := hpayload ▸ hread
  have hlow : 2 * k < load.rect.pixelCount := by
    rw [wordCount] at hread
    omega
  have hsent := ImageLoad.toNat_sent load.payload[k] setMask
    (show 2 * k % 2 = 0 by omega) (show (2 * k + 1) % 2 = 1 by omega)
  have hfirst := pixel_draw hrect setMask vram hlow (ImageLoad.pixel?_eq hword (by omega))
  simp only [read, List.getElem_map, List.getElem_range, ImageLoad.echo, List.getElem_mapIdx,
    Array.getElem_toList]
  apply UInt32.toNat_inj.1
  have hfirstSmall := (Native.forceMask (ImageLoad.half load.payload[k] (2 * k)) setMask).toNat_lt
  by_cases hhigh : 2 * k + 1 < load.rect.pixelCount
  · have hsecond := pixel_draw hrect setMask vram hhigh (ImageLoad.pixel?_eq hword (by omega))
    have hsecondSmall :=
      (Native.forceMask (ImageLoad.half load.payload[k] (2 * k + 1)) setMask).toNat_lt
    rw [readWord, if_pos hhigh, if_pos hhigh, hfirst, hsecond, hsent, UInt32.toNat_ofNat']
    omega
  · -- The last word holds one pixel, and the upper half of the payload word is lost.
    rw [readWord, if_neg hhigh, if_neg hhigh, hfirst, UInt32.toNat_and, hsent,
      UInt32.toNat_ofNat', show (0xFFFF : Word).toNat = 2 ^ 16 - 1 from rfl,
      Nat.and_two_pow_sub_one_eq_mod]
    omega

end VramRect

end ConsoleVideo
