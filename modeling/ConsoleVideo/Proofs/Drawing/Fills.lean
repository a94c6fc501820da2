import ConsoleVideo.Proofs.Command.Spelling
import ConsoleVideo.Proofs.Drawing.Places
import ConsoleVideo.Proofs.Gpu.Pixels

/-!
# Fills

A fill has no regard for the drawing area, the offset or the mask flags.  It writes one colour into
every cell of a block that may run over both edges, and leaves every other cell alone.

* `Color.deep_ofWord`, `Color.pack_ofWord` — what the colour in a command word is in both forms;
* `Fill.both_draw`, `Fill.both_draw_outside` — what a fill leaves in its block and beside it;
* `Fill.takeAll_words` — the job of the three words of a fill;
* `Gpu.execute_fill` — three words, and what they make of the picture.
-/

namespace ConsoleVideo

/-! ### The colour -/

namespace Color

theorem toNat_deep (c : Color) :
    c.deep.toNat = c.red.toNat + 256 * c.green.toNat + 65536 * c.blue.toNat := by
  have hred := c.red.toNat_lt
  have hgreen := c.green.toNat_lt
  have hblue := c.blue.toNat_lt
  rw [deep, Deep.ofChannels, UInt32.toNat_ofNat']
  omega

/-- A colour has nothing above its channels. -/
theorem toNat_deep_lt (c : Color) : c.deep.toNat < 16777216 := by
  have hred := c.red.toNat_lt
  have hgreen := c.green.toNat_lt
  have hblue := c.blue.toNat_lt
  rw [toNat_deep]
  omega

theorem ofWord_deep_self (c : Color) : Deep.ofWord c.deep = c.deep := by
  have hlt := c.toNat_deep_lt
  apply UInt32.toNat_inj.1
  rw [Deep.ofWord, UInt32.toNat_ofNat']
  omega

theorem isMasked_deep (c : Color) : Deep.isMasked c.deep = false := by
  have hlt := c.toNat_deep_lt
  apply beq_false_of_ne
  rw [Deep.mask]
  omega

/-- The three channels of a command word are its lower 24 bits. -/
theorem deep_ofWord (w : Word) : (ofWord w).deep = w &&& 0x00FFFFFF := by
  have hmasked : (w &&& 0x00FFFFFF).toNat = w.toNat % 16777216 :=
    Framing.toNat_and_mask w 0x00FFFFFF 24 rfl
  apply UInt32.toNat_inj.1
  rw [toNat_deep, hmasked]
  simp only [ofWord, Deep.red, Deep.green, Deep.blue, UInt8.toNat_ofNat']
  omega

/-- Packed, a channel keeps its upper five bits. -/
theorem pack_ofWord (w : Word) :
    Deep.pack (ofWord w).deep =
      UInt16.ofNat (w.field 3 5 + 32 * w.field 11 5 + 1024 * w.field 19 5) := by
  have hdeep : (w &&& 0x00FFFFFF).toNat = w.toNat % 16777216 := Framing.toNat_and_mask w 0x00FFFFFF 24 rfl
  have hred : Deep.red (w &&& 0x00FFFFFF) / 8 = w.field 3 5 := by
    show (w &&& 0x00FFFFFF).toNat % 256 / 8 = w.toNat / 8 % 32
    omega
  have hgreen : Deep.green (w &&& 0x00FFFFFF) / 8 = w.field 11 5 := by
    show (w &&& 0x00FFFFFF).toNat / 256 % 256 / 8 = w.toNat / 2048 % 32
    omega
  have hblue : Deep.blue (w &&& 0x00FFFFFF) / 8 = w.field 19 5 := by
    show (w &&& 0x00FFFFFF).toNat / 65536 % 256 / 8 = w.toNat / 524288 % 32
    omega
  have hmask : Deep.mask (w &&& 0x00FFFFFF) = 0 := by
    show (w &&& 0x00FFFFFF).toNat / 16777216 % 2 = 0
    omega
  rw [deep_ofWord, Deep.pack, hred, hgreen, hblue, hmask]
  rfl

end Color

/-! ### The block -/

namespace Fill

variable {fill : Fill}

/-- The block that is filled. -/
def block (fill : Fill) : VramRect where
  x := fill.x
  y := fill.y
  width := fill.width
  height := fill.height

/-- Both forms of the pixel that is written. -/
def pixel (fill : Fill) : Deep × Native :=
  (fill.color.deep, Deep.pack fill.color.deep)

/-- Every step writes the same pixel, whatever was there. -/
theorem writes_step (fill : Fill) :
    Vram.Writes
      (fun vram dx dy => vram.set (fill.x + dx : Nat) (fill.y + dy : Nat) fill.color.deep)
      fill.block.cellAt fun _ _ => fill.pixel := by
  intro vram offset i
  show (vram.put (fill.block.cellAt offset) (Deep.ofWord fill.color.deep)
    (Deep.pack (Deep.ofWord fill.color.deep))).both i = _
  rw [Vram.both_put, Color.ofWord_deep_self]
  rfl

/-- **A fill reaches every cell of its block**, over the edges too. -/
theorem both_draw (hfits : fill.block.Fits) (vram : Vram) {offset : Nat × Nat}
    (hoffset : offset ∈ Grid.offsets fill.width fill.height) :
    (fill.draw vram).both (fill.block.cellAt offset) = fill.pixel :=
  fill.writes_step.walk_inside vram
    (fun _ hoffset _ hother => VramRect.cellAt_inj hfits hoffset hother) hoffset

/-- **A fill leaves the cells beside its block as they were.** -/
theorem both_draw_outside (vram : Vram) {i : Fin Vram.size} (houtside : ¬ fill.block.Covers i) :
    (fill.draw vram).both i = vram.both i :=
  fill.writes_step.walk_outside vram fun offset hoffset hcell =>
    houtside ⟨offset, hoffset, hcell⟩

/-- A block without columns or without rows has no cells. -/
theorem draw_of_empty (hempty : fill.width = 0 ∨ fill.height = 0) (vram : Vram) :
    fill.draw vram = vram := by
  apply Vram.ext_both
  intro i
  apply both_draw_outside
  rintro ⟨offset, hoffset, -⟩
  obtain ⟨hdx, hdy⟩ := Grid.mem_offsets.1 hoffset
  rcases hempty with hwidth | hheight
  · exact absurd (hwidth ▸ hdx : offset.1 < 0) (Nat.not_lt_zero _)
  · exact absurd (hheight ▸ hdy : offset.2 < 0) (Nat.not_lt_zero _)

/-! ### The words -/

/-- The fill that three words describe. -/
def ofWords (color corner size : Word) : Fill where
  color := Color.ofWord color
  x := corner.field 0 10
  y := corner.field 16 9
  width := size.field 0 10
  height := size.field 16 9

theorem takeAll_words {color corner size : Word} (hfill : Command.opcode color = 0x02) :
    Decoder.idle.takeAll [color, corner, size] =
      (.idle, [.fill (ofWords color corner size)], none) := by
  have hcommand : Command.ofOpcode? (Command.opcode color) = some .fill := by
    rw [hfill]
    rfl
  exact Decoder.takeAll_of_pushAll (Decoder.pushAll_of_build? rfl hcommand
    (fun hupload => Command.noConfusion hupload) rfl rfl)

/-- The fields are too small for a block that wraps onto itself. -/
theorem fits_ofWords (color corner size : Word) : (ofWords color corner size).block.Fits where
  width := Nat.le_of_lt (size.field_lt 0 10)
  height := Nat.le_of_lt (size.field_lt 16 9)

end Fill

/-! ### The picture -/

namespace Vram

/-- The cells that are reached from a corner, counting on beyond the right and the lower edge. -/
def Reached (x y width height : Nat) (i : Fin size) : Prop :=
  ∃ dx dy, dx < width ∧ dy < height ∧ i.val = (y + dy) % 512 * 1024 + (x + dx) % 1024

theorem val_cell (x y : Nat) : (cell x y).val = y % 512 * 1024 + x % 1024 := by
  show ((y : Int) % 512 * 1024 + (x : Int) % 1024).toNat = _
  omega

end Vram

theorem VramRect.covers_iff (rect : VramRect) (i : Fin Vram.size) :
    rect.Covers i ↔ Vram.Reached rect.x rect.y rect.width rect.height i := by
  constructor
  · rintro ⟨offset, hoffset, rfl⟩
    obtain ⟨hdx, hdy⟩ := Grid.mem_offsets.1 hoffset
    exact ⟨offset.1, offset.2, hdx, hdy, Vram.val_cell _ _⟩
  · rintro ⟨dx, dy, hdx, hdy, hi⟩
    refine ⟨(dx, dy), Grid.mem_offsets.2 ⟨hdx, hdy⟩, Fin.ext ?_⟩
    rw [hi]
    exact Vram.val_cell _ _

namespace Gpu

/-- **A fill writes exactly its block.**  The three words of a fill make one job, which succeeds
whatever the drawing area, the offset and the mask settings are.  Every cell that is reached from the
corner then holds the colour of the first word: its 24 bits as they are, the upper five of each channel
in the native form, and the mask flag in neither.  Every other cell keeps both of its forms, a block
without columns or rows leaves all of them alone, and nothing else in the hardware changes. -/
theorem execute_fill (gpu : Gpu) {color corner size : Word} (hfill : Command.opcode color = 0x02) :
    let reached := Vram.Reached (corner.field 0 10) (corner.field 16 9) (size.field 0 10)
      (size.field 16 9)
    ∃ job vram, Decoder.idle.takeAll [color, corner, size] = (.idle, [job], none) ∧
      gpu.execute job = ({ gpu with vram := vram }, none) ∧
      (∀ i, reached i →
        vram.deep.get i = color &&& 0x00FFFFFF ∧
        vram.native.get i =
          UInt16.ofNat (color.field 3 5 + 32 * color.field 11 5 + 1024 * color.field 19 5) ∧
        Deep.isMasked (vram.deep.get i) = false ∧ Native.isMasked (vram.native.get i) = false) ∧
      (∀ i, ¬ reached i →
        vram.deep.get i = gpu.vram.deep.get i ∧ vram.native.get i = gpu.vram.native.get i) ∧
      (size.field 0 10 = 0 ∨ size.field 16 9 = 0 → vram = gpu.vram) := by
  intro reached
  let fill := Fill.ofWords color corner size
  refine ⟨.fill fill, fill.draw gpu.vram, Fill.takeAll_words hfill, rfl, ?_, ?_, ?_⟩
  · intro i hi
    obtain ⟨offset, hoffset, rfl⟩ := (fill.block.covers_iff i).2 hi
    have hboth := fill.both_draw (Fill.fits_ofWords color corner size) gpu.vram hoffset
    have hdeep : (fill.draw gpu.vram).deep.get (fill.block.cellAt offset) = fill.color.deep :=
      congrArg Prod.fst hboth
    have hnative : (fill.draw gpu.vram).native.get (fill.block.cellAt offset) =
        Deep.pack fill.color.deep :=
      congrArg Prod.snd hboth
    rw [hdeep, hnative, Deep.isMasked_pack]
    exact ⟨Color.deep_ofWord color, Color.pack_ofWord color, fill.color.isMasked_deep,
      fill.color.isMasked_deep⟩
  · intro i hi
    have hboth := fill.both_draw_outside gpu.vram fun hcovers => hi ((fill.block.covers_iff i).1 hcovers)
    exact ⟨congrArg Prod.fst hboth, congrArg Prod.snd hboth⟩
  · intro hempty
    exact Fill.draw_of_empty hempty gpu.vram

/-- A fill around the lower right corner, with mask flags set and checked and a drawing area of one
cell: it writes over a masked cell on the other side, and not beyond its last row and column. -/
theorem execute_fill_wrapped :
    let gpu : Gpu := { powerOn with
      vram := Vram.blank.set 0 0 0x01000000
      status := { powerOn.status with setMask := true, checkMask := true }
      environment := { powerOn.environment with area := ⟨5, 5, 5, 5⟩ } }
    Command.opcode 0x02F88040 = 0x02 ∧
      ∃ job vram, Decoder.idle.takeAll [0x02F88040, 0x01FF03FF, 0x00020002] = (.idle, [job], none) ∧
        gpu.execute job = ({ gpu with vram := vram }, none) ∧
        gpu.vram.native.get (Vram.cell 0 0) = 0x8000 ∧
        vram.deep.get (Vram.cell 0 0) = 0x00F88040 ∧ vram.native.get (Vram.cell 0 0) = 0x7E08 ∧
        vram.deep.get (Vram.cell 1023 511) = 0x00F88040 ∧
        vram.deep.get (Vram.cell 1 1) = gpu.vram.deep.get (Vram.cell 1 1) := by
  intro gpu
  have hfill : Command.opcode 0x02F88040 = 0x02 := by decide
  have hmasked : gpu.vram.native.get (Vram.cell 0 0) = 0x8000 :=
    (Vram.get_native_put _ _ _ _ _).trans (if_pos rfl)
  obtain ⟨job, vram, htake, hexecute, hinside, hbeside, -⟩ :=
    @execute_fill gpu 0x02F88040 0x01FF03FF 0x00020002 hfill
  have hopposite := hinside (Vram.cell 0 0) ⟨1, 1, by decide, by decide, by decide⟩
  have hcorner := hinside (Vram.cell 1023 511) ⟨0, 0, by decide, by decide, by decide⟩
  have hafter := hbeside (Vram.cell 1 1) (by
    rintro ⟨dx, dy, hdx, hdy, hi⟩
    have hcolumn : dx < 2 := hdx
    have hrow : dy < 2 := hdy
    have hindex : 1025 = (511 + dy) % 512 * 1024 + (1023 + dx) % 1024 := hi
    omega)
  exact ⟨hfill, job, vram, htake, hexecute, hmasked, hopposite.1, hopposite.2.1, hcorner.1, hafter.1⟩

end Gpu

end ConsoleVideo
