import ConsoleVideo.Proofs.Command.Sizes
import ConsoleVideo.Proofs.Command.Spelling
import ConsoleVideo.Proofs.Drawing.Confinement

/-!
# Drawing from the picture itself

Copies and textured shapes read the picture that they draw into, pixel by pixel, while it changes.
When nothing is drawn into the cells that are read, this makes no difference: whenever a pixel is come
upon, its sources still hold what they held at the start, wherever blocks wrap around the edges.

* `Vram.SameOn` — pictures that agree in some cells;
* `Stroke.DrawsFrom` — a stroke that makes something of its cell that follows from the start, as long as
  the sources are as they were;
* `Stroke.both_drawn_inside`, `Stroke.both_drawn_outside` — what a run of such strokes leaves, if none of
  them draws into a source;
* `VramCopy.copied`, `VramCopy.drawsFrom_step` — a copy as such a run;
* `Gpu.execute_copy_of_disjoint` — a copy between blocks without a common cell.
-/

namespace ConsoleVideo

/-! ### Strokes with sources -/

/-- The pictures hold the same in these cells. -/
def Vram.SameOn (cells : Fin size → Prop) (vram other : Vram) : Prop :=
  ∀ i, cells i → vram.both i = other.both i

namespace Stroke

/-- As long as the sources hold what they held at the start, the stroke makes the same of what its cell
holds, and leaves all other cells alone. -/
def DrawsFrom (start : Vram) (sources : Fin Vram.size → Prop) (stroke : Stroke) (i : Fin Vram.size)
    (new : Deep × Native → Deep × Native) : Prop :=
  ∀ vram : Vram, vram.SameOn sources start → ∀ j,
    (stroke vram).both j = if i = j then new (vram.both j) else vram.both j

variable {start vram : Vram} {sources : Fin Vram.size → Prop} {i : Fin Vram.size}

/-- A stroke beside the sources leaves them as they were. -/
theorem DrawsFrom.sameOn {stroke : Stroke} {new : Deep × Native → Deep × Native}
    (h : DrawsFrom start sources stroke i new) (hi : ¬ sources i) (hsame : vram.SameOn sources start) :
    (stroke vram).SameOn sources start := by
  intro j hj
  have hne : i ≠ j := fun hij => hi (hij ▸ hj)
  rw [h vram hsame j, if_neg hne]
  exact hsame j hj

section Run

variable {α : Type} {steps : List α} {stroke : α → Stroke} {place : α → Fin Vram.size}
  {new : α → Deep × Native → Deep × Native}
  (hdraws : ∀ a ∈ steps, DrawsFrom start sources (stroke a) (place a) (new a))
  (hbeside : ∀ a ∈ steps, ¬ sources (place a)) (hsame : vram.SameOn sources start)

include hdraws hbeside hsame

theorem both_drawn_outside (hi : ∀ a ∈ steps, place a ≠ i) :
    (vram.drawn (steps.map stroke)).both i = vram.both i := by
  induction steps generalizing vram with
  | nil => rfl
  | cons a steps ih =>
    have hfirst := hdraws a List.mem_cons_self
    have hkept := hfirst.sameOn (hbeside a List.mem_cons_self) hsame
    show ((stroke a vram).drawn (steps.map stroke)).both i = vram.both i
    rw [ih (fun b hb => hdraws b (List.mem_cons_of_mem a hb))
        (fun b hb => hbeside b (List.mem_cons_of_mem a hb)) hkept
        (fun b hb => hi b (List.mem_cons_of_mem a hb)),
      hfirst vram hsame i, if_neg (hi a List.mem_cons_self)]

/-- **A cell that is come upon once has what the start makes of it**, if nothing is drawn into a
source. -/
theorem both_drawn_inside (hdistinct : (steps.map place).Nodup) {a : α} (ha : a ∈ steps) :
    (vram.drawn (steps.map stroke)).both (place a) = new a (vram.both (place a)) := by
  induction steps generalizing vram with
  | nil => exact absurd ha List.not_mem_nil
  | cons first steps ih =>
    have hfirst := hdraws first List.mem_cons_self
    have hkept := hfirst.sameOn (hbeside first List.mem_cons_self) hsame
    have hdraws' := fun b hb => hdraws b (List.mem_cons_of_mem first hb)
    have hbeside' := fun b hb => hbeside b (List.mem_cons_of_mem first hb)
    rw [List.map_cons, List.nodup_cons] at hdistinct
    show ((stroke first vram).drawn (steps.map stroke)).both (place a) = _
    rcases List.mem_cons.1 ha with rfl | hlater
    · have hothers : ∀ b ∈ steps, place b ≠ place a := fun b hb hplace =>
        hdistinct.1 (hplace ▸ List.mem_map_of_mem hb)
      rw [both_drawn_outside hdraws' hbeside' hkept hothers, hfirst vram hsame, if_pos rfl]
    · have hne : place first ≠ place a := fun hplace =>
        hdistinct.1 (hplace ▸ List.mem_map_of_mem hlater)
      rw [ih hdraws' hbeside' hkept hdistinct.2 hlater, hfirst vram hsame, if_neg hne]

end Run

end Stroke

/-! ### The mask flag as a bit -/

theorem Nat.or_one (n : Nat) : n ||| 1 = n / 2 * 2 + 1 := by
  have hlow : (n ||| 1) % 2 ^ 1 = n % 2 ^ 1 ||| 1 := Nat.or_mod_two_pow
  have hhigh : (n ||| 1) / 2 ^ 1 = n / 2 ^ 1 ||| 0 := Nat.or_div_two_pow
  have hset : n % 2 ^ 1 ||| 1 = 1 := by
    rcases Nat.mod_two_eq_zero_or_one n with hclear | hset
    · rw [Nat.pow_one, hclear]
      rfl
    · rw [Nat.pow_one, hset]
      rfl
  rw [hset] at hlow
  rw [Nat.or_zero] at hhigh
  omega

/-- Raising the mask flag sets bit 24, whatever the pixel has above it. -/
theorem Deep.raiseMask_eq_or (c : Deep) : Deep.raiseMask c = c ||| 0x1000000 := by
  have hlow : (c.toNat ||| 2 ^ 24) % 2 ^ 24 = c.toNat % 2 ^ 24 ||| 0 := Nat.or_mod_two_pow
  have hhigh : (c.toNat ||| 2 ^ 24) / 2 ^ 24 = c.toNat / 2 ^ 24 ||| 1 := Nat.or_div_two_pow
  have hword := c.toNat_lt
  rw [Nat.or_zero] at hlow
  rw [Nat.or_one] at hhigh
  apply UInt32.toNat_inj.1
  rw [UInt32.toNat_or]
  show (raiseMask c).toNat = c.toNat ||| 2 ^ 24
  unfold Deep.raiseMask
  by_cases hmasked : Deep.isMasked c = true
  · have hmask : Deep.mask c = 1 := of_decide_eq_true hmasked
    unfold Deep.mask at hmask
    rw [if_pos hmasked]
    omega
  · have hmask : Deep.mask c ≠ 1 := fun hmask => hmasked (decide_eq_true hmask)
    unfold Deep.mask at hmask
    rw [if_neg hmasked, UInt32.toNat_add]
    show (c.toNat + 16777216) % 4294967296 = _
    omega

theorem Native.forceMask_eq_or (n : Native) : Native.forceMask n true = n ||| 0x8000 := by
  apply UInt16.toNat_inj.1
  rw [Native.toNat_forceMask, UInt16.toNat_or]
  rfl

/-! ### Copies -/

namespace VramCopy

variable (copy : VramCopy)

/-- The block that is copied to. -/
def target : VramRect := ⟨copy.toX, copy.toY, copy.width, copy.height⟩

/-- What a cell comes to hold when a pixel is copied to it: both forms of the pixel, with the mask flag
set in each where that is switched on; a masked cell stays as it is where masks are checked. -/
def copied (setMask checkMask : Bool) (pixel old : Deep × Native) : Deep × Native :=
  if checkMask && Native.isMasked old.2 then old
  else if setMask then (pixel.1 ||| 0x1000000, pixel.2 ||| 0x8000)
  else pixel

theorem both_step (setMask checkMask : Bool) (vram : Vram) (offset : Nat × Nat) (i : Fin Vram.size) :
    (copy.step setMask checkMask vram offset.1 offset.2).both i =
      if copy.target.cellAt offset = i then
        copied setMask checkMask (vram.both (copy.source.cellAt offset)) (vram.both i)
      else vram.both i := by
  by_cases hplace : copy.target.cellAt offset = i
  · subst hplace
    have hcopied : (vram.copy (copy.fromX + offset.1 : Nat) (copy.fromY + offset.2 : Nat)
        (copy.toX + offset.1 : Nat) (copy.toY + offset.2 : Nat)).both (copy.target.cellAt offset) =
          vram.both (copy.source.cellAt offset) :=
      (vram.both_put _ _ _ _).trans (if_pos rfl)
    rw [if_pos rfl, copied, ← hcopied, ← Deep.raiseMask_eq_or, ← Native.forceMask_eq_or]
    show Vram.both (if checkMask && Native.isMasked (vram.both (copy.target.cellAt offset)).2 then vram
      else _) _ = _
    split_ifs
    · rfl
    · exact (Vram.both_put _ _ _ _ _).trans (if_pos rfl)
    · rfl
  · rw [if_neg hplace]
    exact Stroke.KeepsTo.copyStep copy setMask checkMask offset.1 offset.2 vram i hplace

/-- A pixel is copied from the picture at the start, as long as nothing is copied over the source. -/
theorem drawsFrom_step (setMask checkMask : Bool) (start : Vram) {offset : Nat × Nat}
    (hoffset : offset ∈ Grid.offsets copy.width copy.height) :
    Stroke.DrawsFrom start copy.source.Covers
      (fun vram => copy.step setMask checkMask vram offset.1 offset.2) (copy.target.cellAt offset)
      (copied setMask checkMask (start.both (copy.source.cellAt offset))) := by
  intro vram hsame i
  show (copy.step setMask checkMask vram offset.1 offset.2).both i = _
  rw [both_step, hsame _ ⟨offset, hoffset, rfl⟩]

end VramCopy

namespace Gpu

variable {gpu : Gpu} {block : VramCopy}

/-- **A copy between blocks without a common cell copies what was there at the start.**  Blocks may wrap
around both edges and be as large as the picture memory allows.  Every cell of the target gets both
forms of its pixel, with the mask flag in each where that is switched on, but for those that were masked
while masks are checked; all other cells, the whole source among them, and all else that the hardware
holds stay as they were. -/
theorem execute_copy_of_disjoint (hjob : (Job.copy block).IsDecoded)
    (hdisjoint : ∀ i, block.source.Covers i → ¬ block.target.Covers i) :
    ∃ vram, gpu.execute (.copy block) = ({ gpu with vram := vram }, none) ∧
      (∀ offset ∈ Grid.offsets block.width block.height,
        vram.both (block.target.cellAt offset) =
          VramCopy.copied gpu.status.setMask gpu.status.checkMask
            (gpu.vram.both (block.source.cellAt offset))
            (gpu.vram.both (block.target.cellAt offset))) ∧
      (∀ i, ¬ block.target.Covers i → vram.both i = gpu.vram.both i) ∧
      ∀ i, block.source.Covers i → vram.both i = gpu.vram.both i := by
  have hsized : block.width ≤ 1024 ∧ block.height ≤ 512 := hjob.sized
  have hfits : block.target.Fits := ⟨hsized.1, hsized.2⟩
  have hbeside : ∀ offset ∈ Grid.offsets block.width block.height,
      ¬ block.source.Covers (block.target.cellAt offset) :=
    fun offset hoffset hsource => hdisjoint _ hsource ⟨offset, hoffset, rfl⟩
  have hdistinct : ((Grid.offsets block.width block.height).map block.target.cellAt).Nodup :=
    (Grid.nodup_offsets _ _).map_on fun offset hoffset other hother =>
      VramRect.cellAt_inj hfits hoffset hother
  have hdraws := fun offset (hoffset : offset ∈ Grid.offsets block.width block.height) =>
    block.drawsFrom_step gpu.status.setMask gpu.status.checkMask gpu.vram hoffset
  have hsame : gpu.vram.SameOn block.source.Covers gpu.vram := fun _ _ => rfl
  have houtside : ∀ i, ¬ block.target.Covers i →
      (gpu.vram.drawn (gpu.strokes (.copy block))).both i = gpu.vram.both i :=
    fun i hi => Stroke.both_drawn_outside hdraws hbeside hsame fun offset hoffset hcell =>
      hi ⟨offset, hoffset, hcell⟩
  refine ⟨gpu.vram.drawn (gpu.strokes (.copy block)), ?_, ?_, houtside, ?_⟩
  · rw [← vram_run]
    rfl
  · intro offset hoffset
    exact Stroke.both_drawn_inside hdraws hbeside hsame hdistinct hoffset
  · intro i hi
    exact houtside i (hdisjoint i hi)

/-- A block around the right edge is copied around the lower right corner, with mask flags set and
checked: a pixel comes from the one edge to the other, and a masked cell stays as it is. -/
theorem execute_copy_of_disjoint_wrapped :
    let gpu : Gpu := { powerOn with
      vram := ((Vram.blank.set 1 101 0x00F88040).set 3 511 0).set 4 511 0x01000000
      status := { powerOn.status with setMask := true, checkMask := true } }
    let block : VramCopy := ⟨1020, 100, 1022, 510, 8, 4⟩
    (Job.copy block).IsDecoded ∧ (∀ i, block.source.Covers i → ¬ block.target.Covers i) ∧
      ∃ vram, gpu.execute (.copy block) = ({ gpu with vram := vram }, none) ∧
        vram.both (Vram.cell 3 511) = (0x01F88040, 0xFE08) ∧
        vram.both (Vram.cell 4 511) = (0x01000000, 0x8000) ∧
        vram.both (Vram.cell 1 101) = (0x00F88040, 0x7E08) := by
  intro gpu block
  have hanswers : (Decoder.idle.pushAll [0x80000000, 0x006403FC, 0x01FE03FE, 0x00040008]).2 =
      [.ok none, .ok none, .ok none, .ok (some (.copy block))] := by
    rfl
  have hjob : (Job.copy block).IsDecoded := ⟨_, by rw [hanswers]; simp⟩
  have hdisjoint : ∀ i, block.source.Covers i → ¬ block.target.Covers i := by
    rintro i ⟨offset, hoffset, rfl⟩ ⟨other, hother, hcell⟩
    have hrow := (Vram.cell_eq_iff.1 hcell).2
    have hheight := (Grid.mem_offsets.1 hoffset).2
    have hheight' := (Grid.mem_offsets.1 hother).2
    simp only [block, VramCopy.source, VramCopy.target] at hrow hheight hheight'
    omega
  -- What the three cells hold at the start.
  have hmasked : gpu.vram.both (Vram.cell 4 511) = (0x01000000, 0x8000) :=
    (Vram.both_put _ _ _ _ _).trans (if_pos rfl)
  have hfree : gpu.vram.both (Vram.cell 3 511) = (0, 0) :=
    (Vram.both_put _ _ _ _ _).trans ((if_neg (by decide)).trans
      ((Vram.both_put _ _ _ _ _).trans (if_pos rfl)))
  have hpixel : gpu.vram.both (Vram.cell 1 101) = (0x00F88040, 0x7E08) :=
    (Vram.both_put _ _ _ _ _).trans ((if_neg (by decide)).trans ((Vram.both_put _ _ _ _ _).trans
      ((if_neg (by decide)).trans ((Vram.both_put _ _ _ _ _).trans (if_pos rfl)))))
  obtain ⟨vram, hexecute, hcopied, -, hsource⟩ := @execute_copy_of_disjoint gpu block hjob hdisjoint
  refine ⟨hjob, hdisjoint, vram, hexecute, ?_, ?_, ?_⟩
  · have hcell := hcopied (5, 1) (by decide)
    rw [show block.source.cellAt (5, 1) = Vram.cell 1 101 by decide,
      show block.target.cellAt (5, 1) = Vram.cell 3 511 by decide, hpixel, hfree] at hcell
    exact hcell
  · have hcell := hcopied (6, 1) (by decide)
    rw [show block.target.cellAt (6, 1) = Vram.cell 4 511 by decide, hmasked] at hcell
    exact hcell
  · rw [hsource _ ⟨(5, 1), by decide, by decide⟩, hpixel]

end Gpu

end ConsoleVideo
