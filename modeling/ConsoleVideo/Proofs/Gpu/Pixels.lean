import ConsoleVideo.Proofs.Drawing.Images
import ConsoleVideo.Proofs.Snapshot.Loading

/-!
# Both forms of every pixel

The picture memory keeps every pixel twice.  Fills and shapes bring a colour of eight bits per
channel and pack it, uploads bring a native pixel and expand it, copies take over both forms and may
raise the mask flag in each of them.  Packing after expanding changes nothing, but expanding after
packing loses the lower bits, so that the native form is always the packed deep form and not the
other way round.

* `Deep.toNat_pack`, `Deep.pack_raiseMask` — packing keeps the mask flag, and commutes with raising
  it;
* `Vram.Agrees` — the invariant: the native form of every cell is its packed deep form;
* `Vram.Agrees.put` — whoever writes both forms of a cell keeps it, and no one writes anything else;
* `Gpu.agrees_run`, `Gpu.portStable_agrees` — no job and no operation breaks it;
* `Gpu.agrees_of_attainable` — it holds whatever happens to the hardware, loads included.
-/

namespace ConsoleVideo

/-! ### One pixel -/

theorem Deep.toNat_pack (c : Deep) :
    (Deep.pack c).toNat = Deep.red c / 8 + 32 * (Deep.green c / 8) + 1024 * (Deep.blue c / 8) +
      32768 * Deep.mask c := by
  unfold Deep.pack Deep.red Deep.green Deep.blue Deep.mask
  rw [UInt16.toNat_ofNat']
  omega

theorem Deep.isMasked_pack (c : Deep) : Native.isMasked (Deep.pack c) = Deep.isMasked c := by
  have hmask : (Deep.pack c).toNat / 32768 = Deep.mask c := by
    rw [Deep.toNat_pack]
    unfold Deep.red Deep.green Deep.blue Deep.mask
    omega
  rw [Native.isMasked, hmask]
  rfl

theorem Deep.toNat_ofWord_lt (w : Word) : (Deep.ofWord w).toNat < 33554432 := by
  unfold Deep.ofWord
  rw [UInt32.toNat_ofNat']
  omega

theorem Native.toNat_expand_lt (n : Native) : (Native.expand n).toNat < 33554432 := by
  have := n.toNat_lt
  rw [toNat_expand]
  omega

section RaiseMask

variable {c : Deep}

/-- The flag of an unmasked pixel is added where nothing is. -/
theorem Deep.toNat_raiseMask (hpixel : c.toNat < 33554432) :
    (Deep.raiseMask c).toNat = c.toNat % 16777216 + 16777216 := by
  unfold Deep.raiseMask
  by_cases hmasked : Deep.isMasked c = true
  · have hmask : Deep.mask c = 1 := of_decide_eq_true hmasked
    unfold Deep.mask at hmask
    rw [if_pos hmasked]
    omega
  · have hmask : Deep.mask c ≠ 1 := fun hmask => hmasked (decide_eq_true hmask)
    unfold Deep.mask at hmask
    rw [if_neg hmasked, UInt32.toNat_add]
    show (c.toNat + 16777216) % 4294967296 = _
    omega

/-- **Raising the mask flag means the same in both forms.** -/
theorem Deep.pack_raiseMask (hpixel : c.toNat < 33554432) :
    Deep.pack (Deep.raiseMask c) = Native.forceMask (Deep.pack c) true := by
  have hraised := Deep.toNat_raiseMask hpixel
  have hred : Deep.red (Deep.raiseMask c) = Deep.red c := by
    unfold Deep.red
    omega
  have hgreen : Deep.green (Deep.raiseMask c) = Deep.green c := by
    unfold Deep.green
    omega
  have hblue : Deep.blue (Deep.raiseMask c) = Deep.blue c := by
    unfold Deep.blue
    omega
  have hmask : Deep.mask (Deep.raiseMask c) = 1 := by
    unfold Deep.mask
    omega
  have hpacked := Deep.toNat_pack (Deep.raiseMask c)
  rw [hred, hgreen, hblue, hmask] at hpacked
  apply UInt16.toNat_inj.1
  rw [Native.forceMask, if_pos rfl, UInt16.toNat_ofNat', hpacked, Deep.toNat_pack]
  unfold Deep.red Deep.green Deep.blue
  omega

end RaiseMask

namespace Vram

/-! ### One cell -/

/-- The native form of every cell is its packed deep form, which has nothing above its mask flag. -/
structure Agrees (vram : Vram) : Prop where
  native : ∀ i : Fin size, vram.native.get i = Deep.pack (vram.deep.get i)
  deep : ∀ i : Fin size, (vram.deep.get i).toNat < 33554432

namespace Agrees

variable {vram : Vram} (h : vram.Agrees)

theorem blank : Vram.blank.Agrees where
  native := by
    intro i
    show (Vector.replicate size (0 : Native))[i.val] =
      Deep.pack (Vector.replicate size (0 : Deep))[i.val]
    rw [Vector.getElem_replicate, Vector.getElem_replicate]
    decide
  deep := by
    intro i
    show (Vector.replicate size (0 : Deep))[i.val].toNat < 33554432
    rw [Vector.getElem_replicate]
    decide

include h

/-- **Writing both forms of one pixel keeps both forms together.** -/
theorem put (i : Fin size) {deep : Deep} (hpixel : deep.toNat < 33554432) :
    (vram.put i deep (Deep.pack deep)).Agrees := by
  constructor
  · intro j
    rw [get_native_put, get_deep_put]
    split
    · rfl
    · exact h.native j
  · intro j
    rw [get_deep_put]
    split
    · exact hpixel
    · exact h.deep j

theorem set (x y : Int) (color : Deep) : (vram.set x y color).Agrees :=
  h.put (cell x y) (Deep.toNat_ofWord_lt color)

theorem setNative (x y : Int) (pixel : Native) : (vram.setNative x y pixel).Agrees := by
  have hput := h.put (cell x y) (Native.toNat_expand_lt pixel)
  rw [pack_expand] at hput
  exact hput

theorem nativeAt_eq (x y : Int) : vram.nativeAt x y = Deep.pack (vram.deepAt x y) :=
  h.native (cell x y)

theorem copy (fromX fromY toX toY : Int) : (vram.copy fromX fromY toX toY).Agrees := by
  rw [Vram.copy, h.nativeAt_eq]
  exact h.put (cell toX toY) (h.deep (cell fromX fromY))

theorem raiseMask (x y : Int) : (vram.raiseMask x y).Agrees := by
  have hpixel : (vram.deepAt x y).toNat < 33554432 := h.deep (cell x y)
  have hraised : (Deep.raiseMask (vram.deepAt x y)).toNat < 33554432 := by
    rw [Deep.toNat_raiseMask hpixel]
    omega
  rw [Vram.raiseMask, h.nativeAt_eq, ← Deep.pack_raiseMask hpixel]
  exact h.put (cell x y) hraised

/-! ### Blocks and shapes -/

theorem walk (width height : Nat) {act : Vram → Nat → Nat → Vram}
    (hact : ∀ (vram : Vram) (dx dy : Nat), vram.Agrees → (act vram dx dy).Agrees) :
    (Grid.walk width height act vram).Agrees := by
  rw [Grid.walk_eq_foldl]
  exact List.foldlRecOn _ _ h fun vram hvram cell _ => hact vram cell.1 cell.2 hvram

theorem fill (fill : Fill) : (fill.draw vram).Agrees :=
  h.walk fill.width fill.height fun _ _ _ hvram => hvram.set _ _ _

theorem copyBlock (copy : VramCopy) (setMask checkMask : Bool) :
    (copy.draw setMask checkMask vram).Agrees := by
  refine h.walk copy.width copy.height fun vram dx dy hvram => ?_
  have hcopied := hvram.copy (copy.fromX + dx : Nat) (copy.fromY + dy : Nat)
    (copy.toX + dx : Nat) (copy.toY + dy : Nat)
  simp only [VramCopy.step]
  split
  · exact hvram
  · cases setMask with
    | false => exact hcopied
    | true => exact hcopied.raiseMask _ _

theorem upload (load : ImageLoad) (setMask checkMask : Bool) :
    (load.draw setMask checkMask vram).Agrees := by
  refine h.walk load.rect.width load.rect.height fun vram dx dy hvram => ?_
  simp only [ImageLoad.step]
  split
  · exact hvram
  · split
    · exact hvram
    · exact hvram.setNative _ _ _

theorem shade (pen : Pen) (paint : Paint) (fragment : Fragment) :
    (pen.shade paint vram fragment).Agrees := by
  rcases pen.shade_eq_self_or_set paint vram fragment with hself | ⟨color, hset⟩
  · rw [hself]
    exact h
  · rw [hset]
    exact h.set fragment.x fragment.y color

/-- Every shape is laid down fragment by fragment. -/
theorem scan (scan : Scan) (pen : Pen) (paint : Paint) : (scan.paint pen paint vram).Agrees := by
  rw [Scan.paint_eq_foldl]
  exact List.foldlRecOn _ _ h fun vram hvram fragment _ => hvram.shade pen paint fragment

theorem triangle (area : DrawingArea) (a b c : Point) (shaded : Bool) (pen : Pen) (paint : Paint) :
    (Triangle.draw area a b c shaded pen paint vram).Agrees := by
  unfold Triangle.draw
  split
  · exact h
  · exact h.scan _ pen paint

theorem polygon (status : Status) (environment : Environment) (polygon : Polygon) :
    (Gpu.drawPolygon status environment polygon vram).Agrees := by
  have hhalf := h.triangle environment.area (Point.ofCorner polygon.first environment.offset)
    (Point.ofCorner polygon.second environment.offset)
    (Point.ofCorner polygon.third environment.offset) polygon.shaded
    (Pen.ofSettings status environment) (Gpu.polygonPaint status polygon)
  unfold Gpu.drawPolygon
  cases polygon.fourth with
  | none => exact hhalf
  | some fourth => exact hhalf.triangle _ _ _ _ _ _ _

end Agrees

end Vram

/-! ### Operations -/

namespace Gpu

variable {gpu : Gpu}

theorem agrees_run (h : gpu.vram.Agrees) (job : Job) : (gpu.run job).vram.Agrees := by
  cases job with
  | fill fill => exact h.fill fill
  | polygon polygon => exact h.polygon _ gpu.environment polygon
  | line line => exact h.scan _ _ _
  | rectangle rectangle => exact h.scan _ _ _
  | copy copy => exact h.copyBlock copy gpu.status.setMask gpu.status.checkMask
  | upload image => exact h.upload image gpu.status.setMask gpu.status.checkMask
  | _ => exact h

theorem agrees_runAll (h : gpu.vram.Agrees) (jobs : List Job) : (gpu.runAll jobs).vram.Agrees :=
  List.foldlRecOn (motive := fun gpu => gpu.vram.Agrees) jobs run h
    fun _ hgpu job _ => agrees_run hgpu job

theorem agrees_writeBlock (h : gpu.vram.Agrees) (ws : List Word) :
    (gpu.writeBlock ws).1.vram.Agrees := by
  rw [writeBlock_eq]
  exact agrees_runAll h _

theorem vram_read (gpu : Gpu) : gpu.read.1.vram = gpu.vram := by
  rw [read]

/-- Control commands leave the picture memory alone, a reset too. -/
theorem vram_control (gpu : Gpu) (command : Control) : (gpu.control command).vram = gpu.vram := by
  cases command with
  | reset => rw [control, reset]
  | _ => rfl

theorem vram_writeControl (gpu : Gpu) (w : Word) : (gpu.writeControl w).1.vram = gpu.vram := by
  rw [writeControl]
  cases Control.ofWord? w with
  | none => rfl
  | some command => exact vram_control gpu command

/-- **No operation takes the two forms apart.** -/
theorem portStable_agrees : PortStable fun gpu => gpu.vram.Agrees where
  writeBlock := fun ws h => agrees_writeBlock h ws
  read := by
    intro gpu h
    rw [vram_read]
    exact h
  writeControl := by
    intro gpu w h
    rw [vram_writeControl]
    exact h
  tick := fun _ _ h => h
  drain := by
    intro gpu h
    rw [drain_eq]
    exact agrees_runAll h _
  present := by
    intro gpu surface h
    rw [drainTo_eq]
    exact agrees_runAll h _

/-- A load takes over the picture memory of the source, whatever it replaces. -/
theorem Attainable.agrees (h : gpu.Attainable) : gpu.vram.Agrees :=
  h.of_stable portStable_agrees Vram.Agrees.blank fun hsource _ => hsource

/-- **The two forms of a pixel never drift apart**, whatever happens to the hardware: each has its
1024 × 512 cells, the native form of a cell is its packed deep form, which has nothing above its
mask flag, and the mask flag is the same in both. -/
theorem agrees_of_attainable (h : gpu.Attainable) :
    gpu.vram.deep.toArray.size = 1024 * 512 ∧ gpu.vram.native.toArray.size = 1024 * 512 ∧
      ∀ i : Fin Vram.size,
        gpu.vram.native.get i = Deep.pack (gpu.vram.deep.get i) ∧
        (gpu.vram.deep.get i).toNat < 33554432 ∧
        Native.isMasked (gpu.vram.native.get i) = Deep.isMasked (gpu.vram.deep.get i) := by
  have hagrees := h.agrees
  refine ⟨gpu.vram.deep.size_toArray, gpu.vram.native.size_toArray, fun i => ?_⟩
  refine ⟨hagrees.native i, hagrees.deep i, ?_⟩
  rw [hagrees.native i, Deep.isMasked_pack]

/-- A line over a picture that was masked, filled, dumped and loaded elsewhere. -/
theorem agrees_of_attainable_loaded :
    let source := powerOn.act (.writeBlock [0xE6000001, 0x020000FF, 0, 0x00010010])
    let gpu := (Snapshot.resumed source powerOn).act (.writeBlock [0x40FFFFFF, 0, 0x00070007])
    gpu.Attainable ∧
      gpu.vram.deep.toArray.size = 1024 * 512 ∧ gpu.vram.native.toArray.size = 1024 * 512 ∧
      ∀ i : Fin Vram.size,
        gpu.vram.native.get i = Deep.pack (gpu.vram.deep.get i) ∧
        (gpu.vram.deep.get i).toNat < 33554432 ∧
        Native.isMasked (gpu.vram.native.get i) = Deep.isMasked (gpu.vram.deep.get i) :=
  let source := powerOn.act (.writeBlock [0xE6000001, 0x020000FF, 0, 0x00010010])
  have hsource : source.Attainable := Attainable.powerOn.act _
  have hloaded := Attainable.load hsource .powerOn
    (@Snapshot.load_dump source powerOn Dma.powerOn Dma.powerOn ⟨rfl, rfl⟩)
  have hgpu := hloaded.act (.writeBlock [0x40FFFFFF, 0, 0x00070007])
  ⟨hgpu, agrees_of_attainable hgpu⟩

end Gpu

end ConsoleVideo
