import ConsoleVideo.Proofs.Drawing.Distinct
import ConsoleVideo.Proofs.Drawing.Sources
import ConsoleVideo.Proofs.Gpu.Pixels

/-!
# Sprites

A raw sprite brings its texels into the picture as they are.  For every point the distance from the
corner of the rectangle is counted from the start of the texture, backwards along a flipped axis; the
texture window replaces bits of the coordinate; a cell of the page holds one texel, two or four, which
are numbers of table entries if it holds more than one.  All of this is arithmetic on bytes.  The page
and the table lie in the picture that is drawn into, so that the sprite has to keep away from them.

* `stepped`, `WindowAxis.through` — coordinates as bytes, with `Sprite.texelAt_eq` and
  `WindowAxis.apply_eq`;
* `TexturePage.texel`, `TexturePage.reads` — the texel at a coordinate and the cells that are read for
  it, with `texel_congr`;
* `Paint.plain`, `Pen.shade_plain`, `Pen.drawsFrom_shade` — an opaque raw texel is written in both forms
  as it is;
* `Rectangle.Shows`, `Rectangle.mem_fragments` — the points of a rectangle that are drawn;
* `SpriteTexture.coordAt`, `Gpu.spriteTexel`, `Gpu.spriteReads` — what belongs to such a point;
* `Gpu.execute_sprite` — a sprite reproduces its texture.
-/

namespace ConsoleVideo

/-! ### Coordinates -/

/-- The coordinate at a distance from another one, before it where the axis is flipped. -/
def stepped (start : UInt8) (flip : Bool) (distance : Nat) : UInt8 :=
  if flip then start - UInt8.ofNat distance else start + UInt8.ofNat distance

theorem Sprite.texelAt_eq (start : UInt8) (flip : Bool) (distance : Nat) :
    texelAt start flip distance = (stepped start flip distance).toNat := by
  have hstart := start.toNat_lt
  cases flip with
  | false =>
    simp only [texelAt, stepped, Bool.false_eq_true, if_false, UInt8.toNat_add, UInt8.toNat_ofNat']
    omega
  | true =>
    simp only [texelAt, stepped, if_true, UInt8.toNat_sub, UInt8.toNat_ofNat']
    omega

namespace WindowAxis

/-- The coordinate with the bits of the mask, in units of eight texels, taken from the offset. -/
def through (axis : WindowAxis) (u : UInt8) : UInt8 :=
  let mask := UInt8.ofNat axis.mask
  let offset := UInt8.ofNat axis.offset
  (u &&& ~~~(8 * mask)) ||| (8 * (offset &&& mask))

theorem apply_eq (axis : WindowAxis) (u : UInt8) : axis.apply u.toNat = (axis.through u).toNat := by
  have hmask := axis.mask.isLt
  have hsmall (n : Fin 32) : (UInt8.ofNat n).toNat = n.val := by
    rw [UInt8.toNat_ofNat']
    omega
  have hkept : (~~~(8 * UInt8.ofNat axis.mask)).toNat = axis.kept := by
    rw [UInt8.toNat_not, UInt8.toNat_mul, hsmall, kept]
    show 256 - 1 - 8 * _ % 256 = _
    omega
  have hforced : (8 * (UInt8.ofNat axis.offset &&& UInt8.ofNat axis.mask)).toNat = axis.forced := by
    have hlt := axis.forced_lt
    rw [forced] at hlt
    rw [UInt8.toNat_mul, UInt8.toNat_and, hsmall, hsmall, forced]
    show 8 * _ % 256 = _
    omega
  rw [apply, through, UInt8.toNat_or, UInt8.toNat_and, hkept, hforced, Nat.mod_eq_of_lt u.toNat_lt]

end WindowAxis

/-! ### Texels -/

/-- Field `k` of a cell that is cut into fields of some bits, the lowest one first. -/
def Native.field (n : Native) (bits k : Nat) : Nat :=
  n.toNat >>> (bits * k) % 2 ^ bits

theorem Native.field_eq (n : Native) (bits k : Nat) :
    n.field bits k = n.toNat / (2 ^ bits) ^ k % 2 ^ bits := by
  rw [field, Nat.shiftRight_eq_div_pow, Nat.pow_mul]

/-- The cell of an entry of a colour table, which goes on at the left edge of its row. -/
def Clut.entry (clut : Clut) (index : Nat) : Fin Vram.size :=
  Vram.cell (clut.x + index : Nat) clut.y

namespace TexturePage

variable (page : TexturePage) (clut : Clut)

/-- How many texels a cell of the page holds. -/
def texelsPerCell : Nat :=
  match page.depth with
  | .indexed4 => 4
  | .indexed8 => 2
  | .direct | .reserved => 1

/-- The cell of the page that holds a texel. -/
def holder (u v : Nat) : Fin Vram.size :=
  Vram.cell (page.x + u / page.texelsPerCell : Nat) (page.y + v : Nat)

/-- The table entry that a cell names for one of its texels. -/
def entry? (held : Native) (u : Nat) : Option (Fin Vram.size) :=
  match page.depth with
  | .indexed4 => some (clut.entry (held.field 4 (u % 4)))
  | .indexed8 => some (clut.entry (held.field 8 (u % 2)))
  | .direct | .reserved => none

/-- The texel at a coordinate: what the page holds there, or the table entry that it names. -/
def texel (vram : Vram) (u v : Nat) : Native :=
  let held := vram.native.get (page.holder u v)
  match page.entry? clut held u with
  | none => held
  | some entry => vram.native.get entry

/-- The cells that are read for a texel. -/
def reads (vram : Vram) (u v : Nat) : List (Fin Vram.size) :=
  page.holder u v :: (page.entry? clut (vram.native.get (page.holder u v)) u).toList

/-- **A texel of zero is transparent, and any other one is expanded.** -/
theorem sample_eq (vram : Vram) (u v : Nat) :
    page.sample clut vram u v =
      if page.texel clut vram u v = 0 then none
      else some (Native.expand (page.texel clut vram u v)) := by
  rw [sample, texel, entry?, holder, texelsPerCell]
  cases page.depth with
  | indexed4 =>
    simp only [Native.field_eq]
    rfl
  | indexed8 =>
    simp only [Native.field_eq]
    rfl
  | direct => simp only [Nat.div_one]; rfl
  | reserved => simp only [Nat.div_one]; rfl

variable {page clut}

/-- A texel follows from the cells that are read for it. -/
theorem texel_congr {vram start : Vram} {u v : Nat}
    (h : ∀ i ∈ page.reads clut start u v, vram.both i = start.both i) :
    page.texel clut vram u v = page.texel clut start u v := by
  have hnative : ∀ i ∈ page.reads clut start u v, vram.native.get i = start.native.get i :=
    fun i hi => congrArg Prod.snd (h i hi)
  have hheld := hnative (page.holder u v) List.mem_cons_self
  rw [texel, texel, hheld]
  cases hentry : page.entry? clut (start.native.get (page.holder u v)) u with
  | none => rfl
  | some entry => exact hnative entry (by simp [reads, hentry])

end TexturePage

/-! ### Fragments -/

/-- What a texel makes of a cell: nothing where it is transparent, both of its forms elsewhere. -/
def Native.laidOver (texel : Native) (old : Deep × Native) : Deep × Native :=
  if texel = 0 then old else (expand texel, texel)

/-- A pixel that is given the mask flag which it has is the pixel that it was. -/
theorem Deep.withMask_isMasked {c : Deep} (hpixel : c.toNat < 33554432) :
    withMask c (isMasked c) = c := by
  apply UInt32.toNat_inj.1
  by_cases hmasked : isMasked c = true
  · have hmask : mask c = 1 := of_decide_eq_true hmasked
    unfold mask at hmask
    rw [withMask, if_pos hmasked, UInt32.toNat_ofNat']
    omega
  · have hmask : mask c ≠ 1 := fun hmask => hmasked (decide_eq_true hmask)
    unfold mask at hmask
    rw [withMask, if_neg hmasked, UInt32.toNat_ofNat']
    omega

/-- The paint of an opaque shape whose texels are taken as they are. -/
def Paint.plain (page : TexturePage) (clut : Clut) : Paint where
  texture := some ⟨page, clut, true⟩
  translucent := false

namespace Pen

variable {pen : Pen} {page : TexturePage} {clut : Clut} {fragment : Fragment}

/-- The texel that is brought by a fragment. -/
def texelFor (pen : Pen) (page : TexturePage) (clut : Clut) (vram : Vram) (fragment : Fragment) :
    Native :=
  page.texel clut vram (pen.window.u.apply fragment.u) (pen.window.v.apply fragment.v)

/-- The cells that are read for a fragment. -/
def readsFor (pen : Pen) (page : TexturePage) (clut : Clut) (vram : Vram) (fragment : Fragment) :
    List (Fin Vram.size) :=
  page.reads clut vram (pen.window.u.apply fragment.u) (pen.window.v.apply fragment.v)

/-- **An opaque raw texel is written as it is**, unless it is transparent. -/
theorem shade_plain (hset : pen.setMask = false) (hcheck : pen.checkMask = false) (vram : Vram) :
    pen.shade (.plain page clut) vram fragment =
      if pen.texelFor page clut vram fragment = 0 then vram
      else vram.setNative fragment.x fragment.y (pen.texelFor page clut vram fragment) := by
  have hsource : pen.source (.plain page clut) vram fragment =
      if pen.texelFor page clut vram fragment = 0 then none
      else some ((pen.texelFor page clut vram fragment).expand, false) := by
    show (page.sample clut vram _ _).map (fun texel => (texel, false)) = _
    rw [TexturePage.sample_eq, ← texelFor]
    split_ifs <;> rfl
  rw [shade, hcheck, Bool.false_and, if_neg Bool.false_ne_true, hsource]
  split_ifs with htransparent
  · rfl
  · have hwritten : ∀ texel : Native, Deep.ofWord (Deep.withMask texel.expand
        (Deep.isMasked texel.expand)) = texel.expand := by
      intro texel
      rw [Deep.ofWord_withMask, Deep.withMask_isMasked (Native.toNat_expand_lt texel)]
    simp only [Bool.false_eq_true, if_false, mix, hset, Bool.false_or, Vram.set, hwritten,
      pack_expand]
    rfl

theorem drawsFrom_shade {start : Vram} {sources : Fin Vram.size → Prop}
    (hset : pen.setMask = false) (hcheck : pen.checkMask = false)
    (hreads : ∀ i ∈ pen.readsFor page clut start fragment, sources i) :
    Stroke.DrawsFrom start sources (fun vram => pen.shade (.plain page clut) vram fragment)
      fragment.place.cell (pen.texelFor page clut start fragment).laidOver := by
  intro vram hsame j
  have htexel : pen.texelFor page clut vram fragment = pen.texelFor page clut start fragment :=
    TexturePage.texel_congr fun i hi => hsame i (hreads i hi)
  simp only [shade_plain hset hcheck, htexel, Native.laidOver]
  split_ifs with htransparent hj hj
  · rfl
  · rfl
  · exact (Vram.both_put _ _ _ _ _).trans (if_pos hj)
  · exact (Vram.both_put _ _ _ _ _).trans (if_neg hj)

end Pen

/-! ### Rectangles -/

namespace Rectangle

variable (shape : Rectangle) (environment : Environment)

/-- The point at a distance from the corner of the rectangle, which the drawing offset has moved. -/
def pointAt (distance : Nat × Nat) : Vertex where
  x := shape.position.x + environment.offset.x + distance.1
  y := shape.position.y + environment.offset.y + distance.2

/-- The point at this distance belongs to the rectangle and lies in the drawing area. -/
def Shows (distance : Nat × Nat) : Prop :=
  (distance.1 < shape.width ∧ distance.2 < shape.height) ∧
    environment.area.contains (shape.pointAt environment distance).x
      (shape.pointAt environment distance).y = true

/-- The fragment at a distance from the corner of the rectangle. -/
def fragmentAt (texture : SpriteTexture) (distance : Nat × Nat) : Fragment where
  x := (shape.pointAt environment distance).x
  y := (shape.pointAt environment distance).y
  base := shape.color.deep
  u := (stepped texture.texCoord.u environment.flipX distance.1).toNat
  v := (stepped texture.texCoord.v environment.flipY distance.2).toNat

variable {shape environment}

theorem mem_columns (hshape : Job.Sized (.rectangle shape)) (henvironment : environment.InRange)
    {x : Int} :
    x ∈ (Sprite.ofRectangle shape environment).columns environment.area ↔
      ∃ dx < shape.width, x = shape.position.x + environment.offset.x + (dx : Nat) ∧
        environment.area.left ≤ x ∧ x ≤ environment.area.right := by
  obtain ⟨hposition, hwidth, -⟩ := hshape
  have hx := hposition.x
  have hoffset := henvironment.offsetX
  simp only [Sprite.columns, Sprite.ofRectangle, Vertex.offset_eq hposition henvironment]
  rw [wrap32_of_range (by omega) (by omega), mem_span]
  constructor
  · rintro ⟨hlower, hupper⟩
    exact ⟨(x - (shape.position.x + environment.offset.x)).toNat, by omega, by omega, by omega⟩
  · rintro ⟨dx, hdx, hpoint, hlower, hupper⟩
    omega

theorem mem_rows (hshape : Job.Sized (.rectangle shape)) (henvironment : environment.InRange)
    {y : Int} :
    y ∈ (Sprite.ofRectangle shape environment).rows environment.area ↔
      ∃ dy < shape.height, y = shape.position.y + environment.offset.y + (dy : Nat) ∧
        environment.area.top ≤ y ∧ y ≤ environment.area.bottom := by
  obtain ⟨hposition, -, hheight⟩ := hshape
  have hy := hposition.y
  have hoffset := henvironment.offsetY
  simp only [Sprite.rows, Sprite.ofRectangle, Vertex.offset_eq hposition henvironment]
  rw [wrap32_of_range (by omega) (by omega), mem_span]
  constructor
  · rintro ⟨hlower, hupper⟩
    exact ⟨(y - (shape.position.y + environment.offset.y)).toNat, by omega, by omega, by omega⟩
  · rintro ⟨dy, hdy, hpoint, hlower, hupper⟩
    omega

/-- **A sprite steps through its texture from its own corner**, whatever of it is drawn. -/
theorem mem_fragments {texture : SpriteTexture} (hshape : Job.Sized (.rectangle shape))
    (henvironment : environment.InRange) (htexture : shape.texture = some texture)
    {fragment : Fragment} :
    fragment ∈ ((Sprite.ofRectangle shape environment).scan environment.area).fragments ↔
      ∃ distance, shape.Shows environment distance ∧
        shape.fragmentAt environment texture distance = fragment := by
  have horigin : (Sprite.ofRectangle shape environment).origin =
      shape.pointAt environment (0, 0) := by
    simp [Sprite.ofRectangle, Vertex.offset_eq hshape.1 henvironment, pointAt]
  have hstart : (Sprite.ofRectangle shape environment).texCoord = texture.texCoord := by
    simp [Sprite.ofRectangle, htexture]
  have hfragment : ∀ distance, shape.fragmentAt environment texture distance =
      { x := (shape.pointAt environment distance).x
        y := (shape.pointAt environment distance).y
        base := (Sprite.ofRectangle shape environment).base
        u := Sprite.texelAt (Sprite.ofRectangle shape environment).texCoord.u environment.flipX
          ((shape.pointAt environment distance).x - (Sprite.ofRectangle shape environment).origin.x)
        v := Sprite.texelAt (Sprite.ofRectangle shape environment).texCoord.v environment.flipY
          ((shape.pointAt environment distance).y -
            (Sprite.ofRectangle shape environment).origin.y) } := by
    intro distance
    simp only [horigin, hstart, pointAt, Nat.cast_zero, Int.add_zero, add_sub_cancel_left,
      Sprite.texelAt_eq]
    rfl
  constructor
  · intro h
    obtain ⟨y, hy, hrow⟩ := List.mem_flatMap.1 h
    obtain ⟨x, hx, rfl⟩ := List.mem_map.1 hrow
    obtain ⟨dx, hdx, rfl, hcolumn⟩ := (mem_columns hshape henvironment).1 hx
    obtain ⟨dy, hdy, rfl, hline⟩ := (mem_rows hshape henvironment).1 hy
    exact ⟨(dx, dy), ⟨⟨hdx, hdy⟩, DrawingArea.contains_iff.2 ⟨hcolumn.1, hcolumn.2, hline⟩⟩,
      hfragment (dx, dy)⟩
  · rintro ⟨⟨dx, dy⟩, ⟨⟨hdx, hdy⟩, hcontains⟩, rfl⟩
    obtain ⟨hleft, hright, hline⟩ := DrawingArea.contains_iff.1 hcontains
    exact List.mem_flatMap.2 ⟨_, (mem_rows hshape henvironment).2 ⟨dy, hdy, rfl, hline⟩,
      List.mem_map.2 ⟨_, (mem_columns hshape henvironment).2 ⟨dx, hdx, rfl, hleft, hright⟩,
        (hfragment (dx, dy)).symm⟩⟩

end Rectangle

/-- The texture coordinate at a distance from the corner of a sprite, as it is seen through the
window. -/
def SpriteTexture.coordAt (texture : SpriteTexture) (environment : Environment)
    (distance : Nat × Nat) : TexCoord where
  u := environment.window.u.through (stepped texture.texCoord.u environment.flipX distance.1)
  v := environment.window.v.through (stepped texture.texCoord.v environment.flipY distance.2)

/-! ### Sprites -/

namespace Gpu

/-- The texel of a sprite at a distance from its corner. -/
def spriteTexel (gpu : Gpu) (texture : SpriteTexture) (distance : Nat × Nat) : Native :=
  let coord := texture.coordAt gpu.environment distance
  gpu.status.texturePage.texel texture.clut gpu.vram coord.u.toNat coord.v.toNat

/-- The cells that are read for it. -/
def spriteReads (gpu : Gpu) (texture : SpriteTexture) (distance : Nat × Nat) :
    List (Fin Vram.size) :=
  let coord := texture.coordAt gpu.environment distance
  gpu.status.texturePage.reads texture.clut gpu.vram coord.u.toNat coord.v.toNat

variable {gpu : Gpu} {shape : Rectangle} {texture : SpriteTexture}

theorem rectanglePaint_of_raw (htexture : shape.texture = some texture) (hraw : texture.raw = true)
    (htranslucent : shape.translucent = false) (htextured : gpu.status.textureDisable = false) :
    rectanglePaint gpu.status shape = .plain gpu.status.texturePage texture.clut := by
  simp [rectanglePaint, Paint.plain, htextured, htexture, hraw, htranslucent]

theorem texelFor_fragmentAt (distance : Nat × Nat) :
    (Pen.ofSettings gpu.status gpu.environment).texelFor gpu.status.texturePage texture.clut gpu.vram
      (shape.fragmentAt gpu.environment texture distance) = gpu.spriteTexel texture distance := by
  simp only [Pen.texelFor, Rectangle.fragmentAt, WindowAxis.apply_eq]
  rfl

theorem readsFor_fragmentAt (distance : Nat × Nat) :
    (Pen.ofSettings gpu.status gpu.environment).readsFor gpu.status.texturePage texture.clut gpu.vram
      (shape.fragmentAt gpu.environment texture distance) = gpu.spriteReads texture distance := by
  simp only [Pen.readsFor, Rectangle.fragmentAt, WindowAxis.apply_eq]
  rfl

/-- **A sprite reproduces its texture.**  Every point of the rectangle that lies in the drawing area
gets the texel at its distance from the corner, counted backwards along a flipped axis and seen through
the texture window; it is written in both forms as it is, and not at all where it is transparent.  All
other cells and all else that the hardware holds stay as they were.  The sprite is opaque and raw, no
mask flags are set or checked, and it is not drawn over cells that are read for it, be they of its page
or of its colour table. -/
theorem execute_sprite (hgpu : gpu.Reachable) (hjob : (Job.rectangle shape).IsDecoded)
    (htexture : shape.texture = some texture) (hraw : texture.raw = true)
    (htranslucent : shape.translucent = false) (hset : gpu.status.setMask = false)
    (hcheck : gpu.status.checkMask = false) (htextured : gpu.status.textureDisable = false)
    (hapart : ∀ distance, shape.Shows gpu.environment distance →
      ∀ i ∈ gpu.spriteReads texture distance, ∀ other, shape.Shows gpu.environment other →
        (shape.pointAt gpu.environment other).cell ≠ i) :
    ∃ vram, gpu.execute (.rectangle shape) = ({ gpu with vram := vram }, none) ∧
      (∀ distance, shape.Shows gpu.environment distance →
        vram.both (shape.pointAt gpu.environment distance).cell =
          (gpu.spriteTexel texture distance).laidOver
            (gpu.vram.both (shape.pointAt gpu.environment distance).cell)) ∧
      ∀ i, (∀ distance, shape.Shows gpu.environment distance →
          (shape.pointAt gpu.environment distance).cell ≠ i) →
        vram.both i = gpu.vram.both i := by
  have henvironment := (hgpu.of_stable InRange.portStable InRange.powerOn).environment
  let fragments := ((Sprite.ofRectangle shape gpu.environment).scan gpu.environment.area).fragments
  have hmem : ∀ fragment, fragment ∈ fragments ↔ ∃ distance, shape.Shows gpu.environment distance ∧
      shape.fragmentAt gpu.environment texture distance = fragment :=
    fun fragment => Rectangle.mem_fragments hjob.sized henvironment htexture
  -- The sources are all that any of the fragments reads at the start.
  let sources : Fin Vram.size → Prop := fun i => ∃ distance,
    shape.Shows gpu.environment distance ∧ i ∈ gpu.spriteReads texture distance
  have hdraws : ∀ fragment ∈ fragments, Stroke.DrawsFrom gpu.vram sources
      (fun vram => (Pen.ofSettings gpu.status gpu.environment).shade
        (rectanglePaint gpu.status shape) vram fragment) fragment.place.cell
      ((Pen.ofSettings gpu.status gpu.environment).texelFor gpu.status.texturePage texture.clut
        gpu.vram fragment).laidOver := by
    intro fragment hfragment
    obtain ⟨distance, hshows, rfl⟩ := (hmem fragment).1 hfragment
    rw [rectanglePaint_of_raw htexture hraw htranslucent htextured]
    refine Pen.drawsFrom_shade hset hcheck fun i hi => ⟨distance, hshows, ?_⟩
    rwa [← readsFor_fragmentAt]
  have hbeside : ∀ fragment ∈ fragments, ¬ sources fragment.place.cell := by
    rintro fragment hfragment ⟨distance, hshows, hread⟩
    obtain ⟨other, hother, rfl⟩ := (hmem fragment).1 hfragment
    exact hapart distance hshows _ hread other hother rfl
  have hsame : gpu.vram.SameOn sources gpu.vram := fun _ _ => rfl
  have hdistinct : (fragments.map fun fragment => fragment.place.cell).Nodup := by
    have hcompact := (Sprite.compact_places hjob.sized henvironment).nodup_cells
    rwa [Scan.places, List.map_map] at hcompact
  have hstrokes : gpu.strokes (.rectangle shape) = fragments.map fun fragment vram =>
      (Pen.ofSettings gpu.status gpu.environment).shade (rectanglePaint gpu.status shape) vram
        fragment := rfl
  refine ⟨gpu.vram.drawn (gpu.strokes (.rectangle shape)), ?_, ?_, ?_⟩
  · rw [← vram_run]
    rfl
  · intro distance hshows
    have hinside := Stroke.both_drawn_inside hdraws hbeside hsame hdistinct
      ((hmem _).2 ⟨distance, hshows, rfl⟩)
    rw [texelFor_fragmentAt] at hinside
    rw [hstrokes]
    exact hinside
  · intro i hi
    rw [hstrokes]
    refine Stroke.both_drawn_outside hdraws hbeside hsame fun fragment hfragment => ?_
    obtain ⟨distance, hshows, rfl⟩ := (hmem fragment).1 hfragment
    exact hi distance hshows

/-- A sprite that runs backwards along both axes, seen through a window, with the left of its three
columns cut off: one point gets the table entry that its texel names, and a transparent one keeps what
it has. -/
theorem execute_sprite_flipped :
    let gpu : Gpu := powerOn.act (.writeBlock
      [0xE1003001, 0xE2000401, 0xE3000001, 0xE4019064, 0xE50007FF,
        0xA0000000, 0x00000042, 0x00010011, 0x00000021, 0, 0, 0, 0, 0, 0, 0, 0x0000801F])
    let texture : SpriteTexture := ⟨⟨2, 0⟩, ⟨80, 0⟩, true⟩
    let shape : Rectangle := ⟨⟨1, 0⟩, 3, 2, ⟨128, 128, 128⟩, some texture, false⟩
    gpu.Reachable ∧ (Job.rectangle shape).IsDecoded ∧
      (∀ distance, shape.Shows gpu.environment distance →
        ∀ i ∈ gpu.spriteReads texture distance, ∀ other, shape.Shows gpu.environment other →
          (shape.pointAt gpu.environment other).cell ≠ i) ∧
      ∃ vram, gpu.execute (.rectangle shape) = ({ gpu with vram := vram }, none) ∧
        vram.both (Vram.cell 1 0) = (0x010000F8, 0x801F) ∧
        vram.both (Vram.cell 2 0) = gpu.vram.both (Vram.cell 2 0) ∧
        vram.both (Vram.cell 0 0) = gpu.vram.both (Vram.cell 0 0) := by
  intro gpu texture shape
  have hreachable : gpu.Reachable := .act (.writeBlock _) .powerOn
  have hanswer : (Decoder.idle.pushAll [0x65808080, 0x00000001, 0x00050002, 0x00020003]).2[3]? =
      some (Except.ok (some (Job.rectangle shape))) := by
    decide +kernel
  have hjob : (Job.rectangle shape).IsDecoded := ⟨_, List.mem_of_getElem? hanswer⟩
  have henvironment : gpu.environment =
      ⟨⟨1, 0, 100, 100⟩, ⟨-1, 0⟩, ⟨⟨1, 1⟩, ⟨0, 0⟩⟩, true, true, false⟩ := by
    decide +kernel
  have hpage : gpu.status.texturePage = ⟨64, 0, .average, .indexed4, false⟩ := by
    decide +kernel
  let image : ImageLoad := ⟨⟨66, 0, 17, 1⟩, #[0x00000021, 0, 0, 0, 0, 0, 0, 0, 0x0000801F]⟩
  have hjobs : (powerOn.decoder.takeAll
      [0xE1003001, 0xE2000401, 0xE3000001, 0xE4019064, 0xE50007FF,
        0xA0000000, 0x00000042, 0x00010011, 0x00000021, 0, 0, 0, 0, 0, 0, 0, 0x0000801F]).2.1 =
      [.drawMode 0x3001, .textureWindow ⟨⟨1, 1⟩, ⟨0, 0⟩⟩, .areaTopLeft 1 0,
        .areaBottomRight 100 100, .drawOffset ⟨-1, 0⟩, .upload image] := by
    decide +kernel
  have hvram : gpu.vram = image.draw false false Vram.blank := by
    show (powerOn.writeBlock _).1.vram = _
    rw [writeBlock_of_isSettled (.inl rfl), hjobs]
    rfl
  have hpoint : ∀ distance, shape.pointAt gpu.environment distance = ⟨distance.1, distance.2⟩ := by
    intro distance
    simp [Rectangle.pointAt, henvironment, shape]
  have hshown : ∀ distance, shape.Shows gpu.environment distance → 0 < distance.1 ∧ distance.1 < 3 := by
    rintro distance ⟨⟨hwidth, -⟩, hcontains⟩
    rw [hpoint, henvironment] at hcontains
    have hleft := (DrawingArea.contains_iff.1 hcontains).1
    simp only [shape] at hwidth hleft
    omega
  -- The page and the table lie to the right of the sprite.
  have hapart : ∀ distance, shape.Shows gpu.environment distance →
      ∀ i ∈ gpu.spriteReads texture distance, ∀ other, shape.Shows gpu.environment other →
        (shape.pointAt gpu.environment other).cell ≠ i := by
    intro distance _ i hi other hother hcell
    have hbounds := hshown other hother
    have hu := (texture.coordAt gpu.environment distance).u.toNat_lt
    simp only [spriteReads, hpage, TexturePage.reads, TexturePage.entry?, Option.toList_some,
      List.mem_cons, List.not_mem_nil, or_false] at hi
    rw [hpoint] at hcell
    rcases hi with hholder | hentry
    · have hcolumn := (Vram.cell_eq_iff.1 (hcell.trans hholder)).1
      simp only [TexturePage.texelsPerCell] at hcolumn
      omega
    · have hcolumn := (Vram.cell_eq_iff.1 (hcell.trans hentry)).1
      simp only [texture, Native.field] at hcolumn
      omega
  have hsent : ∀ (dx : Nat) (pixel : Native), dx < 17 → image.pixel? dx = some pixel →
      gpu.vram.native.get (Vram.cell (66 + dx : Nat) 0) = pixel := by
    intro dx pixel hdx hpixel
    have hindex : image.pixel? (0 * image.rect.width + dx) = some pixel := by
      rwa [Nat.zero_mul, Nat.zero_add]
    have hdrawn := image.nativeAt_draw ⟨by decide, by decide⟩ 66 0 rfl rfl hdx Nat.zero_lt_one hindex
      Vram.blank
    rw [hvram]
    exact hdrawn
  have htexel : ∀ (dx k : Nat) (u : UInt8) (pixel : Native),
      texture.coordAt gpu.environment (dx, 0) = ⟨u, 0⟩ → u.toNat / 4 = 2 →
      texture.clut.entry (Native.field 0x0021 4 (u.toNat % 4)) = Vram.cell (66 + k : Nat) 0 →
      k < 17 → image.pixel? k = some pixel → gpu.spriteTexel texture (dx, 0) = pixel := by
    intro dx k u pixel hcoord hu hentry hk hpixel
    have hholder : TexturePage.holder ⟨64, 0, .average, .indexed4, false⟩ u.toNat (0 : UInt8).toNat =
        Vram.cell (66 + 0 : Nat) 0 := by
      simp [TexturePage.holder, TexturePage.texelsPerCell, hu]
    simp only [spriteTexel, TexturePage.texel, TexturePage.entry?, hpage, hcoord, hholder,
      hsent 0 0x0021 (by decide) (by decide), hentry, hsent k pixel hk hpixel]
  -- The second texel of the cell names entry 2 of the table, the first one entry 1.
  have hred : gpu.spriteTexel texture (1, 0) = 0x801F :=
    htexel 1 16 9 0x801F (by rw [henvironment]; decide) rfl (by decide) (by decide) (by decide)
  have hclear : gpu.spriteTexel texture (2, 0) = 0 :=
    htexel 2 15 8 0 (by rw [henvironment]; decide) rfl (by decide) (by decide) (by decide)
  have hshows : ∀ dx, 0 < dx → dx < 3 → shape.Shows gpu.environment (dx, 0) := by
    intro dx hpos hlt
    refine ⟨⟨hlt, Nat.zero_lt_two⟩, ?_⟩
    rw [hpoint, henvironment, DrawingArea.contains_iff]
    simp only
    omega
  obtain ⟨vram, hexecute, hdrawn, hkept⟩ := execute_sprite hreachable hjob rfl rfl rfl
    (by decide +kernel) (by decide +kernel) (by decide +kernel) hapart
  refine ⟨hreachable, hjob, hapart, vram, hexecute, ?_, ?_, ?_⟩
  · have hcell := hdrawn (1, 0) (hshows 1 (by decide) (by decide))
    rw [hpoint, hred, Native.laidOver, if_neg (by decide)] at hcell
    exact hcell
  · have hcell := hdrawn (2, 0) (hshows 2 (by decide) (by decide))
    rw [hpoint, hclear, Native.laidOver, if_pos rfl] at hcell
    exact hcell
  · refine hkept _ fun distance hdistance hcell => ?_
    rw [hpoint] at hcell
    have hcolumn := (Vram.cell_eq_iff.1 hcell).1
    have hbounds := hshown distance hdistance
    simp only at hcolumn
    omega

end Gpu

end ConsoleVideo
