import ConsoleVideo.Proofs.Drawing.Corners

/-!
# The neutral tint

Texels are tinted by the colour of their shape, unless they are raw.  The middle of the scale tints
nothing, so that a shape in this colour may as well have raw texels.  Between corners of this colour
there is no other one: the weights of a point add up to the area by which their mean is divided.

* `Color.neutral`, `Deep.modulate_neutral` — the tint that changes no texel;
* `Triangle.interpolate_const`, `Triangle.base_of_neutral` — a triangle with neutral corners is neutral
  at every point that it covers;
* `Job.withRaw`, `Job.tints` — a textured shape with its texels raw or not, and the colours that tint
  them;
* `Gpu.execute_withRaw_of_neutral` — a neutral shape leads to the same hardware either way.
-/

namespace ConsoleVideo

/-! ### One texel -/

/-- The middle of the scale in every channel. -/
def Color.neutral : Color := ⟨128, 128, 128⟩

/-- **The neutral tint changes no texel**, nor what lies above its colour. -/
theorem Deep.modulate_neutral (texel : Deep) : Deep.modulate Color.neutral.deep texel = texel := by
  have hword := texel.toNat_lt
  have hscaled : ∀ t : Nat, min (128 * (t % 256) / 128) 255 = t % 256 := by
    intro t
    omega
  have hred : Deep.red Color.neutral.deep = 128 := by decide
  have hgreen : Deep.green Color.neutral.deep = 128 := by decide
  have hblue : Deep.blue Color.neutral.deep = 128 := by decide
  apply UInt32.toNat_inj.1
  simp only [modulate, hred, hgreen, hblue]
  unfold Deep.red Deep.green Deep.blue
  rw [hscaled, hscaled, hscaled, UInt32.toNat_ofNat']
  omega

/-! ### Fragments -/

/-- The paint with its texels raw or tinted. -/
def Paint.withRaw (paint : Paint) (raw : Bool) : Paint :=
  { paint with texture := paint.texture.map fun texture => { texture with raw := raw } }

namespace Pen

variable (pen : Pen) (paint : Paint) (raw : Bool)

theorem shade_withRaw (vram : Vram) {fragment : Fragment}
    (hbase : fragment.base = Color.neutral.deep) :
    pen.shade (paint.withRaw raw) vram fragment = pen.shade paint vram fragment := by
  have hsource : pen.source (paint.withRaw raw) vram fragment = pen.source paint vram fragment := by
    cases htexture : paint.texture with
    | none => simp [source, Paint.withRaw, htexture]
    | some texture => simp [source, Paint.withRaw, htexture, hbase, Deep.modulate_neutral]
  rw [shade, hsource, shade]

/-- It makes no difference on the way either, when a shape is drawn onto its own texture. -/
theorem foldl_shade_withRaw {fragments : List Fragment}
    (hbase : ∀ fragment ∈ fragments, fragment.base = Color.neutral.deep) (vram : Vram) :
    fragments.foldl (pen.shade (paint.withRaw raw)) vram = fragments.foldl (pen.shade paint) vram :=
  List.foldl_ext _ _ vram fun vram fragment h => pen.shade_withRaw paint raw vram (hbase fragment h)

end Pen

/-! ### Triangles -/

/-- The corner has the neutral colour. -/
def Point.IsNeutral (p : Point) : Prop :=
  p.color = (128, 128, 128)

theorem Point.isNeutral_ofCorner {corner : Corner} (h : corner.color = Color.neutral)
    (offset : DrawOffset) : (Point.ofCorner corner offset).IsNeutral := by
  show (((corner.color.red.toNat : Int), (corner.color.green.toNat : Int),
    (corner.color.blue.toNat : Int)) : Int × Int × Int) = _
  rw [h]
  rfl

namespace Triangle

variable {t : Triangle}

/-- **The mean of one value by any weights is this value.** -/
theorem interpolate_const (harea : t.area2 ≠ 0) (x y k : Int) :
    t.interpolate (t.weights x y) k k k = k := by
  have hsum : (t.weights x y).a + (t.weights x y).b + (t.weights x y).c = t.area2 :=
    orient_add_orient t.a t.b t.c x y
  rw [interpolate, ← add_mul, ← add_mul, hsum, Int.mul_tdiv_cancel_left k harea]

theorem baseAt_of_neutral (harea : t.area2 ≠ 0) (ha : t.a.IsNeutral) (hb : t.b.IsNeutral)
    (hc : t.c.IsNeutral) (shaded : Bool) (x y : Int) :
    t.baseAt shaded (t.weights x y) = Color.neutral.deep := by
  simp only [Point.IsNeutral, Point.color, Prod.mk.injEq] at ha hb hc
  have hchannel : t.channel (t.weights x y) 128 128 128 = 128 := by
    rw [channel, interpolate_const harea]
    rfl
  cases shaded with
  | true => simp only [baseAt, if_true, ha, hb, hc, hchannel]; rfl
  | false => simp only [baseAt, ha]; rfl

/-- **A triangle with neutral corners is neutral at every point that it covers.** -/
theorem base_of_neutral {area : DrawingArea} {a b c : Point} (ha : a.IsNeutral) (hb : b.IsNeutral)
    (hc : c.IsNeutral) {shaded textured : Bool} {fragment : Fragment}
    (h : fragment ∈ fragments area a b c shaded textured) : fragment.base = Color.neutral.deep := by
  obtain ⟨-, t, hpoints, hfragment⟩ := of_mem_fragments area h
  obtain ⟨hpos, hway⟩ := of_ofPoints? hpoints
  rw [(of_fragment? hfragment).2.1]
  -- Clipping leaves the corners their colours, whichever way round they are taken.
  rcases hway with rfl | rfl
  · exact baseAt_of_neutral hpos.ne' ha hb hc shaded _ _
  · exact baseAt_of_neutral hpos.ne' ha hc hb shaded _ _

theorem draw_withRaw {a b c : Point} (ha : a.IsNeutral) (hb : b.IsNeutral) (hc : c.IsNeutral)
    (area : DrawingArea) (shaded : Bool) (pen : Pen) (paint : Paint) (raw : Bool) (vram : Vram) :
    draw area a b c shaded pen (paint.withRaw raw) vram = draw area a b c shaded pen paint vram := by
  have htextured : (paint.withRaw raw).texture.isSome = paint.texture.isSome := Option.isSome_map
  rw [draw_eq_foldl, draw_eq_foldl, htextured]
  exact pen.foldl_shade_withRaw paint raw (fun _ h => base_of_neutral ha hb hc h) vram

end Triangle

/-! ### Jobs -/

/-- The polygon with its texels raw or tinted. -/
def Polygon.withRaw (shape : Polygon) (raw : Bool) : Polygon :=
  { shape with texture := shape.texture.map fun texture => { texture with raw := raw } }

/-- The rectangle with its texels raw or tinted. -/
def Rectangle.withRaw (shape : Rectangle) (raw : Bool) : Rectangle :=
  { shape with texture := shape.texture.map fun texture => { texture with raw := raw } }

namespace Job

/-- A textured shape with its texels raw or tinted. -/
def withRaw (raw : Bool) : Job → Job
  | .polygon shape => .polygon (shape.withRaw raw)
  | .rectangle shape => .rectangle (shape.withRaw raw)
  | job => job

/-- The colours that tint the texels of a shape: those of all corners, or that of a rectangle. -/
def tints : Job → List Color
  | .polygon shape =>
    shape.first.color :: shape.second.color :: shape.third.color ::
      (shape.fourth.map (·.color)).toList
  | .rectangle shape => [shape.color]
  | _ => []

end Job

namespace Gpu

variable {gpu : Gpu}

theorem polygonStatus_withRaw (status : Status) (allowed : Bool) (shape : Polygon) (raw : Bool) :
    polygonStatus status allowed (shape.withRaw raw) = polygonStatus status allowed shape := by
  simp only [polygonStatus, Polygon.withRaw]
  cases shape.texture <;> rfl

theorem polygonPaint_withRaw (status : Status) (shape : Polygon) (raw : Bool) :
    polygonPaint status (shape.withRaw raw) = (polygonPaint status shape).withRaw raw := by
  simp only [polygonPaint, Paint.withRaw, Polygon.withRaw]
  split
  · rfl
  · cases shape.texture <;> rfl

theorem rectanglePaint_withRaw (status : Status) (shape : Rectangle) (raw : Bool) :
    rectanglePaint status (shape.withRaw raw) = (rectanglePaint status shape).withRaw raw := by
  simp only [rectanglePaint, Paint.withRaw, Rectangle.withRaw]
  split
  · rfl
  · cases shape.texture <;> rfl

theorem runPolygon_withRaw {shape : Polygon}
    (hneutral : ∀ color ∈ (Job.polygon shape).tints, color = Color.neutral) (raw : Bool) :
    gpu.runPolygon (shape.withRaw raw) = gpu.runPolygon shape := by
  have hcorner : ∀ corner : Corner, corner.color ∈ (Job.polygon shape).tints →
      (Point.ofCorner corner gpu.environment.offset).IsNeutral :=
    fun corner hcorner => Point.isNeutral_ofCorner (hneutral _ hcorner) _
  have hfirst := hcorner shape.first (by simp [Job.tints])
  have hsecond := hcorner shape.second (by simp [Job.tints])
  have hthird := hcorner shape.third (by simp [Job.tints])
  have hdraw : ∀ status vram, drawPolygon status gpu.environment (shape.withRaw raw) vram =
      drawPolygon status gpu.environment shape vram := by
    intro status vram
    have hhalf := Triangle.draw_withRaw hfirst hsecond hthird gpu.environment.area shape.shaded
      (Pen.ofSettings status gpu.environment) (polygonPaint status shape) raw vram
    simp only [drawPolygon, polygonPaint_withRaw]
    cases hfourth : shape.fourth with
    | none => simp only [Polygon.withRaw, hfourth, hhalf]
    | some fourth =>
      have hlast := hcorner fourth (by simp [Job.tints, hfourth])
      simp only [Polygon.withRaw, hfourth, hhalf, Triangle.draw_withRaw hsecond hthird hlast]
  simp only [runPolygon, polygonStatus_withRaw, hdraw]

theorem runRectangle_withRaw {shape : Rectangle}
    (hneutral : ∀ color ∈ (Job.rectangle shape).tints, color = Color.neutral) (raw : Bool) :
    gpu.runRectangle (shape.withRaw raw) = gpu.runRectangle shape := by
  have hsprite : Sprite.ofRectangle (shape.withRaw raw) gpu.environment =
      Sprite.ofRectangle shape gpu.environment := by
    simp only [Sprite.ofRectangle, Rectangle.withRaw, Option.map_map]
    rfl
  have hbase : ∀ fragment ∈ ((Sprite.ofRectangle shape gpu.environment).scan
      gpu.environment.area).fragments, fragment.base = Color.neutral.deep := by
    intro fragment hfragment
    obtain ⟨y, -, hrow⟩ := List.mem_flatMap.1 hfragment
    obtain ⟨x, -, rfl⟩ := List.mem_map.1 hrow
    exact congrArg Color.deep (hneutral shape.color (List.mem_singleton_self _))
  simp only [runRectangle, hsprite, rectanglePaint_withRaw, Scan.paint_eq_foldl,
    Pen.foldl_shade_withRaw _ _ _ hbase]

/-- **In the neutral colour it makes no difference whether texels are raw.**  A polygon, shaded or not
and with three corners or four, or a rectangle leads to the same hardware either way, whatever its page,
its colour table and its translucency, whatever the mask settings, and also where it is drawn onto its
own texture. -/
theorem execute_withRaw_of_neutral {job : Job} (hneutral : ∀ color ∈ job.tints, color = Color.neutral) :
    gpu.execute (job.withRaw false) = gpu.execute (job.withRaw true) := by
  have hrun : ∀ raw, gpu.execute (job.withRaw raw) = gpu.execute job := by
    intro raw
    cases job with
    | polygon shape => exact congrArg (·, none) (runPolygon_withRaw hneutral raw)
    | rectangle shape => exact congrArg (·, none) (runRectangle_withRaw hneutral raw)
    | _ => rfl
  rw [hrun, hrun]

/-- A shaded and translucent quadrilateral that is drawn onto its own texture, with masks set and
checked, and cut off by the drawing area. -/
theorem execute_withRaw_of_neutral_feedback :
    let gpu : Gpu := { powerOn with
      status := { powerOn.status with setMask := true, checkMask := true }
      environment := { powerOn.environment with area := ⟨66, 2, 90, 20⟩ } }
    let corner := fun (x y : Int) (u v : UInt8) => (⟨⟨x, y⟩, Color.neutral, ⟨u, v⟩⟩ : Corner)
    let shape := fun raw : Bool => Job.polygon ⟨corner 60 0 0 0, corner 100 3 40 3, corner 62 30 2 30,
      some (corner 99 31 39 31), true, some ⟨⟨0, 480⟩, 0x0121, raw⟩, true⟩
    (∀ color ∈ (shape true).tints, color = Color.neutral) ∧
      gpu.execute (shape false) = gpu.execute (shape true) := by
  intro gpu corner shape
  have hneutral : ∀ color ∈ (shape true).tints, color = Color.neutral := by
    decide
  have hsame := @execute_withRaw_of_neutral gpu (shape true) hneutral
  exact ⟨hneutral, hsame⟩

end Gpu

end ConsoleVideo
