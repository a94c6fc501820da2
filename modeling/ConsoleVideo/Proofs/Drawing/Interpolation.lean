import ConsoleVideo.Proofs.Drawing.Tinting

/-!
# Colours and texture coordinates between the corners

At a point inside a triangle, a colour channel or a texture coordinate is the mean of what the corners
carry, by the areas that the point makes with the edges across from them, and the division by the whole
area drops what is left over.  Corners that were moved into the drawing area have dragged their texture
coordinates along, below zero and beyond a byte, so that the division rounds upwards as well as
downwards.  A mean stays between its corners nevertheless: where they are whole numbers, rounding towards
zero cannot pass them.

* `Triangle.interpolate_between` — weights that are not negative make no mean below or above all values;
* `Point.InBytes`, `Triangle.channel_eq` — so a channel is still a byte when it comes to be kept in one;
* `Triangle.Convex`, `Triangle.convex_of_covers` — all of this at a covered point;
* `Triangle.Carries`, `Triangle.carries_of_mem_fragments` — the means are what the fragments bring to the
  pen;
* `Triangle.fragments_flat` — corners of one colour leave nothing to shade;
* `Gpu.run_polygon_convex` — what follows for the triangles of a polygon.
-/

namespace ConsoleVideo

/-! ### Corners -/

/-- The colour of the corner fits into three bytes. -/
def Point.InBytes (p : Point) : Prop :=
  ∀ channel ∈ [Point.red, Point.green, Point.blue], 0 ≤ channel p ∧ channel p ≤ 255

theorem Point.inBytes_ofCorner (corner : Corner) (offset : DrawOffset) :
    (ofCorner corner offset).InBytes := by
  have hred := corner.color.red.toNat_lt
  have hgreen := corner.color.green.toNat_lt
  have hblue := corner.color.blue.toNat_lt
  simp only [InBytes, List.forall_mem_cons, List.not_mem_nil, false_imp_iff, implies_true, and_true,
    ofCorner]
  omega

/-- Clipping leaves a corner its colour. -/
theorem Point.InBytes.clip {p : Point} (h : p.InBytes) (area : DrawingArea) :
    (p.clip area).InBytes := by
  simp only [InBytes, List.forall_mem_cons, List.not_mem_nil, false_imp_iff, implies_true, and_true]
    at h ⊢
  exact h

namespace Triangle

variable {area : DrawingArea} {a b c : Point} {t : Triangle} {x y : Int}

/-- Neither clipping nor the way around changes the colours of the corners. -/
theorem inBytes_of_ofPoints? (ha : a.InBytes) (hb : b.InBytes) (hc : c.InBytes)
    (h : ofPoints? area a b c = some t) : ∀ p ∈ [t.a, t.b, t.c], p.InBytes := by
  simp only [List.forall_mem_cons, List.not_mem_nil, false_imp_iff, implies_true, and_true]
  rcases (of_ofPoints? h).2 with rfl | rfl
  · exact ⟨ha.clip area, hb.clip area, hc.clip area⟩
  · exact ⟨ha.clip area, hc.clip area, hb.clip area⟩

/-! ### Means -/

/-- No weight of a covered point is negative. -/
theorem weights_nonneg (h : t.covers (t.weights x y) = true) :
    0 ≤ (t.weights x y).a ∧ 0 ≤ (t.weights x y).b ∧ 0 ≤ (t.weights x y).c := by
  have hcovers : surrounds t.a t.b t.c ⟨x, y⟩ = true := h
  rw [surrounds, Bool.and_eq_true, Bool.and_eq_true] at hcovers
  obtain ⟨⟨hbc, hca⟩, hab⟩ := hcovers
  exact ⟨orient_nonneg_of_inside hbc, orient_nonneg_of_inside hca, orient_nonneg_of_inside hab⟩

theorem sum_weights (t : Triangle) (x y : Int) :
    (t.weights x y).a + (t.weights x y).b + (t.weights x y).c = t.area2 :=
  orient_add_orient t.a t.b t.c x y

/-- **A mean is between the smallest and the largest value**, whatever it drops in the division: the
bounds times the area bound what is divided, and they are whole. -/
theorem interpolate_between (hpos : 0 < t.area2) (h : t.covers (t.weights x y) = true)
    (u v w : Int) :
    least u v w ≤ t.interpolate (t.weights x y) u v w ∧
      t.interpolate (t.weights x y) u v w ≤ greatest u v w := by
  obtain ⟨ha, hb, hc⟩ := weights_nonneg h
  have hsum := t.sum_weights x y
  have hwhole : ∀ k : Int, (k * t.area2).tdiv t.area2 = k :=
    fun k => Int.mul_tdiv_cancel k hpos.ne'
  have hspread : ∀ k : Int, k * t.area2 =
      (t.weights x y).a * k + (t.weights x y).b * k + (t.weights x y).c * k := by
    intro k
    rw [← hsum]
    ring
  have hlow : least u v w ≤ u ∧ least u v w ≤ v ∧ least u v w ≤ w := by
    simp only [least]
    omega
  have hhigh : u ≤ greatest u v w ∧ v ≤ greatest u v w ∧ w ≤ greatest u v w := by
    simp only [greatest]
    omega
  rw [interpolate]
  constructor
  · rw [← hwhole (least u v w), hspread]
    exact Int.tdiv_le_tdiv hpos (add_le_add (add_le_add (mul_le_mul_of_nonneg_left hlow.1 ha)
      (mul_le_mul_of_nonneg_left hlow.2.1 hb)) (mul_le_mul_of_nonneg_left hlow.2.2 hc))
  · rw [← hwhole (greatest u v w), hspread]
    exact Int.tdiv_le_tdiv hpos (add_le_add (add_le_add (mul_le_mul_of_nonneg_left hhigh.1 ha)
      (mul_le_mul_of_nonneg_left hhigh.2.1 hb)) (mul_le_mul_of_nonneg_left hhigh.2.2 hc))

/-- **At a corner the mean is the value of this corner**: the other two have no weight there. -/
theorem interpolate_corner (harea : t.area2 ≠ 0) (value : Point → Int) {p : Point}
    (hp : p ∈ [t.a, t.b, t.c]) :
    t.interpolate (t.weights p.x p.y) (value t.a) (value t.b) (value t.c) = value p := by
  have hb : orient t.b t.c t.a.x t.a.y = t.area2 := orient_rotate t.a t.b t.c
  have hc : orient t.c t.a t.b.x t.b.y = t.area2 := by rw [orient_rotate, hb]
  have hweights : (t.weights p.x p.y).a * value t.a + (t.weights p.x p.y).b * value t.b +
      (t.weights p.x p.y).c * value t.c = t.area2 * value p := by
    simp only [List.mem_cons, List.not_mem_nil, or_false] at hp
    rcases hp with rfl | rfl | rfl
    · simp only [weights, hb, orient_left, orient_right, zero_mul, add_zero]
    · simp only [weights, hc, orient_left, orient_right, zero_mul, add_zero, zero_add]
    · simp only [weights, orient_left, orient_right, zero_mul, zero_add]
      rfl
  rw [interpolate, hweights, Int.mul_tdiv_cancel_left (value p) harea]

/-- A channel between bytes is a byte, and keeping it within one does not change it. -/
theorem channel_eq (hpos : 0 < t.area2) (h : t.covers (t.weights x y) = true) {u v w : Int}
    (hu : 0 ≤ u ∧ u ≤ 255) (hv : 0 ≤ v ∧ v ≤ 255) (hw : 0 ≤ w ∧ w ≤ 255) :
    (t.channel (t.weights x y) u v w : Int) = t.interpolate (t.weights x y) u v w := by
  have hbetween := interpolate_between hpos h u v w
  simp only [least, greatest] at hbetween
  rw [channel]
  omega

/-- What the corners carry is mixed at a point, and nothing is added to it. -/
structure Convex (t : Triangle) (x y : Int) : Prop where
  weights : 0 ≤ (t.weights x y).a ∧ 0 ≤ (t.weights x y).b ∧ 0 ≤ (t.weights x y).c
  sum : (t.weights x y).a + (t.weights x y).b + (t.weights x y).c = t.area2
  between : ∀ u v w : Int, least u v w ≤ t.interpolate (t.weights x y) u v w ∧
    t.interpolate (t.weights x y) u v w ≤ greatest u v w
  corner : ∀ (value : Point → Int), ∀ p ∈ [t.a, t.b, t.c], p.x = x → p.y = y →
    t.interpolate (t.weights x y) (value t.a) (value t.b) (value t.c) = value p
  common : ∀ k : Int, t.interpolate (t.weights x y) k k k = k
  /-- Channels are not cut off on their way into a byte. -/
  channel : ∀ value ∈ [Point.red, Point.green, Point.blue],
    (t.channel (t.weights x y) (value t.a) (value t.b) (value t.c) : Int) =
      t.interpolate (t.weights x y) (value t.a) (value t.b) (value t.c)

/-- **Covered points have what is between the corners.** -/
theorem convex_of_covers (hpos : 0 < t.area2) (hbytes : ∀ p ∈ [t.a, t.b, t.c], p.InBytes)
    (h : t.covers (t.weights x y) = true) : t.Convex x y where
  weights := weights_nonneg h
  sum := t.sum_weights x y
  between := interpolate_between hpos h
  corner := by
    rintro value p hp rfl rfl
    exact interpolate_corner hpos.ne' value hp
  common := fun k => interpolate_const hpos.ne' x y k
  channel := fun value hvalue =>
    channel_eq hpos h (hbytes t.a (by simp) value hvalue) (hbytes t.b (by simp) value hvalue)
      (hbytes t.c (by simp) value hvalue)

/-! ### Fragments -/

/-- What a triangle shows of its corners: a mean by weight if it is shaded, the first corner if it is
not. -/
def shown (t : Triangle) (shaded : Bool) (w : Weights) (value : Point → Int) : Int :=
  if shaded then t.interpolate w (value t.a) (value t.b) (value t.c) else value t.a

/-- The fragment brings what the triangle shows at its point to the pen: its channels are those shown,
and where it is textured, eight bits of the means select the texel. -/
structure Carries (t : Triangle) (shaded textured : Bool) (fragment : Fragment) : Prop where
  covers : t.covers (t.weights fragment.x fragment.y) = true
  red : (Deep.red fragment.base : Int) =
    t.shown shaded (t.weights fragment.x fragment.y) Point.red
  green : (Deep.green fragment.base : Int) =
    t.shown shaded (t.weights fragment.x fragment.y) Point.green
  blue : (Deep.blue fragment.base : Int) =
    t.shown shaded (t.weights fragment.x fragment.y) Point.blue
  u : textured = true →
    (fragment.u : Int) = t.interpolate (t.weights fragment.x fragment.y) t.a.u t.b.u t.c.u % 256
  v : textured = true →
    (fragment.v : Int) = t.interpolate (t.weights fragment.x fragment.y) t.a.v t.b.v t.c.v % 256

theorem texel_eq (t : Triangle) (w : Weights) (a b c : Int) :
    (t.texel w a b c : Int) = t.interpolate w a b c % 256 :=
  Int.toNat_of_nonneg (Int.emod_nonneg _ (by decide))

section Shown

variable (hconvex : t.Convex x y) (shaded : Bool)

include hconvex

theorem shown_between (hbytes : t.a.InBytes) {value : Point → Int}
    (hvalue : value ∈ [Point.red, Point.green, Point.blue]) :
    0 ≤ t.shown shaded (t.weights x y) value ∧ t.shown shaded (t.weights x y) value ≤ 255 := by
  cases shaded with
  | false => exact hbytes value hvalue
  | true =>
    have hchannel := hconvex.channel value hvalue
    rw [Triangle.channel] at hchannel
    show 0 ≤ t.interpolate _ _ _ _ ∧ t.interpolate _ _ _ _ ≤ 255
    omega

theorem baseAt_eq :
    t.baseAt shaded (t.weights x y) =
      Deep.ofChannels (t.shown shaded (t.weights x y) Point.red).toNat
        (t.shown shaded (t.weights x y) Point.green).toNat
        (t.shown shaded (t.weights x y) Point.blue).toNat := by
  cases shaded with
  | false => rfl
  | true =>
    have hchannel : ∀ value ∈ [Point.red, Point.green, Point.blue],
        (t.shown true (t.weights x y) value).toNat =
          t.channel (t.weights x y) (value t.a) (value t.b) (value t.c) := by
      intro value hvalue
      show (t.interpolate _ _ _ _).toNat = _
      rw [← hconvex.channel value hvalue, Int.toNat_natCast]
    rw [hchannel Point.red (by simp), hchannel Point.green (by simp), hchannel Point.blue (by simp)]
    rfl

/-- **Packing the channels into one pixel loses nothing of them.** -/
theorem channels_baseAt (hbytes : t.a.InBytes) :
    (Deep.red (t.baseAt shaded (t.weights x y)) : Int) =
        t.shown shaded (t.weights x y) Point.red ∧
      (Deep.green (t.baseAt shaded (t.weights x y)) : Int) =
        t.shown shaded (t.weights x y) Point.green ∧
      (Deep.blue (t.baseAt shaded (t.weights x y)) : Int) =
        t.shown shaded (t.weights x y) Point.blue := by
  have hred := shown_between hconvex shaded hbytes (show Point.red ∈ _ by simp)
  have hgreen := shown_between hconvex shaded hbytes (show Point.green ∈ _ by simp)
  have hblue := shown_between hconvex shaded hbytes (show Point.blue ∈ _ by simp)
  have hbyte : ∀ n : Int, 0 ≤ n ∧ n ≤ 255 → n.toNat < 256 := by
    intro n hn
    omega
  obtain ⟨hr, hg, hb⟩ :=
    Deep.channels_ofChannels (hbyte _ hred) (hbyte _ hgreen) (hbyte _ hblue)
  rw [baseAt_eq hconvex, hr, hg, hb]
  exact ⟨Int.toNat_of_nonneg hred.1, Int.toNat_of_nonneg hgreen.1, Int.toNat_of_nonneg hblue.1⟩

end Shown

/-- **Fragments bring the means of their points to the pen.** -/
theorem carries_of_mem_fragments (ha : a.InBytes) (hb : b.InBytes) (hc : c.InBytes)
    {shaded textured : Bool} {fragment : Fragment}
    (h : fragment ∈ fragments area a b c shaded textured) :
    ∃ t, ofPoints? area a b c = some t ∧ t.Carries shaded textured fragment := by
  obtain ⟨-, t, hpoints, hfragment⟩ := of_mem_fragments area h
  obtain ⟨hcovers, hbase, htexels⟩ := of_fragment? hfragment
  have hbytes := inBytes_of_ofPoints? ha hb hc hpoints
  have hconvex := convex_of_covers (of_ofPoints? hpoints).1 hbytes hcovers
  obtain ⟨hred, hgreen, hblue⟩ := channels_baseAt hconvex shaded (hbytes t.a (by simp))
  rw [← hbase] at hred hgreen hblue
  refine ⟨t, hpoints, hcovers, hred, hgreen, hblue, fun htextured => ?_, fun htextured => ?_⟩
  · rw [(htexels htextured).1, texel_eq]
  · rw [(htexels htextured).2, texel_eq]

/-! ### Corners of one colour -/

theorem baseAt_flat (harea : t.area2 ≠ 0) (hbytes : t.a.InBytes) (hb : t.b.color = t.a.color)
    (hc : t.c.color = t.a.color) (x y : Int) :
    t.baseAt true (t.weights x y) = t.baseAt false (t.weights x y) := by
  simp only [Point.color, Prod.mk.injEq] at hb hc
  have hchannel : ∀ k : Int, 0 ≤ k ∧ k ≤ 255 → t.channel (t.weights x y) k k k = k.toNat := by
    intro k hk
    rw [channel, interpolate_const harea]
    omega
  have hred := hchannel _ (hbytes Point.red (by simp))
  have hgreen := hchannel _ (hbytes Point.green (by simp))
  have hblue := hchannel _ (hbytes Point.blue (by simp))
  simp only [baseAt, if_true, Bool.false_eq_true, if_false, hb, hc, hred, hgreen, hblue]

/-- **Corners of one colour leave nothing to shade.** -/
theorem fragments_flat (hbytes : a.InBytes) (hb : a.color = b.color) (hc : b.color = c.color)
    (area : DrawingArea) (textured : Bool) :
    fragments area a b c true textured = fragments area a b c false textured := by
  rw [fragments, fragments]
  cases hpoints : ofPoints? area a b c with
  | none => rfl
  | some t =>
    obtain ⟨hpos, ht⟩ := of_ofPoints? hpoints
    have hfirst : t.a.InBytes := by
      rcases ht with rfl | rfl <;> exact hbytes.clip area
    have hsecond : t.b.color = t.a.color := by
      rcases ht with rfl | rfl
      · exact hb.symm
      · exact (hb.trans hc).symm
    have hthird : t.c.color = t.a.color := by
      rcases ht with rfl | rfl
      · exact (hb.trans hc).symm
      · exact hb.symm
    have hfragment : ∀ x y, t.fragment? true textured x y = t.fragment? false textured x y := by
      intro x y
      rw [fragment?, fragment?, baseAt_flat hpos.ne' hfirst hsecond hthird]
    simp only [scan, hfragment]

end Triangle

/-! ### Polygons -/

/-- The triangles that a polygon is drawn as, by their corners as the drawing offset has moved them. -/
def Polygon.triangles (polygon : Polygon) (offset : DrawOffset) : List Triangle :=
  let point := fun corner => Point.ofCorner corner offset
  ⟨point polygon.first, point polygon.second, point polygon.third⟩ ::
    polygon.fourth.toList.map fun fourth =>
      ⟨point polygon.second, point polygon.third, point fourth⟩

theorem Polygon.inBytes_of_mem_triangles {polygon : Polygon} {offset : DrawOffset}
    {corners : Triangle} (h : corners ∈ polygon.triangles offset) :
    corners.a.InBytes ∧ corners.b.InBytes ∧ corners.c.InBytes := by
  simp only [triangles, List.mem_cons, List.mem_map] at h
  rcases h with rfl | ⟨fourth, -, rfl⟩
  · exact ⟨Point.inBytes_ofCorner _ _, Point.inBytes_ofCorner _ _, Point.inBytes_ofCorner _ _⟩
  · exact ⟨Point.inBytes_ofCorner _ _, Point.inBytes_ofCorner _ _, Point.inBytes_ofCorner _ _⟩

namespace Gpu

/-- Triangles in a row lay down their fragments in a row: none changes the pen of the next. -/
theorem vram_foldl_drawTriangle (gpu : Gpu) (shaded : Bool) (paint : Paint)
    (triangles : List Triangle) :
    (triangles.foldl (fun later corners =>
        later.drawTriangle corners.a corners.b corners.c shaded paint) gpu).vram =
      (triangles.flatMap fun corners => Triangle.fragments gpu.environment.area corners.a corners.b
        corners.c shaded paint.texture.isSome).foldl
        ((Pen.ofSettings gpu.status gpu.environment).shade paint) gpu.vram := by
  induction triangles generalizing gpu with
  | nil => rfl
  | cons corners triangles ih =>
    rw [List.foldl_cons, ih, List.flatMap_cons, List.foldl_append, ← Triangle.draw_eq_foldl]
    rfl

theorem run_polygon_eq_foldl (gpu : Gpu) (polygon : Polygon) :
    let status := polygonStatus gpu.status gpu.environment.textureDisableAllowed polygon
    gpu.run (.polygon polygon) =
      (polygon.triangles gpu.environment.offset).foldl (fun later corners =>
        later.drawTriangle corners.a corners.b corners.c polygon.shaded
          (polygonPaint status polygon)) { gpu with status := status } := by
  rw [run_polygon]
  simp only [Polygon.triangles]
  cases polygon.fourth with
  | none => rfl
  | some fourth => rfl

/-- **A polygon is nowhere beyond its corners.**  It is drawn as its triangles, one after the other, and
what reaches the pen are their fragments.  Where one of them covers a point, the weights of the corners
are not negative and add up to the area, which is positive; hence all channels and texture coordinates
lie between those of the corners, are those of a corner at the corner, are what the corners have in
common, and the channels are bytes already.  These are the channels and the texture coordinates of its
fragments.  A shaded triangle whose corners have one colour draws what one does that is not shaded. -/
theorem run_polygon_convex (gpu : Gpu) (polygon : Polygon) :
    let status := polygonStatus gpu.status gpu.environment.textureDisableAllowed polygon
    let paint := polygonPaint status polygon
    let triangles := polygon.triangles gpu.environment.offset
    let drawn := fun corners : Triangle => Triangle.fragments gpu.environment.area corners.a corners.b
      corners.c polygon.shaded paint.texture.isSome
    gpu.run (.polygon polygon) =
        triangles.foldl (fun later corners => later.drawTriangle corners.a corners.b corners.c
          polygon.shaded paint) { gpu with status := status } ∧
      (gpu.run (.polygon polygon)).vram = (triangles.flatMap drawn).foldl
        ((Pen.ofSettings status gpu.environment).shade paint) gpu.vram ∧
      ∀ corners ∈ triangles,
        (∀ t, Triangle.ofPoints? gpu.environment.area corners.a corners.b corners.c = some t →
          0 < t.area2 ∧ ∀ x y, t.covers (t.weights x y) = true → t.Convex x y) ∧
        (∀ fragment ∈ drawn corners, ∃ t,
          Triangle.ofPoints? gpu.environment.area corners.a corners.b corners.c = some t ∧
            t.Carries polygon.shaded paint.texture.isSome fragment) ∧
        (corners.a.color = corners.b.color → corners.b.color = corners.c.color →
          ∀ (later : Gpu) (paint : Paint),
            later.drawTriangle corners.a corners.b corners.c true paint =
              later.drawTriangle corners.a corners.b corners.c false paint) := by
  intro status paint triangles drawn
  have hrun := gpu.run_polygon_eq_foldl polygon
  refine ⟨hrun, ?_, fun corners hcorners => ?_⟩
  · rw [hrun, vram_foldl_drawTriangle]
  · obtain ⟨ha, hb, hc⟩ := Polygon.inBytes_of_mem_triangles hcorners
    refine ⟨fun t ht => ?_, fun fragment hfragment => ?_, fun hab hbc later paint => ?_⟩
    · have hpos := (Triangle.of_ofPoints? ht).1
      have hbytes := Triangle.inBytes_of_ofPoints? ha hb hc ht
      exact ⟨hpos, fun x y hcovers => Triangle.convex_of_covers hpos hbytes hcovers⟩
    · exact Triangle.carries_of_mem_fragments ha hb hc hfragment
    · rw [drawTriangle, drawTriangle, Triangle.draw_eq_foldl, Triangle.draw_eq_foldl,
        Triangle.fragments_flat ha hab hbc]

/-- Moving two corners into a narrow drawing area drags a texture coordinate to either side of zero.  The
mean of seven and a half below zero is rounded upwards, and selects a texel at the far end of the page. -/
theorem run_polygon_convex_dragged :
    let gpu : Gpu := { powerOn with
      environment := { powerOn.environment with area := ⟨10, 0, 20, 20⟩ } }
    let corner := fun x y : Int => (⟨⟨x, y⟩, ⟨255, 128, 0⟩, ⟨0, 0⟩⟩ : Corner)
    let polygon : Polygon :=
      ⟨corner 0 0, corner 30 0, corner 10 20, none, true, some ⟨⟨0, 480⟩, 0x0105, false⟩, false⟩
    let corners : Triangle := ⟨⟨0, 0, 255, 128, 0, 0, 0⟩, ⟨30, 0, 255, 128, 0, 0, 0⟩,
      ⟨10, 20, 255, 128, 0, 0, 0⟩⟩
    let t : Triangle := ⟨⟨10, 0, 255, 128, 0, 10, 0⟩, ⟨20, 0, 255, 128, 0, -10, 0⟩,
      ⟨10, 20, 255, 128, 0, 0, 0⟩⟩
    let fragment : Fragment := ⟨18, 3, Deep.ofChannels 255 128 0, 249, 0⟩
    corners ∈ polygon.triangles gpu.environment.offset ∧
      Triangle.ofPoints? gpu.environment.area corners.a corners.b corners.c = some t ∧
      0 < t.area2 ∧ t.covers (t.weights 18 3) = true ∧ t.Convex 18 3 ∧
      t.interpolate (t.weights 18 3) t.a.u t.b.u t.c.u = -7 ∧
      fragment ∈ Triangle.fragments gpu.environment.area corners.a corners.b corners.c true true ∧
      t.Carries true true fragment ∧
      gpu.drawTriangle corners.a corners.b corners.c true ⟨none, false⟩ =
        gpu.drawTriangle corners.a corners.b corners.c false ⟨none, false⟩ := by
  intro gpu corner polygon corners t fragment
  have hmem : corners ∈ polygon.triangles gpu.environment.offset := by decide
  have hpoints : Triangle.ofPoints? gpu.environment.area corners.a corners.b corners.c = some t := by
    decide
  have hcovers : t.covers (t.weights 18 3) = true := by decide
  have hfragment : fragment ∈
      Triangle.fragments gpu.environment.area corners.a corners.b corners.c true true := by
    decide +kernel
  obtain ⟨hconvex, hcarries, hflat⟩ := (gpu.run_polygon_convex polygon).2.2 corners hmem
  obtain ⟨hpos, hall⟩ := hconvex t hpoints
  obtain ⟨t', hpoints', hfragments⟩ := hcarries fragment hfragment
  obtain rfl : t = t' := Option.some.inj (hpoints.symm.trans hpoints')
  exact ⟨hmem, hpoints, hpos, hcovers, hall 18 3 hcovers, by decide, hfragment, hfragments,
    hflat rfl rfl gpu ⟨none, false⟩⟩

end Gpu

end ConsoleVideo
