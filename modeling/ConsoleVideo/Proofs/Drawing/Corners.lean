import ConsoleVideo.Proofs.Drawing.SharedEdge
import Mathlib.Data.List.Permutation

/-!
# Corners in any order

The loop that fills a triangle names its corners: the first one colours a triangle of one colour, the
weights of a point are taken in the order of the corners, and a triangle that runs the wrong way round
has its second and third corner exchanged.  None of this shows in the picture.

* `Gpu.drawTriangle` — the hardware after the triangle of three corners, with `Gpu.run_polygon`: a
  polygon is one such triangle or two;
* `Triangle.rotate`, `Triangle.scan_rotate` — a way around that starts from the next corner has the
  same fragments;
* `Triangle.of_ofPoints?` — what is drawn of three corners is their triangle or its mirror image, with a
  positive area;
* `Triangle.of_mem_fragments`, `Triangle.of_fragment?` — where a fragment comes from, and what it tells
  of its point;
* `Triangle.fragments_swap`, `Triangle.fragments_rotate` — so have two corners exchanged, and all three
  moved on by one;
* `Gpu.drawTriangle_perm` — hence the hardware does not see in which order the corners came.
-/

namespace ConsoleVideo

/-! ### Drawing a triangle -/

namespace Gpu

/-- The hardware after the triangle of three corners, which the drawing offset has moved already. -/
def drawTriangle (gpu : Gpu) (a b c : Point) (shaded : Bool) (paint : Paint) : Gpu :=
  { gpu with
    vram := Triangle.draw gpu.environment.area a b c shaded
      (Pen.ofSettings gpu.status gpu.environment) paint gpu.vram }

/-- A polygon is drawn as one triangle or two, after a textured one has selected its page. -/
theorem run_polygon (gpu : Gpu) (polygon : Polygon) :
    gpu.run (.polygon polygon) =
      let status := polygonStatus gpu.status gpu.environment.textureDisableAllowed polygon
      let paint := polygonPaint status polygon
      let point := fun corner => Point.ofCorner corner gpu.environment.offset
      let half := drawTriangle { gpu with status := status } (point polygon.first)
        (point polygon.second) (point polygon.third) polygon.shaded paint
      match polygon.fourth with
      | none => half
      | some fourth =>
        half.drawTriangle (point polygon.second) (point polygon.third) (point fourth) polygon.shaded
          paint := by
  simp only [run, runPolygon, drawPolygon]
  cases polygon.fourth with
  | none => rfl
  | some fourth => rfl

/-- What is drawn follows from the fragments. -/
theorem drawTriangle_congr {gpu : Gpu} {a b c a' b' c' : Point} {shaded : Bool} {paint : Paint}
    (h : Triangle.fragments gpu.environment.area a' b' c' shaded paint.texture.isSome =
      Triangle.fragments gpu.environment.area a b c shaded paint.texture.isSome) :
    gpu.drawTriangle a' b' c' shaded paint = gpu.drawTriangle a b c shaded paint := by
  simp only [drawTriangle, Triangle.draw_eq_foldl, h]

end Gpu

/-- The colour of a corner. -/
def Point.color (p : Point) : Int × Int × Int :=
  (p.red, p.green, p.blue)

namespace Triangle

/-! ### The way around from another corner -/

/-- The same way around, from the next corner. -/
def rotate (t : Triangle) : Triangle :=
  ⟨t.b, t.c, t.a⟩

/-- The weights as the next corner has them. -/
def Weights.rotate (w : Weights) : Weights :=
  ⟨w.b, w.c, w.a⟩

theorem weights_rotate (t : Triangle) (x y : Int) :
    t.rotate.weights x y = (t.weights x y).rotate := rfl

theorem area2_rotate (t : Triangle) : t.rotate.area2 = t.area2 :=
  orient_rotate t.a t.b t.c

theorem covers_rotate (t : Triangle) (w : Weights) : t.rotate.covers w.rotate = t.covers w := by
  simp only [covers, rotate, Weights.rotate, Bool.and_assoc]
  rw [Bool.and_comm (insideEdge w.a _), Bool.and_assoc]

/-- A mean by weight does not depend on the order of its terms. -/
theorem interpolate_rotate (t : Triangle) (w : Weights) (a b c : Int) :
    t.rotate.interpolate w.rotate b c a = t.interpolate w a b c := by
  have hsum : w.b * b + w.c * c + w.a * a = w.a * a + w.b * b + w.c * c := by ring
  simp only [interpolate, area2_rotate, Weights.rotate, hsum]

theorem channel_rotate (t : Triangle) (w : Weights) (a b c : Int) :
    t.rotate.channel w.rotate b c a = t.channel w a b c := by
  rw [channel, interpolate_rotate, channel]

theorem texel_rotate (t : Triangle) (w : Weights) (a b c : Int) :
    t.rotate.texel w.rotate b c a = t.texel w a b c := by
  rw [texel, interpolate_rotate, texel]

theorem baseAt_rotate (t : Triangle) {shaded : Bool} (w : Weights)
    (hcolor : shaded = true ∨ t.b.color = t.a.color) :
    t.rotate.baseAt shaded w.rotate = t.baseAt shaded w := by
  cases shaded with
  | true =>
    show Deep.ofChannels (t.rotate.channel w.rotate t.b.red t.c.red t.a.red)
      (t.rotate.channel w.rotate t.b.green t.c.green t.a.green)
      (t.rotate.channel w.rotate t.b.blue t.c.blue t.a.blue) = _
    simp only [channel_rotate, baseAt, if_true]
  | false =>
    have hsame : t.b.color = t.a.color := hcolor.resolve_left Bool.false_ne_true
    simp only [Point.color, Prod.mk.injEq] at hsame
    simp [baseAt, rotate, hsame]

theorem fragment?_rotate (t : Triangle) {shaded : Bool} (textured : Bool) (x y : Int)
    (hcolor : shaded = true ∨ t.b.color = t.a.color) :
    t.rotate.fragment? shaded textured x y = t.fragment? shaded textured x y := by
  have hu := t.texel_rotate (t.weights x y) t.a.u t.b.u t.c.u
  have hv := t.texel_rotate (t.weights x y) t.a.v t.b.v t.c.v
  simp only [fragment?, weights_rotate, covers_rotate, t.baseAt_rotate _ hcolor, ← hu, ← hv]
  rfl

theorem least_rotate (a b c : Int) : least b c a = least a b c := by
  simp only [least]
  omega

theorem greatest_rotate (a b c : Int) : greatest b c a = greatest a b c := by
  simp only [greatest]
  omega

/-- **Where the way around starts from does not show.** -/
theorem scan_rotate (t : Triangle) (area : DrawingArea) {shaded : Bool} (textured : Bool)
    (hcolor : shaded = true ∨ t.b.color = t.a.color) :
    t.rotate.scan area shaded textured = t.scan area shaded textured := by
  simp only [scan, t.fragment?_rotate textured _ _ hcolor]
  simp only [rotate, least_rotate, greatest_rotate]

/-! ### The way around in the other direction -/

/-- The other way around. -/
def mirror (t : Triangle) : Triangle :=
  ⟨t.a, t.c, t.b⟩

theorem area2_mirror (t : Triangle) : t.mirror.area2 = -t.area2 := by
  show orient t.a t.c t.b.x t.b.y = -orient t.a t.b t.c.x t.c.y
  rw [← orient_rotate, ← orient_rotate, orient_swap]

theorem fitsTogether_rotate (a b c : Point) : fitsTogether b c a = fitsTogether a b c := by
  simp only [fitsTogether, least_rotate, greatest_rotate]

theorem fitsTogether_swap (a b c : Point) : fitsTogether a c b = fitsTogether a b c := by
  have hleast : ∀ x y z : Int, least x z y = least x y z := fun x y z => min_right_comm x z y
  have hgreatest : ∀ x y z : Int, greatest x z y = greatest x y z := fun x y z =>
    max_right_comm x z y
  simp only [fitsTogether, hleast, hgreatest]

/-- The corners as they are after clipping, in the order in which they came. -/
def clipped (area : DrawingArea) (a b c : Point) : Triangle :=
  ⟨a.clip area, b.clip area, c.clip area⟩

/-- **What is drawn of three corners** is the triangle that they make in the drawing area, or its mirror
image, whichever has a positive area. -/
theorem of_ofPoints? {area : DrawingArea} {a b c : Point} {t : Triangle}
    (h : ofPoints? area a b c = some t) :
    0 < t.area2 ∧ (t = clipped area a b c ∨ t = (clipped area a b c).mirror) := by
  have hmirror := area2_mirror (clipped area a b c)
  have hpoints : (if (clipped area a b c).area2 = 0 then none
      else if (clipped area a b c).area2 < 0 then some (clipped area a b c).mirror
      else some (clipped area a b c)) = some t := by
    rw [ofPoints?] at h
    split at h
    · exact h
    · exact absurd h (Option.some_ne_none t).symm
  split_ifs at hpoints with hzero hneg
  · obtain rfl := Option.some.inj hpoints
    exact ⟨by omega, .inr rfl⟩
  · obtain rfl := Option.some.inj hpoints
    exact ⟨by omega, .inl rfl⟩

/-- What a fragment tells of its point. -/
theorem of_fragment? {t : Triangle} {shaded textured : Bool} {x y : Int} {fragment : Fragment}
    (h : t.fragment? shaded textured x y = some fragment) :
    t.covers (t.weights x y) = true ∧ fragment.base = t.baseAt shaded (t.weights x y) ∧
      (textured = true → fragment.u = t.texel (t.weights x y) t.a.u t.b.u t.c.u ∧
        fragment.v = t.texel (t.weights x y) t.a.v t.b.v t.c.v) := by
  rw [fragment?] at h
  split at h
  · next hcovers =>
    rw [← Option.some.inj h]
    exact ⟨hcovers, rfl, fun htextured => ⟨if_pos htextured, if_pos htextured⟩⟩
  · exact absurd h (Option.some_ne_none fragment).symm

variable (area : DrawingArea) {a b c : Point} {shaded : Bool} (textured : Bool)

/-- **Of the two ways around, the clockwise one is drawn.** -/
theorem fragments_eq (a b c : Point) (shaded : Bool) :
    let t := clipped area a b c
    fragments area a b c shaded textured =
      if fitsTogether a b c = true ∧ 0 < t.area2 then (t.scan area shaded textured).fragments
      else if fitsTogether a b c = true ∧ t.area2 < 0 then
        (t.mirror.scan area shaded textured).fragments
      else [] := by
  intro t
  have hpoints : ofPoints? area a b c =
      if fitsTogether a b c = true then
        if t.area2 = 0 then none else if t.area2 < 0 then some t.mirror else some t
      else none := rfl
  rw [fragments, hpoints]
  by_cases hfits : fitsTogether a b c = true
  · rcases lt_trichotomy t.area2 0 with hneg | hzero | hpos
    · simp [hfits, hneg, hneg.ne, hneg.not_gt]
    · simp [hfits, hzero]
    · simp [hfits, hpos, hpos.ne', hpos.not_gt]
  · simp [hfits]

/-- What a walk over a triangle finds is the fragment of its own point, which lies in the drawing
area. -/
theorem of_mem_scan {t : Triangle} {textured : Bool} {fragment : Fragment}
    (h : fragment ∈ (t.scan area shaded textured).fragments) :
    area.contains fragment.x fragment.y = true ∧
      t.fragment? shaded textured fragment.x fragment.y = some fragment := by
  obtain ⟨y, hy, hrow⟩ := List.mem_flatMap.1 h
  obtain ⟨x, hx, hfragment⟩ := List.mem_filterMap.1 hrow
  have hplace : fragment.place = ⟨x, y⟩ := by
    have hmap := t.place_fragment? shaded textured x y
    rw [hfragment, Option.map_some] at hmap
    split at hmap
    · exact Option.some.inj hmap
    · exact absurd hmap (Option.some_ne_none _)
  obtain ⟨rfl, rfl⟩ := Vertex.mk.inj hplace
  have hcolumns := mem_span.1 hx
  have hrows := mem_span.1 hy
  exact ⟨DrawingArea.contains_iff.2 (by omega), hfragment⟩

/-- Fragments are found by a walk over the triangle that is drawn of the three corners. -/
theorem of_mem_fragments {textured : Bool} {fragment : Fragment}
    (h : fragment ∈ fragments area a b c shaded textured) :
    area.contains fragment.x fragment.y = true ∧
      ∃ t, ofPoints? area a b c = some t ∧
        t.fragment? shaded textured fragment.x fragment.y = some fragment := by
  rw [fragments] at h
  cases hpoints : ofPoints? area a b c with
  | none =>
    rw [hpoints] at h
    exact absurd h List.not_mem_nil
  | some t =>
    rw [hpoints] at h
    obtain ⟨hcontains, hfragment⟩ := of_mem_scan area h
    exact ⟨hcontains, t, rfl, hfragment⟩

/-- The second and the third corner are exchanged anyway where they run the wrong way round. -/
theorem fragments_swap :
    fragments area a c b shaded textured = fragments area a b c shaded textured := by
  have harea : (clipped area a c b).area2 = -(clipped area a b c).area2 :=
    area2_mirror (clipped area a b c)
  have hmirror : (clipped area a c b).mirror = clipped area a b c := rfl
  have hback : (clipped area a b c).mirror = clipped area a c b := rfl
  simp only [fragments_eq, fitsTogether_swap a b c, harea, hmirror, hback, neg_pos, neg_lt_zero]
  grind

/-- **Moving the corners on by one leaves every fragment what it was.** -/
theorem fragments_rotate (hcolor : shaded = true ∨ a.color = b.color ∧ b.color = c.color) :
    fragments area b c a shaded textured = fragments area a b c shaded textured := by
  let t := clipped area a b c
  have hmoved : clipped area b c a = t.rotate := rfl
  have hmirror : t.rotate.mirror = t.mirror.rotate.rotate := rfl
  have hab : shaded = true ∨ t.b.color = t.a.color := hcolor.imp_right fun h => h.1.symm
  have hca : shaded = true ∨ t.mirror.b.color = t.mirror.a.color :=
    hcolor.imp_right fun h => (h.1.trans h.2).symm
  have hbc : shaded = true ∨ t.mirror.rotate.b.color = t.mirror.rotate.a.color :=
    hcolor.imp_right fun h => h.2
  simp only [fragments_eq, hmoved, fitsTogether_rotate, area2_rotate, hmirror,
    t.scan_rotate area textured hab, t.mirror.rotate.scan_rotate area textured hbc,
    t.mirror.scan_rotate area textured hca]
  rfl

/-- **The fragments of a triangle do not depend on the order of its corners.** -/
theorem fragments_perm {a' b' c' : Point} (h : [a', b', c'].Perm [a, b, c])
    (hcolor : shaded = true ∨ a.color = b.color ∧ b.color = c.color) :
    fragments area a' b' c' shaded textured = fragments area a b c shaded textured := by
  have horders : (a' = a ∧ b' = b ∧ c' = c) ∨ (a' = b ∧ b' = a ∧ c' = c) ∨
      (a' = c ∧ b' = b ∧ c' = a) ∨ (a' = b ∧ b' = c ∧ c' = a) ∨ (a' = c ∧ b' = a ∧ c' = b) ∨
      (a' = a ∧ b' = c ∧ c' = b) := by
    simpa [List.permutations, List.permutationsAux_cons] using List.mem_permutations.2 h
  have honce : fragments area b c a shaded textured = fragments area a b c shaded textured :=
    fragments_rotate area textured hcolor
  have htwice : fragments area c a b shaded textured = fragments area a b c shaded textured :=
    (fragments_rotate area textured (hcolor.imp_right fun h => ⟨h.2, (h.1.trans h.2).symm⟩)).trans
      honce
  rcases horders with ⟨rfl, rfl, rfl⟩ | ⟨rfl, rfl, rfl⟩ | ⟨rfl, rfl, rfl⟩ | ⟨rfl, rfl, rfl⟩ |
    ⟨rfl, rfl, rfl⟩ | ⟨rfl, rfl, rfl⟩
  · rfl
  · rw [fragments_swap, honce]
  · rw [fragments_swap, htwice]
  · exact honce
  · exact htwice
  · exact fragments_swap area textured

end Triangle

namespace Gpu

/-- **The hardware does not see in which order the corners of a triangle came**, shaded or not,
textured or not, translucent or not, whatever the settings and the drawing area, as long as a triangle
of one colour has this colour at all of its corners. -/
theorem drawTriangle_perm (gpu : Gpu) {a b c a' b' c' : Point} {shaded : Bool} (paint : Paint)
    (h : [a', b', c'].Perm [a, b, c])
    (hcolor : shaded = true ∨ a.color = b.color ∧ b.color = c.color) :
    gpu.drawTriangle a' b' c' shaded paint = gpu.drawTriangle a b c shaded paint :=
  drawTriangle_congr (Triangle.fragments_perm gpu.environment.area paint.texture.isSome h hcolor)

/-- A textured and translucent triangle of one colour that the drawing area cuts off, taken from its
last corner and the other way around. -/
theorem drawTriangle_perm_textured :
    let a : Point := ⟨-3, 2, 255, 128, 0, 0, 0⟩
    let b : Point := ⟨30, 8, 255, 128, 0, 31, 0⟩
    let c : Point := ⟨12, 40, 255, 128, 0, 0, 31⟩
    let paint : Paint := ⟨some ⟨TexturePage.ofWord 0x0105, ⟨0, 480⟩, false⟩, true⟩
    [c, b, a].Perm [a, b, c] ∧ (a.color = b.color ∧ b.color = c.color) ∧
      powerOn.drawTriangle c b a false paint = powerOn.drawTriangle a b c false paint := by
  intro a b c paint
  have hperm : [c, b, a].Perm [a, b, c] := by decide
  have hcolor : a.color = b.color ∧ b.color = c.color := ⟨rfl, rfl⟩
  exact ⟨hperm, hcolor, drawTriangle_perm powerOn paint hperm (.inr hcolor)⟩

end Gpu

end ConsoleVideo
