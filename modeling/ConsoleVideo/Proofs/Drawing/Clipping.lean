import ConsoleVideo.Proofs.Drawing.Coverage

/-!
# Corners moved into the drawing area

A triangle is not cut off at the bounds of the drawing area.  Each of its corners is moved to the
nearest point of the area, on its own, and the triangle of the moved corners is drawn.  Three corners
in a row have nothing between them, and nothing is drawn for them, as long as they are still in a row
when they have been moved.  A slanted row is bent where a bound parts it, and then it is drawn.

* `Point.contains_clip`, `Triangle.fitsTogether_clip` — moved corners lie in the area, and no further
  apart than before;
* `Triangle.fragments_clip` — they make the triangle that the corners make themselves;
* `Triangle.Unbent` — what keeps corners in a row;
* `Gpu.drawTriangle_of_row` — what becomes of them.
-/

namespace ConsoleVideo

/-- There are points in the area. -/
def DrawingArea.IsProper (area : DrawingArea) : Prop :=
  area.left ≤ area.right ∧ area.top ≤ area.bottom

/-! ### One coordinate -/

namespace Point

variable {lo hi x y d : Int}

theorem le_clamp (h : lo ≤ hi) : lo ≤ clamp lo hi x ∧ clamp lo hi x ≤ hi := by
  unfold clamp
  split_ifs <;> omega

theorem clamp_of_le (h : lo ≤ hi) (hx : x ≤ lo) : clamp lo hi x = lo := by
  unfold clamp
  split_ifs <;> omega

theorem clamp_of_ge (h : lo ≤ hi) (hx : hi ≤ x) : clamp lo hi x = hi := by
  unfold clamp
  split_ifs <;> omega

/-- Coordinates do not come apart. -/
theorem clamp_sub_clamp_le (h : lo ≤ hi) (hd : 0 ≤ d) (hxy : x - y ≤ d) :
    clamp lo hi x - clamp lo hi y ≤ d := by
  unfold clamp
  split_ifs <;> omega

theorem clamp_mono (h : lo ≤ hi) (hxy : x ≤ y) : clamp lo hi x ≤ clamp lo hi y := by
  have hdiff := clamp_sub_clamp_le h le_rfl (sub_nonpos.2 hxy)
  omega

theorem contains_clip {area : DrawingArea} (h : area.IsProper) (p : Point) :
    area.contains (p.clip area).x (p.clip area).y = true := by
  have hx : area.left ≤ (p.clip area).x ∧ (p.clip area).x ≤ area.right := le_clamp h.1
  have hy : area.top ≤ (p.clip area).y ∧ (p.clip area).y ≤ area.bottom := le_clamp h.2
  rw [DrawingArea.contains_iff]
  exact ⟨hx.1, hx.2, hy.1, hy.2⟩

theorem clip_clip {area : DrawingArea} (h : area.IsProper) (p : Point) :
    (p.clip area).clip area = p.clip area :=
  Triangle.clip_of_contains (contains_clip h p)

end Point

/-! ### Three corners -/

namespace Triangle

variable {area : DrawingArea} {a b c : Point} {shaded textured : Bool}

/-- Three numbers are within a distance if any two of them are. -/
theorem greatest_sub_least_le_iff {x y z d : Int} (hd : 0 ≤ d) :
    greatest x y z - least x y z ≤ d ↔ ∀ p ∈ [x, y, z], ∀ q ∈ [x, y, z], p - q ≤ d := by
  simp only [greatest, least, List.forall_mem_cons, List.not_mem_nil, false_imp_iff, implies_true,
    and_true]
  omega

theorem greatest_sub_least_clamp_le {lo hi x y z d : Int} (h : lo ≤ hi) (hd : 0 ≤ d)
    (hxyz : greatest x y z - least x y z ≤ d) :
    greatest (Point.clamp lo hi x) (Point.clamp lo hi y) (Point.clamp lo hi z) -
      least (Point.clamp lo hi x) (Point.clamp lo hi y) (Point.clamp lo hi z) ≤ d := by
  have hmap : [Point.clamp lo hi x, Point.clamp lo hi y, Point.clamp lo hi z] =
      [x, y, z].map (Point.clamp lo hi) := rfl
  rw [greatest_sub_least_le_iff hd] at hxyz ⊢
  rw [hmap]
  simp only [List.forall_mem_map]
  intro p hp q hq
  exact Point.clamp_sub_clamp_le h hd (hxyz p hp q hq)

/-- Moved corners are no further apart. -/
theorem fitsTogether_clip (h : area.IsProper) (hfits : fitsTogether a b c = true) :
    fitsTogether (a.clip area) (b.clip area) (c.clip area) = true := by
  simp only [fitsTogether, Bool.and_eq_true, decide_eq_true_eq] at hfits ⊢
  exact ⟨greatest_sub_least_clamp_le h.1 (by decide) hfits.1,
    greatest_sub_least_clamp_le h.2 (by decide) hfits.2⟩

/-- Nothing is drawn outside the drawing area. -/
theorem contains_of_mem_places {place : Vertex} (h : place ∈ places area a b c) :
    area.contains place.x place.y = true := by
  obtain ⟨fragment, hmem, rfl⟩ := List.mem_map.1 h
  exact (of_mem_fragments area hmem).1

theorem fragments_of_not_isProper (h : ¬ area.IsProper) :
    fragments area a b c shaded textured = [] := by
  refine List.eq_nil_iff_forall_not_mem.2 fun fragment hmem => h ?_
  have hcontains := DrawingArea.contains_iff.1 (of_mem_fragments area hmem).1
  exact ⟨hcontains.1.trans hcontains.2.1, hcontains.2.2.1.trans hcontains.2.2.2⟩

theorem fragments_of_not_fitsTogether (h : fitsTogether a b c ≠ true) :
    fragments area a b c shaded textured = [] := by
  simp [fragments_eq, h]

/-- Moved corners that lie in a row make nothing. -/
theorem fragments_of_area2 (h : (clipped area a b c).area2 = 0) :
    fragments area a b c shaded textured = [] := by
  simp [fragments_eq, h]

/-- **Moved corners make the triangle that the corners make themselves.** -/
theorem fragments_clip (hfits : fitsTogether a b c = true) :
    fragments area (a.clip area) (b.clip area) (c.clip area) shaded textured =
      fragments area a b c shaded textured := by
  by_cases h : area.IsProper
  · have hclipped : clipped area (a.clip area) (b.clip area) (c.clip area) = clipped area a b c := by
      simp only [clipped, Point.clip_clip h]
    simp only [fragments_eq, hclipped, hfits, fitsTogether_clip h hfits]
  · rw [fragments_of_not_isProper h, fragments_of_not_isProper h]

/-! ### Corners in a row -/

/-- The corners are in the same place. -/
def Coincide (p q : Point) : Prop :=
  p.x = q.x ∧ p.y = q.y

theorem orient_of_coincide {p q r : Point} (h : Coincide p q ∨ Coincide q r ∨ Coincide r p) :
    orient p q r.x r.y = 0 := by
  rcases h with ⟨hx, hy⟩ | ⟨hx, hy⟩ | ⟨hx, hy⟩
  · simp [orient, hx, hy]
  · rw [← hx, ← hy, orient_right]
  · rw [hx, hy, orient_left]

theorem orient_of_level {p q r : Point} (hp : p.y = q.y) (hr : r.y = q.y) :
    orient p q r.x r.y = 0 := by
  simp [orient, hp, hr]

theorem orient_of_upright {p q r : Point} (hp : p.x = q.x) (hr : r.x = q.x) :
    orient p q r.x r.y = 0 := by
  simp [orient, hp, hr]

/-- What keeps three corners in a row when each of them is moved into the drawing area. -/
inductive Unbent (area : DrawingArea) (a b c : Point) : Prop where
  /-- Two of them are in the same place. -/
  | coincide (h : Coincide a b ∨ Coincide b c ∨ Coincide c a)
  /-- The row is level. -/
  | level (ha : a.y = b.y) (hc : c.y = b.y)
  /-- The row is upright. -/
  | upright (ha : a.x = b.x) (hc : c.x = b.x)
  /-- None of them is moved. -/
  | within (ha : area.contains a.x a.y = true) (hb : area.contains b.x b.y = true)
    (hc : area.contains c.x c.y = true)
  /-- All of them are moved to the same column. -/
  | beside (h : (a.x ≤ area.left ∧ b.x ≤ area.left ∧ c.x ≤ area.left) ∨
      (area.right ≤ a.x ∧ area.right ≤ b.x ∧ area.right ≤ c.x))
  /-- All of them are moved to the same row of the picture. -/
  | beyond (h : (a.y ≤ area.top ∧ b.y ≤ area.top ∧ c.y ≤ area.top) ∨
      (area.bottom ≤ a.y ∧ area.bottom ≤ b.y ∧ area.bottom ≤ c.y))
  /-- When they have been moved, they are in a row once more. -/
  | again (h : orient (a.clip area) (b.clip area) (c.clip area).x (c.clip area).y = 0)
  /-- There is nothing to move them to. -/
  | nowhere (h : ¬ area.IsProper)

/-- A row that is not bent makes nothing when it has been moved. -/
theorem Unbent.area2_eq_zero (h : Unbent area a b c) (hproper : area.IsProper)
    (hrow : orient a b c.x c.y = 0) : (clipped area a b c).area2 = 0 := by
  have hx : ∀ {p q : Point}, p.x = q.x → (p.clip area).x = (q.clip area).x :=
    fun h => congrArg (Point.clamp area.left area.right) h
  have hy : ∀ {p q : Point}, p.y = q.y → (p.clip area).y = (q.clip area).y :=
    fun h => congrArg (Point.clamp area.top area.bottom) h
  have hboth : ∀ {p q : Point}, Coincide p q → Coincide (p.clip area) (q.clip area) :=
    fun h => ⟨hx h.1, hy h.2⟩
  cases h with
  | coincide h => exact orient_of_coincide (h.imp hboth (Or.imp hboth hboth))
  | level ha hc => exact orient_of_level (hy ha) (hy hc)
  | upright ha hc => exact orient_of_upright (hx ha) (hx hc)
  | within ha hb hc =>
    simp only [clipped, clip_of_contains ha, clip_of_contains hb, clip_of_contains hc]
    exact hrow
  | beside h =>
    obtain ⟨x, ha, hb, hc⟩ : ∃ x, (a.clip area).x = x ∧ (b.clip area).x = x ∧
        (c.clip area).x = x := by
      rcases h with ⟨ha, hb, hc⟩ | ⟨ha, hb, hc⟩
      · exact ⟨area.left, Point.clamp_of_le hproper.1 ha, Point.clamp_of_le hproper.1 hb,
          Point.clamp_of_le hproper.1 hc⟩
      · exact ⟨area.right, Point.clamp_of_ge hproper.1 ha, Point.clamp_of_ge hproper.1 hb,
          Point.clamp_of_ge hproper.1 hc⟩
    exact orient_of_upright (ha.trans hb.symm) (hc.trans hb.symm)
  | beyond h =>
    obtain ⟨y, ha, hb, hc⟩ : ∃ y, (a.clip area).y = y ∧ (b.clip area).y = y ∧
        (c.clip area).y = y := by
      rcases h with ⟨ha, hb, hc⟩ | ⟨ha, hb, hc⟩
      · exact ⟨area.top, Point.clamp_of_le hproper.2 ha, Point.clamp_of_le hproper.2 hb,
          Point.clamp_of_le hproper.2 hc⟩
      · exact ⟨area.bottom, Point.clamp_of_ge hproper.2 ha, Point.clamp_of_ge hproper.2 hb,
          Point.clamp_of_ge hproper.2 hc⟩
    exact orient_of_level (ha.trans hb.symm) (hc.trans hb.symm)
  | again h => exact h
  | nowhere h => exact absurd hproper h

end Triangle

/-! ### What is drawn -/

theorem Vram.both_blank (i : Fin size) : blank.both i = (0, 0) := by
  show ((Vector.replicate size (0 : Deep))[i.val], (Vector.replicate size (0 : Native))[i.val]) =
    (0, 0)
  rw [Vector.getElem_replicate, Vector.getElem_replicate]

namespace Gpu

variable {gpu : Gpu} {a b c : Point} {shaded : Bool} {paint : Paint}

theorem drawTriangle_of_fragments_eq_nil
    (h : Triangle.fragments gpu.environment.area a b c shaded paint.texture.isSome = []) :
    gpu.drawTriangle a b c shaded paint = gpu := by
  simp [drawTriangle, Triangle.draw_eq_foldl, h]

/-- **Corners in a row are drawn only where the drawing area bends the row**, whatever shading,
texture, translucency and settings.  Otherwise the hardware stays as it is.  In any case it is the
triangle of the moved corners that is drawn, if the corners are not too far apart. -/
theorem drawTriangle_of_row (hrow : orient a b c.x c.y = 0) :
    (Triangle.Unbent gpu.environment.area a b c → gpu.drawTriangle a b c shaded paint = gpu) ∧
      gpu.drawTriangle a b c shaded paint =
        if fitsTogether a b c then
          gpu.drawTriangle (a.clip gpu.environment.area) (b.clip gpu.environment.area)
            (c.clip gpu.environment.area) shaded paint
        else gpu := by
  constructor
  · intro hunbent
    by_cases hproper : gpu.environment.area.IsProper
    · exact drawTriangle_of_fragments_eq_nil
        (Triangle.fragments_of_area2 (hunbent.area2_eq_zero hproper hrow))
    · exact drawTriangle_of_fragments_eq_nil (Triangle.fragments_of_not_isProper hproper)
  · by_cases hfits : fitsTogether a b c = true
    · rw [if_pos hfits]
      exact (drawTriangle_congr (Triangle.fragments_clip hfits)).symm
    · rw [if_neg hfits]
      exact drawTriangle_of_fragments_eq_nil (Triangle.fragments_of_not_fitsTogether hfits)

/-- An upright row that runs from above the drawing area to below it, with a slanted texture. -/
theorem drawTriangle_of_row_upright :
    let a : Point := ⟨20, -5, 255, 0, 0, 0, 0⟩
    let b : Point := ⟨20, 505, 0, 255, 0, 63, 20⟩
    let c : Point := ⟨20, 400, 0, 0, 255, 20, 63⟩
    let paint : Paint := ⟨some ⟨TexturePage.ofWord 0x0105, ⟨0, 480⟩, false⟩, true⟩
    orient a b c.x c.y = 0 ∧ Triangle.Unbent powerOn.environment.area a b c ∧
      powerOn.drawTriangle a b c true paint = powerOn := by
  intro a b c paint
  have hrow : orient a b c.x c.y = 0 := by decide
  have hunbent : Triangle.Unbent powerOn.environment.area a b c := .upright rfl rfl
  exact ⟨hrow, hunbent, (drawTriangle_of_row hrow).1 hunbent⟩

/-- **A slanted row that leaves the drawing area is drawn**: the corner below the area is moved up, and
the row has an inside. -/
theorem not_forall_drawTriangle_of_row :
    ¬ ∀ (gpu : Gpu) (a b c : Point) (shaded : Bool) (paint : Paint), orient a b c.x c.y = 0 →
      (gpu.drawTriangle a b c shaded paint).vram = gpu.vram := by
  intro h
  let a : Point := ⟨0, 500, 255, 0, 0, 0, 0⟩
  let b : Point := ⟨5, 505, 255, 0, 0, 0, 0⟩
  let c : Point := ⟨20, 520, 255, 0, 0, 0, 0⟩
  have hplace : Vertex.cell ⟨6, 504⟩ ∈
      (Triangle.places powerOn.environment.area a b c).map Vertex.cell := by
    decide +kernel
  have hblank : powerOn.vram.both (Vertex.cell ⟨6, 504⟩) = (0, 0) := Vram.both_blank _
  have hdrawn : (powerOn.drawTriangle a b c false Paint.solid).vram.both (Vertex.cell ⟨6, 504⟩) =
      (255, 31) := by
    rw [both_drawTriangle_solid, List.contains_iff_mem.2 hplace, if_pos rfl, Pen.laid_solid, hblank]
    decide +kernel
  rw [h powerOn a b c false Paint.solid (by decide), hblank] at hdrawn
  exact absurd hdrawn (by decide)

end Gpu

end ConsoleVideo
