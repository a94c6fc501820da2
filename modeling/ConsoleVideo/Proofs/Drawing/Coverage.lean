import ConsoleVideo.Proofs.Drawing.Corners

/-!
# What a triangle covers

A triangle is drawn by walking over its bounding box and asking three areas at every point.  Here the
answer is said without box and areas, for all points of the plane: the inside of the triangle, and of
its edges what the upper and the left ones have to themselves.

* `Paint.solid`, `Pen.both_foldl_shade` — a shape of one colour leaves this colour in its cells,
  however often it comes upon them, and nothing in others;
* `Triangle.Within`, `Edge.Meets` — inside three corners, and on the stretch between two, as means of
  the corners by weight;
* `Triangle.Holds` — the points that belong to a triangle by its shape alone;
* `Triangle.mem_places_iff_holds` — these are the points that are come upon;
* `Gpu.drawTriangle_solid` — and hence the cells that change.
-/

namespace ConsoleVideo

/-! ### Shapes of one colour -/

/-- Neither textured nor translucent. -/
def Paint.solid : Paint where
  texture := none
  translucent := false

theorem Deep.withMask_color (c : Deep) (mask : Bool) :
    Deep.withMask (Deep.color c) mask = Deep.withMask c mask := by
  have hcolor : (Deep.color c).toNat % 16777216 = c.toNat % 16777216 := by
    rw [Deep.color, UInt32.toNat_ofNat']
    omega
  rw [Deep.withMask, hcolor, Deep.withMask]

theorem Deep.isMasked_color (c : Deep) : Deep.isMasked (Deep.color c) = false := by
  have hmask : Deep.mask (Deep.color c) = 0 := by
    rw [Deep.mask, Deep.color, UInt32.toNat_ofNat']
    omega
  rw [Deep.isMasked, hmask]
  rfl

theorem Deep.ofWord_withMask (c : Deep) (mask : Bool) :
    Deep.ofWord (Deep.withMask c mask) = Deep.withMask c mask := by
  apply UInt32.toNat_inj.1
  cases mask <;> simp only [Deep.ofWord, Deep.withMask, UInt32.toNat_ofNat'] <;> grind

namespace Pen

variable (pen : Pen) (base : Deep)

/-- A solid colour is laid down as it is, with the mask flag that the settings ask for. -/
theorem laid_solid (old : Deep × Native) :
    pen.laid false base old =
      if pen.checkMask && Native.isMasked old.2 then old
      else (Deep.withMask base pen.setMask, Deep.pack (Deep.withMask base pen.setMask)) := by
  simp [laid, mix, Deep.isMasked_color, Deep.withMask_color, Deep.ofWord_withMask]

/-- To lay a solid colour down twice is to lay it down once. -/
theorem laid_laid (old : Deep × Native) :
    pen.laid false base (pen.laid false base old) = pen.laid false base old := by
  simp only [laid_solid]
  split <;> simp_all

variable {base}

/-- **A shape of one solid colour leaves it in its cells**, and nothing in others. -/
theorem both_foldl_shade {fragments : List Fragment}
    (hbase : ∀ fragment ∈ fragments, fragment.base = base) (vram : Vram) (i : Fin Vram.size) :
    (fragments.foldl (pen.shade Paint.solid) vram).both i =
      if ((fragments.map Fragment.place).map Vertex.cell).contains i then
        pen.laid false base (vram.both i)
      else vram.both i := by
  induction fragments generalizing vram with
  | nil => simp
  | cons fragment fragments ih =>
    have hfirst : fragment.base = base := hbase fragment List.mem_cons_self
    have hrest : ∀ later ∈ fragments, later.base = base :=
      fun later hlater => hbase later (List.mem_cons_of_mem fragment hlater)
    rw [List.foldl_cons, ih hrest, pen.both_shade rfl, hfirst]
    by_cases hi : fragment.place.cell = i
    · subst hi
      simp [Paint.solid, laid_laid]
    · simp [hi, Ne.symm hi]

end Pen

/-- The pixel of a corner's colour. -/
def Point.deep (p : Point) : Deep :=
  Deep.ofChannels p.red.toNat p.green.toNat p.blue.toNat

namespace Triangle

/-- Without shading, the first corner gives all fragments their colour. -/
theorem base_of_mem_fragments {area : DrawingArea} {a b c : Point} {textured : Bool}
    {fragment : Fragment} (h : fragment ∈ fragments area a b c false textured) :
    fragment.base = a.deep := by
  obtain ⟨-, t, hpoints, hfragment⟩ := of_mem_fragments area h
  have hbase : fragment.base = t.a.deep := (of_fragment? hfragment).2.1
  rw [hbase]
  -- Both ways around start from the first corner, and clipping leaves it its colour.
  rcases (of_ofPoints? hpoints).2 with rfl | rfl <;> rfl

end Triangle

namespace Gpu

/-- A solid triangle leaves the colour of its first corner in the cells of its places. -/
theorem both_drawTriangle_solid (gpu : Gpu) (a b c : Point) (i : Fin Vram.size) :
    (gpu.drawTriangle a b c false Paint.solid).vram.both i =
      if ((Triangle.places gpu.environment.area a b c).map Vertex.cell).contains i then
        (Pen.ofSettings gpu.status gpu.environment).laid false a.deep (gpu.vram.both i)
      else gpu.vram.both i := by
  rw [drawTriangle, Triangle.draw_eq_foldl, Pen.both_foldl_shade _ fun fragment h =>
    Triangle.base_of_mem_fragments h, Triangle.place_fragments]

end Gpu

/-! ### Inside, and on the edges -/

/-- The stretch from one corner to another. -/
structure Edge where
  start : Point
  stop : Point
  deriving DecidableEq

namespace Edge

/-- The point lies on the stretch, its ends included: it is their mean by two weights. -/
def Meets (edge : Edge) (place : Vertex) : Prop :=
  ∃ m n : Int, 0 ≤ m ∧ 0 ≤ n ∧ 0 < m + n ∧
    (m + n) * place.x = m * edge.start.x + n * edge.stop.x ∧
    (m + n) * place.y = m * edge.start.y + n * edge.stop.y

/-- The edge runs to the right, or it runs up. -/
def IsTopOrLeft (edge : Edge) : Prop :=
  edge.start.y = edge.stop.y ∧ edge.start.x < edge.stop.x ∨ edge.stop.y < edge.start.y

end Edge

namespace Triangle

variable {area : DrawingArea} {a b c p q r : Point} {place : Vertex}

/-- The point lies strictly inside: it is the mean of the corners by three weights, of which none is
zero. -/
def Within (a b c : Point) (place : Vertex) : Prop :=
  ∃ l m n : Int, 0 < l ∧ 0 < m ∧ 0 < n ∧
    (l + m + n) * place.x = l * a.x + m * b.x + n * c.x ∧
    (l + m + n) * place.y = l * a.y + m * b.y + n * c.y

/-- The edges of a triangle, in the direction in which they run clockwise on the screen. -/
def clockwise (a b c : Point) : List Edge :=
  if 0 < orient a b c.x c.y then [⟨a, b⟩, ⟨b, c⟩, ⟨c, a⟩] else [⟨a, c⟩, ⟨c, b⟩, ⟨b, a⟩]

/-- The points that belong to a triangle: those strictly inside, and those on its edges that lie on no
edge but upper and left ones. -/
def Holds (a b c : Point) (place : Vertex) : Prop :=
  Within a b c place ∨
    (∃ edge ∈ clockwise a b c, edge.Meets place) ∧
      ∀ edge ∈ clockwise a b c, edge.Meets place → edge.IsTopOrLeft

theorem within_swap : Within a c b place ↔ Within a b c place := by
  constructor
  · rintro ⟨l, m, n, hl, hm, hn, hx, hy⟩
    exact ⟨l, n, m, hl, hn, hm, by linear_combination hx, by linear_combination hy⟩
  · rintro ⟨l, m, n, hl, hm, hn, hx, hy⟩
    exact ⟨l, n, m, hl, hn, hm, by linear_combination hx, by linear_combination hy⟩

/-- The areas that a mean of the corners makes with the edges are to each other as its weights. -/
theorem orient_of_mean {l m n : Int}
    (hx : (l + m + n) * place.x = l * p.x + m * q.x + n * r.x)
    (hy : (l + m + n) * place.y = l * p.y + m * q.y + n * r.y) :
    (l + m + n) * orient q r place.x place.y = l * orient p q r.x r.y ∧
      (l + m + n) * orient r p place.x place.y = m * orient p q r.x r.y ∧
      (l + m + n) * orient p q place.x place.y = n * orient p q r.x r.y := by
  unfold orient
  refine ⟨?_, ?_, ?_⟩
  · linear_combination (r.x - q.x) * hy - (r.y - q.y) * hx
  · linear_combination (p.x - r.x) * hy - (p.y - r.y) * hx
  · linear_combination (q.x - p.x) * hy - (q.y - p.y) * hx

/-- **Strictly inside is what all three edges have on their inner side.** -/
theorem within_iff (hpos : 0 < orient p q r.x r.y) :
    Within p q r place ↔ 0 < orient q r place.x place.y ∧ 0 < orient r p place.x place.y ∧
      0 < orient p q place.x place.y := by
  constructor
  · rintro ⟨l, m, n, hl, hm, hn, hx, hy⟩
    have hsum : 0 < l + m + n := by omega
    obtain ⟨hp, hq, hr⟩ := orient_of_mean hx hy
    refine ⟨?_, ?_, ?_⟩
    · exact (mul_pos_iff_of_pos_left hsum).1 (hp ▸ mul_pos hl hpos)
    · exact (mul_pos_iff_of_pos_left hsum).1 (hq ▸ mul_pos hm hpos)
    · exact (mul_pos_iff_of_pos_left hsum).1 (hr ▸ mul_pos hn hpos)
  · rintro ⟨hp, hq, hr⟩
    refine ⟨_, _, _, hp, hq, hr, ?_, ?_⟩
    · rw [orient_add_orient, orient_mul_x]
    · rw [orient_add_orient, orient_mul_y]

/-- A point is on an edge if it makes no area with it and is on the inner side of the other two. -/
theorem meets_iff (hpos : 0 < orient p q r.x r.y) :
    Edge.Meets ⟨p, q⟩ place ↔ orient p q place.x place.y = 0 ∧ 0 ≤ orient q r place.x place.y ∧
      0 ≤ orient r p place.x place.y := by
  constructor
  · rintro ⟨m, n, hm, hn, hsum, hx, hy⟩
    -- The corner across from the edge has weight zero.
    have hx' : (m + n + 0) * place.x = m * p.x + n * q.x + 0 * r.x := by simpa using hx
    have hy' : (m + n + 0) * place.y = m * p.y + n * q.y + 0 * r.y := by simpa using hy
    obtain ⟨hp, hq, hr⟩ := orient_of_mean hx' hy'
    simp only [add_zero, zero_mul] at hp hq hr
    refine ⟨?_, ?_, ?_⟩
    · exact (mul_eq_zero.1 hr).resolve_left hsum.ne'
    · exact (mul_nonneg_iff_of_pos_left hsum).1 (hp ▸ mul_nonneg hm hpos.le)
    · exact (mul_nonneg_iff_of_pos_left hsum).1 (hq ▸ mul_nonneg hn hpos.le)
  · rintro ⟨hr, hp, hq⟩
    have harea : orient q r place.x place.y + orient r p place.x place.y = orient p q r.x r.y := by
      rw [← orient_add_orient p q r place.x place.y, hr, add_zero]
    refine ⟨_, _, hp, hq, harea ▸ hpos, ?_, ?_⟩
    · rw [harea, orient_mul_x p q r place.x place.y, hr, zero_mul, add_zero]
    · rw [harea, orient_mul_y p q r place.x place.y, hr, zero_mul, add_zero]

theorem inside_iff :
    inside p q place = true ↔ 0 < orient p q place.x place.y ∨
      orient p q place.x place.y = 0 ∧ Edge.IsTopOrLeft ⟨p, q⟩ := by
  have howns : ownsEdge p q = true ↔ Edge.IsTopOrLeft ⟨p, q⟩ := by
    simp [ownsEdge, Edge.IsTopOrLeft]
  rw [← howns, inside, insideEdge]
  cases ownsEdge p q <;> simp <;> omega

/-- **The edge tests tell by their signs what the shape of the triangle says.** -/
theorem surrounds_iff (hpos : 0 < orient p q r.x r.y) :
    surrounds p q r place = true ↔ Within p q r place ∨
      (∃ edge ∈ [⟨p, q⟩, ⟨q, r⟩, ⟨r, p⟩], Edge.Meets edge place) ∧
        ∀ edge ∈ [⟨p, q⟩, ⟨q, r⟩, ⟨r, p⟩], Edge.Meets edge place → edge.IsTopOrLeft := by
  have hqr : 0 < orient q r p.x p.y := by rwa [orient_rotate]
  have hrp : 0 < orient r p q.x q.y := by rwa [orient_rotate, orient_rotate]
  simp only [surrounds, Bool.and_eq_true, inside_iff, within_iff hpos, List.mem_cons,
    List.not_mem_nil, or_false, exists_eq_or_imp, exists_eq_left, forall_eq_or_imp, forall_eq,
    meets_iff hpos, meets_iff hqr, meets_iff hrp]
  grind

/-- **A triangle in the drawing area comes upon the points that belong to it**, and upon no others. -/
theorem mem_places_iff_holds (ha : area.contains a.x a.y = true) (hb : area.contains b.x b.y = true)
    (hc : area.contains c.x c.y = true) (hfits : fitsTogether a b c = true)
    (harea : orient a b c.x c.y ≠ 0) : place ∈ places area a b c ↔ Holds a b c place := by
  rcases lt_or_gt_of_ne harea with hneg | hpos
  · have hturned : 0 < orient a c b.x b.y := by
      rw [← orient_rotate, ← orient_rotate, orient_swap]
      exact neg_pos.2 hneg
    rw [mem_places_of_neg ha hb hc hfits hneg, surrounds_iff hturned, Holds, clockwise,
      if_neg hneg.not_gt, within_swap]
  · rw [mem_places_of_pos ha hb hc hfits hpos, surrounds_iff hpos, Holds, clockwise, if_pos hpos]

end Triangle

namespace Gpu

/-- **A solid triangle sets the cells of the points that belong to it**, to the colour of its first
corner and the mask flag that the settings ask for, and leaves all other cells alone.  The corners lie
in the drawing area, not in a row and no further apart than is drawn at all; masks are not checked. -/
theorem drawTriangle_solid {gpu : Gpu} {a b c : Point} (hcheck : gpu.status.checkMask = false)
    (hfits : fitsTogether a b c = true) (harea : orient a b c.x c.y ≠ 0)
    (ha : gpu.environment.area.contains a.x a.y = true)
    (hb : gpu.environment.area.contains b.x b.y = true)
    (hc : gpu.environment.area.contains c.x c.y = true) :
    let drawn := (gpu.drawTriangle a b c false Paint.solid).vram
    let color := Deep.withMask a.deep gpu.status.setMask
    (∀ place, Triangle.Holds a b c place → drawn.both place.cell = (color, Deep.pack color)) ∧
      ∀ i, (∀ place, Triangle.Holds a b c place → place.cell ≠ i) →
        drawn.both i = gpu.vram.both i := by
  intro drawn color
  have hmem : ∀ i, i ∈ (Triangle.places gpu.environment.area a b c).map Vertex.cell ↔
      ∃ place, Triangle.Holds a b c place ∧ place.cell = i := by
    intro i
    simp only [List.mem_map, Triangle.mem_places_iff_holds ha hb hc hfits harea]
  have hlaid : ∀ old, (Pen.ofSettings gpu.status gpu.environment).laid false a.deep old =
      (color, Deep.pack color) := by
    intro old
    simp [Pen.laid_solid, Pen.ofSettings, hcheck, color]
  constructor
  · intro place hplace
    show drawn.both place.cell = _
    rw [both_drawTriangle_solid, List.contains_iff_mem.2 ((hmem _).2 ⟨place, hplace, rfl⟩), if_pos rfl,
      hlaid]
  · intro i hother
    have hout : i ∉ (Triangle.places gpu.environment.area a b c).map Vertex.cell := by
      intro hi
      obtain ⟨place, hplace, hcell⟩ := (hmem i).1 hi
      exact hother place hplace hcell
    rw [both_drawTriangle_solid, if_neg (mt List.contains_iff_mem.1 hout)]

/-- A triangle whose corners run anticlockwise, drawn with the mask flag, and a point inside it. -/
theorem drawTriangle_solid_anticlockwise :
    let gpu : Gpu := { powerOn with status := { powerOn.status with setMask := true } }
    let a : Point := ⟨2, 3, 255, 128, 0, 0, 0⟩
    let b : Point := ⟨2, 7, 0, 0, 0, 0, 0⟩
    let c : Point := ⟨6, 3, 0, 0, 0, 0, 0⟩
    let drawn := (gpu.drawTriangle a b c false Paint.solid).vram
    gpu.status.checkMask = false ∧ fitsTogether a b c = true ∧ orient a b c.x c.y < 0 ∧
      (∀ p ∈ [a, b, c], gpu.environment.area.contains p.x p.y = true) ∧
      Triangle.Holds a b c ⟨3, 4⟩ ∧
      drawn.both (Vertex.cell ⟨3, 4⟩) = (0x10080FF, 0x821F) ∧
      ∀ i, (∀ place, Triangle.Holds a b c place → place.cell ≠ i) →
        drawn.both i = gpu.vram.both i := by
  intro gpu a b c drawn
  have hcheck : gpu.status.checkMask = false := by decide +kernel
  have hneg : orient a b c.x c.y < 0 := by decide
  have hholds : Triangle.Holds a b c ⟨3, 4⟩ := .inl ⟨2, 1, 1, by decide⟩
  obtain ⟨hset, hkept⟩ := drawTriangle_solid hcheck rfl hneg.ne rfl rfl rfl
  have hcell : drawn.both (Vertex.cell ⟨3, 4⟩) = (0x10080FF, 0x821F) :=
    (hset ⟨3, 4⟩ hholds).trans (by decide)
  exact ⟨hcheck, rfl, hneg, by decide, hholds, hcell, hkept⟩

end Gpu

end ConsoleVideo
