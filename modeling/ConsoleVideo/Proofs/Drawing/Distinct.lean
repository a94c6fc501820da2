import ConsoleVideo.Proofs.Command.Sizes
import ConsoleVideo.Proofs.Drawing.Confinement
import ConsoleVideo.Proofs.Gpu.Ranges

/-!
# No cell twice

The picture memory is small, and what goes beyond its edges comes back on the other side.  Nothing that
is drawn in one go comes upon a cell twice nevertheless: fills and transfers are no larger than the
memory, lines and triangles that would be are not drawn, and moving corners into the drawing area, or
cutting off spans at its bounds, brings points closer together but never further apart.  So a fragment
is mixed with what was there before the drawing began, and it is the mask of that pixel that is asked
for.  The two halves of a polygon are drawn one after the other and may overlap.

* `Compact` — points, each of them once, that lie in a block of the size of the picture memory;
  `Compact.nodup_cells` — they do not wrap onto each other;
* `compact_block`, `Course.compact_visible`, `Triangle.compact_places` — what is drawn is of this kind;
* `Drawing`, `Gpu.drawings` — what a job draws, each piece in one go;
* `Gpu.compact_of_mem_drawings` — every piece that the decoder asks for is of this kind;
* `Gpu.drawings_meet_once` — hence none of them comes upon a cell twice.
-/

namespace ConsoleVideo

/-! ### Points that do not wrap onto each other -/

namespace Vertex

/-- The point lies in the block of the size of the picture memory that starts at `corner`. -/
def FitsFrom (corner place : Vertex) : Prop :=
  (corner.x ≤ place.x ∧ place.x < corner.x + 1024) ∧
    corner.y ≤ place.y ∧ place.y < corner.y + 512

theorem eq_of_cell {corner place other : Vertex} (hplace : FitsFrom corner place)
    (hother : FitsFrom corner other) (hcell : place.cell = other.cell) : place = other := by
  obtain ⟨x, y⟩ := place
  obtain ⟨x', y'⟩ := other
  obtain ⟨hcolumn, hrow⟩ := Vram.cell_eq_iff.1 hcell
  simp only [FitsFrom] at hplace hother hcolumn hrow
  have hx : x = x' := by omega
  have hy : y = y' := by omega
  rw [hx, hy]

/-- A block of points, row by row. -/
def block (corner : Vertex) (width height : Nat) : List Vertex :=
  (Grid.offsets width height).map fun offset => ⟨corner.x + offset.1, corner.y + offset.2⟩

end Vertex

/-- Points, each of them once, that lie in a block of the size of the picture memory. -/
structure Compact (places : List Vertex) : Prop where
  nodup : places.Nodup
  fits : ∃ corner, ∀ place ∈ places, Vertex.FitsFrom corner place

namespace Compact

variable {places others : List Vertex}

/-- **Such points do not wrap onto each other.** -/
theorem nodup_cells (h : Compact places) : (places.map Vertex.cell).Nodup := by
  obtain ⟨corner, hfits⟩ := h.fits
  exact h.nodup.map_on fun place hplace other hother hcell =>
    Vertex.eq_of_cell (hfits place hplace) (hfits other hother) hcell

theorem nil : Compact [] where
  nodup := List.nodup_nil
  fits := ⟨⟨0, 0⟩, fun _ hplace => absurd hplace List.not_mem_nil⟩

theorem sublist (h : Compact others) (hsub : places.Sublist others) : Compact places where
  nodup := h.nodup.sublist hsub
  fits := by
    obtain ⟨corner, hfits⟩ := h.fits
    exact ⟨corner, fun place hplace => hfits place (hsub.subset hplace)⟩

end Compact

/-! ### Blocks -/

theorem compact_block {width height : Nat} (corner : Vertex) (hwidth : width ≤ 1024)
    (hheight : height ≤ 512) : Compact (corner.block width height) where
  nodup := by
    refine (Grid.nodup_offsets width height).map fun offset other h => ?_
    simp only [Vertex.mk.injEq, add_right_inj, Nat.cast_inj] at h
    exact Prod.ext h.1 h.2
  fits := by
    refine ⟨corner, fun place hplace => ?_⟩
    obtain ⟨offset, hoffset, rfl⟩ := List.mem_map.1 hplace
    obtain ⟨hx, hy⟩ := Grid.mem_offsets.1 hoffset
    simp only [Vertex.FitsFrom]
    omega

/-- The points of some columns and rows make a block. -/
theorem flatMap_span_eq (left right top bottom : Int) :
    ((span top bottom).flatMap fun y => (span left right).map fun x => Vertex.mk x y) =
      Vertex.block ⟨left, top⟩ (right - left + 1).toNat (bottom - top + 1).toNat := by
  simp [span, Vertex.block, Grid.offsets, List.flatMap_map, List.map_flatMap, Function.comp_def]

theorem compact_span {left right top bottom : Int} (hwidth : right - left ≤ 1023)
    (hheight : bottom - top ≤ 511) :
    Compact ((span top bottom).flatMap fun y => (span left right).map fun x => Vertex.mk x y) := by
  rw [flatMap_span_eq]
  exact compact_block _ (by omega) (by omega)

theorem Grid.compact_places {width height : Nat} (x y : Nat) (hwidth : width ≤ 1024)
    (hheight : height ≤ 512) : Compact (places x y width height) := by
  have hblock : places x y width height = Vertex.block ⟨x, y⟩ width height := by
    simp [places, Vertex.block]
  rw [hblock]
  exact compact_block _ hwidth hheight

/-! ### Shapes under the drawing offset -/

/-- The drawing offset takes no vertex out of the range of the coordinate adders. -/
theorem Vertex.offset_eq {v : Vertex} {environment : Environment} (hv : v.Fits)
    (henvironment : environment.InRange) :
    v.offset environment.offset.x environment.offset.y =
      ⟨v.x + environment.offset.x, v.y + environment.offset.y⟩ := by
  have hvx := hv.x
  have hvy := hv.y
  have hx := henvironment.offsetX
  have hy := henvironment.offsetY
  rw [offset, wrap32_of_range (by omega) (by omega), wrap32_of_range (by omega) (by omega)]

theorem Sprite.compact_places {shape : Rectangle} {environment : Environment}
    (hshape : Job.Sized (.rectangle shape)) (henvironment : environment.InRange) :
    Compact ((Sprite.ofRectangle shape environment).scan environment.area).places := by
  obtain ⟨hposition, hwidth, hheight⟩ := hshape
  have hx := hposition.x
  have hy := hposition.y
  have hoffsetX := henvironment.offsetX
  have hoffsetY := henvironment.offsetY
  rw [places_scan, rows, columns, ofRectangle, Vertex.offset_eq hposition henvironment]
  simp only
  rw [wrap32_of_range (by omega) (by omega), wrap32_of_range (by omega) (by omega)]
  exact compact_span (by omega) (by omega)

namespace Course

variable {course : Course} {i j : Nat}

/-- Steps in one direction lead to different places, unless none is to be made. -/
theorem eq_of_sign_mul {d : Int} (hi : i ≤ d.natAbs) (hj : j ≤ d.natAbs)
    (h : d.sign * i = d.sign * j) : i = j := by
  rcases eq_or_ne d 0 with rfl | hne
  · rw [Int.natAbs_zero] at hi hj
    omega
  · exact Int.ofNat.inj (mul_left_cancel₀ (mt Int.sign_eq_zero_iff_zero.1 hne) h)

/-- A line does not come to a place twice, as it moves along its longer axis at every step. -/
theorem pointAt_inj (hi : i ≤ course.major) (hj : j ≤ course.major)
    (h : course.pointAt i = course.pointAt j) : i = j := by
  simp only [pointAt, Vertex.mk.injEq, add_right_inj, columns, rows] at h
  by_cases hwide : course.IsWide
  · have hextent := (extents_of_isWide hwide).1
    simp only [if_pos hwide] at h
    exact eq_of_sign_mul (hi.trans_eq hextent.symm) (hj.trans_eq hextent.symm) h.1
  · have hextent := (extents_of_not_isWide hwide).2
    simp only [if_neg hwide] at h
    exact eq_of_sign_mul (hi.trans_eq hextent.symm) (hj.trans_eq hextent.symm) h.2

/-- What has not gone further than a distance is between its ends. -/
theorem add_sign_mul_between {x d : Int} {k n : Nat} (hk : k ≤ d.natAbs) (hn : d.natAbs ≤ n) :
    min x (x + d) ≤ x + d.sign * k ∧ x + d.sign * k ≤ min x (x + d) + n := by
  rcases lt_trichotomy d 0 with hneg | rfl | hpos
  · rw [Int.sign_eq_neg_one_of_neg hneg]
    omega
  · simp
  · rw [Int.sign_eq_one_of_pos hpos]
    omega

theorem compact_visible (hwidth : course.dx.natAbs ≤ 1023) (hheight : course.dy.natAbs ≤ 511)
    (area : DrawingArea) (first last : Color) :
    Compact ((course.visible area first last).map Fragment.place) := by
  have hplaces : (course.visible area first last).map Fragment.place =
      ((List.range (course.major + 1)).filter fun i =>
        area.contains (course.pointAt i).x (course.pointAt i).y).map course.pointAt := by
    rw [visible, List.map_map]
    rfl
  rw [hplaces]
  -- The whole line has both properties, whatever of it is in the area.
  refine Compact.sublist ⟨List.nodup_range.map_on ?_, ?_⟩ (List.filter_sublist.map _)
  · intro i hi j hj h
    exact pointAt_inj (Nat.le_of_lt_succ (List.mem_range.1 hi))
      (Nat.le_of_lt_succ (List.mem_range.1 hj)) h
  · refine ⟨⟨min course.start.x (course.start.x + course.dx),
      min course.start.y (course.start.y + course.dy)⟩, fun place hplace => ?_⟩
    obtain ⟨i, hi, rfl⟩ := List.mem_map.1 hplace
    have hle : i ≤ course.major := Nat.le_of_lt_succ (List.mem_range.1 hi)
    have hx := add_sign_mul_between (x := course.start.x) (columns_le hle) hwidth
    have hy := add_sign_mul_between (x := course.start.y) (rows_le hle) hheight
    simp only [Vertex.FitsFrom, pointAt]
    omega

variable {line : Line} {environment : Environment}

/-- The extents that decide whether a line is drawn are those of the way between its ends. -/
theorem extents_le_of_fits (hline : Job.Sized (.line line)) (henvironment : environment.InRange)
    (hfits : (Segment.ofLine line environment.offset).fits = true) :
    (ofLine line environment.offset).dx.natAbs ≤ 1023 ∧
      (ofLine line environment.offset).dy.natAbs ≤ 511 := by
  obtain ⟨hstart, hstop⟩ := hline
  have hstartX := hstart.x
  have hstartY := hstart.y
  have hstopX := hstop.x
  have hstopY := hstop.y
  -- Vertices of eleven bits and such an offset are too small for any sum to wrap.
  simp only [Segment.fits, Segment.ofLine, Vertex.offset_eq hstart henvironment,
    Vertex.offset_eq hstop henvironment, Bool.and_eq_true, decide_eq_true_eq] at hfits
  rw [wrap32_of_range (by omega) (by omega), wrap32_of_range (by omega) (by omega)] at hfits
  simp only [ofLine, dx, dy, Vertex.offset_eq hstart henvironment,
    Vertex.offset_eq hstop henvironment]
  exact hfits

end Course

theorem Segment.compact_places {line : Line} {environment : Environment}
    (hline : Job.Sized (.line line)) (henvironment : environment.InRange) :
    Compact ((Segment.ofLine line environment.offset).scan environment.area).places := by
  rw [Scan.places, fragments_scan]
  split
  · next hfits =>
    obtain ⟨hwidth, hheight⟩ := Course.extents_le_of_fits hline henvironment hfits
    rw [Course.fragments_eq hwidth hheight]
    exact Course.compact_visible hwidth hheight _ _ _
  · exact Compact.nil

namespace Triangle

variable {area : DrawingArea} {a b c : Point}

theorem compact_scan {t : Triangle} {shaded textured : Bool}
    (hfits : fitsTogether t.a t.b t.c = true) :
    Compact ((t.scan area shaded textured).fragments.map Fragment.place) := by
  simp only [fitsTogether, Bool.and_eq_true, decide_eq_true_eq] at hfits
  have hplaces : (t.scan area shaded textured).fragments.map Fragment.place =
      ((span (max (least t.a.y t.b.y t.c.y) area.top)
        (min (greatest t.a.y t.b.y t.c.y) area.bottom)).flatMap fun y =>
          (span (max (least t.a.x t.b.x t.c.x) area.left)
            (min (greatest t.a.x t.b.x t.c.x) area.right)).map fun x => Vertex.mk x y).filter
              fun place => t.covers (t.weights place.x place.y) := by
    rw [place_scan, List.filter_flatMap]
    refine List.flatMap_congr fun y _ => ?_
    rw [← List.filterMap_eq_filter, List.filterMap_map]
    rfl
  rw [hplaces]
  exact (compact_span (by omega) (by omega)).sublist List.filter_sublist

/-- Corners that are moved into the drawing area do not come further apart. -/
theorem compact_places (area : DrawingArea) (a b c : Point) : Compact (places area a b c) := by
  by_cases hproper : area.IsProper
  · by_cases hfits : fitsTogether a b c = true
    · have hclipped := fitsTogether_clip hproper hfits
      have hswapped : fitsTogether (a.clip area) (c.clip area) (b.clip area) = true :=
        (fitsTogether_swap _ _ _).trans hclipped
      rw [places, fragments_eq]
      split
      · exact compact_scan hclipped
      · split
        · exact compact_scan hswapped
        · exact Compact.nil
    · rw [places, fragments_of_not_fitsTogether hfits]
      exact Compact.nil
  · -- In an area without points corners may well come apart, but nothing is drawn there.
    rw [places, fragments_of_not_isProper hproper]
    exact Compact.nil

end Triangle

/-! ### What is drawn in one go -/

/-- Something that is drawn in one go: the points that it comes upon, and what happens at each. -/
structure Drawing where
  places : List Vertex
  strokes : List Stroke

/-- The triangles that a polygon is drawn as. -/
def Polygon.drawings (polygon : Polygon) (status : Status) (environment : Environment) :
    List Drawing :=
  let point := fun corner => Point.ofCorner corner environment.offset
  let triangle := fun a b c : Point =>
    { places := Triangle.places environment.area a b c
      strokes := Triangle.strokes environment.area a b c polygon.shaded
        (Pen.ofSettings status environment) (Gpu.polygonPaint status polygon) : Drawing }
  triangle (point polygon.first) (point polygon.second) (point polygon.third) ::
    polygon.fourth.toList.map fun fourth =>
      triangle (point polygon.second) (point polygon.third) (point fourth)

namespace Gpu

/-- What a job draws: the triangles of a polygon one after the other, and anything else in one go. -/
def drawings (gpu : Gpu) : Job → List Drawing
  | .polygon polygon =>
    polygon.drawings (polygonStatus gpu.status gpu.environment.textureDisableAllowed polygon)
      gpu.environment
  | job => [⟨job.places gpu.environment, gpu.strokes job⟩]

theorem flatMap_strokes_drawings (gpu : Gpu) (job : Job) :
    (gpu.drawings job).flatMap Drawing.strokes = gpu.strokes job := by
  cases job with
  | polygon polygon =>
    rw [drawings, Polygon.drawings, strokes, Polygon.strokes]
    cases polygon.fourth <;> simp
  | _ => exact List.flatMap_singleton _ _

variable {gpu : Gpu} {job : Job} {drawing : Drawing}

/-- What is done at a point changes the cell of this point only. -/
theorem keepsTo_of_mem_drawings (h : drawing ∈ gpu.drawings job) :
    List.Forall₂ Stroke.KeepsTo drawing.strokes (drawing.places.map Vertex.cell) := by
  have hwhole := gpu.strokes_keep_to_footprint job
  cases job with
  | polygon polygon =>
    simp only [drawings, Polygon.drawings, List.mem_cons, List.mem_map] at h
    rcases h with rfl | ⟨fourth, -, rfl⟩ <;>
      exact Triangle.forall₂_strokes (Stroke.KeepsTo.shade _ _) _ _ _ _ _
  | _ =>
    obtain rfl := List.mem_singleton.1 h
    exact hwhole

/-- **Whatever the decoder asks for, it is drawn in pieces that do not wrap onto themselves.** -/
theorem compact_of_mem_drawings (hgpu : gpu.environment.InRange) (hjob : job.Sized)
    (h : drawing ∈ gpu.drawings job) : Compact drawing.places := by
  cases job with
  | polygon polygon =>
    simp only [drawings, Polygon.drawings, List.mem_cons, List.mem_map] at h
    rcases h with rfl | ⟨fourth, -, rfl⟩ <;> exact Triangle.compact_places _ _ _ _
  | fill block =>
    obtain rfl := List.mem_singleton.1 h
    exact Grid.compact_places _ _ (by have := hjob.1; omega) (by have := hjob.2; omega)
  | line line =>
    obtain rfl := List.mem_singleton.1 h
    exact Segment.compact_places hjob hgpu
  | rectangle shape =>
    obtain rfl := List.mem_singleton.1 h
    exact Sprite.compact_places hjob hgpu
  | copy block =>
    obtain rfl := List.mem_singleton.1 h
    exact Grid.compact_places _ _ hjob.1 hjob.2
  | upload image =>
    obtain rfl := List.mem_singleton.1 h
    exact Grid.compact_places _ _ hjob.width hjob.height
  | _ =>
    obtain rfl := List.mem_singleton.1 h
    exact Compact.nil

end Gpu

/-! ### Every cell once -/

/-- Where no cell comes twice, each is still untouched when it comes. -/
theorem Stroke.KeepsTo.both_drawn_take {strokes : List Stroke} {cells : List (Fin Vram.size)}
    (h : List.Forall₂ KeepsTo strokes cells) (hnodup : cells.Nodup) (vram : Vram) {k : Nat}
    (hk : k < cells.length) :
    (vram.drawn (strokes.take k)).both cells[k] = vram.both cells[k] := by
  refine both_drawn (List.forall₂_take k h) (fun hmem => ?_) vram
  obtain ⟨j, hj, hsame⟩ := List.mem_take_iff_getElem.1 hmem
  have hjk := hnodup.getElem_inj_iff.1 hsame
  omega

namespace Gpu

variable {gpu : Gpu} {job : Job}

/-- **Nothing that is drawn in one go comes upon a cell twice**: no fill, transfer, rectangle, line or
triangle of a polygon that the decoder makes, in any state that the hardware comes to.  When a point is
come upon, its cell still holds what it held before the drawing began, so that nothing is mixed with
the drawing itself or asks for a mask that it has left. -/
theorem drawings_meet_once (hgpu : gpu.Reachable) (hjob : job.IsDecoded) :
    (gpu.run job).vram = gpu.vram.drawn ((gpu.drawings job).flatMap Drawing.strokes) ∧
      ∀ drawing ∈ gpu.drawings job,
        List.Forall₂ Stroke.KeepsTo drawing.strokes (drawing.places.map Vertex.cell) ∧
        drawing.places.Pairwise (fun place other =>
          ¬ (place.x % 1024 = other.x % 1024 ∧ place.y % 512 = other.y % 512)) ∧
        ∀ (vram : Vram) (k : Nat) (hk : k < drawing.places.length),
          (vram.drawn (drawing.strokes.take k)).both drawing.places[k].cell =
            vram.both drawing.places[k].cell := by
  have hrange := (hgpu.of_stable InRange.portStable InRange.powerOn).environment
  refine ⟨by rw [flatMap_strokes_drawings, vram_run], fun drawing hdrawing => ?_⟩
  have hkeeps := keepsTo_of_mem_drawings hdrawing
  have hnodup := (compact_of_mem_drawings hrange hjob.sized hdrawing).nodup_cells
  refine ⟨hkeeps, ?_, fun vram k hk => ?_⟩
  · exact (List.pairwise_map.1 hnodup).imp fun hne hsame => hne (Vram.cell_eq_iff.2 hsame)
  · have huntouched := Stroke.KeepsTo.both_drawn_take hkeeps hnodup vram (k := k)
      (by rwa [List.length_map])
    rwa [List.getElem_map] at huntouched

/-- A fill over the lower right corner of the picture memory, which goes on in the other three. -/
theorem drawings_meet_once_wrapped :
    let job := Job.fill ⟨⟨255, 128, 0⟩, 1020, 510, 8, 4⟩
    powerOn.Reachable ∧ job.IsDecoded ∧ (job.places powerOn.environment).length = 32 ∧
      ⟨1020, 510⟩ ∈ job.places powerOn.environment ∧ ⟨1027, 513⟩ ∈ job.places powerOn.environment ∧
      (job.places powerOn.environment).Pairwise fun place other =>
        ¬ (place.x % 1024 = other.x % 1024 ∧ place.y % 512 = other.y % 512) := by
  intro job
  have hanswers : (Decoder.idle.pushAll [0x020080FF, 0x01FE03FC, 0x00040008]).2 =
      [.ok none, .ok none, .ok (some job)] := by
    rfl
  have hjob : job.IsDecoded := ⟨_, by rw [hanswers]; simp⟩
  obtain ⟨-, hdrawings⟩ := drawings_meet_once .powerOn hjob
  exact ⟨.powerOn, hjob, by decide, by decide, by decide,
    (hdrawings _ (List.mem_singleton_self _)).2.1⟩

end Gpu

end ConsoleVideo
