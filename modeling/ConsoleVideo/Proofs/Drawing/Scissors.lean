import ConsoleVideo.Proofs.Drawing.Boxes
import ConsoleVideo.Proofs.Drawing.Confinement

/-!
# Cutting away

For lines and rectangles the drawing area is a pair of scissors: it takes points away, and what it
leaves is drawn as it would be without it.  A line is walked from its start even where its start is not
seen, so that every point keeps its colour; a rectangle has its rows and columns cut off at the bounds.

* `DrawingArea.Within` — one area in another;
* `filter_span`, `Sprite.fragments_cut`, `Segment.fragments_cut` — the fragments in an area are those
  in a larger one, less the ones outside;
* `Pen.both_foldl_filter` — without a texture, what a cell comes to hold depends only on the fragments
  that lie on it, so that others may be left out;
* `Gpu.run_scissored` — the picture inside the area is the one that the whole picture memory would have,
  and outside it is what it was.
-/

namespace ConsoleVideo

/-! ### Areas in areas -/

/-- The bounds of one area are not beyond those of the other. -/
structure DrawingArea.Within (area outer : DrawingArea) : Prop where
  left : outer.left ≤ area.left
  top : outer.top ≤ area.top
  right : area.right ≤ outer.right
  bottom : area.bottom ≤ outer.bottom

theorem DrawingArea.Within.contains {area outer : DrawingArea} (h : area.Within outer) {x y : Int}
    (hxy : area.contains x y = true) : outer.contains x y = true := by
  have hleft := h.left
  have htop := h.top
  have hright := h.right
  have hbottom := h.bottom
  rw [contains_iff] at hxy ⊢
  omega

/-! ### Fragments in an area -/

theorem pairwise_lt_span (lo hi : Int) : (span lo hi).Pairwise (· < ·) := by
  rw [span, List.pairwise_map]
  exact List.pairwise_lt_range.imp fun h => by omega

/-- A part of a span is a span. -/
theorem filter_span (lo hi left right : Int) :
    (span lo hi).filter (fun x => decide (left ≤ x ∧ x ≤ right)) =
      span (max lo left) (min hi right) := by
  have hsorted := pairwise_lt_span lo hi
  have hsorted' := pairwise_lt_span (max lo left) (min hi right)
  refine List.Perm.eq_of_pairwise (fun _ _ _ _ hlt hgt => absurd hgt (lt_asymm hlt))
    (hsorted.filter _) hsorted' ?_
  rw [List.perm_ext_iff_of_nodup ((hsorted.imp ne_of_lt).filter _) (hsorted'.imp ne_of_lt)]
  intro x
  simp only [List.mem_filter, mem_span, decide_eq_true_eq]
  omega

/-- What brings nothing may be left out. -/
theorem flatMap_filter_of_eq_nil {α β : Type} {p : α → Bool} {f : α → List β} {l : List α}
    (h : ∀ a ∈ l, p a = false → f a = []) : (l.filter p).flatMap f = l.flatMap f := by
  induction l with
  | nil => rfl
  | cons a l ih =>
    have hrest := ih fun b hb => h b (List.mem_cons_of_mem a hb)
    cases hp : p a with
    | false => rw [List.filter_cons_of_neg (by simp [hp]), List.flatMap_cons,
        h a List.mem_cons_self hp, hrest, List.nil_append]
    | true => rw [List.filter_cons_of_pos hp, List.flatMap_cons, List.flatMap_cons, hrest]

namespace Sprite

variable {area outer : DrawingArea} (sprite : Sprite) (h : area.Within outer)

include h

theorem columns_cut :
    sprite.columns area =
      (sprite.columns outer).filter fun x => decide (area.left ≤ x ∧ x ≤ area.right) := by
  rw [columns, columns, filter_span, max_assoc, max_eq_right h.left, min_assoc, min_eq_right h.right]

theorem rows_cut :
    sprite.rows area =
      (sprite.rows outer).filter fun y => decide (area.top ≤ y ∧ y ≤ area.bottom) := by
  rw [rows, rows, filter_span, max_assoc, max_eq_right h.top, min_assoc, min_eq_right h.bottom]

/-- **A smaller area leaves the fragments of a rectangle that lie in it.** -/
theorem fragments_cut :
    (sprite.scan area).fragments =
      (sprite.scan outer).fragments.filter fun fragment => area.contains fragment.x fragment.y := by
  have hinside : ∀ y, area.top ≤ y ∧ y ≤ area.bottom → (sprite.row outer y).filter
      (fun fragment => area.contains fragment.x fragment.y) = sprite.row area y := by
    intro y hy
    rw [row, row, sprite.columns_cut h, List.filter_map]
    congr 1
    refine List.filter_congr fun x _ => ?_
    simp [DrawingArea.contains, hy.1, hy.2]
  have houtside : ∀ y, ¬ (area.top ≤ y ∧ y ≤ area.bottom) → (sprite.row outer y).filter
      (fun fragment => area.contains fragment.x fragment.y) = [] := by
    intro y hy
    rw [List.filter_eq_nil_iff]
    intro fragment hfragment hcontains
    obtain ⟨x, -, rfl⟩ := List.mem_map.1 hfragment
    exact hy (DrawingArea.contains_iff.1 hcontains).2.2
  simp only [Scan.fragments, scan, List.filter_flatMap]
  rw [← flatMap_filter_of_eq_nil (p := fun y => decide (area.top ≤ y ∧ y ≤ area.bottom))
    fun y _ hy => houtside y (of_decide_eq_false hy), ← sprite.rows_cut h]
  refine List.flatMap_congr fun y hy => (hinside y ?_).symm
  rw [sprite.rows_cut h, List.mem_filter] at hy
  exact of_decide_eq_true hy.2

end Sprite

/-- **A smaller area leaves the fragments of a line that lie in it**, each in its colour. -/
theorem Segment.fragments_cut {area outer : DrawingArea} (segment : Segment) (h : area.Within outer) :
    (segment.scan area).fragments =
      (segment.scan outer).fragments.filter fun fragment => area.contains fragment.x fragment.y := by
  rw [fragments_scan, fragments_scan, apply_ite (List.filter _), List.filter_nil]
  congr 1
  rw [fragments, fragments, List.filter_filterMap]
  refine List.filterMap_congr fun indexed _ => ?_
  obtain ⟨point, i⟩ := indexed
  cases harea : area.contains point.x point.y with
  | false =>
    cases houter : outer.contains point.x point.y <;> simp [harea, houter, Option.filter_some]
  | true => simp [h.contains harea, harea, Option.filter_some]

/-! ### Leaving fragments out -/

section Cut

variable (pen : Pen) {paint : Paint} (hplain : paint.texture = none)

include hplain

/-- **What a cell comes to hold depends on its own fragments**, and others may be left out. -/
theorem Pen.both_foldl_filter {keep : Fragment → Bool} {i : Fin Vram.size}
    {fragments : List Fragment}
    (hkeep : ∀ fragment ∈ fragments, fragment.place.cell = i → keep fragment = true)
    {vram other : Vram} (hsame : vram.both i = other.both i) :
    ((fragments.filter keep).foldl (pen.shade paint) vram).both i =
      (fragments.foldl (pen.shade paint) other).both i := by
  induction fragments generalizing vram other with
  | nil => exact hsame
  | cons fragment fragments ih =>
    have hrest : ∀ later ∈ fragments, later.place.cell = i → keep later = true :=
      fun later hlater => hkeep later (List.mem_cons_of_mem fragment hlater)
    rw [List.foldl_cons]
    cases hfragment : keep fragment with
    | true =>
      rw [List.filter_cons_of_pos hfragment, List.foldl_cons]
      refine ih hrest ?_
      rw [pen.both_shade hplain, pen.both_shade hplain, hsame]
    | false =>
      have hother : fragment.place.cell ≠ i := fun hcell => by
        rw [hkeep fragment List.mem_cons_self hcell] at hfragment
        exact Bool.noConfusion hfragment
      rw [List.filter_cons_of_neg (by simp [hfragment])]
      refine ih hrest ?_
      rw [pen.both_shade hplain, if_neg hother, hsame]

/-- **A shape that is cut off** leaves in the cells of the area what all of it leaves there, and the
others as they were.  In the whole picture memory a cell belongs to one point only. -/
theorem Scan.both_paint_cut {area : DrawingArea} {scan cut : Scan}
    (hfull : ∀ place ∈ scan.places, DrawingArea.full.contains place.x place.y = true)
    (hcut : cut.fragments =
      scan.fragments.filter fun fragment => area.contains fragment.x fragment.y)
    (vram : Vram) {place : Vertex} (hplace : DrawingArea.full.contains place.x place.y = true) :
    (cut.paint pen paint vram).both place.cell =
      if area.contains place.x place.y then (scan.paint pen paint vram).both place.cell
      else vram.both place.cell := by
  have hpoint : ∀ fragment ∈ scan.fragments, fragment.place.cell = place.cell →
      fragment.x = place.x ∧ fragment.y = place.y := by
    intro fragment hfragment hcell
    obtain ⟨hcolumn, hrow⟩ := Vram.cell_eq_iff.1 hcell
    have hinside := DrawingArea.contains_iff.1 (hfull _ (List.mem_map_of_mem hfragment))
    rw [DrawingArea.contains_iff] at hplace
    simp only [DrawingArea.full, Fragment.place] at hinside hplace hcolumn hrow
    omega
  split
  · next hinside =>
    rw [paint_eq_foldl, paint_eq_foldl, hcut]
    refine pen.both_foldl_filter hplain (fun fragment hfragment hcell => ?_) rfl
    obtain ⟨hx, hy⟩ := hpoint fragment hfragment hcell
    rw [hx, hy, hinside]
  · next houtside =>
    rw [paint_eq_drawn]
    refine Stroke.KeepsTo.both_drawn (forall₂_strokes (Stroke.KeepsTo.shade pen paint) cut) ?_ vram
    intro hmem
    simp only [places, hcut, List.mem_map, List.mem_filter] at hmem
    obtain ⟨-, ⟨fragment, ⟨hfragment, hcontains⟩, rfl⟩, hcell⟩ := hmem
    obtain ⟨hx, hy⟩ := hpoint fragment hfragment hcell
    rw [hx, hy] at hcontains
    exact houtside hcontains

end Cut

/-! ### Jobs -/

/-- Shapes without a texture from which the drawing area takes points away, and that it does not change
otherwise: lines and rectangles. -/
def Job.isScissored : Job → Bool
  | .line _ => true
  | .rectangle shape => shape.texture.isNone
  | _ => false

namespace Gpu

/-- **Scissors.**  A line, or a rectangle without a texture, leaves under a drawing area in the picture
memory, in the cells of the area, what it leaves there under the whole picture memory as the area, and
all other cells as they were. -/
theorem run_scissored {gpu : Gpu} {job : Job} {area : DrawingArea} (hjob : job.isScissored = true)
    (harea : area.Within .full) {place : Vertex}
    (hplace : DrawingArea.full.contains place.x place.y = true) :
    ((gpu.withArea area).run job).vram.both place.cell =
      if area.contains place.x place.y then ((gpu.withArea .full).run job).vram.both place.cell
      else gpu.vram.both place.cell := by
  have hfull : ∀ other ∈ job.places (gpu.withArea .full).environment,
      DrawingArea.full.contains other.x other.y = true := by
    have hshape : job.isShape = true := by
      cases job <;> first | rfl | exact Bool.noConfusion hjob
    exact fun other hother => Job.contains_of_mem_places hshape hother
  cases job with
  | line line =>
    exact Scan.both_paint_cut _ rfl hfull (Segment.fragments_cut _ harea) gpu.vram hplace
  | rectangle shape =>
    have hplain : (rectanglePaint gpu.status shape).texture = none := by
      rw [rectanglePaint, Option.isNone_iff_eq_none.1 hjob, Option.map_none, ite_self]
    exact Scan.both_paint_cut _ hplain hfull (Sprite.fragments_cut _ harea) gpu.vram hplace
  | _ => exact Bool.noConfusion hjob

/-- A translucent line in changing colours that starts outside the picture memory and runs through a
small area, seen at a point of the area and at one beside it. -/
theorem run_scissored_slanted :
    let gpu : Gpu := { powerOn with
      environment := { powerOn.environment with offset := ⟨-20, -10⟩ } }
    let job := Job.line ⟨⟨5, 2⟩, ⟨60, 30⟩, ⟨255, 0, 0⟩, ⟨0, 0, 255⟩, true⟩
    let area : DrawingArea := ⟨4, 2, 16, 9⟩
    job.isScissored = true ∧ area.Within .full ∧
      DrawingArea.full.contains 7 3 = true ∧ DrawingArea.full.contains 20 10 = true ∧
      ((gpu.withArea area).run job).vram.both (Vertex.cell ⟨7, 3⟩) =
        ((gpu.withArea .full).run job).vram.both (Vertex.cell ⟨7, 3⟩) ∧
      ((gpu.withArea area).run job).vram.both (Vertex.cell ⟨20, 10⟩) =
        gpu.vram.both (Vertex.cell ⟨20, 10⟩) := by
  intro gpu job area
  have harea : area.Within .full := ⟨by decide, by decide, by decide, by decide⟩
  exact ⟨rfl, harea, rfl, rfl, run_scissored rfl harea rfl, run_scissored rfl harea rfl⟩

end Gpu

end ConsoleVideo
