import ConsoleVideo.Proofs.Drawing.Clipping
import ConsoleVideo.Proofs.Drawing.Stepping
import Mathlib.Tactic.IntervalCases

/-!
# Where drawing stops

Polygons, lines and rectangles are kept inside the drawing area in three ways: corners are moved and a
bounding box is cut off, every point is asked for by itself, and spans are cut off.  The area may be
any, empty or reaching beyond the picture memory, as its bounds are set one by one.  Whatever it is,
nothing else changes: no cell of another point, and no setting but the page of a textured polygon.

* `Stroke.KeepsTo` — a stroke that leaves all cells but one alone;
* `Gpu.strokes_keep_to_footprint` — the strokes of every job are of this kind, each at its place;
* `Job.contains_of_mem_places` — shapes come upon no point outside the drawing area;
* `Status.bit_word_applyPage` — what the page of a polygon changes in the status;
* `Gpu.run_shape_confined` — all that a shape changes.
-/

namespace ConsoleVideo

/-! ### Strokes that leave other cells alone -/

/-- The stroke leaves all cells but this one alone, whatever it looks at. -/
def Stroke.KeepsTo (stroke : Stroke) (i : Fin Vram.size) : Prop :=
  ∀ (vram : Vram) (j : Fin Vram.size), i ≠ j → (stroke vram).both j = vram.both j

namespace Stroke.KeepsTo

theorem set (x y : Int) (color : Deep) : KeepsTo (fun vram => vram.set x y color) (Vram.cell x y) := by
  intro vram j hj
  show (vram.set x y color).both j = vram.both j
  rw [Vram.set, Vram.both_put, if_neg hj]

theorem shade (pen : Pen) (paint : Paint) (fragment : Fragment) :
    KeepsTo (fun vram => pen.shade paint vram fragment) fragment.place.cell := by
  intro vram j hj
  show (pen.shade paint vram fragment).both j = vram.both j
  rcases pen.shade_eq_self_or_set paint vram fragment with hself | ⟨color, hset⟩
  · rw [hself]
  · rw [hset]
    exact set fragment.x fragment.y color vram j hj

theorem copyStep (copy : VramCopy) (setMask checkMask : Bool) (dx dy : Nat) :
    KeepsTo (fun vram => copy.step setMask checkMask vram dx dy)
      (Vram.cell (copy.toX + dx : Nat) (copy.toY + dy : Nat)) := by
  intro vram j hj
  simp only [VramCopy.step]
  split_ifs
  · rfl
  · rw [Vram.raiseMask, Vram.both_put, if_neg hj, Vram.copy, Vram.both_put, if_neg hj]
  · rw [Vram.copy, Vram.both_put, if_neg hj]

theorem uploadStep (image : ImageLoad) (setMask checkMask : Bool) (dx dy : Nat) :
    KeepsTo (fun vram => image.step setMask checkMask vram dx dy)
      (Vram.cell (image.rect.x + dx : Nat) (image.rect.y + dy : Nat)) := by
  intro vram j hj
  exact (image.writes_step setMask checkMask vram (dx, dy) j).trans (if_neg hj)

variable {strokes : List Stroke} {cells : List (Fin Vram.size)} {i : Fin Vram.size}

/-- **What is not come upon stays as it was.** -/
theorem both_drawn (h : List.Forall₂ KeepsTo strokes cells) (hi : i ∉ cells) (vram : Vram) :
    (vram.drawn strokes).both i = vram.both i := by
  induction h generalizing vram with
  | nil => rfl
  | @cons stroke j strokes cells hstroke _ ih =>
    rw [List.mem_cons, not_or] at hi
    show ((stroke vram).drawn strokes).both i = vram.both i
    rw [ih hi.2, hstroke vram i (Ne.symm hi.1)]

end Stroke.KeepsTo

namespace Gpu

/-- **The strokes of a job keep to its footprint**, one cell each, textured or not. -/
theorem strokes_keep_to_footprint (gpu : Gpu) (job : Job) :
    List.Forall₂ Stroke.KeepsTo (gpu.strokes job) (job.footprint gpu.environment) := by
  cases job with
  | fill fill =>
    exact Grid.forall₂_strokes (fun dx dy => Stroke.KeepsTo.set _ _ fill.color.deep) fill.width
      fill.height
  | polygon polygon => exact Polygon.forall₂_strokes (Stroke.KeepsTo.shade _ _)
  | line line => exact Scan.forall₂_strokes (Stroke.KeepsTo.shade _ _) _
  | rectangle rectangle => exact Scan.forall₂_strokes (Stroke.KeepsTo.shade _ _) _
  | copy copy => exact Grid.forall₂_strokes (Stroke.KeepsTo.copyStep copy _ _) copy.width copy.height
  | upload image =>
    exact Grid.forall₂_strokes (Stroke.KeepsTo.uploadStep image _ _) image.rect.width
      image.rect.height
  | _ => exact .nil

end Gpu

/-! ### Shapes -/

theorem Segment.contains_of_mem_fragments {segment : Segment} {area : DrawingArea}
    {fragment : Fragment} (h : fragment ∈ segment.fragments area) :
    area.contains fragment.x fragment.y = true := by
  obtain ⟨⟨point, i⟩, -, hsome⟩ := List.mem_filterMap.1 h
  simp only [Option.ite_none_right_eq_some, Option.some.injEq] at hsome
  obtain ⟨hcontains, rfl⟩ := hsome
  exact hcontains

namespace Job

/-- Polygons, lines and rectangles. -/
def isShape : Job → Bool
  | .polygon _ | .line _ | .rectangle _ => true
  | _ => false

/-- The page attribute of a textured polygon. -/
def page? : Job → Option Word
  | .polygon shape => shape.texture.map (·.pageWord)
  | _ => none

/-- **Shapes come upon no point outside the drawing area.** -/
theorem contains_of_mem_places {job : Job} {environment : Environment} {place : Vertex}
    (hshape : job.isShape = true) (h : place ∈ job.places environment) :
    environment.area.contains place.x place.y = true := by
  cases job with
  | polygon polygon =>
    rw [places, Polygon.places] at h
    cases hfourth : polygon.fourth with
    | none =>
      rw [hfourth] at h
      exact Triangle.contains_of_mem_places h
    | some fourth =>
      rw [hfourth] at h
      rcases List.mem_append.1 h with hfirst | hsecond
      · exact Triangle.contains_of_mem_places hfirst
      · exact Triangle.contains_of_mem_places hsecond
  | line line =>
    obtain ⟨fragment, hfragment, rfl⟩ := List.mem_map.1 h
    rw [Segment.fragments_scan] at hfragment
    split at hfragment
    · exact Segment.contains_of_mem_fragments hfragment
    · exact absurd hfragment List.not_mem_nil
  | rectangle rectangle =>
    obtain ⟨hx, hy⟩ := (Sprite.mem_places _ _).1 h
    have hcolumns := mem_span.1 hx
    have hrows := mem_span.1 hy
    exact DrawingArea.contains_iff.2 (by omega)
  | _ => exact Bool.noConfusion hshape

end Job

/-! ### The page of a polygon -/

/-- **A page attribute replaces the nine lowest bits of the status**, and the texture switch by its own
where that is permitted. -/
theorem Status.bit_word_applyPage (s : Status) (page : Word) (allowed : Bool) {k : Nat} (hk : k < 32) :
    (s.applyPage page allowed).word.bit k =
      if k ≤ 8 then page.bit k
      else if k = 15 then page.bit 11 && allowed
      else s.word.bit k := by
  have hblend : page.field 5 2 % 4 = page.field 5 2 := Nat.mod_eq_of_lt (page.field_lt 5 2)
  have hdepth : page.field 7 2 % 4 = page.field 7 2 := Nat.mod_eq_of_lt (page.field_lt 7 2)
  rw [bit_word, bit_word]
  interval_cases k <;>
    simp [bits, applyPage, Word.testBit_field, hblend, hdepth, Bool.and_comm, -Nat.testBit_zero]

/-! ### What a shape changes -/

namespace Gpu

variable {gpu : Gpu} {job : Job} {i : Fin Vram.size}

/-- **What a job does not come upon stays as it was.** -/
theorem both_run_of_not_mem_footprint (hi : i ∉ job.footprint gpu.environment) :
    (gpu.run job).vram.both i = gpu.vram.both i := by
  rw [vram_run]
  exact Stroke.KeepsTo.both_drawn (gpu.strokes_keep_to_footprint job) hi gpu.vram

theorem both_run_of_outside (hshape : job.isShape = true)
    (hi : ∀ place : Vertex, gpu.environment.area.contains place.x place.y = true → place.cell ≠ i) :
    (gpu.run job).vram.both i = gpu.vram.both i := by
  refine both_run_of_not_mem_footprint fun hmem => ?_
  obtain ⟨place, hplace, hcell⟩ := List.mem_map.1 hmem
  exact hi place (Job.contains_of_mem_places hshape hplace) hcell

theorem status_run_shape (hshape : job.isShape = true) :
    (gpu.run job).status = job.page?.elim gpu.status fun page =>
      gpu.status.applyPage page gpu.environment.textureDisableAllowed := by
  cases job with
  | polygon polygon =>
    show polygonStatus gpu.status gpu.environment.textureDisableAllowed polygon = _
    rw [polygonStatus, Job.page?]
    cases polygon.texture <;> rfl
  | line line => rfl
  | rectangle rectangle => rfl
  | _ => exact Bool.noConfusion hshape

/-- **A polygon, a line or a rectangle changes cells of points in the drawing area**, whatever the area,
and no others; none at all if there is no point in the area.  Of all else that the hardware holds it
changes nothing, but for the status where a textured polygon brings its page: bits 0 to 8 come from the
page attribute, and bit 15 is bit 11 of it where textures may be switched off. -/
theorem run_shape_confined (hshape : job.isShape = true) :
    (∀ i, (∀ place : Vertex, gpu.environment.area.contains place.x place.y = true →
        place.cell ≠ i) → (gpu.run job).vram.both i = gpu.vram.both i) ∧
      (gpu.environment.area.right < gpu.environment.area.left ∨
        gpu.environment.area.bottom < gpu.environment.area.top →
          (gpu.run job).vram = gpu.vram) ∧
      gpu.run job = { gpu with vram := (gpu.run job).vram, status := (gpu.run job).status } ∧
      ∀ k < 32, (gpu.run job).status.word.bit k =
        match job.page? with
        | none => gpu.status.word.bit k
        | some page =>
          if k ≤ 8 then page.bit k
          else if k = 15 then page.bit 11 && gpu.environment.textureDisableAllowed
          else gpu.status.word.bit k := by
  refine ⟨fun i hi => both_run_of_outside hshape hi, fun hempty => ?_, ?_, fun k hk => ?_⟩
  · refine Vram.ext_both fun i => both_run_of_outside hshape fun place hcontains => ?_
    rw [DrawingArea.contains_iff] at hcontains
    omega
  · cases job with
    | polygon polygon => rfl
    | line line => rfl
    | rectangle rectangle => rfl
    | _ => exact Bool.noConfusion hshape
  · rw [status_run_shape hshape]
    cases job.page? with
    | none => rfl
    | some page => exact gpu.status.bit_word_applyPage page _ hk

/-- A textured quadrilateral that lies across the right bound of a drawing area, which reaches below the
picture memory; it asks to do without its texture and may do so. -/
theorem run_shape_confined_textured :
    let area : DrawingArea := ⟨100, 400, 200, 1000⟩
    let gpu : Gpu := { powerOn with
      environment := { powerOn.environment with area := area, textureDisableAllowed := true } }
    let corner := fun (x y : Int) => (⟨⟨x, y⟩, ⟨255, 128, 0⟩, ⟨0, 0⟩⟩ : Corner)
    let job := Job.polygon ⟨corner 150 500, corner 250 500, corner 150 600, some (corner 250 600),
      true, some ⟨⟨0, 480⟩, 0x0905, false⟩, true⟩
    job.isShape = true ∧
      (gpu.run job).vram.both (Vertex.cell ⟨201, 500⟩) =
        gpu.vram.both (Vertex.cell ⟨201, 500⟩) ∧
      (gpu.run job).status.word.bit 8 = true ∧ (gpu.run job).status.word.bit 15 = true ∧
      (gpu.run job).status.word.bit 28 = gpu.status.word.bit 28 := by
  intro area gpu corner job
  obtain ⟨hcells, -, -, hbits⟩ := @run_shape_confined gpu job rfl
  refine ⟨rfl, hcells _ fun place hcontains hcell => ?_, ?_, ?_, ?_⟩
  · have hx := (DrawingArea.contains_iff.1 hcontains).2.1
    have hleft := (DrawingArea.contains_iff.1 hcontains).1
    have hcolumn := (Vram.cell_eq_iff.1 hcell).1
    change place.x ≤ 200 at hx
    change 100 ≤ place.x at hleft
    change place.x % 1024 = 201 % 1024 at hcolumn
    omega
  · exact (hbits 8 (by decide)).trans (by decide)
  · exact (hbits 15 (by decide)).trans (by decide)
  · exact hbits 28 (by decide)

end Gpu

end ConsoleVideo
