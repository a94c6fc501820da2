import ConsoleVideo.Proofs.Command.Sizes
import ConsoleVideo.Proofs.Command.Spelling
import ConsoleVideo.Proofs.Gpu.Ranges

/-!
# Where things are that commands ask for

Blocks of the picture memory begin inside of it, and the corners of polygons have eleven bits to a
coordinate, like all vertices.  How far a block goes on from there, and how far the drawing offset takes
a corner, is another matter.

* `Job.Placed` — what is drawn is where its fields can put it;
* `Job.Bounded`, `Job.IsDecoded.bounded` — all that is known of the numbers in the jobs that the decoder
  makes.
-/

namespace ConsoleVideo

/-- The block begins inside the picture memory. -/
structure VramRect.Begins (rect : VramRect) : Prop where
  x : rect.x ≤ 1023
  y : rect.y ≤ 511

theorem VramRect.begins_ofWords (position size : Word) : (ofWords position size).Begins where
  x := Nat.le_of_lt_succ (position.field_lt 0 10)
  y := Nat.le_of_lt_succ (position.field_lt 16 9)

namespace Job

/-- What is drawn is where the fields of its words can put it. -/
def Placed : Job → Prop
  | .fill block => block.x ≤ 1023 ∧ block.y ≤ 511
  | .polygon shape => ∀ corner ∈ shape.corners, corner.position.Fits
  | .copy block => (block.fromX ≤ 1023 ∧ block.fromY ≤ 511) ∧ block.toX ≤ 1023 ∧ block.toY ≤ 511
  | .upload image => image.rect.Begins
  | .download rect => rect.Begins ∧ rect.Fits
  | _ => True

/-- No number in the job is larger than the fields of its words can state. -/
structure Bounded (job : Job) : Prop where
  sized : job.Sized
  placed : job.Placed
  inRange : job.InRange

end Job

namespace PolygonStyle

variable {style : PolygonStyle} {words : List Word}

theorem fits_of_corner? {i : Nat} {corner : Corner} (h : style.corner? words i = some corner) :
    corner.position.Fits := by
  obtain ⟨shaded, quad, textured, translucent, raw⟩ := style
  cases textured <;>
    simp only [corner?, Bool.false_eq_true, if_false, if_true, Option.bind_eq_bind, Option.pure_def,
      Option.bind_some, Option.bind_eq_some_iff, Option.some.injEq] at h
  · obtain ⟨color, -, position, -, rfl⟩ := h
    exact Vertex.fits_ofWord position
  · obtain ⟨color, -, position, -, texCoord, -, rfl⟩ := h
    exact Vertex.fits_ofWord position

theorem fits_of_polygon? {shape : Polygon} (h : style.polygon? words = some shape) :
    ∀ corner ∈ shape.corners, corner.position.Fits := by
  obtain ⟨shaded, quad, textured, translucent, raw⟩ := style
  cases quad <;>
    simp only [polygon?, Bool.false_eq_true, if_false, if_true, Option.bind_eq_bind, Option.pure_def,
      Option.bind_some, Option.bind_eq_some_iff, Option.map_eq_some_iff, Option.some.injEq] at h
  · obtain ⟨first, hfirst, second, hsecond, third, hthird, texture, -, rfl⟩ := h
    simp only [Polygon.corners, List.forall_mem_cons, Option.toList_none]
    exact ⟨fits_of_corner? hfirst, fits_of_corner? hsecond, fits_of_corner? hthird,
      fun corner hnone => absurd hnone List.not_mem_nil⟩
  · obtain ⟨first, hfirst, second, hsecond, third, hthird, -, ⟨fourth, hfourth, rfl⟩, texture, -,
      rfl⟩ := h
    simp only [Polygon.corners, List.forall_mem_cons, Option.toList_some]
    exact ⟨fits_of_corner? hfirst, fits_of_corner? hsecond, fits_of_corner? hthird,
      fits_of_corner? hfourth, fun corner hnone => absurd hnone List.not_mem_nil⟩

end PolygonStyle

/-- **No command asks for a place that its fields cannot name.** -/
theorem Command.placed_of_build? {command : Command} {words : List Word} {job : Job}
    (h : command.build? words = some job) : job.Placed := by
  cases command with
  | polyline => exact absurd h (Option.some_ne_none job).symm
  | polygon style =>
    obtain ⟨shape, hshape, rfl⟩ := Option.map_eq_some_iff.1 h
    exact PolygonStyle.fits_of_polygon? hshape
  | fill =>
    simp only [build?, Option.bind_eq_bind, Option.pure_def, Option.bind_eq_some_iff,
      Option.some.injEq] at h
    obtain ⟨color, -, corner, -, size, -, rfl⟩ := h
    exact ⟨Nat.le_of_lt_succ (corner.field_lt 0 10), Nat.le_of_lt_succ (corner.field_lt 16 9)⟩
  | copy =>
    simp only [build?, Option.bind_eq_bind, Option.pure_def, Option.bind_eq_some_iff,
      Option.some.injEq] at h
    obtain ⟨source, -, target, -, size, -, rfl⟩ := h
    have hbegins := VramRect.begins_ofWords source size
    exact ⟨⟨hbegins.x, hbegins.y⟩, Nat.le_of_lt_succ (target.field_lt 0 10),
      Nat.le_of_lt_succ (target.field_lt 16 9)⟩
  | upload =>
    simp only [build?, Option.bind_eq_bind, Option.pure_def, Option.bind_eq_some_iff,
      Option.some.injEq] at h
    obtain ⟨position, -, size, -, rfl⟩ := h
    exact VramRect.begins_ofWords position size
  | download =>
    simp only [build?, Option.bind_eq_bind, Option.pure_def, Option.bind_eq_some_iff,
      Option.some.injEq] at h
    obtain ⟨position, -, size, -, rfl⟩ := h
    exact ⟨VramRect.begins_ofWords position size, VramRect.fits_ofWords position size⟩
  | _ =>
    simp only [build?, Option.bind_eq_bind, Option.pure_def, Option.bind_eq_some_iff,
      Option.map_eq_some_iff, Option.some.injEq] at h
    grind [Job.Placed]

/-- **The decoder makes only jobs that words can state.** -/
theorem Job.IsDecoded.bounded {job : Job} (h : job.IsDecoded) : job.Bounded where
  sized := h.sized
  placed := h.of_build? (fun _ hbuild => Command.placed_of_build? hbuild) fun _ himage => himage
  inRange := h.of_build? (fun _ hbuild => Command.inRange_of_build? hbuild) fun _ _ => trivial

end ConsoleVideo
