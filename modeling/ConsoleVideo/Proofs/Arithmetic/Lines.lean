import ConsoleVideo.Proofs.Arithmetic.Alu
import ConsoleVideo.Proofs.Drawing.Distinct

/-!
# Lines in 32 bits

A line moves by signed sums of 32 bits and mixes its colours in 64.  The error adds up over a thousand
steps; it is bounded all the same, as at every step it says how far one axis leads over the other.  In
the last place of a line one more step is computed, which nothing is drawn for.

* `Vertex.offset?` — a vertex moved by the drawing offset, with `offset?_eq`;
* `Line.channel?`, `Line.move?` — a channel on the way, and the step to the next place;
* `Course.lead_between` — how large the error can be;
* `Line.draw?`, `Line.draw?_eq` — the line, drawn in the order in which its places are found.
-/

namespace ConsoleVideo

open Alu (s32 s64 byte)

/-! ### Vertices -/

namespace Vertex

/-- The vertex is where the drawing offset can have moved one. -/
structure IsNear (v : Vertex) : Prop where
  x : -2048 ≤ v.x ∧ v.x ≤ 2046
  y : -2048 ≤ v.y ∧ v.y ≤ 2046

/-- The vertex moved by `(dx, dy)`. -/
def offset? (v : Vertex) (dx dy : Int) : Option Vertex := do
  let x ← s32.add v.x dx
  let y ← s32.add v.y dy
  return ⟨x, y⟩

variable {v : Vertex} {environment : Environment} (hv : v.Fits)
  (henvironment : environment.InRange)

include hv henvironment

theorem offset?_eq : v.offset? environment.offset.x environment.offset.y =
    some (v.offset environment.offset.x environment.offset.y) := by
  have hvx := hv.x
  have hvy := hv.y
  have hx := henvironment.offsetX
  have hy := henvironment.offsetY
  rw [offset_eq hv henvironment]
  simp (disch := omega) only [offset?, Alu.add, Alu.s32_fit, Option.bind_eq_bind, Option.bind_some,
    Option.pure_def]

/-- Two numbers of eleven bits add up to one of twelve. -/
theorem isNear_offset : (v.offset environment.offset.x environment.offset.y).IsNear := by
  have hvx := hv.x
  have hvy := hv.y
  have hx := henvironment.offsetX
  have hy := henvironment.offsetY
  rw [offset_eq hv henvironment]
  constructor <;> dsimp only <;> omega

end Vertex

/-! ### The arithmetic of a line -/

namespace Line

/-- A channel at step `i` of a line, and the byte that it is kept in. -/
def channel? (steps : Int) (first last : UInt8) (i : Nat) : Option Int := do
  let value ←
    if steps = 0 then some (first.toNat : Int)
    else do
      let change ← s64.sub last.toNat first.toNat
      let gone ← s64.mul change i
      let part ← s64.div gone steps
      s64.add first.toNat part
  byte.fit value

/-- What is kept of a line from step to step. -/
structure Pencil where
  vram : Vram
  error : Int
  place : Vertex

/-- Lays down the place of step `i`, if it is in the drawing area. -/
def plot? (line : Line) (area : DrawingArea) (pen : Pen) (steps : Int) (vram : Vram)
    (place : Vertex) (i : Nat) : Option Vram :=
  if area.contains place.x place.y then do
    let red ← channel? steps line.startColor.red line.stopColor.red i
    let green ← channel? steps line.startColor.green line.stopColor.green i
    let blue ← channel? steps line.startColor.blue line.stopColor.blue i
    return pen.shade ⟨none, line.translucent⟩ vram
      { x := place.x
        y := place.y
        base := Deep.ofChannels red.toNat green.toNat blue.toNat
        u := 0
        v := 0 }
  else some vram

/-- One axis at a step: if it moves, it does so in its direction, and the error changes by what it
gains. -/
def axis? (moves : Bool) (gain direction error position : Int) : Option (Int × Int) :=
  if moves then do
    let error ← s32.add error gain
    let position ← s32.add position direction
    return (error, position)
  else some (error, position)

/-- The error and the place at the next step, of a line that goes `dx` columns and `dy` rows far. -/
def move? (dx dy long short error : Int) (place : Vertex) : Option (Int × Vertex) := do
  let twice ← s32.mul 2 error
  let (error, x) ← axis? (short ≤ twice) short (Segment.direction dx) error place.x
  let (error, y) ← axis? (twice ≤ long) long (Segment.direction dy) error place.y
  return (error, ⟨x, y⟩)

/-- Lays down a place and goes on to the next. -/
def step? (line : Line) (area : DrawingArea) (pen : Pen) (dx dy long short steps : Int)
    (pencil : Pencil) (i : Nat) : Option Pencil := do
  let vram ← line.plot? area pen steps pencil.vram pencil.place i
  let (error, place) ← move? dx dy long short pencil.error pencil.place
  return { vram := vram, error := error, place := place }

/-- Draws the line from one place to another, unless they are too far apart. -/
def drawBetween? (line : Line) (area : DrawingArea) (pen : Pen) (start stop : Vertex) (vram : Vram) :
    Option Vram := do
  let dx ← s32.sub stop.x start.x
  let dy ← s32.sub stop.y start.y
  let long ← s32.abs dx
  let high ← s32.abs dy
  if 1023 < long ∨ 511 < high then
    return vram
  else
    let short ← s32.neg high
    let error ← s32.add long short
    let steps := max long high
    let last ← (List.range (steps.toNat + 1)).foldlM
      (line.step? area pen dx dy long short steps) ⟨vram, error, start⟩
    return last.vram

/-- Draws the line. -/
def draw? (line : Line) (environment : Environment) (pen : Pen) (vram : Vram) : Option Vram := do
  let start ← line.start.offset? environment.offset.x environment.offset.y
  let stop ← line.stop.offset? environment.offset.x environment.offset.y
  line.drawBetween? environment.area pen start stop vram

theorem axis?_eq {gain direction error position : Int} (moves : Bool)
    (hgain : -1023 ≤ gain ∧ gain ≤ 1023) (hdirection : -1 ≤ direction ∧ direction ≤ 1)
    (herror : -1000000 ≤ error ∧ error ≤ 1000000)
    (hposition : -10000 ≤ position ∧ position ≤ 10000) :
    axis? moves gain direction error position =
      some (error + (if moves then gain else 0), position + if moves then direction else 0) := by
  rw [axis?]
  cases moves with
  | false => simp
  | true =>
    simp (disch := omega) only [if_true, Alu.add, Alu.s32_fit, Option.bind_eq_bind,
      Option.bind_some, Option.pure_def]

end Line

theorem Segment.direction_between (d : Int) : -1 ≤ direction d ∧ direction d ≤ 1 := by
  rw [direction]
  split <;> decide

/-! ### Channels -/

namespace Course

variable {course : Course} {i : Nat}

theorem channel?_eq (hmajor : course.major ≤ 1023) (hi : i ≤ course.major) (first last : UInt8) :
    Line.channel? course.major first last i = some (course.channel first last i) := by
  have hfirst := first.toNat_lt
  have hlast := last.toNat_lt
  have hbetween := channel_between hi first last
  have hpart := tdiv_between (d := last.toNat - first.toNat) hi
  have hgone := mul_bounded (x := (last.toNat : Int) - first.toNat) (y := i) (m := 255) (n := 1023)
    (by omega) (by omega)
  rw [channel] at hbetween ⊢
  rw [Line.channel?]
  split
  · next hzero =>
    rw [show course.major = 0 by omega, Int.natCast_zero, Int.tdiv_zero, Int.add_zero]
    simp (disch := omega) only [Alu.byte_fit, Option.bind_eq_bind, Option.bind_some]
  · next hne =>
    simp (disch := omega) only [Alu.sub, Alu.mul, Alu.add, Alu.div_eq hne, Alu.s64_fit,
      Alu.byte_fit, Option.bind_eq_bind, Option.bind_some]

/-! ### The error -/

/-- The lead is a difference of two areas, neither of them larger than that of the longest line. -/
theorem lead_between (hwidth : course.dx.natAbs ≤ 1023) (hheight : course.dy.natAbs ≤ 511)
    (hi : i ≤ course.major) : -524288 ≤ course.lead i ∧ course.lead i ≤ 524288 := by
  have hcolumns := columns_le hi
  have hrows := rows_le hi
  have hfirst := mul_bounded (x := (course.rows i + 1 : Int)) (y := course.dx.natAbs) (m := 512)
    (n := 1023) (by omega) (by omega)
  have hsecond : 0 ≤ (course.columns i + 1 : Int) * course.dy.natAbs := by positivity
  have hthird : 0 ≤ (course.rows i + 1 : Int) * course.dx.natAbs := by positivity
  have hfourth := mul_bounded (x := (course.columns i + 1 : Int)) (y := course.dy.natAbs)
    (m := 1024) (n := 511) (by omega) (by omega)
  rw [lead]
  omega

/-! ### Steps -/

/-- The course is not too long to be drawn. -/
structure IsDrawn (course : Course) : Prop where
  start : course.start.IsNear
  width : course.dx.natAbs ≤ 1023
  height : course.dy.natAbs ≤ 511

theorem IsDrawn.pointAt_between (h : course.IsDrawn) (hi : i ≤ course.major) :
    (-3071 ≤ (course.pointAt i).x ∧ (course.pointAt i).x ≤ 3069) ∧
      -2559 ≤ (course.pointAt i).y ∧ (course.pointAt i).y ≤ 2557 := by
  have hwidth := h.width
  have hheight := h.height
  have hstartX := h.start.x
  have hstartY := h.start.y
  have hx := add_sign_mul_between (x := course.start.x) (columns_le hi) hwidth
  have hy := add_sign_mul_between (x := course.start.y) (rows_le hi) hheight
  simp only [pointAt]
  omega

/-- One cell further in the direction of the end. -/
theorem sign_mul_succ {d : Int} {k : Nat} (hk : k + 1 ≤ d.natAbs) :
    d.sign * k + Segment.direction d = d.sign * (k + 1 : Nat) := by
  rcases lt_trichotomy d 0 with hneg | rfl | hpos
  · rw [Int.sign_eq_neg_one_of_neg hneg, Segment.direction, if_neg (by omega)]
    omega
  · exact absurd hk (by simp)
  · rw [Int.sign_eq_one_of_pos hpos, Segment.direction, if_pos hpos.le]
    omega

/-- **Everywhere on the line a step can be computed**, at its end as well. -/
theorem IsDrawn.move?_eq (h : course.IsDrawn) (hi : i ≤ course.major) :
    Line.move? course.dx course.dy course.dx.natAbs (-course.dy.natAbs) (course.lead i)
        (course.pointAt i) =
      some (course.lead i +
          (if -(course.dy.natAbs : Int) ≤ 2 * course.lead i then -(course.dy.natAbs : Int) else 0) +
          (if 2 * course.lead i ≤ course.dx.natAbs then (course.dx.natAbs : Int) else 0),
        ⟨(course.pointAt i).x +
            (if -(course.dy.natAbs : Int) ≤ 2 * course.lead i then Segment.direction course.dx
              else 0),
          (course.pointAt i).y +
            if 2 * course.lead i ≤ course.dx.natAbs then Segment.direction course.dy else 0⟩) := by
  have hwidth := h.width
  have hheight := h.height
  have hlead := lead_between hwidth hheight hi
  obtain ⟨hx, hy⟩ := h.pointAt_between hi
  have hcolumn := Segment.direction_between course.dx
  have hrow := Segment.direction_between course.dy
  have htwice : s32.mul 2 (course.lead i) = some (2 * course.lead i) := by
    rw [Alu.mul, Alu.s32_fit (by omega) (by omega)]
  simp only [Line.move?, htwice, Option.bind_eq_bind, Option.bind_some]
  rw [Line.axis?_eq _ (by omega) hcolumn (by omega) (by omega), Option.bind_some]
  dsimp only
  rw [Line.axis?_eq _ (by omega) hrow (by split <;> omega) (by omega), Option.bind_some]
  simp only [decide_eq_true_eq, Option.pure_def]

/-- Before the end it comes to the next place. -/
theorem IsDrawn.move?_eq_succ (h : course.IsDrawn) (hi : i < course.major) :
    Line.move? course.dx course.dy course.dx.natAbs (-course.dy.natAbs) (course.lead i)
        (course.pointAt i) = some (course.lead (i + 1), course.pointAt (i + 1)) := by
  obtain ⟨hcolumns, hrows⟩ := lead_step hi
  have hx : (course.pointAt i).x +
      (if -(course.dy.natAbs : Int) ≤ 2 * course.lead i then Segment.direction course.dx else 0) =
        (course.pointAt (i + 1)).x := by
    have hle := columns_le (show i + 1 ≤ course.major from hi)
    simp only [pointAt, hcolumns] at hle ⊢
    split_ifs at hle ⊢
    · rw [add_assoc, sign_mul_succ hle]
    · simp
  have hy : (course.pointAt i).y +
      (if 2 * course.lead i ≤ course.dx.natAbs then Segment.direction course.dy else 0) =
        (course.pointAt (i + 1)).y := by
    have hle := rows_le (show i + 1 ≤ course.major from hi)
    simp only [pointAt, hrows] at hle ⊢
    split_ifs at hle ⊢
    · rw [add_assoc, sign_mul_succ hle]
    · simp
  rw [h.move?_eq hi.le, hx, hy, ← lead_succ hi]

/-! ### What is laid down -/

/-- Lays down the place after `i` steps, if it is in the drawing area. -/
def lay (course : Course) (line : Line) (area : DrawingArea) (pen : Pen) (vram : Vram) (i : Nat) :
    Vram :=
  if area.contains (course.pointAt i).x (course.pointAt i).y then
    pen.shade ⟨none, line.translucent⟩ vram (course.fragment line.startColor line.stopColor i)
  else vram

theorem foldl_lay (course : Course) (line : Line) (area : DrawingArea) (pen : Pen) (vram : Vram) :
    (List.range (course.major + 1)).foldl (course.lay line area pen) vram =
      (course.visible area line.startColor line.stopColor).foldl
        (pen.shade ⟨none, line.translucent⟩) vram := by
  rw [visible, List.foldl_map, List.foldl_filter]
  rfl

theorem IsDrawn.major_le (h : course.IsDrawn) : course.major ≤ 1023 :=
  max_le h.width (h.height.trans (by decide))

theorem IsDrawn.plot?_eq (h : course.IsDrawn) (hi : i ≤ course.major) (line : Line)
    (area : DrawingArea) (pen : Pen) (vram : Vram) :
    line.plot? area pen course.major vram (course.pointAt i) i =
      some (course.lay line area pen vram i) := by
  rw [Line.plot?, lay]
  split
  · simp only [channel?_eq h.major_le hi, Option.bind_eq_bind, Option.bind_some, Option.pure_def]
    rfl
  · rfl

/-- **A line is drawn without an overflow**, place after place. -/
theorem IsDrawn.foldlM_step? (h : course.IsDrawn) (line : Line) (area : DrawingArea) (pen : Pen)
    (vram : Vram) :
    ∃ last : Line.Pencil,
      (List.range (course.major + 1)).foldlM (line.step? area pen course.dx course.dy
        course.dx.natAbs (-course.dy.natAbs) course.major) ⟨vram, course.lead 0, course.start⟩ =
          some last ∧
      last.vram = (course.visible area line.startColor line.stopColor).foldl
        (pen.shade ⟨none, line.translucent⟩) vram := by
  let drawn : Nat → Vram := fun n => (List.range n).foldl (course.lay line area pen) vram
  let pencil : Nat → Line.Pencil := fun i => ⟨drawn i, course.lead i, course.pointAt i⟩
  have hsucc : ∀ n, drawn (n + 1) = course.lay line area pen (drawn n) n := by
    intro n
    simp only [drawn, List.range_succ, List.foldl_append, List.foldl_cons, List.foldl_nil]
  have hfirst : pencil 0 = ⟨vram, course.lead 0, course.start⟩ := by
    simp only [pencil, pointAt_zero]
    rfl
  have hbefore : (List.range course.major).foldlM (line.step? area pen course.dx course.dy
      course.dx.natAbs (-course.dy.natAbs) course.major) (pencil 0) = some (pencil course.major) :=
    foldlM_range_eq_some pencil fun i hi => by
      simp only [Line.step?, pencil, h.plot?_eq hi.le, h.move?_eq_succ hi, hsucc,
        Option.bind_eq_bind, Option.bind_some, Option.pure_def]
  -- After the last place the pencil moves on once more, but nothing is drawn there.
  obtain ⟨last, hlast, hvram⟩ : ∃ last, line.step? area pen course.dx course.dy course.dx.natAbs
      (-course.dy.natAbs) course.major (pencil course.major) course.major = some last ∧
        last.vram = drawn (course.major + 1) := by
    simp only [Line.step?, pencil, h.plot?_eq le_rfl, h.move?_eq le_rfl, hsucc, Option.bind_eq_bind,
      Option.bind_some, Option.pure_def]
    exact ⟨_, rfl, rfl⟩
  refine ⟨last, ?_, hvram.trans (course.foldl_lay line area pen vram)⟩
  rw [← hfirst, List.range_succ, List.foldlM_append, hbefore, Option.bind_eq_bind,
    Option.bind_some, List.foldlM_cons, hlast]
  rfl

theorem drawBetween?_eq (hstart : course.start.IsNear) (hstop : course.stop.IsNear) (line : Line)
    (area : DrawingArea) (pen : Pen) (vram : Vram) :
    line.drawBetween? area pen course.start course.stop vram =
      some (if course.dx.natAbs ≤ 1023 ∧ course.dy.natAbs ≤ 511 then
        (course.visible area line.startColor line.stopColor).foldl
          (pen.shade ⟨none, line.translucent⟩) vram
      else vram) := by
  have hdx : -4094 ≤ course.dx ∧ course.dx ≤ 4094 := by
    have hstartX := hstart.x
    have hstopX := hstop.x
    rw [dx]
    omega
  have hdy : -4094 ≤ course.dy ∧ course.dy ≤ 4094 := by
    have hstartY := hstart.y
    have hstopY := hstop.y
    rw [dy]
    omega
  have hwidth : s32.sub course.stop.x course.start.x = some course.dx :=
    Alu.s32_fit (x := course.dx) (by omega) (by omega)
  have hheight : s32.sub course.stop.y course.start.y = some course.dy :=
    Alu.s32_fit (x := course.dy) (by omega) (by omega)
  have hlong : s32.abs course.dx = some (course.dx.natAbs : Int) :=
    Alu.s32_fit (by omega) (by omega)
  have hhigh : s32.abs course.dy = some (course.dy.natAbs : Int) :=
    Alu.s32_fit (by omega) (by omega)
  simp only [Line.drawBetween?, hwidth, hheight, hlong, hhigh, Option.bind_eq_bind,
    Option.bind_some, Option.pure_def]
  by_cases hfits : course.dx.natAbs ≤ 1023 ∧ course.dy.natAbs ≤ 511
  · have hshort : s32.neg (course.dy.natAbs : Int) = some (-course.dy.natAbs : Int) :=
      Alu.s32_fit (by omega) (by omega)
    have herror : s32.add (course.dx.natAbs : Int) (-course.dy.natAbs) = some (course.lead 0) := by
      rw [lead_zero]
      exact Alu.s32_fit (by omega) (by omega)
    have hsteps : max (course.dx.natAbs : Int) course.dy.natAbs = course.major := by
      rw [major, Nat.cast_max]
    obtain ⟨last, hlast, hvram⟩ :=
      IsDrawn.foldlM_step? ⟨hstart, hfits.1, hfits.2⟩ line area pen vram
    rw [if_pos hfits, if_neg (by omega), hshort, Option.bind_some, herror, Option.bind_some, hsteps,
      Int.toNat_natCast, hlast, Option.bind_some, hvram]
  · rw [if_neg hfits, if_pos (by omega)]

end Course

/-! ### The whole line -/

theorem Segment.fits_ofLine_iff {line : Line} {environment : Environment}
    (hline : Job.Sized (.line line)) (henvironment : environment.InRange) :
    (ofLine line environment.offset).fits = true ↔
      (Course.ofLine line environment.offset).dx.natAbs ≤ 1023 ∧
        (Course.ofLine line environment.offset).dy.natAbs ≤ 511 := by
  refine ⟨Course.extents_le_of_fits hline henvironment, fun ⟨hwidth, hheight⟩ => ?_⟩
  obtain ⟨hdx, hdy⟩ := Course.extents_ofLine hwidth hheight
  rw [fits, hdx, hdy, decide_eq_true hwidth, decide_eq_true hheight]
  rfl

theorem Line.draw?_eq {line : Line} {environment : Environment} (hline : Job.Sized (.line line))
    (henvironment : environment.InRange) (pen : Pen) (vram : Vram) :
    line.draw? environment pen vram =
      some (((Segment.ofLine line environment.offset).scan environment.area).paint pen
        ⟨none, line.translucent⟩ vram) := by
  obtain ⟨hstart, hstop⟩ := hline
  have hnearStart : (Course.ofLine line environment.offset).start.IsNear :=
    Vertex.isNear_offset hstart henvironment
  have hnearStop : (Course.ofLine line environment.offset).stop.IsNear :=
    Vertex.isNear_offset hstop henvironment
  rw [draw?, Vertex.offset?_eq hstart henvironment, Vertex.offset?_eq hstop henvironment]
  refine (Course.drawBetween?_eq hnearStart hnearStop line environment.area pen vram).trans
    (congrArg some ?_)
  rw [Scan.paint_eq_foldl, Segment.fragments_scan]
  by_cases hfits : (Course.ofLine line environment.offset).dx.natAbs ≤ 1023 ∧
      (Course.ofLine line environment.offset).dy.natAbs ≤ 511
  · rw [if_pos hfits, if_pos ((Segment.fits_ofLine_iff ⟨hstart, hstop⟩ henvironment).2 hfits),
      Course.fragments_eq hfits.1 hfits.2]
  · rw [if_neg hfits, if_neg (mt (Segment.fits_ofLine_iff ⟨hstart, hstop⟩ henvironment).1 hfits)]
    rfl

end ConsoleVideo
