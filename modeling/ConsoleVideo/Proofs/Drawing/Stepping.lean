import ConsoleVideo.Gpu.Basic
import Mathlib.Data.List.Basic
import Mathlib.Tactic.Linarith
import Mathlib.Tactic.Ring

/-!
# Lines step by step

A line is walked from one end to the other with additions only: an error says how far one axis is ahead
of the other, and two tests of it, which do not exclude each other, say what moves.  Here the places of
the walk are said at once: along its longer axis a line moves one cell at every step, and along the
shorter one it is at the cell nearest to the straight line, the further one of two.

* `rise` — how far a line has come along its shorter axis;
* `Course` — the way from one vertex to another; `Course.pointAt` — where it is after so many steps;
* `Course.lead` — the error there, with `lead_step`: its tests tell the steps of both axes;
* `Course.walk_eq` — hence the walk comes to these places, one after the other;
* `Course.channel` — a channel on the way, between the channels of the ends;
* `Course.fragments_eq` — the fragments of a line;
* `Gpu.run_line_along` — what a line draws, and in which colours.
-/

namespace ConsoleVideo

/-! ### The shorter axis -/

/-- How far a line has come along its shorter axis after `i` steps along the longer one: the number
nearest to `i * minor / major`, the larger one of two. -/
def rise (major minor i : Nat) : Nat :=
  (2 * i * minor + major) / (2 * major)

section Rise

variable {major minor : Nat}

theorem rise_le_and_lt (hpos : 0 < major) (minor i : Nat) :
    2 * major * rise major minor i ≤ 2 * i * minor + major ∧
      2 * i * minor + major < 2 * major * (rise major minor i + 1) :=
  ⟨Nat.mul_div_le _ _, Nat.lt_mul_div_succ _ (by omega)⟩

theorem rise_zero (major minor : Nat) : rise major minor 0 = 0 := by
  rw [rise]
  rcases Nat.eq_zero_or_pos major with rfl | hpos
  · simp
  · exact Nat.div_eq_of_lt (by omega)

/-- A line ends where it should. -/
theorem rise_major (hle : minor ≤ major) : rise major minor major = minor := by
  rcases Nat.eq_zero_or_pos major with rfl | hpos
  · rw [rise_zero]
    omega
  · refine Nat.div_eq_of_lt_le ?_ ?_ <;> linarith

theorem rise_mono {i j : Nat} (h : i ≤ j) : rise major minor i ≤ rise major minor j := by
  have hproduct : 2 * i * minor ≤ 2 * j * minor :=
    Nat.mul_le_mul_right minor (Nat.mul_le_mul_left 2 h)
  exact Nat.div_le_div_right (Nat.add_le_add_right hproduct major)

/-- The shorter axis moves where the straight line has come at least half of the way to the next
cell. -/
theorem rise_succ (hpos : 0 < major) (hle : minor ≤ major) (i : Nat) :
    rise major minor (i + 1) = rise major minor i +
      if (2 * rise major minor i + 1) * major ≤ 2 * (i + 1) * minor then 1 else 0 := by
  obtain ⟨hlow, hhigh⟩ := rise_le_and_lt hpos minor i
  split
  · next hhalf => refine Nat.div_eq_of_lt_le ?_ ?_ <;> linarith
  · next hhalf =>
    rw [Nat.not_le] at hhalf
    refine Nat.div_eq_of_lt_le ?_ ?_ <;> linarith

end Rise

/-! ### The way from one vertex to another -/

/-- The way from one vertex to another. -/
structure Course where
  start : Vertex
  stop : Vertex
  deriving DecidableEq

namespace Course

/-- The way of a line, which the drawing offset has moved. -/
def ofLine (line : Line) (offset : DrawOffset) : Course where
  start := line.start.offset offset.x offset.y
  stop := line.stop.offset offset.x offset.y

def dx (course : Course) : Int :=
  course.stop.x - course.start.x

def dy (course : Course) : Int :=
  course.stop.y - course.start.y

/-- The extent along the longer axis. -/
def major (course : Course) : Nat :=
  max course.dx.natAbs course.dy.natAbs

/-- The extent along the shorter axis. -/
def minor (course : Course) : Nat :=
  min course.dx.natAbs course.dy.natAbs

/-- The longer axis is that of the columns. -/
def IsWide (course : Course) : Prop :=
  course.dy.natAbs ≤ course.dx.natAbs

instance (course : Course) : Decidable course.IsWide :=
  inferInstanceAs (Decidable (_ ≤ _))

/-- How many columns `i` steps have gone through. -/
def columns (course : Course) (i : Nat) : Nat :=
  if course.IsWide then i else rise course.major course.minor i

/-- How many rows `i` steps have gone through. -/
def rows (course : Course) (i : Nat) : Nat :=
  if course.IsWide then rise course.major course.minor i else i

/-- The place after `i` steps. -/
def pointAt (course : Course) (i : Nat) : Vertex where
  x := course.start.x + course.dx.sign * course.columns i
  y := course.start.y + course.dy.sign * course.rows i

/-- By how much the columns lead over the rows after `i` steps, and one step more. -/
def lead (course : Course) (i : Nat) : Int :=
  (course.rows i + 1) * course.dx.natAbs - (course.columns i + 1) * course.dy.natAbs

variable {course : Course} {i j : Nat}

theorem minor_le_major (course : Course) : course.minor ≤ course.major :=
  min_le_max

theorem extents_of_isWide (h : course.IsWide) :
    course.dx.natAbs = course.major ∧ course.dy.natAbs = course.minor :=
  ⟨(max_eq_left h).symm, (min_eq_right h).symm⟩

theorem extents_of_not_isWide (h : ¬ course.IsWide) :
    course.dx.natAbs = course.minor ∧ course.dy.natAbs = course.major :=
  ⟨(min_eq_left (Nat.le_of_not_le h)).symm, (max_eq_right (Nat.le_of_not_le h)).symm⟩

theorem columns_zero (course : Course) : course.columns 0 = 0 := by
  rw [columns, rise_zero, ite_self]

theorem rows_zero (course : Course) : course.rows 0 = 0 := by
  rw [rows, rise_zero, ite_self]

theorem columns_major (course : Course) : course.columns course.major = course.dx.natAbs := by
  rw [columns]
  split
  · next h => exact (extents_of_isWide h).1.symm
  · next h => rw [rise_major course.minor_le_major, (extents_of_not_isWide h).1]

theorem rows_major (course : Course) : course.rows course.major = course.dy.natAbs := by
  rw [rows]
  split
  · next h => rw [rise_major course.minor_le_major, (extents_of_isWide h).2]
  · next h => exact (extents_of_not_isWide h).2.symm

theorem columns_mono (h : i ≤ j) : course.columns i ≤ course.columns j := by
  rw [columns, columns]
  split
  · exact h
  · exact rise_mono h

theorem rows_mono (h : i ≤ j) : course.rows i ≤ course.rows j := by
  rw [rows, rows]
  split
  · exact rise_mono h
  · exact h

theorem columns_le (h : i ≤ course.major) : course.columns i ≤ course.dx.natAbs :=
  (columns_mono h).trans_eq course.columns_major

theorem rows_le (h : i ≤ course.major) : course.rows i ≤ course.dy.natAbs :=
  (rows_mono h).trans_eq course.rows_major

/-- **The tests of the error tell which axes move**: the longer one always, and the shorter one where
it should. -/
theorem lead_step (h : i < course.major) :
    (course.columns (i + 1) = course.columns i +
        if -(course.dy.natAbs : Int) ≤ 2 * course.lead i then 1 else 0) ∧
      course.rows (i + 1) = course.rows i +
        if 2 * course.lead i ≤ course.dx.natAbs then 1 else 0 := by
  have hpos : 0 < course.major := Nat.zero_lt_of_lt h
  have hle := course.minor_le_major
  obtain ⟨hlow, hhigh⟩ := rise_le_and_lt hpos course.minor i
  zify at hlow hhigh hle
  by_cases hwide : course.IsWide
  · obtain ⟨hx, hy⟩ := extents_of_isWide hwide
    simp only [lead, columns, rows, if_pos hwide, hx, hy]
    constructor
    · rw [if_pos (by linarith)]
    · rw [rise_succ hpos course.minor_le_major]
      congr 1
      refine if_congr ?_ rfl rfl
      zify
      constructor <;> intro hhalf <;> linarith
  · obtain ⟨hx, hy⟩ := extents_of_not_isWide hwide
    simp only [lead, columns, rows, if_neg hwide, hx, hy]
    constructor
    · rw [rise_succ hpos course.minor_le_major]
      congr 1
      refine if_congr ?_ rfl rfl
      zify
      constructor <;> intro hhalf <;> linarith
    · rw [if_pos (by linarith)]

theorem lead_zero (course : Course) :
    course.lead 0 = course.dx.natAbs - course.dy.natAbs := by
  simp [lead, columns_zero, rows_zero]

/-- The error is kept up by adding and subtracting the extents. -/
theorem lead_succ (h : i < course.major) :
    course.lead (i + 1) = course.lead i +
        (if -(course.dy.natAbs : Int) ≤ 2 * course.lead i then -(course.dy.natAbs : Int) else 0) +
      if 2 * course.lead i ≤ course.dx.natAbs then (course.dx.natAbs : Int) else 0 := by
  obtain ⟨hx, hy⟩ := lead_step h
  have hlead : course.lead (i + 1) =
      (course.rows (i + 1) + 1) * course.dx.natAbs -
        (course.columns (i + 1) + 1) * course.dy.natAbs := rfl
  rw [hlead, hx, hy]
  generalize hsame : course.lead i = lead
  rw [Course.lead] at hsame
  split_ifs <;> simp only [Nat.cast_add, Nat.cast_one, Nat.cast_zero] <;> linarith

/-! ### The walk -/

/-- Both ends are in the range of the coordinate adders. -/
structure IsStored (course : Course) : Prop where
  startX : -2147483648 ≤ course.start.x ∧ course.start.x ≤ 2147483647
  startY : -2147483648 ≤ course.start.y ∧ course.start.y ≤ 2147483647
  stopX : -2147483648 ≤ course.stop.x ∧ course.stop.x ≤ 2147483647
  stopY : -2147483648 ≤ course.stop.y ∧ course.stop.y ≤ 2147483647

theorem isStored_ofLine (line : Line) (offset : DrawOffset) : (ofLine line offset).IsStored where
  startX := wrap32_range _
  startY := wrap32_range _
  stopX := wrap32_range _
  stopY := wrap32_range _

/-- One cell further towards the end. -/
theorem wrap32_add_direction {x d : Int} {k : Nat} (hk : k + 1 ≤ d.natAbs)
    (hstart : -2147483648 ≤ x ∧ x ≤ 2147483647)
    (hstop : -2147483648 ≤ x + d ∧ x + d ≤ 2147483647) :
    wrap32 (x + d.sign * k + Segment.direction d) = x + d.sign * (k + 1 : Nat) := by
  rcases lt_trichotomy d 0 with hneg | rfl | hpos
  · rw [Int.sign_eq_neg_one_of_neg hneg, Segment.direction, if_neg (by omega),
      wrap32_of_range (by omega) (by omega)]
    omega
  · exact absurd hk (by simp)
  · rw [Int.sign_eq_one_of_pos hpos, Segment.direction, if_pos hpos.le,
      wrap32_of_range (by omega) (by omega)]
    omega

/-- **The walk comes to every place of the way**, one after the other. -/
theorem walk_eq {segment : Segment} (hstored : course.IsStored) (hdx : segment.dx = course.dx)
    (hdy : segment.dy = course.dy) {n i : Nat} (h : i + n = course.major) :
    segment.walk n (course.lead i) (course.pointAt i) =
      (List.range' i (n + 1)).map course.pointAt := by
  induction n generalizing i with
  | zero => rfl
  | succ n ih =>
    have hi : i < course.major := by omega
    obtain ⟨hcolumns, hrows⟩ := lead_step hi
    have hx : (if -(course.dy.natAbs : Int) ≤ 2 * course.lead i then
        wrap32 ((course.pointAt i).x + Segment.direction course.dx) else (course.pointAt i).x) =
          (course.pointAt (i + 1)).x := by
      have hle := columns_le (show i + 1 ≤ course.major from hi)
      simp only [pointAt, hcolumns] at hle ⊢
      split_ifs at hle ⊢
      · exact wrap32_add_direction hle hstored.startX (by simpa [dx] using hstored.stopX)
      · rfl
    have hy : (if 2 * course.lead i ≤ course.dx.natAbs then
        wrap32 ((course.pointAt i).y + Segment.direction course.dy) else (course.pointAt i).y) =
          (course.pointAt (i + 1)).y := by
      have hle := rows_le (show i + 1 ≤ course.major from hi)
      simp only [pointAt, hrows] at hle ⊢
      split_ifs at hle ⊢
      · exact wrap32_add_direction hle hstored.startY (by simpa [dy] using hstored.stopY)
      · rfl
    have hrest := ih (show i + 1 + n = course.major by omega)
    simp only [Segment.walk, hdx, hdy, decide_eq_true_eq, hx, hy, ← lead_succ hi]
    rw [List.range'_succ, List.map_cons, ← hrest]

variable {line : Line} {offset : DrawOffset}

/-- The extents of a line are those of the way between its ends, if that is not too long. -/
theorem extents_ofLine (hwidth : (ofLine line offset).dx.natAbs ≤ 1023)
    (hheight : (ofLine line offset).dy.natAbs ≤ 511) :
    (Segment.ofLine line offset).dx = (ofLine line offset).dx ∧
      (Segment.ofLine line offset).dy = (ofLine line offset).dy := by
  have hdx : (Segment.ofLine line offset).dx = wrap32 (ofLine line offset).dx := rfl
  have hdy : (Segment.ofLine line offset).dy = wrap32 (ofLine line offset).dy := rfl
  rw [hdx, hdy]
  exact ⟨wrap32_of_range (by omega) (by omega), wrap32_of_range (by omega) (by omega)⟩

theorem pointAt_zero (course : Course) : course.pointAt 0 = course.start := by
  simp [pointAt, columns_zero, rows_zero]

theorem pointAt_major (course : Course) : course.pointAt course.major = course.stop := by
  rw [pointAt, columns_major, rows_major, Int.sign_mul_natAbs, Int.sign_mul_natAbs, dx, dy,
    add_sub_cancel, add_sub_cancel]

/-- **A line that is not too long visits the places of the way between its ends**, in their order. -/
theorem points_eq (hwidth : (ofLine line offset).dx.natAbs ≤ 1023)
    (hheight : (ofLine line offset).dy.natAbs ≤ 511) :
    (Segment.ofLine line offset).points =
      (List.range ((ofLine line offset).major + 1)).map (ofLine line offset).pointAt := by
  obtain ⟨hdx, hdy⟩ := extents_ofLine hwidth hheight
  have hwalk := walk_eq (isStored_ofLine line offset) hdx hdy (Nat.zero_add _)
  rw [lead_zero, pointAt_zero] at hwalk
  rw [List.range_eq_range', ← hwalk, Segment.points, Segment.steps, hdx, hdy]
  rfl

/-! ### Colours on the way -/

/-- A channel after `i` steps: as far on the way to the channel of the end, towards that of the start
where it lies between two numbers. -/
def channel (course : Course) (first last : UInt8) (i : Nat) : Int :=
  first.toNat + ((last.toNat - first.toNat : Int) * i).tdiv course.major

theorem channel_zero (course : Course) (first last : UInt8) :
    course.channel first last 0 = first.toNat := by
  simp [channel]

theorem channel_major (hpos : 0 < course.major) (first last : UInt8) :
    course.channel first last course.major = last.toNat := by
  rw [channel, Int.mul_tdiv_cancel _ (by omega)]
  omega

/-- The part of a distance that has been gone does not exceed it. -/
theorem tdiv_between {d : Int} {i n : Nat} (h : i ≤ n) :
    min 0 d ≤ (d * i).tdiv n ∧ (d * i).tdiv n ≤ max 0 d := by
  rcases Nat.eq_zero_or_pos n with rfl | hn
  · simp
  have hpos : (0 : Int) < n := by omega
  have hend : (d * n).tdiv n = d := Int.mul_tdiv_cancel d hpos.ne'
  rcases le_total 0 d with hd | hd
  · have hlow : 0 ≤ (d * i).tdiv n := Int.tdiv_nonneg (mul_nonneg hd (by omega)) hpos.le
    have hhigh : (d * i).tdiv n ≤ (d * n).tdiv n :=
      Int.tdiv_le_tdiv hpos (mul_le_mul_of_nonneg_left (by omega) hd)
    omega
  · have hlow : (d * n).tdiv n ≤ (d * i).tdiv n :=
      Int.tdiv_le_tdiv hpos (mul_le_mul_of_nonpos_left (by omega) hd)
    have hhigh : (d * i).tdiv n ≤ (0 : Int).tdiv n :=
      Int.tdiv_le_tdiv hpos (mul_nonpos_of_nonpos_of_nonneg hd (by omega))
    rw [Int.zero_tdiv] at hhigh
    omega

theorem channel_between (h : i ≤ course.major) (first last : UInt8) :
    min (first.toNat : Int) last.toNat ≤ course.channel first last i ∧
      course.channel first last i ≤ max (first.toNat : Int) last.toNat := by
  have hpart := tdiv_between (d := last.toNat - first.toNat) h
  rw [channel]
  omega

/-! ### What is laid down -/

/-- The fragment after `i` steps. -/
def fragment (course : Course) (first last : Color) (i : Nat) : Fragment where
  x := (course.pointAt i).x
  y := (course.pointAt i).y
  base := Deep.ofChannels (course.channel first.red last.red i).toNat
    (course.channel first.green last.green i).toNat (course.channel first.blue last.blue i).toNat
  u := 0
  v := 0

/-- The fragments of the places in the drawing area. -/
def visible (course : Course) (area : DrawingArea) (first last : Color) : List Fragment :=
  ((List.range (course.major + 1)).filter fun i =>
    area.contains (course.pointAt i).x (course.pointAt i).y).map (course.fragment first last)

theorem channelAt_eq {segment : Segment} (hsteps : segment.steps = course.major)
    (first last : UInt8) (i : Nat) :
    segment.channelAt first last i = (course.channel first last i).toNat := by
  rw [Segment.channelAt, channel, hsteps]
  split
  · next hzero => simp [hzero]
  · rfl

/-- **A line brings the fragments of its visible places**, and no others. -/
theorem fragments_eq (hwidth : (ofLine line offset).dx.natAbs ≤ 1023)
    (hheight : (ofLine line offset).dy.natAbs ≤ 511) (area : DrawingArea) :
    (Segment.ofLine line offset).fragments area =
      (ofLine line offset).visible area line.startColor line.stopColor := by
  obtain ⟨hdx, hdy⟩ := extents_ofLine hwidth hheight
  have hsteps : (Segment.ofLine line offset).steps = (ofLine line offset).major := by
    rw [Segment.steps, hdx, hdy]
    rfl
  have hindexed : ∀ (f : Nat → Vertex) (n : Nat),
      ((List.range n).map f).zipIdx = (List.range n).map fun i => (f i, i) := by
    intro f n
    apply List.ext_getElem <;> simp
  rw [Segment.fragments, points_eq hwidth hheight, hindexed, List.filterMap_map, visible,
    ← List.filterMap_eq_map, List.filterMap_filter]
  refine List.filterMap_congr fun i _ => ?_
  simp only [Function.comp_apply, fragment, Segment.colorAt, channelAt_eq hsteps]
  rfl

end Course

namespace Segment

/-- Lines that are too long have no fragments. -/
theorem fragments_scan (segment : Segment) (area : DrawingArea) :
    (segment.scan area).fragments = if segment.fits then segment.fragments area else [] := by
  rw [scan, Scan.fragments]
  split <;> simp

end Segment

namespace Gpu

/-- **A line between ends that are not too far apart** has a place for every step along its longer axis,
from the one end to the other.  Along the shorter axis each of them is the nearest to the straight line.
Those in the drawing area, and no others, are laid down in their order, in colours between the colours
of the ends, and in these at the ends themselves; a line that starts where it ends has the first. -/
theorem run_line_along {gpu : Gpu} {line : Line}
    (hwidth : (Course.ofLine line gpu.environment.offset).dx.natAbs ≤ 1023)
    (hheight : (Course.ofLine line gpu.environment.offset).dy.natAbs ≤ 511) :
    let course := Course.ofLine line gpu.environment.offset
    (Segment.ofLine line gpu.environment.offset).points =
        (List.range (course.major + 1)).map course.pointAt ∧
      course.pointAt 0 = course.start ∧ course.pointAt course.major = course.stop ∧
      gpu.run (.line line) =
        { gpu with
          vram := (course.visible gpu.environment.area line.startColor line.stopColor).foldl
            ((Pen.ofSettings gpu.status gpu.environment).shade ⟨none, line.translucent⟩) gpu.vram } ∧
      ∀ first last : UInt8,
        (∀ i ≤ course.major, min (first.toNat : Int) last.toNat ≤ course.channel first last i ∧
          course.channel first last i ≤ max (first.toNat : Int) last.toNat) ∧
        course.channel first last 0 = first.toNat ∧
        (course.start ≠ course.stop → course.channel first last course.major = last.toNat) := by
  intro course
  obtain ⟨hdx, hdy⟩ := Course.extents_ofLine hwidth hheight
  have hfits : (Segment.ofLine line gpu.environment.offset).fits = true := by
    rw [Segment.fits, hdx, hdy, decide_eq_true hwidth, decide_eq_true hheight]
    rfl
  refine ⟨Course.points_eq hwidth hheight, course.pointAt_zero, course.pointAt_major, ?_,
    fun first last => ⟨fun i hi => Course.channel_between hi first last,
      course.channel_zero first last, fun hne => ?_⟩⟩
  · rw [run, runLine, Scan.paint_eq_foldl, Segment.fragments_scan, if_pos hfits,
      Course.fragments_eq hwidth hheight]
  · refine Course.channel_major (Nat.pos_of_ne_zero fun hzero => hne ?_) first last
    have hends := course.pointAt_major
    rw [hzero, course.pointAt_zero] at hends
    exact hends

/-- A translucent line that runs down steeply and to the left, from above the drawing area.  In its
fifth place it is just between two columns. -/
theorem run_line_along_steep :
    let line : Line := ⟨⟨5, -2⟩, ⟨2, 6⟩, ⟨0, 100, 255⟩, ⟨200, 0, 255⟩, true⟩
    let course := Course.ofLine line powerOn.environment.offset
    course.dx.natAbs ≤ 1023 ∧ course.dy.natAbs ≤ 511 ∧
      (Segment.ofLine line powerOn.environment.offset).points =
        [⟨5, -2⟩, ⟨5, -1⟩, ⟨4, 0⟩, ⟨4, 1⟩, ⟨3, 2⟩, ⟨3, 3⟩, ⟨3, 4⟩, ⟨2, 5⟩, ⟨2, 6⟩] ∧
      powerOn.run (.line line) =
        { powerOn with
          vram := (course.visible powerOn.environment.area ⟨0, 100, 255⟩ ⟨200, 0, 255⟩).foldl
            ((Pen.ofSettings powerOn.status powerOn.environment).shade ⟨none, true⟩) powerOn.vram } ∧
      (course.visible powerOn.environment.area ⟨0, 100, 255⟩ ⟨200, 0, 255⟩).length = 7 ∧
      course.channel 100 0 course.major = 0 := by
  intro line course
  have hwidth : course.dx.natAbs ≤ 1023 := by decide
  have hheight : course.dy.natAbs ≤ 511 := by decide
  obtain ⟨hpoints, -, -, hrun, hchannel⟩ := @run_line_along powerOn line hwidth hheight
  exact ⟨hwidth, hheight, hpoints.trans (by decide), hrun, by decide,
    (hchannel 100 0).2.2 (by decide)⟩

end Gpu

end ConsoleVideo
