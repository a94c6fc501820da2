import ConsoleVideo.Proofs.Command.Framing
import ConsoleVideo.Proofs.Command.Operands

/-!
# How commands are spelled

What is drawn can be written down in words: an opcode with a first colour, then positions, colours,
texture words and sizes in an order that the opcode bits select.  The decoder undoes this, whatever
the bits hold that no field takes up.

* `Writer`, `spelled` — the fields of words, written over words that may hold anything;
* `Command.ofOpcode?_polygon` and its like — the opcode table by the fields of a first word;
* `Polygon.layout`, `Line.layout`, `Rectangle.layout`, `Fill.layout`, `VramCopy.layout`,
  `ImageLoad.layout` — the words of each command, with what is read out of them;
* `Spelling` — a job together with the form in which it is written down;
* `Spelling.pushAll_words` — the last word of a spelling is answered with its job, the others with
  nothing.
-/

namespace ConsoleVideo

/-! ### Words over words -/

/-- Writes the fields of a word and leaves its other bits as they are. -/
abbrev Writer := Word → Word

/-- Words that are written, one after the other, over words which may hold anything. -/
def spelled (layout : List Writer) (noise : Nat → Word) : List Word :=
  layout.mapIdx fun i write => write (noise i)

@[simp] theorem length_spelled (layout : List Writer) (noise : Nat → Word) :
    (spelled layout noise).length = layout.length :=
  List.length_mapIdx

@[simp] theorem spelled_nil (noise : Nat → Word) : spelled [] noise = [] := rfl

@[simp] theorem spelled_cons (write : Writer) (layout : List Writer) (noise : Nat → Word) :
    spelled (write :: layout) noise =
      write (noise 0) :: spelled layout fun i => noise (i + 1) :=
  List.mapIdx_cons

theorem head?_spelled (write : Writer) (layout : List Writer) (noise : Nat → Word) :
    (spelled (write :: layout) noise).head? = some (write (noise 0)) := by
  rw [spelled_cons, List.head?_cons]

/-! ### Opcodes -/

namespace Command

theorem opcode_div (w : Word) : opcode w / 32 = w.field 29 3 := by
  have hsmall := w.toNat_lt
  simp only [opcode, Word.field, Nat.pow_eq]
  omega

theorem opcode_side (w : Word) : opcode w / 8 % 4 = w.field 27 2 := by
  simp only [opcode, Word.field, Nat.pow_eq]
  omega

theorem testBit_opcode (w : Word) {i : Nat} (h : i < 8) :
    (opcode w).testBit i = w.bit (24 + i) := by
  rw [opcode, Word.testBit_field, decide_eq_true h, Bool.true_and]

variable {w : Word}

theorem ofOpcode?_polygon (h : w.field 29 3 = 1) :
    ofOpcode? (opcode w) =
      some (.polygon ⟨w.bit 28, w.bit 27, w.bit 26, w.bit 25, w.bit 24⟩) := by
  rw [ofOpcode?, opcode_div, h]
  simp only [testBit_opcode w (show 4 < 8 by decide), testBit_opcode w (show 3 < 8 by decide),
    testBit_opcode w (show 2 < 8 by decide), testBit_opcode w (show 1 < 8 by decide),
    testBit_opcode w (show 0 < 8 by decide)]

theorem ofOpcode?_line (h : w.field 29 3 = 2) (hsingle : w.bit 27 = false) :
    ofOpcode? (opcode w) = some (.line (w.bit 28) (w.bit 25)) := by
  rw [ofOpcode?, opcode_div, h]
  simp only [testBit_opcode w (show 4 < 8 by decide), testBit_opcode w (show 3 < 8 by decide),
    testBit_opcode w (show 1 < 8 by decide), hsingle]
  rfl

theorem ofOpcode?_rectangle (h : w.field 29 3 = 3) :
    ofOpcode? (opcode w) =
      some (.rectangle ⟨side? (opcode w), w.bit 26, w.bit 25, w.bit 24⟩) := by
  rw [ofOpcode?, opcode_div, h]
  simp only [testBit_opcode w (show 2 < 8 by decide), testBit_opcode w (show 1 < 8 by decide),
    testBit_opcode w (show 0 < 8 by decide)]

theorem ofOpcode?_copy (h : w.field 29 3 = 4) : ofOpcode? (opcode w) = some .copy := by
  rw [ofOpcode?, opcode_div, h]
  rfl

theorem ofOpcode?_upload (h : w.field 29 3 = 5) : ofOpcode? (opcode w) = some .upload := by
  rw [ofOpcode?, opcode_div, h]
  rfl

end Command

/-! ### First words -/

/-- The opcode bit that asks for raw texels, which says something only where there is a texture. -/
def putRaw (raw : Option Bool) (w : Word) : Word :=
  match raw with
  | none => w
  | some raw => w.withBit 24 raw

/-- A first word: a colour, the bit for raw texels, and opcode bits that are written already. -/
def putFirst (color : Color) (raw : Option Bool) (w : Word) : Word :=
  color.put (putRaw raw w)

section First

variable (color : Color) (raw : Option Bool) (w : Word)

theorem ofWord_putFirst : Color.ofWord (putFirst color raw w) = color :=
  color.ofWord_put _

theorem field_putFirst {lo width : Nat} (hlo : 25 ≤ lo) (h : lo + width ≤ 32) :
    (putFirst color raw w).field lo width = w.field lo width := by
  rw [putFirst, color.field_put _ (by omega) h]
  cases raw with
  | none => rfl
  | some raw => exact Word.field_withBit_of_ne w 24 raw h (.inl hlo)

theorem bit_putFirst {k : Nat} (hk : 25 ≤ k ∧ k < 32) :
    (putFirst color raw w).bit k = w.bit k := by
  rw [putFirst, color.bit_put _ ⟨by omega, hk.2⟩]
  cases raw with
  | none => rfl
  | some raw => exact (Word.bit_withBit w hk.2 24 raw).trans (if_neg (by omega))

theorem bit_putFirst_raw (raw : Bool) : (putFirst color (some raw) w).bit 24 = raw := by
  rw [putFirst, color.bit_put _ (by decide)]
  exact (Word.bit_withBit w (by decide) 24 raw).trans (if_pos rfl)

end First

/-- **A command of the right length is answered with what its builder makes of it.** -/
theorem Decoder.pushAll_of_build? {command : Command} {words : List Word} {w : Word} {job : Job}
    (hhead : words.head? = some w) (hcommand : Command.ofOpcode? (Command.opcode w) = some command)
    (hupload : command ≠ .upload) (hlength : words.length = command.wordCount)
    (hbuild : command.build? words = some job) :
    idle.pushAll words =
      (idle, List.replicate (words.length - 1) (.ok none) ++ [.ok (some job)]) := by
  cases words with
  | nil => exact absurd hhead (Option.some_ne_none w).symm
  | cons first ws =>
    obtain rfl : first = w := Option.some.inj hhead
    have hlookup : Command.lookup first = .ok command := by rw [Command.lookup, hcommand]
    have hadvance : advance command (first :: ws) = (idle, .ok (some job)) := by
      rw [advance, if_neg (by omega), hbuild]
      cases job with
      | upload image => exact absurd (Command.eq_upload_of_build? hbuild).1 hupload
      | _ => rfl
    rw [pushAll_command first ws hlookup hlength, hadvance]
    rfl

/-! ### Polygons -/

namespace Polygon

/-- The corners, three or four. -/
def corners (p : Polygon) : List Corner :=
  p.first :: p.second :: p.third :: p.fourth.toList

/-- The fields have room for the polygon.  Without shading there is one colour, and without a texture
there are no texture coordinates. -/
structure Encodable (p : Polygon) : Prop where
  position : ∀ corner ∈ p.corners, corner.position.Fits
  color : p.shaded = false → ∀ corner ∈ p.corners, corner.color = p.first.color
  texCoord : p.texture = none → ∀ corner ∈ p.corners, corner.texCoord = ⟨0, 0⟩
  clut : ∀ texture, p.texture = some texture → texture.clut.Fits
  page : ∀ texture, p.texture = some texture → texture.pageWord.toNat < 65536

/-- The opcode bits above the one for raw texels. -/
def putOpcode (p : Polygon) (w : Word) : Word :=
  ((((w.withField 29 3 1).withBit 28 p.shaded).withBit 27 p.fourth.isSome).withBit 26
    p.texture.isSome).withBit 25 p.translucent

/-- The first word. -/
def putHead (p : Polygon) (w : Word) : Word :=
  putFirst p.first.color (p.texture.map PolygonTexture.raw) (p.putOpcode w)

@[simp] theorem ofWord_putHead (p : Polygon) (w : Word) :
    Color.ofWord (p.putHead w) = p.first.color :=
  ofWord_putFirst _ _ _

/-- The texture word of a corner, with something extra in its high half. -/
def texel (p : Polygon) (corner : Corner) (extra : PolygonTexture → Writer) : List Writer :=
  match p.texture with
  | none => []
  | some texture => [fun w => corner.texCoord.put (extra texture w)]

/-- The words of a corner after the first one. -/
def laterCorner (p : Polygon) (corner : Corner) (extra : PolygonTexture → Writer) : List Writer :=
  (if p.shaded then [corner.color.put] else []) ++ corner.position.put :: p.texel corner extra

/-- The words of a polygon.  The first colour is in the word of the opcode, the colour table in the
first texture word and the page in the second one. -/
def layout (p : Polygon) : List Writer :=
  p.putHead :: p.first.position.put ::
    (p.texel p.first (fun texture => texture.clut.put) ++
      p.laterCorner p.second (fun texture => putPage texture.pageWord) ++
      p.laterCorner p.third (fun _ => id) ++
      p.fourth.toList.flatMap fun corner => p.laterCorner corner fun _ => id)

/-- The style that the opcode asks for, up to the bit for raw texels. -/
def style (p : Polygon) (raw : Bool) : PolygonStyle where
  shaded := p.shaded
  quad := p.fourth.isSome
  textured := p.texture.isSome
  translucent := p.translucent
  raw := raw

theorem ofOpcode?_putHead (p : Polygon) (w : Word) :
    ∃ raw, Command.ofOpcode? (Command.opcode (p.putHead w)) = some (.polygon (p.style raw)) ∧
      ∀ texture, p.texture = some texture → raw = texture.raw := by
  have hgroup : (p.putHead w).field 29 3 = 1 := by
    rw [putHead, field_putFirst _ _ _ (by decide) (by decide), putOpcode]
    simp (disch := decide) only [Word.field_withBit_of_ne, Word.field_withField]
  have hbits : ∀ k, 25 ≤ k ∧ k < 32 → (p.putHead w).bit k = (p.putOpcode w).bit k :=
    fun k hk => bit_putFirst _ _ _ hk
  rw [Command.ofOpcode?_polygon hgroup, hbits 28 (by decide), hbits 27 (by decide),
    hbits 26 (by decide), hbits 25 (by decide)]
  refine ⟨(p.putHead w).bit 24, ?_, ?_⟩
  · simp [style, putOpcode, Word.bit_withBit]
  · intro texture htexture
    rw [putHead, htexture]
    exact bit_putFirst_raw _ _ _

/-- **A polygon is built from its words.**  Shading, texture and fourth corner decide where each word
stands, so the cases are the eight layouts. -/
theorem polygon?_spelled {p : Polygon} (h : p.Encodable) {raw : Bool}
    (hraw : ∀ texture, p.texture = some texture → raw = texture.raw) (noise : Nat → Word) :
    (p.style raw).polygon? (spelled p.layout noise) = some p := by
  obtain ⟨hposition, hcolor, htexCoord, hclut, hpage⟩ := h
  obtain ⟨⟨p1, c1, t1⟩, ⟨p2, c2, t2⟩, ⟨p3, c3, t3⟩, fourth, shaded, texture, translucent⟩ := p
  simp only [corners, List.forall_mem_cons] at hposition hcolor htexCoord
  obtain ⟨h1, h2, h3, h4⟩ := hposition
  have hfirst := Vertex.ofWord_put h1
  have hsecond := Vertex.ofWord_put h2
  have hthird := Vertex.ofWord_put h3
  simp only [PolygonStyle.polygon?, PolygonStyle.corner?, PolygonStyle.texture?,
    PolygonStyle.stride, style, layout, laterCorner, texel]
  cases texture with
  | none =>
    obtain ⟨rfl, rfl, rfl, hplain⟩ := htexCoord rfl
    cases fourth with
    | none =>
      cases shaded with
      | false =>
        obtain ⟨-, rfl, rfl, -⟩ := hcolor rfl
        simp [hfirst, hsecond, hthird]
      | true => simp [hfirst, hsecond, hthird]
    | some fourth =>
      have hlast := Vertex.ofWord_put (h4 fourth (List.mem_singleton.2 rfl))
      have hnone := hplain fourth (List.mem_singleton.2 rfl)
      cases shaded with
      | false =>
        obtain ⟨-, rfl, rfl, hflat⟩ := hcolor rfl
        have hsame := hflat fourth (List.mem_singleton.2 rfl)
        simp [hfirst, hsecond, hthird, hlast, ← hnone, ← hsame]
      | true => simp [hfirst, hsecond, hthird, hlast, ← hnone]
  | some texture =>
    have htable := Clut.ofWord_put (hclut texture rfl)
    have hattribute := field_putPage (hpage texture rfl)
    have hlowest := hraw texture rfl
    cases fourth with
    | none =>
      cases shaded with
      | false =>
        obtain ⟨-, rfl, rfl, -⟩ := hcolor rfl
        simp [hfirst, hsecond, hthird, htable, hattribute, hlowest]
      | true => simp [hfirst, hsecond, hthird, htable, hattribute, hlowest]
    | some fourth =>
      have hlast := Vertex.ofWord_put (h4 fourth (List.mem_singleton.2 rfl))
      cases shaded with
      | false =>
        obtain ⟨-, rfl, rfl, hflat⟩ := hcolor rfl
        have hsame := hflat fourth (List.mem_singleton.2 rfl)
        simp [hfirst, hsecond, hthird, hlast, htable, hattribute, hlowest, ← hsame]
      | true => simp [hfirst, hsecond, hthird, hlast, htable, hattribute, hlowest]

theorem length_layout (p : Polygon) (raw : Bool) :
    p.layout.length = (Command.polygon (p.style raw)).wordCount := by
  obtain ⟨first, second, third, fourth, shaded, texture, translucent⟩ := p
  cases shaded <;> cases fourth <;> cases texture <;> rfl

theorem pushAll_spelled {p : Polygon} (h : p.Encodable) (noise : Nat → Word) :
    Decoder.idle.pushAll (spelled p.layout noise) =
      (.idle, List.replicate (p.layout.length - 1) (.ok none) ++ [.ok (some (.polygon p))]) := by
  obtain ⟨raw, hcommand, hraw⟩ := p.ofOpcode?_putHead (noise 0)
  have hbuild : (Command.polygon (p.style raw)).build? (spelled p.layout noise) =
      some (.polygon p) := by
    rw [Command.build?, polygon?_spelled h hraw]
    rfl
  rw [← length_spelled p.layout noise]
  exact Decoder.pushAll_of_build? (head?_spelled _ _ noise) hcommand
    (fun hupload => Command.noConfusion hupload)
    ((length_spelled _ _).trans (p.length_layout raw)) hbuild

end Polygon

/-! ### Lines -/

namespace Line

/-- The fields have room for the line.  Without shading there is one colour. -/
structure Encodable (line : Line) (shaded : Bool) : Prop where
  start : line.start.Fits
  stop : line.stop.Fits
  color : shaded = false → line.stopColor = line.startColor

def putOpcode (line : Line) (shaded : Bool) (w : Word) : Word :=
  (((w.withField 29 3 2).withBit 28 shaded).withBit 27 false).withBit 25 line.translucent

/-- The first word. -/
def putHead (line : Line) (shaded : Bool) (w : Word) : Word :=
  putFirst line.startColor none (line.putOpcode shaded w)

@[simp] theorem ofWord_putHead (line : Line) (shaded : Bool) (w : Word) :
    Color.ofWord (line.putHead shaded w) = line.startColor :=
  ofWord_putFirst _ _ _

/-- The words of a line, with a colour for each end or with one for both. -/
def layout (line : Line) (shaded : Bool) : List Writer :=
  line.putHead shaded :: line.start.put ::
    ((if shaded then [line.stopColor.put] else []) ++ [line.stop.put])

theorem ofOpcode?_putHead (line : Line) (shaded : Bool) (w : Word) :
    Command.ofOpcode? (Command.opcode (line.putHead shaded w)) =
      some (.line shaded line.translucent) := by
  have hgroup : (line.putHead shaded w).field 29 3 = 2 := by
    rw [putHead, field_putFirst _ _ _ (by decide) (by decide), putOpcode]
    simp (disch := decide) only [Word.field_withBit_of_ne, Word.field_withField]
  have hbits : ∀ k, 25 ≤ k ∧ k < 32 →
      (line.putHead shaded w).bit k = (line.putOpcode shaded w).bit k :=
    fun k hk => bit_putFirst _ _ _ hk
  have hsingle : (line.putHead shaded w).bit 27 = false := by
    rw [hbits 27 (by decide)]
    simp [putOpcode, Word.bit_withBit]
  rw [Command.ofOpcode?_line hgroup hsingle, hbits 28 (by decide), hbits 25 (by decide)]
  simp [putOpcode, Word.bit_withBit]

/-- **A line is built from its words.** -/
theorem build?_spelled {line : Line} {shaded : Bool} (h : line.Encodable shaded)
    (noise : Nat → Word) :
    (Command.line shaded line.translucent).build? (spelled (line.layout shaded) noise) =
      some (.line line) := by
  have hstart := Vertex.ofWord_put h.start
  have hstop := Vertex.ofWord_put h.stop
  cases shaded with
  | false =>
    have hsame : ({ line with stopColor := line.startColor } : Line) = line :=
      congrArg (fun color => ({ line with stopColor := color } : Line)) (h.color rfl).symm
    simp [Command.build?, layout, hstart, hstop, hsame]
  | true => simp [Command.build?, layout, hstart, hstop]

theorem length_layout (line : Line) (shaded : Bool) :
    (line.layout shaded).length = (Command.line shaded line.translucent).wordCount := by
  cases shaded <;> rfl

theorem pushAll_spelled {line : Line} {shaded : Bool} (h : line.Encodable shaded)
    (noise : Nat → Word) :
    Decoder.idle.pushAll (spelled (line.layout shaded) noise) =
      (.idle, List.replicate ((line.layout shaded).length - 1) (.ok none) ++
        [.ok (some (.line line))]) := by
  have hcommand := line.ofOpcode?_putHead shaded (noise 0)
  rw [← length_spelled (line.layout shaded) noise]
  exact Decoder.pushAll_of_build? (head?_spelled _ _ noise) hcommand
    (fun hupload => Command.noConfusion hupload)
    ((length_spelled _ _).trans (line.length_layout shaded)) (build?_spelled h noise)

end Line

/-! ### Rectangles -/

namespace Rectangle

/-- The fields have room for the rectangle, or the opcode has a code for its size. -/
structure Encodable (r : Rectangle) (fixed : Bool) : Prop where
  position : r.position.Fits
  size : if fixed then r.height = r.width ∧ (r.width = 1 ∨ r.width = 8 ∨ r.width = 16)
    else r.width < 1024 ∧ r.height < 512
  clut : ∀ texture, r.texture = some texture → texture.clut.Fits

/-- The code of a size that is not written in a word of its own. -/
def sizeCode (r : Rectangle) : Nat :=
  if r.width = 1 then 1 else if r.width = 8 then 2 else 3

/-- The opcode bits above the one for raw texels. -/
def putOpcode (r : Rectangle) (fixed : Bool) (w : Word) : Word :=
  (((w.withField 29 3 3).withField 27 2 (if fixed then r.sizeCode else 0)).withBit 26
    r.texture.isSome).withBit 25 r.translucent

/-- The first word. -/
def putHead (r : Rectangle) (fixed : Bool) (w : Word) : Word :=
  putFirst r.color (r.texture.map SpriteTexture.raw) (r.putOpcode fixed w)

@[simp] theorem ofWord_putHead (r : Rectangle) (fixed : Bool) (w : Word) :
    Color.ofWord (r.putHead fixed w) = r.color :=
  ofWord_putFirst _ _ _

/-- The words of a rectangle, with a size or with the size in the opcode. -/
def layout (r : Rectangle) (fixed : Bool) : List Writer :=
  r.putHead fixed :: r.position.put ::
    (r.texture.toList.map (fun texture w => texture.texCoord.put (texture.clut.put w)) ++
      if fixed then [] else [putPair r.width r.height])

/-- The style that the opcode asks for, up to the bit for raw texels. -/
def style (r : Rectangle) (fixed raw : Bool) : RectangleStyle where
  side := if fixed then some r.width else none
  textured := r.texture.isSome
  translucent := r.translucent
  raw := raw

variable {r : Rectangle} {fixed : Bool}

theorem sizeCode_lt (r : Rectangle) (fixed : Bool) :
    (if fixed then r.sizeCode else 0) < Nat.pow 2 2 := by
  unfold sizeCode
  split
  · split
    · decide
    · split <;> decide
  · decide

theorem side?_sizeCode (h : r.Encodable fixed) {w : Word}
    (hw : w.field 27 2 = if fixed then r.sizeCode else 0) :
    Command.side? (Command.opcode w) = if fixed then some r.width else none := by
  rw [Command.side?, Command.opcode_side, hw]
  have hsize := h.size
  cases fixed with
  | false => rfl
  | true =>
    obtain ⟨-, hwidth | hwidth | hwidth⟩ := hsize
    · simp [sizeCode, hwidth]
    · simp [sizeCode, hwidth]
    · simp [sizeCode, hwidth]

theorem ofOpcode?_putHead (h : r.Encodable fixed) (w : Word) :
    ∃ raw, Command.ofOpcode? (Command.opcode (r.putHead fixed w)) =
        some (.rectangle (r.style fixed raw)) ∧
      ∀ texture, r.texture = some texture → raw = texture.raw := by
  have hgroup : (r.putHead fixed w).field 29 3 = 3 := by
    rw [putHead, field_putFirst _ _ _ (by decide) (by decide), putOpcode]
    simp (disch := decide) only [Word.field_withBit_of_ne, Word.field_withField_of_disjoint,
      Word.field_withField]
  have hside : (r.putHead fixed w).field 27 2 = if fixed then r.sizeCode else 0 := by
    rw [putHead, field_putFirst _ _ _ (by decide) (by decide), putOpcode]
    simp (disch := decide) only [Word.field_withBit_of_ne]
    exact Word.field_withField _ (by decide) (r.sizeCode_lt fixed)
  have hbits : ∀ k, 25 ≤ k ∧ k < 32 →
      (r.putHead fixed w).bit k = (r.putOpcode fixed w).bit k :=
    fun k hk => bit_putFirst _ _ _ hk
  rw [Command.ofOpcode?_rectangle hgroup, side?_sizeCode h hside, hbits 26 (by decide),
    hbits 25 (by decide)]
  refine ⟨(r.putHead fixed w).bit 24, ?_, ?_⟩
  · simp [style, putOpcode, Word.bit_withBit]
  · intro texture htexture
    rw [putHead, htexture]
    exact bit_putFirst_raw _ _ _

/-- **A rectangle is built from its words.** -/
theorem rectangle?_spelled (h : r.Encodable fixed) {raw : Bool}
    (hraw : ∀ texture, r.texture = some texture → raw = texture.raw) (noise : Nat → Word) :
    Command.rectangle? (r.style fixed raw) (spelled (r.layout fixed) noise) = some r := by
  obtain ⟨hposition, hsize, hclut⟩ := h
  have hvertex := Vertex.ofWord_put hposition
  obtain ⟨position, width, height, color, texture, translucent⟩ := r
  simp only [Command.rectangle?, style, layout]
  cases fixed with
  | false =>
    obtain ⟨hwidth, hheight⟩ := hsize
    have hcolumns : ∀ w, (putPair width height w).field 0 10 = width := fun w =>
      (field_columns_putPair width height w).trans (Nat.mod_eq_of_lt hwidth)
    have hrows : ∀ w, (putPair width height w).field 16 9 = height := fun w =>
      (field_rows_putPair width height w).trans (Nat.mod_eq_of_lt hheight)
    cases texture with
    | none => simp [hvertex, hcolumns, hrows]
    | some texture =>
      have htable := Clut.ofWord_put (hclut texture rfl)
      simp [hvertex, hcolumns, hrows, htable, hraw texture rfl]
  | true =>
    have hsquare : height = width := hsize.1
    cases texture with
    | none => simp [hvertex, hsquare]
    | some texture =>
      have htable := Clut.ofWord_put (hclut texture rfl)
      simp [hvertex, hsquare, htable, hraw texture rfl]

theorem length_layout (r : Rectangle) (fixed raw : Bool) :
    (r.layout fixed).length = (Command.rectangle (r.style fixed raw)).wordCount := by
  obtain ⟨position, width, height, color, texture, translucent⟩ := r
  cases fixed <;> cases texture <;> rfl

theorem pushAll_spelled (h : r.Encodable fixed) (noise : Nat → Word) :
    Decoder.idle.pushAll (spelled (r.layout fixed) noise) =
      (.idle, List.replicate ((r.layout fixed).length - 1) (.ok none) ++
        [.ok (some (.rectangle r))]) := by
  obtain ⟨raw, hcommand, hraw⟩ := ofOpcode?_putHead h (noise 0)
  have hbuild : (Command.rectangle (r.style fixed raw)).build? (spelled (r.layout fixed) noise) =
      some (.rectangle r) := by
    rw [Command.build?, rectangle?_spelled h hraw]
    rfl
  rw [← length_spelled (r.layout fixed) noise]
  exact Decoder.pushAll_of_build? (head?_spelled _ _ noise) hcommand
    (fun hupload => Command.noConfusion hupload)
    ((length_spelled _ _).trans (r.length_layout fixed raw)) hbuild

end Rectangle

/-! ### Blocks -/

namespace Fill

/-- The fields have room for the block. -/
structure Encodable (fill : Fill) : Prop where
  x : fill.x < 1024
  y : fill.y < 512
  width : fill.width < 1024
  height : fill.height < 512

def layout (fill : Fill) : List Writer := [
  fun w => fill.color.put (w.withField 24 8 0x02),
  putPair fill.x fill.y,
  putPair fill.width fill.height]

theorem pushAll_spelled {fill : Fill} (h : fill.Encodable) (noise : Nat → Word) :
    Decoder.idle.pushAll (spelled fill.layout noise) =
      (.idle, List.replicate (fill.layout.length - 1) (.ok none) ++ [.ok (some (.fill fill))]) := by
  have hopcode : Command.opcode (fill.color.put ((noise 0).withField 24 8 0x02)) = 0x02 := by
    rw [Command.opcode, Color.field_put _ _ (by decide) (by decide)]
    exact Word.field_withField _ (by decide) (by decide)
  have hcommand : Command.ofOpcode?
      (Command.opcode (fill.color.put ((noise 0).withField 24 8 0x02))) = some .fill := by
    rw [hopcode]
    rfl
  have hbuild : Command.fill.build? (spelled fill.layout noise) = some (.fill fill) := by
    simp [Command.build?, layout, field_columns_putPair, field_rows_putPair,
      Nat.mod_eq_of_lt h.x, Nat.mod_eq_of_lt h.y, Nat.mod_eq_of_lt h.width,
      Nat.mod_eq_of_lt h.height]
  rw [← length_spelled fill.layout noise]
  exact Decoder.pushAll_of_build? (head?_spelled _ _ noise) hcommand
    (fun hupload => Command.noConfusion hupload) (length_spelled _ _) hbuild

end Fill

namespace VramCopy

/-- The block that is copied from. -/
def source (copy : VramCopy) : VramRect where
  x := copy.fromX
  y := copy.fromY
  width := copy.width
  height := copy.height

/-- The fields have room for both blocks. -/
structure Encodable (copy : VramCopy) : Prop where
  source : copy.source.IsNamed
  toX : copy.toX < 1024
  toY : copy.toY < 512

def layout (copy : VramCopy) : List Writer := [
  fun w => w.withField 29 3 4,
  putPair copy.fromX copy.fromY,
  putPair copy.toX copy.toY,
  putPair copy.width copy.height]

theorem pushAll_spelled {copy : VramCopy} (h : copy.Encodable) (noise : Nat → Word) :
    Decoder.idle.pushAll (spelled copy.layout noise) =
      (.idle, List.replicate (copy.layout.length - 1) (.ok none) ++ [.ok (some (.copy copy))]) := by
  have hcommand : Command.ofOpcode? (Command.opcode ((noise 0).withField 29 3 4)) = some .copy :=
    Command.ofOpcode?_copy (Word.field_withField _ (by decide) (by decide))
  have hsource := VramRect.ofWords_putPair h.source
  simp only [source] at hsource
  have hbuild : Command.copy.build? (spelled copy.layout noise) = some (.copy copy) := by
    simp [Command.build?, layout, hsource, field_columns_putPair, field_rows_putPair,
      Nat.mod_eq_of_lt h.toX, Nat.mod_eq_of_lt h.toY]
  rw [← length_spelled copy.layout noise]
  exact Decoder.pushAll_of_build? (head?_spelled _ _ noise) hcommand
    (fun hupload => Command.noConfusion hupload) (length_spelled _ _) hbuild

end VramCopy

namespace ImageLoad

/-- The fields have room for the block, and there are words for all of its pixels and no more. -/
structure Encodable (image : ImageLoad) : Prop where
  rect : image.rect.IsNamed
  payload : image.payload.size = image.rect.wordCount

/-- The words of an upload.  Its pixels take up all of their words. -/
def layout (image : ImageLoad) : List Writer :=
  (fun w => w.withField 29 3 5) :: putPair image.rect.x image.rect.y ::
    putPair image.rect.width image.rect.height :: image.payload.toList.map fun pixels _ => pixels

theorem spelled_payload (payload : List Word) (noise : Nat → Word) :
    spelled (payload.map fun pixels _ => pixels) noise = payload := by
  induction payload generalizing noise with
  | nil => rfl
  | cons pixels payload ih => rw [List.map_cons, spelled_cons, ih]

theorem pushAll_spelled {image : ImageLoad} (h : image.Encodable) (noise : Nat → Word) :
    Decoder.idle.pushAll (spelled image.layout noise) =
      (.idle, List.replicate (image.layout.length - 1) (.ok none) ++
        [.ok (some (.upload image))]) := by
  have hcommand : Command.ofOpcode? (Command.opcode ((noise 0).withField 29 3 5)) = some .upload :=
    Command.ofOpcode?_upload (Word.field_withField _ (by decide) (by decide))
  have hrect := VramRect.ofWords_putPair h.rect (noise 1) (noise 2)
  have hpayload : image.payload.toList.length =
      Framing.payloadLength (putPair image.rect.width image.rect.height (noise 2)) := by
    rw [Framing.payloadLength_eq (putPair image.rect.x image.rect.y (noise 1)), hrect]
    exact h.payload
  have hlength : image.layout.length - 1 = image.payload.toList.length + 2 := by
    simp [layout]
  rw [hlength, layout, spelled_cons, spelled_cons, spelled_cons, spelled_payload,
    Framing.pushAll_upload hcommand hpayload, hrect]

end ImageLoad

/-! ### Spellings -/

/-- A drawing command written down: what it asks for, and the form where there is a choice. -/
inductive Spelling where
  | polygon (polygon : Polygon)
  /-- With a colour for each end, or with one for both. -/
  | line (line : Line) (shaded : Bool)
  /-- With its size in the opcode, or in a word of its own. -/
  | rectangle (rectangle : Rectangle) (fixed : Bool)
  | fill (fill : Fill)
  | copy (copy : VramCopy)
  | upload (image : ImageLoad)

namespace Spelling

def job : Spelling → Job
  | polygon p => .polygon p
  | line l _ => .line l
  | rectangle r _ => .rectangle r
  | fill f => .fill f
  | copy c => .copy c
  | upload image => .upload image

def layout : Spelling → List Writer
  | polygon p => p.layout
  | line l shaded => l.layout shaded
  | rectangle r fixed => r.layout fixed
  | fill f => f.layout
  | copy c => c.layout
  | upload image => image.layout

/-- The fields have room for what is written. -/
def Encodable : Spelling → Prop
  | polygon p => p.Encodable
  | line l shaded => l.Encodable shaded
  | rectangle r fixed => r.Encodable fixed
  | fill f => f.Encodable
  | copy c => c.Encodable
  | upload image => image.Encodable

/-- The words, written over `noise`, which shows where no field is. -/
def words (s : Spelling) (noise : Nat → Word) : List Word :=
  spelled s.layout noise

/-- **The decoder undoes the spelling.**  Of the words of a drawing command in any of its forms the
last one is answered with exactly what was written down, and the others with nothing, whatever stands
in the bits that belong to no field. -/
theorem pushAll_words {s : Spelling} (h : s.Encodable) (noise : Nat → Word) :
    Decoder.idle.pushAll (s.words noise) =
      (.idle, List.replicate ((s.words noise).length - 1) (.ok none) ++ [.ok (some s.job)]) := by
  rw [words, length_spelled]
  cases s with
  | polygon p => exact Polygon.pushAll_spelled h noise
  | line l shaded => exact Line.pushAll_spelled h noise
  | rectangle r fixed => exact Rectangle.pushAll_spelled h noise
  | fill f => exact Fill.pushAll_spelled h noise
  | copy c => exact VramCopy.pushAll_spelled h noise
  | upload image => exact ImageLoad.pushAll_spelled h noise

/-- A shaded quadrilateral with a texture, at the edges of what can be written down; all bits between
the fields are set. -/
theorem pushAll_words_quad :
    let s : Spelling := .polygon {
      first := ⟨⟨-1024, 1023⟩, ⟨1, 2, 3⟩, ⟨0, 255⟩⟩
      second := ⟨⟨-1, 0⟩, ⟨0, 0, 0⟩, ⟨16, 0⟩⟩
      third := ⟨⟨1023, -1024⟩, ⟨255, 255, 255⟩, ⟨0, 16⟩⟩
      fourth := some ⟨⟨5, -7⟩, ⟨64, 32, 16⟩, ⟨16, 16⟩⟩
      shaded := true
      texture := some ⟨⟨1008, 511⟩, 0x810F, false⟩
      translucent := true }
    let noise : Nat → Word := fun _ => 0xFFFFFFFF
    s.Encodable ∧
      Decoder.idle.pushAll (s.words noise) =
        (.idle, List.replicate ((s.words noise).length - 1) (.ok none) ++
          [.ok (some s.job)]) := by
  intro s noise
  have hencodable : s.Encodable := {
    position := by decide
    color := fun hshaded => Bool.noConfusion hshaded
    texCoord := fun htexture => Option.noConfusion rfl (heq_of_eq htexture)
    clut := by
      rintro texture ⟨⟩
      decide
    page := by
      rintro texture ⟨⟩
      decide }
  exact ⟨hencodable, pushAll_words hencodable noise⟩

/-- A rectangle of 300 by 200 in the colour 0x332211, with zeros between the fields and with ones. -/
example :
    let s : Spelling := .rectangle ⟨⟨-2, 3⟩, 300, 200, ⟨0x11, 0x22, 0x33⟩, none, false⟩ false
    s.words (fun _ => 0) = [0x60332211, 0x000307FE, 0x00C8012C] ∧
      s.words (fun _ => 0xFFFFFFFF) = [0x61332211, 0xF803FFFE, 0xFEC8FD2C] := by
  decide +kernel

end Spelling

end ConsoleVideo
