import ConsoleVideo.Primitive

/-!
# Operands in words

Commands are read field by field, and what lies between the fields is ignored.  Here the fields are
written: into words that may hold anything, of which the other bits stay as they are.

* `Word.withField` — one field, with `field_withField` and `field_withField_of_disjoint`;
* `Vertex.Fits`, `Clut.Fits` — the numbers that the fields of an operand can hold;
* `Color.put`, `Vertex.put`, `TexCoord.put`, `Clut.put`, `putPage`, `putPair` — the operands of
  drawing commands;
* `Color.ofWord_put`, `Vertex.ofWord_put`, `TexCoord.ofWord_put`, `Clut.ofWord_put`,
  `VramRect.ofWords_putPair` — what is read out of such words is what was written, as long as it is
  in range.
-/

namespace ConsoleVideo

/-! ### Fields -/

namespace Word

variable {lo width other otherWidth n k : Nat}

/-- The word with a number in the `width` bits from bit `lo` upwards; its other bits stay. -/
def withField (w : Word) (lo width n : Nat) : Word :=
  UInt32.ofNat (ofBits ((List.range 32).map fun k =>
    if lo ≤ k ∧ k < lo + width then n.testBit (k - lo) else Word.bit w k))

/-- The word with bit `k` set or cleared; its other bits stay. -/
def withBit (w : Word) (k : Nat) (b : Bool) : Word :=
  withField w k 1 b.toNat

theorem bit_withField (w : Word) (hk : k < 32) :
    (withField w lo width n).bit k =
      if lo ≤ k ∧ k < lo + width then n.testBit (k - lo) else w.bit k := by
  have hlt := ofBits_lt ((List.range 32).map fun k =>
    if lo ≤ k ∧ k < lo + width then n.testBit (k - lo) else Word.bit w k)
  rw [List.length_map, List.length_range] at hlt
  rw [bit, withField, UInt32.toNat_ofNat_of_lt' hlt, testBit_ofBits]
  simp [List.getD, hk]

theorem bit_withBit (w : Word) (hk : k < 32) (other : Nat) (b : Bool) :
    (withBit w other b).bit k = if k = other then b else w.bit k := by
  rw [withBit, bit_withField w hk]
  by_cases hsame : k = other
  · rw [if_pos hsame, if_pos (by omega), hsame, Nat.sub_self]
    cases b <;> rfl
  · rw [if_neg hsame, if_neg (by omega)]

/-- A field that was written is read. -/
theorem field_withField (w : Word) (hbound : lo + width ≤ 32) (hn : n < Nat.pow 2 width) :
    (withField w lo width n).field lo width = n := by
  refine field_eq_of_bits hn fun i hi => ?_
  rw [bit_withField w (by omega), if_pos (by omega), Nat.add_sub_cancel_left]

/-- Another field is what it was. -/
theorem field_withField_of_disjoint (w : Word) (n : Nat) (hbound : other + otherWidth ≤ 32)
    (h : lo + width ≤ other ∨ other + otherWidth ≤ lo) :
    (withField w lo width n).field other otherWidth = w.field other otherWidth := by
  refine field_eq_of_bits (field_lt w other otherWidth) fun i hi => ?_
  rw [bit_withField w (by omega), if_neg (by omega), testBit_field, decide_eq_true hi,
    Bool.true_and]

theorem field_withBit_of_ne (w : Word) (k : Nat) (b : Bool) (hbound : other + otherWidth ≤ 32)
    (h : k < other ∨ other + otherWidth ≤ k) :
    (withBit w k b).field other otherWidth = w.field other otherWidth :=
  field_withField_of_disjoint w b.toNat hbound h

/-- The lower bits of a field are a field. -/
theorem field_mod (w : Word) (lo : Nat) (h : width ≤ otherWidth) :
    w.field lo otherWidth % Nat.pow 2 width = w.field lo width := by
  rw [field, field]
  exact Nat.mod_mod_of_dvd _ (Nat.pow_dvd_pow 2 h)

end Word

/-! ### Colours and positions -/

namespace Color

def put (c : Color) (w : Word) : Word :=
  ((w.withField 0 8 c.red.toNat).withField 8 8 c.green.toNat).withField 16 8 c.blue.toNat

/-- A colour does not reach into the highest byte. -/
theorem field_put (c : Color) (w : Word) {lo width : Nat} (hlo : 24 ≤ lo) (h : lo + width ≤ 32) :
    (c.put w).field lo width = w.field lo width := by
  rw [put, Word.field_withField_of_disjoint _ _ h (by omega),
    Word.field_withField_of_disjoint _ _ h (by omega),
    Word.field_withField_of_disjoint _ _ h (by omega)]

theorem bit_put (c : Color) (w : Word) {k : Nat} (hk : 24 ≤ k ∧ k < 32) :
    (c.put w).bit k = w.bit k := by
  rw [put, Word.bit_withField _ hk.2, if_neg (by omega), Word.bit_withField _ hk.2,
    if_neg (by omega), Word.bit_withField _ hk.2, if_neg (by omega)]

@[simp] theorem ofWord_put (c : Color) (w : Word) : ofWord (c.put w) = c := by
  have hred : Deep.red (c.put w) = c.red.toNat := by
    show (c.put w).toNat % 256 = _
    have hfield : (c.put w).field 0 8 = c.red.toNat := by
      rw [put, Word.field_withField_of_disjoint _ _ (by decide) (by decide),
        Word.field_withField_of_disjoint _ _ (by decide) (by decide),
        Word.field_withField _ (by decide) c.red.toNat_lt]
    rw [← hfield, Word.field, Nat.pow_eq, Nat.pow_zero, Nat.div_one]
  have hgreen : Deep.green (c.put w) = c.green.toNat := by
    show (c.put w).field 8 8 = _
    rw [put, Word.field_withField_of_disjoint _ _ (by decide) (by decide),
      Word.field_withField _ (by decide) c.green.toNat_lt]
  have hblue : Deep.blue (c.put w) = c.blue.toNat := by
    show (c.put w).field 16 8 = _
    rw [put, Word.field_withField _ (by decide) c.blue.toNat_lt]
  rw [ofWord, hred, hgreen, hblue, UInt8.ofNat_toNat, UInt8.ofNat_toNat, UInt8.ofNat_toNat]

end Color

/-- Eleven bits in two's complement stand for the one number in range that they agree with. -/
theorem signed11_of_emod {n : Int} (h : -1024 ≤ n ∧ n ≤ 1023) {m : Nat}
    (hm : m % 2048 = (n % 2048).toNat) : signed11 m = n := by
  have hrange := signed11_range m
  have hmod : signed11 m % 2048 = (m : Int) % 2048 := Int.bmod_emod
  omega

namespace Vertex

/-- Both coordinates have eleven bits, in two's complement. -/
structure Fits (v : Vertex) : Prop where
  x : -1024 ≤ v.x ∧ v.x ≤ 1023
  y : -1024 ≤ v.y ∧ v.y ≤ 1023

instance (v : Vertex) : Decidable v.Fits :=
  decidable_of_iff ((-1024 ≤ v.x ∧ v.x ≤ 1023) ∧ -1024 ≤ v.y ∧ v.y ≤ 1023)
    ⟨fun h => ⟨h.1, h.2⟩, fun h => ⟨h.x, h.y⟩⟩

theorem fits_ofWord (w : Word) : (ofWord w).Fits := by
  constructor
  · simp only [ofWord]
    exact signed11_range w.toNat
  · simp only [ofWord]
    exact signed11_range (w.toNat / 65536)

def put (v : Vertex) (w : Word) : Word :=
  (w.withField 0 11 (v.x % 2048).toNat).withField 16 11 (v.y % 2048).toNat

theorem ofWord_put {v : Vertex} (h : v.Fits) (w : Word) : ofWord (v.put w) = v := by
  have hx : (v.put w).field 0 11 = (v.x % 2048).toNat := by
    rw [put, Word.field_withField_of_disjoint _ _ (by decide) (by decide),
      Word.field_withField _ (by decide) (show _ < 2048 by omega)]
  have hy : (v.put w).field 16 11 = (v.y % 2048).toNat := by
    rw [put, Word.field_withField _ (by decide) (show _ < 2048 by omega)]
  have hcolumn : (v.put w).toNat % 2048 = (v.x % 2048).toNat := by
    rw [← hx, Word.field, Nat.pow_eq, Nat.pow_zero, Nat.div_one]
  have hrow : (v.put w).toNat / 65536 % 2048 = (v.y % 2048).toNat := hy
  rw [ofWord, signed11_of_emod h.x hcolumn, signed11_of_emod h.y hrow]

end Vertex

/-! ### Textures -/

namespace TexCoord

def put (t : TexCoord) (w : Word) : Word :=
  (w.withField 0 8 t.u.toNat).withField 8 8 t.v.toNat

/-- A texture coordinate does not reach into the high half. -/
theorem field_put (t : TexCoord) (w : Word) {lo width : Nat} (hlo : 16 ≤ lo)
    (h : lo + width ≤ 32) : (t.put w).field lo width = w.field lo width := by
  rw [put, Word.field_withField_of_disjoint _ _ h (by omega),
    Word.field_withField_of_disjoint _ _ h (by omega)]

@[simp] theorem ofWord_put (t : TexCoord) (w : Word) : ofWord (t.put w) = t := by
  rw [ofWord, put, Word.field_withField_of_disjoint _ _ (by decide) (by decide),
    Word.field_withField _ (by decide) t.u.toNat_lt,
    Word.field_withField _ (by decide) t.v.toNat_lt, UInt8.ofNat_toNat, UInt8.ofNat_toNat]

end TexCoord

namespace Clut

/-- The table starts in a column that can be named. -/
structure Fits (c : Clut) : Prop where
  step : c.x % 16 = 0
  x : c.x < 1024
  y : c.y < 512

instance (c : Clut) : Decidable c.Fits :=
  decidable_of_iff (c.x % 16 = 0 ∧ c.x < 1024 ∧ c.y < 512)
    ⟨fun h => ⟨h.1, h.2.1, h.2.2⟩, fun h => ⟨h.step, h.x, h.y⟩⟩

def put (c : Clut) (w : Word) : Word :=
  (w.withField 16 6 (c.x / 16)).withField 22 9 c.y

/-- The table is named in the high half, beside a texture coordinate. -/
theorem ofWord_put {c : Clut} (h : c.Fits) (t : TexCoord) (w : Word) :
    ofWord (t.put (c.put w)) = c := by
  have hx := h.x
  rw [ofWord, t.field_put _ (by decide) (by decide), t.field_put _ (by decide) (by decide), put,
    Word.field_withField_of_disjoint _ _ (by decide) (by decide),
    Word.field_withField _ (by decide) (show c.x / 16 < 64 by omega),
    Word.field_withField _ (by decide) h.y, Nat.div_mul_cancel (Nat.dvd_of_mod_eq_zero h.step)]

end Clut

/-- The page attribute in the high half. -/
def putPage (page w : Word) : Word :=
  w.withField 16 16 page.toNat

theorem field_putPage {page : Word} (h : page.toNat < 65536) (t : TexCoord) (w : Word) :
    UInt32.ofNat ((t.put (putPage page w)).field 16 16) = page := by
  rw [t.field_put _ (by decide) (by decide), putPage, Word.field_withField _ (by decide) h,
    UInt32.ofNat_toNat]

/-! ### Blocks -/

/-- Columns and rows, in ten bits and in nine. -/
def putPair (columns rows : Nat) (w : Word) : Word :=
  (w.withField 0 10 (columns % 1024)).withField 16 9 (rows % 512)

theorem field_columns_putPair (columns rows : Nat) (w : Word) :
    (putPair columns rows w).field 0 10 = columns % 1024 := by
  rw [putPair, Word.field_withField_of_disjoint _ _ (by decide) (by decide),
    Word.field_withField _ (by decide) (Nat.mod_lt _ (by decide))]

theorem field_rows_putPair (columns rows : Nat) (w : Word) :
    (putPair columns rows w).field 16 9 = rows % 512 := by
  rw [putPair, Word.field_withField _ (by decide) (Nat.mod_lt _ (by decide))]

namespace VramRect

/-- The block can be named: it starts in the picture memory and is no larger, and not empty. -/
structure IsNamed (rect : VramRect) : Prop where
  x : rect.x < 1024
  y : rect.y < 512
  width : 0 < rect.width ∧ rect.width ≤ 1024
  height : 0 < rect.height ∧ rect.height ≤ 512

theorem wrappedSize_eq {n m limit : Nat} (hmod : n % limit = m % limit) (hpos : 0 < m)
    (hle : m ≤ limit) : wrappedSize n limit = m := by
  have hsum : (n + (limit - 1)) % limit = (m + (limit - 1)) % limit := by
    rw [Nat.add_mod, hmod, ← Nat.add_mod]
  have hm : m + (limit - 1) = (m - 1) + limit := by omega
  rw [wrappedSize, Nat.add_sub_assoc (by omega), hsum, hm, Nat.add_mod_right,
    Nat.mod_eq_of_lt (by omega)]
  omega

/-- **A block is read as it was written**, its size also where the fields are too narrow for it. -/
theorem ofWords_putPair {rect : VramRect} (h : rect.IsNamed) (position size : Word) :
    ofWords (putPair rect.x rect.y position) (putPair rect.width rect.height size) = rect := by
  have hwidth : (putPair rect.width rect.height size).field 0 16 % 1024 = rect.width % 1024 := by
    rw [← field_columns_putPair rect.width rect.height size]
    exact Word.field_mod _ 0 (show 10 ≤ 16 by decide)
  have hheight : (putPair rect.width rect.height size).field 16 16 % 512 = rect.height % 512 := by
    rw [← field_rows_putPair rect.width rect.height size]
    exact Word.field_mod _ 16 (show 9 ≤ 16 by decide)
  rw [ofWords, field_columns_putPair, field_rows_putPair, Nat.mod_eq_of_lt h.x,
    Nat.mod_eq_of_lt h.y, wrappedSize_eq hwidth h.width.1 h.width.2,
    wrappedSize_eq hheight h.height.1 h.height.2]

end VramRect

end ConsoleVideo
