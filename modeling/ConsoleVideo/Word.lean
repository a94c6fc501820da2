/-!
# Words of the bus

The processor talks to the video hardware in 32-bit words.  This file reads fields out of them and
puts numbers together from bits:

* `Word.field` and `Word.bit` — a run of bits read as a number, and a single bit;
* `Word.signed11` — the low 11 bits in two's complement, the form of every vertex coordinate;
* `wrap32` — an integer brought back into the signed 32-bit range, as the coordinate adders do;
* `ofBits` — the number whose binary digits are a list, lowest first, with `testBit_ofBits`.
-/

namespace ConsoleVideo

/-- What one bus transfer carries. -/
abbrev Word := UInt32

/-! ### Fields -/

/-- The `width` bits of `w` from bit `lo` upwards, as a number. -/
def Word.field (w : Word) (lo width : Nat) : Nat :=
  w.toNat / Nat.pow 2 lo % Nat.pow 2 width

/-- Bit `k` of `w`. -/
def Word.bit (w : Word) (k : Nat) : Bool :=
  w.toNat.testBit k

theorem Word.field_lt (w : Word) (lo width : Nat) : Word.field w lo width < Nat.pow 2 width :=
  Nat.mod_lt _ (Nat.two_pow_pos width)

theorem Word.testBit_field (w : Word) (lo width i : Nat) :
    (Word.field w lo width).testBit i = (decide (i < width) && w.bit (lo + i)) := by
  unfold Word.field Word.bit
  rw [Nat.pow_eq, Nat.pow_eq, Nat.testBit_mod_two_pow, ← Nat.shiftRight_eq_div_pow,
    Nat.testBit_shiftRight]

/-- A field holds the number whose bits it shows. -/
theorem Word.field_eq_of_bits {w : Word} {lo width n : Nat} (small : n < Nat.pow 2 width)
    (h : ∀ i, i < width → w.bit (lo + i) = n.testBit i) : Word.field w lo width = n := by
  apply Nat.eq_of_testBit_eq
  intro i
  rw [Word.testBit_field]
  by_cases hi : i < width
  · simp [hi, h i hi]
  · have : n.testBit i = false := Nat.testBit_lt_two_pow
      (Nat.lt_of_lt_of_le small (Nat.pow_le_pow_right (by decide) (by omega)))
    simp [hi, this]

/-- The low 11 bits of a number, read in two's complement. -/
def signed11 (n : Nat) : Int :=
  (n : Int).bmod 2048

theorem signed11_range (n : Nat) : -1024 ≤ signed11 n ∧ signed11 n ≤ 1023 := by
  have lower := Int.le_bmod (x := (n : Int)) (m := 2048) (by decide)
  have upper := Int.bmod_lt (x := (n : Int)) (m := 2048) (by decide)
  unfold signed11
  omega

/-! ### Signed 32-bit arithmetic -/

/-- The integer in `[-2³¹, 2³¹)` that agrees with `x` modulo `2³²`. -/
def wrap32 (x : Int) : Int :=
  x.bmod 4294967296

theorem wrap32_of_range {x : Int} (lower : -2147483648 ≤ x) (upper : x ≤ 2147483647) :
    wrap32 x = x := by
  unfold wrap32
  rw [Int.bmod_eq_of_le] <;> omega

theorem wrap32_range (x : Int) : -2147483648 ≤ wrap32 x ∧ wrap32 x ≤ 2147483647 := by
  have lower := Int.le_bmod (x := x) (m := 4294967296) (by decide)
  have upper := Int.bmod_lt (x := x) (m := 4294967296) (by decide)
  unfold wrap32
  omega

/-! ### Numbers from bits -/

/-- The number whose binary digits are `bits`, lowest first. -/
def ofBits : List Bool → Nat
  | [] => 0
  | b :: bs => b.toNat + 2 * ofBits bs

theorem ofBits_lt (bits : List Bool) : ofBits bits < Nat.pow 2 bits.length := by
  induction bits with
  | nil => simp [ofBits]
  | cons b bs ih =>
    have := Bool.toNat_le b
    simp only [ofBits, List.length_cons, Nat.pow_eq, Nat.pow_succ] at ih ⊢
    omega

theorem testBit_ofBits (bits : List Bool) (i : Nat) :
    (ofBits bits).testBit i = bits.getD i false := by
  induction bits generalizing i with
  | nil => simp [ofBits]
  | cons b bs ih =>
    cases i with
    | zero => cases b <;> simp [ofBits, Nat.testBit_zero, Nat.add_mul_mod_self_left]
    | succ i =>
      have half : (b.toNat + 2 * ofBits bs) / 2 = ofBits bs := by
        have := Bool.toNat_le b
        omega
      simp [ofBits, Nat.testBit_succ, half, ih]

end ConsoleVideo
