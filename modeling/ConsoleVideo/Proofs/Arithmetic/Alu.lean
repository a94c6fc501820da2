import Mathlib.Algebra.Order.Ring.Abs

/-!
# Arithmetic that does not fit

Arithmetic units have a width.  Here a sum, a difference, a product or a quotient that does not fit into
the unit that computes it is no number at all, and neither is anything that is computed from it.
Whatever comes out in the end has therefore been computed without a single overflow, and is what
integers without a width would have given.

* `Alu` — the numbers that a unit can hold; `s32`, `u32`, `s64`, `u64` and `byte` are in use;
* `Alu.fit` — a number if it fits; `Alu.add`, `sub`, `mul`, `neg`, `abs`, `div` and `rem` compute with
  it;
* `Alu.s32_fit` and its like, `Alu.div_eq`, `Alu.div_natCast` — what fits goes through;
* `foldlM_eq_some`, `mapM_eq_some`, `foldlM_range_eq_some` — loops in which nothing fails.
-/

namespace ConsoleVideo

/-- The numbers that an arithmetic unit can hold, from the smallest to the largest. -/
structure Alu where
  lo : Int
  hi : Int

namespace Alu

def s32 : Alu := ⟨-2147483648, 2147483647⟩

def u32 : Alu := ⟨0, 4294967295⟩

def s64 : Alu := ⟨-9223372036854775808, 9223372036854775807⟩

def u64 : Alu := ⟨0, 18446744073709551615⟩

def byte : Alu := ⟨0, 255⟩

variable (alu : Alu) (x y : Int)

/-- The number, if it fits. -/
def fit : Option Int :=
  if alu.lo ≤ x ∧ x ≤ alu.hi then some x else none

def add : Option Int :=
  alu.fit (x + y)

def sub : Option Int :=
  alu.fit (x - y)

def mul : Option Int :=
  alu.fit (x * y)

def neg : Option Int :=
  alu.fit (-x)

/-- The distance from zero, which the smallest number of a signed unit does not have. -/
def abs : Option Int :=
  alu.fit x.natAbs

/-- The quotient, rounded towards zero; none by zero. -/
def div : Option Int :=
  if y = 0 then none else alu.fit (x.tdiv y)

/-- What the quotient leaves, where there is one. -/
def rem : Option Int :=
  (alu.div x y).map fun _ => x.tmod y

variable {alu x y}

theorem s32_fit (lower : -2147483648 ≤ x) (upper : x ≤ 2147483647) : s32.fit x = some x :=
  if_pos ⟨lower, upper⟩

theorem u32_fit (lower : 0 ≤ x) (upper : x ≤ 4294967295) : u32.fit x = some x :=
  if_pos ⟨lower, upper⟩

theorem s64_fit (lower : -9223372036854775808 ≤ x) (upper : x ≤ 9223372036854775807) :
    s64.fit x = some x :=
  if_pos ⟨lower, upper⟩

theorem u64_fit (lower : 0 ≤ x) (upper : x ≤ 18446744073709551615) : u64.fit x = some x :=
  if_pos ⟨lower, upper⟩

theorem byte_fit (lower : 0 ≤ x) (upper : x ≤ 255) : byte.fit x = some x :=
  if_pos ⟨lower, upper⟩

theorem div_eq (hne : y ≠ 0) : alu.div x y = alu.fit (x.tdiv y) :=
  if_neg hne

section NatCast

variable {m n : Nat} (hlo : alu.lo ≤ 0) (hhi : (m : Int) ≤ alu.hi) (hn : n ≠ 0)

include hlo hhi hn

/-- Without a sign a quotient is no larger than what is divided. -/
theorem div_natCast : alu.div m n = some ((m / n : Nat) : Int) := by
  have hle : ((m / n : Nat) : Int) ≤ m := Int.ofNat_le.2 (Nat.div_le_self m n)
  rw [div_eq (Int.natCast_ne_zero.2 hn), ← Int.ofNat_tdiv]
  exact if_pos ⟨hlo.trans (Int.natCast_nonneg _), hle.trans hhi⟩

theorem rem_natCast : alu.rem m n = some ((m % n : Nat) : Int) := by
  rw [rem, div_natCast hlo hhi hn, Option.map_some, Int.ofNat_tmod]

end NatCast

end Alu

/-- A product of bounded numbers is bounded. -/
theorem mul_bounded {x y m n : Int} (hx : -m ≤ x ∧ x ≤ m) (hy : -n ≤ y ∧ y ≤ n) :
    -(m * n) ≤ x * y ∧ x * y ≤ m * n := by
  have hm : 0 ≤ m := by omega
  have habs : |x * y| ≤ m * n := by
    rw [abs_mul]
    exact mul_le_mul (abs_le.2 hx) (abs_le.2 hy) (abs_nonneg y) hm
  exact abs_le.1 habs

/-! ### Loops -/

section Loops

variable {σ α : Type}

/-- A loop whose steps do not fail is one that cannot. -/
theorem foldlM_eq_some {act? : σ → α → Option σ} {act : σ → α → σ} {l : List α}
    (h : ∀ s, ∀ x ∈ l, act? s x = some (act s x)) (s : σ) :
    l.foldlM act? s = some (l.foldl act s) := by
  induction l generalizing s with
  | nil => rfl
  | cons x l ih =>
    rw [List.foldlM_cons, h s x List.mem_cons_self]
    exact ih (fun s y hy => h s y (List.mem_cons_of_mem x hy)) (act s x)

theorem mapM_eq_some {β : Type} {f? : α → Option β} {f : α → β} {l : List α}
    (h : ∀ x ∈ l, f? x = some (f x)) : l.mapM f? = some (l.map f) := by
  induction l with
  | nil => rfl
  | cons x l ih =>
    rw [List.mapM_cons, h x List.mem_cons_self, ih fun y hy => h y (List.mem_cons_of_mem x hy)]
    rfl

/-- A counting loop that comes from state to state. -/
theorem foldlM_range_eq_some {act? : σ → Nat → Option σ} (state : Nat → σ) {n : Nat}
    (h : ∀ i < n, act? (state i) i = some (state (i + 1))) :
    (List.range n).foldlM act? (state 0) = some (state n) := by
  induction n with
  | zero => rfl
  | succ n ih =>
    have hbefore := ih fun i hi => h i (Nat.lt_succ_of_lt hi)
    rw [List.range_succ, List.foldlM_append, hbefore, Option.bind_eq_bind, Option.bind_some,
      List.foldlM_cons, h n (Nat.lt_succ_self n)]
    rfl

end Loops

end ConsoleVideo
