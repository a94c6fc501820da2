import ConsoleVideo.Error

/-!
# Numbers as bytes

Saved states are sequences of numbers of fixed width, lowest byte first.

* `putNumber` and `takeNumber` — one number, with `takeNumber_putNumber` and
  `putNumber_of_takeNumber`: a number and its bytes determine each other;
* `putFlag` and `takeFlag` — a truth value, one byte that is 0 or 1;
* `putArray` and `takeArray` — a count and as many numbers.
-/

namespace ConsoleVideo.Snapshot

/-- Takes a value from the front of a sequence of bytes and leaves the rest. -/
abbrev Taker (α : Type) := StateT (List UInt8) (Except SnapshotError) α

/-! ### Numbers -/

/-- `n` in `width` bytes, before `rest`. -/
def putNumber (width n : Nat) (rest : List UInt8) : List UInt8 :=
  match width with
  | 0 => rest
  | width + 1 => UInt8.ofNat n :: putNumber width (n / 256) rest

/-- The number in the next `width` bytes. -/
def takeNumber (width : Nat) : Taker Nat := fun bytes =>
  match width, bytes with
  | 0, bytes => .ok (0, bytes)
  | width + 1, [] => .error (.endOfInput (width + 1))
  | width + 1, b :: bytes =>
    match takeNumber width bytes with
    | .ok (n, rest) => .ok (b.toNat + 256 * n, rest)
    | .error e => .error e

theorem length_putNumber (width n : Nat) (rest : List UInt8) :
    (putNumber width n rest).length = width + rest.length := by
  induction width generalizing n with
  | zero => simp [putNumber]
  | succ width ih => simp [putNumber, ih]; omega

theorem takeNumber_putNumber (width n : Nat) (rest : List UInt8) :
    takeNumber width (putNumber width n rest) = .ok (n % Nat.pow 256 width, rest) := by
  induction width generalizing n with
  | zero => simp [putNumber, takeNumber, Nat.mod_one]
  | succ width ih =>
    have split : n % Nat.pow 256 (width + 1) = n % 256 + 256 * (n / 256 % Nat.pow 256 width) := by
      rw [Nat.pow_eq, Nat.pow_succ, Nat.mul_comm, Nat.mod_mul, Nat.pow_eq]
    simp only [putNumber, takeNumber, ih, split]
    rfl

theorem putNumber_of_takeNumber {width n : Nat} {bytes rest : List UInt8}
    (h : takeNumber width bytes = .ok (n, rest)) :
    bytes = putNumber width n rest ∧ n < Nat.pow 256 width := by
  induction width generalizing n bytes with
  | zero =>
    simp only [takeNumber, Except.ok.injEq, Prod.mk.injEq] at h
    obtain ⟨rfl, rfl⟩ := h
    simp [putNumber]
  | succ width ih =>
    cases bytes with
    | nil => simp [takeNumber] at h
    | cons b bytes =>
      simp only [takeNumber] at h
      split at h
      · next m rest' taken =>
        simp only [Except.ok.injEq, Prod.mk.injEq] at h
        obtain ⟨rfl, rfl⟩ := h
        obtain ⟨rfl, small⟩ := ih taken
        have byte := b.toNat_lt
        have low : UInt8.ofNat (b.toNat + 256 * m) = b := by
          apply UInt8.toNat_inj.1
          rw [UInt8.toNat_ofNat']
          omega
        have high : (b.toNat + 256 * m) / 256 = m := by omega
        rw [putNumber, low, high, Nat.pow_eq, Nat.pow_succ]
        rw [Nat.pow_eq] at small
        exact ⟨rfl, by omega⟩
      · simp at h

/-! ### Truth values -/

def putFlag (b : Bool) (rest : List UInt8) : List UInt8 :=
  putNumber 1 b.toNat rest

def takeFlag : Taker Bool := do
  let n ← takeNumber 1
  match n with
  | 0 => pure false
  | 1 => pure true
  | n => throw (.notBoolean (UInt8.ofNat n))

/-! ### Arrays -/

/-- The elements of an array, `width` bytes each, before `rest`. -/
def putElements {α : Type} (width : Nat) (toNat : α → Nat) (xs : Array α) (rest : List UInt8) :
    List UInt8 :=
  xs.foldr (fun x rest => putNumber width (toNat x) rest) rest

/-- The number of elements in eight bytes, then the elements. -/
def putArray {α : Type} (width : Nat) (toNat : α → Nat) (xs : Array α) (rest : List UInt8) :
    List UInt8 :=
  putNumber 8 xs.size (putElements width toNat xs rest)

/-- `count` elements of `width` bytes, added to those taken before. -/
def takeElements {α : Type} (width : Nat) (ofNat : Nat → α) (count : Nat) (xs : Array α) :
    Taker (Array α) := fun bytes =>
  match count with
  | 0 => .ok (xs, bytes)
  | count + 1 =>
    match takeNumber width bytes with
    | .ok (n, rest) => takeElements width ofNat count (xs.push (ofNat n)) rest
    | .error e => .error e

/-- The number of elements in eight bytes, then the elements. -/
def takeArray {α : Type} (width : Nat) (ofNat : Nat → α) : Taker (Array α) := do
  let count ← takeNumber 8
  takeElements width ofNat count #[]

end ConsoleVideo.Snapshot
