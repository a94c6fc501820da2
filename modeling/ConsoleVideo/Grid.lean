/-!
# Walks over blocks of cells

Pictures are written row by row, each row from the left.

* `Grid.walk` — runs an action over the cells of a block in that order;
* `Grid.offsets` — the cells themselves, with `walk_eq_foldl`: walking a block is acting on its
  cells one after the other;
* `span` — the integers from one bound to another, both included.
-/

namespace ConsoleVideo

namespace Grid

variable {σ : Type}

/-- The cells of a block, row by row, as offsets from its corner. -/
def offsets (width height : Nat) : List (Nat × Nat) :=
  (List.range height).flatMap fun dy => (List.range width).map fun dx => (dx, dy)

/-- Runs `act` on every cell of a block, row by row. -/
@[specialize] def walk (width height : Nat) (act : σ → Nat → Nat → σ) (s : σ) : σ :=
  (List.range height).foldl
    (fun s dy => (List.range width).foldl (fun s dx => act s dx dy) s) s

theorem walk_eq_foldl (width height : Nat) (act : σ → Nat → Nat → σ) (s : σ) :
    walk width height act s =
      (offsets width height).foldl (fun s cell => act s cell.1 cell.2) s := by
  simp [walk, offsets, List.foldl_flatMap, List.foldl_map]

theorem mem_offsets {width height : Nat} {cell : Nat × Nat} :
    cell ∈ offsets width height ↔ cell.1 < width ∧ cell.2 < height := by
  obtain ⟨dx, dy⟩ := cell
  simp only [offsets, List.mem_flatMap, List.mem_map, List.mem_range, Prod.mk.injEq]
  constructor
  · rintro ⟨y, hy, x, hx, rfl, rfl⟩
    exact ⟨hx, hy⟩
  · intro ⟨hx, hy⟩
    exact ⟨dy, hy, dx, hx, rfl, rfl⟩

end Grid

/-! ### Spans of integers -/

/-- The integers from `lo` to `hi`, both included; none if `hi < lo`. -/
def span (lo hi : Int) : List Int :=
  (List.range (hi - lo + 1).toNat).map fun (i : Nat) => lo + (i : Int)

theorem mem_span {lo hi x : Int} : x ∈ span lo hi ↔ lo ≤ x ∧ x ≤ hi := by
  simp only [span, List.mem_map, List.mem_range]
  constructor
  · rintro ⟨i, bound, rfl⟩
    omega
  · intro ⟨lower, upper⟩
    exact ⟨(x - lo).toNat, by omega, by omega⟩

end ConsoleVideo
