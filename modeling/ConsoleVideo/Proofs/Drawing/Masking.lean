import ConsoleVideo.Proofs.Command.Accepted
import ConsoleVideo.Proofs.Drawing.Strokes
import ConsoleVideo.Proofs.Gpu.Pixels

/-!
# Masked pixels

Every way to draw looks at the mask flag of what is there before it writes, each in code of its own:
fragments of shapes, copies pixel by pixel, uploads as their payload comes to a pixel.  What they have
in common is that a masked pixel stays as it is, and that where flags are to be set, whatever is
written is masked from then on.

* `Vram.Masked`, `Vram.Spares` — the masked cells of a picture, and what drawing may do to it, with
  `Spares.trans`;
* `Gpu.sparedBy_strokes` — every stroke keeps to it, whatever draws it, but those of a fill;
* `Vram.Along` — a row of pictures in which drawing has kept to it all the time;
* `Vram.Along.splits` — in such a row no cell changes twice.
-/

namespace ConsoleVideo

/-! ### One pixel -/

theorem Native.isMasked_forceMask (n : Native) : Native.isMasked (Native.forceMask n true) = true := by
  have hflag : (Native.forceMask n true).toNat / 32768 = 1 := by
    rw [Native.forceMask, if_pos rfl, UInt16.toNat_ofNat']
    omega
  rw [Native.isMasked, hflag]
  rfl

/-- A colour that was given its mask flag keeps it when it is written. -/
theorem Deep.isMasked_ofWord_withMask (c : Deep) :
    Deep.isMasked (Deep.ofWord (Deep.withMask c true)) = true := by
  have hflag : Deep.mask (Deep.ofWord (Deep.withMask c true)) = 1 := by
    unfold Deep.mask Deep.ofWord Deep.withMask
    rw [UInt32.toNat_ofNat', UInt32.toNat_ofNat', if_pos rfl]
    omega
  rw [Deep.isMasked, hflag]
  rfl

namespace Vram

/-- The cell has its mask flag. -/
def Masked (vram : Vram) (i : Fin size) : Prop :=
  Native.isMasked (vram.both i).2 = true

/-- Masked cells stay as they are, and where flags are to be set, other cells are masked when they
change. -/
def Spares (setMask : Bool) (before after : Vram) : Prop :=
  ∀ i, after.both i = before.both i ∨ (¬ before.Masked i ∧ (setMask = true → after.Masked i))

theorem Masked.congr {vram other : Vram} {i : Fin size} (h : vram.Masked i)
    (hboth : other.both i = vram.both i) : other.Masked i := by
  rw [Masked, hboth]
  exact h

namespace Spares

variable {setMask : Bool} {vram before between after : Vram}

theorem refl (setMask : Bool) (vram : Vram) : Spares setMask vram vram :=
  fun _ => .inl rfl

/-- **What is spared twice is spared**: a cell that was masked on the way is left alone later. -/
theorem trans (h : Spares setMask before between) (h' : Spares setMask between after) :
    Spares setMask before after := by
  intro i
  rcases h i with hsame | ⟨hfree, hset⟩
  · rcases h' i with hsame' | ⟨hfree', hset'⟩
    · exact .inl (hsame'.trans hsame)
    · exact .inr ⟨fun hmasked => hfree' (hmasked.congr hsame), hset'⟩
  · refine .inr ⟨hfree, fun hon => ?_⟩
    rcases h' i with hsame' | ⟨-, hset'⟩
    · exact (hset hon).congr hsame'
    · exact hset' hon

theorem both_eq (h : Spares setMask before after) {i : Fin size} (hmasked : before.Masked i) :
    after.both i = before.both i := by
  rcases h i with hsame | ⟨hfree, -⟩
  · exact hsame
  · exact absurd hmasked hfree

/-- It is enough to look at the one cell that is written. -/
theorem of_cell {i : Fin size} (hother : ∀ j, i ≠ j → after.both j = before.both j)
    (hfree : ¬ before.Masked i) (hset : setMask = true → after.Masked i) :
    Spares setMask before after := by
  intro j
  by_cases hj : i = j
  · subst hj
    exact .inr ⟨hfree, hset⟩
  · exact .inl (hother j hj)

theorem put {i : Fin size} (hfree : ¬ vram.Masked i) (deep : Deep) {native : Native}
    (hset : setMask = true → Native.isMasked native = true) :
    Spares setMask vram (vram.put i deep native) := by
  refine of_cell (fun j hj => ?_) hfree fun hon => ?_
  · rw [both_put, if_neg hj]
  · rw [Masked, both_put, if_pos rfl]
    exact hset hon

/-! ### Strokes -/

/-- A copied pixel is put down before its flag is raised, so that the cell is written twice. -/
theorem copyStep (copy : VramCopy) (setMask : Bool) (vram : Vram) (dx dy : Nat) :
    Spares setMask vram (copy.step setMask true vram dx dy) := by
  simp only [VramCopy.step, Bool.true_and]
  split
  · exact refl setMask vram
  · next hfree =>
    cases setMask with
    | false => exact put hfree _ fun hon => Bool.noConfusion hon
    | true =>
      refine of_cell (fun j hj => ?_) hfree fun _ => ?_
      · rw [if_pos rfl, raiseMask, both_put, if_neg hj, Vram.copy, both_put, if_neg hj]
      · rw [Masked, if_pos rfl, raiseMask, both_put, if_pos rfl]
        exact Native.isMasked_forceMask _

theorem uploadStep (load : ImageLoad) (setMask : Bool) (vram : Vram) (dx dy : Nat) :
    Spares setMask vram (load.step setMask true vram dx dy) := by
  simp only [ImageLoad.step, Bool.true_and]
  split
  · exact refl setMask vram
  · split
    · exact refl setMask vram
    · next hfree =>
      refine put hfree _ fun hon => ?_
      rw [hon]
      exact Native.isMasked_forceMask _

theorem shade {pen : Pen} (hcheck : pen.checkMask = true) (paint : Paint) (vram : Vram)
    (fragment : Fragment) : Spares pen.setMask vram (pen.shade paint vram fragment) := by
  rw [Pen.shade, hcheck, Bool.true_and]
  split
  · exact refl pen.setMask vram
  · next hfree =>
    split
    · exact refl pen.setMask vram
    · next color translucent _ =>
      refine put hfree _ fun hon => ?_
      rw [Deep.isMasked_pack, Pen.mix, hon, Bool.true_or]
      exact Deep.isMasked_ofWord_withMask _

end Spares

/-- Every one of the strokes spares what is masked. -/
def SparedBy (setMask : Bool) (strokes : List Stroke) : Prop :=
  ∀ stroke ∈ strokes, ∀ vram, Spares setMask vram (stroke vram)

namespace SparedBy

variable {setMask : Bool}

theorem nil (setMask : Bool) : SparedBy setMask [] :=
  fun _ hstroke => absurd hstroke List.not_mem_nil

theorem append {strokes later : List Stroke} (h : SparedBy setMask strokes)
    (h' : SparedBy setMask later) : SparedBy setMask (strokes ++ later) := by
  intro stroke hstroke
  rcases List.mem_append.1 hstroke with hfirst | hlater
  · exact h stroke hfirst
  · exact h' stroke hlater

theorem walk {act : Vram → Nat → Nat → Vram}
    (hact : ∀ (vram : Vram) (dx dy : Nat), Spares setMask vram (act vram dx dy))
    (width height : Nat) : SparedBy setMask (Grid.strokes width height act) := by
  intro stroke hstroke
  obtain ⟨offset, -, rfl⟩ := List.mem_map.1 hstroke
  exact fun vram => hact vram offset.1 offset.2

section Pen

variable {pen : Pen} (hcheck : pen.checkMask = true)

include hcheck

theorem scan (scan : Scan) (paint : Paint) : SparedBy pen.setMask (scan.strokes pen paint) := by
  intro stroke hstroke
  obtain ⟨fragment, -, rfl⟩ := List.mem_map.1 hstroke
  exact fun vram => .shade hcheck paint vram fragment

theorem triangle (area : DrawingArea) (a b c : Point) (shaded : Bool) (paint : Paint) :
    SparedBy pen.setMask (Triangle.strokes area a b c shaded pen paint) := by
  rw [Triangle.strokes]
  cases Triangle.ofPoints? area a b c with
  | none => exact nil pen.setMask
  | some t => exact scan hcheck _ paint

end Pen

theorem polygon {status : Status} (hcheck : status.checkMask = true) (environment : Environment)
    (polygon : Polygon) : SparedBy status.setMask (polygon.strokes status environment) := by
  have hpen : (Pen.ofSettings status environment).checkMask = true := hcheck
  rw [Polygon.strokes]
  cases polygon.fourth with
  | none => exact triangle hpen _ _ _ _ _ _
  | some fourth => exact (triangle hpen _ _ _ _ _ _).append (triangle hpen _ _ _ _ _ _)

end SparedBy

end Vram

/-! ### Jobs -/

namespace Gpu

/-- No polygon changes what mask flags mean. -/
theorem maskBits_polygonStatus (status : Status) (allowed : Bool) (polygon : Polygon) :
    (polygonStatus status allowed polygon).setMask = status.setMask ∧
      (polygonStatus status allowed polygon).checkMask = status.checkMask := by
  unfold polygonStatus
  cases polygon.texture <;> exact ⟨rfl, rfl⟩

variable {gpu : Gpu} {job : Job}

/-- **Every stroke spares what is masked, but those of a fill.** -/
theorem sparedBy_strokes (hcheck : gpu.status.checkMask = true) (hjob : job.isUnguarded = false) :
    Vram.SparedBy gpu.status.setMask (gpu.strokes job) := by
  cases job with
  | fill fill => exact Bool.noConfusion hjob
  | polygon polygon =>
    obtain ⟨hset, hkept⟩ := maskBits_polygonStatus gpu.status
      gpu.environment.textureDisableAllowed polygon
    rw [← hset]
    exact Vram.SparedBy.polygon (hkept.trans hcheck) gpu.environment polygon
  | line line => exact Vram.SparedBy.scan hcheck _ _
  | rectangle rectangle => exact Vram.SparedBy.scan hcheck _ _
  | copy copy =>
    rw [strokes, hcheck]
    exact Vram.SparedBy.walk (Vram.Spares.copyStep copy gpu.status.setMask) _ _
  | upload image =>
    rw [strokes, hcheck]
    exact Vram.SparedBy.walk (Vram.Spares.uploadStep image gpu.status.setMask) _ _
  | _ => exact Vram.SparedBy.nil gpu.status.setMask

/-- **What mask flags mean is changed by nothing but a mask setting.** -/
theorem maskBits_run (hjob : job.isUnguarded = false) :
    (gpu.run job).status.setMask = gpu.status.setMask ∧
      (gpu.run job).status.checkMask = gpu.status.checkMask := by
  cases job with
  | maskBits set check => exact Bool.noConfusion hjob
  | polygon polygon => exact maskBits_polygonStatus _ _ polygon
  | _ => exact ⟨rfl, rfl⟩

end Gpu

/-! ### Rows of pictures -/

namespace Vram

/-- A row of pictures that drawing went through on the way from one to another. -/
structure Along (setMask : Bool) (start : Vram) (pictures : List Vram) (stop : Vram) : Prop where
  pairwise : pictures.Pairwise (Spares setMask)
  before : ∀ vram ∈ pictures, Spares setMask start vram
  after : ∀ vram ∈ pictures, Spares setMask vram stop
  whole : Spares setMask start stop

namespace Along

variable {setMask : Bool} {start between stop : Vram} {pictures later : List Vram}

theorem nil (setMask : Bool) (vram : Vram) : Along setMask vram [] vram where
  pairwise := .nil
  before := fun _ hvram => absurd hvram List.not_mem_nil
  after := fun _ hvram => absurd hvram List.not_mem_nil
  whole := .refl setMask vram

theorem cons (h : Spares setMask start between) (hrest : Along setMask between pictures stop) :
    Along setMask start (start :: pictures) stop where
  pairwise := List.pairwise_cons.2 ⟨fun vram hvram => h.trans (hrest.before vram hvram),
    hrest.pairwise⟩
  before := by
    intro vram hvram
    rcases List.mem_cons.1 hvram with rfl | hlater
    · exact .refl setMask vram
    · exact h.trans (hrest.before vram hlater)
  after := by
    intro vram hvram
    rcases List.mem_cons.1 hvram with rfl | hlater
    · exact h.trans hrest.whole
    · exact hrest.after vram hlater
  whole := h.trans hrest.whole

theorem append (h : Along setMask start pictures between) (h' : Along setMask between later stop) :
    Along setMask start (pictures ++ later) stop where
  pairwise := List.pairwise_append.2 ⟨h.pairwise, h'.pairwise,
    fun vram hvram other hother => (h.after vram hvram).trans (h'.before other hother)⟩
  before := by
    intro vram hvram
    rcases List.mem_append.1 hvram with hfirst | hlater
    · exact h.before vram hfirst
    · exact h.whole.trans (h'.before vram hlater)
  after := by
    intro vram hvram
    rcases List.mem_append.1 hvram with hfirst | hlater
    · exact (h.after vram hfirst).trans h'.whole
    · exact h'.after vram hlater
  whole := h.whole.trans h'.whole

/-- Strokes that spare what is masked make such a row. -/
theorem scanl {strokes : List Stroke} (h : SparedBy setMask strokes) (vram : Vram) :
    Along setMask vram (strokes.scanl (fun vram stroke => stroke vram) vram)
      (vram.drawn strokes) := by
  induction strokes generalizing vram with
  | nil =>
    rw [List.scanl_nil]
    exact cons (.refl setMask vram) (nil setMask vram)
  | cons stroke strokes ih =>
    rw [List.scanl_cons]
    exact cons (h stroke List.mem_cons_self vram)
      (ih (fun later hlater => h later (List.mem_cons_of_mem stroke hlater)) (stroke vram))

/-- **Where flags are set, no cell changes twice**: up to some picture of the row it is as it was,
and from then on it is masked and stays. -/
theorem splits (h : Along true start pictures stop) (i : Fin size) :
    ∃ before after new, pictures = before ++ after ∧
      (∀ vram ∈ before, vram.both i = start.both i) ∧
      ∀ vram ∈ after, vram.Masked i ∧ vram.both i = new := by
  have hpairwise := h.pairwise
  have hbefore := h.before
  clear h
  induction pictures with
  | nil => exact ⟨[], [], start.both i, rfl, by simp, by simp⟩
  | cons vram pictures ih =>
    obtain ⟨hlater, hrest⟩ := List.pairwise_cons.1 hpairwise
    rcases hbefore vram List.mem_cons_self i with hsame | ⟨-, hmasked⟩
    · obtain ⟨before, after, new, hsplit, hstart, hnew⟩ :=
        ih hrest fun later hmem => hbefore later (List.mem_cons_of_mem vram hmem)
      refine ⟨vram :: before, after, new, by rw [hsplit, List.cons_append], ?_, hnew⟩
      intro other hother
      rcases List.mem_cons.1 hother with rfl | hmem
      · exact hsame
      · exact hstart other hmem
    · -- From the first picture on in which the cell is another one, it is masked.
      refine ⟨[], vram :: pictures, vram.both i, rfl, by simp, ?_⟩
      intro other hother
      rcases List.mem_cons.1 hother with rfl | hmem
      · exact ⟨hmasked rfl, rfl⟩
      · have hkept := (hlater other hmem).both_eq (hmasked rfl)
        exact ⟨(hmasked rfl).congr hkept, hkept⟩

end Along

end Vram

end ConsoleVideo
