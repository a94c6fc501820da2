import ConsoleVideo.Proofs.Gpu.Resolution
import ConsoleVideo.Proofs.Snapshot.Resume

/-!
# The picture of a loaded state

A load brings back the display mode with the status word, and whoever selects a mode at the control
register has the surface resized.  A load asks for no such thing: what is shown is the picture of the
hardware that was dumped, but at the size that the surface had before.

* `Surface.size`, `Gpu.picture` — the picture of the hardware at a size, with
  `showOn_eq_picture`: it is shown whatever the surface showed before;
* `Snapshot.picture_resumed` — a load brings back the pictures of all sizes, and
  `showOn_follow_resumed`: a request to resize is all that is missing;
* `Snapshot.shown_after_load_iff` — what is shown after a load, and when exactly it is what the
  dumped hardware showed.
-/

namespace ConsoleVideo

/-! ### Pictures -/

namespace Surface

/-- Columns and rows. -/
def size (surface : Surface) : Nat × Nat :=
  (surface.width, surface.height)

theorem ext {s t : Surface} (hview : s.view = t.view) (hsize : s.size = t.size)
    (hpixels : s.pixels = t.pixels) : s = t := by
  cases s
  cases t
  obtain ⟨hwidth, hheight⟩ := Prod.mk.inj hsize
  simp only [mk.injEq]
  exact ⟨hview, hwidth, hheight, hpixels⟩

/-- Pixels that are made from their places alone do not depend on those that were there. -/
theorem compose_const {s t : Surface} (hview : s.view = t.view) (hsize : s.size = t.size)
    (f : Nat → Nat → Rgba) :
    (s.compose fun x y _ => f x y) = t.compose fun x y _ => f x y := by
  obtain ⟨hwidth, hheight⟩ := Prod.mk.inj hsize
  refine ext hview hsize (Array.ext ?_ fun i hi hi' => ?_)
  · simp only [compose, Array.size_mapIdx, size_pixels, hwidth, hheight]
  · simp only [compose, Array.getElem_mapIdx, hwidth]

/-- A surface for the display forgets what it showed. -/
theorem refresh_congr {s t : Surface} (hs : s.view = .display) (ht : t.view = .display)
    (hsize : s.size = t.size) (vram : Vram) (status : Status) (display : DisplayGeometry) :
    s.refresh vram status display = t.refresh vram status display := by
  have hview : s.view = t.view := hs.trans ht.symm
  rw [refresh, refresh, hs, ht]
  by_cases hdisabled : status.displayDisabled = true
  · simp only [hdisabled, if_true]
    exact compose_const hview hsize fun _ _ => Rgba.opaquePixel 0 0 0
  · simp only [hdisabled]
    exact compose_const hview hsize (displayedPixel vram display status.displayDepth)

theorem size_refresh (surface : Surface) (vram : Vram) (status : Status)
    (display : DisplayGeometry) : (surface.refresh vram status display).size = surface.size := by
  rw [refresh]
  cases surface.view with
  | vram => rfl
  | display =>
    show (if status.displayDisabled then _ else _ : Surface).size = _
    split
    · rfl
    · rfl

end Surface

namespace Gpu

variable {gpu other : Gpu}

/-- The displayed picture, at a size. -/
def picture (gpu : Gpu) (size : Nat × Nat) : Surface :=
  gpu.showOn (Surface.blank .display size.1 size.2)

theorem size_picture (gpu : Gpu) (size : Nat × Nat) : (gpu.picture size).size = size :=
  Surface.size_refresh _ _ _ _

/-- **What a surface for the display shows depends on its size and on the hardware alone.** -/
theorem showOn_eq_picture (gpu : Gpu) {surface : Surface} (h : surface.view = .display) :
    gpu.showOn surface = gpu.picture surface.size :=
  have hblank : (Surface.blank .display surface.width surface.height).view = .display := rfl
  Surface.refresh_congr h hblank rfl gpu.vram gpu.status gpu.display

/-- The picture is made from the picture memory, the status and the place of the display. -/
theorem picture_congr (hvram : gpu.vram = other.vram) (hstatus : gpu.status = other.status)
    (hdisplay : gpu.display = other.display) (size : Nat × Nat) :
    gpu.picture size = other.picture size := by
  unfold picture showOn
  rw [hvram, hstatus, hdisplay]

end Gpu

/-! ### After a load -/

namespace Snapshot

variable {source target : Gpu}

/-- **A load brings back the pictures of all sizes.** -/
theorem picture_resumed (hsource : source.Reachable) (target : Gpu) (size : Nat × Nat) :
    (resumed source target).picture size = source.picture size := by
  have hrange : source.InRange := hsource.of_stable Gpu.InRange.portStable Gpu.InRange.powerOn
  have hvram : (resumed source target).vram = source.vram := rfl
  have hstatus : (resumed source target).status = source.status := rfl
  have hdisplay : (resumed source target).display = source.display :=
    displayOf_registersOf hrange.display
  exact Gpu.picture_congr hvram hstatus hdisplay size

/-- No request to resize waits after a load, so that the surface keeps its size. -/
theorem shown_resumed (hsource : source.Reachable) (htarget : target.IsFree) {surface : Surface}
    (hview : surface.view = .display) :
    ((resumed source target).drainTo surface).1.showOn
      ((resumed source target).drainTo surface).2 = source.picture surface.size := by
  have hqueue : (resumed source target).queue.toList = [] := htarget.queue
  have hsurface : ((resumed source target).drainTo surface).2 = surface := by
    rw [Gpu.drainTo_snd, hqueue]
    rfl
  rw [hsurface, Gpu.showOn_eq_picture _ hview, Gpu.drainTo_eq, hqueue,
    ← picture_resumed hsource target]
  exact Gpu.picture_congr rfl rfl rfl surface.size

/-- A request to resize is all that is missing: a surface that follows the loaded status shows what
the dumped hardware shows. -/
theorem showOn_follow_resumed (hsource : source.Reachable) (target : Gpu) {surface : Surface}
    (hview : surface.view = .display) :
    (resumed source target).showOn (surface.follow (resumed source target).status) =
      source.picture source.status.displayResolution := by
  have hfollow : (surface.follow source.status).size = source.status.displayResolution := by
    have hwanted : Surface.wantedSize surface.view source.status =
        source.status.displayResolution := by
      rw [hview]
      rfl
    have hsize := surface.size_resize (Surface.wantedSize surface.view source.status).1
      (Surface.wantedSize surface.view source.status).2
    rw [← hwanted]
    exact Prod.ext hsize.1 hsize.2
  show (resumed source target).showOn (surface.follow source.status) = _
  rw [Gpu.showOn_eq_picture _ ((surface.view_follow source.status).trans hview), hfollow,
    picture_resumed hsource target]

/-- **What is shown after a load, and when exactly it is what the dumped hardware shows.**  The
surface keeps the size that it had before, and at this size the picture is the right one; but it has
the size that the loaded display mode calls for only if both had the same resolution. -/
theorem shown_after_load_iff (hsource : source.Reachable) (htarget : target.IsFree)
    {surface : Surface} (hview : surface.view = .display)
    (hsize : surface.size = target.status.displayResolution) (dma other : Dma) :
    ∃ loaded controller, load (dump source dma) target other = .ok (loaded, controller) ∧
      let shown := (loaded.drainTo surface).1.showOn (loaded.drainTo surface).2
      loaded.status.displayResolution = source.status.displayResolution ∧
      shown.size = target.status.displayResolution ∧
      shown = source.picture shown.size ∧
      ∀ reference : Surface, reference.view = .display →
        reference.size = source.status.displayResolution →
        (shown = source.showOn reference ↔
          source.status.displayResolution = target.status.displayResolution) := by
  have hshown := shown_resumed hsource htarget hview
  have hshownSize := congrArg Surface.size hshown
  rw [Gpu.size_picture] at hshownSize
  refine ⟨resumed source target, _, load_dump htarget, rfl, hshownSize.trans hsize, ?_, ?_⟩
  · rw [hshownSize, hshown]
  · intro reference hreference hreferenceSize
    rw [hshown, Gpu.showOn_eq_picture source hreference, hreferenceSize, hsize]
    constructor
    · intro hpicture
      have hsizes := congrArg Surface.size hpicture
      rw [Gpu.size_picture, Gpu.size_picture] at hsizes
      exact hsizes.symm
    · intro hsame
      rw [hsame]

/-! ### A wider display -/

/-- Hardware that shows 320 columns, with nothing in flight. -/
def wideDisplay : Gpu :=
  ((Gpu.powerOn.act (.control 0x08000001)).drainTo (Surface.ofView .display)).1

theorem reachable_wideDisplay : wideDisplay.Reachable :=
  (Gpu.Reachable.powerOn.act (.control 0x08000001)).present (Surface.ofView .display)

theorem queue_wideDisplay : wideDisplay.queue.toList = [] := by
  rw [wideDisplay, Gpu.drainTo_eq]
  rfl

theorem displayResolution_wideDisplay : wideDisplay.status.displayResolution = (320, 240) := by
  rw [wideDisplay, Gpu.drainTo_eq]
  show (Gpu.runAll _ _).status.displayResolution = _
  rw [Gpu.displayResolution_runAll]
  exact Gpu.displayResolution_setDisplayMode Gpu.powerOn 0x08000001

/-- The wider display is loaded where the display is as it is at the start. -/
theorem shown_after_load_iff_wideDisplay :
    wideDisplay.Reachable ∧ Gpu.powerOn.IsFree ∧ (Surface.ofView .display).view = .display ∧
      (Surface.ofView .display).size = Gpu.powerOn.status.displayResolution ∧
      ∃ loaded controller,
        load (dump wideDisplay Dma.powerOn) Gpu.powerOn Dma.powerOn = .ok (loaded, controller) ∧
        let shown := (loaded.drainTo (Surface.ofView .display)).1.showOn
          (loaded.drainTo (Surface.ofView .display)).2
        loaded.status.displayResolution = wideDisplay.status.displayResolution ∧
        shown.size = Gpu.powerOn.status.displayResolution ∧
        shown = wideDisplay.picture shown.size ∧
        ∀ reference : Surface, reference.view = .display →
          reference.size = wideDisplay.status.displayResolution →
          (shown = wideDisplay.showOn reference ↔
            wideDisplay.status.displayResolution = Gpu.powerOn.status.displayResolution) :=
  have hfree : Gpu.powerOn.IsFree := ⟨rfl, rfl⟩
  have hsize : (Surface.ofView .display).size = Gpu.powerOn.status.displayResolution :=
    Status.displayResolution_reset.symm
  ⟨reachable_wideDisplay, hfree, rfl, hsize,
    shown_after_load_iff reachable_wideDisplay hfree rfl hsize Dma.powerOn Dma.powerOn⟩

/-- A load does not always lead to the picture that the dumped hardware shows: a display of 320
columns is shown with 256. -/
theorem not_forall_shown_after_load :
    ¬ ∀ (source target loaded : Gpu) (dma other controller : Dma) (surface : Surface),
      source.Reachable → source.queue.toList = [] → target.IsFree → surface.view = .display →
      surface.size = target.status.displayResolution →
      load (dump source dma) target other = .ok (loaded, controller) →
      let shown := (loaded.drainTo surface).1.showOn (loaded.drainTo surface).2
      shown.size = source.status.displayResolution ∧
      ∀ reference : Surface, reference.view = .display →
        reference.size = source.status.displayResolution →
        shown.pixels = (source.showOn reference).pixels := by
  intro hall
  have hfree : Gpu.powerOn.IsFree := ⟨rfl, rfl⟩
  have hview : (Surface.ofView .display).view = .display := rfl
  have hclaimed := (hall wideDisplay Gpu.powerOn (resumed wideDisplay Gpu.powerOn) Dma.powerOn
    Dma.powerOn _ (Surface.ofView .display) reachable_wideDisplay queue_wideDisplay hfree hview
    Status.displayResolution_reset.symm (load_dump hfree)).1
  have hshown := congrArg Surface.size (shown_resumed reachable_wideDisplay hfree hview)
  rw [Gpu.size_picture, hclaimed, displayResolution_wideDisplay] at hshown
  exact absurd hshown (by decide)

end Snapshot

end ConsoleVideo
