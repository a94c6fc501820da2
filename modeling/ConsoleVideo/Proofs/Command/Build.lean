import ConsoleVideo.Command.Decoder

/-!
# Building jobs from complete commands

A builder reads its words by position.  The word count of the command table and the positions are
written down apart, so that they agree is something to prove:

* `build?_isSome` — the words that the table asks for are all that a builder reads;
* `eq_upload_of_build?` — an upload is the only command whose job waits for more words;
* `isDrawing_of_build?` — no drawing command asks for the surface, and none reads back nothing.
-/

namespace ConsoleVideo

/-- What the jobs of drawing commands have in common. -/
structure Job.IsDrawing (job : Job) : Prop where
  /-- They do without the surface. -/
  isDeferred : job.isDeferred = false
  /-- What they read back is at least one word. -/
  wordCount_pos : ∀ rect, job = .download rect → 0 < rect.wordCount

/-- No block is empty. -/
theorem VramRect.wordCount_ofWords_pos (position size : Word) :
    0 < (VramRect.ofWords position size).wordCount := by
  have hpixels : 0 < (VramRect.ofWords position size).pixelCount :=
    Nat.mul_pos (VramRect.wrappedSize_pos _ _) (VramRect.wrappedSize_pos _ _)
  unfold VramRect.wordCount
  omega

namespace PolygonStyle

variable {style : PolygonStyle} {words : List Word}

/-- The words of corner `i` end before the next corner's position. -/
theorem corner?_isSome (i : Nat)
    (h : i * style.stride + 1 + style.textured.toNat < words.length) :
    (style.corner? words i).isSome := by
  have hcolor : (if style.shaded then i * style.stride else 0) < words.length := by
    split <;> omega
  have hposition : i * style.stride + 1 < words.length := by omega
  unfold corner?
  rw [List.getElem?_eq_getElem hcolor, List.getElem?_eq_getElem hposition]
  cases htex : style.textured with
  | false => simp
  | true =>
    rw [htex, Bool.toNat_true] at h
    rw [List.getElem?_eq_getElem (show i * style.stride + 2 < words.length by omega)]
    simp

/-- The two texture words that matter belong to the first two corners. -/
theorem texture?_isSome (h : style.stride + 1 + style.textured.toNat < words.length) :
    (style.texture? words).isSome := by
  unfold texture?
  cases htex : style.textured with
  | false => simp
  | true =>
    rw [htex, Bool.toNat_true] at h
    rw [List.getElem?_eq_getElem (show 2 < words.length by omega),
      List.getElem?_eq_getElem (show style.stride + 2 < words.length by omega)]
    simp

/-- A polygon reads no word beyond those of its last corner. -/
theorem polygon?_isSome (h : (Command.polygon style).wordCount ≤ words.length) :
    (style.polygon? words).isSome := by
  have hcount : style.corners * style.stride ≤ words.length + style.shaded.toNat - 1 := by
    have := Command.wordCount_pos (Command.polygon style)
    have := Bool.toNat_le style.shaded
    have := Nat.mul_pos (show 0 < style.corners by unfold corners; split <;> omega)
      (show 0 < style.stride by unfold stride; omega)
    simp only [Command.wordCount] at h
    omega
  have hstride : style.stride = 1 + style.textured.toNat + style.shaded.toNat := rfl
  have hcorner : ∀ i, i < style.corners → ∃ corner, style.corner? words i = some corner := by
    intro i hi
    have hnext : (i + 1) * style.stride ≤ style.corners * style.stride :=
      Nat.mul_le_mul_right _ hi
    rw [Nat.succ_mul] at hnext
    exact Option.isSome_iff_exists.1 (corner?_isSome i (by omega))
  have htexture : (style.texture? words).isSome := by
    have hthree : 3 * style.stride ≤ style.corners * style.stride :=
      Nat.mul_le_mul_right _ (by unfold corners; split <;> omega)
    exact texture?_isSome (by omega)
  obtain ⟨texture, htexture⟩ := Option.isSome_iff_exists.1 htexture
  have hthree : 3 ≤ style.corners := by unfold corners; split <;> omega
  obtain ⟨first, hfirst⟩ := hcorner 0 (by omega)
  obtain ⟨second, hsecond⟩ := hcorner 1 (by omega)
  obtain ⟨third, hthird⟩ := hcorner 2 (by omega)
  unfold polygon?
  rw [hfirst, hsecond, hthird, htexture]
  cases hquad : style.quad with
  | false => simp
  | true =>
    obtain ⟨fourth, hfourth⟩ := hcorner 3 (by simp [corners, hquad])
    rw [hfourth]
    simp

end PolygonStyle

namespace Command

variable {words : List Word} {job : Job}

theorem rectangle?_isSome {style : RectangleStyle}
    (h : (rectangle style).wordCount ≤ words.length) : (rectangle? style words).isSome := by
  obtain ⟨side, textured, translucent, raw⟩ := style
  simp only [wordCount] at h
  have hcolor : 0 < words.length := by omega
  have hposition : 1 < words.length := by omega
  have htexel : textured = true → 2 < words.length := by
    rintro rfl
    rw [Bool.toNat_true] at h
    omega
  have hsize : side = none → 2 + textured.toNat < words.length := by
    rintro rfl
    rw [Option.isSome_none, if_neg Bool.false_ne_true] at h
    omega
  unfold rectangle?
  rw [List.getElem?_eq_getElem hcolor, List.getElem?_eq_getElem hposition]
  cases textured <;> cases side
  · have hlast : 2 < words.length := hsize rfl
    simp [List.getElem?_eq_getElem hlast]
  · simp
  · have hlast : 3 < words.length := hsize rfl
    simp [List.getElem?_eq_getElem (htexel rfl), List.getElem?_eq_getElem hlast]
  · simp [List.getElem?_eq_getElem (htexel rfl)]

/-- **A builder finds every word it reads.**  Polylines are the one command without a builder. -/
theorem build?_isSome {command : Command} (hoffered : command ≠ polyline)
    (h : command.wordCount ≤ words.length) : (command.build? words).isSome := by
  cases command with
  | polyline => exact absurd rfl hoffered
  | polygon style =>
    rw [build?, Option.isSome_map]
    exact PolygonStyle.polygon?_isSome h
  | rectangle style =>
    rw [build?, Option.isSome_map]
    exact rectangle?_isSome h
  | line shaded translucent =>
    cases shaded with
    | false =>
      match words, h with
      | _ :: _ :: _ :: _, _ => rfl
    | true =>
      match words, h with
      | _ :: _ :: _ :: _ :: _, _ => rfl
  | copy =>
    match words, h with
    | _ :: _ :: _ :: _ :: _, _ => rfl
  | fill | upload | download =>
    match words, h with
    | _ :: _ :: _ :: _, _ => rfl
  | nop | clearCache | interruptRequest | drawMode | textureWindow | areaTopLeft
  | areaBottomRight | drawOffset | maskBits =>
    match words, h with
    | _ :: _, _ => rfl

/-- **Only an upload goes on after its own words**, and it starts without pixels. -/
theorem eq_upload_of_build? {command : Command} {image : ImageLoad}
    (h : command.build? words = some (.upload image)) :
    command = upload ∧ ∃ position size, words[1]? = some position ∧ words[2]? = some size ∧
      image = ⟨VramRect.ofWords position size, #[]⟩ := by
  cases command <;>
    simp only [build?, Option.bind_eq_bind, Option.pure_def, Option.bind_eq_some_iff,
      Option.map_eq_some_iff, Option.some.injEq, reduceCtorEq, and_false, exists_false,
      Job.upload.injEq] at h
  obtain ⟨position, hposition, size, hsize, rfl⟩ := h
  exact ⟨rfl, position, size, hposition, hsize, rfl⟩

/-- What a command builds is the job of a drawing command. -/
theorem isDrawing_of_build? {command : Command} (h : command.build? words = some job) :
    job.IsDrawing := by
  constructor
  · cases job <;> try rfl
    cases command <;>
      simp only [build?, Option.bind_eq_bind, Option.pure_def, Option.bind_eq_some_iff,
        Option.map_eq_some_iff, Option.some.injEq, reduceCtorEq, and_false, exists_false] at h
  · rintro rect rfl
    cases command <;>
      simp only [build?, Option.bind_eq_bind, Option.pure_def, Option.bind_eq_some_iff,
        Option.map_eq_some_iff, Option.some.injEq, reduceCtorEq, and_false, exists_false,
        Job.download.injEq] at h
    obtain ⟨position, -, size, -, rfl⟩ := h
    exact VramRect.wordCount_ofWords_pos position size

end Command

end ConsoleVideo
