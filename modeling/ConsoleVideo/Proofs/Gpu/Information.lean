import ConsoleVideo.Proofs.Gpu.Readback
import Mathlib.Data.List.DropRight

/-!
# Information

Four settings of the drawing environment can be asked for.  They are kept taken apart, as masks and
offsets, corners and signed numbers, and are put together again for whoever asks.  What comes back is
nevertheless what software sent last, in whatever portions it came and whatever else was done.

* `DrawSetting` — the settings, with what they are asked for by and made by; `DrawSetting.word` puts
  one together;
* `DrawSetting.madeBy`, `DrawSetting.saidBy`, `DrawSetting.madeBy_of_job?` — the jobs that make a
  setting are those of the commands that say so, and keep every bit;
* `DrawSetting.after` — what the last of some commands says;
* `Gpu.toNat_word_foldl`, `Gpu.exists_since_reset` — settings in a run without a reset, and that every
  run goes on from a reset;
* `Gpu.read_information` — what is read where a setting is asked for.
-/

namespace ConsoleVideo

/-! ### Taken apart and put together -/

theorem TextureWindow.toNat_word_ofWord (w : Word) : (ofWord w).word.toNat = w.field 0 20 := by
  rw [toNat_word]
  simp only [ofWord, Word.field, Nat.pow_eq]
  omega

theorem DrawingArea.toNat_cornerWord (w : Word) :
    (cornerWord (w.field 0 10) (w.field 10 10)).toNat = w.field 0 20 := by
  simp only [cornerWord, UInt32.toNat_ofNat', Word.field, Nat.pow_eq]
  omega

theorem DrawOffset.toNat_word_ofWord (w : Word) : (ofWord w).word.toNat = w.field 0 22 := by
  have hlow : ∀ n : Nat, (signed11 n % 2048).toNat = n % 2048 := by
    intro n
    have hmod : signed11 n % 2048 = (n : Int) % 2048 := Int.bmod_emod
    omega
  rw [word, ofWord, hlow, hlow, UInt32.toNat_ofNat']
  simp only [Word.field, Nat.pow_eq]
  omega

/-! ### Settings -/

/-- A setting of the drawing environment that can be asked for. -/
inductive DrawSetting where
  | window
  | topLeft
  | bottomRight
  | offset
  deriving DecidableEq

namespace DrawSetting

/-- The number that it is asked for by. -/
def index : DrawSetting → Nat
  | window => 2
  | topLeft => 3
  | bottomRight => 4
  | offset => 5

/-- The command that makes it. -/
def command : DrawSetting → Command
  | window => .textureWindow
  | topLeft => .areaTopLeft
  | bottomRight => .areaBottomRight
  | offset => .drawOffset

def opcode : DrawSetting → Nat
  | window => 0xE2
  | topLeft => 0xE3
  | bottomRight => 0xE4
  | offset => 0xE5

/-- How many bits of the command it takes. -/
def width : DrawSetting → Nat
  | window | topLeft | bottomRight => 20
  | offset => 22

/-- What it is after a reset. -/
def standard : DrawSetting → Nat
  | bottomRight => 511 * 1024 + 1023
  | _ => 0

/-- The setting put together. -/
def word (setting : DrawSetting) (environment : Environment) : Word :=
  match setting with
  | window => environment.window.word
  | topLeft => environment.area.topLeftWord
  | bottomRight => environment.area.bottomRightWord
  | offset => environment.offset.word

/-- What a job makes of the setting, if it is about it. -/
def madeBy (setting : DrawSetting) (job : Job) : Option Nat :=
  match setting, job with
  | window, .textureWindow made => some made.word.toNat
  | topLeft, .areaTopLeft x y => some (DrawingArea.cornerWord x y).toNat
  | bottomRight, .areaBottomRight x y => some (DrawingArea.cornerWord x y).toNat
  | offset, .drawOffset made => some made.word.toNat
  | _, _ => none

/-- What a command says about the setting, if it has its opcode: the low bits of its word. -/
def saidBy (setting : DrawSetting) (words : List Word) : Option Nat :=
  if Command.opcode (words.headD 0) = setting.opcode then
    some ((words.headD 0).field 0 setting.width)
  else none

/-- What the setting is after some commands: what the last one says about it. -/
def after (setting : DrawSetting) (old : Nat) (commands : List (List Word)) : Nat :=
  (commands.filterMap setting.saidBy).getLast?.getD old

variable (setting : DrawSetting)

theorem information?_index (gpu : Gpu) :
    gpu.information? setting.index = some (setting.word gpu.environment) := by
  cases setting <;> rfl

theorem toNat_word_reset : (setting.word Environment.reset).toNat = setting.standard := by
  cases setting <;> decide

/-! ### Jobs -/

theorem toNat_word_run (gpu : Gpu) (job : Job) :
    (setting.word (gpu.run job).environment).toNat =
      (setting.madeBy job).getD (setting.word gpu.environment).toNat := by
  cases job <;> cases setting <;> rfl

variable {setting}

theorem ofOpcode?_eq_command (w : Word) :
    Command.ofOpcode? (Command.opcode w) = some setting.command ↔
      Command.opcode w = setting.opcode := by
  have hall : ∀ opcode : Fin 256,
      Command.ofOpcode? opcode = some setting.command ↔ opcode.val = setting.opcode := by
    cases setting <;> decide +kernel
  exact hall ⟨Command.opcode w, w.field_lt 24 8⟩

/-- **The bits of a setting come through**, and no other command makes it. -/
theorem madeBy_of_build? {command : Command} {words : List Word} {job : Job}
    (h : command.build? words = some job) :
    setting.madeBy job =
      if command = setting.command then some ((words.headD 0).field 0 setting.width) else none := by
  have hhead : ∀ {w : Word}, words[0]? = some w → words.headD 0 = w := by
    intro w hw
    rw [List.headD_eq_head?_getD, List.head?_eq_getElem?, hw]
    rfl
  cases command with
  | textureWindow =>
    obtain ⟨w, hw, rfl⟩ := Option.map_eq_some_iff.1 h
    cases setting with
    | window => rw [hhead hw]; exact congrArg some (TextureWindow.toNat_word_ofWord w)
    | _ => rfl
  | areaTopLeft =>
    obtain ⟨w, hw, rfl⟩ := Option.map_eq_some_iff.1 h
    cases setting with
    | topLeft => rw [hhead hw]; exact congrArg some (DrawingArea.toNat_cornerWord w)
    | _ => rfl
  | areaBottomRight =>
    obtain ⟨w, hw, rfl⟩ := Option.map_eq_some_iff.1 h
    cases setting with
    | bottomRight => rw [hhead hw]; exact congrArg some (DrawingArea.toNat_cornerWord w)
    | _ => rfl
  | drawOffset =>
    obtain ⟨w, hw, rfl⟩ := Option.map_eq_some_iff.1 h
    cases setting with
    | offset => rw [hhead hw]; exact congrArg some (DrawOffset.toNat_word_ofWord w)
    | _ => rfl
  | _ =>
    cases job <;> first
      | cases setting <;> rfl
      | simp only [Command.build?, Option.bind_eq_bind, Option.pure_def, Option.bind_eq_some_iff,
          Option.map_eq_some_iff, Option.some.injEq, reduceCtorEq, and_false, exists_false] at h

/-- **A setting is made by the commands with its opcode**, and is what their words say. -/
theorem madeBy_of_job? {words : List Word} {job : Job} (h : Framing.Frame.job? words = some job) :
    setting.madeBy job = setting.saidBy words := by
  simp only [Framing.Frame.job?, Option.bind_eq_bind, Option.bind_eq_some_iff, Option.pure_def,
    Option.some.injEq] at h
  obtain ⟨command, hcommand, built, hbuilt, rfl⟩ := h
  have hsame : setting.madeBy (Framing.Frame.withPixels (words.drop 3) built) =
      setting.madeBy built := by
    cases built <;> cases setting <;> rfl
  have hopcode : command = setting.command ↔ Command.opcode (words.headD 0) = setting.opcode := by
    rw [← ofOpcode?_eq_command, hcommand, Option.some_inj]
  rw [hsame, madeBy_of_build? hbuilt, saidBy]
  simp only [hopcode]

/-! ### Commands -/

theorem after_cons (old : Nat) (words : List Word) (commands : List (List Word)) :
    setting.after old (words :: commands) =
      setting.after ((setting.saidBy words).getD old) commands := by
  rw [after, after]
  cases hsaid : setting.saidBy words with
  | none =>
    rw [List.filterMap_cons_none hsaid]
    rfl
  | some said =>
    rw [List.filterMap_cons_some hsaid, List.getLast?_cons]
    rfl

theorem after_append (old : Nat) (commands later : List (List Word)) :
    setting.after old (commands ++ later) = setting.after (setting.after old commands) later := by
  rw [after, after, after, List.filterMap_append, List.getLast?_append, Option.getD_or]

theorem toNat_word_runAll (gpu : Gpu) {commands : List (List Word)}
    (h : ∀ words ∈ commands, (Framing.Frame.job? words).isSome) :
    (setting.word (gpu.runAll (commands.filterMap Framing.Frame.job?)).environment).toNat =
      setting.after (setting.word gpu.environment).toNat commands := by
  induction commands generalizing gpu with
  | nil => rfl
  | cons words commands ih =>
    obtain ⟨job, hjob⟩ := Option.isSome_iff_exists.1 (h words List.mem_cons_self)
    have hrest := ih (gpu.run job) fun later hlater => h later (List.mem_cons_of_mem words hlater)
    rw [toNat_word_run, madeBy_of_job? hjob] at hrest
    rw [List.filterMap_cons_some hjob, after_cons]
    exact hrest

end DrawSetting

/-! ### Runs -/

theorem Control.ofWord?_eq_inform {w : Word} (h : 0x10 ≤ w.field 24 8 ∧ w.field 24 8 ≤ 0x1F) :
    ofWord? w = some (inform (w.field 0 3)) := by
  unfold ofWord?
  split <;> first | omega | exact if_pos h

namespace PortOp

/-- The control command that brings the settings back to those of the start. -/
def isReset : PortOp → Bool
  | .control w => decide (w.field 24 8 = 0x00)
  | _ => false

/-- What was done after the last reset. -/
def sinceReset (ops : List PortOp) : List PortOp :=
  ops.rtakeWhile fun op => !op.isReset

end PortOp

namespace Gpu

variable {gpu : Gpu} {held : List Word} {ops : List PortOp}

theorem isDrawn_setting (setting : DrawSetting) : IsDrawn fun gpu => setting.word gpu.environment where
  withFrontEnd := fun _ _ => rfl
  read := fun _ => rfl
  tick := fun _ _ _ => rfl
  control := fun _ command hreset => by
    cases command with
    | reset => exact absurd rfl hreset
    | _ => cases setting <;> rfl

/-- **In a run without a reset a setting is what the last command says about it.** -/
theorem toNat_word_foldl (setting : DrawSetting) (h : gpu.Holding held)
    (hreset : ∀ w, PortOp.control w ∈ ops → w.field 24 8 ≠ 0x00) :
    (setting.word (ops.foldl act gpu).environment).toNat =
      setting.after (setting.word gpu.environment).toNat (PortOp.commands held ops) := by
  induction ops generalizing gpu held with
  | nil => rfl
  | cons op ops ih =>
    have hact := (isDrawn_setting setting).act h.handshake fun w (hw : op = .control w) =>
      hreset w (hw ▸ List.mem_cons_self)
    have htaken := (Framing.takeAll_held h.inProgress op.words).2
    rw [← h.decoder] at htaken
    have hrest := ih (h.act op) fun w hw => hreset w (List.mem_cons_of_mem op hw)
    rw [hact, htaken, setting.toNat_word_runAll gpu
      fun words hwords => Framing.isSome_job?_of_mem_accepted hwords] at hrest
    rw [PortOp.commands, DrawSetting.after_append]
    exact hrest

/-- What holds the command in progress goes on holding it. -/
theorem Holding.foldl (h : gpu.Holding held) (ops : List PortOp) :
    (ops.foldl Gpu.act gpu).Holding (ops.foldl PortOp.heldAfter held) := by
  induction ops generalizing gpu held with
  | nil => exact h
  | cons op ops ih => exact ih (h.act op)

/-- A reset leaves no command in progress and the settings of the start. -/
theorem Holding.reset (h : gpu.Holding held) {op : PortOp} (hop : op.isReset = true) :
    (gpu.act op).Holding [] ∧ (gpu.act op).environment = Environment.reset := by
  cases op with
  | control w =>
    have hnumber : w.field 24 8 = 0x00 := of_decide_eq_true hop
    have hdrops : (PortOp.control w).drops = true := by
      rw [PortOp.drops, hnumber]
      rfl
    have hnext := h.act (.control w)
    rw [PortOp.heldAfter, if_pos hdrops] at hnext
    refine ⟨hnext, ?_⟩
    rw [Gpu.act, writeControl, (Control.ofWord?_eq_reset w).2 hnumber]
    rfl
  | _ => exact Bool.noConfusion hop

/-- **Every run goes on from a reset**, the last one or that of the start. -/
theorem exists_since_reset (ops : List PortOp) :
    ∃ start : Gpu, start.Holding [] ∧ start.environment = Environment.reset ∧
      ops.foldl act powerOn = (PortOp.sinceReset ops).foldl act start := by
  induction ops using List.reverseRecOn with
  | nil => exact ⟨powerOn, holding_powerOn, rfl, rfl⟩
  | append_singleton ops op ih =>
    cases hop : op.isReset with
    | true =>
      have hnone : PortOp.sinceReset (ops ++ [op]) = [] :=
        List.rtakeWhile_concat_neg _ _ _ (by rw [hop]; exact Bool.false_ne_true)
      obtain ⟨hholding, henvironment⟩ := (holding_powerOn.foldl ops).reset hop
      rw [hnone, List.foldl_append]
      exact ⟨_, hholding, henvironment, rfl⟩
    | false =>
      have hmore : PortOp.sinceReset (ops ++ [op]) = PortOp.sinceReset ops ++ [op] :=
        List.rtakeWhile_concat_pos _ _ _ (by rw [hop]; rfl)
      obtain ⟨start, hholding, henvironment, hrun⟩ := ih
      rw [hmore, List.foldl_append, hrun, ← List.foldl_append]
      exact ⟨start, hholding, henvironment, rfl⟩

/-- Where nothing waits to be read back, the word that is asked for is the next one that is read. -/
theorem read_writeControl_inform (setting : DrawSetting) (hempty : gpu.readback = []) {w : Word}
    (hnumber : 0x10 ≤ w.field 24 8 ∧ w.field 24 8 ≤ 0x1F) (hindex : w.field 0 3 = setting.index) :
    (gpu.writeControl w).2 = none ∧
      (gpu.writeControl w).1.read.2 = setting.word gpu.environment := by
  rw [writeControl, Control.ofWord?_eq_inform hnumber]
  refine ⟨rfl, ?_⟩
  have hlatch : (gpu.control (.inform (w.field 0 3))).latch = setting.word gpu.environment := by
    rw [control, hindex, setting.information?_index]
    rfl
  have hnone : (gpu.control (.inform (w.field 0 3))).refreshDmaRequest.readback = [] := hempty
  rw [read, hnone]
  exact hlatch

/-- **Information tells what software sent last.**  After any run from the start that leaves nothing
to be read back, a control word that asks for a setting is accepted, and the word that is then read has
the low bits of the last command with the setting's opcode that was completed since the last reset.  If
there is no such command, it is the setting of the start. -/
theorem read_information (setting : DrawSetting) {w : Word}
    (hempty : (ops.foldl act powerOn).readback = [])
    (hnumber : 0x10 ≤ w.field 24 8 ∧ w.field 24 8 ≤ 0x1F) (hindex : w.field 0 3 = setting.index) :
    let asked := (ops.foldl act powerOn).writeControl w
    asked.2 = none ∧
      asked.1.read.2.toNat =
        setting.after setting.standard (PortOp.commands [] (PortOp.sinceReset ops)) := by
  intro asked
  obtain ⟨haccepted, hread⟩ := read_writeControl_inform setting hempty hnumber hindex
  obtain ⟨start, hholding, henvironment, hrun⟩ := exists_since_reset ops
  have hreset : ∀ w, PortOp.control w ∈ PortOp.sinceReset ops → w.field 24 8 ≠ 0x00 := by
    intro w hw
    have hnot := List.mem_rtakeWhile_imp hw
    rw [Bool.not_eq_true'] at hnot
    exact of_decide_eq_false hnot
  have hword := toNat_word_foldl setting hholding hreset
  rw [← hrun, henvironment, setting.toNat_word_reset] at hword
  exact ⟨haccepted, (congrArg UInt32.toNat hread).trans hword⟩

/-- A corner before a reset, pixels that look like a corner, a corner with a word after it that is
refused and takes another corner with it, a line that is dropped, and a pixel that is read back. -/
theorem read_information_topLeft :
    let ops : List PortOp := [.write 0xE3000001, .control 0x00000000,
      .writeBlock [0xA0000000, 0, 0x00010004, 0xE3000002], .tick 100 .quiet, .write 0xE3000003,
      .writeBlock [0xE3F12345, 0xFF000000, 0xE3000004], .writeBlock [0x40FFFFFF, 0],
      .control 0x01000000, .writeBlock [0xE4000005, 0xC0000000, 0, 0x00010001], .read]
    let asked := (ops.foldl act powerOn).writeControl 0x10000003
    (ops.foldl act powerOn).readback = [] ∧
      (0x10 ≤ Word.field 0x10000003 24 8 ∧ Word.field 0x10000003 24 8 ≤ 0x1F) ∧
      Word.field 0x10000003 0 3 = DrawSetting.topLeft.index ∧
      asked.2 = none ∧ asked.1.read.2.toNat = 0x12345 := by
  intro ops asked
  have hempty : (ops.foldl act powerOn).readback = [] := by decide +kernel
  have hnumber : 0x10 ≤ Word.field 0x10000003 24 8 ∧ Word.field 0x10000003 24 8 ≤ 0x1F := by decide
  have hindex : Word.field 0x10000003 0 3 = DrawSetting.topLeft.index := by decide
  obtain ⟨haccepted, hread⟩ := read_information .topLeft hempty hnumber hindex
  have hlast : DrawSetting.topLeft.after DrawSetting.topLeft.standard
      (PortOp.commands [] (PortOp.sinceReset ops)) = 0x12345 := by
    decide +kernel
  exact ⟨hempty, hnumber, hindex, haccepted, hread.trans hlast⟩

end Gpu

end ConsoleVideo
