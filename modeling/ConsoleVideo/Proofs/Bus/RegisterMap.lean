import ConsoleVideo.Devices
import ConsoleVideo.Proofs.Dma.Registers

/-!
# The register map of the DMA controller

Eight registers lie at word offsets, three for each of the two channels and two for the controller as
a whole.  An access at the offset of a register reaches it, and nobody should answer at any other
offset.  The decoder however only tells the first two registers of a channel from the rest, so that
the offsets inside the first two words of a channel all reach its control register: a word that is
written there can start a transfer.

* `Dma.registerMap` — the registers and where they are;
* `Dma.Reaches`, `Dma.Refuses` — the two answers that there are to an access;
* `Dma.Stray` — the offsets that should be refused, and are not;
* `Dma.register?_of_mapped`, `Dma.register?_of_stray`, `Dma.register?_of_unmapped` — what the decoder
  makes of every offset;
* `Dma.asMapped_iff` — the map holds at all offsets but these.
-/

namespace ConsoleVideo

namespace Dma

/-! ### The map -/

/-- The registers that there are, with their offsets. -/
def registerMap : List (Word × DmaRegister) :=
  [(0x00, .address 2), (0x04, .block 2), (0x08, .control 2),
    (0x40, .address 6), (0x44, .block 6), (0x48, .control 6),
    (0x50, .priority), (0x54, .interrupt)]

/-- The register that the map has at an offset. -/
def mapped? (offset : Word) : Option DmaRegister :=
  registerMap.lookup offset

/-- The two channels have a register of each kind, and the controller has its own. -/
def Modelled (register : DmaRegister) : Prop :=
  ∃ offset, (offset, register) ∈ registerMap

/-- The offsets inside the first two words of a channel, where no register starts. -/
def Stray (offset : Word) : Prop :=
  offset.toNat % 4 ≠ 0 ∧ offset.toNat % 16 < 8 ∧ (offset.toNat / 16 = 0 ∨ offset.toNat / 16 = 4)

theorem mem_registerMap {offset : Word} {register : DmaRegister}
    (h : mapped? offset = some register) : (offset, register) ∈ registerMap := by
  obtain ⟨before, after, hmap, -⟩ := List.lookup_eq_some_iff.1 h
  rw [hmap]
  exact List.mem_append_right before List.mem_cons_self

/-- **Different offsets have different registers.** -/
theorem mapped?_inj {offset other : Word} {register : DmaRegister}
    (h : mapped? offset = some register) (h' : mapped? other = some register) : other = offset := by
  have hpairs : ∀ p ∈ registerMap, ∀ q ∈ registerMap, p.2 = q.2 → p.1 = q.1 := by decide
  exact hpairs _ (mem_registerMap h') _ (mem_registerMap h) rfl

/-! ### Answers -/

/-- Accesses at an offset are those of a register.  It can always be read; writing a word stores it,
or is refused because of bits that software may not set. -/
structure Reaches (offset : Word) (register : DmaRegister) : Prop where
  read : ∀ dma, ∃ w, dma.get register = .ok w ∧ device.read dma offset = (dma, .ok w)
  write : ∀ dma w,
    (device.write dma offset w = ((dma.put register w).1, none) ∧ (dma.put register w).2 = none) ∨
    device.write dma offset w = (dma, some (.device (.readOnlyBits "OTC CHCR" w)))

/-- Nobody answers at an offset, and nothing changes. -/
structure Refuses (offset : Word) : Prop where
  read : ∀ dma, device.read dma offset = (dma, .error (.unmapped (base + offset)))
  write : ∀ dma w, device.write dma offset w = (dma, some (.unmapped (base + offset)))

/-- Accesses at an offset do what the map says. -/
def AsMapped (offset : Word) : Prop :=
  match mapped? offset with
  | some register => Reaches offset register
  | none => Refuses offset

/-- A register of the map can be read. -/
theorem exists_get {register : DmaRegister} (h : Modelled register) (dma : Dma) :
    ∃ w, dma.get register = .ok w := by
  have hall : ∀ p ∈ registerMap, ∃ w, dma.get p.2 = .ok w := by
    simp [registerMap, get, channel, Except.map]
  obtain ⟨offset, hoffset⟩ := h
  exact hall _ hoffset

/-- Only the control register of the table channel refuses words. -/
theorem put_eq {register : DmaRegister} (h : Modelled register) (dma : Dma) (w : Word) :
    (dma.put register w).2 = none ∨
      dma.put register w = (dma, some (.readOnlyBits "OTC CHCR" w)) := by
  by_cases hregister : register = .control 6
  · rw [hregister, put, putControl, if_pos rfl]
    split
    · exact .inr rfl
    · exact .inl rfl
  · have hall : ∀ p ∈ registerMap, p.2 ≠ .control 6 → (dma.put p.2 w).2 = none := by
      simp [registerMap, put, putControl, modify]
    obtain ⟨offset, hoffset⟩ := h
    exact .inl (hall _ hoffset hregister)

/-! ### The decoder -/

section Decoder

variable {offset : Word}

theorem register?_of_mapped {register : DmaRegister} (h : mapped? offset = some register) :
    register? offset = .ok register := by
  have hall : ∀ p ∈ registerMap, register? p.1 = .ok p.2 := by
    intro p hp
    simp only [registerMap, List.mem_cons, List.not_mem_nil, or_false] at hp
    obtain rfl | rfl | rfl | rfl | rfl | rfl | rfl | rfl := hp <;> rfl
  exact hall _ (mem_registerMap h)

/-- The shared registers lie at whole words. -/
theorem ne_of_unaligned (h : offset.toNat % 4 ≠ 0) : offset ≠ 0x50 ∧ offset ≠ 0x54 := by
  constructor <;> rintro rfl <;> exact h rfl

theorem register?_of_stray (h : Stray offset) :
    register? offset = .ok (.control (2 + offset.toNat / 16)) := by
  obtain ⟨hunaligned, hplace, hchannel⟩ := h
  obtain ⟨hpriority, hinterrupt⟩ := ne_of_unaligned hunaligned
  have hinside : (2 + offset.toNat / 16 = 2 ∨ 2 + offset.toNat / 16 = 6) ∧
      offset.toNat % 16 ≤ 8 := by omega
  have haddress : offset.toNat % 16 ≠ 0 := by omega
  have hblock : offset.toNat % 16 ≠ 4 := by omega
  simp only [register?, if_neg hpriority, if_neg hinterrupt, if_pos hinside, if_neg haddress,
    if_neg hblock]

/-- What is neither in the map nor stray is refused. -/
theorem register?_of_unmapped (h : mapped? offset = none) (hstray : ¬ Stray offset) :
    register? offset = .error (.unmapped (base + offset)) := by
  have hne : ∀ p ∈ registerMap, offset.toNat ≠ p.1.toNat := by
    intro p hp hoffset
    have hdiffers := List.lookup_eq_none_iff.1 h p hp
    rw [UInt32.toNat_inj.1 hoffset, bne_self_eq_false] at hdiffers
    exact Bool.noConfusion hdiffers
  simp only [registerMap, List.forall_mem_cons, UInt32.reduceToNat] at hne
  obtain ⟨h00, h04, h08, h40, h44, h48, h50, h54, -⟩ := hne
  have hpriority : offset ≠ 0x50 := fun hoffset => h50 (congrArg UInt32.toNat hoffset)
  have hinterrupt : offset ≠ 0x54 := fun hoffset => h54 (congrArg UInt32.toNat hoffset)
  have houtside : ¬ ((2 + offset.toNat / 16 = 2 ∨ 2 + offset.toNat / 16 = 6) ∧
      offset.toNat % 16 ≤ 8) := by
    rintro ⟨hchannel, hplace⟩
    refine hstray ⟨?_, ?_, ?_⟩ <;> omega
  simp only [register?, if_neg hpriority, if_neg hinterrupt, if_neg houtside]

theorem reaches_of_register {register : DmaRegister} (h : register? offset = .ok register)
    (hmodelled : Modelled register) : Reaches offset register where
  read dma := by
    obtain ⟨w, hw⟩ := exists_get hmodelled dma
    refine ⟨w, hw, ?_⟩
    simp only [device, h, hw]
    rfl
  write dma w := by
    have hwrite : device.write dma offset w = answered (dma.put register w) := by
      simp only [device, h]
    rw [hwrite]
    cases put_eq hmodelled dma w with
    | inl hok =>
      refine .inl ⟨?_, hok⟩
      rw [answered, hok]
      rfl
    | inr hrefused =>
      rw [hrefused]
      exact .inr rfl

theorem refuses_of_register (h : register? offset = .error (.unmapped (base + offset))) :
    Refuses offset where
  read dma := by simp only [device, h]
  write dma w := by simp only [device, h]

/-- No stray offset is in the map. -/
theorem Stray.mapped?_eq_none (h : Stray offset) : mapped? offset = none := by
  have hwords : ∀ p ∈ registerMap, p.1.toNat % 4 = 0 := by decide
  cases hoffset : mapped? offset with
  | none => rfl
  | some register => exact absurd (hwords _ (mem_registerMap hoffset)) h.1

/-- **A stray offset reaches the control register of its channel.** -/
theorem Stray.reaches (h : Stray offset) : Reaches offset (.control (2 + offset.toNat / 16)) := by
  refine reaches_of_register (register?_of_stray h) ?_
  obtain ⟨-, -, hchannel | hchannel⟩ := h
  · exact ⟨0x08, by rw [hchannel]; decide⟩
  · exact ⟨0x48, by rw [hchannel]; decide⟩

end Decoder

/-! ### The whole map -/

/-- Writing to a register of the map cannot be seen in any other. -/
theorem read_write_of_ne {offset other : Word} {register shown : DmaRegister}
    (h : mapped? offset = some register) (h' : mapped? other = some shown) (hne : shown ≠ register)
    (dma : Dma) (w : Word) :
    (device.read (device.write dma offset w).1 other).2 = (device.read dma other).2 := by
  have hread : ∀ dma : Dma, (device.read dma other).2 = (dma.get shown).mapError .device := by
    intro dma
    simp only [device, register?_of_mapped h']
  have hreaches := reaches_of_register (register?_of_mapped h) ⟨offset, mem_registerMap h⟩
  cases hreaches.write dma w with
  | inl hstored =>
    obtain ⟨hwrite, hok⟩ := hstored
    rw [hwrite, hread, hread, get_put_of_ne hne hok]
  | inr hrefused => rw [hrefused]

/-- **The controller answers by its map, except at the stray offsets**, which reach the control
register of their channel.  The registers of the map are different ones, and writing to one cannot be
seen in another. -/
theorem asMapped_iff (offset : Word) :
    (AsMapped offset ↔ ¬ Stray offset) ∧
    (Stray offset → Reaches offset (.control (2 + offset.toNat / 16))) ∧
    ∀ other register shown, mapped? offset = some register → mapped? other = some shown →
      other ≠ offset → shown ≠ register ∧
        ∀ dma w, (device.read (device.write dma offset w).1 other).2 = (device.read dma other).2 := by
  refine ⟨⟨fun hmapped hstray => ?_, fun hstray => ?_⟩, Stray.reaches, ?_⟩
  · rw [AsMapped, hstray.mapped?_eq_none] at hmapped
    obtain ⟨w, -, hread⟩ := hstray.reaches.read powerOn
    rw [hmapped.read powerOn] at hread
    exact nomatch hread
  · rw [AsMapped]
    cases hoffset : mapped? offset with
    | some register =>
      exact reaches_of_register (register?_of_mapped hoffset) ⟨offset, mem_registerMap hoffset⟩
    | none => exact refuses_of_register (register?_of_unmapped hoffset hstray)
  · intro other register shown hregister hshown hne
    have hdiffers : shown ≠ register := by
      rintro rfl
      exact hne (mapped?_inj hregister hshown)
    exact ⟨hdiffers, read_write_of_ne hregister hshown hdiffers⟩

/-- A word that is written next to the address register of the video channel starts a transfer. -/
theorem not_forall_asMapped :
    ¬ ∀ offset : Word, offset ≤ 0x57 → AsMapped offset := by
  intro h
  have hrefuses : Refuses 0x01 := h 0x01 (by decide)
  have hchanged : (device.write powerOn 0x01 0x01000201).1.video.isReady = true := by decide
  rw [hrefuses.write] at hchanged
  exact absurd hchanged (by decide)

end Dma

end ConsoleVideo
