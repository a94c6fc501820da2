import ConsoleVideo.Devices
import ConsoleVideo.Proofs.Dma.Registers

/-!
# Narrow writes

The registers of a device have a word each.  A narrow write replaces its lane in the word that the
register shows, and writes the whole word back.  Beside the lane a register is hence written with what
it showed, which is not to say that it stays: to the flags of the DMA interrupt register that means to
be cleared.

* `Width.Covers`, `Width.Beside` — the bits in the lane of an access, and those beside it;
* `Width.bit_insert` — replacing a lane leaves the other bits alone;
* `Device.writeAt_of_narrow` — a narrow write as the write of a word;
* `Device.bitAt_writeAt` — what narrow writes leave beside their lane, on both controllers.
-/

namespace ConsoleVideo

/-! ### Lanes -/

namespace Width

/-- An access at an offset moves this bit of its word. -/
def Covers (width : Width) (offset : Word) (k : Nat) : Prop :=
  width.shift offset ≤ k ∧ k < width.shift offset + 8 * width.bytes

/-- A bit of some register that an access at an offset does not move. -/
structure Beside (width : Width) (offset register : Word) (k : Nat) : Prop where
  isAligned : Device.aligned register = register
  lt : k < 32
  outside : register = Device.aligned offset → ¬ width.Covers offset k

/-- **Replacing a lane leaves the other bits of the word alone.** -/
theorem bit_insert {width : Width} {offset w value : Word} {k : Nat} (hk : k < 32)
    (houtside : ¬ width.Covers offset k) : (width.insert offset w value).bit k = w.bit k := by
  have hbelow : w.toNat % 2 ^ width.shift offset < 2 ^ width.shift offset :=
    Nat.mod_lt _ (Nat.two_pow_pos _)
  have hlane : value.toNat % 2 ^ (8 * width.bytes) < 2 ^ (8 * width.bytes) :=
    Nat.mod_lt _ (Nat.two_pow_pos _)
  unfold Word.bit insert range
  simp only [Nat.pow_eq]
  rw [UInt32.toNat_ofNat', Nat.testBit_mod_two_pow, decide_eq_true hk, Bool.true_and, Nat.add_comm,
    Nat.testBit_two_pow_mul_add _ hbelow]
  by_cases hlow : k < width.shift offset
  · rw [if_pos hlow, Nat.testBit_mod_two_pow, decide_eq_true hlow, Bool.true_and]
  · have hhigh : ¬ k - width.shift offset < 8 * width.bytes := by
      intro hin
      exact houtside ⟨Nat.not_lt.1 hlow, by omega⟩
    rw [if_neg hlow, Nat.add_comm, Nat.testBit_two_pow_mul_add _ hlane, if_neg hhigh,
      Nat.testBit_div_two_pow, Nat.testBit_div_two_pow]
    congr 1
    omega

end Width

namespace Device

variable {σ : Type} {device : Device σ} {width : Width} {offset value : Word} {k : Nat}

/-- A bit of a register as software reads it. -/
def bitAt (device : Device σ) (s : σ) (register : Word) (k : Nat) : Except Error Bool :=
  (device.read s register).2.map (Word.bit · k)

/-- **A narrow write writes a whole word**, the one that was read with a lane replaced. -/
theorem writeAt_of_narrow (hwords : device.wordsOnly = false)
    (hread : ∀ s register, (device.read s register).1 = s) (hnarrow : width ≠ .word) {s : σ}
    (hok : (device.writeAt width s offset value).2 = none) :
    ∃ w, (device.read s (aligned offset)).2 = .ok w ∧
      device.writeAt width s offset value =
        device.write s (aligned offset) (width.insert offset w value) := by
  have hsame := hread s (aligned offset)
  rw [writeAt, if_neg hnarrow, hwords] at hok ⊢
  simp only [Bool.false_eq_true, if_false] at hok ⊢
  generalize device.read s (aligned offset) = shown at hok hsame ⊢
  obtain ⟨s', w | e⟩ := shown
  · exact nomatch hok
  · obtain rfl : s' = s := hsame
    exact ⟨_, rfl, rfl⟩

theorem aligned_aligned (offset : Word) : aligned (aligned offset) = aligned offset := by
  have hsmall := offset.toNat_lt
  have hlt : offset.toNat / 4 * 4 < UInt32.size := by
    show offset.toNat / 4 * 4 < 4294967296
    omega
  rw [aligned, aligned, UInt32.toNat_ofNat_of_lt' hlt, Nat.mul_div_cancel _ (by decide)]

theorem toNat_of_aligned {register : Word} (h : aligned register = register) :
    register.toNat % 4 = 0 := by
  have hsmall := register.toNat_lt
  have hlt : register.toNat / 4 * 4 < UInt32.size := by
    show register.toNat / 4 * 4 < 4294967296
    omega
  have hnat := congrArg UInt32.toNat h
  rw [aligned, UInt32.toNat_ofNat_of_lt' hlt] at hnat
  omega

end Device

/-! ### The interrupt controller -/

namespace Interrupts

theorem bitAt_eq (irq : Interrupts) (register : Word) (k : Nat) :
    device.bitAt irq register k =
      if register = 0 then .ok (irq.status.toNat.testBit k)
      else if register = 4 then .ok (irq.mask.toNat.testBit k)
      else .error (.unmapped (0x1F801070 + register)) := by
  simp only [Device.bitAt, device]
  split
  · rfl
  · split <;> rfl

theorem testBit_toUInt16 (w : Word) (k : Nat) :
    w.toUInt16.toNat.testBit k = (decide (k < 16) && w.bit k) := by
  show (w.toNat % 2 ^ 16).testBit k = _
  rw [Nat.testBit_mod_two_pow]
  rfl

/-- There are sixteen lines. -/
theorem testBit_lines (lines : UInt16) (k : Nat) :
    (decide (k < 16) && lines.toNat.testBit k) = lines.toNat.testBit k := by
  rw [← Nat.testBit_mod_two_pow, Nat.mod_eq_of_lt lines.toNat_lt]

/-- **The interrupt controller keeps a bit that is written back as it was read**, and a write to one
register leaves the other alone. -/
theorem bitAt_write (irq : Interrupts) {register other v w : Word} {k : Nat}
    (hv : (device.read irq register).2 = .ok v) (hw : other = register → w.bit k = v.bit k) :
    device.bitAt (device.write irq register w).1 other k = device.bitAt irq other k := by
  rw [bitAt_eq, bitAt_eq]
  by_cases hstatus : register = 0
  · subst hstatus
    obtain rfl : irq.status.toUInt32 = v := Except.ok.inj hv
    by_cases hother : other = 0
    · have hkept : (irq.status &&& w.toUInt16).toNat.testBit k = irq.status.toNat.testBit k := by
        rw [UInt16.toNat_and, Nat.testBit_and, testBit_toUInt16, hw hother]
        show (irq.status.toNat.testBit k &&
          (decide (k < 16) && irq.status.toNat.testBit k)) = irq.status.toNat.testBit k
        rw [testBit_lines, Bool.and_self]
      rw [if_pos hother, if_pos hother]
      exact congrArg Except.ok hkept
    · rw [if_neg hother, if_neg hother]
      rfl
  · by_cases hmask : register = 4
    · subst hmask
      obtain rfl : irq.mask.toUInt32 = v := Except.ok.inj hv
      by_cases hother : other = 4
      · have hkept : w.toUInt16.toNat.testBit k = irq.mask.toNat.testBit k := by
          rw [testBit_toUInt16, hw hother]
          exact testBit_lines irq.mask k
        rw [if_pos hother, if_pos hother]
        exact congrArg (fun bit => if other = 0 then _ else Except.ok bit) hkept
      · rw [if_neg hother, if_neg hother]
        rfl
    · simp only [device, if_neg hstatus, if_neg hmask] at hv
      exact nomatch hv

end Interrupts

/-! ### The DMA controller -/

namespace DmaRegister

/-- Where a register starts. -/
def place : DmaRegister → Nat
  | address number => 16 * (number - 2)
  | block number => 16 * (number - 2) + 4
  | control number => 16 * (number - 2) + 8
  | priority => 0x50
  | interrupt => 0x54

end DmaRegister

namespace Dma

theorem place_of_register {offset : Word} {register : DmaRegister}
    (haligned : Device.aligned offset = offset) (h : register? offset = .ok register) :
    register.place = offset.toNat := by
  have hword := Device.toNat_of_aligned haligned
  unfold register? at h
  split at h
  · next hoffset =>
    obtain rfl := Except.ok.inj h
    rw [hoffset]
    rfl
  · split at h
    · next hoffset =>
      obtain rfl := Except.ok.inj h
      rw [hoffset]
      rfl
    · simp only at h
      split at h
      · next hchannel =>
        obtain rfl := Except.ok.inj h
        obtain ⟨-, hplace⟩ := hchannel
        split
        · show 16 * (2 + offset.toNat / 16 - 2) = offset.toNat
          omega
        · split
          · show 16 * (2 + offset.toNat / 16 - 2) + 4 = offset.toNat
            omega
          · show 16 * (2 + offset.toNat / 16 - 2) + 8 = offset.toNat
            omega
      · exact nomatch h

/-- Different places have different registers. -/
theorem register?_inj {offset other : Word} {register : DmaRegister}
    (haligned : Device.aligned offset = offset) (hother : Device.aligned other = other)
    (h : register? offset = .ok register) (h' : register? other = .ok register) :
    other = offset := by
  have hplace := place_of_register hother h'
  rw [place_of_register haligned h] at hplace
  exact UInt32.toNat_inj.1 hplace.symm

/-- The interrupt register has a place of its own. -/
theorem register_interrupt_iff {offset : Word} {register : DmaRegister}
    (haligned : Device.aligned offset = offset) (h : register? offset = .ok register) :
    register = .interrupt ↔ offset = 0x54 := by
  constructor
  · rintro rfl
    exact UInt32.toNat_inj.1 (place_of_register haligned h).symm
  · rintro rfl
    exact (Except.ok.inj h).symm

section Register

variable {dma : Dma} {offset : Word} {register : DmaRegister} (h : register? offset = .ok register)

include h

theorem bitAt_of_register (k : Nat) :
    device.bitAt dma offset k = ((dma.get register).mapError Error.device).map (Word.bit · k) := by
  simp only [Device.bitAt, device, h]

theorem get_of_read {v : Word} (hv : (device.read dma offset).2 = .ok v) :
    dma.get register = .ok v := by
  simp only [device, h] at hv
  cases hshown : dma.get register with
  | ok shown =>
    rw [hshown] at hv
    exact congrArg Except.ok (Except.ok.inj hv)
  | error e =>
    rw [hshown] at hv
    exact nomatch hv

theorem put_of_write {w : Word} (hok : (device.write dma offset w).2 = none) :
    (device.write dma offset w).1 = (dma.put register w).1 ∧ (dma.put register w).2 = none := by
  simp only [device, h] at hok ⊢
  exact ⟨rfl, Option.map_eq_none_iff.1 hok⟩

end Register

/-- **The DMA controller keeps a bit that is written back as it was read**, unless it is a flag, and a
write to one register leaves the others alone. -/
theorem bitAt_write {dma : Dma} (h : dma.IsMasked) {offset other v w : Word} {k : Nat}
    (haligned : Device.aligned offset = offset) (hother : Device.aligned other = other)
    (hk : k < 32) (hv : (device.read dma offset).2 = .ok v)
    (hok : (device.write dma offset w).2 = none) (hw : other = offset → w.bit k = v.bit k)
    (hcomputed : ¬ (other = 0x54 ∧ k = 31)) :
    device.bitAt (device.write dma offset w).1 other k =
      if other = 0x54 ∧ offset = 0x54 ∧ 24 ≤ k then .ok false else device.bitAt dma other k := by
  cases hregister : register? offset with
  | error e =>
    simp only [device, hregister] at hv
    exact nomatch hv
  | ok register =>
    have hget := get_of_read hregister hv
    obtain ⟨hwritten, hput⟩ := put_of_write hregister hok
    have hinterrupt := register_interrupt_iff haligned hregister
    rw [hwritten]
    by_cases heq : other = offset
    · subst heq
      have hbit := bit_stored h hk hget (hw rfl)
        (fun hlast => hcomputed ⟨hinterrupt.1 hlast.1, hlast.2⟩)
      rw [bitAt_of_register hregister, bitAt_of_register hregister, get_put hput, hget]
      show Except.ok ((dma.stored register w).bit k) = _
      rw [hbit]
      by_cases hflag : register = .interrupt ∧ 24 ≤ k
      · rw [if_pos hflag, if_pos ⟨hinterrupt.1 hflag.1, hinterrupt.1 hflag.1, hflag.2⟩]
      · rw [if_neg hflag, if_neg fun h => hflag ⟨hinterrupt.2 h.1, h.2.2⟩]
        rfl
    · rw [if_neg fun h => heq (h.1.trans h.2.1.symm)]
      cases hname : register? other with
      | error e => simp only [Device.bitAt, device, hname]
      | ok name =>
        have hne : name ≠ register := by
          rintro rfl
          exact heq (register?_inj haligned hother hregister hname)
        rw [bitAt_of_register hname, bitAt_of_register hname, get_put_of_ne hne hput]

end Dma

/-! ### Both controllers -/

namespace Device

/-- **Beside its lane a narrow write changes nothing but flags.**  A write of a byte or half a word
that succeeds leaves every bit of every register outside its lane as it reads, in every state of the
interrupt controller.  In every state that the DMA controller comes to it does so as well, with one
exception: written to the interrupt register, it clears all of the flags that are not in its lane.
Bit 31 of that register is computed. -/
theorem bitAt_writeAt {width : Width} (hnarrow : width ≠ .word) (offset value : Word) :
    (∀ irq : Interrupts, (Interrupts.device.writeAt width irq offset value).2 = none →
      ∀ register k, width.Beside offset register k →
        Interrupts.device.bitAt (Interrupts.device.writeAt width irq offset value).1 register k =
          Interrupts.device.bitAt irq register k) ∧
    ∀ dma : Dma, dma.Attainable → (Dma.device.writeAt width dma offset value).2 = none →
      ∀ register k, width.Beside offset register k → ¬ (register = 0x54 ∧ k = 31) →
        Dma.device.bitAt (Dma.device.writeAt width dma offset value).1 register k =
          if register = 0x54 ∧ aligned offset = 0x54 ∧ 24 ≤ k then .ok false
          else Dma.device.bitAt dma register k := by
  constructor
  · intro irq hok register k hbeside
    have hreads : ∀ irq register, (Interrupts.device.read irq register).1 = irq := by
      intro irq register
      simp only [Interrupts.device]
      split
      · rfl
      · split <;> rfl
    obtain ⟨w, hw, hwrite⟩ := writeAt_of_narrow rfl hreads hnarrow hok
    rw [hwrite]
    exact irq.bitAt_write hw fun hsame => Width.bit_insert hbeside.lt (hbeside.outside hsame)
  · intro dma hdma hok register k hbeside hcomputed
    have hreads : ∀ dma register, (Dma.device.read dma register).1 = dma := by
      intro dma register
      simp only [Dma.device]
      split <;> rfl
    obtain ⟨w, hw, hwrite⟩ := writeAt_of_narrow rfl hreads hnarrow hok
    rw [hwrite] at hok ⊢
    exact Dma.bitAt_write hdma.isMasked (aligned_aligned offset) hbeside.isAligned hbeside.lt hw hok
      (fun hsame => Width.bit_insert hbeside.lt (hbeside.outside hsame)) hcomputed

/-- The controller with the flag of channel 6 raised, by the end of a table of one entry. -/
def flagged : Dma :=
  let programmed := (((Dma.powerOn.put .interrupt 0x00C00000).1.put (.block 6) 1).1.put
    (.control 6) 0x11000000).1
  (Machine.tickDma ⟨Gpu.powerOn, programmed, Ram.blank, Interrupts.quiet⟩).1.dma

theorem attainable_flagged : flagged.Attainable :=
  .tick _ _ _ (.put (.control 6) _ (.put (.block 6) _ (.put .interrupt _ .powerOn)))

theorem beside_lowest_byte {k : Nat} (hlow : 8 ≤ k) (hk : k < 32) :
    Width.Beside .byte 0x54 0x54 k where
  isAligned := by decide
  lt := hk
  outside := fun _ hcovers => Nat.not_lt.2 hlow hcovers.2

/-- The lowest byte of the interrupt register is written while a flag is raised. -/
theorem bitAt_writeAt_flagged :
    let after := (Dma.device.writeAt .byte flagged 0x54 0).1
    Width.byte ≠ .word ∧ flagged.Attainable ∧
    (Dma.device.writeAt .byte flagged 0x54 0).2 = none ∧
    Width.Beside .byte 0x54 0x54 23 ∧ Width.Beside .byte 0x54 0x54 30 ∧
    Dma.device.bitAt flagged 0x54 23 = .ok true ∧ Dma.device.bitAt flagged 0x54 30 = .ok true ∧
    Dma.device.bitAt after 0x54 23 = Dma.device.bitAt flagged 0x54 23 ∧
    Dma.device.bitAt after 0x54 30 = .ok false := by
  intro after
  have hnarrow : Width.byte ≠ .word := by decide
  have hok : (Dma.device.writeAt .byte flagged 0x54 0).2 = none := by decide
  have hmaster : Width.Beside .byte 0x54 0x54 23 := beside_lowest_byte (by decide) (by decide)
  have hflag : Width.Beside .byte 0x54 0x54 30 := beside_lowest_byte (by decide) (by decide)
  have hlanes := (bitAt_writeAt hnarrow 0x54 0).2 flagged attainable_flagged hok 0x54
  refine ⟨hnarrow, attainable_flagged, hok, hmaster, hflag, by rfl, by rfl, ?_, ?_⟩
  · exact hlanes 23 hmaster (by decide)
  · exact hlanes 30 hflag (by decide)

/-- Writing a byte of the interrupt register clears a flag in another byte. -/
theorem not_forall_bitAt_writeAt_eq :
    ¬ ∀ (width : Width) (offset value : Word) (dma : Dma), width ≠ .word → dma.Attainable →
      (Dma.device.writeAt width dma offset value).2 = none →
      ∀ register k, width.Beside offset register k → ¬ (register = 0x54 ∧ k = 31) →
        Dma.device.bitAt (Dma.device.writeAt width dma offset value).1 register k =
          Dma.device.bitAt dma register k := by
  intro h
  have hflag : Width.Beside .byte 0x54 0x54 30 := beside_lowest_byte (by decide) (by decide)
  have hkept := h .byte 0x54 0 flagged (by decide) attainable_flagged (by decide) 0x54 30 hflag
    (by decide)
  have hbefore : Dma.device.bitAt flagged 0x54 30 = .ok true := by rfl
  have hafter : Dma.device.bitAt (Dma.device.writeAt .byte flagged 0x54 0).1 0x54 30 = .ok false := by
    rfl
  rw [hbefore, hafter] at hkept
  exact nomatch hkept

end Device

end ConsoleVideo
