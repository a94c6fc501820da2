import ConsoleVideo.Dma.Transfer

/-!
# The table channel between writes

Writing the registers of the table channel goes through masks, and so does loading a saved state.
A channel is brought back as it was because the masks leave alone whatever has been through them,
and what a finished transfer does to it.

* `DmaChannel.IsCanonical` — the masks leave the channel alone;
* `Dma.Attainable.canonical` — they always leave the table channel alone;
* `Dma.restoreTable_self` — saving the channel and loading it brings it back.
-/

namespace ConsoleVideo

namespace Dma

/-! ### Masks -/

theorem addressOf_addressOf (w : Word) : addressOf (addressOf w) = addressOf w := by
  rw [addressOf, addressOf, UInt32.and_assoc, UInt32.and_self]

theorem or_and (v w mask : Word) : (v ||| w) &&& mask = v &&& mask ||| w &&& mask :=
  UInt32.toBitVec_inj.1 BitVec.and_or_distrib_right

/-- The bit that is always set is none of those that software sets. -/
theorem tableControl_tableControl (w : Word) : tableControl (tableControl w) = tableControl w := by
  have hfixed : (0x00000002 : Word) &&& 0x51000000 = 0 := by decide
  rw [tableControl, tableControl, or_and, UInt32.and_assoc, UInt32.and_self, hfixed, UInt32.or_zero]

/-- A finished transfer clears bits that software sets. -/
theorem tableControl_deactivate (w : Word) :
    tableControl w &&& ~~~0x11000000 = tableControl (w &&& ~~~0x11000000) := by
  have hfixed : (0x00000002 : Word) &&& ~~~0x11000000 = 0x00000002 := by decide
  rw [tableControl, tableControl, or_and, hfixed, UInt32.and_assoc, UInt32.and_assoc,
    UInt32.and_comm 0x51000000]

end Dma

/-- What is written to a channel in the ways of the table channel stays as it is. -/
structure DmaChannel.IsCanonical (channel : DmaChannel) : Prop where
  address : Dma.addressOf channel.address = channel.address
  control : Dma.tableControl channel.control = channel.control

theorem DmaChannel.IsCanonical.deactivate {channel : DmaChannel} (h : channel.IsCanonical) :
    channel.deactivate.IsCanonical where
  address := h.address
  control := by
    show Dma.tableControl (channel.control &&& ~~~0x11000000) = channel.control &&& ~~~0x11000000
    rw [← Dma.tableControl_deactivate, h.control]

/-! ### The machine -/

namespace Machine

theorem table_completeDma (machine : Machine) (number : Nat) :
    (machine.completeDma number).dma.table = machine.dma.table := by
  show (machine.dma.complete number).1.table = machine.dma.table
  rw [Dma.complete]
  split <;> rfl

/-- The channels do not touch each other's registers. -/
theorem table_tickVideo (machine : Machine) :
    machine.tickVideo.1.dma.table = machine.dma.table := by
  rw [tickVideo]
  split
  · generalize Transfer.run machine.dma.video ⟨machine.gpu, machine.ram⟩ = outcome
    obtain ⟨ends, address, _ | e⟩ := outcome
    · exact table_completeDma _ 2
    · rfl
  · rfl

theorem canonical_tickTable {machine : Machine} (h : machine.dma.table.IsCanonical) :
    machine.tickTable.dma.table.IsCanonical := by
  rw [tickTable]
  split
  · rw [table_completeDma]
    exact h.deactivate
  · exact h

theorem canonical_tickDma {machine : Machine} (h : machine.dma.table.IsCanonical) :
    machine.tickDma.1.dma.table.IsCanonical := by
  have hvideo : machine.tickVideo.1.dma.table.IsCanonical := by
    rw [table_tickVideo]
    exact h
  rw [tickDma]
  generalize machine.tickVideo = outcome at hvideo ⊢
  obtain ⟨machine, _ | e⟩ := outcome
  · exact canonical_tickTable hvideo
  · exact hvideo

end Machine

/-! ### The controller -/

namespace Dma

variable {dma : Dma}

theorem table_modify (dma : Dma) (number : Nat) (f : DmaChannel → DmaChannel) :
    (dma.modify number f).1.table = if number = 6 then f dma.table else dma.table := by
  unfold modify
  split
  · rfl
  · rfl
  · next _ hnumber => rw [if_neg hnumber]

theorem canonical_put (h : dma.table.IsCanonical) (register : DmaRegister) (w : Word) :
    (dma.put register w).1.table.IsCanonical := by
  cases register with
  | address number =>
    rw [put, table_modify]
    split
    · exact ⟨addressOf_addressOf w, h.control⟩
    · exact h
  | block number =>
    rw [put, table_modify]
    split
    · exact ⟨h.address, h.control⟩
    · exact h
  | control number =>
    rw [put, putControl]
    by_cases hnumber : number = 6
    · rw [if_pos hnumber]
      split
      · exact h
      · exact ⟨h.address, tableControl_tableControl w⟩
    · rw [if_neg hnumber, table_modify, if_neg hnumber]
      exact h
  | priority => exact h
  | interrupt => exact h

/-- The states that the controller comes to from the start, whatever it is programmed to do, whatever
it meets when it does it, and whatever is loaded into its table channel. -/
inductive Attainable : Dma → Prop
  | powerOn : Attainable powerOn
  | put {dma : Dma} (register : DmaRegister) (w : Word) :
      Attainable dma → Attainable (dma.put register w).1
  | tick {dma : Dma} (gpu : Gpu) (ram : Ram) (irq : Interrupts) :
      Attainable dma → Attainable (Machine.tickDma ⟨gpu, dma, ram, irq⟩).1.dma
  | restoreTable {dma : Dma} (address block control : Word) :
      Attainable dma → Attainable (dma.restoreTable address block control)

/-- **The table channel has always been through its masks.** -/
theorem Attainable.canonical (h : dma.Attainable) : dma.table.IsCanonical := by
  induction h with
  | powerOn => exact ⟨by decide, by decide⟩
  | put register w _ ih => exact canonical_put ih register w
  | @tick dma gpu ram irq _ ih => exact @Machine.canonical_tickDma ⟨gpu, dma, ram, irq⟩ ih
  | restoreTable address block control _ _ =>
    exact ⟨addressOf_addressOf address, tableControl_tableControl control⟩

/-- A table channel is loaded into any controller as it was saved. -/
theorem restoreTable_self (h : dma.table.IsCanonical) (other : Dma) :
    other.restoreTable dma.table.address dma.table.block dma.table.control =
      { other with table := dma.table } := by
  rw [restoreTable, h.address, h.control]

end Dma

end ConsoleVideo
