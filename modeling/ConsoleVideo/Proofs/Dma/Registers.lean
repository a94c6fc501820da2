import ConsoleVideo.Proofs.Dma.Table

/-!
# Registers bit by bit

What is written to a register of the controller goes through masks, and not all of it is stored.
Bit by bit the registers nevertheless do one of two things: most keep a bit that is written back as
it was read, and the flags of the interrupt register are cleared by it.

* `Word.bit_and`, `Word.bit_or`, `Word.bit_not` — masks bit by bit;
* `Dma.IsMasked` — the bits that are not stored anywhere are zero, with `Attainable.isMasked`;
* `Dma.get_put` — a register shows what it stored of a word;
* `Dma.get_put_of_ne` — no other register takes notice;
* `Dma.bit_stored` — what becomes of a bit that is written back as it was read.
-/

namespace ConsoleVideo

/-! ### Masks -/

namespace Word

theorem bit_and (v w : Word) (k : Nat) : (v &&& w).bit k = (v.bit k && w.bit k) := by
  unfold bit
  rw [UInt32.toNat_and, Nat.testBit_and]

theorem bit_or (v w : Word) (k : Nat) : (v ||| w).bit k = (v.bit k || w.bit k) := by
  unfold bit
  rw [UInt32.toNat_or, Nat.testBit_or]

theorem bit_not (w : Word) {k : Nat} (hk : k < 32) : (~~~w).bit k = !w.bit k := by
  show (~~~w.toBitVec).getLsbD k = !w.toBitVec.getLsbD k
  rw [BitVec.getLsbD_not, decide_eq_true hk, Bool.true_and]

/-- There are 32 bits. -/
theorem bit_of_le (w : Word) {k : Nat} (hk : 32 ≤ k) : w.bit k = false :=
  Nat.testBit_lt_two_pow (Nat.lt_of_lt_of_le w.toNat_lt (Nat.pow_le_pow_right (by decide) hk))

/-- What a mask leaves alone has only bits of the mask. -/
theorem bit_of_and_eq {w mask : Word} (h : w &&& mask = w) (k : Nat) :
    w.bit k = (w.bit k && mask.bit k) := by
  rw [← bit_and, h]

end Word

/-! ### Bits that are not stored -/

namespace Dma

/-- The registers have no bits that they do not store. -/
structure IsMasked (dma : Dma) : Prop where
  video : addressOf dma.video.address = dma.video.address
  table : dma.table.IsCanonical
  interrupt : dma.interrupt &&& 0x7FFF803F = dma.interrupt

/-- Addresses in the memory have no more bits than an address register. -/
theorem addressOf_align (address : Word) : addressOf (Ram.align address) = Ram.align address := by
  have hmask : (0x00FFFFFF : Word).toNat = 2 ^ 24 - 1 := by decide
  have hsmall : 4 * (address.toNat / 4 % Ram.size) < UInt32.size := by
    show 4 * (address.toNat / 4 % 524288) < 4294967296
    omega
  apply UInt32.toNat_inj.1
  show (UInt32.ofNat (4 * (address.toNat / 4 % Ram.size)) &&& 0x00FFFFFF).toNat =
    (UInt32.ofNat (4 * (address.toNat / 4 % Ram.size))).toNat
  rw [UInt32.toNat_and, UInt32.toNat_ofNat_of_lt' hsmall, hmask, Nat.and_two_pow_sub_one_eq_mod]
  show 4 * (address.toNat / 4 % 524288) % 16777216 = 4 * (address.toNat / 4 % 524288)
  omega

end Dma

namespace Transfer

open Dma (addressOf addressOf_align)

theorem addressOf_blocks {fromRam : Bool} {step : Word} {count more : Nat} {ends : Ends}
    {start last : Word} (hstart : addressOf start = start)
    (h : (blocks fromRam step count more ends start).2 = .ok last) : addressOf last = last := by
  induction more generalizing ends start with
  | zero =>
    obtain rfl : start = last := Except.ok.inj h
    exact hstart
  | succ more ih =>
    rw [blocks] at h
    generalize block ends fromRam start step count = moved at h
    rcases moved with ⟨ends, _ | e⟩
    · exact ih (addressOf_align _) h
    · exact nomatch h

theorem addressOf_chase {ram : Ram} {links : Nat} {gpu : Gpu} {start last : Word}
    (hstart : addressOf start = start) (h : (chase ram links gpu start).2 = .endless last) :
    addressOf last = last := by
  induction links generalizing gpu start with
  | zero =>
    obtain rfl : start = last := Chase.endless.inj h
    exact hstart
  | succ links ih =>
    rw [chase] at h
    generalize gpu.writeBlock (payload ram start) = fed at h
    rcases fed with ⟨gpu, _ | e⟩
    · simp only at h
      split at h
      · exact nomatch h
      · exact ih (addressOf_align _) h
    · exact nomatch h

/-- **What a transfer leaves in the address register** fits into it. -/
theorem addressOf_run {channel : DmaChannel} (ends : Ends)
    (haddress : addressOf channel.address = channel.address) {last : Word}
    (h : (run channel ends).2.1 = some last) : addressOf last = last := by
  have hseveral : ∀ count, (run.several channel ends count).2.1 = some last →
      addressOf last = last := by
    intro count hlast
    have hblocks := @addressOf_blocks channel.fromRam channel.step channel.blockSize count ends
      channel.address last haddress
    rw [run.several] at hlast
    generalize blocks channel.fromRam channel.step channel.blockSize count ends channel.address =
      moved at hlast hblocks
    rcases moved with ⟨ends, e | address⟩
    · exact nomatch hlast
    · obtain rfl : address = last := Option.some.inj hlast
      exact hblocks rfl
  rw [run] at h
  split at h
  · exact hseveral 1 h
  · exact hseveral channel.blockCount h
  · split at h
    · have hchase := @addressOf_chase ends.ram Ram.size ends.gpu (Ram.align channel.address) last
        (addressOf_align _)
      simp only at h
      generalize chase ends.ram Ram.size ends.gpu (Ram.align channel.address) = fed at h hchase
      rcases fed with ⟨gpu, _ | e | address⟩
      · obtain rfl : endOfList = last := Option.some.inj h
        decide
      · exact nomatch h
      · obtain rfl : address = last := Option.some.inj h
        exact hchase rfl
    · exact nomatch h
  · exact nomatch h

end Transfer

namespace Dma

variable {dma : Dma}

theorem isMasked_complete (h : dma.IsMasked) {number : Nat}
    (hnumber : UInt32.ofNat (Nat.pow 2 (24 + number)) &&& 0x7FFF803F =
      UInt32.ofNat (Nat.pow 2 (24 + number))) :
    (dma.complete number).1.IsMasked := by
  rw [complete]
  split
  · refine ⟨h.video, h.table, ?_⟩
    show (dma.interrupt ||| _) &&& 0x7FFF803F = dma.interrupt ||| _
    rw [or_and, h.interrupt, hnumber]
  · exact h

theorem isMasked_tickVideo {machine : Machine} (h : machine.dma.IsMasked) :
    machine.tickVideo.1.dma.IsMasked := by
  rw [Machine.tickVideo]
  split
  · have haddress := fun last => @Transfer.addressOf_run machine.dma.video
      ⟨machine.gpu, machine.ram⟩ h.video last
    generalize Transfer.run machine.dma.video ⟨machine.gpu, machine.ram⟩ = outcome at haddress
    obtain ⟨ends, address, e⟩ := outcome
    have hregister : addressOf (address.getD machine.dma.video.address) =
        address.getD machine.dma.video.address := by
      cases address with
      | none => exact h.video
      | some address => exact haddress address rfl
    have hmasked : IsMasked
        { machine.dma with
          video := { machine.dma.video.deactivate with
            address := address.getD machine.dma.video.address } } :=
      ⟨hregister, h.table, h.interrupt⟩
    cases e with
    | none => exact isMasked_complete hmasked (by decide)
    | some e => exact hmasked
  · exact h

theorem isMasked_tickTable {machine : Machine} (h : machine.dma.IsMasked) :
    machine.tickTable.dma.IsMasked := by
  rw [Machine.tickTable]
  split
  · have hmasked : IsMasked { machine.dma with table := machine.dma.table.deactivate } :=
      ⟨h.video, h.table.deactivate, h.interrupt⟩
    exact isMasked_complete hmasked (by decide)
  · exact h

theorem isMasked_tickDma {machine : Machine} (h : machine.dma.IsMasked) :
    machine.tickDma.1.dma.IsMasked := by
  have hvideo := isMasked_tickVideo h
  rw [Machine.tickDma]
  generalize machine.tickVideo = outcome at hvideo ⊢
  obtain ⟨machine, _ | e⟩ := outcome
  · exact isMasked_tickTable hvideo
  · exact hvideo

theorem writeInterrupt_masked (dma : Dma) (w : Word) :
    (dma.writeInterrupt w).interrupt &&& 0x7FFF803F = (dma.writeInterrupt w).interrupt := by
  have hflags : (0x7F000000 : Word) &&& 0x7FFF803F = 0x7F000000 := by decide
  have hstored : (0x00FF803F : Word) &&& 0x7FFF803F = 0x00FF803F := by decide
  show ((dma.interrupt &&& 0x7F000000 &&& ~~~(w &&& 0x7F000000)) ||| (w &&& 0x00FF803F)) &&&
    0x7FFF803F = _
  rw [or_and, UInt32.and_assoc w, hstored, UInt32.and_assoc dma.interrupt,
    UInt32.and_comm 0x7F000000, ← UInt32.and_assoc dma.interrupt, UInt32.and_assoc _ 0x7F000000,
    hflags]
  rw [UInt32.and_assoc dma.interrupt, UInt32.and_comm _ 0x7F000000, ← UInt32.and_assoc]
  rfl

theorem video_modify (dma : Dma) (number : Nat) (f : DmaChannel → DmaChannel) :
    (dma.modify number f).1.video = if number = 2 then f dma.video else dma.video := by
  unfold modify
  split
  · rfl
  · rfl
  · next hnumber _ => rw [if_neg hnumber]

theorem interrupt_modify (dma : Dma) (number : Nat) (f : DmaChannel → DmaChannel) :
    (dma.modify number f).1.interrupt = dma.interrupt := by
  unfold modify
  split <;> rfl

theorem isMasked_put (h : dma.IsMasked) (register : DmaRegister) (w : Word) :
    (dma.put register w).1.IsMasked := by
  have htable := canonical_put h.table register w
  have hinterrupt : ∀ number f, (dma.modify number f).1.interrupt &&& 0x7FFF803F =
      (dma.modify number f).1.interrupt := by
    intro number f
    rw [interrupt_modify]
    exact h.interrupt
  -- Other registers of a channel than its address do not change that.
  have hvideo : ∀ number f, (f dma.video).address = dma.video.address →
      addressOf (dma.modify number f).1.video.address =
        (dma.modify number f).1.video.address := by
    intro number f hf
    rw [video_modify]
    split
    · rw [hf]
      exact h.video
    · exact h.video
  cases register with
  | address number =>
    refine ⟨?_, htable, hinterrupt number _⟩
    rw [put, video_modify]
    split
    · exact addressOf_addressOf w
    · exact h.video
  | block number => exact ⟨hvideo number _ rfl, htable, hinterrupt number _⟩
  | control number =>
    rw [put, putControl] at htable ⊢
    by_cases hnumber : number = 6
    · rw [if_pos hnumber] at htable ⊢
      split at htable
      · next hbits =>
        rw [if_pos hbits]
        exact h
      · next hbits =>
        rw [if_neg hbits]
        exact ⟨h.video, htable, h.interrupt⟩
    · rw [if_neg hnumber] at htable ⊢
      exact ⟨hvideo number _ rfl, htable, hinterrupt number _⟩
  | priority => exact ⟨h.video, h.table, h.interrupt⟩
  | interrupt => exact ⟨h.video, h.table, writeInterrupt_masked dma w⟩

/-- **The registers never have bits that they do not store.** -/
theorem Attainable.isMasked (h : dma.Attainable) : dma.IsMasked := by
  induction h with
  | powerOn => exact ⟨by decide, ⟨by decide, by decide⟩, by decide⟩
  | put register w _ ih => exact isMasked_put ih register w
  | @tick dma gpu ram irq _ ih => exact @isMasked_tickDma ⟨gpu, dma, ram, irq⟩ ih
  | restoreTable address block control h ih =>
    exact ⟨ih.video, (h.restoreTable address block control).canonical, ih.interrupt⟩

/-! ### Reading what was written -/

/-- What a register shows when a word was stored in it. -/
def stored (dma : Dma) (register : DmaRegister) (w : Word) : Word :=
  match register with
  | .address _ => addressOf w
  | .block _ => w
  | .control number => if number = 6 then tableControl w else w
  | .priority => w
  | .interrupt => (dma.writeInterrupt w).readInterrupt

/-- A channel that can be changed is there to be read. -/
theorem channel_modify {number : Nat} {f : DmaChannel → DmaChannel}
    (hok : (dma.modify number f).2 = none) :
    ∃ channel, (dma.modify number f).1.channel number = .ok (f channel) := by
  unfold modify at hok ⊢
  split at hok
  · exact ⟨dma.video, rfl⟩
  · exact ⟨dma.table, rfl⟩
  · exact nomatch hok

/-- Changing a channel can only be seen in what is changed of it. -/
theorem map_channel_modify {number other : Nat} {f : DmaChannel → DmaChannel}
    {shown : DmaChannel → Word} (h : other = number → ∀ channel, shown (f channel) = shown channel) :
    ((dma.modify number f).1.channel other).map shown = (dma.channel other).map shown := by
  unfold modify
  split
  · unfold channel
    split
    · exact congrArg Except.ok (h rfl dma.video)
    · rfl
    · rfl
  · unfold channel
    split
    · rfl
    · exact congrArg Except.ok (h rfl dma.table)
    · rfl
  · rfl

/-- The control words are written where the channel has them. -/
theorem putControl_eq_modify {number : Nat} {w : Word} (hok : (dma.putControl number w).2 = none) :
    dma.putControl number w = dma.modify number fun channel =>
      { channel with control := if number = 6 then tableControl w else w } := by
  rw [putControl] at hok ⊢
  by_cases hnumber : number = 6
  · subst hnumber
    simp only [if_true] at hok ⊢
    split at hok
    · exact absurd hok (Option.some_ne_none _)
    · next hbits =>
      rw [if_neg hbits]
      rfl
  · simp only [if_neg hnumber]

/-- **A register shows what it stored.** -/
theorem get_put {register : DmaRegister} {w : Word} (hok : (dma.put register w).2 = none) :
    (dma.put register w).1.get register = .ok (dma.stored register w) := by
  cases register with
  | address number =>
    obtain ⟨channel, hchannel⟩ := channel_modify hok
    rw [put, get, hchannel]
    rfl
  | block number =>
    obtain ⟨channel, hchannel⟩ := channel_modify hok
    rw [put, get, hchannel]
    rfl
  | control number =>
    rw [put] at hok ⊢
    have heq := putControl_eq_modify hok
    rw [heq] at hok ⊢
    obtain ⟨channel, hchannel⟩ := channel_modify hok
    rw [get, hchannel]
    rfl
  | priority => rfl
  | interrupt => rfl

/-- A register shows the same as before if what it shows of its channel is not changed. -/
theorem get_modify {number : Nat} {f : DmaChannel → DmaChannel} {other : DmaRegister}
    (haddress : other = .address number → ∀ channel, (f channel).address = channel.address)
    (hblock : other = .block number → ∀ channel, (f channel).block = channel.block)
    (hcontrol : other = .control number → ∀ channel, (f channel).control = channel.control) :
    (dma.modify number f).1.get other = dma.get other := by
  cases other with
  | address n => exact map_channel_modify fun hn => haddress (by rw [hn])
  | block n => exact map_channel_modify fun hn => hblock (by rw [hn])
  | control n => exact map_channel_modify fun hn => hcontrol (by rw [hn])
  | priority =>
    unfold modify
    split <;> rfl
  | interrupt =>
    rw [get, get, readInterrupt, interrupt_modify]
    rfl

/-- **No other register takes notice of a write.** -/
theorem get_put_of_ne {register other : DmaRegister} (hne : other ≠ register) {w : Word}
    (hok : (dma.put register w).2 = none) :
    (dma.put register w).1.get other = dma.get other := by
  cases register with
  | address number =>
    exact get_modify (fun h => absurd h hne) (fun _ _ => rfl) (fun _ _ => rfl)
  | block number =>
    exact get_modify (fun _ _ => rfl) (fun h => absurd h hne) (fun _ _ => rfl)
  | control number =>
    rw [put, putControl_eq_modify hok]
    exact get_modify (fun _ _ => rfl) (fun _ _ => rfl) (fun h => absurd h hne)
  | priority => cases other <;> first | rfl | exact absurd rfl hne
  | interrupt => cases other <;> first | rfl | exact absurd rfl hne

/-! ### Bits that are written back -/

theorem bit_addressOf_congr {v w : Word} {k : Nat} (h : v.bit k = w.bit k) :
    (addressOf v).bit k = (addressOf w).bit k := by
  rw [addressOf, addressOf, Word.bit_and, Word.bit_and, h]

theorem bit_tableControl_congr {v w : Word} {k : Nat} (h : v.bit k = w.bit k) :
    (tableControl v).bit k = (tableControl w).bit k := by
  rw [tableControl, tableControl, Word.bit_or, Word.bit_or, Word.bit_and, Word.bit_and, h]

/-- Below its computed bit the interrupt register shows what is stored. -/
theorem bit_readInterrupt (dma : Dma) {k : Nat} (hk : k < 31) :
    dma.readInterrupt.bit k = dma.interrupt.bit k := by
  have hkept : (0x7FFFFFFF : Word).bit k = true := by
    show (2 ^ 31 - 1).testBit k = true
    rw [Nat.testBit_two_pow_sub_one, decide_eq_true hk]
  have hsignal : ∀ signal : Bool, (if signal then 0x80000000 else 0 : Word).bit k = false := by
    intro signal
    cases signal with
    | false => exact Nat.zero_testBit k
    | true =>
      show (2 ^ 31).testBit k = false
      rw [Nat.testBit_two_pow, decide_eq_false (Nat.ne_of_gt hk)]
  rw [readInterrupt, Word.bit_or, Word.bit_and, hkept, Bool.and_true, hsignal, Bool.or_false]

/-- **A flag that is written back as it was read is cleared**, every other bit of the interrupt
register stays. -/
theorem bit_writeInterrupt (h : dma.IsMasked) {w : Word} {k : Nat} (hk : k < 31)
    (hw : w.bit k = dma.readInterrupt.bit k) :
    (dma.writeInterrupt w).readInterrupt.bit k =
      (decide (k < 24) && dma.readInterrupt.bit k) := by
  have hmasks : ∀ k : Fin 31, (0x00FF803F : Word).bit k =
      (decide (k.val < 24) && (0x7FFF803F : Word).bit k) := by decide
  have hstored := Word.bit_of_and_eq h.interrupt k
  rw [bit_readInterrupt _ hk, bit_readInterrupt _ hk]
  rw [bit_readInterrupt _ hk] at hw
  show ((dma.interrupt &&& 0x7F000000 &&& ~~~(w &&& 0x7F000000)) ||| (w &&& 0x00FF803F)).bit k = _
  rw [Word.bit_or, Word.bit_and, Word.bit_and, Word.bit_not _ (Nat.lt_succ_of_lt hk), Word.bit_and,
    Word.bit_and, hw, hmasks ⟨k, hk⟩, Bool.and_not_self, Bool.false_or, Bool.and_left_comm, ← hstored]

theorem addressOf_get (h : dma.IsMasked) {number : Nat} {v : Word}
    (hv : dma.get (.address number) = .ok v) : addressOf v = v := by
  rw [get] at hv
  unfold channel at hv
  split at hv
  · obtain rfl := Except.ok.inj hv
    exact h.video
  · obtain rfl := Except.ok.inj hv
    exact h.table.address
  · exact nomatch hv

/-- **What becomes of a bit that is written back as it was read**: flags of the interrupt register
are cleared, every other bit stays. -/
theorem bit_stored (h : dma.IsMasked) {register : DmaRegister} {v w : Word} {k : Nat} (hk : k < 32)
    (hv : dma.get register = .ok v) (hw : w.bit k = v.bit k)
    (hcomputed : ¬ (register = .interrupt ∧ k = 31)) :
    (dma.stored register w).bit k =
      if register = .interrupt ∧ 24 ≤ k then false else v.bit k := by
  have hplain : register ≠ .interrupt →
      (if register = .interrupt ∧ 24 ≤ k then false else v.bit k) = v.bit k :=
    fun hne => if_neg fun h => hne h.1
  cases register with
  | address number =>
    rw [hplain (by simp), stored, bit_addressOf_congr hw, addressOf_get h hv]
  | block number => rw [hplain (by simp), stored, hw]
  | control number =>
    rw [hplain (by simp), stored]
    split
    · next hnumber =>
      subst hnumber
      obtain rfl : dma.table.control = v := Except.ok.inj hv
      rw [bit_tableControl_congr hw, h.table.control]
    · exact hw
  | priority => rw [hplain (by simp), stored, hw]
  | interrupt =>
    obtain rfl : dma.readInterrupt = v := Except.ok.inj hv
    have hbelow : k < 31 := by
      have hne : k ≠ 31 := fun hlast => hcomputed ⟨rfl, hlast⟩
      omega
    rw [stored, bit_writeInterrupt h hbelow hw]
    by_cases hflag : 24 ≤ k
    · rw [if_pos ⟨rfl, hflag⟩, decide_eq_false (Nat.not_lt.2 hflag), Bool.false_and]
    · rw [if_neg fun h => hflag h.2, decide_eq_true (Nat.not_le.1 hflag), Bool.true_and]

end Dma

end ConsoleVideo
