import ConsoleVideo.Proofs.Dma.Feed

/-!
# Cleared ordering tables

Channel 6 clears a table downwards from an address, and channel 2 follows lists of commands.  The two
were programmed apart: one writes addresses that were brought into the memory and ends the table with
a mark, the other takes addresses through a mask of its own and looks at a single bit for the end.

* `Transfer.below` — the entries of a table, with `slot_below`: which words of the memory they are,
  also where they go on below address zero;
* `Transfer.read_clearTable`, `Transfer.read_clearTable_outside` — what clearing leaves in a table and
  beside it;
* `Transfer.endsAt_clearTable`, `Transfer.payloads_clearTable` — a cleared table is a list without
  words;
* `Machine.tickDma_follow` — following such a list;
* `Machine.tickDma_clearTable` — clearing a table and following it.
-/

namespace ConsoleVideo

/-! ### Entries -/

namespace DmaChannel

theorem blockSize_pos (channel : DmaChannel) : 0 < channel.blockSize := by
  unfold blockSize
  split
  · decide
  · next n hn => exact Nat.pos_of_ne_zero hn

theorem blockSize_le (channel : DmaChannel) : channel.blockSize ≤ 65536 := by
  have hfield := channel.block.field_lt 0 16
  unfold blockSize
  split
  · exact Nat.le_refl 65536
  · exact Nat.le_of_lt hfield

/-- A channel that has done its work is not ready again. -/
theorem isReady_deactivate (channel : DmaChannel) : channel.deactivate.isReady = false := by
  have hbusy : channel.deactivate.isBusy = false := by
    show (channel.control &&& ~~~0x11000000).toNat.testBit 24 = false
    rw [UInt32.toNat_and, Nat.testBit_and, show (~~~0x11000000 : Word).toNat.testBit 24 = false by
      decide, Bool.and_false]
  rw [isReady, hbusy, Bool.false_and]

end DmaChannel

namespace Transfer

/-- The address `k` words below another one. -/
def below (start : Word) (k : Nat) : Word :=
  start - 4 * UInt32.ofNat k

/-- Going down below address zero leads to the end of the memory. -/
theorem slot_below (start : Word) {k : Nat} (h : k ≤ 524288) :
    (Ram.slot (below start k)).val = (start.toNat / 4 + 524288 - k) % 524288 := by
  have hstart := start.toNat_lt
  show (start - 4 * UInt32.ofNat k).toNat / 4 % 524288 = _
  rw [UInt32.toNat_sub, UInt32.toNat_mul, UInt32.toNat_ofNat']
  show (4294967296 - 4 * (k % 4294967296) % 4294967296 + start.toNat) % 4294967296 / 4 % 524288 = _
  omega

theorem slot_below_inj {start : Word} {j k : Nat} (hj : j < 524288) (hk : k < 524288)
    (h : Ram.slot (below start j) = Ram.slot (below start k)) : j = k := by
  have hslot := congrArg Fin.val h
  rw [slot_below start (Nat.le_of_lt hj), slot_below start (Nat.le_of_lt hk)] at hslot
  omega

/-- In whole words it does not matter when an address is brought into the memory. -/
theorem slot_below_align (start : Word) {k : Nat} (h : k ≤ 524288) :
    Ram.slot (below (Ram.align start) k) = Ram.slot (below start k) := by
  apply Fin.ext
  rw [slot_below _ h, slot_below _ h, Ram.toNat_align]
  omega

/-- The address of an entry, as it is written into the one above. -/
theorem align_below_align (start : Word) {k : Nat} (h : k ≤ 524288) :
    Ram.align (below (Ram.align start) k) = below start k &&& 0x001FFFFC := by
  rw [Ram.align_congr (slot_below_align start h), Ram.align_eq_and]

theorem slot_below_and (start : Word) {k : Nat} (h : k ≤ 524288) :
    Ram.slot (below start k &&& 0x001FFFFC) = Ram.slot (below (Ram.align start) k) := by
  rw [← align_below_align start h, Ram.slot_align]

theorem below_zero (start : Word) : below start 0 = start := by
  rw [below, show (4 : Word) * UInt32.ofNat 0 = 0 from rfl, UInt32.sub_zero]

theorem below_succ (start : Word) (k : Nat) : below start (k + 1) = below (start - 4) k := by
  have hnext : (4 : Word) * UInt32.ofNat (k + 1) = 4 + 4 * UInt32.ofNat k := by
    rw [UInt32.ofNat_add, UInt32.mul_add, UInt32.add_comm]
    rfl
  rw [below, below, hnext, UInt32.sub_eq_add_neg start, UInt32.neg_add, UInt32.sub_eq_add_neg (-4),
    ← UInt32.add_assoc, ← UInt32.sub_eq_add_neg, ← UInt32.sub_eq_add_neg]

/-- No address of a word of the memory is the end of a list. -/
theorem isLast_align (address : Word) : isLast (Ram.align address) = false := by
  show (Ram.align address).toNat.testBit 23 = false
  rw [Ram.toNat_align]
  exact Nat.testBit_lt_two_pow (by omega)

/-! ### Clearing -/

section Clear

variable {count k : Nat} (hcount : count ≤ 524288)

include hcount

/-- The rest of a table is a table that starts one word below. -/
theorem slot_below_rest (start : Word) (h : k < count) :
    Ram.slot (below (Ram.align (start - 4)) k) = Ram.slot (below start (k + 1)) := by
  rw [slot_below_align _ (by omega), below_succ]

/-- **Clearing leaves the words beside the table as they were.** -/
theorem read_clearTable_outside (ram : Ram) (start : Word) {address : Word}
    (houtside : ∀ k < count, Ram.slot address ≠ Ram.slot (below start k)) :
    (clearTable ram start count).read address = ram.read address := by
  induction count generalizing ram start with
  | zero => rfl
  | succ count ih =>
    have hfirst : ∀ w : Word, (ram.write start w).read address = ram.read address := by
      intro w
      have hne := houtside 0 (Nat.succ_pos count)
      rw [below_zero] at hne
      rw [Ram.read_write, if_neg hne.symm]
    cases count with
    | zero => exact hfirst endOfList
    | succ count =>
      rw [clearTable, ih (Nat.le_of_succ_le hcount), hfirst]
      intro k hk
      rw [slot_below_rest (Nat.le_of_succ_le hcount) start hk]
      exact houtside (k + 1) (Nat.succ_lt_succ hk)

/-- **Every entry of a cleared table points to the one below it**, and the last one ends the list. -/
theorem read_clearTable (ram : Ram) (start : Word) (hk : k < count) :
    (clearTable ram start count).read (below start k) =
      if k + 1 < count then Ram.align (below start (k + 1)) else endOfList := by
  induction count generalizing ram start k with
  | zero => exact absurd hk (Nat.not_lt_zero k)
  | succ count ih =>
    cases count with
    | zero =>
      obtain rfl : k = 0 := by omega
      rw [below_zero, clearTable, Ram.read_write, if_pos rfl, if_neg (Nat.lt_irrefl 1)]
    | succ count =>
      have hrest : count + 1 ≤ 524288 := Nat.le_of_succ_le hcount
      rw [clearTable]
      cases k with
      | zero =>
        -- No later entry comes upon the first word again.
        have hbeside : ∀ j < count + 1,
            Ram.slot start ≠ Ram.slot (below (Ram.align (start - 4)) j) := by
          intro j hj hslot
          rw [slot_below_rest hrest start hj] at hslot
          have hsame : Ram.slot (below start 0) = Ram.slot (below start (j + 1)) := by
            rw [below_zero]
            exact hslot
          exact absurd (slot_below_inj (by decide) (by omega) hsame) (Nat.succ_ne_zero j).symm
        rw [below_zero, read_clearTable_outside hrest _ _ hbeside, Ram.read_write, if_pos rfl,
          if_pos (by omega)]
        rfl
      | succ k =>
        have hinside : k < count + 1 := Nat.lt_of_succ_lt_succ hk
        rw [← Ram.read_congr (slot_below_rest hrest start hinside), ih hrest _ _ hinside]
        by_cases hlast : k + 1 < count + 1
        · rw [if_pos hlast, if_pos (Nat.succ_lt_succ hlast),
            Ram.align_congr (slot_below_rest hrest start hlast)]
        · rw [if_neg hlast, if_neg fun hmore => hlast (Nat.lt_of_succ_lt_succ hmore)]

/-! ### Following a cleared table -/

theorem link_clearTable (ram : Ram) (start : Word) (hk : k < count) :
    link (clearTable ram start count) (Ram.align start) k = Ram.align (below start k) := by
  induction k with
  | zero =>
    rw [below_zero]
    rfl
  | succ k ih =>
    have hlink : link (clearTable ram start count) (Ram.align start) (k + 1) =
        (clearTable ram start count).read
          (link (clearTable ram start count) (Ram.align start) k) &&& 0x001FFFFC :=
      Function.iterate_succ_apply' _ k _
    rw [hlink, ih (Nat.lt_of_succ_lt hk), Ram.read_congr (Ram.slot_align _),
      read_clearTable hcount ram start (Nat.lt_of_succ_lt hk), if_pos hk, ← Ram.align_eq_and,
      Ram.align_congr (Ram.slot_align _)]

/-- The header that a list finds in an entry. -/
theorem read_link_clearTable (ram : Ram) (start : Word) (hk : k < count) :
    (clearTable ram start count).read
        (link (clearTable ram start count) (Ram.align start) k) =
      if k + 1 < count then Ram.align (below start (k + 1)) else endOfList := by
  rw [link_clearTable hcount ram start hk, Ram.read_congr (Ram.slot_align _),
    read_clearTable hcount ram start hk]

/-- **A cleared table is a list that ends with its last entry.** -/
theorem endsAt_clearTable (ram : Ram) (start : Word) (hpos : 0 < count) :
    EndsAt (clearTable ram start count) (Ram.align start) (count - 1) where
  isLast := by
    rw [read_link_clearTable hcount ram start (by omega), if_neg (by omega)]
    decide
  goesOn := by
    intro k hk
    rw [read_link_clearTable hcount ram start (by omega), if_pos (by omega)]
    exact isLast_align _

/-- **There are no words behind the entries of a cleared table.** -/
theorem payloads_clearTable (ram : Ram) (start : Word) :
    (payloads (clearTable ram start count) (Ram.align start) count).flatten = [] := by
  rw [List.flatten_eq_nil_iff]
  intro words hwords
  obtain ⟨k, hk, rfl⟩ := List.mem_map.1 hwords
  have hempty : ((clearTable ram start count).read
      (link (clearTable ram start count) (Ram.align start) k)).field 24 8 = 0 := by
    rw [read_link_clearTable hcount ram start (List.mem_range.1 hk)]
    split
    · show (Ram.align (below start (k + 1))).toNat / 16777216 % 256 = 0
      rw [Ram.toNat_align]
      omega
    · decide
  rw [payload, hempty]
  rfl

end Clear

end Transfer

/-! ### The whole tick -/

namespace Machine

variable {machine : Machine}

/-- Channel 6 has the tick to itself if the other channel is not ready. -/
theorem tickDma_of_video_idle (hvideo : machine.dma.video.isReady = false) :
    machine.tickDma = (machine.tickTable, none) := by
  have hnothing : machine.tickVideo = (machine, none) := by
    rw [tickVideo]
    simp only [hvideo, Bool.false_eq_true, if_false]
  rw [tickDma, hnothing]

theorem ram_tickTable (htable : machine.dma.table.isReady = true) :
    machine.tickTable.ram = Transfer.clearTable machine.ram
      (Ram.align machine.dma.table.address) machine.dma.table.blockSize := by
  rw [tickTable]
  simp only [htable, if_true]
  rfl

/-- The table channel is not ready again when its table is cleared. -/
theorem isReady_tickTable (machine : Machine) : machine.tickTable.dma.table.isReady = false := by
  cases htable : machine.dma.table.isReady with
  | true =>
    rw [tickTable]
    simp only [htable, if_true, table_completeDma]
    exact DmaChannel.isReady_deactivate machine.dma.table
  | false =>
    rw [tickTable]
    simp only [htable, Bool.false_eq_true, if_false]

/-- Following a list without words does nothing but showing its end. -/
theorem tickDma_follow (h : machine.gpu.Handshake) (hready : machine.dma.video.isReady = true)
    (hlist : machine.dma.video.syncMode = .list) (hfrom : machine.dma.video.fromRam = true)
    (htable : machine.dma.table.isReady = false) {links : Nat}
    (hends : Transfer.EndsAt machine.ram machine.dma.video.listStart links)
    (hnothing :
      (Transfer.payloads machine.ram machine.dma.video.listStart (links + 1)).flatten = []) :
    machine.tickDma.2 = none ∧ machine.tickDma.1.gpu = machine.gpu ∧
      machine.tickDma.1.ram = machine.ram ∧ machine.tickDma.1.dma.video.address = 0x00FFFFFF := by
  have hrun := @Transfer.run_of_endsAt machine.dma.video ⟨machine.gpu, machine.ram⟩ hlist hfrom _
    hends
  rw [h.writeBlocks_flatten, hnothing, h.writeBlock_nil] at hrun
  obtain ⟨hgpu, hram, herror, haddress⟩ := tickVideo_of_run hready hrun
  rw [tickDma_of_table_idle htable]
  exact ⟨herror, hgpu, hram, haddress⟩

/-- **Clearing a table makes a list that can be followed.**  The tick writes as many words of the
memory as the block register says, all of them different, from the address register downwards and on
from the end of the memory below address zero; each has the address of the one below it, the lowest
one the end of the list, and no other word is written.  Whatever state the hardware is in, channel 2
then follows the list from the same address through exactly these entries, finds no words behind
them, leaves the hardware and the memory alone, and shows the end of the list. -/
theorem tickDma_clearTable (htable : machine.dma.table.isReady = true)
    (hvideo : machine.dma.video.isReady = false) :
    let count := machine.dma.table.blockSize
    let entry := fun k : Nat => (machine.dma.table.address - 4 * UInt32.ofNat k) &&& 0x001FFFFC
    let cleared := machine.tickDma.1
    machine.tickDma.2 = none ∧
    (∀ j < count, ∀ k < count, Ram.slot (entry j) = Ram.slot (entry k) → j = k) ∧
    (∀ k < count, cleared.ram.read (entry k) =
      if k + 1 < count then entry (k + 1) else 0x00FFFFFF) ∧
    (∀ address, (∀ k < count, Ram.slot address ≠ Ram.slot (entry k)) →
      cleared.ram.read address = machine.ram.read address) ∧
    ∀ (gpu : Gpu) (channel : DmaChannel), gpu.Reachable → channel.isReady = true →
      channel.syncMode = .list → channel.fromRam = true →
      channel.address = machine.dma.table.address →
      let following : Machine :=
        { cleared with gpu := gpu, dma := { cleared.dma with video := channel } }
      Transfer.EndsAt cleared.ram channel.listStart (count - 1) ∧
      (∀ k < count, Transfer.link cleared.ram channel.listStart k = entry k) ∧
      (Transfer.payloads cleared.ram channel.listStart count).flatten = [] ∧
      following.tickDma.2 = none ∧
      following.tickDma.1.gpu = gpu ∧
      following.tickDma.1.ram = cleared.ram ∧
      following.tickDma.1.dma.video.address = 0x00FFFFFF := by
  intro count entry cleared
  have hpos : 0 < count := machine.dma.table.blockSize_pos
  have hcount : count ≤ 524288 := Nat.le_trans machine.dma.table.blockSize_le (by decide)
  have hslot : ∀ k < count, Ram.slot (entry k) =
      Ram.slot (Transfer.below (Ram.align machine.dma.table.address) k) :=
    fun k hk => Transfer.slot_below_and _ (by omega)
  have hsame : ∀ k < count,
      Ram.align (Transfer.below (Ram.align machine.dma.table.address) k) = entry k :=
    fun k hk => Transfer.align_below_align _ (by omega)
  have htick : machine.tickDma = (machine.tickTable, none) := tickDma_of_video_idle hvideo
  have hram : cleared.ram =
      Transfer.clearTable machine.ram (Ram.align machine.dma.table.address) count := by
    show machine.tickDma.1.ram = _
    rw [htick]
    exact ram_tickTable htable
  refine ⟨by rw [htick], ?_, ?_, ?_, ?_⟩
  · intro j hj k hk hjk
    rw [hslot j hj, hslot k hk] at hjk
    exact Transfer.slot_below_inj (by omega) (by omega) hjk
  · intro k hk
    rw [hram, Ram.read_congr (hslot k hk), Transfer.read_clearTable hcount _ _ hk]
    split
    · next hmore => exact hsame (k + 1) hmore
    · rfl
  · intro address houtside
    rw [hram]
    refine Transfer.read_clearTable_outside hcount _ _ fun k hk => ?_
    rw [← hslot k hk]
    exact houtside k hk
  · intro gpu channel hgpu hready hlist hfrom haddress following
    have hstart : channel.listStart = Ram.align (Ram.align machine.dma.table.address) := by
      rw [Ram.align_congr (Ram.slot_align _), Ram.align_eq_and, DmaChannel.listStart, haddress]
    have hends : Transfer.EndsAt cleared.ram channel.listStart (count - 1) := by
      rw [hstart, hram]
      exact Transfer.endsAt_clearTable hcount _ _ hpos
    have hnothing : (Transfer.payloads cleared.ram channel.listStart count).flatten = [] := by
      rw [hstart, hram]
      exact Transfer.payloads_clearTable hcount _ _
    have hidle : following.dma.table.isReady = false := by
      show machine.tickDma.1.dma.table.isReady = false
      rw [htick]
      exact isReady_tickTable machine
    refine ⟨hends, ?_, hnothing, ?_⟩
    · intro k hk
      rw [hstart, hram, Transfer.link_clearTable hcount _ _ hk, hsame k hk]
    · refine @tickDma_follow following hgpu.handshake hready hlist hfrom hidle _ hends ?_
      rw [Nat.sub_add_cancel hpos]
      exact hnothing

/-- Four entries that go on below address zero, followed while the hardware waits for the rest of a
fill. -/
theorem tickDma_clearTable_wrapped :
    let machine : Machine :=
      { powerOn with dma := { Dma.powerOn with table := ⟨8, 4, 0x11000002⟩ } }
    let entry := fun k : Nat => (machine.dma.table.address - 4 * UInt32.ofNat k) &&& 0x001FFFFC
    let gpu := Gpu.powerOn.act (.write 0x02000000)
    let channel : DmaChannel := ⟨8, 0, 0x01000401⟩
    machine.dma.table.isReady = true ∧ machine.dma.video.isReady = false ∧
    machine.dma.table.blockSize = 4 ∧ entry 2 = 0 ∧ entry 3 = 0x001FFFFC ∧
    gpu.Reachable ∧ channel.isReady = true ∧ channel.syncMode = .list ∧ channel.fromRam = true ∧
    channel.address = machine.dma.table.address ∧
    let cleared := machine.tickDma.1
    let following : Machine :=
      { cleared with gpu := gpu, dma := { cleared.dma with video := channel } }
    Transfer.EndsAt cleared.ram channel.listStart (machine.dma.table.blockSize - 1) ∧
    (∀ k < machine.dma.table.blockSize,
      Transfer.link cleared.ram channel.listStart k = entry k) ∧
    (Transfer.payloads cleared.ram channel.listStart machine.dma.table.blockSize).flatten = [] ∧
    following.tickDma.2 = none ∧ following.tickDma.1.gpu = gpu ∧
    following.tickDma.1.ram = cleared.ram ∧
    following.tickDma.1.dma.video.address = 0x00FFFFFF := by
  intro machine entry gpu channel
  have htable : machine.dma.table.isReady = true := by decide
  have hvideo : machine.dma.video.isReady = false := by decide
  have hgpu : gpu.Reachable := .act _ .powerOn
  have hready : channel.isReady = true := by decide
  have hlist : channel.syncMode = .list := by decide
  have hfrom : channel.fromRam = true := by decide
  have hcount : machine.dma.table.blockSize = 4 := by decide
  have hzero : entry 2 = 0 := by decide
  have hwrapped : entry 3 = 0x001FFFFC := by decide
  have hfollow := (tickDma_clearTable htable hvideo).2.2.2.2
  refine ⟨htable, hvideo, hcount, hzero, hwrapped, hgpu, hready, hlist, hfrom, rfl, ?_⟩
  exact hfollow gpu channel hgpu hready hlist hfrom rfl

end Machine

end ConsoleVideo
