import ConsoleVideo.Dma.Transfer
import ConsoleVideo.Proofs.Gpu.Blocks
import Mathlib.Data.Fintype.Pigeonhole
import Mathlib.Logic.Function.Iterate

/-!
# Linked lists of commands

A list of commands lies in the main memory, each header saying where the next one is.  Nothing keeps
the headers from pointing back, so the controller gives up after as many links as the memory has
words.  No list that ends is longer than that, whatever it looks like.

* `Ram.align_eq_and`, `Transfer.next_eq_and` — the addresses as masks state them;
* `Transfer.link`, `Transfer.payloads` — the headers of a list and the words behind them;
* `Transfer.EndsAt` — where a list ends, with `EndsAt.lt_size`: it does so within the memory;
* `Transfer.chase_of_endsAt`, `Transfer.chase_of_endless` — what following a list does;
* `Transfer.run_list_iff` — a list is refused exactly if it never ends.
-/

namespace ConsoleVideo

/-! ### Addresses -/

namespace Ram

/-- An address that was brought into the memory is that of one of its words. -/
theorem toNat_align (address : Word) :
    (align address).toNat = 4 * (address.toNat / 4 % 524288) := by
  have hsmall : 4 * (address.toNat / 4 % 524288) < UInt32.size := by
    show 4 * (address.toNat / 4 % 524288) < 4294967296
    omega
  exact UInt32.toNat_ofNat_of_lt' hsmall

/-- Aligning an address clears what does not count. -/
theorem align_eq_and (address : Word) : align address = address &&& 0x001FFFFC := by
  have hmask : (0x001FFFFC : Word).toNat = 2 ^ 2 * (2 ^ 19 - 1) := by decide
  apply UInt32.toNat_inj.1
  rw [toNat_align, UInt32.toNat_and, hmask, show 4 = 2 ^ 2 from rfl,
    show 524288 = 2 ^ 19 from rfl]
  apply Nat.eq_of_testBit_eq
  intro i
  rw [Nat.testBit_and, Nat.testBit_two_pow_mul, Nat.testBit_two_pow_mul,
    Nat.testBit_two_pow_sub_one, Nat.testBit_mod_two_pow, Nat.testBit_div_two_pow]
  by_cases hi : 2 ≤ i
  · have hback : i - 2 + 2 = i := by omega
    simp [hi, hback, Bool.and_comm]
  · simp [hi]

theorem read_congr {ram : Ram} {address other : Word} (h : slot address = slot other) :
    ram.read address = ram.read other := by
  simp only [read, h]

end Ram

/-- Where the list of a channel starts. -/
def DmaChannel.listStart (channel : DmaChannel) : Word :=
  channel.address &&& 0x001FFFFC

namespace Transfer

variable {ram : Ram} {start : Word}

/-- The next field is brought into the memory as every address is. -/
theorem next_eq_and (header : Word) : next header = header &&& 0x001FFFFC := by
  have hfield : UInt32.ofNat (header.field 0 24) = header &&& 0x00FFFFFF := by
    apply UInt32.toNat_inj.1
    have hlt : header.field 0 24 < UInt32.size :=
      Nat.lt_trans (header.field_lt 0 24) (by decide)
    rw [UInt32.toNat_ofNat_of_lt' hlt, UInt32.toNat_and,
      show (0x00FFFFFF : Word).toNat = 2 ^ 24 - 1 from rfl, Nat.and_two_pow_sub_one_eq_mod]
    show header.toNat / Nat.pow 2 0 % 2 ^ 24 = _
    rw [Nat.pow_eq, Nat.pow_zero, Nat.div_one]
  rw [next, Ram.align_eq_and, hfield, UInt32.and_assoc]
  rfl

/-! ### The headers of a list -/

/-- The header that `n` links lead to.  The lower bits of each say where the next one is. -/
def link (ram : Ram) (start : Word) (n : Nat) : Word :=
  (fun address => ram.read address &&& 0x001FFFFC)^[n] start

/-- The words behind the first `links` headers. -/
def payloads (ram : Ram) (start : Word) (links : Nat) : List (List Word) :=
  (List.range links).map fun i => payload ram (link ram start i)

/-- The list ends with the header that `n` links lead to, and not before. -/
structure EndsAt (ram : Ram) (start : Word) (n : Nat) : Prop where
  isLast : isLast (ram.read (link ram start n)) = true
  goesOn : ∀ m < n, Transfer.isLast (ram.read (link ram start m)) = false

theorem link_succ (n : Nat) :
    link ram start (n + 1) = link ram (next (ram.read start)) n := by
  rw [next_eq_and]
  exact Function.iterate_succ_apply _ n start

theorem link_add (m n : Nat) : link ram start (m + n) = link ram (link ram start n) m :=
  Function.iterate_add_apply _ m n start

theorem payloads_succ (links : Nat) :
    payloads ram start (links + 1) =
      payload ram start :: payloads ram (next (ram.read start)) links := by
  simp only [payloads, List.range_succ_eq_map, List.map_cons, List.map_map, Function.comp_def,
    Nat.succ_eq_add_one, link_succ]
  rfl

/-- Where two headers are the same word of the memory, so are those behind them. -/
theorem slot_link (ram : Ram) {start other : Word} (h : Ram.slot start = Ram.slot other) (n : Nat) :
    Ram.slot (link ram start n) = Ram.slot (link ram other n) := by
  cases n with
  | zero => exact h
  | succ n => rw [link_succ, link_succ, Ram.read_congr h]

/-- A list that reaches a last header has a first one. -/
theorem exists_endsAt (h : ∃ n, isLast (ram.read (link ram start n)) = true) :
    ∃ n, EndsAt ram start n := by
  classical
  refine ⟨Nat.find h, Nat.find_spec h, fun m hm => ?_⟩
  exact Bool.eq_false_iff.2 (Nat.find_min h hm)

/-- **A list that ends does not come upon the same word twice**, so it has no more headers than the
memory has words. -/
theorem EndsAt.lt_size {n : Nat} (h : EndsAt ram start n) : n < Ram.size := by
  by_contra hlong
  obtain ⟨i, j, hne, hslot⟩ := Fintype.exists_ne_map_eq_of_card_lt
    (fun k : Fin (Ram.size + 1) => Ram.slot (link ram start k)) (by simp)
  have hrepeat : ∀ i j : Fin (Ram.size + 1), i < j →
      Ram.slot (link ram start i) = Ram.slot (link ram start j) → False := by
    intro i j hij hslot
    have hbound := j.isLt
    have hless : i.val < j.val := hij
    -- What is left of the list behind the second visit is also behind the first one.
    have hsame := slot_link ram hslot (n - j)
    rw [← link_add, ← link_add, show n - j.val + j.val = n by omega] at hsame
    have hearly := h.goesOn (n - j.val + i.val) (by omega)
    rw [Ram.read_congr hsame, h.isLast] at hearly
    exact Bool.noConfusion hearly
  rcases lt_or_gt_of_ne hne with hij | hji
  · exact hrepeat i j hij hslot
  · exact hrepeat j i hji hslot.symm

/-! ### Following a list -/

/-- How following a list ends that would end with `last` if no word was refused. -/
def Chase.orFailed (last : Chase) : Option DeviceError → Chase
  | none => last
  | some e => .failed e

/-- **A list that ends within the links is followed to its end**, or up to a word that is refused. -/
theorem chase_of_endsAt {n links : Nat} (h : EndsAt ram start n) (hn : n < links) (gpu : Gpu) :
    chase ram links gpu start =
      ((gpu.writeBlocks (payloads ram start (n + 1))).1,
        Chase.finished.orFailed (gpu.writeBlocks (payloads ram start (n + 1))).2) := by
  induction links generalizing gpu start n with
  | zero => exact absurd hn (Nat.not_lt_zero n)
  | succ links ih =>
    rw [chase, payloads_succ, Gpu.writeBlocks]
    rcases gpu.writeBlock (payload ram start) with ⟨gpu, _ | e⟩
    · cases n with
      | zero => exact if_pos h.isLast
      | succ n =>
        have hfirst : isLast (ram.read start) = false := h.goesOn 0 (Nat.succ_pos n)
        have hrest : EndsAt ram (next (ram.read start)) n := by
          refine ⟨?_, fun m hm => ?_⟩
          · rw [← link_succ]
            exact h.isLast
          · rw [← link_succ]
            exact h.goesOn (m + 1) (Nat.succ_lt_succ hm)
        simp only [hfirst, Bool.false_eq_true, if_false]
        exact ih hrest (Nat.lt_of_succ_lt_succ hn) gpu
    · rfl

/-- **A list that goes on is followed as far as the links reach**, or up to a word that is
refused. -/
theorem chase_of_endless {links : Nat}
    (h : ∀ m < links, isLast (ram.read (link ram start m)) = false) (gpu : Gpu) :
    chase ram links gpu start =
      ((gpu.writeBlocks (payloads ram start links)).1,
        (Chase.endless (link ram start links)).orFailed
          (gpu.writeBlocks (payloads ram start links)).2) := by
  induction links generalizing gpu start with
  | zero => rfl
  | succ links ih =>
    rw [chase, payloads_succ, Gpu.writeBlocks, link_succ]
    rcases gpu.writeBlock (payload ram start) with ⟨gpu, _ | e⟩
    · have hfirst : isLast (ram.read start) = false := h 0 (Nat.succ_pos links)
      have hrest : ∀ m < links,
          isLast (ram.read (link ram (next (ram.read start)) m)) = false := by
        intro m hm
        rw [← link_succ]
        exact h (m + 1) (Nat.succ_lt_succ hm)
      simp only [hfirst, Bool.false_eq_true, if_false]
      exact ih hrest gpu
    · rfl

/-! ### The channel -/

/-- No word behind the headers of a list is refused, however far the list is followed. -/
def Accepts (gpu : Gpu) (ram : Ram) (start : Word) : Prop :=
  ∀ n, (∀ m < n, isLast (ram.read (link ram start m)) = false) →
    (gpu.writeBlocks (payloads ram start (n + 1))).2 = none

section List

variable {channel : DmaChannel} {ends : Ends} (hlist : channel.syncMode = .list)
  (hfrom : channel.fromRam = true)

include hlist hfrom

theorem run_of_list :
    run channel ends =
      match chase ends.ram Ram.size ends.gpu channel.listStart with
      | (gpu, .finished) => ({ ends with gpu := gpu }, some endOfList, none)
      | (gpu, .failed e) => ({ ends with gpu := gpu }, none, some e)
      | (gpu, .endless address) =>
        ({ ends with gpu := gpu }, some address,
          some (.dma (.endlessList channel.listStart))) := by
  rw [run, hlist, DmaChannel.listStart, ← Ram.align_eq_and]
  exact if_pos hfrom

/-- The words of a list that ends are sent block by block. -/
theorem run_of_endsAt {n : Nat} (h : EndsAt ends.ram channel.listStart n) :
    run channel ends =
      (⟨(ends.gpu.writeBlocks (payloads ends.ram channel.listStart (n + 1))).1, ends.ram⟩,
        if (ends.gpu.writeBlocks (payloads ends.ram channel.listStart (n + 1))).2.isNone then
          some endOfList else none,
        (ends.gpu.writeBlocks (payloads ends.ram channel.listStart (n + 1))).2) := by
  rw [run_of_list hlist hfrom, chase_of_endsAt h h.lt_size]
  rcases ends.gpu.writeBlocks (payloads ends.ram channel.listStart (n + 1)) with ⟨gpu, _ | e⟩ <;>
    rfl

/-- **Exactly the lists that never end are refused**, if no word of theirs is.  A list that ends
does so after fewer links than the memory has words, and all of its words have been sent; any other
list is given up after as many links, and the words behind them have been sent. -/
theorem run_list_iff (haccepts : Accepts ends.gpu ends.ram channel.listStart) :
    ((run channel ends).2.2 = none ↔
      ∃ n, isLast (ends.ram.read (link ends.ram channel.listStart n)) = true) ∧
    (∀ n, EndsAt ends.ram channel.listStart n → n < 524288 ∧
      run channel ends =
        (⟨(ends.gpu.writeBlocks (payloads ends.ram channel.listStart (n + 1))).1, ends.ram⟩,
          some 0x00FFFFFF, none)) ∧
    ((¬ ∃ n, isLast (ends.ram.read (link ends.ram channel.listStart n)) = true) →
      run channel ends =
        (⟨(ends.gpu.writeBlocks (payloads ends.ram channel.listStart 524288)).1, ends.ram⟩,
          some (link ends.ram channel.listStart 524288),
          some (.dma (.endlessList channel.listStart)))) := by
  have hends : ∀ n, EndsAt ends.ram channel.listStart n →
      run channel ends =
        (⟨(ends.gpu.writeBlocks (payloads ends.ram channel.listStart (n + 1))).1, ends.ram⟩,
          some 0x00FFFFFF, none) := by
    intro n hn
    rw [run_of_endsAt hlist hfrom hn, haccepts n hn.goesOn]
    rfl
  have hendless : (¬ ∃ n, isLast (ends.ram.read (link ends.ram channel.listStart n)) = true) →
      run channel ends =
        (⟨(ends.gpu.writeBlocks (payloads ends.ram channel.listStart 524288)).1, ends.ram⟩,
          some (link ends.ram channel.listStart 524288),
          some (.dma (.endlessList channel.listStart))) := by
    intro hnone
    have hgoesOn : ∀ n, isLast (ends.ram.read (link ends.ram channel.listStart n)) = false :=
      fun n => Bool.eq_false_iff.2 fun hlast => hnone ⟨n, hlast⟩
    have hsent := haccepts (Ram.size - 1) fun m _ => hgoesOn m
    rw [run_of_list hlist hfrom, chase_of_endless fun m _ => hgoesOn m]
    rw [show Ram.size - 1 + 1 = Ram.size from rfl] at hsent
    rw [hsent]
    rfl
  refine ⟨⟨fun hok => ?_, fun hlast => ?_⟩, fun n hn => ⟨hn.lt_size, hends n hn⟩, hendless⟩
  · by_contra hnone
    rw [hendless hnone] at hok
    exact nomatch hok
  · obtain ⟨n, hn⟩ := exists_endsAt hlast
    rw [hends n hn]

end List

/-- A list of two headers, the first of them with a word behind it. -/
theorem run_list_iff_two :
    let ram := ((Ram.blank.write 0 0x01000100).write 4 0xE6000001).write 0x100 0x00800000
    let channel : DmaChannel := ⟨0, 0, 0x01000401⟩
    let ends : Ends := ⟨Gpu.powerOn, ram⟩
    channel.syncMode = .list ∧ channel.fromRam = true ∧
    Accepts ends.gpu ends.ram channel.listStart ∧
    ((run channel ends).2.2 = none ↔
      ∃ n, isLast (ends.ram.read (link ends.ram channel.listStart n)) = true) ∧
    (∀ n, EndsAt ends.ram channel.listStart n → n < 524288 ∧
      run channel ends =
        (⟨(ends.gpu.writeBlocks (payloads ends.ram channel.listStart (n + 1))).1, ends.ram⟩,
          some 0x00FFFFFF, none)) ∧
    ((¬ ∃ n, isLast (ends.ram.read (link ends.ram channel.listStart n)) = true) →
      run channel ends =
        (⟨(ends.gpu.writeBlocks (payloads ends.ram channel.listStart 524288)).1, ends.ram⟩,
          some (link ends.ram channel.listStart 524288),
          some (.dma (.endlessList channel.listStart)))) := by
  intro ram channel ends
  have hlist : channel.syncMode = .list := by decide
  have hfrom : channel.fromRam = true := by decide
  have haccepts : Accepts ends.gpu ends.ram channel.listStart := by
    intro n hn
    match n with
    | 0 => decide +kernel
    | 1 => decide +kernel
    | n + 2 =>
      have hlast : isLast (ends.ram.read (link ends.ram channel.listStart 1)) = true := by
        decide +kernel
      exact absurd hlast (Bool.eq_false_iff.1 (hn 1 (Nat.succ_lt_succ (Nat.succ_pos n))))
  exact ⟨hlist, hfrom, haccepts, run_list_iff hlist hfrom haccepts⟩

end Transfer

end ConsoleVideo
