import ConsoleVideo.Proofs.Dma.Feed

/-!
# Fetching from the hardware

Towards the main memory the controller reads a block back before it stores it, and goes on where the
block before stopped.  What it fetches is nevertheless one row of words, stored at the addresses that
a transfer the other way would send them from.

* `Gpu.readMany_add` — reading in pieces is reading;
* `Gpu.SameDrawing` — what drawing goes by, and what reading leaves alone;
* `Transfer.store_append`, `Transfer.read_store`, `Transfer.read_store_outside` — words stored in a
  row, and what is where afterwards;
* `DmaChannel.slot_addressAt_inj` — a channel does not come upon the same word of the memory twice;
* `Transfer.blocks_fetch`, `Transfer.run_fetch` — a channel fetches one row of words;
* `Transfer.wordsAt_store` — what was stored is what is sent.
-/

namespace ConsoleVideo

/-! ### Reading back in pieces -/

namespace Gpu

/-- The words that were read before do not matter to those that are read. -/
theorem readOnto_eq (gpu : Gpu) (words : Array Word) (n : Nat) :
    gpu.readOnto words n = ((gpu.readMany n).1, words ++ (gpu.readMany n).2) := by
  have hpush : ∀ more : Array Word, gpu.readOnto (words ++ more) n =
      ((gpu.readOnto more n).1, words ++ (gpu.readOnto more n).2) := by
    induction n generalizing gpu with
    | zero => intro more; rfl
    | succ n ih =>
      intro more
      show gpu.read.1.readOnto ((words ++ more).push gpu.read.2) n = _
      rw [← Array.append_push]
      exact ih gpu.read.1 (more.push gpu.read.2)
  have hnone := hpush #[]
  rw [Array.append_empty] at hnone
  exact hnone

theorem readMany_succ (gpu : Gpu) (n : Nat) :
    gpu.readMany (n + 1) =
      ((gpu.read.1.readMany n).1, #[gpu.read.2] ++ (gpu.read.1.readMany n).2) := by
  show gpu.read.1.readOnto #[gpu.read.2] n = _
  exact readOnto_eq gpu.read.1 #[gpu.read.2] n

theorem readMany_add (gpu : Gpu) (m n : Nat) :
    gpu.readMany (m + n) =
      (((gpu.readMany m).1.readMany n).1,
        (gpu.readMany m).2 ++ ((gpu.readMany m).1.readMany n).2) := by
  induction m generalizing gpu with
  | zero =>
    rw [Nat.zero_add]
    show _ = ((gpu.readMany n).1, #[] ++ (gpu.readMany n).2)
    rw [Array.empty_append]
  | succ m ih =>
    rw [Nat.add_right_comm, readMany_succ, ih, readMany_succ, Array.append_assoc]

theorem size_readMany (gpu : Gpu) (n : Nat) : (gpu.readMany n).2.size = n := by
  induction n generalizing gpu with
  | zero => rfl
  | succ n ih =>
    rw [readMany_succ, Array.size_append, ih, Nat.add_comm]
    rfl

/-- What reading back leaves alone. -/
theorem readMany_kept {α : Type} (kept : Gpu → α) (hread : ∀ gpu : Gpu, kept gpu.read.1 = kept gpu)
    (gpu : Gpu) (n : Nat) : kept (gpu.readMany n).1 = kept gpu := by
  induction n generalizing gpu with
  | zero => rfl
  | succ n ih =>
    rw [readMany_succ]
    exact (ih gpu.read.1).trans (hread gpu)

/-- Two states with the same picture and the same rules for mask flags. -/
structure SameDrawing (gpu other : Gpu) : Prop where
  vram : other.vram = gpu.vram
  setMask : other.status.setMask = gpu.status.setMask
  checkMask : other.status.checkMask = gpu.status.checkMask

namespace SameDrawing

theorem trans {gpu between other : Gpu} (h : gpu.SameDrawing between)
    (h' : between.SameDrawing other) : gpu.SameDrawing other where
  vram := h'.vram.trans h.vram
  setMask := h'.setMask.trans h.setMask
  checkMask := h'.checkMask.trans h.checkMask

theorem readMany (gpu : Gpu) (n : Nat) : gpu.SameDrawing (gpu.readMany n).1 where
  vram := gpu.readMany_kept Gpu.vram (fun _ => rfl) n
  setMask := gpu.readMany_kept (·.status.setMask) (fun _ => rfl) n
  checkMask := gpu.readMany_kept (·.status.checkMask) (fun _ => rfl) n

end SameDrawing

end Gpu

/-! ### Words in a row -/

namespace Transfer

theorem addressAt_succ (start step : Word) (i : Nat) :
    addressAt start step (i + 1) = addressAt (start + step) step i := by
  rw [addressAt, addressAt, UInt32.ofNat_add, UInt32.mul_add, UInt32.add_assoc,
    UInt32.add_comm (step * UInt32.ofNat i)]
  show start + (step * 1 + _) = _
  rw [UInt32.mul_one]

theorem addressAt_zero (start step : Word) : addressAt start step 0 = start := by
  rw [addressAt, show step * UInt32.ofNat 0 = 0 from UInt32.mul_zero, UInt32.add_zero]

theorem store_append (step : Word) (ram : Ram) (start : Word) (ws later : List Word) :
    store step ram start (ws ++ later) =
      store step (store step ram start ws) (addressAt start step ws.length) later := by
  induction ws generalizing ram start with
  | nil =>
    rw [List.length_nil, addressAt_zero]
    rfl
  | cons w ws ih =>
    rw [List.length_cons, addressAt_succ]
    exact ih (ram.write start w) (start + step)

/-- **Storing a row leaves the words beside it as they were.** -/
theorem read_store_outside {step start address : Word} {ws : List Word} (ram : Ram)
    (houtside : ∀ i < ws.length, Ram.slot address ≠ Ram.slot (addressAt start step i)) :
    (store step ram start ws).read address = ram.read address := by
  induction ws generalizing ram start with
  | nil => rfl
  | cons w ws ih =>
    have hfirst := houtside 0 (Nat.succ_pos _)
    rw [addressAt_zero] at hfirst
    rw [store, ih, Ram.read_write, if_neg hfirst.symm]
    intro i hi
    rw [← addressAt_succ]
    exact houtside (i + 1) (Nat.succ_lt_succ hi)

/-- **A row that does not come upon the same word twice is stored as it is.** -/
theorem read_store {step start : Word} {ws : List Word} (ram : Ram)
    (hinj : ∀ i < ws.length, ∀ j < ws.length,
      Ram.slot (addressAt start step i) = Ram.slot (addressAt start step j) → i = j)
    {i : Nat} (hi : i < ws.length) :
    (store step ram start ws).read (addressAt start step i) = ws[i] := by
  induction ws generalizing ram start i with
  | nil => exact absurd hi (Nat.not_lt_zero i)
  | cons w ws ih =>
    rw [store]
    cases i with
    | zero =>
      have hbeside : ∀ j < ws.length,
          Ram.slot (addressAt start step 0) ≠ Ram.slot (addressAt (start + step) step j) := by
        intro j hj hslot
        rw [← addressAt_succ] at hslot
        exact absurd (hinj 0 hi (j + 1) (Nat.succ_lt_succ hj) hslot) (Nat.succ_ne_zero j).symm
      rw [read_store_outside _ hbeside, addressAt_zero, Ram.read_write, if_pos rfl]
      rfl
    | succ i =>
      rw [addressAt_succ]
      refine ih _ (fun j hj k hk hslot => ?_) (Nat.lt_of_succ_lt_succ hi)
      rw [← addressAt_succ, ← addressAt_succ] at hslot
      exact Nat.succ.inj (hinj (j + 1) (Nat.succ_lt_succ hj) (k + 1) (Nat.succ_lt_succ hk) hslot)

end Transfer

/-- **A channel does not come upon the same word of the memory twice** before it has been through all
of it. -/
theorem DmaChannel.slot_addressAt_inj (channel : DmaChannel) (start : Word) {i j : Nat}
    (hi : i < 524288) (hj : j < 524288)
    (h : Ram.slot (Transfer.addressAt start channel.step i) =
      Ram.slot (Transfer.addressAt start channel.step j)) : i = j := by
  have hslot := congrArg Fin.val h
  have hstart := start.toNat_lt
  have hplace : ∀ k, k < 524288 →
      (Ram.slot (Transfer.addressAt start channel.step k)).val =
        (start.toNat / 4 + (if channel.backward then 524288 - k else k)) % 524288 := by
    intro k hk
    show (start + channel.step * UInt32.ofNat k).toNat / 4 % 524288 = _
    rw [UInt32.toNat_add, UInt32.toNat_mul, UInt32.toNat_ofNat', DmaChannel.step]
    cases channel.backward with
    | true =>
      show (start.toNat + 4294967292 * (k % 4294967296) % 4294967296) % 4294967296 / 4 % 524288 = _
      rw [if_pos rfl]
      omega
    | false =>
      show (start.toNat + 4 * (k % 4294967296) % 4294967296) % 4294967296 / 4 % 524288 = _
      rw [if_neg Bool.false_ne_true]
      omega
  rw [hplace i hi, hplace j hj] at hslot
  cases hback : channel.backward with
  | true =>
    rw [hback, if_pos rfl, if_pos rfl] at hslot
    omega
  | false =>
    rw [hback, if_neg Bool.false_ne_true, if_neg Bool.false_ne_true] at hslot
    omega

namespace Transfer

/-! ### Blocks -/

section Step

variable {step : Word} (hstep : ∃ k : Word, step = 4 * k)

include hstep

/-- In whole words it does not matter when the address of a row is brought into the memory. -/
theorem store_align (ram : Ram) (start : Word) (ws : List Word) :
    store step ram (Ram.align start) ws = store step ram start ws := by
  obtain ⟨k, rfl⟩ := hstep
  have hcongr : ∀ {a b : Word} (ws : List Word) (ram : Ram), Ram.slot a = Ram.slot b →
      store (4 * k) ram a ws = store (4 * k) ram b ws := by
    intro a b ws
    induction ws generalizing a b with
    | nil => intro ram _; rfl
    | cons w ws ih =>
      intro ram hslot
      have hnext : Ram.slot (a + 4 * k) = Ram.slot (b + 4 * k) := by
        rw [← Ram.slot_align_add a, ← Ram.slot_align_add b, Ram.align_congr hslot]
      rw [store, store, Ram.write_congr hslot, ih _ hnext]
  exact hcongr ws ram (Ram.slot_align start)

/-- **Blocks are fetched as the words in them.** -/
theorem blocks_fetch (gpu : Gpu) (ram : Ram) (count more : Nat) (start : Word) :
    blocks false step count more ⟨gpu, ram⟩ start =
      (⟨(gpu.readMany (count * more)).1,
          store step ram start (gpu.readMany (count * more)).2.toList⟩,
        .ok (if more = 0 then start else Ram.align (addressAt start step (count * more)))) := by
  induction more generalizing gpu ram start with
  | zero => rfl
  | succ more ih =>
    rw [blocks, block]
    simp only [Bool.false_eq_true, if_false]
    rw [ih, Nat.mul_succ, Nat.add_comm (count * more), Gpu.readMany_add, Array.toList_append,
      store_append, Array.length_toList, Gpu.size_readMany, store_align hstep]
    cases more with
    | zero => rfl
    | succ more =>
      rw [if_neg (Nat.succ_ne_zero more), if_neg (Nat.succ_ne_zero _), align_addressAt_align hstep]

end Step

/-! ### Channels -/

section Channel

variable {channel : DmaChannel} (hto : channel.fromRam = false)

include hto

theorem several_fetch (gpu : Gpu) (ram : Ram) (count : Nat) :
    run.several channel ⟨gpu, ram⟩ count =
      (⟨(gpu.readMany (channel.blockSize * count)).1,
          store channel.step ram channel.address
            (gpu.readMany (channel.blockSize * count)).2.toList⟩,
        some (if count = 0 then channel.address
          else Ram.align (addressAt channel.address channel.step (channel.blockSize * count))),
        none) := by
  rw [run.several, hto, blocks_fetch channel.exists_step_eq]

/-- **A channel fetches one row of words**, however it is cut into blocks. -/
theorem run_fetch (hsync : channel.syncMode = .blocks) (gpu : Gpu) (ram : Ram) :
    run channel ⟨gpu, ram⟩ =
      (⟨(gpu.readMany (channel.blockSize * channel.blockCount)).1,
          store channel.step ram channel.address
            (gpu.readMany (channel.blockSize * channel.blockCount)).2.toList⟩,
        some (if channel.blockCount = 0 then channel.address
          else Ram.align (addressAt channel.address channel.step
            (channel.blockSize * channel.blockCount))),
        none) := by
  rw [run, hsync]
  exact several_fetch hto gpu ram channel.blockCount

end Channel

/-- **What was stored is what is sent** by a channel with the same addresses. -/
theorem wordsAt_store (channel : DmaChannel) (ram : Ram) (start : Word) {ws : List Word}
    (hlength : ws.length ≤ 524288) :
    wordsAt (store channel.step ram start ws) start channel.step ws.length = ws := by
  rw [← stage_eq_wordsAt]
  apply List.ext_getElem
  · rw [stage, List.length_map, List.length_range]
  intro i hstage hi
  simp only [stage, List.getElem_map, List.getElem_range]
  exact read_store ram (fun j hj k hk hslot =>
    channel.slot_addressAt_inj start (by omega) (by omega) hslot) hi

end Transfer

end ConsoleVideo
