import ConsoleVideo.Exchange
import Mathlib.Data.List.Nodup

/-!
# Who gets which sample

Callers of the worker wait side by side, and a sample goes to whoever receives it first.  Every tick
makes one sample, and every sample goes to one call, in the order in which they were made; but it is
the order in which the calls complete that decides to which one.

* `Exchange.step?_call`, `step?_take`, `step?_deliver`, `step?_receive` — what each step asks for and
  does;
* `Exchange.run?_keeps` — what every step keeps, a run keeps;
* `Exchange.Conserves` — the invariant, with `Conserves.step` and `Conserves.run`;
* `Conserves.exists_step` — no call waits in vain;
* `Exchange.Follows` — the samples are those of a worker that carries out the same ticks alone;
* `Exchange.OwnSamples`, `Exchange.InOrder` — every complete call gave the sample of its own tick, which
  is so as long as there is one caller;
* `Exchange.samples_conserved` — what holds for any number of callers;
* `Exchange.not_forall_ownSamples` — two callers are enough to swap samples.
-/

namespace ConsoleVideo

namespace Exchange

variable {exchange next last : Exchange} {acts : List Act} {caller cycles : Nat}

/-! ### Steps -/

theorem step?_call (h : exchange.step? (.call caller cycles) = some next) :
    exchange.callOf? caller = none ∧
      next = { exchange with
        commands := exchange.commands ++ [cycles]
        waiting := exchange.waiting ++ [⟨caller, exchange.asked.length⟩]
        asked := exchange.asked ++ [cycles] } := by
  rw [step?] at h
  cases hcall : exchange.callOf? caller with
  | some call =>
    rw [hcall] at h
    cases h
  | none =>
    rw [hcall] at h
    exact ⟨rfl, (Option.some.inj h).symm⟩

theorem step?_take (h : exchange.step? .take = some next) :
    exchange.inHand = none ∧ ∃ cycles commands worker sample,
      exchange.commands = cycles :: commands ∧
        exchange.worker.handle (.tick cycles) = (worker, some sample) ∧
        next = { exchange with
          worker := worker
          commands := commands
          inHand := some sample
          made := exchange.made ++ [(cycles, sample)] } := by
  rw [step?] at h
  cases hhand : exchange.inHand with
  | some sample =>
    rw [hhand] at h
    cases h
  | none =>
    cases hcommands : exchange.commands with
    | nil =>
      rw [hhand, hcommands] at h
      cases h
    | cons cycles commands =>
      rw [hhand, hcommands] at h
      rcases hhandle : exchange.worker.handle (.tick cycles) with ⟨worker, _ | sample⟩
      · simp only [hhandle] at h
        cases h
      · simp only [hhandle] at h
        exact ⟨rfl, cycles, commands, worker, sample, rfl, hhandle, (Option.some.inj h).symm⟩

theorem step?_deliver (h : exchange.step? .deliver = some next) :
    ∃ sample, exchange.inHand = some sample ∧ exchange.channel = none ∧
      next = { exchange with inHand := none, channel := some sample } := by
  rw [step?] at h
  cases hhand : exchange.inHand with
  | none =>
    rw [hhand] at h
    cases h
  | some sample =>
    cases hchannel : exchange.channel with
    | some other =>
      rw [hhand, hchannel] at h
      cases h
    | none =>
      rw [hhand, hchannel] at h
      exact ⟨sample, rfl, rfl, (Option.some.inj h).symm⟩

theorem step?_receive (h : exchange.step? (.receive caller) = some next) :
    ∃ call sample, exchange.callOf? caller = some call ∧ exchange.channel = some sample ∧
      next = { exchange with
        channel := none
        waiting := exchange.waiting.erase call
        returned := exchange.returned ++ [(call.number, sample)] } := by
  rw [step?] at h
  cases hcall : exchange.callOf? caller with
  | none =>
    rw [hcall] at h
    cases h
  | some call =>
    cases hchannel : exchange.channel with
    | none =>
      rw [hcall, hchannel] at h
      cases h
    | some sample =>
      rw [hcall, hchannel] at h
      exact ⟨call, sample, rfl, rfl, (Option.some.inj h).symm⟩

theorem mem_waiting_of_callOf? {call : Call} (h : exchange.callOf? caller = some call) :
    call ∈ exchange.waiting ∧ call.caller = caller :=
  ⟨List.mem_of_find?_eq_some h, beq_iff_eq.1 (List.find?_some h :)⟩

theorem caller_ne_of_callOf? (h : exchange.callOf? caller = none) :
    ∀ call ∈ exchange.waiting, call.caller ≠ caller :=
  fun call hcall hsame => List.find?_eq_none.1 h call hcall (beq_iff_eq.2 hsame)

/-- A running worker answers every tick and goes on running. -/
theorem handle_tick {worker : Worker} (h : worker.running = true) (cycles : Nat) :
    ∃ after sample, worker.handle (.tick cycles) = (after, some sample) ∧ after.running = true :=
  ⟨(worker.advance cycles).1, (worker.advance cycles).2, by rw [Worker.handle, if_pos h], h⟩

/-- **What every step of a run keeps, the run keeps.** -/
theorem run?_keeps {P : Exchange → Prop} (h : P exchange)
    (hrun : exchange.run? acts = some last)
    (hkeeps : ∀ act ∈ acts, ∀ before after : Exchange,
      P before → before.step? act = some after → P after) : P last := by
  induction acts generalizing exchange with
  | nil => exact Option.some.inj hrun ▸ h
  | cons act acts ih =>
    obtain ⟨next, hstep, hrest⟩ := Option.bind_eq_some_iff.1 hrun
    exact ih (hkeeps act List.mem_cons_self _ _ h hstep) hrest
      fun later hlater => hkeeps later (List.mem_cons_of_mem act hlater)

/-! ### Nothing is lost -/

/-- What was asked for and what came back. -/
structure Conserves (exchange : Exchange) : Prop where
  running : exchange.worker.running = true
  /-- Ticks are carried out in the order in which they were sent. -/
  asked : exchange.asked = exchange.made.map Prod.fst ++ exchange.commands
  /-- Samples are given in the order in which they were made. -/
  made : exchange.made.map Prod.snd =
    exchange.returned.map Prod.snd ++ exchange.channel.toList ++ exchange.inHand.toList
  /-- Every call is complete, and that once, or waits. -/
  calls : (exchange.returned.map Prod.fst ++ exchange.waiting.map Call.number).Perm
    (List.range exchange.asked.length)
  /-- No one waits twice. -/
  callers : (exchange.waiting.map Call.caller).Nodup

namespace Conserves

theorem start (gpu : Gpu) (irq : Interrupts) (view : View) : (start gpu irq view).Conserves where
  running := rfl
  asked := rfl
  made := rfl
  calls := .nil
  callers := List.nodup_nil

variable (h : exchange.Conserves)

include h

/-- **Every step conserves calls and samples.** -/
theorem step {act : Act} (hstep : exchange.step? act = some next) : next.Conserves := by
  cases act with
  | call caller cycles =>
    obtain ⟨hnone, rfl⟩ := step?_call hstep
    refine ⟨h.running, ?_, h.made, ?_, ?_⟩
    · show exchange.asked ++ [cycles] = _
      rw [h.asked, List.append_assoc]
    · show (exchange.returned.map Prod.fst ++ (exchange.waiting ++ [_]).map Call.number).Perm
        (List.range (exchange.asked ++ [cycles]).length)
      rw [List.map_append, ← List.append_assoc, List.length_append, List.length_singleton,
        List.range_succ]
      exact h.calls.append_right [exchange.asked.length]
    · show ((exchange.waiting ++ [_]).map Call.caller).Nodup
      rw [List.map_append, List.map_singleton, List.nodup_append]
      refine ⟨h.callers, List.nodup_singleton caller, ?_⟩
      intro waiting hwaiting other hother
      obtain ⟨call, hcall, rfl⟩ := List.mem_map.1 hwaiting
      rw [List.mem_singleton.1 hother]
      exact caller_ne_of_callOf? hnone call hcall
  | take =>
    obtain ⟨hhand, cycles, commands, worker, sample, hcommands, hhandle, rfl⟩ := step?_take hstep
    obtain ⟨after, _, hafter, hrunning⟩ := handle_tick h.running cycles
    obtain rfl : after = worker := congrArg Prod.fst (hafter.symm.trans hhandle)
    refine ⟨hrunning, ?_, ?_, h.calls, h.callers⟩
    · show exchange.asked = (exchange.made ++ [(cycles, sample)]).map Prod.fst ++ commands
      rw [h.asked, hcommands, List.map_append, List.append_assoc]
      rfl
    · show (exchange.made ++ [(cycles, sample)]).map Prod.snd = _
      rw [List.map_append, h.made, hhand, Option.toList_none, List.append_nil]
      rfl
  | deliver =>
    obtain ⟨sample, hhand, hchannel, rfl⟩ := step?_deliver hstep
    refine ⟨h.running, h.asked, ?_, h.calls, h.callers⟩
    show exchange.made.map Prod.snd = exchange.returned.map Prod.snd ++ [sample] ++ []
    rw [h.made, hhand, hchannel, Option.toList_none, List.append_nil, List.append_nil]
    rfl
  | receive caller =>
    obtain ⟨call, sample, hcall, hchannel, rfl⟩ := step?_receive hstep
    have herase := List.perm_cons_erase (mem_waiting_of_callOf? hcall).1
    refine ⟨h.running, h.asked, ?_, ?_, ?_⟩
    · show exchange.made.map Prod.snd =
        (exchange.returned ++ [(call.number, sample)]).map Prod.snd ++ [] ++ _
      rw [h.made, hchannel, List.map_append, List.append_nil]
      rfl
    · show ((exchange.returned ++ [(call.number, sample)]).map Prod.fst ++
        (exchange.waiting.erase call).map Call.number).Perm _
      rw [List.map_append, List.append_assoc]
      exact ((herase.map Call.number).symm.append_left _).trans h.calls
    · exact h.callers.sublist ((List.erase_sublist).map Call.caller)
  | others gpu irq surface =>
    obtain rfl := Option.some.inj hstep
    exact ⟨h.running, h.asked, h.made, h.calls, h.callers⟩

theorem run (hrun : exchange.run? acts = some last) : last.Conserves :=
  run?_keeps (P := Conserves) h hrun fun _ _ _ _ hbefore hstep => hbefore.step hstep

/-- As many calls wait as there are ticks and samples under way. -/
theorem length_waiting :
    exchange.waiting.length = exchange.commands.length + exchange.inHand.toList.length +
      exchange.channel.toList.length := by
  have hasked := congrArg List.length h.asked
  have hmade := congrArg List.length h.made
  have hcalls := h.calls.length_eq
  simp only [List.length_append, List.length_map, List.length_range] at hasked hmade hcalls
  omega

/-- **No call waits in vain**: the worker can go on, or there is a sample to receive. -/
theorem exists_step (hwaiting : exchange.waiting ≠ []) :
    ∃ act, (act = .take ∨ act = .deliver ∨ ∃ caller, act = .receive caller) ∧
      (exchange.step? act).isSome := by
  obtain ⟨call, waiting, hcalls⟩ := List.exists_cons_of_ne_nil hwaiting
  have hcount := h.length_waiting
  rw [hcalls, List.length_cons] at hcount
  cases hchannel : exchange.channel with
  | some sample =>
    have hcall : exchange.callOf? call.caller = some call := by
      rw [callOf?, hcalls]
      exact List.find?_cons_of_pos (BEq.refl call.caller)
    refine ⟨.receive call.caller, .inr (.inr ⟨_, rfl⟩), ?_⟩
    rw [step?, hcall, hchannel]
    rfl
  | none =>
    cases hhand : exchange.inHand with
    | some sample =>
      refine ⟨.deliver, .inr (.inl rfl), ?_⟩
      rw [step?, hhand, hchannel]
      rfl
    | none =>
      cases hcommands : exchange.commands with
      | nil =>
        rw [hchannel, hhand, hcommands] at hcount
        exact absurd hcount (Nat.succ_ne_zero _)
      | cons cycles commands =>
        obtain ⟨after, sample, hhandle, -⟩ := handle_tick h.running cycles
        refine ⟨.take, .inl rfl, ?_⟩
        rw [step?, hhand, hcommands]
        simp only [hhandle]
        rfl

end Conserves

/-! ### What the worker makes -/

theorem run_concat (worker : Worker) (commands : List WorkerCommand) (command : WorkerCommand) :
    worker.run (commands ++ [command]) =
      (((worker.run commands).1.handle command).1,
        (worker.run commands).2 ++ ((worker.run commands).1.handle command).2.toList) := by
  induction commands generalizing worker with
  | nil =>
    simp only [List.nil_append, Worker.run]
    rw [List.append_nil]
  | cons first commands ih => simp only [List.cons_append, Worker.run, ih, List.append_assoc]

/-- The samples are those of the worker when it carries out the ticks, one after the other. -/
def Follows (exchange : Exchange) (worker : Worker) : Prop :=
  worker.run (exchange.made.map fun tick => .tick tick.1) =
    (exchange.worker, exchange.made.map Prod.snd)

theorem Follows.step {worker : Worker} (h : exchange.Follows worker) {act : Act}
    (hact : ∀ gpu irq surface, act ≠ .others gpu irq surface)
    (hstep : exchange.step? act = some next) : next.Follows worker := by
  cases act with
  | call caller cycles =>
    obtain ⟨-, rfl⟩ := step?_call hstep
    exact h
  | take =>
    obtain ⟨-, cycles, commands, after, sample, -, hhandle, rfl⟩ := step?_take hstep
    show worker.run ((exchange.made ++ [(cycles, sample)]).map fun tick => .tick tick.1) =
      (after, (exchange.made ++ [(cycles, sample)]).map Prod.snd)
    rw [List.map_append, List.map_append, List.map_singleton, run_concat, h, hhandle]
    rfl
  | deliver =>
    obtain ⟨_, -, -, rfl⟩ := step?_deliver hstep
    exact h
  | receive caller =>
    obtain ⟨_, _, -, -, rfl⟩ := step?_receive hstep
    exact h
  | others gpu irq surface => exact absurd rfl (hact gpu irq surface)

/-- **Where no one else works on the hardware, the samples are those of the worker alone**, whoever
calls it and however the calls overlap. -/
theorem Follows.run {worker : Worker} (h : exchange.Follows worker)
    (hacts : ∀ gpu irq surface, .others gpu irq surface ∉ acts)
    (hrun : exchange.run? acts = some last) : last.Follows worker :=
  run?_keeps (P := (Follows · worker)) h hrun fun _ hmem _ _ hbefore hstep =>
    hbefore.step (fun gpu irq surface hact => hacts gpu irq surface (hact ▸ hmem)) hstep

/-! ### Whose sample it is -/

/-- Every complete call gave the sample that the worker made of its tick. -/
def OwnSamples (exchange : Exchange) : Prop :=
  ∀ call sample, (call, sample) ∈ exchange.returned →
    ∃ cycles, exchange.asked[call]? = some cycles ∧ exchange.made[call]? = some (cycles, sample)

namespace Conserves

variable (h : exchange.Conserves)

include h

/-- The call that completes after `n` others gives the sample of the tick after `n` others. -/
theorem made_of_returned {n call : Nat} {sample : TimingSample}
    (hreturned : exchange.returned[n]? = some (call, sample)) :
    ∃ cycles, exchange.asked[n]? = some cycles ∧ exchange.made[n]? = some (cycles, sample) := by
  have hsample : (exchange.returned.map Prod.snd)[n]? = some sample := by
    rw [List.getElem?_map, hreturned]
    rfl
  have hmade : (exchange.made.map Prod.snd)[n]? = some sample := by
    rw [h.made, List.append_assoc, List.getElem?_append_left (List.getElem?_eq_some_iff.1 hsample).1,
      hsample]
  rw [List.getElem?_map] at hmade
  obtain ⟨⟨cycles, _⟩, htick, rfl⟩ := Option.map_eq_some_iff.1 hmade
  have hcycles : (exchange.made.map Prod.fst)[n]? = some cycles := by
    rw [List.getElem?_map, htick]
    rfl
  refine ⟨cycles, ?_, htick⟩
  rw [h.asked, List.getElem?_append_left (List.getElem?_eq_some_iff.1 hcycles).1, hcycles]

theorem ownSamples_of_order
    (horder : exchange.returned.map Prod.fst = List.range exchange.returned.length) :
    exchange.OwnSamples := by
  intro call sample hmem
  obtain ⟨n, hn⟩ := List.mem_iff_getElem?.1 hmem
  have hnumber : (exchange.returned.map Prod.fst)[n]? = some call := by
    rw [List.getElem?_map, hn]
    rfl
  rw [horder, List.getElem?_range (List.getElem?_eq_some_iff.1 hn).1] at hnumber
  obtain rfl := Option.some.inj hnumber
  exact h.made_of_returned hn

end Conserves

/-- All calls are those of one caller, and they complete in the order in which they were sent. -/
structure InOrder (exchange : Exchange) (caller : Nat) : Prop where
  order : exchange.returned.map Prod.fst ++ exchange.waiting.map Call.number =
    List.range exchange.asked.length
  alone : ∀ call ∈ exchange.waiting, call.caller = caller
  atMostOne : exchange.waiting.length ≤ 1

namespace InOrder

theorem start (gpu : Gpu) (irq : Interrupts) (view : View) (caller : Nat) :
    (start gpu irq view).InOrder caller where
  order := rfl
  alone := fun _ hcall => absurd hcall List.not_mem_nil
  atMostOne := Nat.zero_le 1

variable (h : exchange.InOrder caller)

include h

/-- A caller that is free to call waits for nothing. -/
theorem waiting_eq_nil (hnone : exchange.callOf? caller = none) : exchange.waiting = [] :=
  List.eq_nil_iff_forall_not_mem.2 fun call hcall =>
    caller_ne_of_callOf? hnone call hcall (h.alone call hcall)

theorem waiting_eq_singleton {other : Nat} {call : Call} (hcall : exchange.callOf? other = some call) :
    exchange.waiting = [call] := by
  obtain ⟨hmem, -⟩ := mem_waiting_of_callOf? hcall
  obtain ⟨one, hone⟩ := List.length_eq_one_iff.1
    (Nat.le_antisymm h.atMostOne (List.length_pos_of_mem hmem))
  rw [hone] at hmem ⊢
  rw [List.mem_singleton.1 hmem]

/-- **One caller waits for one call at a time**, and receives what that call is answered with. -/
theorem step {act : Act} (hact : ∀ other ∈ act.caller?, other = caller)
    (hstep : exchange.step? act = some next) : next.InOrder caller := by
  cases act with
  | call other cycles =>
    obtain rfl : other = caller := hact other rfl
    obtain ⟨hnone, rfl⟩ := step?_call hstep
    have hidle := h.waiting_eq_nil hnone
    have horder := h.order
    rw [hidle, List.map_nil, List.append_nil] at horder
    refine ⟨?_, ?_, ?_⟩
    · show exchange.returned.map Prod.fst ++ (exchange.waiting ++ [_]).map Call.number =
        List.range (exchange.asked ++ [cycles]).length
      rw [hidle, horder, List.length_append, List.length_singleton, List.range_succ]
      rfl
    · show ∀ call ∈ exchange.waiting ++ [_], call.caller = other
      rw [hidle]
      intro call hcall
      rw [List.mem_singleton.1 hcall]
    · show (exchange.waiting ++ [_]).length ≤ 1
      rw [hidle]
      exact Nat.le_refl 1
  | take =>
    obtain ⟨-, _, _, _, _, -, -, rfl⟩ := step?_take hstep
    exact ⟨h.order, h.alone, h.atMostOne⟩
  | deliver =>
    obtain ⟨_, -, -, rfl⟩ := step?_deliver hstep
    exact ⟨h.order, h.alone, h.atMostOne⟩
  | receive other =>
    obtain ⟨call, sample, hcall, -, rfl⟩ := step?_receive hstep
    have hwaiting := h.waiting_eq_singleton hcall
    have hrest : exchange.waiting.erase call = [] := by
      rw [hwaiting, List.erase_cons_head]
    have horder := h.order
    rw [hwaiting] at horder
    refine ⟨?_, ?_, ?_⟩
    · show (exchange.returned ++ [(call.number, sample)]).map Prod.fst ++
        (exchange.waiting.erase call).map Call.number = List.range exchange.asked.length
      rw [hrest, List.map_append, List.map_nil, List.append_nil]
      exact horder
    · show ∀ call' ∈ exchange.waiting.erase call, call'.caller = caller
      rw [hrest]
      exact fun _ hmem => absurd hmem List.not_mem_nil
    · show (exchange.waiting.erase call).length ≤ 1
      rw [hrest]
      exact Nat.zero_le 1
  | others gpu irq surface =>
    obtain rfl := Option.some.inj hstep
    exact ⟨h.order, h.alone, h.atMostOne⟩

theorem run (hacts : ∀ act ∈ acts, ∀ other ∈ act.caller?, other = caller)
    (hrun : exchange.run? acts = some last) : last.InOrder caller :=
  run?_keeps (P := (InOrder · caller)) h hrun fun act hmem _ _ hbefore hstep =>
    hbefore.step (hacts act hmem) hstep

/-- The calls that are complete are the first ones. -/
theorem returned_eq :
    exchange.returned.map Prod.fst = List.range exchange.returned.length := by
  have hfirst : exchange.returned.map Prod.fst =
      (List.range exchange.asked.length).take exchange.returned.length := by
    rw [← h.order, List.take_left' (List.length_map _)]
  have hlength := congrArg List.length h.order
  rw [List.length_append, List.length_map, List.length_range] at hlength
  rw [hfirst, List.take_range, Nat.min_eq_left (by omega)]

end InOrder

/-- **No sample is lost or doubled, and they are given in the order in which the ticks were sent.**
For any number of callers and any interleaving: every tick makes one sample; the samples that complete
calls gave, in the order in which they completed, are followed by those under way; and every call is
complete, once, or waits.  The call that completes after `n` others gives the sample of the tick that
was sent after `n` others.  So all calls give their own samples if they complete in the order in which
they were sent, and that is so where there is one caller. -/
theorem samples_conserved {gpu : Gpu} {irq : Interrupts} {view : View}
    (hrun : (Exchange.start gpu irq view).run? acts = some exchange) :
    exchange.asked = exchange.made.map Prod.fst ++ exchange.commands ∧
      exchange.made.map Prod.snd =
        exchange.returned.map Prod.snd ++ exchange.channel.toList ++ exchange.inHand.toList ∧
      (exchange.returned.map Prod.fst ++ exchange.waiting.map Call.number).Perm
        (List.range exchange.asked.length) ∧
      (∀ (n call : Nat) (sample : TimingSample), exchange.returned[n]? = some (call, sample) →
        ∃ cycles, exchange.asked[n]? = some cycles ∧
          exchange.made[n]? = some (cycles, sample)) ∧
      (exchange.returned.map Prod.fst = List.range exchange.returned.length →
        exchange.OwnSamples) ∧
      ∀ caller, (∀ act ∈ acts, ∀ other ∈ act.caller?, other = caller) → exchange.OwnSamples := by
  have h : exchange.Conserves := (Conserves.start gpu irq view).run hrun
  refine ⟨h.asked, h.made, h.calls, fun _ _ _ hn => h.made_of_returned hn,
    h.ownSamples_of_order, ?_⟩
  intro caller hacts
  have horder : exchange.InOrder caller := (InOrder.start gpu irq view caller).run hacts hrun
  exact h.ownSamples_of_order horder.returned_eq

/-- Two callers ask before the worker goes on, and the second one receives first and asks again. -/
theorem samples_conserved_overlapping :
    let acts : List Act := [.call 7 2172, .call 8 100, .take, .deliver, .receive 8, .take, .call 8 5]
    ∃ exchange, (Exchange.start Gpu.powerOn .quiet .display).run? acts = some exchange ∧
      exchange.asked = exchange.made.map Prod.fst ++ exchange.commands ∧
      exchange.made.map Prod.snd =
        exchange.returned.map Prod.snd ++ exchange.channel.toList ++ exchange.inHand.toList ∧
      (exchange.returned.map Prod.fst ++ exchange.waiting.map Call.number).Perm (List.range 3) ∧
      ∃ sample, exchange.returned = [(1, sample)] ∧ exchange.made[0]? = some (2172, sample) := by
  intro acts
  have hrecord : ((Exchange.start Gpu.powerOn .quiet .display).run? acts).map (fun exchange =>
      (exchange.asked, exchange.returned)) =
        some ([2172, 100, 5], [(1, ⟨10, true, true, 1⟩)]) := by
    decide +kernel
  obtain ⟨exchange, hrun, hexchange⟩ := Option.map_eq_some_iff.1 hrecord
  obtain ⟨hasked, hreturned⟩ := Prod.mk.inj hexchange
  obtain ⟨hticks, hsamples, hcalls, hown, -⟩ := samples_conserved hrun
  obtain ⟨cycles, hcycles, hmade⟩ := hown 0 1 ⟨10, true, true, 1⟩ (by rw [hreturned]; rfl)
  rw [hasked] at hcalls hcycles
  obtain rfl : 2172 = cycles := Option.some.inj hcycles
  exact ⟨exchange, hrun, hticks, hsamples, hcalls, _, hreturned, hmade⟩

/-- **Samples are swapped between callers.**  Where two calls are in progress, the one that receives
first gets the sample of the one that sent first. -/
theorem not_forall_ownSamples :
    ¬ ∀ (gpu : Gpu) (irq : Interrupts) (view : View) (acts : List Act) (exchange : Exchange),
      (Exchange.start gpu irq view).run? acts = some exchange → exchange.OwnSamples := by
  intro hall
  have hswapped : ((Exchange.start Gpu.powerOn .quiet .display).run? [.call 0 0, .call 1 2172, .take,
      .deliver, .receive 1, .take, .deliver, .receive 0]).map (fun exchange =>
        (exchange.returned, exchange.made)) =
      some ([(1, ⟨10, true, true, 0⟩), (0, ⟨10, true, true, 1⟩)],
        [(0, ⟨10, true, true, 0⟩), (2172, ⟨10, true, true, 1⟩)]) := by
    decide +kernel
  obtain ⟨exchange, hrun, hrecord⟩ := Option.map_eq_some_iff.1 hswapped
  obtain ⟨hreturned, hmade⟩ := Prod.mk.inj hrecord
  have hmem : (1, ⟨10, true, true, 0⟩) ∈ exchange.returned := by
    rw [hreturned]
    exact List.mem_cons_self
  obtain ⟨cycles, -, hown⟩ := hall _ _ _ _ exchange hrun 1 _ hmem
  rw [hmade] at hown
  exact absurd hown (by simp)

end Exchange

end ConsoleVideo
