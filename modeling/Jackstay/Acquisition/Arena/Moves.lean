import Jackstay.Acquisition.Arena.Producer

/-!
What a step can do to one incarnation.

* `PageOp.exec_shape`, `OwnerOp.exec_shape`, `SectionOp.exec_shape`, `ObserveOp.exec_shape`,
  `HostOp.exec_shape` and `ThreadOp.exec_shape` write out which fields an operation changes;
  an invariant that does not read those fields is preserved by all of them at once.
* `Incarnation.Acts` lists what each label does, and `Incarnation.acts_of_step` that
  the step function does nothing else.
* `Incarnation.Move` lists how the arena changes an incarnation: one of its own
  steps, or the producer taking the observer's mutex, collecting its counter,
  removing it, or starting a call on the page.
-/

namespace Jackstay.Acquisition

namespace ClaimPage

variable (page : ClaimPage)

@[simp] lemma modifySlot_same (k : ℕ) (f : ClaimSlot → ClaimSlot) :
    (page.modifySlot k f).slot k = f (page.slot k) := by
  simp [modifySlot]

@[simp] lemma modifySlot_active (k : ℕ) (f : ClaimSlot → ClaimSlot) :
    (page.modifySlot k f).active = page.active := rfl

@[simp] lemma modifySlot_mappingSlot (k : ℕ) (f : ClaimSlot → ClaimSlot) :
    (page.modifySlot k f).mappingSlot = page.mappingSlot := rfl

@[simp] lemma storeMapping_slot (m g : ℕ) : (page.storeMapping m g).slot = page.slot := rfl

@[simp] lemma storeMapping_active (m g : ℕ) : (page.storeMapping m g).active = page.active := rfl

@[simp] lemma storeMapping_same (m g : ℕ) : (page.storeMapping m g).mappingSlot m = g := by
  simp [storeMapping]

end ClaimPage

/-! ### Shapes -/

/-- A signalling step changes the three words it signals about and the channel. -/
lemma PageOp.exec_shape (e : Env) (inc : Incarnation) (op : PageOp) :
    ∃ active quiescent capacityEpoch wakeBytes, (op.exec e inc).1 =
      { inc with
        page := { inc.page with active, quiescent, capacityEpoch }
        wakeBytes } := by
  cases op with
  | epoch => exact ⟨_, _, _, _, rfl⟩
  | close => exact ⟨_, _, _, _, rfl⟩
  | interest event => exact ⟨_, _, _, _, rfl⟩
  | wake =>
      rw [PageOp.exec]
      split_ifs
      · exact ⟨_, _, _, _, rfl⟩
      · exact ⟨_, _, _, _, rfl⟩
      · exact ⟨_, _, _, _, rfl⟩
      · exact ⟨_, _, _, _, rfl⟩
  | inactive => exact ⟨_, _, _, _, rfl⟩
  | quiesce => exact ⟨_, _, _, _, rfl⟩

/-- A step of an owner's end changes the mapping slots and the offer. -/
lemma OwnerOp.exec_shape (inc : Incarnation) (op : OwnerOp) :
    ∃ mappings mappingSlot offeredGeneration, (op.exec inc).1 =
      { inc with
        mappings
        page := { inc.page with mappingSlot, offeredGeneration } } := by
  cases op with
  | drop m holder =>
      rw [OwnerOp.exec]
      split_ifs
      · exact ⟨_, _, _, rfl⟩
      · exact ⟨_, _, _, rfl⟩
  | unmap m holder => exact ⟨_, _, _, rfl⟩
  | clear m holder => exact ⟨_, _, _, rfl⟩
  | clearOffered => exact ⟨_, _, _, rfl⟩

/-- A step under the retirement mutex leaves the consumer, the observer and the producer's
call alone. -/
lemma SectionOp.exec_shape (e : Env) (inc : Incarnation) (op : SectionOp) :
    ∃ active quiescent capacityEpoch slot mappingSlot offeredGeneration mappings uses threads
      retirement wakeBytes, (op.exec e inc).1 =
      { inc with
        page := { inc.page with
          active, quiescent, capacityEpoch, slot, mappingSlot, offeredGeneration }
        mappings, uses, threads, retirement, wakeBytes } := by
  cases op with
  | page op =>
      obtain ⟨a, q, c, w, h⟩ := op.exec_shape e inc
      simp only [SectionOp.exec, h]
      exact ⟨_, _, _, _, _, _, _, _, _, _, _, rfl⟩
  | drop k op =>
      obtain ⟨ms, m, g, h⟩ := op.exec_shape inc
      rw [SectionOp.exec]
      split
      · rename_i inc' _ _ heq
        rw [heq] at h
        exact ⟨_, _, _, _, _, _, _, _, _, _, _, h⟩
      · rename_i inc' heq
        rw [heq] at h
        exact ⟨_, _, _, _, _, _, _, _, _, _, _, h⟩
  | retire k =>
      rw [SectionOp.exec]
      by_cases hk : inc.frames ≤ k
      · rw [if_pos hk]
        exact ⟨_, _, _, _, _, _, _, _, _, _, _, rfl⟩
      rw [if_neg hk]
      split
      · exact ⟨_, _, _, _, _, _, _, _, _, _, _, rfl⟩
      · split_ifs <;> exact ⟨_, _, _, _, _, _, _, _, _, _, _, rfl⟩
  | _ => exact ⟨_, _, _, _, _, _, _, _, _, _, _, rfl⟩

/-- A step under the observer mutex leaves the consumer, its threads and the mappings
alone; of the producer's call it changes the reply. -/
lemma ObserveOp.exec_shape (native : Bool) (e : Env) (inc : Incarnation) (op : ObserveOp) :
    ∃ active quiescent capacityEpoch slot registeredTimeline mappingSlot uses observer reply
      wakeBytes, (op.exec native e inc).1 =
      { inc with
        page := { inc.page with
          active, quiescent, capacityEpoch, slot, registeredTimeline, mappingSlot }
        uses, observer, reply, wakeBytes } := by
  cases op with
  | page op =>
      obtain ⟨a, q, c, w, h⟩ := op.exec_shape e inc
      simp only [ObserveOp.exec, h]
      exact ⟨_, _, _, _, _, _, _, _, _, _, rfl⟩
  | process | exitPending | deadline | loadPending | loadValue | completed | register =>
      simp only [ObserveOp.exec]
      split_ifs <;> exact ⟨_, _, _, _, _, _, _, _, _, _, rfl⟩
  | _ => exact ⟨_, _, _, _, _, _, _, _, _, _, rfl⟩

/-- The producer's call on a page leaves the claims and their owners alone. -/
lemma HostOp.exec_shape (e : Env) (inc : Incarnation) (op : HostOp) :
    ∃ active quiescent capacityEpoch mappingSlot offeredGeneration mappings wakeBytes hostFault
      reply, (op.exec e inc).1 =
      { inc with
        page := { inc.page with
          active, quiescent, capacityEpoch, mappingSlot, offeredGeneration }
        mappings, wakeBytes, hostFault, reply } := by
  cases op with
  | page op =>
      obtain ⟨a, q, c, w, h⟩ := op.exec_shape e inc
      simp only [HostOp.exec, h]
      exact ⟨_, _, _, _, _, _, _, _, _, rfl⟩
  | owner op =>
      obtain ⟨ms, m, g, h⟩ := op.exec_shape inc
      simp only [HostOp.exec, h]
      exact ⟨_, _, _, _, _, _, _, _, _, rfl⟩
  | offerActive generation =>
      cases generation with
      | none =>
          simp only [HostOp.exec]
          split_ifs
          · exact ⟨_, _, _, _, _, _, _, _, _, rfl⟩
          · exact ⟨_, _, _, _, _, _, _, _, _, rfl⟩
      | some g =>
          simp only [HostOp.exec]
          split_ifs
          · exact ⟨_, _, _, _, _, _, _, _, _, rfl⟩
          · exact ⟨_, _, _, _, _, _, _, _, _, rfl⟩
  | offerOffered g =>
      rw [HostOp.exec]
      split_ifs
      · exact ⟨_, _, _, _, _, _, _, _, _, rfl⟩
      · exact ⟨_, _, _, _, _, _, _, _, _, rfl⟩
      · exact ⟨_, _, _, _, _, _, _, _, _, rfl⟩
  | offerSlot g m =>
      rw [HostOp.exec]
      split_ifs
      · exact ⟨_, _, _, _, _, _, _, _, _, rfl⟩
      · exact ⟨_, _, _, _, _, _, _, _, _, rfl⟩
      · exact ⟨_, _, _, _, _, _, _, _, _, rfl⟩
  | offerStore g m => exact ⟨_, _, _, _, _, _, _, _, _, rfl⟩
  | offerRecheck m =>
      rw [HostOp.exec]
      split_ifs
      · exact ⟨_, _, _, _, _, _, _, _, _, rfl⟩
      · exact ⟨_, _, _, _, _, _, _, _, _, rfl⟩
      · exact ⟨_, _, _, _, _, _, _, _, _, rfl⟩
  | registerActive => exact ⟨_, _, _, _, _, _, _, _, _, rfl⟩

/-- A thread step leaves the claims alone; it may take the retirement mutex. -/
lemma ThreadOp.exec_shape {sh : Shared} {e : Env} {inc inc' : Incarnation} {op : ThreadOp}
    {next : List ThreadOp} (h : op.exec sh e inc = some (inc', next)) :
    ∃ active quiescent capacityEpoch mappingSlot offeredGeneration mappings consumer todo sources
      wakeBytes returns, inc' =
      { inc with
        page := { inc.page with
          active, quiescent, capacityEpoch, mappingSlot, offeredGeneration }
        mappings, consumer, wakeBytes, returns
        retirement := { inc.retirement with todo, sources } } ∧
      (todo = inc.retirement.todo ∨
        inc.retirement.todo = [] ∧ ∃ s : Section, op = .enter s ∧ todo = s.program) := by
  have idle : ∀ (i : Incarnation), i = inc → ∃ active quiescent capacityEpoch mappingSlot
      offeredGeneration mappings consumer todo sources wakeBytes returns, i =
      { inc with
        page := { inc.page with
          active, quiescent, capacityEpoch, mappingSlot, offeredGeneration }
        mappings, consumer, wakeBytes, returns
        retirement := { inc.retirement with todo, sources } } ∧
      (todo = inc.retirement.todo ∨
        inc.retirement.todo = [] ∧ ∃ s : Section, op = .enter s ∧ todo = s.program) := by
    rintro i rfl
    exact ⟨_, _, _, _, _, _, _, _, _, _, _, rfl, Or.inl rfl⟩
  cases op with
  | page op =>
      obtain ⟨a, q, c, w, hp⟩ := op.exec_shape e inc
      simp only [ThreadOp.exec, hp, Option.some.injEq, Prod.mk.injEq] at h
      rw [← h.1]
      exact ⟨_, _, _, _, _, _, _, _, _, _, _, rfl, Or.inl rfl⟩
  | owner op =>
      obtain ⟨ms, m, g, hp⟩ := op.exec_shape inc
      simp only [ThreadOp.exec, hp, Option.some.injEq, Prod.mk.injEq] at h
      rw [← h.1]
      exact ⟨_, _, _, _, _, _, _, _, _, _, _, rfl, Or.inl rfl⟩
  | dropLifetime =>
      simp only [ThreadOp.exec, Option.some.injEq, Prod.mk.injEq] at h
      exact idle _ h.1.symm
  | enter s =>
      simp only [ThreadOp.exec] at h
      split_ifs at h with ht
      simp only [Option.some.injEq, Prod.mk.injEq] at h
      rw [← h.1]
      exact ⟨_, _, _, _, _, _, _, _, _, _, _, rfl, Or.inr ⟨ht, s, rfl, rfl⟩⟩
  | await =>
      simp only [ThreadOp.exec] at h
      split_ifs at h
      simp only [Option.some.injEq, Prod.mk.injEq] at h
      exact idle _ h.1.symm
  | ret r =>
      simp only [ThreadOp.exec, Option.some.injEq, Prod.mk.injEq] at h
      rw [← h.1]
      exact ⟨_, _, _, _, _, _, _, _, _, _, _, rfl, Or.inl rfl⟩
  | installActive m =>
      simp only [ThreadOp.exec, Option.some.injEq] at h
      split_ifs at h
      · rw [Prod.mk.injEq] at h
        rw [← h.1]
        exact ⟨_, _, _, _, _, _, _, _, _, _, _, rfl, Or.inl rfl⟩
      · rw [Prod.mk.injEq] at h
        exact idle _ h.1.symm
  | installTerminal m =>
      simp only [ThreadOp.exec, Option.some.injEq] at h
      split_ifs at h
      · rw [Prod.mk.injEq] at h
        rw [← h.1]
        exact ⟨_, _, _, _, _, _, _, _, _, _, _, rfl, Or.inl rfl⟩
      · rw [Prod.mk.injEq] at h
        exact idle _ h.1.symm
  | installMap m =>
      simp only [ThreadOp.exec, Option.some.injEq] at h
      split_ifs at h
      · rw [Prod.mk.injEq] at h
        rw [← h.1]
        exact ⟨_, _, _, _, _, _, _, _, _, _, _, rfl, Or.inl rfl⟩
      · rw [Prod.mk.injEq] at h
        exact idle _ h.1.symm
  | installConfiguration m =>
      simp only [ThreadOp.exec, Option.some.injEq] at h
      split_ifs at h
      · rw [Prod.mk.injEq] at h
        rw [← h.1]
        exact ⟨_, _, _, _, _, _, _, _, _, _, _, rfl, Or.inl rfl⟩
      · rw [Prod.mk.injEq] at h
        rw [← h.1]
        exact ⟨_, _, _, _, _, _, _, _, _, _, _, rfl, Or.inl rfl⟩
  | bindRegistered t =>
      simp only [ThreadOp.exec, Option.some.injEq, Prod.mk.injEq] at h
      exact idle _ h.1.symm
  | bindActive t =>
      simp only [ThreadOp.exec, Option.some.injEq, Prod.mk.injEq] at h
      exact idle _ h.1.symm
  | bindTerminal t =>
      simp only [ThreadOp.exec, Option.some.injEq, Prod.mk.injEq] at h
      exact idle _ h.1.symm
  | bindSource t =>
      simp only [ThreadOp.exec] at h
      split_ifs at h
      simp only [Option.some.injEq, Prod.mk.injEq] at h
      rw [← h.1]
      exact ⟨_, _, _, _, _, _, _, _, _, _, _, rfl, Or.inl rfl⟩

/-- A thread runs its next operation, with the rest of its work behind it. -/
lemma Incarnation.threadStep_shape {sh : Shared} {e : Env} {inc inc' : Incarnation} {t : ℕ}
    (h : inc.threadStep sh e t = some inc') : ∃ op rest role i next,
      inc.threads[t]? = some ⟨op :: rest, role⟩ ∧ (inc.exited = false ∨ role = .host) ∧
      op.exec sh e { inc with threads := inc.threads.set t ⟨rest, role⟩ } = some (i, next) ∧
      inc' = { i with threads := inc.threads.set t ⟨next ++ rest, role⟩ } := by
  rw [threadStep] at h
  split at h
  case h_2 => cases h
  rename_i op rest role ht
  split_ifs at h with hx
  obtain ⟨⟨i, next⟩, hop, rfl⟩ := Option.map_eq_some_iff.mp h
  refine ⟨op, rest, role, i, next, ht, ?_, hop, ?_⟩
  · by_cases hr : role = .host
    · exact Or.inr hr
    · exact Or.inl (by simpa [hr] using hx)
  · obtain ⟨a, q, c, ms, g, maps, consumer, todo, sources, w, returns, rfl, -⟩ :=
      ThreadOp.exec_shape hop
    simp only [List.set_set]

/-- The section under the retirement mutex runs its next operation. -/
lemma Incarnation.retireStep_shape {e : Env} {inc inc' : Incarnation}
    (h : inc.retireStep e = some inc') : ∃ op rest, inc.retirement.todo = op :: rest ∧
      inc.exited = false ∧
      let r := op.exec e { inc with retirement := { inc.retirement with todo := rest } }
      inc' = { r.1 with retirement := { r.1.retirement with todo := r.2 ++ rest } } := by
  rw [retireStep] at h
  split at h
  case h_2 => cases h
  rename_i op rest ht
  split_ifs at h with hx
  rw [Option.some.injEq] at h
  exact ⟨op, rest, ht, by simpa using hx, h.symm⟩

/-- The section under the observer mutex runs its next operation. -/
lemma Incarnation.observeStep_shape {native : Bool} {e : Env} {inc inc' : Incarnation}
    (h : inc.observeStep native e = some inc') : ∃ op rest, inc.observer.todo = op :: rest ∧
      inc' = { (op.exec native e inc).1 with observer :=
        { (op.exec native e inc).1.observer with
          todo := (op.exec native e inc).2 ++ rest } } := by
  rw [observeStep] at h
  split at h
  case h_2 => cases h
  rename_i op rest ht
  rw [Option.some.injEq] at h
  exact ⟨op, rest, ht, h.symm⟩

/-- The producer's call on this page runs its next operation. -/
lemma Incarnation.hostStep_shape {e : Env} {inc inc' : Incarnation}
    (h : inc.hostStep e = some inc') : ∃ op rest, inc.host = op :: rest ∧
      inc' = { (op.exec e inc).1 with host := (op.exec e inc).2 ++ rest } := by
  rw [hostStep] at h
  split at h
  case h_2 => cases h
  rename_i op rest ht
  rw [Option.some.injEq] at h
  exact ⟨op, rest, ht, h.symm⟩

/-- The waiter changes its own fields, the armed interest and the channel. -/
lemma Incarnation.waiterStep_shape {sh : Shared} {e : Env} {inc inc' : Incarnation} {w : Waiter}
    (h : inc.waiterStep sh e w = some inc') :
    ∃ waiter waitInterest wakeBytes, inc' =
      { inc with waiter, wakeBytes, page := { inc.page with waitInterest } } := by
  obtain ⟨observed, interest, read, pc⟩ := w
  cases pc <;> simp only [waiterStep, Option.some.injEq] at h
  case drain => split_ifs at h <;> subst h <;> exact ⟨_, _, _, rfl⟩
  case cancelled => split_ifs at h <;> subst h <;> exact ⟨_, _, _, rfl⟩
  case data => subst h; exact ⟨_, _, _, rfl⟩
  case capacity => subst h; exact ⟨_, _, _, rfl⟩
  case reconfiguration => subst h; exact ⟨_, _, _, rfl⟩
  case active => split_ifs at h <;> subst h <;> exact ⟨_, _, _, rfl⟩
  case terminal => subst h; exact ⟨_, _, _, rfl⟩
  case decide => split_ifs at h <;> subst h <;> exact ⟨_, _, _, rfl⟩
  case asleep =>
      split_ifs at h <;> rw [Option.some.injEq] at h <;> subst h <;> exact ⟨_, _, _, rfl⟩
  case disarm => subst h; exact ⟨_, _, _, rfl⟩

/-- An unconsumed grant or offer is dropped by the host or by a live recipient. -/
lemma Incarnation.dropSetup_shape {inc inc' : Incarnation} {m : ℕ} {place : Place}
    {todo : List ThreadOp} (h : inc.dropSetup m place todo = some inc') :
    ∃ role, (place = .host ∧ role = .host ∨
        place = .client ∧ role = .free ∧ inc.exited = false) ∧
      inc' = (inc.setTenant m .acknowledging).spawn role todo := by
  cases place with
  | host =>
      rw [dropSetup, Option.some.injEq] at h
      exact ⟨.host, Or.inl ⟨rfl, rfl⟩, h.symm⟩
  | client =>
      rw [dropSetup] at h
      split_ifs at h with hx
      rw [Option.some.injEq] at h
      exact ⟨.free, Or.inr ⟨rfl, rfl, by simpa using hx⟩, h.symm⟩
  | transit => cases h
  | call => cases h

/-! ### Moves -/

/-- Who drops an unconsumed grant or offer: the host, or its live recipient. -/
def Place.Drops (exited : Bool) : Place → Role → Prop
  | .host, .host => True
  | .client, .free => exited = false
  | _, _ => False

/-- Where an unconsumed grant or offer goes: exported by the host, imported by a
live recipient. -/
def Place.Sends (exited : Bool) : Place → Place → Prop
  | .host, .transit => True
  | .transit, .client => exited = false
  | _, _ => False

/-- The drop of the consumer's own handle of its resources. -/
def Consumer.dropResources (c : Consumer) : List ThreadOp :=
  c.resources.toList.map fun m => .owner (.drop m .consumer)

/-- **What a label does**, with what enables it. The steps of a call, a use, the
waiter, a thread, a section and the producer's call keep their own step functions. -/
inductive Incarnation.Acts (sh : Shared) (inc : Incarnation) : Incarnation → Prop
  | sendGrant (g : ℕ) (p p' : Place) : inc.mappings 0 = some ⟨g, .grant p⟩ →
      p.Sends inc.exited p' → Acts sh inc (inc.setTenant 0 (.grant p'))
  | sendOffer (m g : ℕ) (p p' : Place) : inc.mappings m = some ⟨g, .offer p⟩ →
      p.Sends inc.exited p' → Acts sh inc (inc.setTenant m (.offer p'))
  | dropGrant (g : ℕ) (p : Place) (role : Role) : inc.mappings 0 = some ⟨g, .grant p⟩ →
      p.Drops inc.exited role →
      Acts sh inc ((inc.setTenant 0 .acknowledging).spawn role grantDrop)
  | dropOffer (m g : ℕ) (p : Place) (role : Role) : inc.mappings m = some ⟨g, .offer p⟩ →
      p.Drops inc.exited role →
      Acts sh inc ((inc.setTenant m .acknowledging).spawn role ((offerDrop m).map .owner))
  | fromGrant (g : ℕ) : inc.mappings 0 = some ⟨g, .grant .client⟩ → inc.exited = false →
      Acts sh inc (({ inc.setTenant 0 .mapped with
        consumer := some ⟨some 0⟩
        retirement := { inc.retirement with worker := true } } : Incarnation).spawn .consumer
          [.owner .clearOffered])
  | install (m g : ℕ) : inc.mappings m = some ⟨g, .offer .client⟩ → inc.exited = false →
      inc.consumer.isSome → inc.busy = false → inc.borrowed = false →
      Acts sh inc ((inc.setTenant m (.offer .call)).spawn .consumer [.installActive m])
  | relinquish (c : Consumer) : inc.exited = false → inc.consumer = some c →
      inc.busy = false → inc.borrowed = false →
      Acts sh inc (({ inc with consumer := some ⟨none⟩ } : Incarnation).spawn .consumer
        c.dropResources)
  | dropConsumer (c : Consumer) : inc.exited = false → inc.consumer = some c →
      inc.busy = false → inc.borrowed = false →
      Acts sh inc (({ inc with consumer := none } : Incarnation).spawn .free
        ([.enter .drain, .await, .dropLifetime] ++ c.dropResources))
  | bind (t : ℕ) : inc.exited = false → inc.consumer.isSome → inc.busy = false →
      Acts sh inc (inc.spawn .call [.bindRegistered t])
  | begin (client : ℕ) (request : Request) : inc.exited = false → inc.consumer.isSome →
      inc.busy = false →
      Acts sh inc { inc with calls := inc.calls ++ [⟨client, request, .latest⟩] }
  | call (t : ℕ) (inc' : Incarnation) : inc.exited = false → inc.callStep sh t = some inc' →
      Acts sh inc inc'
  | use (k : ℕ) (u : Use) (e : Env) (inc' : Incarnation) : inc.exited = false →
      inc.uses k = some u → inc.useStep sh e k u = some inc' → Acts sh inc inc'
  | release (k : ℕ) (u : Use) : inc.exited = false → inc.uses k = some u → u.pc = .leased →
      Acts sh inc (inc.setUse k { u with pc := .returnPending })
  | defer (k t v : ℕ) (e : Env) (u : Use) (m : ℕ) : inc.exited = false →
      inc.uses k = some u → u.pc = .leased → u.owner = some m →
      inc.retirement.sources t = true → inc.retirement.todo = [] →
      Acts sh inc (inc.handoff e k t v u m)
  | retryRetirement : inc.exited = false → inc.retirement.todo = [] →
      Acts sh inc { inc with retirement := { inc.retirement with failure := false } }
  | workerPoll : inc.exited = false → inc.retirement.worker = true →
      inc.retirement.todo = [] →
      Acts sh inc { inc with
        retirement := { inc.retirement with todo := [.poll, .workerCheck] } }
  | wait (observed : WaitEvents) (interest : WaitInterest) : inc.exited = false →
      inc.consumer.isSome → inc.busy = false → inc.borrowed = false →
      Acts sh inc { inc with
        page := { inc.page with waitInterest := interest.armed }
        waiter := some { observed, interest } }
  | waiter (w : Waiter) (e : Env) (inc' : Incarnation) : inc.exited = false →
      inc.waiter = some w → inc.waiterStep sh e w = some inc' → Acts sh inc inc'
  | thread (t : ℕ) (e : Env) (inc' : Incarnation) : inc.threadStep sh e t = some inc' →
      Acts sh inc inc'
  | retire (e : Env) (inc' : Incarnation) : inc.retireStep e = some inc' → Acts sh inc inc'
  | observe (e : Env) (inc' : Incarnation) : inc.observeStep sh.native e = some inc' →
      Acts sh inc inc'
  | host (e : Env) (inc' : Incarnation) : inc.hostStep e = some inc' → Acts sh inc inc'
  | observerPoll : inc.observer.todo = [] →
      Acts sh inc { inc with observer := { inc.observer with todo := [.process] } }
  | observerFail : inc.observer.todo = [] →
      Acts sh inc { inc with observer := { inc.observer with
        worker := false, failure := true, notificationFailed := true, todo := [.page .close] } }
  | exit : inc.remote = true → inc.exited = false → Acts sh inc { inc with exited := true }

/-- The step function does nothing else. -/
lemma Incarnation.acts_of_step {sh : Shared} {inc inc' : Incarnation} {l : IncLabel}
    (h : inc.step sh l = some inc') : inc.Acts sh inc' := by
  have dropped : ∀ (p : Place) (m : ℕ) (todo : List ThreadOp),
      inc.dropSetup m p todo = some inc' → ∃ role, p.Drops inc.exited role ∧
        inc' = (inc.setTenant m .acknowledging).spawn role todo := by
    intro p m todo hd
    obtain ⟨role, hp, rfl⟩ := dropSetup_shape hd
    refine ⟨role, ?_, rfl⟩
    rcases hp with ⟨rfl, rfl⟩ | ⟨rfl, rfl, hx⟩
    · trivial
    · exact hx
  cases l with
  | exportGrant =>
      rw [step] at h
      split at h
      · rename_i g hm
        rw [Option.some.injEq] at h
        subst h
        exact .sendGrant g .host .transit hm trivial
      · cases h
  | importGrant =>
      rw [step] at h
      split at h
      · rename_i g hm
        split_ifs at h with hc
        rw [Option.some.injEq] at h
        subst h
        exact .sendGrant g .transit .client hm hc.1
      · cases h
  | fromGrant e =>
      rw [step] at h
      split at h
      · rename_i g hm
        split_ifs at h with hx hf
        · obtain ⟨role, hr, rfl⟩ := dropped _ _ _ h
          exact .dropGrant g .client role hm hr
        · rw [Option.some.injEq] at h
          subst h
          exact .fromGrant g hm (by simpa using hx)
      · cases h
  | dropGrant =>
      rw [step] at h
      split at h
      · rename_i g p hm
        obtain ⟨role, hr, rfl⟩ := dropped _ _ _ h
        exact .dropGrant g p role hm hr
      · cases h
  | exportOffer m =>
      rw [step] at h
      split at h
      · rename_i g hm
        split_ifs at h
        rw [Option.some.injEq] at h
        subst h
        exact .sendOffer m g .host .transit hm trivial
      · cases h
  | importOffer m =>
      rw [step] at h
      split at h
      · rename_i g hm
        split_ifs at h with hc
        rw [Option.some.injEq] at h
        subst h
        exact .sendOffer m g .transit .client hm hc.1
      · cases h
  | dropOffer m =>
      rw [step] at h
      split at h
      · rename_i g p hm
        obtain ⟨role, hr, rfl⟩ := dropped _ _ _ h
        exact .dropOffer m g p role hm hr
      · cases h
  | install m =>
      rw [step] at h
      split at h
      · rename_i g hm
        split_ifs at h with hc
        rw [Option.some.injEq] at h
        subst h
        exact .install m g hm hc.1 hc.2.1 hc.2.2.1 hc.2.2.2
      · cases h
  | relinquish =>
      rw [step] at h
      split_ifs at h with hc
      obtain ⟨c, hcons⟩ := Option.isSome_iff_exists.mp hc.2.1
      rw [Option.some.injEq] at h
      subst h
      have hact : inc.Acts sh _ := .relinquish c hc.1 hcons hc.2.2.1 hc.2.2.2
      obtain ⟨r⟩ := c
      cases r <;> simpa [hcons, Consumer.dropResources] using hact
  | dropConsumer =>
      rw [step] at h
      split_ifs at h with hc
      obtain ⟨c, hcons⟩ := Option.isSome_iff_exists.mp hc.2.1
      rw [Option.some.injEq] at h
      subst h
      have hact : inc.Acts sh _ := .dropConsumer c hc.1 hcons hc.2.2.1 hc.2.2.2
      obtain ⟨r⟩ := c
      cases r <;> simpa [hcons, Consumer.dropResources] using hact
  | bind t =>
      rw [step] at h
      split_ifs at h with hc
      rw [Option.some.injEq] at h
      subst h
      exact .bind t hc.1 hc.2.1 hc.2.2
  | begin client request =>
      rw [step] at h
      split_ifs at h with hc
      rw [Option.some.injEq] at h
      subst h
      exact .begin client request hc.1 hc.2.1 hc.2.2
  | call t =>
      rw [step] at h
      split_ifs at h with hx
      exact .call t inc' (by simpa using hx) h
  | use k e =>
      rw [step] at h
      split at h
      · rename_i u hu
        split_ifs at h with hx
        exact .use k u e inc' (by simpa using hx) hu h
      · cases h
  | release k =>
      rw [step] at h
      split at h
      · rename_i u hu
        split_ifs at h with hc
        rw [Option.some.injEq] at h
        subst h
        exact .release k u hc.1 hu hc.2
      · cases h
  | defer k t v e =>
      rw [step] at h
      split at h
      · rename_i u hu
        split at h
        · rename_i m hm
          split_ifs at h with hc
          rw [Option.some.injEq] at h
          subst h
          exact .defer k t v e u m hc.1 hu hc.2.1 hm hc.2.2.1 hc.2.2.2
        · cases h
      · cases h
  | retryRetirement =>
      rw [step] at h
      split_ifs at h with hc
      rw [Option.some.injEq] at h
      subst h
      exact .retryRetirement hc.1 hc.2
  | workerPoll =>
      rw [step] at h
      split_ifs at h with hc
      rw [Option.some.injEq] at h
      subst h
      exact .workerPoll hc.1 hc.2.1 hc.2.2
  | wait observed interest =>
      rw [step] at h
      split_ifs at h with hc
      rw [Option.some.injEq] at h
      subst h
      exact .wait observed interest hc.1 hc.2.1 hc.2.2.1 hc.2.2.2
  | waiter e =>
      rw [step] at h
      split at h
      · rename_i w hw
        split_ifs at h with hx
        exact .waiter w e inc' (by simpa using hx) hw h
      · cases h
  | thread t e => exact .thread t e inc' h
  | retire e => exact .retire e inc' h
  | observe e => exact .observe e inc' h
  | host e => exact .host e inc' h
  | observerPoll =>
      rw [step] at h
      split_ifs at h with hc
      rw [Option.some.injEq] at h
      subst h
      exact .observerPoll hc.2.2
  | observerFail =>
      rw [step] at h
      split_ifs at h with hc
      rw [Option.some.injEq] at h
      subst h
      exact .observerFail hc.2.2
  | exit =>
      rw [step] at h
      split_ifs at h with hc
      rw [Option.some.injEq] at h
      subst h
      exact .exit hc.1 hc.2

/-- What no label changes, and the producer's call on the page: only its own steps
change that. -/
structure Incarnation.Static (inc inc' : Incarnation) : Prop where
  frames : inc'.frames = inc.frames
  remote : inc'.remote = inc.remote
  host : inc'.host = inc.host
  hostFault : inc'.hostFault = inc.hostFault

lemma SectionOp.exec_static (e : Env) (inc : Incarnation) (op : SectionOp) :
    inc.Static (op.exec e inc).1 := by
  obtain ⟨_, _, _, _, _, _, _, _, _, _, _, h⟩ := op.exec_shape e inc
  rw [h]
  exact ⟨rfl, rfl, rfl, rfl⟩

lemma SectionOp.exec_observer (e : Env) (inc : Incarnation) (op : SectionOp) :
    (op.exec e inc).1.observer = inc.observer := by
  obtain ⟨_, _, _, _, _, _, _, _, _, _, _, h⟩ := op.exec_shape e inc
  rw [h]

lemma SectionOp.exec_reply (e : Env) (inc : Incarnation) (op : SectionOp) :
    (op.exec e inc).1.reply = inc.reply := by
  obtain ⟨_, _, _, _, _, _, _, _, _, _, _, h⟩ := op.exec_shape e inc
  rw [h]

lemma ObserveOp.exec_static (native : Bool) (e : Env) (inc : Incarnation) (op : ObserveOp) :
    inc.Static (op.exec native e inc).1 := by
  obtain ⟨_, _, _, _, _, _, _, _, _, _, h⟩ := op.exec_shape native e inc
  rw [h]
  exact ⟨rfl, rfl, rfl, rfl⟩

/-- Registered timelines stay registered. -/
lemma ObserveOp.exec_timelines (native : Bool) (e : Env) (inc : Incarnation) (op : ObserveOp) :
    inc.observer.timelines ≤ (op.exec native e inc).1.observer.timelines := by
  cases op with
  | page op =>
      obtain ⟨a, q, c, w, h⟩ := op.exec_shape e inc
      simp only [ObserveOp.exec, h]
      exact le_rfl
  | process => simp only [ObserveOp.exec]; split_ifs <;> exact le_rfl
  | exitPending k => simp only [ObserveOp.exec]; split_ifs <;> exact le_rfl
  | deadline => simp only [ObserveOp.exec]; split_ifs <;> exact le_rfl
  | loadPending k => simp only [ObserveOp.exec]; split_ifs <;> exact le_rfl
  | loadValue k t => simp only [ObserveOp.exec]; split_ifs <;> exact le_rfl
  | completed k t v => simp only [ObserveOp.exec]; split_ifs <;> exact le_rfl
  | register => simp only [ObserveOp.exec]; split_ifs <;> simp
  | _ => exact le_rfl

/-- An acquisition call ends, moves on, or publishes a claim for the resources it
has mapped. -/
lemma Incarnation.callStep_shape {sh : Shared} {inc inc' : Incarnation} {t : ℕ}
    (h : inc.callStep sh t = some inc') : ∃ call, inc.calls[t]? = some call ∧
      ((∃ pc, call.next sh inc = some (.goto pc) ∧
          inc' = { inc with calls := inc.calls.set t { call with pc } }) ∨
        (∃ outcome, call.next sh inc = some (.done outcome) ∧
          inc' = { inc with
            calls := inc.calls.eraseIdx t
            returns := inc.returns ++ [⟨call.client, call.request, outcome⟩] }) ∨
        (∃ cursor index k m mapping, call.next sh inc = some (.claimed cursor index k) ∧
          inc.consumer.bind Consumer.resources = some m ∧ inc.mappings m = some mapping ∧
          inc' = { inc with
            calls := inc.calls.eraseIdx t
            page := inc.page.modifySlot k fun w => { w with claim := cursor }
            uses := Function.update inc.uses k (some
              { client := call.client
                request := call.request
                cursor
                index
                generation := mapping.generation
                owner := some m }) })) := by
  rw [callStep] at h
  split at h
  · cases h
  rename_i call hcall
  refine ⟨call, hcall, ?_⟩
  split at h
  · cases h
  · rename_i pc hnext
    cases h
    exact Or.inl ⟨pc, hnext, rfl⟩
  · rename_i outcome hnext
    cases h
    exact Or.inr (Or.inl ⟨outcome, hnext, rfl⟩)
  · rename_i cursor index k hnext
    split at h
    · cases h
    rename_i m hm
    split at h
    · cases h
    rename_i mapping hmap
    cases h
    exact Or.inr (Or.inr ⟨cursor, index, k, m, mapping, hnext, hm, hmap, rfl⟩)

/-- An outcome with which an acquisition gives up a validated claim. -/
def AcquireOutcome.Refuses : AcquireOutcome → Prop
  | .closed => True
  | .reconfiguration => True
  | .error _ => True
  | _ => False

/-- The checks of `acquire` between the validation and the copy of the descriptor. -/
def UsePc.Next (sh : Shared) (u : Use) : UsePc → UsePc → Prop
  | .active, .terminal => True
  | .terminal, .configuration => True
  | .configuration, .describe => u.generation = sh.control.configuration
  | _, _ => False

/-- **What a step of a use does**: validation, the checks behind it, the copy of the
descriptor, and the two stores that return its credit. -/
inductive Incarnation.UseActs (sh : Shared) (inc : Incarnation) (k : ℕ) (u : Use) :
    Incarnation → Prop
  | miss : u.pc = .validate →
      ((sh.maps u.generation).records u.index).state ≠ 2 * u.cursor + 1 →
      UseActs sh inc k u (inc.abandonUse k u (.miss u.cursor))
  | validate : u.pc = .validate →
      ((sh.maps u.generation).records u.index).state = 2 * u.cursor + 1 →
      UseActs sh inc k u (inc.setUse k { u with pc := .active, validated := true })
  | refuse (outcome : AcquireOutcome) : outcome.Refuses → u.pc = .active ∨ u.pc = .terminal ∨
      u.pc = .configuration ∨ u.pc = .describe →
      UseActs sh inc k u (inc.abandonUse k u outcome)
  | next (pc : UsePc) : u.pc.Next sh u pc → UseActs sh inc k u (inc.setUse k { u with pc })
  | lease : u.pc = .describe →
      ((sh.maps u.generation).records u.index).descriptor.cursor = u.cursor →
      UseActs sh inc k u { inc.setUse k { u with
          pc := .leased
          descriptor := ((sh.maps u.generation).records u.index).descriptor } with
        returns := inc.returns ++ [⟨u.client, u.request,
          .frame ((sh.maps u.generation).records u.index).descriptor⟩] }
  | returnPending : u.pc = .returnPending →
      UseActs sh inc k u (({ inc with
        page := inc.page.modifySlot k (fun w => { w with releasePending := 0 }) } :
          Incarnation).setUse k { u with pc := .returnClaim })
  | returnClaim : u.pc = .returnClaim →
      UseActs sh inc k u (({ inc with
        page := inc.page.modifySlot k (fun w => { w with claim := 0 })
        uses := Function.update inc.uses k none } : Incarnation).spawn
          (if u.outcome.isSome then .call else .free) (releaseTail u))

lemma Incarnation.useActs_of_step {sh : Shared} {e : Env} {inc inc' : Incarnation} {k : ℕ}
    {u : Use} (h : inc.useStep sh e k u = some inc') : inc.UseActs sh k u inc' := by
  cases hpc : u.pc with
  | validate =>
      simp only [useStep, hpc, Option.some.injEq] at h
      subst h
      split_ifs with hs
      · exact .miss hpc hs
      · exact .validate hpc (by simpa using hs)
  | active =>
      simp only [useStep, hpc, Option.some.injEq] at h
      subst h
      split_ifs
      · exact .refuse _ trivial (Or.inl hpc)
      · exact .next _ (by rw [hpc]; trivial)
  | terminal =>
      simp only [useStep, hpc, Option.some.injEq] at h
      subst h
      split_ifs
      · exact .refuse _ trivial (Or.inr (Or.inl hpc))
      · exact .next _ (by rw [hpc]; trivial)
  | configuration =>
      simp only [useStep, hpc, Option.some.injEq] at h
      subst h
      split_ifs with hc
      · exact .refuse _ trivial (Or.inr (Or.inr (Or.inl hpc)))
      · exact .next _ (by rw [hpc]; simpa [UsePc.Next] using hc)
  | describe =>
      simp only [useStep, hpc, Option.some.injEq] at h
      subst h
      split_ifs with hd
      · exact .refuse _ trivial (Or.inr (Or.inr (Or.inr hpc)))
      · exact .refuse _ trivial (Or.inr (Or.inr (Or.inr hpc)))
      · exact .lease hpc (by push Not at hd; exact hd.1)
  | returnPending =>
      simp only [useStep, hpc, Option.some.injEq] at h
      subst h
      exact .returnPending hpc
  | returnClaim =>
      simp only [useStep, hpc, Option.some.injEq] at h
      subst h
      exact .returnClaim hpc
  | leased => simp [useStep, hpc] at h
  | handing => simp [useStep, hpc] at h
  | deferred => simp [useStep, hpc] at h

/-- Nothing but the producer's own steps changes its call on the page. -/
lemma Incarnation.Acts.static {sh : Shared} {inc inc' : Incarnation} (h : inc.Acts sh inc') :
    inc'.frames = inc.frames ∧ inc'.remote = inc.remote ∧ (inc.host = [] → inc'.host = []) := by
  have of_static : inc.Static inc' →
      inc'.frames = inc.frames ∧ inc'.remote = inc.remote ∧ (inc.host = [] → inc'.host = []) :=
    fun hs => ⟨hs.frames, hs.remote, fun h0 => hs.host.trans h0⟩
  cases h with
  | call t _ hx hs =>
      obtain ⟨call, -, ⟨pc, -, rfl⟩ | ⟨o, -, rfl⟩ | ⟨c, idx, k, m, x, -, -, -, rfl⟩⟩ :=
        callStep_shape hs
      · exact of_static ⟨rfl, rfl, rfl, rfl⟩
      · exact of_static ⟨rfl, rfl, rfl, rfl⟩
      · exact of_static ⟨rfl, rfl, rfl, rfl⟩
  | use k u e _ hx hu hs =>
      refine of_static ?_
      cases useActs_of_step hs <;> exact ⟨rfl, rfl, rfl, rfl⟩
  | defer k t v e u m =>
      refine of_static ?_
      rw [handoff]
      split_ifs <;> exact ⟨rfl, rfl, rfl, rfl⟩
  | waiter w e _ hx hw hs =>
      obtain ⟨waiter, interest, bytes, rfl⟩ := waiterStep_shape hs
      exact of_static ⟨rfl, rfl, rfl, rfl⟩
  | thread t e _ hs =>
      rw [threadStep] at hs
      split at hs
      case h_2 => cases hs
      split_ifs at hs
      obtain ⟨⟨i, next⟩, hop, hi⟩ := Option.map_eq_some_iff.mp hs
      obtain ⟨a, q, c, ms, g, maps, consumer, todo, sources, w, returns, rfl, -⟩ :=
        ThreadOp.exec_shape hop
      subst hi
      exact of_static ⟨rfl, rfl, rfl, rfl⟩
  | retire e _ hs =>
      rw [retireStep] at hs
      split at hs
      case h_2 => cases hs
      rename_i op rest htodo
      split_ifs at hs
      cases hs
      have := op.exec_static e { inc with retirement := { inc.retirement with todo := rest } }
      exact of_static ⟨this.frames, this.remote, this.host, this.hostFault⟩
  | observe e _ hs =>
      rw [observeStep] at hs
      split at hs
      case h_2 => cases hs
      rename_i op rest htodo
      cases hs
      have := op.exec_static sh.native e inc
      exact of_static ⟨this.frames, this.remote, this.host, this.hostFault⟩
  | host e _ hs =>
      rw [hostStep] at hs
      split at hs
      case h_2 => cases hs
      rename_i op rest hop
      obtain ⟨a, q, c, ms, g, maps, w, fault, reply, hx⟩ := op.exec_shape e inc
      rw [Option.some.injEq, hx] at hs
      subst hs
      exact ⟨rfl, rfl, fun h0 => by rw [hop] at h0; cases h0⟩
  | _ => exact of_static ⟨rfl, rfl, rfl, rfl⟩

/-- How the producer's thread may start on a page. -/
def HostOp.Starts : HostOp → Prop
  | .page (.interest _) => True
  | .page .close => True
  | .offerActive none => True
  | .offerActive (some g) => g ≠ 0
  | .registerActive => True
  | _ => False

/-- **What the arena does to an incarnation** in one step, with the shared maps as
they are. -/
inductive Incarnation.Move (sh : Shared) (inc : Incarnation) : Incarnation → Prop
  | act (inc' : Incarnation) : inc.Acts sh inc' → Move sh inc inc'
  | observe (op : ObserveOp) : inc.observer.todo = [] → op = .process ∨ op = .register →
      Move sh inc { inc with observer := { inc.observer with todo := [op] } }
  | collect : Move sh inc { inc with observer := { inc.observer with released := 0 } }
  | forget : inc.observer.todo = [] →
      Move sh inc { inc with observer := { inc.observer with present := false } }
  | retry : inc.observer.todo = [] →
      Move sh inc { inc with observer := { inc.observer with failure := false } }
  | call (op : HostOp) : inc.host = [] → op.Starts →
      Move sh inc { inc with host := [op], hostFault := false, reply := .done }

end Jackstay.Acquisition
