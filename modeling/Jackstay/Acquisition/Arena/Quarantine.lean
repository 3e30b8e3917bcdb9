import Jackstay.Acquisition.Arena.Collection

/-!
The exit of a consumer's process: `ObservationState::observe_process`.

The scan at the exit looks at each claim slot once. A submitted use keeps waiting for its
completion. A use without one gives its credit back where nothing can be asynchronous, and
else it is unresolved: its claim is left as it is.

* `Incarnation.Undisturbed`: what a move leaves alone that is no step of the observer. After
  the exit only the observer touches a claim slot.
* `Verdicts`: what the scan has decided of the slots behind it still holds.
* `exit_settles`: what becomes of each claim after the exit, in every run.
* `quarantined_for_ever`: an unresolved claim is never cleared, and its incarnation is never
  collected.
-/

namespace Jackstay.Acquisition

/-- The steps of the scan at the exit. -/
def ObserveOp.Exits : ObserveOp → Prop
  | .zeroMapping _ => True
  | .exitClaim _ => True
  | .exitPending _ => True
  | .exitRetire _ => True
  | .creditPending _ atExit => atExit = true
  | .creditClaim _ atExit => atExit = true
  | _ => False

/-- The step belongs to no scan, or to one that has passed the claim slot. -/
def ObserveOp.Passed (k : ℕ) : ObserveOp → Prop
  | .zeroMapping _ => False
  | .exitClaim j => k < j
  | .exitPending j => k < j
  | .exitRetire j => k < j
  | .creditPending j atExit => atExit = true → k < j
  | .creditClaim j atExit => atExit = true → k < j
  | _ => True

lemma ObserveOp.passed_of_not_exits {op : ObserveOp} (h : ¬ op.Exits) (k : ℕ) : op.Passed k := by
  cases op with
  | zeroMapping m => exact h trivial
  | exitClaim j => exact absurd trivial h
  | exitPending j => exact absurd trivial h
  | exitRetire j => exact absurd trivial h
  | creditPending j atExit => exact fun hx => absurd hx h
  | creditClaim j atExit => exact fun hx => absurd hx h
  | _ => trivial

/-- At most one step of a scan is under way. -/
def Observer.Single (todo : List ObserveOp) : Prop := todo.Pairwise fun a b => a.Exits → ¬ b.Exits

namespace Incarnation

/-- The observer gave up on the claim: its use stays, without a completion to wait for, and no
step of the observer is about to touch it. -/
structure Quarantined (native : Bool) (inc : Incarnation) (k : ℕ) : Prop where
  used : inc.uses k ≠ none
  pending : (inc.page.slot k).releasePending = 0
  passed : ∀ op ∈ inc.observer.todo, op.Passed k ∧ op ≠ .creditClaim k false
  asynchronous : native = true ∨ inc.observer.timelines ≠ 0

/-- The claim waits for the completion of its use, or the observer has seen it and is about to
clear the claim word. -/
def Awaits (inc : Incarnation) (k : ℕ) : Prop :=
  ∃ u, inc.uses k = some u ∧ u.pc = .deferred ∧
    ((inc.page.slot k).releasePending = 2 ∨ .creditClaim k false ∈ inc.observer.todo)

/-- What a move leaves alone that is no step of the observer. -/
structure Undisturbed (inc inc' : Incarnation) : Prop where
  exitSeen : inc'.observer.exitSeen = inc.observer.exitSeen
  process : inc'.observer.process = inc.observer.process
  unresolved : inc'.observer.unresolved = inc.observer.unresolved
  timelines : inc'.observer.timelines = inc.observer.timelines
  reported : inc'.observer.reported = inc.observer.reported
  todo : inc'.observer.todo = inc.observer.todo ∨ inc.observer.todo = [] ∧
    ∃ op, inc'.observer.todo = [op] ∧ (op = .process ∨ op = .register ∨ op = .page .close)
  slots : inc.exited = true → inc'.uses = inc.uses ∧ inc'.page.slot = inc.page.slot

variable {sh : Shared} {inc inc' : Incarnation}

lemma Undisturbed.of_observer (h : inc'.observer = inc.observer)
    (hslots : inc.exited = true → inc'.uses = inc.uses ∧ inc'.page.slot = inc.page.slot) :
    inc.Undisturbed inc' := by
  refine ⟨?_, ?_, ?_, ?_, ?_, Or.inl ?_, hslots⟩ <;> rw [h]

/-- **After the exit only the observer touches a claim slot.** -/
lemma Move.undisturbed (hm : inc.Move sh inc') :
    (∃ e, inc.observeStep sh.native e = some inc') ∨ inc.Undisturbed inc' := by
  have live : inc.exited = false → inc'.observer = inc.observer → inc.Undisturbed inc' := by
    intro hx hobs
    refine .of_observer hobs fun h0 => ?_
    rw [hx] at h0
    cases h0
  cases hm with
  | observe op hidle hop =>
      refine Or.inr ⟨rfl, rfl, rfl, rfl, rfl, Or.inr ⟨hidle, op, rfl, ?_⟩, fun _ => ⟨rfl, rfl⟩⟩
      exact hop.imp_right Or.inl
  | collect => exact Or.inr ⟨rfl, rfl, rfl, rfl, rfl, Or.inl rfl, fun _ => ⟨rfl, rfl⟩⟩
  | forget => exact Or.inr ⟨rfl, rfl, rfl, rfl, rfl, Or.inl rfl, fun _ => ⟨rfl, rfl⟩⟩
  | retry => exact Or.inr ⟨rfl, rfl, rfl, rfl, rfl, Or.inl rfl, fun _ => ⟨rfl, rfl⟩⟩
  | call op => exact Or.inr (.of_observer rfl fun _ => ⟨rfl, rfl⟩)
  | act _ ha =>
      cases ha with
      | observe e _ hs => exact Or.inl ⟨e, hs⟩
      | call t _ hx hs =>
          refine Or.inr (live hx ?_)
          obtain ⟨call, -, ⟨pc, -, rfl⟩ | ⟨o, -, rfl⟩ | ⟨c, idx, k, m, x, -, -, -, rfl⟩⟩ :=
            callStep_shape hs <;> rfl
      | use k u e _ hx hu hs =>
          refine Or.inr (live hx ?_)
          cases useActs_of_step hs <;> rfl
      | release k u hx => exact Or.inr (live hx rfl)
      | defer k t v e u m hx =>
          refine Or.inr (live hx ?_)
          rw [handoff]
          split_ifs <;> rfl
      | waiter w e _ hx hw hs =>
          obtain ⟨waiter, interest, bytes, rfl⟩ := waiterStep_shape hs
          exact Or.inr (live hx rfl)
      | thread t e _ hs =>
          obtain ⟨op, rest, role, i, next, -, -, hop, rfl⟩ := threadStep_shape hs
          obtain ⟨a, q, c, ms, g, maps, consumer, todo, sources, w, returns, rfl, -⟩ :=
            ThreadOp.exec_shape hop
          exact Or.inr (.of_observer rfl fun _ => ⟨rfl, rfl⟩)
      | retire e _ hs =>
          obtain ⟨op, rest, -, hx, rfl⟩ := retireStep_shape hs
          exact Or.inr (live hx (op.exec_observer e _))
      | host e _ hs =>
          obtain ⟨op, rest, -, rfl⟩ := hostStep_shape hs
          obtain ⟨a, q, c, ms, g, maps, w, fault, reply, hshape⟩ := op.exec_shape e inc
          exact Or.inr (.of_observer (by rw [hshape]) fun _ => by rw [hshape]; exact ⟨rfl, rfl⟩)
      | observerPoll hidle =>
          exact Or.inr ⟨rfl, rfl, rfl, rfl, rfl, Or.inr ⟨hidle, _, rfl, Or.inl rfl⟩,
            fun _ => ⟨rfl, rfl⟩⟩
      | observerFail hidle =>
          exact Or.inr ⟨rfl, rfl, rfl, rfl, rfl, Or.inr ⟨hidle, _, rfl, Or.inr (Or.inr rfl)⟩,
            fun _ => ⟨rfl, rfl⟩⟩
      | _ => exact Or.inr (.of_observer rfl fun _ => ⟨rfl, rfl⟩)

end Incarnation

/-! ### What a step of the observer does -/

namespace ObserveOp

variable {native : Bool} {e : Env} {inc : Incarnation} {op : ObserveOp}

/-- A scan begins with the exit, and else goes on with what it is at. -/
lemma exec_exits : Observer.Single (op.exec native e inc).2 ∧
    (op ≠ .process → ∀ a ∈ (op.exec native e inc).2, a.Exits → op.Exits) := by
  cases op with
  | page op =>
      have hnot : ∀ a ∈ (op.exec e inc).2.map ObserveOp.page, ¬ a.Exits := by
        intro a ha
        obtain ⟨b, -, rfl⟩ := List.mem_map.mp ha
        exact id
      exact ⟨List.pairwise_of_forall_mem_list fun a _ b hb _ => hnot b hb,
        fun _ a ha hx => absurd hx (hnot a ha)⟩
  | process =>
      refine ⟨?_, fun h0 => absurd rfl h0⟩
      simp only [exec]
      split_ifs <;> simp [Observer.Single, Exits]
  | zeroMapping m =>
      simp only [exec]
      split_ifs <;> simp [Observer.Single, Exits]
  | exitClaim k =>
      simp only [exec]
      split_ifs <;> simp [Observer.Single, Exits]
  | exitPending k =>
      simp only [exec]
      split_ifs <;> simp [Observer.Single, Exits]
  | deadline =>
      simp only [exec]
      split_ifs <;> simp [Observer.Single, Exits]
  | loadPending k =>
      simp only [exec]
      split_ifs <;> simp [Observer.Single, Exits]
  | loadValue k t =>
      simp only [exec]
      split_ifs <;> simp [Observer.Single, Exits]
  | completed k t v =>
      simp only [exec]
      split_ifs <;> simp [Observer.Single, Exits]
  | recheck k t v =>
      simp only [exec]
      split_ifs <;> simp [Observer.Single, Exits]
  | creditClaim k atExit =>
      simp only [exec]
      split_ifs <;> simp_all [Observer.Single, Exits]
  | register =>
      simp only [exec]
      split_ifs <;> simp [Observer.Single, Exits]
  | _ => simp [exec, Observer.Single, Exits]

/-- Only `observe_process` sees an exit, and it looks no further then. -/
lemma exec_seen (hop : op ≠ .process) :
    (op.exec native e inc).1.observer.exitSeen = inc.observer.exitSeen ∧
      (op.exec native e inc).1.observer.process = inc.observer.process := by
  cases op with
  | process => exact absurd rfl hop
  | page op =>
      obtain ⟨a, q, c, w, h⟩ := op.exec_shape e inc
      simp only [exec, h, and_self]
  | exitPending k => simp only [exec]; split_ifs <;> exact ⟨rfl, rfl⟩
  | deadline => simp only [exec]; split_ifs <;> exact ⟨rfl, rfl⟩
  | loadPending k => simp only [exec]; split_ifs <;> exact ⟨rfl, rfl⟩
  | loadValue k t => simp only [exec]; split_ifs <;> exact ⟨rfl, rfl⟩
  | completed k t v => simp only [exec]; split_ifs <;> exact ⟨rfl, rfl⟩
  | register => simp only [exec]; split_ifs <;> exact ⟨rfl, rfl⟩
  | _ => exact ⟨rfl, rfl⟩

/-- A claim becomes unresolved in the scan, where something asynchronous may still use it. -/
lemma exec_unresolved : (op.exec native e inc).1.observer.unresolved = inc.observer.unresolved ∨
    ∃ k, op = .exitPending k ∧ (inc.page.slot k).releasePending = 0 ∧
      (native = true ∨ inc.observer.timelines ≠ 0) ∧
      op.exec native e inc = ({ inc with observer := { inc.observer with
        unresolved := inc.observer.unresolved ++ [k] } }, [.exitClaim (k + 1)]) := by
  cases op with
  | page op =>
      obtain ⟨a, q, c, w, h⟩ := op.exec_shape e inc
      exact Or.inl (by simp only [exec, h])
  | exitPending k =>
      simp only [exec]
      split_ifs with h1 h2 h3
      · exact Or.inl rfl
      · exact Or.inl rfl
      · refine Or.inr ⟨k, rfl, h2, ?_, rfl⟩
        by_contra hne
        rw [not_or, Bool.not_eq_true, not_not] at hne
        exact h3 hne
      · exact Or.inl rfl
  | process => simp only [exec]; split_ifs <;> exact Or.inl rfl
  | deadline => simp only [exec]; split_ifs <;> exact Or.inl rfl
  | loadPending k => simp only [exec]; split_ifs <;> exact Or.inl rfl
  | loadValue k t => simp only [exec]; split_ifs <;> exact Or.inl rfl
  | completed k t v => simp only [exec]; split_ifs <;> exact Or.inl rfl
  | register => simp only [exec]; split_ifs <;> exact Or.inl rfl
  | _ => exact Or.inl rfl

/-- What a timeline has answered once it has answered. -/
lemma exec_reported {t v : ℕ} (h : inc.observer.Reported t v) :
    (op.exec native e inc).1.observer.Reported t v := by
  cases op with
  | page op =>
      obtain ⟨a, q, c, w, hshape⟩ := op.exec_shape e inc
      simpa only [exec, hshape] using h
  | completed k t' v' =>
      have hmax : ∀ inc' : Incarnation, inc'.observer.reported =
          Function.update inc.observer.reported t'
            (some (max ((inc.observer.reported t').getD 0) e.value)) →
          inc'.observer.Reported t v := by
        rintro inc' hrep
        obtain ⟨completed, hc, hle⟩ := h
        by_cases ht : t = t'
        · subst ht
          refine ⟨_, by rw [hrep, Function.update_self], ?_⟩
          rw [hc, Option.getD_some]
          exact hle.trans (le_max_left _ _)
        · exact ⟨completed, by rw [hrep, Function.update_of_ne ht]; exact hc, hle⟩
      simp only [exec]
      split_ifs
      · exact h
      · exact hmax _ rfl
      · exact hmax _ rfl
      · exact hmax _ rfl
  | process => simp only [exec]; split_ifs <;> exact h
  | exitPending k => simp only [exec]; split_ifs <;> exact h
  | deadline => simp only [exec]; split_ifs <;> exact h
  | loadPending k => simp only [exec]; split_ifs <;> exact h
  | loadValue k t => simp only [exec]; split_ifs <;> exact h
  | register => simp only [exec]; split_ifs <;> exact h
  | _ => exact h

end ObserveOp

/-! ### The verdicts of the scan -/

/-- **The invariant of the exit**: a scan runs once, an unresolved claim is quarantined, and of
every slot that the scan has passed nothing else is left than a use that awaits its
completion. -/
structure Verdicts (native : Bool) (inc : Incarnation) : Prop where
  unseen : inc.observer.exitSeen = false → inc.observer.unresolved = []
  seen : inc.observer.exitSeen = true → inc.observer.process = false
  single : Observer.Single inc.observer.todo
  quarantined : ∀ k ∈ inc.observer.unresolved, inc.Quarantined native k
  judged : inc.observer.exitSeen = true → ∀ k, (∀ op ∈ inc.observer.todo, op.Passed k) →
    inc.uses k = none ∨ k ∈ inc.observer.unresolved ∨ inc.Awaits k

namespace Verdicts

variable {native : Bool} {sh : Shared} {inc inc' : Incarnation}

lemma new (native : Bool) (frames : ℕ) (remote : Bool) (g : ℕ) :
    Verdicts native (Incarnation.new frames remote g) := by
  constructor
  case unseen => exact fun _ => rfl
  case seen => rintro ⟨⟩
  case single => exact List.Pairwise.nil
  case quarantined => rintro k ⟨⟩
  case judged => rintro ⟨⟩

/-- Moves that are no steps of the observer. -/
lemma undisturbed (h : Verdicts native inc) (hh : Handoffs native inc)
    (hm : inc.Undisturbed inc') : Verdicts native inc' := by
  have hpassed : ∀ op ∈ inc'.observer.todo, op ∈ inc.observer.todo ∨
      ∀ k, op.Passed k ∧ op ≠ .creditClaim k false := by
    intro op hop
    rcases hm.todo with heq | ⟨-, x, heq, hx⟩
    · exact Or.inl (heq ▸ hop)
    · rw [heq, List.mem_singleton] at hop
      subst hop
      right
      intro k
      rcases hx with rfl | rfl | rfl <;> exact ⟨trivial, by simp⟩
  constructor
  case unseen => simpa only [hm.exitSeen, hm.unresolved] using h.unseen
  case seen => simpa only [hm.exitSeen, hm.process] using h.seen
  case single =>
      rcases hm.todo with heq | ⟨-, x, heq, -⟩
      · exact heq ▸ h.single
      · rw [heq]
        exact List.pairwise_singleton _ _
  case quarantined =>
      intro k hk
      rw [hm.unresolved] at hk
      have hseen : inc.observer.exitSeen = true := by
        by_contra hne
        rw [h.unseen (by simpa using hne)] at hk
        cases hk
      obtain ⟨huses, hslot⟩ := hm.slots (hh.exited_of_seen hseen)
      have hq := h.quarantined k hk
      refine ⟨huses ▸ hq.used, hslot ▸ hq.pending, fun op hop => ?_, hm.timelines ▸ hq.asynchronous⟩
      exact (hpassed op hop).elim (hq.passed op) fun hnew => hnew k
  case judged =>
      intro hseen k hall
      rw [hm.exitSeen] at hseen
      obtain ⟨huses, hslot⟩ := hm.slots (hh.exited_of_seen hseen)
      rw [huses, hm.unresolved, Incarnation.Awaits, huses, hslot]
      rcases hm.todo with heq | ⟨hidle, -⟩
      · rw [heq] at hall ⊢
        exact h.judged hseen k hall
      · refine (h.judged hseen k (by simp [hidle])).imp_right (Or.imp_right ?_)
        rintro ⟨u, hu, hpc, hpending⟩
        rw [hidle] at hpending
        exact ⟨u, hu, hpc, Or.inl (hpending.resolve_right List.not_mem_nil)⟩

/-- A step of the observer that touches no claim slot and gives up on no claim. -/
lemma quiet (h : Verdicts native inc) {op : ObserveOp} {rest next : List ObserveOp}
    (htodo : inc.observer.todo = op :: rest) (hrest : ∀ x ∈ rest, x.Later inc)
    (hclaim : ∀ k, op ≠ .creditClaim k false) (hnext : ∀ k, .creditClaim k false ∉ next)
    (hforth : ∀ k, op.Passed k → ∀ x ∈ next, x.Passed k)
    (hback : ∀ k, (∀ x ∈ next, x.Passed k) → op.Passed k ∨ inc.uses k = none)
    (hsingle : Observer.Single inc'.observer.todo) (htodo' : inc'.observer.todo = next ++ rest)
    (hseen : inc'.observer.exitSeen = inc.observer.exitSeen)
    (hprocess : inc'.observer.process = inc.observer.process)
    (hunresolved : inc'.observer.unresolved = inc.observer.unresolved)
    (htimelines : inc.observer.timelines ≤ inc'.observer.timelines)
    (huses : inc'.uses = inc.uses) (hslot : inc'.page.slot = inc.page.slot) :
    Verdicts native inc' := by
  have hmem : ∀ k, .creditClaim k false ∉ inc.observer.todo := by
    intro k hk
    rw [htodo] at hk
    rcases List.mem_cons.mp hk with hk | hk
    · exact hclaim k hk.symm
    · exact hrest _ hk
  constructor
  case unseen => simpa only [hseen, hunresolved] using h.unseen
  case seen => simpa only [hseen, hprocess] using h.seen
  case single => exact hsingle
  case quarantined =>
      intro k hk
      rw [hunresolved] at hk
      have hq := h.quarantined k hk
      refine ⟨huses ▸ hq.used, hslot ▸ hq.pending, fun x hx => ?_,
        hq.asynchronous.imp_right (by omega)⟩
      rw [htodo'] at hx
      rcases List.mem_append.mp hx with hx | hx
      · refine ⟨hforth k (hq.passed op (htodo ▸ List.mem_cons_self)).1 x hx, ?_⟩
        rintro rfl
        exact hnext k hx
      · exact hq.passed x (htodo ▸ List.mem_cons_of_mem op hx)
  case judged =>
      intro hs k hall
      rw [hseen] at hs
      rw [htodo'] at hall
      rw [huses, hunresolved, Incarnation.Awaits, huses, hslot]
      rcases hback k fun x hx => hall x (List.mem_append_left rest hx) with hop | hnone
      swap
      · exact Or.inl hnone
      have hold := h.judged hs k (fun x hx => by
        rw [htodo] at hx
        rcases List.mem_cons.mp hx with rfl | hx
        · exact hop
        · exact hall x (List.mem_append_right next hx))
      refine hold.imp_right (Or.imp_right ?_)
      rintro ⟨u, hu, hpc, hpending⟩
      exact ⟨u, hu, hpc, Or.inl (hpending.resolve_right (hmem k))⟩

variable {e : Env} {rest : List ObserveOp} {r : Incarnation × List ObserveOp}

/-- `observe_process` up to the scan. -/
lemma process (h : Verdicts native inc) (htodo : inc.observer.todo = .process :: rest)
    (hrest : ∀ x ∈ rest, x.Later inc) (hr : ObserveOp.exec native e inc .process = r)
    (hsingle : Observer.Single (r.2 ++ rest))
    (htimelines : inc.observer.timelines ≤ r.1.observer.timelines) :
    Verdicts native { r.1 with observer := { r.1.observer with todo := r.2 ++ rest } } := by
  have unseen : inc.observer.process ≠ false → inc.observer.exitSeen = false := by
    intro h0
    by_contra hne
    exact h0 (h.seen (by simpa using hne))
  simp only [ObserveOp.exec] at hr
  split_ifs at hr with h0 h1 h2
  · subst hr
    exact h.quiet htodo hrest (by simp) (by simp) (by simp [ObserveOp.Passed])
      (fun _ _ => Or.inl trivial) hsingle rfl rfl rfl rfl htimelines rfl rfl
  · subst hr
    constructor
    case unseen => exact fun _ => h.unseen (unseen h0)
    case seen => exact fun _ => rfl
    case single => exact hsingle
    case quarantined =>
        intro k hk
        rw [show inc.observer.unresolved = [] from h.unseen (unseen h0)] at hk
        cases hk
    case judged =>
        intro hs
        rw [show inc.observer.exitSeen = false from unseen h0] at hs
        cases hs
  · subst hr
    constructor
    case unseen => rintro ⟨⟩
    case seen => exact fun _ => rfl
    case single => exact hsingle
    case quarantined =>
        intro k hk
        rw [show inc.observer.unresolved = [] from h.unseen (unseen h0)] at hk
        cases hk
    case judged =>
        intro _ k hall
        exact (hall (.zeroMapping 0) (by simp)).elim
  · subst hr
    exact h.quiet htodo hrest (by simp) (by simp) (by simp [ObserveOp.Passed])
      (fun _ _ => Or.inl trivial) hsingle rfl rfl rfl rfl htimelines rfl rfl

/-- The scan at a claim that is published: a use without a completion is given up, or its credit
is about to be returned. -/
lemma exitPending {k : ℕ} (h : Verdicts native inc) (hh : Handoffs native inc)
    (htodo : inc.observer.todo = .exitPending k :: rest)
    (hr : ObserveOp.exec native e inc (.exitPending k) = r)
    (hsingle : Observer.Single (r.2 ++ rest))
    (htimelines : inc.observer.timelines ≤ r.1.observer.timelines) :
    Verdicts native { r.1 with observer := { r.1.observer with todo := r.2 ++ rest } } := by
  obtain ⟨⟨hseen, hclaim⟩, hrest⟩ := hh.observer _ rest htodo
  have hold := h.single
  rw [htodo, Observer.Single, List.pairwise_cons] at hold
  simp only [ObserveOp.exec] at hr
  split_ifs at hr with h0 h1 h2
  · subst hr
    exact h.quiet htodo hrest (by simp) (by simp) (by simp [ObserveOp.Passed])
      (fun j hj => Or.inl (by simpa [ObserveOp.Passed] using hj)) hsingle rfl rfl rfl rfl
      htimelines rfl rfl
  · subst hr
    exact h.quiet htodo hrest (by simp) (by simp) (by simp [ObserveOp.Passed])
      (fun j hj => Or.inl (by simpa [ObserveOp.Passed] using hj)) hsingle rfl rfl rfl rfl
      htimelines rfl rfl
  · subst hr
    have hback : ∀ j, (∀ x ∈ rest, x.Passed j) ∧ ∀ x ∈ rest, x ≠ .creditClaim j false := by
      refine fun j => ⟨fun x hx => x.passed_of_not_exits (hold.1 x hx trivial) j, ?_⟩
      rintro x hx rfl
      exact hrest _ hx
    have hasync : native = true ∨ inc.observer.timelines ≠ 0 := by
      by_contra hne
      rw [not_or, Bool.not_eq_true, not_not] at hne
      exact h2 hne
    constructor
    case unseen =>
        intro hs
        rw [show inc.observer.exitSeen = false from hs] at hseen
        cases hseen
    case seen => exact h.seen
    case single => exact hsingle
    case quarantined =>
        intro j hj
        have hnew : j = k ∨ inc.Quarantined native j ∧ j < k := by
          rcases List.mem_append.mp hj with hj | hj
          · have hq := h.quarantined j hj
            exact Or.inr ⟨hq, (hq.passed (.exitPending k) (by simp [htodo])).1⟩
          · exact Or.inl (List.mem_singleton.mp hj)
        have hpassed : ∀ x ∈ [ObserveOp.exitClaim (k + 1)] ++ rest,
            x.Passed j ∧ x ≠ .creditClaim j false := by
          intro x hx
          rcases List.mem_append.mp hx with hx | hx
          · rw [List.mem_singleton.mp hx]
            refine ⟨?_, by simp⟩
            show j < k + 1
            omega
          · exact ⟨(hback j).1 x hx, (hback j).2 x hx⟩
        rcases hnew with rfl | ⟨hq, -⟩
        · exact ⟨fun hnone => hclaim (hh.unused j hnone).1, h1, hpassed, hasync⟩
        · exact ⟨hq.used, hq.pending, hpassed, hasync⟩
    case judged =>
        intro _ j hall
        have hlt : j < k + 1 := hall _ (List.mem_append_left rest List.mem_cons_self)
        rcases Nat.lt_succ_iff_lt_or_eq.mp hlt with hlt | rfl
        · have hjudged := h.judged hseen j (fun x hx => by
            rw [htodo] at hx
            rcases List.mem_cons.mp hx with rfl | hx
            · exact hlt
            · exact (hback j).1 x hx)
          rcases hjudged with hnone | hgiven | ⟨u, hu, hpc, hpending⟩
          · exact Or.inl hnone
          · exact Or.inr (Or.inl (List.mem_append_left _ hgiven))
          · refine Or.inr (Or.inr ⟨u, hu, hpc, hpending.imp_right fun hmem => ?_⟩)
            rw [htodo] at hmem
            rcases List.mem_cons.mp hmem with hmem | hmem
            · cases hmem
            · exact ((hback j).2 _ hmem rfl).elim
        · exact Or.inr (Or.inl (List.mem_append_right _ List.mem_cons_self))
  · -- no use stores another pending word
    exact absurd (hh.pending k h1) (by rintro ⟨u, -, -, -, hpending⟩; exact h0 hpending)

/-- The scan at a submitted use: the consumer's side is retired for it. -/
lemma exitRetire {k : ℕ} (h : Verdicts native inc) (hh : Handoffs native inc)
    (htodo : inc.observer.todo = .exitRetire k :: rest)
    (hr : ObserveOp.exec native e inc (.exitRetire k) = r)
    (hsingle : Observer.Single (r.2 ++ rest)) :
    Verdicts native { r.1 with observer := { r.1.observer with todo := r.2 ++ rest } } := by
  obtain ⟨⟨hseen, hsubmitted⟩, hrest⟩ := hh.observer _ rest htodo
  simp only [ObserveOp.exec] at hr
  subst hr
  have hne : (inc.page.slot k).releasePending ≠ 0 := by omega
  constructor
  case unseen => exact h.unseen
  case seen => exact h.seen
  case single => exact hsingle
  case quarantined =>
      intro j hj
      have hq := h.quarantined j hj
      have hlt : j < k := (hq.passed (.exitRetire k) (by simp [htodo])).1
      have hslot : (inc.page.modifySlot k fun w => { w with releasePending := 2 }).slot j =
          inc.page.slot j := Function.update_of_ne hlt.ne _ _
      refine ⟨hq.used, ?_, fun x hx => ?_, hq.asynchronous⟩
      · rw [hslot]
        exact hq.pending
      · rcases List.mem_append.mp hx with hx | hx
        · rw [List.mem_singleton.mp hx]
          refine ⟨?_, by simp⟩
          show j < k + 1
          omega
        · exact hq.passed x (htodo ▸ List.mem_cons_of_mem _ hx)
  case judged =>
      intro _ j hall
      have hlt : j < k + 1 := hall _ (List.mem_append_left rest List.mem_cons_self)
      rcases Nat.lt_succ_iff_lt_or_eq.mp hlt with hlt | rfl
      · have hslot : (inc.page.modifySlot k fun w => { w with releasePending := 2 }).slot j =
            inc.page.slot j := Function.update_of_ne hlt.ne _ _
        have hjudged := h.judged hseen j (fun x hx => by
          rw [htodo] at hx
          rcases List.mem_cons.mp hx with rfl | hx
          · exact hlt
          · exact hall x (List.mem_append_right _ hx))
        refine hjudged.imp_right (Or.imp_right ?_)
        rintro ⟨u, hu, hpc, hpending⟩
        refine ⟨u, hu, hpc, hpending.imp (fun h2 => by rw [hslot]; exact h2) fun hmem => ?_⟩
        rw [htodo] at hmem
        rcases List.mem_cons.mp hmem with hmem | hmem
        · cases hmem
        · exact List.mem_append_right _ hmem
      · obtain ⟨u, hu, hpc, -⟩ := hh.pending j hne
        exact Or.inr (Or.inr ⟨u, hu, hpc, Or.inl (by rw [ClaimPage.modifySlot_same])⟩)

/-- The first store of `return_credit`. -/
lemma creditPending {k : ℕ} {atExit : Bool} (h : Verdicts native inc) (hh : Handoffs native inc)
    (htodo : inc.observer.todo = .creditPending k atExit :: rest)
    (hr : ObserveOp.exec native e inc (.creditPending k atExit) = r)
    (hsingle : Observer.Single (r.2 ++ rest)) :
    Verdicts native { r.1 with observer := { r.1.observer with todo := r.2 ++ rest } } := by
  obtain ⟨hfact, hrest⟩ := hh.observer _ rest htodo
  simp only [ObserveOp.exec] at hr
  subst hr
  have hslot : ∀ j, j ≠ k → (inc.page.modifySlot k fun w => { w with releasePending := 0 }).slot j =
      inc.page.slot j := fun j hj => Function.update_of_ne hj _ _
  -- a claim that is quarantined or passed is another one, or its completion was seen
  have hother : ∀ j, (inc.page.slot j).releasePending = 0 ∨ j ≠ k →
      (ObserveOp.creditPending k atExit).Passed j → j ≠ k := by
    rintro j (hj | hj) hpassed
    · cases atExit with
      | false =>
          rintro rfl
          have := hfact.1
          omega
      | true =>
          have hlt : j < k := hpassed rfl
          omega
    · exact hj
  constructor
  case unseen => exact h.unseen
  case seen => exact h.seen
  case single => exact hsingle
  case quarantined =>
      intro j hj
      have hq := h.quarantined j hj
      have hpassed := (hq.passed _ (htodo ▸ List.mem_cons_self)).1
      have hne := hother j (Or.inl hq.pending) hpassed
      refine ⟨hq.used, ?_, fun x hx => ?_, hq.asynchronous⟩
      · rw [hslot j hne]
        exact hq.pending
      · rcases List.mem_append.mp hx with hx | hx
        · rw [List.mem_singleton.mp hx]
          refine ⟨hpassed, ?_⟩
          rw [Ne, ObserveOp.creditClaim.injEq]
          exact fun heq => hne heq.1.symm
        · exact hq.passed x (htodo ▸ List.mem_cons_of_mem _ hx)
  case judged =>
      intro hs j hall
      have hpassed : (ObserveOp.creditPending k atExit).Passed j :=
        hall (.creditClaim k atExit) (by simp)
      by_cases hj : j = k
      · subst hj
        cases atExit with
        | true => exact absurd (hpassed rfl) (lt_irrefl j)
        | false =>
            obtain ⟨u, hu, hpc, -⟩ := hh.pending j (by rw [hfact.1]; exact two_ne_zero)
            exact Or.inr (Or.inr ⟨u, hu, hpc, Or.inr (List.mem_append_left _ List.mem_cons_self)⟩)
      · have hjudged := h.judged hs j (fun x hx => by
          rw [htodo] at hx
          rcases List.mem_cons.mp hx with rfl | hx
          · exact hpassed
          · exact hall x (List.mem_append_right _ hx))
        refine hjudged.imp_right (Or.imp_right ?_)
        rintro ⟨u, hu, hpc, hpending⟩
        refine ⟨u, hu, hpc, hpending.imp (fun h2 => by rw [hslot j hj]; exact h2) fun hmem => ?_⟩
        rw [htodo] at hmem
        rcases List.mem_cons.mp hmem with hmem | hmem
        · cases hmem
        · exact List.mem_append_right _ hmem

/-- The second store of `return_credit`. -/
lemma creditClaim {k : ℕ} {atExit : Bool} (h : Verdicts native inc) (hh : Handoffs native inc)
    (htodo : inc.observer.todo = .creditClaim k atExit :: rest)
    (hr : ObserveOp.exec native e inc (.creditClaim k atExit) = r)
    (hsingle : Observer.Single (r.2 ++ rest)) :
    Verdicts native { r.1 with observer := { r.1.observer with todo := r.2 ++ rest } } := by
  obtain ⟨hfact, hrest⟩ := hh.observer _ rest htodo
  simp only [ObserveOp.exec] at hr
  subst hr
  have hslot : ∀ j, j ≠ k → (inc.page.modifySlot k fun w => { w with claim := 0 }).slot j =
      inc.page.slot j := fun j hj => Function.update_of_ne hj _ _
  have huses : ∀ j, j ≠ k → Function.update inc.uses k none j = inc.uses j :=
    fun j hj => Function.update_of_ne hj _ _
  constructor
  case unseen => exact h.unseen
  case seen => exact h.seen
  case single => exact hsingle
  case quarantined =>
      intro j hj
      have hq := h.quarantined j hj
      obtain ⟨hpassed, hclaim⟩ := hq.passed _ (htodo ▸ List.mem_cons_self)
      have hne : j ≠ k := by
        rintro rfl
        cases atExit with
        | false => exact hclaim rfl
        | true => exact absurd (hpassed rfl) (lt_irrefl j)
      refine ⟨?_, ?_, fun x hx => ?_, hq.asynchronous⟩
      · show Function.update inc.uses k none j ≠ none
        rw [huses j hne]
        exact hq.used
      · rw [hslot j hne]
        exact hq.pending
      · rcases List.mem_append.mp hx with hx | hx
        · cases atExit with
          | false =>
              simp only [Bool.false_eq_true, if_false, List.mem_cons, List.not_mem_nil,
                or_false] at hx
              rcases hx with rfl | rfl <;> exact ⟨trivial, by simp⟩
          | true =>
              have hlt : j < k := hpassed rfl
              simp only [if_true, List.mem_cons, List.not_mem_nil, or_false] at hx
              rcases hx with rfl | rfl
              · exact ⟨trivial, by simp⟩
              · exact ⟨hlt.trans (Nat.lt_succ_self k), by simp⟩
        · exact hq.passed x (htodo ▸ List.mem_cons_of_mem _ hx)
  case judged =>
      intro hs j hall
      by_cases hj : j = k
      · subst hj
        exact Or.inl (Function.update_self _ _ _)
      have hpassed : (ObserveOp.creditClaim k atExit).Passed j := by
        rintro rfl
        have hlt : j < k + 1 := hall (.exitClaim (k + 1)) (by simp)
        omega
      have hjudged := h.judged hs j (fun x hx => by
        rw [htodo] at hx
        rcases List.mem_cons.mp hx with rfl | hx
        · exact hpassed
        · exact hall x (List.mem_append_right _ hx))
      show Function.update inc.uses k none j = none ∨ _
      rw [huses j hj]
      refine hjudged.imp_right (Or.imp_right ?_)
      rintro ⟨u, hu, hpc, hpending⟩
      refine ⟨u, (huses j hj).trans hu, hpc, Or.inl ?_⟩
      rw [hslot j hj]
      refine hpending.resolve_right fun hmem => ?_
      rw [htodo] at hmem
      rcases List.mem_cons.mp hmem with hmem | hmem
      · rw [ObserveOp.creditClaim.injEq] at hmem
        exact hj hmem.1
      · exact hrest _ hmem

/-- **A step of the observer keeps the verdicts.** -/
lemma observe (h : Verdicts native inc) (hh : Handoffs native inc)
    (hs : inc.observeStep native e = some inc') : Verdicts native inc' := by
  obtain ⟨op, rest, htodo, rfl⟩ := Incarnation.observeStep_shape hs
  obtain ⟨hfact, hrest⟩ := hh.observer op rest htodo
  obtain ⟨hnextSingle, hexits⟩ := @ObserveOp.exec_exits native e inc op
  have hold := h.single
  rw [htodo, Observer.Single, List.pairwise_cons] at hold
  -- behind a scan that has begun there is no second one
  have hsingle : Observer.Single ((op.exec native e inc).2 ++ rest) := by
    refine List.pairwise_append.mpr ⟨hnextSingle, hold.2, fun a ha b hb hx => ?_⟩
    by_cases hop : op = .process
    · subst hop
      intro hb'
      have hseen : inc.observer.exitSeen = true := by
        have hlater := hrest b hb
        cases b with
        | zeroMapping m => exact hlater
        | exitClaim k => exact hlater
        | exitPending k => exact hlater.elim
        | exitRetire k => exact hlater.elim
        | creditPending k atExit => exact hlater.elim
        | creditClaim k atExit => exact hlater.elim
        | _ => exact hb'.elim
      simp only [ObserveOp.exec, h.seen hseen, if_true, List.mem_singleton] at ha
      subst ha
      exact hx
    · exact hold.1 b hb (hexits hop a ha hx)
  have htimelines := ObserveOp.exec_timelines native e inc op
  generalize hr : op.exec native e inc = r at hsingle htimelines ⊢
  cases op with
  | page op =>
      obtain ⟨a, q, c, w, hshape⟩ := op.exec_shape e inc
      simp only [ObserveOp.exec, hshape] at hr
      subst hr
      exact h.quiet htodo hrest (by simp) (by simp) (by simp [ObserveOp.Passed])
        (fun _ _ => Or.inl trivial) hsingle rfl rfl rfl rfl htimelines rfl rfl
  | process => exact h.process htodo hrest hr hsingle htimelines
  | zeroMapping m =>
      simp only [ObserveOp.exec] at hr
      subst hr
      refine h.quiet htodo hrest (by simp) ?_ (by simp [ObserveOp.Passed]) ?_ hsingle rfl rfl rfl
        rfl htimelines rfl rfl
      · split_ifs <;> simp
      · split_ifs <;> simp [ObserveOp.Passed]
  | exitClaim k =>
      simp only [ObserveOp.exec] at hr
      subst hr
      refine h.quiet htodo hrest (by simp) ?_ ?_ ?_ hsingle rfl rfl rfl rfl htimelines rfl rfl
      · split_ifs <;> simp
      · intro j hj
        change j < k at hj
        split_ifs <;> simp only [List.forall_mem_singleton, ObserveOp.Passed] <;> omega
      · intro j hj
        show j < k ∨ inc.uses j = none
        by_contra hne
        obtain ⟨hge, hused⟩ := not_or.mp hne
        split_ifs at hj with h1 h2
        · exact hused (hh.range j (by omega)).1
        · -- the scan goes on behind an empty slot
          simp only [List.forall_mem_singleton, ObserveOp.Passed] at hj
          obtain ⟨u, hu⟩ := Option.ne_none_iff_exists'.mp hused
          rw [show j = k by omega] at hu
          obtain ⟨hclaim, hcursor⟩ := hh.used k u hu
          omega
        · simp only [List.forall_mem_singleton, ObserveOp.Passed] at hj
          omega
  | exitPending k => exact h.exitPending hh htodo hr hsingle htimelines
  | exitRetire k => exact h.exitRetire hh htodo hr hsingle
  | creditPending k atExit => exact h.creditPending hh htodo hr hsingle
  | creditClaim k atExit => exact h.creditClaim hh htodo hr hsingle
  | deadline =>
      simp only [ObserveOp.exec] at hr
      split_ifs at hr <;> subst hr <;>
        exact h.quiet htodo hrest (by simp) (by simp) (by simp [ObserveOp.Passed])
          (fun _ _ => Or.inl trivial) hsingle rfl rfl rfl rfl htimelines rfl rfl
  | loadPending k =>
      simp only [ObserveOp.exec] at hr
      split_ifs at hr <;> subst hr <;>
        exact h.quiet htodo hrest (by simp) (by simp) (by simp [ObserveOp.Passed])
          (fun _ _ => Or.inl trivial) hsingle rfl rfl rfl rfl htimelines rfl rfl
  | loadId k =>
      subst hr
      exact h.quiet htodo hrest (by simp) (by simp [ObserveOp.exec])
        (by simp [ObserveOp.exec, ObserveOp.Passed]) (fun _ _ => Or.inl trivial) hsingle rfl rfl rfl
        rfl htimelines rfl rfl
  | loadValue k t =>
      simp only [ObserveOp.exec] at hr
      split_ifs at hr <;> subst hr <;>
        exact h.quiet htodo hrest (by simp) (by simp) (by simp [ObserveOp.Passed])
          (fun _ _ => Or.inl trivial) hsingle rfl rfl rfl rfl htimelines rfl rfl
  | completed k t v =>
      simp only [ObserveOp.exec] at hr
      split_ifs at hr <;> subst hr <;>
        exact h.quiet htodo hrest (by simp) (by simp) (by simp [ObserveOp.Passed])
          (fun _ _ => Or.inl trivial) hsingle rfl rfl rfl rfl htimelines rfl rfl
  | recheck k t v =>
      simp only [ObserveOp.exec] at hr
      subst hr
      refine h.quiet htodo hrest (by simp) ?_ ?_ (fun _ _ => Or.inl trivial) hsingle rfl rfl rfl
        rfl htimelines rfl rfl
      · split_ifs <;> simp
      · split_ifs <;> simp [ObserveOp.Passed]
  | register =>
      simp only [ObserveOp.exec] at hr
      split_ifs at hr <;> subst hr <;>
        exact h.quiet htodo hrest (by simp) (by simp) (by simp [ObserveOp.Passed])
          (fun _ _ => Or.inl trivial) hsingle rfl rfl rfl rfl htimelines rfl rfl
  | registerStore t =>
      subst hr
      exact h.quiet htodo hrest (by simp) (by simp [ObserveOp.exec])
        (by simp [ObserveOp.exec]) (fun _ _ => Or.inl trivial) hsingle rfl rfl rfl
        rfl htimelines rfl rfl

/-- **Every move keeps the verdicts.** -/
theorem move (h : Verdicts sh.native inc) (hh : Handoffs sh.native inc) (hm : inc.Move sh inc') :
    Verdicts sh.native inc' := by
  rcases hm.undisturbed with ⟨e, hs⟩ | hquiet
  · exact h.observe hh hs
  · exact h.undisturbed hh hquiet

end Verdicts

/-! ### Runs behind an exit -/

/-- **What may have become of a claim since the exit was seen**: it is as it was; its completion
was reported; or nothing asynchronous could use it, and it had none to wait for. -/
inductive Incarnation.Since (native : Bool) (inc inc' : Incarnation) :
    Option Use → Option Use → Prop
  | same (x : Option Use) : Since native inc inc' x x
  | completed (u : Use) (t v : ℕ) : u.pc = .deferred → u.handoff = some (t, v) →
      inc'.observer.Reported t v → Since native inc inc' (some u) none
  | returned (u : Use) : u.handoff = none → native = false → inc.observer.timelines = 0 →
      Since native inc inc' (some u) none

/-- What a run behind the exit leaves of the incarnation. -/
structure Incarnation.Departed (native : Bool) (inc inc' : Incarnation) : Prop where
  seen : inc'.observer.exitSeen = true
  timelines : inc.observer.timelines ≤ inc'.observer.timelines
  unresolved : ∀ k ∈ inc.observer.unresolved, k ∈ inc'.observer.unresolved
  since : ∀ k, Since native inc inc' (inc.uses k) (inc'.uses k)

namespace Incarnation

variable {sh : Shared} {inc anc bnc : Incarnation}

lemma Since.mono {x y : Option Use} (h : Since sh.native inc anc x y)
    (hrep : ∀ t v, anc.observer.Reported t v → bnc.observer.Reported t v) :
    Since sh.native inc bnc x y := by
  cases h with
  | same => exact .same x
  | completed u t v hpc hh hr => exact .completed u t v hpc hh (hrep t v hr)
  | returned u hh hn h0 => exact .returned u hh hn h0

/-- **Behind the exit a claim is cleared by the observer alone.** -/
lemma Departed.move (h : inc.Departed sh.native anc) (hv : Verdicts sh.native anc)
    (hh : Handoffs sh.native anc) (hreg : anc.observer.timelines = 0 → Unregistered anc)
    (hm : anc.Move sh bnc) : inc.Departed sh.native bnc := by
  rcases hm.undisturbed with ⟨e, hs⟩ | hquiet
  swap
  · have huses := (hquiet.slots (hh.exited_of_seen h.seen)).1
    have hrep : ∀ t v, anc.observer.Reported t v → bnc.observer.Reported t v := by
      rintro t v ⟨completed, hc, hle⟩
      exact ⟨completed, by rw [hquiet.reported]; exact hc, hle⟩
    exact ⟨hquiet.exitSeen.trans h.seen, hquiet.timelines ▸ h.timelines,
      fun k hk => hquiet.unresolved ▸ h.unresolved k hk,
      fun k => huses ▸ (h.since k).mono hrep⟩
  obtain ⟨op, rest, htodo, rfl⟩ := observeStep_shape hs
  obtain ⟨hfact, -⟩ := hh.observer op rest htodo
  obtain ⟨-, -, -, -, huses⟩ := op.exec_client sh.native e anc
  have hrep : ∀ t v, anc.observer.Reported t v →
      (op.exec sh.native e anc).1.observer.Reported t v := fun t v => ObserveOp.exec_reported
  constructor
  case seen =>
      by_cases hop : op = .process
      · subst hop
        simp only [ObserveOp.exec, hv.seen h.seen, if_true]
        exact h.seen
      · exact (ObserveOp.exec_seen hop).1.trans h.seen
  case timelines => exact h.timelines.trans (ObserveOp.exec_timelines sh.native e anc op)
  case unresolved =>
      intro k hk
      have hold := h.unresolved k hk
      obtain heq | ⟨j, -, -, -, heq⟩ := @ObserveOp.exec_unresolved sh.native e anc op
      · show k ∈ (op.exec sh.native e anc).1.observer.unresolved
        rw [heq]
        exact hold
      · simp only [heq]
        exact List.mem_append_left _ hold
  case since =>
      intro k
      have hsince := h.since k
      rcases huses with heq | ⟨j, atExit, rfl, heq⟩
      · simp only [heq]
        exact hsince.mono hrep
      by_cases hk : k = j
      swap
      · simp only [heq, Function.update_of_ne hk]
        exact hsince.mono hrep
      subst hk
      simp only [heq, Function.update_self]
      cases hsince' : anc.uses k with
      | none =>
          rw [hsince'] at hsince
          exact hsince.mono hrep
      | some u =>
          have hu : inc.uses k = some u := by
            rw [hsince'] at hsince
            generalize inc.uses k = x at hsince
            cases hsince
            rfl
          rw [hu]
          cases atExit with
          | false =>
              obtain ⟨w, t, v, hw, hpc, hhandoff, hreported, -⟩ := hfact
              rw [hsince', Option.some.injEq] at hw
              subst hw
              exact .completed u t v hpc hhandoff (hrep t v hreported)
          | true =>
              obtain ⟨-, -, -, hnative, h0⟩ := hfact
              have hle := h.timelines
              exact .returned u ((hreg h0).handed k u hsince') hnative (by omega)

end Incarnation

namespace Arena

open Transition

variable {s s' : Arena} {C : Arena → Label → Prop}

/-- What the scan has decided holds in every reachable arena. -/
theorem Reachable.verdicts (h : Reachable s) {i : ℕ} {inc : Incarnation}
    (hi : s.incarnations i = some inc) : Verdicts s.shared.native inc :=
  h.incarnation (P := Verdicts) (Q := Handoffs) (fun _ _ _ ha hi => ha.handoffs hi)
    (fun native frames remote g _ _ => Verdicts.new native frames remote g)
    (fun _ _ _ hh hv hm => hv.move hh hm) i inc hi

/-- A run behind the exit. -/
lemma Reachable.departed (h : Reachable s) {i : ℕ} {inc : Incarnation}
    (hi : s.incarnations i = some inc) (hseen : inc.observer.exitSeen = true)
    (hrun : Reaches step C s s') : ∃ inc', s'.incarnations i = some inc' ∧
      inc.Departed s.shared.native inc' := by
  have hstatic : s'.shared.native = s.shared.native :=
    hrun.invariant_with (P := fun a => a.shared.native = s.shared.native) (Q := Reachable)
      (fun a ha => h.run ha) rfl fun a l b ha hp _ hstep =>
        ((acts_of_step hstep).static ha.ledger).1.trans hp
  rw [← hstatic]
  refine h.follow (P := fun sh anc => inc.Departed sh.native anc) hi
    ⟨hseen, le_rfl, fun _ hk => hk, fun k => .same _⟩ ?_ ?_ hrun
  · intro a _ anc bnc ha _ hanc hp hm
    exact hp.move (ha.verdicts hanc) (ha.handoffs hanc) (ha.unregistered hanc) hm
  · intro a b anc ha hs hp
    rw [(hs.static ha.ledger).1]
    exact hp

/-- **The exit settles every claim once.** Behind the exit of a consumer's process no claim is
made, and a claim is cleared only because its completion was reported, or because it had none
and nothing in its arena is asynchronous. Once the scan is over, what is still claimed awaits
its completion or is unresolved. -/
theorem exit_settles (h : Reachable s) {i : ℕ} {inc : Incarnation}
    (hi : s.incarnations i = some inc) (hseen : inc.observer.exitSeen = true)
    (hrun : Reaches step C s s') : ∃ inc', s'.incarnations i = some inc' ∧
      (∀ k, inc.Since s.shared.native inc' (inc.uses k) (inc'.uses k)) ∧
      ((∀ op ∈ inc'.observer.todo, ¬ op.Exits) → ∀ k,
        inc'.uses k = none ∨ k ∈ inc'.observer.unresolved ∨ inc'.Awaits k) := by
  obtain ⟨inc', hi', hdeparted⟩ := h.departed hi hseen hrun
  refine ⟨inc', hi', hdeparted.since, fun hover k => ?_⟩
  exact ((h.run hrun).verdicts hi').judged hdeparted.seen k fun op hop =>
    op.passed_of_not_exits (hover op hop) k

/-- A remote consumer of one frame, which leases a frame in an arena with a timeline and ends;
the observer sees it. -/
def exiting : List Label :=
  [Label.call (.attach 1 true)] ++ pump 8 ++
  [on .exportGrant, on .importGrant, on (.fromGrant {}), on (.thread 0 {})] ++
  [Label.call (.publish (.cpu {} [7]))] ++ pump 30 ++
  [Label.call (.registerReleaseTimeline 1)] ++ pump 8 ++
  [on (.begin 0 (.latest 0))] ++ List.replicate 7 (on (.call 0)) ++
  List.replicate 5 (on (.use 0 {})) ++
  [on .exit, on .observerPoll] ++ List.replicate 12 (on (.observe {}))

/-- The leased frame of a consumer that has ended. -/
theorem exit_settles_leased : ∃ s inc, Reachable s ∧ s.incarnations 1 = some inc ∧
    inc.observer.exitSeen = true ∧ ∀ ls, ∃ inc', (play step s ls).incarnations 1 = some inc' ∧
      (∀ k, inc.Since s.shared.native inc' (inc.uses k) (inc'.uses k)) ∧
      ((∀ op ∈ inc'.observer.todo, ¬ op.Exits) → ∀ k,
        inc'.uses k = none ∨ k ∈ inc'.observer.unresolved ∨ inc'.Awaits k) := by
  have hrun : ((script 4096 smallConfig 0 false exiting).bind fun s =>
      (s.incarnations 1).map fun inc => inc.observer.exitSeen) = some true := by
    decide +kernel
  obtain ⟨s, hs, hrun⟩ := Option.bind_eq_some_iff.mp hrun
  obtain ⟨inc, hi, hseen⟩ := Option.map_eq_some_iff.mp hrun
  exact ⟨s, inc, .of_script hs, hi, hseen,
    fun ls => exit_settles (.of_script hs) hi hseen (.of_play step s ls)⟩

/-- **An unresolved claim is quarantined for ever**: in every later run its claim word keeps its
cursor, it awaits no completion, and its incarnation keeps its admission record and stays
tracked, so that its credit is never handed out again. -/
theorem quarantined_for_ever (h : Reachable s) {i k : ℕ} {inc : Incarnation}
    (hi : s.incarnations i = some inc) (hk : k ∈ inc.observer.unresolved)
    (hrun : Reaches step C s s') : ∃ inc' u, s'.incarnations i = some inc' ∧
      inc.uses k = some u ∧ inc'.uses k = some u ∧ (inc'.page.slot k).claim = u.cursor ∧
      u.cursor ≠ 0 ∧ (inc'.page.slot k).releasePending = 0 ∧
      (s.shared.native = true ∨ inc.observer.timelines ≠ 0) ∧ i ∈ s'.producer.claims ∧
      s'.producer.admission.reservations.get i ≠ none := by
  have hv := h.verdicts hi
  have hseen : inc.observer.exitSeen = true := by
    by_contra hne
    rw [hv.unseen (by simpa using hne)] at hk
    cases hk
  obtain ⟨inc', hi', hdeparted⟩ := h.departed hi hseen hrun
  have h' := h.run hrun
  have hq' := (h'.verdicts hi').quarantined k (hdeparted.unresolved k hk)
  obtain ⟨u', hu'⟩ := Option.ne_none_iff_exists'.mp hq'.used
  have hu : inc.uses k = some u' := by
    have hsince := hdeparted.since k
    rw [hu'] at hsince
    generalize inc.uses k = x at hsince
    cases hsince
    rfl
  obtain ⟨hclaim, hcursor⟩ := (h'.handoffs hi').used k u' hu'
  have hrecord : s'.producer.admission.reservations.get i ≠ none := by
    intro hfree
    rw [(h'.cleared hi' hfree).uses k] at hu'
    cases hu'
  exact ⟨inc', u', hi', hu, hu', hclaim, hcursor, hq'.pending, (hv.quarantined k hk).asynchronous,
    (h'.ledger.recorded i hrecord).1, hrecord⟩

/-- The same frame stays claimed. -/
theorem quarantined_for_ever_leased : ∃ s inc, Reachable s ∧ s.incarnations 1 = some inc ∧
    0 ∈ inc.observer.unresolved ∧ ∀ ls, ∃ inc' u,
      (play step s ls).incarnations 1 = some inc' ∧ inc.uses 0 = some u ∧ inc'.uses 0 = some u ∧
      (inc'.page.slot 0).claim = u.cursor ∧ u.cursor ≠ 0 ∧
      (inc'.page.slot 0).releasePending = 0 ∧
      (s.shared.native = true ∨ inc.observer.timelines ≠ 0) ∧
      1 ∈ (play step s ls).producer.claims ∧
      (play step s ls).producer.admission.reservations.get 1 ≠ none := by
  have hrun : ((script 4096 smallConfig 0 false exiting).bind fun s =>
      (s.incarnations 1).map fun inc => inc.observer.unresolved) = some [0] := by
    decide +kernel
  obtain ⟨s, hs, hrun⟩ := Option.bind_eq_some_iff.mp hrun
  obtain ⟨inc, hi, hunresolved⟩ := Option.map_eq_some_iff.mp hrun
  have hk : 0 ∈ inc.observer.unresolved := by
    rw [hunresolved]
    exact List.mem_cons_self
  exact ⟨s, inc, .of_script hs, hi, hk,
    fun ls => quarantined_for_ever (.of_script hs) hi hk (.of_play step s ls)⟩

end Arena

end Jackstay.Acquisition
