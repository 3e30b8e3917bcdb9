import Jackstay.Acquisition.Arena.Lifetime
import Jackstay.Acquisition.Arena.Tenancy

/-!
What is still to be done for a mapping slot.

* `Task`: a call has the slot's offer, a handle of its `ConsumerResources` is still to be
  dropped, the map is to be unmapped, the slot is to be cleared, or `OFFERED_GENERATION` is.
* `Incarnation.tasks` counts them over the threads, the section under the retirement mutex and
  the producer's call; `tasks_thread`, `tasks_spawn`, `tasks_section` and `tasks_host` say what
  one step does to the count.
* `Incarnation.Holds`: some handle of the slot's `ConsumerResources` is alive (`held_iff`).
-/

namespace Jackstay.Acquisition

/-- A step that is still to come, and the mapping slot it is about. -/
inductive Task where
  | hold (m : ℕ)
  | drop (m : ℕ)
  | unmap (m : ℕ)
  | clear (m : ℕ)
  | endOffer
  deriving DecidableEq, Repr

/-- The task of an operation. -/
def OwnerOp.task : OwnerOp → Option Task
  | .drop m _ => some (.drop m)
  | .unmap m _ => some (.unmap m)
  | .clear m _ => some (.clear m)
  | .clearOffered => some .endOffer

/-- A call to `install_with_resources` has its offer. -/
def ThreadOp.task : ThreadOp → Option Task
  | .owner op => op.task
  | .installActive m => some (.hold m)
  | .installTerminal m => some (.hold m)
  | .installMap m => some (.hold m)
  | .installConfiguration m => some (.hold m)
  | _ => none

def SectionOp.task : SectionOp → Option Task
  | .drop _ op => op.task
  | _ => none

/-- `configuration_offer` has the offer it is making. -/
def HostOp.task : HostOp → Option Task
  | .owner op => op.task
  | .offerStore _ m => some (.hold m)
  | .offerRecheck m => some (.hold m)
  | _ => none

lemma ThreadOp.Installs.task {op : ThreadOp} {m : ℕ} (h : op.Installs m) :
    op.task = some (.hold m) := by
  cases op with
  | installActive j => cases h; rfl
  | installTerminal j => cases h; rfl
  | installMap j => cases h; rfl
  | installConfiguration j => cases h; rfl
  | _ => cases h

/-- An operation of an owner's end has at most one task behind it, and none of a handle. -/
lemma OwnerOp.exec_tasks (inc : Incarnation) (op : OwnerOp) (m : ℕ) :
    (op.exec inc).2.countP (·.task == some (.drop m)) = 0 := by
  cases op with
  | drop j holder =>
      rw [OwnerOp.exec]
      split_ifs <;> rfl
  | _ => rfl

/-- What follows an operation is another task. -/
lemma OwnerOp.exec_task_ne (inc : Incarnation) {op : OwnerOp} {j : Task} (h : op.task = some j) :
    (op.exec inc).2.countP (·.task == some j) = 0 := by
  cases op with
  | drop m holder =>
      cases h
      rw [OwnerOp.exec]
      split_ifs <;> rfl
  | unmap m holder =>
      cases h
      rfl
  | _ => rfl

namespace Incarnation

variable {sh : Shared} {inc inc' : Incarnation}

/-- How many times the task is still to be done. -/
def tasks (inc : Incarnation) (j : Task) : ℕ :=
  inc.pending (·.task == some j) + inc.retirement.todo.countP (·.task == some j) +
    inc.host.countP (·.task == some j)

lemma tasks_congr (ht : inc'.threads = inc.threads)
    (hr : inc'.retirement.todo = inc.retirement.todo) (hh : inc'.host = inc.host) (j : Task) :
    inc'.tasks j = inc.tasks j := by
  rw [tasks, tasks, pending_congr ht, hr, hh]

/-- A thread is started. -/
lemma tasks_spawn {todo : List ThreadOp} {role : Role}
    (ht : inc'.threads = inc.threads ++ [⟨todo, role⟩])
    (hr : inc'.retirement.todo = inc.retirement.todo) (hh : inc'.host = inc.host) (j : Task) :
    inc'.tasks j = inc.tasks j + todo.countP (·.task == some j) := by
  rw [tasks, tasks, pending_spawn ht, hr, hh]
  omega

lemma tasks_spawn_setTenant (inc : Incarnation) (m : ℕ) (T : Tenant) (role : Role)
    (todo : List ThreadOp) (j : Task) :
    ((inc.setTenant m T).spawn role todo).tasks j =
      inc.tasks j + todo.countP (·.task == some j) :=
  @tasks_spawn inc ((inc.setTenant m T).spawn role todo) todo role rfl rfl rfl j

/-- A thread runs its next operation. -/
lemma tasks_thread {t : ℕ} {op : ThreadOp} {rest next : List ThreadOp} {role : Role}
    (ht : inc.threads[t]? = some ⟨op :: rest, role⟩)
    (ht' : inc'.threads = inc.threads.set t ⟨next ++ rest, role⟩)
    (hr : inc'.retirement.todo.countP (·.task == some j) =
      inc.retirement.todo.countP (·.task == some j))
    (hh : inc'.host = inc.host) :
    inc'.tasks j + (if op.task = some j then 1 else 0) =
      inc.tasks j + next.countP (·.task == some j) := by
  have := pending_step (p := (·.task == some j)) ht ht'
  simp only [beq_iff_eq] at this
  rw [tasks, tasks, hr, hh]
  omega

/-- The section under the retirement mutex runs its next operation. -/
lemma tasks_section {op : SectionOp} {rest next : List SectionOp} {j : Task}
    (hr : inc.retirement.todo = op :: rest) (hr' : inc'.retirement.todo = next ++ rest)
    (ht : inc'.pending (·.task == some j) = inc.pending (·.task == some j))
    (hh : inc'.host = inc.host) :
    inc'.tasks j + (if op.task = some j then 1 else 0) =
      inc.tasks j + next.countP (·.task == some j) := by
  rw [tasks, tasks, ht, hr, hr', hh, List.countP_cons, List.countP_append]
  simp only [beq_iff_eq]
  omega

/-- The producer's call runs its next operation. -/
lemma tasks_host {op : HostOp} {rest next : List HostOp} {j : Task}
    (hh : inc.host = op :: rest) (hh' : inc'.host = next ++ rest)
    (ht : inc'.threads = inc.threads) (hr : inc'.retirement.todo = inc.retirement.todo) :
    inc'.tasks j + (if op.task = some j then 1 else 0) =
      inc.tasks j + next.countP (·.task == some j) := by
  rw [tasks, tasks, pending_congr ht, hr, hh, hh', List.countP_cons, List.countP_append]
  simp only [beq_iff_eq]
  omega

/-! ### Handles -/

/-- Among the places that keep handles, one gives up the handle `x` that it keeps. -/
lemma exists_update_none {α : Type} {f : ℕ → Option α} {g : Option α → Option ℕ}
    (hg : g none = none) {k : ℕ} {x : Option ℕ} (hk : g (f k) = x) (m : ℕ) :
    (∃ j, g (f j) = some m) ↔ (∃ j, g (Function.update f k none j) = some m) ∨ x = some m := by
  constructor
  · rintro ⟨j, hj⟩
    by_cases hjk : j = k
    · subst hjk
      exact Or.inr (hk ▸ hj)
    · exact Or.inl ⟨j, by rwa [Function.update_of_ne hjk]⟩
  · rintro (⟨j, hj⟩ | hx)
    · by_cases hjk : j = k
      · subst hjk
        rw [Function.update_self, hg] at hj
        cases hj
      · exact ⟨j, by rwa [Function.update_of_ne hjk] at hj⟩
    · exact ⟨k, hk.trans hx⟩

/-- The consumer, a claim or a retirement slot keeps a handle of this mapping slot. -/
def Keeps (inc : Incarnation) (m : ℕ) : Prop :=
  inc.consumer.bind Consumer.resources = some m ∨
    (∃ k, (inc.uses k).bind Use.owner = some m) ∨
    ∃ k, (inc.retirement.slots k).map Pending.owner = some m

/-- **Some `Arc<ConsumerResources>` of this mapping slot is alive**: one that is kept, or one
that is still to be dropped. -/
def Holds (inc : Incarnation) (m : ℕ) : Prop := inc.Keeps m ∨ inc.tasks (.drop m) ≠ 0

lemma Holds.congr {m : ℕ} (hc : inc'.consumer.bind Consumer.resources =
      inc.consumer.bind Consumer.resources)
    (hu : ∀ k, (inc'.uses k).bind Use.owner = (inc.uses k).bind Use.owner)
    (hs : inc'.retirement.slots = inc.retirement.slots)
    (ht : inc'.tasks (.drop m) = inc.tasks (.drop m)) : inc'.Holds m ↔ inc.Holds m := by
  simp only [Holds, Keeps, hc, hu, hs, ht]

/-- **A kept handle is still to be dropped**: nothing else changes hands. -/
lemma Holds.dropped {x : Option ℕ} {m : ℕ}
    (hcount : inc'.tasks (.drop m) = inc.tasks (.drop m) + (if x = some m then 1 else 0))
    (hkeeps : inc.Keeps m ↔ inc'.Keeps m ∨ x = some m) : inc'.Holds m ↔ inc.Holds m := by
  rw [Holds, Holds, hkeeps, hcount]
  by_cases hx : x = some m
  · simp [hx]
  · simp [hx]

/-- `held` is asked in the middle of a drop, and sees the handles that are left. -/
lemma held_iff {m : ℕ}
    (hrange : ∀ k, inc.frames ≤ k → inc.uses k = none ∧ inc.retirement.slots k = none)
    (hhost : inc.host.countP (·.task == some (.drop m)) = 0) :
    inc.held m = true ↔ inc.Holds m := by
  have hdrops : inc.dropsPending m = true ↔ inc.tasks (.drop m) ≠ 0 := by
    rw [dropsPending, tasks, hhost, Nat.add_zero, Ne, Nat.add_eq_zero_iff, pending_eq_zero,
      List.countP_eq_zero, Bool.or_eq_true, List.any_eq_true, List.any_eq_true, not_and_or]
    push Not
    simp only [List.any_eq_true]
    refine or_congr (exists_congr fun t => and_congr_right fun _ => exists_congr fun op =>
      and_congr_right fun _ => ?_) (exists_congr fun op => and_congr_right fun _ => ?_)
    · cases op with
      | owner op => cases op <;> simp [ThreadOp.task, OwnerOp.task]
      | _ => simp [ThreadOp.task]
    · cases op with
      | drop k op => cases op <;> simp [SectionOp.task, OwnerOp.task]
      | _ => simp [SectionOp.task]
  have hlt : ∀ k, inc.uses k ≠ none ∨ inc.retirement.slots k ≠ none → k < inc.frames := by
    intro k hk
    by_contra hge
    obtain ⟨h1, h2⟩ := hrange k (by omega)
    exact hk.elim (· h1) (· h2)
  rw [held, Bool.or_eq_true, Bool.or_eq_true, hdrops, List.any_eq_true, beq_iff_eq, Holds, Keeps]
  refine or_congr (or_congr_right ?_) Iff.rfl
  constructor
  · rintro ⟨k, -, hk⟩
    rcases (Bool.or_eq_true _ _).mp hk with hk | hk
    · obtain ⟨u, hu, ho⟩ := (Option.any_eq_true _ _).mp hk
      exact Or.inl ⟨k, by rw [hu]; simpa using ho⟩
    · obtain ⟨p, hp, ho⟩ := (Option.any_eq_true _ _).mp hk
      exact Or.inr ⟨k, by rw [hp]; simpa using ho⟩
  · rintro (⟨k, hk⟩ | ⟨k, hk⟩)
    · obtain ⟨u, hu, ho⟩ := Option.bind_eq_some_iff.mp hk
      exact ⟨k, List.mem_range.mpr (hlt k (Or.inl (by simp [hu]))), by simp [hu, ho]⟩
    · obtain ⟨p, hp, ho⟩ := Option.map_eq_some_iff.mp hk
      exact ⟨k, List.mem_range.mpr (hlt k (Or.inr (by simp [hp]))), by simp [hp, ho]⟩

end Incarnation

end Jackstay.Acquisition
