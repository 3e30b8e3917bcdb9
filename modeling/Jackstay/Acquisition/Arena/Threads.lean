import Jackstay.Library.WorkLists
import Jackstay.Acquisition.Arena.Moves

/-!
What one operation of a thread does.

`ThreadOp.Acts` lists the operations with what they have read, and what the thread
does next; `ThreadOp.acts_of_exec` says that the step function does nothing else. The
four steps of `install_with_resources` share the way out of a refused offer.

`Incarnation.pending` counts the operations that the threads have still to run.
-/

namespace Jackstay.Acquisition

/-- A step of `install_with_resources` for the offer of this mapping slot. -/
def ThreadOp.Installs (m : ℕ) : ThreadOp → Prop
  | .installActive j => j = m
  | .installTerminal j => j = m
  | .installMap j => j = m
  | .installConfiguration j => j = m
  | _ => False

/-- **What an operation of a thread does**, and what the thread does next. -/
inductive ThreadOp.Acts (sh : Shared) (inc : Incarnation) :
    ThreadOp → Incarnation → List ThreadOp → Prop
  | page (op : PageOp) (e : Env) :
      Acts sh inc (.page op) (op.exec e inc).1 ((op.exec e inc).2.map .page)
  | owner (op : OwnerOp) : Acts sh inc (.owner op) (op.exec inc).1 ((op.exec inc).2.map .owner)
  | keepLifetime : inc.lifetimeHeld = true → Acts sh inc .dropLifetime inc []
  | endLifetime : inc.lifetimeHeld = false → Acts sh inc .dropLifetime inc closing
  | enter (s : Section) : inc.retirement.todo = [] →
      Acts sh inc (.enter s)
        { inc with retirement := { inc.retirement with todo := s.program } } []
  | await : inc.retirement.todo = [] → Acts sh inc .await inc []
  | ret (r : Return) : Acts sh inc (.ret r) { inc with returns := inc.returns ++ [r] } []
  | refuse (op : ThreadOp) (m : ℕ) : op.Installs m →
      Acts sh inc op (inc.setTenant m .acknowledging) ((offerDrop m).map .owner)
  | installActive (m : ℕ) : inc.page.active ≠ 0 →
      Acts sh inc (.installActive m) inc [.installTerminal m]
  | installTerminal (m : ℕ) : sh.control.terminal = 0 →
      Acts sh inc (.installTerminal m) inc [.installMap m]
  | installMap (m : ℕ) : Acts sh inc (.installMap m) inc [.installConfiguration m]
  | installed (m : ℕ) :
      (inc.mappings m).map Mapping.generation = some sh.control.configuration →
      Acts sh inc (.installConfiguration m)
        { inc.setTenant m .mapped with consumer := some ⟨some m⟩ }
        ((inc.consumer.bind Consumer.resources).toList.map
          (fun old => ThreadOp.owner (.drop old .consumer)) ++ [.owner .clearOffered])
  | bindRefused (op : ThreadOp) (t : ℕ) :
      op = .bindRegistered t ∨ op = .bindActive t ∨ op = .bindTerminal t → Acts sh inc op inc []
  | bindRegistered (t : ℕ) : t < inc.frames → inc.page.registeredTimeline t = t + 1 →
      Acts sh inc (.bindRegistered t) inc [.bindActive t]
  | bindActive (t : ℕ) : inc.page.active ≠ 0 → Acts sh inc (.bindActive t) inc [.bindTerminal t]
  | bindTerminal (t : ℕ) : sh.control.terminal = 0 →
      Acts sh inc (.bindTerminal t) inc [.bindSource t]
  | bindSource (t : ℕ) : inc.retirement.todo = [] →
      Acts sh inc (.bindSource t)
        { inc with retirement := { inc.retirement with
          sources := Function.update inc.retirement.sources t true } } []

/-- The step function does nothing else. -/
lemma ThreadOp.acts_of_exec {sh : Shared} {e : Env} {inc inc' : Incarnation} {op : ThreadOp}
    {next : List ThreadOp} (h : op.exec sh e inc = some (inc', next)) :
    op.Acts sh inc inc' next := by
  cases op with
  | page op =>
      cases h
      exact .page op e
  | owner op =>
      cases h
      exact .owner op
  | dropLifetime =>
      rw [ThreadOp.exec, Option.some.injEq, Prod.mk.injEq] at h
      obtain ⟨rfl, rfl⟩ := h
      split_ifs with hl
      · exact .keepLifetime hl
      · exact .endLifetime (by simpa using hl)
  | enter s =>
      rw [ThreadOp.exec] at h
      split_ifs at h with ht
      cases h
      exact .enter s ht
  | await =>
      rw [ThreadOp.exec] at h
      split_ifs at h with ht
      cases h
      exact .await ht
  | ret r =>
      cases h
      exact .ret r
  | installActive m =>
      rw [ThreadOp.exec, Option.some.injEq] at h
      split_ifs at h with ha
      · cases h
        exact .refuse _ m rfl
      · cases h
        exact .installActive m ha
  | installTerminal m =>
      rw [ThreadOp.exec, Option.some.injEq] at h
      split_ifs at h with ht
      · cases h
        exact .refuse _ m rfl
      · cases h
        exact .installTerminal m (by simpa using ht)
  | installMap m =>
      rw [ThreadOp.exec, Option.some.injEq] at h
      split_ifs at h
      · cases h
        exact .refuse _ m rfl
      · cases h
        exact .installMap m
  | installConfiguration m =>
      rw [ThreadOp.exec, Option.some.injEq] at h
      split_ifs at h with hc
      · cases h
        exact .refuse _ m rfl
      · cases h
        have hinst : ThreadOp.Acts sh inc (.installConfiguration m) _ _ :=
          .installed m (by simpa using hc)
        cases hres : inc.consumer.bind Consumer.resources with
        | none => simpa only [hres, Option.toList_none, List.map_nil, List.nil_append] using hinst
        | some old =>
            simpa only [hres, Option.toList_some, List.map_cons, List.map_nil, List.cons_append,
              List.nil_append] using hinst
  | bindRegistered t =>
      rw [ThreadOp.exec, Option.some.injEq, Prod.mk.injEq] at h
      obtain ⟨rfl, rfl⟩ := h
      split_ifs with hr
      · exact .bindRegistered t hr.1 hr.2
      · exact .bindRefused _ t (Or.inl rfl)
  | bindActive t =>
      rw [ThreadOp.exec, Option.some.injEq, Prod.mk.injEq] at h
      obtain ⟨rfl, rfl⟩ := h
      split_ifs with ha
      · exact .bindRefused _ t (Or.inr (Or.inl rfl))
      · exact .bindActive t ha
  | bindTerminal t =>
      rw [ThreadOp.exec, Option.some.injEq, Prod.mk.injEq] at h
      obtain ⟨rfl, rfl⟩ := h
      split_ifs with ht
      · exact .bindRefused _ t (Or.inr (Or.inr rfl))
      · exact .bindTerminal t (by simpa using ht)
  | bindSource t =>
      rw [ThreadOp.exec] at h
      split_ifs at h with ht
      cases h
      exact .bindSource t ht

namespace Incarnation

variable {sh : Shared} {inc inc' : Incarnation}

/-- The operations with property `p` that the threads have still to run. -/
def pending (inc : Incarnation) (p : ThreadOp → Bool) : ℕ :=
  WorkLists.total p (inc.threads.map Thread.todo)

lemma pending_eq_zero {p : ThreadOp → Bool} :
    inc.pending p = 0 ↔ ∀ t ∈ inc.threads, ∀ op ∈ t.todo, p op = false := by
  simp [pending, WorkLists.total_eq_zero]

lemma pending_pos {p : ThreadOp → Bool} {t : Thread} {op : ThreadOp} (ht : t ∈ inc.threads)
    (hop : op ∈ t.todo) (hp : p op = true) : 0 < inc.pending p :=
  WorkLists.total_pos p (List.mem_map_of_mem ht) hop hp

lemma pending_congr {p : ThreadOp → Bool} (h : inc'.threads = inc.threads) :
    inc'.pending p = inc.pending p := by
  rw [pending, pending, h]

lemma pending_spawn {p : ThreadOp → Bool} {todo : List ThreadOp} {role : Role}
    (h : inc'.threads = inc.threads ++ [⟨todo, role⟩]) :
    inc'.pending p = inc.pending p + todo.countP p := by
  rw [pending, h, List.map_append, List.map_singleton, WorkLists.total_append_singleton, pending]

lemma pending_step {p : ThreadOp → Bool} {t : ℕ} {op : ThreadOp} {rest next : List ThreadOp}
    {role : Role} (ht : inc.threads[t]? = some ⟨op :: rest, role⟩)
    (h : inc'.threads = inc.threads.set t ⟨next ++ rest, role⟩) :
    inc'.pending p + (if p op then 1 else 0) = inc.pending p + next.countP p := by
  rw [pending, h, List.map_set, pending]
  exact WorkLists.total_set p next (by rw [List.getElem?_map, ht]; rfl)

lemma pending_pop {p : ThreadOp → Bool} {t : ℕ} {op : ThreadOp} {rest : List ThreadOp}
    {role : Role} (ht : inc.threads[t]? = some ⟨op :: rest, role⟩)
    (h : inc'.threads = inc.threads.set t ⟨rest, role⟩) :
    inc'.pending p + (if p op then 1 else 0) = inc.pending p :=
  pending_step ht (h.trans (by rw [List.nil_append]))

/-- A thread runs its next operation. -/
lemma threadStep_acts {e : Env} {t : ℕ} (h : inc.threadStep sh e t = some inc') :
    ∃ op rest role mid next, inc.threads[t]? = some ⟨op :: rest, role⟩ ∧
      (inc.exited = false ∨ role = .host) ∧
      op.Acts sh { inc with threads := inc.threads.set t ⟨rest, role⟩ } mid next ∧
      inc' = { mid with threads := inc.threads.set t ⟨next ++ rest, role⟩ } := by
  obtain ⟨op, rest, role, mid, next, ht, hx, hop, rfl⟩ := threadStep_shape h
  exact ⟨op, rest, role, mid, next, ht, hx, ThreadOp.acts_of_exec hop, rfl⟩

end Incarnation

end Jackstay.Acquisition
