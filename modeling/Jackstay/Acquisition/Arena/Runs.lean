import Jackstay.Library.Transition
import Jackstay.Acquisition.Arena.Ledger

/-!
Runs of the arena, over every interleaving.

* `Arena.Reachable`, and `Reachable.induct`: an invariant is proved by cases on
  `Arena.Acts`, with `Ledger` at hand.
* `Books`: what a call on the admission book does to the rest of the arena.
* `Acts.local`: what a step does to the incarnations. `Reachable.incarnation` lifts an
  invariant of one incarnation to all of them, `Reachable.follow` follows one along a run.
-/

namespace Jackstay.Acquisition

/-- The producer looks at no slot: between calls, in `poll_cleanup`, or around the
stores of a reconfiguration. -/
def Pc.idles : Pc → Prop
  | .idle => True
  | .cleanup _ _ => True
  | .unconfigure _ => True
  | .configure _ => True
  | _ => False

namespace Arena

/-- **What a call on the admission book does to the rest of the arena**: nothing, or
the installation of a fresh allocation. -/
inductive Books (s s' : Arena) : Prop
  | kept : s'.shared = s.shared → s'.log = s.log →
      s'.producer.cursor = s.producer.cursor → s'.producer.nextSlot = s.producer.nextSlot →
      s'.producer.resources = s.producer.resources → s'.producer.pc.idles → Books s s'
  | installed (layout : ResourceLayout) : s.producer.resources = none →
      s.producer.pendingLayout = some layout →
      s'.shared = (s.onMap s.producer.admission.nextAllocation
        fun _ => ResourceMap.new layout).shared → s'.log = s.log →
      s'.producer.cursor = s.producer.cursor → s'.producer.nextSlot = 0 →
      s'.producer.resources = some s.producer.admission.nextAllocation →
      s'.producer.pc = .configure s.producer.admission.nextAllocation → Books s s'

end Arena

namespace Ledger

variable {s : Arena} (h : Ledger s)

include h

/-- An incarnation that was found drained is tracked, and about to be removed. -/
lemma drained {i : ℕ} {todo : List ℕ} {goal : Goal} (hd : s.Drained i todo goal) :
    i ∈ s.producer.claims ∧ s.producer.pc.removing = none ∧
      ∃ c, s.producer.pc = .cleanup c goal := by
  obtain ⟨inc, -, hpc⟩ := hd
  have hvis := h.visits
  rcases hpc with ⟨m, hpc, -⟩ | ⟨k, hpc, -⟩
  · rw [hpc] at hvis ⊢
    exact ⟨hvis.subset List.mem_cons_self, rfl, _, rfl⟩
  · rw [hpc] at hvis ⊢
    exact ⟨hvis.subset List.mem_cons_self, rfl, _, rfl⟩

lemma collect_books {i : ℕ} {todo : List ℕ} {goal : Goal} (hd : s.Drained i todo goal) :
    s.Books (s.collect i todo goal) := by
  obtain ⟨hi, hrem, -⟩ := h.drained hd
  obtain ⟨book', -, -, -, -, heq⟩ := h.collect_spec hi hrem todo goal
  rw [heq]
  exact .kept rfl rfl rfl rfl rfl trivial

lemma reclaim_books (hrepl : s.producer.pc.replacing = none) {index : ℕ} {r : RetiredAllocation}
    (hr : s.producer.retired[index]? = some r) (goal : Goal) :
    s.Books (s.reclaim index r.generation goal) := by
  obtain ⟨_, _, _, _, _, _, _, heq⟩ := h.reclaim_spec hrepl hr goal
  rw [heq]
  exact .kept rfl rfl rfl rfl rfl trivial

/-- The answer of a native pool changes nothing here. -/
lemma ready (g : ℕ) : Ledger (s.onMap g fun map => { map with ready := true }) :=
  h.stored rfl rfl rfl (Arena.onMap_layout s _ _ fun _ => rfl) rfl rfl rfl rfl rfl (Or.inl rfl)

lemma ready_books (hrepl : s.producer.pc.replacing = none) {index : ℕ} {r : RetiredAllocation}
    (hr : s.producer.retired[index]? = some r) (goal : Goal) :
    (s.onMap r.generation fun map => { map with ready := true }).Books
      ((s.onMap r.generation fun map => { map with ready := true }).reclaim index r.generation
        goal) := by
  exact (h.ready r.generation).reclaim_books (by rw [Arena.onMap_producer]; exact hrepl) hr goal

lemma attach_books (hrepl : s.producer.pc.replacing = none) (e : Env) (holding : UInt32)
    (remote : Bool) : s.Books (s.attach e holding remote) := by
  obtain ⟨o, heq⟩ | ⟨book', o, -, -, -, -, heq⟩ | ⟨book', g, r, -, -, -, -, -, -, -, heq⟩ :=
    h.attach_spec hrepl e holding remote
  · rw [heq]
    exact .kept rfl rfl rfl rfl rfl trivial
  · rw [heq]
    exact .kept rfl rfl rfl rfl rfl trivial
  · rw [heq]
    exact .kept rfl rfl rfl rfl rfl trivial

lemma advance_books (hrepl : s.producer.pc.replacing = none) (e : Env) :
    s.Books (s.advance e) := by
  obtain ⟨o, heq⟩ | ⟨book', o, -, -, -, -, -, -, heq⟩ |
    ⟨book', layout, n, -, -, hl, -, -, -, -, heq⟩ := h.advance_spec e
  · rw [heq]
    exact .kept rfl rfl rfl rfl rfl trivial
  · rw [heq]
    exact .kept rfl rfl rfl rfl rfl trivial
  · have hres : s.producer.resources = none := (h.installed hrepl).2.1.mpr (by rw [hl]; rfl)
    rw [heq]
    exact .installed layout hres hl rfl rfl rfl rfl rfl rfl

lemma begin_books (hrepl : s.producer.pc.replacing = none) (payloadCapacity externalBytes : ℕ) :
    s.Books (s.beginReconfiguration payloadCapacity externalBytes) := by
  obtain ⟨o, heq⟩ | ⟨layout, book', g, -, -, -, -, -, -, -, -, -, -, -, heq⟩ :=
    h.begin_spec hrepl payloadCapacity externalBytes
  · rw [heq]
    exact .kept rfl rfl rfl rfl rfl trivial
  · rw [heq]
    exact .kept rfl rfl rfl rfl rfl trivial

lemma close_books (i : ℕ) : s.Books (s.continue_ (.close i)) := by
  obtain ⟨e, heq⟩ | ⟨book', -, -, -, -, heq⟩ := h.close_spec i
  · rw [heq]
    exact .kept rfl rfl rfl rfl rfl trivial
  · rw [heq]
    exact .kept rfl rfl rfl rfl rfl trivial

end Ledger

/-! ### Reachable arenas -/

namespace Arena

open Transition

/-- An arena that a created one reaches by steps that meet the condition. -/
def ReachableIn (C : Arena → Label → Prop) (s : Arena) : Prop :=
  ∃ page config externalBytes native s₀,
    create page config externalBytes native = .ok s₀ ∧ Reaches step C s₀ s

/-- **The reachable arenas**, over every interleaving. -/
def Reachable (s : Arena) : Prop := ReachableIn Always s

variable {s s' : Arena} {C : Arena → Label → Prop}

lemma ReachableIn.reachable (h : ReachableIn C s) : Reachable s := by
  obtain ⟨page, config, externalBytes, native, s₀, h₀, h⟩ := h
  exact ⟨page, config, externalBytes, native, s₀, h₀, h.always⟩

lemma Reachable.tail (h : Reachable s) {l : Label} (hs : s.step l = some s') : Reachable s' := by
  obtain ⟨page, config, externalBytes, native, s₀, h₀, h⟩ := h
  exact ⟨page, config, externalBytes, native, s₀, h₀, h.tail trivial hs⟩

/-- What a reachable arena reaches is reachable. -/
lemma Reachable.run (h : Reachable s) (hrun : Reaches step C s s') : Reachable s' := by
  obtain ⟨page, config, externalBytes, native, s₀, h₀, h⟩ := h
  exact ⟨page, config, externalBytes, native, s₀, h₀, h.trans hrun.always⟩

/-- Create an arena and play a script on it. -/
def script (page : ℕ) (config : ArenaConfig) (externalBytes : ℕ) (native : Bool)
    (ls : List Label) : Option Arena :=
  (create page config externalBytes native).toOption.map fun s => play step s ls

/-- A played script is a run. -/
lemma Reachable.of_script {page : ℕ} {config : ArenaConfig} {externalBytes : ℕ} {native : Bool}
    {ls : List Label} (h : script page config externalBytes native ls = some s) : Reachable s := by
  rw [script] at h
  cases hc : create page config externalBytes native with
  | error e =>
      rw [hc] at h
      cases h
  | ok s₀ =>
      rw [hc] at h
      cases h
      exact ⟨page, config, externalBytes, native, s₀, hc, .of_play step s₀ ls⟩

/-- An invariant of created arenas that every step preserves, given an invariant
already known. -/
theorem Reachable.induct {P : Arena → Prop} (h : Reachable s)
    (hnew : ∀ page config externalBytes native s₀,
      create page config externalBytes native = .ok s₀ → P s₀)
    (hstep : ∀ a b, Reachable a → P a → Acts a b → P b) : P s := by
  obtain ⟨page, config, externalBytes, native, s₀, h₀, h⟩ := h
  refine h.invariant_with (Q := Reachable) (fun a ha => ⟨_, _, _, _, _, h₀, ha⟩)
    (hnew _ _ _ _ _ h₀) ?_
  intro a l b ha hp _ hs
  exact hstep a b ha hp (acts_of_step hs)

/-- **The books balance in every reachable arena**; in particular the producer has
not panicked. -/
theorem Reachable.ledger (h : Reachable s) : Ledger s :=
  h.induct (fun _ _ _ _ _ h₀ => Ledger.of_create h₀) fun _ _ _ hp hs => hp.acts hs

/-! ### Incarnations -/

/-- What a step does to the incarnations: nothing, a move of one of them with the
shared maps as they are, or a new one. -/
inductive Local (s s' : Arena) : Prop
  | same : s'.incarnations = s.incarnations → Local s s'
  | moved (i : ℕ) (inc inc' : Incarnation) : s.incarnations i = some inc →
      inc.Move s.shared inc' → s'.shared = s.shared →
      s'.incarnations = Function.update s.incarnations i (some inc') → Local s s'
  | admitted (i frames : ℕ) (remote : Bool) (g : ℕ) : s.incarnations i = none → frames ≠ 0 →
      s.producer.resources = some g → g ≠ 0 → s'.shared = s.shared →
      s'.incarnations = Function.update s.incarnations i
        (some (Incarnation.new frames remote g)) → Local s s'

@[simp] lemma collect_incarnations (s : Arena) (i : ℕ) (todo : List ℕ) (goal : Goal) :
    (s.collect i todo goal).incarnations = s.incarnations := by
  rw [collect]
  split
  · split <;> rfl
  · rfl

@[simp] lemma reclaim_incarnations (s : Arena) (index g : ℕ) (goal : Goal) :
    (s.reclaim index g goal).incarnations = s.incarnations := by
  rw [reclaim]
  split <;> rfl

lemma advance_incarnations (h : Ledger s) (e : Env) :
    (s.advance e).incarnations = s.incarnations := by
  obtain ⟨o, heq⟩ | ⟨book', o, -, -, -, -, -, -, heq⟩ |
    ⟨book', layout, n, -, -, -, -, -, -, -, heq⟩ := h.advance_spec e <;> rw [heq] <;> rfl

lemma begin_incarnations (h : Ledger s) (hrepl : s.producer.pc.replacing = none)
    (payloadCapacity externalBytes : ℕ) :
    (s.beginReconfiguration payloadCapacity externalBytes).incarnations = s.incarnations := by
  obtain ⟨o, heq⟩ | ⟨layout, book', g, -, -, -, -, -, -, -, -, -, -, -, heq⟩ :=
    h.begin_spec hrepl payloadCapacity externalBytes <;> rw [heq] <;> rfl

lemma close_incarnations (h : Ledger s) (i : ℕ) :
    (s.continue_ (.close i)).incarnations = s.incarnations := by
  obtain ⟨e, heq⟩ | ⟨book', -, -, -, -, heq⟩ := h.close_spec i <;> rw [heq] <;> rfl

/-- A call on the page of a tracked incarnation. -/
lemma Local.of_callPage (h : Ledger s) (hcall : s.producer.pc.calling = none) {i : ℕ}
    (hi : i ∈ s.producer.claims) {op : HostOp} (hop : op.Starts)
    (hinc : s'.incarnations = (s.callPage i [op]).incarnations) (hshared : s'.shared = s.shared) :
    Local s s' := by
  obtain ⟨inc, hinc', -⟩ := h.tracked i hi
  refine .moved i inc _ hinc' (.call op (h.silent hcall hinc') hop) hshared ?_
  rw [hinc, callPage, Ledger.onPage_incarnations hinc']

/-- **The incarnations in a step.** -/
theorem Acts.local (h : Ledger s) (hs : s.Acts s') : Local s s' := by
  cases hs with
  | incarnation i inc inc' hi ha => exact .moved i inc inc' hi (.act inc' ha) rfl rfl
  | offerCall i hpc hi =>
      refine .of_callPage h (by rw [hpc]; rfl) hi ?_ rfl rfl
      cases hg : s.producer.resources with
      | none => trivial
      | some g => exact (h.current g hg).1
  | registerCall i hpc hi =>
      refine .of_callPage h (by rw [hpc]; rfl) hi ?_ rfl rfl
      trivial
  | page call i todo after hpc =>
      have hvis := h.visits
      rw [hpc] at hvis
      refine .of_callPage h (by rw [hpc]; rfl) (hvis.subset List.mem_cons_self) ?_ rfl rfl
      cases call <;> trivial
  | observe i todo goal inc hpc hi ho =>
      exact .moved i inc _ hi (.observe .process ho (Or.inl rfl)) rfl
        (Ledger.onPage_incarnations hi _)
  | observed i todo goal released hpc =>
      have hvis := h.visits
      rw [hpc] at hvis
      obtain ⟨inc, hi, -⟩ := h.tracked i (hvis.subset List.mem_cons_self)
      exact .moved i inc _ hi .collect rfl (Ledger.onPage_incarnations hi _)
  | remove i todo goal inc hpc hi ho =>
      exact .moved i inc _ hi (.forget ho) rfl (Ledger.onPage_incarnations hi _)
  | register i inc hpc hi hhost ho =>
      exact .moved i inc _ hi (.observe .register ho (Or.inr rfl)) rfl
        (Ledger.onPage_incarnations hi _)
  | retry i inc outcome hpc hi ho =>
      exact .moved i inc _ hi (.retry ho) rfl (Ledger.onPage_incarnations hi _)
  | dropObserver i todo inc hpc hi ho =>
      exact .moved i inc _ hi (.forget ho) rfl (Ledger.onPage_incarnations hi _)
  | collect i todo goal hd => exact .same (collect_incarnations s i todo goal)
  | reclaim index goal r hpc hr => exact .same (reclaim_incarnations s index r.generation goal)
  | ready index goal r hpc hr => exact .same (reclaim_incarnations _ index r.generation goal)
  | attach e holding remote hpc =>
      obtain ⟨o, heq⟩ | ⟨book', o, -, -, -, -, heq⟩ | ⟨book', g, r, -, -, -, -, -, hpos, hg, heq⟩ :=
        h.attach_spec (by rw [hpc]; rfl) e holding remote
      · exact .same (by rw [heq]; rfl)
      · exact .same (by rw [heq]; rfl)
      · refine .admitted s.producer.admission.nextIncarnation holding.toNat remote g ?_
          (by omega) hg (h.current g hg).1 (by rw [heq]) (by rw [heq])
        by_contra hne
        obtain ⟨inc, hi⟩ := Option.ne_none_iff_exists'.mp hne
        exact absurd (h.issued _ inc hi) (lt_irrefl _)
  | advance e hpc => exact .same (advance_incarnations h e)
  | begin payloadCapacity externalBytes hpc =>
      exact .same (begin_incarnations h (by rw [hpc]; rfl) payloadCapacity externalBytes)
  | close call i hpc => exact .same (close_incarnations h i)
  | _ => exact .same rfl

/-- An incarnation is never taken away. -/
lemma Acts.stays (h : Ledger s) (hs : s.Acts s') {i : ℕ} {inc : Incarnation}
    (hi : s.incarnations i = some inc) : ∃ inc', s'.incarnations i = some inc' := by
  cases hs.local h with
  | same heq => exact ⟨inc, by rw [heq]; exact hi⟩
  | moved j jnc jnc' _ _ _ heq =>
      by_cases hij : i = j
      · exact ⟨jnc', by rw [heq, hij, Function.update_self]⟩
      · exact ⟨inc, by rw [heq, Function.update_of_ne hij]; exact hi⟩
  | admitted j frames remote g _ _ _ _ _ heq =>
      by_cases hij : i = j
      · exact ⟨_, by rw [heq, hij, Function.update_self]⟩
      · exact ⟨inc, by rw [heq, Function.update_of_ne hij]; exact hi⟩

/-- An incarnation that was not there is a new one. -/
lemma Acts.new_of_none (h : Ledger s) (hs : s.Acts s') {i : ℕ} {inc' : Incarnation}
    (hi : s.incarnations i = none) (hi' : s'.incarnations i = some inc') :
    ∃ frames remote g, inc' = Incarnation.new frames remote g := by
  cases hs.local h with
  | same heq =>
      rw [heq, hi] at hi'
      cases hi'
  | moved j jnc jnc' hj _ _ heq =>
      have hij : i ≠ j := by
        rintro rfl
        rw [hi] at hj
        cases hj
      rw [heq, Function.update_of_ne hij, hi] at hi'
      cases hi'
  | admitted j frames remote g _ _ _ _ _ heq =>
      rw [heq] at hi'
      by_cases hij : i = j
      · rw [hij, Function.update_self, Option.some.injEq] at hi'
        exact ⟨frames, remote, g, hi'.symm⟩
      · rw [Function.update_of_ne hij, hi] at hi'
        cases hi'

/-- What the arena was created with stays. -/
theorem Acts.static (h : Ledger s) (hs : s.Acts s') : s'.shared.native = s.shared.native ∧
    s'.shared.history = s.shared.history ∧ s'.shared.page = s.shared.page := by
  cases hs with
  | collect i todo goal hd =>
      rw [Arena.collect]
      split
      · split <;> exact ⟨rfl, rfl, rfl⟩
      · exact ⟨rfl, rfl, rfl⟩
  | reclaim index goal r hpc hr =>
      obtain ⟨_, _, _, _, _, _, _, heq⟩ := h.reclaim_spec (by rw [hpc]; rfl) hr goal
      rw [heq]
      exact ⟨rfl, rfl, rfl⟩
  | ready index goal r hpc hr =>
      rw [Arena.reclaim]
      split <;> exact ⟨rfl, rfl, rfl⟩
  | attach e holding remote hpc =>
      obtain ⟨o, heq⟩ | ⟨book', o, -, -, -, -, heq⟩ | ⟨book', g, r, -, -, -, -, -, -, -, heq⟩ :=
        h.attach_spec (by rw [hpc]; rfl) e holding remote <;> rw [heq] <;> exact ⟨rfl, rfl, rfl⟩
  | advance e hpc =>
      obtain ⟨o, heq⟩ | ⟨book', o, -, -, -, -, -, -, heq⟩ |
        ⟨book', layout, n, -, -, -, -, -, -, -, heq⟩ := h.advance_spec e <;> rw [heq] <;>
          exact ⟨rfl, rfl, rfl⟩
  | begin payloadCapacity externalBytes hpc =>
      obtain ⟨o, heq⟩ | ⟨layout, book', g, -, -, -, -, -, -, -, -, -, -, -, heq⟩ :=
        h.begin_spec (by rw [hpc]; rfl) payloadCapacity externalBytes <;> rw [heq] <;>
          exact ⟨rfl, rfl, rfl⟩
  | close call i hpc =>
      obtain ⟨e, heq⟩ | ⟨book', -, -, -, -, heq⟩ := h.close_spec i <;> rw [heq] <;>
        exact ⟨rfl, rfl, rfl⟩
  | _ => exact ⟨rfl, rfl, rfl⟩

/-- **The lifting rule**: what a new incarnation has and every move keeps, with the
shared maps as they are, every incarnation of a reachable arena has, if the steps of the
producer and the others keep it. -/
theorem Reachable.incarnation_in {P : Shared → Incarnation → Prop} (h : Reachable s)
    (hnew : ∀ sh frames remote g, frames ≠ 0 → g ≠ 0 → P sh (Incarnation.new frames remote g))
    (hmove : ∀ a i inc inc', Reachable a → a.incarnations i = some inc → P a.shared inc →
      inc.Move a.shared inc' → P a.shared inc')
    (hrest : ∀ a b inc, Reachable a → a.Acts b → P a.shared inc → P b.shared inc) :
    ∀ i inc, s.incarnations i = some inc → P s.shared inc := by
  refine h.induct (P := fun s => ∀ i inc, s.incarnations i = some inc → P s.shared inc) ?_ ?_
  · intro page config externalBytes native s₀ h₀ i inc hi
    rw [create] at h₀
    obtain ⟨x, -, h₀⟩ := of_bind_ok h₀
    cases h₀
    cases hi
  · intro a b ha hp hs j jnc hj
    cases hs.local ha.ledger with
    | same heq => exact hrest a b jnc ha hs (hp j jnc (heq ▸ hj))
    | moved i inc inc' hi hm hsh heq =>
        rw [heq] at hj
        by_cases hji : j = i
        · subst hji
          rw [Function.update_self, Option.some.injEq] at hj
          subst hj
          rw [hsh]
          exact hmove a j inc inc' ha hi (hp j inc hi) hm
        · rw [Function.update_of_ne hji] at hj
          exact hrest a b jnc ha hs (hp j jnc hj)
    | admitted i frames remote g _ hf _ hg _ heq =>
        rw [heq] at hj
        by_cases hji : j = i
        · subst hji
          rw [Function.update_self, Option.some.injEq] at hj
          subst hj
          exact hnew _ _ _ _ hf hg
        · rw [Function.update_of_ne hji] at hj
          exact hrest a b jnc ha hs (hp j jnc hj)

/-- The same, for a property that reads nothing of the shared maps but the kind of the
arena. -/
theorem Reachable.incarnation {P Q : Bool → Incarnation → Prop} (h : Reachable s)
    (hQ : ∀ a i inc, Reachable a → a.incarnations i = some inc → Q a.shared.native inc)
    (hnew : ∀ native frames remote g, frames ≠ 0 → g ≠ 0 →
      P native (Incarnation.new frames remote g))
    (hmove : ∀ sh inc inc', Q sh.native inc → P sh.native inc → inc.Move sh inc' →
      P sh.native inc') :
    ∀ i inc, s.incarnations i = some inc → P s.shared.native inc :=
  h.incarnation_in (P := fun sh inc => P sh.native inc)
    (fun _ _ _ _ hf hg => hnew _ _ _ _ hf hg)
    (fun a i inc inc' ha hi hp hm => hmove a.shared inc inc' (hQ a i inc ha hi) hp hm)
    (fun _ _ _ ha hs hp => by rw [(hs.static ha.ledger).1]; exact hp)

/-- **One incarnation along a run**: what every move of it keeps, with the shared maps as
they are, holds of it in every later arena, if the steps of the producer and the others
keep it. -/
theorem Reachable.follow {P : Shared → Incarnation → Prop} (h : Reachable s) {i : ℕ}
    {inc : Incarnation} (hi : s.incarnations i = some inc) (h₀ : P s.shared inc)
    (hmove : ∀ a l inc inc', Reachable a → C a l → a.incarnations i = some inc →
      P a.shared inc → inc.Move a.shared inc' → P a.shared inc')
    (hrest : ∀ a b inc, Reachable a → a.Acts b → P a.shared inc → P b.shared inc)
    (hrun : Reaches step C s s') : ∃ inc', s'.incarnations i = some inc' ∧ P s'.shared inc' := by
  refine hrun.invariant_with (P := fun a => ∃ inc', a.incarnations i = some inc' ∧ P a.shared inc')
    (Q := Reachable) (fun a ha => h.run ha) ⟨inc, hi, h₀⟩ ?_
  rintro a l b ha ⟨anc, hanc, hp⟩ hC hstep
  have hs := acts_of_step hstep
  obtain ⟨bnc, hbnc⟩ := hs.stays ha.ledger hanc
  refine ⟨bnc, hbnc, ?_⟩
  cases hs.local ha.ledger with
  | same heq =>
      rw [heq, hanc, Option.some.injEq] at hbnc
      exact hbnc ▸ hrest a b anc ha hs hp
  | moved j jnc jnc' hj hm hsh heq =>
      rw [heq] at hbnc
      by_cases hij : i = j
      · subst hij
        rw [hanc, Option.some.injEq] at hj
        rw [Function.update_self, Option.some.injEq] at hbnc
        subst hj hbnc
        rw [hsh]
        exact hmove a l anc jnc' ha hC hanc hp hm
      · rw [Function.update_of_ne hij, hanc, Option.some.injEq] at hbnc
        exact hbnc ▸ hrest a b anc ha hs hp
  | admitted j frames remote g hj _ _ _ _ heq =>
      have hij : i ≠ j := by
        rintro rfl
        rw [hanc] at hj
        cases hj
      rw [heq, Function.update_of_ne hij, hanc, Option.some.injEq] at hbnc
      exact hbnc ▸ hrest a b anc ha hs hp

end Arena

end Jackstay.Acquisition
