import Jackstay.Acquisition.Arena.Stopping

/-!
The producer's calls on a closed page.

* `Incarnation.Acts.calls`: who changes the producer's call on a page and its reply. The
  observer answers `register_release_timeline` only (`Registering`).
* `Incarnation.Doomed`: an offer that was begun on a closed page ends with `Closed`.
* `Stopped`: behind `TERMINAL` every tracked page is closed or about to be, so that every
  offer is doomed.
-/

namespace Jackstay.Acquisition

/-- The locked part of `register_release_timeline`. -/
def ObserveOp.Registers : ObserveOp → Prop
  | .register => True
  | .registerStore _ => True
  | _ => False

/-- The observer has a registration to answer. -/
def Incarnation.Registering (inc : Incarnation) : Prop :=
  ∃ op ∈ inc.observer.todo, op.Registers

/-- The page is closed and the offer under way has not got past the first check. -/
structure Incarnation.Doomed (inc : Incarnation) : Prop where
  active : inc.page.active = 0
  call : (∃ g, inc.host = [.offerActive g]) ∨ inc.host = [] ∧ inc.reply = .error .closed

/-- The page is still to be closed by the loop of `stop`. -/
def Pc.closes (i : ℕ) (inc : Incarnation) : Pc → Prop
  | .pages .close todo _ => i ∈ todo
  | .paged .close j todo _ => i ∈ todo ∨ i = j ∧ inc.host = [.page .close]
  | _ => False

/-! ### One incarnation -/

/-- The observer answers a registration only, and begins none itself. -/
lemma ObserveOp.exec_registers (native : Bool) (e : Env) (inc : Incarnation) (op : ObserveOp) :
    (op.Registers ∨ (op.exec native e inc).1.reply = inc.reply) ∧
    ∀ x ∈ (op.exec native e inc).2, x.Registers → op.Registers := by
  cases op with
  | page op =>
      obtain ⟨a, q, c, w, h⟩ := op.exec_shape e inc
      refine ⟨Or.inr ?_, ?_⟩
      · simp only [ObserveOp.exec, h]
      · intro x hx
        obtain ⟨y, -, rfl⟩ := List.mem_map.mp hx
        exact fun h0 => h0
  | process =>
      simp only [ObserveOp.exec]
      split_ifs <;> simp [Registers]
  | zeroMapping m =>
      simp only [ObserveOp.exec]
      split_ifs <;> simp [Registers]
  | exitClaim k =>
      simp only [ObserveOp.exec]
      split_ifs <;> simp [Registers]
  | exitPending k =>
      simp only [ObserveOp.exec]
      split_ifs <;> simp [Registers]
  | deadline =>
      simp only [ObserveOp.exec]
      split_ifs <;> simp [Registers]
  | loadPending k =>
      simp only [ObserveOp.exec]
      split_ifs <;> simp [Registers]
  | loadValue k t =>
      simp only [ObserveOp.exec]
      split_ifs <;> simp [Registers]
  | completed k t v =>
      simp only [ObserveOp.exec]
      split_ifs <;> simp [Registers]
  | recheck k t v =>
      simp only [ObserveOp.exec]
      split_ifs <;> simp [Registers]
  | creditClaim k b => cases b <;> simp [ObserveOp.exec, Registers]
  | register => exact ⟨Or.inl trivial, fun _ _ _ => trivial⟩
  | registerStore t => exact ⟨Or.inl trivial, fun _ _ _ => trivial⟩
  | _ => simp [ObserveOp.exec, Registers]

namespace Incarnation

variable {sh : Shared} {inc inc' : Incarnation}

/-- **Who changes the producer's call on a page**: its own steps, and the observer's
answer to a registration. -/
lemma Acts.calls (h : inc.Acts sh inc') :
    (inc'.host = inc.host ∧ (inc'.reply = inc.reply ∨ inc.Registering)) ∨
    ∃ op rest e, inc.host = op :: rest ∧
      inc' = { (op.exec e inc).1 with host := (op.exec e inc).2 ++ rest } := by
  cases h with
  | call t _ hx hs =>
      obtain ⟨call, -, ⟨pc, -, rfl⟩ | ⟨o, -, rfl⟩ | ⟨c, idx, k, m, x, -, -, -, rfl⟩⟩ :=
        callStep_shape hs <;> exact Or.inl ⟨rfl, Or.inl rfl⟩
  | use k u e _ hx hu hs => cases useActs_of_step hs <;> exact Or.inl ⟨rfl, Or.inl rfl⟩
  | defer k t v e u m =>
      rw [handoff]
      split_ifs <;> exact Or.inl ⟨rfl, Or.inl rfl⟩
  | waiter w e _ hx hw hs =>
      obtain ⟨waiter, interest, bytes, rfl⟩ := waiterStep_shape hs
      exact Or.inl ⟨rfl, Or.inl rfl⟩
  | thread t e _ hs =>
      obtain ⟨op, rest, role, mid, next, -, -, hop, rfl⟩ := threadStep_shape hs
      obtain ⟨a, q, c, ms, g, maps, consumer, todo, sources, w, returns, rfl, -⟩ :=
        ThreadOp.exec_shape hop
      exact Or.inl ⟨rfl, Or.inl rfl⟩
  | retire e _ hs =>
      obtain ⟨op, rest, htodo, -, rfl⟩ := retireStep_shape hs
      exact Or.inl ⟨(op.exec_static e _).host, Or.inl (op.exec_reply e _)⟩
  | observe e _ hs =>
      obtain ⟨op, rest, htodo, rfl⟩ := observeStep_shape hs
      refine Or.inl ⟨(op.exec_static sh.native e inc).host, ?_⟩
      rcases (op.exec_registers sh.native e inc).1 with hop | hreply
      · exact Or.inr ⟨op, by rw [htodo]; exact List.mem_cons_self, hop⟩
      · exact Or.inl hreply
  | host e _ hs =>
      obtain ⟨op, rest, hhost, rfl⟩ := hostStep_shape hs
      exact Or.inr ⟨op, rest, e, hhost, rfl⟩
  | _ => exact Or.inl ⟨rfl, Or.inl rfl⟩

/-- A registration is begun by the producer only. -/
lemma Acts.registering (h : inc.Acts sh inc') (hreg : inc'.Registering) : inc.Registering := by
  have same : inc'.observer.todo = inc.observer.todo → inc.Registering := by
    intro h0
    rw [Registering, h0] at hreg
    exact hreg
  cases h with
  | call t _ hx hs =>
      obtain ⟨call, -, ⟨pc, -, rfl⟩ | ⟨o, -, rfl⟩ | ⟨c, idx, k, m, x, -, -, -, rfl⟩⟩ :=
        callStep_shape hs <;> exact same rfl
  | use k u e _ hx hu hs => cases useActs_of_step hs <;> exact same rfl
  | defer k t v e u m =>
      refine same ?_
      rw [handoff]
      split_ifs <;> rfl
  | waiter w e _ hx hw hs =>
      obtain ⟨waiter, interest, bytes, rfl⟩ := waiterStep_shape hs
      exact same rfl
  | thread t e _ hs =>
      obtain ⟨op, rest, role, mid, next, -, -, hop, rfl⟩ := threadStep_shape hs
      obtain ⟨a, q, c, ms, g, maps, consumer, todo, sources, w, returns, rfl, -⟩ :=
        ThreadOp.exec_shape hop
      exact same rfl
  | retire e _ hs =>
      obtain ⟨op, rest, htodo, -, rfl⟩ := retireStep_shape hs
      exact same (by rw [op.exec_observer])
  | host e _ hs =>
      obtain ⟨op, rest, hhost, rfl⟩ := hostStep_shape hs
      obtain ⟨a, q, c, ms, g, maps, w, fault, reply, hx⟩ := op.exec_shape e inc
      exact same (by rw [hx])
  | observe e _ hs =>
      obtain ⟨op, rest, htodo, rfl⟩ := observeStep_shape hs
      obtain ⟨x, hx, hreg⟩ := hreg
      rw [Registering, htodo]
      rcases List.mem_append.mp hx with hx | hx
      · exact ⟨op, List.mem_cons_self, (op.exec_registers sh.native e inc).2 x hx hreg⟩
      · exact ⟨x, List.mem_cons_of_mem _ hx, hreg⟩
  | observerPoll ho =>
      obtain ⟨x, hx, hreg⟩ := hreg
      rw [List.mem_singleton] at hx
      exact (hx ▸ hreg).elim
  | observerFail ho =>
      obtain ⟨x, hx, hreg⟩ := hreg
      rw [List.mem_singleton] at hx
      exact (hx ▸ hreg).elim
  | _ => exact same rfl

lemma Doomed.acts (h : inc.Doomed) (hreg : ¬ inc.Registering) (ha : inc.Acts sh inc') :
    inc'.Doomed := by
  refine ⟨ha.advances.active h.active, ?_⟩
  rcases ha.calls with ⟨hhost, hreply | h0⟩ | ⟨op, rest, e, hhost, rfl⟩
  · rw [hhost, hreply]
    exact h.call
  · exact absurd h0 hreg
  · rcases h.call with ⟨g, h0⟩ | ⟨h0, -⟩
    · rw [h0] at hhost
      cases hhost
      right
      cases g <;> simp [HostOp.exec, h.active]
    · rw [h0] at hhost
      cases hhost

end Incarnation

/-! ### The arena -/

/-- **The invariant of the producer's calls behind `TERMINAL`.** -/
structure Stopped (s : Arena) : Prop where
  terminates : s.producer.pc.Terminates
  registers : ∀ i inc, s.incarnations i = some inc → inc.Registering →
    s.producer.pc = .registered i
  ended : s.shared.control.terminal ≠ 0 → s.producer.pc.Ended
  closed : s.shared.control.terminal ≠ 0 → ∀ i ∈ s.producer.claims, ∀ inc,
    s.incarnations i = some inc → inc.page.active = 0 ∨ s.producer.pc.closes i inc
  offering : s.shared.control.terminal ≠ 0 → ∀ i inc, s.producer.pc = .offering i →
    s.incarnations i = some inc → inc.Doomed

namespace Stopped

variable {s s' : Arena}

/-- Where an incarnation comes from in a call on one page. -/
lemma of_onPage {j : ℕ} {f : Incarnation → Incarnation} {i : ℕ} {inc' : Incarnation}
    (h : (s.onPage j f).incarnations i = some inc') :
    ∃ inc, s.incarnations i = some inc ∧ (i ≠ j ∧ inc' = inc ∨ i = j ∧ inc' = f inc) := by
  by_cases hij : i = j
  · subst hij
    simp only [Arena.onPage, Function.update_self] at h
    obtain ⟨inc, hi, rfl⟩ := Option.map_eq_some_iff.mp h
    exact ⟨inc, hi, Or.inr ⟨rfl, rfl⟩⟩
  · simp only [Arena.onPage, Function.update_of_ne hij] at h
    exact ⟨inc', h, Or.inl ⟨hij, rfl⟩⟩

/-- A registration is answered before the producer goes on. -/
lemma registers_acts (hl : Ledger s) (hs : s.Acts s')
    (h : ∀ i inc, s.incarnations i = some inc → inc.Registering →
      s.producer.pc = .registered i) :
    ∀ i inc', s'.incarnations i = some inc' → inc'.Registering →
      s'.producer.pc = .registered i := by
  -- a step from another place that begins no registration
  have quiet : ∀ {pc : Pc}, s.producer.pc = pc → (∀ j, pc ≠ .registered j) →
      s'.incarnations = s.incarnations →
      ∀ i inc', s'.incarnations i = some inc' → inc'.Registering →
        s'.producer.pc = .registered i := by
    intro pc hpc hne heq i inc' hi' hreg
    rw [heq] at hi'
    exact absurd (hpc.symm.trans (h i inc' hi' hreg)) (hne i)
  have page : ∀ {pc : Pc} {j : ℕ} {f : Incarnation → Incarnation}, s.producer.pc = pc →
      (∀ j, pc ≠ .registered j) → s'.incarnations = (s.onPage j f).incarnations →
      (∀ inc, (f inc).Registering → inc.Registering) →
      ∀ i inc', s'.incarnations i = some inc' → inc'.Registering →
        s'.producer.pc = .registered i := by
    intro pc j f hpc hne heq hf i inc' hi' hreg
    rw [heq] at hi'
    obtain ⟨inc, hi, ⟨-, rfl⟩ | ⟨-, rfl⟩⟩ := of_onPage hi'
    · exact absurd (hpc.symm.trans (h i inc' hi hreg)) (hne i)
    · exact absurd (hpc.symm.trans (h i inc hi (hf inc hreg))) (hne i)
  cases hs with
  | incarnation j inc jnc' hj ha =>
      intro i inc' hi' hreg
      by_cases hij : i = j
      · subst hij
        simp only [Function.update_self, Option.some.injEq] at hi'
        subst hi'
        exact h i inc hj (ha.registering hreg)
      · simp only [Function.update_of_ne hij] at hi'
        exact h i inc' hi' hreg
  | write g index bytes => exact h
  | abandon g index => exact h
  | releaseMap g => exact h
  | dropExport g => exact h
  | flow pc outcome released hf =>
      intro i inc' hi' hreg
      have hpc := h i inc' hi' hreg
      rw [hpc] at hf
      cases hf with
      | registered _ inc hi htodo =>
          have hi' : s.incarnations i = some inc' := hi'
          rw [hi, Option.some.injEq] at hi'
          subst hi'
          obtain ⟨op, hop, -⟩ := hreg
          rw [htodo] at hop
          cases hop
  | register j inc hpc =>
      intro i inc' hi' hreg
      obtain ⟨inc, hi, ⟨-, rfl⟩ | ⟨rfl, rfl⟩⟩ := of_onPage hi'
      · have := hpc.symm.trans (h i inc' hi hreg)
        cases this
      · rfl
  | observe j todo goal inc hpc =>
      refine page hpc (by simp) rfl fun inc hreg => ?_
      obtain ⟨op, hop, hreg⟩ := hreg
      rw [List.mem_singleton] at hop
      exact (hop ▸ hreg).elim
  | observed j todo goal released hpc => exact page hpc (by simp) rfl fun _ => id
  | offerCall j hpc => exact page hpc (by simp) rfl fun _ => id
  | registerCall j hpc => exact page hpc (by simp) rfl fun _ => id
  | page call j todo after hpc => exact page hpc (by simp) rfl fun _ => id
  | remove j todo goal inc hpc => exact page hpc (by simp) rfl fun _ => id
  | retry j inc outcome hpc => exact page hpc (by simp) rfl fun _ => id
  | dropObserver j todo inc hpc => exact page hpc (by simp) rfl fun _ => id
  | collect j todo goal hd =>
      obtain ⟨-, -, c, hpc⟩ := hl.drained hd
      exact quiet hpc (by simp) (Arena.collect_incarnations s j todo goal)
  | reclaim index goal r hpc =>
      exact quiet hpc (by simp) (Arena.reclaim_incarnations s index r.generation goal)
  | ready index goal r hpc =>
      exact quiet hpc (by simp) (Arena.reclaim_incarnations _ index r.generation goal)
  | attach e holding remote hpc =>
      obtain ⟨o, heq⟩ | ⟨book', o, -, -, -, -, heq⟩ | ⟨book', g, r, -, -, -, -, -, -, -, heq⟩ :=
        hl.attach_spec (by rw [hpc]; rfl) e holding remote
      · exact quiet hpc (by simp) (by rw [heq]; rfl)
      · exact quiet hpc (by simp) (by rw [heq]; rfl)
      · intro i inc' hi' hreg
        rw [heq] at hi'
        by_cases hij : i = s.producer.admission.nextIncarnation
        · simp only [hij, Function.update_self, Option.some.injEq] at hi'
          subst hi'
          obtain ⟨op, hop, -⟩ := hreg
          cases hop
        · simp only [Function.update_of_ne hij] at hi'
          have := hpc.symm.trans (h i inc' hi' hreg)
          cases this
  | advance e hpc => exact quiet hpc (by simp) (Arena.advance_incarnations hl e)
  | begin payloadCapacity externalBytes hpc =>
      exact quiet hpc (by simp)
        (Arena.begin_incarnations hl (by rw [hpc]; rfl) payloadCapacity externalBytes)
  | close call j hpc => exact quiet hpc (by simp) (Arena.close_incarnations hl j)
  | _ => exact quiet ‹s.producer.pc = _› (by simp) rfl

/-- The books begin no offer. -/
lemma not_offering_of_books (hb : s.Books s') (i : ℕ) : s'.producer.pc ≠ .offering i := by
  intro h0
  cases hb with
  | kept _ _ _ _ _ hpc =>
      rw [h0] at hpc
      exact hpc
  | installed _ _ _ _ _ _ _ _ hpc =>
      rw [h0] at hpc
      cases hpc

/-- An offer is under way, or begins. -/
lemma offering_cases (hl : Ledger s) (hs : s.Acts s') {i : ℕ}
    (hpc' : s'.producer.pc = .offering i) :
    (s.producer.pc = .offering i ∧ (s'.incarnations = s.incarnations ∨
      ∃ j inc inc', s.incarnations j = some inc ∧ inc.Acts s.shared inc' ∧
        s'.incarnations = Function.update s.incarnations j (some inc'))) ∨
    (s.producer.pc = .idle ∧ i ∈ s.producer.claims ∧ s'.incarnations =
      (s.callPage i [.offerActive s.producer.resources]).incarnations) := by
  cases hs with
  | incarnation j inc inc' hj ha => exact Or.inl ⟨hpc', Or.inr ⟨j, inc, inc', hj, ha, rfl⟩⟩
  | write g index bytes => exact Or.inl ⟨hpc', Or.inl rfl⟩
  | abandon g index => exact Or.inl ⟨hpc', Or.inl rfl⟩
  | releaseMap g => exact Or.inl ⟨hpc', Or.inl rfl⟩
  | dropExport g => exact Or.inl ⟨hpc', Or.inl rfl⟩
  | flow pc outcome released hf =>
      have hcalling := hf.quiet.2.2.2.1
      have hpc' : pc = .offering i := hpc'
      rw [hpc'] at hcalling
      cases hcalling
  | offerCall j hpc hj =>
      cases Pc.offering.inj hpc'
      exact Or.inr ⟨hpc, hj, rfl⟩
  | collect j todo goal hd => exact absurd hpc' (not_offering_of_books (hl.collect_books hd) i)
  | reclaim index goal r hpc hget =>
      exact absurd hpc' (not_offering_of_books (hl.reclaim_books (by rw [hpc]; rfl) hget goal) i)
  | ready index goal r hpc hget =>
      exact absurd hpc' (not_offering_of_books (hl.ready_books (by rw [hpc]; rfl) hget goal) i)
  | attach e holding remote hpc =>
      exact absurd hpc'
        (not_offering_of_books (hl.attach_books (by rw [hpc]; rfl) e holding remote) i)
  | advance e hpc =>
      exact absurd hpc' (not_offering_of_books (hl.advance_books (by rw [hpc]; rfl) e) i)
  | begin payloadCapacity externalBytes hpc =>
      exact absurd hpc' (not_offering_of_books (hl.begin_books (by rw [hpc]; rfl) _ _) i)
  | close call j hpc => exact absurd hpc' (not_offering_of_books (hl.close_books j) i)
  | retire w off generation hpc =>
      rw [Arena.goto] at hpc'
      split_ifs at hpc'
      cases w with
      | publish source => cases source <;> cases hpc'
      | reserve => cases hpc'
  | _ => cases hpc'

/-- **An offer on a closed page is doomed**: one that begins there, and one that was. -/
lemma doomed_acts (hl : Ledger s) (hs : s.Acts s')
    (hregs : ∀ i inc, s.incarnations i = some inc → inc.Registering →
      s.producer.pc = .registered i) {i : ℕ} {inc inc' : Incarnation}
    (hi : s.incarnations i = some inc) (hi' : s'.incarnations i = some inc')
    (hactive : inc.page.active = 0) (h : s.producer.pc = .offering i → inc.Doomed)
    (hpc' : s'.producer.pc = .offering i) : inc'.Doomed := by
  rcases offering_cases hl hs hpc' with ⟨hpc, heq | ⟨j, jnc, jnc', hj, ha, heq⟩⟩ | ⟨-, -, heq⟩
  · rw [heq, hi, Option.some.injEq] at hi'
    exact hi' ▸ h hpc
  · have hdoomed := h hpc
    rw [heq] at hi'
    by_cases hij : i = j
    · subst hij
      rw [hi, Option.some.injEq] at hj
      rw [Function.update_self, Option.some.injEq] at hi'
      subst hj hi'
      refine hdoomed.acts (fun hreg => ?_) ha
      have := hpc.symm.trans (hregs i inc hi hreg)
      cases this
    · rw [Function.update_of_ne hij, hi, Option.some.injEq] at hi'
      exact hi' ▸ hdoomed
  · rw [heq] at hi'
    obtain ⟨jnc, hj, ⟨hne, -⟩ | ⟨-, rfl⟩⟩ := of_onPage hi'
    · exact absurd rfl hne
    · rw [hi, Option.some.injEq] at hj
      subst hj
      exact ⟨hactive, Or.inl ⟨_, rfl⟩⟩

/-- A page that is still to be closed is closed, or stays to be. -/
lemma closes_of_acts {pc : Pc} {sh : Shared} {i : ℕ} {inc inc' : Incarnation}
    (h : pc.closes i inc) (ha : inc.Acts sh inc') : inc'.page.active = 0 ∨ pc.closes i inc' := by
  cases pc with
  | pages call todo after =>
      cases call with
      | close => exact Or.inr h
      | signal event => exact h.elim
  | paged call j todo after =>
      cases call with
      | signal event => exact h.elim
      | close =>
          rcases h with hmem | ⟨rfl, hhost⟩
          · exact Or.inr (Or.inl hmem)
          rcases ha.calls with ⟨hsame, -⟩ | ⟨op, rest, e, hop, rfl⟩
          · exact Or.inr (Or.inr ⟨rfl, hsame.trans hhost⟩)
          · rw [hhost] at hop
            cases hop
            exact Or.inl rfl
  | _ => exact h.elim

/-- The loop of `stop` closes every page. -/
lemma closed_acts (h : Stopped s) (hr : Arena.Reachable s) (hs : s.Acts s')
    (ht : s'.shared.control.terminal ≠ 0) : ∀ i ∈ s'.producer.claims, ∀ inc',
      s'.incarnations i = some inc' → inc'.page.active = 0 ∨ s'.producer.pc.closes i inc' := by
  -- a step from a place where all pages are closed
  have quiet : s.shared.control.terminal ≠ 0 → (∀ i inc, ¬ s.producer.pc.closes i inc) →
      s'.producer.claims ⊆ s.producer.claims → ∀ i ∈ s'.producer.claims, ∀ inc',
        s'.incarnations i = some inc' → inc'.page.active = 0 ∨ s'.producer.pc.closes i inc' := by
    intro ht hno hsub i hi inc' hi'
    obtain ⟨inc, hinc, -⟩ := hr.ledger.tracked i (hsub hi)
    have hactive := (h.closed ht i (hsub hi) inc hinc).resolve_right (hno i inc)
    rcases hs.move hr.ledger hinc hi' with rfl | hm
    · exact Or.inl hactive
    · exact Or.inl (hm.advances.active hactive)
  have ended : ∀ {pc : Pc}, s.shared.control.terminal ≠ 0 → s.producer.pc = pc → pc.Ended :=
    fun h0 hpc => hpc ▸ h.ended h0
  cases hs with
  | incarnation j jnc jnc' hj ha =>
      intro i hi inc' hi'
      by_cases hij : i = j
      swap
      · simp only [Function.update_of_ne hij] at hi'
        exact h.closed ht i hi inc' hi'
      subst hij
      simp only [Function.update_self, Option.some.injEq] at hi'
      subst hi'
      rcases h.closed ht i hi jnc hj with hactive | hcloses
      · exact Or.inl (ha.advances.active hactive)
      exact closes_of_acts hcloses ha
  | write g index bytes => exact h.closed ht
  | abandon g index => exact h.closed ht
  | releaseMap g => exact h.closed ht
  | dropExport g => exact h.closed ht
  | terminate after hpc => exact fun i hi inc' hi' => Or.inr hi
  | flow pc outcome released hf =>
      by_cases hpaged : ∃ j todo after, s.producer.pc = .paged .close j todo after
      · obtain ⟨j, todo, after, hpc⟩ := hpaged
        rw [hpc] at hf
        cases hf with
        | paged _ _ _ _ jnc hj hhost =>
            intro i hi inc' hi'
            have hclosed := h.closed ht i hi inc' hi'
            rw [hpc] at hclosed
            refine hclosed.imp id fun hcloses => hcloses.resolve_right ?_
            rintro ⟨rfl, h0⟩
            have hi' : s.incarnations i = some inc' := hi'
            rw [hj, Option.some.injEq] at hi'
            rw [← hi', hhost] at h0
            cases h0
        | pagesFailed _ _ _ _ _ _ _ hne => exact absurd rfl hne
        | pagesReleased _ _ _ _ _ _ _ _ _ hne => exact absurd rfl hne
      · refine quiet ht (fun i inc hcloses => ?_) (List.Subset.refl _)
        generalize s.producer.pc = pc₀ at hf hcloses hpaged
        cases hf with
        | paged call j todo after =>
            cases call with
            | close => exact hpaged ⟨j, todo, after, rfl⟩
            | signal event => exact hcloses
        | pagesFailed call _ _ _ _ _ _ hne => cases call <;> simp_all [Pc.closes]
        | pagesReleased call _ _ _ _ _ _ _ _ hne => cases call <;> simp_all [Pc.closes]
        | finished call => cases call <;> cases hcloses
        | released call => cases call <;> cases hcloses
        | advance call => cases call <;> cases hcloses
        | dropped call => cases call <;> cases hcloses
        | _ => exact hcloses
  | page call j todo after hpc =>
      cases call with
      | signal event => exact (ended ht hpc).elim
      | close =>
          intro i hi inc' hi'
          obtain ⟨inc, hinc, ⟨hne, rfl⟩ | ⟨rfl, rfl⟩⟩ := of_onPage hi'
          · have hclosed := h.closed ht i hi inc' hinc
            rw [hpc] at hclosed
            refine hclosed.imp id fun hmem => Or.inl ?_
            exact (List.mem_cons.mp hmem).resolve_left hne
          · exact Or.inr (Or.inr ⟨rfl, rfl⟩)
  | remove j todo goal inc hpc =>
      exact quiet ht (by rw [hpc]; exact fun _ _ => id) (List.filter_subset_self _)
  | collect j todo goal hd =>
      obtain ⟨hj, hrem, c, hpc⟩ := hr.ledger.drained hd
      obtain ⟨book', -, -, -, -, heq⟩ := hr.ledger.collect_spec hj hrem todo goal
      rw [heq] at ht
      exact quiet ht (by rw [hpc]; exact fun _ _ => id) (by rw [heq]; exact List.Subset.refl _)
  | reclaim index goal r hpc hget =>
      obtain ⟨_, _, _, _, _, _, _, heq⟩ := hr.ledger.reclaim_spec (by rw [hpc]; rfl) hget goal
      rw [heq] at ht
      exact quiet ht (by rw [hpc]; exact fun _ _ => id) (by rw [heq]; exact List.Subset.refl _)
  | ready index goal r hpc hget =>
      obtain ⟨_, _, _, _, _, _, _, heq⟩ := (hr.ledger.ready r.generation).reclaim_spec
        (by rw [Arena.onMap_producer, hpc]; rfl) hget goal
      rw [heq] at ht
      exact quiet ht (by rw [hpc]; exact fun _ _ => id) (by rw [heq]; exact List.Subset.refl _)
  | begin payloadCapacity externalBytes hpc =>
      obtain ⟨o, heq⟩ | ⟨layout, book', g, -, -, -, -, -, -, -, -, -, -, -, heq⟩ :=
        hr.ledger.begin_spec (by rw [hpc]; rfl) payloadCapacity externalBytes
      · rw [heq] at ht
        exact quiet ht (by rw [hpc]; exact fun _ _ => id) (by rw [heq]; exact List.Subset.refl _)
      · rw [heq] at ht
        exact quiet ht (by rw [hpc]; exact fun _ _ => id) (by rw [heq]; exact List.Subset.refl _)
  | close call j hpc =>
      have hno : ∀ i inc, ¬ s.producer.pc.closes i inc := by
        intro i inc hcloses
        rw [hpc] at hcloses
        cases call <;> cases hcloses
      obtain ⟨e, heq⟩ | ⟨book', -, -, -, -, heq⟩ := hr.ledger.close_spec j
      · rw [heq] at ht
        exact quiet ht hno (by rw [heq]; exact List.Subset.refl _)
      · rw [heq] at ht
        exact quiet ht hno (by rw [heq]; exact List.Subset.refl _)
  | attach e holding remote hpc =>
      rw [(hr.ledger.attach_books (by rw [hpc]; rfl) e holding remote).control] at ht
      exact (ended ht hpc).elim
  | advance e hpc =>
      rw [(hr.ledger.advance_books (by rw [hpc]; rfl) e).control] at ht
      exact (ended ht hpc).elim
  | _ =>
      have hpc := ‹s.producer.pc = _›
      exact quiet ht (by rw [hpc]; exact fun _ _ => id) (List.Subset.refl _)

/-- `TERMINAL` is stored from one place only. -/
lemma terminal_acts (hl : Ledger s) (hs : s.Acts s') (ht : s'.shared.control.terminal ≠ 0) :
    s.shared.control.terminal ≠ 0 ∨ ∃ after, s.producer.pc = .terminate after ∧
      s'.producer.pc = .pages .close s.producer.claims after := by
  cases hs with
  | terminate after hpc => exact Or.inr ⟨after, hpc, rfl⟩
  | collect i todo goal hd => exact Or.inl ((hl.collect_books hd).control ▸ ht)
  | reclaim index goal r hpc hr =>
      exact Or.inl ((hl.reclaim_books (by rw [hpc]; rfl) hr goal).control ▸ ht)
  | ready index goal r hpc hr =>
      exact Or.inl ((hl.ready_books (by rw [hpc]; rfl) hr goal).control ▸ ht)
  | attach e holding remote hpc =>
      exact Or.inl ((hl.attach_books (by rw [hpc]; rfl) e holding remote).control ▸ ht)
  | advance e hpc => exact Or.inl ((hl.advance_books (by rw [hpc]; rfl) e).control ▸ ht)
  | begin payloadCapacity externalBytes hpc =>
      exact Or.inl ((hl.begin_books (by rw [hpc]; rfl) _ _).control ▸ ht)
  | close call i hpc => exact Or.inl ((hl.close_books i).control ▸ ht)
  | _ => exact Or.inl ht

/-- What stores `TERMINAL` next does so with a quiet end. -/
lemma terminates_acts (h : s.producer.pc.Terminates) (hl : Ledger s) (hs : s.Acts s') :
    s'.producer.pc.Terminates := by
  have books : s.Books s' → s'.producer.pc.Terminates := by
    intro hb
    cases hb with
    | kept _ _ _ _ _ hpc =>
        generalize s'.producer.pc = pc at hpc ⊢
        cases pc <;> trivial
    | installed _ _ _ _ _ _ _ _ hpc => rw [hpc]; trivial
  cases hs with
  | incarnation i inc inc' hi ha => exact h
  | write g index bytes => exact h
  | abandon g index => exact h
  | releaseMap g => exact h
  | dropExport g => exact h
  | flow pc outcome released hf => exact hf.terminates
  | retire w off generation hpc =>
      rw [Arena.goto]
      split_ifs
      · cases w with
        | publish source => cases source <;> trivial
        | reserve => trivial
      · trivial
  | collect i todo goal hd => exact books (hl.collect_books hd)
  | reclaim index goal r hpc hr => exact books (hl.reclaim_books (by rw [hpc]; rfl) hr goal)
  | ready index goal r hpc hr =>
      obtain ⟨_, _, _, _, _, _, _, heq⟩ := (hl.ready r.generation).reclaim_spec
        (by rw [Arena.onMap_producer, hpc]; rfl) hr goal
      rw [heq]
      trivial
  | attach e holding remote hpc => exact books (hl.attach_books (by rw [hpc]; rfl) e holding remote)
  | advance e hpc => exact books (hl.advance_books (by rw [hpc]; rfl) e)
  | begin payloadCapacity externalBytes hpc => exact books (hl.begin_books (by rw [hpc]; rfl) _ _)
  | close call i hpc => exact books (hl.close_books i)
  | _ => trivial

/-- **Every step keeps it.** -/
theorem acts (h : Stopped s) (hr : Arena.Reachable s) (hs : s.Acts s') : Stopped s' := by
  refine ⟨terminates_acts h.terminates hr.ledger hs, registers_acts hr.ledger hs h.registers,
    fun ht => ?_, fun ht => h.closed_acts hr hs ht, fun ht i inc' hpc' hi' => ?_⟩
  · rcases terminal_acts hr.ledger hs ht with h0 | ⟨after, hpc, hpc'⟩
    · exact (hs.frozen hr.ledger h0 (h.ended h0)).2
    · have hafter := h.terminates
      rw [hpc] at hafter
      rw [hpc']
      exact hafter
  · rcases terminal_acts hr.ledger hs ht with h0 | ⟨after, hpc, hpc''⟩
    · cases hi : s.incarnations i with
      | none =>
          rw [(hs.frozen hr.ledger h0 (h.ended h0)).1.incarnations i hi] at hi'
          cases hi'
      | some inc =>
          have hactive : inc.page.active = 0 := by
            rcases offering_cases hr.ledger hs hpc' with ⟨hpc, -⟩ | ⟨hpc, hmem, -⟩
            · exact (h.offering h0 i inc hpc hi).active
            · refine (h.closed h0 i hmem inc hi).resolve_right ?_
              rw [hpc]
              exact id
          exact doomed_acts hr.ledger hs h.registers hi hi' hactive
            (fun hpc => h.offering h0 i inc hpc hi) hpc'
    · rw [hpc''] at hpc'
      cases hpc'

lemma of_create {page : ℕ} {config : ArenaConfig} {externalBytes : ℕ} {native : Bool}
    (h : Arena.create page config externalBytes native = .ok s) : Stopped s := by
  rw [Arena.create] at h
  obtain ⟨x, -, h⟩ := of_bind_ok h
  cases h
  exact ⟨trivial, by rintro i inc ⟨⟩, fun h0 => absurd rfl h0, fun h0 => absurd rfl h0,
    fun h0 => absurd rfl h0⟩

end Stopped

/-- The producer's calls behind `TERMINAL`, in every reachable arena. -/
theorem Arena.Reachable.stopped {s : Arena} (h : Reachable s) : Stopped s :=
  h.induct (fun _ _ _ _ _ h₀ => Stopped.of_create h₀) fun _ _ ha hp hs => hp.acts ha hs

end Jackstay.Acquisition
