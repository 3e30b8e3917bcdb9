import Jackstay.Acquisition.Arena.Attending
import Jackstay.Acquisition.Arena.Conformance
import Jackstay.Acquisition.Arena.Leases

/-!
`ArenaError::Mapping`: where an acquisition can report that the metadata of a frame is
corrupt.

* `Incarnation.step_outcomes`: besides the steps of an acquisition, nothing gives a claim
  an outcome; the producer's own code leaves the claims alone (`Attended.uses`).
* `Faultless`: no acquisition reports, or is about to report, corrupt metadata.
* `faultless_of_conforms`: that holds along every run of a conforming producer.
-/

namespace Jackstay.Acquisition

open Transition

/-- `Err(ArenaError::Mapping(..))`. -/
def AcquireOutcome.corrupt : AcquireOutcome → Bool
  | .error (.mapping _) => true
  | _ => false

/-! ### The outcomes of claims -/

/-- **Besides a step of `acquire` itself, nothing gives a claim an outcome.** -/
lemma Incarnation.step_outcomes {sh : Shared} {inc inc' : Incarnation} {l : IncLabel}
    (h : inc.step sh l = some inc') (hl : ∀ k e, l ≠ .use k e) (k : ℕ) (u' : Use)
    (hu' : inc'.uses k = some u') :
    u'.outcome = none ∨ ∃ u, inc.uses k = some u ∧ u'.outcome = u.outcome := by
  have same : inc'.uses = inc.uses → u'.outcome = none ∨
      ∃ u, inc.uses k = some u ∧ u'.outcome = u.outcome :=
    fun heq => Or.inr ⟨u', heq ▸ hu', rfl⟩
  have changed : ∀ {j : ℕ} {x : Option Use}, inc'.uses = Function.update inc.uses j x →
      (∀ v, x = some v → v.outcome = none ∨ ∃ u, inc.uses j = some u ∧ v.outcome = u.outcome) →
      u'.outcome = none ∨ ∃ u, inc.uses k = some u ∧ u'.outcome = u.outcome := by
    intro j x heq hx
    rw [heq] at hu'
    by_cases hk : k = j
    · subst hk
      rw [Function.update_self] at hu'
      exact hx u' hu'
    · rw [Function.update_of_ne hk] at hu'
      exact Or.inr ⟨u', hu', rfl⟩
  have dropped : ∀ {m : ℕ} {place : Place} {todo : List ThreadOp},
      inc.dropSetup m place todo = some inc' → inc'.uses = inc.uses := by
    intro m place todo hd
    obtain ⟨role, -, rfl⟩ := dropSetup_shape hd
    rfl
  cases l with
  | use j e => exact absurd rfl (hl j e)
  | call t =>
      simp only [step] at h
      split_ifs at h
      obtain ⟨call, -, ⟨pc, -, rfl⟩ | ⟨o, -, rfl⟩ | ⟨c, index, j, m, x, -, -, -, rfl⟩⟩ :=
        callStep_shape h
      · exact same rfl
      · exact same rfl
      · refine changed rfl fun v hv => ?_
        cases hv
        exact Or.inl rfl
  | release j =>
      simp only [step] at h
      split at h
      · rename_i u hu
        split_ifs at h
        cases h
        refine changed rfl fun v hv => ?_
        cases hv
        exact Or.inr ⟨u, hu, rfl⟩
      · cases h
  | defer j t v e =>
      simp only [step] at h
      split at h
      · rename_i u hu
        split at h
        · split_ifs at h
          rw [Option.some.injEq, handoff] at h
          split_ifs at h
          · subst h
            exact same rfl
          · subst h
            exact same rfl
          · subst h
            refine changed rfl fun v hv => ?_
            cases hv
            exact Or.inr ⟨u, hu, rfl⟩
        · cases h
      · cases h
  | waiter e =>
      simp only [step] at h
      split at h
      · split_ifs at h
        obtain ⟨waiter, interest, bytes, rfl⟩ := waiterStep_shape h
        exact same rfl
      · cases h
  | thread t e =>
      obtain ⟨op, rest, role, i, next, -, -, hop, rfl⟩ := threadStep_shape h
      obtain ⟨a, q, c, ms, g, maps, consumer, todo, sources, w, returns, rfl, -⟩ :=
        ThreadOp.exec_shape hop
      exact same rfl
  | retire e =>
      obtain ⟨op, rest, htodo, hx, rfl⟩ := retireStep_shape h
      obtain ⟨-, ⟨-, hu⟩ | ⟨j, rfl, -, hu⟩⟩ := op.exec_client e
        { inc with retirement := { inc.retirement with todo := rest } }
      · exact same hu
      · refine changed hu fun v hv => ?_
        obtain ⟨u, huse, rfl⟩ := Option.map_eq_some_iff.mp hv
        exact Or.inr ⟨u, huse, rfl⟩
  | observe e =>
      obtain ⟨op, rest, htodo, rfl⟩ := observeStep_shape h
      obtain ⟨-, -, -, -, hu | ⟨j, b, rfl, hu⟩⟩ := op.exec_client sh.native e inc
      · exact same hu
      · exact changed hu (by rintro v ⟨⟩)
  | host e =>
      obtain ⟨op, rest, -, rfl⟩ := hostStep_shape h
      obtain ⟨a, q, c, ms, g, maps, w, fault, reply, hx⟩ := op.exec_shape e inc
      exact same (by simp only [hx])
  | fromGrant e =>
      simp only [step] at h
      split at h
      · split_ifs at h
        · exact same (dropped h)
        · cases h
          exact same rfl
      · cases h
  | dropGrant =>
      simp only [step] at h
      split at h
      · exact same (dropped h)
      · cases h
  | dropOffer m =>
      simp only [step] at h
      split at h
      · exact same (dropped h)
      · cases h
  | exportGrant =>
      simp only [step] at h
      split at h <;> cases h
      exact same rfl
  | importGrant | exportOffer | importOffer | install =>
      simp only [step] at h
      split at h
      · split_ifs at h
        cases h
        exact same rfl
      · cases h
  | _ =>
      simp only [step] at h
      split_ifs at h
      cases h
      exact same rfl

/-- **No acquisition reports, or is about to report, corrupt metadata.** -/
structure Incarnation.Faultless (inc : Incarnation) : Prop where
  uses : ∀ k u, inc.uses k = some u → ∀ o, u.outcome = some o → o.corrupt = false
  pending : ∀ r, inc.owes r → r.outcome.corrupt = false
  returns : ∀ r ∈ inc.returns, r.outcome.corrupt = false

namespace Arena

variable {s s' a b : Arena} {l : Label} {pool : ℕ → NativePool}

/-- A call that publishes no claim does not report corrupt metadata: the advertised slot
is one of the map. -/
lemma done_not_corrupt (hr : Reachable a) {i : ℕ} {inc : Incarnation}
    (hi : a.incarnations i = some inc) {call : AcquireCall} (hcall : call ∈ inc.calls)
    {o : AcquireOutcome} (hnext : call.next a.shared inc = some (.done o)) : o.corrupt = false := by
  have hwithin := (hr.ordered hi).calls call hcall
  obtain ⟨client, request, pc⟩ := call
  have htry : ∀ {frames cursor index k : ℕ},
      AcquireCall.tryClaim frames cursor index k = .done o → o.corrupt = false := by
    intro frames cursor index k h0
    rw [AcquireCall.tryClaim] at h0
    split_ifs at h0
    cases h0
    rfl
  cases pc with
  | latest | active | terminal =>
      simp only [AcquireCall.next, Option.some.injEq] at hnext
      split_ifs at hnext
      cases hnext
      rfl
  | configuration latest =>
      simp only [AcquireCall.next, Option.some.injEq] at hnext
      split_ifs at hnext
      · cases request <;> simp only [AcquireCall.checkLatest] at hnext <;>
          split_ifs at hnext <;> cases hnext <;> rfl
      · cases hnext
        rfl
  | first latest =>
      simp only [AcquireCall.next, Option.some.injEq] at hnext
      cases request <;> simp only [AcquireCall.checkFirst] at hnext <;>
        split_ifs at hnext <;> cases hnext <;> rfl
  | ring cursor =>
      simp only [AcquireCall.next] at hnext
      split at hnext
      · cases hnext
      rename_i mapping hmapping
      by_cases hzero : cursor = 0
      · rw [if_pos hzero] at hnext
        cases hnext
      rw [if_neg hzero] at hnext
      have hring := hr.ringed (Nat.pos_of_ne_zero hzero) hwithin.2 mapping.generation
      split_ifs at hnext with hbad
      · rcases hbad with hbad | hbad <;> omega
      · exact htry (Option.some.inj hnext)
  | claim cursor index k =>
      simp only [AcquireCall.next, Option.some.injEq] at hnext
      split_ifs at hnext
      exact htry hnext

/-- **The descriptor that a validated claim copies** is the logged one, and is within the
bounds of its slot. -/
lemma describe_spec (hr : Reachable s) {i k : ℕ} {inc : Incarnation} {u : Use}
    (hi : s.incarnations i = some inc) (hu : inc.uses k = some u) (hv : u.validated = true) :
    ∃ p, s.log u.cursor = some p ∧ p.generation = u.generation ∧
      (s.record u.generation u.index).descriptor = p.descriptor ∧
      p.descriptor.cursor = u.cursor ∧
      p.descriptor.payloadOffset = (s.shared.maps u.generation).layout.payloadOffset u.index ∧
      p.descriptor.payloadLen ≤ (s.shared.maps u.generation).layout.payloadCapacity := by
  obtain ⟨⟨p, hp, hg, hindex, hd, -⟩, -⟩ := hr.exclusive.pinned i k u ⟨inc, hi, hu, hv⟩
  have hdescribed := hr.retention.described u.cursor p hp
  refine ⟨p, hp, hg, hd, (hr.published.logs u.cursor p hp).1, ?_, ?_⟩
  · rw [hdescribed.payloadOffset, hg, hindex]
  · rw [← hg]
    exact hdescribed.payloadLen

/-- **A step of `acquire` reports no corrupt metadata**: the checks of the leased descriptor
pass, those of the attachment with the others. -/
lemma useStep_outcomes (hr : ReachableIn (Conforms pool) a) {i k : ℕ} {inc inc' : Incarnation}
    {u : Use} {e : Env} (hi : a.incarnations i = some inc) (hu : inc.uses k = some u)
    (hC : Conforms pool a (.incarnation i (.use k e)))
    (hs : inc.useStep a.shared e k u = some inc') (j : ℕ) (u' : Use)
    (hu' : inc'.uses j = some u') :
    (∃ u, inc.uses j = some u ∧ u'.outcome = u.outcome) ∨
      ∃ o, u'.outcome = some o ∧ o.corrupt = false := by
  have hreach : Reachable a := hr.reachable
  have changed : ∀ {x : Option Use}, inc'.uses = Function.update inc.uses k x →
      (∀ v, x = some v → v.outcome = u.outcome ∨ ∃ o, v.outcome = some o ∧ o.corrupt = false) →
      (∃ u, inc.uses j = some u ∧ u'.outcome = u.outcome) ∨
        ∃ o, u'.outcome = some o ∧ o.corrupt = false := by
    intro x heq hx
    rw [heq] at hu'
    by_cases hj : j = k
    · subst hj
      rw [Function.update_self] at hu'
      exact (hx u' hu').imp (fun h0 => ⟨u, hu, h0⟩) id
    · rw [Function.update_of_ne hj] at hu'
      exact Or.inl ⟨u', hu', rfl⟩
  cases hpc : u.pc with
  | validate =>
      simp only [Incarnation.useStep, hpc, Option.some.injEq] at hs
      split_ifs at hs <;> subst hs <;> refine changed rfl fun v hv => ?_ <;> cases hv
      · exact Or.inr ⟨_, rfl, rfl⟩
      · exact Or.inl rfl
  | active | terminal | configuration =>
      simp only [Incarnation.useStep, hpc, Option.some.injEq] at hs
      split_ifs at hs <;> subst hs <;> refine changed rfl fun v hv => ?_ <;> cases hv
      · exact Or.inr ⟨_, rfl, rfl⟩
      · exact Or.inl rfl
  | describe =>
      have hv := ((hreach.leases i inc hi).uses k u hu).validated hpc
      obtain ⟨p, hp, hg, hd, hcursor, hoffset, hlen⟩ := describe_spec hreach hi hu hv
      have hd : ((a.shared.maps u.generation).records u.index).descriptor = p.descriptor := hd
      simp only [Incarnation.useStep, hpc, Option.some.injEq] at hs
      split_ifs at hs with hbad hfail
      · rw [hd] at hbad
        rcases hbad with hbad | hbad | hbad
        · exact absurd hcursor hbad
        · exact absurd hoffset hbad
        · omega
      · have haccepts := accepted_of_conforms hr hfail.1 hp
        have hrejects := hC hfail.1 hfail.2 inc u hi hu hpc
        rw [Accepts, hg] at haccepts
        rw [hd, haccepts] at hrejects
        cases hrejects
      · subst hs
        refine changed rfl fun v hv => ?_
        cases hv
        exact Or.inl rfl
  | returnPending =>
      simp only [Incarnation.useStep, hpc, Option.some.injEq] at hs
      subst hs
      refine changed rfl fun v hv => ?_
      cases hv
      exact Or.inl rfl
  | returnClaim =>
      simp only [Incarnation.useStep, hpc, Option.some.injEq] at hs
      subst hs
      exact changed rfl (by rintro v ⟨⟩)
  | leased | handing | deferred =>
      simp only [Incarnation.useStep, hpc] at hs
      cases hs

/-- **Where the outcome of a claim comes from** in a step of a conforming run. -/
lemma step_outcomes (hr : ReachableIn (Conforms pool) a) (hC : Conforms pool a l)
    (hs : a.step l = some b) {i k : ℕ} {inc' : Incarnation} {u' : Use} {o : AcquireOutcome}
    (hi' : b.incarnations i = some inc') (hu' : inc'.uses k = some u')
    (ho : u'.outcome = some o) :
    o.corrupt = false ∨ ∃ inc u, a.incarnations i = some inc ∧ inc.uses k = some u ∧
      u.outcome = some o := by
  have same : (∀ j m, l ≠ .incarnation j m) → o.corrupt = false ∨ ∃ inc u,
      a.incarnations i = some inc ∧ inc.uses k = some u ∧ u.outcome = some o := by
    intro hne
    have hl := hr.reachable.ledger
    cases hi : a.incarnations i with
    | none =>
        obtain ⟨frames, remote, g, rfl⟩ := (acts_of_step hs).new_of_none hl hi hi'
        cases hu'
    | some inc =>
        have huses := (attends_of_step hl hne hs i inc inc' hi hi').uses
        exact Or.inr ⟨inc, u', rfl, huses ▸ hu', ho⟩
  cases l with
  | incarnation j l =>
      simp only [Arena.step, Option.bind_eq_bind, Option.bind_eq_some_iff] at hs
      obtain ⟨inc, hj, inc₁, hstep, heq⟩ := hs
      cases heq
      by_cases hij : i = j
      · subst hij
        simp only [Function.update_self, Option.some.injEq] at hi'
        subst hi'
        by_cases huse : ∃ k e, l = .use k e
        · obtain ⟨k₀, e, rfl⟩ := huse
          simp only [Incarnation.step] at hstep
          split at hstep
          · rename_i u₀ hu₀
            split_ifs at hstep
            rcases useStep_outcomes hr hj hu₀ hC hstep k u' hu' with ⟨u, hu, heq⟩ | ⟨o', ho', hok⟩
            · exact Or.inr ⟨inc, u, hj, hu, heq ▸ ho⟩
            · rw [ho'] at ho
              cases ho
              exact Or.inl hok
          · cases hstep
        · have hnot : ∀ k e, l ≠ .use k e := fun k e h0 => huse ⟨k, e, h0⟩
          rcases inc.step_outcomes hstep hnot k u' hu' with hnone | ⟨u, hu, heq⟩
          · rw [hnone] at ho
            cases ho
          · exact Or.inr ⟨inc, u, hj, hu, heq ▸ ho⟩
      · simp only [Function.update_of_ne hij] at hi'
        exact Or.inr ⟨inc', u', hi', hu', ho⟩
  | _ => exact same (by rintro _ _ ⟨⟩)

/-- **One step of a conforming run.** -/
lemma faultless_step (hr : ReachableIn (Conforms pool) a)
    (h : ∀ i inc, a.incarnations i = some inc → inc.Faultless) (hC : Conforms pool a l)
    (hs : a.step l = some b) (i : ℕ) (inc' : Incarnation) (hi' : b.incarnations i = some inc') :
    inc'.Faultless := by
  have hreach : Reachable a := hr.reachable
  have hacts := acts_of_step hs
  have huses : ∀ k u, inc'.uses k = some u → ∀ o, u.outcome = some o → o.corrupt = false := by
    intro k u hu o ho
    rcases step_outcomes hr hC hs hi' hu ho with hok | ⟨inc, u₀, hi, hu₀, ho₀⟩
    · exact hok
    · exact (h i inc hi).uses k u₀ hu₀ o ho₀
  cases hi : a.incarnations i with
  | none =>
      obtain ⟨frames, remote, g, rfl⟩ := hacts.new_of_none hreach.ledger hi hi'
      exact ⟨huses, fun r hr => (nomatch hr.choose_spec.1), fun r hr => (nomatch hr)⟩
  | some inc =>
      have hinc := h i inc hi
      rcases hacts.move hreach.ledger hi hi' with rfl | hm
      · exact hinc
      refine ⟨huses, fun r hr => ?_, fun r hr => ?_⟩
      · rcases hm.reports.pending r hr with hr | ⟨k, u, hu, ho, -⟩
        · exact hinc.pending r hr
        · exact hinc.uses k u hu _ ho
      · obtain ⟨new, heq, hnew⟩ := hm.reports.returns
        rw [heq, List.mem_append] at hr
        rcases hr with hr | hr
        · exact hinc.returns r hr
        rcases hnew r hr with hr | ⟨call, hcall, hn, -⟩ | ⟨k, u, -, -, -, -, rfl⟩
        · exact hinc.pending r hr
        · exact done_not_corrupt hreach hi hcall hn
        · rfl

/-- **Along every run of a conforming producer no acquisition reports corrupt metadata.** -/
theorem faultless_of_conforms (h : ReachableIn (Conforms pool) s) {i : ℕ} {inc : Incarnation}
    (hi : s.incarnations i = some inc) : inc.Faultless := by
  obtain ⟨page, config, externalBytes, native, s₀, h₀, hrun⟩ := h
  induction hrun generalizing i inc with
  | refl =>
      rw [create] at h₀
      obtain ⟨x, -, h₀⟩ := of_bind_ok h₀
      cases h₀
      cases hi
  | tail hrun hC hs ih =>
      exact faultless_step ⟨page, config, externalBytes, native, s₀, h₀, hrun⟩
        (fun j x hj => ih hj) hC hs i inc hi

end Arena

end Jackstay.Acquisition
