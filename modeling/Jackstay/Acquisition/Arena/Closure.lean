import Jackstay.Acquisition.Arena.Leases
import Jackstay.Acquisition.Arena.Offers
import Jackstay.Acquisition.Arena.Refusals

/-!
Closure is final and never revokes.

* `Failing`: a call of the producer that `TERMINAL`, or a closed page, ends with an error.
* `Shut`, `ShutPage`, `ClosedPage`: what the arena, and one of its claim pages, refuse
  behind the gate.
* `closure_final`: these, the words that never go back, and what leases keep.
-/

namespace Jackstay.Acquisition

namespace Arena

open Transition

variable {s s' : Arena}

/-! ### Calls of the producer -/

/-- The calls that publish, reserve, admit, offer, configure or export. -/
def Op.Changes : Op → Prop
  | .publish _ => True
  | .reserve => True
  | .commit _ _ _ => True
  | .attach _ _ => True
  | .reconfigureCpu _ => True
  | .reconfigureNative _ => True
  | .advanceReconfiguration => True
  | .configurationOffer _ => True
  | .exportWriter => True
  | _ => False

/-- **A call on its way to an error**, or at its end. -/
def Failing (s : Arena) : Prop :=
  match s.producer.pc with
  | .idle => ∃ e, s.producer.outcome = .error e
  | .terminal _ => s.shared.control.terminal ≠ 0
  | .commit _ _ _ => s.shared.control.terminal ≠ 0
  | .begin _ _ => s.shared.control.terminal ≠ 0
  | .exporting => s.shared.control.terminal ≠ 0
  | .release _ _ o => ∃ e, o = .error e
  | .offering i => ∃ inc, s.incarnations i = some inc ∧ inc.Doomed
  | _ => False

/-- The producer's call goes on, and nothing else is called. -/
def Returning (_ : Arena) (l : Label) : Prop := ∀ op, l ≠ .call op

/-- An offer that begins on a closed page fails. -/
lemma failing_of_offer {i : ℕ} {inc : Incarnation} (hi : s.incarnations i = some inc)
    (hactive : inc.page.active = 0)
    (h : s.begin (.configurationOffer i) = some s') : s'.Failing := by
  simp only [begin, Option.some.injEq] at h
  subst h
  split_ifs
  · have hpage : (s.callPage i [.offerActive s.producer.resources]).incarnations i =
        some { inc with
          host := [.offerActive s.producer.resources]
          hostFault := false
          reply := .done } := by
      simp only [callPage, onPage, Function.update_self, hi, Option.map_some]
    exact ⟨_, hpage, hactive, Or.inl ⟨_, rfl⟩⟩
  · exact ⟨_, rfl⟩

/-- **Behind `TERMINAL` every such call begins on its way to an error.** -/
lemma failing_of_begin (hr : Reachable s) (ht : s.shared.control.terminal ≠ 0) {op : Op}
    (hop : op.Changes) (hpc : s.producer.pc = .idle) (h : s.begin op = some s') :
    s'.Failing := by
  cases op with
  | publish source =>
      cases source with
      | cpu descriptor bytes =>
          cases h
          exact ht
      | native =>
          simp only [begin, Option.some.injEq] at h
          subst h
          split_ifs
          · exact ⟨_, rfl⟩
          · exact ht
  | reserve =>
      simp only [begin, Option.some.injEq] at h
      subst h
      split_ifs
      · exact ⟨_, rfl⟩
      · exact ht
  | commit g index descriptor =>
      rw [begin] at h
      split_ifs at h
      cases h
      exact ht
  | attach holding remote =>
      cases h
      exact ht
  | reconfigureCpu payloadCapacity =>
      simp only [begin, Option.some.injEq] at h
      subst h
      split_ifs
      · exact ⟨_, rfl⟩
      · exact ht
  | reconfigureNative externalBytes =>
      simp only [begin, Option.some.injEq] at h
      subst h
      split_ifs
      · exact ht
      · exact ⟨_, rfl⟩
  | advanceReconfiguration =>
      cases h
      exact ht
  | configurationOffer i =>
      by_cases hi : i ∈ s.producer.claims
      · obtain ⟨inc, hinc, -⟩ := hr.ledger.tracked i hi
        refine failing_of_offer hinc ?_ h
        refine (hr.stopped.closed ht i hi inc hinc).resolve_right ?_
        rw [hpc]
        exact id
      · simp only [begin, if_neg hi, Option.some.injEq] at h
        subst h
        exact ⟨_, rfl⟩
  | exportWriter =>
      simp only [begin, Option.some.injEq] at h
      subst h
      split_ifs
      · exact ⟨_, rfl⟩
      · exact ht
  | _ => exact hop.elim

/-- The producer goes on to the error. -/
lemma Failing.producerStep (h : s.Failing) {e : Env} (hs : s.producerStep e = some s') :
    s'.Failing := by
  rw [Failing] at h
  rw [Arena.producerStep] at hs
  cases hpc : s.producer.pc with
  | terminal goal =>
      simp only [hpc] at h hs
      rw [if_pos h, Option.some.injEq] at hs
      subst hs
      exact ⟨_, rfl⟩
  | commit g index descriptor =>
      simp only [hpc, publishStep, Option.some.injEq] at h hs
      rw [if_pos h] at hs
      subst hs
      exact ⟨_, rfl⟩
  | begin payloadCapacity externalBytes =>
      simp only [hpc, reconfigureStep, beginReconfiguration, Option.some.injEq] at h hs
      rw [if_pos h] at hs
      subst hs
      exact ⟨_, rfl⟩
  | exporting =>
      simp only [hpc, pagesStep, Option.some.injEq] at h hs
      rw [if_pos h] at hs
      subst hs
      exact ⟨_, rfl⟩
  | release g index o =>
      simp only [hpc, publishStep, Option.some.injEq] at h hs
      subst hs
      exact h
  | offering i =>
      simp only [hpc, pagesStep] at h hs
      obtain ⟨inc, hi, hdoomed⟩ := h
      simp only [hi, Option.bind_eq_bind, Option.bind_some] at hs
      split_ifs at hs with hhost
      rcases hdoomed.call with ⟨g, h0⟩ | ⟨-, hreply⟩
      · rw [hhost] at h0
        cases h0
      · rw [hreply] at hs
        cases hs
        exact ⟨_, rfl⟩
  | idle => simp [hpc] at hs
  | _ => simp [hpc] at h

/-- **Every step but another call keeps it.** -/
lemma Failing.step (hr : Reachable s) (h : s.Failing) {l : Label} (hl : Returning s l)
    (hs : s.step l = some s') : s'.Failing := by
  cases l with
  | call op => exact absurd rfl (hl op)
  | producer e => exact h.producerStep hs
  | incarnation i l =>
      obtain ⟨inc, hi, hs⟩ := Option.bind_eq_some_iff.mp hs
      obtain ⟨inc', hstep, hs⟩ := Option.bind_eq_some_iff.mp hs
      cases hs
      rw [Failing] at h ⊢
      dsimp only
      cases hpc : s.producer.pc with
      | offering j =>
          rw [hpc] at h
          obtain ⟨jnc, hj, hdoomed⟩ := h
          by_cases hij : j = i
          · subst hij
            rw [hi, Option.some.injEq] at hj
            subst hj
            refine ⟨inc', Function.update_self _ _ _,
              hdoomed.acts (fun hreg => ?_) (Incarnation.acts_of_step hstep)⟩
            have := hpc.symm.trans (hr.stopped.registers j inc hi hreg)
            cases this
          · exact ⟨jnc, by rw [Function.update_of_ne hij]; exact hj, hdoomed⟩
      | _ =>
          rw [hpc] at h
          exact h
  | write g index bytes =>
      simp only [Arena.step] at hs
      split_ifs at hs
      cases hs
      exact h
  | abandon g index =>
      simp only [Arena.step] at hs
      split_ifs at hs
      cases hs
      exact h
  | releaseMap g =>
      simp only [Arena.step] at hs
      split_ifs at hs
      cases hs
      exact h
  | dropExport g =>
      simp only [Arena.step] at hs
      split_ifs at hs
      cases hs
      exact h

/-- A failing call returns an error. -/
lemma Failing.error (hr : Reachable s) (h : s.Failing) (hrun : Reaches Arena.step Returning s s')
    (hpc : s'.producer.pc = .idle) : ∃ e, s'.producer.outcome = .error e := by
  have hfailing : s'.Failing := hrun.invariant_with (P := Failing) (Q := Reachable)
    (fun a ha => hr.run ha) h fun a l b ha hp hl hs => hp.step ha hl hs
  rw [Failing, hpc] at hfailing
  exact hfailing

/-! ### The theorem -/

/-- **Behind `TERMINAL`**: the words and fields of `Frozen` stay, and every call that would
change them ends with an error. -/
structure Shut (s : Arena) : Prop where
  frozen : ∀ s', Reaches step Always s s' → Frozen s s'
  fails : ∀ op s₁ s₂, op.Changes → s.step (.call op) = some s₁ →
    Reaches step Returning s₁ s₂ → s₂.producer.pc = .idle → ∃ e, s₂.producer.outcome = .error e

/-- **Behind the gate of one incarnation**: it stays closed, and what its consumer begins
from here on is refused. -/
structure ShutPage (s : Arena) (i : ℕ) (inc : Incarnation) : Prop where
  gated : ∀ s' inc', Reaches step Always s s' → s'.incarnations i = some inc' →
    inc'.Gated s'.shared
  acquire : ∀ client, inc.Idle client → ∀ s' inc', Reaches step Always s s' →
    s'.incarnations i = some inc' → ∃ new, inc'.returns = inc.returns ++ new ∧
      ∀ r ∈ new, r.client = client → r.Refused
  install : inc.consumer.isSome = true →
    (∀ t ∈ inc.threads, ∀ op ∈ t.todo, ∀ m, ¬ op.Installs m) → ∀ s' inc',
    Reaches step Always s s' → s'.incarnations i = some inc' →
      inc'.consumer.bind Consumer.resources = inc.consumer.bind Consumer.resources ∨
      inc'.consumer.bind Consumer.resources = none
  wait : inc.waiter = none → ∀ s' inc' w events, Reaches step Always s s' →
    s'.incarnations i = some inc' → inc'.waiter = some w →
    w.pc = .disarm (.changed events) → events.closed = true

/-- **Behind a cleared `ACTIVE`**: it stays clear, and an offer ends with an error. -/
structure ClosedPage (s : Arena) (i : ℕ) : Prop where
  active : ∀ s' inc', Reaches step Always s s' → s'.incarnations i = some inc' →
    inc'.page.active = 0
  offer : ∀ s₁ s₂, s.step (.call (.configurationOffer i)) = some s₁ →
    Reaches step Returning s₁ s₂ → s₂.producer.pc = .idle → ∃ e, s₂.producer.outcome = .error e

lemma Reachable.shut (hr : Reachable s) (ht : s.shared.control.terminal ≠ 0) : s.Shut := by
  constructor
  case frozen =>
      intro s' hrun
      refine hrun.invariant_with (P := Frozen s) (Q := Reachable) (fun a ha => hr.run ha)
        (.refl ht) fun a l b ha hfrozen _ hstep => hfrozen.trans ?_
      exact ((acts_of_step hstep).frozen ha.ledger hfrozen.terminal
        (ha.stopped.ended hfrozen.terminal)).1
  case fails =>
      intro op s₁ s₂ hop hstep hrun hpc
      have hcall : s.producer.pc = .idle ∧ s.begin op = some s₁ := by
        simpa only [step, Option.ite_none_right_eq_some] using hstep
      exact (failing_of_begin hr ht hop hcall.1 hcall.2).error (hr.tail hstep) hrun hpc

/-- What follows from the state of one incarnation, in every later state of it. -/
lemma Reachable.follow_move {P : Shared → Incarnation → Prop} (hr : Reachable s) {i : ℕ}
    {inc : Incarnation} (hi : s.incarnations i = some inc) (h₀ : P s.shared inc)
    (hmove : ∀ a inc inc', Reachable a → a.incarnations i = some inc → P a.shared inc →
      inc.Move a.shared inc' → P a.shared inc')
    (hmono : ∀ sh sh' inc, (sh.control.terminal ≠ 0 → sh'.control.terminal ≠ 0) →
      P sh inc → P sh' inc) :
    ∀ s' inc', Reaches step Always s s' → s'.incarnations i = some inc' → P s'.shared inc' := by
  intro s' inc' hrun hi'
  obtain ⟨jnc, hj, hp⟩ := hr.follow hi h₀ (fun a _ x x' ha _ => hmove a x x' ha)
    (fun a b x ha hs => hmono a.shared b.shared x (hs.terminal ha.ledger)) hrun
  rw [hi', Option.some.injEq] at hj
  exact hj ▸ hp

lemma Reachable.shutPage (hr : Reachable s) {i : ℕ} {inc : Incarnation}
    (hi : s.incarnations i = some inc) (hg : inc.Gated s.shared) : s.ShutPage i inc := by
  constructor
  case gated =>
      exact hr.follow_move (P := fun sh inc => inc.Gated sh) hi hg
        (fun _ _ _ _ _ h hm => h.move hm) fun _ _ _ ht h => h.mono ht
  case acquire =>
      intro client hidle s' inc' hrun hi'
      exact (hr.follow_move (P := fun sh x => x.Refuses client sh ∧
          ∃ new, x.returns = inc.returns ++ new ∧ ∀ r ∈ new, r.client = client → r.Refused)
        hi ⟨hidle.refuses hg, [], (List.append_nil _).symm, fun r h0 => (nomatch h0)⟩
        (by
          rintro a x x' ha hx ⟨h, new, heq, hnew⟩ hm
          obtain ⟨h', new', heq', hnew'⟩ := h.move (ha.handoffs hx) hm
          refine ⟨h', new ++ new', by rw [heq', heq, List.append_assoc], fun r hr => ?_⟩
          rcases List.mem_append.mp hr with hr | hr
          · exact hnew r hr
          · exact hnew' r hr)
        (fun sh sh' x ht h => ⟨h.1.mono ht, h.2⟩) s' inc' hrun hi').2
  case install =>
      intro hcons hnone s' inc' hrun hi'
      have hl := (hr.lifetime i inc hi).2
      have hungranted : ¬ inc.granted := by
        intro h0
        rw [(hl.granted h0).1.consumer] at hcons
        cases hcons
      exact (hr.follow_move (P := fun sh x => x.Unchanged _ sh) hi
        ⟨hg, hungranted, fun t ht op hop m hinst => absurd hinst (hnone t ht op hop m), Or.inl rfl⟩
        (fun a x x' ha hx h hm => h.move (ha.lifetime i x hx).2 hm)
        (fun sh sh' x ht h => h.mono ht) s' inc' hrun hi').resources
  case wait =>
      intro hnone s' inc' w events hrun hi' hw hpc
      have htold := (hr.follow_move
        (P := fun sh x => x.Gated sh ∧ ∀ w, x.waiter = some w → w.Told sh) hi
        ⟨hg, fun w h0 => by rw [hnone] at h0; cases h0⟩
        (fun a x x' ha hx h hm => ⟨h.1.move hm, Incarnation.told_of_move h.1 hm h.2⟩)
        (fun sh sh' x ht h => ⟨h.1.mono ht, fun w hw => Incarnation.told_mono (h.2 w hw) ht⟩)
        s' inc' hrun hi').2 w hw
      rw [Waiter.Told, hpc] at htold
      exact htold

lemma Reachable.closedPage (hr : Reachable s) {i : ℕ} {inc : Incarnation}
    (hi : s.incarnations i = some inc) (hactive : inc.page.active = 0) : s.ClosedPage i := by
  constructor
  case active =>
      exact hr.follow_move (P := fun _ x => x.page.active = 0) hi hactive
        (fun _ _ _ _ _ h hm => hm.advances.active h) fun _ _ _ _ h => h
  case offer =>
      intro s₁ s₂ hstep hrun hpc
      have hcall : s.producer.pc = .idle ∧ s.begin (.configurationOffer i) = some s₁ := by
        simpa only [step, Option.ite_none_right_eq_some] using hstep
      exact (failing_of_offer hi hactive hcall.2).error (hr.tail hstep) hrun hpc

/-- The steps before which the capacity epoch of a page has not reached its last value. -/
def Counting (i : ℕ) (s : Arena) (_ : Label) : Prop :=
  ∀ inc, s.incarnations i = some inc → inc.page.capacityEpoch + 1 < 2 ^ 64

lemma Reachable.capacityEpoch_le (hr : Reachable s) {i : ℕ} {inc : Incarnation}
    (hi : s.incarnations i = some inc) (hrun : Reaches step (Counting i) s s') :
    ∃ inc', s'.incarnations i = some inc' ∧
      inc.page.capacityEpoch ≤ inc'.page.capacityEpoch := by
  refine hr.follow (P := fun _ x => inc.page.capacityEpoch ≤ x.page.capacityEpoch) hi le_rfl
    (fun a l x x' ha hC hx h hm => ?_) (fun _ _ _ _ _ h => h) hrun
  exact h.trans (hm.advances.capacity (hC x hx))

/-- The two words that a waiter reads from the control map never go back. -/
lemma Reachable.words_le (hr : Reachable s) (hrun : Reaches step Always s s') :
    s.shared.control.latest ≤ s'.shared.control.latest ∧
    s.shared.control.reconfigurationEpoch ≤ s'.shared.control.reconfigurationEpoch := by
  refine hrun.invariant_with (P := fun a => s.shared.control.latest ≤ a.shared.control.latest ∧
    s.shared.control.reconfigurationEpoch ≤ a.shared.control.reconfigurationEpoch)
    (Q := Reachable) (fun a ha => hr.run ha) ⟨le_rfl, le_rfl⟩ ?_
  intro a l b ha hp _ hstep
  have hs := acts_of_step hstep
  exact ⟨hp.1.trans (hs.latest_le ha.ledger ha.published),
    hp.2.trans (hs.reconfigurationEpoch_le ha.ledger)⟩

/-- **Closure is final and never revokes.** In every reachable arena:

* behind `TERMINAL` no cursor, generation, allocation or incarnation is made any more, and
  the calls that would make one fail;
* behind the gate of an incarnation, `TERMINAL` or its cleared `ACTIVE`, what its consumer
  begins is refused; a cleared `ACTIVE` stays clear, and no offer is made;
* `LATEST` and `RECONFIGURATION_EPOCH` never go back, and `CAPACITY_EPOCH` does not before
  its last value;
* a lease keeps its slot, its descriptor and its bytes until its claim is returned. -/
theorem closure_final (hr : Reachable s) :
    (s.shared.control.terminal ≠ 0 → s.Shut) ∧
    (∀ i inc, s.incarnations i = some inc →
      (inc.Gated s.shared → s.ShutPage i inc) ∧ (inc.page.active = 0 → s.ClosedPage i) ∧
      (∀ s', Reaches step (Counting i) s s' → ∃ inc', s'.incarnations i = some inc' ∧
        inc.page.capacityEpoch ≤ inc'.page.capacityEpoch) ∧
      ∀ k u, inc.uses k = some u → u.inCall = false →
        (∃ p, s.log u.cursor = some p ∧ u.descriptor = p.descriptor ∧
          (s.record u.generation u.index).descriptor = p.descriptor) ∧
        ∀ s', Reaches step (Holding i k) s s' → Keeps i k u s s') ∧
    ∀ s', Reaches step Always s s' →
      s.shared.control.latest ≤ s'.shared.control.latest ∧
      s.shared.control.reconfigurationEpoch ≤ s'.shared.control.reconfigurationEpoch := by
  refine ⟨fun ht => hr.shut ht, fun i inc hi => ⟨fun hg => hr.shutPage hi hg,
    fun hactive => hr.closedPage hi hactive, fun s' hrun => hr.capacityEpoch_le hi hrun, ?_⟩,
    fun s' hrun => hr.words_le hrun⟩
  intro k u hu hcall
  obtain ⟨hv, p, hp, hd⟩ := ((hr.leases i inc hi).uses k u hu).lease hcall
  refine ⟨⟨p, hp, hd, ?_⟩, fun s' hrun => Pins.keeps hr ⟨inc, hi, hu, hv⟩ hrun⟩
  obtain ⟨⟨q, hq, -, -, hq', -⟩, -⟩ := hr.exclusive.pinned i k u ⟨inc, hi, hu, hv⟩
  rw [hp, Option.some.injEq] at hq
  exact hq ▸ hq'

/-- A consumer leases a frame; then the producer is stopped. -/
def stopping : List Label :=
  [Label.call (.attach 1 false)] ++ pump 8 ++ [on (.fromGrant {}), on (.thread 0 {})] ++
  [Label.call (.publish (.cpu {} [7]))] ++ pump 30 ++
  [on (.begin 0 (.latest 0))] ++ List.replicate 7 (on (.call 0)) ++
  List.replicate 5 (on (.use 0 {})) ++ [Label.call .stop] ++ pump 2 ++ [on (.host {})] ++ pump 4

theorem closure_final_small : ∃ s inc u, Reachable s ∧ s.shared.control.terminal = 1 ∧
    s.incarnations 1 = some inc ∧ inc.page.active = 0 ∧ inc.uses 0 = some u ∧ s.Shut ∧
    s.ShutPage 1 inc ∧ s.ClosedPage 1 ∧
    ∀ s', Reaches step (Holding 1 0) s s' → Keeps 1 0 u s s' := by
  have hrun : ((script 4096 smallConfig 0 false stopping).bind fun s =>
      (s.incarnations 1).bind fun inc => (inc.uses 0).map fun u =>
        (u.inCall, inc.page.active, s.shared.control.terminal)) = some (false, 0, 1) := by
    decide +kernel
  obtain ⟨s, hs, hrun⟩ := Option.bind_eq_some_iff.mp hrun
  obtain ⟨inc, hi, hrun⟩ := Option.bind_eq_some_iff.mp hrun
  obtain ⟨u, hu, hrun⟩ := Option.map_eq_some_iff.mp hrun
  simp only [Prod.mk.injEq] at hrun
  obtain ⟨hcall, hactive, hterminal⟩ := hrun
  obtain ⟨hshut, hpages, -⟩ := closure_final (.of_script hs)
  obtain ⟨hpage, hclosed, -, hleases⟩ := hpages 1 inc hi
  exact ⟨s, inc, u, .of_script hs, hterminal, hi, hactive, hu,
    hshut (by rw [hterminal]; exact Nat.one_ne_zero), hpage (Or.inl hactive), hclosed hactive,
    (hleases 0 u hu hcall).2⟩

/-- The consumer asks for cursor zero. -/
def asking : List Label := [on (.begin 0 (.exact 0)), on (.call 0)]

/-- `acquire_exact(0)` reports its argument, also behind the gate. -/
theorem closed_not_always : ¬ ∀ s, Reachable s → s.shared.control.terminal ≠ 0 → ∀ i inc,
    s.incarnations i = some inc → ∀ client, inc.Idle client → ∀ s' inc',
    Reaches step Always s s' → s'.incarnations i = some inc' →
    ∃ new, inc'.returns = inc.returns ++ new ∧
      ∀ r ∈ new, r.client = client → r.outcome = .closed := by
  intro hall
  have hrun : ((script 4096 smallConfig 0 false stopping).bind fun s =>
      (s.incarnations 1).bind fun inc =>
        ((play step s asking).incarnations 1).map fun inc' =>
          ((s.shared.control.terminal, inc.frames, (inc.uses 0).map Use.inCall),
            inc.calls.length, (inc.threads.map Thread.todo).flatten.length,
            decide (inc'.returns = inc.returns ++ [⟨0, .exact 0, .error cursorsStartAtOne⟩]))) =
      some ((1, 1, some false), 0, 0, true) := by
    decide +kernel
  obtain ⟨s, hs, hrun⟩ := Option.bind_eq_some_iff.mp hrun
  obtain ⟨inc, hi, hrun⟩ := Option.bind_eq_some_iff.mp hrun
  obtain ⟨inc', hi', hrun⟩ := Option.map_eq_some_iff.mp hrun
  simp only [Prod.mk.injEq, decide_eq_true_eq, List.length_eq_zero_iff] at hrun
  obtain ⟨⟨hterminal, hframes, huse⟩, hcalls, htodo, hreturns⟩ := hrun
  have hr : Reachable s := .of_script hs
  have hidle : inc.Idle 0 := by
    constructor
    case calls => rw [hcalls]; exact fun c h0 => (nomatch h0)
    case uses =>
        intro k u hu _
        have hk := (hr.handoffs hi).lt_frames hu
        have hk : k = 0 := by omega
        rw [hk] at hu
        rw [hu, Option.map_some, Option.some.injEq] at huse
        exact huse
    case pending =>
        rintro r ⟨t, ht, hret⟩ _
        have hmem : ThreadOp.ret r ∈ (inc.threads.map Thread.todo).flatten :=
          List.mem_flatten.mpr ⟨t.todo, List.mem_map_of_mem ht, hret⟩
        rw [htodo] at hmem
        cases hmem
  obtain ⟨new, heq, hnew⟩ := hall s hr (by rw [hterminal]; exact Nat.one_ne_zero) 1 inc hi 0 hidle
    _ inc' (.of_play step s asking) hi'
  rw [hreturns, List.append_cancel_left_eq] at heq
  have hclosed := hnew _ (by rw [← heq]; exact List.mem_cons_self) rfl
  cases hclosed

end Arena

end Jackstay.Acquisition
