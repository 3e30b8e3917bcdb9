import Jackstay.Input.Closing
import Jackstay.Input.Ending

/-!
The successor of a controller.

* `State.Announces`: a cleanup that fails finds room in the mailbox for its `Closed`.
* `nothing_inherited`: in a run of such calls a target without a controller has no queue,
  no flight and no barrier, and what a new controller meets was triggered after its
  admission.
* `barrier_inherited`: a `Closed` that overflows the mailbox leaves its barrier to the
  successor.
-/

namespace Jackstay.Input

open Traces

namespace State

variable {s m s' : State} {a : Active} {c : UInt64} {l : Call} {r : Reply}

/-- **A cleanup that fails finds room in the mailbox for its `Closed`.** -/
def Announces (s : State) (l : Call) : Prop :=
  ∀ id outcome f a, l = .complete id outcome → s.flight = some f → f.work.id = id →
    f.work.isCleanup = true → outcome ≠ .executed → s.active = some a →
    (s.mailboxes a.id).length < s.mailboxCapacity

lemma announces_timed (s : State) (l : Call) (h : s.Announces l) : (s.timed l).Announces l := by
  cases l with
  | complete id outcome => exact h
  | _ => exact fun _ _ _ _ h0 => by cases h0

/-- Without a controller there is no barrier. -/
def Vacant (s : State) : Prop := s.active = none → s.barrier = none

/-- Statuses for a controller that stays. -/
lemma Vacant.of_active (ha : s.active = some a) : s.Vacant := by
  intro hnone
  cases hnone.symm.trans ha

lemma Vacant.cancels {scope : Scope} {reason : Reason} {ending : Bool} (h : s.Vacant)
    (hc : s.Cancels scope reason ending s') : s'.Vacant := by
  cases hc with
  | inactive => exact h
  | sufficed => exact h
  | barred a s' ha hf hp => exact .of_active (hp.frame.active.trans ha)

/-- **Every call that announces its end leaves no barrier behind.** -/
lemma Vacant.acts (h : s.Vacant) (hC : s.Announces l) (hacts : s.Acts l r s') : s'.Vacant := by
  cases hacts with
  | idle => exact h
  | admitted => exact .of_active rfl
  | cleanup now b a work hf hb ha => exact .of_active ha
  | discarded => exact fun _ => rfl
  | dispatched now a r s' ha hf hb hd =>
      cases hd with
      | refused pre rest s' hq href hp hend => exact .of_active (hp.frame.active.trans ha)
      | dispatched => exact .of_active ha
  | completed f event outcome a mid s' hf hop ha hp hkeep hcancel =>
      have hmid : mid.active = some (if outcome = .executed then a.apply event else a) :=
        hp.frame.active
      by_cases hends : outcome.Ends
      · exact .of_active ((hcancel hends).frame.active.trans hmid)
      · rw [hkeep hends]
        exact .of_active hmid
  | cleanupFailed f scope reason outcome a mid hf hop ha hout hp =>
      have hclean : f.work.isCleanup = true := by rw [Work.isCleanup, hop]
      have hroom := hC _ _ f a rfl hf rfl hclean hout ha
      intro _
      cases hp with
      | appended => rfl
      | overflowed rest hrest hfull =>
          rw [List.length_singleton] at hfull
          have hfull : s.mailboxCapacity < (s.mailboxes a.id).length + 1 := hfull
          omega
  | cleanupEnded => exact fun _ => rfl
  | cleanupRenewed f scope reason a s' hf hop ha hend hb hp => exact .of_active hp.frame.active
  | cleanupBarred => exact .of_active rfl
  | geometry g s' hv hrev hc =>
      have hg : ({ s with config := { s.config with geometry := g } } : State).Vacant := h
      exact hg.cancels hc
  | resolved => exact h
  | heartbeat => exact .of_active rfl
  | refused => exact .of_active rfl
  | superseded p now epoch sequence event a front tail motion s' hr hm hq hop hmot hcount =>
      exact .of_active hcount.frame.active
  | overflowed p now epoch sequence event a s' hr hfull hc => exact .of_active hc.frame.active
  | accepted => exact .of_active rfl
  | reset p a s' ha hid hc => exact h.cancels hc
  | close l p a s' hl ha hid hc => exact h.cancels hc
  | polled => exact h

/-! ### Calls that trigger nothing -/

/-- Neither the expiry check of the call nor the call itself sets a barrier. -/
def Undisturbed (s : State) (l : Call) : Prop :=
  (s.timed l).barrier = none ∧ (s.call l).1.barrier = none

lemma Posts.of_barrier {statuses : List Status} {queue kept : List Work}
    (h : s.Posts a statuses queue kept s') (hb : s'.barrier = none) :
    s' = ({ s with queue } : State).append a statuses := by
  cases h with
  | appended => rfl
  | overflowed => cases hb

lemma Cancels.of_barrier {scope : Scope} {reason : Reason} {ending : Bool}
    (h : s.Cancels scope reason ending s') (hb : s'.barrier = none) : s' = s := by
  cases h with
  | inactive => rfl
  | sufficed => rfl
  | barred a s' ha hf hp =>
      cases hp with
      | appended => cases hb
      | overflowed => cases hb

end State

/-- **A controller that nothing has disturbed**, after the calls of `tr`. -/
structure Clean (c : UInt64) (tr : Trace) (s : State) : Prop where
  active : ∃ a, s.active = some a ∧ a.id = c
  barrier : s.barrier = none
  cleaning : s.cleaning = false
  closed : ∀ st ∈ posted c tr s, st.isClosed = false
  works : ∀ w ∈ dispatched tr, ∃ e, w.operation = .event e

variable {s m s' : State} {a : Active} {c : UInt64} {tr : Trace} {l : Call} {r : Reply}

/-- A call that adds these statuses to the mailbox, and returns no cleanup. -/
lemma Clean.next (h : Clean c tr m) (hpoll : ∀ p, l ≠ .poll p)
    (hact : ∃ a, s'.active = some a ∧ a.id = c) (hb : s'.barrier = none)
    (hclean : s'.cleaning = false)
    (hbox : ∀ st ∈ s'.mailboxes c, st ∈ m.mailboxes c ∨ st.isClosed = false)
    (hret : ∀ w, returned (l, r) = some w → ∃ e, w.operation = .event e) :
    Clean c (tr ++ [(l, r)]) s' := by
  refine ⟨hact, hb, hclean, fun st hst => ?_, fun w hw => ?_⟩
  · rw [posted, polled_of_none (yielded_of_ne hpoll)] at hst
    rcases List.mem_append.mp hst with hst | hst
    · exact h.closed st (List.mem_append_left _ hst)
    · rcases hbox st hst with h0 | h0
      · exact h.closed st (List.mem_append_right _ h0)
      · exact h0
  · rw [dispatched_snoc] at hw
    rcases List.mem_append.mp hw with hw | hw
    · exact h.works w hw
    · exact hret w (Option.mem_toList.mp hw)

/-- Statuses other than `Closed` reach the mailbox. -/
lemma mem_append_mailbox {statuses : List Status} (queue : List Work)
    (hst : ∀ st ∈ statuses, st.isClosed = false) {st : Status}
    (h : st ∈ (({ s with queue } : State).append a statuses).mailboxes c) :
    st ∈ s.mailboxes c ∨ st.isClosed = false := by
  by_cases hc : c = a.id
  · subst hc
    have hbox : (({ s with queue } : State).append a statuses).mailboxes a.id =
        s.mailboxes a.id ++ statuses := Function.update_self _ _ _
    rw [hbox] at h
    exact (List.mem_append.mp h).imp id fun h0 => hst st h0
  · have hbox : (({ s with queue } : State).append a statuses).mailboxes c = s.mailboxes c :=
      Function.update_of_ne hc _ _
    rw [hbox] at h
    exact Or.inl h

/-- **Every call that triggers nothing leaves the controller undisturbed.** -/
lemma Clean.acts (h : Clean c tr m) (hs : Reached m) (hacts : m.Acts l r s')
    (hb : s'.barrier = none) : Clean c (tr ++ [(l, r)]) s' := by
  have ho : m.Owned := State.owned_of_reached hs
  obtain ⟨a, ha, hid⟩ := h.active
  have event : ∀ f scope reason, m.flight = some f → f.work.operation ≠ .cleanup scope reason := by
    intro f scope reason hf hop
    have hclean := h.cleaning
    rw [State.cleaning_of_flight hf, Work.isCleanup, hop] at hclean
    cases hclean
  -- the mailbox and the flight stay
  have quiet : (∀ p, l ≠ .poll p) → (∃ a, s'.active = some a ∧ a.id = c) →
      s'.flight = m.flight → s'.mailboxes = m.mailboxes → returned (l, r) = none →
      Clean c (tr ++ [(l, r)]) s' := by
    intro hpoll hact hf hbox hret
    refine h.next hpoll hact hb ?_ (fun st hst => Or.inl (hbox ▸ hst)) fun w hw => ?_
    · rw [State.cleaning, hf]
      exact h.cleaning
    · rw [hret] at hw
      cases hw
  cases hacts with
  | idle l r hi =>
      refine quiet (fun p hp => ?_) ⟨a, ha, hid⟩ rfl rfl ?_
      · subst hp
        exact hi
      · cases l with
        | next now =>
            rw [hi.1]
            rfl
        | _ => rfl
  | admitted mode now id hfail hnone => cases hnone.symm.trans ha
  | cleanup now b a' work hf hb' => cases h.barrier.symm.trans hb'
  | discarded now hnone => cases hnone.symm.trans ha
  | dispatched now a' r s' ha' hf hb' hd =>
      cases ha.symm.trans ha'
      cases hd with
      | refused pre rest s' hq href hp hend =>
          refine h.next (fun p hp => by cases hp) ⟨a, hp.frame.active.trans ha, hid⟩ hb ?_
            (fun st hst => ?_) fun w hw => by cases hw
          · rw [State.cleaning, hp.frame.flight]
            exact h.cleaning
          · rw [hp.of_barrier hb] at hst
            exact mem_append_mailbox rest (fun st hst => (State.mem_refusals hst).2) hst
      | dispatched pre w bound rest hq href hbind hfit =>
          have hmem : w ∈ m.queue := by
            rw [hq]
            exact List.mem_append_right _ List.mem_cons_self
          obtain ⟨-, -, e, he, -⟩ := ho.queue a ha w hmem
          obtain ⟨e', rfl, -, -⟩ := State.bind_ok ha he hbind
          refine h.next (fun p hp => by cases hp) ⟨a, ha, hid⟩ hb rfl (fun st hst => ?_) fun w hw => ?_
          · exact mem_append_mailbox rest (fun st hst => (State.mem_refusals hst).2) hst
          · cases hw
            exact ⟨e', rfl⟩
  | completed f event outcome a' mid s' hf hop ha' hp hkeep hcancel =>
      cases ha.symm.trans ha'
      have hs' : s' = mid := by
        by_cases hends : outcome.Ends
        · exact (hcancel hends).of_barrier hb
        · exact hkeep hends
      subst hs'
      have hact : s'.active = some (if outcome = .executed then a.apply event else a) :=
        hp.frame.active
      refine h.next (fun p hp => by cases hp)
        ⟨_, hact, (Active.apply_same a event outcome).1.trans hid⟩ hb ?_ (fun st hst => ?_)
        fun w hw => by cases hw
      · have hfl : s'.flight = none := hp.frame.flight
        rw [State.cleaning, hfl]
        rfl
      · rw [hp.of_barrier hb] at hst
        refine mem_append_mailbox m.queue (fun st hst => ?_) hst
        rw [List.mem_singleton.mp hst]
        rfl
  | cleanupFailed f scope reason outcome a' mid hf hop => exact absurd hop (event f scope reason hf)
  | cleanupEnded f scope reason a' mid hf hop => exact absurd hop (event f scope reason hf)
  | cleanupRenewed f scope reason a' s' hf hop => exact absurd hop (event f scope reason hf)
  | cleanupBarred f scope reason a' hf hop => exact absurd hop (event f scope reason hf)
  | geometry g s' hv hrev hc =>
      have heq := hc.of_barrier hb
      subst heq
      exact quiet (fun p hp => by cases hp) ⟨a, ha, hid⟩ rfl rfl rfl
  | resolved => exact quiet (fun p hp => by cases hp) ⟨a, ha, hid⟩ rfl rfl rfl
  | heartbeat p now a' ha' =>
      cases ha.symm.trans ha'
      exact quiet (fun p hp => by cases hp) ⟨_, rfl, hid⟩ rfl rfl rfl
  | refused p now epoch sequence event a' e ha' =>
      cases ha.symm.trans ha'
      exact quiet (fun p hp => by cases hp) ⟨_, rfl, hid⟩ rfl rfl rfl
  | superseded p now epoch sequence event a' front tail motion s' hr hm hq hop hmot hcount =>
      cases ha.symm.trans hr.active
      refine h.next (fun p hp => by cases hp) ⟨_, hcount.frame.active, hid⟩ hb ?_ (fun st hst => ?_)
        fun w hw => by cases hw
      · rw [State.cleaning, hcount.frame.flight]
        exact h.cleaning
      · by_cases hc : c = a.id
        · subst hc
          exact hcount.not_closed (Or.inr hb) hst
        · exact Or.inl ((hcount.mailbox_of_ne hc).1 ▸ hst)
  | overflowed p now epoch sequence event a' s' hr hfull hc =>
      cases ha.symm.trans hr.active
      have heq := hc.of_barrier hb
      subst heq
      exact quiet (fun p hp => by cases hp) ⟨_, rfl, hid⟩ rfl rfl rfl
  | accepted p now epoch sequence event a' hr =>
      cases ha.symm.trans hr.active
      exact quiet (fun p hp => by cases hp) ⟨_, rfl, hid⟩ rfl rfl rfl
  | reset p a' s' ha' hp hc =>
      have heq := hc.of_barrier hb
      subst heq
      exact quiet (fun p hp => by cases hp) ⟨a, ha, hid⟩ rfl rfl rfl
  | close l p a' s' hl ha' hp hc =>
      have heq := hc.of_barrier hb
      subst heq
      rcases hl with rfl | rfl <;>
        exact quiet (fun p hp => by cases hp) ⟨a, ha, hid⟩ rfl rfl rfl
  | polled p =>
      refine ⟨⟨a, ha, hid⟩, hb, h.cleaning, fun st hst => ?_, fun w hw => ?_⟩
      · rw [posted_poll] at hst
        exact h.closed st hst
      · rw [dispatched_snoc] at hw
        exact h.works w (by simpa [returned] using hw)

/-- A submission of an undisturbed controller is not refused as busy. -/
lemma Clean.not_busy (h : Clean c tr m) {p : Controller} {now : ℕ} {epoch sequence : UInt64}
    {event : Event} (hacts : m.Acts (.submit p now epoch sequence event) r s') :
    r ≠ .error .busy := by
  rintro rfl
  cases hacts with
  | idle l r hi => rcases hi with ⟨hr, -⟩ | ⟨hr, -⟩ <;> cases hr
  | refused p now epoch sequence event a e ha hid hseq href =>
      obtain ⟨-, hb | hclean⟩ := href
      · rw [h.barrier] at hb
        cases hb
      · cases h.cleaning.symm.trans hclean

/-- The expiry check of a call that triggers nothing. -/
lemma timed_of_undisturbed (hb : (s.timed l).barrier = none) : s.timed l = s := by
  rcases s.timed_cases l with heq | hc
  · exact heq
  · exact hc.of_barrier hb

/-- **No state of an ended controller reaches its successor**, in every run in which a
cleanup that fails finds room for its `Closed`. Without a controller the queue is empty
and neither a flight nor a barrier is there. So a new controller begins with nothing, and
as long as nothing is triggered after its admission it gets no cleanup and no `Closed`,
and no submission of it is refused as busy. -/
theorem nothing_inherited {config : Config} {tr : Trace} {s : State}
    (h : Run config State.Announces tr s) :
    (s.active = none → s.queue = [] ∧ s.flight = none ∧ s.barrier = none) ∧
      ∀ mode now c s₁, s.call (.admitController mode now) = (s₁, .admitted c) →
        s₁.queue = [] ∧ s₁.flight = none ∧ s₁.barrier = none ∧ s₁.mailboxes c.id = [] ∧
        ∀ tr' s', Runs State.call State.Undisturbed s₁ tr' s' →
          (∀ w ∈ dispatched tr', ∃ e, w.operation = .event e) ∧
          (∀ st ∈ posted c.id tr' s', st.isClosed = false) ∧
          ∀ now epoch sequence event, (s'.timed (.submit c now epoch sequence event)).barrier = none →
            (s'.call (.submit c now epoch sequence event)).2 ≠ .error .busy := by
  have hs : Reached s := ⟨config, tr, h.always⟩
  have hvacant : s.Vacant := by
    refine h.traced (P := fun _ s => s.Vacant) State.announces_timed (fun s₀ hnew => ?_)
      (fun tr s s' _ h0 hc => h0.cancels hc) fun tr s l r s' _ hC h0 hacts => h0.acts hC hacts
    rw [(State.new_eq hnew).1]
    exact fun _ => rfl
  have hidle : s.active = none → s.queue = [] ∧ s.flight = none ∧ s.barrier = none := fun hnone =>
    ⟨hs.linked.queue_eq_nil hnone, hs.linked.flight_eq_none hnone, hvacant hnone⟩
  refine ⟨hidle, fun mode now c s₁ hcall => ?_⟩
  have hacts : s.Acts (.admitController mode now) (.admitted c) s₁ := by
    have hacts := State.acts_of_call (s := s) (.admitController mode now) hs.linked
    rw [hcall] at hacts
    exact hacts
  have hs₁ : Reached s₁ := by
    have hrun := h.always.snoc (.admitController mode now) trivial
    rw [hcall] at hrun
    exact ⟨config, _, hrun⟩
  cases hacts with
  | idle l r hi => exact (State.not_admitted_of_idles hi).elim
  | admitted mode now id hfail ha hmode hid =>
      obtain ⟨hq, hf, hb⟩ := hidle ha
      have hbox : Function.update s.mailboxes id [] id = [] := Function.update_self _ _ _
      refine ⟨hq, hf, hb, hbox, fun tr' s' hruns => ?_⟩
      have hclean : Clean id tr' s' := by
        refine hs₁.continued hruns ?_ (fun tr s l _ hC h0 _ => ?_) fun tr s l r s' hs hC h0 heq hacts => ?_
        · refine ⟨⟨_, rfl, rfl⟩, hb, ?_, fun st hst => ?_, fun w hw => by cases hw⟩
          · rw [State.cleaning, hf]
            rfl
          · have hst : st ∈ Function.update s.mailboxes id [] id := hst
            rw [hbox] at hst
            cases hst
        · rw [timed_of_undisturbed hC.1]
          exact h0
        · have hb' := hC.2
          rw [heq] at hb'
          exact h0.acts hs hacts hb'
      refine ⟨hclean.works, hclean.closed, fun now epoch sequence event hb' => ?_⟩
      have hs' : Reached s' := by
        obtain ⟨config, tr₀, hrun⟩ := hs₁
        exact ⟨config, _, hrun.append hruns.always⟩
      have htimed := timed_of_undisturbed hb'
      have hacts := State.acts_of_call (.submit ⟨id, mode⟩ now epoch sequence event)
        (hs'.timed (.submit ⟨id, mode⟩ now epoch sequence event)).linked
      rw [htimed] at hacts
      exact hclean.not_busy hacts

theorem nothing_inherited_closed :
    let s := (record State.call { config := tiny } closed).2
    (s.active = none → s.queue = [] ∧ s.flight = none ∧ s.barrier = none) ∧
      ∀ mode now c s₁, s.call (.admitController mode now) = (s₁, .admitted c) →
        s₁.queue = [] ∧ s₁.flight = none ∧ s₁.barrier = none ∧ s₁.mailboxes c.id = [] ∧
        ∀ tr' s', Runs State.call State.Undisturbed s₁ tr' s' →
          (∀ w ∈ dispatched tr', ∃ e, w.operation = .event e) ∧
          (∀ st ∈ posted c.id tr' s', st.isClosed = false) ∧
          ∀ now epoch sequence event, (s'.timed (.submit c now epoch sequence event)).barrier = none →
            (s'.call (.submit c now epoch sequence event)).2 ≠ .error .busy := by
  have hmeets : meets State.call
      (fun _ l => match l with
        | .complete _ outcome => outcome == .executed
        | _ => true) { config := tiny } closed = true := by decide +kernel
  have hrun : Run tiny State.Announces (record State.call { config := tiny } closed).1
      (record State.call { config := tiny } closed).2 := by
    refine ⟨{ config := tiny }, new_tiny, Runs.of_meets ?_ hmeets⟩
    rintro s l h id outcome f a rfl - - - hout -
    exact absurd (beq_iff_eq.mp h) hout
  exact nothing_inherited hrun

/-- The end of a controller with a full mailbox, whose cleanup fails. -/
def unannounced : List Call :=
  unread ++ [.close ⟨1, .cooperative⟩, .next 0, .complete 7 .uncertain]

/-- **A `Closed` that overflows the mailbox leaves its barrier behind**, in a target
without a controller. -/
theorem barrier_inherited :
    ¬ ∀ (config : Config) (tr : Trace) (s : State), Run config Always tr s →
      s.active = none → s.queue = [] ∧ s.flight = none ∧ s.barrier = none := by
  intro h
  have hrun := Run.of_record tiny new_tiny unannounced
  have hnone : (record State.call { config := tiny } unannounced).2.active.isNone = true := by
    decide +kernel
  obtain ⟨-, -, hb⟩ := h tiny _ _ hrun (Option.isNone_iff_eq_none.mp hnone)
  revert hb
  decide +kernel

/-- The successor of that controller is refused as busy. -/
example : ((record State.call { config := tiny } (unannounced ++ [.resolveFailedCleanup,
    .admitController .cooperative 0, .submit ⟨2, .cooperative⟩ 0 1 1 (.text "a")])).1.getLast?).map
      (·.2) = some (.error .busy) := by
  decide +kernel

end Jackstay.Input
