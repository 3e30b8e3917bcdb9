import Jackstay.Input.Sound

/-!
The end of a controller.

* `State.Ending c`: the controller is there, and a barrier or the cleanup in flight will
  end it. `State.Triggers` lists the calls that bring it about.
* `Phase`: what becomes of an ending controller, in whatever order the calls come.
* `end_final`: an ending controller gets no further event, one `All` cleanup ends it, and
  nobody is admitted before that.
* `end_without_cleanup`: a cleanup that fails under a pending end is the last one.
-/

namespace Jackstay.Input

open Traces

namespace State

variable {s s' : State} {a : Active} {c : UInt64} {l : Call} {r : Reply}

/-! ### Barriers that end -/

/-- **The end of the controller has been called for.** -/
def Ending (s : State) (c : UInt64) : Prop :=
  ∃ a, s.active = some a ∧ a.id = c ∧
    (s.barrier.any (·.ending) = true ∨ s.flight.any (·.ending) = true)

/-- The controller has been there, and is no more. -/
def Gone (s : State) (c : UInt64) : Prop :=
  (∀ a, s.active = some a → a.id ≠ c) ∧ c ≤ s.nextController

lemma ending_iff : s.Ending c ↔ s.active.any (·.id == c) = true ∧
    (s.barrier.any (·.ending) = true ∨ s.flight.any (·.ending) = true) := by
  constructor
  · rintro ⟨a, ha, hid, hend⟩
    refine ⟨?_, hend⟩
    rw [ha]
    exact beq_iff_eq.mpr hid
  · rintro ⟨hact, hend⟩
    obtain ⟨a, ha, hid⟩ := (Option.any_eq_true _ _).mp hact
    exact ⟨a, ha, beq_iff_eq.mp hid, hend⟩

lemma gone_iff : s.Gone c ↔ s.active.all (·.id != c) = true ∧ c ≤ s.nextController := by
  refine and_congr_left fun _ => ?_
  cases s.active with
  | none => simp
  | some a => simp

instance (s : State) (c : UInt64) : Decidable (s.Ending c) := decidable_of_iff _ ending_iff.symm

instance (s : State) (c : UInt64) : Decidable (s.Gone c) := decidable_of_iff _ gone_iff.symm

/-- A cancellation keeps an end that has been called for, and calls for one if it is to. -/
lemma Cancels.barrier_ending {scope : Scope} {reason : Reason} {ending : Bool}
    (h : s.Cancels scope reason ending s') (ha : s.active = some a)
    (hf : s.flight.any (·.ending) = false)
    (hend : ending = true ∨ s.barrier.any (·.ending) = true) :
    ∃ b, s'.barrier = some b ∧ b.ending = true := by
  cases h with
  | inactive hnone => cases hnone.symm.trans ha
  | sufficed b hb hsuff => cases hf.symm.trans hsuff
  | barred b s' hb _ hp =>
      cases hp with
      | appended => exact ⟨_, rfl, Bool.or_eq_true_iff.mpr hend⟩
      | overflowed => exact ⟨_, rfl, rfl⟩

/-- Statuses keep an end that has been called for. -/
lemma Posts.barrier_ending {statuses : List Status} {queue kept : List Work}
    (h : s.Posts a statuses queue kept s') (hend : s.barrier.any (·.ending) = true) :
    ∃ b, s'.barrier = some b ∧ b.ending = true := by
  cases h with
  | appended => exact (Option.any_eq_true _ _).mp hend
  | overflowed => exact ⟨_, rfl, rfl⟩

/-- A cleanup in flight that ends the controller suffices. -/
lemma Cancels.eq_of_ending {scope : Scope} {reason : Reason} {ending : Bool}
    (h : s.Cancels scope reason ending s') (hf : s.flight.any (·.ending) = true) : s' = s := by
  cases h with
  | inactive => rfl
  | sufficed => rfl
  | barred b s' hb hnot hp => cases hnot.symm.trans hf

/-- Works belong to the controller that is there. -/
lemma Acts.returned_controller (h : s.Acts l r s') (ho : s.Owned) {w : Work}
    (hw : returned (l, r) = some w) : ∃ a, s.active = some a ∧ w.controller = a.id := by
  cases h with
  | idle l r hi =>
      cases l with
      | next now =>
          rw [hi.1] at hw
          cases hw
      | _ => cases hw
  | cleanup now b a work hf hb ha hwork =>
      cases hw
      exact ⟨a, ha, by rw [hwork]⟩
  | dispatched now a r s' ha hf hb hd =>
      cases hd with
      | refused => cases hw
      | dispatched pre v bound rest hq href hbind hfit =>
          cases hw
          have hmem : v ∈ s.queue := by
            rw [hq]
            exact List.mem_append_right _ List.mem_cons_self
          obtain ⟨hid, -, e, he, -⟩ := ho.queue a ha v hmem
          obtain ⟨e', rfl, -, -⟩ := bind_ok ha he hbind
          exact ⟨a, ha, hid⟩
  | close l p a s' hl ha hid hc => rcases hl with rfl | rfl <;> cases hw
  | _ => cases hw

end State

/-! ### Phases -/

/-- The works that `next` has returned for a controller. -/
def worksOf (c : UInt64) (tr : Trace) : List Work := (dispatched tr).filter (·.controller == c)

/-- How the end of a controller that was called for in `s` has come about: by the cleanup
that was to end it, or by the failure of one that was in flight before. -/
def Concluded (s : State) (c : UInt64) (tr : Trace) : Prop :=
  (∃ w outcome r reason, (.complete w.id outcome, r) ∈ tr ∧ w.operation = .cleanup .all reason ∧
    (s.flight.any (·.ending) = false ∧ worksOf c tr = [w] ∨
      s.flight = some ⟨w, true⟩ ∧ worksOf c tr = [])) ∨
    worksOf c tr = [] ∧ ∃ f outcome, s.flight = some f ∧ f.work.isCleanup = true ∧
      f.ending = false ∧ outcome ≠ .executed ∧
      (.complete f.work.id outcome, .error .cleanupFailed) ∈ tr

/-- **The phases of an ending controller**, after the calls of `tr` from `s`. -/
inductive Phase (s : State) (c : UInt64) (tr : Trace) (s' : State) : Prop
  /-- the barrier waits for what was in flight -/
  | pending (a : Active) (b : Barrier) : s'.active = some a → a.id = c → s'.barrier = some b →
      b.ending = true → s.flight.any (·.ending) = false →
      (s'.flight = none ∨ s'.flight = s.flight) → worksOf c tr = [] → Phase s c tr s'
  /-- the cleanup that ends the controller is in flight -/
  | cleaning (a : Active) (f : Flight) : s'.active = some a → a.id = c → s'.flight = some f →
      f.ending = true →
      (s.flight.any (·.ending) = false ∧ worksOf c tr = [f.work] ∨
        s.flight = some f ∧ worksOf c tr = []) → Phase s c tr s'
  | gone : s'.Gone c → Concluded s c tr → Phase s c tr s'

section

variable {s m s' : State} {c : UInt64} {tr : Trace} {l : Call} {r : Reply}

lemma worksOf_snoc (h : ∀ w, returned (l, r) = some w → w.controller ≠ c) :
    worksOf c (tr ++ [(l, r)]) = worksOf c tr := by
  rw [worksOf, worksOf, dispatched_snoc, List.filter_append]
  cases hret : returned (l, r) with
  | none => simp
  | some w => simp [h w hret]

lemma Concluded.mono (h : Concluded s c tr) (hw : worksOf c (tr ++ [(l, r)]) = worksOf c tr) :
    Concluded s c (tr ++ [(l, r)]) := by
  rw [Concluded, hw]
  refine h.imp ?_ ?_
  · rintro ⟨w, outcome, r', reason, hmem, hop, hcase⟩
    exact ⟨w, outcome, r', reason, List.mem_append_left _ hmem, hop, hcase⟩
  · rintro ⟨hnil, f, outcome, hf, hclean, hend, hout, hmem⟩
    exact ⟨hnil, f, outcome, hf, hclean, hend, hout, List.mem_append_left _ hmem⟩

/-- While the barrier waits. -/
lemma Phase.of_pending {a : Active} {b : Barrier} (hs : Reached m) (ha : m.active = some a)
    (hid : a.id = c) (hb : m.barrier = some b) (hend : b.ending = true)
    (hnot : s.flight.any (·.ending) = false) (hf : m.flight = none ∨ m.flight = s.flight)
    (hw : worksOf c tr = []) (hacts : m.Acts l r s') : Phase s c (tr ++ [(l, r)]) s' := by
  have ho : m.Owned := State.owned_of_reached hs
  have hany : m.barrier.any (·.ending) = true := by rw [hb]; exact hend
  have hnotm : m.flight.any (·.ending) = false := by
    rcases hf with hf | hf
    · rw [hf]
      rfl
    · rw [hf]
      exact hnot
  -- a call that returns no work and leaves the flight alone
  have waits : ∀ (d : Active) (b' : Barrier), s'.active = some d → d.id = c → s'.barrier = some b' →
      b'.ending = true → s'.flight = m.flight → returned (l, r) = none →
      Phase s c (tr ++ [(l, r)]) s' := by
    intro d b' hd hdc hb' hend' hfl hret
    refine .pending d b' hd hdc hb' hend' hnot (hfl ▸ hf) ?_
    rw [worksOf_snoc fun w h0 => by rw [hret] at h0; cases h0]
    exact hw
  have cancelled : ∀ {t : State} {scope : Scope} {reason : Reason} {ending : Bool},
      t.Cancels scope reason ending s' → (∃ d, t.active = some d ∧ d.id = c) → t.flight = m.flight →
      t.barrier = m.barrier → returned (l, r) = none → Phase s c (tr ++ [(l, r)]) s' := by
    intro t scope reason ending hc ⟨d, hd, hdc⟩ hfl hbar hret
    obtain ⟨b', hb', hend'⟩ := hc.barrier_ending hd (by rw [hfl]; exact hnotm)
      (Or.inr (by rw [hbar]; exact hany))
    exact waits d b' (hc.frame.active.trans hd) hdc hb' hend' (hc.frame.flight.trans hfl) hret
  cases hacts with
  | idle l r hi =>
      refine waits a b ha hid hb hend rfl ?_
      cases l with
      | next now =>
          rw [hi.1]
          rfl
      | _ => rfl
  | admitted mode now id hfail hnone hmode hnew => cases hnone.symm.trans ha
  | cleanup now b' a' work hnone hb' ha' hwork =>
      cases hb.symm.trans hb'
      cases ha.symm.trans ha'
      refine .cleaning a ⟨work, b.ending⟩ ha hid rfl hend (Or.inl ⟨hnot, ?_⟩)
      have hctrl : work.controller = c := by
        rw [hwork]
        exact hid
      have hone : worksOf c (tr ++ [(Call.next now, Reply.work (some work))]) =
          worksOf c tr ++ [work] := by
        rw [worksOf, worksOf, dispatched_snoc, List.filter_append]
        simp [returned, hctrl]
      rw [hone, hw]
      rfl
  | discarded now hnone => cases hnone.symm.trans ha
  | dispatched now a' r s' ha' hfl hnone hd => cases hb.symm.trans hnone
  | completed f event outcome a' mid s' hfl hop ha' hp hkeep hcancel =>
      cases ha.symm.trans ha'
      have hmid : mid.active = some (if outcome = .executed then a.apply event else a) :=
        hp.frame.active
      have hdc : (if outcome = .executed then a.apply event else a).id = c :=
        (Active.apply_same a event outcome).1.trans hid
      have hmidf : mid.flight = none := hp.frame.flight
      obtain ⟨b₁, hb₁, hend₁⟩ := hp.barrier_ending hany
      have hw' : worksOf c (tr ++ [(Call.complete f.work.id outcome, Reply.done)]) = [] := by
        rw [worksOf_snoc fun w h0 => by cases h0]
        exact hw
      by_cases hends : outcome.Ends
      · have hc := hcancel hends
        obtain ⟨b₂, hb₂, hend₂⟩ := hc.barrier_ending hmid (by rw [hmidf]; rfl) (Or.inl rfl)
        exact .pending _ b₂ (hc.frame.active.trans hmid) hdc hb₂ hend₂ hnot
          (Or.inl (hc.frame.flight.trans hmidf)) hw'
      · rw [hkeep hends]
        exact .pending _ b₁ hmid hdc hb₁ hend₁ hnot (Or.inl hmidf) hw'
  | cleanupFailed f scope reason outcome a' mid hfl hop ha' hout hp =>
      have hsf : s.flight = some f := by
        rcases hf with hf | hf
        · cases hf.symm.trans hfl
        · exact hf.symm.trans hfl
      have hfend : f.ending = false := by
        rw [hsf] at hnot
        exact hnot
      have hle : c ≤ m.nextController := hid ▸ ho.id a ha ▸ UInt64.le_refl _
      have hclean : f.work.isCleanup = true := by rw [Work.isCleanup, hop]
      refine .gone ⟨fun d hd => (by cases hd), hp.frame.nextController ▸ hle⟩
        (Or.inr ⟨?_, f, outcome, hsf, hclean, hfend, hout,
          List.mem_append_right _ (List.mem_singleton_self _)⟩)
      rw [worksOf_snoc fun w h0 => by cases h0]
      exact hw
  | cleanupEnded f scope reason a' mid hfl hop ha' hfend hp =>
      rw [hfl, Option.any_some, hfend] at hnotm
      cases hnotm
  | cleanupRenewed f scope reason a' s' hfl hop ha' hfend hnone hp => cases hb.symm.trans hnone
  | cleanupBarred f scope reason a' hfl hop ha' hfend hsome =>
      cases ha.symm.trans ha'
      refine .pending _ b rfl hid hb hend hnot (Or.inl rfl) ?_
      rw [worksOf_snoc fun w h0 => by cases h0]
      exact hw
  | geometry g s' hv hrev hc => exact cancelled hc ⟨a, ha, hid⟩ rfl rfl rfl
  | resolved hfail hfl => exact waits a b ha hid hb hend rfl rfl
  | heartbeat p now a' ha' hp =>
      cases ha.symm.trans ha'
      exact waits _ b rfl hid hb hend rfl rfl
  | refused p now epoch sequence event a' e ha' hp hseq href =>
      cases ha.symm.trans ha'
      exact waits _ b rfl hid hb hend rfl rfl
  | superseded p now epoch sequence event a' front tail motion s' hr => cases hb.symm.trans hr.barrier
  | overflowed p now epoch sequence event a' s' hr => cases hb.symm.trans hr.barrier
  | accepted p now epoch sequence event a' hr => cases hb.symm.trans hr.barrier
  | reset p a' s' ha' hp hc => exact cancelled hc ⟨a, ha, hid⟩ rfl rfl rfl
  | close l p a' s' hl ha' hp hc =>
      refine cancelled hc ⟨a, ha, hid⟩ rfl rfl ?_
      rcases hl with rfl | rfl <;> rfl
  | polled p => exact waits a b ha hid hb hend rfl rfl

/-- While the cleanup that ends the controller is in flight. -/
lemma Phase.of_cleaning {a : Active} {f : Flight} (hs : Reached m) (ha : m.active = some a)
    (hid : a.id = c) (hf : m.flight = some f) (hend : f.ending = true)
    (hw : s.flight.any (·.ending) = false ∧ worksOf c tr = [f.work] ∨
      s.flight = some f ∧ worksOf c tr = []) (hacts : m.Acts l r s') :
    Phase s c (tr ++ [(l, r)]) s' := by
  have ho : m.Owned := State.owned_of_reached hs
  obtain ⟨hbar, reason₀, hall⟩ := ho.ending f hf hend
  have hany : m.flight.any (·.ending) = true := by rw [hf]; exact hend
  have hclean : m.cleaning = true := by rw [State.cleaning_of_flight hf, Work.isCleanup, hall]
  have same : returned (l, r) = none → worksOf c (tr ++ [(l, r)]) = worksOf c tr :=
    fun hret => worksOf_snoc fun w h0 => by rw [hret] at h0; cases h0
  have flies : ∀ d, s'.active = some d → d.id = c → s'.flight = some f → returned (l, r) = none →
      Phase s c (tr ++ [(l, r)]) s' := by
    intro d hd hdc hfl hret
    refine .cleaning d f hd hdc hfl hend ?_
    rw [same hret]
    exact hw
  have concluded : ∀ (outcome : Outcome), (.complete f.work.id outcome, r) ∈ tr ++ [(l, r)] →
      returned (l, r) = none → Concluded s c (tr ++ [(l, r)]) := by
    intro outcome hmem hret
    refine Or.inl ⟨f.work, outcome, r, reason₀, hmem, hall, ?_⟩
    rw [same hret]
    refine hw.imp id fun h0 => ⟨?_, h0.2⟩
    rw [h0.1, ← hend]
  have hle : c ≤ m.nextController := hid ▸ ho.id a ha ▸ UInt64.le_refl _
  cases hacts with
  | idle l r hi =>
      refine flies a ha hid hf ?_
      cases l with
      | next now =>
          rw [hi.1]
          rfl
      | _ => rfl
  | admitted mode now id hfail hnone hmode hnew => cases hnone.symm.trans ha
  | cleanup now b' a' work hnone => cases hnone.symm.trans hf
  | discarded now hnone => cases hnone.symm.trans ha
  | dispatched now a' r s' ha' hnone => cases hnone.symm.trans hf
  | completed f' event outcome a' mid s' hfl hop =>
      cases hf.symm.trans hfl
      cases hop.symm.trans hall
  | cleanupFailed f' scope reason outcome a' mid hfl hop ha' hout hp =>
      cases hf.symm.trans hfl
      exact .gone ⟨fun d hd => (by cases hd), hp.frame.nextController ▸ hle⟩
        (concluded outcome (List.mem_append_right _ (List.mem_singleton_self _)) rfl)
  | cleanupEnded f' scope reason a' mid hfl hop ha' hfend hp =>
      cases hf.symm.trans hfl
      exact .gone ⟨fun d hd => (by cases hd), hp.frame.nextController ▸ hle⟩
        (concluded .executed (List.mem_append_right _ (List.mem_singleton_self _)) rfl)
  | cleanupRenewed f' scope reason a' s' hfl hop ha' hfend =>
      cases hf.symm.trans hfl
      cases hfend.symm.trans hend
  | cleanupBarred f' scope reason a' hfl hop ha' hfend =>
      cases hf.symm.trans hfl
      cases hfend.symm.trans hend
  | geometry g s' hv hrev hc =>
      have heq := hc.eq_of_ending hany
      subst heq
      exact flies a ha hid hf rfl
  | resolved hfail hfl => exact flies a ha hid hf rfl
  | heartbeat p now a' ha' hp =>
      cases ha.symm.trans ha'
      exact flies _ rfl hid hf rfl
  | refused p now epoch sequence event a' e ha' hp hseq href =>
      cases ha.symm.trans ha'
      exact flies _ rfl hid hf rfl
  | superseded p now epoch sequence event a' front tail motion s' hr =>
      cases hr.cleaning.symm.trans hclean
  | overflowed p now epoch sequence event a' s' hr => cases hr.cleaning.symm.trans hclean
  | accepted p now epoch sequence event a' hr => cases hr.cleaning.symm.trans hclean
  | reset p a' s' ha' hp hc =>
      have heq := hc.eq_of_ending hany
      subst heq
      exact flies a ha hid hf rfl
  | close l p a' s' hl ha' hp hc =>
      have heq := hc.eq_of_ending hany
      subst heq
      refine flies a ha hid hf ?_
      rcases hl with rfl | rfl <;> rfl
  | polled p => exact flies a ha hid hf rfl

/-- Ids are never used again. -/
lemma State.Gone.acts (h : m.Gone c) (hacts : m.Acts l r s') : s'.Gone c := by
  refine ⟨fun d hd hdc => ?_, UInt64.le_trans h.2 hacts.nextController_le⟩
  rcases hacts.active_cases with ⟨-, hnone⟩ | ⟨mode, now, id, b, -, -, -, hb, hid, hlt⟩ |
    ⟨a, b, ha, hb, hid⟩ | ⟨a, f, hends⟩
  · cases hnone.symm.trans hd
  · cases hb.symm.trans hd
    have hlt : m.nextController < c := by rw [← hdc, hid]; exact hlt
    exact UInt64.not_le.mpr hlt h.2
  · cases hb.symm.trans hd
    exact h.1 a ha (hid.symm.trans hdc)
  · cases hends.after.symm.trans hd

/-- **One call further.** -/
lemma Phase.acts (h : Phase s c tr m) (hs : Reached m) (hacts : m.Acts l r s') :
    Phase s c (tr ++ [(l, r)]) s' := by
  cases h with
  | pending a b ha hid hb hend hnot hf hw => exact .of_pending hs ha hid hb hend hnot hf hw hacts
  | cleaning a f ha hid hf hend hw => exact .of_cleaning hs ha hid hf hend hw hacts
  | gone hgone hconc =>
      refine .gone (hgone.acts hacts) (hconc.mono (worksOf_snoc fun w hw => ?_))
      obtain ⟨a, ha, hctrl⟩ := hacts.returned_controller (State.owned_of_reached hs) hw
      rw [hctrl]
      exact hgone.1 a ha

/-- The expiry check of a call. -/
lemma Phase.expired (h : Phase s c tr m) (hs : Reached m)
    (hc : m.Cancels .all .expired true s') : Phase s c tr s' := by
  cases h with
  | pending a b ha hid hb hend hnot hf hw =>
      have hnotm : m.flight.any (·.ending) = false := by
        rcases hf with hf | hf
        · rw [hf]
          rfl
        · rw [hf]
          exact hnot
      obtain ⟨b', hb', hend'⟩ := hc.barrier_ending ha hnotm (Or.inl rfl)
      exact .pending a b' (hc.frame.active.trans ha) hid hb' hend' hnot (hc.frame.flight ▸ hf) hw
  | cleaning a f ha hid hf hend hw =>
      have heq := hc.eq_of_ending (by rw [hf]; exact hend)
      subst heq
      exact .cleaning a f ha hid hf hend hw
  | gone hgone hconc =>
      exact .gone ⟨hc.frame.active ▸ hgone.1, hc.frame.nextController ▸ hgone.2⟩ hconc

/-- **The phases of an ending controller**, over whole runs. -/
lemma Phase.runs (hs : Reached s) (hend : s.Ending c) (h : Runs State.call Always s tr s') :
    Phase s c tr s' := by
  refine hs.continued h ?_ (fun tr s l hs _ h0 hc => h0.expired hs hc)
    fun tr s l r s' hs _ h0 _ hacts => h0.acts hs hacts
  obtain ⟨a, ha, hid, hcase⟩ := hend
  cases hf : s.flight.any (·.ending) with
  | true =>
      obtain ⟨f, hfl, hfend⟩ := (Option.any_eq_true _ _).mp hf
      exact .cleaning a f ha hid hfl hfend (Or.inr ⟨hfl, rfl⟩)
  | false =>
      rw [hf] at hcase
      obtain ⟨b, hb, hbend⟩ := (Option.any_eq_true _ _).mp (hcase.resolve_right (by simp))
      exact .pending a b ha hid hb hbend hf (Or.inr rfl) rfl

end

/-! ### Triggers -/

/-- The clock that a call reads before it does anything. -/
def Call.checks : Call → Option ℕ
  | .next now => some now
  | .tick now => some now
  | .heartbeat _ now => some now
  | .submit _ now _ _ _ => some now
  | _ => none

/-- **The calls that end a controller**: `close` and the drop of it, an expiry check that
comes too late, a submission that overflows the queue, a status that overflows the
mailbox, and an event whose outcome is partial or uncertain. -/
inductive State.Triggers (s : State) (c : UInt64) : Call → Prop
  | close (p : Controller) (a : Active) (l : Call) : l = .close p ∨ l = .drop p → p.id = c →
      s.active = some a → a.id = c → Triggers s c l
  | expiry (a : Active) (now : ℕ) (l : Call) : l.checks = some now → s.active = some a → a.id = c →
      s.config.idleTimeout ≤ now - a.lastSeen → Triggers s c l
  | queue (p : Controller) (now : ℕ) (epoch sequence : UInt64) (event : Event) : p.id = c →
      (s.call (.submit p now epoch sequence event)).2 = .error .overflow →
      Triggers s c (.submit p now epoch sequence event)
  | mailbox (l : Call) : s.overflowed c = false → (s.call l).1.overflowed c = true →
      Triggers s c l
  | outcome (f : Flight) (e : Event) (outcome : Outcome) : s.flight = some f →
      f.work.operation = .event e → f.work.controller = c → outcome.Ends →
      Triggers s c (.complete f.work.id outcome)

namespace State

variable {s m s' : State} {a : Active} {c : UInt64} {l : Call} {r : Reply}

/-- A cancellation that is to end the controller calls for its end. -/
lemma Cancels.ending {scope : Scope} {reason : Reason} (h : s.Cancels scope reason true s')
    (ha : s.active = some a) : s'.Ending a.id := by
  cases hf : s.flight.any (·.ending) with
  | true =>
      have heq := h.eq_of_ending hf
      subst heq
      exact ⟨a, ha, rfl, Or.inr hf⟩
  | false =>
      obtain ⟨b, hb, hend⟩ := h.barrier_ending ha hf (Or.inl rfl)
      exact ⟨a, h.frame.active.trans ha, rfl, Or.inl (by rw [hb]; exact hend)⟩

/-- A status overflows the mailbox of its own controller. -/
lemma Posts.overflow_id {statuses : List Status} {queue kept : List Work}
    (h : s.Posts a statuses queue kept s') (hover : s.overflowed c = false)
    (hover' : s'.overflowed c = true) : c = a.id := by
  by_contra hc
  rw [(h.mailbox_of_ne hc).2, hover] at hover'
  cases hover'

/-- A mailbox overflows for the controller that is there, and calls for its end. -/
lemma Posts.ending {statuses : List Status} {queue kept : List Work}
    (h : s.Posts a statuses queue kept s') {b : Active} (ha : s.active = some b) (hid : b.id = a.id)
    (hover : s.overflowed c = false) (hover' : s'.overflowed c = true) : s'.Ending c := by
  have hc : c = a.id := h.overflow_id hover hover'
  cases h with
  | appended => cases hover.symm.trans hover'
  | overflowed => exact ⟨b, ha, hid.trans hc.symm, Or.inl rfl⟩

lemma Counts.ending (h : s.Counts a s') {b : Active} (ha : s.active = some b) (hid : b.id = a.id)
    (hover : s.overflowed c = false) (hover' : s'.overflowed c = true) : s'.Ending c := by
  cases h with
  | merged => cases hover.symm.trans hover'
  | appended => cases hover.symm.trans hover'
  | overflowed hfull =>
      have hp : s.Posts a [.coalesced 1] s.queue [] (s.overflow a []) :=
        .overflowed [] List.nil_prefix (by simp only [List.length_singleton]; omega)
      exact hp.ending ha hid hover hover'

lemma Cancels.overflow_ending {scope : Scope} {reason : Reason} {ending : Bool}
    (h : s.Cancels scope reason ending s') (hover : s.overflowed c = false)
    (hover' : s'.overflowed c = true) : s'.Ending c := by
  cases h with
  | inactive => cases hover.symm.trans hover'
  | sufficed => cases hover.symm.trans hover'
  | barred a s' ha hf hp => exact hp.ending ha rfl hover hover'

/-- An ending controller stays so, or goes. -/
lemma Ending.cancels {scope : Scope} {reason : Reason} {ending : Bool} (h : s.Ending c)
    (hc : s.Cancels scope reason ending s') : s'.Ending c := by
  obtain ⟨a, ha, hid, hcase⟩ := h
  cases hf : s.flight.any (·.ending) with
  | true =>
      have heq := hc.eq_of_ending hf
      subst heq
      exact ⟨a, ha, hid, Or.inr hf⟩
  | false =>
      rw [hf] at hcase
      obtain ⟨b, hb, hend⟩ := hc.barrier_ending ha hf (Or.inr (hcase.resolve_right (by simp)))
      exact ⟨a, hc.frame.active.trans ha, hid, Or.inl (by rw [hb]; exact hend)⟩

/-- A mailbox that overflows calls for the end of its controller. -/
lemma Acts.overflow_ending (h : s.Acts l r s') (ho : s.Owned) (hover : s.overflowed c = false)
    (hover' : s'.overflowed c = true) : s'.Ending c ∨ s'.Gone c := by
  cases h with
  | dispatched now a r s' ha hf hb hd =>
      cases hd with
      | refused pre rest s' hq href hp hend => exact Or.inl (hp.ending ha rfl hover hover')
      | dispatched => cases hover.symm.trans hover'
  | completed f event outcome a mid s' hf hop ha hp hkeep hcancel =>
      have hid := (Active.apply_same a event outcome).1
      by_cases hends : outcome.Ends
      · have hmid : mid.active = some (if outcome = .executed then a.apply event else a) :=
          hp.frame.active
        cases hm : mid.overflowed c with
        | false => exact Or.inl ((hcancel hends).overflow_ending hm hover')
        | true => exact Or.inl ((hp.ending rfl hid hover hm).cancels (hcancel hends))
      · rw [hkeep hends] at hover' ⊢
        exact Or.inl (hp.ending rfl hid hover hover')
  | cleanupFailed f scope reason outcome a mid hf hop ha hout hp =>
      have hc : c = a.id := hp.overflow_id hover hover'
      refine Or.inr ⟨fun d hd => (by cases hd), ?_⟩
      rw [hc, ho.id a ha]
      exact hp.frame.nextController ▸ UInt64.le_refl _
  | cleanupEnded f scope reason a mid hf hop ha hend hp =>
      have hc : c = a.id := hp.overflow_id hover hover'
      refine Or.inr ⟨fun d hd => (by cases hd), ?_⟩
      rw [hc, ho.id a ha]
      exact hp.frame.nextController ▸ UInt64.le_refl _
  | cleanupRenewed f scope reason a s' hf hop ha hend hb hp =>
      exact Or.inl (hp.ending rfl rfl hover hover')
  | geometry g s' hv hrev hc => exact Or.inl (hc.overflow_ending hover hover')
  | superseded p now epoch sequence event a front tail motion s' hr hm hq hop hmot hcount =>
      exact Or.inl (hcount.ending rfl rfl hover hover')
  | overflowed p now epoch sequence event a s' hr hfull hc =>
      exact Or.inl (hc.overflow_ending hover hover')
  | reset p a s' ha hid hc => exact Or.inl (hc.overflow_ending hover hover')
  | close l p a s' hl ha hid hc => exact Or.inl (hc.overflow_ending hover hover')
  | _ => cases hover.symm.trans hover'

/-- An ending controller is ending or gone after the next call. -/
lemma Ending.acts (h : s.Ending c) (hs : Reached s) (hacts : s.Acts l r s') :
    s'.Ending c ∨ s'.Gone c := by
  have hphase : Phase s c ([] ++ [(l, r)]) s' := (Phase.runs hs h .nil).acts hs hacts
  cases hphase with
  | pending a b ha hid hb hend hnot hf hw =>
      exact Or.inl ⟨a, ha, hid, Or.inl (by rw [hb]; exact hend)⟩
  | cleaning a f ha hid hf hend hw => exact Or.inl ⟨a, ha, hid, Or.inr (by rw [hf]; exact hend)⟩
  | gone hgone hconc => exact Or.inr hgone

lemma timed_eq_expire {now : ℕ} (h : l.checks = some now) : s.timed l = s.expire now := by
  cases l <;> cases h <;> rfl

lemma Acts.ending_of_close {p : Controller} (h : s.Acts l r s') (hl : l = .close p ∨ l = .drop p)
    (ha : s.active = some a) (hid : a.id = p.id) : s'.Ending a.id := by
  have cancelled : ∀ q a', l = .close q ∨ l = .drop q → s.active = some a' →
      s.Cancels .all .disconnect true s' → s'.Ending a.id := by
    intro q a' _ ha' hc
    exact hc.ending ha
  cases h with
  | close l q a' s' hl' ha' hid' hc => exact cancelled q a' hl' ha' hc
  | idle l r hi =>
      rcases hl with rfl | rfl
      · exact absurd hid (hi.2 a ha)
      · exact absurd hid (hi.2 a ha)
  | _ => rcases hl with hl | hl <;> cases hl

lemma Acts.ending_of_overflow {p : Controller} {now : ℕ} {epoch sequence : UInt64} {event : Event}
    (h : s.Acts (.submit p now epoch sequence event) (.error .overflow) s') : s'.Ending p.id := by
  cases h with
  | idle l r hi => rcases hi with ⟨hr, -⟩ | ⟨hr, -⟩ <;> cases hr
  | refused p now epoch sequence event a e ha hid hseq href =>
      obtain ⟨-, -, -, hval⟩ := href
      exact absurd rfl ((ofEvent_of_validate hval).ne (Or.inr rfl))
  | overflowed p now epoch sequence event a s' hr hfull hc =>
      have hend := hc.ending rfl
      rwa [← hr.id]

lemma Acts.ending_of_outcome {f : Flight} {e : Event} {outcome : Outcome} (ho : s.Owned)
    (h : s.Acts (.complete f.work.id outcome) r s') (hf : s.flight = some f)
    (hop : f.work.operation = .event e) (hends : outcome.Ends) :
    s'.Ending f.work.controller := by
  have hcall : ∀ (l : Call), l = .complete f.work.id outcome → s.Acts l r s' →
      s'.Ending f.work.controller := by
    intro l hl hacts
    have hexec : outcome ≠ .executed := by
      rintro rfl
      rcases hends with h0 | h0 <;> cases h0
    cases hacts with
    | idle l r hi =>
        subst hl
        exact absurd rfl (hi.2 f hf)
    | completed f' e' outcome' a mid s' hf' hop' ha hp hkeep hcancel =>
        cases hf.symm.trans hf'
        cases hl
        have hmid : mid.active = some (if outcome = .executed then a.apply e' else a) :=
          hp.frame.active
        have hend := (hcancel hends).ending hmid
        rw [(Active.apply_same a e' outcome).1] at hend
        rwa [(ho.flight f a hf ha).1]
    | cleanupFailed f' scope reason outcome' a mid hf' hop' =>
        cases hf.symm.trans hf'
        cases hop.symm.trans hop'
    | cleanupEnded => exact absurd (Call.complete.inj hl).2.symm hexec
    | cleanupRenewed => exact absurd (Call.complete.inj hl).2.symm hexec
    | cleanupBarred => exact absurd (Call.complete.inj hl).2.symm hexec
    | close l q a s' hl' => subst hl; rcases hl' with hl' | hl' <;> cases hl'
    | _ => cases hl
  exact hcall _ rfl h

/-- **Every trigger ends the controller.** -/
lemma ending_of_triggers (hs : Reached s) (h : s.Triggers c l) :
    (s.call l).1.Ending c ∨ (s.call l).1.Gone c := by
  have htimed : Reached (s.timed l) := hs.timed l
  have ho : (s.timed l).Owned := owned_of_reached htimed
  have hacts := acts_of_call l htimed.linked
  cases h with
  | close p a l hl hp ha hid =>
      have heq : s.timed l = s := by rcases hl with rfl | rfl <;> rfl
      rw [heq] at hacts
      rw [← hid]
      exact Or.inl (hacts.ending_of_close hl ha (hid.trans hp.symm))
  | expiry a now l hchecks ha hid hlate =>
      refine Ending.acts ?_ htimed hacts
      rw [timed_eq_expire hchecks, expire, ha]
      dsimp only
      rw [if_pos hlate, ← hid]
      exact (cancels_cancel s .all .expired true).ending ha
  | queue p now epoch sequence event hp hr =>
      rw [hr] at hacts
      rw [← hp]
      exact Or.inl hacts.ending_of_overflow
  | mailbox l hover hover' =>
      cases hm : (s.timed l).overflowed c with
      | false => exact hacts.overflow_ending ho hm hover'
      | true =>
          rcases s.timed_cases l with heq | hc
          · rw [heq, hover] at hm
            cases hm
          · exact (hc.overflow_ending hover hm).acts htimed hacts
  | outcome f e outcome hf hop hctrl hends =>
      rw [← hctrl]
      exact Or.inl (hacts.ending_of_outcome ho hf hop hends)

/-- Nobody is admitted beside a controller. -/
lemma admitController_busy (hs : Reached s) (ha : s.active = some a) (mode : Mode) (now : ℕ) :
    s.call (.admitController mode now) = (s, .error .busy) := by
  have hfail : s.failed = false := by
    by_contra h0
    rw [(owned_of_reached hs).failed (by simpa using h0)] at ha
    cases ha
  have hbusy : s.admitController mode now = (s, .error .busy) := by
    rw [admitController, if_neg (by rw [hfail]; simp), if_pos (by rw [ha]; rfl)]
  rw [call, hbusy]

/-- Nobody is admitted to a target whose cleanup has failed. -/
lemma admitController_failed (hfail : s.failed = true) (mode : Mode) (now : ℕ) :
    s.call (.admitController mode now) = (s, .error .cleanupFailed) := by
  have hrefused : s.admitController mode now = (s, .error .cleanupFailed) := by
    rw [admitController, if_pos hfail]
  rw [call, hrefused]

/-- Only `resolve_failed_cleanup` resolves a failed cleanup. -/
lemma Acts.failed_of_failed (h : s.Acts l r s') (hs : Reached s) (hfail : s.failed = true)
    (hres : ¬ (l = .resolveFailedCleanup ∧ r = .done)) : s'.failed = true := by
  have hnone : s.active = none := (owned_of_reached hs).failed hfail
  cases h with
  | idle => exact hfail
  | admitted mode now id h0 => cases hfail.symm.trans h0
  | discarded => exact hfail
  | geometry g s' hv hrev hc => exact hc.frame.failed.trans hfail
  | resolved => exact absurd ⟨rfl, rfl⟩ hres
  | polled => exact hfail
  | cleanup now b a work hf hb ha => cases hnone.symm.trans ha
  | dispatched now a r s' ha => cases hnone.symm.trans ha
  | completed f event outcome a mid s' hf hop ha => cases hnone.symm.trans ha
  | cleanupFailed f scope reason outcome a mid hf hop ha => cases hnone.symm.trans ha
  | cleanupEnded f scope reason a mid hf hop ha => cases hnone.symm.trans ha
  | cleanupRenewed f scope reason a s' hf hop ha => cases hnone.symm.trans ha
  | cleanupBarred f scope reason a hf hop ha => cases hnone.symm.trans ha
  | heartbeat c now a ha => cases hnone.symm.trans ha
  | refused c now epoch sequence event a e ha => cases hnone.symm.trans ha
  | superseded c now epoch sequence event a front tail motion s' hr => cases hnone.symm.trans hr.active
  | overflowed c now epoch sequence event a s' hr => cases hnone.symm.trans hr.active
  | accepted c now epoch sequence event a hr => cases hnone.symm.trans hr.active
  | reset c a s' ha => cases hnone.symm.trans ha
  | close l c a s' hl ha => cases hnone.symm.trans ha

/-- A cleanup that is completed with any outcome but `Executed` has failed. -/
lemma failed_of_complete (hs : Reached s) {f : Flight} {outcome : Outcome} (hf : s.flight = some f)
    (hclean : f.work.isCleanup = true) (hout : outcome ≠ .executed) :
    (s.call (.complete f.work.id outcome)).1.failed = true := by
  cases hop : f.work.operation with
  | event e =>
      rw [Work.isCleanup, hop] at hclean
      cases hclean
  | cleanup scope reason =>
      have hcall : ∀ l r s', l = .complete f.work.id outcome → s.Acts l r s' → s'.failed = true := by
        intro l r s' hl hacts
        cases hacts with
        | idle l r hi =>
            subst hl
            exact absurd rfl (hi.2 f hf)
        | completed f' e' outcome' a mid s' hf' hop' =>
            cases hf.symm.trans hf'
            cases hop.symm.trans hop'
        | cleanupFailed f' scope reason outcome' a mid hf' hop' ha hout hp => exact hp.frame.failed
        | cleanupEnded => exact absurd (Call.complete.inj hl).2.symm hout
        | cleanupRenewed => exact absurd (Call.complete.inj hl).2.symm hout
        | cleanupBarred => exact absurd (Call.complete.inj hl).2.symm hout
        | close l q a s' hl' =>
            subst hl
            rcases hl' with hl' | hl' <;> cases hl'
        | _ => cases hl
      exact hcall _ _ _ rfl (acts_of_call (.complete f.work.id outcome) hs.linked)

end State

/-- **Ending a controller is a one-way barrier.** In every run:

* each trigger brings the controller to its end, or finds it ended;
* whatever calls follow, an ending controller is given no event, but one `All` cleanup at
  most, and none if the cleanup that ends it is in flight already; it is there, and
  nobody is admitted, until that cleanup is completed, or a cleanup that was in flight
  when the end was called for fails;
* a cleanup that is completed with another outcome than `Executed` has failed, and nobody
  is admitted until the failure is resolved. -/
theorem end_final {config : Config} {tr : Trace} {s : State} (h : Run config Always tr s)
    (c : UInt64) :
    (∀ l, s.Triggers c l → (s.call l).1.Ending c ∨ (s.call l).1.Gone c) ∧
      (s.Ending c → ∀ tr' s', Runs State.call Always s tr' s' →
        (∀ w ∈ worksOf c tr', ∃ reason, w.operation = .cleanup .all reason) ∧
        (worksOf c tr').length ≤ 1 ∧ (s.flight.any (·.ending) = true → worksOf c tr' = []) ∧
        ((s'.Ending c ∧ ∀ mode now, (s'.call (.admitController mode now)).2 = .error .busy) ∨
          s'.Gone c ∧ Concluded s c tr')) ∧
      (∀ f outcome, s.flight = some f → f.work.isCleanup = true → outcome ≠ .executed →
        (s.call (.complete f.work.id outcome)).1.failed = true) ∧
      (s.failed = true → ∀ tr' s', Runs State.call Always s tr' s' →
        (.resolveFailedCleanup, .done) ∉ tr' →
        ∀ mode now, (s'.call (.admitController mode now)).2 = .error .cleanupFailed) := by
  have hs : Reached s := ⟨config, tr, h⟩
  refine ⟨fun l hl => State.ending_of_triggers hs hl, fun hend tr' s' hruns => ?_,
    fun f outcome hf hclean hout => State.failed_of_complete hs hf hclean hout,
    fun hfail tr' s' hruns hres mode now => ?_⟩
  · have hs' : Reached s' := ⟨config, _, h.append hruns⟩
    have busy : ∀ a, s'.active = some a →
        ∀ mode now, (s'.call (.admitController mode now)).2 = .error .busy := by
      intro a ha mode now
      rw [State.admitController_busy hs' ha]
    cases Phase.runs hs hend hruns with
    | pending a b ha hid hb hbend hnot hf hw =>
        rw [hw]
        refine ⟨fun w hw' => (by cases hw'), Nat.zero_le _, fun _ => rfl, Or.inl ⟨⟨a, ha, hid, ?_⟩,
          busy a ha⟩⟩
        exact Or.inl (by rw [hb]; exact hbend)
    | cleaning a f ha hid hf hfend hw =>
        obtain ⟨-, reason, hall⟩ := (State.owned_of_reached hs').ending f hf hfend
        have hending : s'.Ending c := ⟨a, ha, hid, Or.inr (by rw [hf]; exact hfend)⟩
        rcases hw with ⟨hnot, hw⟩ | ⟨-, hw⟩
        · rw [hw]
          refine ⟨fun w hw' => ?_, le_rfl, fun h0 => ?_, Or.inl ⟨hending, busy a ha⟩⟩
          · rw [List.mem_singleton.mp hw']
            exact ⟨reason, hall⟩
          · cases hnot.symm.trans h0
        · rw [hw]
          exact ⟨fun w hw' => (by cases hw'), Nat.zero_le _, fun _ => rfl,
            Or.inl ⟨hending, busy a ha⟩⟩
    | gone hgone hconc =>
        rcases id hconc with ⟨w, outcome, r, reason, -, hop, ⟨hnot, hw⟩ | ⟨-, hw⟩⟩ | ⟨hw, -⟩
        · rw [hw]
          refine ⟨fun v hv => ?_, le_rfl, fun h0 => ?_, Or.inr ⟨hgone, hconc⟩⟩
          · rw [List.mem_singleton.mp hv]
            exact ⟨reason, hop⟩
          · cases hnot.symm.trans h0
        · rw [hw]
          exact ⟨fun v hv => (by cases hv), Nat.zero_le _, fun _ => rfl, Or.inr ⟨hgone, hconc⟩⟩
        · rw [hw]
          exact ⟨fun v hv => (by cases hv), Nat.zero_le _, fun _ => rfl, Or.inr ⟨hgone, hconc⟩⟩
  · have hfailed : (.resolveFailedCleanup, .done) ∉ tr' → s'.failed = true := by
      refine hs.continued (P := fun tr s => (.resolveFailedCleanup, .done) ∉ tr → s.failed = true)
        hruns (fun _ => hfail) (fun tr s l _ _ h0 hc hnot => ?_)
        fun tr s l r s' hs _ h0 _ hacts hnot => ?_
      · exact hc.frame.failed.trans (h0 hnot)
      · rw [List.mem_append, not_or] at hnot
        refine hacts.failed_of_failed hs (h0 hnot.1) ?_
        rintro ⟨rfl, rfl⟩
        exact hnot.2 (List.mem_singleton_self _)
    rw [State.admitController_failed (hfailed hres)]

/-- A controller that is asked to reset and closes before it is done. -/
def closing : List Call :=
  [.admitController .cooperative 0,
    .reset ⟨1, .cooperative⟩,
    .next 0,
    .close ⟨1, .cooperative⟩]

theorem end_final_closing :
    let s := (record State.call { config := tiny } closing).2
    (∀ l, s.Triggers 1 l → (s.call l).1.Ending 1 ∨ (s.call l).1.Gone 1) ∧
      (s.Ending 1 → ∀ tr' s', Runs State.call Always s tr' s' →
        (∀ w ∈ worksOf 1 tr', ∃ reason, w.operation = .cleanup .all reason) ∧
        (worksOf 1 tr').length ≤ 1 ∧ (s.flight.any (·.ending) = true → worksOf 1 tr' = []) ∧
        ((s'.Ending 1 ∧ ∀ mode now, (s'.call (.admitController mode now)).2 = .error .busy) ∨
          s'.Gone 1 ∧ Concluded s 1 tr')) ∧
      (∀ f outcome, s.flight = some f → f.work.isCleanup = true → outcome ≠ .executed →
        (s.call (.complete f.work.id outcome)).1.failed = true) ∧
      (s.failed = true → ∀ tr' s', Runs State.call Always s tr' s' →
        (.resolveFailedCleanup, .done) ∉ tr' →
        ∀ mode now, (s'.call (.admitController mode now)).2 = .error .cleanupFailed) :=
  end_final (Run.of_record tiny new_tiny closing) 1

/-- **A cleanup that fails under a pending end is the last one**: the end has been called
for, the controller is gone, and no cleanup that was to end it has been returned. -/
theorem end_without_cleanup :
    ¬ ∀ (config : Config) (tr : Trace) (s : State) (c : UInt64), Run config Always tr s →
      s.Ending c → ∀ tr' s', Runs State.call Always s tr' s' → s'.Gone c →
        (worksOf c tr').length + (s.flight.toList.filter (·.ending)).length = 1 := by
  intro h
  have hrun := Run.of_record tiny new_tiny closing
  have hend : (record State.call { config := tiny } closing).2.Ending 1 := by decide +kernel
  have hruns := Runs.of_record State.call (record State.call { config := tiny } closing).2
    [.complete 1 .uncertain]
  have hone := h tiny _ _ 1 hrun hend _ _ hruns (by decide +kernel)
  revert hone
  decide +kernel

end Jackstay.Input
