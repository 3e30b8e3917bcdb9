import Jackstay.Input.Sound

/-!
Mailboxes that do not overflow.

* `State.Posts.of_fits`, `State.Counts.of_fits`: what a call does to a mailbox that has
  not overflowed after it.
* `State.Acts.not_overflowed`: an overflow is never forgotten.
* `State.Emptied`: unless the mailbox has overflowed, an `All` barrier or cleanup leaves
  nothing queued.
-/

namespace Jackstay.Input

namespace State

variable {s s' : State} {a : Active} {statuses : List Status} {queue kept : List Work} {c : UInt64}

/-! ### No overflow -/

/-- The mailbox has not overflowed: the statuses are in it. -/
lemma Posts.of_fits (h : s.Posts a statuses queue kept s') (hover : s'.overflowed a.id = false) :
    s' = ({ s with queue } : State).append a statuses := by
  cases h with
  | appended => rfl
  | overflowed rest hrest hfull =>
      have htrue : (s.overflow a rest).overflowed a.id = true := Function.update_self _ _ _
      cases htrue.symm.trans hover

/-- An overflow is never forgotten. -/
lemma Posts.not_overflowed (h : s.Posts a statuses queue kept s') (hover : s'.overflowed c = false) :
    s.overflowed c = false := by
  by_cases hc : c = a.id
  · subst hc
    rw [h.of_fits hover] at hover
    exact hover
  · exact (h.mailbox_of_ne hc).2 ▸ hover

/-- The count is in the mailbox, by itself or with the newest. -/
lemma Counts.of_fits (h : s.Counts a s') (hover : s'.overflowed a.id = false) :
    s' = s.append a [.coalesced 1] ∨ ∃ rest count, s.mailboxes a.id = rest ++ [.coalesced count] ∧
      s' = s.merge a rest count 1 := by
  cases h with
  | merged rest count hbox => exact Or.inr ⟨rest, count, hbox, rfl⟩
  | appended => exact Or.inl rfl
  | overflowed hfull =>
      have htrue : (s.overflow a []).overflowed a.id = true := Function.update_self _ _ _
      cases htrue.symm.trans hover

lemma Counts.mailbox_of_ne (h : s.Counts a s') (hc : c ≠ a.id) :
    s'.mailboxes c = s.mailboxes c ∧ s'.overflowed c = s.overflowed c := by
  cases h with
  | merged => exact ⟨Function.update_of_ne hc _ _, rfl⟩
  | appended => exact ⟨Function.update_of_ne hc _ _, rfl⟩
  | overflowed => exact ⟨Function.update_of_ne hc _ _, Function.update_of_ne hc _ _⟩

lemma Counts.not_overflowed (h : s.Counts a s') (hover : s'.overflowed c = false) :
    s.overflowed c = false := by
  by_cases hc : c = a.id
  · subst hc
    rcases h.of_fits hover with rfl | ⟨rest, count, -, rfl⟩ <;> exact hover
  · exact (h.mailbox_of_ne hc).2 ▸ hover

variable {scope : Scope} {reason : Reason} {ending : Bool}

lemma Cancels.not_overflowed (h : s.Cancels scope reason ending s')
    (hover : s'.overflowed c = false) : s.overflowed c = false := by
  cases h with
  | inactive => exact hover
  | sufficed => exact hover
  | barred a s' ha hf hp => exact hp.not_overflowed hover

/-- **An overflow is never forgotten.** -/
lemma Acts.not_overflowed {l : Call} {r : Reply} (h : s.Acts l r s')
    (hover : s'.overflowed c = false) : s.overflowed c = false := by
  cases h with
  | dispatched now a r s' ha hf hb hd =>
      cases hd with
      | refused pre rest s' hq href hp hend => exact hp.not_overflowed hover
      | dispatched => exact hover
  | completed f event outcome a mid s' hf hop ha hp hkeep hcancel =>
      by_cases ho : outcome.Ends
      · exact hp.not_overflowed ((hcancel ho).not_overflowed hover)
      · rw [hkeep ho] at hover
        exact hp.not_overflowed hover
  | cleanupFailed f scope reason outcome a mid hf hop ha ho hp => exact hp.not_overflowed hover
  | cleanupEnded f scope reason a mid hf hop ha hend hp => exact hp.not_overflowed hover
  | cleanupRenewed f scope reason a s' hf hop ha hend hb hp => exact hp.not_overflowed hover
  | geometry g s' hv hrev hc => exact hc.not_overflowed hover
  | superseded c now epoch sequence event a front tail motion s' hr hm hq hop hmot hcount =>
      exact hcount.not_overflowed hover
  | overflowed c now epoch sequence event a s' hr hfull hc => exact hc.not_overflowed hover
  | reset c a s' ha hid hc => exact hc.not_overflowed hover
  | close l c a s' hl ha hid hc => exact hc.not_overflowed hover
  | _ => exact hover

/-! ### What an `All` barrier leaves -/

/-- The flight is a cleanup of everything. -/
def Sweeps (s : State) : Prop :=
  (∃ b, s.barrier = some b ∧ b.scope = .all) ∨
    ∃ f reason, s.flight = some f ∧ f.work.operation = .cleanup .all reason

/-- **An `All` barrier or cleanup leaves nothing queued**, unless the mailbox has
overflowed while it was set. -/
def Emptied (s : State) : Prop :=
  ∀ a, s.active = some a → s.overflowed a.id = false → s.Sweeps → s.queue = []

lemma filter_drops_all (queue : List Work) :
    queue.filter (fun w => !Scope.drops .all w) = [] := by
  simp [Scope.drops]

/-- Statuses for works that leave the queue. -/
lemma Emptied.posts (h : s.Emptied) (hp : s.Posts a statuses queue kept s')
    (ha : s.active = some a) (hq : s.queue = [] → queue = []) : s'.Emptied := by
  intro b hb hover hs
  have hact : s'.active = some a := hp.frame.active.trans ha
  cases hact.symm.trans hb
  have heq := hp.of_fits hover
  subst heq
  exact hq (h a ha hover hs)

lemma Emptied.cancels (h : s.Emptied) (hc : s.Cancels scope reason ending s') : s'.Emptied := by
  cases hc with
  | inactive => exact h
  | sufficed => exact h
  | barred a s' ha hf hp =>
      intro b hb hover hs
      have hact : s'.active = some a := hp.frame.active.trans ha
      cases hact.symm.trans hb
      have heq := hp.of_fits hover
      subst heq
      rcases hs with ⟨b, hb, hall⟩ | hs
      · cases hb
        have hgoal : s.queue.filter
            (fun w => !(s.barred scope reason ending).scope.drops w) = [] := by
          rw [hall]
          exact filter_drops_all s.queue
        exact hgoal
      · have hgoal : s.queue.filter
            (fun w => !(s.barred scope reason ending).scope.drops w) = [] := by
          rw [h a ha hover (Or.inr hs)]
          rfl
        exact hgoal

/-- The flight is over, and a barrier is as before. -/
lemma Sweeps.of_land (h : s'.Sweeps) (hf : s'.flight = none) (hb : s'.barrier = s.barrier) :
    s.Sweeps := by
  rcases h with ⟨b, h0, hall⟩ | ⟨f, reason, h0, -⟩
  · exact Or.inl ⟨b, hb ▸ h0, hall⟩
  · rw [hf] at h0
    cases h0

lemma Sweeps.not_ready (h : s.Sweeps) {d : Controller} {epoch sequence : UInt64} {event : Event}
    (hr : s.Ready d epoch sequence event a) : False := by
  rcases h with ⟨b, hb, -⟩ | ⟨f, reason, hf, hop⟩
  · cases hr.barrier.symm.trans hb
  · have hclean := hr.cleaning
    rw [cleaning_of_flight hf, Work.isCleanup, hop] at hclean
    cases hclean

lemma not_sweeps (hf : s.flight = none) (hb : s.barrier = none) : ¬ s.Sweeps := by
  rintro (⟨b, h0, -⟩ | ⟨f, reason, h0, -⟩)
  · cases hb.symm.trans h0
  · cases hf.symm.trans h0

lemma Emptied.reactivate (h : s.Emptied) (ha : s.active = some a) {b : Active}
    (hid : b.id = a.id) : ({ s with active := some b } : State).Emptied := by
  intro b' hb' hover hs
  cases hb'
  exact h a ha (hid ▸ hover) hs

/-- **Every call keeps it.** -/
lemma Emptied.acts (h : s.Emptied) {l : Call} {r : Reply} (hl : s.Linked) (ho : s.Owned)
    (hacts : s.Acts l r s') : s'.Emptied := by
  have ended : ∀ t : State, t.active = none → t.Emptied := by
    intro t ht b hb
    cases ht.symm.trans hb
  cases hacts with
  | idle => exact h
  | admitted mode now id hfail ha hmode hid => exact fun _ _ _ _ => hl.queue_eq_nil ha
  | cleanup now b a work hf hb ha hw =>
      subst hw
      intro b' hb' hover hs
      rcases hs with ⟨b₁, hb₁, -⟩ | ⟨f, reason, h0, hop⟩
      · cases hb₁
      · cases h0
        refine h b' hb' hover (Or.inl ⟨b, hb, ?_⟩)
        have hop : Operation.cleanup b.scope b.reason = .cleanup .all reason := hop
        injection hop
  | discarded now ha hf hb => exact ended _ ha
  | dispatched now a r s' ha hf hb hd =>
      cases hd with
      | refused pre rest s' hq href hp hend =>
          refine h.posts hp ha fun hnil => ?_
          rw [hq] at hnil
          exact (List.append_eq_nil_iff.mp hnil).2
      | dispatched pre w bound rest hq href hbind hfit =>
          intro b hb' hover hs
          rcases hs with ⟨b₁, hb₁, -⟩ | ⟨f, reason, h0, hop⟩
          · cases hb.symm.trans hb₁
          · cases h0
            have hmem : w ∈ s.queue := by
              rw [hq]
              exact List.mem_append_right _ List.mem_cons_self
            obtain ⟨-, -, e, he, -⟩ := ho.queue a ha w hmem
            obtain ⟨e', rfl, -, -⟩ := bind_ok ha he hbind
            cases hop
  | completed f event outcome a mid s' hf hop ha hp hkeep hcancel =>
      have hid := (Active.apply_same a event outcome).1
      have hland : ({ s with flight := none } : State).Emptied :=
        fun b hb hover hs => h b hb hover (hs.of_land rfl rfl)
      have hmid : mid.Emptied :=
        (hland.reactivate ha hid).posts (hp.of_id hid.symm) rfl fun hnil => hnil
      by_cases hends : outcome.Ends
      · exact hmid.cancels (hcancel hends)
      · rw [hkeep hends]
        exact hmid
  | cleanupFailed f scope reason outcome a mid hf hop ha ho hp => exact ended _ rfl
  | cleanupEnded f scope reason a mid hf hop ha hend hp => exact ended _ rfl
  | cleanupRenewed f scope reason a s' hf hop ha hend hb hp =>
      have hid : a.id = ({ a.release scope with epoch := a.epoch + 1 } : Active).id := rfl
      refine Emptied.posts ?_ (hp.of_id hid) rfl fun hnil => hnil
      exact fun b _ _ hs => absurd hs (not_sweeps rfl hb)
  | cleanupBarred f scope reason a hf hop ha hend hb =>
      intro b hb' hover hs
      cases hb'
      exact h a ha hover (hs.of_land rfl rfl)
  | geometry g s' hv hrev hc =>
      have hg : ({ s with config := { s.config with geometry := g } } : State).Emptied := h
      exact hg.cancels hc
  | resolved hfail hf => exact h
  | heartbeat c now a ha hid => exact h.reactivate ha rfl
  | refused c now epoch sequence event a e ha hid hseq href => exact h.reactivate ha rfl
  | superseded c now epoch sequence event a front tail motion s' hr hm hq hop hmot hcount =>
      intro b hb hover hs
      have hact : s'.active = some { a with lastSequence := sequence } := hcount.frame.active
      cases hact.symm.trans hb
      have hbarred : s'.barrier = s.barrier := by
        rcases hcount.of_fits hover with rfl | ⟨rest, count, -, rfl⟩ <;> rfl
      have hflight : s'.flight = s.flight := hcount.frame.flight
      rcases hs with ⟨b, hb, hall⟩ | ⟨f, reason, hf, hop⟩
      · exact (Sweeps.not_ready (Or.inl ⟨b, hbarred ▸ hb, hall⟩) hr).elim
      · exact (Sweeps.not_ready (Or.inr ⟨f, reason, hflight ▸ hf, hop⟩) hr).elim
  | overflowed c now epoch sequence event a s' hr hfull hc =>
      exact (h.reactivate hr.active (b := { a with lastSequence := sequence }) rfl).cancels hc
  | accepted c now epoch sequence event a hr hmot hroom hbytes =>
      intro b _ _ hs
      have hs : s.Sweeps := hs
      exact (hs.not_ready hr).elim
  | reset c a s' ha hid hc => exact h.cancels hc
  | close l c a s' hl ha hid hc => exact h.cancels hc
  | polled c => exact h

lemma emptied_of_reached (h : Reached s) : s.Emptied := by
  refine h.invariant (fun config s₀ hnew => ?_) (fun s s' _ h hc => h.cancels hc)
    fun s l r s' hs h hacts => h.acts hs.linked (owned_of_reached hs) hacts
  rw [(new_eq hnew).1]
  exact fun _ _ _ _ => rfl

end State

end Jackstay.Input
