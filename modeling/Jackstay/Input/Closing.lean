import Jackstay.Input.Settlement

/-!
The last status of a mailbox.

* `Swept c xs`: the last work that was completed for a controller is an `All` cleanup,
  and it was executed.
* `closed_last`: in every run `Closed` is the last status of a mailbox that does not
  overflow, and tells whether the controller was swept.
* `closed_twice`: a mailbox that overflows is told `Closed` twice.
-/

namespace Jackstay.Input

open Traces

/-- The final `All` cleanup of the controller has been executed. -/
def Swept (c : UInt64) (xs : List (Work × Outcome)) : Prop :=
  ∃ w reason, (xs.filter (·.1.controller == c)).getLast? = some (w, .executed) ∧
    w.operation = .cleanup .all reason

/-- Nothing has been posted, or `Closed` ends what has been posted. -/
def Sealed (c : UInt64) (statuses : List Status) (xs : List (Work × Outcome)) : Prop :=
  statuses = [] ∨ ∃ pre reason clean, statuses = pre ++ [.closed reason clean] ∧
    (∀ st ∈ pre, st.isClosed = false) ∧ (clean = true ↔ Swept c xs)

/-- **The mailbox of a controller is open while it is there**, and sealed afterwards. -/
structure Closing (tr : Trace) (s : State) (c : UInt64) : Prop where
  active : ∀ a, s.active = some a → a.id = c → ∀ st ∈ posted c tr s, st.isClosed = false
  ended : (∀ a, s.active = some a → a.id ≠ c) → Sealed c (posted c tr s) (executions tr)

/-- All mailboxes that have not overflowed. -/
structure Closings (tr : Trace) (s : State) : Prop where
  fresh : ∀ c, s.nextController < c → polled c tr = []
  closing : ∀ c, s.overflowed c = false → Closing tr s c

variable {tr : Trace} {s s' : State} {a : Active} {c : UInt64} {l : Call} {r : Reply}

lemma swept_snoc (c : UInt64) (xs : List (Work × Outcome)) {w : Work} (hw : w.controller = c)
    (outcome : Outcome) :
    Swept c (xs ++ [(w, outcome)]) ↔
      outcome = .executed ∧ ∃ reason, w.operation = .cleanup .all reason := by
  have hlast : ((xs ++ [(w, outcome)]).filter (·.1.controller == c)).getLast? = some (w, outcome) := by
    rw [List.filter_append]
    simp [hw]
  rw [Swept, hlast]
  constructor
  · rintro ⟨v, reason, hv, hop⟩
    cases hv
    exact ⟨rfl, reason, hop⟩
  · rintro ⟨rfl, reason, hop⟩
    exact ⟨w, reason, rfl, hop⟩

/-- What is completed for another controller. -/
lemma executions_filter (hs : Reached s) (hv : (view tr).flight = s.flight.map (·.work))
    (hacts : s.Acts l r s') (hne : ∀ a, s.active = some a → a.id ≠ c) :
    (executions (tr ++ [(l, r)])).filter (·.1.controller == c) =
      (executions tr).filter (·.1.controller == c) := by
  rcases hacts.flight_cases with ⟨now, w, rfl, rfl, -⟩ | ⟨f, outcome, rfl, hf, -, hr⟩ |
    ⟨-, -, hcomp⟩
  · rw [executions_snoc fun _ _ hl => by cases hl]
  · have hsome : s.active.isSome := hs.linked.flight (by rw [hf]; rfl)
    obtain ⟨a, ha⟩ := Option.isSome_iff_exists.mp hsome
    have hown : f.work.controller = a.id := ((State.owned_of_reached hs).flight f a hf ha).1
    have hneq : f.work.controller ≠ c := hown ▸ hne a ha
    rw [executions_complete hv hf _ _ hr, List.filter_append]
    simp [hneq]
  · rw [executions_snoc hcomp]

/-- A call that ends no controller and posts no `Closed`. -/
lemma Closing.general (h : Closing tr s c) (hs : Reached s)
    (hv : (view tr).flight = s.flight.map (·.work)) (hacts : s.Acts l r s')
    (hpoll : ∀ p, l ≠ .poll p)
    (hact : ∀ b, s'.active = some b → b.id = c → (∃ a, s.active = some a ∧ a.id = c) ∧
      ∀ st ∈ s'.mailboxes c, st ∈ s.mailboxes c ∨ st.isClosed = false)
    (hstay : ∀ a, s.active = some a → a.id = c → ∃ b, s'.active = some b ∧ b.id = c)
    (hbox : (∀ a, s.active = some a → a.id ≠ c) → s'.mailboxes c = s.mailboxes c) :
    Closing (tr ++ [(l, r)]) s' c := by
  have hpolled : polled c (tr ++ [(l, r)]) = polled c tr := polled_of_none (yielded_of_ne hpoll)
  refine ⟨fun b hb hid st hst => ?_, fun hne => ?_⟩
  · obtain ⟨⟨a, ha, hida⟩, hclosed⟩ := hact b hb hid
    rw [posted, hpolled] at hst
    rcases List.mem_append.mp hst with hst | hst
    · exact h.active a ha hida st (List.mem_append_left _ hst)
    · rcases hclosed st hst with h0 | h0
      · exact h.active a ha hida st (List.mem_append_right _ h0)
      · exact h0
  · have hne₀ : ∀ a, s.active = some a → a.id ≠ c := by
      intro a ha hid
      obtain ⟨b, hb, hidb⟩ := hstay a ha hid
      exact hne b hb hidb
    rw [posted, hpolled, hbox hne₀]
    refine (h.ended hne₀).imp id ?_
    rintro ⟨pre, reason, clean, heq, hpre, hclean⟩
    refine ⟨pre, reason, clean, heq, hpre, ?_⟩
    rw [hclean, Swept, Swept, executions_filter hs hv hacts hne₀]

/-- A cleanup ends its controller: `Closed` seals the mailbox. -/
lemma Closing.of_ends (h : Closing tr s c) (hs : Reached s)
    (hv : (view tr).flight = s.flight.map (·.work)) (hacts : s.Acts l r s') {f : Flight}
    {scope : Scope} {reason : Reason} {outcome : Outcome} (ha : s.active = some a)
    (hf : s.flight = some f) (hop : f.work.operation = .cleanup scope reason)
    (hl : l = .complete f.work.id outcome) (hr : r = .done ∨ r = .error .cleanupFailed)
    (hall : outcome = .executed → scope = .all) (hnone : s'.active = none)
    (hbox : c = a.id → s'.mailboxes c =
      s.mailboxes c ++ [.closed reason (decide (outcome = .executed))])
    (hother : c ≠ a.id → s'.mailboxes c = s.mailboxes c) : Closing (tr ++ [(l, r)]) s' c := by
  have hpolled : polled c (tr ++ [(l, r)]) = polled c tr := by
    subst hl
    exact polled_of_none rfl
  have hown : f.work.controller = a.id := ((State.owned_of_reached hs).flight f a hf ha).1
  refine ⟨fun b hb => ?_, fun _ => ?_⟩
  · cases hnone.symm.trans hb
  by_cases hc : c = a.id
  · refine Or.inr ⟨posted c tr s, reason, decide (outcome = .executed), ?_, ?_, ?_⟩
    · rw [posted, posted, hpolled, hbox hc, List.append_assoc]
    · exact h.active a ha hc.symm
    · subst hl
      rw [executions_complete hv hf _ _ hr, swept_snoc c _ (hown.trans hc.symm), decide_eq_true_eq]
      refine ⟨fun hex => ⟨hex, reason, ?_⟩, fun hex => hex.1⟩
      rw [hop, hall hex]
  · have hne : ∀ b, s.active = some b → b.id ≠ c := State.ne_of_active ha hc
    rw [posted, hpolled, hother hc]
    refine (h.ended hne).imp id ?_
    rintro ⟨pre, reason, clean, heq, hpre, hclean⟩
    refine ⟨pre, reason, clean, heq, hpre, ?_⟩
    rw [hclean, Swept, Swept, executions_filter hs hv hacts hne]

lemma failsEmpty_of_call (hl : ∀ id outcome, l ≠ .complete id outcome) : s.FailsEmpty l :=
  fun id outcome _ h => absurd h (hl id outcome)

lemma failsEmpty_executed (id : UInt64) : s.FailsEmpty (.complete id .executed) := by
  rintro id outcome f h - - - hout
  cases h
  exact absurd rfl hout

/-- A controller that no cleanup ends stays. -/
lemma stays_of_not_ends (hacts : s.Acts l r s') (hends : ∀ a f, ¬ s.Ends a f l r s')
    (ha : s.active = some a) : ∃ b, s'.active = some b ∧ b.id = a.id := by
  rcases hacts.active_cases with ⟨hnone, -⟩ | ⟨_, _, _, _, -, -, hnone, -⟩ | ⟨d, b, hd, hb, hid⟩ |
    ⟨d, f, h⟩
  · cases hnone.symm.trans ha
  · cases hnone.symm.trans ha
  · cases hd.symm.trans ha
    exact ⟨b, hb, hid⟩
  · exact absurd h (hends d f)

lemma not_ends_of_call (hl : ∀ id outcome, l ≠ .complete id outcome) (a : Active) (f : Flight) :
    ¬ s.Ends a f l r s' := by
  intro hends
  obtain ⟨outcome, hcall, -⟩ := hends.call
  exact hl _ _ hcall

/-- Polls of ids to come yield nothing. -/
lemma Closings.fresh_of (h : Closings tr s) (hacts : s.Acts l r s') (hpoll : ∀ p, l ≠ .poll p)
    (hnew : ∀ d, r ≠ .admitted d) (hc : s'.nextController < c) :
    polled c (tr ++ [(l, r)]) = [] := by
  rw [hacts.nextController hnew] at hc
  rw [polled_of_none (yielded_of_ne hpoll)]
  exact h.fresh c hc

/-- A call after which the controller is still there. -/
lemma Closings.of_stays (h : Closings tr s) (hs : Reached s)
    (hv : (view tr).flight = s.flight.map (·.work)) (hacts : s.Acts l r s')
    (hpoll : ∀ p, l ≠ .poll p) (hnew : ∀ d, r ≠ .admitted d) (hends : ∀ a f, ¬ s.Ends a f l r s')
    (hact : ∀ c, s'.overflowed c = false → ∀ b, s'.active = some b → b.id = c →
      (∃ a, s.active = some a ∧ a.id = c) ∧
        ∀ st ∈ s'.mailboxes c, st ∈ s.mailboxes c ∨ st.isClosed = false)
    (hbox : ∀ c, s'.overflowed c = false → (∀ a, s.active = some a → a.id ≠ c) →
      s'.mailboxes c = s.mailboxes c) : Closings (tr ++ [(l, r)]) s' := by
  refine ⟨fun c hc => h.fresh_of hacts hpoll hnew hc, fun c hover => ?_⟩
  refine (h.closing c (hacts.not_overflowed hover)).general hs hv hacts hpoll (hact c hover) ?_
    (hbox c hover)
  intro a ha hid
  obtain ⟨b, hb, hidb⟩ := stays_of_not_ends hacts hends ha
  exact ⟨b, hb, hidb.trans hid⟩

/-- A call that accepts, admits, polls and ends nothing. -/
lemma Closings.general (h : Closings tr s) (hs : Reached s)
    (hv : (view tr).flight = s.flight.map (·.work)) (hacts : s.Acts l r s')
    (hsub : submission (l, r) = none) (hpoll : ∀ p, l ≠ .poll p) (hnew : ∀ d, r ≠ .admitted d)
    (hends : ∀ a f, ¬ s.Ends a f l r s') (hC : s.FailsEmpty l) :
    Closings (tr ++ [(l, r)]) s' := by
  have hkeeps : ∀ c, s'.overflowed c = false → s.Keeps s' c := fun c hover =>
    hacts.keeps hs hC hover hsub hpoll hnew
  refine h.of_stays hs hv hacts hpoll hnew hends (fun c hover b hb hid => ?_)
    fun c hover => (hkeeps c hover).mailbox
  obtain ⟨⟨a, ha, hida, -⟩, hclosed⟩ := (hkeeps c hover).active b hb hid
  exact ⟨⟨a, ha, hida⟩, hclosed⟩

lemma Closings.of_admitted (h : Closings tr s) {mode : Mode} {now : ℕ}
    {id : UInt64} (ha : s.active = none) (hid : id.toNat = s.nextController.toNat + 1) {b : Active}
    (hb : b.id = id) :
    Closings (tr ++ [(Call.admitController mode now, Reply.admitted ⟨id, mode⟩)]) { s with
      nextController := id
      active := some b
      mailboxes := Function.update s.mailboxes id [] } := by
  have hlt : s.nextController < id := UInt64.lt_iff_toNat_lt.mpr (by omega)
  have hpolled : ∀ c,
      polled c (tr ++ [(Call.admitController mode now, Reply.admitted ⟨id, mode⟩)]) = polled c tr := fun c => polled_of_none rfl
  have hex : executions (tr ++ [(Call.admitController mode now, Reply.admitted ⟨id, mode⟩)]) =
      executions tr := executions_snoc fun _ _ hl => by cases hl
  refine ⟨fun c hc => ?_, fun c hover => ⟨fun d hd hdc st hst => ?_, fun hne => ?_⟩⟩
  · rw [hpolled]
    exact h.fresh c (UInt64.lt_trans hlt hc)
  · cases hd
    subst hdc
    have hempty : posted b.id
        (tr ++ [(Call.admitController mode now, Reply.admitted ⟨id, mode⟩)]) { s with
        nextController := id
        active := some b
        mailboxes := Function.update s.mailboxes id [] } = [] := by
      rw [posted, hpolled, hb, h.fresh id hlt]
      exact Function.update_self _ _ _
    rw [hempty] at hst
    cases hst
  · have hc : c ≠ id := fun h0 => hne b rfl (hb.trans h0.symm)
    have hne₀ : ∀ a, s.active = some a → a.id ≠ c := by
      intro a ha'
      cases ha.symm.trans ha'
    have hposted : posted c
        (tr ++ [(Call.admitController mode now, Reply.admitted ⟨id, mode⟩)]) { s with
        nextController := id
        active := some b
        mailboxes := Function.update s.mailboxes id [] } = posted c tr s := by
      rw [posted, posted, hpolled]
      exact congrArg _ (Function.update_of_ne hc _ _)
    rw [hposted, hex]
    exact (h.closing c hover).ended hne₀

/-- **Every call keeps the mailboxes open or sealed.** -/
lemma Closings.acts (h : Closings tr s) (hs : Reached s)
    (hv : (view tr).flight = s.flight.map (·.work)) (hacts : s.Acts l r s') :
    Closings (tr ++ [(l, r)]) s' := by
  have ho : s.Owned := State.owned_of_reached hs
  have hcall := hacts
  have general := h.general hs hv hcall
  cases hacts with
  | idle l r hi =>
      refine general (submission_of_idles hi) (fun p hp => ?_) (fun d hd => ?_) (fun a f hends => ?_)
        fun id outcome f hl hf hid _ _ => ?_
      · subst hp
        exact hi
      · subst hd
        exact State.not_admitted_of_idles hi
      · obtain ⟨outcome, rfl, -⟩ := hends.call
        exact hi.2 f hends.flight rfl
      · subst hl
        exact absurd hid (hi.2 f hf)
  | admitted mode now id hfail ha hmode hid => exact h.of_admitted ha hid rfl
  | completed f event outcome a mid s' hf hop ha hp hkeep hcancel =>
      have hevent : ∀ g, s.flight = some g → g.work.isCleanup = false := by
        intro g hg
        cases hf.symm.trans hg
        rw [Work.isCleanup, hop]
      refine general rfl (fun p hp => by cases hp) (fun d hd => by cases hd) (fun b g hends => ?_)
        fun id outcome g _ hg _ hclean => ?_
      · obtain ⟨scope, reason, hcl⟩ := hends.cleanup
        have hnot := hevent g hends.flight
        rw [Work.isCleanup, hcl] at hnot
        cases hnot
      · rw [hevent g hg] at hclean
        cases hclean
  | cleanupFailed f scope reason outcome a mid hf hop ha hout hp =>
      refine ⟨fun c hc => h.fresh_of hcall (fun p hp => by cases hp) (fun d hd => by cases hd) hc,
        fun c hover => ?_⟩
      refine (h.closing c (hcall.not_overflowed hover)).of_ends hs hv hcall ha hf hop rfl
        (Or.inr rfl) (fun h0 => absurd h0 hout) rfl (fun hc => ?_) fun hc => (hp.mailbox_of_ne hc).1
      subst hc
      have heq := hp.of_fits hover
      subst heq
      rw [decide_eq_false hout]
      exact Function.update_self _ _ _
  | cleanupEnded f scope reason a mid hf hop ha hend hp =>
      refine ⟨fun c hc => h.fresh_of hcall (fun p hp => by cases hp) (fun d hd => by cases hd) hc,
        fun c hover => ?_⟩
      refine (h.closing c (hcall.not_overflowed hover)).of_ends hs hv hcall ha hf hop rfl
        (Or.inl rfl) (fun _ => ?_) rfl (fun hc => ?_) fun hc => (hp.mailbox_of_ne hc).1
      · obtain ⟨-, reason', hall⟩ := ho.ending f hf hend
        cases hop.symm.trans hall
        rfl
      · subst hc
        have heq := hp.of_fits hover
        subst heq
        exact Function.update_self _ _ _
  | cleanupRenewed f scope reason a s' hf hop ha hend hb hp =>
      refine general rfl (fun p hp => by cases hp) (fun d hd => by cases hd) (fun b g hends => ?_)
        (failsEmpty_executed _)
      have hact : s'.active = some _ := hp.frame.active
      cases hends.after.symm.trans hact
  | cleanupBarred f scope reason a hf hop ha hend hb =>
      refine general rfl (fun p hp => by cases hp) (fun d hd => by cases hd) (fun b g hends => ?_)
        (failsEmpty_executed _)
      cases hends.after
  | superseded p now epoch sequence event a front tail motion s' hr hm hq hop hmot hcount =>
      have hact : s'.active = some { a with lastSequence := sequence } := hcount.frame.active
      refine h.of_stays hs hv hcall (fun p hp => by cases hp) (fun d hd => by cases hd)
        (not_ends_of_call fun _ _ hl => by cases hl) (fun c hover b hb hid => ?_)
        fun c hover hne => ?_
      · cases hact.symm.trans hb
        subst hid
        exact ⟨⟨a, hr.active, rfl⟩, fun st hst => hcount.not_closed (Or.inl hover) hst⟩
      · exact (hcount.mailbox_of_ne fun h0 => hne a hr.active h0.symm).1
  | accepted p now epoch sequence event a hr hmot hroom hbytes =>
      refine h.of_stays hs hv hcall (fun p hp => by cases hp) (fun d hd => by cases hd)
        (not_ends_of_call fun _ _ hl => by cases hl) (fun c hover b hb hid => ?_) fun _ _ _ => rfl
      cases hb
      exact ⟨⟨a, hr.active, hid⟩, fun st hst => Or.inl hst⟩
  | polled p =>
      refine ⟨fun c hc => ?_, fun c hover => ⟨fun a ha hid => ?_, fun hne => ?_⟩⟩
      · have hposted := posted_poll tr s p c
        rw [posted, posted, h.fresh c hc, (ho.fresh c hc).1] at hposted
        exact (List.append_eq_nil_iff.mp hposted).1
      · rw [posted_poll]
        exact (h.closing c hover).active a ha hid
      · rw [posted_poll, executions_snoc fun _ _ hl => by cases hl]
        exact (h.closing c hover).ended hne
  | close l p a s' hl ha hid hc =>
      rcases hl with rfl | rfl <;>
        exact general rfl (fun q hq => by cases hq) (fun d hd => by cases hd)
          (not_ends_of_call fun _ _ hl => by cases hl) (failsEmpty_of_call fun _ _ hl => by cases hl)
  | _ =>
      exact general rfl (fun q hq => by cases hq) (fun d hd => by cases hd)
        (not_ends_of_call fun _ _ hl => by cases hl) (failsEmpty_of_call fun _ _ hl => by cases hl)

/-- `Closed` ends what has been posted to a mailbox that has not overflowed. -/
lemma Run.closing {config : Config} {tr : Trace} {s : State} (h : Run config Always tr s)
    {c : UInt64} (hover : s.overflowed c = false) : Closing tr s c := by
  have hclosings : Closings tr s := by
    refine (h.viewed (P := Closings) (fun _ _ _ => trivial) (fun s₀ hnew => ?_)
      (fun tr s s' _ h0 hc => ?_) fun tr s l r s' hs _ hv h0 hacts => h0.acts hs hv hacts).2
    · rw [(State.new_eq hnew).1]
      exact ⟨fun _ _ => rfl, fun c _ => ⟨fun a ha => (by cases ha), fun _ => Or.inl rfl⟩⟩
    · refine ⟨fun c hcn => h0.fresh c (hc.frame.nextController ▸ hcn), fun c hover => ?_⟩
      have hclosing := h0.closing c (hc.not_overflowed hover)
      have hkeeps := hc.keeps hover
      refine ⟨fun b hb hid st hst => ?_, fun hne => ?_⟩
      · obtain ⟨⟨a, ha, hida, -⟩, hclosed⟩ := hkeeps.active b hb hid
        rcases List.mem_append.mp hst with hst | hst
        · exact hclosing.active a ha hida st (List.mem_append_left _ hst)
        · rcases hclosed st hst with h1 | h1
          · exact hclosing.active a ha hida st (List.mem_append_right _ h1)
          · exact h1
      · rw [hc.frame.active] at hne
        rw [posted, hkeeps.mailbox hne]
        exact hclosing.ended hne
  exact hclosings.closing c hover

/-- `Closed` stands at the end of what has been posted. -/
lemma Closing.post_eq_nil {tr : Trace} {s : State} {c : UInt64} (h : Closing tr s c)
    {pre post : List Status} {st : Status} (heq : posted c tr s = pre ++ st :: post)
    (hst : st.isClosed = true) : post = [] := by
  have hmem : st ∈ posted c tr s := by
    rw [heq]
    exact List.mem_append_right _ List.mem_cons_self
  by_cases hact : ∃ a, s.active = some a ∧ a.id = c
  · obtain ⟨a, ha, hid⟩ := hact
    rw [h.active a ha hid st hmem] at hst
    cases hst
  · rcases h.ended fun a ha hid => hact ⟨a, ha, hid⟩ with
      hnil | ⟨front, reason, clean, heq', hfront, -⟩
    · rw [hnil] at hmem
      cases hmem
    · rcases List.eq_nil_or_concat post with rfl | ⟨rest, x, rfl⟩
      · rfl
      · have hsplit : front ++ [Status.closed reason clean] = (pre ++ st :: rest) ++ [x] := by
          rw [← heq', heq]
          simp
        obtain ⟨rfl, -⟩ := List.append_inj' hsplit rfl
        rw [hfront st (by simp)] at hst
        cases hst

/-- Nothing follows a `Closed` that has been polled, neither polled nor in the mailbox. -/
lemma Closing.polled_end {tr : Trace} {s : State} {c : UInt64} (h : Closing tr s c)
    {pre post : List Status} {st : Status} (heq : polled c tr = pre ++ st :: post)
    (hst : st.isClosed = true) : post = [] ∧ s.mailboxes c = [] := by
  have hposted : posted c tr s = pre ++ st :: (post ++ s.mailboxes c) := by
    rw [posted, heq]
    simp
  exact List.append_eq_nil_iff.mp (h.post_eq_nil hposted hst)

/-- **`Closed` is the last word of a mailbox that does not overflow.** In every run, what
polls of the controller have yielded, and what has been posted at all, holds `Closed` at
its end only, and its flag is true exactly when the final `All` cleanup of the controller
was completed as `Executed`. -/
theorem closed_last {config : Config} {tr : Trace} {s : State} (h : Run config Always tr s)
    {c : UInt64} (hover : s.overflowed c = false) :
    (∀ pre st post, polled c tr = pre ++ st :: post → st.isClosed = true → post = []) ∧
      (∀ pre st post, posted c tr s = pre ++ st :: post → st.isClosed = true → post = []) ∧
      ∀ reason clean, .closed reason clean ∈ posted c tr s →
        (clean = true ↔ Swept c (executions tr)) := by
  have hclosing := h.closing hover
  refine ⟨fun pre st post heq hst => (hclosing.polled_end heq hst).1,
    fun pre st post heq hst => hclosing.post_eq_nil heq hst, fun reason clean hmem => ?_⟩
  by_cases hact : ∃ a, s.active = some a ∧ a.id = c
  · obtain ⟨a, ha, hid⟩ := hact
    cases hclosing.active a ha hid _ hmem
  · rcases hclosing.ended fun a ha hid => hact ⟨a, ha, hid⟩ with
      hnil | ⟨front, reason', clean', heq, hfront, hclean⟩
    · rw [hnil] at hmem
      cases hmem
    · rw [heq] at hmem
      rcases List.mem_append.mp hmem with hmem | hmem
      · cases hfront _ hmem
      · cases List.mem_singleton.mp hmem
        exact hclean

/-- A controller that closes, is cleaned up and reads its mailbox. -/
def closed : List Call :=
  [.admitController .cooperative 0,
    .close ⟨1, .cooperative⟩,
    .next 0,
    .complete 1 .executed,
    .poll ⟨1, .cooperative⟩]

theorem closed_last_closed :
    let x := record State.call { config := tiny } closed
    (∀ pre st post, polled 1 x.1 = pre ++ st :: post → st.isClosed = true → post = []) ∧
      (∀ pre st post, posted 1 x.1 x.2 = pre ++ st :: post → st.isClosed = true → post = []) ∧
      ∀ reason clean, .closed reason clean ∈ posted 1 x.1 x.2 →
        (clean = true ↔ Swept 1 (executions x.1)) :=
  closed_last (Run.of_record tiny new_tiny closed) (by decide +kernel)

/-- A text that is executed, and whose completion nobody reads. -/
def typed (n : UInt64) : List Call :=
  [.submit ⟨1, .cooperative⟩ 0 1 n (.text "a"), .next 0, .complete n .executed]

/-- Six unread completions fill the mailbox. -/
def unread : List Call :=
  .admitController .cooperative 0 :: [1, 2, 3, 4, 5, 6].flatMap typed

/-- **A mailbox that overflows is told `Closed` twice**: when it overflows, and when the
cleanup that follows is completed. -/
theorem closed_twice :
    ¬ ∀ (config : Config) (tr : Trace) (s : State) (c : UInt64), Run config Always tr s →
      ∀ pre st post, polled c tr = pre ++ st :: post → st.isClosed = true → post = [] := by
  intro h
  have hrun := Run.of_record tiny new_tiny (unread ++ typed 7 ++ [.next 0, .complete 8 .executed,
    .poll ⟨1, .cooperative⟩, .poll ⟨1, .cooperative⟩])
  have hnil := h tiny _ _ 1 hrun [] (.closed .overflow false) [.closed .overflow true]
    (by decide +kernel) rfl
  cases hnil

end Jackstay.Input
