import Jackstay.Input.Sound

/-!
The scroll gate.

* `Gated`: an accepted continuation of a scroll starts a gesture itself, or follows an
  accepted start of the same epoch with no cleanup completed in between.
* `scroll_gate`: so it is in every run; samples without phases never meet the gate; and
  what a stale submission leaves is what its expiry check leaves.
* `stale_after_expiry`: a stale submission may find its controller expired.
-/

namespace Jackstay.Input

open Traces

/-- An accepted continuation follows a start. -/
def Gated (pre : Trace) (x : Call × Reply) : Prop :=
  ∀ y, submission x = some y → y.event.scrollContinuation = true →
    y.event.scrollStart = true ∨ ∃ z ∈ (view pre).recent, z.controller = y.controller ∧
      z.epoch = y.epoch ∧ z.event.scrollStart = true

/-- **An open gate has been opened**: by a start that was accepted for this controller, in
this epoch, since a cleanup was last completed. -/
structure Gate (tr : Trace) (s : State) : Prop where
  opened : ∀ a, s.active = some a → a.scrollOpen = true → ∃ z ∈ (view tr).recent,
    z.controller = a.id ∧ z.epoch = a.epoch ∧ z.event.scrollStart = true
  each : Each Gated tr

variable {tr : Trace} {s s' : State} {a : Active} {l : Call} {r : Reply}

/-- What has been accepted stays recent until a cleanup is completed. -/
lemma recent_subset {z : Submission} (hz : z ∈ (view tr).recent)
    (h : ∀ id outcome, l = .complete id outcome → (r = .done ∨ r = .error .cleanupFailed) →
      (view tr).flight.any (·.isCleanup) = false) :
    z ∈ (view (tr ++ [(l, r)])).recent := by
  rw [view_snoc]
  cases l with
  | next now =>
      cases r with
      | work w => cases w <;> exact hz
      | _ => exact hz
  | complete id outcome =>
      have completed : (r = .done ∨ r = .error .cleanupFailed) →
          z ∈ ((view tr).complete outcome).recent := by
        intro hr
        rw [View.complete, h id outcome rfl hr]
        exact hz
      cases r with
      | done => exact completed (Or.inl rfl)
      | error e =>
          cases e with
          | cleanupFailed => exact completed (Or.inr rfl)
          | _ => exact hz
      | _ => exact hz
  | submit p now epoch sequence event =>
      cases r with
      | done => exact List.mem_append_left _ hz
      | _ => exact hz
  | _ => exact hz

/-- A call that accepts nothing, and closes the gate if it completes a cleanup. -/
lemma Gate.next (h : Gate tr s) (hsub : submission (l, r) = none)
    (hact : ∀ b, s'.active = some b → b.scrollOpen = true →
      ∃ a, s.active = some a ∧ a.id = b.id ∧ a.epoch = b.epoch ∧ a.scrollOpen = true)
    (hcomp : ∀ b, s'.active = some b → b.scrollOpen = true → ∀ id outcome,
      l = .complete id outcome → (r = .done ∨ r = .error .cleanupFailed) →
      (view tr).flight.any (·.isCleanup) = false) :
    Gate (tr ++ [(l, r)]) s' := by
  refine ⟨fun b hb hopen => ?_, h.each.snoc fun y hy => ?_⟩
  · obtain ⟨a, ha, hid, hepoch, hopena⟩ := hact b hb hopen
    obtain ⟨z, hz, hzid, hzep, hstart⟩ := h.opened a ha hopena
    exact ⟨z, recent_subset hz (hcomp b hb hopen), hzid.trans hid, hzep.trans hepoch, hstart⟩
  · rw [hsub] at hy
    cases hy

/-- The controller stays, with its gate. -/
lemma Gate.of_same (h : Gate tr s) (hsub : submission (l, r) = none)
    (hact : s'.active.map (fun a => (a.id, a.epoch, a.scrollOpen)) =
      s.active.map fun a => (a.id, a.epoch, a.scrollOpen))
    (hcomp : ∀ id outcome, l = .complete id outcome → (r = .done ∨ r = .error .cleanupFailed) →
      (view tr).flight.any (·.isCleanup) = false) : Gate (tr ++ [(l, r)]) s' := by
  refine h.next hsub (fun b hb hopen => ?_) fun _ _ _ => hcomp
  rw [hb] at hact
  obtain ⟨a, ha, heq⟩ := Option.map_eq_some_iff.mp hact.symm
  have hid : a.id = b.id := congrArg Prod.fst heq
  have hrest : (a.epoch, a.scrollOpen) = (b.epoch, b.scrollOpen) := congrArg Prod.snd heq
  have hepoch : a.epoch = b.epoch := congrArg Prod.fst hrest
  have hopena : a.scrollOpen = b.scrollOpen := congrArg Prod.snd hrest
  exact ⟨a, ha, hid, hepoch, hopena.trans hopen⟩

/-- An accepted submission that the gate has let through. -/
lemma Gate.accepted (h : Gate tr s) {p : Controller} {now : ℕ} {epoch sequence : UInt64}
    {event : Event} (hr : s.Ready p epoch sequence event a) {b : Active}
    (hb : s'.active = some b) (hid : b.id = a.id) (hepoch : b.epoch = a.epoch)
    (hopen : b.scrollOpen = true → a.scrollOpen = true ∨ event.scrollStart = true) :
    Gate (tr ++ [(Call.submit p now epoch sequence event, Reply.done)]) s' := by
  refine ⟨fun d hd hdopen => ?_, h.each.snoc fun y hy hcont => ?_⟩
  · cases hb.symm.trans hd
    rcases hopen hdopen with hopen | hstart
    · obtain ⟨z, hz, hzid, hzep, hstart⟩ := h.opened a hr.active hopen
      exact ⟨z, recent_subset hz fun _ _ h0 => (by cases h0), hzid.trans hid.symm,
        hzep.trans hepoch.symm, hstart⟩
    · refine ⟨⟨p.id, epoch, sequence, event⟩, ?_, hr.id.symm.trans hid.symm,
        hr.epoch.trans hepoch.symm, hstart⟩
      rw [view_snoc]
      exact List.mem_append_right _ (List.mem_singleton_self _)
  · cases hy
    rcases hr.gate hcont with hopen | hstart
    · obtain ⟨z, hz, hzid, hzep, hstart⟩ := h.opened a hr.active hopen
      exact Or.inr ⟨z, hz, hzid.trans hr.id, hzep.trans hr.epoch.symm, hstart⟩
    · exact Or.inl hstart

/-- Execution leaves the gate alone. -/
lemma apply_scrollOpen (a : Active) (e : Event) (outcome : Outcome) :
    (if outcome = .executed then a.apply e else a).scrollOpen = a.scrollOpen := by
  split_ifs
  · rcases e with ⟨press, _ | _ | _, key, modifiers⟩ | _ | _ | ⟨button, _ | _ | _, p⟩ | _ <;> rfl
  · rfl

/-- **Every call keeps the gate.** -/
lemma Gate.acts (h : Gate tr s) (hv : (view tr).flight = s.flight.map (·.work))
    (hacts : s.Acts l r s') : Gate (tr ++ [(l, r)]) s' := by
  have frame : ∀ t t' : State, t.Frame t' →
      t'.active.map (fun a => (a.id, a.epoch, a.scrollOpen)) =
        t.active.map fun a => (a.id, a.epoch, a.scrollOpen) := by
    intro t t' hframe
    rw [hframe.active]
  cases hacts with
  | idle l r hi =>
      refine h.of_same ?_ rfl fun id outcome hl hr => ?_
      · cases l with
        | submit p now epoch sequence event => rcases hi with ⟨rfl, -⟩ | ⟨rfl, -⟩ <;> rfl
        | _ => rfl
      · subst hl
        rw [hi.1] at hr
        rcases hr with hr | hr <;> cases hr
  | admitted =>
      refine h.next rfl (fun b hb hopen => ?_) fun _ _ _ _ _ hl => by cases hl
      cases hb
      cases hopen
  | cleanup now b a work hf hb ha hw =>
      exact h.of_same rfl rfl fun _ _ hl => by cases hl
  | discarded => exact h.of_same rfl rfl fun _ _ hl => by cases hl
  | dispatched now a r s' ha hf hb hd =>
      cases hd with
      | refused pre rest s' hq href hp hend =>
          exact h.of_same rfl (frame _ _ hp.frame) fun _ _ hl => by cases hl
      | dispatched => exact h.of_same rfl rfl fun _ _ hl => by cases hl
  | completed f event outcome a mid s' hf hop ha hp hkeep hcancel =>
      have hact : s'.active = some (if outcome = .executed then a.apply event else a) := by
        by_cases hends : outcome.Ends
        · exact (hcancel hends).frame.active.trans hp.frame.active
        · rw [hkeep hends]
          exact hp.frame.active
      refine h.of_same rfl ?_ fun _ _ _ _ => ?_
      · obtain ⟨hid, hepoch, -⟩ := Active.apply_same a event outcome
        rw [hact, ha, Option.map_some, Option.map_some, hid, hepoch, apply_scrollOpen]
      · rw [hv, hf]
        simp [Work.isCleanup, hop]
  | cleanupFailed f scope reason outcome a mid hf hop ha hout hp =>
      exact h.next rfl (fun b hb => by cases hb) fun b hb => by cases hb
  | cleanupEnded f scope reason a mid hf hop ha hend hp =>
      exact h.next rfl (fun b hb => by cases hb) fun b hb => by cases hb
  | cleanupRenewed f scope reason a s' hf hop ha hend hb hp =>
      have hact : s'.active = some { a.release scope with epoch := a.epoch + 1 } := hp.frame.active
      have hshut : ∀ b, s'.active = some b → b.scrollOpen = false := by
        intro b hb'
        cases hact.symm.trans hb'
        rfl
      refine h.next rfl (fun b hb' hopen => ?_) fun b hb' hopen => ?_
      · cases (hshut b hb').symm.trans hopen
      · cases (hshut b hb').symm.trans hopen
  | cleanupBarred f scope reason a hf hop ha hend hb =>
      refine h.next rfl (fun b hb' hopen => ?_) fun b hb' hopen => ?_
      · cases hb'
        cases hopen
      · cases hb'
        cases hopen
  | geometry g s' hg hrev hc =>
      exact h.of_same rfl (by rw [hc.frame.active]) fun _ _ hl => by cases hl
  | resolved => exact h.of_same rfl rfl fun _ _ hl => by cases hl
  | heartbeat p now a ha hid => exact h.of_same rfl (by rw [ha]; rfl) fun _ _ hl => by cases hl
  | refused p now epoch sequence event a e ha hid hseq href =>
      exact h.of_same rfl (by rw [ha]; rfl) fun _ _ hl => by cases hl
  | superseded p now epoch sequence event a front tail motion s' hr hm hq hop hmot hcount =>
      exact h.accepted hr hcount.frame.active rfl rfl fun hopen => Or.inl hopen
  | overflowed p now epoch sequence event a s' hr hfull hc =>
      refine h.of_same rfl ?_ fun _ _ hl => by cases hl
      rw [frame _ _ hc.frame, hr.active]
      rfl
  | accepted p now epoch sequence event a hr hmot hroom hbytes =>
      exact h.accepted hr rfl rfl rfl fun hopen => Bool.or_eq_true_iff.mp hopen
  | reset p a s' ha hid hc =>
      exact h.of_same rfl (frame _ _ hc.frame) fun _ _ hl => by cases hl
  | close l p a s' hl ha hid hc =>
      rcases hl with rfl | rfl <;>
        exact h.of_same rfl (frame _ _ hc.frame) fun _ _ hl => by cases hl
  | polled p => exact h.of_same rfl rfl fun _ _ hl => by cases hl

/-! ### Stale submissions -/

lemma revision_of_position {c : Config} {p : Position} (h : position c p = .error .stale) :
    p.revision ≠ c.geometry.revision := by
  rw [position] at h
  split_ifs at h with hrev
  · exact hrev
  · cases h

/-- The validation of a scroll calls it stale for its geometry only. -/
lemma revision_of_validate {c : Config} {mode : Mode} {x y : F64} {unit : ScrollUnit}
    {phase : Option ScrollPhase} {momentumPhase : Option MomentumPhase} {inverted : Option Bool}
    {p : Position}
    (h : validate c mode (.scroll x y unit phase momentumPhase inverted p) = .error .stale) :
    p.revision ≠ c.geometry.revision := by
  rw [validate, validateEvent] at h
  split_ifs at h
  · cases h
  · cases hp : position c p with
    | error e =>
        rw [hp] at h
        cases h
        exact revision_of_position hp
    | ok u =>
        rw [hp] at h
        have h : (if c.capabilities &&& capScroll = 0 then Except.error Error.unsupported
          else .ok ()) = .error .stale := h
        split_ifs at h
        cases h

/-- A stale submission has met its epoch, its geometry or the gate, and leaves its sequence
number behind and nothing else. -/
lemma acts_of_stale {p : Controller} {now : ℕ} {epoch sequence : UInt64} {event : Event}
    (h : s.Acts (.submit p now epoch sequence event) (.error .stale) s') :
    ∃ a, s.active = some a ∧ s.Refusal a epoch event .stale ∧
      s' = { s with active := some { a with lastSequence := sequence } } := by
  cases h with
  | idle l r hi => rcases hi with ⟨hr, -⟩ | ⟨hr, -⟩ <;> cases hr
  | refused p now epoch sequence event a e ha hid hseq href => exact ⟨a, ha, href, rfl⟩

/-- What a stale submission must not touch. -/
def Untouched (s s' : State) : Prop :=
  s'.queue = s.queue ∧ s'.flight = s.flight ∧ s'.barrier = s.barrier ∧
    s'.mailboxes = s.mailboxes ∧ s'.active.map (·.epoch) = s.active.map (·.epoch) ∧
    s'.active.map (·.scrollOpen) = s.active.map (·.scrollOpen)

/-- **The scroll gate.** In every run an accepted continuation of a scroll starts a gesture
itself, or follows a start that was accepted for the same controller and epoch since a
cleanup was last completed. A scroll without phases is stale for its epoch or its geometry
only. And a stale submission touches nothing after its expiry check, which does nothing
unless the controller has been idle for too long. -/
theorem scroll_gate {config : Config} {tr : Trace} {s : State} (h : Run config Always tr s) :
    Each Gated tr ∧
      (∀ p now epoch sequence x y unit phase momentumPhase inverted place,
        (phase = none ∨ phase = some .none) → (momentumPhase = none ∨ momentumPhase = some .none) →
        let l : Call := .submit p now epoch sequence
          (.scroll x y unit phase momentumPhase inverted place)
        (s.call l).2 = .error .stale → ∃ a, (s.timed l).active = some a ∧
          (epoch ≠ a.epoch ∨ place.revision ≠ s.config.geometry.revision)) ∧
      ∀ p now epoch sequence event,
        (s.call (.submit p now epoch sequence event)).2 = .error .stale →
        Untouched (s.expire now) (s.call (.submit p now epoch sequence event)).1 ∧
          ((∀ a, s.active = some a → now - a.lastSeen < s.config.idleTimeout) →
            Untouched s (s.call (.submit p now epoch sequence event)).1) := by
  have hs : Reached s := ⟨config, tr, h⟩
  have stale : ∀ p now epoch sequence event,
      (s.call (.submit p now epoch sequence event)).2 = .error .stale →
      ∃ a, (s.expire now).active = some a ∧ (s.expire now).Refusal a epoch event .stale ∧
        (s.call (.submit p now epoch sequence event)).1 =
          { s.expire now with active := some { a with lastSequence := sequence } } := by
    intro p now epoch sequence event hr
    have hacts := State.acts_of_call (.submit p now epoch sequence event)
      (hs.timed (.submit p now epoch sequence event)).linked
    rw [hr] at hacts
    exact acts_of_stale hacts
  refine ⟨?_, ?_, ?_⟩
  · have hgate : Gate tr s := by
      refine (h.viewed (P := Gate) (fun s l h0 => h0) (fun s₀ hn => ?_) (fun tr s s' _ h0 hc => ?_)
        fun tr s l r s' _ _ hv h0 hacts => h0.acts hv hacts).2
      · rw [(State.new_eq hn).1]
        exact ⟨fun a ha => (by cases ha), each_nil⟩
      · refine ⟨fun a ha => ?_, h0.each⟩
        rw [hc.frame.active] at ha
        exact h0.opened a ha
    exact hgate.each
  · intro p now epoch sequence x y unit phase momentumPhase inverted place hphase hmomentum l hr
    obtain ⟨a, ha, href, -⟩ := stale _ _ _ _ _ hr
    refine ⟨a, ha, ?_⟩
    rcases href with hepoch | ⟨-, -, -, hval | ⟨-, -, -, hcont⟩⟩
    · exact Or.inl hepoch
    · refine Or.inr ?_
      have hrev := revision_of_validate hval
      have hconfig : (s.expire now).config = s.config := by
        rcases s.expire_cases now with heq | ⟨b, -, -, hc⟩
        · rw [heq]
        · exact hc.frame.config
      rwa [hconfig] at hrev
    · rcases hphase with rfl | rfl <;> rcases hmomentum with rfl | rfl <;> cases hcont
  · intro p now epoch sequence event hr
    obtain ⟨a, ha, -, heq⟩ := stale _ _ _ _ _ hr
    have huntouched : Untouched (s.expire now) (s.call (.submit p now epoch sequence event)).1 := by
      rw [heq]
      exact ⟨rfl, rfl, rfl, rfl, by rw [ha]; rfl, by rw [ha]; rfl⟩
    refine ⟨huntouched, fun hidle => ?_⟩
    rcases s.expire_cases now with hexp | ⟨b, hb, hlate, -⟩
    · rwa [hexp] at huntouched
    · have hearly := hidle b hb
      omega

/-- A sample of a scroll gesture. -/
def gesture (phase : ScrollPhase) : Event :=
  .scroll .zero .zero .pixel (some phase) none none ⟨1, .zero, .zero⟩

/-- The gate in use: a start, its continuation, and a continuation after a reset. -/
theorem scroll_gate_gesture :
    Each Gated (record State.call { config := Config.default } [.admitController .cooperative 0,
      .submit ⟨1, .cooperative⟩ 0 1 1 (gesture .began),
      .submit ⟨1, .cooperative⟩ 0 1 2 (gesture .changed), .reset ⟨1, .cooperative⟩, .next 0,
      .complete 3 .executed, .submit ⟨1, .cooperative⟩ 0 2 3 (gesture .ended)]).1 := by
  have hnew : State.new Config.default = .ok { config := Config.default } := by
    rw [State.new]
    exact if_neg (by decide +kernel)
  exact (scroll_gate (Run.of_record Config.default hnew _)).1

/-- **A stale submission may find its controller expired**: it sets the barrier that ends
it. -/
theorem stale_after_expiry :
    ¬ ∀ (config : Config) (tr : Trace) (s : State), Run config Always tr s →
      ∀ p now epoch sequence event,
        (s.call (.submit p now epoch sequence event)).2 = .error .stale →
        Untouched s (s.call (.submit p now epoch sequence event)).1 := by
  intro h
  have hrun := Run.of_record tiny new_tiny [.admitController .cooperative 0]
  have hsame := h tiny _ _ hrun ⟨1, .cooperative⟩ (10 ^ 10) 2 1 (.text "a") (by decide +kernel)
  obtain ⟨-, -, hb, -⟩ := hsame
  revert hb
  decide +kernel

end Jackstay.Input
