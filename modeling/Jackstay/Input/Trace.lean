import Jackstay.Input.Effects
import Jackstay.Library.Traces

/-!
Runs of a session and what their traces say.

* `Run config C tr s`: a target of this configuration has made the calls of `tr`, each of
  which met `C`, and is now in `s`.
* `submitted`, `dispatched`, `polled` and `executions` read off the trace what the
  controller has been promised, what the executor has been given, what has been polled
  and how each given work was completed.
* `Reached.invariant`: every run keeps what the expiry check and the actions keep;
  `Run.traced` and `Run.viewed` are the rules for relations between trace and state.
-/

namespace Jackstay.Input

open Traces

/-- The calls on a target, with what they returned. -/
abbrev Trace := List (Call × Reply)

/-! ### Reading a trace -/

/-- An accepted submission. -/
structure Submission where
  controller : UInt64
  epoch : UInt64
  sequence : UInt64
  event : Event
  deriving DecidableEq, Repr

/-- What a call adds to the accepted submissions. -/
def submission : Call × Reply → Option Submission
  | (.submit c _ epoch sequence event, .done) => some ⟨c.id, epoch, sequence, event⟩
  | _ => none

/-- The submissions that returned `Ok`, in order. -/
def submitted (tr : Trace) : List Submission := tr.filterMap submission

/-- The submissions of a controller that returned `Ok`. -/
def accepted (c : UInt64) (tr : Trace) : List Submission :=
  (submitted tr).filter (·.controller == c)

/-- The work that a call of `next` returns. -/
def returned : Call × Reply → Option Work
  | (.next _, .work w) => w
  | _ => none

/-- The works that `next` has returned, in order. -/
def dispatched (tr : Trace) : List Work := tr.filterMap returned

/-- The status that a call of `poll` yields for this controller. -/
def yielded (c : UInt64) : Call × Reply → Option Status
  | (.poll p, .status st) => if p.id = c then st else none
  | _ => none

/-- The statuses that the polls of a controller have yielded. -/
def polled (c : UInt64) (tr : Trace) : List Status := tr.filterMap (yielded c)

/-- The statuses posted to a mailbox: those polled and those that wait. -/
def posted (c : UInt64) (tr : Trace) (s : State) : List Status := polled c tr ++ s.mailboxes c

/-- **What the executor has seen.** -/
structure View where
  /-- the work that it has not completed -/
  flight : Option Work := none
  /-- the works that it has completed, with the outcomes -/
  executions : List (Work × Outcome) := []
  /-- what has been accepted since it last completed a cleanup -/
  recent : List Submission := []

/-- The work is a cleanup. -/
def Work.isCleanup (w : Work) : Bool :=
  match w.operation with
  | .cleanup _ _ => true
  | .event _ => false

/-- `complete` has taken the work in flight. -/
def View.complete (v : View) (outcome : Outcome) : View where
  flight := none
  executions := v.executions ++ v.flight.toList.map (·, outcome)
  recent := if v.flight.any (·.isCleanup) then [] else v.recent

/-- What a call adds to the view. -/
def View.step (v : View) : Call × Reply → View
  | (.next _, .work (some w)) => { v with flight := some w }
  | (.complete _ outcome, .done) => v.complete outcome
  | (.complete _ outcome, .error .cleanupFailed) => v.complete outcome
  | (.submit c _ epoch sequence event, .done) =>
      { v with recent := v.recent ++ [⟨c.id, epoch, sequence, event⟩] }
  | _ => v

/-- The view after a trace. -/
def view (tr : Trace) : View := tr.foldl View.step {}

/-- The works that have been completed, with the outcomes. -/
def executions (tr : Trace) : List (Work × Outcome) := (view tr).executions

section

variable (tr : Trace) (l : Call) (r : Reply)

lemma view_snoc : view (tr ++ [(l, r)]) = (view tr).step (l, r) := by
  rw [view, view, List.foldl_append]
  rfl

lemma submitted_snoc : submitted (tr ++ [(l, r)]) = submitted tr ++ (submission (l, r)).toList := by
  rw [submitted, submitted, List.filterMap_append]
  cases h : submission (l, r) <;> simp [h]

lemma dispatched_snoc : dispatched (tr ++ [(l, r)]) = dispatched tr ++ (returned (l, r)).toList := by
  rw [dispatched, dispatched, List.filterMap_append]
  cases h : returned (l, r) <;> simp [h]

lemma polled_snoc (c : UInt64) :
    polled c (tr ++ [(l, r)]) = polled c tr ++ (yielded c (l, r)).toList := by
  rw [polled, polled, List.filterMap_append]
  cases h : yielded c (l, r) <;> simp [h]

lemma accepted_snoc (c : UInt64) :
    accepted c (tr ++ [(l, r)]) =
      accepted c tr ++ (submission (l, r)).toList.filter (·.controller == c) := by
  rw [accepted, accepted, submitted_snoc, List.filter_append]

end

/-! ### Runs -/

/-- **A run of a target of this configuration**, whose calls all meet the condition. -/
def Run (config : Config) (C : State → Call → Prop) (tr : Trace) (s : State) : Prop :=
  ∃ s₀, State.new config = .ok s₀ ∧ Runs State.call C s₀ tr s

namespace Run

variable {config : Config} {C D : State → Call → Prop} {tr tr' : Trace} {s s' : State}

lemma mono (h : Run config C tr s) (hCD : ∀ s l, C s l → D s l) : Run config D tr s := by
  obtain ⟨s₀, hnew, hruns⟩ := h
  exact ⟨s₀, hnew, hruns.mono hCD⟩

lemma always (h : Run config C tr s) : Run config Always tr s := h.mono fun _ _ _ => trivial

lemma append (h : Run config C tr s) (h' : Runs State.call C s tr' s') :
    Run config C (tr ++ tr') s' := by
  obtain ⟨s₀, hnew, hruns⟩ := h
  exact ⟨s₀, hnew, hruns.append h'⟩

lemma snoc (h : Run config C tr s) (l : Call) (hC : C s l) :
    Run config C (tr ++ [(l, (s.call l).2)]) (s.call l).1 := by
  obtain ⟨s₀, hnew, hruns⟩ := h
  exact ⟨s₀, hnew, hruns.snoc l hC⟩

/-- A script from a new target is a run. -/
lemma of_record (config : Config) {s₀ : State} (hnew : State.new config = .ok s₀) (ls : List Call) :
    Run config Always (record State.call s₀ ls).1 (record State.call s₀ ls).2 :=
  ⟨s₀, hnew, .of_record _ _ _⟩

end Run

namespace State

lemma new_eq {config : Config} {s₀ : State} (h : State.new config = .ok s₀) :
    s₀ = { config } ∧ 0 < config.maxEvents := by
  rw [State.new] at h
  split_ifs at h with hc
  cases h
  simp only [not_or] at hc
  exact ⟨rfl, by omega⟩

end State

/-- A target that holds one event. -/
def tiny : Config := { Config.default with maxEvents := 1 }

lemma new_tiny : State.new tiny = .ok { config := tiny } := by
  rw [State.new]
  exact if_neg (by decide +kernel)

/-- Some run of a target leads to the state. -/
def Reached (s : State) : Prop := ∃ config tr, Run config Always tr s

/-- The expiry check of a call is a call of `tick`. -/
lemma Reached.timed {s : State} (h : Reached s) (l : Call) : Reached (s.timed l) := by
  have ticked : ∀ now, Reached (s.expire now) := by
    intro now
    obtain ⟨config, tr, hrun⟩ := h
    exact ⟨config, _, hrun.snoc (.tick now) trivial⟩
  cases l with
  | next now => exact ticked now
  | tick now => exact ticked now
  | heartbeat c now => exact ticked now
  | submit c now epoch sequence event => exact ticked now
  | _ => exact h

/-- What flies or waits belongs to a controller, in every run. -/
lemma Reached.linked {s : State} (h : Reached s) : s.Linked := by
  obtain ⟨config, tr, s₀, hnew, hruns⟩ := h
  refine hruns.invariant (P := fun _ s => s.Linked) ?_ fun tr s l _ hs _ => ?_
  · rw [(State.new_eq hnew).1]
    exact ⟨fun h0 => (nomatch h0), fun h0 => absurd rfl h0⟩
  · exact (hs.timed l).acts (State.acts_of_call l (hs.timed l))

/-- **The invariant rule for states**: what new targets have, what the expiry check keeps
and what the actions keep. -/
theorem Reached.invariant {P : State → Prop} {s : State} (h : Reached s)
    (hnew : ∀ config s₀, State.new config = .ok s₀ → P s₀)
    (hexpired : ∀ s s', Reached s → P s → s.Cancels .all .expired true s' → P s')
    (hacts : ∀ s l r s', Reached s → P s → s.Acts l r s' → P s') : P s := by
  obtain ⟨config, tr, s₀, hn, hruns⟩ := h
  refine hruns.invariant (P := fun _ s => P s) (hnew config s₀ hn) fun tr s l hr hs _ => ?_
  have hreach : Reached s := ⟨config, tr, s₀, hn, hr⟩
  have htimed : Reached (s.timed l) := hreach.timed l
  refine hacts _ l _ _ htimed ?_ (State.acts_of_call l htimed.linked)
  rcases s.timed_cases l with heq | hc
  · rwa [heq]
  · exact hexpired _ _ hreach hs hc

/-- **The invariant rule for traces.** The expiry check in front of a call adds nothing to
the trace, and meets the condition of the call if the condition does not depend on it. -/
theorem Run.traced {config : Config} {C : State → Call → Prop} {tr : Trace} {s : State}
    {P : Trace → State → Prop} (h : Run config C tr s) (hC : ∀ s l, C s l → C (s.timed l) l)
    (hnew : ∀ s₀, State.new config = .ok s₀ → P [] s₀)
    (hexpired : ∀ tr s s', Reached s → P tr s → s.Cancels .all .expired true s' → P tr s')
    (hacts : ∀ tr s l r s', Reached s → C s l → P tr s → s.Acts l r s' → P (tr ++ [(l, r)]) s') :
    P tr s := by
  obtain ⟨s₀, hn, hruns⟩ := h
  refine hruns.invariant (hnew s₀ hn) fun tr s l hr hs hcond => ?_
  have hreach : Reached s := ⟨config, tr, s₀, hn, hr.always⟩
  have htimed : Reached (s.timed l) := hreach.timed l
  refine hacts _ _ l _ _ htimed (hC s l hcond) ?_ (State.acts_of_call l htimed.linked)
  rcases s.timed_cases l with heq | hc
  · rwa [heq]
  · exact hexpired _ _ _ hreach hs hc

/-- **The invariant rule for what follows a reached state.** -/
theorem Reached.continued {C : State → Call → Prop} {s₀ s : State} {tr : Trace}
    {P : Trace → State → Prop} (h₀ : Reached s₀) (h : Runs State.call C s₀ tr s) (hstart : P [] s₀)
    (hexpired : ∀ tr s l, Reached s → C s l → P tr s → s.Cancels .all .expired true (s.timed l) →
      P tr (s.timed l))
    (hacts : ∀ tr s l r s', Reached (s.timed l) → C s l → P tr (s.timed l) →
      s.call l = (s', r) → (s.timed l).Acts l r s' → P (tr ++ [(l, r)]) s') : P tr s := by
  obtain ⟨config, tr₀, hrun⟩ := h₀
  refine h.invariant hstart fun tr s l hr hs hcond => ?_
  have hreach : Reached s := ⟨config, _, hrun.append hr.always⟩
  have htimed : Reached (s.timed l) := hreach.timed l
  refine hacts _ s l _ _ htimed hcond ?_ rfl (State.acts_of_call l htimed.linked)
  rcases s.timed_cases l with heq | hc
  · rwa [heq]
  · exact hexpired _ s l hreach hcond hs hc

/-! ### The view of the executor -/

namespace State

variable {s s' : State} {l : Call} {r : Reply}

/-- What a call adds to the view, by what it does: it gives a work to the executor, takes
the work in flight back, or leaves the flight alone. -/
lemma Acts.flight_cases (h : s.Acts l r s') :
    (∃ now w, l = .next now ∧ r = .work (some w) ∧ s.flight = none ∧
        ∃ ending, s'.flight = some ⟨w, ending⟩) ∨
      (∃ f outcome, l = .complete f.work.id outcome ∧ s.flight = some f ∧ s'.flight = none ∧
        (r = .done ∨ r = .error .cleanupFailed)) ∨
      s'.flight = s.flight ∧ returned (l, r) = none ∧ ∀ id outcome, l = .complete id outcome →
        r = .error .invalid := by
  have other : s'.flight = s.flight → returned (l, r) = none → (∀ id outcome, l ≠ .complete id outcome) →
      s'.flight = s.flight ∧ returned (l, r) = none ∧ ∀ id outcome, l = .complete id outcome →
        r = .error .invalid :=
    fun hf hr hl => ⟨hf, hr, fun id outcome h0 => absurd h0 (hl id outcome)⟩
  cases h with
  | idle l r hi =>
      refine Or.inr (Or.inr ⟨rfl, ?_, ?_⟩)
      · cases l with
        | next now =>
            rw [hi.1]
            rfl
        | _ => rfl
      · rintro id outcome rfl
        exact hi.1
  | cleanup now b a work hf hb ha hw => exact Or.inl ⟨now, work, rfl, rfl, hf, b.ending, rfl⟩
  | discarded now ha hf hb =>
      exact Or.inr (Or.inr (other rfl rfl fun id outcome h0 => by cases h0))
  | dispatched now a r s' ha hf hb hd =>
      cases hd with
      | refused pre rest s' hq href hp hend =>
          exact Or.inr (Or.inr (other hp.frame.flight rfl fun id outcome h0 => by cases h0))
      | dispatched pre w bound rest hq href hbind hfit =>
          exact Or.inl ⟨now, bound, rfl, rfl, hf, false, rfl⟩
  | completed f event outcome a mid s' hf hop ha hp hkeep hcancel =>
      refine Or.inr (Or.inl ⟨f, outcome, rfl, hf, ?_, Or.inl rfl⟩)
      have hmid : mid.flight = none := hp.frame.flight
      by_cases ho : outcome.Ends
      · exact (hcancel ho).frame.flight.trans hmid
      · rw [hkeep ho]
        exact hmid
  | cleanupFailed f scope reason outcome a mid hf hop ha ho hp =>
      exact Or.inr (Or.inl ⟨f, outcome, rfl, hf, hp.frame.flight, Or.inr rfl⟩)
  | cleanupEnded f scope reason a mid hf hop ha hend hp =>
      exact Or.inr (Or.inl ⟨f, .executed, rfl, hf, hp.frame.flight, Or.inl rfl⟩)
  | cleanupRenewed f scope reason a s' hf hop ha hend hb hp =>
      exact Or.inr (Or.inl ⟨f, .executed, rfl, hf, hp.frame.flight, Or.inl rfl⟩)
  | cleanupBarred f scope reason a hf hop ha hend hb =>
      exact Or.inr (Or.inl ⟨f, .executed, rfl, hf, rfl, Or.inl rfl⟩)
  | geometry g s' hv hrev hc =>
      exact Or.inr (Or.inr (other hc.frame.flight rfl fun id outcome h0 => by cases h0))
  | superseded c now epoch sequence event a front tail motion s' hr hm hq hop hmot hcount =>
      exact Or.inr (Or.inr (other hcount.frame.flight rfl fun id outcome h0 => by cases h0))
  | overflowed c now epoch sequence event a s' hr hfull hc =>
      exact Or.inr (Or.inr (other hc.frame.flight rfl fun id outcome h0 => by cases h0))
  | reset c a s' ha hid hc =>
      exact Or.inr (Or.inr (other hc.frame.flight rfl fun id outcome h0 => by cases h0))
  | close l c a s' hl ha hid hc =>
      refine Or.inr (Or.inr (other hc.frame.flight ?_ fun id outcome h0 => ?_))
      · rcases hl with rfl | rfl <;> rfl
      · rcases hl with rfl | rfl <;> cases h0
  | _ => exact Or.inr (Or.inr (other rfl rfl fun id outcome h0 => by cases h0))

end State

/-- Calls that neither give nor take a work leave the view of the works alone. -/
lemma View.step_other {v : View} {l : Call} {r : Reply} (hret : returned (l, r) = none)
    (hcomp : ∀ id outcome, l = .complete id outcome → r = .error .invalid) :
    (v.step (l, r)).flight = v.flight ∧ (v.step (l, r)).executions = v.executions := by
  cases l with
  | next now =>
      cases r with
      | work w =>
          have hw : w = none := hret
          subst hw
          exact ⟨rfl, rfl⟩
      | _ => exact ⟨rfl, rfl⟩
  | complete id outcome =>
      rw [hcomp id outcome rfl]
      exact ⟨rfl, rfl⟩
  | submit c now epoch sequence event => cases r <;> exact ⟨rfl, rfl⟩
  | _ => exact ⟨rfl, rfl⟩

/-- A call keeps the executor's knowledge of what is in flight. -/
lemma State.Acts.view_flight {s s' : State} {l : Call} {r : Reply} {tr : Trace}
    (hacts : s.Acts l r s') (h : (view tr).flight = s.flight.map (·.work)) :
    (view (tr ++ [(l, r)])).flight = s'.flight.map (·.work) := by
  rw [view_snoc]
  rcases hacts.flight_cases with ⟨now, w, rfl, rfl, -, ending, hf⟩ |
    ⟨f, outcome, rfl, -, hf, rfl | rfl⟩ | ⟨hf, hret, hcomp⟩
  · rw [hf]
    rfl
  · rw [hf]
    rfl
  · rw [hf]
    rfl
  · rw [hf, (View.step_other hret hcomp).1]
    exact h

/-- **The invariant rule for traces, with the view**: the executor knows what is in
flight. -/
theorem Run.viewed {config : Config} {C : State → Call → Prop} {tr : Trace} {s : State}
    {P : Trace → State → Prop} (h : Run config C tr s) (hC : ∀ s l, C s l → C (s.timed l) l)
    (hnew : ∀ s₀, State.new config = .ok s₀ → P [] s₀)
    (hexpired : ∀ tr s s', Reached s → P tr s → s.Cancels .all .expired true s' → P tr s')
    (hacts : ∀ tr s l r s', Reached s → C s l → (view tr).flight = s.flight.map (·.work) →
      P tr s → s.Acts l r s' → P (tr ++ [(l, r)]) s') :
    (view tr).flight = s.flight.map (·.work) ∧ P tr s := by
  refine h.traced (P := fun tr s => (view tr).flight = s.flight.map (·.work) ∧ P tr s) hC
    (fun s₀ hn => ⟨?_, hnew s₀ hn⟩) (fun tr s s' hs h0 hc => ⟨?_, hexpired tr s s' hs h0.2 hc⟩)
    fun tr s l r s' hs hcond h0 ha =>
      ⟨ha.view_flight h0.1, hacts tr s l r s' hs hcond h0.1 h0.2 ha⟩
  · rw [(State.new_eq hn).1]
    rfl
  · rw [hc.frame.flight]
    exact h0.1

section

variable {tr : Trace} {l : Call} {r : Reply}

/-- Only `complete` adds to what has been executed. -/
lemma executions_snoc (h : ∀ id outcome, l = .complete id outcome → r = .error .invalid) :
    executions (tr ++ [(l, r)]) = executions tr := by
  rw [executions, view_snoc, executions]
  cases l with
  | next now =>
      cases r with
      | work w => cases w <;> rfl
      | _ => rfl
  | complete id outcome =>
      rw [h id outcome rfl]
      rfl
  | submit c now epoch sequence event => cases r <;> rfl
  | _ => rfl

/-- A completed work is the one in flight. -/
lemma executions_complete {s : State} {f : Flight} (hv : (view tr).flight = s.flight.map (·.work))
    (hf : s.flight = some f) (id : UInt64) (outcome : Outcome)
    (hr : r = .done ∨ r = .error .cleanupFailed) :
    executions (tr ++ [(Call.complete id outcome, r)]) = executions tr ++ [(f.work, outcome)] := by
  have hflight : (view tr).flight = some f.work := by rw [hv, hf]; rfl
  have hstep : ((view tr).complete outcome).executions =
      (view tr).executions ++ [(f.work, outcome)] := by
    rw [View.complete, hflight]
    rfl
  rw [executions, view_snoc]
  rcases hr with rfl | rfl
  · exact hstep
  · exact hstep

end

end Jackstay.Input
