import Jackstay.Input.Sound

/-!
Held keys and buttons.

* `Held`: which keys, with their bindings, and which buttons are down; `Held.after` what
  a completed work changes of it.
* `heldBy c` and `held`: the fold over what has been executed for one controller, and for
  all.
* `well_formed_input`: a controller's held sets are the fold, and every event is
  dispatched in keeping with it.
-/

namespace Jackstay.Input

open Traces

/-- **What is down**, as the executor has been told. -/
@[ext] structure Held where
  keys : UInt64 → Option Key
  buttons : UInt32 → Bool

namespace Held

/-- Nothing is down. -/
def none : Held := ⟨fun _ => .none, fun _ => false⟩

/-- What an executed operation changes. -/
def step (h : Held) : Operation → Held
  | .event (.key press .down key _) => { h with keys := Function.update h.keys press (some key) }
  | .event (.key press .up _ _) => { h with keys := Function.update h.keys press .none }
  | .event (.button b .down _) => { h with buttons := Function.update h.buttons b true }
  | .event (.button b .up _) => { h with buttons := Function.update h.buttons b false }
  | .event _ => h
  | .cleanup .pointer _ => { h with buttons := fun _ => false }
  | .cleanup .all _ => none

/-- What a completed work changes: an executed one takes effect, and a failed cleanup
leaves an executor that has to be rebuilt. -/
def after (h : Held) (x : Work × Outcome) : Held :=
  if x.2 = .executed then h.step x.1.operation
  else match x.1.operation with
    | .event _ => h
    | .cleanup _ _ => none

/-- **A well-formed event**: what is pressed is up, what is released or repeated is down
and carries the binding of the press. -/
def Takes (h : Held) : Event → Prop
  | .key press .down _ _ => h.keys press = .none
  | .key press _ key _ => h.keys press = some key
  | .button b .down _ => h.buttons b = false
  | .button b _ _ => h.buttons b = true
  | _ => True

end Held

/-- What is down for one controller: the fold of the executed presses, releases and
cleanups of it. -/
def heldBy (c : UInt64) (xs : List (Work × Outcome)) : Held :=
  xs.foldl (fun h x => if x.1.controller = c ∧ x.2 = .executed then h.step x.1.operation else h)
    .none

/-- What is down, whoever pressed it. -/
def held (xs : List (Work × Outcome)) : Held := xs.foldl Held.after .none

lemma heldBy_snoc (c : UInt64) (xs : List (Work × Outcome)) (x : Work × Outcome) :
    heldBy c (xs ++ [x]) = if x.1.controller = c ∧ x.2 = .executed then
      (heldBy c xs).step x.1.operation else heldBy c xs := by
  rw [heldBy, heldBy, List.foldl_append]
  rfl

lemma held_snoc (xs : List (Work × Outcome)) (x : Work × Outcome) :
    held (xs ++ [x]) = (held xs).after x := by
  rw [held, held, List.foldl_append]
  rfl

/-- Nothing is down for a controller that nothing was executed for. -/
lemma heldBy_eq_none {c : UInt64} {xs : List (Work × Outcome)}
    (h : ∀ x ∈ xs, x.1.controller ≠ c) : heldBy c xs = .none := by
  induction xs using List.reverseRecOn with
  | nil => rfl
  | append_singleton xs x ih =>
      have hx : x.1.controller ≠ c := h x (by simp)
      rw [heldBy_snoc, if_neg fun h0 => hx h0.1]
      exact ih fun y hy => h y (List.mem_append_left _ hy)

/-! ### The sets of a controller -/

/-- The sets of a controller as what is down. -/
def Active.held (a : Active) : Held where
  keys := fun press => a.keys.lookup press
  buttons := fun b => decide (b ∈ a.buttons)

namespace Active

variable (a : Active)

lemma held_apply (e : Event) : (a.apply e).held = a.held.step (.event e) := by
  rcases e with ⟨press, _ | _ | _, key, modifiers⟩ | _ | _ | ⟨button, _ | _ | _, p⟩ | _
  case key.down =>
    refine Held.ext (funext fun k => ?_) rfl
    by_cases hk : k = press
    · subst hk
      simp [apply, held, Held.step]
    · simp [apply, held, Held.step, Finmap.lookup_insert_of_ne _ hk, hk]
  case key.up =>
    refine Held.ext (funext fun k => ?_) rfl
    by_cases hk : k = press
    · subst hk
      simp [apply, held, Held.step]
    · simp [apply, held, Held.step, Finmap.lookup_erase_ne hk, hk]
  case button.down =>
    refine Held.ext rfl (funext fun b => ?_)
    by_cases hb : b = button
    · subst hb
      simp [apply, held, Held.step]
    · simp [apply, held, Held.step, hb]
  case button.up =>
    refine Held.ext rfl (funext fun b => ?_)
    by_cases hb : b = button
    · subst hb
      simp [apply, held, Held.step]
    · simp [apply, held, Held.step, hb]
  all_goals rfl

lemma held_release (scope : Scope) (reason : Reason) :
    (a.release scope).held = a.held.step (.cleanup scope reason) := by
  cases scope with
  | all => simp [release, held, Held.step, Held.none]
  | pointer => simp [release, held, Held.step]

/-- An event that the sets let through is well formed. -/
lemma takes_held {maxEvents : ℕ} {e : Event} (h : a.Takes maxEvents e) : a.held.Takes e := by
  rcases e with ⟨press, _ | _ | _, key, modifiers⟩ | _ | _ | ⟨button, action, p⟩ | _
  case key.down => exact Finmap.lookup_eq_none.mpr h.1
  case key.up => exact h
  case key.repeat => exact h
  case button =>
    have h : action = .down ↔ button ∉ a.buttons := h
    cases action with
    | down => exact decide_eq_false (h.mp rfl)
    | up => exact decide_eq_true (not_not.mp fun h0 => by cases h.mpr h0)
    | «repeat» => exact decide_eq_true (not_not.mp fun h0 => by cases h.mpr h0)
  all_goals trivial

end Active

/-! ### Runs -/

/-- An event that is dispatched is well formed, for its controller and for the executor. -/
def Dispatch (pre : Trace) (x : Call × Reply) : Prop :=
  ∀ w e, returned x = some w → w.operation = .event e →
    (heldBy w.controller (executions pre)).Takes e ∧ (held (executions pre)).Takes e

/-- **The sets of the controller are the fold**, and nothing is down without one. -/
structure Tracked (tr : Trace) (s : State) : Prop where
  works : ∀ x ∈ executions tr, x.1.controller ≤ s.nextController
  active : ∀ a, s.active = some a →
    heldBy a.id (executions tr) = a.held ∧ held (executions tr) = a.held
  inactive : s.active = none → held (executions tr) = .none
  each : Each Dispatch tr

namespace Tracked

variable {tr : Trace} {s s' : State} {a : Active} {l : Call} {r : Reply}

/-- The controller stays, with what is held. -/
lemma of_same (h : Tracked tr s) (hnext : s'.nextController = s.nextController)
    (hact : s'.active.map (fun a => (a.id, a.held)) = s.active.map fun a => (a.id, a.held)) :
    Tracked tr s' := by
  refine ⟨fun x hx => hnext ▸ h.works x hx, fun b hb => ?_, fun hb => ?_, h.each⟩
  · rw [hb] at hact
    obtain ⟨a, ha, heq⟩ := Option.map_eq_some_iff.mp hact.symm
    have hid : a.id = b.id := congrArg Prod.fst heq
    have hheld : a.held = b.held := congrArg Prod.snd heq
    rw [← hid, ← hheld]
    exact h.active a ha
  · rw [hb] at hact
    exact h.inactive (Option.map_eq_none_iff.mp hact.symm)

/-- A call that neither completes a work nor dispatches an event. -/
lemma quiet (h : Tracked tr s) (hnext : s'.nextController = s.nextController)
    (hact : s'.active.map (fun a => (a.id, a.held)) = s.active.map fun a => (a.id, a.held))
    (hcomp : ∀ id outcome, l = .complete id outcome → r = .error .invalid)
    (hret : ∀ w e, returned (l, r) = some w → w.operation ≠ .event e) :
    Tracked (tr ++ [(l, r)]) s' := by
  have h := h.of_same hnext hact
  have hex : executions (tr ++ [(l, r)]) = executions tr := executions_snoc hcomp
  exact ⟨hex ▸ h.works, hex ▸ h.active, hex ▸ h.inactive,
    h.each.snoc fun w e hw he => absurd he (hret w e hw)⟩

/-- A completed work of the controller. -/
lemma completed (h : Tracked tr s) (ho : s.Owned) {f : Flight} {outcome : Outcome}
    (hv : (view tr).flight = s.flight.map (·.work)) (hf : s.flight = some f)
    (ha : s.active = some a) {id : UInt64} (hr : r = .done ∨ r = .error .cleanupFailed)
    (hnext : s'.nextController = s.nextController)
    (hact : ∀ b, s'.active = some b → b.id = a.id ∧
      b.held = if outcome = .executed then a.held.step f.work.operation else a.held)
    (hevent : s'.active.isSome → outcome ≠ .executed → ∃ e, f.work.operation = .event e)
    (hend : s'.active = none → (a.held.after (f.work, outcome)) = .none) :
    Tracked (tr ++ [(Call.complete id outcome, r)]) s' := by
  have hex := executions_complete (r := r) hv hf id outcome hr
  have hown : f.work.controller = a.id := (ho.flight f a hf ha).1
  obtain ⟨hby, hall⟩ := h.active a ha
  refine ⟨fun x hx => ?_, fun b hb => ?_, fun hb => ?_, h.each.snoc fun w e hw => ?_⟩
  · rw [hex] at hx
    rw [hnext]
    rcases List.mem_append.mp hx with hx | hx
    · exact h.works x hx
    · rw [List.mem_singleton.mp hx, hown, ho.id a ha]
      exact UInt64.le_refl _
  · obtain ⟨hid, hheld⟩ := hact b hb
    rw [hex, heldBy_snoc, held_snoc, hid, hby, hall, hheld]
    refine ⟨?_, ?_⟩
    · simp [hown]
    · rw [Held.after]
      by_cases hx : outcome = .executed
      · rw [if_pos hx, if_pos hx]
      · obtain ⟨e, he⟩ := hevent (by rw [hb]; rfl) hx
        rw [if_neg hx, if_neg hx, he]
  · rw [hex, held_snoc, hall]
    exact hend hb
  · cases hw

/-- The controller that completes an event. -/
lemma apply_held (e : Event) (outcome : Outcome) :
    (if outcome = .executed then a.apply e else a).held =
      if outcome = .executed then a.held.step (.event e) else a.held := by
  split_ifs
  · exact a.held_apply e
  · rfl

/-- **Every call keeps track.** -/
lemma acts (h : Tracked tr s) (hs : Reached s) (hv : (view tr).flight = s.flight.map (·.work))
    (hacts : s.Acts l r s') : Tracked (tr ++ [(l, r)]) s' := by
  have ho : s.Owned := State.owned_of_reached hs
  have frame : ∀ t t' : State, t.Frame t' →
      t'.active.map (fun a => (a.id, a.held)) = t.active.map fun a => (a.id, a.held) := by
    intro t t' hframe
    rw [hframe.active]
  cases hacts with
  | idle l r hi =>
      refine h.quiet rfl rfl (fun id outcome hl => ?_) fun w e hw => ?_
      · subst hl
        exact hi.1
      · cases l with
        | next now =>
            rw [hi.1] at hw
            cases hw
        | _ => cases hw
  | admitted mode now id hfail ha hmode hid =>
      have hlt : s.nextController < id := UInt64.lt_iff_toNat_lt.mpr (by omega)
      have hex : executions (tr ++ [(Call.admitController mode now, Reply.admitted ⟨id, mode⟩)]) =
          executions tr :=
        executions_snoc fun _ _ hl => by cases hl
      refine ⟨fun x hx => ?_, fun b hb => ?_, fun hb => ?_, h.each.snoc fun w e hw => ?_⟩
      · rw [hex] at hx
        exact UInt64.le_trans (h.works x hx) (UInt64.le_of_lt hlt)
      · cases hb
        rw [hex]
        refine ⟨?_, ?_⟩
        · refine (heldBy_eq_none fun x hx heq => ?_).trans (by simp [Active.held, Held.none])
          have hle := h.works x hx
          rw [heq] at hle
          exact UInt64.not_le.mpr hlt hle
        · rw [h.inactive ha]
          simp [Active.held, Held.none]
      · cases hb
      · cases hw
  | cleanup now b a work hf hb ha hw =>
      subst hw
      refine h.quiet rfl rfl (fun _ _ hl => by cases hl) fun w e hw => ?_
      cases hw
      exact fun h0 => by cases h0
  | discarded now ha hf hb =>
      exact h.quiet rfl rfl (fun _ _ hl => by cases hl) fun w e hw => by cases hw
  | dispatched now a r s' ha hf hb hd =>
      cases hd with
      | refused pre rest s' hq href hp hend =>
          exact h.quiet hp.frame.nextController (frame _ _ hp.frame) (fun _ _ hl => by cases hl)
            fun w e hw => by cases hw
      | dispatched pre w bound rest hq href hbind hfit =>
          have hex : executions (tr ++ [(Call.next now, Reply.work (some bound))]) = executions tr :=
            executions_snoc fun _ _ hl => by cases hl
          refine ⟨hex ▸ h.works, hex ▸ h.active, hex ▸ h.inactive, h.each.snoc fun v e hv he => ?_⟩
          cases hv
          have hmem : w ∈ s.queue := by
            rw [hq]
            exact List.mem_append_right _ List.mem_cons_self
          obtain ⟨hid, -, e₀, he₀, -⟩ := ho.queue a ha w hmem
          obtain ⟨e', rfl, -, htakes⟩ := State.bind_ok ha he₀ hbind
          cases he
          obtain ⟨hby, hall⟩ := h.active a ha
          have hid : w.controller = a.id := hid
          have htakes : a.held.Takes e := a.takes_held htakes
          rw [hid, hby, hall]
          exact ⟨htakes, htakes⟩
  | completed f event outcome a mid s' hf hop ha hp hkeep hcancel =>
      have hframe : mid.Frame s' := by
        by_cases hends : outcome.Ends
        · exact (hcancel hends).frame
        · rw [hkeep hends]
          exact .refl mid
      have hact : s'.active = some (if outcome = .executed then a.apply event else a) :=
        hframe.active.trans hp.frame.active
      refine h.completed ho hv hf ha (Or.inl rfl) (hframe.nextController.trans hp.frame.nextController)
        (fun b hb => ?_) (fun _ _ => ⟨event, hop⟩) fun hnone => ?_
      · cases hact.symm.trans hb
        refine ⟨(Active.apply_same a event outcome).1, ?_⟩
        rw [apply_held, hop]
      · cases hact.symm.trans hnone
  | cleanupFailed f scope reason outcome a mid hf hop ha hout hp =>
      refine h.completed ho hv hf ha (Or.inr rfl) hp.frame.nextController (fun b hb => by cases hb)
        (fun hsome => by cases hsome) fun _ => ?_
      simp [Held.after, hout, hop]
  | cleanupEnded f scope reason a mid hf hop ha hend hp =>
      refine h.completed ho hv hf ha (Or.inl rfl) hp.frame.nextController (fun b hb => by cases hb)
        (fun hsome => by cases hsome) fun _ => ?_
      obtain ⟨-, reason', hall⟩ := ho.ending f hf hend
      simp [Held.after, hall, Held.step]
  | cleanupRenewed f scope reason a s' hf hop ha hend hb hp =>
      have hact : s'.active = some { a.release scope with epoch := a.epoch + 1 } := hp.frame.active
      refine h.completed ho hv hf ha (Or.inl rfl) hp.frame.nextController (fun b hb => ?_)
        (fun _ hne => absurd rfl hne) fun hnone => ?_
      · cases hact.symm.trans hb
        refine ⟨rfl, ?_⟩
        rw [if_pos rfl, hop]
        exact a.held_release scope reason
      · cases hact.symm.trans hnone
  | cleanupBarred f scope reason a hf hop ha hend hb =>
      refine h.completed ho hv hf ha (Or.inl rfl) rfl (fun b hb => ?_)
        (fun _ hne => absurd rfl hne) fun hnone => by cases hnone
      cases hb
      refine ⟨rfl, ?_⟩
      rw [if_pos rfl, hop]
      exact a.held_release scope reason
  | geometry g s' hg hrev hc =>
      exact h.quiet hc.frame.nextController (by rw [hc.frame.active]) (fun _ _ hl => by cases hl)
        fun w e hw => by cases hw
  | resolved hfail hf =>
      exact h.quiet rfl rfl (fun _ _ hl => by cases hl) fun w e hw => by cases hw
  | heartbeat c now a ha hid =>
      exact h.quiet rfl (by rw [ha]; rfl) (fun _ _ hl => by cases hl) fun w e hw => by cases hw
  | refused c now epoch sequence event a e ha hid hseq href =>
      exact h.quiet rfl (by rw [ha]; rfl) (fun _ _ hl => by cases hl) fun w e hw => by cases hw
  | superseded c now epoch sequence event a front tail motion s' hr hm hq hop hmot hcount =>
      refine h.quiet hcount.frame.nextController ?_ (fun _ _ hl => by cases hl)
        fun w e hw => by cases hw
      rw [frame _ _ hcount.frame, hr.active]
      rfl
  | overflowed c now epoch sequence event a s' hr hfull hc =>
      refine h.quiet hc.frame.nextController ?_ (fun _ _ hl => by cases hl)
        fun w e hw => by cases hw
      rw [frame _ _ hc.frame, hr.active]
      rfl
  | accepted c now epoch sequence event a hr hmot hroom hbytes =>
      exact h.quiet rfl (by rw [hr.active]; rfl) (fun _ _ hl => by cases hl)
        fun w e hw => by cases hw
  | reset c a s' ha hid hc =>
      exact h.quiet hc.frame.nextController (frame _ _ hc.frame) (fun _ _ hl => by cases hl)
        fun w e hw => by cases hw
  | close l c a s' hl ha hid hc =>
      refine h.quiet hc.frame.nextController (frame _ _ hc.frame) (fun _ _ h0 => ?_) fun w e hw => ?_
      · rcases hl with rfl | rfl <;> cases h0
      · rcases hl with rfl | rfl <;> cases hw
  | polled c => exact h.quiet rfl rfl (fun _ _ hl => by cases hl) fun w e hw => by cases hw

end Tracked

/-- **The executor sees a well-formed trace.** In every run an event is dispatched only
when what it presses is up and what it releases or repeats is down, with the binding of
the press; and the held sets of the controller are the fold of what has been executed
for it, and of what has been executed at all. -/
theorem well_formed_input {config : Config} {tr : Trace} {s : State}
    (h : Run config Always tr s) :
    (∀ a, s.active = some a →
      heldBy a.id (executions tr) = a.held ∧ held (executions tr) = a.held) ∧
      Each Dispatch tr := by
  have htracked : Tracked tr s := by
    refine (h.viewed (P := Tracked) (fun _ _ _ => trivial) (fun s₀ hnew => ?_)
      (fun tr s s' _ h0 hc => ?_) fun tr s l r s' hs _ hv h0 hacts => h0.acts hs hv hacts).2
    · rw [(State.new_eq hnew).1]
      exact ⟨fun x hx => (by cases hx), fun b hb => (by cases hb), fun _ => rfl, each_nil⟩
    · exact h0.of_same hc.frame.nextController (by rw [hc.frame.active])
  exact ⟨htracked.active, htracked.each⟩

/-- A press, and a release of it under another name. -/
def renamed : List Call :=
  [.admitController .cooperative 0,
    .submit ⟨1, .cooperative⟩ 0 1 1 (.key 1 .down (.logical "a") 0),
    .next 0,
    .complete 1 .executed,
    .submit ⟨1, .cooperative⟩ 0 1 2 (.key 1 .up (.logical "b") 0),
    .next 0]

theorem well_formed_input_renamed :
    let x := record State.call { config := tiny } renamed
    (∀ a, x.2.active = some a →
      heldBy a.id (executions x.1) = a.held ∧ held (executions x.1) = a.held) ∧
      Each Dispatch x.1 :=
  well_formed_input (Run.of_record tiny new_tiny renamed)

/-- The release carries the binding of the press. -/
example : (dispatched (record State.call { config := tiny } renamed).1).map (·.operation) =
    [.event (.key 1 .down (.logical "a") 0), .event (.key 1 .up (.logical "a") 0)] := by
  decide +kernel

end Jackstay.Input
