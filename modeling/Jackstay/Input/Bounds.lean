import Mathlib.Order.Interval.Finset.Nat
import Jackstay.Input.Sound

/-!
The bounds of a session.

* `State.Bounded`: the outstanding events, the mailboxes, the held keys and the held
  buttons have their bounds; the event in flight may be executed within them.
* `bounded_input`: the bounds hold in every run, whatever is submitted and polled.
-/

namespace Jackstay.Input

open Traces

namespace State

variable {s s' : State} {a : Active} {statuses : List Status} {queue kept : List Work}

/-- **What is kept for the controllers is bounded.** -/
structure Bounded (s : State) : Prop where
  load : s.outstanding.length ≤ s.config.maxEvents
  mailbox : ∀ c, (s.mailboxes c).length ≤ s.mailboxCapacity
  keys : ∀ a, s.active = some a → a.keys.keys.card ≤ s.config.maxEvents
  buttons : ∀ a, s.active = some a → ∀ b ∈ a.buttons, 1 ≤ b ∧ b ≤ 32
  /-- the event in flight may be executed -/
  flight : ∀ w ∈ s.flying, ∀ a, s.active = some a → ∃ e, w.operation = .event e ∧
    a.Takes s.config.maxEvents e ∧ ∀ b action p, e = .button b action p → 1 ≤ b ∧ b ≤ 32

lemma Bounded.posts (h : s.Bounded) (hp : s.Posts a statuses queue kept s')
    (hq : queue.length ≤ s.queue.length) (hk : kept.length ≤ s.queue.length) : s'.Bounded := by
  have hload := h.load
  rw [outstanding, List.length_append] at hload
  cases hp with
  | appended hfit =>
      refine ⟨?_, fun c => ?_, h.keys, h.buttons, h.flight⟩
      · have hgoal : (s.flying ++ queue).length ≤ s.config.maxEvents := by
          rw [List.length_append]
          omega
        exact hgoal
      · have hgoal : (Function.update s.mailboxes a.id (s.mailboxes a.id ++ statuses) c).length ≤
            s.mailboxCapacity := by
          by_cases hc : c = a.id
          · subst hc
            rw [Function.update_self, List.length_append]
            by_cases hnil : statuses = []
            · subst hnil
              exact h.mailbox _
            · exact hfit hnil
          · rw [Function.update_of_ne hc]
            exact h.mailbox c
        exact hgoal
  | overflowed rest hrest hfull =>
      refine ⟨?_, fun c => ?_, h.keys, h.buttons, h.flight⟩
      · have hgoal : (s.flying ++ rest).length ≤ s.config.maxEvents := by
          have hlen := hrest.length_le
          rw [List.length_append]
          omega
        exact hgoal
      · have hgoal : (Function.update s.mailboxes a.id [.closed .overflow false] c).length ≤
            s.mailboxCapacity := by
          by_cases hc : c = a.id
          · subst hc
            rw [Function.update_self, mailboxCapacity, List.length_singleton]
            omega
          · rw [Function.update_of_ne hc]
            exact h.mailbox c
        exact hgoal

lemma Bounded.counts (h : s.Bounded) (hp : s.Counts a s') : s'.Bounded := by
  cases hp with
  | merged rest count hbox =>
      refine ⟨h.load, fun c => ?_, h.keys, h.buttons, h.flight⟩
      have hgoal : (Function.update s.mailboxes a.id
          (rest ++ [.coalesced (saturatingAdd count 1)]) c).length ≤ s.mailboxCapacity := by
        by_cases hc : c = a.id
        · subst hc
          have hold := h.mailbox a.id
          rw [hbox] at hold
          simpa using hold
        · rw [Function.update_of_ne hc]
          exact h.mailbox c
      exact hgoal
  | appended hroom =>
      have hp : s.Posts a [.coalesced 1] s.queue [] (s.append a [.coalesced 1]) :=
        .appended fun _ => by simp only [List.length_singleton]; omega
      exact h.posts hp le_rfl (Nat.zero_le _)
  | overflowed hfull =>
      have hp : s.Posts a [.coalesced 1] s.queue [] (s.overflow a []) :=
        .overflowed [] List.nil_prefix (by simp only [List.length_singleton]; omega)
      exact h.posts hp le_rfl (Nat.zero_le _)

/-- Neither a barrier nor a geometry is bounded. -/
lemma Bounded.bar (h : s.Bounded) (barrier : Option Barrier) (g : Geometry) :
    ({ s with config := { s.config with geometry := g }, barrier } : State).Bounded :=
  ⟨h.load, h.mailbox, h.keys, h.buttons, h.flight⟩

lemma Bounded.cancels_geometry (h : s.Bounded) (g : Geometry) {scope : Scope} {reason : Reason}
    {ending : Bool}
    (hc : ({ s with config := { s.config with geometry := g } } : State).Cancels scope reason ending
      s') : s'.Bounded := by
  cases hc with
  | inactive ha => exact h.bar s.barrier g
  | sufficed a ha hf => exact h.bar s.barrier g
  | barred a s' ha hf hp =>
      exact (h.bar (some _) g).posts hp (List.length_filter_le _ _) (List.length_filter_le _ _)

lemma Bounded.cancels (h : s.Bounded) {scope : Scope} {reason : Reason} {ending : Bool}
    (hc : s.Cancels scope reason ending s') : s'.Bounded :=
  h.cancels_geometry s.config.geometry hc

end State

/-- An executed event keeps the bounds, if it may be executed. -/
lemma Active.card_apply_le {a : Active} {maxEvents : ℕ} {e : Event} (ht : a.Takes maxEvents e)
    (h : a.keys.keys.card ≤ maxEvents) : (a.apply e).keys.keys.card ≤ maxEvents := by
  rcases e with ⟨press, action, key, modifiers⟩ | _ | _ | ⟨button, _ | _ | _, p⟩ | _
  · cases action with
    | down =>
        have hkeys : (a.keys.insert press key).keys = insert press a.keys.keys := by
          ext k
          rw [Finmap.mem_keys, Finmap.mem_insert, Finset.mem_insert, Finmap.mem_keys]
        have hcard : a.keys.keys.card < maxEvents := ht.2
        calc (a.keys.insert press key).keys.card
            = (insert press a.keys.keys).card := by rw [hkeys]
          _ ≤ a.keys.keys.card + 1 := Finset.card_insert_le _ _
          _ ≤ maxEvents := hcard
    | up =>
        calc (a.keys.erase press).keys.card
            = (a.keys.keys.erase press).card := by rw [Finmap.keys_erase]
          _ ≤ a.keys.keys.card := Finset.card_erase_le
          _ ≤ maxEvents := h
    | «repeat» => exact h
  all_goals exact h

lemma Active.mem_buttons_apply {a : Active} {e : Event} {b : UInt32}
    (h : b ∈ (a.apply e).buttons) :
    b ∈ a.buttons ∨ ∃ p, e = .button b .down p := by
  rcases e with ⟨press, _ | _ | _, key, modifiers⟩ | _ | _ | ⟨button, _ | _ | _, p⟩ | _
  case button.down =>
    rcases Finset.mem_insert.mp h with rfl | h
    · exact Or.inr ⟨p, rfl⟩
    · exact Or.inl h
  case button.up => exact Or.inl (Finset.mem_of_mem_erase h)
  all_goals exact Or.inl h

/-- What is rebound is a key. -/
lemma Event.Rebinds.button {e e' : Event} (h : e.Rebinds e') {b : UInt32} {action : Action}
    {p : Position} (he : e' = .button b action p) : e = .button b action p := by
  rcases h with rfl | ⟨press, act, key, key', modifiers, -, -, rfl⟩
  · exact he
  · cases he

namespace State

variable {s s' : State} {a : Active} {statuses : List Status} {queue kept : List Work}

/-- The flight is over, and the controller has these keys and buttons. -/
lemma Bounded.land (h : s.Bounded) {active : Option Active}
    (hkeys : ∀ a, active = some a → a.keys.keys.card ≤ s.config.maxEvents)
    (hbuttons : ∀ a, active = some a → ∀ b ∈ a.buttons, 1 ≤ b ∧ b ≤ 32) :
    ({ s with flight := none, active } : State).Bounded := by
  refine ⟨?_, h.mailbox, hkeys, hbuttons, fun w hw => by cases hw⟩
  have hload := h.load
  rw [outstanding, List.length_append] at hload
  have hgoal : s.queue.length ≤ s.config.maxEvents := by omega
  exact hgoal

/-- The controller changes, but not in what it holds. -/
lemma Bounded.reactivate (h : s.Bounded) (ha : s.active = some a) {b : Active}
    (hkeys : b.keys = a.keys) (hbuttons : b.buttons = a.buttons) :
    ({ s with active := some b } : State).Bounded := by
  refine ⟨h.load, h.mailbox, fun c hc => ?_, fun c hc => ?_, fun w hw c hc => ?_⟩
  · cases hc
    rw [hkeys]
    exact h.keys a ha
  · cases hc
    rw [hbuttons]
    exact h.buttons a ha
  · cases hc
    obtain ⟨e, he, ht, hb⟩ := h.flight w hw a ha
    exact ⟨e, he, ht.of_held hkeys hbuttons, hb⟩

/-- A shorter queue. -/
lemma Bounded.requeue (h : s.Bounded) (queue : List Work) (hq : queue.length ≤ s.queue.length) :
    ({ s with queue } : State).Bounded := by
  refine ⟨?_, h.mailbox, h.keys, h.buttons, h.flight⟩
  have hload := h.load
  rw [outstanding, List.length_append] at hload
  have hgoal : (s.flying ++ queue).length ≤ s.config.maxEvents := by
    rw [List.length_append]
    omega
  exact hgoal

lemma Bounded.released (h : s.Bounded) (ha : s.active = some a) (scope : Scope)
    {b : Active} (hkeys : b.keys = (a.release scope).keys)
    (hbuttons : b.buttons = (a.release scope).buttons) :
    ({ s with flight := none, active := some b } : State).Bounded := by
  refine h.land (fun c hc => ?_) fun c hc x hx => ?_
  · cases hc
    rw [hkeys, Active.release]
    dsimp only
    split_ifs
    · exact Nat.zero_le _
    · exact h.keys a ha
  · cases hc
    rw [hbuttons] at hx
    exact absurd hx (Finset.notMem_empty x)

/-- **Every call keeps the bounds.** -/
lemma Bounded.acts (h : s.Bounded) (hl : s.Linked) (ho : s.Owned) {l : Call} {r : Reply}
    (hacts : s.Acts l r s') : s'.Bounded := by
  cases hacts with
  | idle => exact h
  | admitted mode now id hfail ha hmode hid =>
      have hfly : s.flying = [] := flying_of_none (hl.flight_eq_none ha)
      refine ⟨h.load, fun c => ?_, fun b hb => ?_, fun b hb x hx => ?_, fun w hw => ?_⟩
      · have hgoal : (Function.update s.mailboxes id [] c).length ≤ s.mailboxCapacity := by
          by_cases hc : c = id
          · subst hc
            rw [Function.update_self]
            exact Nat.zero_le _
          · rw [Function.update_of_ne hc]
            exact h.mailbox c
        exact hgoal
      · cases hb
        exact Nat.zero_le _
      · cases hb
        exact absurd hx (Finset.notMem_empty x)
      · have hw : w ∈ s.flying := hw
        rw [hfly] at hw
        cases hw
  | cleanup now b a work hf hb ha hw =>
      subst hw
      have hload := h.load
      rw [outstanding, flying_of_none hf] at hload
      exact ⟨hload, h.mailbox, h.keys, h.buttons, fun w hw => by cases hw⟩
  | discarded now ha hf hb => exact h.bar none s.config.geometry
  | dispatched now a r s' ha hf hb hd =>
      have hload := h.load
      rw [outstanding, flying_of_none hf, List.nil_append] at hload
      cases hd with
      | refused pre rest s' hq href hp hend =>
          refine h.posts hp ?_ (Nat.zero_le _)
          rw [hq, List.length_append]
          omega
      | dispatched pre w bound rest hq href hbind hfit =>
          have hmem : w ∈ s.queue := by
            rw [hq]
            exact List.mem_append_right _ List.mem_cons_self
          obtain ⟨-, -, e, he, hvalid⟩ := ho.queue a ha w hmem
          obtain ⟨e', rfl, hreb, htakes⟩ := bind_ok ha he hbind
          refine ⟨?_, fun c => ?_, h.keys, h.buttons, fun v hv b hb' => ?_⟩
          · rw [hq, List.length_append, List.length_cons] at hload
            have hgoal : rest.length + 1 ≤ s.config.maxEvents := by omega
            exact hgoal
          · have hgoal : (Function.update s.mailboxes a.id
                (s.mailboxes a.id ++ pre.filterMap s.refusal) c).length ≤ s.mailboxCapacity := by
              by_cases hc : c = a.id
              · subst hc
                rw [Function.update_self, List.length_append]
                rcases hfit with hfit | rfl
                · exact hfit
                · exact h.mailbox _
              · rw [Function.update_of_ne hc]
                exact h.mailbox c
            exact hgoal
          · cases ha.symm.trans hb'
            rw [List.mem_singleton.mp hv]
            refine ⟨e', rfl, htakes, fun x action p hx => ?_⟩
            have hvalid := hreb.button hx ▸ hvalid
            exact ⟨(button_of_validate hvalid).1, (button_of_validate hvalid).2.1⟩
  | completed f event outcome a mid s' hf hop ha hp hkeep hcancel =>
      have hmem : f.work ∈ s.flying := by
        rw [flying_of_event hf hop]
        exact List.mem_singleton_self _
      obtain ⟨e, he, htakes, hbutton⟩ := h.flight f.work hmem a ha
      cases hop.symm.trans he
      have hland : ({ s with
          flight := none
          active := some (if outcome = .executed then a.apply event else a) } : State).Bounded := by
        refine h.land (fun b hb => ?_) fun b hb x hx => ?_
        · cases hb
          split_ifs
          · exact Active.card_apply_le htakes (h.keys a ha)
          · exact h.keys a ha
        · cases hb
          split_ifs at hx
          · rcases Active.mem_buttons_apply hx with hx | ⟨p, hx⟩
            · exact h.buttons a ha x hx
            · exact hbutton x .down p hx
          · exact h.buttons a ha x hx
      have hmid : mid.Bounded := hland.posts hp le_rfl (Nat.zero_le _)
      by_cases ho : outcome.Ends
      · exact hmid.cancels (hcancel ho)
      · rw [hkeep ho]
        exact hmid
  | cleanupFailed f scope reason outcome a mid hf hop ha ho hp =>
      have hland : ({ s with flight := none, failed := true, queue := [], barrier := none } :
          State).Bounded := by
        have h0 := (h.land (fun b hb => h.keys b hb) fun b hb => h.buttons b hb).requeue []
          (Nat.zero_le _)
        exact ⟨h0.load, h0.mailbox, h0.keys, h0.buttons, fun w hw => by cases hw⟩
      have hmid : mid.Bounded := hland.posts hp le_rfl le_rfl
      exact ⟨hmid.load, hmid.mailbox, fun b hb => (by cases hb), fun b hb => (by cases hb),
        fun w hw b hb => by cases hb⟩
  | cleanupEnded f scope reason a mid hf hop ha hend hp =>
      have hrel := h.released ha scope (b := a.release scope) rfl rfl
      have hmid : mid.Bounded := hrel.posts hp le_rfl (Nat.zero_le _)
      have hempty := hmid.requeue [] (Nat.zero_le _)
      exact ⟨hempty.load, hmid.mailbox, fun b hb => (by cases hb), fun b hb => (by cases hb),
        fun w hw b hb => by cases hb⟩
  | cleanupRenewed f scope reason a s' hf hop ha hend hb hp =>
      have hrel := h.released ha scope
        (b := { a.release scope with epoch := a.epoch + 1 }) rfl rfl
      have hmap := hrel.requeue (s.queue.map fun w => { w with epoch := a.epoch + 1 })
        (by rw [List.length_map])
      exact hmap.posts hp le_rfl (Nat.zero_le _)
  | cleanupBarred f scope reason a hf hop ha hend hb =>
      exact h.released ha scope rfl rfl
  | geometry g s' hv hrev hc => exact h.cancels_geometry g hc
  | resolved hfail hf => exact ⟨h.load, h.mailbox, h.keys, h.buttons, h.flight⟩
  | heartbeat c now a ha hid => exact h.reactivate ha rfl rfl
  | refused c now epoch sequence event a e ha hid hseq href => exact h.reactivate ha rfl rfl
  | superseded c now epoch sequence event a front tail motion s' hr hm hq hop hmot hcount =>
      have hreact := h.reactivate hr.active (b := { a with lastSequence := sequence }) rfl rfl
      refine Bounded.counts ?_ hcount
      refine hreact.requeue _ ?_
      rw [hq, List.length_append, List.length_append, List.length_singleton, List.length_singleton]
  | overflowed c now epoch sequence event a s' hr hfull hc =>
      have hreact := h.reactivate hr.active (b := { a with lastSequence := sequence }) rfl rfl
      exact hreact.cancels hc
  | accepted c now epoch sequence event a hr hmot hroom hbytes =>
      have hreact := h.reactivate hr.active (b := { a with
        lastSequence := sequence
        scrollOpen := a.scrollOpen || event.scrollStart }) rfl rfl
      refine ⟨?_, h.mailbox, hreact.keys, hreact.buttons, hreact.flight⟩
      have hgoal : (s.flying ++ (s.queue ++ [(⟨c.mode, s.nextWork + 1, c.id, epoch, sequence,
          .event event⟩ : Work)])).length ≤ s.config.maxEvents := by
        have hfly := s.flying_length_le
        rw [List.length_append, List.length_append, List.length_singleton]
        omega
      exact hgoal
  | reset c a s' ha hid hc => exact h.cancels hc
  | close l c a s' hl ha hid hc => exact h.cancels hc
  | polled c =>
      refine ⟨h.load, fun d => ?_, h.keys, h.buttons, h.flight⟩
      have hgoal : (Function.update s.mailboxes c.id (s.mailboxes c.id).tail d).length ≤
          s.mailboxCapacity := by
        by_cases hd : d = c.id
        · subst hd
          rw [Function.update_self, List.length_tail]
          exact (Nat.sub_le _ _).trans (h.mailbox _)
        · rw [Function.update_of_ne hd]
          exact h.mailbox d
      exact hgoal

/-- In every run. -/
lemma bounded_of_reached (h : Reached s) : s.Bounded := by
  refine h.invariant (fun config s₀ hnew => ?_) (fun s s' _ h hc => h.cancels hc)
    fun s l r s' hs h hacts => h.acts hs.linked (owned_of_reached hs) hacts
  rw [(new_eq hnew).1]
  exact ⟨Nat.zero_le _, fun c => Nat.zero_le _, fun b hb => (by cases hb), fun b hb => (by cases hb),
    fun w hw => by cases hw⟩

/-- Only the geometry of a configuration ever changes. -/
lemma Acts.config {l : Call} {r : Reply} (h : s.Acts l r s') :
    ∃ g, s'.config = { s.config with geometry := g } := by
  have same : ∀ {c : Config}, c = s.config → ∃ g, c = { s.config with geometry := g } :=
    fun h => ⟨s.config.geometry, h⟩
  cases h with
  | dispatched now a r s' ha hf hb hd =>
      cases hd with
      | refused pre rest s' hq href hp hend => exact same hp.frame.config
      | dispatched => exact same rfl
  | completed f event outcome a mid s' hf hop ha hp hkeep hcancel =>
      by_cases ho : outcome.Ends
      · exact same ((hcancel ho).frame.config.trans hp.frame.config)
      · rw [hkeep ho]
        exact same hp.frame.config
  | cleanupFailed f scope reason outcome a mid hf hop ha ho hp => exact same hp.frame.config
  | cleanupEnded f scope reason a mid hf hop ha hend hp => exact same hp.frame.config
  | cleanupRenewed f scope reason a s' hf hop ha hend hb hp => exact same hp.frame.config
  | geometry g s' hv hrev hc => exact ⟨g, hc.frame.config⟩
  | superseded c now epoch sequence event a front tail motion s' hr hm hq hop hmot hcount =>
      exact same hcount.frame.config
  | overflowed c now epoch sequence event a s' hr hfull hc => exact same hc.frame.config
  | reset c a s' ha hid hc => exact same hc.frame.config
  | close l c a s' hl ha hid hc => exact same hc.frame.config
  | _ => exact same rfl

lemma Acts.maxEvents {l : Call} {r : Reply} (h : s.Acts l r s') :
    s'.config.maxEvents = s.config.maxEvents := by
  obtain ⟨g, hg⟩ := h.config
  rw [hg]

end State

lemma Run.maxEvents {config : Config} {C : State → Call → Prop} {tr : Trace} {s : State}
    (h : Run config C tr s) : s.config.maxEvents = config.maxEvents := by
  refine h.always.traced (P := fun _ s => s.config.maxEvents = config.maxEvents)
    (fun _ _ _ => trivial) (fun s₀ hnew => ?_) (fun tr s s' _ h0 hc => ?_)
    fun tr s l r s' _ _ h0 hacts => hacts.maxEvents.trans h0
  · rw [(State.new_eq hnew).1]
  · rw [hc.frame.config]
    exact h0

/-- **Bounded input state**: for every configuration that `Target::new` accepts and every
run, queued works and an event in flight are at most `max_events`, no mailbox holds more
than `2 * max_events + 4` statuses, at most `max_events` keys and at most 32 buttons are
held. -/
theorem bounded_input {config : Config} {tr : Trace} {s : State} (h : Run config Always tr s) :
    s.queue.length + s.flying.length ≤ config.maxEvents ∧
      (∀ c, (s.mailboxes c).length ≤ 2 * config.maxEvents + 4) ∧
      ∀ a, s.active = some a → a.keys.keys.card ≤ config.maxEvents ∧ a.buttons.card ≤ 32 := by
  have hb : s.Bounded := State.bounded_of_reached ⟨config, tr, h⟩
  have hmax : s.config.maxEvents = config.maxEvents := h.maxEvents
  refine ⟨?_, fun c => ?_, fun a ha => ⟨hmax ▸ hb.keys a ha, ?_⟩⟩
  · have hload := hb.load
    rw [State.outstanding, List.length_append] at hload
    omega
  · have hbox := hb.mailbox c
    rw [State.mailboxCapacity] at hbox
    omega
  · -- the buttons are among 1, …, 32
    have hsub : a.buttons.image (·.toNat) ⊆ Finset.Icc 1 32 := by
      intro n hn
      obtain ⟨b, hbm, rfl⟩ := Finset.mem_image.mp hn
      obtain ⟨h1, h2⟩ := hb.buttons a ha b hbm
      exact Finset.mem_Icc.mpr ⟨UInt32.le_iff_toNat_le.mp h1, UInt32.le_iff_toNat_le.mp h2⟩
    calc a.buttons.card
        = (a.buttons.image (·.toNat)).card :=
          (Finset.card_image_of_injective _ fun x y hxy => UInt32.toNat_inj.mp hxy).symm
      _ ≤ (Finset.Icc 1 32).card := Finset.card_le_card hsub
      _ = 32 := by decide

/-- A press and an unread status. -/
def pressed : List Call :=
  [.admitController .cooperative 0,
    .submit ⟨1, .cooperative⟩ 0 1 1 (.key 1 .down (.logical "a") 0),
    .next 0,
    .complete 1 .executed]

theorem bounded_input_pressed :
    let s := (record State.call { config := tiny } pressed).2
    s.queue.length + s.flying.length ≤ 1 ∧ (∀ c, (s.mailboxes c).length ≤ 6) ∧
      ∀ a, s.active = some a → a.keys.keys.card ≤ 1 ∧ a.buttons.card ≤ 32 :=
  bounded_input (Run.of_record tiny new_tiny pressed)

end Jackstay.Input
