import Jackstay.Input.Trace

/-!
Owners of works.

* `place_of_validate`, `button_of_validate`: what a valid event is worth.
* `State.bind_ok`: what is held when an event is dispatched.
* `State.Owned`: the queue and the flight belong to the controller that is there and
  carry its epoch, and a barrier or a cleanup leaves no pointer work queued;
  `State.owned_of_reached` that it is so in every run.
-/

namespace Jackstay.Input

/-- The work is an event of the pointer. -/
def Work.pointer (w : Work) : Bool :=
  match w.operation with
  | .event e => e.pointer
  | .cleanup _ _ => false

lemma Scope.drops_eq (scope : Scope) (w : Work) :
    scope.drops w = (scope == .all || w.pointer) := rfl

lemma Scope.pointer_of_drops {scope : Scope} {w : Work} (h : scope.drops w = false) :
    w.pointer = false := by
  rw [drops_eq, Bool.or_eq_false_iff] at h
  exact h.2

lemma Scope.drops_of_pointer {scope : Scope} {w : Work} (h : w.pointer = true) :
    scope.drops w = true := by
  rw [drops_eq, h, Bool.or_true]

/-! ### What validation accepts -/

/-- The position is current and lies in the geometry. -/
def Position.In (p : Position) (g : Geometry) : Prop :=
  p.revision = g.revision ∧ p.x.isFinite = true ∧ p.y.isFinite = true ∧ p.x.lt .zero = false ∧
    p.y.lt .zero = false ∧ g.width.le p.x = false ∧ g.height.le p.y = false

/-- The position that an event has to have in the current geometry. A release has none. -/
def Event.place : Event → Option Position
  | .motion p => some p
  | .button _ .down p => some p
  | .scroll _ _ _ _ _ _ p => some p
  | _ => none

lemma position_ok {c : Config} {p : Position} (h : position c p = .ok ()) : p.In c.geometry := by
  rw [position] at h
  split_ifs at h with hrev hin
  simp only [Bool.or_eq_true, Bool.not_eq_true', not_or, Bool.not_eq_false, Bool.not_eq_true] at hin
  obtain ⟨⟨⟨⟨⟨hx, hy⟩, hx0⟩, hy0⟩, hw⟩, hh⟩ := hin
  exact ⟨not_not.mp hrev, hx, hy, hx0, hy0, hw, hh⟩

lemma validateEvent_of_validate {c : Config} {mode : Mode} {e : Event}
    (h : validate c mode e = .ok ()) : ∃ x, validateEvent c mode e = .ok x := by
  rw [validate] at h
  cases hv : validateEvent c mode e with
  | error err =>
      rw [hv] at h
      cases h
  | ok x => exact ⟨x, rfl⟩

lemma position_of_bind {c : Config} {p : Position} {x y : Option UInt32}
    (h : (do position c p; return x : Except Error (Option UInt32)) = .ok y) :
    position c p = .ok () := by
  cases hp : position c p with
  | error err =>
      rw [hp] at h
      cases h
  | ok u => rfl

/-- A valid event has its position in the geometry. -/
lemma place_of_validate {c : Config} {mode : Mode} {e : Event} {p : Position}
    (h : validate c mode e = .ok ()) (hp : e.place = some p) : p.In c.geometry := by
  obtain ⟨x, hx⟩ := validateEvent_of_validate h
  cases e with
  | key press action k modifiers => cases hp
  | text t => cases hp
  | motion q =>
      cases hp
      exact position_ok (position_of_bind hx)
  | button button action q =>
      cases action with
      | down =>
          cases hp
          rw [validateEvent] at hx
          rw [if_pos rfl] at hx
          split at hx
          · cases hx
          · exact position_ok (position_of_bind hx)
      | up => cases hp
      | «repeat» => cases hp
  | scroll x y unit phase momentumPhase inverted q =>
      cases hp
      rw [validateEvent] at hx
      split_ifs at hx
      exact position_ok (position_of_bind hx)

/-- A valid button is one of the first 32, and is pressed or released. -/
lemma button_of_validate {c : Config} {mode : Mode} {button : UInt32} {action : Action}
    {p : Position} (h : validate c mode (.button button action p) = .ok ()) :
    1 ≤ button ∧ button ≤ 32 ∧ action ≠ .repeat := by
  obtain ⟨x, hx⟩ := validateEvent_of_validate h
  rw [validateEvent] at hx
  split_ifs at hx with h1
  all_goals
    simp only [not_or, UInt32.not_lt] at h1
    exact ⟨h1.1, h1.2.1, h1.2.2.1⟩

/-- Whether an event of the keyboard is valid does not depend on the geometry. -/
lemma validate_geometry {c : Config} {mode : Mode} {e : Event} (he : e.pointer = false)
    (g : Geometry) : validate { c with geometry := g } mode e = validate c mode e := by
  cases e with
  | key press action k modifiers => rfl
  | text t => rfl
  | motion q => cases he
  | button button action q => cases he
  | scroll => cases he

/-! ### Held keys and buttons -/

/-- The event is dispatched as this one: a release or a repeat of a key takes the binding
of the press, and every other event stays as it is. -/
def Event.Rebinds (e e' : Event) : Prop :=
  e' = e ∨ ∃ press action key key' modifiers, e = .key press action key modifiers ∧
    action ≠ .down ∧ e' = .key press action key' modifiers

/-- What the held keys and buttons have to be for an event to be dispatched. -/
def Active.Takes (a : Active) (maxEvents : ℕ) : Event → Prop
  | .key press .down _ _ => press ∉ a.keys ∧ a.keys.keys.card < maxEvents
  | .key press _ key _ => a.keys.lookup press = some key
  | .button button action _ => action = .down ↔ button ∉ a.buttons
  | _ => True

lemma Active.Takes.of_held {a b : Active} {maxEvents : ℕ} {e : Event} (h : a.Takes maxEvents e)
    (hkeys : b.keys = a.keys) (hbuttons : b.buttons = a.buttons) : b.Takes maxEvents e := by
  obtain ⟨_, _, _, _, _, keys, buttons, _⟩ := b
  have hkeys : keys = a.keys := hkeys
  have hbuttons : buttons = a.buttons := hbuttons
  subst hkeys hbuttons
  rcases e with ⟨press, _ | _ | _, key, modifiers⟩ | _ | _ | _ | _ <;> exact h

lemma Active.takes_key {a : Active} {maxEvents : ℕ} {press : UInt64} {action : Action} {key : Key}
    {modifiers : UInt32} (h : action ≠ .down) :
    a.Takes maxEvents (.key press action key modifiers) ↔ a.keys.lookup press = some key := by
  cases action with
  | down => exact absurd rfl h
  | up => rfl
  | «repeat» => rfl

lemma Active.apply_same (a : Active) (e : Event) (outcome : Outcome) :
    (if outcome = .executed then a.apply e else a).id = a.id ∧
      (if outcome = .executed then a.apply e else a).epoch = a.epoch ∧
      (if outcome = .executed then a.apply e else a).mode = a.mode := by
  have same : (a.apply e).id = a.id ∧ (a.apply e).epoch = a.epoch ∧ (a.apply e).mode = a.mode := by
    rcases e with ⟨press, _ | _ | _, key, modifiers⟩ | _ | _ | ⟨button, _ | _ | _, p⟩ | _ <;>
      exact ⟨rfl, rfl, rfl⟩
  split_ifs
  · exact same
  · exact ⟨rfl, rfl, rfl⟩

lemma Active.apply_lastSequence (a : Active) (e : Event) (outcome : Outcome) :
    (if outcome = .executed then a.apply e else a).lastSequence = a.lastSequence := by
  split_ifs
  · rcases e with ⟨press, _ | _ | _, key, modifiers⟩ | _ | _ | ⟨button, _ | _ | _, p⟩ | _ <;> rfl
  · rfl

namespace State

variable {s s' : State} {a : Active} {statuses : List Status} {queue kept : List Work}

/-- The event in flight. -/
def flying (s : State) : List Work := (s.flight.toList.map (·.work)).filter fun w => !w.isCleanup

/-- The events that the controller waits for. -/
def outstanding (s : State) : List Work := s.flying ++ s.queue

lemma flying_of_none (hf : s.flight = none) : s.flying = [] := by
  rw [flying, hf]
  rfl

/-- An event in flight is one of the flights. -/
lemma flying_length_le (s : State) : s.flying.length ≤ s.flight.toList.length := by
  rw [flying]
  exact (List.length_filter_le _ _).trans (by rw [List.length_map])

lemma flying_of_event {f : Flight} {e : Event} (hf : s.flight = some f)
    (he : f.work.operation = .event e) : s.flying = [f.work] := by
  have hnot : f.work.isCleanup = false := by rw [Work.isCleanup, he]
  rw [flying, hf]
  simp [hnot]

lemma flying_of_cleanup {f : Flight} {scope : Scope} {reason : Reason} (hf : s.flight = some f)
    (hop : f.work.operation = .cleanup scope reason) : s.flying = [] := by
  have hclean : f.work.isCleanup = true := by rw [Work.isCleanup, hop]
  simp [flying, hf, hclean]

/-! ### Owners -/

/-- **The queue and the flight belong to the controller.** -/
structure Owned (s : State) : Prop where
  /-- what waits is a valid event of the controller, of its epoch -/
  queue : ∀ a, s.active = some a → ∀ w ∈ s.queue, w.controller = a.id ∧ w.epoch = a.epoch ∧
    ∃ e, w.operation = .event e ∧ validate s.config a.mode e = .ok ()
  /-- a barrier or a cleanup leaves no pointer work -/
  shut : s.barrier.isSome ∨ s.cleaning = true → ∀ w ∈ s.queue, w.pointer = false
  scope : ∀ b, s.barrier = some b → b.ending = true → b.scope = .all
  flight : ∀ f a, s.flight = some f → s.active = some a →
    f.work.controller = a.id ∧ f.work.epoch = a.epoch
  /-- the cleanup that ends the controller is an `All` cleanup with no barrier behind it -/
  ending : ∀ f, s.flight = some f → f.ending = true →
    s.barrier = none ∧ ∃ reason, f.work.operation = .cleanup .all reason
  id : ∀ a, s.active = some a → a.id = s.nextController
  failed : s.failed = true → s.active = none
  /-- nobody has used the ids to come -/
  fresh : ∀ c, s.nextController < c → s.mailboxes c = [] ∧ s.overflowed c = false

/-- No event ends the controller when it is completed. -/
lemma Owned.event (h : s.Owned) {f : Flight} {e : Event} (hf : s.flight = some f)
    (he : f.work.operation = .event e) : f.ending = false := by
  cases hend : f.ending with
  | false => rfl
  | true =>
      obtain ⟨-, reason, hop⟩ := h.ending f hf hend
      rw [he] at hop
      cases hop

lemma cleaning_of_flight {f : Flight} (hf : s.flight = some f) :
    s.cleaning = f.work.isCleanup := by
  rw [cleaning, hf]
  rfl

lemma Owned.not_ending_of_not_cleaning (h : s.Owned) (hc : s.cleaning = false) {f : Flight}
    (hf : s.flight = some f) : f.ending = false := by
  cases hop : f.work.operation with
  | event e => exact h.event hf hop
  | cleanup scope reason =>
      rw [cleaning_of_flight hf, Work.isCleanup, hop] at hc
      cases hc

lemma Owned.ne_of_lt (h : s.Owned) (ha : s.active = some a) {c : UInt64}
    (hc : s.nextController < c) : c ≠ a.id := by
  rw [h.id a ha]
  intro heq
  rw [heq] at hc
  exact UInt64.lt_irrefl _ hc

/-- Statuses for works that leave the queue. -/
lemma Owned.posts (h : s.Owned) (ha : s.active = some a) (hp : s.Posts a statuses queue kept s')
    (hf : ∀ f, s.flight = some f → f.ending = false) (hq : queue.Sublist s.queue)
    (hk : kept.Sublist s.queue) (hkept : ∀ w ∈ kept, w.pointer = false) : s'.Owned := by
  have hfresh : ∀ c, s.nextController < c → s'.mailboxes c = [] ∧ s'.overflowed c = false := by
    intro c hc
    have hne : c ≠ a.id := h.ne_of_lt ha hc
    rw [(hp.mailbox_of_ne hne).1, (hp.mailbox_of_ne hne).2]
    exact h.fresh c hc
  cases hp with
  | appended hfit =>
      exact ⟨fun b hb w hw => h.queue b hb w (hq.subset hw),
        fun hs w hw => h.shut hs w (hq.subset hw), h.scope, h.flight, h.ending, h.id, h.failed,
        hfresh⟩
  | overflowed rest hrest hfull =>
      refine ⟨fun b hb w hw => h.queue b hb w (hk.subset (hrest.subset hw)),
        fun _ w hw => hkept w (hrest.subset hw), fun b hb _ => ?_, h.flight, fun f h0 hend => ?_,
        h.id, h.failed, hfresh⟩
      · cases hb
        rfl
      · rw [hf f h0] at hend
        cases hend

/-- One status. -/
lemma Owned.posted (h : s.Owned) (ha : s.active = some a)
    (hp : s.Posts a statuses s.queue [] s') (hf : ∀ f, s.flight = some f → f.ending = false) :
    s'.Owned :=
  h.posts ha hp hf (List.Sublist.refl _) (List.nil_sublist _) (by simp)

lemma Owned.counts (h : s.Owned) (ha : s.active = some a) (hp : s.Counts a s')
    (hf : ∀ f, s.flight = some f → f.ending = false) : s'.Owned := by
  cases hp with
  | merged rest count hbox =>
      refine ⟨h.queue, h.shut, h.scope, h.flight, h.ending, h.id, h.failed, fun c hc => ?_⟩
      obtain ⟨hbox, hover⟩ := h.fresh c hc
      exact ⟨(Function.update_of_ne (h.ne_of_lt ha hc) _ _).trans hbox, hover⟩
  | appended hroom =>
      have hp : s.Posts a [.coalesced 1] s.queue [] (s.append a [.coalesced 1]) :=
        .appended fun _ => by simp only [List.length_singleton]; omega
      exact h.posted ha hp hf
  | overflowed hfull =>
      have hp : s.Posts a [.coalesced 1] s.queue [] (s.overflow a []) :=
        .overflowed [] List.nil_prefix (by simp only [List.length_singleton]; omega)
      exact h.posted ha hp hf

/-- Which statuses are posted does not depend on the queue before. -/
lemma Posts.on (h : s.Posts a statuses queue kept s') (rest : List Work) :
    ({ s with queue := rest } : State).Posts a statuses queue kept s' := by
  cases h with
  | appended hfit => exact .appended hfit
  | overflowed tail htail hfull => exact .overflowed tail htail hfull

lemma barred_scope (h : s.Owned) {scope : Scope} {reason : Reason} {ending : Bool}
    (hend : (s.barred scope reason ending).ending = true) :
    (s.barred scope reason ending).scope = .all := by
  have hall : (s.barrier.any (·.scope == .all) || ending) = true := by
    rcases Bool.or_eq_true_iff.mp hend with hend | hend
    · rw [hend, Bool.or_true]
    · obtain ⟨b, hb, hbe⟩ := (Option.any_eq_true _ _).mp hend
      rw [hb, Option.any_some, h.scope b hb hbe]
      rfl
  rw [barred]
  exact if_pos hall

/-- The barrier of a cancellation, with what it leaves of the queue. -/
lemma Owned.bar (h : s.Owned) (scope : Scope) (reason : Reason) (ending : Bool)
    (hf : s.flight.any (·.ending) = false) :
    ({ s with
      barrier := some (s.barred scope reason ending)
      queue := s.queue.filter fun w => !(s.barred scope reason ending).scope.drops w } :
        State).Owned := by
  refine ⟨fun c hc w hw => h.queue c hc w (List.mem_of_mem_filter hw), fun _ w hw => ?_,
    fun b hb hend => ?_, h.flight, fun f h0 hend => ?_, h.id, h.failed, h.fresh⟩
  · have hdrops : (!(s.barred scope reason ending).scope.drops w) = true := (List.mem_filter.mp hw).2
    exact Scope.pointer_of_drops (by simpa using hdrops)
  · cases hb
    exact barred_scope h hend
  · have h0 : s.flight = some f := h0
    rw [h0, Option.any_some, hend] at hf
    cases hf

/-- A geometry matters to pointer work only. -/
lemma Owned.regeometry (h : s.Owned) (hq : ∀ w ∈ s.queue, w.pointer = false) (g : Geometry) :
    ({ s with config := { s.config with geometry := g } } : State).Owned := by
  refine ⟨fun a ha w hw => ?_, h.shut, h.scope, h.flight, h.ending, h.id, h.failed, h.fresh⟩
  obtain ⟨hid, hepoch, e, he, hvalid⟩ := h.queue a ha w hw
  refine ⟨hid, hepoch, e, he, ?_⟩
  have hpointer : e.pointer = false := by
    have hw := hq w hw
    rwa [Work.pointer, he] at hw
  exact (validate_geometry hpointer g).trans hvalid

/-- A cancellation, under the geometry before it or a new one. -/
lemma Owned.cancels_geometry (h : s.Owned) (g : Geometry) {scope : Scope} {reason : Reason}
    {ending : Bool}
    (hc : ({ s with config := { s.config with geometry := g } } : State).Cancels scope reason ending
      s') : s'.Owned := by
  cases hc with
  | inactive ha =>
      refine ⟨fun b hb => ?_, h.shut, h.scope, h.flight, h.ending, h.id, h.failed, h.fresh⟩
      cases hb.symm.trans ha
  | sufficed a ha hf =>
      refine h.regeometry (fun w hw => h.shut (Or.inr ?_) w hw) g
      obtain ⟨f, h0, hend⟩ := (Option.any_eq_true _ _).mp hf
      have h0 : s.flight = some f := h0
      obtain ⟨-, reason, hop⟩ := h.ending f h0 hend
      rw [cleaning_of_flight h0, Work.isCleanup, hop]
  | barred a s' ha hf hp =>
      have hbar := h.bar scope reason ending hf
      have hpointer := hbar.shut (Or.inl rfl)
      refine (hbar.regeometry hpointer g).posts ha (hp.on _) (fun f h0 => ?_) (List.Sublist.refl _)
        (List.Sublist.refl _) hpointer
      have h0 : s.flight = some f := h0
      have hf : s.flight.any (·.ending) = false := hf
      rwa [h0] at hf

lemma Owned.cancels (h : s.Owned) {scope : Scope} {reason : Reason} {ending : Bool}
    (hc : s.Cancels scope reason ending s') : s'.Owned :=
  h.cancels_geometry s.config.geometry hc

/-- The binding of a work at its dispatch. -/
lemma bind_ok {w bound : Work} {e : Event} (ha : s.active = some a) (he : w.operation = .event e)
    (h : s.bind w = .ok (some bound)) :
    ∃ e', bound = { w with operation := .event e' } ∧ e.Rebinds e' ∧
      a.Takes s.config.maxEvents e' := by
  obtain ⟨mode, id, controller, epoch, sequence, operation⟩ := w
  have he : operation = .event e := he
  subst he
  simp only [bind, ha] at h
  have same : bound = ⟨mode, id, controller, epoch, sequence, .event e⟩ →
      a.Takes s.config.maxEvents e → ∃ e', bound = ⟨mode, id, controller, epoch, sequence,
        .event e'⟩ ∧ e.Rebinds e' ∧ a.Takes s.config.maxEvents e' :=
    fun hb ht => ⟨e, hb, Or.inl rfl, ht⟩
  have rebound : ∀ press action key modifiers binding, e = .key press action key modifiers →
      action ≠ .down → a.keys.lookup press = some binding →
      bound = ⟨mode, id, controller, epoch, sequence,
        .event (.key press action binding modifiers)⟩ →
      ∃ e', bound = ⟨mode, id, controller, epoch, sequence, .event e'⟩ ∧ e.Rebinds e' ∧
        a.Takes s.config.maxEvents e' := by
    intro press action key modifiers binding hkey hdown hl hbound
    refine ⟨_, hbound, Or.inr ⟨press, action, key, binding, modifiers, hkey, hdown, rfl⟩, ?_⟩
    rw [Active.takes_key hdown]
    exact hl
  cases e with
  | key press action key modifiers =>
      cases action with
      | down =>
          dsimp only at h
          split_ifs at h with hbusy
          cases h
          rw [not_or, not_le] at hbusy
          exact same rfl hbusy
      | up | «repeat» =>
          dsimp only at h
          cases hl : a.keys.lookup press with
          | none => simp [hl] at h
          | some binding =>
              rw [hl] at h
              cases h
              exact rebound press _ key modifiers binding rfl (by decide) hl rfl
  | button button action p =>
      dsimp only at h
      split at h
      · cases h
      rename_i hup
      split at h
      · cases h
      rename_i hdown
      cases h
      refine same rfl ?_
      rw [decide_eq_decide] at hdown
      rw [Active.Takes]
      tauto
  | text t =>
      cases h
      exact same rfl trivial
  | motion p =>
      cases h
      exact same rfl trivial
  | scroll x y unit phase momentumPhase inverted p =>
      cases h
      exact same rfl trivial

lemma not_ending_of_none (hf : s.flight = none) : ∀ f, s.flight = some f → f.ending = false := by
  intro f h0
  rw [hf] at h0
  cases h0

lemma Linked.queue_eq_nil (h : s.Linked) (ha : s.active = none) : s.queue = [] := by
  by_contra h0
  have hact := h.queue h0
  rw [ha] at hact
  cases hact

lemma Linked.flight_eq_none (h : s.Linked) (ha : s.active = none) : s.flight = none := by
  by_contra h0
  have hact := h.flight (Option.isSome_iff_ne_none.mpr h0)
  rw [ha] at hact
  cases hact

/-- The flight is over. -/
lemma Owned.land (h : s.Owned) : ({ s with flight := none } : State).Owned := by
  refine ⟨h.queue, fun hs w hw => h.shut (hs.elim Or.inl fun h0 => ?_) w hw, h.scope,
    fun f b h0 => ?_, fun f h0 => ?_, h.id, h.failed, h.fresh⟩
  all_goals cases h0

/-- The controller changes in what the queue and the flight do not carry. -/
lemma Owned.reactivate (h : s.Owned) (ha : s.active = some a) {b : Active} (hid : b.id = a.id)
    (hepoch : b.epoch = a.epoch) (hmode : b.mode = a.mode) :
    ({ s with active := some b } : State).Owned := by
  refine ⟨fun c hc w hw => ?_, h.shut, h.scope, fun f c h0 hc => ?_, h.ending, fun c hc => ?_,
    fun h0 => ?_, h.fresh⟩
  · cases hc
    rw [hid, hepoch, hmode]
    exact h.queue a ha w hw
  · cases hc
    rw [hid, hepoch]
    exact h.flight f a h0 ha
  · cases hc
    exact hid.trans (h.id a ha)
  · rw [h.failed h0] at ha
    cases ha

/-- The controller is gone, and with it the queue and the flight. -/
lemma Owned.of_ended (ha : s.active = none) (hq : s.queue = []) (hf : s.flight = none)
    (hb : ∀ b, s.barrier = some b → b.ending = true → b.scope = .all)
    (hfresh : ∀ c, s.nextController < c → s.mailboxes c = [] ∧ s.overflowed c = false) :
    s.Owned := by
  refine ⟨fun b h0 => ?_, fun _ w hw => ?_, hb, fun f b h0 => ?_, fun f h0 => ?_, fun b h0 => ?_,
    fun _ => ha, hfresh⟩
  · rw [ha] at h0
    cases h0
  · rw [hq] at hw
    cases hw
  · rw [hf] at h0
    cases h0
  · rw [hf] at h0
    cases h0
  · rw [ha] at h0
    cases h0

/-- **Every call keeps the owners.** -/
lemma Owned.acts (h : s.Owned) (hl : s.Linked) {l : Call} {r : Reply} (hacts : s.Acts l r s') :
    s'.Owned := by
  cases hacts with
  | idle => exact h
  | admitted mode now id hfail ha hmode hid =>
      have hlt : s.nextController < id := UInt64.lt_iff_toNat_lt.mpr (by omega)
      have hq : s.queue = [] := hl.queue_eq_nil ha
      have hf : s.flight = none := hl.flight_eq_none ha
      refine ⟨fun b hb w hw => ?_, fun _ w hw => ?_, h.scope, fun f b h0 => ?_, fun f h0 => ?_,
        fun b hb => ?_, fun h0 => ?_, fun c hc => ?_⟩
      · rw [hq] at hw
        cases hw
      · rw [hq] at hw
        cases hw
      · rw [hf] at h0
        cases h0
      · rw [hf] at h0
        cases h0
      · cases hb
        rfl
      · cases hfail.symm.trans h0
      · have hc : id < c := hc
        have hne : c ≠ id := by
          rintro rfl
          exact UInt64.lt_irrefl _ hc
        obtain ⟨hbox, hover⟩ := h.fresh c (UInt64.lt_trans hlt hc)
        exact ⟨(Function.update_of_ne hne _ _).trans hbox, hover⟩
  | cleanup now b a work hf hb ha hw =>
      subst hw
      have hshut := h.shut (Or.inl (by rw [hb]; rfl))
      refine ⟨h.queue, fun _ => hshut, fun b' hb' => ?_, fun f c h0 hc => ?_, fun f h0 hend => ?_,
        h.id, h.failed, h.fresh⟩
      · cases hb'
      · cases h0
        cases ha.symm.trans hc
        exact ⟨rfl, rfl⟩
      · cases h0
        refine ⟨rfl, b.reason, ?_⟩
        rw [h.scope b hb hend]
  | discarded now ha hf hb =>
      exact .of_ended ha (hl.queue_eq_nil ha) hf (fun b hb => by cases hb) h.fresh
  | dispatched now a r s' ha hf hb hd =>
      cases hd with
      | refused pre rest s' hq href hp hend =>
          refine h.posts ha hp (not_ending_of_none hf) ?_ (List.nil_sublist _) (by simp)
          rw [hq]
          exact List.sublist_append_right _ _
      | dispatched pre w bound rest hq href hbind hfit =>
          have hmem : w ∈ s.queue := by
            rw [hq]
            exact List.mem_append_right _ List.mem_cons_self
          obtain ⟨hid, hepoch, e, he, -⟩ := h.queue a ha w hmem
          obtain ⟨e', rfl, -, -⟩ := bind_ok ha he hbind
          have hrest : ∀ v ∈ rest, v ∈ s.queue := by
            intro v hv
            rw [hq]
            exact List.mem_append_right _ (List.mem_cons_of_mem _ hv)
          refine ⟨fun c hc v hv => h.queue c hc v (hrest v hv), fun hs => ?_, h.scope,
            fun f c h0 hc => ?_, fun f h0 hend => ?_, h.id, h.failed, fun c hc => ?_⟩
          · rcases hs with hs | hs
            · have hs : s.barrier.isSome := hs
              rw [hb] at hs
              cases hs
            · cases hs
          · cases h0
            cases ha.symm.trans hc
            exact ⟨hid, hepoch⟩
          · cases h0
            cases hend
          · obtain ⟨hbox, hover⟩ := h.fresh c hc
            exact ⟨(Function.update_of_ne (h.ne_of_lt ha hc) _ _).trans hbox, hover⟩
  | completed f event outcome a mid s' hf hop ha hp hkeep hcancel =>
      obtain ⟨hid, hepoch, hmode⟩ := Active.apply_same a event outcome
      have hland := h.land.reactivate ha hid hepoch hmode
      have hmid : mid.Owned := hland.posted rfl (hp.of_id hid.symm) (not_ending_of_none rfl)
      by_cases ho : outcome.Ends
      · exact hmid.cancels (hcancel ho)
      · rw [hkeep ho]
        exact hmid
  | cleanupFailed f scope reason outcome a mid hf hop ha ho hp =>
      have hq : mid.queue = [] := by
        rcases hp.queue with hq | hq
        · exact hq
        · exact List.prefix_nil.mp hq
      refine .of_ended rfl hq hp.frame.flight (fun b hb _ => ?_) fun c hc => ?_
      · cases hp with
        | appended => cases hb
        | overflowed =>
            cases hb
            rfl
      · have hc : s.nextController < c := hp.frame.nextController ▸ hc
        have hbox := hp.mailbox_of_ne (h.ne_of_lt ha hc)
        exact ⟨hbox.1.trans (h.fresh c hc).1, hbox.2.trans (h.fresh c hc).2⟩
  | cleanupEnded f scope reason a mid hf hop ha hend hp =>
      refine .of_ended rfl rfl hp.frame.flight (fun b hb => by cases hb) fun c hc => ?_
      have hc : s.nextController < c := hp.frame.nextController ▸ hc
      have hbox := hp.mailbox_of_ne (h.ne_of_lt ha hc)
      exact ⟨hbox.1.trans (h.fresh c hc).1, hbox.2.trans (h.fresh c hc).2⟩
  | cleanupRenewed f scope reason a s' hf hop ha hend hb hp =>
      have hid : a.id = ({ a.release scope with epoch := a.epoch + 1 } : Active).id := rfl
      refine Owned.posted ?_ rfl (hp.of_id hid) (not_ending_of_none rfl)
      refine ⟨fun c hc w hw => ?_, fun hs => ?_, h.scope, fun f c h0 => ?_, fun f h0 => ?_,
        fun c hc => ?_, fun h0 => ?_, h.fresh⟩
      · cases hc
        obtain ⟨v, hv, rfl⟩ := List.mem_map.mp hw
        obtain ⟨hvid, -, hvalid⟩ := h.queue a ha v hv
        exact ⟨hvid, rfl, hvalid⟩
      · rcases hs with hs | hs
        · have hs : s.barrier.isSome := hs
          rw [hb] at hs
          cases hs
        · cases hs
      · cases h0
      · cases h0
      · cases hc
        exact h.id a ha
      · rw [h.failed h0] at ha
        cases ha
  | cleanupBarred f scope reason a hf hop ha hend hb =>
      have hreact := h.land.reactivate ha (b := a.release scope) rfl rfl rfl
      exact hreact
  | geometry g s' hv hrev hc => exact h.cancels_geometry g hc
  | resolved hfail hf =>
      exact ⟨h.queue, h.shut, h.scope, h.flight, h.ending, h.id, fun h0 => (by cases h0), h.fresh⟩
  | heartbeat c now a ha hid => exact h.reactivate ha rfl rfl rfl
  | refused c now epoch sequence event a e ha hid hseq href => exact h.reactivate ha rfl rfl rfl
  | superseded c now epoch sequence event a front tail motion s' hr hm hq hop hmot hcount =>
      have hid : a.id = ({ a with lastSequence := sequence } : Active).id := rfl
      refine Owned.counts ?_ rfl (hcount.of_id hid)
        fun f h0 => h.not_ending_of_not_cleaning hr.cleaning h0
      have hmem : ∀ w ∈ front ++ [tail], w ∈ s.queue := fun w hw => hq ▸ hw
      have hreact := h.reactivate hr.active (b := { a with lastSequence := sequence }) rfl rfl rfl
      refine ⟨fun b hb w hw => ?_, fun hs => ?_, h.scope, hreact.flight, h.ending, hreact.id,
        hreact.failed, h.fresh⟩
      · rcases List.mem_append.mp hw with hw | hw
        · exact hreact.queue b hb w (hmem w (List.mem_append_left _ hw))
        · cases hb
          rw [List.mem_singleton.mp hw]
          obtain ⟨htid, hte, -⟩ := h.queue a hr.active tail (hmem tail (by simp))
          exact ⟨htid, hte, event, rfl, hr.valid⟩
      · rcases hs with hs | hs
        · have hs : s.barrier.isSome := hs
          rw [hr.barrier] at hs
          cases hs
        · cases hr.cleaning.symm.trans hs
  | overflowed c now epoch sequence event a s' hr hfull hc =>
      have hreact := h.reactivate hr.active (b := { a with lastSequence := sequence }) rfl rfl rfl
      exact hreact.cancels hc
  | accepted c now epoch sequence event a hr hmot hroom hbytes =>
      have hreact := h.reactivate hr.active (b := { a with
        lastSequence := sequence
        scrollOpen := a.scrollOpen || event.scrollStart }) rfl rfl rfl
      refine ⟨fun b hb w hw => ?_, fun hs => ?_, h.scope, hreact.flight, h.ending, hreact.id,
        hreact.failed, h.fresh⟩
      · rcases List.mem_append.mp hw with hw | hw
        · exact hreact.queue b hb w hw
        · cases hb
          rw [List.mem_singleton.mp hw]
          exact ⟨hr.id.symm, hr.epoch, event, rfl, hr.valid⟩
      · rcases hs with hs | hs
        · have hs : s.barrier.isSome := hs
          rw [hr.barrier] at hs
          cases hs
        · cases hr.cleaning.symm.trans hs
  | reset c a s' ha hid hc => exact h.cancels hc
  | close l c a s' hl ha hid hc => exact h.cancels hc
  | polled c =>
      refine ⟨h.queue, h.shut, h.scope, h.flight, h.ending, h.id, h.failed, fun d hd => ?_⟩
      obtain ⟨hbox, hover⟩ := h.fresh d hd
      refine ⟨?_, hover⟩
      by_cases hdc : d = c.id
      · subst hdc
        simp [hbox]
      · exact (Function.update_of_ne hdc _ _).trans hbox

/-- **In every run the queue and the flight have their owner.** -/
theorem owned_of_reached (h : Reached s) : s.Owned := by
  refine h.invariant (fun config s₀ hnew => ?_) (fun s s' _ h hc => h.cancels hc)
    fun s l r s' hs h hacts => h.acts hs.linked hacts
  rw [(new_eq hnew).1]
  exact .of_ended rfl rfl rfl (fun b hb => by cases hb) fun c _ => ⟨rfl, rfl⟩

/-- Only an admission takes a new id. -/
lemma Acts.nextController {l : Call} {r : Reply} (h : s.Acts l r s')
    (hr : ∀ d, r ≠ .admitted d) : s'.nextController = s.nextController := by
  cases h with
  | admitted => exact absurd rfl (hr _)
  | dispatched now a r s' ha hf hb hd =>
      cases hd with
      | refused pre rest s' hq href hp hend => exact hp.frame.nextController
      | dispatched => rfl
  | completed f event outcome a mid s' hf hop ha hp hkeep hcancel =>
      by_cases ho : outcome.Ends
      · exact (hcancel ho).frame.nextController.trans hp.frame.nextController
      · rw [hkeep ho]
        exact hp.frame.nextController
  | cleanupFailed f scope reason outcome a mid hf hop ha ho hp => exact hp.frame.nextController
  | cleanupEnded f scope reason a mid hf hop ha hend hp => exact hp.frame.nextController
  | cleanupRenewed f scope reason a s' hf hop ha hend hb hp => exact hp.frame.nextController
  | geometry g s' hv hrev hc => exact hc.frame.nextController
  | superseded c now epoch sequence event a front tail motion s' hr hm hq hop hmot hcount =>
      exact hcount.frame.nextController
  | overflowed c now epoch sequence event a s' hr hfull hc => exact hc.frame.nextController
  | reset c a s' ha hid hc => exact hc.frame.nextController
  | close l c a s' hl ha hid hc => exact hc.frame.nextController
  | _ => rfl

lemma not_admitted_of_idles {l : Call} {d : Controller} (h : s.Idles l (.admitted d)) : False := by
  cases l with
  | admitController mode now =>
      obtain ⟨e, he⟩ := h
      cases he
  | submit p now epoch sequence event => rcases h with ⟨he, -⟩ | ⟨he, -⟩ <;> cases he
  | poll p => exact h
  | setGeometry g => cases h
  | tick now => cases h
  | resolveFailedCleanup => cases h
  | heartbeat p now => cases h
  | _ => cases h.1

/-- Ids only go up. -/
lemma Acts.nextController_le {l : Call} {r : Reply} (h : s.Acts l r s') :
    s.nextController ≤ s'.nextController := by
  by_cases hr : ∃ d, r = .admitted d
  · obtain ⟨d, rfl⟩ := hr
    cases h with
    | idle l r hi => exact (not_admitted_of_idles hi).elim
    | admitted mode now id hfail ha hmode hid =>
        have hle : s.nextController ≤ id := UInt64.le_iff_toNat_le.mpr (by omega)
        exact hle
  · rw [h.nextController fun d hd => hr ⟨d, hd⟩]
    exact UInt64.le_refl _

/-- A cleanup ends its controller: it has failed, or was set to end it. -/
structure Ends (s : State) (a : Active) (f : Flight) (l : Call) (r : Reply) (s' : State) : Prop where
  before : s.active = some a
  flight : s.flight = some f
  cleanup : ∃ scope reason, f.work.operation = .cleanup scope reason
  call : ∃ outcome, l = .complete f.work.id outcome ∧
    (outcome = .executed ∧ f.ending = true ∧ r = .done ∧ s'.failed = s.failed ∨
      outcome ≠ .executed ∧ r = .error .cleanupFailed ∧ s'.failed = true)
  after : s'.active = none
  queue : s'.queue = []
  landed : s'.flight = none

/-- **Controllers come and go**: by an admission, and by a cleanup that ends them. -/
lemma Acts.active_cases {l : Call} {r : Reply} (h : s.Acts l r s') :
    s.active = none ∧ s'.active = none ∨
      (∃ mode now id b, l = .admitController mode now ∧ r = .admitted ⟨id, mode⟩ ∧ s.active = none ∧
        s'.active = some b ∧ b.id = id ∧ s.nextController < id) ∨
      (∃ a b, s.active = some a ∧ s'.active = some b ∧ b.id = a.id) ∨
      ∃ a f, s.Ends a f l r s' := by
  have same : s'.active = s.active → s.active = none ∧ s'.active = none ∨
      ∃ a b, s.active = some a ∧ s'.active = some b ∧ b.id = a.id := by
    intro heq
    cases ha : s.active with
    | none => exact Or.inl ⟨rfl, heq.trans ha⟩
    | some a => exact Or.inr ⟨a, a, rfl, heq.trans ha, rfl⟩
  have stays : s'.active = s.active → s.active = none ∧ s'.active = none ∨
      (∃ mode now id b, l = .admitController mode now ∧ r = .admitted ⟨id, mode⟩ ∧ s.active = none ∧
        s'.active = some b ∧ b.id = id ∧ s.nextController < id) ∨
      (∃ a b, s.active = some a ∧ s'.active = some b ∧ b.id = a.id) ∨
      ∃ a f, s.Ends a f l r s' :=
    fun heq => (same heq).imp id fun h0 => Or.inr (Or.inl h0)
  cases h with
  | admitted mode now id hfail ha hmode hid =>
      exact Or.inr (Or.inl ⟨mode, now, id, _, rfl, rfl, ha, rfl, rfl,
        UInt64.lt_iff_toNat_lt.mpr (by omega)⟩)
  | dispatched now a r s' ha hf hb hd =>
      cases hd with
      | refused pre rest s' hq href hp hend => exact stays hp.frame.active
      | dispatched => exact stays rfl
  | completed f event outcome a mid s' hf hop ha hp hkeep hcancel =>
      have hmid : mid.active = some (if outcome = .executed then a.apply event else a) :=
        hp.frame.active
      have hid := (Active.apply_same a event outcome).1
      refine Or.inr (Or.inr (Or.inl ⟨a, _, ha, ?_, hid⟩))
      by_cases ho : outcome.Ends
      · exact (hcancel ho).frame.active.trans hmid
      · rw [hkeep ho]
        exact hmid
  | cleanupFailed f scope reason outcome a mid hf hop ha ho hp =>
      refine Or.inr (Or.inr (Or.inr ⟨a, f, ha, hf, ⟨scope, reason, hop⟩,
        ⟨outcome, rfl, Or.inr ⟨ho, rfl, hp.frame.failed⟩⟩, rfl, ?_, hp.frame.flight⟩))
      rcases hp.queue with hq | hq
      · exact hq
      · exact List.prefix_nil.mp hq
  | cleanupEnded f scope reason a mid hf hop ha hend hp =>
      exact Or.inr (Or.inr (Or.inr ⟨a, f, ha, hf, ⟨scope, reason, hop⟩,
        ⟨.executed, rfl, Or.inl ⟨rfl, hend, rfl, hp.frame.failed⟩⟩, rfl, rfl, hp.frame.flight⟩))
  | cleanupRenewed f scope reason a s' hf hop ha hend hb hp =>
      exact Or.inr (Or.inr (Or.inl ⟨a, _, ha, hp.frame.active, rfl⟩))
  | cleanupBarred f scope reason a hf hop ha hend hb =>
      exact Or.inr (Or.inr (Or.inl ⟨a, _, ha, rfl, rfl⟩))
  | geometry g s' hv hrev hc => exact stays hc.frame.active
  | heartbeat c now a ha hid => exact Or.inr (Or.inr (Or.inl ⟨a, _, ha, rfl, rfl⟩))
  | refused c now epoch sequence event a e ha hid hseq href =>
      exact Or.inr (Or.inr (Or.inl ⟨a, _, ha, rfl, rfl⟩))
  | superseded c now epoch sequence event a front tail motion s' hr hm hq hop hmot hcount =>
      exact Or.inr (Or.inr (Or.inl ⟨a, _, hr.active, hcount.frame.active, rfl⟩))
  | overflowed c now epoch sequence event a s' hr hfull hc =>
      exact Or.inr (Or.inr (Or.inl ⟨a, _, hr.active, hc.frame.active, rfl⟩))
  | accepted c now epoch sequence event a hr hmot hroom hbytes =>
      exact Or.inr (Or.inr (Or.inl ⟨a, _, hr.active, rfl, rfl⟩))
  | reset c a s' ha hid hc => exact stays hc.frame.active
  | close l c a s' hl ha hid hc => exact stays hc.frame.active
  | _ => exact stays rfl

end State

end Jackstay.Input
