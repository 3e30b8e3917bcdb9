import Jackstay.Input.Closing
import Jackstay.Input.Order

/-!
Geometry and epoch of what is dispatched.

* `Coherent`: a dispatched event is of the current controller and epoch, and its position
  lies in the current geometry.
* `Outdated`: what a change of geometry does to a queued event of the pointer.
* `Waits`, `Survives`: what becomes of keyboard work behind a `Pointer` barrier and behind its
  cleanup.
* `coherent_dispatch`: so it is in every run.
* `overflow_on_geometry`: a change of geometry may overflow the mailbox.
-/

namespace Jackstay.Input

open Traces

/-- **A coherent dispatch.** -/
structure Coherent (s : State) (w : Work) (e : Event) : Prop where
  owner : ∃ a, s.active = some a ∧ w.controller = a.id ∧ w.epoch = a.epoch
  place : ∀ p, e.place = some p → p.In s.config.geometry

/-- The mailbox of this controller has overflowed and holds nothing else. -/
def Overflown (s : State) (c : UInt64) : Prop := s.mailboxes c = [.closed .overflow false]

/-- **An event of the pointer that a new geometry has made obsolete**: it is rejected,
unless the mailbox overflows, and never dispatched. -/
structure Outdated (s : State) (w : Work) : Prop where
  rejected : .rejected w.sequence .stale ∈ s.mailboxes w.controller ∨ Overflown s w.controller
  never : ∀ tr s', Runs State.call Always s tr s' →
    ∀ v ∈ eventsOf w.controller tr, v.sequence ≠ w.sequence

/-- **What is queued behind a `Pointer` cleanup** survives it. -/
structure Survives (s : State) (f : Flight) : Prop where
  /-- once the cleanup is executed it belongs to the new epoch, in the same order -/
  renewed : s.barrier = none → ∃ a b, s.active = some a ∧
    (s.call (.complete f.work.id .executed)).1.active = some b ∧ b.epoch = a.epoch + 1 ∧
    ((s.call (.complete f.work.id .executed)).1.queue =
        s.queue.map (fun w => { w with epoch := a.epoch + 1 }) ∨
      Overflown (s.call (.complete f.work.id .executed)).1 a.id)
  /-- or waits for the cleanup of a barrier that has been set in the meantime -/
  barred : s.barrier.isSome = true →
    (s.call (.complete f.work.id .executed)).1.queue = s.queue
  /-- and none of it is dispatched before -/
  after : ∀ tr s', Runs State.call Always s tr s' → (∀ c, eventsOf c tr = []) ∨
    ∃ pre outcome r post, tr = pre ++ (.complete f.work.id outcome, r) :: post ∧
      (r = .done ∨ r = .error .cleanupFailed) ∧ ∀ c, eventsOf c pre = []

/-- **What is queued behind a `Pointer` barrier** waits for its cleanup. -/
structure Waits (s : State) (b : Barrier) : Prop where
  /-- it stays queued, while the barrier is pending and when its cleanup is dispatched, until
  everything is cancelled or the controller is gone -/
  kept : ∀ l, ((s.call l).1.queue = s.queue ∧
      ((∃ b', (s.call l).1.barrier = some b' ∧ b'.scope = .pointer) ∨
        ∃ f, (s.call l).1.flight = some f ∧ f.work.operation = .cleanup .pointer b.reason)) ∨
    (s.call l).1.Sweeps ∨ (s.call l).1.active = none
  /-- and none of it is dispatched before -/
  quiet : ∀ l w, (s.call l).2 = .work (some w) → w.isCleanup = true

variable {s s' : State} {a : Active} {tr : Trace}

/-- A rebound event has no other place. -/
lemma Event.Rebinds.place {e e' : Event} (h : e.Rebinds e') : e'.place = e.place := by
  rcases h with rfl | ⟨press, action, key, key', modifiers, rfl, -, rfl⟩ <;> rfl

lemma coherent_of_acts {now : ℕ} {w : Work} {e : Event} (hs : Reached s)
    (h : s.Acts (.next now) (.work (some w)) s') (he : w.operation = .event e) :
    Coherent s' w e := by
  cases h with
  | idle l r hi => cases hi.1
  | cleanup now b a work hf hb ha hw =>
      rw [hw] at he
      cases he
  | dispatched now a r s' ha hf hb hd =>
      cases hd with
      | dispatched pre v bound rest hq href hbind hfit =>
          have hmem : v ∈ s.queue := by
            rw [hq]
            exact List.mem_append_right _ List.mem_cons_self
          obtain ⟨hid, hepoch, e₀, he₀, hvalid⟩ := (State.owned_of_reached hs).queue a ha v hmem
          obtain ⟨e', rfl, hreb, -⟩ := State.bind_ok ha he₀ hbind
          cases he
          refine ⟨⟨a, ha, hid, hepoch⟩, fun p hp => ?_⟩
          rw [hreb.place] at hp
          exact place_of_validate hvalid hp

/-! ### A new geometry -/

/-- The queued sequence numbers increase. -/
lemma Ordered.queue (h : Ordered tr s) (hs : Reached s) :
    (s.queue.map (·.sequence)).Pairwise (· < ·) := by
  cases ha : s.active with
  | none =>
      rw [hs.linked.queue_eq_nil ha]
      exact .nil
  | some a =>
      have hall : s.queue.filter (·.controller == a.id) = s.queue := by
        refine List.filter_eq_self.mpr fun w hw => ?_
        exact beq_iff_eq.mpr ((State.owned_of_reached hs).queue a ha w hw).1
      have hsorted := h.sorted a.id
      rw [numbers, hall] at hsorted
      exact hsorted.sublist (List.sublist_append_right _ _)

/-- What a change of geometry drops is in the past. -/
lemma Ordered.passed (h : Ordered tr s) (hs : Reached s) {w : Work} (hw : w ∈ s.queue)
    (hpointer : w.pointer = true) (hnext : s'.nextController = s.nextController)
    (hact : s'.active = s.active) (hq : s'.queue.Sublist s.queue)
    (hkeys : ∀ v ∈ s'.queue, v.pointer = false) : s'.Passed w.controller w.sequence := by
  have ho := State.owned_of_reached hs
  have hsome : s.active.isSome := hs.linked.queue (List.ne_nil_of_mem hw)
  obtain ⟨a, ha⟩ := Option.isSome_iff_exists.mp hsome
  have hid : w.controller = a.id := (ho.queue a ha w hw).1
  have hnodup : (s.queue.map (·.sequence)).Nodup := by
    refine List.Pairwise.imp ?_ (h.queue hs)
    rintro q _ hlt rfl
    exact UInt64.lt_irrefl _ hlt
  refine ⟨?_, fun b hb _ => ?_, fun v hv _ heq => ?_⟩
  · rw [hnext, hid, ho.id a ha]
    exact UInt64.le_refl _
  · rw [hact] at hb
    cases ha.symm.trans hb
    refine (h.last a ha).1 w.sequence (List.mem_append_right _ (List.mem_map_of_mem ?_))
    exact List.mem_filter.mpr ⟨hw, beq_iff_eq.mpr hid⟩
  · have hsame : v = w := List.inj_on_of_nodup_map hnodup (hq.subset hv) hw heq
    rw [← hsame, hkeys v hv] at hpointer
    cases hpointer

lemma outdated_of_acts {g : Geometry} (h : Ordered tr s) (hs : Reached s) (hs' : Reached s')
    (hacts : s.Acts (.setGeometry g) .done s') {w : Work} (hw : w ∈ s.queue)
    (hpointer : w.pointer = true) : Outdated s' w := by
  have ho := State.owned_of_reached hs
  cases hacts with
  | idle l r hi => cases hi
  | geometry g s' hg hrev hc =>
      cases hc with
      | inactive ha =>
          have hq : s.queue = [] := hs.linked.queue_eq_nil ha
          rw [hq] at hw
          cases hw
      | sufficed a ha hf =>
          obtain ⟨f, hflight, hend⟩ := (Option.any_eq_true _ _).mp hf
          have hflight : s.flight = some f := hflight
          obtain ⟨-, reason, hop⟩ := ho.ending f hflight hend
          have hclean : s.cleaning = true := by
            rw [State.cleaning_of_flight hflight, Work.isCleanup, hop]
          cases (ho.shut (Or.inr hclean) w hw).symm.trans hpointer
      | barred a s' ha hf hp =>
          have ha : s.active = some a := ha
          have hid : w.controller = a.id := (ho.queue a ha w hw).1
          set scope := (({ s with config := { s.config with geometry := g } } : State).barred .pointer
            .geometry false).scope
          have hkeys : ∀ v ∈ s.queue.filter (fun w => !scope.drops w), v.pointer = false := by
            intro v hv
            have hdrops := (List.mem_filter.mp hv).2
            exact Scope.pointer_of_drops (by simpa using hdrops)
          have hqueue : s'.queue.Sublist (s.queue.filter fun w => !scope.drops w) := by
            rcases hp.queue with heq | hpre
            · rw [heq]
            · exact hpre.sublist
          have hpassed : s'.Passed w.controller w.sequence :=
            h.passed hs hw hpointer hp.frame.nextController hp.frame.active
              (hqueue.trans List.filter_sublist) fun v hv => hkeys v (hqueue.subset hv)
          refine ⟨?_, fun tr' s'' hruns => never_dispatched hs' hpassed hruns⟩
          rw [hid]
          cases hp with
          | appended hfit =>
              refine Or.inl ?_
              have hmem : Status.rejected w.sequence .stale ∈
                  State.rejections (s.queue.filter scope.drops) :=
                List.mem_map.mpr ⟨w, List.mem_filter.mpr ⟨hw, Scope.drops_of_pointer hpointer⟩, rfl⟩
              show _ ∈ Function.update s.mailboxes a.id (s.mailboxes a.id ++
                State.rejections (s.queue.filter scope.drops)) a.id
              rw [Function.update_self]
              exact List.mem_append_right _ hmem
          | overflowed rest hrest hfull => exact Or.inr (Function.update_self _ _ _)
  | close l p a s' hl => rcases hl with hl | hl <;> cases hl

/-! ### A `Pointer` barrier -/

/-- A cancellation behind a barrier of scope `Pointer` finds no event of the pointer. -/
lemma waits_of_cancels {b : Barrier} {scope : Scope} {reason : Reason} {ending : Bool}
    (hshut : ∀ w ∈ s.queue, w.pointer = false) (hb : s.barrier = some b)
    (h : s.Cancels scope reason ending s') :
    (b.scope = .pointer ∧ s'.queue = s.queue ∧ ∃ b', s'.barrier = some b' ∧ b'.scope = .pointer) ∨
      s'.Sweeps := by
  have same : (b.scope = .pointer ∧ s.queue = s.queue ∧
      ∃ b', s.barrier = some b' ∧ b'.scope = .pointer) ∨ s.Sweeps := by
    cases hscope : b.scope with
    | pointer => exact Or.inl ⟨rfl, rfl, b, hb, hscope⟩
    | all => exact Or.inr (Or.inl ⟨b, hb, hscope⟩)
  cases h with
  | inactive => exact same
  | sufficed => exact same
  | barred a s' ha hf hp =>
      cases hp with
      | overflowed rest hrest hfull => exact Or.inr (Or.inl ⟨_, rfl, rfl⟩)
      | appended hfit =>
          cases hscope : (s.barred scope reason ending).scope with
          | all => exact Or.inr (Or.inl ⟨_, rfl, hscope⟩)
          | pointer =>
              refine Or.inl ⟨?_, List.filter_eq_self.mpr fun w hw => ?_, _, rfl, hscope⟩
              · cases hold : b.scope with
                | pointer => rfl
                | all => simp [State.barred, hb, hold] at hscope
              · rw [Scope.drops_eq, hshut w hw]
                rfl

/-- A call behind a barrier dispatches no event; behind one of scope `Pointer` the queue stays. -/
lemma waits_of_acts {b : Barrier} {l : Call} {r : Reply} (ho : s.Owned) (hb : s.barrier = some b)
    (h : s.Acts l r s') : (∀ w, r = .work (some w) → w.isCleanup = true) ∧
      (b.scope = .pointer ∧ s'.queue = s.queue ∧
          ((∃ b', s'.barrier = some b' ∧ b'.scope = .pointer) ∨
            ∃ f, s'.flight = some f ∧ f.work.operation = .cleanup .pointer b.reason) ∨
        s'.Sweeps ∨ s'.active = none) := by
  have hshut : ∀ w ∈ s.queue, w.pointer = false := ho.shut (Or.inl (by rw [hb]; rfl))
  have pending : ∀ {t : State}, t.queue = s.queue → t.barrier = some b →
      b.scope = .pointer ∧ t.queue = s.queue ∧
          ((∃ b', t.barrier = some b' ∧ b'.scope = .pointer) ∨
            ∃ f, t.flight = some f ∧ f.work.operation = .cleanup .pointer b.reason) ∨
        t.Sweeps ∨ t.active = none := by
    intro t hq ht
    cases hscope : b.scope with
    | pointer => exact Or.inl ⟨rfl, hq, Or.inl ⟨b, ht, hscope⟩⟩
    | all => exact Or.inr (Or.inl (Or.inl ⟨b, ht, hscope⟩))
  have cancelled : ∀ {t : State} {scope : Scope} {reason : Reason} {ending : Bool},
      t.Cancels scope reason ending s' → t.queue = s.queue → t.barrier = some b →
      b.scope = .pointer ∧ s'.queue = s.queue ∧
          ((∃ b', s'.barrier = some b' ∧ b'.scope = .pointer) ∨
            ∃ f, s'.flight = some f ∧ f.work.operation = .cleanup .pointer b.reason) ∨
        s'.Sweeps ∨ s'.active = none := by
    intro t scope reason ending hc hq ht
    rcases waits_of_cancels (hq ▸ hshut) ht hc with ⟨hscope, hkept, hp⟩ | hsweeps
    · exact Or.inl ⟨hscope, hkept.trans hq, Or.inl hp⟩
    · exact Or.inr (Or.inl hsweeps)
  cases h with
  | idle l r hi =>
      refine ⟨?_, pending rfl hb⟩
      rintro w rfl
      cases l <;> simp [State.Idles] at hi
  | cleanup now b' a work hf hb' ha hw =>
      cases hb.symm.trans hb'
      refine ⟨?_, ?_⟩
      · rintro w ⟨⟩
        rw [hw]
        rfl
      · cases hscope : b.scope with
        | pointer => exact Or.inl ⟨rfl, rfl, Or.inr ⟨_, rfl, by rw [hw, hscope]⟩⟩
        | all => exact Or.inr (Or.inl (Or.inr ⟨_, b.reason, rfl, by rw [hw, hscope]⟩))
  | discarded now ha => exact ⟨by rintro w ⟨⟩, Or.inr (Or.inr ha)⟩
  | dispatched now a r s' ha hf hnone => cases hb.symm.trans hnone
  | completed f event outcome a mid s' hf hop ha hp hkeep hcancel =>
      refine ⟨by rintro w ⟨⟩, ?_⟩
      cases hp with
      | appended =>
          by_cases ho : outcome.Ends
          · exact cancelled (hcancel ho) rfl hb
          · exact hkeep ho ▸ pending rfl hb
      | overflowed rest hrest =>
          obtain rfl : rest = [] := List.prefix_nil.mp hrest
          by_cases ho : outcome.Ends
          · have hswept := waits_of_cancels (b := ⟨.all, .overflow, true⟩)
              (fun w hw => absurd hw List.not_mem_nil) rfl (hcancel ho)
            rcases hswept with ⟨hscope, -⟩ | hsweeps
            · cases hscope
            · exact Or.inr (Or.inl hsweeps)
          · exact hkeep ho ▸ Or.inr (Or.inl (Or.inl ⟨_, rfl, rfl⟩))
  | cleanupFailed => exact ⟨by rintro w ⟨⟩, Or.inr (Or.inr rfl)⟩
  | cleanupEnded => exact ⟨by rintro w ⟨⟩, Or.inr (Or.inr rfl)⟩
  | cleanupRenewed f scope reason a s' hf hop ha hend hnone => cases hb.symm.trans hnone
  | cleanupBarred => exact ⟨by rintro w ⟨⟩, pending rfl hb⟩
  | geometry g s' hg hrev hc => exact ⟨by rintro w ⟨⟩, cancelled hc rfl hb⟩
  | superseded c now epoch sequence event a front tail motion s' hr =>
      cases hb.symm.trans hr.barrier
  | overflowed c now epoch sequence event a s' hr => cases hb.symm.trans hr.barrier
  | accepted c now epoch sequence event a hr => cases hb.symm.trans hr.barrier
  | reset c a s' ha hid hc => exact ⟨by rintro w ⟨⟩, cancelled hc rfl hb⟩
  | close l c a s' hl ha hid hc => exact ⟨by rintro w ⟨⟩, cancelled hc rfl hb⟩
  | _ => exact ⟨by rintro w ⟨⟩, pending rfl hb⟩

/-- An expiry sets a barrier of scope `All`, unless the controller is ending anyway. -/
lemma timed_eq_or_all (s : State) (l : Call) :
    s.timed l = s ∨ ∃ b, (s.timed l).barrier = some b ∧ b.scope = .all := by
  refine (s.timed_cases l).elim Or.inl fun h => ?_
  generalize s.timed l = t at h
  cases h with
  | inactive => exact Or.inl rfl
  | sufficed => exact Or.inl rfl
  | barred a s' ha hf hp =>
      right
      cases hp with
      | appended => exact ⟨_, rfl, by simp [State.barred]⟩
      | overflowed => exact ⟨_, rfl, rfl⟩

/-- **A barrier of scope `Pointer`** keeps the queue. -/
lemma waits_of_barrier {b : Barrier} (hs : Reached s) (hb : s.barrier = some b) : Waits s b := by
  have hcall : ∀ l, (∀ w, (s.call l).2 = .work (some w) → w.isCleanup = true) ∧
      (b.scope = .pointer ∧ (s.call l).1.queue = s.queue ∧
          ((∃ b', (s.call l).1.barrier = some b' ∧ b'.scope = .pointer) ∨
            ∃ f, (s.call l).1.flight = some f ∧ f.work.operation = .cleanup .pointer b.reason) ∨
        (s.call l).1.Sweeps ∨ (s.call l).1.active = none) := by
    intro l
    have hacts := State.acts_of_call l (hs.timed l).linked
    have ho := State.owned_of_reached (hs.timed l)
    rcases timed_eq_or_all s l with hsame | ⟨b', hb', hall⟩
    · rw [hsame] at hacts ho
      exact waits_of_acts ho hb hacts
    · obtain ⟨hquiet, ⟨hscope, -⟩ | hgone⟩ := waits_of_acts ho hb' hacts
      · rw [hall] at hscope
        cases hscope
      · exact ⟨hquiet, Or.inr hgone⟩
  exact ⟨fun l => (hcall l).2.imp And.right id, fun l => (hcall l).1⟩

/-! ### A `Pointer` cleanup -/

/-- A flight is over before another work is given out. -/
lemma completed_first {f : Flight} (hs : Reached s) (hf : s.flight = some f)
    (h : Runs State.call Always s tr s') : (∀ c, eventsOf c tr = []) ∨
      ∃ pre outcome r post, tr = pre ++ (.complete f.work.id outcome, r) :: post ∧
        (r = .done ∨ r = .error .cleanupFailed) ∧ ∀ c, eventsOf c pre = [] := by
  have hboth : (s'.flight = some f ∧ ∀ c, eventsOf c tr = []) ∨
      ∃ pre outcome r post, tr = pre ++ (.complete f.work.id outcome, r) :: post ∧
        (r = .done ∨ r = .error .cleanupFailed) ∧ ∀ c, eventsOf c pre = [] := by
    refine hs.continued (P := fun tr s => (s.flight = some f ∧ ∀ c, eventsOf c tr = []) ∨
        ∃ pre outcome r post, tr = pre ++ (.complete f.work.id outcome, r) :: post ∧
          (r = .done ∨ r = .error .cleanupFailed) ∧ ∀ c, eventsOf c pre = []) h
      (Or.inl ⟨hf, fun c => rfl⟩) (fun tr s l _ _ h0 hc => h0.imp (fun h1 => ?_) id)
      fun tr s l r s' _ _ h0 _ hacts => ?_
    · exact ⟨hc.frame.flight.trans h1.1, h1.2⟩
    · rcases h0 with ⟨hflight, hnone⟩ | ⟨pre, outcome, r', post, rfl, hr, hnone⟩
      · rcases hacts.flight_cases with ⟨_, _, -, -, hidle, -⟩ | ⟨f', outcome, rfl, hf', -, hr⟩ |
          ⟨hsame, hret, -⟩
        · cases hidle.symm.trans hflight
        · cases hf'.symm.trans hflight
          exact Or.inr ⟨tr, outcome, r, [], rfl, hr, hnone⟩
        · refine Or.inl ⟨hsame.trans hflight, fun c => ?_⟩
          rw [eventsOf_snoc fun w hw => by rw [hret] at hw; cases hw]
          exact hnone c
      · exact Or.inr ⟨pre, outcome, r', post ++ [(l, r)], by simp, hr, hnone⟩
  exact hboth.imp (fun h0 => h0.2) id

lemma survives_of_flight {f : Flight} {reason : Reason} (hs : Reached s) (hf : s.flight = some f)
    (hop : f.work.operation = .cleanup .pointer reason) : Survives s f := by
  have ho := State.owned_of_reached hs
  have hcall : ∀ l r s', l = .complete f.work.id .executed → s.Acts l r s' →
      (s.barrier = none → ∃ a b, s.active = some a ∧ s'.active = some b ∧ b.epoch = a.epoch + 1 ∧
        (s'.queue = s.queue.map (fun w => { w with epoch := a.epoch + 1 }) ∨ Overflown s' a.id)) ∧
      (s.barrier.isSome = true → s'.queue = s.queue) := by
    intro l r s' hl hacts
    cases hacts with
    | idle l r hi =>
        subst hl
        exact absurd rfl (hi.2 f hf)
    | completed f' e' outcome' a mid s' hf' hop' =>
        cases hf.symm.trans hf'
        cases hop.symm.trans hop'
    | cleanupFailed f' scope reason' outcome' a mid hf' hop' ha hout =>
        exact absurd (Call.complete.inj hl).2 hout
    | cleanupEnded f' scope reason' a mid hf' hop' ha hend =>
        -- only an `All` cleanup ends its controller
        obtain ⟨-, _, hall⟩ := ho.ending f' hf' hend
        cases hf.symm.trans hf'
        cases hop.symm.trans hall
    | cleanupRenewed f' scope reason' a s' hf' hop' ha hend hb hp =>
        refine ⟨fun _ => ⟨a, _, ha, hp.frame.active, rfl, ?_⟩, fun hsome => ?_⟩
        · cases hp with
          | appended => exact Or.inl rfl
          | overflowed => exact Or.inr (Function.update_self _ _ _)
        · rw [hb] at hsome
          cases hsome
    | cleanupBarred f' scope reason' a hf' hop' ha hend hb =>
        refine ⟨fun hnone => ?_, fun _ => rfl⟩
        rw [hnone] at hb
        cases hb
    | close l q a s' hl' =>
        subst hl
        rcases hl' with hl' | hl' <;> cases hl'
    | _ => cases hl
  obtain ⟨hrenewed, hbarred⟩ :=
    hcall _ _ _ rfl (State.acts_of_call (.complete f.work.id .executed) hs.linked)
  exact ⟨hrenewed, hbarred, fun tr s' hruns => completed_first hs hf hruns⟩

/-- The work in front is dispatched if there is nothing against it. -/
lemma dispatched_of_front {now : ℕ} {w bound : Work} {rest : List Work} (hf : s.flight = none)
    (hb : s.barrier = none) (hq : s.queue = w :: rest) (hbind : s.bind w = .ok (some bound))
    (hidle : ∀ a, s.active = some a → now - a.lastSeen < s.config.idleTimeout) :
    (s.call (.next now)).2 = .work (some bound) := by
  have hexp : s.expire now = s := by
    rcases s.expire_cases now with heq | ⟨a, ha, hlate, -⟩
    · exact heq
    · have hearly := hidle a ha
      omega
  have hrequeue : ({ s with queue := rest } : State).bind w = s.bind w := rfl
  have hdispatch : (State.dispatch s.queue.length s).2 = some bound := by
    rw [hq, List.length_cons, State.dispatch, hq]
    dsimp only
    rw [hrequeue, hbind]
  have hnext : s.next now = State.dispatch s.queue.length s := by
    rw [State.next, hexp]
    simp only [hf, hb, Option.isSome_none, Bool.false_eq_true, if_false]
  rw [State.call, hnext, hdispatch]

/-- **Geometry and epoch coherence of dispatch.** In every run:

* an event is dispatched for the current controller, in its epoch, with its position in the
  current geometry;
* a queued event of the pointer is rejected when the geometry changes, unless the mailbox
  overflows, and never dispatched afterwards;
* what is queued behind a `Pointer` barrier stays queued and is not dispatched until its
  cleanup is; behind the cleanup it survives it, in the new epoch, and is not dispatched
  before;
* the queue is in the order in which events are accepted and dispatched, and `next`
  dispatches the event in front if there is nothing against it. -/
theorem coherent_dispatch {config : Config} {tr : Trace} {s : State} (h : Run config Always tr s) :
    (∀ now w e, (s.call (.next now)).2 = .work (some w) → w.operation = .event e →
      Coherent (s.call (.next now)).1 w e) ∧
      (∀ g, (s.call (.setGeometry g)).2 = .done → ∀ w ∈ s.queue, w.pointer = true →
        Outdated (s.call (.setGeometry g)).1 w) ∧
      (∀ b, s.barrier = some b → b.scope = .pointer → Waits s b) ∧
      (∀ f reason, s.flight = some f → f.work.operation = .cleanup .pointer reason →
        Survives s f) ∧
      (s.queue.map (·.sequence)).Pairwise (· < ·) ∧
      (∀ c, ((eventsOf c tr).map (·.sequence)).Pairwise (· < ·)) ∧
      ∀ now w rest bound, s.flight = none → s.barrier = none → s.queue = w :: rest →
        s.bind w = .ok (some bound) →
        (∀ a, s.active = some a → now - a.lastSeen < s.config.idleTimeout) →
        (s.call (.next now)).2 = .work (some bound) := by
  have hs : Reached s := ⟨config, tr, h⟩
  have hordered : Ordered tr s := ordered_of_run h
  refine ⟨fun now w e hw he => ?_, fun g hdone w hw hpointer => ?_,
    fun b hb _ => waits_of_barrier hs hb,
    fun f reason hf hop => survives_of_flight hs hf hop, hordered.queue hs,
    fun c => (hordered.sorted c).sublist (List.sublist_append_left _ _),
    fun now w rest bound hf hb hq hbind hidle => dispatched_of_front hf hb hq hbind hidle⟩
  · have hacts := State.acts_of_call (.next now) (hs.timed (.next now)).linked
    rw [hw] at hacts
    exact coherent_of_acts (hs.timed (.next now)) hacts he
  · have hs' : Reached (s.call (.setGeometry g)).1 := ⟨config, _, h.snoc _ trivial⟩
    have hacts := State.acts_of_call (.setGeometry g) hs.linked
    rw [hdone] at hacts
    exact outdated_of_acts hordered hs hs' hacts hw hpointer

/-- The text that waits behind a `Pointer` cleanup. -/
theorem coherent_dispatch_waiting :
    (record State.call { config := tiny } waiting).2.queue.map (·.sequence) = [1] ∧
      ∃ f, (record State.call { config := tiny } waiting).2.flight = some f ∧
        Survives (record State.call { config := tiny } waiting).2 f := by
  have hrun := Run.of_record tiny new_tiny waiting
  have hflight : (record State.call { config := tiny } waiting).2.flight = some
      ⟨⟨.cooperative, 2, 1, 1, 0, .cleanup .pointer .geometry⟩, false⟩ := by decide +kernel
  exact ⟨by decide +kernel, _, hflight, (coherent_dispatch hrun).2.2.2.1 _ .geometry hflight rfl⟩

/-- **A change of geometry may overflow the mailbox**: a queued motion is not rejected. -/
theorem overflow_on_geometry :
    ¬ ∀ (config : Config) (tr : Trace) (s : State), Run config Always tr s →
      ∀ g, (s.call (.setGeometry g)).2 = .done → ∀ w ∈ s.queue, w.pointer = true →
        .rejected w.sequence .stale ∈ (s.call (.setGeometry g)).1.mailboxes w.controller := by
  intro h
  have hrun := Run.of_record tiny new_tiny
    (unread ++ [.submit ⟨1, .cooperative⟩ 0 1 7 (.motion ⟨1, .zero, .zero⟩)])
  have hrejected := h tiny _ _ hrun { tiny.geometry with revision := 2 } (by decide +kernel)
    ⟨.cooperative, 7, 1, 1, 7, .event (.motion ⟨1, .zero, .zero⟩)⟩ (by decide +kernel) rfl
  revert hrejected
  decide +kernel

end Jackstay.Input
