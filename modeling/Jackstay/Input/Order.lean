import Jackstay.Input.Sound

/-!
Order and coalescing.

* `State.Requeues`: what a call does to the queue, and `State.Acts.requeues` that every
  call does one of these things.
* `State.Passed`: a sequence number that is not queued any more and will not come again;
  `never_dispatched` that it is not dispatched either.
* `Ordered`: the dispatched and the queued sequence numbers of a controller increase, and
  a motion at the tail of the queue is what was accepted last.
* `ordered_input`: events are dispatched in order and unchanged, and a motion supersedes
  only a motion that was accepted right before it and has not been dispatched.
-/

namespace Jackstay.Input

open Traces

namespace State

variable {s s' : State} {a : Active} {l : Call} {r : Reply}

/-! ### The queue -/

/-- Works leave the queue, in front or wherever the pointer's were, and those that stay
may be of a new epoch. -/
inductive Thins (queue queue' : List Work) : Prop
  | intro (rest : List Work) (f : Work → Work) : rest.Sublist queue →
      (rest <:+ queue ∨ ∀ w ∈ rest, w.pointer = false) →
      (∀ w, f w = { w with epoch := (f w).epoch }) → queue' = rest.map f → Thins queue queue'

/-- **What a call does to the queue.** -/
inductive Requeues (s : State) : Call → Reply → State → Prop
  | queued (p : Controller) (now : ℕ) (epoch sequence : UInt64) (event : Event) (a b : Active)
      (s' : State) : s.Ready p epoch sequence event a →
      s'.queue = s.queue ++ [⟨p.mode, s.nextWork + 1, p.id, epoch, sequence, .event event⟩] →
      s'.active = some b → b.id = a.id → b.lastSequence = sequence →
      Requeues s (.submit p now epoch sequence event) .done s'
  | superseded (p : Controller) (now : ℕ) (epoch sequence : UInt64) (event : Event) (a b : Active)
      (front : List Work) (tail : Work) (motion : Event) (s' : State) :
      s.Ready p epoch sequence event a → event.isMotion = true → s.queue = front ++ [tail] →
      tail.operation = .event motion → motion.isMotion = true →
      (s'.queue = front ++ [{ tail with sequence, operation := .event event }] ∨
        s'.queue = [] ∧ s'.barrier = some ⟨.all, .overflow, true⟩ ∧ s'.overflowed p.id = true) →
      s'.active = some b → b.id = a.id → b.lastSequence = sequence →
      Requeues s (.submit p now epoch sequence event) .done s'
  | given (now : ℕ) (a : Active) (pre : List Work) (w : Work) (rest : List Work) (e e' : Event)
      (s' : State) : s.active = some a → w.controller = a.id → s.queue = pre ++ w :: rest →
      w.operation = .event e → e.Rebinds e' → s'.queue = rest → s'.active = s.active →
      Requeues s (.next now) (.work (some { w with operation := .event e' })) s'
  | thinned (l : Call) (r : Reply) (s' : State) : submission (l, r) = none →
      (∀ w, returned (l, r) = some w → w.isCleanup = true) → Thins s.queue s'.queue →
      (∀ b, s'.active = some b → s.nextController < b.id ∨
        ∃ a, s.active = some a ∧ a.id = b.id ∧ a.lastSequence ≤ b.lastSequence) →
      Requeues s l r s'

lemma Thins.of_suffix {queue queue' : List Work} (h : queue' <:+ queue) : Thins queue queue' :=
  ⟨queue', id, h.sublist, Or.inl h, fun _ => rfl, (List.map_id _).symm⟩

lemma Thins.refl (queue : List Work) : Thins queue queue := .of_suffix (List.suffix_refl _)

lemma Thins.of_nil (queue : List Work) : Thins queue [] := .of_suffix (List.nil_suffix)

lemma Thins.of_keyboard {queue queue' : List Work} (h : queue'.Sublist queue)
    (hkeys : ∀ w ∈ queue', w.pointer = false) : Thins queue queue' :=
  ⟨queue', id, h, Or.inr hkeys, fun _ => rfl, (List.map_id _).symm⟩

lemma Thins.renewed (queue : List Work) (epoch : UInt64) :
    Thins queue (queue.map fun w => { w with epoch }) :=
  ⟨queue, _, List.Sublist.refl _, Or.inl (List.suffix_refl _), fun _ => rfl, rfl⟩

/-- The queue is left, or overflows away. -/
lemma Posts.thins {statuses : List Status} {queue kept rest : List Work}
    (h : s.Posts a statuses queue kept s') (hq : Thins rest queue) (hk : kept = []) :
    Thins rest s'.queue := by
  rcases h.queue with heq | hpre
  · rwa [heq]
  · rw [hk, List.prefix_nil] at hpre
    rw [hpre]
    exact .of_nil rest

lemma Cancels.thins {scope : Scope} {reason : Reason} {ending : Bool}
    (h : s.Cancels scope reason ending s') : Thins s.queue s'.queue := by
  cases h with
  | inactive => exact .refl _
  | sufficed => exact .refl _
  | barred a s' ha hf hp =>
      have hkeys : ∀ w ∈ s.queue.filter fun w => !(s.barred scope reason ending).scope.drops w,
          w.pointer = false := by
        intro w hw
        have hdrops := (List.mem_filter.mp hw).2
        exact Scope.pointer_of_drops (by simpa using hdrops)
      rcases hp.queue with heq | hpre
      · rw [heq]
        exact .of_keyboard List.filter_sublist hkeys
      · exact .of_keyboard (hpre.sublist.trans List.filter_sublist)
          fun w hw => hkeys w (hpre.subset hw)

/-- A status that leaves the queue, and then perhaps a cancellation. -/
lemma Cancels.thins_of_posts {statuses : List Status} {queue : List Work} {mid : State}
    {scope : Scope} {reason : Reason} {ending : Bool} (hp : s.Posts a statuses queue [] mid)
    (h : mid.Cancels scope reason ending s') : Thins queue s'.queue := by
  rcases hp.queue with heq | hpre
  · rw [← heq]
    exact h.thins
  · have hnil : s'.queue = [] := by
      have hsub := h.queue_sublist
      rw [List.prefix_nil.mp hpre] at hsub
      exact List.sublist_nil.mp hsub
    rw [hnil]
    exact .of_nil queue

/-- **Every call does one of these things.** -/
lemma Acts.requeues (h : s.Acts l r s') (hs : Reached s) : s.Requeues l r s' := by
  have ho : s.Owned := owned_of_reached hs
  have same : s'.active = s.active → ∀ b, s'.active = some b → s.nextController < b.id ∨
      ∃ a, s.active = some a ∧ a.id = b.id ∧ a.lastSequence ≤ b.lastSequence := by
    intro heq b hb
    exact Or.inr ⟨b, heq ▸ hb, rfl, UInt64.le_refl _⟩
  have gone : s'.active = none → ∀ b, s'.active = some b → s.nextController < b.id ∨
      ∃ a, s.active = some a ∧ a.id = b.id ∧ a.lastSequence ≤ b.lastSequence := by
    intro hnone b hb
    cases hnone.symm.trans hb
  have stays : ∀ a d, s.active = some a → s'.active = some d → d.id = a.id →
      a.lastSequence ≤ d.lastSequence → ∀ b, s'.active = some b → s.nextController < b.id ∨
      ∃ a, s.active = some a ∧ a.id = b.id ∧ a.lastSequence ≤ b.lastSequence := by
    intro a d ha hd hid hle b hb
    cases hd.symm.trans hb
    exact Or.inr ⟨a, ha, hid.symm, hle⟩
  have nothing : ∀ w : Work, none = some w → w.isCleanup = true := fun w h0 => by cases h0
  cases h with
  | idle l r hi =>
      refine .thinned l r s ?_ (fun w hw => ?_) (.refl _) (same rfl)
      · cases l with
        | submit p now epoch sequence event => rcases hi with ⟨rfl, -⟩ | ⟨rfl, -⟩ <;> rfl
        | _ => rfl
      · cases l with
        | next now =>
            rw [hi.1] at hw
            cases hw
        | _ => cases hw
  | admitted mode now id hfail ha hmode hid =>
      have hlt : s.nextController < id := UInt64.lt_iff_toNat_lt.mpr (by omega)
      refine .thinned _ _ _ rfl nothing (.refl _) fun b hb => Or.inl ?_
      cases hb
      exact hlt
  | cleanup now b a work hf hb ha hw =>
      refine .thinned _ _ _ rfl (fun w h0 => ?_) (.refl _) (same rfl)
      cases h0
      rw [hw]
      rfl
  | discarded now ha hf hb => exact .thinned _ _ _ rfl nothing (.refl _) (same rfl)
  | dispatched now a r s' ha hf hb hd =>
      cases hd with
      | refused pre rest s' hq href hp hend =>
          refine .thinned _ _ _ rfl nothing (hp.thins (.of_suffix ?_) rfl) (same hp.frame.active)
          rw [hq]
          exact List.suffix_append _ _
      | dispatched pre w bound rest hq href hbind hfit =>
          have hmem : w ∈ s.queue := by
            rw [hq]
            exact List.mem_append_right _ List.mem_cons_self
          obtain ⟨hid, -, e, he, -⟩ := ho.queue a ha w hmem
          obtain ⟨e', rfl, hreb, -⟩ := bind_ok ha he hbind
          exact .given now a pre w rest e e' _ ha hid hq he hreb rfl rfl
  | completed f event outcome a mid s' hf hop ha hp hkeep hcancel =>
      have hid := (Active.apply_same a event outcome).1
      have hlast := Active.apply_lastSequence a event outcome
      have hmid : mid.active = some (if outcome = .executed then a.apply event else a) :=
        hp.frame.active
      by_cases hends : outcome.Ends
      · exact .thinned _ _ _ rfl nothing (Cancels.thins_of_posts hp (hcancel hends))
          (stays a _ ha ((hcancel hends).frame.active.trans hmid) hid (hlast ▸ UInt64.le_refl _))
      · rw [hkeep hends] at stays ⊢
        exact .thinned _ _ _ rfl nothing (hp.thins (.refl _) rfl)
          (stays a _ ha hmid hid (hlast ▸ UInt64.le_refl _))
  | cleanupFailed f scope reason outcome a mid hf hop ha hout hp =>
      exact .thinned _ _ _ rfl nothing (hp.thins (.of_nil _) rfl) (gone rfl)
  | cleanupEnded f scope reason a mid hf hop ha hend hp =>
      exact .thinned _ _ _ rfl nothing (.of_nil _) (gone rfl)
  | cleanupRenewed f scope reason a s' hf hop ha hend hb hp =>
      exact .thinned _ _ _ rfl nothing (hp.thins (.renewed _ _) rfl)
        (stays a _ ha hp.frame.active rfl (UInt64.le_refl _))
  | cleanupBarred f scope reason a hf hop ha hend hb =>
      exact .thinned _ _ _ rfl nothing (.refl _) (stays a _ ha rfl rfl (UInt64.le_refl _))
  | geometry g s' hg hrev hc =>
      exact .thinned _ _ _ rfl nothing hc.thins (same hc.frame.active)
  | resolved => exact .thinned _ _ _ rfl nothing (.refl _) (same rfl)
  | heartbeat p now a ha hid =>
      exact .thinned _ _ _ rfl nothing (.refl _) (stays a _ ha rfl rfl (UInt64.le_refl _))
  | refused p now epoch sequence event a e ha hid hseq href =>
      exact .thinned _ _ _ rfl nothing (.refl _) (stays a _ ha rfl rfl (UInt64.le_of_lt hseq))
  | superseded p now epoch sequence event a front tail motion s' hr hm hq hop hmot hcount =>
      refine .superseded p now epoch sequence event a _ front tail motion s' hr hm hq hop hmot ?_
        hcount.frame.active rfl rfl
      cases hcount with
      | merged => exact Or.inl rfl
      | appended => exact Or.inl rfl
      | overflowed =>
          refine Or.inr ⟨rfl, rfl, ?_⟩
          rw [← hr.id]
          exact Function.update_self _ _ _
  | overflowed p now epoch sequence event a s' hr hfull hc =>
      exact .thinned _ _ _ rfl nothing hc.thins
        (stays a _ hr.active hc.frame.active rfl (UInt64.le_of_lt hr.sequence))
  | accepted p now epoch sequence event a hr hmot hroom hbytes =>
      exact .queued p now epoch sequence event a _ _ hr rfl rfl rfl rfl
  | reset p a s' ha hid hc => exact .thinned _ _ _ rfl nothing hc.thins (same hc.frame.active)
  | close l p a s' hl ha hid hc =>
      rcases hl with rfl | rfl <;>
        exact .thinned _ _ _ rfl nothing hc.thins (same hc.frame.active)
  | polled p => exact .thinned _ _ _ rfl nothing (.refl _) (same rfl)

/-- A work that stays has been there. -/
lemma Thins.mem {queue queue' : List Work} (h : Thins queue queue') {w : Work} (hw : w ∈ queue') :
    ∃ v ∈ queue, w = { v with epoch := w.epoch } := by
  obtain ⟨rest, f, hsub, -, hf, rfl⟩ := h
  obtain ⟨v, hv, rfl⟩ := List.mem_map.mp hw
  exact ⟨v, hsub.subset hv, hf v⟩

/-! ### Sequence numbers of the past -/

/-- **A sequence number of the past**: the controller has used it, and it is not queued. -/
structure Passed (s : State) (c q : UInt64) : Prop where
  known : c ≤ s.nextController
  used : ∀ a, s.active = some a → a.id = c → q ≤ a.lastSequence
  absent : ∀ w ∈ s.queue, w.controller = c → w.sequence ≠ q

/-- A number of the past stays one, and is not dispatched. -/
lemma Passed.acts {c q : UInt64} (h : s.Passed c q) (hs : Reached s) (hacts : s.Acts l r s') :
    s'.Passed c q ∧
      ∀ w, returned (l, r) = some w → w.isCleanup = false → w.controller = c → w.sequence ≠ q := by
  have hle : s.nextController ≤ s'.nextController := hacts.nextController_le
  have hknown : c ≤ s'.nextController := UInt64.le_trans h.known hle
  have quiet : ∀ w : Work, none = some w → w.isCleanup = false → w.controller = c →
    w.sequence ≠ q := fun w h0 => by cases h0
  have fits : ∀ {b : Active} {p : Controller} {epoch sequence : UInt64} {event : Event} {a : Active},
      s.Ready p epoch sequence event a → s'.active = some b → b.id = a.id →
      b.lastSequence = sequence → ∀ d, s'.active = some d → d.id = c → q ≤ d.lastSequence := by
    intro b p epoch sequence event a hr hb hid hlast d hd hdc
    cases hb.symm.trans hd
    rw [hlast]
    exact UInt64.le_trans (h.used a hr.active (hid.symm.trans hdc)) (UInt64.le_of_lt hr.sequence)
  have newer : ∀ {p : Controller} {epoch sequence : UInt64} {event : Event} {a : Active},
      s.Ready p epoch sequence event a → p.id = c → sequence ≠ q := by
    intro p epoch sequence event a hr hpc heq
    have hused := h.used a hr.active (hr.id.trans hpc)
    rw [← heq] at hused
    exact absurd hr.sequence (UInt64.not_lt.mpr hused)
  cases hacts.requeues hs with
  | queued p now epoch sequence event a b s' hr hq hb hid hlast =>
      refine ⟨⟨hknown, fits hr hb hid hlast, fun w hw hwc => ?_⟩, quiet⟩
      rw [hq] at hw
      rcases List.mem_append.mp hw with hw | hw
      · exact h.absent w hw hwc
      · rw [List.mem_singleton.mp hw] at hwc ⊢
        exact newer hr hwc
  | superseded p now epoch sequence event a b front tail motion s' hr hm hq hop hmot hq' hb hid
      hlast =>
      refine ⟨⟨hknown, fits hr hb hid hlast, fun w hw hwc => ?_⟩, quiet⟩
      rcases hq' with hq' | ⟨hq', -⟩
      · rw [hq'] at hw
        rcases List.mem_append.mp hw with hw | hw
        · exact h.absent w (by rw [hq]; exact List.mem_append_left _ hw) hwc
        · have htail : tail ∈ s.queue := by rw [hq]; simp
          have hown := ((owned_of_reached hs).queue a hr.active tail htail).1
          rw [List.mem_singleton.mp hw] at hwc ⊢
          exact newer hr (hr.id.symm.trans (hown.symm.trans hwc))
      · rw [hq'] at hw
        cases hw
  | given now a pre w rest e e' s' ha hid hq he hreb hq' hact =>
      refine ⟨⟨hknown, fun d hd => h.used d (hact ▸ hd), fun v hv => h.absent v ?_⟩,
        fun v hv _ hvc => ?_⟩
      · rw [hq, ← hq']
        exact List.mem_append_right _ (List.mem_cons_of_mem _ hv)
      · cases hv
        refine h.absent w ?_ hvc
        rw [hq]
        exact List.mem_append_right _ List.mem_cons_self
  | thinned l r s' hsub hret hthin hact =>
      refine ⟨⟨hknown, fun d hd hdc => ?_, fun w hw hwc => ?_⟩, fun w hw hnot => ?_⟩
      · rcases hact d hd with hlt | ⟨a, ha, hid, hle⟩
        · rw [hdc] at hlt
          exact absurd hlt (UInt64.not_lt.mpr h.known)
        · exact UInt64.le_trans (h.used a ha (hid.trans hdc)) hle
      · obtain ⟨v, hv, heq⟩ := hthin.mem hw
        rw [heq] at hwc ⊢
        exact h.absent v hv hwc
      · rw [hret w hw] at hnot
        cases hnot

lemma Passed.cancels {c q : UInt64} {scope : Scope} {reason : Reason} {ending : Bool}
    (h : s.Passed c q) (hc : s.Cancels scope reason ending s') : s'.Passed c q := by
  refine ⟨?_, fun d hd => ?_, fun w hw => h.absent w (hc.queue_sublist.subset hw)⟩
  · rw [hc.frame.nextController]
    exact h.known
  · rw [hc.frame.active] at hd
    exact h.used d hd

end State

/-- The work is an event of this controller. -/
def Work.isEventOf (c : UInt64) (w : Work) : Bool := w.controller == c && !w.isCleanup

/-- The events of a controller that `next` has returned, in order. -/
def eventsOf (c : UInt64) (tr : Trace) : List Work := (dispatched tr).filter (·.isEventOf c)

/-- **What has passed is not dispatched any more.** -/
lemma never_dispatched {s s' : State} {c q : UInt64} {tr : Trace} (hs : Reached s)
    (h : s.Passed c q) (hruns : Runs State.call Always s tr s') :
    ∀ w ∈ eventsOf c tr, w.sequence ≠ q := by
  have hboth : s'.Passed c q ∧ ∀ w ∈ eventsOf c tr, w.sequence ≠ q := by
    refine hs.continued (P := fun tr s => s.Passed c q ∧ ∀ w ∈ eventsOf c tr, w.sequence ≠ q) hruns
      ⟨h, fun w hw => (by cases hw)⟩ (fun tr s l _ _ h0 hc => ⟨h0.1.cancels hc, h0.2⟩)
      fun tr s l r s' hs _ h0 _ hacts => ?_
    obtain ⟨hpassed, hret⟩ := h0.1.acts hs hacts
    refine ⟨hpassed, fun w hw => ?_⟩
    rw [eventsOf, dispatched_snoc, List.filter_append] at hw
    rcases List.mem_append.mp hw with hw | hw
    · exact h0.2 w hw
    · obtain ⟨hw, hof⟩ := List.mem_filter.mp hw
      rw [Work.isEventOf, Bool.and_eq_true, beq_iff_eq, Bool.not_eq_true'] at hof
      exact hret w (Option.mem_toList.mp hw) hof.2 hof.1
  exact hboth.2

/-! ### Order -/

/-- **A dispatched event is one that was accepted**, unchanged but for the binding of a
key. -/
def Unaltered (pre : Trace) (x : Call × Reply) : Prop :=
  ∀ w e, returned x = some w → w.operation = .event e →
    ∃ y ∈ accepted w.controller pre, y.sequence = w.sequence ∧ y.event.Rebinds e ∧
      ∀ z ∈ accepted w.controller pre, z.sequence = w.sequence → z = y

/-- The sequence numbers of a controller that were dispatched or are queued. -/
def numbers (c : UInt64) (tr : Trace) (s : State) : List UInt64 :=
  (eventsOf c tr).map (·.sequence) ++ (s.queue.filter (·.controller == c)).map (·.sequence)

/-- **The order of things.** -/
structure Ordered (tr : Trace) (s : State) : Prop where
  sorted : ∀ c, (numbers c tr s).Pairwise (· < ·)
  accepted : ∀ c, ((accepted c tr).map (·.sequence)).Pairwise (· < ·)
  fresh : ∀ c, s.nextController < c → numbers c tr s = [] ∧ Input.accepted c tr = []
  last : ∀ a, s.active = some a → (∀ q ∈ numbers a.id tr s, q ≤ a.lastSequence) ∧
    ∀ y ∈ Input.accepted a.id tr, y.sequence ≤ a.lastSequence
  origin : ∀ w ∈ s.queue, ∃ y ∈ Input.accepted w.controller tr, y.sequence = w.sequence ∧
    w.operation = .event y.event
  /-- a motion at the tail was accepted last -/
  tail : ∀ front tail e, s.queue = front ++ [tail] → tail.operation = .event e →
    e.isMotion = true → ∃ y, (Input.accepted tail.controller tr).getLast? = some y ∧
      y.sequence = tail.sequence ∧ y.event = e
  each : Each Unaltered tr

section

variable {tr : Trace} {s s' : State} {a : Active} {l : Call} {r : Reply} {c : UInt64}

lemma eventsOf_snoc (h : ∀ w, returned (l, r) = some w → w.isEventOf c = false) :
    eventsOf c (tr ++ [(l, r)]) = eventsOf c tr := by
  rw [eventsOf, dispatched_snoc, List.filter_append]
  cases hret : returned (l, r) with
  | none => simp [eventsOf]
  | some w => simp [eventsOf, h w hret]

lemma Work.isEventOf_of_cleanup {w : Work} (h : w.isCleanup = true) : w.isEventOf c = false := by
  rw [Work.isEventOf, h, Bool.not_true, Bool.and_false]

lemma eventsOf_given (now : ℕ) {w : Work} (h : w.isEventOf c = true) :
    eventsOf c (tr ++ [(Call.next now, Reply.work (some w))]) = eventsOf c tr ++ [w] := by
  rw [eventsOf, dispatched_snoc, List.filter_append]
  simp [eventsOf, returned, h]

lemma unaltered_of_cleanup (h : ∀ w, returned (l, r) = some w → w.isCleanup = true) :
    Unaltered tr (l, r) := by
  intro w e hw he
  have hclean := h w hw
  rw [Work.isCleanup, he] at hclean
  cases hclean

lemma Event.pointer_of_isMotion {e : Event} (h : e.isMotion = true) : e.pointer = true := by
  cases e with
  | motion p => rfl
  | _ => cases h

lemma filter_sequences {queue queue' : List Work} (h : State.Thins queue queue') :
    ((queue'.filter (·.controller == c)).map (·.sequence)).Sublist
      ((queue.filter (·.controller == c)).map (·.sequence)) := by
  obtain ⟨rest, f, hsub, -, hf, rfl⟩ := h
  have hmap : ((rest.map f).filter (·.controller == c)).map (·.sequence) =
      (rest.filter (·.controller == c)).map (·.sequence) := by
    have hcontroller : (fun w : Work => w.controller == c) ∘ f = fun w => w.controller == c := by
      funext w
      rw [Function.comp_apply, hf w]
    rw [List.filter_map, hcontroller, List.map_map]
    refine List.map_congr_left fun w _ => ?_
    rw [Function.comp_apply, hf w]
  rw [hmap]
  exact (hsub.filter _).map _

/-- Works leave the queue. -/
lemma Ordered.thins (h : Ordered tr s) (hthin : State.Thins s.queue s'.queue)
    (hact : ∀ b, s'.active = some b → s.nextController < b.id ∨
      ∃ a, s.active = some a ∧ a.id = b.id ∧ a.lastSequence ≤ b.lastSequence)
    (hle : s.nextController ≤ s'.nextController) : Ordered tr s' := by
  have hnum : ∀ c, (numbers c tr s').Sublist (numbers c tr s) :=
    fun c => (List.Sublist.refl _).append (filter_sequences hthin)
  have hfresh : ∀ c, s.nextController < c → numbers c tr s' = [] ∧ Input.accepted c tr = [] := by
    intro c hc
    obtain ⟨hnil, hacc⟩ := h.fresh c hc
    have hsublist := hnum c
    rw [hnil] at hsublist
    exact ⟨List.sublist_nil.mp hsublist, hacc⟩
  refine ⟨fun c => (h.sorted c).sublist (hnum c), h.accepted,
    fun c hc => hfresh c (UInt64.lt_of_le_of_lt hle hc), fun b hb => ?_, fun w hw => ?_,
    fun front tail e hq he hm => ?_, h.each⟩
  · rcases hact b hb with hlt | ⟨a, ha, hid, hle⟩
    · rw [(hfresh b.id hlt).1, (hfresh b.id hlt).2]
      exact ⟨fun q hq => (by cases hq), fun y hy => (by cases hy)⟩
    · obtain ⟨hnumbers, haccepted⟩ := h.last a ha
      rw [hid] at hnumbers haccepted
      exact ⟨fun q hq => UInt64.le_trans (hnumbers q ((hnum b.id).subset hq)) hle,
        fun y hy => UInt64.le_trans (haccepted y hy) hle⟩
  · obtain ⟨v, hv, heq⟩ := hthin.mem hw
    rw [heq]
    exact h.origin v hv
  · obtain ⟨rest, f, -, hrest, hf, hmap⟩ := hthin
    rw [hq] at hmap
    obtain ⟨rest₁, rest₂, rfl, hfront, htail⟩ := List.append_eq_map_iff.mp hmap
    obtain ⟨v, rfl, hv⟩ := List.map_eq_singleton_iff.mp htail
    have htaileq : tail = { v with epoch := (f v).epoch } := hv.symm.trans (hf v)
    rw [htaileq] at he ⊢
    rcases hrest with ⟨pre, hpre⟩ | hkeys
    · exact h.tail (pre ++ rest₁) v e (by rw [← hpre, List.append_assoc]) he hm
    · have hpointer : v.pointer = false := hkeys v (by simp)
      have he : v.operation = .event e := he
      rw [Work.pointer, he] at hpointer
      cases (Event.pointer_of_isMotion hm).symm.trans hpointer

/-- A call that accepts nothing and dispatches no event. -/
lemma Ordered.quiet (h : Ordered tr s) (hsub : submission (l, r) = none)
    (hret : ∀ w, returned (l, r) = some w → w.isCleanup = true) : Ordered (tr ++ [(l, r)]) s := by
  have hacc : ∀ c, Input.accepted c (tr ++ [(l, r)]) = Input.accepted c tr := by
    intro c
    rw [accepted_snoc, hsub]
    simp
  have hnum : ∀ c, numbers c (tr ++ [(l, r)]) s = numbers c tr s := by
    intro c
    rw [numbers, numbers, eventsOf_snoc fun w hw => Work.isEventOf_of_cleanup (hret w hw)]
  refine ⟨fun c => ?_, fun c => ?_, fun c hc => ?_, fun a ha => ?_, fun w hw => ?_,
    fun front tail e hq => ?_, h.each.snoc (unaltered_of_cleanup hret)⟩
  · rw [hnum]
    exact h.sorted c
  · rw [hacc]
    exact h.accepted c
  · rw [hnum, hacc]
    exact h.fresh c hc
  · rw [hnum, hacc]
    exact h.last a ha
  · rw [hacc]
    exact h.origin w hw
  · rw [hacc]
    exact h.tail front tail e hq

/-- What a submission adds to what was accepted. -/
lemma accepted_new (p : Controller) (now : ℕ) (epoch sequence : UInt64) (event : Event) :
    accepted c (tr ++ [(Call.submit p now epoch sequence event, Reply.done)]) = accepted c tr ++
      if p.id = c then [⟨p.id, epoch, sequence, event⟩] else [] := by
  rw [accepted_snoc]
  by_cases hc : p.id = c
  · simp [submission, hc]
  · simp [submission, hc]

/-- A submission is accepted, with a queue that ends in it or has overflowed. -/
lemma Ordered.submitted (h : Ordered tr s) (hs : Reached s) {p : Controller} {now : ℕ}
    {epoch sequence : UInt64} {event : Event} (hr : s.Ready p epoch sequence event a) {b : Active}
    (hb : s'.active = some b) (hid : b.id = a.id) (hlast : b.lastSequence = sequence)
    (hle : s.nextController ≤ s'.nextController) {front : List Work} (hfront : front.Sublist s.queue)
    (new : Work) (hcontroller : new.controller = p.id) (hseq : new.sequence = sequence)
    (hop : new.operation = .event event) (hq : s'.queue = front ++ [new] ∨ s'.queue = []) :
    Ordered (tr ++ [(Call.submit p now epoch sequence event, Reply.done)]) s' := by
  have ho := State.owned_of_reached hs
  have hevents : ∀ c, eventsOf c (tr ++ [(Call.submit p now epoch sequence event, Reply.done)]) =
      eventsOf c tr := fun c => eventsOf_snoc fun w hw => by cases hw
  obtain ⟨hnumbers, haccepted⟩ := h.last a hr.active
  have hknown : a.id ≤ s.nextController := ho.id a hr.active ▸ UInt64.le_refl _
  have hqueue : s'.queue.Sublist (front ++ [new]) := by
    rcases hq with hq | hq
    · rw [hq]
    · rw [hq]
      exact List.nil_sublist _
  -- the numbers of before, and perhaps the new one
  have hnum : ∀ c, (numbers c
      (tr ++ [(Call.submit p now epoch sequence event, Reply.done)]) s').Sublist
      (numbers c tr s ++ if p.id = c then [sequence] else []) := by
    intro c
    rw [numbers, numbers, hevents, List.append_assoc]
    refine (List.Sublist.refl _).append (((hqueue.filter _).map _).trans ?_)
    rw [List.filter_append, List.map_append]
    refine ((hfront.filter _).map _).append ?_
    by_cases hc : p.id = c
    · simp [hcontroller, hc, hseq]
    · simp [hcontroller, hc]
  refine ⟨fun c => ?_, fun c => ?_, fun c hc => ?_, fun d hd => ?_, fun w hw => ?_,
    fun front' tail e hq' he hm => ?_, h.each.snoc (unaltered_of_cleanup fun w hw => by cases hw)⟩
  · refine List.Pairwise.sublist (hnum c) ?_
    split_ifs with hc
    · refine List.pairwise_append.mpr ⟨h.sorted c, List.pairwise_singleton _ _, fun q hq q' hq' => ?_⟩
      rw [List.mem_singleton.mp hq']
      rw [← hc, ← hr.id] at hq
      exact UInt64.lt_of_le_of_lt (hnumbers q hq) hr.sequence
    · rw [List.append_nil]
      exact h.sorted c
  · rw [accepted_new, List.map_append]
    split_ifs with hc
    · refine List.pairwise_append.mpr ⟨h.accepted c, List.pairwise_singleton _ _, fun q hq q' hq' => ?_⟩
      rw [List.mem_singleton.mp hq']
      obtain ⟨y, hy, rfl⟩ := List.mem_map.mp hq
      rw [← hc, ← hr.id] at hy
      exact UInt64.lt_of_le_of_lt (haccepted y hy) hr.sequence
    · rw [List.map_nil, List.append_nil]
      exact h.accepted c
  · have hlt : s.nextController < c := UInt64.lt_of_le_of_lt hle hc
    have hne : ¬ p.id = c := by
      rintro rfl
      rw [← hr.id] at hlt
      exact absurd hlt (UInt64.not_lt.mpr hknown)
    obtain ⟨hnil, hacc⟩ := h.fresh c hlt
    have hsub := hnum c
    rw [if_neg hne, hnil] at hsub
    rw [accepted_new, if_neg hne, hacc]
    exact ⟨List.sublist_nil.mp hsub, rfl⟩
  · cases hb.symm.trans hd
    rw [hlast, hid]
    refine ⟨fun q hq => ?_, fun y hy => ?_⟩
    · have hq := (hnum a.id).subset hq
      rw [if_pos hr.id.symm] at hq
      rcases List.mem_append.mp hq with hq | hq
      · exact UInt64.le_trans (hnumbers q hq) (UInt64.le_of_lt hr.sequence)
      · rw [List.mem_singleton.mp hq]
        exact UInt64.le_refl _
    · rw [accepted_new, if_pos hr.id.symm] at hy
      rcases List.mem_append.mp hy with hy | hy
      · exact UInt64.le_trans (haccepted y hy) (UInt64.le_of_lt hr.sequence)
      · rw [List.mem_singleton.mp hy]
        exact UInt64.le_refl _
  · rw [accepted_new]
    rcases List.mem_append.mp (hqueue.subset hw) with hw | hw
    · obtain ⟨y, hy, hrest⟩ := h.origin w (hfront.subset hw)
      exact ⟨y, List.mem_append_left _ hy, hrest⟩
    · rw [List.mem_singleton.mp hw, if_pos hcontroller.symm]
      exact ⟨_, List.mem_append_right _ (List.mem_singleton_self _), hseq.symm, hop⟩
  · rcases hq with hq | hq
    · rw [hq] at hq'
      obtain ⟨-, htail⟩ := List.append_inj' hq' rfl
      cases htail
      cases hop.symm.trans he
      refine ⟨⟨p.id, epoch, sequence, event⟩, ?_, hseq.symm, rfl⟩
      rw [accepted_new, if_pos hcontroller.symm]
      exact List.getLast?_concat
    · rw [hq] at hq'
      exact absurd hq'.symm (by simp)

/-- An event is dispatched. -/
lemma Ordered.given (h : Ordered tr s) {now : ℕ} {pre : List Work} {w : Work} {rest : List Work}
    {e e' : Event} (hq : s.queue = pre ++ w :: rest) (he : w.operation = .event e)
    (hreb : e.Rebinds e') (hq' : s'.queue = rest) (hact : s'.active = s.active)
    (hle : s.nextController ≤ s'.nextController) :
    Ordered (tr ++ [(Call.next now, Reply.work (some { w with operation := .event e' }))]) s' := by
  set bound : Work := { w with operation := .event e' } with hbound
  have hacc : ∀ c, Input.accepted c (tr ++ [(Call.next now, Reply.work (some bound))]) =
      Input.accepted c tr := by
    intro c
    rw [accepted_snoc]
    simp [submission]
  have hnum : ∀ c, (numbers c (tr ++ [(Call.next now, Reply.work (some bound))]) s').Sublist
      (numbers c tr s) := by
    intro c
    have hrest : ((w :: rest).filter (·.controller == c)).Sublist
        (s.queue.filter (·.controller == c)) := by
      rw [hq]
      exact (List.sublist_append_right _ _).filter _
    by_cases hc : w.controller = c
    · have hof : bound.isEventOf c = true := by
        rw [Work.isEventOf, Bool.and_eq_true]
        exact ⟨beq_iff_eq.mpr hc, rfl⟩
      have hcons : (w :: rest).filter (·.controller == c) =
          w :: rest.filter (·.controller == c) := List.filter_cons_of_pos (beq_iff_eq.mpr hc)
      rw [hcons] at hrest
      have hmap : ([bound].map (·.sequence) ++
          (rest.filter (·.controller == c)).map (·.sequence)).Sublist
            ((s.queue.filter (·.controller == c)).map (·.sequence)) :=
        hrest.map Work.sequence
      rw [numbers, numbers, eventsOf_given now hof, hq', List.map_append, List.append_assoc]
      exact (List.Sublist.refl _).append hmap
    · have hnot : bound.isEventOf c = false := by
        rw [Work.isEventOf, Bool.and_eq_false_iff]
        exact Or.inl (beq_eq_false_iff_ne.mpr hc)
      have hcons : (w :: rest).filter (·.controller == c) = rest.filter (·.controller == c) :=
        List.filter_cons_of_neg (by simpa using hc)
      rw [hcons] at hrest
      rw [numbers, numbers, eventsOf_snoc fun v hv => by cases hv; exact hnot, hq']
      exact (List.Sublist.refl _).append (hrest.map (·.sequence))
  have hmem : ∀ v ∈ s'.queue, v ∈ s.queue := by
    intro v hv
    rw [hq, ← hq']
    exact List.mem_append_right _ (List.mem_cons_of_mem _ hv)
  refine ⟨fun c => (h.sorted c).sublist (hnum c), fun c => ?_, fun c hc => ?_, fun d hd => ?_,
    fun v hv => ?_, fun front tail f hqueue => ?_, h.each.snoc fun v f hv hf => ?_⟩
  · rw [hacc]
    exact h.accepted c
  · obtain ⟨hnil, hacc₀⟩ := h.fresh c (UInt64.lt_of_le_of_lt hle hc)
    have hsublist := hnum c
    rw [hnil] at hsublist
    exact ⟨List.sublist_nil.mp hsublist, (hacc c).trans hacc₀⟩
  · rw [hact] at hd
    rw [hacc]
    exact ⟨fun q hq => (h.last d hd).1 q ((hnum d.id).subset hq), (h.last d hd).2⟩
  · rw [hacc]
    exact h.origin v (hmem v hv)
  · rw [hacc]
    refine h.tail (pre ++ w :: front) tail f ?_
    rw [hq, ← hq', hqueue, List.append_assoc, List.cons_append]
  · cases hv
    cases hf
    have hw : w ∈ s.queue := by
      rw [hq]
      exact List.mem_append_right _ List.mem_cons_self
    obtain ⟨y, hy, hseq, hop⟩ := h.origin w hw
    cases hop.symm.trans he
    refine ⟨y, hy, hseq, hreb, fun z hz hzseq => ?_⟩
    -- the accepted sequence numbers are different
    have hnodup : ((Input.accepted w.controller tr).map (·.sequence)).Nodup := by
      refine List.Pairwise.imp ?_ (h.accepted w.controller)
      rintro q _ hlt rfl
      exact UInt64.lt_irrefl _ hlt
    exact List.inj_on_of_nodup_map hnodup hz hy (hzseq.trans hseq.symm)

/-- **Every call keeps the order.** -/
lemma Ordered.acts (h : Ordered tr s) (hs : Reached s) (hacts : s.Acts l r s') :
    Ordered (tr ++ [(l, r)]) s' := by
  have hle : s.nextController ≤ s'.nextController := hacts.nextController_le
  cases hacts.requeues hs with
  | queued p now epoch sequence event a b s' hr hq hb hid hlast =>
      exact h.submitted hs hr hb hid hlast hle (List.Sublist.refl _) _ rfl rfl rfl (Or.inl hq)
  | superseded p now epoch sequence event a b front tail motion s' hr hm hq hop hmot hq' hb hid
      hlast =>
      have htail : tail ∈ s.queue := by rw [hq]; simp
      have hown := ((State.owned_of_reached hs).queue a hr.active tail htail).1
      have hfront : front.Sublist s.queue := by
        rw [hq]
        exact List.sublist_append_left _ _
      exact h.submitted hs hr hb hid hlast hle hfront
        { tail with sequence, operation := .event event } (hown.trans hr.id) rfl rfl
        (hq'.imp id fun h0 => h0.1)
  | given now a pre w rest e e' s' ha hid hq he hreb hq' hact =>
      exact h.given hq he hreb hq' hact hle
  | thinned l r s' hsub hret hthin hact => exact (h.quiet hsub hret).thins hthin hact hle

end

/-- **A motion gives way to a motion** of the same controller. -/
structure Supersedes (tr : Trace) (s s' : State) (c sequence : UInt64) (event : Event)
    (y : Submission) : Prop where
  motions : y.event.isMotion = true ∧ event.isMotion = true
  /-- nothing has been accepted in between -/
  adjacent : (accepted c tr).getLast? = some y
  /-- everything in front of it stays, unless the mailbox overflows and the controller has
  to end -/
  queue : ∃ front tail, s.queue = front ++ [tail] ∧ tail.sequence = y.sequence ∧
    tail.operation = .event y.event ∧
    (s'.queue = front ++ [{ tail with sequence, operation := .event event }] ∨
      s'.queue = [] ∧ s'.barrier = some ⟨.all, .overflow, true⟩ ∧ s'.overflowed c = true)
  /-- it has not been dispatched -/
  before : ∀ w ∈ eventsOf c tr, w.sequence ≠ y.sequence
  /-- and it will not be -/
  after : ∀ tr' s'', Runs State.call Always s' tr' s'' →
    ∀ w ∈ eventsOf c tr', w.sequence ≠ y.sequence

/-- A submission is queued behind all others, or supersedes a motion. -/
def Joins (tr : Trace) (s s' : State) (c sequence : UInt64) (event : Event) : Prop :=
  (∃ new : Work, s'.queue = s.queue ++ [new] ∧ new.controller = c ∧ new.sequence = sequence ∧
    new.operation = .event event) ∨ ∃ y, Supersedes tr s s' c sequence event y

lemma Ordered.joins {tr : Trace} {s s' : State} {p : Controller} {now : ℕ}
    {epoch sequence : UInt64} {event : Event} (h : Ordered tr s) (hs : Reached s)
    (hs' : Reached s') (hacts : s.Acts (.submit p now epoch sequence event) .done s') :
    Joins tr s s' p.id sequence event := by
  have hle : s.nextController ≤ s'.nextController := hacts.nextController_le
  have ho := State.owned_of_reached hs
  cases hacts.requeues hs with
  | queued p now epoch sequence event a b s' hr hq hb hid hlast =>
      exact Or.inl ⟨_, hq, rfl, rfl, rfl⟩
  | superseded p now epoch sequence event a b front tail motion s' hr hm hq hop hmot hq' hb hid
      hlast =>
      have htail : tail ∈ s.queue := by rw [hq]; simp
      have hown : tail.controller = p.id := ((ho.queue a hr.active tail htail).1).trans hr.id
      obtain ⟨y, hy, hseq, hevent⟩ := h.tail front tail motion hq hop hmot
      rw [hown] at hy
      have hnumbers := (h.last a hr.active).1
      have hsorted := h.sorted p.id
      have hfilter : s.queue.filter (·.controller == p.id) =
          front.filter (·.controller == p.id) ++ [tail] := by
        rw [hq, List.filter_append, List.filter_singleton]
        simp [hown]
      rw [numbers, hfilter, List.map_append, ← List.append_assoc] at hsorted
      have hbelow : ∀ q ∈ (eventsOf p.id tr).map (·.sequence) ++
          (front.filter (·.controller == p.id)).map (·.sequence), q ≠ y.sequence := by
        rintro q hq0 rfl
        have hlt := (List.pairwise_append.mp hsorted).2.2 _ hq0 tail.sequence (by simp)
        rw [hseq] at hlt
        exact UInt64.lt_irrefl _ hlt
      have hused : y.sequence ≤ a.lastSequence := by
        refine (h.last a hr.active).2 y ?_
        rw [hr.id]
        exact List.mem_of_getLast? hy
      refine Or.inr ⟨y, ⟨hevent ▸ hmot, hm⟩, hy, ⟨front, tail, hq, hseq.symm, hevent ▸ hop, hq'⟩,
        fun w hw => hbelow _ (List.mem_append_left _ (List.mem_map_of_mem hw)),
        fun tr' s'' hruns => never_dispatched hs' ⟨?_, fun d hd hdc => ?_, fun w hw hwc => ?_⟩ hruns⟩
      · rw [← hr.id, ho.id a hr.active]
        exact hle
      · cases hb.symm.trans hd
        rw [hlast]
        exact UInt64.le_trans hused (UInt64.le_of_lt hr.sequence)
      · rcases hq' with hq' | ⟨hq', -⟩
        · rw [hq'] at hw
          rcases List.mem_append.mp hw with hw | hw
          · refine hbelow _ (List.mem_append_right _ (List.mem_map_of_mem (List.mem_filter.mpr ?_)))
            exact ⟨hw, beq_iff_eq.mpr hwc⟩
          · rw [List.mem_singleton.mp hw]
            intro heq
            have heq : sequence = y.sequence := heq
            rw [← heq] at hused
            exact absurd hr.sequence (UInt64.not_lt.mpr hused)
        · rw [hq'] at hw
          cases hw
  | thinned l r s' hsub => cases hsub

/-- The expiry check takes works out of the queue. -/
lemma Ordered.expired {tr : Trace} {s s' : State} (h : Ordered tr s)
    (hc : s.Cancels .all .expired true s') : Ordered tr s' := by
  refine h.thins hc.thins (fun b hb => Or.inr ?_) (hc.frame.nextController ▸ UInt64.le_refl _)
  exact ⟨b, hc.frame.active ▸ hb, rfl, UInt64.le_refl _⟩

/-- **The order of things, in every run.** -/
lemma ordered_of_run {config : Config} {tr : Trace} {s : State} (h : Run config Always tr s) :
    Ordered tr s := by
  refine h.traced (P := Ordered) (fun s l h0 => h0) (fun s₀ hn => ?_)
    (fun tr s s' _ h0 hc => h0.expired hc) fun tr s l r s' hs _ h0 hacts => h0.acts hs hacts
  rw [(State.new_eq hn).1]
  exact ⟨fun c => .nil, fun c => .nil, fun c _ => ⟨rfl, rfl⟩, fun a ha => (by cases ha),
    fun w hw => (by cases hw), fun front tail e hq => absurd hq.symm (by simp), each_nil⟩

/-- **Order and coalescing.** In every run the events of a controller are dispatched with
increasing sequence numbers, each as it was accepted but for the binding of a key; and an
accepted submission is queued behind all others, or supersedes a motion that was accepted
right before it and is not dispatched before or after. -/
theorem ordered_input {config : Config} {tr : Trace} {s : State} (h : Run config Always tr s) :
    (∀ c, ((eventsOf c tr).map (·.sequence)).Pairwise (· < ·)) ∧ Each Unaltered tr ∧
      ∀ p now epoch sequence event,
        let l : Call := .submit p now epoch sequence event
        (s.call l).2 = .done → Joins tr (s.timed l) (s.call l).1 p.id sequence event := by
  have hordered : Ordered tr s := ordered_of_run h
  refine ⟨fun c => (hordered.sorted c).sublist (List.sublist_append_left _ _), hordered.each, ?_⟩
  intro p now epoch sequence event l hdone
  have hs : Reached s := ⟨config, tr, h⟩
  have hs' : Reached (s.call l).1 := ⟨config, _, h.snoc l trivial⟩
  have hacts := State.acts_of_call l (hs.timed l).linked
  rw [hdone] at hacts
  have htimed : Ordered tr (s.timed l) := by
    rcases s.timed_cases l with heq | hc
    · rwa [heq]
    · exact hordered.expired hc
  exact htimed.joins (hs.timed l) hs' hacts

/-- Two motions before a press, of which the second takes the place of the first. -/
def hovered : List Call :=
  [.admitController .cooperative 0,
    .submit ⟨1, .cooperative⟩ 0 1 1 (.motion ⟨1, .zero, .zero⟩),
    .submit ⟨1, .cooperative⟩ 0 1 2 (.motion ⟨1, .zero, .zero⟩), .next 0, .complete 1 .executed,
    .submit ⟨1, .cooperative⟩ 0 1 3 (.button 1 .down ⟨1, .zero, .zero⟩), .next 0]

/-- The second motion and the press are dispatched in order. -/
theorem ordered_input_hovered :
    ((eventsOf 1 (record State.call { config := tiny } hovered).1).map (·.sequence) = [2, 3]) ∧
      ((eventsOf 1 (record State.call { config := tiny } hovered).1).map (·.sequence)).Pairwise
        (· < ·) :=
  ⟨by decide +kernel, (ordered_input (Run.of_record tiny new_tiny hovered)).1 1⟩

end Jackstay.Input
