import Jackstay.Input.Session

/-!
What the calls of a session do.

* `State.append` and `State.overflow`: the two ways a status, or a list of them, reaches
  a mailbox. `State.Posts` says which one it is, for statuses that do not merge.
* `State.status_posts`, `State.cancel_cases` and `State.dispatch_cases` say what the
  loops of `cancel` and `next` come to.
* `State.Acts` lists what a call does once the expiry check in front of it is done, and
  `State.acts_of_call` that the calls do nothing else.
-/

namespace Jackstay.Input

/-- The status is a count of superseded motions. -/
def Status.isCoalesced : Status → Bool
  | .coalesced _ => true
  | _ => false

namespace State

variable (s : State) (a : Active)

/-! ### Mailboxes -/

/-- Statuses reach the mailbox. -/
def append (statuses : List Status) : State :=
  { s with mailboxes := Function.update s.mailboxes a.id (s.mailboxes a.id ++ statuses) }

/-- The mailbox overflows: its statuses are gone, and the controller has to end. -/
def overflow (queue : List Work) : State :=
  { s with
    mailboxes := Function.update s.mailboxes a.id [.closed .overflow false]
    queue
    barrier := some ⟨.all, .overflow, true⟩
    overflowed := Function.update s.overflowed a.id true }

/-- A status takes in the newest of the mailbox. -/
def merge (rest : List Status) (count delta : UInt64) : State :=
  { s with mailboxes :=
      Function.update s.mailboxes a.id (rest ++ [.coalesced (saturatingAdd count delta)]) }

variable {s a}

lemma mergeCoalesced_eq_none {x y : Status} (h : y.isCoalesced = false) :
    x.mergeCoalesced y = none := by
  cases x <;> cases y <;> first | rfl | cases h

lemma mergeCoalesced_eq_some {x y z : Status} (h : x.mergeCoalesced y = some z) :
    ∃ count delta, x = .coalesced count ∧ y = .coalesced delta ∧
      z = .coalesced (saturatingAdd count delta) := by
  cases x with
  | coalesced count =>
      cases y with
      | coalesced delta => exact ⟨count, delta, rfl, rfl, (Option.some.inj h).symm⟩
      | _ => cases h
  | _ => cases y <;> cases h

/-- A status that does not merge is appended, or overflows the mailbox. -/
lemma status_eq (ha : s.active = some a) {st : Status} (h : st.isCoalesced = false) :
    s.status st = if s.mailboxCapacity ≤ (s.mailboxes a.id).length then s.overflow a []
      else s.append a [st] := by
  have hnone : (s.mailboxes a.id).getLast?.bind (·.mergeCoalesced st) = none := by
    rw [Option.bind_eq_none_iff]
    exact fun x _ => mergeCoalesced_eq_none h
  unfold status
  split
  · rename_i hb
    cases hb.symm.trans ha
  · rename_i b hb
    cases hb.symm.trans ha
    simp only [hnone]
    rfl

/-- What becomes of a count of one superseded motion. -/
inductive Counts (s : State) (a : Active) : State → Prop
  | merged (rest : List Status) (count : UInt64) :
      s.mailboxes a.id = rest ++ [.coalesced count] → Counts s a (s.merge a rest count 1)
  | appended : (s.mailboxes a.id).length < s.mailboxCapacity →
      Counts s a (s.append a [.coalesced 1])
  | overflowed : s.mailboxCapacity ≤ (s.mailboxes a.id).length → Counts s a (s.overflow a [])

lemma Counts.of_id {b : Active} (hid : b.id = a.id) {s' : State} (h : s.Counts b s') :
    s.Counts a s' := by
  cases h with
  | merged rest count hbox =>
      have heq : s.merge b rest count 1 = s.merge a rest count 1 := by rw [merge, merge, hid]
      rw [heq]
      exact .merged rest count (hid ▸ hbox)
  | appended hroom =>
      have heq : s.append b [.coalesced 1] = s.append a [.coalesced 1] := by
        rw [append, append, hid]
      rw [heq]
      exact .appended (hid ▸ hroom)
  | overflowed hfull =>
      have heq : s.overflow b [] = s.overflow a [] := by rw [overflow, overflow, hid]
      rw [heq]
      exact .overflowed (hid ▸ hfull)

lemma status_counts (ha : s.active = some a) : s.Counts a (s.status (.coalesced 1)) := by
  unfold status
  split
  · rename_i hb
    cases hb.symm.trans ha
  rename_i b hb
  cases hb.symm.trans ha
  dsimp only
  split
  · rename_i merged hm
    obtain ⟨x, hx, hmerge⟩ := Option.bind_eq_some_iff.mp hm
    obtain ⟨count, d, rfl, hd, rfl⟩ := mergeCoalesced_eq_some hmerge
    cases hd
    exact .merged (s.mailboxes a.id).dropLast count (List.dropLast_append_getLast? _ hx).symm
  · split_ifs with hfull
    · exact .overflowed hfull
    · exact .appended (by omega)

/-- **Statuses of works that leave the queue**: they reach the mailbox, with this queue
behind them, or it overflows on the way and at most `kept` stays queued. -/
inductive Posts (s : State) (a : Active) (statuses : List Status) (queue kept : List Work) :
    State → Prop
  | appended : (statuses ≠ [] →
        (s.mailboxes a.id).length + statuses.length ≤ s.mailboxCapacity) →
      Posts s a statuses queue kept (({ s with queue } : State).append a statuses)
  | overflowed (rest : List Work) : rest <+: kept →
      s.mailboxCapacity < (s.mailboxes a.id).length + statuses.length →
      Posts s a statuses queue kept (s.overflow a rest)

/-- Only the id of the controller matters. -/
lemma Posts.of_id {b : Active} (hid : b.id = a.id) {statuses : List Status}
    {queue kept : List Work} {s' : State} (h : s.Posts b statuses queue kept s') :
    s.Posts a statuses queue kept s' := by
  cases h with
  | appended hfit =>
      have heq : ({ s with queue } : State).append b statuses =
          ({ s with queue } : State).append a statuses := by
        rw [append, append, hid]
      rw [heq]
      exact .appended (hid ▸ hfit)
  | overflowed rest hrest hfull =>
      have heq : s.overflow b rest = s.overflow a rest := by
        rw [overflow, overflow, hid]
      rw [heq]
      exact .overflowed rest hrest (hid ▸ hfull)

/-- One status. -/
lemma status_posts (ha : s.active = some a) (st : Status) (h : st.isCoalesced = false) :
    s.Posts a [st] s.queue [] (s.status st) := by
  rw [status_eq ha h]
  split_ifs with hfull
  · exact .overflowed [] List.nil_prefix (by simp only [List.length_singleton]; omega)
  · exact .appended fun _ => by simp only [List.length_singleton]; omega

/-- A status, then the statuses of the works behind it. -/
lemma Posts.cons {st : Status} {statuses : List Status} {rest queue kept : List Work} {s' : State}
    (hroom : (s.mailboxes a.id).length < s.mailboxCapacity)
    (h : (({ s with queue := rest } : State).append a [st]).Posts a statuses queue kept s') :
    s.Posts a (st :: statuses) queue kept s' := by
  have hlen : (((({ s with queue := rest } : State).append a [st]).mailboxes a.id)).length =
      (s.mailboxes a.id).length + 1 := by
    simp [append]
  cases h with
  | appended hfit =>
      have heq : ({ (({ s with queue := rest } : State).append a [st]) with queue } : State).append a
          statuses = ({ s with queue } : State).append a (st :: statuses) := by
        simp [append]
      rw [heq]
      refine .appended fun _ => ?_
      rw [hlen] at hfit
      by_cases hnil : statuses = []
      · subst hnil
        simp only [List.length_singleton]
        omega
      · have hfit : (s.mailboxes a.id).length + 1 + statuses.length ≤ s.mailboxCapacity := hfit hnil
        simp only [List.length_cons]
        omega
  | overflowed tail htail hfull =>
      have heq : (({ s with queue := rest } : State).append a [st]).overflow a tail =
          s.overflow a tail := by
        simp [append, overflow]
      rw [heq]
      refine .overflowed tail htail ?_
      rw [hlen] at hfull
      have hfull : s.mailboxCapacity < (s.mailboxes a.id).length + 1 + statuses.length := hfull
      simp only [List.length_cons]
      omega

/-! ### Barriers -/

/-- The statuses of cancelled works. -/
def rejections (works : List Work) : List Status :=
  works.map fun w => .rejected w.sequence .stale

lemma cancelQueue_nil {scope : Scope} {n : ℕ} {keep : List Work} (h : s.queue = []) :
    cancelQueue scope n s keep = { s with queue := keep } := by
  cases n with
  | zero => rfl
  | succ n => rw [cancelQueue, h]

/-- No status. -/
lemma Posts.silent (s : State) (a : Active) (queue kept : List Work) :
    s.Posts a [] queue kept { s with queue } := by
  have heq : ({ s with queue } : State).append a [] = { s with queue } := by
    simp [append]
  have happ : s.Posts a [] queue kept (({ s with queue } : State).append a []) :=
    .appended fun h0 => absurd rfl h0
  rwa [heq] at happ

lemma Posts.requeue {rest queue kept : List Work} {statuses : List Status} {s' : State}
    (h : ({ s with queue := rest } : State).Posts a statuses queue kept s') :
    s.Posts a statuses queue kept s' := by
  cases h with
  | appended hfit => exact .appended hfit
  | overflowed tail htail hfull => exact .overflowed tail htail hfull

/-- The loop of `cancel`. -/
lemma cancelQueue_posts {scope : Scope} {n : ℕ} (keep : List Work) (ha : s.active = some a)
    (hn : s.queue.length ≤ n) :
    s.Posts a (rejections (s.queue.filter scope.drops))
      (keep ++ s.queue.filter fun w => !scope.drops w)
      (keep ++ s.queue.filter fun w => !scope.drops w) (cancelQueue scope n s keep) := by
  induction n generalizing s keep with
  | zero =>
      have hq : s.queue = [] := List.length_eq_zero_iff.mp (by omega)
      rw [cancelQueue_nil hq, hq]
      simpa [rejections] using Posts.silent s a keep keep
  | succ n ih =>
      cases hq : s.queue with
      | nil =>
          rw [cancelQueue_nil hq]
          simpa [rejections] using Posts.silent s a keep keep
      | cons w rest =>
          rw [hq, List.length_cons] at hn
          rw [cancelQueue]
          simp only [hq]
          have hrest : ({ s with queue := rest } : State).active = some a := ha
          by_cases hd : scope.drops w = true
          · have hst : ({ s with queue := rest } : State).status (.rejected w.sequence .stale) =
                if s.mailboxCapacity ≤ (s.mailboxes a.id).length then s.overflow a []
                else ({ s with queue := rest } : State).append a [.rejected w.sequence .stale] :=
              status_eq hrest rfl
            rw [if_pos hd, List.filter_cons_of_pos hd,
              List.filter_cons_of_neg (by simpa using hd), hst]
            by_cases hfull : s.mailboxCapacity ≤ (s.mailboxes a.id).length
            · rw [if_pos hfull, cancelQueue_nil rfl]
              refine .overflowed keep (List.prefix_append _ _) ?_
              simp only [rejections, List.map_cons, List.length_cons]
              omega
            · rw [if_neg hfull]
              exact Posts.cons (by omega) (ih keep ha (by simpa [append] using hn))
          · have hkeep : s.Posts a (rejections (rest.filter scope.drops))
                ((keep ++ [w]) ++ rest.filter fun w => !scope.drops w)
                ((keep ++ [w]) ++ rest.filter fun w => !scope.drops w)
                (cancelQueue scope n { s with queue := rest } (keep ++ [w])) :=
              (ih (keep ++ [w]) hrest (by simpa using hn)).requeue
            rw [if_neg hd, List.filter_cons_of_neg hd,
              List.filter_cons_of_pos (by simpa using hd)]
            rwa [List.append_assoc, List.singleton_append] at hkeep

/-- The barrier that a cancellation sets, with the one it finds merged in. -/
def barred (s : State) (scope : Scope) (reason : Reason) (ending : Bool) : Barrier where
  scope := if s.barrier.any (·.scope == .all) || ending then .all else scope
  reason := match s.barrier with
    | some b => if b.ending then b.reason else reason
    | none => reason
  ending := ending || s.barrier.any (·.ending)

/-- **What a cancellation does**: nothing without a controller or when the cleanup in
flight ends it anyway; otherwise it sets a barrier and rejects what the barrier drops. -/
inductive Cancels (s : State) (scope : Scope) (reason : Reason) (ending : Bool) : State → Prop
  | inactive : s.active = none → Cancels s scope reason ending s
  | sufficed (a : Active) : s.active = some a → s.flight.any (·.ending) = true →
      Cancels s scope reason ending s
  | barred (a : Active) (s' : State) : s.active = some a → s.flight.any (·.ending) = false →
      ({ s with barrier := some (s.barred scope reason ending) } : State).Posts a
        (rejections (s.queue.filter (s.barred scope reason ending).scope.drops))
        (s.queue.filter fun w => !(s.barred scope reason ending).scope.drops w)
        (s.queue.filter fun w => !(s.barred scope reason ending).scope.drops w) s' →
      Cancels s scope reason ending s'

lemma cancel_eq (ha : s.active = some a) (hf : s.flight.any (·.ending) = false) (scope : Scope)
    (reason : Reason) (ending : Bool) :
    s.cancel scope reason ending = cancelQueue (s.barred scope reason ending).scope s.queue.length
      { s with barrier := some (s.barred scope reason ending) } [] := by
  simp only [cancel, ha, hf, Option.isNone_some, Bool.false_eq_true, if_false, Bool.or_false]
  rfl

lemma cancels_cancel (s : State) (scope : Scope) (reason : Reason) (ending : Bool) :
    s.Cancels scope reason ending (s.cancel scope reason ending) := by
  cases ha : s.active with
  | none =>
      have heq : s.cancel scope reason ending = s := by rw [cancel, if_pos (by rw [ha]; rfl)]
      rw [heq]
      exact .inactive ha
  | some a =>
      cases hf : s.flight.any (·.ending) with
      | true =>
          have heq : s.cancel scope reason ending = s := by
            simp only [cancel, ha, hf, Option.isNone_some, Bool.false_eq_true, if_false, if_true]
          rw [heq]
          exact .sufficed a ha hf
      | false =>
          refine .barred a _ ha hf ?_
          rw [cancel_eq ha hf]
          exact cancelQueue_posts [] ha le_rfl

/-! ### The queue -/

/-- What `next` posts for a work that it does not dispatch. -/
def refusal (s : State) (w : Work) : Option Status :=
  match s.bind w with
  | .ok (some _) => none
  | .ok none => some (.completed w.sequence .executed)
  | .error e => some (.rejected w.sequence e)

/-- **What `next` does with the queue**: it settles a prefix of it, and dispatches the
work behind that, or finds none, or the mailbox overflows. -/
inductive Dispatches (s : State) (a : Active) : State → Option Work → Prop
  | refused (pre rest : List Work) (s' : State) : s.queue = pre ++ rest →
      (∀ w ∈ pre, s.refusal w ≠ none) → s.Posts a (pre.filterMap s.refusal) rest [] s' →
      rest = [] ∨ s'.barrier.isSome → Dispatches s a s' none
  | dispatched (pre : List Work) (w bound : Work) (rest : List Work) :
      s.queue = pre ++ w :: rest → (∀ w ∈ pre, s.refusal w ≠ none) →
      s.bind w = .ok (some bound) →
      ((s.mailboxes a.id).length + (pre.filterMap s.refusal).length ≤ s.mailboxCapacity ∨
        pre = []) →
      Dispatches s a
        { ({ s with queue := rest } : State).append a (pre.filterMap s.refusal) with
          flight := some ⟨bound, false⟩ } (some bound)


lemma refusal_requeue (s : State) (queue : List Work) (a : Active) (statuses : List Status) :
    (({ s with queue } : State).append a statuses).refusal = s.refusal := rfl

/-- A settled work in front. -/
lemma Dispatches.cons {w : Work} {rest : List Work} {st : Status} {s' : State} {r : Option Work}
    (hq : s.queue = w :: rest) (hw : s.refusal w = some st)
    (hroom : (s.mailboxes a.id).length < s.mailboxCapacity)
    (h : (({ s with queue := rest } : State).append a [st]).Dispatches a s' r) :
    s.Dispatches a s' r := by
  have hpre : ∀ pre : List Work, (∀ x ∈ pre, s.refusal x ≠ none) →
      ∀ x ∈ w :: pre, s.refusal x ≠ none := by
    intro pre hpre x hx
    rcases List.mem_cons.mp hx with rfl | hx
    · rw [hw]
      exact Option.some_ne_none st
    · exact hpre x hx
  cases h with
  | refused pre tail s' hrest href hposts hend =>
      rw [refusal_requeue] at href hposts
      have hrest : rest = pre ++ tail := hrest
      refine .refused (w :: pre) tail s' (by rw [hq, hrest]; rfl) (hpre pre href) ?_ hend
      rw [List.filterMap_cons_some hw]
      exact hposts.cons hroom
  | dispatched pre v bound tail hrest href hbind hfit =>
      rw [refusal_requeue] at href hfit ⊢
      have hrest : rest = pre ++ v :: tail := hrest
      have heq : ({ (({ s with queue := rest } : State).append a [st]) with queue := tail } :
          State).append a (pre.filterMap s.refusal) =
          ({ s with queue := tail } : State).append a ((w :: pre).filterMap s.refusal) := by
        rw [List.filterMap_cons_some hw]
        simp [append]
      rw [heq]
      refine .dispatched (w :: pre) v bound tail (by rw [hq, hrest]; rfl) (hpre pre href) hbind
        (Or.inl ?_)
      rw [List.filterMap_cons_some hw, List.length_cons]
      have hlen : ((({ s with queue := rest } : State).append a [st]).mailboxes a.id).length =
          (s.mailboxes a.id).length + 1 := by
        simp [append]
      rcases hfit with hfit | rfl
      · rw [hlen] at hfit
        have hfit : (s.mailboxes a.id).length + 1 + (pre.filterMap s.refusal).length ≤
          s.mailboxCapacity := hfit
        omega
      · simp only [List.filterMap_nil, List.length_nil]
        omega

lemma dispatches_nil (hq : s.queue = []) : s.Dispatches a s none := by
  refine .refused [] [] s hq (by simp) ?_ (Or.inl rfl)
  have hposts : s.Posts a [] s.queue [] s := Posts.silent s a s.queue []
  rwa [hq] at hposts

/-- The loop of `next`. -/
lemma dispatches_dispatch {n : ℕ} (ha : s.active = some a) (hb : s.barrier = none)
    (hn : s.queue.length ≤ n) : s.Dispatches a (dispatch n s).1 (dispatch n s).2 := by
  induction n generalizing s with
  | zero => exact dispatches_nil (List.length_eq_zero_iff.mp (by omega))
  | succ n ih =>
      rw [dispatch]
      cases hq : s.queue with
      | nil => exact dispatches_nil hq
      | cons w rest =>
          rw [hq, List.length_cons] at hn
          have hrest : ({ s with queue := rest } : State).active = some a := ha
          -- the work is settled: the loop ends with an overflow, or goes on
          have settled : ∀ st, st.isCoalesced = false → s.refusal w = some st →
              let t := ({ s with queue := rest } : State).status st
              s.Dispatches a (if t.barrier.isSome then (t, none) else dispatch n t).1
                (if t.barrier.isSome then (t, none) else dispatch n t).2 := by
            intro st hst href
            have heq : ({ s with queue := rest } : State).status st =
                if s.mailboxCapacity ≤ (s.mailboxes a.id).length then s.overflow a []
                else ({ s with queue := rest } : State).append a [st] := status_eq hrest hst
            dsimp only
            rw [heq]
            by_cases hfull : s.mailboxCapacity ≤ (s.mailboxes a.id).length
            · rw [if_pos hfull]
              refine .refused [w] rest _ hq (by simp [href]) ?_ (Or.inr rfl)
              refine .overflowed [] List.nil_prefix ?_
              rw [List.filterMap_cons_some href]
              simp only [List.length_cons]
              omega
            · have hnone : ((({ s with queue := rest } : State).append a [st]).barrier).isSome =
                  false := by
                rw [append, hb]
                rfl
              rw [if_neg hfull, hnone]
              exact Dispatches.cons hq href (by omega) (ih ha hb (by simpa [append] using hn))
          have hbind : ({ s with queue := rest } : State).bind w = s.bind w := rfl
          dsimp only
          rw [hbind]
          cases hw : s.bind w with
          | error e => exact settled _ rfl (by rw [refusal, hw])
          | ok bound =>
              cases bound with
              | none => exact settled _ rfl (by rw [refusal, hw])
              | some bound =>
                  have hdisp := Dispatches.dispatched (s := s) (a := a) [] w bound rest hq
                    (by simp) hw (Or.inr rfl)
                  have heq : ({ s with queue := rest } : State).append a [] =
                      { s with queue := rest } := by
                    simp [append]
                  rw [List.filterMap_nil, heq] at hdisp
                  exact hdisp

end State

/-! ### Validation -/

/-- What validation can object to. -/
def Error.OfEvent (e : Error) : Prop := e = .invalid ∨ e = .unsupported ∨ e = .stale

lemma ofEvent_of_position {c : Config} {p : Position} {err : Error}
    (h : position c p = .error err) : err.OfEvent := by
  rw [position] at h
  split_ifs at h
  · cases h
    exact Or.inr (Or.inr rfl)
  · cases h
    exact Or.inl rfl

lemma ofEvent_of_validateEvent {c : Config} {mode : Mode} {e : Event} {err : Error}
    (h : validateEvent c mode e = .error err) : err.OfEvent := by
  have invalid : (.error .invalid : Except Error (Option UInt32)) = .error err → err.OfEvent := by
    intro h0
    cases h0
    exact Or.inl rfl
  have checked : ∀ (p : Position) (x : Option UInt32),
      (do position c p; return x : Except Error (Option UInt32)) = .error err → err.OfEvent := by
    intro p x h0
    cases hp : position c p with
    | error err' =>
        rw [hp] at h0
        cases h0
        exact ofEvent_of_position hp
    | ok u =>
        rw [hp] at h0
        cases h0
  cases e with
  | key press action k modifiers =>
      rw [validateEvent.eq_def] at h
      dsimp only at h
      split at h
      · exact invalid h
      split at h
      · cases h
        exact Or.inr (Or.inl rfl)
      split at h
      · exact invalid h
      split at h
      · cases h
      cases k with
      | physical name =>
          dsimp only at h
          split at h
          · cases h
          · exact invalid h
      | logical name => cases h
  | text t =>
      rw [validateEvent] at h
      split at h
      · exact invalid h
      · cases h
  | motion p => exact checked p _ h
  | button button action p =>
      rw [validateEvent] at h
      split at h
      · exact invalid h
      · split at h
        · exact checked p _ h
        · cases h
  | scroll x y unit phase momentumPhase invertedFromDevice p =>
      rw [validateEvent] at h
      split at h
      · exact invalid h
      · exact checked p _ h

/-- Whether an event is valid is a matter of the event. -/
lemma ofEvent_of_validate {c : Config} {mode : Mode} {e : Event} {err : Error}
    (h : validate c mode e = .error err) : err.OfEvent := by
  rw [validate] at h
  cases hv : validateEvent c mode e with
  | error err' =>
      rw [hv] at h
      cases h
      exact ofEvent_of_validateEvent hv
  | ok x =>
      rw [hv] at h
      cases x with
      | none => cases h
      | some capability =>
          have h : (if c.capabilities &&& capability = 0 then Except.error Error.unsupported
            else .ok ()) = .error err := h
          split_ifs at h
          cases h
          exact Or.inr (Or.inl rfl)

lemma Error.OfEvent.ne {e e' : Error} (h : e.OfEvent) (h' : e' = .busy ∨ e' = .overflow) :
    e ≠ e' := by
  rintro rfl
  rcases h' with rfl | rfl <;> rcases h with h | h | h <;> cases h

/-! ### Calls -/

/-- `State::apply` on the controller. -/
def Active.apply (a : Active) : Event → Active
  | .key press .down key _ => { a with keys := a.keys.insert press key }
  | .key press .up _ _ => { a with keys := a.keys.erase press }
  | .button button .down _ => { a with buttons := insert button a.buttons }
  | .button button .up _ => { a with buttons := a.buttons.erase button }
  | _ => a

/-- What an executed cleanup leaves of the controller. -/
def Active.release (a : Active) (scope : Scope) : Active :=
  { a with
    buttons := ∅
    scrollOpen := false
    keys := if scope = .all then ∅ else a.keys }

/-- `complete` calls for the end of the controller. -/
def Outcome.Ends (outcome : Outcome) : Prop := outcome = .partially ∨ outcome = .uncertain

namespace State

/-- What flies or waits belongs to a controller that is there. -/
structure Linked (s : State) : Prop where
  flight : s.flight.isSome → s.active.isSome
  queue : s.queue ≠ [] → s.active.isSome

/-- A submission of a valid event that the gate, the epoch and the barrier let in. -/
structure Ready (s : State) (c : Controller) (epoch sequence : UInt64) (event : Event)
    (a : Active) : Prop where
  active : s.active = some a
  id : a.id = c.id
  sequence : a.lastSequence < sequence
  epoch : epoch = a.epoch
  barrier : s.barrier = none
  cleaning : s.cleaning = false
  valid : validate s.config a.mode event = .ok ()
  gate : event.scrollContinuation = true → a.scrollOpen = true ∨ event.scrollStart = true

/-- What a refused submission has met. -/
def Refusal (s : State) (a : Active) (epoch : UInt64) (event : Event) : Error → Prop
  | .stale => epoch ≠ a.epoch ∨
      epoch = a.epoch ∧ s.barrier = none ∧ s.cleaning = false ∧
        (validate s.config a.mode event = .error .stale ∨
          validate s.config a.mode event = .ok () ∧ a.scrollOpen = false ∧
            event.scrollStart = false ∧ event.scrollContinuation = true)
  | .busy => epoch = a.epoch ∧ (s.barrier.isSome ∨ s.cleaning = true)
  | e => epoch = a.epoch ∧ s.barrier = none ∧ s.cleaning = false ∧
      validate s.config a.mode event = .error e

/-- A call that returns without having done anything. -/
def Idles (s : State) : Call → Reply → Prop
  | .admitController _ _, r => ∃ e, r = .error e
  | .next _, r => r = .work none ∧ (s.flight.isSome ∨ s.barrier = none ∧ s.queue = [])
  | .complete id _, r => r = .error .invalid ∧ ∀ f, s.flight = some f → f.work.id ≠ id
  | .setGeometry _, r => r = .error .invalid
  | .tick _, r => r = .done
  | .resolveFailedCleanup, r => r = .error .invalid
  | .heartbeat _ _, r => r = .error .closed
  | .submit c _ _ sequence _, r =>
      r = .error .closed ∧ (∀ a, s.active = some a → a.id ≠ c.id) ∨
        r = .error .invalid ∧ ∃ a, s.active = some a ∧ a.id = c.id ∧
          (sequence = 0 ∨ sequence ≤ a.lastSequence)
  | .reset c, r => r = .error .closed ∧ ∀ a, s.active = some a → a.id ≠ c.id
  | .close c, r => r = .done ∧ ∀ a, s.active = some a → a.id ≠ c.id
  | .drop c, r => r = .done ∧ ∀ a, s.active = some a → a.id ≠ c.id
  | .poll _, _ => False

/-- **What a call does**, once the expiry check in front of it is done. -/
inductive Acts (s : State) : Call → Reply → State → Prop
  | idle (l : Call) (r : Reply) : s.Idles l r → Acts s l r s
  /-- the target -/
  | admitted (mode : Mode) (now : ℕ) (id : UInt64) : s.failed = false → s.active = none →
      s.config.modes &&& mode.bit ≠ 0 → id.toNat = s.nextController.toNat + 1 →
      Acts s (.admitController mode now) (.admitted ⟨id, mode⟩) { s with
        nextController := id
        active := some
          { id
            mode
            epoch := 1
            lastSequence := 0
            lastSeen := now
            keys := ∅
            buttons := ∅
            scrollOpen := false }
        mailboxes := Function.update s.mailboxes id [] }
  | cleanup (now : ℕ) (b : Barrier) (a : Active) (work : Work) : s.flight = none →
      s.barrier = some b → s.active = some a →
      work = ⟨a.mode, s.nextWork + 1, a.id, a.epoch, 0, .cleanup b.scope b.reason⟩ →
      Acts s (.next now) (.work (some work)) { s with
        barrier := none
        nextWork := s.nextWork + 1
        flight := some ⟨work, b.ending⟩ }
  | discarded (now : ℕ) : s.active = none → s.flight = none → s.barrier.isSome →
      Acts s (.next now) (.work none) { s with barrier := none }
  | dispatched (now : ℕ) (a : Active) (r : Option Work) (s' : State) : s.active = some a →
      s.flight = none → s.barrier = none → s.Dispatches a s' r →
      Acts s (.next now) (.work r) s'
  | completed (f : Flight) (event : Event) (outcome : Outcome) (a : Active) (mid s' : State) :
      s.flight = some f → f.work.operation = .event event → s.active = some a →
      ({ s with
        flight := none
        active := some (if outcome = .executed then a.apply event else a) } : State).Posts a
          [.completed f.work.sequence outcome] s.queue [] mid →
      (¬ outcome.Ends → s' = mid) → (outcome.Ends → mid.Cancels .all .execution true s') →
      Acts s (.complete f.work.id outcome) .done s'
  | cleanupFailed (f : Flight) (scope : Scope) (reason : Reason) (outcome : Outcome) (a : Active)
      (mid : State) : s.flight = some f → f.work.operation = .cleanup scope reason →
      s.active = some a → outcome ≠ .executed →
      ({ s with flight := none, failed := true, queue := [], barrier := none } : State).Posts a
        [.closed reason false] [] [] mid →
      Acts s (.complete f.work.id outcome) (.error .cleanupFailed) { mid with active := none }
  | cleanupEnded (f : Flight) (scope : Scope) (reason : Reason) (a : Active) (mid : State) :
      s.flight = some f → f.work.operation = .cleanup scope reason → s.active = some a →
      f.ending = true →
      ({ s with flight := none, active := some (a.release scope) } : State).Posts a
        [.closed reason true] s.queue [] mid →
      Acts s (.complete f.work.id .executed) .done
        { mid with active := none, barrier := none, queue := [] }
  | cleanupRenewed (f : Flight) (scope : Scope) (reason : Reason) (a : Active) (s' : State) :
      s.flight = some f → f.work.operation = .cleanup scope reason → s.active = some a →
      f.ending = false → s.barrier = none →
      ({ s with
        flight := none
        active := some { a.release scope with epoch := a.epoch + 1 }
        queue := s.queue.map fun w => { w with epoch := a.epoch + 1 } } : State).Posts a
          [.reset (a.epoch + 1) s.config.geometry]
          (s.queue.map fun w => { w with epoch := a.epoch + 1 }) [] s' →
      Acts s (.complete f.work.id .executed) .done s'
  | cleanupBarred (f : Flight) (scope : Scope) (reason : Reason) (a : Active) :
      s.flight = some f → f.work.operation = .cleanup scope reason → s.active = some a →
      f.ending = false → s.barrier.isSome →
      Acts s (.complete f.work.id .executed) .done
        { s with flight := none, active := some (a.release scope) }
  | geometry (geometry : Geometry) (s' : State) : geometry.valid = true →
      s.config.geometry.revision < geometry.revision →
      ({ s with config := { s.config with geometry } } : State).Cancels .pointer .geometry false
        s' → Acts s (.setGeometry geometry) .done s'
  | resolved : s.failed = true → s.flight = none →
      Acts s .resolveFailedCleanup .done { s with failed := false }
  /-- the controller -/
  | heartbeat (c : Controller) (now : ℕ) (a : Active) : s.active = some a → a.id = c.id →
      Acts s (.heartbeat c now) .done { s with active := some { a with lastSeen := now } }
  | refused (c : Controller) (now : ℕ) (epoch sequence : UInt64) (event : Event) (a : Active)
      (e : Error) : s.active = some a → a.id = c.id → a.lastSequence < sequence →
      s.Refusal a epoch event e →
      Acts s (.submit c now epoch sequence event) (.error e)
        { s with active := some { a with lastSequence := sequence } }
  | superseded (c : Controller) (now : ℕ) (epoch sequence : UInt64) (event : Event) (a : Active)
      (front : List Work) (tail : Work) (motion : Event) (s' : State) :
      s.Ready c epoch sequence event a → event.isMotion = true → s.queue = front ++ [tail] →
      tail.operation = .event motion → motion.isMotion = true →
      ({ s with
        active := some { a with lastSequence := sequence }
        queue := front ++ [{ tail with sequence, operation := .event event }] } : State).Counts a
          s' →
      Acts s (.submit c now epoch sequence event) .done s'
  | overflowed (c : Controller) (now : ℕ) (epoch sequence : UInt64) (event : Event) (a : Active)
      (s' : State) : s.Ready c epoch sequence event a →
      s.config.maxEvents ≤ s.queue.length + s.flight.toList.length ∨
        s.config.maxBytes < s.charged + event.bytes →
      ({ s with active := some { a with lastSequence := sequence } } : State).Cancels .all .overflow
        true s' → Acts s (.submit c now epoch sequence event) (.error .overflow) s'
  | accepted (c : Controller) (now : ℕ) (epoch sequence : UInt64) (event : Event) (a : Active) :
      s.Ready c epoch sequence event a → (event.isMotion = true → s.motionTail = false) →
      s.queue.length + s.flight.toList.length < s.config.maxEvents →
      s.charged + event.bytes ≤ s.config.maxBytes →
      Acts s (.submit c now epoch sequence event) .done { s with
        active := some { a with
          lastSequence := sequence
          scrollOpen := a.scrollOpen || event.scrollStart }
        nextWork := s.nextWork + 1
        queue := s.queue ++ [⟨c.mode, s.nextWork + 1, c.id, epoch, sequence, .event event⟩] }
  | reset (c : Controller) (a : Active) (s' : State) : s.active = some a → a.id = c.id →
      s.Cancels .all .focus false s' → Acts s (.reset c) .done s'
  | close (l : Call) (c : Controller) (a : Active) (s' : State) : l = .close c ∨ l = .drop c →
      s.active = some a → a.id = c.id → s.Cancels .all .disconnect true s' → Acts s l .done s'
  | polled (c : Controller) : Acts s (.poll c) (.status (s.mailboxes c.id).head?) { s with
        mailboxes := Function.update s.mailboxes c.id (s.mailboxes c.id).tail }

/-- The state in which a call finds the target, after the expiry check of the calls that
make one. -/
def timed (s : State) : Call → State
  | .next now => s.expire now
  | .tick now => s.expire now
  | .heartbeat _ now => s.expire now
  | .submit _ now _ _ _ => s.expire now
  | _ => s

variable {s : State} {a : Active}

lemma apply_eq (ha : s.active = some a) (event : Event) :
    s.apply event = { s with active := some (a.apply event) } := by
  obtain ⟨config, nextController, nextWork, active, queue, flight, barrier, failed, mailboxes,
    overflowed⟩ := s
  cases ha
  rcases event with ⟨press, _ | _ | _, key, modifiers⟩ | _ | _ | ⟨button, _ | _ | _, p⟩ | _ <;> rfl

lemma acts_admitController (mode : Mode) (now : ℕ) :
    s.Acts (.admitController mode now) (s.call (.admitController mode now)).2
      (s.call (.admitController mode now)).1 := by
  have refused : ∀ e, s.admitController mode now = (s, .error e) →
      s.Acts (.admitController mode now) (s.call (.admitController mode now)).2
        (s.call (.admitController mode now)).1 := by
    intro e he
    simp only [call, he]
    exact .idle _ _ ⟨e, rfl⟩
  by_cases hfail : s.failed = true
  · exact refused _ (by rw [admitController, if_pos hfail])
  by_cases hact : s.active.isSome = true
  · exact refused _ (by rw [admitController, if_neg hfail, if_pos hact])
  by_cases hmode : s.config.modes &&& mode.bit = 0
  · exact refused _ (by rw [admitController, if_neg hfail, if_neg hact, if_pos hmode])
  by_cases hid : s.nextController.toNat + 1 < 2 ^ 64
  · simp only [call, admitController, if_neg hfail, if_neg hact, if_neg hmode, if_pos hid]
    refine .admitted mode now _ (by simpa using hfail) (by simpa using hact) hmode ?_
    rw [UInt64.toNat_add]
    exact Nat.mod_eq_of_lt hid
  · exact refused _ (by rw [admitController, if_neg hfail, if_neg hact, if_neg hmode, if_neg hid])

lemma acts_next {now : ℕ} (h : (s.expire now).Linked) :
    (s.expire now).Acts (.next now) (s.call (.next now)).2 (s.call (.next now)).1 := by
  simp only [call, next]
  generalize s.expire now = s at h ⊢
  obtain ⟨config, nextController, nextWork, active, queue, flight, barrier, failed, mailboxes,
    overflowed⟩ := s
  cases flight with
  | some f => exact .idle _ _ ⟨rfl, Or.inl rfl⟩
  | none =>
      cases barrier with
      | some b =>
          cases active with
          | none => exact .discarded now rfl rfl rfl
          | some a => exact .cleanup now b a _ rfl rfl rfl rfl
      | none =>
          cases active with
          | none =>
              have hq : queue = [] := by
                by_contra hne
                exact absurd (h.queue hne) (by simp)
              subst hq
              exact .idle _ _ ⟨rfl, Or.inr ⟨rfl, rfl⟩⟩
          | some a => exact .dispatched now a _ _ rfl rfl rfl (dispatches_dispatch rfl rfl le_rfl)

lemma acts_complete (h : s.Linked) (id : UInt64) (outcome : Outcome) :
    s.Acts (.complete id outcome) (s.call (.complete id outcome)).2
      (s.call (.complete id outcome)).1 := by
  obtain ⟨config, nextController, nextWork, active, queue, flight, barrier, failed, mailboxes,
    overflowed⟩ := s
  cases flight with
  | none => exact .idle _ _ ⟨rfl, fun f h0 => by cases h0⟩
  | some f =>
      simp only [call, complete]
      by_cases hid : f.work.id = id
      swap
      · simp only [ne_eq, hid, not_false_eq_true, if_true]
        refine .idle _ _ ⟨rfl, fun g hg => ?_⟩
        cases hg
        exact hid
      subst hid
      obtain ⟨a, ha⟩ := Option.isSome_iff_exists.mp (h.flight rfl)
      cases ha
      simp only [ne_eq, not_true_eq_false, if_false]
      cases hop : f.work.operation with
      | event event =>
          have hid : (if outcome = .executed then a.apply event else a).id = a.id := by
            split_ifs
            · rcases event with ⟨press, _ | _ | _, key, modifiers⟩ | _ | _ |
                ⟨button, _ | _ | _, p⟩ | _ <;> rfl
            · rfl
          have happ : (if outcome = .executed then
              (⟨config, nextController, nextWork, some a, queue, none, barrier, failed, mailboxes,
                overflowed⟩ : State).apply event
              else ⟨config, nextController, nextWork, some a, queue, none, barrier, failed, mailboxes,
                overflowed⟩) =
              (⟨config, nextController, nextWork,
                some (if outcome = .executed then a.apply event else a), queue, none, barrier, failed,
                mailboxes, overflowed⟩ : State) := by
            split_ifs
            · exact apply_eq rfl event
            · rfl
          dsimp only [completeEvent]
          rw [happ]
          have hposts := Posts.of_id hid (status_posts (s := ⟨config, nextController, nextWork,
            some (if outcome = .executed then a.apply event else a), queue, none, barrier, failed,
            mailboxes, overflowed⟩) rfl (.completed f.work.sequence outcome) rfl)
          by_cases ho : outcome = .partially ∨ outcome = .uncertain
          · rw [if_pos ho]
            exact .completed f event outcome a _ _ rfl hop rfl hposts (fun hn => absurd ho hn)
              (fun _ => cancels_cancel _ _ _ _)
          · rw [if_neg ho]
            exact .completed f event outcome a _ _ rfl hop rfl hposts (fun _ => rfl)
              (fun hn => absurd hn ho)
      | cleanup scope reason =>
          simp only [completeCleanup]
          by_cases ho : outcome = .executed
          · subst ho
            simp only [ne_eq, not_true_eq_false, if_false]
            by_cases hend : f.ending = true
            · simp only [hend, if_true]
              refine .cleanupEnded f scope reason a _ rfl hop rfl hend ?_
              have hid : (a.release scope).id = a.id := rfl
              refine Posts.of_id hid ?_
              exact status_posts rfl _ rfl
            · simp only [hend]
              cases barrier with
              | some b => exact .cleanupBarred f scope reason a rfl hop rfl (by simpa using hend) rfl
              | none =>
                  refine .cleanupRenewed f scope reason a _ rfl hop rfl (by simpa using hend) rfl ?_
                  have hid : ({ a.release scope with epoch := a.epoch + 1 } : Active).id = a.id := rfl
                  refine Posts.of_id hid ?_
                  exact status_posts rfl _ rfl
          · simp only [ne_eq, ho, not_false_eq_true, if_true]
            exact .cleanupFailed f scope reason outcome a _ rfl hop rfl ho
              (status_posts rfl (.closed reason false) rfl)

lemma acts_setGeometry (g : Geometry) :
    s.Acts (.setGeometry g) (s.call (.setGeometry g)).2 (s.call (.setGeometry g)).1 := by
  simp only [call, setGeometry]
  by_cases hg : g.valid = false ∨ g.revision ≤ s.config.geometry.revision
  · rw [if_pos hg]
    exact .idle _ _ rfl
  · rw [if_neg hg]
    rw [not_or] at hg
    refine .geometry g _ (by simpa using hg.1) (UInt64.not_le.mp hg.2) ?_
    dsimp only
    split_ifs with ha
    · exact cancels_cancel _ _ _ _
    · exact .inactive (by simpa using ha)

lemma acts_resolveFailedCleanup : s.Acts .resolveFailedCleanup (s.call .resolveFailedCleanup).2
    (s.call .resolveFailedCleanup).1 := by
  simp only [call, resolveFailedCleanup]
  by_cases h : s.failed = false ∨ s.flight.isSome = true
  · rw [if_pos h]
    exact .idle _ _ rfl
  · rw [if_neg h]
    rw [not_or] at h
    exact .resolved (by simpa using h.1) (by simpa using h.2)

lemma acts_heartbeat {c : Controller} {now : ℕ} :
    (s.expire now).Acts (.heartbeat c now) (s.call (.heartbeat c now)).2
      (s.call (.heartbeat c now)).1 := by
  simp only [call, heartbeat]
  generalize s.expire now = s
  cases ha : s.active with
  | none => exact .idle _ _ rfl
  | some a =>
      dsimp only
      by_cases hid : a.id = c.id
      · rw [if_neg (not_not.mpr hid)]
        exact .heartbeat c now a ha hid
      · rw [if_pos hid]
        exact .idle _ _ rfl

lemma acts_reset (c : Controller) :
    s.Acts (.reset c) (s.call (.reset c)).2 (s.call (.reset c)).1 := by
  simp only [call, reset]
  cases ha : s.active with
  | none => exact .idle _ _ ⟨rfl, fun a h => by rw [ha] at h; cases h⟩
  | some a =>
      rw [Option.any_some]
      by_cases hid : a.id = c.id
      · rw [if_pos (by simpa using hid)]
        exact .reset c a _ ha hid (cancels_cancel _ _ _ _)
      · rw [if_neg (by simpa using hid)]
        exact .idle _ _ ⟨rfl, fun b h => by cases ha.symm.trans h; exact hid⟩

lemma acts_close {l : Call} {c : Controller} (hl : l = .close c ∨ l = .drop c) :
    s.Acts l (s.call l).2 (s.call l).1 := by
  have hcall : s.call l = (s.close c, .done) := by
    rcases hl with rfl | rfl <;> rfl
  rw [hcall]
  dsimp only [close]
  cases ha : s.active with
  | none =>
      refine .idle _ _ ?_
      rcases hl with rfl | rfl <;> exact ⟨rfl, fun a h => by rw [ha] at h; cases h⟩
  | some a =>
      rw [Option.any_some]
      by_cases hid : a.id = c.id
      · rw [if_pos (by simpa using hid)]
        exact .close l c a _ hl ha hid (cancels_cancel _ _ _ _)
      · rw [if_neg (by simpa using hid)]
        refine .idle _ _ ?_
        rcases hl with rfl | rfl <;>
          exact ⟨rfl, fun b h => by cases ha.symm.trans h; exact hid⟩

/-- A submission that reaches the queue. -/
lemma acts_accept {c : Controller} {now : ℕ} {epoch sequence : UInt64} {event : Event}
    (h : s.Ready c epoch sequence event a) {t : State}
    (ht : t = { s with active := some { a with lastSequence := sequence } }) :
    s.Acts (.submit c now epoch sequence event)
      (.ofExcept (t.accept c { a with lastSequence := sequence } epoch sequence event).2)
      (t.accept c { a with lastSequence := sequence } epoch sequence event).1 := by
  have hsame : t.motionTail = s.motionTail ∧ t.queue = s.queue ∧ t.flight = s.flight ∧
      t.config = s.config ∧ t.charged = s.charged := by
    rw [ht]
    exact ⟨rfl, rfl, rfl, rfl, rfl⟩
  obtain ⟨hmt, hqueue, hflight, hconfig, hcharged⟩ := hsame
  rw [accept]
  by_cases hm : (event.isMotion && t.motionTail) = true
  · rw [if_pos hm]
    obtain ⟨hmot, htail⟩ := Bool.and_eq_true_iff.mp hm
    rw [motionTail, hqueue] at htail
    cases hlast : s.queue.getLast? with
    | none =>
        rw [hlast] at htail
        cases htail
    | some tail =>
        rw [hlast, Option.any_some] at htail
        have hq : s.queue = s.queue.dropLast ++ [tail] :=
          (List.dropLast_append_getLast? _ hlast).symm
        cases hwork : tail.operation with
        | cleanup scope reason =>
            rw [hwork] at htail
            cases htail
        | event motion =>
            rw [hwork] at htail
            rw [hqueue, hlast]
            subst ht
            refine .superseded c now epoch sequence event a s.queue.dropLast tail motion _ h hmot hq
              hwork htail (Counts.of_id (b := { a with lastSequence := sequence }) ?_ ?_)
            · rfl
            · exact status_counts rfl
  rw [if_neg hm]
  by_cases hfull : t.config.maxEvents ≤ t.queue.length + t.flight.toList.length ∨
      t.config.maxBytes < t.charged + event.bytes
  · rw [if_pos hfull]
    rw [hconfig, hqueue, hflight, hcharged] at hfull
    subst ht
    exact .overflowed c now epoch sequence event a _ h hfull (cancels_cancel _ _ _ _)
  · rw [if_neg hfull]
    rw [hconfig, hqueue, hflight, hcharged, not_or] at hfull
    subst ht
    refine .accepted c now epoch sequence event a h ?_ (by omega) (by omega)
    intro hmot
    rw [hmot, Bool.true_and, hmt] at hm
    simpa using hm

lemma acts_submit {c : Controller} {now : ℕ} {epoch sequence : UInt64} {event : Event} :
    (s.expire now).Acts (.submit c now epoch sequence event)
      (s.call (.submit c now epoch sequence event)).2
      (s.call (.submit c now epoch sequence event)).1 := by
  simp only [call, submit]
  generalize s.expire now = s
  cases ha : s.active with
  | none => exact .idle _ _ (Or.inl ⟨rfl, fun a h => by rw [ha] at h; cases h⟩)
  | some a =>
      dsimp only
      by_cases hid : a.id = c.id
      swap
      · rw [if_pos hid]
        exact .idle _ _ (Or.inl ⟨rfl, fun b h => by cases ha.symm.trans h; exact hid⟩)
      rw [if_neg (not_not.mpr hid)]
      by_cases hseq : sequence = 0 ∨ sequence ≤ a.lastSequence
      · rw [if_pos hseq]
        exact .idle _ _ (Or.inr ⟨rfl, a, ha, hid, hseq⟩)
      rw [if_neg hseq]
      have hlt : a.lastSequence < sequence := UInt64.not_le.mp (not_or.mp hseq).2
      have refuse : ∀ e, s.Refusal a epoch event e →
          s.Acts (.submit c now epoch sequence event) (.error e)
            { s with active := some { a with lastSequence := sequence } } :=
        fun e he => .refused c now epoch sequence event a e ha hid hlt he
      by_cases hep : epoch = a.epoch
      swap
      · rw [if_pos hep]
        exact refuse .stale (Or.inl hep)
      rw [if_neg (not_not.mpr hep)]
      have hclean : ({ s with active := some { a with lastSequence := sequence } } :
          State).cleaning = s.cleaning := rfl
      rw [hclean]
      by_cases hbar : (s.barrier.isSome || s.cleaning) = true
      · rw [if_pos hbar]
        exact refuse .busy ⟨hep, by simpa using hbar⟩
      rw [if_neg hbar]
      simp only [Bool.or_eq_true, not_or, Bool.not_eq_true, Option.isSome_eq_false_iff,
        Option.isNone_iff_eq_none] at hbar
      cases hval : validate s.config a.mode event with
      | error e =>
          cases e with
          | stale => exact refuse .stale (Or.inr ⟨hep, hbar.1, hbar.2, Or.inl hval⟩)
          | busy => exact absurd rfl ((ofEvent_of_validate hval).ne (Or.inl rfl))
          | _ => exact refuse _ ⟨hep, hbar.1, hbar.2, hval⟩
      | ok u =>
          dsimp only
          by_cases hgate : (!a.scrollOpen && !event.scrollStart && event.scrollContinuation) = true
          · rw [if_pos hgate]
            simp only [Bool.and_eq_true, Bool.not_eq_true'] at hgate
            exact refuse .stale (Or.inr ⟨hep, hbar.1, hbar.2, Or.inr ⟨hval, hgate.1.1, hgate.1.2,
              hgate.2⟩⟩)
          · rw [if_neg hgate]
            refine acts_accept ⟨ha, hid, hlt, hep, hbar.1, hbar.2, hval, fun hcont => ?_⟩ rfl
            simp only [hcont, Bool.and_true, Bool.and_eq_true, Bool.not_eq_true', not_and,
              Bool.not_eq_false] at hgate
            cases hopen : a.scrollOpen with
            | true => exact Or.inl rfl
            | false => exact Or.inr (hgate hopen)

/-- **The calls do nothing else.** -/
theorem acts_of_call (l : Call) (h : (s.timed l).Linked) :
    (s.timed l).Acts l (s.call l).2 (s.call l).1 := by
  cases l with
  | admitController mode now => exact acts_admitController mode now
  | next now => exact acts_next h
  | complete id outcome => exact acts_complete h id outcome
  | setGeometry g => exact acts_setGeometry g
  | tick now => exact .idle _ _ rfl
  | resolveFailedCleanup => exact acts_resolveFailedCleanup
  | heartbeat c now => exact acts_heartbeat
  | submit c now epoch sequence event => exact acts_submit
  | reset c => exact acts_reset c
  | close c => exact acts_close (Or.inl rfl)
  | drop c => exact acts_close (Or.inr rfl)
  | poll c => exact .polled c

/-! ### What stays -/

/-- Posting statuses and setting barriers leaves these alone. -/
structure Frame (s s' : State) : Prop where
  config : s'.config = s.config
  nextController : s'.nextController = s.nextController
  nextWork : s'.nextWork = s.nextWork
  active : s'.active = s.active
  flight : s'.flight = s.flight
  failed : s'.failed = s.failed

lemma Frame.refl (s : State) : s.Frame s := ⟨rfl, rfl, rfl, rfl, rfl, rfl⟩

lemma Posts.frame {statuses : List Status} {queue kept : List Work} {s' : State}
    (h : s.Posts a statuses queue kept s') : s.Frame s' := by
  cases h <;> exact ⟨rfl, rfl, rfl, rfl, rfl, rfl⟩

lemma Counts.frame {s' : State} (h : s.Counts a s') : s.Frame s' := by
  cases h <;> exact ⟨rfl, rfl, rfl, rfl, rfl, rfl⟩

/-- The queue that is left, or a prefix of what may stay in an overflow. -/
lemma Posts.queue {statuses : List Status} {queue kept : List Work} {s' : State}
    (h : s.Posts a statuses queue kept s') : s'.queue = queue ∨ s'.queue <+: kept := by
  cases h with
  | appended => exact Or.inl rfl
  | overflowed rest hrest => exact Or.inr hrest

lemma Posts.mailbox_of_ne {statuses : List Status} {queue kept : List Work} {s' : State}
    (h : s.Posts a statuses queue kept s') {c : UInt64} (hc : c ≠ a.id) :
    s'.mailboxes c = s.mailboxes c ∧ s'.overflowed c = s.overflowed c := by
  cases h with
  | appended => exact ⟨Function.update_of_ne hc _ _, rfl⟩
  | overflowed => exact ⟨Function.update_of_ne hc _ _, Function.update_of_ne hc _ _⟩

variable {scope : Scope} {reason : Reason} {ending : Bool} {s' : State}

lemma Cancels.frame (h : s.Cancels scope reason ending s') : s.Frame s' := by
  cases h with
  | inactive => exact .refl s
  | sufficed => exact .refl s
  | barred a s' ha hf hp =>
      obtain ⟨h1, h2, h3, h4, h5, h6⟩ := hp.frame
      exact ⟨h1, h2, h3, h4, h5, h6⟩

/-- A cancellation takes works out of the queue and keeps the order of the others. -/
lemma Cancels.queue_sublist (h : s.Cancels scope reason ending s') :
    s'.queue.Sublist s.queue := by
  cases h with
  | inactive => exact List.Sublist.refl _
  | sufficed => exact List.Sublist.refl _
  | barred a s' ha hf hp =>
      rcases hp.queue with hq | hq
      · rw [hq]
        exact List.filter_sublist
      · exact hq.sublist.trans List.filter_sublist

/-- The expiry check does nothing, or ends the controller. -/
lemma expire_cases (s : State) (now : ℕ) :
    s.expire now = s ∨ ∃ a, s.active = some a ∧ s.config.idleTimeout ≤ now - a.lastSeen ∧
      s.Cancels .all .expired true (s.expire now) := by
  rw [expire]
  cases ha : s.active with
  | none => exact Or.inl rfl
  | some a =>
      dsimp only
      split_ifs with hlate
      · exact Or.inr ⟨a, rfl, hlate, cancels_cancel _ _ _ _⟩
      · exact Or.inl rfl

lemma timed_cases (s : State) (l : Call) :
    s.timed l = s ∨ s.Cancels .all .expired true (s.timed l) := by
  have hexp : ∀ now, s.expire now = s ∨ s.Cancels .all .expired true (s.expire now) := by
    intro now
    exact (s.expire_cases now).imp id fun ⟨a, _, _, h⟩ => h
  cases l with
  | next now => exact hexp now
  | tick now => exact hexp now
  | heartbeat c now => exact hexp now
  | submit c now epoch sequence event => exact hexp now
  | _ => exact Or.inl rfl

namespace Linked

lemma cancels (h : s.Linked) (hc : s.Cancels scope reason ending s') : s'.Linked := by
  obtain ⟨-, -, -, ha, hf, -⟩ := hc.frame
  refine ⟨fun h0 => ?_, fun h0 => ?_⟩
  · rw [ha]
    exact h.flight (hf ▸ h0)
  · rw [ha]
    refine h.queue fun hnil => h0 ?_
    have hsub := hc.queue_sublist
    rw [hnil] at hsub
    exact List.sublist_nil.mp hsub

lemma timed (h : s.Linked) (l : Call) : (s.timed l).Linked := by
  rcases s.timed_cases l with heq | hc
  · rw [heq]
    exact h
  · exact h.cancels hc

/-- Every call keeps the links. -/
lemma acts {l : Call} {r : Reply} (h : s.Linked) (hacts : s.Acts l r s') : s'.Linked := by
  have active : ∀ t : State, t.active.isSome → t.Linked := fun t ht => ⟨fun _ => ht, fun _ => ht⟩
  cases hacts with
  | idle => exact h
  | admitted => exact active _ rfl
  | cleanup now b a work hf hb ha => exact active _ (by rw [ha]; rfl)
  | discarded now ha hf hb =>
      exact ⟨fun h0 => h.flight h0, fun h0 => h.queue h0⟩
  | dispatched now a r s' ha hf hb hd =>
      refine active _ ?_
      cases hd with
      | refused pre rest s' hq href hp => rw [hp.frame.active, ha]; rfl
      | dispatched => rw [append, ha]; rfl
  | completed f event outcome a mid s' hf hop ha hp hkeep hcancel =>
      have hmid : mid.active.isSome := by rw [hp.frame.active]; rfl
      by_cases ho : outcome.Ends
      · exact active _ (by rw [(hcancel ho).frame.active]; exact hmid)
      · rw [hkeep ho]
        exact active _ hmid
  | cleanupFailed f scope reason outcome a mid hf hop ha ho hp =>
      have hq : mid.queue = [] := by
        rcases hp.queue with hq | hq
        · exact hq
        · exact List.prefix_nil.mp hq
      have hfl : mid.flight = none := hp.frame.flight
      refine ⟨fun h0 => ?_, fun h0 => absurd hq h0⟩
      have h0 : mid.flight.isSome := h0
      rw [hfl] at h0
      cases h0
  | cleanupEnded f scope reason a mid hf hop ha hend hp =>
      have hfl : mid.flight = none := hp.frame.flight
      refine ⟨fun h0 => ?_, fun h0 => absurd rfl h0⟩
      have h0 : mid.flight.isSome := h0
      rw [hfl] at h0
      cases h0
  | cleanupRenewed f scope reason a s' hf hop ha hend hb hp =>
      exact active _ (by rw [hp.frame.active]; rfl)
  | cleanupBarred => exact active _ rfl
  | geometry g s' hv hrev hc =>
      have hl : ({ s with config := { s.config with geometry := g } } : State).Linked :=
        ⟨h.flight, h.queue⟩
      exact hl.cancels hc
  | resolved => exact ⟨h.flight, h.queue⟩
  | heartbeat => exact active _ rfl
  | refused => exact active _ rfl
  | superseded c now epoch sequence event a front tail motion s' hr hm hq hop hmot hcount =>
      exact active _ (by rw [hcount.frame.active]; rfl)
  | overflowed c now epoch sequence event a s' hr hfull hc =>
      exact active _ (by rw [hc.frame.active]; rfl)
  | accepted => exact active _ rfl
  | reset c a s' ha hid hc => exact h.cancels hc
  | close l c a s' hl ha hid hc => exact h.cancels hc
  | polled => exact ⟨h.flight, h.queue⟩

end Linked

end State

end Jackstay.Input
