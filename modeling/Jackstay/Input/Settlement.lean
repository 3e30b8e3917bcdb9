import Jackstay.Input.Mailbox
import Mathlib.Algebra.BigOperators.Group.List.Basic

/-!
Settlement of accepted operations.

* `settled`: the operations that statuses settle: one for each `Completed` and
  `Rejected`, and the counts of `Coalesced`.
* `State.entries`: the sequence numbers in a mailbox and those that are outstanding;
  `State.Keeps` says that a call only moves them.
* `settled_once`: in a run whose failed cleanups find nothing queued, every accepted
  operation is settled, queued or in flight, none is settled twice, and nothing is left
  when `Closed` is posted.
* `kept_text_lost`: a failed `Pointer` cleanup drops kept text without a status.
-/

namespace Jackstay.Input

open Traces

/-! ### Statuses -/

namespace Status

/-- The sequence number that the status settles. -/
def sequence : Status → Option UInt64
  | .completed q _ => some q
  | .rejected q _ => some q
  | _ => none

/-- The superseded motions that the status counts. -/
def superseded : Status → ℕ
  | .coalesced count => count.toNat
  | _ => 0

/-- The operations that the status settles. -/
def settles : Status → ℕ
  | .completed _ _ => 1
  | .rejected _ _ => 1
  | .coalesced count => count.toNat
  | _ => 0

/-- The status is `Closed`. -/
def isClosed : Status → Bool
  | .closed _ _ => true
  | _ => false

end Status

/-- The operations that statuses settle. -/
def settled (statuses : List Status) : ℕ := (statuses.map Status.settles).sum

/-- The sequence numbers that statuses settle. -/
def sequences (statuses : List Status) : List UInt64 := statuses.filterMap Status.sequence

/-- The superseded motions that statuses count. -/
def supersessions (statuses : List Status) : ℕ := (statuses.map Status.superseded).sum

lemma settled_eq (statuses : List Status) :
    settled statuses = (sequences statuses).length + supersessions statuses := by
  induction statuses with
  | nil => rfl
  | cons st rest ih =>
      have hcons : settled (st :: rest) = st.settles + settled rest := List.sum_cons
      have hsup : supersessions (st :: rest) = st.superseded + supersessions rest := List.sum_cons
      have hseq : (sequences (st :: rest)).length =
          st.sequence.toList.length + (sequences rest).length := by
        cases h : st.sequence <;> simp [sequences, h]
        omega
      have hst : st.settles = st.sequence.toList.length + st.superseded := by
        cases st <;> simp [Status.settles, Status.sequence, Status.superseded]
      omega

lemma sequences_append (xs ys : List Status) :
    sequences (xs ++ ys) = sequences xs ++ sequences ys := List.filterMap_append

lemma supersessions_append (xs ys : List Status) :
    supersessions (xs ++ ys) = supersessions xs + supersessions ys := by
  simp [supersessions]

lemma supersessions_eq_zero {xs : List Status} (h : ∀ st ∈ xs, st.superseded = 0) :
    supersessions xs = 0 := by
  induction xs with
  | nil => rfl
  | cons st rest ih =>
      have hcons : supersessions (st :: rest) = st.superseded + supersessions rest := List.sum_cons
      rw [hcons, h st List.mem_cons_self, ih fun x hx => h x (List.mem_cons_of_mem _ hx)]

namespace State

variable {s s' s'' : State} {a : Active} {statuses : List Status} {queue kept : List Work}
  {c : UInt64}

/-! ### What a controller waits for -/

/-- The events that a controller waits for. -/
def awaited (s : State) (c : UInt64) : List Work :=
  if s.active.any (·.id == c) then s.outstanding else []

lemma awaited_self (ha : s.active = some a) : s.awaited a.id = s.outstanding := by
  rw [awaited, ha, if_pos (by simp)]

lemma awaited_eq_nil (h : ∀ a, s.active = some a → a.id ≠ c) : s.awaited c = [] := by
  rw [awaited, if_neg]
  cases ha : s.active with
  | none => simp
  | some a => simpa using h a ha

/-- The sequence numbers in a mailbox, and those that are outstanding. -/
def entries (s : State) (c : UInt64) : List UInt64 :=
  sequences (s.mailboxes c) ++ (s.awaited c).map (·.sequence)

/-- **A call only moves the entries**: it settles nothing twice and drops nothing, and
`Closed` is for a controller that has ended. -/
structure Keeps (s s' : State) (c : UInt64) : Prop where
  entries : (s'.entries c).Perm (s.entries c)
  superseded : supersessions (s'.mailboxes c) = supersessions (s.mailboxes c)
  active : ∀ b, s'.active = some b → b.id = c →
    (∃ a, s.active = some a ∧ a.id = c ∧ a.lastSequence ≤ b.lastSequence) ∧
      ∀ st ∈ s'.mailboxes c, st ∈ s.mailboxes c ∨ st.isClosed = false
  mailbox : (∀ a, s.active = some a → a.id ≠ c) → s'.mailboxes c = s.mailboxes c

lemma Keeps.trans (h : s.Keeps s' c) (h' : s'.Keeps s'' c) : s.Keeps s'' c := by
  refine ⟨h'.entries.trans h.entries, h'.superseded.trans h.superseded, fun b hb hid => ?_,
    fun hne => ?_⟩
  · obtain ⟨⟨b', hb', hid', hle'⟩, hclosed'⟩ := h'.active b hb hid
    obtain ⟨⟨a, ha, hida, hle⟩, hclosed⟩ := h.active b' hb' hid'
    refine ⟨⟨a, ha, hida, UInt64.le_trans hle hle'⟩, fun st hst => ?_⟩
    rcases hclosed' st hst with h0 | h0
    · exact hclosed st h0
    · exact Or.inr h0
  · have hne' : ∀ b, s'.active = some b → b.id ≠ c := by
      intro b hb hid
      obtain ⟨⟨a, ha, hida, -⟩, -⟩ := h.active b hb hid
      exact hne a ha hida
    exact (h'.mailbox hne').trans (h.mailbox hne)

/-- The mailbox and what is outstanding stay as they are. -/
lemma Keeps.of_same (hbox : s'.mailboxes c = s.mailboxes c)
    (hout : s'.outstanding.map (·.sequence) = s.outstanding.map (·.sequence))
    (hact : ∀ b, s'.active = some b → b.id = c →
      ∃ a, s.active = some a ∧ a.id = c ∧ a.lastSequence ≤ b.lastSequence)
    (hback : ∀ a, s.active = some a → a.id = c → ∃ b, s'.active = some b ∧ b.id = c) :
    s.Keeps s' c := by
  refine ⟨?_, by rw [hbox], fun b hb hid => ⟨hact b hb hid, fun st hst => Or.inl (hbox ▸ hst)⟩,
    fun _ => hbox⟩
  have hawait : (s'.awaited c).map (·.sequence) = (s.awaited c).map (·.sequence) := by
    by_cases hc : ∃ a, s.active = some a ∧ a.id = c
    · obtain ⟨a, ha, rfl⟩ := hc
      obtain ⟨b, hb, hid⟩ := hback a ha rfl
      rw [awaited_self ha, ← hid, awaited_self hb]
      exact hout
    · have hnot : ∀ a, s.active = some a → a.id ≠ c := fun a ha hid => hc ⟨a, ha, hid⟩
      rw [awaited_eq_nil hnot, awaited_eq_nil]
      intro b hb hid
      obtain ⟨a, ha, hida, -⟩ := hact b hb hid
      exact hc ⟨a, ha, hida⟩
  rw [State.entries, State.entries, hbox, hawait]

lemma ne_of_active (ha : s.active = some a) (hc : c ≠ a.id) :
    ∀ b, s.active = some b → b.id ≠ c := by
  intro b hb hid
  cases ha.symm.trans hb
  exact hc hid.symm

/-- The call is none of the controller's business. -/
lemma Keeps.other (hne : ∀ b, s.active = some b → b.id ≠ c)
    (hne' : ∀ b, s'.active = some b → b.id ≠ c) (hbox : s'.mailboxes c = s.mailboxes c) :
    s.Keeps s' c := by
  refine ⟨?_, by rw [hbox], fun b hb hid => absurd hid (hne' b hb), fun _ => hbox⟩
  rw [State.entries, State.entries, hbox, awaited_eq_nil hne, awaited_eq_nil hne']

/-- Statuses for works that leave the queue. -/
lemma Posts.keeps (hp : s.Posts a statuses queue kept s') (ha : s.active = some a)
    (hover : s'.overflowed c = false)
    (hseq : (sequences statuses ++ queue.map (·.sequence)).Perm (s.queue.map (·.sequence)))
    (hsup : ∀ st ∈ statuses, st.superseded = 0) (hclosed : ∀ st ∈ statuses, st.isClosed = false) :
    s.Keeps s' c := by
  have hact : s'.active = some a := hp.frame.active.trans ha
  by_cases hc : c = a.id
  · subst hc
    have heq := hp.of_fits hover
    have hbox : s'.mailboxes a.id = s.mailboxes a.id ++ statuses := by
      rw [heq]
      exact Function.update_self _ _ _
    have hout : s'.outstanding = s.flying ++ queue := by
      rw [heq]
      rfl
    refine ⟨?_, ?_, fun b hb hid => ?_, fun hne => absurd rfl (hne a ha)⟩
    · rw [State.entries, State.entries, awaited_self ha, awaited_self hact, hbox, hout, outstanding,
        sequences_append, List.map_append, List.map_append, List.append_assoc]
      refine List.Perm.append_left _ ?_
      calc sequences statuses ++ (s.flying.map (·.sequence) ++ queue.map (·.sequence))
          = (sequences statuses ++ s.flying.map (·.sequence)) ++ queue.map (·.sequence) :=
            (List.append_assoc _ _ _).symm
        _ |>.Perm ((s.flying.map (·.sequence) ++ sequences statuses) ++ queue.map (·.sequence)) :=
            List.perm_append_comm.append_right _
        _ |>.Perm (s.flying.map (·.sequence) ++ (sequences statuses ++ queue.map (·.sequence))) := by
            rw [List.append_assoc]
        _ |>.Perm (s.flying.map (·.sequence) ++ s.queue.map (·.sequence)) := hseq.append_left _
    · rw [hbox, supersessions_append, supersessions_eq_zero hsup, Nat.add_zero]
    · cases hact.symm.trans hb
      refine ⟨⟨a, ha, rfl, UInt64.le_refl _⟩, fun st hst => ?_⟩
      rw [hbox] at hst
      exact (List.mem_append.mp hst).imp id fun h0 => hclosed st h0
  · exact .other (ne_of_active ha hc) (ne_of_active hact hc) (hp.mailbox_of_ne hc).1

lemma sequences_rejections (works : List Work) :
    sequences (rejections works) = works.map (·.sequence) := by
  induction works with
  | nil => rfl
  | cons w rest ih =>
      have hcons : sequences (rejections (w :: rest)) = w.sequence :: sequences (rejections rest) :=
        rfl
      rw [hcons, ih]
      rfl

lemma mem_rejections {works : List Work} {st : Status} (h : st ∈ rejections works) :
    st.superseded = 0 ∧ st.isClosed = false := by
  obtain ⟨w, -, rfl⟩ := List.mem_map.mp h
  exact ⟨rfl, rfl⟩

/-- Nothing changes for a controller that is not there. -/
lemma Keeps.refl (s : State) (c : UInt64) : s.Keeps s c :=
  .of_same rfl rfl (fun b hb hid => ⟨b, hb, hid, UInt64.le_refl _⟩) fun a ha hid => ⟨a, ha, hid⟩

lemma Cancels.keeps {scope : Scope} {reason : Reason} {ending : Bool}
    (h : s.Cancels scope reason ending s') (hover : s'.overflowed c = false) : s.Keeps s' c := by
  cases h with
  | inactive => exact .refl s c
  | sufficed => exact .refl s c
  | barred a s' ha hf hp =>
      have hbar : s.Keeps { s with barrier := some (s.barred scope reason ending) } c :=
        .of_same rfl rfl (fun b hb hid => ⟨b, hb, hid, UInt64.le_refl _⟩) fun a ha hid => ⟨a, ha, hid⟩
      refine hbar.trans (hp.keeps ha hover ?_ (fun st hst => (mem_rejections hst).1)
        fun st hst => (mem_rejections hst).2)
      rw [sequences_rejections, ← List.map_append]
      exact (List.filter_append_perm _ _).map _

/-- A status that settles nothing. -/
lemma Posts.keeps_silent {st : Status} (hp : s.Posts a [st] s.queue kept s')
    (ha : s.active = some a) (hover : s'.overflowed c = false) (hseq : st.sequence = Option.none)
    (hsup : st.superseded = 0) (hclosed : st.isClosed = false) : s.Keeps s' c := by
  refine hp.keeps ha hover ?_ (fun x hx => ?_) fun x hx => ?_
  · simp [sequences, hseq]
  · rw [List.mem_singleton.mp hx]
    exact hsup
  · rw [List.mem_singleton.mp hx]
    exact hclosed

lemma sequence_of_refusal {w : Work} {st : Status} (h : s.refusal w = some st) :
    st.sequence = some w.sequence ∧ st.superseded = 0 ∧ st.isClosed = false := by
  rw [refusal] at h
  split at h
  · cases h
  · cases h
    exact ⟨rfl, rfl, rfl⟩
  · cases h
    exact ⟨rfl, rfl, rfl⟩

lemma sequences_refusals {pre : List Work} (h : ∀ w ∈ pre, s.refusal w ≠ .none) :
    sequences (pre.filterMap s.refusal) = pre.map (·.sequence) := by
  induction pre with
  | nil => rfl
  | cons w rest ih =>
      obtain ⟨st, hst⟩ := Option.ne_none_iff_exists'.mp (h w List.mem_cons_self)
      have hseq : Status.sequence st = some w.sequence := (sequence_of_refusal hst).1
      rw [List.filterMap_cons_some hst, sequences, List.filterMap_cons_some hseq, List.map_cons]
      exact congrArg _ (ih fun v hv => h v (List.mem_cons_of_mem _ hv))

lemma mem_refusals {pre : List Work} {st : Status} (h : st ∈ pre.filterMap s.refusal) :
    st.superseded = 0 ∧ st.isClosed = false := by
  obtain ⟨w, -, hw⟩ := List.mem_filterMap.mp h
  exact (sequence_of_refusal hw).2

/-- A work is dispatched behind works that are settled. -/
lemma keeps_dispatched {pre rest : List Work} {w bound : Work} {e : Event}
    (ha : s.active = some a) (hf : s.flight = .none) (hq : s.queue = pre ++ w :: rest)
    (href : ∀ w ∈ pre, s.refusal w ≠ .none) (he : w.operation = .event e)
    (hbind : s.bind w = .ok (some bound)) :
    s.Keeps { ({ s with queue := rest } : State).append a (pre.filterMap s.refusal) with
      flight := some ⟨bound, false⟩ } c := by
  obtain ⟨e', rfl, -, -⟩ := bind_ok ha he hbind
  set s' : State := { ({ s with queue := rest } : State).append a (pre.filterMap s.refusal) with
      flight := some ⟨{ w with operation := .event e' }, false⟩ } with hs'
  have hact : s'.active = some a := ha
  by_cases hc : c = a.id
  · subst hc
    have hbox : s'.mailboxes a.id = s.mailboxes a.id ++ pre.filterMap s.refusal :=
      Function.update_self _ _ _
    have hout : s'.outstanding = { w with operation := .event e' } :: rest := rfl
    have hout₀ : s.outstanding = pre ++ w :: rest := by
      rw [outstanding, flying, hf, hq]
      rfl
    refine ⟨?_, ?_, fun b hb hid => ?_, fun hne => absurd rfl (hne a ha)⟩
    · rw [State.entries, State.entries, awaited_self ha, awaited_self hact, hbox, hout, hout₀,
        sequences_append, sequences_refusals href, List.map_append, List.append_assoc]
      exact List.Perm.refl _
    · rw [hbox, supersessions_append, supersessions_eq_zero fun st hst => (mem_refusals hst).1,
        Nat.add_zero]
    · cases hact.symm.trans hb
      refine ⟨⟨a, ha, rfl, UInt64.le_refl _⟩, fun st hst => ?_⟩
      rw [hbox] at hst
      exact (List.mem_append.mp hst).imp id fun h0 => (mem_refusals h0).2
  · exact .other (ne_of_active ha hc) (ne_of_active hact hc) (Function.update_of_ne hc _ _)

/-- An event is completed. -/
lemma keeps_completed {f : Flight} {e : Event} {outcome : Outcome} {b : Active}
    (ha : s.active = some a) (hf : s.flight = some f) (hop : f.work.operation = .event e)
    (hid : b.id = a.id) (hlast : b.lastSequence = a.lastSequence)
    (hp : ({ s with flight := .none, active := some b } : State).Posts a
      [.completed f.work.sequence outcome] s.queue [] s') (hover : s'.overflowed c = false) :
    s.Keeps s' c := by
  have hact : s'.active = some b := hp.frame.active
  by_cases hc : c = a.id
  · subst hc
    have heq := hp.of_fits hover
    have hbox : s'.mailboxes a.id = s.mailboxes a.id ++ [.completed f.work.sequence outcome] := by
      rw [heq]
      exact Function.update_self _ _ _
    have hout : s'.outstanding = s.queue := by
      rw [heq]
      rfl
    have hout₀ : s.outstanding = f.work :: s.queue := by
      have hnot : f.work.isCleanup = false := by rw [Work.isCleanup, hop]
      simp [outstanding, flying, hf, hnot]
    have hawait : s'.awaited a.id = s.queue := by
      rw [← hid, awaited_self hact, hout]
    refine ⟨?_, ?_, fun d hd _ => ?_, fun hne => absurd rfl (hne a ha)⟩
    · rw [State.entries, State.entries, awaited_self ha, hawait, hbox, hout₀, sequences_append,
        List.append_assoc]
      exact List.Perm.refl _
    · rw [hbox, supersessions_append]
      rfl
    · cases hact.symm.trans hd
      refine ⟨⟨a, ha, rfl, hlast ▸ UInt64.le_refl _⟩, fun st hst => ?_⟩
      rw [hbox] at hst
      refine (List.mem_append.mp hst).imp id fun h0 => ?_
      rw [List.mem_singleton.mp h0]
      rfl
  · exact .other (ne_of_active ha hc) (ne_of_active hact (hid ▸ hc)) (hp.mailbox_of_ne hc).1

/-- A controller ends that waits for nothing. -/
lemma keeps_ended (st : Status) (ha : s.active = some a) (hout : c = a.id → s.outstanding = [])
    (hact : s'.active = .none) (hbox : c = a.id → s'.mailboxes a.id = s.mailboxes a.id ++ [st])
    (hother : c ≠ a.id → s'.mailboxes c = s.mailboxes c) (hseq : st.sequence = .none)
    (hsup : st.superseded = 0) : s.Keeps s' c := by
  have hne' : ∀ d, s'.active = some d → d.id ≠ c := by
    intro d hd
    cases hact.symm.trans hd
  by_cases hc : c = a.id
  · subst hc
    refine ⟨?_, ?_, fun d hd hdc => absurd hdc (hne' d hd), fun hne => absurd rfl (hne a ha)⟩
    · rw [State.entries, State.entries, hbox rfl, awaited_self ha, hout rfl, awaited_eq_nil hne',
        sequences_append]
      simp [sequences, hseq]
    · rw [hbox rfl, supersessions_append]
      simp [supersessions, hsup]
  · exact .other (ne_of_active ha hc) hne' (hother hc)

/-- **A cleanup that fails finds nothing queued.** -/
def FailsEmpty (s : State) (l : Call) : Prop :=
  ∀ id outcome f, l = .complete id outcome → s.flight = some f → f.work.id = id →
    f.work.isCleanup = true → outcome ≠ .executed → s.queue = []

lemma failsEmpty_timed (s : State) (l : Call) (h : s.FailsEmpty l) : (s.timed l).FailsEmpty l := by
  cases l with
  | complete id outcome => exact h
  | _ => exact fun _ _ _ h0 => by cases h0

/-- A call that accepts, admits and polls nothing. -/
lemma Acts.keeps {l : Call} {r : Reply} (h : s.Acts l r s') (hs : Reached s) (hC : s.FailsEmpty l)
    (hover : s'.overflowed c = false) (hsub : submission (l, r) = .none)
    (hpoll : ∀ p, l ≠ .poll p) (hnew : ∀ d, r ≠ .admitted d) : s.Keeps s' c := by
  have ho : s.Owned := owned_of_reached hs
  have same : ∀ t : State, t.mailboxes = s.mailboxes → t.active = s.active →
      t.outstanding.map (·.sequence) = s.outstanding.map (·.sequence) → s.Keeps t c := by
    intro t hbox hact hout
    exact .of_same (by rw [hbox]) hout (fun b hb hid => ⟨b, hact ▸ hb, hid, UInt64.le_refl _⟩)
      fun b hb hid => ⟨b, hact.symm ▸ hb, hid⟩
  have reactivated : ∀ a b, s.active = some a → b.id = a.id → a.lastSequence ≤ b.lastSequence →
      s.Keeps { s with active := some b } c := by
    intro a b ha hid hle
    refine .of_same rfl rfl (fun d hd hdc => ?_) fun d hd hdc => ?_
    · cases hd
      exact ⟨a, ha, hid ▸ hdc, hle⟩
    · cases ha.symm.trans hd
      exact ⟨b, rfl, hid.trans hdc⟩
  cases h with
  | idle => exact .refl s c
  | admitted mode now id hfail ha hmode hid => exact absurd rfl (hnew _)
  | cleanup now b a work hf hb ha hw =>
      subst hw
      refine same _ rfl rfl ?_
      have hfly : s.flying = [] := flying_of_none hf
      rw [outstanding, outstanding, hfly]
      rfl
  | discarded now ha hf hb => exact same _ rfl rfl rfl
  | dispatched now a r s' ha hf hb hd =>
      cases hd with
      | refused pre rest s' hq href hp hend =>
          refine hp.keeps ha hover ?_ (fun st hst => (mem_refusals hst).1)
            fun st hst => (mem_refusals hst).2
          rw [sequences_refusals href, hq, List.map_append]
      | dispatched pre w bound rest hq href hbind hfit =>
          have hmem : w ∈ s.queue := by
            rw [hq]
            exact List.mem_append_right _ List.mem_cons_self
          obtain ⟨-, -, e, he, -⟩ := ho.queue a ha w hmem
          exact keeps_dispatched ha hf hq href he hbind
  | completed f event outcome a mid s' hf hop ha hp hkeep hcancel =>
      have hid := (Active.apply_same a event outcome).1
      have hlast := Active.apply_lastSequence a event outcome
      by_cases hends : outcome.Ends
      · have hmid : mid.overflowed c = false := (hcancel hends).not_overflowed hover
        exact (keeps_completed ha hf hop hid hlast hp hmid).trans ((hcancel hends).keeps hover)
      · rw [hkeep hends] at hover ⊢
        exact keeps_completed ha hf hop hid hlast hp hover
  | cleanupFailed f scope reason outcome a mid hf hop ha hout hp =>
      have hclean : f.work.isCleanup = true := by rw [Work.isCleanup, hop]
      have hq : s.queue = [] := hC _ _ f rfl hf rfl hclean hout
      refine keeps_ended (.closed reason false) ha (fun _ => ?_) rfl (fun hc => ?_)
        (fun hc => (hp.mailbox_of_ne hc).1) rfl rfl
      · rw [outstanding, flying_of_cleanup hf hop, hq]
        rfl
      subst hc
      have heq := hp.of_fits hover
      subst heq
      exact Function.update_self _ _ _
  | cleanupEnded f scope reason a mid hf hop ha hend hp =>
      refine keeps_ended (.closed reason true) ha (fun hc => ?_) rfl (fun hc => ?_)
        (fun hc => (hp.mailbox_of_ne hc).1) rfl rfl
      · subst hc
        obtain ⟨-, reason', hall⟩ := ho.ending f hf hend
        have hq : s.queue = [] := emptied_of_reached hs a ha (hp.not_overflowed hover)
          (Or.inr ⟨f, reason', hf, hall⟩)
        rw [outstanding, flying_of_cleanup hf hop, hq]
        rfl
      · subst hc
        have heq := hp.of_fits hover
        subst heq
        exact Function.update_self _ _ _
  | cleanupRenewed f scope reason a s' hf hop ha hend hb hp =>
      have hid : a.id = ({ a.release scope with epoch := a.epoch + 1 } : Active).id := rfl
      have hland : s.Keeps ({ s with
          flight := .none
          active := some { a.release scope with epoch := a.epoch + 1 }
          queue := s.queue.map fun w => { w with epoch := a.epoch + 1 } } : State) c := by
        refine .of_same rfl ?_ (fun b hb' hbc => ?_) fun b hb' hbc => ?_
        · have hout : s.outstanding = s.queue := by
            rw [outstanding, flying_of_cleanup hf hop]
            rfl
          rw [hout]
          exact List.map_map
        · cases hb'
          exact ⟨a, ha, hbc, UInt64.le_refl _⟩
        · cases ha.symm.trans hb'
          exact ⟨_, rfl, hbc⟩
      exact hland.trans ((hp.of_id hid).keeps_silent rfl hover rfl rfl rfl)
  | cleanupBarred f scope reason a hf hop ha hend hb =>
      refine .of_same rfl ?_ (fun b hb' hbc => ?_) fun b hb' hbc => ?_
      · have hout : s.outstanding = s.queue := by
          rw [outstanding, flying_of_cleanup hf hop]
          rfl
        rw [hout]
        rfl
      · cases hb'
        exact ⟨a, ha, hbc, UInt64.le_refl _⟩
      · cases ha.symm.trans hb'
        exact ⟨_, rfl, hbc⟩
  | geometry g s' hv hrev hc =>
      have hgeo := same { s with config := { s.config with geometry := g } } rfl rfl rfl
      exact hgeo.trans (hc.keeps hover)
  | resolved hfail hf => exact same _ rfl rfl rfl
  | heartbeat c now a ha hid => exact reactivated a _ ha rfl (UInt64.le_refl _)
  | refused c now epoch sequence event a e ha hid hseq href =>
      exact reactivated a _ ha rfl (UInt64.le_of_lt hseq)
  | superseded => cases hsub
  | overflowed c now epoch sequence event a s' hr hfull hc =>
      have hreact := reactivated a { a with lastSequence := sequence } hr.active rfl
        (UInt64.le_of_lt hr.sequence)
      exact hreact.trans (hc.keeps hover)
  | accepted => cases hsub
  | reset c a s' ha hid hc => exact hc.keeps hover
  | close l c a s' hl ha hid hc => exact hc.keeps hover
  | polled c => exact absurd rfl (hpoll c)

end State

/-! ### Runs -/

/-- The sequence numbers that have been settled, and those that are outstanding. -/
def ledger (c : UInt64) (tr : Trace) (s : State) : List UInt64 :=
  sequences (polled c tr) ++ s.entries c

lemma ledger_eq (c : UInt64) (tr : Trace) (s : State) :
    ledger c tr s = sequences (posted c tr s) ++ (s.awaited c).map (·.sequence) := by
  rw [ledger, State.entries, posted, sequences_append, List.append_assoc]

/-- **The account of a controller.** -/
structure Settled (tr : Trace) (s : State) (c : UInt64) : Prop where
  count : (accepted c tr).length = (ledger c tr s).length + supersessions (posted c tr s)
  nodup : (ledger c tr s).Nodup
  subset : ∀ q ∈ ledger c tr s, q ∈ (accepted c tr).map (·.sequence)
  active : ∀ a, s.active = some a → a.id = c → (accepted c tr).length ≤ a.lastSequence.toNat ∧
    (∀ q ∈ ledger c tr s, q ≤ a.lastSequence) ∧ ∀ st ∈ posted c tr s, st.isClosed = false

/-- The accounts of all controllers whose mailboxes have not overflowed. -/
structure Books (tr : Trace) (s : State) : Prop where
  fresh : ∀ c, s.nextController < c → accepted c tr = [] ∧ polled c tr = []
  settled : ∀ c, s.overflowed c = false → Settled tr s c

section

variable {tr tr' : Trace} {s s' : State} {a : Active} {c : UInt64} {l : Call} {r : Reply}

lemma Settled.keeps (h : Settled tr s c) (hk : s.Keeps s' c)
    (hacc : accepted c tr' = accepted c tr) (hpoll : polled c tr' = polled c tr) :
    Settled tr' s' c := by
  have hperm : (ledger c tr' s').Perm (ledger c tr s) := by
    rw [ledger, ledger, hpoll]
    exact hk.entries.append_left _
  refine ⟨?_, hperm.nodup_iff.mpr h.nodup, fun q hq => ?_, fun b hb hid => ?_⟩
  · rw [hacc, h.count, hperm.length_eq, posted, posted, supersessions_append, supersessions_append,
      hk.superseded, hpoll]
  · rw [hacc]
    exact h.subset q (hperm.mem_iff.mp hq)
  · obtain ⟨⟨a, ha, hida, hle⟩, hclosed⟩ := hk.active b hb hid
    obtain ⟨hcount, hbound, hopen⟩ := h.active a ha hida
    refine ⟨?_, fun q hq => ?_, fun st hst => ?_⟩
    · rw [hacc]
      exact hcount.trans (UInt64.le_iff_toNat_le.mp hle)
    · exact UInt64.le_trans (hbound q (hperm.mem_iff.mp hq)) hle
    · rw [posted, hpoll] at hst
      rcases List.mem_append.mp hst with hst | hst
      · exact hopen st (List.mem_append_left _ hst)
      · rcases hclosed st hst with h0 | h0
        · exact hopen st (List.mem_append_right _ h0)
        · exact h0

lemma accepted_of_none (h : submission (l, r) = none) :
    accepted c (tr ++ [(l, r)]) = accepted c tr := by
  rw [accepted_snoc, h]
  exact List.append_nil _

lemma polled_of_none (h : yielded c (l, r) = none) :
    polled c (tr ++ [(l, r)]) = polled c tr := by
  rw [polled_snoc, h]
  exact List.append_nil _

/-- Only `poll` yields. -/
lemma yielded_of_ne (h : ∀ p, l ≠ .poll p) : yielded c (l, r) = none := by
  cases l with
  | poll p => exact absurd rfl (h p)
  | _ => rfl

/-- A call that accepts, admits and polls nothing. -/
lemma Books.general (h : Books tr s) (hs : Reached s) (hC : s.FailsEmpty l) (hacts : s.Acts l r s')
    (hsub : submission (l, r) = none) (hpoll : ∀ p, l ≠ .poll p) (hnew : ∀ d, r ≠ .admitted d) :
    Books (tr ++ [(l, r)]) s' := by
  refine ⟨fun c hc => ?_, fun c hover => ?_⟩
  · rw [hacts.nextController hnew] at hc
    rw [accepted_of_none hsub, polled_of_none (yielded_of_ne hpoll)]
    exact h.fresh c hc
  · exact (h.settled c (hacts.not_overflowed hover)).keeps
      (hacts.keeps hs hC hover hsub hpoll hnew) (accepted_of_none hsub)
      (polled_of_none (yielded_of_ne hpoll))

/-- A poll moves a status from the mailbox to what has been polled. -/
lemma posted_poll (tr : Trace) (s : State) (p : Controller) (c : UInt64) :
    posted c (tr ++ [(Call.poll p, Reply.status (s.mailboxes p.id).head?)])
      { s with mailboxes := Function.update s.mailboxes p.id (s.mailboxes p.id).tail } =
        posted c tr s := by
  rw [posted, posted, polled_snoc, yielded]
  by_cases hc : c = p.id
  · subst hc
    rw [if_pos rfl]
    dsimp only
    rw [Function.update_self]
    cases s.mailboxes p.id <;> simp
  · rw [if_neg fun h => hc h.symm]
    dsimp only
    rw [Function.update_of_ne hc]
    simp

lemma Settled.of_polled (h : Settled tr s c) (p : Controller) :
    Settled (tr ++ [(Call.poll p, Reply.status (s.mailboxes p.id).head?)])
      { s with mailboxes := Function.update s.mailboxes p.id (s.mailboxes p.id).tail } c := by
  have hposted := posted_poll tr s p c
  have hledger : ledger c (tr ++ [(Call.poll p, Reply.status (s.mailboxes p.id).head?)])
      { s with mailboxes := Function.update s.mailboxes p.id (s.mailboxes p.id).tail } =
        ledger c tr s := by
    rw [ledger_eq, ledger_eq, hposted]
    rfl
  have hacc : accepted c (tr ++ [(Call.poll p, Reply.status (s.mailboxes p.id).head?)]) =
      accepted c tr :=
    accepted_of_none rfl
  refine ⟨?_, ?_, ?_, fun a ha hid => ?_⟩
  · rw [hacc, hledger, hposted]
    exact h.count
  · rw [hledger]
    exact h.nodup
  · rw [hacc, hledger]
    exact h.subset
  · rw [hacc, hledger, hposted]
    exact h.active a ha hid

/-- An operation is accepted: it is the newest of the ledger, in place of those that it
supersedes. -/
lemma Settled.extend (h : Settled tr s a.id) (ha : s.active = some a) {b : Active}
    (hb : s'.active = some b) (hseq : a.lastSequence < b.lastSequence)
    {x : Submission} (hacc : accepted a.id tr' = accepted a.id tr ++ [x])
    (hx : x.sequence = b.lastSequence) (xs ys : List UInt64)
    (hold : ledger a.id tr s = xs ++ ys) (hnew : ledger a.id tr' s' = xs ++ [b.lastSequence])
    (hsup : supersessions (posted a.id tr' s') = supersessions (posted a.id tr s) + ys.length)
    (hclosed : ∀ st ∈ posted a.id tr' s', st.isClosed = false) : Settled tr' s' a.id := by
  obtain ⟨hcount, hbound, -⟩ := h.active a ha rfl
  have hlt : a.lastSequence.toNat < b.lastSequence.toNat := UInt64.lt_iff_toNat_lt.mp hseq
  have hxs : ∀ q ∈ xs, q ≤ a.lastSequence := by
    intro q hq
    refine hbound q ?_
    rw [hold]
    exact List.mem_append_left _ hq
  have hlen : (accepted a.id tr').length = (accepted a.id tr).length + 1 := by
    rw [hacc, List.length_append, List.length_singleton]
  refine ⟨?_, ?_, fun q hq => ?_, fun d hd _ => ⟨?_, fun q hq => ?_, hclosed⟩⟩
  · have hbal := h.count
    rw [hold, List.length_append] at hbal
    rw [hlen, hnew, List.length_append, List.length_singleton, hsup]
    omega
  · have hnodup := h.nodup
    rw [hold] at hnodup
    rw [hnew]
    refine List.Nodup.append (List.Nodup.of_append_left hnodup) (List.nodup_singleton _) ?_
    intro q hq hq'
    rw [List.mem_singleton.mp hq'] at hq
    exact UInt64.not_le.mpr hseq (hxs _ hq)
  · rw [hacc, List.map_append, List.mem_append]
    rw [hnew] at hq
    rcases List.mem_append.mp hq with hq | hq
    · refine Or.inl (h.subset q ?_)
      rw [hold]
      exact List.mem_append_left _ hq
    · rw [List.mem_singleton.mp hq, ← hx]
      exact Or.inr List.mem_cons_self
  · cases hb.symm.trans hd
    omega
  · cases hb.symm.trans hd
    rw [hnew] at hq
    rcases List.mem_append.mp hq with hq | hq
    · exact UInt64.le_of_lt (UInt64.lt_of_le_of_lt (hxs q hq) hseq)
    · rw [List.mem_singleton.mp hq]
      exact UInt64.le_refl _

/-- An accepted submission counts for its controller, and for no other. -/
lemma accepted_submit (p : Controller) (now : ℕ) (epoch sequence : UInt64) (event : Event) :
    accepted c (tr ++ [(Call.submit p now epoch sequence event, Reply.done)]) =
      accepted c tr ++ if p.id = c then [⟨p.id, epoch, sequence, event⟩] else [] := by
  rw [accepted_snoc]
  split_ifs with hc
  · simp [submission, hc]
  · simp [submission, hc]

lemma Books.of_accepted (h : Books tr s) {p : Controller} {now : ℕ} {epoch sequence : UInt64}
    {event : Event} (ho : s.Owned) (hr : s.Ready p epoch sequence event a) :
    Books (tr ++ [(Call.submit p now epoch sequence event, Reply.done)]) { s with
      active := some { a with
        lastSequence := sequence
        scrollOpen := a.scrollOpen || event.scrollStart }
      nextWork := s.nextWork + 1
      queue := s.queue ++ [⟨p.mode, s.nextWork + 1, p.id, epoch, sequence, .event event⟩] } := by
  have hpolled : ∀ c, polled c (tr ++ [(Call.submit p now epoch sequence event, Reply.done)]) =
      polled c tr := fun c => polled_of_none rfl
  refine ⟨fun c hc => ?_, fun c hover => ?_⟩
  · have hne : p.id ≠ c := hr.id ▸ (ho.ne_of_lt hr.active hc).symm
    rw [hpolled, accepted_submit, if_neg hne, List.append_nil]
    exact h.fresh c hc
  · have hsettled := h.settled c hover
    by_cases hc : c = a.id
    · subst hc
      refine hsettled.extend hr.active (b := { a with
        lastSequence := sequence
        scrollOpen := a.scrollOpen || event.scrollStart }) rfl hr.sequence
        (x := ⟨p.id, epoch, sequence, event⟩) ?_ rfl _ [] (List.append_nil _).symm ?_ ?_ ?_
      · rw [accepted_submit, if_pos hr.id.symm]
      · have hout : ∀ t : State, t.active = some { a with
            lastSequence := sequence
            scrollOpen := a.scrollOpen || event.scrollStart } → t.awaited a.id = t.outstanding :=
          fun t ht => State.awaited_self (a := { a with
            lastSequence := sequence
            scrollOpen := a.scrollOpen || event.scrollStart }) ht
        rw [ledger_eq, ledger_eq, hout _ rfl, State.awaited_self hr.active, posted, posted, hpolled,
          List.append_assoc]
        simp [State.outstanding, State.flying]
      · rw [posted, posted, hpolled]
        rfl
      · rw [posted, hpolled]
        exact (hsettled.active a hr.active rfl).2.2
    · refine hsettled.keeps (.other (State.ne_of_active hr.active hc) ?_ rfl) ?_ (hpolled c)
      · exact State.ne_of_active rfl hc
      · rw [accepted_submit, if_neg fun h0 => hc (h0.symm.trans hr.id.symm), List.append_nil]

/-- A count closes no mailbox, unless it overflows it. -/
lemma State.Counts.not_closed (h : s.Counts a s')
    (hfits : s'.overflowed a.id = false ∨ s'.barrier = none) {st : Status}
    (hst : st ∈ s'.mailboxes a.id) : st ∈ s.mailboxes a.id ∨ st.isClosed = false := by
  have counted : ∀ (rest : List Status) (count : UInt64), (∀ x ∈ rest, x ∈ s.mailboxes a.id) →
      st ∈ rest ++ [Status.coalesced count] → st ∈ s.mailboxes a.id ∨ st.isClosed = false := by
    intro rest count hrest hst
    refine (List.mem_append.mp hst).imp (hrest st) fun h0 => ?_
    rw [List.mem_singleton.mp h0]
    rfl
  cases h with
  | merged rest count hbox =>
      have hbox' : (s.merge a rest count 1).mailboxes a.id =
          rest ++ [Status.coalesced (saturatingAdd count 1)] := Function.update_self _ _ _
      rw [hbox'] at hst
      refine counted rest _ (fun x hx => ?_) hst
      rw [hbox]
      exact List.mem_append_left _ hx
  | appended hroom =>
      have hbox : (s.append a [.coalesced 1]).mailboxes a.id =
          s.mailboxes a.id ++ [Status.coalesced 1] :=
        Function.update_self _ _ _
      rw [hbox] at hst
      exact counted _ _ (fun x hx => hx) hst
  | overflowed hfull =>
      have htrue : (s.overflow a []).overflowed a.id = true := Function.update_self _ _ _
      rcases hfits with hover | hb
      · cases htrue.symm.trans hover
      · cases hb

lemma toNat_saturatingAdd_one {count : UInt64} (h : count.toNat + 1 < 2 ^ 64) :
    (saturatingAdd count 1).toNat = count.toNat + 1 := by
  have hone : (1 : UInt64).toNat = 1 := rfl
  rw [saturatingAdd, hone, Nat.min_eq_left (by omega), UInt64.toNat_ofNat_of_lt' h]

/-- A count of one more superseded motion, in a mailbox that has not overflowed. -/
lemma State.Counts.mailbox (h : s.Counts a s') (hover : s'.overflowed a.id = false)
    (hfew : supersessions (s.mailboxes a.id) + 1 < 2 ^ 64) :
    sequences (s'.mailboxes a.id) = sequences (s.mailboxes a.id) ∧
      supersessions (s'.mailboxes a.id) = supersessions (s.mailboxes a.id) + 1 ∧
      s'.outstanding = s.outstanding := by
  rcases h.of_fits hover with rfl | ⟨rest, count, hbox, rfl⟩
  · have hbox : (s.append a [.coalesced 1]).mailboxes a.id =
        s.mailboxes a.id ++ [Status.coalesced 1] :=
      Function.update_self _ _ _
    rw [hbox, sequences_append, supersessions_append]
    exact ⟨List.append_nil _, rfl, rfl⟩
  · have hbox' : (s.merge a rest count 1).mailboxes a.id =
        rest ++ [Status.coalesced (saturatingAdd count 1)] := Function.update_self _ _ _
    have hsum : supersessions (s.mailboxes a.id) = supersessions rest + count.toNat := by
      rw [hbox, supersessions_append]
      rfl
    have hsum' : supersessions (rest ++ [Status.coalesced (saturatingAdd count 1)]) =
        supersessions rest + (saturatingAdd count 1).toNat := by
      rw [supersessions_append]
      rfl
    rw [hbox', hsum', hsum, toNat_saturatingAdd_one (by omega), hbox, sequences_append,
      sequences_append]
    exact ⟨rfl, by omega, rfl⟩

lemma Books.of_superseded (h : Books tr s) {p : Controller} {now : ℕ} {epoch sequence : UInt64}
    {event : Event} {front : List Work} {tail : Work} (ho : s.Owned)
    (hr : s.Ready p epoch sequence event a) (hq : s.queue = front ++ [tail])
    (hcount : ({ s with
      active := some { a with lastSequence := sequence }
      queue := front ++ [{ tail with sequence, operation := .event event }] } : State).Counts a s') :
    Books (tr ++ [(Call.submit p now epoch sequence event, Reply.done)]) s' := by
  set mid : State := { s with
      active := some { a with lastSequence := sequence }
      queue := front ++ [{ tail with sequence, operation := .event event }] } with hmid
  have hpolled : ∀ c, polled c (tr ++ [(Call.submit p now epoch sequence event, Reply.done)]) =
      polled c tr := fun c => polled_of_none rfl
  have hact : s'.active = some { a with lastSequence := sequence } := hcount.frame.active
  refine ⟨fun c hc => ?_, fun c hover => ?_⟩
  · have hc : s.nextController < c := hcount.frame.nextController ▸ hc
    have hne : p.id ≠ c := hr.id ▸ (ho.ne_of_lt hr.active hc).symm
    rw [hpolled, accepted_submit, if_neg hne, List.append_nil]
    exact h.fresh c hc
  · have hsettled := h.settled c (hcount.not_overflowed hover)
    by_cases hc : c = a.id
    · subst hc
      obtain ⟨hacc, -, hopen⟩ := hsettled.active a hr.active rfl
      -- the counts are below the last sequence number, so they do not saturate
      have hfew : supersessions (mid.mailboxes a.id) + 1 < 2 ^ 64 := by
        have hlt : a.lastSequence.toNat < sequence.toNat := UInt64.lt_iff_toNat_lt.mp hr.sequence
        have hbig : sequence.toNat < 2 ^ 64 := sequence.toNat_lt
        have hbal := hsettled.count
        rw [posted, supersessions_append] at hbal
        have hmbox : mid.mailboxes a.id = s.mailboxes a.id := rfl
        rw [hmbox]
        omega
      obtain ⟨hseqs, hsups, hout⟩ := hcount.mailbox hover hfew
      have hseqs : sequences (s'.mailboxes a.id) = sequences (s.mailboxes a.id) := hseqs
      have hsups : supersessions (s'.mailboxes a.id) = supersessions (s.mailboxes a.id) + 1 := hsups
      have hawait : s'.awaited a.id = mid.outstanding := by
        have hself := State.awaited_self hact
        rw [hout] at hself
        exact hself
      refine hsettled.extend hr.active hact hr.sequence (x := ⟨p.id, epoch, sequence, event⟩) ?_ rfl
        (sequences (polled a.id tr) ++ sequences (s.mailboxes a.id) ++
          (s.flying ++ front).map (·.sequence)) [tail.sequence] ?_ ?_ ?_ ?_
      · rw [accepted_submit, if_pos hr.id.symm]
      · rw [ledger, State.entries, State.awaited_self hr.active, State.outstanding, hq]
        simp
      · rw [ledger, State.entries, hawait, hseqs, hpolled]
        simp [State.outstanding, State.flying, hmid]
      · rw [posted, posted, hpolled, supersessions_append, supersessions_append, hsups]
        rfl
      · intro st hst
        rw [posted, hpolled] at hst
        rcases List.mem_append.mp hst with hst | hst
        · exact hopen st (List.mem_append_left _ hst)
        · rcases hcount.not_closed (Or.inl hover) hst with h0 | h0
          · exact hopen st (List.mem_append_right _ h0)
          · exact h0
    · refine hsettled.keeps (.other (State.ne_of_active hr.active hc) (State.ne_of_active hact hc)
        (hcount.mailbox_of_ne hc).1) ?_ (hpolled c)
      rw [accepted_submit, if_neg fun h0 => hc (h0.symm.trans hr.id.symm), List.append_nil]

lemma Books.of_admitted (h : Books tr s) (hl : s.Linked) {mode : Mode} {now : ℕ}
    {id : UInt64} (ha : s.active = none) (hid : id.toNat = s.nextController.toNat + 1) {b : Active}
    (hb : b.id = id) :
    Books (tr ++ [(Call.admitController mode now, Reply.admitted ⟨id, mode⟩)]) { s with
      nextController := id
      active := some b
      mailboxes := Function.update s.mailboxes id [] } := by
  have hlt : s.nextController < id := UInt64.lt_iff_toNat_lt.mpr (by omega)
  have hpolled : ∀ c,
      polled c (tr ++ [(Call.admitController mode now, Reply.admitted ⟨id, mode⟩)]) = polled c tr :=
    fun c => polled_of_none rfl
  have hacc : ∀ c,
      accepted c (tr ++ [(Call.admitController mode now, Reply.admitted ⟨id, mode⟩)]) =
        accepted c tr :=
    fun c => accepted_of_none rfl
  refine ⟨fun c hc => ?_, fun c hover => ?_⟩
  · rw [hpolled, hacc]
    exact h.fresh c (UInt64.lt_trans hlt hc)
  · by_cases hc : c = id
    · subst hc
      obtain ⟨hnone, hunpolled⟩ := h.fresh c hlt
      have hawait : ({ s with
          nextController := c
          active := some b
          mailboxes := Function.update s.mailboxes c [] } : State).awaited c = [] := by
        have hout : s.outstanding = [] := by
          rw [State.outstanding, State.flying_of_none (hl.flight_eq_none ha), hl.queue_eq_nil ha]
          rfl
        rw [State.awaited]
        split_ifs
        · exact hout
        · rfl
      have hposted : posted c
          (tr ++ [(Call.admitController mode now, Reply.admitted ⟨c, mode⟩)]) { s with
          nextController := c
          active := some b
          mailboxes := Function.update s.mailboxes c [] } = [] := by
        rw [posted, hpolled, hunpolled]
        exact Function.update_self _ _ _
      refine ⟨?_, ?_, ?_, fun d hd _ => ?_⟩
      · rw [ledger_eq, hawait, hposted, hacc, hnone]
        rfl
      · rw [ledger_eq, hawait, hposted]
        exact List.nodup_nil
      · rw [ledger_eq, hawait, hposted]
        exact fun q hq => (by cases hq)
      · rw [ledger_eq, hawait, hposted, hacc, hnone]
        exact ⟨Nat.zero_le _, fun q hq => (by cases hq), fun st hst => (by cases hst)⟩
    · refine (h.settled c hover).keeps (.other (fun d hd => ?_) (fun d hd => ?_)
        (Function.update_of_ne hc _ _)) (hacc c) (hpolled c)
      · cases ha.symm.trans hd
      · cases hd
        exact fun h0 => hc (h0.symm.trans hb)

/-- A call that returns without having done anything accepts nothing. -/
lemma submission_of_idles (h : s.Idles l r) : submission (l, r) = none := by
  cases l with
  | submit p now epoch sequence event =>
      rcases h with ⟨rfl, -⟩ | ⟨rfl, -⟩ <;> rfl
  | _ => rfl

/-- **Every call keeps the books**, if a cleanup that fails finds nothing queued. -/
lemma Books.acts (h : Books tr s) (hs : Reached s) (hC : s.FailsEmpty l)
    (hacts : s.Acts l r s') : Books (tr ++ [(l, r)]) s' := by
  have ho : s.Owned := State.owned_of_reached hs
  have general := h.general hs hC hacts
  cases hacts with
  | idle l r hi =>
      refine general (submission_of_idles hi) (fun p hp => ?_) fun d hd => ?_
      · subst hp
        exact hi
      · subst hd
        exact State.not_admitted_of_idles hi
  | admitted mode now id hfail ha hmode hid => exact h.of_admitted hs.linked ha hid rfl
  | superseded p now epoch sequence event a front tail motion s' hr hm hq hop hmot hcount =>
      exact h.of_superseded ho hr hq hcount
  | accepted p now epoch sequence event a hr hmot hroom hbytes => exact h.of_accepted ho hr
  | polled p =>
      refine ⟨fun c hc => ?_, fun c hover => (h.settled c hover).of_polled p⟩
      have hposted := posted_poll tr s p c
      have hfresh := h.fresh c hc
      have hbox : s.mailboxes c = [] := (ho.fresh c hc).1
      refine ⟨(accepted_of_none rfl).trans hfresh.1, ?_⟩
      rw [posted, posted, hfresh.2, hbox] at hposted
      exact (List.append_eq_nil_iff.mp hposted).1
  | close l p a s' hl ha hid hc =>
      rcases hl with rfl | rfl <;>
        exact general rfl (fun q hq => by cases hq) fun d hd => by cases hd
  | _ => exact general rfl (fun q hq => by cases hq) fun d hd => by cases hd

end

/-- The accounts balance in every run in which a cleanup that fails finds nothing queued. -/
lemma Run.books {config : Config} {tr : Trace} {s : State} (h : Run config State.FailsEmpty tr s) :
    Books tr s := by
  refine h.traced State.failsEmpty_timed (fun s₀ hnew => ?_) (fun tr s s' _ h0 hc => ?_)
    fun tr s l r s' hs hC h0 hacts => h0.acts hs hC hacts
  · rw [(State.new_eq hnew).1]
    refine ⟨fun _ _ => ⟨rfl, rfl⟩, fun c _ => ⟨rfl, List.nodup_nil, fun q hq => ?_, fun a ha => ?_⟩⟩
    · cases hq
    · cases ha
  · refine ⟨fun c hcn => h0.fresh c (hc.frame.nextController ▸ hcn), fun c hover => ?_⟩
    exact (h0.settled c (hc.not_overflowed hover)).keeps (hc.keeps hover) rfl rfl

/-- Nothing is awaited behind `Closed`. -/
lemma Settled.settled_of_closed {tr : Trace} {s : State} {c : UInt64} (h : Settled tr s c)
    {reason : Reason} {clean : Bool} (hclosed : .closed reason clean ∈ posted c tr s) :
    (accepted c tr).length = settled (posted c tr s) := by
  have hcount := h.count
  have hawait : s.awaited c = [] := by
    refine State.awaited_eq_nil fun a ha hid => ?_
    have hopen := (h.active a ha hid).2.2 _ hclosed
    cases hopen
  rw [ledger_eq, hawait, List.map_nil, List.append_nil] at hcount
  rw [settled_eq]
  exact hcount

/-- **Every accepted operation is settled exactly once**, in every run in which a cleanup
that fails finds nothing queued. For a controller whose mailbox does not overflow, what
has been accepted has been settled, is queued or is in flight; no sequence number is
settled twice; and when `Closed` is posted nothing is left. -/
theorem settled_once {config : Config} {tr : Trace} {s : State}
    (h : Run config State.FailsEmpty tr s) {c : UInt64} (hover : s.overflowed c = false) :
    (∀ a, s.active = some a → a.id = c → (accepted c tr).length =
      settled (posted c tr s) + s.queue.length + s.flying.length) ∧
      (sequences (posted c tr s)).Nodup ∧
      ∀ reason clean, .closed reason clean ∈ posted c tr s →
        (accepted c tr).length = settled (posted c tr s) := by
  obtain ⟨hcount, hnodup, -, -⟩ := h.books.settled c hover
  rw [ledger_eq] at hcount hnodup
  rw [List.length_append, List.length_map] at hcount
  refine ⟨fun a ha hid => ?_, List.Nodup.of_append_left hnodup, fun reason clean hclosed => ?_⟩
  · have hawait : (s.awaited c).length = s.flying.length + s.queue.length := by
      rw [← hid, State.awaited_self ha, State.outstanding, List.length_append]
    rw [settled_eq]
    omega
  · exact (h.books.settled c hover).settled_of_closed hclosed

/-- Text waits while a new geometry calls for a `Pointer` cleanup. -/
def waiting : List Call :=
  [.admitController .cooperative 0,
    .submit ⟨1, .cooperative⟩ 0 1 1 (.text "a"),
    .setGeometry { tiny.geometry with revision := 2 },
    .next 0]

/-- The cleanup is executed, and the text after it. -/
def preserved : List Call := waiting ++ [Call.complete 2 .executed, .next 0, .complete 1 .executed]

theorem settled_once_preserved :
    let x := record State.call { config := tiny } preserved
    (∀ a, x.2.active = some a → a.id = 1 → (accepted 1 x.1).length =
      settled (posted 1 x.1 x.2) + x.2.queue.length + x.2.flying.length) ∧
      (sequences (posted 1 x.1 x.2)).Nodup ∧
      ∀ reason clean, .closed reason clean ∈ posted 1 x.1 x.2 →
        (accepted 1 x.1).length = settled (posted 1 x.1 x.2) := by
  have hmeets : meets State.call
      (fun s l => match l with
        | .complete _ outcome => outcome == .executed || s.queue.isEmpty
        | _ => true) { config := tiny } preserved = true := by decide +kernel
  have hrun : Run tiny State.FailsEmpty (record State.call { config := tiny } preserved).1
      (record State.call { config := tiny } preserved).2 := by
    refine ⟨{ config := tiny }, new_tiny, Runs.of_meets ?_ hmeets⟩
    rintro s l h id outcome f rfl - - - hout
    rcases Bool.or_eq_true_iff.mp h with h | h
    · exact absurd (beq_iff_eq.mp h) hout
    · exact List.isEmpty_iff.mp h
  exact settled_once hrun (by decide +kernel)

/-- **A failed `Pointer` cleanup drops kept text without a status**: `Closed` is posted,
and an accepted operation has been settled by nothing. -/
theorem kept_text_lost :
    ¬ ∀ (config : Config) (tr : Trace) (s : State) (c : UInt64), Run config Always tr s →
      s.overflowed c = false → ∀ reason clean, .closed reason clean ∈ posted c tr s →
        (accepted c tr).length = settled (posted c tr s) := by
  intro h
  have hrun := Run.of_record tiny new_tiny (waiting ++ [.complete 2 .uncertain])
  have hlost := h tiny _ _ 1 hrun (by decide +kernel) .geometry false (by decide +kernel)
  revert hlost
  decide +kernel

end Jackstay.Input
