import Jackstay.Acquisition.Arena.Cleanup
import Jackstay.Acquisition.Arena.Publication
import Jackstay.Acquisition.Arena.Replacement

/-!
`acquisition/arena.rs`, `arena/writer.rs`, `arena/reconfiguration.rs`: publication and
notification.

`publish`, `commit` and `reconfigure_cpu` store first and then call `ClaimMap::signal` on
every claim page. `Arena.tellingStep` runs the arena with a history variable beside it: the
consumers that have been told since `LATEST` or `RECONFIGURATION_EPOCH` last advanced. A
consumer is told when its interest is found not to include the event, or when its channel
takes the wake.

* `Arena.Stage`: what a call has stored, and whom it has told, at each of its steps.
* `publication_notified`: if no wake fails, a call that returns an error has published
  nothing, or has left a replacement to be tried again; and if something has advanced,
  every consumer has been told.
* `notification_not_atomic`: a replacement whose maps cannot be created stays pending behind
  the error, and a frame whose wake fails is published behind one.
-/

namespace Jackstay.Acquisition

open Transition

/-! ### The steps on a page -/

/-- Only the producer's own steps on the page change its call there. -/
lemma Incarnation.Acts.hosting {sh : Shared} {inc inc' : Incarnation} (h : inc.Acts sh inc') :
    (inc'.host = inc.host ∧ inc'.hostFault = inc.hostFault) ∨
      ∃ e, inc.hostStep e = some inc' := by
  cases h with
  | call t _ hx hs =>
      obtain ⟨call, -, ⟨pc, -, rfl⟩ | ⟨o, -, rfl⟩ | ⟨c, idx, k, m, x, -, -, -, rfl⟩⟩ :=
        callStep_shape hs
      · exact Or.inl ⟨rfl, rfl⟩
      · exact Or.inl ⟨rfl, rfl⟩
      · exact Or.inl ⟨rfl, rfl⟩
  | use k u e _ hx hu hs =>
      left
      cases useActs_of_step hs <;> exact ⟨rfl, rfl⟩
  | defer k t v e u m =>
      left
      rw [handoff]
      split_ifs <;> exact ⟨rfl, rfl⟩
  | waiter w e _ hx hw hs =>
      obtain ⟨waiter, interest, bytes, rfl⟩ := waiterStep_shape hs
      exact Or.inl ⟨rfl, rfl⟩
  | thread t e _ hs =>
      left
      rw [threadStep] at hs
      split at hs
      case h_2 => cases hs
      split_ifs at hs
      obtain ⟨⟨i, next⟩, hop, hi⟩ := Option.map_eq_some_iff.mp hs
      obtain ⟨a, q, c, ms, g, maps, consumer, todo, sources, w, returns, rfl, -⟩ :=
        ThreadOp.exec_shape hop
      subst hi
      exact ⟨rfl, rfl⟩
  | retire e _ hs =>
      left
      rw [retireStep] at hs
      split at hs
      case h_2 => cases hs
      rename_i op rest htodo
      split_ifs at hs
      cases hs
      have hstatic := op.exec_static e
        { inc with retirement := { inc.retirement with todo := rest } }
      exact ⟨hstatic.host, hstatic.hostFault⟩
  | observe e _ hs =>
      left
      rw [observeStep] at hs
      split at hs
      case h_2 => cases hs
      rename_i op rest htodo
      cases hs
      have hstatic := op.exec_static sh.native e inc
      exact ⟨hstatic.host, hstatic.hostFault⟩
  | host e _ hs => exact Or.inr ⟨e, hs⟩
  | _ => exact Or.inl ⟨rfl, rfl⟩

/-- **The steps of `ClaimMap::signal`**: the interest is loaded, the channel is woken, and
a peer that is gone is noted. -/
lemma Incarnation.signal_step {e : Env} {inc inc' : Incarnation} {event : Event}
    (hs : inc.hostStep e = some inc')
    (hhost : inc.host = [.page (.interest event)] ∨ inc.host = [.page .wake] ∨
      inc.host = [.page .inactive] ∨ inc.host = []) :
    (inc.host = [.page (.interest event)] ∧ inc'.hostFault = inc.hostFault ∧
        (inc'.host = [] ∨ inc'.host = [.page .wake])) ∨
      (inc.host = [.page .wake] ∧ (inc'.host = [] ∨ inc'.host = [.page .inactive])) ∨
      (inc.host = [.page .inactive] ∧ inc'.hostFault = inc.hostFault ∧ inc'.host = []) := by
  obtain ⟨op, rest, hop, rfl⟩ := hostStep_shape hs
  rcases hhost with hhost | hhost | hhost | hhost
  · rw [hhost] at hop
    cases hop
    refine Or.inl ⟨hhost, ?_, ?_⟩
    · simp only [HostOp.exec, PageOp.exec]
      exact Bool.or_false _
    · simp only [HostOp.exec, PageOp.exec]
      split_ifs
      · exact Or.inr rfl
      · exact Or.inl rfl
  · rw [hhost] at hop
    cases hop
    refine Or.inr (Or.inl ⟨hhost, ?_⟩)
    simp only [HostOp.exec, PageOp.exec]
    split_ifs
    · exact Or.inr rfl
    · exact Or.inl rfl
    · exact Or.inl rfl
    · exact Or.inl rfl
  · rw [hhost] at hop
    cases hop
    refine Or.inr (Or.inr ⟨hhost, ?_, rfl⟩)
    simp only [HostOp.exec, PageOp.exec]
    exact Bool.or_false _
  · rw [hhost] at hop
    cases hop

namespace Arena

variable {s t u : Arena} {told : List ℕ}

/-! ### Who has been told -/

/-- **The consumer is told of the event**: its interest is found not to include it, or its
channel takes the wake, or its reader is found gone. -/
def Tells (event : Event) (inc inc' : Incarnation) : Prop :=
  inc.host = [.page (.interest event)] ∧ inc'.host = [] ∨
    inc.host = [.page .wake] ∧ inc'.host ≠ [.page .wake] ∧ inc'.hostFault = false

instance (event : Event) (inc inc' : Incarnation) : Decidable (Tells event inc inc') :=
  inferInstanceAs (Decidable (_ ∨ _))

/-- The consumers that have been told since something last advanced, after a step from `a`
to `b`. -/
def telling (a b : Arena) (told : List ℕ) : List ℕ :=
  if b.shared.control.latest ≠ a.shared.control.latest ∨
      b.shared.control.reconfigurationEpoch ≠ a.shared.control.reconfigurationEpoch then []
  else match a.producer.pc with
    | .paged (.signal event) i _ _ =>
        match a.incarnations i, b.incarnations i with
        | some inc, some inc' => if Tells event inc inc' then i :: told else told
        | _, _ => told
    | _ => told

/-- A step of the arena, with the history variable. -/
def tellingStep (p : Arena × List ℕ) (l : Label) : Option (Arena × List ℕ) :=
  (p.1.step l).map fun b => (b, telling p.1 b p.2)

/-- The wake that the producer has sent to the consumer it is at has not failed. -/
def Sound (s : Arena) : Prop :=
  ∀ event i todo after inc, s.producer.pc = .paged (.signal event) i todo after →
    s.incarnations i = some inc → inc.hostFault = false

/-- The producer's call is running, and none of its wakes has failed. -/
def Calling (p : Arena × List ℕ) (_ : Label) : Prop := p.1.producer.pc ≠ .idle ∧ p.1.Sound

/-! ### The stages of a call -/

/-- **Nothing is published**: what the call found is as it was. -/
structure Untouched (s t : Arena) : Prop where
  latest : t.shared.control.latest = s.shared.control.latest
  ring : t.shared.control.ring = s.shared.control.ring
  epoch : t.shared.control.reconfigurationEpoch = s.shared.control.reconfigurationEpoch
  cursor : t.producer.cursor = s.producer.cursor
  resources : t.producer.resources = s.producer.resources
  pendingLayout : t.producer.pendingLayout = s.producer.pendingLayout

/-- **A replacement is pending** behind the allocation that the call has retired. -/
structure Started (s t : Arena) : Prop where
  latest : t.shared.control.latest = s.shared.control.latest
  ring : t.shared.control.ring = s.shared.control.ring
  cursor : t.producer.cursor = s.producer.cursor
  resources : t.producer.resources = none
  pendingLayout : t.producer.pendingLayout.isSome

/-- Every consumer has been told. -/
def AllTold (told : List ℕ) (t : Arena) : Prop := ∀ i ∈ t.producer.claims, i ∈ told

/-- If something has advanced, every consumer has been told. -/
def Announced (s : Arena) (told : List ℕ) (t : Arena) : Prop :=
  t.shared.control.latest = s.shared.control.latest ∧
      t.shared.control.reconfigurationEpoch = s.shared.control.reconfigurationEpoch ∨
    AllTold told t

/-- The calls that store and notify. -/
def Op.notifies : Op → Bool
  | .publish _ => true
  | .commit _ _ _ => true
  | .reconfigureCpu _ => true
  | _ => false

/-- The call that replaces the allocation. -/
def Op.replaces : Op → Bool
  | .reconfigureCpu _ => true
  | _ => false

end Arena

/-- The errors of a closed arena. -/
def ArenaError.isTerminal : ArenaError → Bool
  | .closed => true
  | .generationsExhausted => true
  | _ => false

/-- No error, or the error of a closed arena. -/
def Outcome.Ends (o : Outcome) : Prop := ∀ e, o = .error e → e.isTerminal = true

/-- The call is going to return such an outcome. -/
def After.Ends : After → Prop
  | .finish o => o.Ends
  | .release _ _ o => o.Ends
  | _ => False

lemma Outcome.ends_published (cursor : ℕ) : (Outcome.published cursor).Ends := by
  rintro e ⟨⟩

lemma Outcome.ends_ready (generation : ℕ) : (Outcome.ready generation).Ends := by
  rintro e ⟨⟩

lemma Outcome.ends_exhausted : (Outcome.error .generationsExhausted).Ends := by
  rintro e ⟨⟩
  rfl

namespace Arena

variable {s t u : Arena} {told : List ℕ} {op : Op}

/-- What a call leaves. -/
def Settled (op : Op) (s : Arena) (told : List ℕ) (t : Arena) (o : Outcome) : Prop :=
  Announced s told t ∧ (Untouched s t ∨ op.replaces = true ∧ Started s t ∨ o.Ends)

/-- A replacement is pending, and the call is the one that has proposed it. -/
def Replacing (op : Op) (s t : Arena) : Prop := op.replaces = true ∧ Started s t

/-- What follows the announcement of an event: a call that has succeeded, or the attempt
to install the replacement. -/
def Follows (op : Op) (s t : Arena) (after : After) : Prop :=
  after.Ends ∨ after = .advance ∧ Replacing op s t

/-- The consumer is being told of the event, or has been. -/
def Signalling (told : List ℕ) (t : Arena) (event : Event) (i : ℕ) : Prop :=
  ∃ inc, t.incarnations i = some inc ∧ (inc.host = [.page (.interest event)] ∨
    inc.host = [.page .wake] ∨
    (inc.host = [.page .inactive] ∨ inc.host = []) ∧ (inc.hostFault = false → i ∈ told))

/-- **What a call has stored and whom it has told, by where it is.** -/
def StageAt (op : Op) (s : Arena) (told : List ℕ) (t : Arena) : Pc → Prop
  | .idle => Settled op s told t t.producer.outcome
  | .terminal (.publish _) | .cleanup _ (.publish _) | .resume (.publish _) => Untouched s t
  | .terminal .advance | .cleanup _ .advance | .resume .advance =>
      Replacing op s t ∧ AllTold told t
  | .scan _ _ | .scanState _ _ | .scanRetire _ _ _ | .scanClaims _ _ _ _ | .reserveFlag _
  | .prepare _ | .copy _ _ _ | .commit _ _ _ => Untouched s t
  | .begin _ _ | .unconfigure _ | .unpublishLoad _ _ | .unpublish _ _ _ | .firstCursor _ =>
      op.replaces = true ∧ Untouched s t
  | .describe _ after | .store _ after | .ring _ after => Untouched s t ∧ after.Ends
  | .latest _ after => after.Ends
  | .release _ _ o => Settled op s told t o
  | .configure _ => AllTold told t
  | .epochLoad after | .epoch _ after =>
      Replacing op s t ∧ after = .advance ∧
        t.shared.control.reconfigurationEpoch = s.shared.control.reconfigurationEpoch ∨
      after.Ends ∧ AllTold told t
  | .terminate after | .pages .close _ after | .paged .close _ _ after =>
      Announced s told t ∧ after.Ends
  | .pages (.signal _) todo after =>
      (∀ i ∈ t.producer.claims, i ∈ todo ∨ i ∈ told) ∧ Follows op s t after
  | .paged (.signal event) i todo after =>
      (∀ j ∈ t.producer.claims, j = i ∨ j ∈ todo ∨ j ∈ told) ∧ Follows op s t after ∧
        Signalling told t event i
  | _ => False

/-- The stage of the call. -/
def Stage (op : Op) (s : Arena) (told : List ℕ) (t : Arena) : Prop :=
  StageAt op s told t t.producer.pc

lemma Untouched.announced (h : Untouched s t) : Announced s told t := Or.inl ⟨h.latest, h.epoch⟩

lemma Untouched.settled (h : Untouched s t) (o : Outcome) : Settled op s told t o :=
  ⟨h.announced, Or.inl h⟩

/-- The control words that a call publishes with are as they were. -/
def SameWords (t u : Arena) : Prop :=
  u.shared.control.latest = t.shared.control.latest ∧
    u.shared.control.ring = t.shared.control.ring ∧
    u.shared.control.reconfigurationEpoch = t.shared.control.reconfigurationEpoch

/-- The producer's own fields that a call publishes with are as they were. -/
def SameFields (t u : Arena) : Prop :=
  u.producer.cursor = t.producer.cursor ∧ u.producer.resources = t.producer.resources ∧
    u.producer.pendingLayout = t.producer.pendingLayout

lemma Untouched.of_same (h : Untouched s t) (hwords : SameWords t u) (hfields : SameFields t u) :
    Untouched s u :=
  ⟨hwords.1.trans h.latest, hwords.2.1.trans h.ring, hwords.2.2.trans h.epoch,
    hfields.1.trans h.cursor, hfields.2.1.trans h.resources, hfields.2.2.trans h.pendingLayout⟩

lemma Started.of_same (h : Started s t) (hwords : SameWords t u) (hfields : SameFields t u) :
    Started s u := by
  refine ⟨hwords.1.trans h.latest, hwords.2.1.trans h.ring, hfields.1.trans h.cursor,
    hfields.2.1.trans h.resources, ?_⟩
  rw [hfields.2.2]
  exact h.pendingLayout

lemma Replacing.of_same (h : Replacing op s t) (hwords : SameWords t u)
    (hfields : SameFields t u) : Replacing op s u := ⟨h.1, h.2.of_same hwords hfields⟩

lemma Follows.of_same {after : After} (h : Follows op s t after) (hwords : SameWords t u)
    (hfields : SameFields t u) : Follows op s u after :=
  h.imp_right fun h0 => ⟨h0.1, h0.2.of_same hwords hfields⟩

lemma Announced.of_same (h : Announced s told t) (hwords : SameWords t u)
    (hclaims : u.producer.claims = t.producer.claims) : Announced s told u := by
  rcases h with ⟨hlatest, hepoch⟩ | htold
  · exact Or.inl ⟨hwords.1.trans hlatest, hwords.2.2.trans hepoch⟩
  · right
    rw [AllTold, hclaims]
    exact htold

lemma Settled.of_same {o : Outcome} (h : Settled op s told t o) (hwords : SameWords t u)
    (hfields : SameFields t u) (hclaims : u.producer.claims = t.producer.claims) :
    Settled op s told u o := by
  refine ⟨h.1.of_same hwords hclaims, ?_⟩
  rcases h.2 with h0 | ⟨hop, h0⟩ | h0
  · exact Or.inl (h0.of_same hwords hfields)
  · exact Or.inr (Or.inl ⟨hop, h0.of_same hwords hfields⟩)
  · exact Or.inr (Or.inr h0)

lemma Settled.of_ends {o : Outcome} (h : Announced s told t) (ho : o.Ends) :
    Settled op s told t o := ⟨h, Or.inr (Or.inr ho)⟩

/-- Nothing has advanced and nobody is told: the history variable stays. -/
lemma telling_of_pc (hstill : u.shared.control.latest = t.shared.control.latest ∧
      u.shared.control.reconfigurationEpoch = t.shared.control.reconfigurationEpoch)
    (hpc : ∀ event i todo after, t.producer.pc ≠ .paged (.signal event) i todo after) :
    telling t u told = told := by
  rw [telling, if_neg (by rintro (h | h); exacts [h hstill.1, h hstill.2])]
  split
  · rename_i event i todo after heq
    exact absurd heq (hpc event i todo after)
  · rfl

/-- Nothing has advanced: whoever has been told stays so. -/
lemma mem_telling (hwords : SameWords t u) {i : ℕ} (h : i ∈ told) : i ∈ telling t u told := by
  rw [telling, if_neg (by rintro (h0 | h0); exacts [h0 hwords.1, h0 hwords.2.2])]
  split
  · split
    · split_ifs
      · exact List.mem_cons_of_mem _ h
      · exact h
    · exact h
  · exact h

/-- The consumer that the producer is at is told. -/
lemma mem_telling_of_tells (hwords : SameWords t u) {event : Event} {i : ℕ} {todo : List ℕ}
    {after : After} (hpc : t.producer.pc = .paged (.signal event) i todo after)
    {inc inc' : Incarnation} (hi : t.incarnations i = some inc)
    (hi' : u.incarnations i = some inc') (h : Tells event inc inc') :
    i ∈ telling t u told := by
  rw [telling, if_neg (by rintro (h0 | h0); exacts [h0 hwords.1, h0 hwords.2.2])]
  simp only [hpc, hi, hi', if_pos h, List.mem_cons, true_or]

/-! ### Steps of the others -/

/-- A step that leaves the producer and the control words alone leaves the stage, but for
the consumer that the producer is at. -/
lemma StageAt.of_same {pc : Pc} (h : StageAt op s told t pc) (hp : u.producer = t.producer)
    (hc : u.shared.control = t.shared.control)
    (hpc : ∀ event i todo after, pc ≠ .paged (.signal event) i todo after) :
    StageAt op s told u pc := by
  have hwords : SameWords t u := by simp only [SameWords, hc, and_self]
  have hfields : SameFields t u := by simp only [SameFields, hp, and_self]
  have hclaims : u.producer.claims = t.producer.claims := by rw [hp]
  have htold : AllTold told t → AllTold told u := fun h0 => by
    rw [AllTold, hclaims]
    exact h0
  cases pc with
  | idle =>
      have h' : Settled op s told t t.producer.outcome := h
      have hgoal : Settled op s told u u.producer.outcome := by
        rw [hp]
        exact h'.of_same hwords hfields hclaims
      exact hgoal
  | terminal goal =>
      cases goal with
      | publish source => exact Untouched.of_same h hwords hfields
      | advance => exact ⟨h.1.of_same hwords hfields, htold h.2⟩
      | _ => exact h
  | cleanup c goal =>
      cases goal with
      | publish source => exact Untouched.of_same h hwords hfields
      | advance => exact ⟨h.1.of_same hwords hfields, htold h.2⟩
      | _ => exact h
  | resume goal =>
      cases goal with
      | publish source => exact Untouched.of_same h hwords hfields
      | advance => exact ⟨h.1.of_same hwords hfields, htold h.2⟩
      | _ => exact h
  | scan w off => exact Untouched.of_same h hwords hfields
  | scanState w off => exact Untouched.of_same h hwords hfields
  | scanRetire w off generation => exact Untouched.of_same h hwords hfields
  | scanClaims w off generation probes => exact Untouched.of_same h hwords hfields
  | reserveFlag index => exact Untouched.of_same h hwords hfields
  | prepare off => exact Untouched.of_same h hwords hfields
  | copy index descriptor bytes => exact Untouched.of_same h hwords hfields
  | commit g index descriptor => exact Untouched.of_same h hwords hfields
  | begin payloadCapacity externalBytes => exact ⟨h.1, h.2.of_same hwords hfields⟩
  | unconfigure layout => exact ⟨h.1, h.2.of_same hwords hfields⟩
  | unpublishLoad layout index => exact ⟨h.1, h.2.of_same hwords hfields⟩
  | unpublish layout index state => exact ⟨h.1, h.2.of_same hwords hfields⟩
  | firstCursor layout => exact ⟨h.1, h.2.of_same hwords hfields⟩
  | describe p after => exact ⟨h.1.of_same hwords hfields, h.2⟩
  | store p after => exact ⟨h.1.of_same hwords hfields, h.2⟩
  | ring p after => exact ⟨h.1.of_same hwords hfields, h.2⟩
  | latest p after => exact h
  | release g index o => exact Settled.of_same h hwords hfields hclaims
  | configure g => exact htold h
  | epochLoad after =>
      exact h.imp (fun h0 => ⟨h0.1.of_same hwords hfields, h0.2.1, hwords.2.2.trans h0.2.2⟩)
        fun h0 => ⟨h0.1, htold h0.2⟩
  | epoch value after =>
      exact h.imp (fun h0 => ⟨h0.1.of_same hwords hfields, h0.2.1, hwords.2.2.trans h0.2.2⟩)
        fun h0 => ⟨h0.1, htold h0.2⟩
  | terminate after => exact ⟨h.1.of_same hwords hclaims, h.2⟩
  | pages call todo after =>
      cases call with
      | close => exact ⟨h.1.of_same hwords hclaims, h.2⟩
      | signal event =>
          refine ⟨?_, h.2.of_same hwords hfields⟩
          rw [hclaims]
          exact h.1
  | paged call i todo after =>
      cases call with
      | close => exact ⟨h.1.of_same hwords hclaims, h.2⟩
      | signal event => exact absurd rfl (hpc event i todo after)
  | _ => exact h

/-- The others take a step of one consumer, or leave all consumers alone. -/
lemma step_incarnation {l : Label} (hpc : t.producer.pc ≠ .idle) (hl : ∀ e, l ≠ .producer e)
    (hs : t.step l = some u) :
    (∃ j inc inc', t.incarnations j = some inc ∧ inc.Acts t.shared inc' ∧
        u = { t with incarnations := Function.update t.incarnations j (some inc') }) ∨
      u.incarnations = t.incarnations := by
  cases l with
  | call op =>
      rw [step, if_neg hpc] at hs
      cases hs
  | producer e => exact absurd rfl (hl e)
  | incarnation j l =>
      simp only [step, Option.bind_eq_bind, Option.bind_eq_some_iff] at hs
      obtain ⟨inc, hj, inc', hstep, heq⟩ := hs
      cases heq
      exact Or.inl ⟨j, inc, inc', hj, Incarnation.acts_of_step hstep, rfl⟩
  | _ =>
      simp only [step] at hs
      split_ifs at hs
      cases hs
      exact Or.inr rfl

/-- The consumer that the producer is at takes a step, or another one does. -/
lemma Signalling.incarnation {event : Event} {i j : ℕ} {todo : List ℕ} {after : After}
    (hpc : t.producer.pc = .paged (.signal event) i todo after) {inc inc' : Incarnation}
    (hj : t.incarnations j = some inc) (ha : inc.Acts t.shared inc')
    (h : Signalling told t event i) :
    Signalling (telling t { t with incarnations := Function.update t.incarnations j (some inc') }
        told) { t with incarnations := Function.update t.incarnations j (some inc') } event i := by
  obtain ⟨cur, hcur, hwhere⟩ := h
  have hwords : SameWords t
      { t with incarnations := Function.update t.incarnations j (some inc') } := ⟨rfl, rfl, rfl⟩
  by_cases hij : i = j
  swap
  · refine ⟨cur, ?_, ?_⟩
    · exact (Function.update_of_ne hij _ _).trans hcur
    · exact hwhere.imp_right fun h0 => h0.imp_right fun h1 =>
        ⟨h1.1, fun h2 => mem_telling hwords (h1.2 h2)⟩
  subst hij
  cases hcur.symm.trans hj
  have hupd : Function.update t.incarnations i (some inc') i = some inc' :=
    Function.update_self _ _ _
  refine ⟨inc', hupd, ?_⟩
  rcases ha.hosting with ⟨hhost, hfault⟩ | ⟨e, hstep⟩
  · rw [hhost, hfault]
    exact hwhere.imp_right fun h0 => h0.imp_right fun h1 =>
      ⟨h1.1, fun h2 => mem_telling hwords (h1.2 h2)⟩
  have hlist : inc.host = [.page (.interest event)] ∨ inc.host = [.page .wake] ∨
      inc.host = [.page .inactive] ∨ inc.host = [] := by
    rcases hwhere with h0 | h0 | ⟨h0, -⟩
    · exact Or.inl h0
    · exact Or.inr (Or.inl h0)
    · exact Or.inr (Or.inr h0)
  rcases Incarnation.signal_step hstep hlist with
    ⟨hold, -, hnew | hnew⟩ | ⟨hold, hnew⟩ | ⟨hold, hfault, hnew⟩
  · -- the interest does not include the event
    refine Or.inr (Or.inr ⟨Or.inr hnew, fun _ => ?_⟩)
    exact mem_telling_of_tells hwords hpc hj hupd (Or.inl ⟨hold, hnew⟩)
  · exact Or.inr (Or.inl hnew)
  · -- the channel is woken
    refine Or.inr (Or.inr ⟨hnew.symm, fun hok => ?_⟩)
    have hmoved : inc'.host ≠ [.page .wake] := by
      rcases hnew with h0 | h0 <;> rw [h0] <;> simp
    exact mem_telling_of_tells hwords hpc hj hupd (Or.inr ⟨hold, hmoved, hok⟩)
  · -- the reader is gone
    refine Or.inr (Or.inr ⟨Or.inr hnew, fun hok => mem_telling hwords ?_⟩)
    rcases hwhere with h0 | h0 | ⟨-, h0⟩
    · rw [hold] at h0
      cases h0
    · rw [hold] at h0
      cases h0
    · exact h0 (hfault ▸ hok)

/-- **A step of another party** during the call. -/
lemma Stage.other (h : Stage op s told t) (hbusy : t.producer.pc ≠ .idle) {l : Label}
    (hl : ∀ e, l ≠ .producer e) (hs : t.step l = some u) : Stage op s (telling t u told) u := by
  obtain ⟨hp, hc, -⟩ := step_other hbusy hl hs
  have hwords : SameWords t u := by simp only [SameWords, hc, and_self]
  have hfields : SameFields t u := by simp only [SameFields, hp, and_self]
  by_cases hsignal : ∃ event i todo after, t.producer.pc = .paged (.signal event) i todo after
  swap
  · have hpc : ∀ event i todo after, t.producer.pc ≠ .paged (.signal event) i todo after :=
      fun event i todo after h0 => hsignal ⟨event, i, todo, after, h0⟩
    rw [telling_of_pc ⟨hwords.1, hwords.2.2⟩ hpc, Stage, hp]
    exact StageAt.of_same h hp hc hpc
  obtain ⟨event, i, todo, after, hpc⟩ := hsignal
  rw [Stage, hpc] at h
  obtain ⟨hclaims, hfollows, hsignalling⟩ := h
  have hgoal : (∀ j ∈ u.producer.claims, j = i ∨ j ∈ todo ∨ j ∈ telling t u told) ∧
      Follows op s u after ∧ Signalling (telling t u told) u event i := by
    refine ⟨fun j hj => ?_, hfollows.of_same hwords hfields, ?_⟩
    · rw [hp] at hj
      exact (hclaims j hj).imp_right fun h0 => h0.imp_right (mem_telling hwords)
    obtain ⟨j, inc, inc', hj, ha, rfl⟩ | hsame := step_incarnation hbusy hl hs
    · exact hsignalling.incarnation hpc hj ha
    · obtain ⟨inc, hi, hwhere⟩ := hsignalling
      refine ⟨inc, by rw [hsame]; exact hi, ?_⟩
      exact hwhere.imp_right fun h0 => h0.imp_right fun h1 =>
        ⟨h1.1, fun h2 => mem_telling hwords (h1.2 h2)⟩
  rw [Stage, hp, hpc]
  exact hgoal

/-! ### Steps of the producer -/

/-- Only two stores advance what consumers wait for. -/
lemma Acts.still (h : Ledger t) (hs : t.Acts u) :
    u.shared.control.latest = t.shared.control.latest ∧
        u.shared.control.reconfigurationEpoch = t.shared.control.reconfigurationEpoch ∨
      (∃ p after, t.producer.pc = .latest p after) ∨
        ∃ value after, t.producer.pc = .epoch value after := by
  have books : t.Books u →
      u.shared.control.latest = t.shared.control.latest ∧
        u.shared.control.reconfigurationEpoch = t.shared.control.reconfigurationEpoch :=
    fun hb => by rw [hb.control]; exact ⟨rfl, rfl⟩
  cases hs with
  | latest p after hpc => exact Or.inr (Or.inl ⟨p, after, hpc⟩)
  | epoch value after hpc => exact Or.inr (Or.inr ⟨value, after, hpc⟩)
  | collect i todo goal hd => exact Or.inl (books (h.collect_books hd))
  | reclaim index goal r hpc hr =>
      exact Or.inl (books (h.reclaim_books (by rw [hpc]; rfl) hr goal))
  | ready index goal r hpc hr =>
      have hb := h.ready_books (by rw [hpc]; rfl) hr goal
      exact Or.inl (by rw [hb.control]; exact ⟨rfl, rfl⟩)
  | attach e holding remote hpc =>
      exact Or.inl (books (h.attach_books (by rw [hpc]; rfl) e holding remote))
  | advance e hpc => exact Or.inl (books (h.advance_books (by rw [hpc]; rfl) e))
  | begin payloadCapacity externalBytes hpc =>
      exact Or.inl (books (h.begin_books (by rw [hpc]; rfl) _ _))
  | close call i hpc => exact Or.inl (books (h.close_books i))
  | _ => exact Or.inl ⟨rfl, rfl⟩

/-- What `poll_cleanup` leaves alone. -/
lemma Acts.keeps (h : Ledger t) {c : CleanupPc} {goal : Goal}
    (hpc : t.producer.pc = .cleanup c goal) (hs : t.Acts u) :
    SameWords t u ∧ SameFields t u ∧ u.producer.claims ⊆ t.producer.claims := by
  have hsame : t.producer.claims ⊆ t.producer.claims := List.Subset.refl _
  cases hs with
  | collect i todo goal hd =>
      obtain ⟨hi, hrem, -⟩ := h.drained hd
      obtain ⟨book', -, -, -, -, heq⟩ := h.collect_spec hi hrem todo goal
      rw [heq]
      exact ⟨⟨rfl, rfl, rfl⟩, ⟨rfl, rfl, rfl⟩, hsame⟩
  | reclaim index goal r hpc' hr =>
      obtain ⟨_, _, _, _, _, _, _, heq⟩ := h.reclaim_spec (by rw [hpc]; rfl) hr goal
      rw [heq]
      exact ⟨⟨rfl, rfl, rfl⟩, ⟨rfl, rfl, rfl⟩, hsame⟩
  | ready index goal r hpc' hr =>
      have hrepl : t.producer.pc.replacing = none := by rw [hpc]; rfl
      obtain ⟨_, _, _, _, _, _, _, heq⟩ := (h.ready r.generation).reclaim_spec hrepl hr goal
      rw [heq]
      exact ⟨⟨rfl, rfl, rfl⟩, ⟨rfl, rfl, rfl⟩, hsame⟩
  | remove i todo goal inc hpc' hi ho =>
      exact ⟨⟨rfl, rfl, rfl⟩, ⟨rfl, rfl, rfl⟩, fun j hj => (List.mem_filter.mp hj).1⟩
  | incarnation i inc inc' hi ha => exact ⟨⟨rfl, rfl, rfl⟩, ⟨rfl, rfl, rfl⟩, hsame⟩
  | write g index bytes hres hlen => exact ⟨⟨rfl, rfl, rfl⟩, ⟨rfl, rfl, rfl⟩, hsame⟩
  | abandon g index hres => exact ⟨⟨rfl, rfl, rfl⟩, ⟨rfl, rfl, rfl⟩, hsame⟩
  | releaseMap g hpos => exact ⟨⟨rfl, rfl, rfl⟩, ⟨rfl, rfl, rfl⟩, hsame⟩
  | dropExport g hpos => exact ⟨⟨rfl, rfl, rfl⟩, ⟨rfl, rfl, rfl⟩, hsame⟩
  | flow pc outcome released hflow => exact ⟨⟨rfl, rfl, rfl⟩, ⟨rfl, rfl, rfl⟩, hsame⟩
  | observe i todo goal inc hpc' hi ho => exact ⟨⟨rfl, rfl, rfl⟩, ⟨rfl, rfl, rfl⟩, hsame⟩
  | observed i todo goal released hpc' => exact ⟨⟨rfl, rfl, rfl⟩, ⟨rfl, rfl, rfl⟩, hsame⟩
  | unready index goal r hpc' hr => exact ⟨⟨rfl, rfl, rfl⟩, ⟨rfl, rfl, rfl⟩, hsame⟩
  | _ => simp_all only [reduceCtorEq]

/-- `poll_cleanup` publishes nothing and forgets no consumer that waits. -/
lemma Stage.cleanup (h : Stage op s told t) (ht : Ledger t) {c : CleanupPc} {goal : Goal}
    (hpc : t.producer.pc = .cleanup c goal) (hs : t.Acts u) : Stage op s told u := by
  obtain ⟨hwords, hfields, hclaims⟩ := hs.keeps ht hpc
  have hwhere := (hs.cleaned ht hpc).2
  rw [Stage, hpc] at h
  cases goal with
  | publish source =>
      have hu : Untouched s u := Untouched.of_same h hwords hfields
      rcases hwhere with ⟨c', h0⟩ | h0 | h0
      · rw [Stage, h0]
        exact hu
      · rw [Stage, h0]
        exact hu
      · rw [Stage, h0]
        exact hu.settled _
  | advance =>
      have hr : Replacing op s u := h.1.of_same hwords hfields
      have ha : AllTold told u := fun i hi => h.2 i (hclaims hi)
      rcases hwhere with ⟨c', h0⟩ | h0 | h0
      · rw [Stage, h0]
        exact ⟨hr, ha⟩
      · rw [Stage, h0]
        exact ⟨hr, ha⟩
      · rw [Stage, h0]
        exact ⟨Or.inr ha, Or.inr (Or.inl hr)⟩
  | _ => exact h.elim

/-- A scan that goes on, or gives up. -/
lemma Untouched.scanFrom (h : Untouched s t) (w : Writer) (off : ℕ) :
    Stage op s told (t.scanFrom w off) := by
  by_cases hoff : off < t.layout.resources
  · rw [show t.scanFrom w off = t.goto (.scan w off) from if_pos hoff]
    exact h.of_same ⟨rfl, rfl, rfl⟩ ⟨rfl, rfl, rfl⟩
  · rw [show t.scanFrom w off = t.finish _ from if_neg hoff]
    exact Untouched.settled (t := t.finish _) (h.of_same ⟨rfl, rfl, rfl⟩ ⟨rfl, rfl, rfl⟩) _

/-- A scan that has found a slot. -/
lemma Untouched.found (h : Untouched s t) (off : ℕ) (w : Writer) :
    Stage op s told (t.found off w) := by
  rcases w with (_ | _) | _
  · exact h.of_same ⟨rfl, rfl, rfl⟩ ⟨rfl, rfl, rfl⟩
  · exact h.of_same ⟨rfl, rfl, rfl⟩ ⟨rfl, rfl, rfl⟩
  · exact h.of_same ⟨rfl, rfl, rfl⟩ ⟨rfl, rfl, rfl⟩

/-- A call that returns with nothing published. -/
lemma Untouched.returned (h : Untouched s t) (o : Outcome) : Stage op s told (t.finish o) :=
  Untouched.settled (t := t.finish o) (h.of_same ⟨rfl, rfl, rfl⟩ ⟨rfl, rfl, rfl⟩) o

/-- The slot scan. -/
lemma Untouched.scanStep (h : Untouched s t) {pc : Pc} (hs : t.scanStep pc = some u) :
    Stage op s told u := by
  have hmid : ∀ g f, Untouched s (t.onMap g f) := fun g f =>
    h.of_same ⟨rfl, rfl, rfl⟩ ⟨rfl, rfl, rfl⟩
  cases pc with
  | scan w off =>
      simp only [Arena.scanStep, Option.some.injEq] at hs
      split_ifs at hs <;> subst hs
      · exact h.scanFrom w (off + 1)
      · exact h.of_same ⟨rfl, rfl, rfl⟩ ⟨rfl, rfl, rfl⟩
  | scanState w off =>
      simp only [Arena.scanStep, Option.some.injEq] at hs
      split_ifs at hs <;> subst hs
      · exact h.scanFrom w (off + 1)
      · exact h.of_same ⟨rfl, rfl, rfl⟩ ⟨rfl, rfl, rfl⟩
  | scanRetire w off generation =>
      simp only [Arena.scanStep, Option.some.injEq] at hs
      split_ifs at hs <;> subst hs
      · exact (hmid _ _).found off w
      · exact h.of_same ⟨rfl, rfl, rfl⟩ ⟨rfl, rfl, rfl⟩
  | scanClaims w off generation probes =>
      cases probes with
      | nil =>
          simp only [Arena.scanStep, Option.some.injEq] at hs
          subst hs
          exact h.found off w
      | cons probe probes =>
          simp only [Arena.scanStep, Option.bind_eq_bind, Option.bind_eq_some_iff] at hs
          obtain ⟨inc, -, hs⟩ := hs
          cases hs
          split_ifs
          · exact h.scanFrom w (off + 1)
          · exact h.of_same ⟨rfl, rfl, rfl⟩ ⟨rfl, rfl, rfl⟩
  | reserveFlag index =>
      simp only [Arena.scanStep, Option.some.injEq] at hs
      subst hs
      exact (hmid _ _).returned _
  | _ => cases hs

/-- The publication, up to the store of `LATEST`. -/
lemma Stage.publishStep {pc : Pc} (h : StageAt op s told t pc) {e : Env}
    (hlatest : ∀ p after, pc ≠ .latest p after) (hs : t.publishStep e pc = some u) :
    Stage op s told u := by
  have hmid : Untouched s t → ∀ g f, Untouched s (t.onMap g f) := fun h0 g f =>
    h0.of_same ⟨rfl, rfl, rfl⟩ ⟨rfl, rfl, rfl⟩
  cases pc with
  | prepare off =>
      have h : Untouched s t := h
      simp only [Arena.publishStep, Option.some.injEq] at hs
      split_ifs at hs <;> subst hs
      · exact h.returned _
      · exact h.scanFrom _ _
      · exact ⟨h.of_same ⟨rfl, rfl, rfl⟩ ⟨rfl, rfl, rfl⟩, Outcome.ends_published _⟩
  | copy index descriptor bytes =>
      have h : Untouched s t := h
      simp only [Arena.publishStep, Option.some.injEq] at hs
      subst hs
      exact ⟨h.of_same ⟨rfl, rfl, rfl⟩ ⟨rfl, rfl, rfl⟩, Outcome.ends_published _⟩
  | describe p after =>
      simp only [Arena.publishStep, Option.some.injEq] at hs
      subst hs
      exact ⟨h.1.of_same ⟨rfl, rfl, rfl⟩ ⟨rfl, rfl, rfl⟩, h.2⟩
  | store p after =>
      simp only [Arena.publishStep, Option.some.injEq] at hs
      subst hs
      exact ⟨h.1.of_same ⟨rfl, rfl, rfl⟩ ⟨rfl, rfl, rfl⟩, h.2⟩
  | ring p after =>
      simp only [Arena.publishStep, Option.some.injEq] at hs
      subst hs
      exact h.2
  | latest p after => exact absurd rfl (hlatest p after)
  | commit g index descriptor =>
      have h : Untouched s t := h
      have hrelease : ∀ e, Stage op s told (t.goto (.release g index (.error e))) := fun e => by
        have hgoto : Untouched s (t.goto (.release g index (.error e))) :=
          h.of_same ⟨rfl, rfl, rfl⟩ ⟨rfl, rfl, rfl⟩
        exact hgoto.settled _
      simp only [Arena.publishStep, Option.some.injEq] at hs
      split_ifs at hs <;> subst hs
      · exact hrelease _
      · exact hrelease _
      · exact hrelease _
      · exact ⟨h.announced, Outcome.ends_exhausted⟩
      · exact ⟨h.of_same ⟨rfl, rfl, rfl⟩ ⟨rfl, rfl, rfl⟩, Outcome.ends_published _⟩
  | release g index outcome =>
      have h : Settled op s told t outcome := h
      simp only [Arena.publishStep, Option.some.injEq] at hs
      subst hs
      exact Settled.of_same (u := (t.onMap g _).finish outcome) h ⟨rfl, rfl, rfl⟩
        ⟨rfl, rfl, rfl⟩ rfl
  | _ => cases hs

/-- **The store of `LATEST`**: everybody is still to be told. -/
lemma Stage.latest {p : Publication} {after : After} (h : StageAt op s told t (.latest p after))
    (told' : List ℕ) {e : Env} (hs : t.publishStep e (.latest p after) = some u) :
    Stage op s told' u := by
  simp only [Arena.publishStep, Option.some.injEq] at hs
  subst hs
  exact ⟨fun i hi => Or.inl hi, Or.inl h⟩

/-- The reconfiguration, up to the store of `RECONFIGURATION_EPOCH`. -/
lemma Stage.reconfigureStep {pc : Pc} (h : StageAt op s told t pc) (ht : Ledger t)
    (hpc : t.producer.pc = pc) (hepoch : ∀ value after, pc ≠ .epoch value after)
    (hs : t.reconfigureStep pc = some u) : Stage op s told u := by
  cases pc with
  | begin payloadCapacity externalBytes =>
      have hrepl : t.producer.pc.replacing = none := by rw [hpc]; rfl
      simp only [Arena.reconfigureStep, Option.some.injEq] at hs
      subst hs
      obtain ⟨o, heq⟩ | ⟨layout, book', g, -, -, -, -, -, -, -, -, -, -, -, heq⟩ :=
        ht.begin_spec hrepl payloadCapacity externalBytes
      · rw [heq]
        exact h.2.returned o
      · rw [heq]
        exact ⟨h.1, h.2.of_same ⟨rfl, rfl, rfl⟩ ⟨rfl, rfl, rfl⟩⟩
  | unconfigure layout =>
      simp only [Arena.reconfigureStep, Option.some.injEq] at hs
      subst hs
      exact ⟨h.1, h.2.of_same ⟨rfl, rfl, rfl⟩ ⟨rfl, rfl, rfl⟩⟩
  | unpublishLoad layout index =>
      simp only [Arena.reconfigureStep, Option.some.injEq] at hs
      split_ifs at hs <;> subst hs
      · exact ⟨h.1, h.2.of_same ⟨rfl, rfl, rfl⟩ ⟨rfl, rfl, rfl⟩⟩
      · exact ⟨h.1, h.2.of_same ⟨rfl, rfl, rfl⟩ ⟨rfl, rfl, rfl⟩⟩
  | unpublish layout index state =>
      simp only [Arena.reconfigureStep, Option.some.injEq] at hs
      subst hs
      exact ⟨h.1, h.2.of_same ⟨rfl, rfl, rfl⟩ ⟨rfl, rfl, rfl⟩⟩
  | firstCursor layout =>
      simp only [Arena.reconfigureStep, Option.some.injEq] at hs
      subst hs
      exact Or.inl ⟨⟨h.1, h.2.latest, h.2.ring, h.2.cursor, rfl, rfl⟩, rfl, h.2.epoch⟩
  | configure g =>
      simp only [Arena.reconfigureStep, Option.some.injEq] at hs
      subst hs
      exact Or.inr ⟨Outcome.ends_ready g, h⟩
  | epochLoad after =>
      simp only [Arena.reconfigureStep, Option.some.injEq] at hs
      subst hs
      exact h.imp (fun h0 => ⟨h0.1.of_same ⟨rfl, rfl, rfl⟩ ⟨rfl, rfl, rfl⟩, h0.2⟩) id
  | epoch value after => exact absurd rfl (hepoch value after)
  | _ => cases hs

/-- **The store of `RECONFIGURATION_EPOCH`**: everybody is still to be told. -/
lemma Stage.epoch {value : ℕ} {after : After} (h : StageAt op s told t (.epoch value after))
    (hpc : t.producer.pc = .epoch value after) (hs : t.reconfigureStep (.epoch value after) = some u) :
    Stage op s (telling t u told) u := by
  have hquiet : ∀ event i todo after, t.producer.pc ≠ .paged (.signal event) i todo after := by
    rw [hpc]
    rintro _ _ _ _ ⟨⟩
  have hstill : ∀ pc, (t.goto pc).shared.control.latest = t.shared.control.latest ∧
      (t.goto pc).shared.control.reconfigurationEpoch =
        t.shared.control.reconfigurationEpoch := fun pc => ⟨rfl, rfl⟩
  simp only [Arena.reconfigureStep, Option.some.injEq] at hs
  split_ifs at hs <;> subst hs
  · rw [telling_of_pc (hstill _) hquiet]
    refine ⟨?_, Outcome.ends_exhausted⟩
    rcases h with ⟨hr, -, hepoch⟩ | ⟨-, htold⟩
    · exact Or.inl ⟨hr.2.latest, hepoch⟩
    · exact Or.inr htold
  · refine ⟨fun i hi => Or.inl hi, ?_⟩
    rcases h with ⟨hr, hafter, -⟩ | ⟨hends, -⟩
    · exact Or.inr ⟨hafter, hr.1, hr.2.latest, hr.2.ring, hr.2.cursor, hr.2.resources,
        hr.2.pendingLayout⟩
    · exact Or.inl hends
  · rw [telling_of_pc (hstill _) hquiet]
    exact h.imp (fun h0 => ⟨h0.1.of_same ⟨rfl, rfl, rfl⟩ ⟨rfl, rfl, rfl⟩, h0.2⟩) id

/-- What follows a loop over the claim pages in which everybody was told. -/
lemma Follows.continue_ {after : After} (h : Follows op s t after) (htold : AllTold told t) :
    Stage op s told (t.continue_ after) := by
  rcases h with hends | ⟨rfl, hr⟩
  · cases after with
    | finish o => exact Settled.of_ends (t := t.finish o) (Or.inr htold) hends
    | release g index o => exact Settled.of_ends (Or.inr htold) hends
    | _ => exact hends.elim
  · exact ⟨hr.of_same ⟨rfl, rfl, rfl⟩ ⟨rfl, rfl, rfl⟩, htold⟩

/-- What follows the loop that closes the claim pages. -/
lemma Announced.continue_ {after : After} (h : Announced s told t) (hends : after.Ends) :
    Stage op s told (t.continue_ after) := by
  cases after with
  | finish o => exact Settled.of_ends (t := t.finish o) h hends
  | release g index o => exact Settled.of_ends (t := t.goto _) h hends
  | _ => exact hends.elim

/-- **The loops over the claim pages.** -/
lemma Stage.pagesStep {pc : Pc} (h : StageAt op s told t pc) (ht : Ledger t)
    (hpc : t.producer.pc = pc) (hsound : t.Sound) {e : Env} (hs : t.pagesStep e pc = some u)
    (hquiet : (∀ event i todo after, pc ≠ .paged (.signal event) i todo after) →
      telling t u told = told) : Stage op s (telling t u told) u := by
  cases pc with
  | terminate after =>
      rw [hquiet (by rintro _ _ _ _ ⟨⟩)]
      simp only [Arena.pagesStep, Option.some.injEq] at hs
      subst hs
      exact ⟨h.1.of_same ⟨rfl, rfl, rfl⟩ rfl, h.2⟩
  | pages call todo after =>
      rw [hquiet (by rintro _ _ _ _ ⟨⟩)]
      cases todo with
      | nil =>
          simp only [Arena.pagesStep, Option.some.injEq] at hs
          subst hs
          cases call with
          | close => exact h.1.continue_ h.2
          | signal event =>
              have htold : AllTold told t := fun i hi => (h.1 i hi).resolve_left (List.not_mem_nil)
              exact h.2.continue_ htold
      | cons i todo =>
          simp only [Arena.pagesStep, Option.some.injEq] at hs
          subst hs
          cases call with
          | close => exact ⟨h.1.of_same ⟨rfl, rfl, rfl⟩ rfl, h.2⟩
          | signal event =>
              refine ⟨fun j hj => ?_, h.2.of_same ⟨rfl, rfl, rfl⟩ ⟨rfl, rfl, rfl⟩, ?_⟩
              · rcases h.1 j hj with h0 | h0
                · exact (List.mem_cons.mp h0).imp_right Or.inl
                · exact Or.inr (Or.inr h0)
              · have hclaimed : i ∈ t.producer.claims := by
                  have hvisits := ht.visits
                  rw [hpc] at hvisits
                  exact hvisits.subset List.mem_cons_self
                obtain ⟨inc, hi, -⟩ := ht.tracked i hclaimed
                refine ⟨{ inc with
                  host := [.page (.interest event)], hostFault := false, reply := .done },
                  ?_, Or.inl rfl⟩
                have hupd : (t.callPage i [.page (.interest event)]).incarnations i =
                    (t.incarnations i).map fun inc => { inc with
                      host := [.page (.interest event)], hostFault := false, reply := .done } :=
                  Function.update_self _ _ _
                rw [hi] at hupd
                exact hupd
  | paged call i todo after =>
      simp only [Arena.pagesStep, Option.bind_eq_bind, Option.bind_eq_some_iff] at hs
      obtain ⟨inc, hi, hs⟩ := hs
      split_ifs at hs with hhost hfault
      · cases call with
        | close => exact absurd rfl hfault.1
        | signal event =>
            have hok := hsound event i todo after inc hpc hi
            rw [hfault.2] at hok
            cases hok
      · cases hs
        cases call with
        | close =>
            rw [hquiet (by rintro _ _ _ _ ⟨⟩)]
            exact ⟨h.1.of_same ⟨rfl, rfl, rfl⟩ rfl, h.2⟩
        | signal event =>
            have hok := hsound event i todo after inc hpc hi
            obtain ⟨hclaims, hfollows, inc', hi', hwhere⟩ := h
            cases hi.symm.trans hi'
            have hmem : i ∈ told := by
              rcases hwhere with h0 | h0 | ⟨-, h0⟩
              · rw [hhost] at h0
                cases h0
              · rw [hhost] at h0
                cases h0
              · exact h0 hok
            have hwords : SameWords t (t.goto (.pages (.signal event) todo after)) :=
              ⟨rfl, rfl, rfl⟩
            refine ⟨fun j hj => ?_, hfollows.of_same ⟨rfl, rfl, rfl⟩ ⟨rfl, rfl, rfl⟩⟩
            rcases hclaims j hj with h0 | h0 | h0
            · exact Or.inr (mem_telling hwords (h0 ▸ hmem))
            · exact Or.inl h0
            · exact Or.inr (mem_telling hwords h0)
  | offering i => exact h.elim
  | registering i => exact h.elim
  | registered i => exact h.elim
  | retrying i => exact h.elim
  | exporting => exact h.elim
  | dropping todo => exact h.elim
  | _ => cases hs

/-- The head of a call: the `TERMINAL` load. -/
lemma Stage.terminal {goal : Goal} (h : StageAt op s told t (.terminal goal)) (o : Outcome) :
    Stage op s told (t.finish o) ∧ Stage op s told (t.startCleanup goal) := by
  cases goal with
  | publish source =>
      have h : Untouched s t := h
      exact ⟨h.returned o, h.of_same ⟨rfl, rfl, rfl⟩ ⟨rfl, rfl, rfl⟩⟩
  | advance =>
      have hr : ∀ {u}, SameWords t u → SameFields t u → Replacing op s u := h.1.of_same
      refine ⟨⟨Or.inr h.2, Or.inr (Or.inl (hr ⟨rfl, rfl, rfl⟩ ⟨rfl, rfl, rfl⟩))⟩, ?_⟩
      exact ⟨hr ⟨rfl, rfl, rfl⟩ ⟨rfl, rfl, rfl⟩, h.2⟩
  | _ => exact h.elim

/-- The rest of a call after `poll_cleanup`. -/
lemma Stage.resume {goal : Goal} (h : StageAt op s told t (.resume goal)) (ht : Ledger t)
    (e : Env) : Stage op s told (t.resume e goal) := by
  cases goal with
  | publish source =>
      have h : Untouched s t := h
      rw [Arena.resume]
      split
      · exact h.returned _
      · split_ifs
        · exact h.returned _
        · exact ⟨h.announced, Outcome.ends_exhausted⟩
        · exact h.scanFrom _ _
  | advance =>
      have hr : ∀ {u}, SameWords t u → SameFields t u → Replacing op s u := h.1.of_same
      obtain ⟨layout, hl⟩ := Option.isSome_iff_exists.mp h.1.2.pendingLayout
      rw [Arena.resume]
      rcases advance_outcomes ht hl e with ⟨o, heq⟩ | ⟨o, heq⟩ | heq
      · rw [heq]
        exact ⟨Or.inr h.2, Or.inr (Or.inl (hr ⟨rfl, rfl, rfl⟩ ⟨rfl, rfl, rfl⟩))⟩
      · rw [heq]
        exact ⟨Or.inr h.2, Or.inr (Or.inl (hr ⟨rfl, rfl, rfl⟩ ⟨rfl, rfl, rfl⟩))⟩
      · rw [heq]
        exact h.2
  | _ => exact h.elim

/-- **One step** while the call is running. -/
lemma Stage.step (h : Stage op s told t) (ht : Ledger t) (hbusy : t.producer.pc ≠ .idle)
    (hsound : t.Sound) {l : Label} (hs : t.step l = some u) :
    Stage op s (telling t u told) u := by
  by_cases hprod : ∃ e, l = .producer e
  swap
  · exact h.other hbusy (fun e h0 => hprod ⟨e, h0⟩) hs
  obtain ⟨e, rfl⟩ := hprod
  have hacts := acts_of_step hs
  have hquiet : (∀ p after, t.producer.pc ≠ .latest p after) →
      (∀ value after, t.producer.pc ≠ .epoch value after) →
      (∀ event i todo after, t.producer.pc ≠ .paged (.signal event) i todo after) →
      telling t u told = told := by
    intro hlatest hepoch hpaged
    rcases hacts.still ht with hstill | ⟨p, after, h0⟩ | ⟨value, after, h0⟩
    · exact telling_of_pc hstill hpaged
    · exact absurd h0 (hlatest p after)
    · exact absurd h0 (hepoch value after)
  by_cases hlatest : ∃ p after, t.producer.pc = .latest p after
  · obtain ⟨p, after, hpc⟩ := hlatest
    simp only [Arena.step, producerStep, hpc] at hs
    rw [Stage, hpc] at h
    exact Stage.latest h _ hs
  by_cases hepoch : ∃ value after, t.producer.pc = .epoch value after
  · obtain ⟨value, after, hpc⟩ := hepoch
    simp only [Arena.step, producerStep, hpc] at hs
    rw [Stage, hpc] at h
    exact Stage.epoch h hpc hs
  have hnot : (∀ p after, t.producer.pc ≠ .latest p after) ∧
      ∀ value after, t.producer.pc ≠ .epoch value after :=
    ⟨fun p after h0 => hlatest ⟨p, after, h0⟩, fun value after h0 => hepoch ⟨value, after, h0⟩⟩
  have hkept := hquiet hnot.1 hnot.2
  have hstage := h
  have hpages : ∀ {pc}, t.producer.pc = pc → StageAt op s told t pc →
      t.pagesStep e pc = some u → Stage op s (telling t u told) u := fun hpc h0 h1 =>
    Stage.pagesStep h0 ht hpc hsound h1 (hpc ▸ hkept)
  rw [Stage] at h
  simp only [Arena.step, producerStep] at hs
  cases hpc : t.producer.pc with
  | idle => exact absurd hpc hbusy
  | terminal goal =>
      rw [hkept (by rw [hpc]; rintro _ _ _ _ ⟨⟩)]
      rw [hpc] at h hs
      have hboth := Stage.terminal h (.error .closed)
      simp only [Option.some.injEq] at hs
      split_ifs at hs <;> subst hs
      · exact hboth.1
      · exact hboth.2
  | cleanup c goal =>
      rw [hkept (by rw [hpc]; rintro _ _ _ _ ⟨⟩)]
      exact hstage.cleanup ht hpc hacts
  | resume goal =>
      rw [hkept (by rw [hpc]; rintro _ _ _ _ ⟨⟩)]
      rw [hpc] at h hs
      simp only [Option.some.injEq] at hs
      subst hs
      exact Stage.resume h ht e
  | scan | scanState | scanRetire | scanClaims | reserveFlag =>
      rw [hkept (by rw [hpc]; rintro _ _ _ _ ⟨⟩)]
      rw [hpc] at h hs
      exact Untouched.scanStep h hs
  | prepare | copy | describe | store | ring | commit | release =>
      rw [hkept (by rw [hpc]; rintro _ _ _ _ ⟨⟩)]
      rw [hpc] at h hs
      exact Stage.publishStep h (by rintro _ _ ⟨⟩) hs
  | latest p after => exact absurd hpc (hnot.1 p after)
  | begin | unconfigure | unpublishLoad | unpublish | firstCursor | configure | epochLoad =>
      rw [hkept (by rw [hpc]; rintro _ _ _ _ ⟨⟩)]
      rw [hpc] at h hs
      exact Stage.reconfigureStep h ht hpc (by rintro _ _ ⟨⟩) hs
  | epoch value after => exact absurd hpc (hnot.2 value after)
  | terminate | pages | paged =>
      rw [hpc] at h hs
      exact hpages hpc h hs
  | _ =>
      rw [hpc] at h
      exact h.elim

/-! ### Whole calls -/

/-- The first step of a call publishes nothing. -/
lemma Stage.of_call (hop : op.notifies = true) (hs : s.step (.call op) = some t) :
    Stage op s [] t := by
  have hsame : Untouched s s := ⟨rfl, rfl, rfl, rfl, rfl, rfl⟩
  have hmid : ∀ g f, Untouched s (s.onMap g f) := fun g f =>
    hsame.of_same ⟨rfl, rfl, rfl⟩ ⟨rfl, rfl, rfl⟩
  rw [Arena.step] at hs
  split_ifs at hs
  cases op with
  | publish source =>
      cases source with
      | cpu descriptor bytes =>
          simp only [begin, Option.some.injEq] at hs
          subst hs
          exact hsame.of_same ⟨rfl, rfl, rfl⟩ ⟨rfl, rfl, rfl⟩
      | native =>
          simp only [begin, Option.some.injEq] at hs
          split_ifs at hs <;> subst hs
          · exact hsame.returned _
          · exact hsame.of_same ⟨rfl, rfl, rfl⟩ ⟨rfl, rfl, rfl⟩
  | commit g index descriptor =>
      simp only [begin] at hs
      split_ifs at hs
      cases hs
      exact (hmid g _).of_same ⟨rfl, rfl, rfl⟩ ⟨rfl, rfl, rfl⟩
  | reconfigureCpu payloadCapacity =>
      simp only [begin, Option.some.injEq] at hs
      split_ifs at hs <;> subst hs
      · exact hsame.returned _
      · exact ⟨rfl, hsame.of_same ⟨rfl, rfl, rfl⟩ ⟨rfl, rfl, rfl⟩⟩
  | _ => cases hop

/-- The history variable does not constrain the arena. -/
lemma Reachable.telling_run (h : Reachable s) {told told' : List ℕ}
    {C : Arena × List ℕ → Label → Prop} (hrun : Reaches tellingStep C (s, told) (t, told')) :
    Reachable t := by
  refine hrun.invariant (P := fun p => Reachable p.1) h fun a l b ha _ hs => ?_
  obtain ⟨u, hu, rfl⟩ := Option.map_eq_some_iff.mp hs
  exact ha.tail hu

/-- **Publication and its notification.** A call of `publish`, `commit` or
`reconfigure_cpu` has returned, and no wake has failed on the way. If it has returned an
error, and not that of a closed arena, then nothing is published, or `reconfigure_cpu` has
left its replacement pending; and if `LATEST` or `RECONFIGURATION_EPOCH` has advanced, then
every consumer has been told since. -/
theorem publication_notified (h : Reachable s) (hop : op.notifies = true) {t₁ : Arena}
    (hcall : s.step (.call op) = some t₁)
    (hrun : Reaches tellingStep Calling (t₁, []) (t, told)) (hidle : t.producer.pc = .idle) :
    (∀ e, t.producer.outcome = .error e → e.isTerminal = false →
      Untouched s t ∨ op.replaces = true ∧ Started s t) ∧
    (t.shared.control.latest ≠ s.shared.control.latest ∨
        t.shared.control.reconfigurationEpoch ≠ s.shared.control.reconfigurationEpoch →
      AllTold told t) := by
  have h₁ : Reachable t₁ := h.tail hcall
  have hstage : Stage op s told t := by
    refine hrun.invariant_with (P := fun p => Stage op s p.2 p.1) (Q := fun p => Reachable p.1)
      (fun p hp => h₁.telling_run hp) (.of_call hop hcall) fun a l b ha hp hC hs => ?_
    obtain ⟨u, hu, rfl⟩ := Option.map_eq_some_iff.mp hs
    exact hp.step ha.ledger hC.1 hC.2 hu
  rw [Stage, hidle] at hstage
  obtain ⟨hannounced, hleft⟩ := hstage
  constructor
  · intro e he hterm
    rcases hleft with h0 | h0 | h0
    · exact Or.inl h0
    · exact Or.inr h0
    · rw [h0 e he] at hterm
      cases hterm
  · rintro hmoved
    rcases hannounced with ⟨hlatest, hepoch⟩ | htold
    · rcases hmoved with h0 | h0
      · exact absurd hlatest h0
      · exact absurd hepoch h0
    · exact htold

/-- The check of `Calling`, on one state. -/
def calls (p : Arena × List ℕ) (_ : Label) : Bool :=
  p.1.producer.pc != .idle && match p.1.producer.pc with
    | .paged (.signal _) i _ _ => ((p.1.incarnations i).map Incarnation.hostFault) == some false
    | _ => true

lemma calling_of_calls {p : Arena × List ℕ} {l : Label} (h : calls p l = true) :
    Calling p l := by
  rw [calls, Bool.and_eq_true, bne_iff_ne] at h
  refine ⟨h.1, fun event i todo after inc hpc hi => ?_⟩
  have h2 := h.2
  rw [hpc] at h2
  simp only [hi, Option.map_some, beq_iff_eq, Option.some.injEq] at h2
  exact h2

/-- A consumer of one frame is admitted, and waits for all events. -/
def waiting : List Label :=
  [Label.call (.attach 1 false)] ++ pump 8 ++
    [on (.fromGrant {}), on (.thread 0 {}), on (.wait {} .all)]

/-- The steps of a `publish` that polls the consumer and wakes it; the wake may fail. -/
def waking (woken : Bool) : List Label :=
  List.replicate 2 (.producer {}) ++ List.replicate 4 (on (.observe {})) ++
    List.replicate 15 (.producer {}) ++ List.replicate 2 (on (.host { fail := !woken })) ++
    List.replicate 2 (.producer {})

/-- A frame is published, and the consumer that waits for it is woken. -/
theorem publication_notified_waiting : ∃ s t told, Reachable s ∧
    t.shared.control.latest ≠ s.shared.control.latest ∧
    t.producer.claims = [1] ∧ AllTold told t := by
  have hrun : ((script 4096 smallConfig 0 false waiting).bind fun s =>
      (s.step (.call (.publish (.cpu {} [7])))).bind fun t₁ =>
        (execIn tellingStep calls (t₁, []) (waking true)).map fun p =>
          (decide (p.1.producer.pc = .idle), s.shared.control.latest, p.1.shared.control.latest,
            p.1.producer.claims)) = some (true, 0, 1, [1]) := by
    decide +kernel
  obtain ⟨s, hs, hrun⟩ := Option.bind_eq_some_iff.mp hrun
  obtain ⟨t₁, hcall, hrun⟩ := Option.bind_eq_some_iff.mp hrun
  obtain ⟨⟨t, told⟩, hexec, hrun⟩ := Option.map_eq_some_iff.mp hrun
  simp only [Prod.mk.injEq, decide_eq_true_eq] at hrun
  obtain ⟨hidle, hold, hnew, hclaims⟩ := hrun
  have hmoved : t.shared.control.latest ≠ s.shared.control.latest := by
    rw [hold, hnew]
    decide
  exact ⟨s, t, told, .of_script hs, hmoved, hclaims,
    (publication_notified (.of_script hs) rfl hcall
      (.of_execIn (fun _ _ h0 => calling_of_calls h0) hexec) hidle).2 (Or.inl hmoved)⟩

/-- **A replacement whose maps cannot be created** is left pending behind the error, and the
allocation that was installed is retired. A frame whose wake fails is published behind an
error. -/
theorem notification_not_atomic :
    (∃ s t₁ t told, Reachable s ∧ s.step (.call (.reconfigureCpu 8)) = some t₁ ∧
      Reaches tellingStep Calling (t₁, []) (t, told) ∧ t.producer.pc = .idle ∧
      t.producer.outcome = .error .storage ∧ ArenaError.storage.isTerminal = false ∧
      t.producer.resources ≠ s.producer.resources ∧
      t.producer.pendingLayout ≠ s.producer.pendingLayout) ∧
    ∃ s t₁ t, Reachable s ∧ s.step (.call (.publish (.cpu {} [7]))) = some t₁ ∧
      Reaches step Always t₁ t ∧ t.producer.pc = .idle ∧
      t.producer.outcome = .error .notification ∧ ArenaError.notification.isTerminal = false ∧
      t.shared.control.latest ≠ s.shared.control.latest := by
  constructor
  · have hrun : ((script 4096 pairConfig 0 false []).bind fun s =>
        (s.step (.call (.reconfigureCpu 8))).bind fun t₁ =>
          (execIn tellingStep calls (t₁, [])
            (List.replicate 18 (.producer {}) ++ [.producer { fail := true }])).map fun p =>
              (decide (p.1.producer.pc = .idle), p.1.producer.outcome, s.producer.resources,
                p.1.producer.resources, s.producer.pendingLayout.isSome,
                p.1.producer.pendingLayout.isSome)) =
        some (true, .error .storage, some 1, none, false, true) := by
      decide +kernel
    obtain ⟨s, hs, hrun⟩ := Option.bind_eq_some_iff.mp hrun
    obtain ⟨t₁, hcall, hrun⟩ := Option.bind_eq_some_iff.mp hrun
    obtain ⟨⟨t, told⟩, hexec, hrun⟩ := Option.map_eq_some_iff.mp hrun
    simp only [Prod.mk.injEq, decide_eq_true_eq] at hrun
    obtain ⟨hidle, houtcome, hold, hnew, hbefore, hafter⟩ := hrun
    refine ⟨s, t₁, t, told, .of_script hs, hcall,
      .of_execIn (fun _ _ h0 => calling_of_calls h0) hexec, hidle, houtcome, rfl, ?_, ?_⟩
    · rw [hold, hnew]
      decide
    · intro h0
      rw [h0, hbefore] at hafter
      cases hafter
  · have hrun : ((script 4096 smallConfig 0 false waiting).bind fun s =>
        (s.step (.call (.publish (.cpu {} [7])))).map fun t₁ =>
          (decide ((play step t₁ (waking false)).producer.pc = .idle),
            (play step t₁ (waking false)).producer.outcome, s.shared.control.latest,
            (play step t₁ (waking false)).shared.control.latest)) =
        some (true, .error .notification, 0, 1) := by
      decide +kernel
    obtain ⟨s, hs, hrun⟩ := Option.bind_eq_some_iff.mp hrun
    obtain ⟨t₁, hcall, hrun⟩ := Option.map_eq_some_iff.mp hrun
    simp only [Prod.mk.injEq, decide_eq_true_eq] at hrun
    obtain ⟨hidle, houtcome, hold, hnew⟩ := hrun
    refine ⟨s, t₁, _, .of_script hs, hcall, .of_play step t₁ (waking false), hidle, houtcome,
      rfl, ?_⟩
    rw [hold, hnew]
    decide

end Arena

end Jackstay.Acquisition
