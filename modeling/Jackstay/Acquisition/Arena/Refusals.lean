import Jackstay.Acquisition.Arena.Delivery
import Jackstay.Acquisition.Arena.Monotone

/-!
Behind the gate: what a closed page, or `TERMINAL`, refuses to its consumer.

An acquisition, an installation and a wait each load `ACTIVE` and `TERMINAL` on their
way. One that begins behind the gate has these loads still before it.

* `Incarnation.Gated`: the page is closed, or the arena is.
* `Refuses`: the acquisitions of a client that begin there return `Closed`.
* `Unchanged`: no installation that begins there gives the consumer another mapping.
* `Told`: a wait that begins there reports `closed`.
-/

namespace Jackstay.Acquisition

/-- The page is closed, or the arena is. -/
def Incarnation.Gated (sh : Shared) (inc : Incarnation) : Prop :=
  inc.page.active = 0 ∨ sh.control.terminal ≠ 0

/-- `acquire_exact` refuses this argument before it looks at anything else. -/
def cursorsStartAtOne : ArenaError := .configuration "frame cursors start at one"

/-- What an acquisition behind the gate returns: `Closed`, or the error of a request
that names no cursor. -/
def Return.Refused (r : Return) : Prop :=
  r.outcome = .closed ∨ r.request = .exact 0 ∧ r.outcome = .error cursorsStartAtOne

/-- The call has still to load the word that is set. -/
def CallPc.Before (sh : Shared) : CallPc → Prop
  | .latest => True
  | .active _ => True
  | .terminal _ => sh.control.terminal ≠ 0
  | _ => False

/-- The client has no acquisition under way. -/
structure Incarnation.Idle (client : ℕ) (inc : Incarnation) : Prop where
  calls : ∀ c ∈ inc.calls, c.client ≠ client
  uses : ∀ k u, inc.uses k = some u → u.client = client → u.inCall = false
  pending : ∀ r, inc.owes r → r.client ≠ client

/-- The acquisitions of the client that are under way have the gate before them. -/
structure Incarnation.Refuses (client : ℕ) (sh : Shared) (inc : Incarnation) : Prop where
  gated : inc.Gated sh
  calls : ∀ c ∈ inc.calls, c.client = client → c.pc.Before sh
  uses : ∀ k u, inc.uses k = some u → u.client = client → u.inCall = false
  pending : ∀ r, inc.owes r → r.client ≠ client

/-- The installations that are under way have the gate before them, and the consumer has
the mapping it had, or none. -/
structure Incarnation.Unchanged (resources : Option ℕ) (sh : Shared) (inc : Incarnation) :
    Prop where
  gated : inc.Gated sh
  granted : ¬ inc.granted
  todo : ∀ t ∈ inc.threads, ∀ op ∈ t.todo, ∀ m, op.Installs m →
    op = .installActive m ∨ op = .installTerminal m ∧ sh.control.terminal ≠ 0
  resources : inc.consumer.bind Consumer.resources = resources ∨
    inc.consumer.bind Consumer.resources = none

/-- The wait has the gate before it, or has found it closed. -/
def Waiter.Told (sh : Shared) (w : Waiter) : Prop :=
  match w.pc with
  | .terminal => sh.control.terminal ≠ 0
  | .decide => w.read.closed = true
  | .asleep => False
  | .disarm (.changed events) => events.closed = true
  | .disarm .timedOut => False
  | _ => True

namespace Incarnation

variable {sh sh' : Shared} {inc inc' : Incarnation} {client : ℕ}

lemma Gated.mono (h : inc.Gated sh)
    (ht : sh.control.terminal ≠ 0 → sh'.control.terminal ≠ 0) : inc.Gated sh' :=
  h.imp id ht

lemma Gated.move (h : inc.Gated sh) (hm : inc.Move sh inc') : inc'.Gated sh :=
  h.imp hm.advances.active id

/-! ### Acquisitions -/

lemma Idle.refuses (h : inc.Idle client) (hg : inc.Gated sh) : inc.Refuses client sh :=
  ⟨hg, fun c hc heq => absurd heq (h.calls c hc), h.uses, h.pending⟩

/-- **A call with the gate before it** goes up to the gate, and ends there. -/
lemma next_refused (hg : inc.Gated sh) {call : AcquireCall} (hpc : call.pc.Before sh)
    {n : CallNext} (hn : call.next sh inc = some n) :
    (∃ pc, n = .goto pc ∧ pc.Before sh) ∨
    ∃ o, n = .done o ∧ (⟨call.client, call.request, o⟩ : Return).Refused := by
  obtain ⟨who, request, pc⟩ := call
  cases pc with
  | latest =>
      simp only [AcquireCall.next, Option.some.injEq] at hn
      subst hn
      split_ifs with h0
      · exact Or.inr ⟨_, rfl, Or.inr ⟨h0, rfl⟩⟩
      · exact Or.inl ⟨_, rfl, trivial⟩
  | active l =>
      simp only [AcquireCall.next, Option.some.injEq] at hn
      subst hn
      split_ifs with h0
      · exact Or.inr ⟨_, rfl, Or.inl rfl⟩
      · exact Or.inl ⟨_, rfl, hg.resolve_left h0⟩
  | terminal l =>
      have hpc : sh.control.terminal ≠ 0 := hpc
      simp only [AcquireCall.next, Option.some.injEq, if_pos hpc] at hn
      subst hn
      exact Or.inr ⟨_, rfl, Or.inl rfl⟩
  | _ => exact hpc.elim

/-- A use keeps its client, and a lease stays out of the call that made it. -/
lemma Uses.same_client {k : ℕ} {u u' : Use} (h : inc.Uses sh k (some u) (some u')) :
    u'.client = u.client ∧ (u.inCall = false → u'.inCall = false) := by
  cases h with
  | same => exact ⟨rfl, id⟩
  | miss _ _ hpc => exact ⟨rfl, by simp [Use.inCall, hpc]⟩
  | validate _ _ hpc => exact ⟨rfl, by simp [Use.inCall, hpc]⟩
  | refuse _ o _ _ hpc =>
      refine ⟨rfl, ?_⟩
      rcases hpc with hpc | hpc | hpc | hpc <;> simp [Use.inCall, hpc]
  | next _ pc _ hp =>
      refine ⟨rfl, fun h0 => ?_⟩
      cases hpc : u.pc <;> rw [hpc] at hp <;> first | exact hp.elim | simp [Use.inCall, hpc] at h0
  | lease _ _ hpc => exact ⟨rfl, by simp [Use.inCall, hpc]⟩
  | release _ _ hpc => exact ⟨rfl, by simp [Use.inCall, hpc]⟩
  | returnPending _ _ hpc => exact ⟨rfl, by simp [Use.inCall, hpc]⟩
  | handing _ _ _ _ _ hpc => exact ⟨rfl, by simp [Use.inCall, hpc]⟩
  | deferred _ _ hpc => exact ⟨rfl, by simp [Use.inCall, hpc]⟩

/-- **A move of the incarnation returns nothing to the client but refusals.** -/
lemma Refuses.move (h : inc.Refuses client sh) (hh : Handoffs sh.native inc)
    (hm : inc.Move sh inc') : inc'.Refuses client sh ∧
      ∃ new, inc'.returns = inc.returns ++ new ∧ ∀ r ∈ new, r.client = client → r.Refused := by
  have hreports := hm.reports
  refine ⟨⟨h.gated.move hm, ?_, ?_, ?_⟩, ?_⟩
  · intro c hc hclient
    rcases hreports.calls c hc with hc | hc | ⟨call, hmem, pc, hn, rfl⟩
    · exact h.calls c hc hclient
    · rw [hc]
      trivial
    · rcases next_refused h.gated (h.calls call hmem hclient) hn with ⟨pc', heq, hpc'⟩ | ⟨o, heq, -⟩
      · cases heq
        exact hpc'
      · cases heq
  · intro k u' hu' hclient
    have huse := hm.uses hh k
    rw [hu'] at huse
    cases hu : inc.uses k with
    | none =>
        rw [hu] at huse
        cases huse with
        | claimed call cursor index m mapping _ hmem hpc =>
            have hbefore := h.calls call hmem hclient
            rw [hpc] at hbefore
            exact hbefore.elim
    | some u =>
        rw [hu] at huse
        obtain ⟨hsame, hcall⟩ := huse.same_client
        exact hcall (h.uses k u hu (hsame ▸ hclient))
  · intro r hr hclient
    rcases hreports.pending r hr with hr | ⟨k, u, hu, ho, hc, -⟩
    · exact h.pending r hr hclient
    · have hcall := h.uses k u hu (hc ▸ hclient)
      simp [Use.inCall, ho] at hcall
  · obtain ⟨new, heq, hnew⟩ := hreports.returns
    refine ⟨new, heq, fun r hr hclient => ?_⟩
    rcases hnew r hr with hr | ⟨call, hmem, hn, hc, hreq⟩ | ⟨k, u, hu, hpc, -, -, rfl⟩
    · exact absurd hclient (h.pending r hr)
    · rcases next_refused h.gated (h.calls call hmem (hc ▸ hclient)) hn with ⟨pc, heq, -⟩ |
        ⟨o, heq, hrefused⟩
      · cases heq
      · cases heq
        rw [Return.Refused, hreq]
        exact hrefused
    · have hcall := h.uses k u hu hclient
      simp [Use.inCall, hpc] at hcall

lemma Refuses.mono (h : inc.Refuses client sh)
    (ht : sh.control.terminal ≠ 0 → sh'.control.terminal ≠ 0) : inc.Refuses client sh' := by
  refine ⟨h.gated.mono ht, fun c hc hclient => ?_, h.uses, h.pending⟩
  have hbefore := h.calls c hc hclient
  generalize c.pc = pc at hbefore ⊢
  cases pc with
  | terminal l => exact ht hbefore
  | _ => exact hbefore

/-! ### Installations -/

lemma granted_of_threadOp {op : ThreadOp} {next : List ThreadOp} (h : op.Acts sh inc inc' next)
    (hg : inc'.granted) : inc.granted := by
  cases h with
  | page op e =>
      obtain ⟨a, q, c, w, hshape⟩ := op.exec_shape e inc
      rw [hshape] at hg
      exact hg
  | owner op => exact Lifetime.granted_of_ownerOp inc op hg
  | refuse op m => exact (granted_of_setTenant inc (by simp) hg).1
  | installed m =>
      have hg : (inc.setTenant m .mapped).granted := hg
      exact (granted_of_setTenant inc (by simp) hg).1
  | _ => exact hg

lemma granted_of_sectionOp (e : Env) (op : SectionOp) (hg : (op.exec e inc).1.granted) :
    inc.granted := by
  cases op with
  | page op =>
      obtain ⟨a, q, c, w, hshape⟩ := op.exec_shape e inc
      simp only [SectionOp.exec, hshape] at hg
      exact hg
  | drop k op =>
      refine Lifetime.granted_of_ownerOp inc op ?_
      rw [SectionOp.exec] at hg
      split at hg
      · rename_i heq
        rw [heq]
        exact hg
      · rename_i heq
        rw [heq]
        exact hg
  | retire k =>
      obtain h | h | h | ⟨p, -, -, h⟩ := SectionOp.retire_cases e inc k <;> rw [h] at hg <;>
        exact hg
  | _ => exact hg

/-- **The consumer is made from its grant once**: no move brings the grant back. -/
lemma Move.granted (hl : Lifetime inc) (hm : inc.Move sh inc') (hg : inc'.granted) :
    inc.granted := by
  cases hm with
  | act _ ha =>
      cases ha with
      | sendGrant g p p' hmap => exact ⟨g, p, hmap⟩
      | sendOffer m g p p' hmap => exact (granted_of_setTenant inc (by simp) hg).1
      | dropGrant g p role hmap => exact ⟨g, p, hmap⟩
      | fromGrant g hmap => exact ⟨g, .client, hmap⟩
      | dropOffer m g p role hmap =>
          have hg : (inc.setTenant m .acknowledging).granted := hg
          exact (granted_of_setTenant inc (by simp) hg).1
      | install m g hmap =>
          have hg : (inc.setTenant m (.offer .call)).granted := hg
          exact (granted_of_setTenant inc (by simp) hg).1
      | call t _ hx hs =>
          obtain ⟨call, -, ⟨pc, -, rfl⟩ | ⟨o, -, rfl⟩ | ⟨c, idx, k, m, x, -, -, -, rfl⟩⟩ :=
            callStep_shape hs <;> exact hg
      | use k u e _ hx hu hs => cases useActs_of_step hs <;> exact hg
      | defer k t v e u m =>
          rw [handoff] at hg
          split_ifs at hg <;> exact hg
      | waiter w e _ hx hw hs =>
          obtain ⟨waiter, interest, bytes, rfl⟩ := waiterStep_shape hs
          exact hg
      | thread t e _ hs =>
          obtain ⟨op, rest, role, mid, next, -, -, hop, rfl⟩ := threadStep_acts hs
          have hmid : mid.granted := hg
          have hinc := granted_of_threadOp hop hmid
          exact hinc
      | retire e _ hs =>
          obtain ⟨op, rest, htodo, -, rfl⟩ := retireStep_shape hs
          have hmid : (op.exec e { inc with
              retirement := { inc.retirement with todo := rest } }).1.granted := hg
          have hinc := granted_of_sectionOp e op hmid
          exact hinc
      | observe e _ hs =>
          obtain ⟨op, rest, -, rfl⟩ := observeStep_shape hs
          obtain ⟨-, -, -, hmap, -⟩ := op.exec_client sh.native e inc
          obtain ⟨g, p, hg⟩ := hg
          exact ⟨g, p, hmap ▸ hg⟩
      | host e _ hs =>
          obtain ⟨op, rest, hhost, rfl⟩ := hostStep_shape hs
          have hne : op ≠ .page .quiesce := by
            rintro rfl
            exact hl.host (by rw [hhost]; exact List.mem_cons_self)
          exact (Lifetime.hostOp_quiet inc e hne).1 hg
      | _ => exact hg
  | _ => exact hg

/-- **A step of an installation with the gate before it** refuses the offer, and no other
operation of a thread gives the consumer another mapping. -/
lemma install_refused {op : ThreadOp} {next : List ThreadOp} (hg : inc.Gated sh)
    (h : op.Acts sh inc inc' next)
    (hop : ∀ m, op.Installs m →
      op = .installActive m ∨ op = .installTerminal m ∧ sh.control.terminal ≠ 0) :
    inc'.consumer = inc.consumer ∧ ∀ x ∈ next, ∀ m, x.Installs m →
      x = .installActive m ∨ x = .installTerminal m ∧ sh.control.terminal ≠ 0 := by
  cases h with
  | page op e =>
      obtain ⟨a, q, c, w, hshape⟩ := op.exec_shape e inc
      refine ⟨by rw [hshape], fun x hx m hx' => ?_⟩
      obtain ⟨y, -, rfl⟩ := List.mem_map.mp hx
      exact hx'.elim
  | owner op =>
      obtain ⟨ms, m, g, hshape⟩ := op.exec_shape inc
      refine ⟨by rw [hshape], fun x hx m hx' => ?_⟩
      obtain ⟨y, -, rfl⟩ := List.mem_map.mp hx
      exact hx'.elim
  | refuse op m =>
      refine ⟨rfl, fun x hx m hx' => ?_⟩
      obtain ⟨y, -, rfl⟩ := List.mem_map.mp hx
      exact hx'.elim
  | installActive m hactive =>
      refine ⟨rfl, fun x hx j hx' => Or.inr ?_⟩
      rw [List.mem_singleton] at hx
      subst hx
      have hx' : m = j := hx'
      exact ⟨by rw [hx'], hg.resolve_left hactive⟩
  | installTerminal m h0 =>
      rcases hop m rfl with h1 | ⟨-, h1⟩
      · cases h1
      · exact absurd h0 h1
  | installMap m =>
      rcases hop m rfl with h1 | ⟨h1, -⟩ <;> cases h1
  | installed m =>
      rcases hop m rfl with h1 | ⟨h1, -⟩ <;> cases h1
  | endLifetime => exact ⟨rfl, by simp [closing, ThreadOp.Installs]⟩
  | _ => exact ⟨rfl, by simp [ThreadOp.Installs]⟩

/-- The threads are the same, or a new one begins with the gate before it. -/
lemma Unchanged.of_threads {resources : Option ℕ} (h : inc.Unchanged resources sh)
    (hl : Lifetime inc) (hm : inc.Move sh inc') {todo : List ThreadOp} {role : Role}
    (htodo : ∀ op ∈ todo, ∀ m, op.Installs m → op = .installActive m)
    (ht : inc'.threads = inc.threads ∨ inc'.threads = inc.threads ++ [⟨todo, role⟩])
    (hc : inc'.consumer.bind Consumer.resources = inc.consumer.bind Consumer.resources ∨
      inc'.consumer.bind Consumer.resources = none) : inc'.Unchanged resources sh := by
  refine ⟨h.gated.move hm, fun h0 => h.granted (hm.granted hl h0), ?_, ?_⟩
  · intro t htm
    rcases ht with ht | ht
    · exact h.todo t (ht ▸ htm)
    · rw [ht, List.mem_append, List.mem_singleton] at htm
      rcases htm with htm | rfl
      · exact h.todo t htm
      · exact fun op hop m hinst => Or.inl (htodo op hop m hinst)
  · rcases hc with hc | hc
    · rw [hc]
      exact h.resources
    · exact Or.inr hc

/-- **No installation that begins behind the gate succeeds.** -/
lemma Unchanged.move {resources : Option ℕ} (h : inc.Unchanged resources sh) (hl : Lifetime inc)
    (hm : inc.Move sh inc') : inc'.Unchanged resources sh := by
  have same : inc'.threads = inc.threads → inc'.consumer = inc.consumer →
      inc'.Unchanged resources sh := by
    intro ht hc
    have hthreads : inc'.threads = inc.threads ∨ inc'.threads = inc.threads ++ [⟨[], .free⟩] :=
      Or.inl ht
    refine h.of_threads hl hm ?_ hthreads (Or.inl ?_)
    · intro op h0
      cases h0
    · rw [hc]
  have hm' := hm
  cases hm with
  | act _ ha =>
      cases ha with
      | dropGrant g p role hmap =>
          exact h.of_threads hl hm' (by simp [grantDrop, ThreadOp.Installs]) (Or.inr rfl)
            (Or.inl rfl)
      | dropOffer m g p role hmap =>
          exact h.of_threads hl hm' (by simp [ThreadOp.Installs]) (Or.inr rfl) (Or.inl rfl)
      | fromGrant g hmap => exact absurd ⟨g, .client, hmap⟩ h.granted
      | install m g hmap =>
          exact h.of_threads hl hm' (by simp [ThreadOp.Installs]) (Or.inr rfl) (Or.inl rfl)
      | relinquish c hx hc =>
          exact h.of_threads hl hm' (by simp [Consumer.dropResources, ThreadOp.Installs])
            (Or.inr rfl) (Or.inr rfl)
      | dropConsumer c hx hc =>
          exact h.of_threads hl hm' (by simp [Consumer.dropResources, ThreadOp.Installs])
            (Or.inr rfl) (Or.inr rfl)
      | bind t hx hc =>
          exact h.of_threads hl hm' (by simp [ThreadOp.Installs]) (Or.inr rfl) (Or.inl rfl)
      | call t _ hx hs =>
          obtain ⟨call, -, ⟨pc, -, rfl⟩ | ⟨o, -, rfl⟩ | ⟨c, idx, k, m, x, -, -, -, rfl⟩⟩ :=
            callStep_shape hs <;> exact same rfl rfl
      | use k u e _ hx hu hs =>
          cases useActs_of_step hs with
          | returnClaim hp =>
              refine h.of_threads hl hm' ?_ (Or.inr rfl) (Or.inl rfl)
              intro op hop m hinst
              simp only [releaseTail, List.mem_append, List.mem_singleton, List.mem_map] at hop
              rcases hop with ((rfl | ⟨x, -, rfl⟩) | rfl) | ⟨x, -, rfl⟩ <;> exact hinst.elim
          | _ => exact same rfl rfl
      | defer k t v e u m =>
          refine same ?_ ?_ <;> rw [handoff] <;> split_ifs <;> rfl
      | waiter w e _ hx hw hs =>
          obtain ⟨waiter, interest, bytes, rfl⟩ := waiterStep_shape hs
          exact same rfl rfl
      | thread t e _ hs =>
          obtain ⟨op, rest, role, mid, next, ht, -, hop, rfl⟩ := threadStep_acts hs
          have hmem : (⟨op :: rest, role⟩ : Thread) ∈ inc.threads := List.mem_of_getElem? ht
          have hgated : ({ inc with threads := inc.threads.set t ⟨rest, role⟩ } :
            Incarnation).Gated sh := h.gated
          obtain ⟨hcons, hnext⟩ := install_refused hgated hop
            (h.todo _ hmem op List.mem_cons_self)
          refine ⟨h.gated.move hm', fun h0 => h.granted (hm'.granted hl h0), ?_, ?_⟩
          · intro t' ht' x hx
            rcases List.mem_or_eq_of_mem_set ht' with ht' | rfl
            · exact h.todo t' ht' x hx
            · rcases List.mem_append.mp hx with hx | hx
              · exact hnext x hx
              · exact h.todo _ hmem x (List.mem_cons_of_mem _ hx)
          · simp only [hcons]
            exact h.resources
      | retire e _ hs =>
          obtain ⟨op, rest, htodo, -, rfl⟩ := retireStep_shape hs
          obtain ⟨hc, ⟨ht, -⟩ | ⟨k, -, ht, -⟩⟩ := op.exec_client e
            { inc with retirement := { inc.retirement with todo := rest } }
          · exact same ht hc.consumer
          · refine h.of_threads hl hm' (by simp [ThreadOp.Installs]) (Or.inr ht) (Or.inl ?_)
            simp only [hc.consumer]
      | observe e _ hs =>
          obtain ⟨op, rest, -, rfl⟩ := observeStep_shape hs
          obtain ⟨hc, ht, -⟩ := op.exec_client sh.native e inc
          exact same ht hc.consumer
      | host e _ hs =>
          obtain ⟨op, rest, hhost, rfl⟩ := hostStep_shape hs
          obtain ⟨a, q, c, ms, g, maps, w, fault, reply, hx⟩ := op.exec_shape e inc
          refine same ?_ ?_ <;> rw [hx]
      | _ => exact same rfl rfl
  | _ => exact same rfl rfl

lemma Unchanged.mono {resources : Option ℕ} (h : inc.Unchanged resources sh)
    (ht : sh.control.terminal ≠ 0 → sh'.control.terminal ≠ 0) : inc.Unchanged resources sh' := by
  refine ⟨h.gated.mono ht, h.granted, fun t htm op hop m hinst => ?_, h.resources⟩
  rcases h.todo t htm op hop m hinst with h0 | ⟨h0, h1⟩
  · exact Or.inl h0
  · exact Or.inr ⟨h0, ht h1⟩

/-! ### Waits -/

/-- A move begins a wait, continues it, or leaves it. -/
lemma Move.waiter_cases (hm : inc.Move sh inc') :
    inc'.waiter = inc.waiter ∨
    (∃ observed interest, inc'.waiter = some { observed, interest }) ∨
    ∃ w e, inc.waiter = some w ∧ inc.waiterStep sh e w = some inc' := by
  cases hm with
  | act _ ha =>
      cases ha with
      | wait observed interest => exact Or.inr (Or.inl ⟨observed, interest, rfl⟩)
      | waiter w e _ hx hw hs => exact Or.inr (Or.inr ⟨w, e, hw, hs⟩)
      | call t _ hx hs =>
          obtain ⟨call, -, ⟨pc, -, rfl⟩ | ⟨o, -, rfl⟩ | ⟨c, idx, k, m, x, -, -, -, rfl⟩⟩ :=
            callStep_shape hs <;> exact Or.inl rfl
      | use k u e _ hx hu hs => cases useActs_of_step hs <;> exact Or.inl rfl
      | defer k t v e u m =>
          left
          rw [handoff]
          split_ifs <;> rfl
      | thread t e _ hs =>
          obtain ⟨op, rest, role, mid, next, -, -, hop, rfl⟩ := threadStep_shape hs
          obtain ⟨a, q, c, ms, g, maps, consumer, todo, sources, w, returns, rfl, -⟩ :=
            ThreadOp.exec_shape hop
          exact Or.inl rfl
      | retire e _ hs =>
          obtain ⟨op, rest, htodo, -, rfl⟩ := retireStep_shape hs
          obtain ⟨hc, -⟩ := op.exec_client e
            { inc with retirement := { inc.retirement with todo := rest } }
          exact Or.inl hc.waiter
      | observe e _ hs =>
          obtain ⟨op, rest, -, rfl⟩ := observeStep_shape hs
          obtain ⟨hc, -⟩ := op.exec_client sh.native e inc
          exact Or.inl hc.waiter
      | host e _ hs =>
          obtain ⟨op, rest, hhost, rfl⟩ := hostStep_shape hs
          obtain ⟨a, q, c, ms, g, maps, w, fault, reply, hx⟩ := op.exec_shape e inc
          exact Or.inl (by rw [hx])
      | _ => exact Or.inl rfl
  | _ => exact Or.inl rfl

/-- **A wait with the gate before it reports `closed`**, whatever it has observed. -/
lemma told_of_waiterStep {w : Waiter} {e : Env} (hg : inc.Gated sh) (h : w.Told sh)
    (hs : inc.waiterStep sh e w = some inc') : ∀ w', inc'.waiter = some w' → w'.Told sh := by
  obtain ⟨observed, interest, read, pc⟩ := w
  cases pc with
  | drain =>
      simp only [waiterStep, Option.some.injEq] at hs
      subst hs
      split_ifs <;> rintro w' ⟨⟩ <;> trivial
  | cancelled =>
      simp only [waiterStep, Option.some.injEq] at hs
      subst hs
      split_ifs <;> rintro w' ⟨⟩ <;> trivial
  | data =>
      cases hs
      rintro w' ⟨⟩
      trivial
  | capacity =>
      cases hs
      rintro w' ⟨⟩
      trivial
  | reconfiguration =>
      cases hs
      rintro w' ⟨⟩
      trivial
  | active =>
      simp only [waiterStep, Option.some.injEq] at hs
      subst hs
      split_ifs with h0
      · rintro w' ⟨⟩
        rfl
      · rintro w' ⟨⟩
        exact hg.resolve_left h0
  | terminal =>
      have h : sh.control.terminal ≠ 0 := h
      cases hs
      rintro w' ⟨⟩
      simpa [Waiter.Told] using h
  | decide =>
      have h : read.closed = true := h
      have hchanged : interest.changed observed read = true := by simp [WaitInterest.changed, h]
      simp only [waiterStep, hchanged, if_true, Option.some.injEq] at hs
      subst hs
      rintro w' ⟨⟩
      exact h
  | asleep => exact h.elim
  | disarm outcome =>
      cases hs
      rintro w' ⟨⟩

lemma told_of_move (hg : inc.Gated sh) (hm : inc.Move sh inc')
    (h : ∀ w, inc.waiter = some w → w.Told sh) : ∀ w, inc'.waiter = some w → w.Told sh := by
  rcases hm.waiter_cases with heq | ⟨observed, interest, heq⟩ | ⟨w, e, hw, hs⟩
  · rw [heq]
    exact h
  · rw [heq]
    rintro w ⟨⟩
    trivial
  · exact told_of_waiterStep hg (h w hw) hs

lemma told_mono {w : Waiter} (h : w.Told sh)
    (ht : sh.control.terminal ≠ 0 → sh'.control.terminal ≠ 0) : w.Told sh' := by
  obtain ⟨observed, interest, read, pc⟩ := w
  cases pc with
  | terminal => exact ht h
  | disarm outcome => cases outcome <;> exact h
  | _ => exact h

end Incarnation

end Jackstay.Acquisition
