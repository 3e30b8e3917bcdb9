import Jackstay.Acquisition.Arena.Publication
import Jackstay.Acquisition.Arena.Uses
import Jackstay.Acquisition.Arena.Threads

/-!
Ordered delivery: `acquire_latest`, `acquire_next` and `acquire_exact`.

* `AcquireOutcome.Answers`: what an outcome reports is the cursor the request
  selects, and a missed cursor or a gap has been published.
* `Ordered`: every call, claim and return of an incarnation keeps to that, with
  respect to `LATEST` as it stands.
* `Continues`: a consumer that goes on from the last cursor reported to it.
* `ordered_delivery`: the reports of such a consumer tile the cursors from its start.
-/

namespace Jackstay.Acquisition

/-- The cursor may be the answer to the request. -/
def Request.Selects : Request → ℕ → Prop
  | .latest _, _ => True
  | .next after, cursor => 0 < after → cursor = after + 1
  | .exact wanted, cursor => cursor = wanted

/-- **What an outcome reports is what the request asks for**, and missed cursors lie
between one and `latest`. -/
def AcquireOutcome.Answers (latest : ℕ) (request : Request) : AcquireOutcome → Prop
  | .frame descriptor => request.Selects descriptor.cursor
  | .miss cursor => request.Selects cursor ∧ 1 ≤ cursor ∧ cursor ≤ latest
  | .gap first last => request.Selects first ∧ 1 ≤ first ∧ first ≤ last ∧ last ≤ latest
  | _ => True

/-- What a call has loaded or selected so far. -/
def CallPc.Within (latest : ℕ) (request : Request) : CallPc → Prop
  | .latest => True
  | .active l => request ≠ .exact 0 ∧ l ≤ latest
  | .terminal l => request ≠ .exact 0 ∧ l ≤ latest
  | .configuration l => request ≠ .exact 0 ∧ l ≤ latest
  | .first l => request ≠ .exact 0 ∧ l ≤ latest ∧
      match request with
      | .latest _ => True
      | .next after => after < l
      | .exact cursor => cursor ≤ l
  | .ring cursor => request.Selects cursor ∧ cursor ≤ latest
  | .claim cursor _ _ => request.Selects cursor ∧ 1 ≤ cursor ∧ cursor ≤ latest

/-- A use has the cursor its request selects, and gives up with an answer. -/
structure Use.Within (latest : ℕ) (u : Use) : Prop where
  selects : u.request.Selects u.cursor
  pos : 1 ≤ u.cursor
  le : u.cursor ≤ latest
  outcome : ∀ o, u.outcome = some o → o.Answers latest u.request

/-- A return is an answer. -/
def Return.Answers (latest : ℕ) (r : Return) : Prop := r.outcome.Answers latest r.request

/-- **The invariant of ordered delivery.** -/
structure Ordered (latest : ℕ) (inc : Incarnation) : Prop where
  calls : ∀ c ∈ inc.calls, c.pc.Within latest c.request
  uses : ∀ k u, inc.uses k = some u → u.Within latest
  threads : ∀ t ∈ inc.threads, ∀ r, .ret r ∈ t.todo → r.Answers latest
  returns : ∀ r ∈ inc.returns, r.Answers latest

/-! ### Later values of `LATEST` -/

lemma AcquireOutcome.Answers.mono {l l' : ℕ} (hl : l ≤ l') {request : Request}
    {o : AcquireOutcome} (h : o.Answers l request) : o.Answers l' request := by
  cases o with
  | miss c => exact ⟨h.1, h.2.1, h.2.2.trans hl⟩
  | gap a b => exact ⟨h.1, h.2.1, h.2.2.1, h.2.2.2.trans hl⟩
  | _ => exact h

lemma CallPc.Within.mono {l l' : ℕ} (hl : l ≤ l') {request : Request} {pc : CallPc}
    (h : pc.Within l request) : pc.Within l' request := by
  cases pc with
  | latest => trivial
  | active a => exact ⟨h.1, h.2.trans hl⟩
  | terminal a => exact ⟨h.1, h.2.trans hl⟩
  | configuration a => exact ⟨h.1, h.2.trans hl⟩
  | first a => exact ⟨h.1, h.2.1.trans hl, h.2.2⟩
  | ring c => exact ⟨h.1, h.2.trans hl⟩
  | claim c i k => exact ⟨h.1, h.2.1, h.2.2.trans hl⟩

lemma Ordered.mono {l l' : ℕ} (hl : l ≤ l') {inc : Incarnation} (h : Ordered l inc) :
    Ordered l' inc where
  calls := fun c hc => (h.calls c hc).mono hl
  uses := fun k u hu =>
    have hw := h.uses k u hu
    ⟨hw.selects, hw.pos, hw.le.trans hl, fun o ho => (hw.outcome o ho).mono hl⟩
  threads := fun t ht r hr => (h.threads t ht r hr).mono hl
  returns := fun r hr => (h.returns r hr).mono hl

/-! ### Calls -/

/-- What a call does next is within bounds, given `FIRST_CURSOR` as it stands. -/
def CallNext.Within (latest : ℕ) (request : Request) : CallNext → Prop
  | .goto pc => pc.Within latest request
  | .done o => o.Answers latest request
  | .claimed cursor _ _ => request.Selects cursor ∧ 1 ≤ cursor ∧ cursor ≤ latest

namespace AcquireCall

variable {latest : ℕ} {request : Request}

lemma tryClaim_within {frames cursor index k : ℕ}
    (h : request.Selects cursor ∧ 1 ≤ cursor ∧ cursor ≤ latest) :
    (tryClaim frames cursor index k).Within latest request := by
  rw [tryClaim]
  split_ifs
  · exact h
  · trivial

lemma checkLatest_within {l : ℕ} (h0 : request ≠ .exact 0) (hl : l ≤ latest) :
    (checkLatest request l).Within latest request := by
  cases request with
  | latest after =>
      simp only [checkLatest]
      split_ifs
      · trivial
      · exact ⟨h0, hl, trivial⟩
  | next after =>
      simp only [checkLatest]
      split_ifs with hle
      · trivial
      · exact ⟨h0, hl, by push Not at hle; exact hle.2⟩
  | exact cursor =>
      simp only [checkLatest]
      split_ifs with hlt
      · trivial
      · exact ⟨h0, hl, by simpa using hlt⟩

/-- The window is computed from a `LATEST` loaded earlier and the `FIRST_CURSOR` of
now; a gap ends below the next cursor to be published in either case. -/
lemma checkFirst_within {history l first : ℕ} (h : (CallPc.first l).Within latest request)
    (hfirst : first ≤ latest + 1) (hpos : 1 ≤ first) :
    (checkFirst history request l first).Within latest request := by
  obtain ⟨h0, hl, hreq⟩ := h
  have hold : oldestRetained history l first ≤ latest + 1 := by
    rw [oldestRetained]
    omega
  have hold_pos : 1 ≤ oldestRetained history l first := by
    rw [oldestRetained]
    omega
  cases request with
  | latest after =>
      simp only [checkFirst]
      split_ifs
      · trivial
      · exact ⟨trivial, hl⟩
  | next after =>
      simp only [checkFirst]
      split_ifs with ha h1 h2 h1 h2
      · exact absurd h1 (lt_irrefl _)
      · trivial
      · exact ⟨fun hpos => by omega, by omega⟩
      · exact ⟨fun _ => rfl, by omega, by omega, by omega⟩
      · trivial
      · exact ⟨fun _ => rfl, by omega⟩
  | exact cursor =>
      have hcursor : cursor ≠ 0 := by
        rintro rfl
        exact h0 rfl
      have hreq : cursor ≤ l := hreq
      simp only [checkFirst]
      split_ifs
      · exact ⟨rfl, by omega, by omega⟩
      · exact ⟨rfl, by omega⟩

/-- **One step of a call stays within bounds.** -/
lemma next_within {sh : Shared} {inc : Incarnation} {call : AcquireCall} {n : CallNext}
    (hlatest : sh.control.latest ≤ latest) (hfirst : sh.control.firstCursor ≤ latest + 1)
    (hpos : 1 ≤ sh.control.firstCursor) (h : call.pc.Within latest call.request)
    (hnext : call.next sh inc = some n) : n.Within latest call.request := by
  obtain ⟨client, request, pc⟩ := call
  cases pc with
  | latest =>
      simp only [AcquireCall.next, Option.some.injEq] at hnext
      subst hnext
      split_ifs with h0
      · trivial
      · exact ⟨h0, hlatest⟩
  | active l =>
      simp only [AcquireCall.next, Option.some.injEq] at hnext
      subst hnext
      split_ifs
      · trivial
      · exact h
  | terminal l =>
      simp only [AcquireCall.next, Option.some.injEq] at hnext
      subst hnext
      split_ifs
      · trivial
      · exact h
  | configuration l =>
      simp only [AcquireCall.next, Option.some.injEq] at hnext
      subst hnext
      split_ifs
      · exact checkLatest_within h.1 h.2
      · trivial
  | first l =>
      simp only [AcquireCall.next, Option.some.injEq] at hnext
      subst hnext
      exact checkFirst_within h hfirst hpos
  | ring c =>
      simp only [AcquireCall.next] at hnext
      split at hnext
      · cases hnext
      split_ifs at hnext with hc ha
      · cases hnext
        trivial
      · cases hnext
        exact tryClaim_within ⟨h.1, by omega, h.2⟩
  | claim c i k =>
      simp only [AcquireCall.next, Option.some.injEq] at hnext
      subst hnext
      split_ifs
      · exact h
      · exact tryClaim_within h

end AcquireCall

/-! ### Moves -/

/-- The returns that a thread has still to make. -/
def Incarnation.owes (inc : Incarnation) (r : Return) : Prop :=
  ∃ t ∈ inc.threads, .ret r ∈ t.todo

/-- What a finished call returns in a move: what a thread has still to return, the
outcome of a call without a claim, or the lease of a validated claim. -/
def Incarnation.Returns (sh : Shared) (inc inc' : Incarnation) (r : Return) : Prop :=
  inc.owes r ∨
  (∃ call ∈ inc.calls, call.next sh inc = some (.done r.outcome) ∧ r.client = call.client ∧
    r.request = call.request) ∨
  ∃ k u, inc.uses k = some u ∧ u.pc = .describe ∧
    ((sh.maps u.generation).records u.index).descriptor.cursor = u.cursor ∧
    inc'.uses k = some { u with
      pc := .leased
      descriptor := ((sh.maps u.generation).records u.index).descriptor } ∧
    r = ⟨u.client, u.request, .frame ((sh.maps u.generation).records u.index).descriptor⟩

/-- Where the calls, the pending and the finished returns of an incarnation come from
in a move. -/
structure Incarnation.Reports (sh : Shared) (inc inc' : Incarnation) : Prop where
  calls : ∀ c ∈ inc'.calls, c ∈ inc.calls ∨ c.pc = .latest ∨
    ∃ call ∈ inc.calls, ∃ pc, call.next sh inc = some (.goto pc) ∧ c = { call with pc }
  pending : ∀ r, inc'.owes r → inc.owes r ∨
    ∃ k u, inc.uses k = some u ∧ u.outcome = some r.outcome ∧ r.client = u.client ∧
      r.request = u.request
  returns : ∃ new, inc'.returns = inc.returns ++ new ∧ ∀ r ∈ new, inc.Returns sh inc' r

namespace Incarnation

variable {sh : Shared} {inc inc' : Incarnation}

/-- Nothing of the calls changes; a new thread has no return to make. -/
lemma Reports.of_same (hc : inc'.calls = inc.calls) (hr : inc'.returns = inc.returns)
    {todo : List ThreadOp} {role : Role} (hret : ∀ r, ThreadOp.ret r ∉ todo)
    (ht : inc'.threads = inc.threads ∨ inc'.threads = inc.threads ++ [⟨todo, role⟩]) :
    Reports sh inc inc' where
  calls := fun c hmem => Or.inl (hc ▸ hmem)
  returns := ⟨[], by rw [hr, List.append_nil], fun r h0 => (nomatch h0)⟩
  pending := by
    rintro r ⟨t, htm, hop⟩
    rcases ht with ht | ht
    · exact Or.inl ⟨t, ht ▸ htm, hop⟩
    · rw [ht, List.mem_append, List.mem_singleton] at htm
      rcases htm with htm | rfl
      · exact Or.inl ⟨t, htm, hop⟩
      · exact absurd hop (hret r)

/-- No thread starts. -/
lemma Reports.of_client (hc : inc'.calls = inc.calls) (hr : inc'.returns = inc.returns)
    (ht : inc'.threads = inc.threads) : Reports sh inc inc' := by
  have hsame : inc'.threads = inc.threads ∨ inc'.threads = inc.threads ++ [⟨[], .free⟩] :=
    Or.inl ht
  exact .of_same hc hr (fun _ => List.not_mem_nil) hsame

/-- A thread does not come up with new returns. -/
lemma exec_returns {op : ThreadOp} {next : List ThreadOp} (h : op.Acts sh inc inc' next) :
    (∀ r, ThreadOp.ret r ∉ next) ∧ inc'.calls = inc.calls ∧
      (inc'.returns = inc.returns ∨ ∃ r, op = .ret r ∧ inc'.returns = inc.returns ++ [r]) := by
  cases h with
  | page op e =>
      obtain ⟨a, q, c, w, hp⟩ := op.exec_shape e inc
      refine ⟨by simp, ?_, Or.inl ?_⟩
      · rw [hp]
      · rw [hp]
  | owner op =>
      obtain ⟨ms, m, g, hp⟩ := op.exec_shape inc
      refine ⟨by simp, ?_, Or.inl ?_⟩
      · rw [hp]
      · rw [hp]
  | endLifetime => exact ⟨by simp [closing], rfl, Or.inl rfl⟩
  | ret r => exact ⟨by simp, rfl, Or.inr ⟨r, rfl, rfl⟩⟩
  | refuse op m => exact ⟨by simp, rfl, Or.inl rfl⟩
  | installed m => exact ⟨by simp, rfl, Or.inl rfl⟩
  | _ => exact ⟨by simp, rfl, Or.inl rfl⟩

/-- A thread makes its return, or keeps it. -/
lemma Reports.of_threadStep {e : Env} {t : ℕ} (h : inc.threadStep sh e t = some inc') :
    Reports sh inc inc' := by
  obtain ⟨op, rest, role, i, next, ht, -, hop, rfl⟩ := threadStep_shape h
  have hmem : (⟨op :: rest, role⟩ : Thread) ∈ inc.threads := List.mem_of_getElem? ht
  obtain ⟨hnext, hcalls, hret⟩ := exec_returns (ThreadOp.acts_of_exec hop)
  constructor
  case calls => exact fun c hc => Or.inl (hcalls ▸ hc)
  case pending =>
      rintro r ⟨t', ht', hr⟩
      rcases List.mem_or_eq_of_mem_set ht' with ht' | rfl
      · exact Or.inl ⟨t', ht', hr⟩
      · rcases List.mem_append.mp hr with hr | hr
        · exact absurd hr (hnext r)
        · exact Or.inl ⟨_, hmem, List.mem_cons_of_mem _ hr⟩
  case returns =>
      rcases hret with hret | ⟨r, rfl, hret⟩
      · exact ⟨[], by rw [List.append_nil]; exact hret, fun r h0 => (nomatch h0)⟩
      · refine ⟨[r], hret, fun r' hr' => Or.inl ?_⟩
        rw [List.mem_singleton] at hr'
        rw [hr']
        exact ⟨_, hmem, List.mem_cons_self⟩

lemma Reports.of_callStep {t : ℕ} (h : inc.callStep sh t = some inc') : Reports sh inc inc' := by
  have quiet : ∃ new, inc.returns = inc.returns ++ new ∧ ∀ r ∈ new, inc.Returns sh inc' r :=
    ⟨[], (List.append_nil _).symm, fun r h0 => (nomatch h0)⟩
  obtain ⟨call, hcall, ⟨pc, hn, rfl⟩ | ⟨o, hn, rfl⟩ | ⟨c, idx, k, m, x, hn, -, -, rfl⟩⟩ :=
    callStep_shape h
  · have hmem : call ∈ inc.calls := List.mem_of_getElem? hcall
    refine ⟨fun c hc => ?_, fun r hr => Or.inl hr, quiet⟩
    rcases List.mem_or_eq_of_mem_set hc with hc | rfl
    · exact Or.inl hc
    · exact Or.inr (Or.inr ⟨call, hmem, pc, hn, rfl⟩)
  · have hmem : call ∈ inc.calls := List.mem_of_getElem? hcall
    refine ⟨fun c hc => Or.inl (List.mem_of_mem_eraseIdx hc), fun r hr => Or.inl hr,
      ⟨_, rfl, fun r hr => ?_⟩⟩
    rw [List.mem_singleton] at hr
    subst hr
    exact Or.inr (Or.inl ⟨call, hmem, hn, rfl, rfl⟩)
  · exact ⟨fun c hc => Or.inl (List.mem_of_mem_eraseIdx hc), fun r hr => Or.inl hr, quiet⟩

lemma Reports.of_useActs {k : ℕ} {u : Use} (hu : inc.uses k = some u)
    (h : inc.UseActs sh k u inc') : Reports sh inc inc' := by
  cases h with
  | lease hp hd =>
      refine ⟨fun c hc => Or.inl hc, fun r hr => Or.inl hr, ⟨_, rfl, fun r hr => ?_⟩⟩
      rw [List.mem_singleton] at hr
      subst hr
      exact Or.inr (Or.inr ⟨k, u, hu, hp, hd, Function.update_self _ _ _, rfl⟩)
  | returnClaim hp =>
      refine ⟨fun c hc => Or.inl hc, ?_,
        ⟨[], (List.append_nil _).symm, fun r h0 => (nomatch h0)⟩⟩
      rintro r ⟨t, ht, hr⟩
      rcases List.mem_append.mp ht with ht | ht
      · exact Or.inl ⟨t, ht, hr⟩
      · rw [List.mem_singleton] at ht
        subst ht
        right
        cases ho : u.outcome with
        | none => simp [releaseTail, ho] at hr
        | some o =>
            simp only [releaseTail, ho, Option.toList_some, List.map_cons, List.map_nil,
              List.mem_append, List.mem_singleton, List.mem_map, reduceCtorEq, and_false,
              exists_false, or_false, false_or, ThreadOp.ret.injEq] at hr
            subst hr
            exact ⟨k, u, hu, ho, rfl, rfl⟩
  | _ => exact .of_client rfl rfl rfl

/-- **Where the reports of an incarnation come from.** -/
theorem Move.reports (h : inc.Move sh inc') : Reports sh inc inc' := by
  cases h with
  | observe op => exact .of_client rfl rfl rfl
  | collect => exact .of_client rfl rfl rfl
  | forget => exact .of_client rfl rfl rfl
  | retry => exact .of_client rfl rfl rfl
  | call op => exact .of_client rfl rfl rfl
  | act _ ha =>
      cases ha with
      | dropGrant g p role hm hd => exact .of_same rfl rfl (by simp [grantDrop]) (Or.inr rfl)
      | dropOffer m g p role hm hd => exact .of_same rfl rfl (by simp) (Or.inr rfl)
      | fromGrant g hm hx => exact .of_same rfl rfl (by simp) (Or.inr rfl)
      | install m g hm => exact .of_same rfl rfl (by simp) (Or.inr rfl)
      | relinquish c hx => exact .of_same rfl rfl (by simp [Consumer.dropResources]) (Or.inr rfl)
      | dropConsumer c hx => exact .of_same rfl rfl (by simp [Consumer.dropResources]) (Or.inr rfl)
      | bind t hx => exact .of_same rfl rfl (by simp) (Or.inr rfl)
      | begin client request hx =>
          refine ⟨fun c hc => ?_, fun r hr => Or.inl hr,
            ⟨[], (List.append_nil _).symm, by rintro r ⟨⟩⟩⟩
          rcases List.mem_append.mp hc with hc | hc
          · exact Or.inl hc
          · rw [List.mem_singleton] at hc
            subst hc
            exact Or.inr (Or.inl rfl)
      | call t _ hx hs => exact .of_callStep hs
      | use k u e _ hx hu hs => exact .of_useActs hu (useActs_of_step hs)
      | defer k t v e u m hx hu =>
          rw [handoff]
          split_ifs <;> exact .of_client rfl rfl rfl
      | waiter w e _ hx hw hs =>
          obtain ⟨waiter, interest, bytes, rfl⟩ := waiterStep_shape hs
          exact .of_client rfl rfl rfl
      | thread t e _ hs => exact .of_threadStep hs
      | retire e _ hs =>
          obtain ⟨op, rest, -, -, rfl⟩ := retireStep_shape hs
          obtain ⟨hc, ⟨ht, -⟩ | ⟨k, -, ht, -⟩⟩ := op.exec_client e
            { inc with retirement := { inc.retirement with todo := rest } }
          · exact .of_client hc.calls hc.returns ht
          · exact .of_same hc.calls hc.returns (by simp) (Or.inr ht)
      | host e _ hs =>
          obtain ⟨op, rest, -, rfl⟩ := hostStep_shape hs
          obtain ⟨a, q, c, ms, g, maps, w, fault, reply, hx⟩ := op.exec_shape e inc
          exact .of_client (by rw [hx]) (by rw [hx]) (by rw [hx])
      | observe e _ hs =>
          obtain ⟨op, rest, -, rfl⟩ := observeStep_shape hs
          obtain ⟨hc, ht, -⟩ := op.exec_client sh.native e inc
          exact .of_client hc.calls hc.returns ht
      | _ => exact .of_client rfl rfl rfl

end Incarnation

namespace Ordered

variable {latest : ℕ} {sh : Shared} {inc inc' : Incarnation}

/-- The use of a claim slot keeps its cursor and its request. -/
lemma uses_step (h : Ordered latest inc) {k : ℕ} {x x' : Option Use}
    (hu : inc.Uses sh k x x') (hx : ∀ u, x = some u → u.Within latest) :
    ∀ u', x' = some u' → u'.Within latest := by
  have kept : ∀ u u' : Use, u.Within latest → u'.request = u.request → u'.cursor = u.cursor →
      (∀ o, u'.outcome = some o → o.Answers latest u.request) → u'.Within latest := by
    intro u u' hw hr hc ho
    exact ⟨by rw [hr, hc]; exact hw.selects, hc ▸ hw.pos, hc ▸ hw.le, hr ▸ ho⟩
  cases hu with
  | same => exact hx
  | claimed call cursor index m mapping _ hmem hpc =>
      rintro u' ⟨⟩
      have hw := h.calls call hmem
      rw [hpc] at hw
      exact ⟨hw.1, hw.2.1, hw.2.2, fun o ho => by cases ho⟩
  | miss u =>
      rintro u' ⟨⟩
      have hw := hx u rfl
      refine kept u _ hw rfl rfl ?_
      rintro o ⟨⟩
      exact ⟨hw.selects, hw.pos, hw.le⟩
  | refuse u outcome _ hr =>
      rintro u' ⟨⟩
      refine kept u _ (hx u rfl) rfl rfl ?_
      rintro o ⟨⟩
      cases outcome <;> trivial
  | validate u => rintro u' ⟨⟩; exact kept u _ (hx u rfl) rfl rfl (hx u rfl).outcome
  | next u pc => rintro u' ⟨⟩; exact kept u _ (hx u rfl) rfl rfl (hx u rfl).outcome
  | lease u => rintro u' ⟨⟩; exact kept u _ (hx u rfl) rfl rfl (hx u rfl).outcome
  | release u => rintro u' ⟨⟩; exact kept u _ (hx u rfl) rfl rfl (hx u rfl).outcome
  | returnPending u => rintro u' ⟨⟩; exact kept u _ (hx u rfl) rfl rfl (hx u rfl).outcome
  | handing u => rintro u' ⟨⟩; exact kept u _ (hx u rfl) rfl rfl (hx u rfl).outcome
  | deferred u => rintro u' ⟨⟩; exact kept u _ (hx u rfl) rfl rfl (hx u rfl).outcome
  | returned u => exact fun u' hu' => by cases hu'
  | credited u => exact fun u' hu' => by cases hu'

/-- **Every move keeps the order of delivery.** -/
theorem move (h : Ordered sh.control.latest inc) (hh : Handoffs sh.native inc)
    (hfirst : sh.control.firstCursor ≤ sh.control.latest + 1)
    (hpos : 1 ≤ sh.control.firstCursor) (hm : inc.Move sh inc') :
    Ordered sh.control.latest inc' := by
  have hreports := hm.reports
  have next : ∀ call ∈ inc.calls, ∀ n, call.next sh inc = some n →
      n.Within sh.control.latest call.request := by
    intro call hmem n hn
    exact AcquireCall.next_within le_rfl hfirst hpos (h.calls call hmem) hn
  constructor
  case calls =>
      intro c hc
      rcases hreports.calls c hc with hc | hc | ⟨call, hmem, pc, hn, rfl⟩
      · exact h.calls c hc
      · rw [hc]
        trivial
      · exact next call hmem _ hn
  case uses =>
      intro k
      exact h.uses_step (hm.uses hh k) (h.uses k)
  case threads =>
      intro t ht r hr
      rcases hreports.pending r ⟨t, ht, hr⟩ with ⟨t', ht', hr'⟩ | ⟨k, u, hu, ho, -, hreq⟩
      · exact h.threads t' ht' r hr'
      · rw [Return.Answers, hreq]
        exact (h.uses k u hu).outcome _ ho
  case returns =>
      intro r hr
      obtain ⟨new, heq, hnew⟩ := hreports.returns
      rw [heq, List.mem_append] at hr
      rcases hr with hr | hr
      · exact h.returns r hr
      rcases hnew r hr with ⟨t, ht, hr⟩ | ⟨call, hmem, hn, -, hreq⟩ | ⟨k, u, hu, -, hd, -, rfl⟩
      · exact h.threads t ht r hr
      · rw [Return.Answers, hreq]
        exact next call hmem _ hn
      · show u.request.Selects _
        rw [hd]
        exact (h.uses k u hu).selects

lemma new (frames : ℕ) (remote : Bool) (generation : ℕ) :
    Ordered latest (Incarnation.new frames remote generation) := by
  constructor <;> simp [Incarnation.new]

end Ordered

/-! ### A consumer that goes on from the last report -/

namespace AcquireOutcome

/-- The cursors that an outcome reports. -/
def cursors : AcquireOutcome → List ℕ
  | .frame descriptor => [descriptor.cursor]
  | .miss cursor => [cursor]
  | .gap first last => List.range' first (last + 1 - first)
  | _ => []

/-- The cursors that an outcome reports as lost. -/
def missed : AcquireOutcome → List ℕ
  | .frame _ => []
  | o => o.cursors

/-- Where the next ordered request goes on. -/
def last (after : ℕ) : AcquireOutcome → ℕ
  | .frame descriptor => descriptor.cursor
  | .miss cursor => cursor
  | .gap _ last => last
  | _ => after

/-- Missed cursors have been published. -/
lemma Answers.missed {latest : ℕ} {request : Request} {o : AcquireOutcome}
    (h : o.Answers latest request) : ∀ c ∈ o.missed, 1 ≤ c ∧ c ≤ latest := by
  intro c hc
  cases o with
  | miss cursor =>
      rw [AcquireOutcome.missed, cursors, List.mem_singleton] at hc
      · rw [hc]
        exact h.2
      · simp
  | gap a b =>
      have hc : c ∈ List.range' a (b + 1 - a) := hc
      obtain ⟨-, h1, h2, h3⟩ := h
      rw [List.mem_range'_1] at hc
      omega
  | _ => cases hc

/-- One report covers the cursors up to where the consumer goes on. -/
lemma Answers.cursors_eq {latest after : ℕ} {o : AcquireOutcome} (hpos : 0 < after)
    (h : o.Answers latest (.next after)) :
    after ≤ o.last after ∧ o.cursors = List.range' (after + 1) (o.last after - after) := by
  cases o with
  | frame d =>
      have hd : d.cursor = after + 1 := h hpos
      simp [last, cursors, hd]
  | miss c =>
      have hc : c = after + 1 := h.1 hpos
      simp [last, cursors, hc]
  | gap a b =>
      obtain ⟨h0, h1, h2, h3⟩ := h
      have ha : a = after + 1 := h0 hpos
      subst ha
      have hlen : b + 1 - (after + 1) = b - after := by omega
      exact ⟨show after ≤ b by omega, by rw [cursors, last, hlen]⟩
  | _ => simp [last, cursors]

end AcquireOutcome

/-- The returns of a consumer that starts from `after` and always continues
`acquire_next` from the last cursor reported to it, up to `last`. -/
inductive Continues : ℕ → List Return → ℕ → Prop
  | nil (after : ℕ) : Continues after [] after
  | cons (client after : ℕ) (outcome : AcquireOutcome) (rs : List Return) (last : ℕ) :
      Continues (outcome.last after) rs last →
      Continues after (⟨client, .next after, outcome⟩ :: rs) last

/-- **The reports tile the cursors from the start on.** -/
lemma Continues.tiles {latest after last : ℕ} {rs : List Return} (h : Continues after rs last)
    (hpos : 0 < after) (hrs : ∀ r ∈ rs, r.Answers latest) :
    after ≤ last ∧ rs.flatMap (fun r => r.outcome.cursors) =
      List.range' (after + 1) (last - after) := by
  induction h with
  | nil after => simp
  | cons client after outcome rs last _ ih =>
      have hhead : outcome.Answers latest (.next after) := hrs _ List.mem_cons_self
      obtain ⟨hle, hcur⟩ := hhead.cursors_eq hpos
      obtain ⟨hle', htail⟩ := ih (by omega) fun r hr => hrs r (List.mem_cons_of_mem _ hr)
      refine ⟨hle.trans hle', ?_⟩
      have hstart : outcome.last after + 1 = after + 1 + (outcome.last after - after) := by omega
      have hlen : last - after = (outcome.last after - after) + (last - outcome.last after) := by
        omega
      calc (⟨client, .next after, outcome⟩ :: rs : List Return).flatMap
            (fun r => r.outcome.cursors)
          = List.range' (after + 1) (outcome.last after - after) ++
              List.range' (outcome.last after + 1) (last - outcome.last after) := by
            rw [List.flatMap_cons, hcur, htail]
        _ = List.range' (after + 1) (last - after) := by
            rw [hstart, hlen, List.range'_append_1]

namespace Arena

variable {s s' : Arena}

/-- Delivery is ordered in every reachable arena. -/
theorem Reachable.ordered (h : Reachable s) {i : ℕ} {inc : Incarnation}
    (hi : s.incarnations i = some inc) : Ordered s.shared.control.latest inc :=
  h.incarnation_in (P := fun sh inc => Ordered sh.control.latest inc)
    (fun _ frames remote g _ _ => Ordered.new frames remote g)
    (fun _ _ _ _ ha hi hp hm => hp.move (ha.handoffs hi)
      (ha.published.latest ▸ ha.published.first_le) ha.published.first_pos hm)
    (fun _ _ _ ha hs hp => hp.mono (hs.latest_le ha.ledger ha.published)) i inc hi

/-- A cursor up to `LATEST` has been published under its own number. -/
lemma Reachable.published_of_le (h : Reachable s) {c : ℕ} (h1 : 1 ≤ c)
    (h2 : c ≤ s.shared.control.latest) : ∃ p, s.log c = some p ∧ p.descriptor.cursor = c := by
  have hpub := h.published
  obtain ⟨p, hp⟩ := Option.ne_none_iff_exists'.mp (hpub.logged c h1 (hpub.latest ▸ h2))
  exact ⟨p, hp, (hpub.logs c p hp).1⟩

/-- **Ordered delivery is complete and never substitutes.** The reports of a consumer
that continues `acquire_next` from the last cursor reported to it are the cursors from
its start on, each once and in order; what a call reports as missed or as a gap had been
published before the step in which it returns; a frame has the cursor asked for. -/
theorem ordered_delivery (hr : Reachable s) {i : ℕ} {inc : Incarnation}
    (hi : s.incarnations i = some inc) :
    (∀ rs start last, rs.Sublist inc.returns → 0 < start → Continues start rs last →
      start ≤ last ∧ rs.flatMap (fun r => r.outcome.cursors) =
        List.range' (start + 1) (last - start)) ∧
    (∀ l s' inc', s.step l = some s' → s'.incarnations i = some inc' →
      ∀ r ∈ inc'.returns, ∀ c ∈ r.outcome.missed,
        c ≤ s.shared.control.latest ∧ ∃ p, s.log c = some p ∧ p.descriptor.cursor = c) ∧
    (∀ client after d, ⟨client, .next after, .frame d⟩ ∈ inc.returns → 0 < after →
      d.cursor = after + 1) ∧
    ∀ client c d, ⟨client, .exact c, .frame d⟩ ∈ inc.returns → d.cursor = c := by
  have h := hr.ordered hi
  refine ⟨?_, ?_, ?_, ?_⟩
  · intro rs start last hsub hpos hcont
    exact hcont.tiles hpos fun r hmem => h.returns r (hsub.subset hmem)
  · intro l s' inc' hs hi' r hmem c hc
    have h' := (hr.tail hs).ordered hi'
    -- the step that returns does not publish
    have hbound : c ≤ s.shared.control.latest ∧ 1 ≤ c := by
      rcases (acts_of_step hs).local hr.ledger with heq | ⟨j, _, _, _, _, hsh, _⟩ |
        ⟨j, _, _, _, _, _, _, _, hsh, _⟩
      · rw [heq, hi, Option.some.injEq] at hi'
        subst hi'
        have := (h.returns r hmem).missed c hc
        omega
      · have := (h'.returns r hmem).missed c hc
        rw [hsh] at this
        omega
      · have := (h'.returns r hmem).missed c hc
        rw [hsh] at this
        omega
    exact ⟨hbound.1, hr.published_of_le hbound.2 hbound.1⟩
  · intro client after d hmem hpos
    exact h.returns _ hmem hpos
  · intro client c d hmem
    exact h.returns _ hmem

/-- Admit a consumer and publish three frames into a history of one; the consumer goes
on from cursor one. -/
def delivering : List Label :=
  [.call (.attach 1 false)] ++ pump 8 ++ [on (.fromGrant {}), on (.thread 0 {})] ++
  (List.replicate 3 ([.call (.publish (.cpu {} [7]))] ++ pump 30)).flatten ++
  [on (.begin 0 (.next 1))] ++ List.replicate 5 (on (.call 0)) ++
  [on (.begin 0 (.next 2))] ++ List.replicate 7 (on (.call 0)) ++
  List.replicate 5 (on (.use 0 {}))

theorem ordered_delivery_small : ∃ s inc, Reachable s ∧ s.incarnations 1 = some inc ∧
    Continues 1 inc.returns 3 ∧
    inc.returns.flatMap (fun r => r.outcome.cursors) = List.range' 2 2 := by
  have hrun : ((script 4096 smallConfig 0 false delivering).bind fun s =>
      (s.incarnations 1).map Incarnation.returns) =
      some [⟨0, .next 1, .gap 2 2⟩, ⟨0, .next 2, .frame
        { cursor := 3, configGeneration := 1, payloadOffset := 8, payloadLen := 1,
          slotId := 2 }⟩] := by
    decide +kernel
  obtain ⟨s, hs, hrun⟩ := Option.bind_eq_some_iff.mp hrun
  obtain ⟨inc, hi, hrun⟩ := Option.map_eq_some_iff.mp hrun
  have hcont : Continues 1 inc.returns 3 := by
    rw [hrun]
    exact .cons _ _ _ _ _ (.cons _ _ _ _ _ (.nil _))
  obtain ⟨htiles, -⟩ := ordered_delivery (.of_script hs) hi
  exact ⟨s, inc, .of_script hs, hi, hcont,
    (htiles inc.returns 1 3 (List.Sublist.refl _) Nat.one_pos hcont).2⟩

end Arena

end Jackstay.Acquisition
