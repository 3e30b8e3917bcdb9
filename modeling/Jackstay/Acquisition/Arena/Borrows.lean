import Jackstay.Acquisition.Arena.Uses
import Jackstay.Acquisition.Arena.Threads

/-!
Borrows of a consumer: acquisition calls, waits, installs and binds hold `&ArenaConsumer`
or `&mut ArenaConsumer`, and so the consumer outlives them.
-/

namespace Jackstay.Acquisition

/-- A step of a call that borrows the consumer. -/
def ThreadOp.Borrows : ThreadOp → Prop
  | .installActive _ => True
  | .installTerminal _ => True
  | .installMap _ => True
  | .installConfiguration _ => True
  | .bindRegistered _ => True
  | .bindActive _ => True
  | .bindTerminal _ => True
  | .bindSource _ => True
  | _ => False

/-- The thread runs a call that borrows the consumer. -/
def Role.Borrows : Role → Prop
  | .consumer => True
  | .call => True
  | _ => False

/-- A grant or an offer is dropped outside any call. -/
lemma Place.Drops.not_borrows {exited : Bool} {p : Place} {role : Role}
    (h : p.Drops exited role) : ¬ role.Borrows := by
  cases p <;> cases role <;> first | exact id | cases h

/-- **What borrows the consumer has one.** -/
structure Borrowed (inc : Incarnation) : Prop where
  calls : inc.calls ≠ [] → inc.consumer.isSome
  waiter : inc.waiter.isSome → inc.consumer.isSome
  uses : ∀ k u, inc.uses k = some u → u.inCall = true → inc.consumer.isSome
  running : ∀ t ∈ inc.threads, t.todo ≠ [] → t.role.Borrows → inc.consumer.isSome
  roles : ∀ t ∈ inc.threads, ∀ op ∈ t.todo, op.Borrows → t.role.Borrows

namespace Borrowed

variable {sh : Shared} {inc inc' : Incarnation}

lemma frame (h : Borrowed inc) (hcons : inc.consumer.isSome → inc'.consumer.isSome)
    (hcalls : inc'.calls ≠ [] → inc.calls ≠ [] ∨ inc'.consumer.isSome)
    (hwaiter : inc'.waiter.isSome → inc.waiter.isSome ∨ inc'.consumer.isSome)
    (huses : ∀ k u, inc'.uses k = some u → u.inCall = true →
      (∃ w, inc.uses k = some w ∧ w.inCall = true) ∨ inc'.consumer.isSome)
    (hthreads : ∀ t ∈ inc'.threads, t ∈ inc.threads ∨
      (t.todo ≠ [] → t.role.Borrows → inc'.consumer.isSome) ∧
      ∀ op ∈ t.todo, op.Borrows → t.role.Borrows) : Borrowed inc' := by
  constructor
  case calls => exact fun h0 => (hcalls h0).elim (fun h0 => hcons (h.calls h0)) id
  case waiter => exact fun h0 => (hwaiter h0).elim (fun h0 => hcons (h.waiter h0)) id
  case uses =>
      intro k u hu hc
      rcases huses k u hu hc with ⟨w, hw, hwc⟩ | hsome
      · exact hcons (h.uses k w hw hwc)
      · exact hsome
  case running =>
      intro t ht h0 hr
      rcases hthreads t ht with ht | ⟨hnew, -⟩
      · exact hcons (h.running t ht h0 hr)
      · exact hnew h0 hr
  case roles =>
      intro t ht
      rcases hthreads t ht with ht | ⟨-, hnew⟩
      · exact h.roles t ht
      · exact hnew

/-- A use that is inside its call was so before, or its call is still there. -/
lemma inCall_of_uses (h : Borrowed inc) {k : ℕ} {x x' : Option Use} (hu : inc.Uses sh k x x') :
    ∀ u', x' = some u' → u'.inCall = true →
      (∃ u, x = some u ∧ u.inCall = true) ∨ inc.consumer.isSome := by
  have same : ∀ u u' : Use, u'.inCall = true → u'.outcome = u.outcome →
      (u'.pc = .returnPending ∨ u'.pc = .returnClaim ∨ u'.pc = .handing ∨ u'.pc = .deferred) →
      u.inCall = true := by
    intro u u' hc ho hp
    have : u'.outcome.isSome = true := by
      rcases hp with hp | hp | hp | hp <;> simpa [Use.inCall, hp] using hc
    simp [Use.inCall, ← ho, this]
  have early : ∀ u : Use, u.pc = .validate ∨ u.pc = .active ∨ u.pc = .terminal ∨
      u.pc = .configuration ∨ u.pc = .describe → u.inCall = true := by
    rintro u (hp | hp | hp | hp | hp) <;> simp [Use.inCall, hp]
  cases hu with
  | same => exact fun u' hu' hc => Or.inl ⟨u', hu', hc⟩
  | claimed call cursor index m mapping _ hmem =>
      intro u' _ _
      exact Or.inr (h.calls (List.ne_nil_of_mem hmem))
  | miss u _ hp => exact fun _ _ _ => Or.inl ⟨u, rfl, early u (Or.inl hp)⟩
  | validate u _ hp => exact fun _ _ _ => Or.inl ⟨u, rfl, early u (Or.inl hp)⟩
  | refuse u outcome _ _ hp => exact fun _ _ _ => Or.inl ⟨u, rfl, early u (Or.inr hp)⟩
  | next u pc _ hp =>
      refine fun _ _ _ => Or.inl ⟨u, rfl, early u ?_⟩
      cases hpc : u.pc <;> simp_all [UsePc.Next]
  | lease u _ hp => exact fun _ _ _ => Or.inl ⟨u, rfl, early u (by simp [hp])⟩
  | release u =>
      rintro u' ⟨⟩ hc
      exact Or.inl ⟨u, rfl, same u _ hc rfl (Or.inl rfl)⟩
  | returnPending u =>
      rintro u' ⟨⟩ hc
      exact Or.inl ⟨u, rfl, same u _ hc rfl (Or.inr (Or.inl rfl))⟩
  | handing u =>
      rintro u' ⟨⟩ hc
      exact Or.inl ⟨u, rfl, same u _ hc rfl (Or.inr (Or.inr (Or.inl rfl)))⟩
  | deferred u =>
      rintro u' ⟨⟩ hc
      exact Or.inl ⟨u, rfl, same u _ hc rfl (Or.inr (Or.inr (Or.inr rfl)))⟩
  | returned u => exact fun u' hu' => by cases hu'
  | credited u => exact fun u' hu' => by cases hu'

/-- What an operation of a thread borrows, and that it leaves the consumer there. -/
lemma borrows_of_acts {op : ThreadOp} {next : List ThreadOp} (h : op.Acts sh inc inc' next) :
    (inc.consumer.isSome → inc'.consumer.isSome) ∧ inc'.calls = inc.calls ∧
      inc'.waiter = inc.waiter ∧ ((∃ x ∈ next, x.Borrows) → op.Borrows) := by
  have quiet : ∀ ops : List ThreadOp, (∀ x ∈ ops, ¬ x.Borrows) → (∃ x ∈ ops, x.Borrows) →
      op.Borrows := fun ops hops ⟨x, hx, hb⟩ => absurd hb (hops x hx)
  cases h with
  | page op e =>
      obtain ⟨a, q, c, w, hp⟩ := op.exec_shape e inc
      exact ⟨by rw [hp]; exact id, by rw [hp], by rw [hp], quiet _ (by simp [ThreadOp.Borrows])⟩
  | owner op =>
      obtain ⟨ms, m, g, hp⟩ := op.exec_shape inc
      exact ⟨by rw [hp]; exact id, by rw [hp], by rw [hp], quiet _ (by simp [ThreadOp.Borrows])⟩
  | endLifetime => exact ⟨id, rfl, rfl, quiet _ (by simp [closing, ThreadOp.Borrows])⟩
  | refuse op m => exact ⟨id, rfl, rfl, quiet _ (by simp [offerDrop, ThreadOp.Borrows])⟩
  | installed m => exact ⟨fun _ => rfl, rfl, rfl, fun _ => trivial⟩
  | installActive m => exact ⟨id, rfl, rfl, fun _ => trivial⟩
  | installTerminal m => exact ⟨id, rfl, rfl, fun _ => trivial⟩
  | installMap m => exact ⟨id, rfl, rfl, fun _ => trivial⟩
  | bindRegistered t => exact ⟨id, rfl, rfl, fun _ => trivial⟩
  | bindActive t => exact ⟨id, rfl, rfl, fun _ => trivial⟩
  | bindTerminal t => exact ⟨id, rfl, rfl, fun _ => trivial⟩
  | _ => exact ⟨id, rfl, rfl, quiet _ (by simp)⟩

/-- The uses follow the move, and so the rest decides. -/
lemma of_uses (h : Borrowed inc) (hh : Handoffs sh.native inc) (hm : inc.Move sh inc')
    (hcons : inc.consumer.isSome → inc'.consumer.isSome)
    (hcalls : inc'.calls ≠ [] → inc.calls ≠ [] ∨ inc'.consumer.isSome)
    (hwaiter : inc'.waiter.isSome → inc.waiter.isSome ∨ inc'.consumer.isSome)
    (hthreads : ∀ t ∈ inc'.threads, t ∈ inc.threads ∨
      (t.todo ≠ [] → t.role.Borrows → inc'.consumer.isSome) ∧
      ∀ op ∈ t.todo, op.Borrows → t.role.Borrows) : Borrowed inc' := by
  refine h.frame hcons hcalls hwaiter ?_ hthreads
  intro k u hu hc
  exact (h.inCall_of_uses (hm.uses hh k) u hu hc).imp id hcons

/-- A thread is started. -/
lemma of_spawn (h : Borrowed inc) (hh : Handoffs sh.native inc) (hm : inc.Move sh inc')
    (hcons : inc.consumer.isSome → inc'.consumer.isSome) (hcalls : inc'.calls = inc.calls)
    (hwaiter : inc'.waiter = inc.waiter) {role : Role} {todo : List ThreadOp}
    (ht : inc'.threads = inc.threads ++ [⟨todo, role⟩])
    (hrole : role.Borrows → inc'.consumer.isSome)
    (hops : (∀ op ∈ todo, ¬ op.Borrows) ∨ role.Borrows) : Borrowed inc' := by
  refine h.of_uses hh hm hcons (fun h0 => Or.inl (hcalls ▸ h0)) (fun h0 => Or.inl (hwaiter ▸ h0)) ?_
  intro t htm
  rw [ht, List.mem_append, List.mem_singleton] at htm
  rcases htm with htm | rfl
  · exact Or.inl htm
  · refine Or.inr ⟨fun _ => hrole, fun op hop hb => ?_⟩
    rcases hops with hops | hr
    · exact absurd hb (hops op hop)
    · exact hr

/-- Nothing of the consumer's calls changes. -/
lemma of_same (h : Borrowed inc) (hh : Handoffs sh.native inc) (hm : inc.Move sh inc')
    (hcons : inc'.consumer = inc.consumer) (hcalls : inc'.calls = inc.calls)
    (hwaiter : inc'.waiter = inc.waiter) (ht : inc'.threads = inc.threads) : Borrowed inc' :=
  h.of_uses hh hm (by rw [hcons]; exact id) (fun h0 => Or.inl (hcalls ▸ h0))
    (fun h0 => Or.inl (hwaiter ▸ h0)) (fun t htm => Or.inl (ht ▸ htm))

/-- A thread runs its next operation. -/
lemma of_threadStep (h : Borrowed inc) (hh : Handoffs sh.native inc) (hm : inc.Move sh inc')
    {e : Env} {t : ℕ} (hs : inc.threadStep sh e t = some inc') : Borrowed inc' := by
  obtain ⟨op, rest, role, mid, next, ht, -, hacts, rfl⟩ := Incarnation.threadStep_acts hs
  have hmem : (⟨op :: rest, role⟩ : Thread) ∈ inc.threads := List.mem_of_getElem? ht
  obtain ⟨hcons, hcalls, hwaiter, hnext⟩ := borrows_of_acts hacts
  refine h.of_uses hh hm hcons (fun h0 => Or.inl (hcalls ▸ h0)) (fun h0 => Or.inl (hwaiter ▸ h0)) ?_
  intro t' ht'
  rcases List.mem_or_eq_of_mem_set ht' with ht' | rfl
  · exact Or.inl ht'
  · refine Or.inr ⟨fun _ hr => hcons (h.running _ hmem (by simp) hr), fun x hx hb => ?_⟩
    rcases List.mem_append.mp hx with hx | hx
    · exact h.roles ⟨op :: rest, role⟩ hmem op List.mem_cons_self (hnext ⟨x, hx, hb⟩)
    · exact h.roles ⟨op :: rest, role⟩ hmem x (List.mem_cons_of_mem _ hx) hb

/-- The consumer goes only when nothing borrows it. -/
lemma of_dropConsumer (h : Borrowed inc) (hh : Handoffs sh.native inc) {c : Consumer}
    (hbusy : inc.busy = false) (hbor : inc.borrowed = false) :
    Borrowed (({ inc with consumer := none } : Incarnation).spawn .free
      ([ThreadOp.enter .drain, .await, .dropLifetime] ++ c.dropResources)) := by
  simp only [Incarnation.busy, Incarnation.borrowed, Incarnation.running, Bool.or_eq_false_iff,
    List.any_eq_false, Bool.not_eq_false', List.isEmpty_iff] at hbusy hbor
  obtain ⟨hrunning, hwaiter⟩ := hbusy
  obtain ⟨⟨hcalls, hcall⟩, huses⟩ := hbor
  constructor
  case calls => exact fun h0 => absurd hcalls h0
  case waiter =>
      intro h0
      have h0 : inc.waiter.isSome = true := h0
      rw [hwaiter] at h0
      cases h0
  case uses =>
      intro k u hu hc
      have hu : inc.uses k = some u := hu
      exact absurd (by rw [hu]; simpa using hc) (huses k (List.mem_range.mpr (hh.lt_frames hu)))
  case running =>
      intro t ht h0 hr
      rcases List.mem_append.mp ht with ht | ht
      · cases hrole : t.role with
        | consumer =>
            exact absurd (by simpa [hrole] using h0) (hrunning t ht)
        | call => exact absurd (by simpa [hrole] using h0) (hcall t ht)
        | free => rw [hrole] at hr; cases hr
        | host => rw [hrole] at hr; cases hr
      · rw [List.mem_singleton] at ht
        subst ht
        cases hr
  case roles =>
      intro t ht op hop hb
      rcases List.mem_append.mp ht with ht | ht
      · exact h.roles t ht op hop hb
      · rw [List.mem_singleton] at ht
        subst ht
        have hne : ∀ x ∈ [ThreadOp.enter .drain, .await, .dropLifetime] ++ c.dropResources,
            ¬ ThreadOp.Borrows x := by
          simp [Consumer.dropResources, ThreadOp.Borrows]
        exact absurd hb (hne op hop)

/-- **Every move keeps the borrows.** -/
theorem move (h : Borrowed inc) (hh : Handoffs sh.native inc) (hm : inc.Move sh inc') :
    Borrowed inc' := by
  have hm' := hm
  cases hm with
  | observe op => exact h.of_same hh hm' rfl rfl rfl rfl
  | collect => exact h.of_same hh hm' rfl rfl rfl rfl
  | forget => exact h.of_same hh hm' rfl rfl rfl rfl
  | retry => exact h.of_same hh hm' rfl rfl rfl rfl
  | call op => exact h.of_same hh hm' rfl rfl rfl rfl
  | act _ ha =>
      cases ha with
      | dropGrant g p role hm hd =>
          exact h.of_spawn hh hm' id rfl rfl rfl (fun hr => absurd hr hd.not_borrows)
            (Or.inl (by simp [Incarnation.grantDrop, ThreadOp.Borrows]))
      | dropOffer m g p role hm hd =>
          exact h.of_spawn hh hm' id rfl rfl rfl (fun hr => absurd hr hd.not_borrows)
            (Or.inl (by simp [offerDrop, ThreadOp.Borrows]))
      | fromGrant g hm hx =>
          exact h.of_spawn hh hm' (fun _ => rfl) rfl rfl rfl (fun _ => rfl) (Or.inr trivial)
      | install m g hm hx hc => exact h.of_spawn hh hm' id rfl rfl rfl (fun _ => hc) (Or.inr trivial)
      | relinquish c hx hc =>
          exact h.of_spawn hh hm' (fun _ => rfl) rfl rfl rfl (fun _ => rfl) (Or.inr trivial)
      | dropConsumer c hx hc hbusy hbor => exact h.of_dropConsumer hh hbusy hbor
      | bind t hx hc => exact h.of_spawn hh hm' id rfl rfl rfl (fun _ => hc) (Or.inr trivial)
      | begin client request hx hc =>
          exact h.of_uses hh hm' id (fun _ => Or.inr hc) Or.inl (fun t ht => Or.inl ht)
      | call t _ hx hs =>
          obtain ⟨call, hcall, ⟨pc, -, rfl⟩ | ⟨o, -, rfl⟩ | ⟨c, idx, k, m, x, -, -, -, rfl⟩⟩ :=
            Incarnation.callStep_shape hs
          all_goals
            exact h.of_uses hh hm' id
              (fun _ => Or.inl (List.ne_nil_of_mem (List.mem_of_getElem? hcall))) Or.inl
              (fun t ht => Or.inl ht)
      | use k u e _ hx hu hs =>
          cases Incarnation.useActs_of_step hs with
          | returnClaim hp =>
              refine h.of_spawn hh hm' id rfl rfl rfl (fun hr => ?_) (Or.inl ?_)
              · by_cases ho : u.outcome.isSome = true
                · exact h.uses k u hu (by simp [Use.inCall, ho])
                · rw [if_neg ho] at hr
                  cases hr
              · rintro op hop
                simp only [Incarnation.releaseTail, List.mem_append, List.mem_singleton,
                  List.mem_map] at hop
                rcases hop with ((rfl | ⟨m, -, rfl⟩) | rfl) | ⟨o, -, rfl⟩ <;> exact id
          | _ => exact h.of_same hh hm' rfl rfl rfl rfl
      | defer k t v e u m hx hu =>
          have hsame : (inc.handoff e k t v u m).consumer = inc.consumer ∧
              (inc.handoff e k t v u m).calls = inc.calls ∧
              (inc.handoff e k t v u m).waiter = inc.waiter ∧
              (inc.handoff e k t v u m).threads = inc.threads := by
            rw [Incarnation.handoff]
            split_ifs <;> exact ⟨rfl, rfl, rfl, rfl⟩
          exact h.of_same hh hm' hsame.1 hsame.2.1 hsame.2.2.1 hsame.2.2.2
      | wait observed interest hx hc =>
          exact h.of_uses hh hm' id Or.inl (fun _ => Or.inr hc) (fun t ht => Or.inl ht)
      | waiter w e _ hx hw hs =>
          obtain ⟨waiter, interest, bytes, rfl⟩ := Incarnation.waiterStep_shape hs
          exact h.of_uses hh hm' id Or.inl (fun _ => Or.inl (by rw [hw]; rfl))
            (fun t ht => Or.inl ht)
      | thread t e _ hs => exact h.of_threadStep hh hm' hs
      | retire e _ hs =>
          obtain ⟨op, rest, -, -, rfl⟩ := Incarnation.retireStep_shape hs
          obtain ⟨hc, ⟨ht, -⟩ | ⟨k, -, ht, -⟩⟩ := op.exec_client e
            { inc with retirement := { inc.retirement with todo := rest } }
          · exact h.of_same hh hm' hc.consumer hc.calls hc.waiter ht
          · exact h.of_spawn hh hm' (by rw [hc.consumer]; exact id) hc.calls hc.waiter ht
              (fun hr => by cases hr) (Or.inl (by simp [ThreadOp.Borrows]))
      | host e _ hs =>
          obtain ⟨op, rest, -, rfl⟩ := Incarnation.hostStep_shape hs
          obtain ⟨a, q, c, ms, g, maps, w, fault, reply, hx⟩ := op.exec_shape e inc
          exact h.of_same hh hm' (by rw [hx]) (by rw [hx]) (by rw [hx]) (by rw [hx])
      | observe e _ hs =>
          obtain ⟨op, rest, -, rfl⟩ := Incarnation.observeStep_shape hs
          obtain ⟨hc, ht, -⟩ := op.exec_client sh.native e inc
          exact h.of_same hh hm' hc.consumer hc.calls hc.waiter ht
      | _ => exact h.of_same hh hm' rfl rfl rfl rfl

lemma new (frames : ℕ) (remote : Bool) (generation : ℕ) :
    Borrowed (Incarnation.new frames remote generation) := by
  constructor <;> simp [Incarnation.new]

end Borrowed

end Jackstay.Acquisition
