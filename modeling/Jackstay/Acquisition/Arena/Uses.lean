import Jackstay.Acquisition.Arena.Cleanup

/-!
The use of a claim slot from one step to the next.

* `Incarnation.Uses` lists what can become of the use of a claim slot: it is claimed,
  validated, leased, given up, returned, handed off, or credited by the observer.
* `Incarnation.Move.uses`: a move does one of these to every claim slot.
* `SectionOp.exec_client` and `ObserveOp.exec_client`: the sections under the two
  mutexes leave the consumer's calls alone.
-/

namespace Jackstay.Acquisition

/-- The parts of an incarnation that only its consumer's own calls change. -/
structure Incarnation.SameClient (inc inc' : Incarnation) : Prop where
  exited : inc'.exited = inc.exited
  consumer : inc'.consumer = inc.consumer
  calls : inc'.calls = inc.calls
  returns : inc'.returns = inc.returns
  waiter : inc'.waiter = inc.waiter
  interest : inc'.page.waitInterest = inc.page.waitInterest

/-- What `State::poll` does at a slot: it goes on, fails, takes a completed slot's
resources to drop them, or acknowledges behind the last slot. -/
lemma SectionOp.retire_cases (e : Env) (inc : Incarnation) (k : ℕ) :
    SectionOp.exec e inc (.retire k) =
      (inc, if inc.retirement.closed ∧ inc.empty then [.page .quiesce] else []) ∨
    SectionOp.exec e inc (.retire k) = (inc, [.retire (k + 1)]) ∨
    SectionOp.exec e inc (.retire k) =
      ({ inc with retirement := { inc.retirement with failure := true } }, [.page .close]) ∨
    ∃ p, inc.retirement.slots k = some p ∧ k < inc.frames ∧
      SectionOp.exec e inc (.retire k) =
        ({ inc with retirement := { inc.retirement with
            slots := Function.update inc.retirement.slots k none } },
          [.drop k (.drop p.owner (.retirement k))]) := by
  rw [SectionOp.exec]
  by_cases hk : inc.frames ≤ k
  · rw [if_pos hk]
    exact Or.inl rfl
  rw [if_neg hk]
  right
  cases hp : inc.retirement.slots k with
  | none => exact Or.inl rfl
  | some p =>
      dsimp only
      split_ifs
      · exact Or.inr (Or.inl rfl)
      · exact Or.inr (Or.inr ⟨p, rfl, by omega, rfl⟩)
      · exact Or.inr (Or.inl rfl)
      · exact Or.inl rfl

/-- A step under the retirement mutex leaves the calls alone; the end of a handoff
starts the drop of the emptied lease. -/
lemma SectionOp.exec_client (e : Env) (inc : Incarnation) (op : SectionOp) :
    inc.SameClient (op.exec e inc).1 ∧
    ((op.exec e inc).1.threads = inc.threads ∧ (op.exec e inc).1.uses = inc.uses ∨
      ∃ k, op = .storePending k ∧
        (op.exec e inc).1.threads = inc.threads ++ [⟨[.dropLifetime], .free⟩] ∧
        (op.exec e inc).1.uses = Function.update inc.uses k
          ((inc.uses k).map fun u => { u with pc := .deferred })) := by
  cases op with
  | storePending k => exact ⟨⟨rfl, rfl, rfl, rfl, rfl, rfl⟩, Or.inr ⟨k, rfl, rfl, rfl⟩⟩
  | page op =>
      obtain ⟨a, q, c, w, h⟩ := op.exec_shape e inc
      rw [SectionOp.exec]
      generalize op.exec e inc = r at h ⊢
      obtain ⟨inc', next⟩ := r
      cases h
      exact ⟨⟨rfl, rfl, rfl, rfl, rfl, rfl⟩, Or.inl ⟨rfl, rfl⟩⟩
  | drop k op =>
      obtain ⟨ms, m, g, h⟩ := op.exec_shape inc
      rw [SectionOp.exec]
      split
      · rename_i heq
        rw [heq] at h
        subst h
        exact ⟨⟨rfl, rfl, rfl, rfl, rfl, rfl⟩, Or.inl ⟨rfl, rfl⟩⟩
      · rename_i heq
        rw [heq] at h
        subst h
        exact ⟨⟨rfl, rfl, rfl, rfl, rfl, rfl⟩, Or.inl ⟨rfl, rfl⟩⟩
  | retire k =>
      rw [SectionOp.exec]
      by_cases hk : inc.frames ≤ k
      · rw [if_pos hk]
        exact ⟨⟨rfl, rfl, rfl, rfl, rfl, rfl⟩, Or.inl ⟨rfl, rfl⟩⟩
      rw [if_neg hk]
      split
      · exact ⟨⟨rfl, rfl, rfl, rfl, rfl, rfl⟩, Or.inl ⟨rfl, rfl⟩⟩
      · split_ifs <;> exact ⟨⟨rfl, rfl, rfl, rfl, rfl, rfl⟩, Or.inl ⟨rfl, rfl⟩⟩
  | _ => exact ⟨⟨rfl, rfl, rfl, rfl, rfl, rfl⟩, Or.inl ⟨rfl, rfl⟩⟩

/-- A step under the observer mutex leaves the calls and the threads alone; it clears
a claim in `return_credit`. -/
lemma ObserveOp.exec_client (native : Bool) (e : Env) (inc : Incarnation) (op : ObserveOp) :
    inc.SameClient (op.exec native e inc).1 ∧
    (op.exec native e inc).1.threads = inc.threads ∧
    (op.exec native e inc).1.retirement = inc.retirement ∧
    (op.exec native e inc).1.mappings = inc.mappings ∧
    ((op.exec native e inc).1.uses = inc.uses ∨
      ∃ k b, op = .creditClaim k b ∧
        (op.exec native e inc).1.uses = Function.update inc.uses k none) := by
  cases op with
  | creditClaim k b =>
      exact ⟨⟨rfl, rfl, rfl, rfl, rfl, rfl⟩, rfl, rfl, rfl, Or.inr ⟨k, b, rfl, rfl⟩⟩
  | page op =>
      obtain ⟨a, q, c, w, h⟩ := op.exec_shape e inc
      rw [ObserveOp.exec]
      generalize op.exec e inc = r at h ⊢
      obtain ⟨inc', next⟩ := r
      cases h
      exact ⟨⟨rfl, rfl, rfl, rfl, rfl, rfl⟩, rfl, rfl, rfl, Or.inl rfl⟩
  | process =>
      simp only [ObserveOp.exec]
      split_ifs <;> exact ⟨⟨rfl, rfl, rfl, rfl, rfl, rfl⟩, rfl, rfl, rfl, Or.inl rfl⟩
  | exitPending k =>
      simp only [ObserveOp.exec]
      split_ifs <;> exact ⟨⟨rfl, rfl, rfl, rfl, rfl, rfl⟩, rfl, rfl, rfl, Or.inl rfl⟩
  | deadline =>
      simp only [ObserveOp.exec]
      split_ifs <;> exact ⟨⟨rfl, rfl, rfl, rfl, rfl, rfl⟩, rfl, rfl, rfl, Or.inl rfl⟩
  | loadPending k =>
      simp only [ObserveOp.exec]
      split_ifs <;> exact ⟨⟨rfl, rfl, rfl, rfl, rfl, rfl⟩, rfl, rfl, rfl, Or.inl rfl⟩
  | loadValue k t =>
      simp only [ObserveOp.exec]
      split_ifs <;> exact ⟨⟨rfl, rfl, rfl, rfl, rfl, rfl⟩, rfl, rfl, rfl, Or.inl rfl⟩
  | completed k t v =>
      simp only [ObserveOp.exec]
      split_ifs <;> exact ⟨⟨rfl, rfl, rfl, rfl, rfl, rfl⟩, rfl, rfl, rfl, Or.inl rfl⟩
  | register =>
      simp only [ObserveOp.exec]
      split_ifs <;> exact ⟨⟨rfl, rfl, rfl, rfl, rfl, rfl⟩, rfl, rfl, rfl, Or.inl rfl⟩
  | _ => exact ⟨⟨rfl, rfl, rfl, rfl, rfl, rfl⟩, rfl, rfl, rfl, Or.inl rfl⟩

/-- **What becomes of the use of a claim slot** in one move. -/
inductive Incarnation.Uses (sh : Shared) (inc : Incarnation) (k : ℕ) :
    Option Use → Option Use → Prop
  | same (x : Option Use) : Uses sh inc k x x
  | claimed (call : AcquireCall) (cursor index m : ℕ) (mapping : Mapping) :
      inc.exited = false → call ∈ inc.calls → call.pc = .claim cursor index k → k < inc.frames →
      inc.consumer.bind Consumer.resources = some m → inc.mappings m = some mapping →
      Uses sh inc k none (some
        { client := call.client
          request := call.request
          cursor
          index
          generation := mapping.generation
          owner := some m })
  | miss (u : Use) : inc.exited = false → u.pc = .validate →
      Uses sh inc k (some u)
        (some { u with pc := .returnPending, outcome := some (.miss u.cursor) })
  | validate (u : Use) : inc.exited = false → u.pc = .validate →
      ((sh.maps u.generation).records u.index).state = 2 * u.cursor + 1 →
      Uses sh inc k (some u) (some { u with pc := .active, validated := true })
  | refuse (u : Use) (outcome : AcquireOutcome) : inc.exited = false → outcome.Refuses →
      u.pc = .active ∨ u.pc = .terminal ∨ u.pc = .configuration ∨ u.pc = .describe →
      Uses sh inc k (some u) (some { u with pc := .returnPending, outcome := some outcome })
  | next (u : Use) (pc : UsePc) : inc.exited = false → u.pc.Next sh u pc →
      Uses sh inc k (some u) (some { u with pc })
  | lease (u : Use) : inc.exited = false → u.pc = .describe →
      ((sh.maps u.generation).records u.index).descriptor.cursor = u.cursor →
      Uses sh inc k (some u) (some { u with
        pc := .leased
        descriptor := ((sh.maps u.generation).records u.index).descriptor })
  | release (u : Use) : inc.exited = false → u.pc = .leased →
      Uses sh inc k (some u) (some { u with pc := .returnPending })
  | returnPending (u : Use) : inc.exited = false → u.pc = .returnPending →
      Uses sh inc k (some u) (some { u with pc := .returnClaim })
  | returned (u : Use) : inc.exited = false → u.pc = .returnClaim → Uses sh inc k (some u) none
  | handing (u : Use) (t v m : ℕ) : inc.exited = false → u.pc = .leased → u.owner = some m →
      Uses sh inc k (some u)
        (some { u with owner := none, handoff := some (t + 1, v), pc := .handing })
  | deferred (u : Use) : inc.exited = false → u.pc = .handing →
      Uses sh inc k (some u) (some { u with pc := .deferred })
  | credited (u : Use) (atExit : Bool) (rest : List ObserveOp) :
      inc.observer.todo = .creditClaim k atExit :: rest → u.pc = .deferred ∨ atExit = true →
      Uses sh inc k (some u) none

namespace Incarnation

variable {sh : Shared} {inc inc' : Incarnation}

/-- One claim slot changes. -/
lemma Uses.of_update {k : ℕ} {x : Option Use} (h : inc'.uses = Function.update inc.uses k x)
    (hk : Uses sh inc k (inc.uses k) x) (j : ℕ) : Uses sh inc j (inc.uses j) (inc'.uses j) := by
  rw [h]
  by_cases hj : j = k
  · subst hj
    rw [Function.update_self]
    exact hk
  · rw [Function.update_of_ne hj]
    exact .same _

lemma Uses.of_eq (h : inc'.uses = inc.uses) (j : ℕ) :
    Uses sh inc j (inc.uses j) (inc'.uses j) := by
  rw [h]
  exact .same _

/-- A step of a use. -/
lemma Uses.of_useActs {k : ℕ} {u : Use} (hx : inc.exited = false) (hu : inc.uses k = some u)
    (h : inc.UseActs sh k u inc') (j : ℕ) : Uses sh inc j (inc.uses j) (inc'.uses j) := by
  cases h with
  | miss hp => exact .of_update rfl (by rw [hu]; exact .miss u hx hp) j
  | validate hp hs => exact .of_update rfl (by rw [hu]; exact .validate u hx hp hs) j
  | refuse o ho hp => exact .of_update rfl (by rw [hu]; exact .refuse u o hx ho hp) j
  | next pc hp => exact .of_update rfl (by rw [hu]; exact .next u pc hx hp) j
  | lease hp hd => exact .of_update rfl (by rw [hu]; exact .lease u hx hp hd) j
  | returnPending hp => exact .of_update rfl (by rw [hu]; exact .returnPending u hx hp) j
  | returnClaim hp => exact .of_update rfl (by rw [hu]; exact .returned u hx hp) j

/-- **A move does one of these to every claim slot.** -/
theorem Move.uses (h : Handoffs sh.native inc) (hm : inc.Move sh inc') (j : ℕ) :
    Uses sh inc j (inc.uses j) (inc'.uses j) := by
  cases hm with
  | observe op => exact .of_eq rfl j
  | collect => exact .of_eq rfl j
  | forget => exact .of_eq rfl j
  | retry => exact .of_eq rfl j
  | call op => exact .of_eq rfl j
  | act _ ha =>
      cases ha with
      | call t _ hx hs =>
          obtain ⟨call, hcall, ⟨pc, -, rfl⟩ | ⟨o, -, rfl⟩ | ⟨c, idx, k, m, x, hn, hm, hmap, rfl⟩⟩ :=
            callStep_shape hs
          · exact .of_eq rfl j
          · exact .of_eq rfl j
          · have hmem : call ∈ inc.calls := List.mem_of_getElem? hcall
            obtain ⟨hpc, hfree⟩ := Handoffs.next_claimed hn
            have hnone : inc.uses k = none := by
              by_contra hne
              obtain ⟨u, hu⟩ := Option.ne_none_iff_exists'.mp hne
              obtain ⟨h1, h2⟩ := h.used k u hu
              exact h2 (h1 ▸ hfree)
            refine .of_update rfl ?_ j
            rw [hnone]
            exact .claimed call c idx m x hx hmem hpc (h.calls call hmem c idx k hpc).2 hm hmap
      | use k u e _ hx hu hs => exact .of_useActs hx hu (useActs_of_step hs) j
      | release k u hx hu hp =>
          exact .of_update rfl (by rw [hu]; exact .release u hx hp) j
      | defer k t v e u m hx hu hp hown =>
          rw [handoff]
          split_ifs
          · exact .of_eq rfl j
          · exact .of_eq rfl j
          · exact .of_update rfl (by rw [hu]; exact .handing u t v m hx hp hown) j
      | waiter w e _ hx hw hs =>
          obtain ⟨waiter, interest, bytes, rfl⟩ := waiterStep_shape hs
          exact .of_eq rfl j
      | thread t e _ hs =>
          obtain ⟨op, rest, role, i, next, -, -, hop, rfl⟩ := threadStep_shape hs
          obtain ⟨a, q, c, ms, g, maps, consumer, todo, sources, w, returns, rfl, -⟩ :=
            ThreadOp.exec_shape hop
          exact .of_eq rfl j
      | retire e _ hs =>
          obtain ⟨op, rest, htodo, hx, rfl⟩ := retireStep_shape hs
          obtain ⟨-, ⟨-, hu⟩ | ⟨k, rfl, -, hu⟩⟩ := op.exec_client e
            { inc with retirement := { inc.retirement with todo := rest } }
          · exact .of_eq (show _ = inc.uses from hu) j
          · have hu : _ = Function.update inc.uses k
                ((inc.uses k).map fun u => { u with pc := .deferred }) := hu
            obtain ⟨⟨u, huse, hpc, -⟩, -⟩ := h.mutex (h.not_seen hx) _ rest htodo
            refine .of_update hu ?_ j
            rw [huse, Option.map_some]
            exact .deferred u hx hpc
      | host e _ hs =>
          obtain ⟨op, rest, -, rfl⟩ := hostStep_shape hs
          obtain ⟨a, q, c, ms, g, maps, w, fault, reply, hx⟩ := op.exec_shape e inc
          exact .of_eq (by simp only [hx]) j
      | observe e _ hs =>
          obtain ⟨op, rest, htodo, rfl⟩ := observeStep_shape hs
          obtain ⟨-, -, -, -, hu | ⟨k, b, rfl, hu⟩⟩ := op.exec_client sh.native e inc
          · exact .of_eq hu j
          · refine .of_update hu ?_ j
            obtain ⟨hfact, -⟩ := h.observer _ rest htodo
            cases b with
            | false =>
                obtain ⟨u, t, v, huse, hpc, -⟩ := hfact
                rw [huse]
                exact .credited u false rest htodo (Or.inl hpc)
            | true =>
                cases huse : inc.uses k with
                | none => exact .same none
                | some u => exact .credited u true rest htodo (Or.inr rfl)
      | _ => exact .of_eq rfl j

end Incarnation

end Jackstay.Acquisition
