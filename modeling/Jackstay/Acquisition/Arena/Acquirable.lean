import Jackstay.Acquisition.Arena.Faults

/-!
The history window is acquirable: `acquire_exact` of a cursor in the window of an idle
producer returns its frame.

* `Configured`: between two reconfigurations the installed allocation is the configured one.
* `ExactCall`: a consumer, the cursor it asks for, and what the shared memory says
  about it; `ExactCall.atStage` is the incarnation at a stage of the call.
* `ExactCall.step_atStage`: the call goes through its stages one after the other, whatever
  the attachment answers that has a reason to.
* `retained_acquirable`: the call returns the frame, and no acquisition ever reports
  corrupt metadata.
-/

namespace Jackstay.Acquisition

open Transition

namespace Arena

variable {s s' a b : Arena} {l : Label} {pool : ℕ → NativePool}

/-! ### The configured allocation -/

/-- Outside a reconfiguration the installed allocation is the configured one. -/
def Configured (s : Arena) : Prop :=
  ∀ g, s.producer.resources = some g → s.producer.pc.unpublishing = false →
    (∀ n, s.producer.pc ≠ .configure n) → s.shared.control.configuration = g

/-- A step that begins outside a reconfiguration and changes neither. -/
lemma Configured.frame (h : Configured s) (hpc : s.producer.pc.unpublishing = false)
    (hnot : ∀ n, s.producer.pc ≠ .configure n)
    (hconf : s'.shared.control.configuration = s.shared.control.configuration)
    (hres : s'.producer.resources = s.producer.resources) : Configured s' := by
  intro g hg _ _
  rw [hconf]
  exact h g (hres ▸ hg) hpc hnot

lemma Configured.books (h : Configured s) (hpc : s.producer.pc.unpublishing = false)
    (hnot : ∀ n, s.producer.pc ≠ .configure n) (hb : s.Books s') : Configured s' := by
  cases hb with
  | kept hshared _ _ _ hres _ => exact h.frame hpc hnot (by rw [hshared]) hres
  | installed layout _ _ _ _ _ _ _ hpc' => exact fun g _ _ h0 => absurd hpc' (h0 _)

/-- **One step.** -/
lemma Configured.acts (h : Configured s) (hr : Reachable s) (hs : s.Acts s') : Configured s' := by
  have hl := hr.ledger
  cases hs with
  | incarnation i inc inc' hi ha => exact h
  | write g index bytes => exact h
  | abandon g index => exact h
  | releaseMap g => exact h
  | dropExport g => exact h
  | flow pc outcome released hf =>
      intro g hg hpc _
      have hsame : pc.unpublishing = s.producer.pc.unpublishing := (retention_flows hf).1
      refine h g hg (hsame ▸ hpc) fun n h0 => ?_
      rw [h0] at hf
      cases hf
  | collect i todo goal hd =>
      obtain ⟨-, -, c, hpc⟩ := hl.drained hd
      exact h.books (by rw [hpc]; rfl) (by rw [hpc]; rintro _ ⟨⟩) (hl.collect_books hd)
  | reclaim index goal r hpc hget =>
      exact h.books (by rw [hpc]; rfl) (by rw [hpc]; rintro _ ⟨⟩)
        (hl.reclaim_books (by rw [hpc]; rfl) hget goal)
  | ready index goal r hpc hget =>
      obtain ⟨_, -, -, -, -, -, -, heq⟩ := (hl.ready r.generation).reclaim_spec
        (by rw [onMap_producer, hpc]; rfl) hget goal
      rw [heq]
      exact h.frame (by rw [hpc]; rfl) (by rw [hpc]; rintro _ ⟨⟩) rfl rfl
  | attach e holding remote hpc =>
      exact h.books (by rw [hpc]; rfl) (by rw [hpc]; rintro _ ⟨⟩)
        (hl.attach_books (by rw [hpc]; rfl) e holding remote)
  | advance e hpc =>
      exact h.books (by rw [hpc]; rfl) (by rw [hpc]; rintro _ ⟨⟩)
        (hl.advance_books (by rw [hpc]; rfl) e)
  | begin payloadCapacity externalBytes hpc =>
      exact h.books (by rw [hpc]; rfl) (by rw [hpc]; rintro _ ⟨⟩)
        (hl.begin_books (by rw [hpc]; rfl) _ _)
  | close call i hpc =>
      exact h.books (by rw [hpc]; rfl) (by rw [hpc]; rintro _ ⟨⟩) (hl.close_books i)
  | unconfigure layout hpc => exact fun g _ h0 _ => (nomatch h0)
  | unpublish layout index state hpc => exact fun g _ h0 _ => (nomatch h0)
  | firstCursor layout hpc => exact fun g h0 _ _ => (nomatch h0)
  | configure g hpc =>
      intro n hn _ _
      have hg := hr.configuring g hpc
      have hn : s.producer.resources = some n := hn
      rw [hg] at hn
      cases hn
      rfl
  | commitCall _ _ _ hpc | offerCall _ hpc | registerCall _ hpc | observe _ _ _ _ hpc
  | observed _ _ _ _ hpc | remove _ _ _ _ hpc | unready _ _ _ hpc | retire _ _ _ hpc
  | reserve _ hpc | stage _ _ _ _ hpc | copy _ _ _ _ hpc | describe _ _ hpc | store _ _ hpc
  | ring _ _ hpc | latest _ _ hpc | release _ _ _ hpc | epoch _ _ hpc | terminate _ hpc
  | page _ _ _ _ hpc | register _ _ hpc | retry _ _ _ hpc | exported _ hpc
  | dropObserver _ _ _ hpc =>
      exact h.frame (by rw [hpc]; rfl) (by rw [hpc]; rintro _ ⟨⟩) rfl rfl

/-- **The installed allocation is configured**, in every reachable arena. -/
theorem Reachable.configured (h : Reachable s) : Configured s := by
  refine h.induct (P := Configured) (fun page config externalBytes native s₀ h₀ => ?_)
    fun a b ha hp hs => hp.acts ha hs
  rw [create] at h₀
  obtain ⟨x, -, h₀⟩ := of_bind_ok h₀
  cases h₀
  rintro g ⟨⟩ _ _
  rfl

end Arena

/-! ### The stages of a call -/

/-- A call of `acquire_exact`: the incarnation it begins on, its mapping, the claim slot
that will be free, and the publication behind the cursor. -/
structure ExactCall where
  inc : Incarnation
  client : ℕ
  cursor : ℕ
  /-- the mapping slot of the consumer's resources -/
  owner : ℕ
  mapping : Mapping
  /-- the first free claim slot -/
  slot : ℕ
  publication : Publication

/-- How far the call is. -/
inductive CallStage where
  | calling (pc : CallPc)
  | claimed (pc : UsePc)
  | done
  deriving DecidableEq, Repr

namespace ExactCall

variable {sh : Shared} {pool : ℕ → NativePool} {a : ExactCall} {st : CallStage}

/-- The claim of the call. -/
def use (a : ExactCall) (pc : UsePc) : Use where
  client := a.client
  request := .exact a.cursor
  cursor := a.cursor
  index := a.publication.index
  generation := a.mapping.generation
  owner := some a.owner
  validated := pc != .validate
  descriptor := if pc = .leased then a.publication.descriptor else {}
  pc

/-- What the call returns. -/
def frame (a : ExactCall) : Return :=
  ⟨a.client, .exact a.cursor, .frame a.publication.descriptor⟩

/-- The incarnation at a stage of the call, when nothing else moves. -/
def atStage (a : ExactCall) : CallStage → Incarnation
  | .calling pc => { a.inc with calls := a.inc.calls ++ [⟨a.client, .exact a.cursor, pc⟩] }
  | .claimed pc =>
      { a.inc with
        page := a.inc.page.modifySlot a.slot fun w => { w with claim := a.cursor }
        uses := Function.update a.inc.uses a.slot (some (a.use pc)) }
  | .done =>
      { a.inc with
        page := a.inc.page.modifySlot a.slot fun w => { w with claim := a.cursor }
        uses := Function.update a.inc.uses a.slot (some (a.use .leased))
        returns := a.inc.returns ++ [a.frame] }

/-- The stage behind a stage. -/
def next (a : ExactCall) (sh : Shared) : CallStage → CallStage
  | .calling .latest => .calling (.active sh.control.latest)
  | .calling (.active l) => .calling (.terminal l)
  | .calling (.terminal l) => .calling (.configuration l)
  | .calling (.configuration l) => .calling (.first l)
  | .calling (.first _) => .calling (.ring a.cursor)
  | .calling (.ring _) => .calling (.claim a.cursor a.publication.index 0)
  | .calling (.claim _ _ k) =>
      if k = a.slot then .claimed .validate
      else .calling (.claim a.cursor a.publication.index (k + 1))
  | .claimed .validate => .claimed .active
  | .claimed .active => .claimed .terminal
  | .claimed .terminal => .claimed .configuration
  | .claimed .configuration => .claimed .describe
  | .claimed _ => .done
  | .done => .done

/-- The stages that the call goes through. -/
def Passes (a : ExactCall) (sh : Shared) : CallStage → Prop
  | .calling .latest => True
  | .calling (.active l) => l = sh.control.latest
  | .calling (.terminal l) => l = sh.control.latest
  | .calling (.configuration l) => l = sh.control.latest
  | .calling (.first l) => l = sh.control.latest
  | .calling (.ring c) => c = a.cursor
  | .calling (.claim c index k) => c = a.cursor ∧ index = a.publication.index ∧ k ≤ a.slot
  | .claimed pc => pc = .validate ∨ pc = .active ∨ pc = .terminal ∨ pc = .configuration ∨
      pc = .describe
  | .done => True

/-- The steps that are left. -/
def rank (a : ExactCall) : CallStage → ℕ
  | .calling .latest => a.slot + 12
  | .calling (.active _) => a.slot + 11
  | .calling (.terminal _) => a.slot + 10
  | .calling (.configuration _) => a.slot + 9
  | .calling (.first _) => a.slot + 8
  | .calling (.ring _) => a.slot + 7
  | .calling (.claim _ _ k) => a.slot - k + 6
  | .claimed .validate => 5
  | .claimed .active => 4
  | .claimed .terminal => 3
  | .claimed .configuration => 2
  | .claimed _ => 1
  | .done => 0

/-- **What the call finds**: a live, active and configured consumer with a free claim slot,
and a window that has the cursor. -/
structure Finds (pool : ℕ → NativePool) (sh : Shared) (a : ExactCall) : Prop where
  alive : a.inc.exited = false
  active : a.inc.page.active ≠ 0
  running : sh.control.terminal = 0
  resources : a.inc.consumer.bind Consumer.resources = some a.owner
  mapped : a.inc.mappings a.owner = some a.mapping
  configured : a.mapping.generation = sh.control.configuration
  pos : 1 ≤ a.cursor
  le : a.cursor ≤ sh.control.latest
  retained : sh.control.latest < a.cursor + sh.history
  first : sh.control.firstCursor ≤ a.cursor
  slot_lt : a.slot < a.inc.frames
  free : (a.inc.page.slot a.slot).claim = 0
  taken : ∀ k < a.slot, (a.inc.page.slot k).claim ≠ 0
  unused : a.inc.uses a.slot = none
  ring : sh.ring a.cursor = a.publication.index + 1
  index : a.publication.index < (sh.maps a.mapping.generation).layout.resources
  state : ((sh.maps a.mapping.generation).records a.publication.index).state = 2 * a.cursor + 1
  descriptor : ((sh.maps a.mapping.generation).records a.publication.index).descriptor =
    a.publication.descriptor
  named : a.publication.descriptor.cursor = a.cursor
  offset : a.publication.descriptor.payloadOffset =
    (sh.maps a.mapping.generation).layout.payloadOffset a.publication.index
  len : a.publication.descriptor.payloadLen ≤
    (sh.maps a.mapping.generation).layout.payloadCapacity
  accepts : sh.native = true → (pool a.mapping.generation).validateDescriptor
    (sh.maps a.mapping.generation).layout.resources a.publication.descriptor = true

/-- The next stage is one of the call's, and is nearer to its end. -/
lemma passes_next (h : a.Passes sh st) (hne : st ≠ .done) :
    a.Passes sh (a.next sh st) ∧ a.rank (a.next sh st) < a.rank st := by
  cases st with
  | calling pc =>
      cases pc with
      | latest | active | terminal | configuration =>
          refine ⟨?_, ?_⟩
          · first | exact rfl | exact h
          · simp only [next, rank]
            omega
      | first => exact ⟨rfl, by simp only [next, rank]; omega⟩
      | ring => exact ⟨⟨rfl, rfl, by omega⟩, by simp only [next, rank]; omega⟩
      | claim c index k =>
          obtain ⟨-, -, hk⟩ := h
          by_cases heq : k = a.slot
          · rw [next, if_pos heq]
            refine ⟨Or.inl rfl, ?_⟩
            simp only [rank]
            omega
          · rw [next, if_neg heq]
            refine ⟨⟨rfl, rfl, by omega⟩, ?_⟩
            simp only [rank]
            omega
  | claimed pc =>
      rcases h with rfl | rfl | rfl | rfl | rfl
      · exact ⟨Or.inr (Or.inl rfl), by simp [next, rank]⟩
      · exact ⟨Or.inr (Or.inr (Or.inl rfl)), by simp [next, rank]⟩
      · exact ⟨Or.inr (Or.inr (Or.inr (Or.inl rfl))), by simp [next, rank]⟩
      · exact ⟨Or.inr (Or.inr (Or.inr (Or.inr rfl))), by simp [next, rank]⟩
      · exact ⟨trivial, by simp [next, rank]⟩
  | done => exact absurd rfl hne

/-- What the call does next before it has a claim. -/
lemma next_calling (h : a.Finds pool sh) {pc : CallPc} (hpass : a.Passes sh (.calling pc)) :
    (a.atStage (.calling pc)).callStep sh a.inc.calls.length =
      some (a.atStage (a.next sh (.calling pc))) := by
  have hget : (a.atStage (.calling pc)).calls[a.inc.calls.length]? =
      some ⟨a.client, .exact a.cursor, pc⟩ := by
    show (a.inc.calls ++ [_])[a.inc.calls.length]? = _
    rw [List.getElem?_append_right le_rfl, Nat.sub_self]
    rfl
  have goto : ∀ pc', (⟨a.client, .exact a.cursor, pc⟩ : AcquireCall).next sh
      (a.atStage (.calling pc)) = some (.goto pc') →
      (a.atStage (.calling pc)).callStep sh a.inc.calls.length =
        some (a.atStage (.calling pc')) := by
    intro pc' hnext
    simp only [Incarnation.callStep, hget, hnext]
    simp only [atStage, List.set_append_right _ _ le_rfl, Nat.sub_self, List.set_cons_zero]
  have htry : ∀ k, k ≤ a.slot → AcquireCall.tryClaim a.inc.frames a.cursor
      a.publication.index k = .goto (.claim a.cursor a.publication.index k) := by
    intro k hk
    have hlt := h.slot_lt
    rw [AcquireCall.tryClaim, if_pos (by omega)]
  cases pc with
  | latest =>
      refine goto _ ?_
      have hne : (Request.exact a.cursor) ≠ .exact 0 := by
        have hpos := h.pos
        simp only [ne_eq, Request.exact.injEq]
        omega
      simp only [AcquireCall.next, if_neg hne]
  | active l =>
      refine goto _ ?_
      have hact : (a.atStage (.calling (.active l))).page.active ≠ 0 := h.active
      simp only [AcquireCall.next, if_neg hact]
  | terminal l =>
      refine goto _ ?_
      simp only [AcquireCall.next, h.running, ne_eq, not_true_eq_false, if_false]
  | configuration l =>
      refine goto _ ?_
      obtain rfl : l = sh.control.latest := hpass
      have hgen : (((a.atStage (.calling (.configuration sh.control.latest))).consumer.bind
          Consumer.resources).bind (a.atStage (.calling (.configuration
            sh.control.latest))).mappings).map Mapping.generation =
          some sh.control.configuration := by
        show ((a.inc.consumer.bind Consumer.resources).bind a.inc.mappings).map _ = _
        rw [h.resources, Option.bind_some, h.mapped, Option.map_some, h.configured]
      have hle : ¬ sh.control.latest < a.cursor := by
        have hle := h.le
        omega
      simp only [AcquireCall.next, if_pos hgen, AcquireCall.checkLatest, if_neg hle]
  | first l =>
      refine goto _ ?_
      obtain rfl : l = sh.control.latest := hpass
      have hold : ¬ a.cursor < oldestRetained sh.history sh.control.latest
          sh.control.firstCursor := by
        have hfirst := h.first
        have hretained := h.retained
        rw [oldestRetained]
        omega
      simp only [AcquireCall.next, AcquireCall.checkFirst, if_neg hold]
  | ring c =>
      refine goto _ ?_
      obtain rfl : c = a.cursor := hpass
      have hmap : ((a.atStage (.calling (.ring a.cursor))).consumer.bind
          Consumer.resources).bind (a.atStage (.calling (.ring a.cursor))).mappings =
          some a.mapping := by
        show (a.inc.consumer.bind Consumer.resources).bind a.inc.mappings = _
        rw [h.resources, Option.bind_some, h.mapped]
      have hpos : ¬ a.cursor = 0 := by
        have hpos := h.pos
        omega
      have hvalid : ¬ (a.publication.index + 1 = 0 ∨
          (sh.maps a.mapping.generation).layout.resources < a.publication.index + 1) := by
        have hindex := h.index
        omega
      simp only [AcquireCall.next, hmap, h.ring, if_neg hpos, if_neg hvalid,
        Nat.add_sub_cancel]
      exact congrArg some (htry 0 (by omega))
  | claim c index k =>
      obtain ⟨rfl, rfl, hk⟩ := hpass
      by_cases heq : k = a.slot
      · subst heq
        have hfree : ((a.atStage (.calling (.claim a.cursor a.publication.index
            a.slot))).page.slot a.slot).claim = 0 := h.free
        have hcons : (a.atStage (.calling (.claim a.cursor a.publication.index
            a.slot))).consumer.bind Consumer.resources = some a.owner := h.resources
        have hmap : (a.atStage (.calling (.claim a.cursor a.publication.index
            a.slot))).mappings a.owner = some a.mapping := h.mapped
        simp only [Incarnation.callStep, hget, AcquireCall.next, if_pos hfree, hcons, hmap]
        simp only [atStage, next, if_true, List.eraseIdx_append_of_length_le le_rfl,
          Nat.sub_self, List.eraseIdx_cons_zero, List.append_nil]
        rfl
      · have htaken : ((a.atStage (.calling (.claim a.cursor a.publication.index
            k))).page.slot k).claim ≠ 0 := h.taken k (by omega)
        rw [next, if_neg heq]
        refine goto _ ?_
        simp only [AcquireCall.next, if_neg htaken]
        exact congrArg some (htry (k + 1) (by omega))

/-- What the call does next once it has a claim. The attachment rejects a descriptor for a
reason only. -/
lemma next_claimed (h : a.Finds pool sh) {pc : UsePc} (hpass : a.Passes sh (.claimed pc)) {e : Env}
    (hfail : sh.native = true → e.fail = true → pc = .describe →
      (pool a.mapping.generation).validateDescriptor
        (sh.maps a.mapping.generation).layout.resources
        ((sh.maps a.mapping.generation).records a.publication.index).descriptor = false) :
    (a.atStage (.claimed pc)).useStep sh e a.slot (a.use pc) =
      some (a.atStage (a.next sh (.claimed pc))) := by
  have set : ∀ pc' : UsePc, (a.atStage (.claimed pc)).setUse a.slot (a.use pc') =
      a.atStage (.claimed pc') := by
    intro pc'
    simp only [Incarnation.setUse, atStage, Function.update_idem]
  rcases hpass with rfl | rfl | rfl | rfl | rfl
  · have hstate : ¬ ((sh.maps (a.use .validate).generation).records
        (a.use .validate).index).state ≠ 2 * (a.use .validate).cursor + 1 := not_not.mpr h.state
    simp only [Incarnation.useStep, if_neg hstate]
    exact congrArg some (set .active)
  · have hactive : (a.atStage (.claimed .active)).page.active ≠ 0 := h.active
    simp only [Incarnation.useStep, if_neg hactive]
    exact congrArg some (set .terminal)
  · simp only [Incarnation.useStep, h.running, ne_eq, not_true_eq_false, if_false]
    exact congrArg some (set .configuration)
  · have hconf : ¬ (a.use .configuration).generation ≠ sh.control.configuration :=
      not_not.mpr h.configured
    simp only [Incarnation.useStep, if_neg hconf]
    exact congrArg some (set .describe)
  · have hdesc : ((sh.maps (a.use .describe).generation).records (a.use .describe).index).descriptor =
        a.publication.descriptor := h.descriptor
    have hgood : ¬ (a.publication.descriptor.cursor ≠ (a.use .describe).cursor ∨
        a.publication.descriptor.payloadOffset ≠
          (sh.maps (a.use .describe).generation).layout.payloadOffset (a.use .describe).index ∨
        (sh.maps (a.use .describe).generation).layout.payloadCapacity <
          a.publication.descriptor.payloadLen) := by
      rintro (hbad | hbad | hbad)
      · exact hbad h.named
      · exact hbad h.offset
      · exact absurd h.len (Nat.not_le_of_lt hbad)
    have hok : ¬ (sh.native = true ∧ e.fail = true) := by
      rintro ⟨hnative, he⟩
      have hrejects := hfail hnative he rfl
      rw [h.descriptor, h.accepts hnative] at hrejects
      cases hrejects
    simp only [Incarnation.useStep, hdesc, if_neg hgood, if_neg hok, Incarnation.setUse, atStage,
      Function.update_idem, next]
    rfl

/-- **One step of the call**, from any of its stages. -/
lemma step_atStage (h : a.Finds pool sh) (hpass : a.Passes sh st) {l : IncLabel} {inc' : Incarnation}
    (hown : l = .call a.inc.calls.length ∨ ∃ k e, a.inc.uses k = none ∧ l = .use k e)
    (hfail : ∀ e, l = .use a.slot e → st = .claimed .describe → sh.native = true →
      e.fail = true → (pool a.mapping.generation).validateDescriptor
        (sh.maps a.mapping.generation).layout.resources
        ((sh.maps a.mapping.generation).records a.publication.index).descriptor = false)
    (hs : (a.atStage st).step sh l = some inc') :
    st ≠ .done ∧ inc' = a.atStage (a.next sh st) := by
  have hexited : (a.atStage st).exited = false := by
    cases st <;> exact h.alive
  have hcalls : ∀ {st : CallStage}, (∀ pc, st ≠ .calling pc) →
      (a.atStage st).callStep sh a.inc.calls.length = none := by
    intro st hst
    have hnone : (a.atStage st).calls[a.inc.calls.length]? = none := by
      have hsame : (a.atStage st).calls = a.inc.calls := by
        cases st with
        | calling pc => exact absurd rfl (hst pc)
        | claimed pc => rfl
        | done => rfl
      rw [hsame, List.getElem?_eq_none le_rfl]
    simp only [Incarnation.callStep, hnone]
  rcases hown with rfl | ⟨k, e, hk, rfl⟩
  · rw [Incarnation.step, hexited] at hs
    simp only [Bool.false_eq_true, if_false] at hs
    cases st with
    | calling pc =>
        rw [next_calling h hpass, Option.some.injEq] at hs
        exact ⟨by rintro ⟨⟩, hs.symm⟩
    | claimed pc =>
        rw [hcalls (by rintro _ ⟨⟩)] at hs
        cases hs
    | done =>
        rw [hcalls (by rintro _ ⟨⟩)] at hs
        cases hs
  · have other : ∀ {x : Use}, (∀ pc, st ≠ .calling pc) →
        (a.atStage st).uses = Function.update a.inc.uses a.slot (some x) → k = a.slot := by
      intro x hst huses
      by_contra hne
      rw [Incarnation.step, huses, Function.update_of_ne hne, hk] at hs
      cases hs
    cases st with
    | calling pc =>
        have hnone : (a.atStage (.calling pc)).uses k = none := hk
        rw [Incarnation.step, hnone] at hs
        cases hs
    | claimed pc =>
        obtain rfl := other (by rintro _ ⟨⟩) rfl
        have hself : (a.atStage (.claimed pc)).uses a.slot = some (a.use pc) :=
          Function.update_self _ _ _
        rw [Incarnation.step, hself] at hs
        simp only [hexited, Bool.false_eq_true, if_false] at hs
        rw [next_claimed h hpass (fun hn he hpc => hfail e rfl (by rw [hpc]) hn he),
          Option.some.injEq] at hs
        exact ⟨by rintro ⟨⟩, hs.symm⟩
    | done =>
        obtain rfl := other (by rintro _ ⟨⟩) rfl
        have hself : (a.atStage .done).uses a.slot = some (a.use .leased) :=
          Function.update_self _ _ _
        rw [Incarnation.step, hself] at hs
        simp only [hexited, Bool.false_eq_true, if_false] at hs
        cases hs

/-- The call can always go on. -/
lemma exists_step (h : a.Finds pool sh) (hpass : a.Passes sh st) (hne : st ≠ .done) :
    ∃ l, (l = .call a.inc.calls.length ∨ l = .use a.slot {}) ∧
      (a.atStage st).step sh l = some (a.atStage (a.next sh st)) := by
  cases st with
  | calling pc =>
      have hexited : (a.atStage (.calling pc)).exited = false := h.alive
      refine ⟨_, Or.inl rfl, ?_⟩
      rw [Incarnation.step, hexited]
      exact next_calling h hpass
  | claimed pc =>
      have hexited : (a.atStage (.claimed pc)).exited = false := h.alive
      have hself : (a.atStage (.claimed pc)).uses a.slot = some (a.use pc) :=
        Function.update_self _ _ _
      refine ⟨_, Or.inr rfl, ?_⟩
      rw [Incarnation.step, hself]
      simp only [hexited, Bool.false_eq_true, if_false]
      exact next_claimed h hpass (by rintro _ ⟨⟩)
  | done => exact absurd rfl hne

end ExactCall

/-- **An active configured consumer with a free claim slot**, and without a call in progress
that needs it for itself. -/
structure Incarnation.Ready (sh : Shared) (inc : Incarnation) : Prop where
  alive : inc.exited = false
  idle : inc.busy = false
  active : inc.page.active ≠ 0
  running : sh.control.terminal = 0
  configured : ((inc.consumer.bind Consumer.resources).bind inc.mappings).map
    Mapping.generation = some sh.control.configuration
  free : ∃ k < inc.frames, (inc.page.slot k).claim = 0

namespace Arena

variable {s s' : Arena} {pool : ℕ → NativePool} {i : ℕ} {inc : Incarnation}

/-- The steps of the acquisition that begins on this incarnation: those of its call, and
those of a claim slot that was free. -/
def OwnStep (pool : ℕ → NativePool) (i : ℕ) (inc : Incarnation) (s : Arena) (l : Label) : Prop :=
  Conforms pool s l ∧ (l = .incarnation i (.call inc.calls.length) ∨
    ∃ k e, inc.uses k = none ∧ l = .incarnation i (.use k e))

/-- What the acquisitions of an incarnation have returned. -/
def returned (s : Arena) (i : ℕ) : Option (List Return) := (s.incarnations i).map Incarnation.returns

/-- **The window has what the call looks for.** -/
lemma exists_finds (h : ReachableIn (Conforms pool) s) (hidle : s.producer.pc = .idle)
    (hi : s.incarnations i = some inc) (hready : inc.Ready s.shared) (client : ℕ) {c : ℕ}
    (hfirst : s.shared.control.firstCursor ≤ c)
    (hretained : s.shared.control.latest < c + s.shared.history)
    (hle : c ≤ s.shared.control.latest) :
    ∃ a : ExactCall, a.inc = inc ∧ a.client = client ∧ a.cursor = c ∧
      s.log c = some a.publication ∧ a.Finds pool s.shared := by
  have hr : Reachable s := h.reachable
  have hpos : 1 ≤ c := hr.published.first_pos.trans hfirst
  have hcursor := hr.published.latest
  obtain ⟨p, hp⟩ := Option.ne_none_iff_exists'.mp
    (hr.published.logged c hpos (by rw [← hcursor]; exact hle))
  -- the window is in the installed allocation, which is the configured one
  have hgen : s.shared.control.configuration = p.generation :=
    hr.configured _ (hr.retention.installed c p hp hfirst) (by rw [hidle]; rfl)
      (by rw [hidle]; rintro _ ⟨⟩)
  obtain ⟨x, hx, hconf⟩ := Option.map_eq_some_iff.mp hready.configured
  obtain ⟨m, hm, hmap⟩ := Option.bind_eq_some_iff.mp hx
  have hxgen : x.generation = p.generation := hconf.trans hgen
  have hstate : (s.record p.generation p.index).state = 2 * c + 1 :=
    hr.retention.states c p hp hfirst (by rw [← hcursor]; exact hretained) (by rw [hidle]; rfl)
  have hring : s.shared.ring c = p.index + 1 :=
    hr.retention.rings c p hp (by rw [← hcursor]; exact hle) (by rw [← hcursor]; exact hretained)
      fun q after h0 => by rw [hidle] at h0; cases h0
  have hdesc : (s.record p.generation p.index).descriptor = p.descriptor := by
    obtain ⟨q, hq, -, -, hd, -⟩ := hr.exclusive.published p.generation p.index (by omega)
    have hhalf : (s.record p.generation p.index).state / 2 = c := by omega
    rw [hhalf, hp] at hq
    cases hq
    exact hd
  have hdescribed := hr.retention.described c p hp
  have hfree := hready.free
  obtain ⟨hlt, hclaim⟩ := Nat.find_spec hfree
  refine ⟨⟨inc, client, c, m, x, Nat.find hfree, p⟩, rfl, rfl, rfl, hp, ?_⟩
  constructor
  case alive => exact hready.alive
  case active => exact hready.active
  case running => exact hready.running
  case resources => exact hm
  case mapped => exact hmap
  case configured => exact hconf
  case pos => exact hpos
  case le => exact hle
  case retained => exact hretained
  case first => exact hfirst
  case slot_lt => exact hlt
  case free => exact hclaim
  case taken =>
      intro k hk h0
      exact Nat.find_min hfree hk ⟨hk.trans hlt, h0⟩
  case unused =>
      by_contra hne
      obtain ⟨u, hu⟩ := Option.ne_none_iff_exists'.mp hne
      obtain ⟨hword, hzero⟩ := (hr.handoffs hi).used _ u hu
      exact hzero (hword.symm.trans hclaim)
  case ring => exact hring
  case index => exact hr.index_lt hp x.generation
  case state =>
      show (s.record x.generation p.index).state = _
      rw [hxgen]
      exact hstate
  case descriptor =>
      show (s.record x.generation p.index).descriptor = _
      rw [hxgen]
      exact hdesc
  case named => exact (hr.published.logs c p hp).1
  case offset =>
      show p.descriptor.payloadOffset = (s.shared.maps x.generation).layout.payloadOffset p.index
      rw [hxgen]
      exact hdescribed.payloadOffset
  case len =>
      show p.descriptor.payloadLen ≤ (s.shared.maps x.generation).layout.payloadCapacity
      rw [hxgen]
      exact hdescribed.payloadLen
  case accepts =>
      intro hnative
      show (pool x.generation).validateDescriptor (s.shared.maps x.generation).layout.resources
        p.descriptor = true
      rw [hxgen]
      exact accepted_of_conforms h hnative hp

/-- The arena at a stage of the call. -/
def atStage (s : Arena) (i : ℕ) (a : ExactCall) (st : CallStage) : Arena :=
  { s with incarnations := Function.update s.incarnations i (some (a.atStage st)) }

lemma atStage_incarnations (s : Arena) (i : ℕ) (a : ExactCall) (st : CallStage) :
    (s.atStage i a st).incarnations i = some (a.atStage st) := Function.update_self _ _ _

/-- An own step of the call leads to its next stage. -/
lemma step_atStage {a : ExactCall} (h : a.Finds pool s.shared) {st : CallStage}
    (hpass : a.Passes s.shared st) {l : Label} (hown : OwnStep pool i a.inc (s.atStage i a st) l)
    (hs : (s.atStage i a st).step l = some s') :
    st ≠ .done ∧ s' = s.atStage i a (a.next s.shared st) := by
  have hinc := s.atStage_incarnations i a st
  obtain ⟨hC, hl⟩ := hown
  have hlabel : ∃ l', l = .incarnation i l' ∧ (l' = .call a.inc.calls.length ∨
      ∃ k e, a.inc.uses k = none ∧ l' = .use k e) := by
    rcases hl with rfl | ⟨k, e, hk, rfl⟩
    · exact ⟨_, rfl, Or.inl rfl⟩
    · exact ⟨_, rfl, Or.inr ⟨k, e, hk, rfl⟩⟩
  obtain ⟨l', rfl, hl'⟩ := hlabel
  simp only [Arena.step, Option.bind_eq_bind, hinc, Option.bind_some, Option.bind_eq_some_iff] at hs
  obtain ⟨inc', hstep, heq⟩ := hs
  cases heq
  have hnext := a.step_atStage h hpass hl' ?_ hstep
  · obtain ⟨hne, rfl⟩ := hnext
    refine ⟨hne, ?_⟩
    simp only [atStage, Function.update_idem]
  · intro e hle hst hnative hfail
    subst hle hst
    exact hC hnative hfail (a.atStage (.claimed .describe)) (a.use .describe) hinc
      (Function.update_self _ _ _) rfl

/-- From every stage the call reaches its end. -/
lemma reaches_done {a : ExactCall} (h : a.Finds pool s.shared) {st : CallStage}
    (hpass : a.Passes s.shared st) :
    Reaches step (OwnStep pool i a.inc) (s.atStage i a st) (s.atStage i a .done) := by
  induction hn : a.rank st using Nat.strong_induction_on generalizing st with
  | _ n ih =>
      by_cases hdone : st = .done
      · rw [hdone]
        exact .refl
      obtain ⟨l, hl, hstep⟩ := a.exists_step h hpass hdone
      obtain ⟨hpass', hrank⟩ := a.passes_next hpass hdone
      have harena : (s.atStage i a st).step (.incarnation i l) =
          some (s.atStage i a (a.next s.shared st)) := by
        have hshared : (a.atStage st).step (s.atStage i a st).shared l =
            some (a.atStage (a.next s.shared st)) := hstep
        simp only [Arena.step, Option.bind_eq_bind, s.atStage_incarnations i a st,
          Option.bind_some, hshared]
        simp only [atStage, Function.update_idem]
        rfl
      have hown : OwnStep pool i a.inc (s.atStage i a st) (.incarnation i l) := by
        rcases hl with rfl | rfl
        · exact ⟨trivial, Or.inl rfl⟩
        · exact ⟨by rintro _ ⟨⟩, Or.inr ⟨a.slot, {}, h.unused, rfl⟩⟩
      exact (Reaches.refl.tail hown harena).trans (ih _ (hn ▸ hrank) hpass' rfl)

/-- What has been returned at a stage. -/
lemma returned_atStage (s : Arena) (i : ℕ) (a : ExactCall) (st : CallStage) :
    (s.atStage i a st).returned i = some a.inc.returns ∨
      (s.atStage i a st).returned i = some (a.inc.returns ++ [a.frame]) := by
  rw [returned, s.atStage_incarnations]
  cases st with
  | calling pc => exact Or.inl rfl
  | claimed pc => exact Or.inl rfl
  | done => exact Or.inr rfl

/-- **The retained history is acquirable, and conforming metadata is never reported
corrupt.** In every arena that the steps of a conforming producer reach:

* while no step of the producer is in progress, `acquire_exact` of a cursor of the history
  window by an active configured consumer with a free claim slot returns the frame that is
  logged under the cursor: its own steps return nothing else, and from wherever they are
  they lead there;
* no acquisition has returned `Err(Mapping)`. -/
theorem retained_acquirable (h : ReachableIn (Conforms pool) s) :
    (s.producer.pc = .idle → ∀ i inc, s.incarnations i = some inc → inc.Ready s.shared →
      ∀ c, s.shared.control.firstCursor ≤ c → s.shared.control.latest < c + s.shared.history →
        c ≤ s.shared.control.latest → ∀ client, ∃ p s₁, s.log c = some p ∧
          s.step (.incarnation i (.begin client (.exact c))) = some s₁ ∧
          ∀ s₂, Reaches step (OwnStep pool i inc) s₁ s₂ →
            (s₂.returned i = some inc.returns ∨ s₂.returned i =
              some (inc.returns ++ [⟨client, .exact c, .frame p.descriptor⟩])) ∧
            ∃ s₃, Reaches step (OwnStep pool i inc) s₂ s₃ ∧ s₃.returned i =
              some (inc.returns ++ [⟨client, .exact c, .frame p.descriptor⟩])) ∧
    ∀ i inc, s.incarnations i = some inc → ∀ r ∈ inc.returns, r.outcome.corrupt = false := by
  refine ⟨fun hidle i inc hi hready c hfirst hretained hle client => ?_,
    fun i inc hi r hr => (faultless_of_conforms h hi).returns r hr⟩
  obtain ⟨a, rfl, rfl, rfl, hp, hfinds⟩ :=
    exists_finds h hidle hi hready client hfirst hretained hle
  have hconsumer : a.inc.consumer.isSome := by
    cases hc : a.inc.consumer with
    | none =>
        have hres := hfinds.resources
        rw [hc] at hres
        cases hres
    | some consumer => rfl
  have hbegin : s.step (.incarnation i (.begin a.client (.exact a.cursor))) =
      some (s.atStage i a (.calling .latest)) := by
    have hstep : a.inc.step s.shared (.begin a.client (.exact a.cursor)) =
        some (a.atStage (.calling .latest)) := if_pos ⟨hready.alive, hconsumer, hready.idle⟩
    simp only [Arena.step, Option.bind_eq_bind, hi, Option.bind_some, hstep]
    rfl
  refine ⟨a.publication, _, hp, hbegin, fun s₂ hrun => ?_⟩
  have hstage : ∃ st, a.Passes s.shared st ∧ s₂ = s.atStage i a st := by
    refine hrun.invariant (P := fun x => ∃ st, a.Passes s.shared st ∧ x = s.atStage i a st)
      ⟨.calling .latest, trivial, rfl⟩ ?_
    rintro x l y ⟨st, hpass, rfl⟩ hown hs
    obtain ⟨hne, rfl⟩ := step_atStage hfinds hpass hown hs
    exact ⟨_, (a.passes_next hpass hne).1, rfl⟩
  obtain ⟨st, hpass, rfl⟩ := hstage
  refine ⟨s.returned_atStage i a st, _, reaches_done hfinds hpass, ?_⟩
  rw [returned, s.atStage_incarnations]
  rfl

/-- Four slots, two of them history. -/
def windowConfig : ArenaConfig where
  resourceCapacity := 4
  retainedHistory := 2
  producerReserve := 1
  payloadCapacity := 4
  memoryBudget := 65536
  maxIncarnations := 1
  drainTimeout := 1

/-- A consumer of one frame attaches, and three frames are published. -/
def windowed : List Label :=
  [.call (.attach 1 false)] ++ pump 8 ++ [on (.fromGrant {}), on (.thread 0 {})] ++
  (List.replicate 3 ([.call (.publish (.cpu {} [7]))] ++ pump 30)).flatten

theorem retained_acquirable_window : ∃ s inc s₁ s₂ d,
    ReachableIn (Conforms fun _ => ⟨0, 0⟩) s ∧ s.incarnations 1 = some inc ∧ inc.returns = [] ∧
    s.shared.control.latest = 3 ∧ s.step (.incarnation 1 (.begin 0 (.exact 2))) = some s₁ ∧
    Reaches step (OwnStep (fun _ => ⟨0, 0⟩) 1 inc) s₁ s₂ ∧
    s₂.returned 1 = some [⟨0, .exact 2, .frame d⟩] := by
  have hrun : ((script 4096 windowConfig 0 false windowed).bind fun s =>
      (s.incarnations 1).map fun inc =>
        decide ((s.shared.native = false ∧ s.producer.pc = .idle ∧ inc.exited = false ∧
          inc.busy = false ∧ inc.page.active ≠ 0) ∧ s.shared.control.terminal = 0 ∧
          (((inc.consumer.bind Consumer.resources).bind inc.mappings).map
            Mapping.generation = some s.shared.control.configuration ∧
          inc.frames = 1 ∧ (inc.page.slot 0).claim = 0) ∧
          s.shared.control.firstCursor = 1 ∧ s.shared.history = 2 ∧
          s.shared.control.latest = 3 ∧ inc.returns = [])) = some true := by
    decide +kernel
  obtain ⟨s, hs, hrun⟩ := Option.bind_eq_some_iff.mp hrun
  obtain ⟨inc, hi, hrun⟩ := Option.map_eq_some_iff.mp hrun
  obtain ⟨⟨hcpu, hidle, halive, hbusy, hactive⟩, hrunning, ⟨hconf, hframes, hfree⟩, hfirst,
    hhist, hlatest, hempty⟩ := of_decide_eq_true hrun
  have hreach : ReachableIn (Conforms fun _ => ⟨0, 0⟩) s := (Reachable.of_script hs).conforms hcpu
  obtain ⟨p, s₁, -, hbegin, hall⟩ := (retained_acquirable hreach).1 hidle 1 inc hi
    ⟨halive, hbusy, hactive, hrunning, hconf, 0, by omega, hfree⟩ 2 (by omega) (by omega)
    (by omega) 0
  obtain ⟨-, s₃, hreaches, hret⟩ := hall s₁ .refl
  rw [hempty] at hret
  exact ⟨s, inc, s₁, s₃, p.descriptor, hreach, hi, hempty, hlatest, hbegin, hreaches, hret⟩

end Arena

end Jackstay.Acquisition
