import Jackstay.Acquisition.Arena.Moves

/-!
Claim slots and deferred releases: `retirement.rs` and `cleanup.rs`.

A claim slot has one use at a time, and two owners advance the words of a
deferred release under different mutexes. `Handoffs` says what each of them may
rely on.

* The claim word is the cursor of the slot's use, and zero without one; a nonzero
  pending word belongs to the use that was handed off, and the id and value words
  are then those of its handoff (`pending`).
* The section under the retirement mutex and the one under the observer mutex
  each carry the fact that their next step rests on (`SectionOp.Fact`,
  `ObserveOp.Fact`); what stands behind the next step rests on nothing.
* What the consumer's side still owes is stated until the exit is observed: its
  objects stay as the process left them, and then only the observer acts.

`Handoffs.move` is the step lemma; the cases follow the operations.
-/

namespace Jackstay.Acquisition

/-- The claim slot that a step under the retirement mutex is about. -/
def SectionOp.about : SectionOp → Option ℕ
  | .drop k _ => some k
  | .storeRetired k => some k
  | .storeId k _ _ => some k
  | .storeValue k _ => some k
  | .storePending k => some k
  | _ => none

/-- What the next step under the retirement mutex rests on. -/
def SectionOp.Fact (inc : Incarnation) : SectionOp → Prop
  | .drop k _ => (∃ u, inc.uses k = some u ∧ u.pc = .deferred) ∧
      inc.retirement.slots k = none ∧ (inc.page.slot k).releasePending = 1
  | .storeRetired k => (∃ u, inc.uses k = some u ∧ u.pc = .deferred) ∧
      inc.retirement.slots k = none ∧ (inc.page.slot k).releasePending = 1
  | .storeId k t v => ∃ u, inc.uses k = some u ∧ u.pc = .handing ∧ u.handoff = some (t, v)
  | .storeValue k v => ∃ u, inc.uses k = some u ∧ u.pc = .handing ∧
      u.handoff = some ((inc.page.slot k).releaseId, v)
  | .storePending k => ∃ u, inc.uses k = some u ∧ u.pc = .handing ∧
      u.handoff = some ((inc.page.slot k).releaseId, (inc.page.slot k).releaseValue)
  | _ => True

/-- No step about this claim slot is under way under the retirement mutex. -/
def Incarnation.sectionFree (inc : Incarnation) (k : ℕ) : Prop :=
  ∀ op ∈ inc.retirement.todo, op.about ≠ some k

/-- What the next step under the observer mutex rests on. -/
def ObserveOp.Fact (native : Bool) (inc : Incarnation) : ObserveOp → Prop
  | .zeroMapping _ => inc.observer.exitSeen = true
  | .exitClaim _ => inc.observer.exitSeen = true
  | .exitPending k => inc.observer.exitSeen = true ∧ (inc.page.slot k).claim ≠ 0
  | .exitRetire k => inc.observer.exitSeen = true ∧
      ((inc.page.slot k).releasePending = 1 ∨ (inc.page.slot k).releasePending = 2)
  | .loadId k => (inc.page.slot k).releasePending ≠ 0
  | .loadValue k t => (inc.page.slot k).releasePending ≠ 0 ∧ (inc.page.slot k).releaseId = t
  | .completed k t v => (inc.page.slot k).releasePending ≠ 0 ∧
      (inc.page.slot k).releaseId = t ∧ (inc.page.slot k).releaseValue = v
  | .recheck k t v => (inc.page.slot k).releasePending ≠ 0 ∧
      (inc.page.slot k).releaseId = t ∧ (inc.page.slot k).releaseValue = v ∧
      inc.observer.Reported t v
  | .creditPending k false => (inc.page.slot k).releasePending = 2 ∧
      inc.observer.Reported (inc.page.slot k).releaseId (inc.page.slot k).releaseValue
  | .creditClaim k false =>
      ∃ u t v, inc.uses k = some u ∧ u.pc = .deferred ∧ u.handoff = some (t, v) ∧
        inc.observer.Reported t v ∧ (inc.page.slot k).releasePending = 0 ∧
        (inc.observer.exitSeen = true ∨ inc.retirement.slots k = none ∧ inc.sectionFree k)
  | .creditPending k true => inc.observer.exitSeen = true ∧ (inc.page.slot k).claim ≠ 0 ∧
      (inc.page.slot k).releasePending = 0 ∧ native = false ∧ inc.observer.timelines = 0
  | .creditClaim k true => inc.observer.exitSeen = true ∧ (inc.page.slot k).claim ≠ 0 ∧
      (inc.page.slot k).releasePending = 0 ∧ native = false ∧ inc.observer.timelines = 0
  | _ => True

/-- What may stand behind the next step under the observer mutex. -/
def ObserveOp.Later (inc : Incarnation) : ObserveOp → Prop
  | .page _ => True
  | .deadline => True
  | .loadPending _ => True
  | .zeroMapping _ => inc.observer.exitSeen = true
  | .exitClaim _ => inc.observer.exitSeen = true
  | _ => False

/-- **The invariant of claim slots and deferred releases.** -/
structure Handoffs (native : Bool) (inc : Incarnation) : Prop where
  exited_of_seen : inc.observer.exitSeen = true → inc.exited = true
  range : ∀ k, inc.frames ≤ k → inc.uses k = none ∧ inc.retirement.slots k = none
  unused : ∀ k, inc.uses k = none →
    (inc.page.slot k).claim = 0 ∧ (inc.page.slot k).releasePending = 0
  used : ∀ k u, inc.uses k = some u → (inc.page.slot k).claim = u.cursor ∧ u.cursor ≠ 0
  handed : ∀ k u, inc.uses k = some u → u.pc = .handing ∨ u.pc = .deferred →
    u.owner = none ∧ ∃ t v, u.handoff = some (t, v)
  pending : ∀ k, (inc.page.slot k).releasePending ≠ 0 →
    ∃ u, inc.uses k = some u ∧ u.pc = .deferred ∧
      u.handoff = some ((inc.page.slot k).releaseId, (inc.page.slot k).releaseValue) ∧
      ((inc.page.slot k).releasePending = 1 ∨ (inc.page.slot k).releasePending = 2)
  slots : inc.observer.exitSeen = false → ∀ k p, inc.retirement.slots k = some p →
    ∃ u, inc.uses k = some u ∧ u.handoff = some (p.timeline + 1, p.value) ∧
      (u.pc = .handing ∨ u.pc = .deferred ∧ (inc.page.slot k).releasePending = 1)
  handing : inc.observer.exitSeen = false → ∀ k u, inc.uses k = some u → u.pc = .handing →
    ∃ op rest, inc.retirement.todo = op :: rest ∧ op.about = some k
  mutex : inc.observer.exitSeen = false → ∀ op rest, inc.retirement.todo = op :: rest →
    op.Fact inc ∧ ∀ x ∈ rest, x.about = none
  observer : ∀ op rest, inc.observer.todo = op :: rest →
    op.Fact native inc ∧ ∀ x ∈ rest, x.Later inc
  calls : ∀ c ∈ inc.calls, ∀ cursor index k, c.pc = .claim cursor index k →
    cursor ≠ 0 ∧ k < inc.frames
  rejected : retirementSlotInUse ∉ inc.rejected

namespace Handoffs

variable {native : Bool} {inc inc' : Incarnation}

/-- A step that is about no claim slot rests on nothing. -/
lemma sectionFact_of_about {op : SectionOp} (h : op.about = none) : op.Fact inc := by
  cases op <;> simp_all [SectionOp.about, SectionOp.Fact]

/-- The invariant reads these parts of an incarnation; the section under the
retirement mutex may go from one step about no claim slot to another. -/
lemma congr (h : Handoffs native inc) (hf : inc'.frames = inc.frames)
    (he : inc.exited = true → inc'.exited = true) (hu : inc'.uses = inc.uses)
    (hw : inc'.page.slot = inc.page.slot) (hs : inc'.retirement.slots = inc.retirement.slots)
    (ht : inc'.retirement.todo = inc.retirement.todo ∨
      (∀ x ∈ inc.retirement.todo, x.about = none) ∧ ∀ x ∈ inc'.retirement.todo, x.about = none)
    (hot : inc'.observer.todo = inc.observer.todo)
    (hoe : inc'.observer.exitSeen = inc.observer.exitSeen)
    (hon : inc'.observer.timelines = inc.observer.timelines)
    (hor : inc'.observer.reported = inc.observer.reported)
    (hc : ∀ c ∈ inc'.calls, ∀ cursor index k, c.pc = .claim cursor index k →
      cursor ≠ 0 ∧ k < inc.frames)
    (hr : retirementSlotInUse ∉ inc'.rejected) : Handoffs native inc' := by
  have hfact : ∀ op : SectionOp, op.Fact inc → op.Fact inc' := by
    intro op hop
    cases op <;> simp_all [SectionOp.Fact]
  have hrep : ∀ t v, inc.observer.Reported t v → inc'.observer.Reported t v := by
    simp [Observer.Reported, hor]
  have hofact : ∀ op : ObserveOp, op.Fact native inc → op.Fact native inc' := by
    intro op hop
    cases op with
    | creditPending k b => cases b <;> simp_all [ObserveOp.Fact]
    | creditClaim k b =>
        cases b with
        | false =>
            obtain ⟨u, t, v, h1, h2, h3, h4, h5, h6⟩ := hop
            refine ⟨u, t, v, hu ▸ h1, h2, h3, hrep t v h4, hw ▸ h5, ?_⟩
            rcases h6 with h6 | ⟨h6, h7⟩
            · exact Or.inl (hoe ▸ h6)
            · refine Or.inr ⟨hs ▸ h6, fun x hx => ?_⟩
              rcases ht with ht | ⟨-, ht⟩
              · exact h7 x (ht ▸ hx)
              · simp [ht x hx]
        | true => simp_all [ObserveOp.Fact]
    | _ => simp_all [ObserveOp.Fact]
  have hlater : ∀ op : ObserveOp, op.Later inc → op.Later inc' := by
    intro op hop
    cases op <;> simp_all [ObserveOp.Later]
  constructor
  case exited_of_seen => exact fun hx => he (h.exited_of_seen (hoe ▸ hx))
  case range => simpa only [hf, hu, hs] using h.range
  case unused => simpa only [hu, hw] using h.unused
  case used => simpa only [hu, hw] using h.used
  case handed => simpa only [hu] using h.handed
  case pending => simpa only [hu, hw] using h.pending
  case slots => simpa only [hu, hw, hs, hoe] using h.slots
  case handing =>
      intro hx k u huse hpc
      obtain ⟨op, rest, hcons, ha⟩ := h.handing (hoe ▸ hx) k u (hu ▸ huse) hpc
      rcases ht with ht | ⟨hold, -⟩
      · exact ⟨op, rest, ht ▸ hcons, ha⟩
      · rw [hold op (by rw [hcons]; exact List.mem_cons_self)] at ha
        cases ha
  case mutex =>
      intro hx op rest hop
      rcases ht with ht | ⟨-, hnew⟩
      · obtain ⟨hf, hrest⟩ := h.mutex (hoe ▸ hx) op rest (ht ▸ hop)
        exact ⟨hfact op hf, hrest⟩
      · rw [hop] at hnew
        exact ⟨sectionFact_of_about (hnew op List.mem_cons_self),
          fun x hx => hnew x (List.mem_cons_of_mem op hx)⟩
  case observer =>
      intro op rest hop
      obtain ⟨hf, hrest⟩ := h.observer op rest (hot ▸ hop)
      exact ⟨hofact op hf, fun x hx => hlater x (hrest x hx)⟩
  case calls => simpa only [hf] using hc
  case rejected => exact hr

/-- A fact about a claim slot is a fact about its use: it is being handed off, or
has been. -/
lemma use_of_sectionFact {op : SectionOp} {k : ℕ} (h : op.Fact inc) (ha : op.about = some k) :
    ∃ u, inc.uses k = some u ∧ (u.pc = .handing ∨ u.pc = .deferred) := by
  cases op <;> simp_all [SectionOp.about, SectionOp.Fact] <;> grind

/-- Without a nonzero pending word, and outside a handoff, nothing rests on a
claim slot. -/
lemma sectionFree_of_use (h : Handoffs native inc) (hx : inc.observer.exitSeen = false) {k : ℕ}
    (hu : ∀ u, inc.uses k = some u → u.pc ≠ .handing ∧ u.pc ≠ .deferred) :
    inc.retirement.slots k = none ∧ inc.sectionFree k := by
  constructor
  · by_contra hs
    obtain ⟨p, hp⟩ := Option.ne_none_iff_exists'.mp hs
    obtain ⟨u, huse, -, hpc⟩ := h.slots hx k p hp
    have := hu u huse
    rcases hpc with hpc | ⟨hpc, -⟩
    · exact this.1 hpc
    · exact this.2 hpc
  · intro op hop ha
    obtain ⟨x, rest, htodo⟩ := List.exists_cons_of_ne_nil (List.ne_nil_of_mem hop)
    obtain ⟨hfact, hrest⟩ := h.mutex hx x rest htodo
    rw [htodo, List.mem_cons] at hop
    rcases hop with rfl | hop
    · obtain ⟨u, huse, hpc⟩ := use_of_sectionFact hfact ha
      have := hu u huse
      rcases hpc with hpc | hpc
      · exact this.1 hpc
      · exact this.2 hpc
    · rw [hrest op hop] at ha
      cases ha

/-- The same for the observer, once the exit has not been observed. -/
lemma pending_of_use (h : Handoffs native inc) {k : ℕ}
    (hu : ∀ u, inc.uses k = some u → u.pc ≠ .deferred) :
    (inc.page.slot k).releasePending = 0 := by
  by_contra hp
  obtain ⟨u, huse, hpc, -⟩ := h.pending k hp
  exact hu u huse hpc

/-- What the observer's next step rests on is unaffected by a claim slot that is
not part of a handoff. -/
lemma observerFact_quiet (h : Handoffs native inc) (hx : inc.observer.exitSeen = false) {k : ℕ}
    (hold : ∀ u, inc.uses k = some u → u.pc ≠ .handing ∧ u.pc ≠ .deferred)
    (new : Option Use) (w : ClaimSlot) {op : ObserveOp} (hf : op.Fact native inc) :
    op.Fact native { inc with
      uses := Function.update inc.uses k new
      page := { inc.page with slot := Function.update inc.page.slot k w } } := by
  have hp : (inc.page.slot k).releasePending = 0 :=
    h.pending_of_use fun u hu => (hold u hu).2
  cases op with
  | creditPending j b =>
      cases b with
      | false =>
          have hj : j ≠ k := by rintro rfl; simp [ObserveOp.Fact, hp] at hf
          simpa [ObserveOp.Fact, hj] using hf
      | true => simp [ObserveOp.Fact, hx] at hf
  | creditClaim j b =>
      cases b with
      | false =>
          have hj : j ≠ k := by
            rintro rfl
            obtain ⟨u, t, v, hu, hpc, -⟩ := hf
            exact (hold u hu).2 hpc
          simpa [ObserveOp.Fact, Incarnation.sectionFree, hj] using hf
      | true => simp [ObserveOp.Fact, hx] at hf
  | loadId j =>
      have hj : j ≠ k := by rintro rfl; exact hf hp
      simpa [ObserveOp.Fact, hj] using hf
  | loadValue j t =>
      have hj : j ≠ k := by rintro rfl; exact hf.1 hp
      simpa [ObserveOp.Fact, hj] using hf
  | completed j t v =>
      have hj : j ≠ k := by rintro rfl; exact hf.1 hp
      simpa [ObserveOp.Fact, hj] using hf
  | recheck j t v =>
      have hj : j ≠ k := by rintro rfl; exact hf.1 hp
      simpa [ObserveOp.Fact, hj] using hf
  | zeroMapping m => simp [ObserveOp.Fact, hx] at hf
  | exitClaim j => simp [ObserveOp.Fact, hx] at hf
  | exitPending j => simp [ObserveOp.Fact, hx] at hf
  | exitRetire j => simp [ObserveOp.Fact, hx] at hf
  | page op => trivial
  | process => trivial
  | deadline => trivial
  | loadPending j => trivial
  | register => trivial
  | registerStore t => trivial

/-- **A claim slot outside a handoff** may get a new use, change its use or lose
it, as long as its pending word is zero. -/
lemma quiet (h : Handoffs native inc) (hx : inc.observer.exitSeen = false) {k : ℕ}
    (hk : k < inc.frames)
    (hold : ∀ u, inc.uses k = some u → u.pc ≠ .handing ∧ u.pc ≠ .deferred)
    (new : Option Use) (w : ClaimSlot) (hp : w.releasePending = 0)
    (hnone : new = none → w.claim = 0)
    (hsome : ∀ u, new = some u →
      w.claim = u.cursor ∧ u.cursor ≠ 0 ∧ u.pc ≠ .handing ∧ u.pc ≠ .deferred) :
    Handoffs native { inc with
      uses := Function.update inc.uses k new
      page := { inc.page with slot := Function.update inc.page.slot k w } } := by
  obtain ⟨hslot, hfree⟩ := h.sectionFree_of_use hx hold
  have hfact : ∀ op : SectionOp, op ∈ inc.retirement.todo → op.Fact inc → op.Fact { inc with
      uses := Function.update inc.uses k new
      page := { inc.page with slot := Function.update inc.page.slot k w } } := by
    intro op hop hf
    have ha := hfree op hop
    cases op with
    | drop j o =>
        have hj : j ≠ k := by rintro rfl; exact ha rfl
        simpa [SectionOp.Fact, hj] using hf
    | storeRetired j =>
        have hj : j ≠ k := by rintro rfl; exact ha rfl
        simpa [SectionOp.Fact, hj] using hf
    | storeId j t v =>
        have hj : j ≠ k := by rintro rfl; exact ha rfl
        simpa [SectionOp.Fact, hj] using hf
    | storeValue j v =>
        have hj : j ≠ k := by rintro rfl; exact ha rfl
        simpa [SectionOp.Fact, hj] using hf
    | storePending j =>
        have hj : j ≠ k := by rintro rfl; exact ha rfl
        simpa [SectionOp.Fact, hj] using hf
    | page o => trivial
    | drain => trivial
    | setClosed => trivial
    | poll => trivial
    | retire j => trivial
    | workerCheck => trivial
  constructor
  case exited_of_seen => exact h.exited_of_seen
  case range =>
      intro j hj
      have hjk : j ≠ k := by rintro rfl; exact absurd hj (by simpa using hk)
      simpa [hjk] using h.range j hj
  case unused =>
      intro j hj
      by_cases hjk : j = k
      · subst hjk
        simp only [Function.update_self] at hj ⊢
        exact ⟨hnone hj, hp⟩
      · simp only [ne_eq, hjk, not_false_eq_true, Function.update_of_ne] at hj ⊢
        exact h.unused j hj
  case used =>
      intro j u hj
      by_cases hjk : j = k
      · subst hjk
        simp only [Function.update_self] at hj ⊢
        exact ⟨(hsome u hj).1, (hsome u hj).2.1⟩
      · simp only [ne_eq, hjk, not_false_eq_true, Function.update_of_ne] at hj ⊢
        exact h.used j u hj
  case handed =>
      intro j u hj hpc
      by_cases hjk : j = k
      · subst hjk
        simp only [Function.update_self] at hj
        have := hsome u hj
        rcases hpc with hpc | hpc
        · exact absurd hpc this.2.2.1
        · exact absurd hpc this.2.2.2
      · simp only [ne_eq, hjk, not_false_eq_true, Function.update_of_ne] at hj
        exact h.handed j u hj hpc
  case pending =>
      intro j hj
      by_cases hjk : j = k
      · subst hjk
        simp only [Function.update_self] at hj
        exact absurd hp hj
      · simp only [ne_eq, hjk, not_false_eq_true, Function.update_of_ne] at hj ⊢
        exact h.pending j hj
  case slots =>
      intro _ j p hj
      have hjk : j ≠ k := by
        rintro rfl
        have hj' : inc.retirement.slots j = some p := hj
        rw [hslot] at hj'
        cases hj'
      simpa [hjk] using h.slots hx j p hj
  case handing =>
      intro _ j u hj hpc
      by_cases hjk : j = k
      · subst hjk
        simp only [Function.update_self] at hj
        exact absurd hpc (hsome u hj).2.2.1
      · simp only [ne_eq, hjk, not_false_eq_true, Function.update_of_ne] at hj
        exact h.handing hx j u hj hpc
  case mutex =>
      intro _ op rest hop
      obtain ⟨hf, hrest⟩ := h.mutex hx op rest hop
      have hmem : op ∈ inc.retirement.todo := by
        have hop' : inc.retirement.todo = op :: rest := hop
        rw [hop']
        exact List.mem_cons_self
      exact ⟨hfact op hmem hf, hrest⟩
  case observer =>
      intro op rest hop
      obtain ⟨hf, hrest⟩ := h.observer op rest hop
      refine ⟨h.observerFact_quiet hx hold new w hf, fun x hx' => ?_⟩
      have := hrest x hx'
      cases x <;> simp_all [ObserveOp.Later]
  case calls => exact h.calls
  case rejected => exact h.rejected

/-! ### The steps -/

/-- The calls of a state with one call moved on. -/
lemma calls_set (h : Handoffs native inc) {t : ℕ} {call : AcquireCall}
    (hcall : ∀ cursor index k, call.pc = .claim cursor index k → cursor ≠ 0 ∧ k < inc.frames) :
    ∀ c ∈ inc.calls.set t call, ∀ cursor index k, c.pc = .claim cursor index k →
      cursor ≠ 0 ∧ k < inc.frames := by
  intro c hc
  rcases List.mem_or_eq_of_mem_set hc with hc | rfl
  · exact h.calls c hc
  · exact hcall

/-- A call tries its first claim slot after the ring, then one slot after the
other; before that it publishes nothing. -/
lemma next_cases {sh : Shared} {call : AcquireCall} {n : CallNext}
    (hnext : call.next sh inc = some n) :
    (∃ cursor index k, call.pc = .claim cursor index k ∧
      ((inc.page.slot k).claim = 0 ∧ n = .claimed cursor index k ∨
        n = AcquireCall.tryClaim inc.frames cursor index (k + 1))) ∨
    (∃ cursor index, cursor ≠ 0 ∧ n = AcquireCall.tryClaim inc.frames cursor index 0) ∨
    ∀ cursor index k, n ≠ .goto (.claim cursor index k) ∧ n ≠ .claimed cursor index k := by
  obtain ⟨client, request, pc⟩ := call
  cases pc with
  | latest =>
      simp only [AcquireCall.next, Option.some.injEq] at hnext
      exact Or.inr (Or.inr fun _ _ _ => by subst hnext; split_ifs <;> simp)
  | active l =>
      simp only [AcquireCall.next, Option.some.injEq] at hnext
      exact Or.inr (Or.inr fun _ _ _ => by subst hnext; split_ifs <;> simp)
  | terminal l =>
      simp only [AcquireCall.next, Option.some.injEq] at hnext
      exact Or.inr (Or.inr fun _ _ _ => by subst hnext; split_ifs <;> simp)
  | configuration l =>
      simp only [AcquireCall.next, Option.some.injEq] at hnext
      refine Or.inr (Or.inr fun _ _ _ => ?_)
      subst hnext
      cases request <;> simp only [AcquireCall.checkLatest] <;> split_ifs <;> simp
  | first l =>
      simp only [AcquireCall.next, Option.some.injEq] at hnext
      refine Or.inr (Or.inr fun _ _ _ => ?_)
      subst hnext
      cases request <;> simp only [AcquireCall.checkFirst] <;> split_ifs <;> simp
  | ring c =>
      simp only [AcquireCall.next] at hnext
      split at hnext
      · cases hnext
      split_ifs at hnext with h0 h1
      · exact Or.inr (Or.inr fun _ _ _ => by cases hnext; simp)
      · simp only [Option.some.injEq] at hnext
        exact Or.inr (Or.inl ⟨c, _, h0, hnext.symm⟩)
  | claim c i j =>
      simp only [AcquireCall.next, Option.some.injEq] at hnext
      refine Or.inl ⟨c, i, j, rfl, ?_⟩
      split_ifs at hnext with h0
      · exact Or.inl ⟨h0, hnext.symm⟩
      · exact Or.inr hnext.symm

/-- A call reaches its next claim slot only within range and with a cursor. -/
lemma next_claim (h : Handoffs native inc) {sh : Shared} {call : AcquireCall} {pc : CallPc}
    (hmem : call ∈ inc.calls) (hnext : call.next sh inc = some (.goto pc)) :
    ∀ cursor index k, pc = .claim cursor index k → cursor ≠ 0 ∧ k < inc.frames := by
  rintro cursor index k rfl
  have tryClaim_goto : ∀ {c i j : ℕ},
      CallNext.goto (.claim cursor index k) = AcquireCall.tryClaim inc.frames c i j →
        cursor = c ∧ k < inc.frames := by
    intro c i j hc
    rw [AcquireCall.tryClaim] at hc
    split_ifs at hc with hj
    simp only [CallNext.goto.injEq, CallPc.claim.injEq] at hc
    obtain ⟨rfl, -, rfl⟩ := hc
    exact ⟨rfl, hj⟩
  rcases next_cases hnext with ⟨c, i, j, hpc, hn | hn⟩ | ⟨c, i, h0, hn⟩ | hn
  · cases hn.2
  · obtain ⟨rfl, hk⟩ := tryClaim_goto hn
    exact ⟨(h.calls call hmem _ _ _ hpc).1, hk⟩
  · obtain ⟨rfl, hk⟩ := tryClaim_goto hn
    exact ⟨h0, hk⟩
  · exact absurd rfl (hn cursor index k).1

/-- The exchange succeeds on an empty claim slot. -/
lemma next_claimed {sh : Shared} {call : AcquireCall} {cursor index k : ℕ}
    (hnext : call.next sh inc = some (.claimed cursor index k)) :
    call.pc = .claim cursor index k ∧ (inc.page.slot k).claim = 0 := by
  have tryClaim_claimed : ∀ {c i j : ℕ},
      CallNext.claimed cursor index k ≠ AcquireCall.tryClaim inc.frames c i j := by
    intro c i j hc
    rw [AcquireCall.tryClaim] at hc
    split_ifs at hc
  rcases next_cases hnext with ⟨c, i, j, hpc, ⟨h0, hn⟩ | hn⟩ | ⟨c, i, h0, hn⟩ | hn
  · simp only [CallNext.claimed.injEq] at hn
    obtain ⟨rfl, rfl, rfl⟩ := hn
    exact ⟨hpc, h0⟩
  · exact absurd hn tryClaim_claimed
  · exact absurd hn tryClaim_claimed
  · exact absurd rfl (hn cursor index k).2

lemma not_seen (h : Handoffs native inc) (hx : inc.exited = false) :
    inc.observer.exitSeen = false := by
  by_contra hne
  rw [h.exited_of_seen (by simpa using hne)] at hx
  cases hx

lemma lt_frames (h : Handoffs native inc) {k : ℕ} {u : Use} (hu : inc.uses k = some u) :
    k < inc.frames := by
  by_contra hk
  rw [(h.range k (by omega)).1] at hu
  cases hu

lemma callStep (h : Handoffs native inc) (hx : inc.exited = false) {sh : Shared} {t : ℕ}
    (hs : inc.callStep sh t = some inc') : Handoffs native inc' := by
  have hseen := h.not_seen hx
  rw [Incarnation.callStep] at hs
  split at hs
  · cases hs
  rename_i call hcall
  have hmem : call ∈ inc.calls := List.mem_of_getElem? hcall
  split at hs
  · cases hs
  · rename_i pc hnext
    simp only [Option.some.injEq] at hs
    subst hs
    exact h.congr rfl id rfl rfl rfl (Or.inl rfl) rfl rfl rfl rfl
      (h.calls_set (h.next_claim hmem hnext)) h.rejected
  · simp only [Option.some.injEq] at hs
    subst hs
    exact h.congr rfl id rfl rfl rfl (Or.inl rfl) rfl rfl rfl rfl
      (fun c hc => h.calls c (List.mem_of_mem_eraseIdx hc)) h.rejected
  · rename_i cursor index k hnext
    obtain ⟨hpc, hfree⟩ := next_claimed hnext
    obtain ⟨hcur, hk⟩ := h.calls call hmem cursor index k hpc
    have hnone : inc.uses k = none := by
      by_contra hne
      obtain ⟨u, hu⟩ := Option.ne_none_iff_exists'.mp hne
      obtain ⟨h1, h2⟩ := h.used k u hu
      exact h2 (h1 ▸ hfree)
    split at hs
    · cases hs
    split at hs
    · cases hs
    simp only [Option.some.injEq] at hs
    subst hs
    refine (h.quiet hseen hk (fun u hu => by rw [hnone] at hu; cases hu) (some _)
      { inc.page.slot k with claim := cursor } (h.unused k hnone).2
      (fun hn => by cases hn)
      (fun u hu => by cases hu; exact ⟨rfl, hcur, by simp, by simp⟩)).congr rfl id rfl rfl rfl
            (Or.inl rfl) rfl rfl rfl rfl
      (fun c hc => h.calls c (List.mem_of_mem_eraseIdx hc)) h.rejected

/-- A use outside a handoff moves on, with the same cursor. -/
lemma setUse (h : Handoffs native inc) (hx : inc.exited = false) {k : ℕ} {u u' : Use}
    (hu : inc.uses k = some u) (hpc : u.pc ≠ .handing ∧ u.pc ≠ .deferred)
    (hc : u'.cursor = u.cursor) (hpc' : u'.pc ≠ .handing ∧ u'.pc ≠ .deferred) :
    Handoffs native (inc.setUse k u') := by
  have hold : ∀ v, inc.uses k = some v → v.pc ≠ .handing ∧ v.pc ≠ .deferred := by
    intro v hv
    rw [hu] at hv
    cases hv
    exact hpc
  obtain ⟨hclaim, hcur⟩ := h.used k u hu
  have hq := h.quiet (h.not_seen hx) (h.lt_frames hu) hold (some u') (inc.page.slot k)
    (h.pending_of_use fun v hv => (hold v hv).2) (fun hn => by cases hn)
    (fun v hv => by cases hv; exact ⟨hclaim.trans hc.symm, hc ▸ hcur, hpc'.1, hpc'.2⟩)
  refine hq.congr rfl id rfl ?_ rfl (Or.inl rfl) rfl rfl rfl rfl h.calls h.rejected
  simp [Incarnation.setUse]

lemma useStep (h : Handoffs native inc) (hx : inc.exited = false) {sh : Shared} {e : Env} {k : ℕ}
    {u : Use} (hu : inc.uses k = some u) (hs : inc.useStep sh e k u = some inc') :
    Handoffs native inc' := by
  have hne : u.pc ≠ .handing ∧ u.pc ≠ .deferred := by
    constructor <;> intro hpc <;> simp [Incarnation.useStep, hpc] at hs
  have moved : ∀ u' : Use, u'.cursor = u.cursor → u'.pc ≠ .handing ∧ u'.pc ≠ .deferred →
      Handoffs native (inc.setUse k u') := fun u' hc hpc => h.setUse hx hu hne hc hpc
  have dropped : ∀ o, Handoffs native (inc.abandonUse k u o) := fun o =>
    moved _ rfl ⟨by simp, by simp⟩
  have hold : ∀ v, inc.uses k = some v → v.pc ≠ .handing ∧ v.pc ≠ .deferred := by
    intro v hv
    rw [hu] at hv
    cases hv
    exact hne
  cases hpc : u.pc with
  | validate =>
      simp only [Incarnation.useStep, hpc, Option.some.injEq] at hs
      subst hs
      split_ifs
      · exact dropped _
      · exact moved _ rfl ⟨by simp, by simp⟩
  | active =>
      simp only [Incarnation.useStep, hpc, Option.some.injEq] at hs
      subst hs
      split_ifs
      · exact dropped _
      · exact moved _ rfl ⟨by simp, by simp⟩
  | terminal =>
      simp only [Incarnation.useStep, hpc, Option.some.injEq] at hs
      subst hs
      split_ifs
      · exact dropped _
      · exact moved _ rfl ⟨by simp, by simp⟩
  | configuration =>
      simp only [Incarnation.useStep, hpc, Option.some.injEq] at hs
      subst hs
      split_ifs
      · exact dropped _
      · exact moved _ rfl ⟨by simp, by simp⟩
  | describe =>
      simp only [Incarnation.useStep, hpc, Option.some.injEq] at hs
      subst hs
      split_ifs
      · exact dropped _
      · exact dropped _
      · have hleased := moved { u with
            pc := .leased
            descriptor := ((sh.maps u.generation).records u.index).descriptor }
          rfl ⟨by simp, by simp⟩
        exact hleased.congr rfl id rfl rfl rfl (Or.inl rfl) rfl rfl rfl rfl h.calls h.rejected
  | returnPending =>
      simp only [Incarnation.useStep, hpc, Option.some.injEq] at hs
      subst hs
      obtain ⟨hclaim, hcur⟩ := h.used k u hu
      exact (h.quiet (h.not_seen hx) (h.lt_frames hu) hold (some { u with pc := .returnClaim })
        { inc.page.slot k with releasePending := 0 } rfl (fun hn => by cases hn)
        (fun v hv => by cases hv; exact ⟨hclaim, hcur, by simp, by simp⟩)).congr
          rfl id rfl rfl rfl (Or.inl rfl) rfl rfl rfl rfl h.calls h.rejected
  | returnClaim =>
      simp only [Incarnation.useStep, hpc, Option.some.injEq] at hs
      subst hs
      exact (h.quiet (h.not_seen hx) (h.lt_frames hu) hold none
        { inc.page.slot k with claim := 0 } (h.pending_of_use fun v hv => (hold v hv).2)
        (fun _ => rfl) (fun v hv => by cases hv)).congr
          rfl id rfl rfl rfl (Or.inl rfl) rfl rfl rfl rfl h.calls h.rejected
  | leased => simp [Incarnation.useStep, hpc] at hs
  | handing => exact absurd hpc hne.1
  | deferred => exact absurd hpc hne.2

/-- `handoff` takes the retirement mutex while nothing else holds it: the slot of a
leased claim is free there. -/
lemma handoff (h : Handoffs native inc) (hx : inc.exited = false) {e : Env} {k t v m : ℕ} {u : Use}
    (hu : inc.uses k = some u) (hpc : u.pc = .leased) (htodo : inc.retirement.todo = []) :
    Handoffs native (inc.handoff e k t v u m) := by
  have hseen := h.not_seen hx
  have hold : ∀ w, inc.uses k = some w → w.pc ≠ .handing ∧ w.pc ≠ .deferred := by
    intro w hw
    rw [hu] at hw
    cases hw
    simp [hpc]
  obtain ⟨hslot, -⟩ := h.sectionFree_of_use hseen hold
  have hp := h.pending_of_use fun w hw => (hold w hw).2
  obtain ⟨hclaim, hcur⟩ := h.used k u hu
  have hk := h.lt_frames hu
  rw [Incarnation.handoff]
  split_ifs with hfail hsome
  · refine h.congr rfl id rfl rfl rfl (Or.inl rfl) rfl rfl rfl rfl h.calls ?_
    simpa [retirementSlotInUse] using h.rejected
  · rw [hslot] at hsome
    cases hsome
  -- the slot, the use and the section change together; everything else is untouched
  have hoFact : ∀ op : ObserveOp, op.Fact native inc → op.Fact native { inc with
      uses := Function.update inc.uses k
        (some { u with owner := none, handoff := some (t + 1, v), pc := .handing })
      retirement := { inc.retirement with
        slots := Function.update inc.retirement.slots k (some ⟨m, t, v⟩)
        todo := [.storeId k (t + 1) v] } } := by
    intro op hf
    have hq := h.observerFact_quiet hseen hold
      (some { u with owner := none, handoff := some (t + 1, v), pc := .handing })
      (inc.page.slot k) hf
    simp only [Function.update_eq_self] at hq
    cases op with
    | creditClaim j b =>
        cases b with
        | false =>
            obtain ⟨w, t', v', hw, hwpc, hwh, hle, hp0, hfree⟩ := hf
            have hjk : j ≠ k := by
              rintro rfl
              exact (hold w hw).2 hwpc
            refine ⟨w, t', v', by simpa [hjk] using hw, hwpc, hwh, hle, hp0, ?_⟩
            rcases hfree with hfree | ⟨hs, -⟩
            · exact Or.inl hfree
            · refine Or.inr ⟨by simpa [hjk] using hs, ?_⟩
              intro op hop
              simp only [List.mem_singleton] at hop
              subst hop
              simpa [SectionOp.about] using Ne.symm hjk
        | true => exact hq
    | creditPending j b => cases b <;> exact hq
    | _ => exact hq
  constructor
  case exited_of_seen => exact h.exited_of_seen
  case range =>
      intro j hj
      have hjk : j ≠ k := by
        rintro rfl
        exact absurd hj (by simpa using hk)
      simpa [hjk] using h.range j hj
  case unused =>
      intro j hj
      by_cases hjk : j = k
      · subst hjk
        simp at hj
      · exact h.unused j (by simpa [hjk] using hj)
  case used =>
      intro j w hj
      by_cases hjk : j = k
      · subst hjk
        simp only [Function.update_self, Option.some.injEq] at hj
        subst hj
        exact ⟨hclaim, hcur⟩
      · exact h.used j w (by simpa [hjk] using hj)
  case handed =>
      intro j w hj hwpc
      by_cases hjk : j = k
      · subst hjk
        simp only [Function.update_self, Option.some.injEq] at hj
        subst hj
        exact ⟨rfl, _, _, rfl⟩
      · exact h.handed j w (by simpa [hjk] using hj) hwpc
  case pending =>
      intro j hj
      have hjk : j ≠ k := by
        rintro rfl
        exact hj hp
      simpa [hjk] using h.pending j hj
  case slots =>
      intro _ j p hj
      by_cases hjk : j = k
      · subst hjk
        simp only [Function.update_self, Option.some.injEq] at hj
        subst hj
        exact ⟨_, Function.update_self .., rfl, Or.inl rfl⟩
      · simpa [hjk] using h.slots hseen j p (by simpa [hjk] using hj)
  case handing =>
      intro _ j w hj hwpc
      by_cases hjk : j = k
      · subst hjk
        exact ⟨_, _, rfl, rfl⟩
      · obtain ⟨op, rest, hcons, -⟩ := h.handing hseen j w (by simpa [hjk] using hj) hwpc
        rw [htodo] at hcons
        cases hcons
  case mutex =>
      intro _ op rest hcons
      simp only [List.cons.injEq] at hcons
      obtain ⟨rfl, rfl⟩ := hcons
      exact ⟨⟨_, Function.update_self .., rfl, rfl⟩, by simp⟩
  case observer =>
      intro op rest hop
      obtain ⟨hf, hrest⟩ := h.observer op rest hop
      refine ⟨hoFact op hf, fun x hx' => ?_⟩
      have := hrest x hx'
      cases x <;> simp_all [ObserveOp.Later]
  case calls => exact h.calls
  case rejected => exact h.rejected

/-- **A step under the retirement mutex** on the claim slot it is about: the use, its
words, the retirement slot and the section change together. -/
lemma owned (h : Handoffs native inc) (hx : inc.observer.exitSeen = false) {k : ℕ} {u : Use}
    (hu : inc.uses k = some u) {op : SectionOp} {rest : List SectionOp}
    (htodo : inc.retirement.todo = op :: rest) (hop : op.about = some k ∨ op.about = none)
    (u' : Use) (w : ClaimSlot) (slot : Option Pending) (todo : List SectionOp)
    (hcur : u'.cursor = u.cursor) (hw : w.claim = (inc.page.slot k).claim)
    (hhand : u'.owner = none ∧ ∃ t v, u'.handoff = some (t, v))
    (hpend : w.releasePending ≠ 0 → u'.pc = .deferred ∧
      u'.handoff = some (w.releaseId, w.releaseValue) ∧
      (w.releasePending = 1 ∨ w.releasePending = 2))
    (hslot : ∀ p, slot = some p → u'.handoff = some (p.timeline + 1, p.value) ∧
      (u'.pc = .handing ∨ u'.pc = .deferred ∧ w.releasePending = 1))
    (habout : ∀ x ∈ todo, x.about = some k ∨ x.about = none)
    (hhanding : u'.pc = .handing → ∃ op rest, todo = op :: rest ∧ op.about = some k)
    (hobs : (inc.page.slot k).releasePending ≠ 0 → (inc.page.slot k).releasePending = 1 ∧
      w.releasePending ≠ 0 ∧ w.releaseId = (inc.page.slot k).releaseId ∧
      w.releaseValue = (inc.page.slot k).releaseValue)
    (hfree : (inc.page.slot k).releasePending = 0 → op.about = some k)
    (hfact : ∀ op rest, todo = op :: rest → (∀ x ∈ rest, x.about = none) ∧
      op.Fact { inc with
        uses := Function.update inc.uses k (some u')
        page := { inc.page with slot := Function.update inc.page.slot k w }
        retirement := { inc.retirement with
          slots := Function.update inc.retirement.slots k slot
          todo := todo } }) :
    Handoffs native { inc with
      uses := Function.update inc.uses k (some u')
      page := { inc.page with slot := Function.update inc.page.slot k w }
      retirement := { inc.retirement with
        slots := Function.update inc.retirement.slots k slot
        todo := todo } } := by
  have hk := h.lt_frames hu
  have hofact : ∀ o : ObserveOp, o.Fact native inc → o.Fact native { inc with
      uses := Function.update inc.uses k (some u')
      page := { inc.page with slot := Function.update inc.page.slot k w }
      retirement := { inc.retirement with
        slots := Function.update inc.retirement.slots k slot
        todo := todo } } := by
    intro o hf
    cases o with
    | creditPending j b =>
        cases b with
        | false =>
            have hjk : j ≠ k := by
              rintro rfl
              have h2 := hf.1
              have := hobs (by omega)
              omega
            simpa [ObserveOp.Fact, hjk] using hf
        | true => simp [ObserveOp.Fact, hx] at hf
    | creditClaim j b =>
        cases b with
        | false =>
            obtain ⟨v, t, n, h1, h2, h3, h4, h5, h6⟩ := hf
            have hjk : j ≠ k := by
              rintro rfl
              rcases h6 with h6 | ⟨-, h6⟩
              · rw [hx] at h6
                cases h6
              · exact h6 op (by rw [htodo]; exact List.mem_cons_self) (hfree h5)
            refine ⟨v, t, n, by simpa [hjk] using h1, h2, h3, h4, by simpa [hjk] using h5, ?_⟩
            rcases h6 with h6 | ⟨h6, -⟩
            · exact Or.inl h6
            · refine Or.inr ⟨by simpa [hjk] using h6, fun x hxt hxa => ?_⟩
              rcases habout x hxt with ha | ha
              · rw [ha, Option.some.injEq] at hxa
                exact hjk hxa.symm
              · rw [ha] at hxa
                cases hxa
        | true => simp [ObserveOp.Fact, hx] at hf
    | loadId j =>
        by_cases hjk : j = k
        · subst hjk
          have := hobs hf
          simpa [ObserveOp.Fact] using this.2.1
        · simpa [ObserveOp.Fact, hjk] using hf
    | loadValue j t =>
        by_cases hjk : j = k
        · subst hjk
          have := hobs hf.1
          simp only [ObserveOp.Fact, Function.update_self]
          exact ⟨this.2.1, this.2.2.1.trans hf.2⟩
        · simpa [ObserveOp.Fact, hjk] using hf
    | completed j t v =>
        by_cases hjk : j = k
        · subst hjk
          have := hobs hf.1
          simp only [ObserveOp.Fact, Function.update_self]
          exact ⟨this.2.1, this.2.2.1.trans hf.2.1, this.2.2.2.trans hf.2.2⟩
        · simpa [ObserveOp.Fact, hjk] using hf
    | recheck j t v =>
        by_cases hjk : j = k
        · subst hjk
          have := hobs hf.1
          simp only [ObserveOp.Fact, Function.update_self]
          exact ⟨this.2.1, this.2.2.1.trans hf.2.1, this.2.2.2.trans hf.2.2.1, hf.2.2.2⟩
        · simpa [ObserveOp.Fact, hjk] using hf
    | zeroMapping m => simp [ObserveOp.Fact, hx] at hf
    | exitClaim j => simp [ObserveOp.Fact, hx] at hf
    | exitPending j => simp [ObserveOp.Fact, hx] at hf
    | exitRetire j => simp [ObserveOp.Fact, hx] at hf
    | page o => trivial
    | process => trivial
    | deadline => trivial
    | loadPending j => trivial
    | register => trivial
    | registerStore t => trivial
  obtain ⟨hclaim, hcur₀⟩ := h.used k u hu
  constructor
  case exited_of_seen => exact h.exited_of_seen
  case range =>
      intro j hj
      have hjk : j ≠ k := by
        rintro rfl
        exact absurd hj (by simpa using hk)
      simpa [hjk] using h.range j hj
  case unused =>
      intro j hj
      have hjk : j ≠ k := by
        rintro rfl
        simp at hj
      simpa [hjk] using h.unused j (by simpa [hjk] using hj)
  case used =>
      intro j v hj
      by_cases hjk : j = k
      · subst hjk
        simp only [Function.update_self, Option.some.injEq] at hj ⊢
        subst hj
        exact ⟨hw.trans (hclaim.trans hcur.symm), hcur ▸ hcur₀⟩
      · simpa [hjk] using h.used j v (by simpa [hjk] using hj)
  case handed =>
      intro j v hj hpc
      by_cases hjk : j = k
      · subst hjk
        simp only [Function.update_self, Option.some.injEq] at hj
        subst hj
        exact hhand
      · exact h.handed j v (by simpa [hjk] using hj) hpc
  case pending =>
      intro j hj
      by_cases hjk : j = k
      · subst hjk
        simp only [Function.update_self] at hj ⊢
        exact ⟨u', rfl, hpend hj⟩
      · simp only [ne_eq, hjk, not_false_eq_true, Function.update_of_ne] at hj ⊢
        exact h.pending j hj
  case slots =>
      intro _ j p hj
      by_cases hjk : j = k
      · subst hjk
        simp only [Function.update_self] at hj ⊢
        exact ⟨u', rfl, hslot p hj⟩
      · simp only [ne_eq, hjk, not_false_eq_true, Function.update_of_ne] at hj ⊢
        exact h.slots hx j p hj
  case handing =>
      intro _ j v hj hpc
      by_cases hjk : j = k
      · subst hjk
        simp only [Function.update_self, Option.some.injEq] at hj
        subst hj
        exact hhanding hpc
      · obtain ⟨x, r, hcons, ha⟩ := h.handing hx j v (by simpa [hjk] using hj) hpc
        rw [htodo, List.cons.injEq] at hcons
        rcases hop with hop | hop
        · rw [← hcons.1, hop, Option.some.injEq] at ha
          exact absurd ha.symm hjk
        · rw [← hcons.1, hop] at ha
          cases ha
  case mutex =>
      intro _ x r hcons
      obtain ⟨h1, h2⟩ := hfact x r hcons
      exact ⟨h2, h1⟩
  case observer =>
      intro o r hcons
      obtain ⟨hf, hrest⟩ := h.observer o r hcons
      refine ⟨hofact o hf, fun x hx' => ?_⟩
      have := hrest x hx'
      cases x <;> simp_all [ObserveOp.Later]
  case calls => exact h.calls
  case rejected => exact h.rejected

lemma about_page (ops : List PageOp) : ∀ x ∈ ops.map SectionOp.page, x.about = none := by
  intro x hx
  obtain ⟨op, -, rfl⟩ := List.mem_map.mp hx
  rfl

/-- The section moves between steps that are about no claim slot. -/
lemma section_quiet (h : Handoffs native inc) (hx : inc.exited = false) {op : SectionOp}
    {rest next : List SectionOp} (htodo : inc.retirement.todo = op :: rest)
    (hop : op.about = none) (hnext : ∀ x ∈ next, x.about = none) {page : ClaimPage}
    {r : Retirement} {wakeBytes : ℕ} (hpage : page.slot = inc.page.slot)
    (hslots : r.slots = inc.retirement.slots) :
    Handoffs native { inc with page, wakeBytes, retirement := { r with todo := next ++ rest } } := by
  obtain ⟨-, hrest⟩ := h.mutex (h.not_seen hx) op rest htodo
  refine h.congr rfl id rfl hpage hslots (Or.inr ⟨?_, ?_⟩) rfl rfl rfl rfl h.calls h.rejected
  · intro x hx
    rw [htodo, List.mem_cons] at hx
    rcases hx with rfl | hx
    · exact hop
    · exact hrest x hx
  · intro x hx
    rcases List.mem_append.mp hx with hx | hx
    · exact hnext x hx
    · exact hrest x hx

/-- The slot of the section's claim keeps its use while the section works on it. -/
lemma section_owned (h : Handoffs native inc) (hx : inc.exited = false) {op : SectionOp}
    {rest : List SectionOp} (htodo : inc.retirement.todo = op :: rest) {k : ℕ}
    (hop : op.about = some k) {u : Use} (hu : inc.uses k = some u)
    (hpc : u.pc = .deferred) (hslot : inc.retirement.slots k = none)
    (hpend : (inc.page.slot k).releasePending = 1) (n : ℕ) (hn : n = 1 ∨ n = 2)
    (op' : SectionOp) (hop' : op'.about = some k ∧ n = 1 ∨ op'.about = none)
    (hsame : ∀ i : Incarnation, (∃ u, i.uses k = some u ∧ u.pc = .deferred) →
      i.retirement.slots k = none → (i.page.slot k).releasePending = 1 → op'.about = some k →
      op'.Fact i) :
    Handoffs native { inc with
      page := inc.page.modifySlot k fun w => { w with releasePending := n }
      retirement := { inc.retirement with todo := op' :: rest } } := by
  obtain ⟨-, hrest⟩ := h.mutex (h.not_seen hx) op rest htodo
  obtain ⟨v, hv, -, hhand, -⟩ := h.pending k (by omega)
  rw [hu, Option.some.injEq] at hv
  subst hv
  have hq := h.owned (h.not_seen hx) hu htodo (Or.inl hop) u
    { inc.page.slot k with releasePending := n } none (op' :: rest) rfl rfl
    (h.handed k u hu (Or.inr hpc)) (fun _ => ⟨hpc, hhand, hn⟩) (fun p hp => by cases hp)
    (fun x hx => by
      rcases List.mem_cons.mp hx with rfl | hx
      · exact hop'.imp And.left id
      · exact Or.inr (hrest x hx))
    (fun hh => by rw [hpc] at hh; cases hh)
    (fun _ => ⟨hpend, by simp only; omega, rfl, rfl⟩) (fun _ => hop)
    (fun x r hcons => by
      rw [List.cons.injEq] at hcons
      obtain ⟨rfl, rfl⟩ := hcons
      refine ⟨hrest, ?_⟩
      rcases hop' with ⟨ha, hn1⟩ | ha
      · exact hsame _ ⟨u, Function.update_self .., hpc⟩ (Function.update_self ..)
          (by simp [hn1]) ha
      · exact sectionFact_of_about ha)
  refine hq.congr rfl id ?_ rfl ?_ (Or.inl rfl) rfl rfl rfl rfl h.calls h.rejected
  · show inc.uses = Function.update inc.uses k (some u)
    rw [← hu, Function.update_eq_self]
  · show inc.retirement.slots = Function.update inc.retirement.slots k none
    rw [← hslot, Function.update_eq_self]

/-- The stores of a handoff: the use stays with the section until the pending word
is stored, and only then is the release published. -/
lemma section_handing (h : Handoffs native inc) (hx : inc.exited = false) {op : SectionOp}
    {rest : List SectionOp} (htodo : inc.retirement.todo = op :: rest) {k : ℕ}
    (hop : op.about = some k) {u : Use} (hu : inc.uses k = some u) (hpc : u.pc = .handing)
    (u' : Use) (w : ClaimSlot) (next : List SectionOp) (hcur : u'.cursor = u.cursor)
    (hhand : u'.handoff = u.handoff) (hw : w.claim = (inc.page.slot k).claim)
    (hcase : (u'.pc = .handing ∧ w.releasePending = (inc.page.slot k).releasePending ∧
        ∃ op', next = [op'] ∧ op'.about = some k ∧ op'.Fact { inc with
          uses := Function.update inc.uses k (some u')
          page := { inc.page with slot := Function.update inc.page.slot k w }
          retirement := { inc.retirement with todo := next ++ rest } }) ∨
      (u'.pc = .deferred ∧ next = [] ∧ w.releasePending = 1 ∧
        u.handoff = some (w.releaseId, w.releaseValue))) :
    u'.owner = none → Handoffs native { inc with
      uses := Function.update inc.uses k (some u')
      page := { inc.page with slot := Function.update inc.page.slot k w }
      retirement := { inc.retirement with todo := next ++ rest } } := by
  intro howner
  obtain ⟨-, hrest⟩ := h.mutex (h.not_seen hx) op rest htodo
  have hp : (inc.page.slot k).releasePending = 0 := h.pending_of_use fun v hv => by
    rw [hu, Option.some.injEq] at hv
    subst hv
    simp [hpc]
  have hq := h.owned (h.not_seen hx) hu htodo (Or.inl hop) u' w (inc.retirement.slots k)
    (next ++ rest) hcur hw ⟨howner, hhand ▸ (h.handed k u hu (Or.inl hpc)).2⟩
    (fun h0 => by
      rcases hcase with ⟨-, hpend, -⟩ | ⟨hpc', -, hpend, hwords⟩
      · omega
      · exact ⟨hpc', hhand.trans hwords, Or.inl hpend⟩)
    (fun p hpnd => by
      obtain ⟨v, hv, hvh, -⟩ := h.slots (h.not_seen hx) k p hpnd
      rw [hu, Option.some.injEq] at hv
      subst hv
      refine ⟨hhand.trans hvh, ?_⟩
      rcases hcase with ⟨hpc', -, -⟩ | ⟨hpc', -, hpend, -⟩
      · exact Or.inl hpc'
      · exact Or.inr ⟨hpc', hpend⟩)
    (fun x hxm => by
      rcases List.mem_append.mp hxm with hxm | hxm
      · rcases hcase with ⟨-, -, op', rfl, ha, -⟩ | ⟨-, rfl, -⟩
        · rw [List.mem_singleton.mp hxm]
          exact Or.inl ha
        · cases hxm
      · exact Or.inr (hrest x hxm))
    (fun hpc' => by
      rcases hcase with ⟨-, -, op', rfl, ha, -⟩ | ⟨hd, -⟩
      · exact ⟨op', rest, rfl, ha⟩
      · rw [hd] at hpc'
        cases hpc')
    (fun h0 => absurd hp h0) (fun _ => hop)
    (fun x r hcons => by
      rcases hcase with ⟨-, -, op', rfl, ha, hf⟩ | ⟨-, rfl, -⟩
      · simp only [List.cons_append, List.nil_append, List.cons.injEq] at hcons
        obtain ⟨rfl, rfl⟩ := hcons
        refine ⟨hrest, ?_⟩
        simpa only [Function.update_eq_self] using hf
      · rw [List.nil_append] at hcons
        rw [hcons] at hrest
        exact ⟨fun y hy => hrest y (List.mem_cons_of_mem x hy),
          sectionFact_of_about (hrest x List.mem_cons_self)⟩)
  simpa only [Function.update_eq_self] using hq

lemma retireStep (h : Handoffs native inc) {e : Env} (hs : inc.retireStep e = some inc') :
    Handoffs native inc' := by
  rw [Incarnation.retireStep] at hs
  split at hs
  case h_2 => cases hs
  rename_i op rest htodo
  split_ifs at hs with hx
  have hx : inc.exited = false := by simpa using hx
  simp only [Option.some.injEq] at hs
  subst hs
  have hseen := h.not_seen hx
  obtain ⟨hfact, hrest⟩ := h.mutex hseen op rest htodo
  cases op with
  | page op =>
      obtain ⟨a, q, c, w, hp⟩ := op.exec_shape e
        { inc with retirement := { inc.retirement with todo := rest } }
      simp only [SectionOp.exec, hp]
      exact h.section_quiet hx htodo rfl (about_page _) rfl rfl
  | drain => exact h.section_quiet hx htodo rfl (List.forall_mem_nil _) rfl rfl
  | setClosed => exact h.section_quiet hx htodo rfl (List.forall_mem_nil _) rfl rfl
  | poll =>
      simp only [SectionOp.exec]
      refine h.section_quiet hx htodo rfl ?_ rfl rfl
      split_ifs <;> simp [SectionOp.about]
  | workerCheck => exact h.section_quiet hx htodo rfl (List.forall_mem_nil _) rfl rfl
  | retire k =>
      have single : ∀ x : SectionOp, x.about = none → ∀ y ∈ [x], y.about = none := by
        intro x hx y hy
        rw [List.mem_singleton.mp hy, hx]
      simp only [SectionOp.exec]
      by_cases hk : inc.frames ≤ k
      · simp only [if_pos hk]
        refine h.section_quiet hx htodo rfl ?_ rfl rfl
        split_ifs <;> simp [SectionOp.about]
      simp only [if_neg hk]
      split
      · exact h.section_quiet hx htodo rfl (single _ rfl) rfl rfl
      · rename_i p hp
        have hp : inc.retirement.slots k = some p := hp
        split_ifs
        · exact h.section_quiet hx htodo rfl (single _ rfl) rfl rfl
        · -- the mutex is not in a handoff, so the pending release is published
          obtain ⟨u, hu, hhand, hpc⟩ := h.slots hseen k p hp
          have hpc : u.pc = .deferred ∧ (inc.page.slot k).releasePending = 1 := by
            rcases hpc with hpc | hpc
            · obtain ⟨op, r, hcons, ha⟩ := h.handing hseen k u hu hpc
              rw [htodo, List.cons.injEq] at hcons
              rw [← hcons.1] at ha
              cases ha
            · exact hpc
          obtain ⟨v, hv, -, hwords, -⟩ := h.pending k (by omega)
          rw [hu, Option.some.injEq] at hv
          subst hv
          refine (h.owned hseen hu htodo (Or.inr rfl) u (inc.page.slot k) none
            (.drop k (.drop p.owner (.retirement k)) :: rest) rfl rfl
            (h.handed k u hu (Or.inr hpc.1)) (fun _ => ⟨hpc.1, hwords, Or.inl hpc.2⟩)
            (fun q hq => by cases hq) ?_ (fun hh => by rw [hpc.1] at hh; cases hh)
            (fun h0 => ⟨hpc.2, h0, rfl, rfl⟩) (fun h0 => by omega) ?_).congr rfl id ?_ ?_ rfl
              (Or.inl rfl) rfl rfl rfl rfl h.calls h.rejected
          · intro x hx
            rcases List.mem_cons.mp hx with rfl | hx
            · exact Or.inl rfl
            · exact Or.inr (hrest x hx)
          · intro x r hcons
            rw [List.cons.injEq] at hcons
            obtain ⟨rfl, rfl⟩ := hcons
            refine ⟨hrest, ⟨u, Function.update_self .., hpc.1⟩, Function.update_self .., ?_⟩
            simp [hpc.2]
          · show inc.uses = Function.update inc.uses k (some u)
            rw [← hu, Function.update_eq_self]
          · show inc.page.slot = Function.update inc.page.slot k (inc.page.slot k)
            rw [Function.update_eq_self]
        · exact h.section_quiet hx htodo rfl (single _ rfl) rfl rfl
        · exact h.section_quiet hx htodo rfl (single _ rfl) rfl rfl
  | drop k op =>
      obtain ⟨⟨u, hu, hpc⟩, hslot, hpend⟩ := hfact
      obtain ⟨ms, m, g, hp⟩ := op.exec_shape
        { inc with retirement := { inc.retirement with todo := rest } }
      have hsame : (inc.page.modifySlot k fun w => { w with releasePending := 1 }).slot =
          inc.page.slot := by
        simp only [ClaimPage.modifySlot]
        rw [← hpend, Function.update_eq_self]
      have kept : ∀ op' : SectionOp, op' = .storeRetired k ∨ (∃ o, op' = .drop k o) →
          Handoffs native { inc with
            page := inc.page.modifySlot k fun w => { w with releasePending := 1 }
            retirement := { inc.retirement with todo := op' :: rest } } := by
        intro op' hop'
        refine h.section_owned hx htodo rfl hu hpc hslot hpend 1 (Or.inl rfl) op' ?_ ?_
        · rcases hop' with rfl | ⟨o, rfl⟩
          · exact Or.inl ⟨rfl, rfl⟩
          · exact Or.inl ⟨rfl, rfl⟩
        · intro i h1 h2 h3 _
          rcases hop' with rfl | ⟨o, rfl⟩
          · exact ⟨h1, h2, h3⟩
          · exact ⟨h1, h2, h3⟩
      simp only [SectionOp.exec]
      split
      · rename_i i o os heq
        rw [heq] at hp
        rw [show i = _ from hp]
        exact (kept (.drop k o) (Or.inr ⟨o, rfl⟩)).congr rfl id rfl hsame.symm rfl (Or.inl rfl)
          rfl rfl rfl rfl h.calls h.rejected
      · rename_i i heq
        rw [heq] at hp
        rw [show i = _ from hp]
        exact (kept (.storeRetired k) (Or.inl rfl)).congr rfl id rfl hsame.symm rfl (Or.inl rfl)
          rfl rfl rfl rfl h.calls h.rejected
  | storeRetired k =>
      obtain ⟨⟨u, hu, hpc⟩, hslot, hpend⟩ := hfact
      exact h.section_owned hx htodo rfl hu hpc hslot hpend 2 (Or.inr rfl) (.retire (k + 1))
        (Or.inr rfl) (fun _ _ _ _ ha => by cases ha)
  | storeId k t v =>
      obtain ⟨u, hu, hpc, hhand⟩ := hfact
      have howner := (h.handed k u hu (Or.inl hpc)).1
      refine (h.section_handing hx htodo rfl hu hpc u { inc.page.slot k with releaseId := t }
        [.storeValue k v] rfl rfl rfl (Or.inl ⟨hpc, rfl, _, rfl, rfl, ?_⟩) howner).congr
          rfl id ?_ rfl rfl (Or.inl rfl) rfl rfl rfl rfl h.calls h.rejected
      · exact ⟨u, Function.update_self .., hpc, by simp [hhand]⟩
      · show inc.uses = Function.update inc.uses k (some u)
        rw [← hu, Function.update_eq_self]
  | storeValue k v =>
      obtain ⟨u, hu, hpc, hhand⟩ := hfact
      have howner := (h.handed k u hu (Or.inl hpc)).1
      refine (h.section_handing hx htodo rfl hu hpc u { inc.page.slot k with releaseValue := v }
        [.storePending k] rfl rfl rfl (Or.inl ⟨hpc, rfl, _, rfl, rfl, ?_⟩) howner).congr
          rfl id ?_ rfl rfl (Or.inl rfl) rfl rfl rfl rfl h.calls h.rejected
      · exact ⟨u, Function.update_self .., hpc, by simp [hhand]⟩
      · show inc.uses = Function.update inc.uses k (some u)
        rw [← hu, Function.update_eq_self]
  | storePending k =>
      obtain ⟨u, hu, hpc, hhand⟩ := hfact
      have howner := (h.handed k u hu (Or.inl hpc)).1
      refine (h.section_handing hx htodo rfl hu hpc { u with pc := .deferred }
        { inc.page.slot k with releasePending := 1 } [] rfl rfl rfl
        (Or.inr ⟨rfl, rfl, rfl, hhand⟩) howner).congr
          rfl id ?_ rfl rfl (Or.inl rfl) rfl rfl rfl rfl h.calls h.rejected
      show Function.update inc.uses k ((inc.uses k).map fun u => { u with pc := .deferred }) = _
      rw [hu]
      rfl

end Handoffs

end Jackstay.Acquisition
