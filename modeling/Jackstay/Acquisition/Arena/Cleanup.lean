import Jackstay.Acquisition.Arena.Claims
import Jackstay.Acquisition.Arena.Runs

/-!
Deferred releases, continued: the steps under the observer mutex, and the
invariant over whole runs.

* `Handoffs.move`: whatever the arena does to an incarnation keeps the invariant.
-/

namespace Jackstay.Acquisition

namespace Handoffs

variable {native : Bool} {inc inc' : Incarnation}

/-- What stands behind the next step may become the next step. -/
lemma fact_of_later {op : ObserveOp} (h : op.Later inc) : op.Fact native inc := by
  cases op <;> simp_all [ObserveOp.Later, ObserveOp.Fact]

/-- The observer section does what its steps rest on. -/
lemma todo_later {todo : List ObserveOp} (h : ∀ x ∈ todo, x.Later inc) :
    ∀ op rest, todo = op :: rest → op.Fact native inc ∧ ∀ x ∈ rest, x.Later inc := by
  rintro op rest rfl
  exact ⟨fact_of_later (h op List.mem_cons_self), fun x hx => h x (List.mem_cons_of_mem op hx)⟩

lemma todo_cons {op : ObserveOp} {todo : List ObserveOp} (hop : op.Fact native inc)
    (h : ∀ x ∈ todo, x.Later inc) :
    ∀ o rest, op :: todo = o :: rest → o.Fact native inc ∧ ∀ x ∈ rest, x.Later inc := by
  intro o rest hcons
  rw [List.cons.injEq] at hcons
  obtain ⟨rfl, rfl⟩ := hcons
  exact ⟨hop, h⟩

lemma later_page {ops : List PageOp} : ∀ x ∈ ops.map ObserveOp.page, x.Later inc := by
  intro x hx
  obtain ⟨op, -, rfl⟩ := List.mem_map.mp hx
  trivial

/-- The observer moves on without touching a claim slot. -/
lemma observed (h : Handoffs native inc) {page : ClaimPage} {observer : Observer}
    {wakeBytes : ℕ} {reply : Reply} (hslot : page.slot = inc.page.slot)
    (hseen : observer.exitSeen = false → inc.observer.exitSeen = false)
    (hexit : observer.exitSeen = true → inc.exited = true)
    (htodo : ∀ op rest, observer.todo = op :: rest →
      op.Fact native { inc with page, observer, wakeBytes, reply } ∧
        ∀ x ∈ rest, x.Later { inc with page, observer, wakeBytes, reply }) :
    Handoffs native { inc with page, observer, wakeBytes, reply } := by
  have hfact : ∀ op : SectionOp, op.Fact inc →
      op.Fact { inc with page, observer, wakeBytes, reply } := by
    intro op hop
    cases op <;> simp_all [SectionOp.Fact]
  constructor
  case exited_of_seen => exact hexit
  case range => exact h.range
  case unused => simpa only [hslot] using h.unused
  case used => simpa only [hslot] using h.used
  case handed => exact h.handed
  case pending => simpa only [hslot] using h.pending
  case slots =>
      intro hx
      simpa only [hslot] using h.slots (hseen hx)
  case handing => exact fun hx => h.handing (hseen hx)
  case mutex =>
      intro hx op rest hop
      obtain ⟨hf, hrest⟩ := h.mutex (hseen hx) op rest hop
      exact ⟨hfact op hf, hrest⟩
  case observer => exact htodo
  case calls => exact h.calls
  case rejected => exact h.rejected

/-- The observer advances the release of a claim slot that the consumer's side is
done with: its words change, or the claim is cleared. -/
lemma credited (h : Handoffs native inc) {k : ℕ} {u : Use} (hu : inc.uses k = some u)
    (hfree : inc.observer.exitSeen = true ∨ inc.retirement.slots k = none ∧ inc.sectionFree k)
    (new : Option Use) (w : ClaimSlot) (observer : Observer)
    (hnew : new = none ∧ w.claim = 0 ∧ w.releasePending = 0 ∨
      new = some u ∧ w.claim = (inc.page.slot k).claim ∧ (w.releasePending ≠ 0 →
        u.pc = .deferred ∧ u.handoff = some (w.releaseId, w.releaseValue) ∧
          (w.releasePending = 1 ∨ w.releasePending = 2)))
    (hseen : observer.exitSeen = inc.observer.exitSeen)
    (htodo : ∀ op rest, observer.todo = op :: rest →
      op.Fact native { inc with
        uses := Function.update inc.uses k new
        page := { inc.page with slot := Function.update inc.page.slot k w }
        observer } ∧
      ∀ x ∈ rest, x.Later { inc with
        uses := Function.update inc.uses k new
        page := { inc.page with slot := Function.update inc.page.slot k w }
        observer }) :
    Handoffs native { inc with
      uses := Function.update inc.uses k new
      page := { inc.page with slot := Function.update inc.page.slot k w }
      observer } := by
  have hk := h.lt_frames hu
  have free_of : observer.exitSeen = false → inc.retirement.slots k = none ∧ inc.sectionFree k := by
    intro hx
    rcases hfree with hf | hf
    · rw [← hseen, hx] at hf
      cases hf
    · exact hf
  obtain ⟨hclaim, hcur⟩ := h.used k u hu
  constructor
  case exited_of_seen => exact fun hx => h.exited_of_seen (hseen ▸ hx)
  case range =>
      intro j hj
      have hjk : j ≠ k := by
        rintro rfl
        exact absurd hj (by simpa using hk)
      simpa [hjk] using h.range j hj
  case unused =>
      intro j hj
      by_cases hjk : j = k
      · subst hjk
        simp only [Function.update_self] at hj ⊢
        rcases hnew with ⟨-, h1, h2⟩ | ⟨rfl, -⟩
        · exact ⟨h1, h2⟩
        · cases hj
      · simpa [hjk] using h.unused j (by simpa [hjk] using hj)
  case used =>
      intro j v hj
      by_cases hjk : j = k
      · subst hjk
        simp only [Function.update_self] at hj ⊢
        rcases hnew with ⟨rfl, -⟩ | ⟨rfl, h1, -⟩
        · cases hj
        · rw [Option.some.injEq] at hj
          subst hj
          exact ⟨h1.trans hclaim, hcur⟩
      · simpa [hjk] using h.used j v (by simpa [hjk] using hj)
  case handed =>
      intro j v hj hpc
      by_cases hjk : j = k
      · subst hjk
        simp only [Function.update_self] at hj
        rcases hnew with ⟨rfl, -⟩ | ⟨rfl, -, -⟩
        · cases hj
        · rw [Option.some.injEq] at hj
          subst hj
          exact h.handed j u hu hpc
      · exact h.handed j v (by simpa [hjk] using hj) hpc
  case pending =>
      intro j hj
      by_cases hjk : j = k
      · subst hjk
        simp only [Function.update_self] at hj ⊢
        rcases hnew with ⟨-, -, h2⟩ | ⟨rfl, -, h2⟩
        · exact absurd h2 hj
        · exact ⟨u, rfl, h2 hj⟩
      · simp only [ne_eq, hjk, not_false_eq_true, Function.update_of_ne] at hj ⊢
        exact h.pending j hj
  case slots =>
      intro hx j p hj
      obtain ⟨hs, -⟩ := free_of hx
      have hjk : j ≠ k := by
        rintro rfl
        have hj' : inc.retirement.slots j = some p := hj
        rw [hs] at hj'
        cases hj'
      simpa [hjk] using h.slots (hseen ▸ hx) j p hj
  case handing =>
      intro hx j v hj hpc
      by_cases hjk : j = k
      · subst hjk
        simp only [Function.update_self] at hj
        rcases hnew with ⟨rfl, -⟩ | ⟨rfl, -, -⟩
        · cases hj
        · rw [Option.some.injEq] at hj
          subst hj
          exact h.handing (hseen ▸ hx) j u hu hpc
      · exact h.handing (hseen ▸ hx) j v (by simpa [hjk] using hj) hpc
  case mutex =>
      intro hx op rest hop
      obtain ⟨hf, hrest⟩ := h.mutex (hseen ▸ hx) op rest hop
      refine ⟨?_, hrest⟩
      have ha := (free_of hx).2 op (by
        have hop' : inc.retirement.todo = op :: rest := hop
        rw [hop']
        exact List.mem_cons_self)
      cases op with
      | drop j o =>
          have hjk : j ≠ k := fun hj => ha (congrArg some hj)
          simpa [SectionOp.Fact, hjk] using hf
      | storeRetired j =>
          have hjk : j ≠ k := fun hj => ha (congrArg some hj)
          simpa [SectionOp.Fact, hjk] using hf
      | storeId j t v =>
          have hjk : j ≠ k := fun hj => ha (congrArg some hj)
          simpa [SectionOp.Fact, hjk] using hf
      | storeValue j v =>
          have hjk : j ≠ k := fun hj => ha (congrArg some hj)
          simpa [SectionOp.Fact, hjk] using hf
      | storePending j =>
          have hjk : j ≠ k := fun hj => ha (congrArg some hj)
          simpa [SectionOp.Fact, hjk] using hf
      | page o => trivial
      | drain => trivial
      | setClosed => trivial
      | poll => trivial
      | retire j => trivial
      | workerCheck => trivial
  case observer => exact htodo
  case calls => exact h.calls
  case rejected => exact h.rejected

/-- A pending word at two: the consumer's side has let go of the mapping, or its
exit has been observed. -/
lemma free_of_retired (h : Handoffs native inc) {k : ℕ}
    (hp : (inc.page.slot k).releasePending = 2) :
    inc.observer.exitSeen = true ∨ inc.retirement.slots k = none ∧ inc.sectionFree k := by
  obtain ⟨u, hu, hpc, -⟩ := h.pending k (by omega)
  by_cases hx : inc.observer.exitSeen = true
  · exact Or.inl hx
  have hx : inc.observer.exitSeen = false := by simpa using hx
  refine Or.inr ⟨?_, ?_⟩
  · by_contra hs
    obtain ⟨p, hp'⟩ := Option.ne_none_iff_exists'.mp hs
    obtain ⟨v, hv, -, hvpc⟩ := h.slots hx k p hp'
    rw [hu, Option.some.injEq] at hv
    subst hv
    rcases hvpc with hvpc | ⟨-, hvpc⟩
    · rw [hpc] at hvpc
      cases hvpc
    · omega
  · intro op hop ha
    obtain ⟨x, rest, htodo⟩ := List.exists_cons_of_ne_nil (List.ne_nil_of_mem hop)
    obtain ⟨hfact, hrest⟩ := h.mutex hx x rest htodo
    rw [htodo, List.mem_cons] at hop
    rcases hop with rfl | hop
    · cases op <;> simp_all [SectionOp.about, SectionOp.Fact]
    · rw [hrest op hop] at ha
      cases ha

/-- The observer changes its own fields only, and goes on to steps that rest on
nothing. -/
lemma observer_moved (h : Handoffs native inc) {op : ObserveOp} {rest : List ObserveOp}
    (htodo : inc.observer.todo = op :: rest) (next : List ObserveOp)
    (hnext : ∀ x ∈ next, x.Later inc) {failure notificationFailed process : Bool}
    {unresolved : List ℕ} :
    Handoffs native { inc with observer := { inc.observer with
      failure, notificationFailed, process, unresolved, todo := next ++ rest } } := by
  refine h.observed rfl id h.exited_of_seen (todo_later fun x hx => ?_)
  rcases List.mem_append.mp hx with hx | hx
  · have := hnext x hx
    cases x <;> exact this
  · have := (h.observer op rest htodo).2 x hx
    cases x <;> exact this

/-- The observer goes on to one step and the fact it rests on. -/
lemma observer_next (h : Handoffs native inc) {op : ObserveOp} {rest : List ObserveOp}
    (htodo : inc.observer.todo = op :: rest) (next : ObserveOp) (hnext : next.Fact native inc) :
    Handoffs native { inc with observer := { inc.observer with todo := [next] ++ rest } } := by
  refine h.observed rfl id h.exited_of_seen (todo_cons ?_ fun x hx => ?_)
  · cases next with
    | creditPending k b => cases b <;> exact hnext
    | creditClaim k b => cases b <;> exact hnext
    | _ => exact hnext
  · have := (h.observer op rest htodo).2 x hx
    cases x <;> exact this

lemma observeStep (h : Handoffs native inc) {e : Env} (hs : inc.observeStep native e = some inc') :
    Handoffs native inc' := by
  rw [Incarnation.observeStep] at hs
  split at hs
  case h_2 => cases hs
  rename_i op rest htodo
  simp only [Option.some.injEq] at hs
  subst hs
  obtain ⟨hfact, hrest⟩ := h.observer op rest htodo
  have single : ∀ x : ObserveOp, x.Later inc → ∀ y ∈ [x], y.Later inc := by
    intro x hx y hy
    rw [List.mem_singleton.mp hy]
    exact hx
  cases op with
  | page op =>
      obtain ⟨a, q, c, w, hp⟩ := op.exec_shape e inc
      simp only [ObserveOp.exec, hp]
      refine h.observed rfl id h.exited_of_seen (todo_later fun x hx => ?_)
      rcases List.mem_append.mp hx with hx | hx
      · exact later_page x hx
      · have := hrest x hx
        cases x <;> exact this
  | process =>
      simp only [ObserveOp.exec]
      split_ifs with h1 h2 h3
      · exact h.observer_moved htodo [.deadline] (single _ trivial)
      · exact h.observer_moved htodo [.page .close, .deadline] (by simp [ObserveOp.Later])
      · refine h.observed rfl (fun hx => by cases hx) (fun _ => h3.1) (todo_later fun x hx => ?_)
        rcases List.mem_append.mp hx with hx | hx
        · simp only [List.mem_cons, List.not_mem_nil, or_false] at hx
          rcases hx with rfl | rfl | rfl
          · trivial
          · trivial
          · rfl
        · have := hrest x hx
          cases x <;> first | exact this | rfl
      · exact h.observer_moved htodo [.deadline] (single _ trivial)
  | zeroMapping m =>
      simp only [ObserveOp.exec]
      refine h.observed rfl id h.exited_of_seen (todo_later fun x hx => ?_)
      rcases List.mem_append.mp hx with hx | hx
      · split_ifs at hx
        · rw [List.mem_singleton.mp hx]; exact hfact
        · rw [List.mem_singleton.mp hx]; exact hfact
      · have := hrest x hx
        cases x <;> exact this
  | exitClaim k =>
      simp only [ObserveOp.exec]
      split_ifs with h1 h2
      · exact h.observer_moved htodo [.deadline] (single _ trivial)
      · exact h.observer_moved htodo [.exitClaim (k + 1)] (single _ hfact)
      · exact h.observer_next htodo (.exitPending k) ⟨hfact, h2⟩
  | exitPending k =>
      simp only [ObserveOp.exec]
      split_ifs with h1 h2 h3
      · exact h.observer_next htodo (.exitRetire k) ⟨hfact.1, h1⟩
      · exact h.observer_next htodo (.creditPending k true)
          ⟨hfact.1, hfact.2, h2, h3.1, h3.2⟩
      · exact h.observer_moved htodo [.exitClaim (k + 1)] (single _ hfact.1)
      · exact h.observer_moved htodo [.page .close, .exitClaim (k + 1)]
          (by simp [ObserveOp.Later, hfact.1])
  | exitRetire k =>
      obtain ⟨u, hu, hpc, hhand, -⟩ := h.pending k (by rcases hfact.2 with h1 | h1 <;> omega)
      simp only [ObserveOp.exec]
      refine (h.credited hu (Or.inl hfact.1) (some u) { inc.page.slot k with releasePending := 2 }
        { inc.observer with todo := [.exitClaim (k + 1)] ++ rest }
        (Or.inr ⟨rfl, rfl, fun _ => ⟨hpc, hhand, Or.inr rfl⟩⟩) rfl (todo_later ?_)).congr
          rfl id ?_ rfl rfl (Or.inl rfl) rfl rfl rfl rfl h.calls h.rejected
      · intro x hx
        rcases List.mem_append.mp hx with hx | hx
        · rw [List.mem_singleton.mp hx]; exact hfact.1
        · have := hrest x hx
          cases x <;> exact this
      · show inc.uses = Function.update inc.uses k (some u)
        rw [← hu, Function.update_eq_self]
  | deadline =>
      simp only [ObserveOp.exec]
      split_ifs
      · exact h.observer_moved htodo [.page .close] (single _ trivial)
      · exact h.observer_moved htodo [] (List.forall_mem_nil _)
      · exact h.observer_moved htodo [.loadPending 0] (single _ trivial)
  | loadPending k =>
      simp only [ObserveOp.exec]
      split_ifs with h1 h2 h3
      · exact h.observer_moved htodo [] (List.forall_mem_nil _)
      · exact h.observer_moved htodo [.loadPending (k + 1)] (single _ trivial)
      · exact h.observer_next htodo (.loadId k) h2
      · exact h.observer_moved htodo [.page .close] (single _ trivial)
  | loadId k =>
      simp only [ObserveOp.exec]
      exact h.observer_next htodo (.loadValue k (inc.page.slot k).releaseId) ⟨hfact, rfl⟩
  | loadValue k t =>
      simp only [ObserveOp.exec]
      split_ifs
      · exact h.observer_moved htodo [.page .close] (single _ trivial)
      · exact h.observer_next htodo (.completed k t (inc.page.slot k).releaseValue)
          ⟨hfact.1, hfact.2, rfl⟩
  | completed k t v =>
      simp only [ObserveOp.exec]
      have kept : ∀ x ∈ rest, ∀ i : Incarnation, i.observer.exitSeen = inc.observer.exitSeen →
          x.Later i := by
        intro x hx i hi
        have := hrest x hx
        cases x <;> simp_all [ObserveOp.Later]
      split_ifs with h1 h2 h3
      · exact h.observer_moved htodo [.page .close] (single _ trivial)
      · refine h.observed rfl id h.exited_of_seen (todo_cons ?_ fun x hx => kept x hx _ rfl)
        exact ⟨hfact.1, hfact.2.1, hfact.2.2, _, Function.update_self .., by omega⟩
      · refine h.observed rfl id h.exited_of_seen
          (todo_cons trivial fun x hx => kept x hx _ rfl)
      · refine h.observed rfl id h.exited_of_seen
          (todo_cons trivial fun x hx => kept x hx _ rfl)
  | recheck k t v =>
      simp only [ObserveOp.exec]
      split_ifs with h1
      · refine h.observer_next htodo (.creditPending k false) ⟨h1, ?_⟩
        rw [hfact.2.1, hfact.2.2.1]
        exact hfact.2.2.2
      · exact h.observer_moved htodo [.loadPending (k + 1)] (single _ trivial)
  | creditPending k b =>
      simp only [ObserveOp.exec]
      cases b with
      | false =>
          obtain ⟨hp, hle⟩ := hfact
          obtain ⟨u, hu, hpc, hhand, -⟩ := h.pending k (by omega)
          have hfree := h.free_of_retired hp
          refine (h.credited hu hfree (some u) { inc.page.slot k with releasePending := 0 }
            { inc.observer with todo := [.creditClaim k false] ++ rest }
            (Or.inr ⟨rfl, rfl, fun h0 => absurd rfl h0⟩) rfl (todo_cons ?_ ?_)).congr
              rfl id ?_ rfl rfl (Or.inl rfl) rfl rfl rfl rfl h.calls h.rejected
          · exact ⟨u, _, _, Function.update_self .., hpc, hhand, hle, by simp, hfree⟩
          · intro x hx
            have := hrest x hx
            cases x <;> exact this
          · show inc.uses = Function.update inc.uses k (some u)
            rw [← hu, Function.update_eq_self]
      | true =>
          have hsame : (inc.page.modifySlot k fun w => { w with releasePending := 0 }).slot =
              inc.page.slot := by
            simp only [ClaimPage.modifySlot]
            rw [← hfact.2.2.1, Function.update_eq_self]
          exact (h.observer_next htodo (.creditClaim k true) hfact).congr rfl id rfl hsame rfl
            (Or.inl rfl) rfl rfl rfl rfl h.calls h.rejected
  | creditClaim k b =>
      simp only [ObserveOp.exec]
      have cleared : ∀ u, inc.uses k = some u → (inc.page.slot k).releasePending = 0 →
          inc.observer.exitSeen = true ∨ inc.retirement.slots k = none ∧ inc.sectionFree k →
          ∀ next : ObserveOp, next.Later inc → Handoffs native { inc with
            page := inc.page.modifySlot k fun w => { w with claim := 0 }
            uses := Function.update inc.uses k none
            observer := { inc.observer with
              released := inc.observer.released + 1
              todo := [.page .epoch, next] ++ rest } } := by
        intro u hu hp hfree next hnext
        refine h.credited hu hfree none { inc.page.slot k with claim := 0 } _
          (Or.inl ⟨rfl, rfl, hp⟩) rfl (todo_later fun x hx => ?_)
        rcases List.mem_append.mp hx with hx | hx
        · simp only [List.mem_cons, List.not_mem_nil, or_false] at hx
          rcases hx with rfl | rfl
          · trivial
          · cases x <;> exact hnext
        · have := hrest x hx
          cases x <;> exact this
      cases b with
      | false =>
          obtain ⟨u, t, v, hu, -, -, -, hp, hfree⟩ := hfact
          exact cleared u hu hp hfree (.loadPending (k + 1)) trivial
      | true =>
          obtain ⟨hx, hc, hp, -⟩ := hfact
          have hne : inc.uses k ≠ none := fun hn => hc (h.unused k hn).1
          obtain ⟨u, hu⟩ := Option.ne_none_iff_exists'.mp hne
          exact cleared u hu hp (Or.inl hx) (.exitClaim (k + 1)) hx
  | register =>
      simp only [ObserveOp.exec]
      split_ifs
      · refine h.observed rfl id h.exited_of_seen (todo_later fun x hx => ?_)
        have := hrest x hx
        cases x <;> exact this
      · refine h.observed rfl id h.exited_of_seen (todo_later fun x hx => ?_)
        have := hrest x hx
        cases x <;> exact this
      · refine h.observed rfl id h.exited_of_seen (todo_cons trivial fun x hx => ?_)
        have := hrest x hx
        cases x <;> exact this
  | registerStore t =>
      simp only [ObserveOp.exec]
      refine h.observed rfl id h.exited_of_seen (todo_later fun x hx => ?_)
      have := hrest x hx
      cases x <;> exact this

/-- A thread of the consumer's process leaves the claims alone; at most it takes the
retirement mutex for a section that is about no claim slot. -/
lemma threadStep (h : Handoffs native inc) {sh : Shared} {e : Env} {t : ℕ}
    (hs : inc.threadStep sh e t = some inc') : Handoffs native inc' := by
  rw [Incarnation.threadStep] at hs
  split at hs
  case h_2 => cases hs
  rename_i op rest role ht
  split_ifs at hs
  obtain ⟨⟨i, next⟩, hop, hi⟩ := Option.map_eq_some_iff.mp hs
  obtain ⟨a, q, c, ms, g, maps, consumer, todo, sources, w, returns, rfl, htodo⟩ :=
    ThreadOp.exec_shape hop
  subst hi
  refine h.congr rfl id rfl rfl rfl ?_ rfl rfl rfl rfl h.calls h.rejected
  rcases htodo with htodo | ⟨hnil, s, -, rfl⟩
  · exact Or.inl htodo
  · refine Or.inr ⟨?_, ?_⟩
    · have hnil : inc.retirement.todo = [] := hnil
      simp [hnil]
    · intro x hx
      cases s <;> simp only [Section.program, List.mem_cons, List.not_mem_nil, or_false] at hx <;>
        rcases hx with rfl | rfl <;> rfl

lemma hostStep (h : Handoffs native inc) {e : Env} (hs : inc.hostStep e = some inc') :
    Handoffs native inc' := by
  rw [Incarnation.hostStep] at hs
  split at hs
  case h_2 => cases hs
  rename_i op rest hop
  simp only [Option.some.injEq] at hs
  obtain ⟨a, q, c, ms, g, maps, w, fault, reply, hx⟩ := op.exec_shape e inc
  rw [hx] at hs
  subst hs
  exact h.congr rfl id rfl rfl rfl (Or.inl rfl) rfl rfl rfl rfl h.calls h.rejected

lemma waiterStep (h : Handoffs native inc) {sh : Shared} {e : Env} {w : Waiter}
    (hs : inc.waiterStep sh e w = some inc') : Handoffs native inc' := by
  obtain ⟨waiter, interest, bytes, rfl⟩ := Incarnation.waiterStep_shape hs
  exact h.congr rfl id rfl rfl rfl (Or.inl rfl) rfl rfl rfl rfl h.calls h.rejected

/-- A step that leaves the claims, the two sections and the calls alone. -/
lemma frame (h : Handoffs native inc) {page : ClaimPage} {mappings : ℕ → Option Mapping}
    {consumer : Option Consumer} {threads : List Thread} {failure worker : Bool}
    {waiter : Option Waiter} (hpage : page.slot = inc.page.slot) :
    Handoffs native { inc with
      page, mappings, consumer, threads, waiter
      retirement := { inc.retirement with failure, worker } } :=
  h.congr rfl id rfl hpage rfl (Or.inl rfl) rfl rfl rfl rfl h.calls h.rejected

/-- The observer's mutex is taken for steps that rest on nothing. -/
lemma taken (h : Handoffs native inc) {todo : List ObserveOp} {worker failure : Bool}
    {notificationFailed : Bool} (hfact : ∀ x ∈ todo, x.Fact native inc)
    (hlater : ∀ x rest, todo = x :: rest → ∀ y ∈ rest, y.Later inc) :
    Handoffs native { inc with observer := { inc.observer with
      worker, failure, notificationFailed, todo } } := by
  refine h.observed rfl id h.exited_of_seen fun op rest hcons => ⟨?_, ?_⟩
  · have := hfact op (by rw [show todo = op :: rest from hcons]; exact List.mem_cons_self)
    cases op with
    | creditPending k b => cases b <;> exact this
    | creditClaim k b => cases b <;> exact this
    | _ => exact this
  · intro x hx
    have := hlater op rest hcons x hx
    cases x <;> exact this

/-- **Every label keeps the invariant.** -/
lemma acts {sh : Shared} (h : Handoffs sh.native inc) (hs : inc.Acts sh inc') :
    Handoffs sh.native inc' := by
  cases hs with
  | sendGrant g p p' => exact h.frame rfl
  | sendOffer m g p p' => exact h.frame rfl
  | dropGrant g p role => exact h.frame rfl
  | dropOffer m g p role => exact h.frame rfl
  | fromGrant g => exact h.frame rfl
  | install m g => exact h.frame rfl
  | relinquish c => exact h.frame rfl
  | dropConsumer c => exact h.frame rfl
  | bind t => exact h.frame rfl
  | begin client request =>
      refine h.congr rfl id rfl rfl rfl (Or.inl rfl) rfl rfl rfl rfl ?_ h.rejected
      intro c hc cursor index k hpc
      rcases List.mem_append.mp hc with hc | hc
      · exact h.calls c hc cursor index k hpc
      · rw [List.mem_singleton.mp hc] at hpc
        cases hpc
  | call t _ hx hs => exact h.callStep hx hs
  | use k u e _ hx hu hs => exact h.useStep hx hu hs
  | release k u hx hu hpc =>
      exact h.setUse hx hu ⟨by simp [hpc], by simp [hpc]⟩ rfl ⟨by simp, by simp⟩
  | defer k t v e u m hx hu hpc _ _ htodo => exact h.handoff hx hu hpc htodo
  | retryRetirement => exact h.frame rfl
  | workerPoll hx _ htodo =>
      refine h.congr rfl id rfl rfl rfl (Or.inr ⟨by simp [htodo], ?_⟩) rfl rfl rfl rfl h.calls
        h.rejected
      simp [SectionOp.about]
  | wait observed interest => exact h.frame rfl
  | waiter w e _ hx hw hs => exact h.waiterStep hs
  | thread t e _ hs => exact h.threadStep hs
  | retire e _ hs => exact h.retireStep hs
  | observe e _ hs => exact h.observeStep hs
  | host e _ hs => exact h.hostStep hs
  | observerPoll => exact h.taken (by simp [ObserveOp.Fact]) (by simp)
  | observerFail => exact h.taken (by simp [ObserveOp.Fact]) (by simp)
  | exit =>
      exact h.congr rfl (fun _ => rfl) rfl rfl rfl (Or.inl rfl) rfl rfl rfl rfl h.calls h.rejected

/-- **The step lemma**: whatever the arena does to an incarnation keeps the
invariant. -/
theorem move {sh : Shared} (h : Handoffs sh.native inc) (hs : inc.Move sh inc') :
    Handoffs sh.native inc' := by
  cases hs with
  | act _ hs => exact h.acts hs
  | observe op _ hop =>
      refine h.taken (fun x hx => ?_) (by simp)
      rw [List.mem_singleton.mp hx]
      rcases hop with rfl | rfl <;> trivial
  | collect =>
      exact h.congr rfl id rfl rfl rfl (Or.inl rfl) rfl rfl rfl rfl h.calls h.rejected
  | forget _ =>
      exact h.congr rfl id rfl rfl rfl (Or.inl rfl) rfl rfl rfl rfl h.calls h.rejected
  | retry _ =>
      exact h.congr rfl id rfl rfl rfl (Or.inl rfl) rfl rfl rfl rfl h.calls h.rejected
  | call op _ _ =>
      exact h.congr rfl id rfl rfl rfl (Or.inl rfl) rfl rfl rfl rfl h.calls h.rejected

/-- A fresh incarnation has no claims. -/
lemma new (native : Bool) (frames : ℕ) (remote : Bool) (generation : ℕ) :
    Handoffs native (Incarnation.new frames remote generation) := by
  constructor <;> simp [Incarnation.new, ClaimPage.storeMapping]

end Handoffs

/-! ### Registered timelines -/

/-- A thread that has seen a registered timeline and is about to bind it. -/
def ThreadOp.Binds : ThreadOp → Prop
  | .bindActive _ => True
  | .bindTerminal _ => True
  | .bindSource _ => True
  | _ => False

/-- **A deferred release needs a registered timeline**: while the observer has none,
nothing that leads to a handoff exists. -/
structure Unregistered (inc : Incarnation) : Prop where
  words : ∀ t, inc.page.registeredTimeline t = 0
  storing : ∀ t, ObserveOp.registerStore t ∉ inc.observer.todo
  binding : ∀ th ∈ inc.threads, ∀ op ∈ th.todo, ¬ op.Binds
  sources : ∀ t, inc.retirement.sources t = false
  handed : ∀ k u, inc.uses k = some u → u.handoff = none

namespace Unregistered

variable {inc inc' : Incarnation}

/-- The parts that are read; threads and uses may be fewer. -/
lemma frame (h : Unregistered inc) (hw : inc'.page.registeredTimeline = inc.page.registeredTimeline)
    (ho : ∀ t, ObserveOp.registerStore t ∈ inc'.observer.todo →
      ObserveOp.registerStore t ∈ inc.observer.todo)
    (hth : ∀ th ∈ inc'.threads, ∀ op ∈ th.todo, op.Binds → ∃ th ∈ inc.threads, op ∈ th.todo)
    (hs : inc'.retirement.sources = inc.retirement.sources)
    (hu : ∀ k u, inc'.uses k = some u → u.handoff = none ∨
      ∃ v, inc.uses k = some v ∧ u.handoff = v.handoff) : Unregistered inc' where
  words := fun t => by rw [hw]; exact h.words t
  storing := fun t ht => h.storing t (ho t ht)
  binding := fun th hmem op hop hb => by
    obtain ⟨th', hmem', hop'⟩ := hth th hmem op hop hb
    exact h.binding th' hmem' op hop' hb
  sources := fun t => by rw [hs]; exact h.sources t
  handed := fun k u huse => by
    rcases hu k u huse with h0 | ⟨v, hv, h0⟩
    · exact h0
    · rw [h0]
      exact h.handed k v hv

/-- A new thread that binds nothing. -/
lemma spawned {threads : List Thread} {role : Role} {todo : List ThreadOp}
    (hnew : ∀ op ∈ todo, ¬ op.Binds) : ∀ th ∈ threads ++ [⟨todo, role⟩], ∀ op ∈ th.todo, op.Binds →
      ∃ th ∈ threads, op ∈ th.todo := by
  intro th hth op hop hb
  rcases List.mem_append.mp hth with hth | hth
  · exact ⟨th, hth, hop⟩
  · rw [List.mem_singleton.mp hth] at hop
    exact absurd hb (hnew op hop)

lemma setUse_handoff {k : ℕ} {u u' : Use} (hu : inc.uses k = some u)
    (hh : u'.handoff = u.handoff) : ∀ j w, (inc.setUse k u').uses j = some w → w.handoff = none ∨
      ∃ v, inc.uses j = some v ∧ w.handoff = v.handoff := by
  intro j w hw
  by_cases hjk : j = k
  · subst hjk
    simp only [Incarnation.setUse, Function.update_self, Option.some.injEq] at hw
    subst hw
    exact Or.inr ⟨u, hu, hh⟩
  · simp only [Incarnation.setUse, ne_eq, hjk, not_false_eq_true, Function.update_of_ne] at hw
    exact Or.inr ⟨w, hw, rfl⟩

lemma useStep (h : Unregistered inc) {sh : Shared} {e : Env} {k : ℕ} {u : Use}
    (hu : inc.uses k = some u) (hs : inc.useStep sh e k u = some inc') : Unregistered inc' := by
  have moved : ∀ u' : Use, u'.handoff = u.handoff → Unregistered (inc.setUse k u') := fun u' hh =>
    h.frame rfl (fun _ => id) (fun th hth op hop _ => ⟨th, hth, hop⟩) rfl (setUse_handoff hu hh)
  cases Incarnation.useActs_of_step hs with
  | miss => exact moved _ rfl
  | validate => exact moved _ rfl
  | refuse => exact moved _ rfl
  | next => exact moved _ rfl
  | lease =>
      exact h.frame rfl (fun _ => id) (fun th hth op hop _ => ⟨th, hth, hop⟩) rfl
        (setUse_handoff hu rfl)
  | returnPending =>
      exact h.frame rfl (fun _ => id) (fun th hth op hop _ => ⟨th, hth, hop⟩) rfl
        (setUse_handoff hu rfl)
  | returnClaim =>
      refine h.frame rfl (fun _ => id) (spawned ?_) rfl ?_
      · intro op hop hb
        simp only [Incarnation.releaseTail, List.append_assoc, List.cons_append, List.nil_append,
          List.mem_cons, List.mem_append, List.mem_map, Option.mem_toList] at hop
        rcases hop with rfl | ⟨m, -, rfl⟩ | rfl | ⟨o, -, rfl⟩ <;> exact hb
      · intro j w hw
        by_cases hjk : j = k
        · subst hjk
          simp [Incarnation.spawn] at hw
        · simp only [Incarnation.spawn, ne_eq, hjk, not_false_eq_true, Function.update_of_ne] at hw
          exact Or.inr ⟨w, hw, rfl⟩

/-- A thread step binds only what has been registered. -/
lemma exec_binds {sh : Shared} {e : Env} {op : ThreadOp} {next : List ThreadOp}
    (hs : op.exec sh e inc = some (inc', next))
    (hw : ∀ t, inc.page.registeredTimeline t = 0) (hop : ¬ op.Binds) :
    (∀ x ∈ next, ¬ x.Binds) ∧ inc'.retirement.sources = inc.retirement.sources ∧
      inc'.page.registeredTimeline = inc.page.registeredTimeline ∧ inc'.observer = inc.observer ∧
      inc'.uses = inc.uses := by
  obtain ⟨a, q, c, ms, g, maps, consumer, todo, sources, w, returns, hinc, -⟩ :=
    ThreadOp.exec_shape hs
  have hrest : inc'.page.registeredTimeline = inc.page.registeredTimeline ∧
      inc'.observer = inc.observer ∧ inc'.uses = inc.uses := by
    subst hinc
    exact ⟨rfl, rfl, rfl⟩
  clear hinc
  have page : ∀ ops : List PageOp, ∀ x ∈ ops.map ThreadOp.page, ¬ x.Binds := by
    intro ops x hx
    obtain ⟨op, -, rfl⟩ := List.mem_map.mp hx
    exact id
  have owner : ∀ ops : List OwnerOp, ∀ x ∈ ops.map ThreadOp.owner, ¬ x.Binds := by
    intro ops x hx
    obtain ⟨op, -, rfl⟩ := List.mem_map.mp hx
    exact id
  refine ⟨?_, ?_, hrest⟩
  · cases op with
    | page op =>
        simp only [ThreadOp.exec, Option.some.injEq, Prod.mk.injEq] at hs
        rw [← hs.2]
        exact page _
    | owner op =>
        simp only [ThreadOp.exec, Option.some.injEq, Prod.mk.injEq] at hs
        rw [← hs.2]
        exact owner _
    | dropLifetime =>
        simp only [ThreadOp.exec, Option.some.injEq, Prod.mk.injEq] at hs
        rw [← hs.2]
        split_ifs <;> simp [closing, ThreadOp.Binds]
    | enter s =>
        simp only [ThreadOp.exec] at hs
        split_ifs at hs
        cases hs
        simp
    | await =>
        simp only [ThreadOp.exec] at hs
        split_ifs at hs
        cases hs
        simp
    | ret r =>
        cases hs
        simp
    | installActive m =>
        simp only [ThreadOp.exec, Option.some.injEq] at hs
        split_ifs at hs <;> cases hs
        · exact owner _
        · simp [ThreadOp.Binds]
    | installTerminal m =>
        simp only [ThreadOp.exec, Option.some.injEq] at hs
        split_ifs at hs <;> cases hs
        · exact owner _
        · simp [ThreadOp.Binds]
    | installMap m =>
        simp only [ThreadOp.exec, Option.some.injEq] at hs
        split_ifs at hs <;> cases hs
        · exact owner _
        · simp [ThreadOp.Binds]
    | installConfiguration m =>
        simp only [ThreadOp.exec, Option.some.injEq] at hs
        split_ifs at hs <;> cases hs
        · exact owner _
        · split <;> simp [ThreadOp.Binds]
    | bindRegistered t =>
        simp only [ThreadOp.exec, hw, Option.some.injEq, Prod.mk.injEq] at hs
        rw [← hs.2]
        simp
    | bindActive t => exact absurd trivial hop
    | bindTerminal t => exact absurd trivial hop
    | bindSource t => exact absurd trivial hop
  · cases op with
    | page op =>
        obtain ⟨a, q, c, w, hp⟩ := op.exec_shape e inc
        simp only [ThreadOp.exec, hp, Option.some.injEq, Prod.mk.injEq] at hs
        rw [← hs.1]
    | owner op =>
        obtain ⟨ms, m, g, hp⟩ := op.exec_shape inc
        simp only [ThreadOp.exec, hp, Option.some.injEq, Prod.mk.injEq] at hs
        rw [← hs.1]
    | enter s =>
        simp only [ThreadOp.exec] at hs
        split_ifs at hs
        cases hs
        rfl
    | await =>
        simp only [ThreadOp.exec] at hs
        split_ifs at hs
        cases hs
        rfl
    | dropLifetime => cases hs; rfl
    | ret r => cases hs; rfl
    | installActive m =>
        simp only [ThreadOp.exec, Option.some.injEq] at hs
        split_ifs at hs <;> cases hs <;> rfl
    | installTerminal m =>
        simp only [ThreadOp.exec, Option.some.injEq] at hs
        split_ifs at hs <;> cases hs <;> rfl
    | installMap m =>
        simp only [ThreadOp.exec, Option.some.injEq] at hs
        split_ifs at hs <;> cases hs <;> rfl
    | installConfiguration m =>
        simp only [ThreadOp.exec, Option.some.injEq] at hs
        split_ifs at hs <;> cases hs <;> rfl
    | bindRegistered t => cases hs; rfl
    | bindActive t => exact absurd trivial hop
    | bindTerminal t => exact absurd trivial hop
    | bindSource t => exact absurd trivial hop

/-- The uses of a state in which one of them is gone. -/
lemma update_none_handoff (k : ℕ) : ∀ j w, Function.update inc.uses k none j = some w →
    w.handoff = none ∨ ∃ v, inc.uses j = some v ∧ w.handoff = v.handoff := by
  intro j w hw
  by_cases hjk : j = k
  · subst hjk
    simp at hw
  · rw [Function.update_of_ne hjk] at hw
    exact Or.inr ⟨w, hw, rfl⟩

lemma threadStep (h : Unregistered inc) {sh : Shared} {e : Env} {t : ℕ}
    (hs : inc.threadStep sh e t = some inc') : Unregistered inc' := by
  obtain ⟨op, rest, role, i, next, ht, -, hop, rfl⟩ := Incarnation.threadStep_shape hs
  have hmem : (⟨op :: rest, role⟩ : Thread) ∈ inc.threads := List.mem_of_getElem? ht
  obtain ⟨hnext, hsrc, hw, ho, hu⟩ := exec_binds hop h.words
    (h.binding _ hmem op List.mem_cons_self)
  refine h.frame hw (fun t => by rw [show i.observer = inc.observer from ho]; exact id) ?_ hsrc ?_
  · intro th hth x hx hb
    rcases List.mem_or_eq_of_mem_set hth with hth | rfl
    · exact ⟨th, hth, hx⟩
    · rcases List.mem_append.mp hx with hx | hx
      · exact absurd hb (hnext x hx)
      · exact ⟨_, hmem, List.mem_cons_of_mem op hx⟩
  · intro k u huse
    have huse : i.uses k = some u := huse
    rw [hu] at huse
    exact Or.inr ⟨u, huse, rfl⟩

lemma retireStep (h : Unregistered inc) {e : Env} (hs : inc.retireStep e = some inc') :
    Unregistered inc' := by
  obtain ⟨op, rest, -, -, rfl⟩ := Incarnation.retireStep_shape hs
  have same : ∀ k u, inc.uses k = some u →
      u.handoff = none ∨ ∃ v, inc.uses k = some v ∧ u.handoff = v.handoff :=
    fun k u hu => Or.inr ⟨u, hu, rfl⟩
  have kept : ∀ th ∈ inc.threads, ∀ op ∈ th.todo, op.Binds → ∃ th ∈ inc.threads, op ∈ th.todo :=
    fun th hth op hop _ => ⟨th, hth, hop⟩
  cases op with
  | page op =>
      obtain ⟨a, q, c, w, hp⟩ := op.exec_shape e
        { inc with retirement := { inc.retirement with todo := rest } }
      simp only [SectionOp.exec, hp]
      exact h.frame rfl (fun _ => id) kept rfl same
  | drop k op =>
      obtain ⟨ms, m, g, hp⟩ := op.exec_shape
        { inc with retirement := { inc.retirement with todo := rest } }
      simp only [SectionOp.exec]
      split
      · rename_i heq
        rw [heq] at hp
        subst hp
        exact h.frame rfl (fun _ => id) kept rfl same
      · rename_i heq
        rw [heq] at hp
        subst hp
        exact h.frame rfl (fun _ => id) kept rfl same
  | retire k =>
      simp only [SectionOp.exec]
      by_cases hk : inc.frames ≤ k
      · simp only [if_pos hk]
        exact h.frame rfl (fun _ => id) kept rfl same
      simp only [if_neg hk]
      split
      · exact h.frame rfl (fun _ => id) kept rfl same
      · split_ifs <;> exact h.frame rfl (fun _ => id) kept rfl same
  | storePending k =>
      refine h.frame rfl (fun _ => id) (spawned (by simp [ThreadOp.Binds])) rfl ?_
      intro j w hw
      by_cases hjk : j = k
      · subst hjk
        simp only [SectionOp.exec, Incarnation.spawn, Function.update_self] at hw
        obtain ⟨u, hu, rfl⟩ := Option.map_eq_some_iff.mp hw
        exact Or.inr ⟨u, hu, rfl⟩
      · simp only [SectionOp.exec, Incarnation.spawn, ne_eq, hjk, not_false_eq_true,
          Function.update_of_ne] at hw
        exact Or.inr ⟨w, hw, rfl⟩
  | drain => exact h.frame rfl (fun _ => id) kept rfl same
  | setClosed => exact h.frame rfl (fun _ => id) kept rfl same
  | poll => exact h.frame rfl (fun _ => id) kept rfl same
  | storeRetired k => exact h.frame rfl (fun _ => id) kept rfl same
  | workerCheck => exact h.frame rfl (fun _ => id) kept rfl same
  | storeId k t v => exact h.frame rfl (fun _ => id) kept rfl same
  | storeValue k v => exact h.frame rfl (fun _ => id) kept rfl same

/-- The observer registers nothing but through its counter. -/
lemma observeStep (h : Unregistered inc) {native : Bool} {e : Env}
    (hs : inc.observeStep native e = some inc') (h0 : inc'.observer.timelines = 0) :
    Unregistered inc' := by
  obtain ⟨op, rest, htodo, rfl⟩ := Incarnation.observeStep_shape hs
  have same : ∀ k u, inc.uses k = some u →
      u.handoff = none ∨ ∃ v, inc.uses k = some v ∧ u.handoff = v.handoff :=
    fun k u hu => Or.inr ⟨u, hu, rfl⟩
  have kept : ∀ th ∈ inc.threads, ∀ op ∈ th.todo, op.Binds → ∃ th ∈ inc.threads, op ∈ th.todo :=
    fun th hth op hop _ => ⟨th, hth, hop⟩
  have hno : ∀ t, ObserveOp.registerStore t ∉ op :: rest := htodo ▸ h.storing
  have later : ∀ next : List ObserveOp, (∀ t, ObserveOp.registerStore t ∉ next) →
      ∀ t, ObserveOp.registerStore t ∈ next ++ rest →
        ObserveOp.registerStore t ∈ inc.observer.todo := by
    intro next hnext t ht
    rw [htodo]
    rcases List.mem_append.mp ht with ht | ht
    · exact absurd ht (hnext t)
    · exact List.mem_cons_of_mem op ht
  cases op with
  | page op =>
      obtain ⟨a, q, c, w, hp⟩ := op.exec_shape e inc
      simp only [ObserveOp.exec, hp]
      refine h.frame rfl (later _ ?_) kept rfl same
      intro t ht
      obtain ⟨x, -, hx⟩ := List.mem_map.mp ht
      cases hx
  | registerStore t => exact absurd List.mem_cons_self (hno t)
  | register =>
      simp only [ObserveOp.exec] at h0 ⊢
      split_ifs at h0 ⊢
      · exact h.frame rfl (later [] (by simp)) kept rfl same
      · exact h.frame rfl (later [] (by simp)) kept rfl same
  | creditClaim k b =>
      simp only [ObserveOp.exec]
      refine h.frame rfl (later _ ?_) kept rfl (update_none_handoff k)
      cases b <;> simp
  | process =>
      simp only [ObserveOp.exec]
      split_ifs <;> exact h.frame rfl (later _ (by simp)) kept rfl same
  | zeroMapping m =>
      simp only [ObserveOp.exec]
      refine h.frame rfl (later _ ?_) kept rfl same
      intro t
      split_ifs <;> simp
  | exitClaim k =>
      simp only [ObserveOp.exec]
      refine h.frame rfl (later _ ?_) kept rfl same
      intro t
      split_ifs <;> simp
  | exitPending k =>
      simp only [ObserveOp.exec]
      split_ifs <;> exact h.frame rfl (later _ (by simp)) kept rfl same
  | exitRetire k => exact h.frame rfl (later [.exitClaim (k + 1)] (by simp)) kept rfl same
  | deadline =>
      simp only [ObserveOp.exec]
      split_ifs
      · exact h.frame rfl (later [.page .close] (by simp)) kept rfl same
      · exact h.frame rfl (later [] (by simp)) kept rfl same
      · exact h.frame rfl (later [.loadPending 0] (by simp)) kept rfl same
  | loadPending k =>
      simp only [ObserveOp.exec]
      split_ifs <;> exact h.frame rfl (later _ (by simp)) kept rfl same
  | loadId k => exact h.frame rfl (later [.loadValue k _] (by simp)) kept rfl same
  | loadValue k t =>
      simp only [ObserveOp.exec]
      split_ifs <;> exact h.frame rfl (later _ (by simp)) kept rfl same
  | completed k t v =>
      simp only [ObserveOp.exec]
      split_ifs <;> exact h.frame rfl (later _ (by simp)) kept rfl same
  | recheck k t v =>
      simp only [ObserveOp.exec]
      refine h.frame rfl (later _ ?_) kept rfl same
      intro t
      split_ifs <;> simp
  | creditPending k b => exact h.frame rfl (later [.creditClaim k b] (by simp)) kept rfl same

/-- **The step lemma.** -/
lemma move {sh : Shared} (h : inc.observer.timelines = 0 → Unregistered inc)
    (hs : inc.Move sh inc') (h0 : inc'.observer.timelines = 0) : Unregistered inc' := by
  have same : ∀ k u, inc.uses k = some u →
      u.handoff = none ∨ ∃ v, inc.uses k = some v ∧ u.handoff = v.handoff :=
    fun k u hu => Or.inr ⟨u, hu, rfl⟩
  have kept : ∀ th ∈ inc.threads, ∀ op ∈ th.todo, op.Binds → ∃ th ∈ inc.threads, op ∈ th.todo :=
    fun th hth op hop _ => ⟨th, hth, hop⟩
  cases hs with
  | observe op _ hop =>
      refine (h h0).frame rfl ?_ kept rfl same
      rcases hop with rfl | rfl <;> simp
  | collect => exact (h h0).frame rfl (fun _ => id) kept rfl same
  | forget _ => exact (h h0).frame rfl (fun _ => id) kept rfl same
  | retry _ => exact (h h0).frame rfl (fun _ => id) kept rfl same
  | call op _ _ => exact (h h0).frame rfl (fun _ => id) kept rfl same
  | act _ ha =>
      cases ha with
      | sendGrant g p p' => exact (h h0).frame rfl (fun _ => id) kept rfl same
      | sendOffer m g p p' => exact (h h0).frame rfl (fun _ => id) kept rfl same
      | dropGrant g p role =>
          exact (h h0).frame rfl (fun _ => id)
            (spawned (by simp [Incarnation.grantDrop, ThreadOp.Binds])) rfl same
      | dropOffer m g p role =>
          exact (h h0).frame rfl (fun _ => id) (spawned (by simp [offerDrop, ThreadOp.Binds])) rfl
            same
      | fromGrant g =>
          exact (h h0).frame rfl (fun _ => id) (spawned (by simp [ThreadOp.Binds])) rfl same
      | install m g =>
          exact (h h0).frame rfl (fun _ => id) (spawned (by simp [ThreadOp.Binds])) rfl same
      | relinquish c =>
          refine (h h0).frame rfl (fun _ => id) (spawned ?_) rfl same
          simp [Consumer.dropResources, ThreadOp.Binds]
      | dropConsumer c =>
          refine (h h0).frame rfl (fun _ => id) (spawned ?_) rfl same
          simp [Consumer.dropResources, ThreadOp.Binds]
      | bind t =>
          exact (h h0).frame rfl (fun _ => id) (spawned (by simp [ThreadOp.Binds])) rfl same
      | begin client request => exact (h h0).frame rfl (fun _ => id) kept rfl same
      | call t _ hx hs =>
          obtain ⟨call, -, ⟨pc, -, rfl⟩ | ⟨o, -, rfl⟩ | ⟨c, idx, k, m, x, -, -, -, rfl⟩⟩ :=
            Incarnation.callStep_shape hs
          · exact (h h0).frame rfl (fun _ => id) kept rfl same
          · exact (h h0).frame rfl (fun _ => id) kept rfl same
          · refine (h h0).frame rfl (fun _ => id) kept rfl ?_
            intro j w hw
            by_cases hjk : j = k
            · subst hjk
              simp only [Function.update_self, Option.some.injEq] at hw
              subst hw
              exact Or.inl rfl
            · simp only [ne_eq, hjk, not_false_eq_true, Function.update_of_ne] at hw
              exact same j w hw
      | use k u e _ hx hu hs =>
          have hobs : inc'.observer = inc.observer := by
            cases Incarnation.useActs_of_step hs <;> rfl
          exact (h (hobs ▸ h0)).useStep hu hs
      | release k u hx hu =>
          exact (h h0).frame rfl (fun _ => id) kept rfl (setUse_handoff hu rfl)
      | defer k t v e u m hx hu hpc hm hsrc =>
          have hobs : inc.observer.timelines = 0 := by
            rw [← h0, Incarnation.handoff]
            split_ifs <;> rfl
          rw [(h hobs).sources t] at hsrc
          cases hsrc
      | retryRetirement => exact (h h0).frame rfl (fun _ => id) kept rfl same
      | workerPoll => exact (h h0).frame rfl (fun _ => id) kept rfl same
      | wait observed interest => exact (h h0).frame rfl (fun _ => id) kept rfl same
      | waiter w e _ hx hw hs =>
          obtain ⟨waiter, interest, bytes, rfl⟩ := Incarnation.waiterStep_shape hs
          exact (h h0).frame rfl (fun _ => id) kept rfl same
      | thread t e _ hs =>
          have hobs : inc'.observer = inc.observer := by
            obtain ⟨op, rest, role, i, next, -, -, hop, rfl⟩ := Incarnation.threadStep_shape hs
            obtain ⟨a, q, c, ms, g, maps, consumer, todo, sources, w, returns, rfl, -⟩ :=
              ThreadOp.exec_shape hop
            rfl
          exact (h (hobs ▸ h0)).threadStep hs
      | retire e _ hs =>
          have hobs : inc.observer.timelines = 0 := by
            obtain ⟨op, rest, -, -, rfl⟩ := Incarnation.retireStep_shape hs
            have := op.exec_observer e
              { inc with retirement := { inc.retirement with todo := rest } }
            simpa [this] using h0
          exact (h hobs).retireStep hs
      | observe e _ hs =>
          have hobs : inc.observer.timelines = 0 := by
            obtain ⟨op, rest, -, rfl⟩ := Incarnation.observeStep_shape hs
            have := ObserveOp.exec_timelines sh.native e inc op
            simp only at h0
            omega
          exact (h hobs).observeStep hs h0
      | host e _ hs =>
          obtain ⟨op, rest, -, rfl⟩ := Incarnation.hostStep_shape hs
          obtain ⟨a, q, c, ms, g, maps, w, fault, reply, hx⟩ := op.exec_shape e inc
          simp only [hx] at h0 ⊢
          exact (h h0).frame rfl (fun _ => id) kept rfl same
      | observerPoll => exact (h h0).frame rfl (by simp) kept rfl same
      | observerFail => exact (h h0).frame rfl (by simp) kept rfl same
      | exit => exact (h h0).frame rfl (fun _ => id) kept rfl same

end Unregistered

/-! ### Deferred releases over whole runs -/

/-- The observer is at the store of `return_credit` that clears a claim word. -/
def Incarnation.returning (inc : Incarnation) (k : ℕ) : Prop :=
  ∃ atExit rest, inc.observer.todo = .creditClaim k atExit :: rest

namespace Handoffs

variable {native : Bool} {inc inc' : Incarnation}

end Handoffs

namespace Arena

variable {s s' : Arena}

lemma Reachable.handoffs (h : Reachable s) {i : ℕ} {inc : Incarnation}
    (hi : s.incarnations i = some inc) : Handoffs s.shared.native inc :=
  h.incarnation (Q := fun _ _ => True) (fun _ _ _ _ _ => trivial)
    (fun native frames remote g _ _ => Handoffs.new native frames remote g)
    (fun _ _ _ _ hp hm => hp.move hm) i inc hi

lemma Reachable.unregistered (h : Reachable s) {i : ℕ} {inc : Incarnation}
    (hi : s.incarnations i = some inc) : inc.observer.timelines = 0 → Unregistered inc := by
  refine h.incarnation (P := fun _ inc => inc.observer.timelines = 0 → Unregistered inc)
    (Q := fun _ _ => True) (fun _ _ _ _ _ => trivial) ?_ ?_ i inc hi
  · intro native frames remote g _ _ _
    constructor <;> simp [Incarnation.new, ClaimPage.storeMapping]
  · exact fun _ _ _ _ hp hm => Unregistered.move hp hm

/-- What a step does to one incarnation that is there before and after it. -/
lemma Acts.move (h : Ledger s) (hs : s.Acts s') {i : ℕ} {inc inc' : Incarnation}
    (hi : s.incarnations i = some inc) (hi' : s'.incarnations i = some inc') :
    inc' = inc ∨ inc.Move s.shared inc' := by
  cases hs.local h with
  | same heq =>
      rw [heq, hi, Option.some.injEq] at hi'
      exact Or.inl hi'.symm
  | moved j jnc jnc' hj hm _ heq =>
      rw [heq] at hi'
      by_cases hij : i = j
      · subst hij
        rw [hi, Option.some.injEq] at hj
        rw [Function.update_self, Option.some.injEq] at hi'
        subst hj hi'
        exact Or.inr hm
      · rw [Function.update_of_ne hij, hi, Option.some.injEq] at hi'
        exact Or.inl hi'.symm
  | admitted j frames remote g hj _ _ _ _ heq =>
      have hij : i ≠ j := by
        rintro rfl
        rw [hi] at hj
        cases hj
      rw [heq, Function.update_of_ne hij, hi, Option.some.injEq] at hi'
      exact Or.inl hi'.symm

/-- Three slots, one of them retained and one in reserve: room for one holder. -/
def smallConfig : ArenaConfig where
  resourceCapacity := 3
  retainedHistory := 1
  producerReserve := 1
  payloadCapacity := 4
  memoryBudget := 65536
  maxIncarnations := 2
  drainTimeout := 1

/-- The producer's thread runs on, with the calls and polls it makes on the first
incarnation. -/
def pump (n : ℕ) : List Label :=
  (List.replicate n [.producer {}, .incarnation 1 (.host {}), .incarnation 1 (.observe {})]).flatten

/-- A label of the first incarnation. -/
def on (l : IncLabel) : Label := .incarnation 1 l

end Arena

end Jackstay.Acquisition
