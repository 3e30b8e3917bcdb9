import Jackstay.Acquisition.Arena.Runs

/-!
What the producer's own code does to the incarnations.

`Arena.Acts` lists the steps of the producer beside those of everybody else, so it does not
say which label made a step. Here the labels are told apart: a step of the producer's thread,
or a call of the host, takes an idle observer's mutex, changes what only the producer keeps
there, or starts a call on an idle page (`Incarnation.Attended`). Whatever else happens to an
incarnation is a step of its own.
-/

namespace Jackstay.Acquisition

/-- **What the producer's code does to an incarnation.** -/
inductive Incarnation.Attended (inc : Incarnation) : Incarnation → Prop
  | observer (o : Observer) : o.todo = inc.observer.todo ∨
      inc.observer.todo = [] ∧ (o.todo = [.process] ∨ o.todo = [.register]) →
      Attended inc { inc with observer := o }
  | call (op : HostOp) : inc.host = [] → op.Starts →
      Attended inc { inc with host := [op], hostFault := false, reply := .done }

lemma Incarnation.Attended.refl (inc : Incarnation) : inc.Attended inc :=
  .observer inc.observer (.inl rfl)

/-- The claims are left alone. -/
lemma Incarnation.Attended.uses {inc inc' : Incarnation} (h : inc.Attended inc') :
    inc'.uses = inc.uses := by
  cases h <;> rfl

namespace Arena

variable {a b : Arena}

/-- The incarnations are attended, or new. -/
def Attends (a b : Arena) : Prop :=
  ∀ i inc inc', a.incarnations i = some inc → b.incarnations i = some inc' → inc.Attended inc'

lemma Attends.of_eq (h : b.incarnations = a.incarnations) : Attends a b := by
  intro i inc inc' hi hi'
  rw [h, hi, Option.some.injEq] at hi'
  exact hi' ▸ .refl inc

/-- The producer attends to one incarnation. -/
lemma Attends.of_onPage {i : ℕ} {f : Incarnation → Incarnation}
    (h : b.incarnations = (a.onPage i f).incarnations)
    (hf : ∀ inc, a.incarnations i = some inc → inc.Attended (f inc)) : Attends a b := by
  intro j inc inc' hj hj'
  rw [h, onPage] at hj'
  by_cases hji : j = i
  · subst hji
    simp only [Function.update_self, hj, Option.map_some, Option.some.injEq] at hj'
    exact hj' ▸ hf inc hj
  · simp only [Function.update_of_ne hji, hj, Option.some.injEq] at hj'
    exact hj' ▸ .refl inc

/-- The producer starts a call on a page. -/
lemma Attends.of_callPage (hl : Ledger a) (hcall : a.producer.pc.calling = none) {i : ℕ}
    {op : HostOp} (hop : op.Starts)
    (h : b.incarnations = (a.callPage i [op]).incarnations) : Attends a b :=
  .of_onPage h fun _ hi => .call op (hl.silent hcall hi) hop

lemma scanFrom_incarnations (s : Arena) (w : Writer) (off : ℕ) :
    (s.scanFrom w off).incarnations = s.incarnations := by
  simp only [scanFrom]
  split_ifs <;> rfl

lemma found_incarnations (s : Arena) (off : ℕ) (w : Writer) :
    (s.found off w).incarnations = s.incarnations := by
  rw [found_eq]
  rfl

lemma claimsFrom_incarnations (s : Arena) (i k : ℕ) (todo : List ℕ) (goal : Goal) :
    (s.claimsFrom i k todo goal).incarnations = s.incarnations := by
  rw [claimsFrom]
  split_ifs
  · exact collect_incarnations s i todo goal
  · rfl

/-- A step of `poll_cleanup`. -/
lemma cleanupStep_attends {e : Env} {goal : Goal} {c : CleanupPc}
    (hs : a.cleanupStep e goal c = some b) : Attends a b := by
  cases c with
  | observers todo =>
      cases todo with
      | nil =>
          cases hs
          exact .of_eq rfl
      | cons i todo =>
          simp only [cleanupStep, Option.bind_eq_bind, Option.bind_eq_some_iff] at hs
          obtain ⟨inc, hi, hs⟩ := hs
          split_ifs at hs with ho
          cases hs
          refine .of_onPage rfl fun jnc hj => .observer _ (.inr ⟨?_, .inl rfl⟩)
          rw [hi, Option.some.injEq] at hj
          exact hj ▸ ho
  | polling i todo =>
      simp only [cleanupStep, Option.bind_eq_bind, Option.bind_eq_some_iff] at hs
      obtain ⟨inc, -, hs⟩ := hs
      split_ifs at hs
      cases hs
      exact .of_onPage rfl fun _ _ => .observer _ (.inl rfl)
  | quiescent todo =>
      cases todo with
      | nil =>
          cases hs
          exact .of_eq rfl
      | cons i todo =>
          simp only [cleanupStep, Option.bind_eq_bind, Option.bind_eq_some_iff] at hs
          obtain ⟨inc, -, hs⟩ := hs
          cases hs
          exact .of_eq rfl
  | mapping i m todo =>
      simp only [cleanupStep, Option.bind_eq_bind, Option.bind_eq_some_iff] at hs
      obtain ⟨inc, -, hs⟩ := hs
      cases hs
      refine .of_eq ?_
      split_ifs
      · rfl
      · rfl
      · exact claimsFrom_incarnations a i 0 todo goal
  | claim i k todo =>
      simp only [cleanupStep, Option.bind_eq_bind, Option.bind_eq_some_iff] at hs
      obtain ⟨inc, -, hs⟩ := hs
      cases hs
      refine .of_eq ?_
      split_ifs
      · rfl
      · exact claimsFrom_incarnations a i (k + 1) todo goal
  | remove i todo =>
      simp only [cleanupStep, Option.bind_eq_bind, Option.bind_eq_some_iff] at hs
      obtain ⟨inc, -, hs⟩ := hs
      split_ifs at hs
      cases hs
      exact .of_onPage rfl fun _ _ => .observer _ (.inl rfl)
  | retired index =>
      simp only [cleanupStep] at hs
      split at hs <;> cases hs <;> exact .of_eq rfl
  | probe index probes =>
      cases probes with
      | nil =>
          cases hs
          exact .of_eq rfl
      | cons p probes =>
          simp only [cleanupStep, Option.bind_eq_bind, Option.bind_eq_some_iff] at hs
          obtain ⟨r, -, hs⟩ := hs
          cases p <;>
            (obtain ⟨inc, -, hs⟩ := Option.bind_eq_some_iff.mp hs
             cases hs
             exact .of_eq rfl)
  | count index =>
      simp only [cleanupStep, Option.bind_eq_bind, Option.bind_eq_some_iff] at hs
      obtain ⟨r, -, hs⟩ := hs
      cases hs
      refine .of_eq ?_
      split_ifs
      · rfl
      · rfl
      · exact reclaim_incarnations a index r.generation goal
  | ready index =>
      simp only [cleanupStep, Option.bind_eq_bind, Option.bind_eq_some_iff] at hs
      obtain ⟨r, -, hs⟩ := hs
      cases hs
      refine .of_eq ?_
      split_ifs
      · rfl
      · rfl
      · exact reclaim_incarnations _ index r.generation goal

/-- A step of a loop over the claim pages, or of a call on one of them. -/
lemma pagesStep_attends {e : Env} (hl : Ledger a)
    (hs : a.pagesStep e a.producer.pc = some b) : Attends a b := by
  cases hpc : a.producer.pc with
  | terminate after =>
      rw [hpc] at hs
      cases hs
      exact .of_eq rfl
  | pages call todo after =>
      rw [hpc] at hs
      cases todo with
      | nil =>
          cases hs
          cases after with
          | close i => exact .of_eq (close_incarnations hl i)
          | _ => exact .of_eq rfl
      | cons i todo =>
          cases hs
          refine .of_callPage hl (by rw [hpc]; rfl) ?_ rfl
          cases call <;> trivial
  | paged call i todo after =>
      simp only [hpc, pagesStep, Option.bind_eq_bind, Option.bind_eq_some_iff] at hs
      obtain ⟨inc, -, hs⟩ := hs
      split_ifs at hs
      · cases after <;> cases hs <;> exact .of_eq rfl
      · cases hs
        exact .of_eq rfl
  | offering i =>
      simp only [hpc, pagesStep, Option.bind_eq_bind, Option.bind_eq_some_iff] at hs
      obtain ⟨inc, -, hs⟩ := hs
      split_ifs at hs
      cases hs
      refine .of_eq ?_
      split <;> rfl
  | registering i =>
      simp only [hpc, pagesStep, Option.bind_eq_bind, Option.bind_eq_some_iff] at hs
      obtain ⟨inc, hi, hs⟩ := hs
      split_ifs at hs with hhost htodo <;> split at hs
      · cases hs
        exact .of_eq rfl
      · cases hs
        refine .of_onPage rfl fun jnc hj => .observer _ (.inr ⟨?_, .inr rfl⟩)
        rw [hi, Option.some.injEq] at hj
        exact hj ▸ htodo
      · cases hs
        exact .of_eq rfl
      · cases hs
  | registered i =>
      simp only [hpc, pagesStep, Option.bind_eq_bind, Option.bind_eq_some_iff] at hs
      obtain ⟨inc, -, hs⟩ := hs
      split_ifs at hs
      cases hs
      refine .of_eq ?_
      split <;> rfl
  | retrying i =>
      simp only [hpc, pagesStep, Option.bind_eq_bind, Option.bind_eq_some_iff] at hs
      obtain ⟨inc, -, hs⟩ := hs
      split_ifs at hs
      · cases hs
        exact .of_eq rfl
      all_goals
        cases hs
        exact .of_onPage rfl fun _ _ => .observer _ (.inl rfl)
  | exporting =>
      simp only [hpc, pagesStep, Option.some.injEq] at hs
      subst hs
      refine .of_eq ?_
      split_ifs
      · rfl
      · split
        · rfl
        · split_ifs <;> rfl
  | dropping todo =>
      rw [hpc] at hs
      cases todo with
      | nil =>
          cases hs
          exact .of_eq rfl
      | cons i todo =>
          simp only [pagesStep, Option.bind_eq_bind, Option.bind_eq_some_iff] at hs
          obtain ⟨inc, -, hs⟩ := hs
          split_ifs at hs
          cases hs
          exact .of_onPage rfl fun _ _ => .observer _ (.inl rfl)
  | _ =>
      rw [hpc] at hs
      cases hs

/-- The rest of a call after `poll_cleanup`. -/
lemma resume_attends {e : Env} {goal : Goal} (hl : Ledger a)
    (hpc : a.producer.pc = .resume goal) : Attends a (a.resume e goal) := by
  cases goal with
  | publish source =>
      refine .of_eq ?_
      simp only [resume]
      split
      · rfl
      · split_ifs
        · rfl
        · rfl
        · exact scanFrom_incarnations a _ 0
  | reserve =>
      refine .of_eq ?_
      simp only [resume]
      split_ifs
      · rfl
      · split <;> rfl
      · split
        · rfl
        · exact scanFrom_incarnations a _ 0
  | attach holding remote =>
      obtain ⟨o, heq⟩ | ⟨book', o, -, -, -, -, heq⟩ | ⟨book', g, r, -, -, -, -, -, -, -, heq⟩ :=
        hl.attach_spec (by rw [hpc]; rfl) e holding remote
      · exact .of_eq (by rw [resume, heq]; rfl)
      · exact .of_eq (by rw [resume, heq]; rfl)
      · intro i inc inc' hi hi'
        have hne : i ≠ a.producer.admission.nextIncarnation :=
          fun h0 => (lt_irrefl _ (h0 ▸ hl.issued i inc hi))
        simp only [resume, heq, Function.update_of_ne hne, hi, Option.some.injEq] at hi'
        exact hi' ▸ .refl inc
  | advance => exact .of_eq (advance_incarnations hl e)
  | poll => exact .of_eq rfl
  | shutdown => exact .of_eq rfl

/-- A step of a slot scan. -/
lemma scanStep_incarnations {pc : Pc} (hs : a.scanStep pc = some b) :
    b.incarnations = a.incarnations := by
  cases pc with
  | scan w off =>
      cases hs
      split_ifs
      · exact scanFrom_incarnations a w (off + 1)
      · rfl
  | scanState w off =>
      cases hs
      split_ifs
      · exact scanFrom_incarnations a w (off + 1)
      · rfl
  | scanRetire w off generation =>
      cases hs
      split_ifs
      · exact found_incarnations _ off w
      · rfl
  | scanClaims w off generation probes =>
      cases probes with
      | nil =>
          cases hs
          exact found_incarnations a off w
      | cons p probes =>
          simp only [scanStep, Option.bind_eq_bind, Option.bind_eq_some_iff] at hs
          obtain ⟨inc, -, hs⟩ := hs
          cases hs
          split_ifs
          · exact scanFrom_incarnations a w (off + 1)
          · rfl
  | reserveFlag index =>
      cases hs
      rfl
  | _ => cases hs

/-- A step of a publication. -/
lemma publishStep_incarnations {e : Env} {pc : Pc} (hs : a.publishStep e pc = some b) :
    b.incarnations = a.incarnations := by
  cases pc with
  | prepare off =>
      cases hs
      split_ifs
      · rfl
      · exact scanFrom_incarnations a (.publish .native) (off + 1)
      · rfl
  | commit g index descriptor =>
      cases hs
      split_ifs <;> rfl
  | copy | describe | store | ring | latest | release =>
      cases hs
      rfl
  | _ => cases hs

/-- A step of a reconfiguration. -/
lemma reconfigureStep_incarnations (hl : Ledger a)
    (hs : a.reconfigureStep a.producer.pc = some b) : b.incarnations = a.incarnations := by
  cases hpc : a.producer.pc <;> rw [hpc] at hs <;>
    simp only [reconfigureStep, reduceCtorEq, Option.some.injEq] at hs
  case begin payloadCapacity externalBytes =>
    subst hs
    exact begin_incarnations hl (by rw [hpc]; rfl) payloadCapacity externalBytes
  all_goals
    subst hs
    first | rfl | (split_ifs <;> rfl)

/-- **The producer's thread attends to the incarnations.** -/
lemma producerStep_attends {e : Env} (hl : Ledger a) (hs : a.producerStep e = some b) :
    Attends a b := by
  cases hpc : a.producer.pc with
  | idle | panicked | gone =>
      simp only [producerStep, hpc] at hs
      cases hs
  | terminal goal =>
      simp only [producerStep, hpc, Option.some.injEq] at hs
      subst hs
      refine .of_eq ?_
      split_ifs <;> rfl
  | cleanup c goal =>
      simp only [producerStep, hpc] at hs
      exact cleanupStep_attends hs
  | resume goal =>
      simp only [producerStep, hpc, Option.some.injEq] at hs
      subst hs
      exact resume_attends hl hpc
  | shutdown =>
      simp only [producerStep, hpc, Option.some.injEq] at hs
      subst hs
      exact .of_eq rfl
  | scan | scanState | scanRetire | scanClaims | reserveFlag =>
      simp only [producerStep, hpc] at hs
      exact .of_eq (scanStep_incarnations hs)
  | prepare | copy | describe | store | ring | latest | commit | release =>
      simp only [producerStep, hpc] at hs
      exact .of_eq (publishStep_incarnations hs)
  | begin | unconfigure | unpublishLoad | unpublish | firstCursor | configure | epochLoad
  | epoch =>
      simp only [producerStep, hpc] at hs
      exact .of_eq (reconfigureStep_incarnations hl (by rw [hpc]; exact hs))
  | _ =>
      simp only [producerStep, hpc] at hs
      exact pagesStep_attends hl (by rw [hpc]; exact hs)

/-- A call of the host attends to the incarnations. -/
lemma begin_attends {op : Op} (hl : Ledger a) (hpc : a.producer.pc = .idle)
    (hs : a.begin op = some b) : Attends a b := by
  cases op with
  | publish source =>
      cases source with
      | cpu =>
          cases hs
          exact .of_eq rfl
      | native =>
          simp only [begin, Option.some.injEq] at hs
          split_ifs at hs <;> subst hs <;> exact .of_eq rfl
  | commit g index descriptor =>
      simp only [begin] at hs
      split_ifs at hs
      cases hs
      exact .of_eq rfl
  | configurationOffer i =>
      simp only [begin, Option.some.injEq] at hs
      split_ifs at hs <;> subst hs
      · refine .of_callPage hl (by rw [hpc]; rfl) ?_ rfl
        cases hg : a.producer.resources with
        | none => trivial
        | some g => exact (hl.current g hg).1
      · exact .of_eq rfl
  | registerReleaseTimeline i =>
      simp only [begin, Option.some.injEq] at hs
      split_ifs at hs <;> subst hs
      · refine .of_callPage hl (by rw [hpc]; rfl) ?_ rfl
        trivial
      · exact .of_eq rfl
  | reserve | close | reconfigureCpu | reconfigureNative | retryCleanup | exportWriter =>
      simp only [begin, Option.some.injEq] at hs
      split_ifs at hs <;> subst hs <;> exact .of_eq rfl
  | _ =>
      cases hs
      exact .of_eq rfl

/-- **Whatever is not a step of an incarnation attends to it.** -/
theorem attends_of_step {l : Label} (hl : Ledger a) (hl' : ∀ i m, l ≠ .incarnation i m)
    (hs : a.step l = some b) : Attends a b := by
  cases l with
  | call op =>
      rw [step] at hs
      split_ifs at hs with hpc
      exact begin_attends hl hpc hs
  | producer e => exact producerStep_attends hl hs
  | incarnation i m => exact absurd rfl (hl' i m)
  | write | abandon | releaseMap | dropExport =>
      simp only [step] at hs
      split_ifs at hs
      cases hs
      exact .of_eq rfl

end Arena

end Jackstay.Acquisition
