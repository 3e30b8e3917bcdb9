import Jackstay.Acquisition.Arena.Monotone

/-!
The incarnations that the producer no longer tracks.

* `Incarnation.Drains n`: the page is quiescent and its first `n` claim slots are empty.
  No move undoes this (`Drains.move`).
* `Tracking`: what `collect_quiescent` has loaded of an incarnation still holds when it
  acts on it, so an incarnation that has left `claims` has no claim and makes none.
-/

namespace Jackstay.Acquisition

/-- The page is quiescent and the claim slots below `n` are empty. -/
structure Incarnation.Drains (n : ℕ) (inc : Incarnation) : Prop where
  quiescent : inc.page.quiescent ≠ 0
  empty : ∀ k, k < n → inc.uses k = none

/-- What `collect_quiescent` knows of the incarnation it looks at. -/
def CleanupPc.Knows (s : Arena) : CleanupPc → Prop
  | .mapping i _ _ => ∀ inc, s.incarnations i = some inc → inc.Drains 0
  | .claim i k _ => ∀ inc, s.incarnations i = some inc → inc.Drains k
  | .remove i _ => ∀ inc, s.incarnations i = some inc → ∀ n, inc.Drains n
  | _ => True

/-- The same for the producer. -/
def Pc.Knows (s : Arena) : Pc → Prop
  | .cleanup c _ => c.Knows s
  | _ => True

/-- **The invariant of the tracked incarnations.** -/
structure Tracking (s : Arena) : Prop where
  left : ∀ i inc, s.incarnations i = some inc → i ∉ s.producer.claims → ∀ n, inc.Drains n
  knows : s.producer.pc.Knows s

namespace Incarnation

variable {sh : Shared} {inc inc' : Incarnation} {n : ℕ}

lemma Drains.move (h : inc.Drains n) (hh : Handoffs sh.native inc) (hb : Borrowed inc)
    (hl : Lifetime inc) (hm : inc.Move sh inc') : inc'.Drains n :=
  ⟨hm.advances.quiescent h.quiescent,
    fun k hk => no_claim hh hb hl h.quiescent hm (h.empty k hk)⟩

/-- Behind the last claim slot there is nothing to find. -/
lemma Drains.all (h : inc.Drains n) {native : Bool} (hh : Handoffs native inc)
    (hn : inc.frames ≤ n) (m : ℕ) : inc.Drains m := by
  refine ⟨h.quiescent, fun k _ => ?_⟩
  rcases lt_or_ge k n with hk | hk
  · exact h.empty k hk
  · exact (hh.range k (by omega)).1

/-- An empty claim word belongs to an empty claim slot. -/
lemma Drains.succ (h : inc.Drains n) {native : Bool} (hh : Handoffs native inc)
    (hn : (inc.page.slot n).claim = 0) : inc.Drains (n + 1) := by
  refine ⟨h.quiescent, fun k hk => ?_⟩
  rcases Nat.lt_succ_iff_lt_or_eq.mp hk with hk | rfl
  · exact h.empty k hk
  · by_contra hne
    obtain ⟨u, hu⟩ := Option.ne_none_iff_exists'.mp hne
    have hused := hh.used k u hu
    omega

end Incarnation

namespace Tracking

variable {s s' : Arena}

/-- What holds of an incarnation in every move holds of it after every step. -/
lemma drains_of_acts (hr : Arena.Reachable s) (hs : s.Acts s') {i : ℕ} {n : ℕ}
    (h : ∀ inc, s.incarnations i = some inc → inc.Drains n) {inc inc' : Incarnation}
    (hi : s.incarnations i = some inc) (hi' : s'.incarnations i = some inc') : inc'.Drains n := by
  obtain ⟨hb, hl⟩ := hr.lifetime i inc hi
  rcases hs.move hr.ledger hi hi' with rfl | hm
  · exact h inc' hi
  · exact (h inc hi).move (hr.handoffs hi) hb hl hm

/-- An incarnation that is new is tracked. -/
lemma tracked_of_new (hl : Ledger s) (hs : s.Acts s') {i : ℕ} {inc' : Incarnation}
    (hi : s.incarnations i = none) (hi' : s'.incarnations i = some inc') :
    i ∈ s'.producer.claims := by
  have same : s'.incarnations = s.incarnations → i ∈ s'.producer.claims := by
    intro heq
    rw [heq, hi] at hi'
    cases hi'
  have page : ∀ (j : ℕ) (f : Incarnation → Incarnation),
      s'.incarnations = (s.onPage j f).incarnations → i ∈ s'.producer.claims := by
    intro j f heq
    rw [heq] at hi'
    by_cases hij : i = j
    · subst hij
      simp only [Arena.onPage, Function.update_self, hi, Option.map_none, reduceCtorEq] at hi'
    · simp only [Arena.onPage, Function.update_of_ne hij, hi, reduceCtorEq] at hi'
  cases hs with
  | incarnation j inc inc'' hj ha =>
      have hij : i ≠ j := by
        rintro rfl
        rw [hi] at hj
        cases hj
      simp only [Function.update_of_ne hij, hi, reduceCtorEq] at hi'
  | offerCall j => exact page j _ rfl
  | registerCall j => exact page j _ rfl
  | page call j => exact page j _ rfl
  | observe j => exact page j _ rfl
  | observed j => exact page j _ rfl
  | remove j => exact page j _ rfl
  | register j => exact page j _ rfl
  | retry j => exact page j _ rfl
  | dropObserver j => exact page j _ rfl
  | collect j todo goal => exact same (Arena.collect_incarnations s j todo goal)
  | reclaim index goal r => exact same (Arena.reclaim_incarnations s index r.generation goal)
  | ready index goal r => exact same (Arena.reclaim_incarnations _ index r.generation goal)
  | attach e holding remote hpc =>
      obtain ⟨o, heq⟩ | ⟨book', o, -, -, -, -, heq⟩ | ⟨book', g, r, -, -, -, -, -, -, -, heq⟩ :=
        hl.attach_spec (by rw [hpc]; rfl) e holding remote
      · exact same (by rw [heq]; rfl)
      · exact same (by rw [heq]; rfl)
      · rw [heq] at hi' ⊢
        by_cases hij : i = s.producer.admission.nextIncarnation
        · exact List.mem_append_right _ (List.mem_singleton.mpr hij)
        · simp only [Function.update_of_ne hij, hi, reduceCtorEq] at hi'
  | advance e => exact same (Arena.advance_incarnations hl e)
  | begin payloadCapacity externalBytes hpc =>
      exact same (Arena.begin_incarnations hl (by rw [hpc]; rfl) payloadCapacity externalBytes)
  | close call j => exact same (Arena.close_incarnations hl j)
  | _ => exact same rfl

/-- What the producer knows of tracked incarnations it knows after every step. -/
lemma knows_of_acts (hr : Arena.Reachable s) (hs : s.Acts s') {pc : Pc} (h : pc.Knows s)
    (hvisits : pc.visits.Sublist s.producer.claims) : pc.Knows s' := by
  have keep : ∀ i n, i ∈ pc.visits → (∀ inc, s.incarnations i = some inc → inc.Drains n) →
      ∀ inc', s'.incarnations i = some inc' → inc'.Drains n := by
    intro i n hi hn inc' hi'
    obtain ⟨inc, hinc, -⟩ := hr.ledger.tracked i (hvisits.subset hi)
    exact drains_of_acts hr hs hn hinc hi'
  cases pc with
  | cleanup c goal =>
      cases c with
      | mapping i m todo => exact keep i 0 List.mem_cons_self h
      | claim i k todo => exact keep i k List.mem_cons_self h
      | remove i todo =>
          exact fun inc' hi' n => keep i n List.mem_cons_self (fun inc hi => h inc hi n) inc' hi'
      | _ => trivial
  | _ => trivial

/-- Steps that leave the list of tracked incarnations, and come from or go to a place
where the producer knows what it has to. -/
lemma frame (h : Tracking s) (hr : Arena.Reachable s) (hs : s.Acts s')
    (hclaims : s'.producer.claims = s.producer.claims) (hpc : s'.producer.pc.Knows s')  :
    Tracking s' := by
  refine ⟨fun i inc' hi' hnot n => ?_, hpc⟩
  cases hi : s.incarnations i with
  | none => exact absurd (tracked_of_new hr.ledger hs hi hi') hnot
  | some inc =>
      refine drains_of_acts hr hs (fun jnc hj => ?_) hi hi'
      exact h.left i jnc hj (hclaims ▸ hnot) n

/-- What the producer reads on its way. -/
lemma knows_of_flows (h : Tracking s) (hr : Arena.Reachable s) {pc : Pc}
    (hf : s.producer.pc.Flows s pc) : pc.Knows s := by
  have hknows := h.knows
  have scans : ∀ w off, (Pc.scans s w off).Knows s := by
    intro w off
    rw [Pc.scans]
    split_ifs <;> trivial
  have finds : ∀ off w, (Pc.finds s off w).Knows s := by
    intro off w
    cases w with
    | publish source => cases source <;> trivial
    | reserve => trivial
  generalize s.producer.pc = pc₀ at hf hknows
  cases hf with
  | publish => exact scans _ _
  | reserve => exact scans _ _
  | reserved => exact scans _ _
  | retained => exact scans _ _
  | claimed => exact scans _ _
  | prepareSkipped => exact scans _ _
  | found => exact finds _ _
  | clean c c' goal hc =>
      cases hc with
      | acknowledged i todo inc hi hq =>
          intro jnc hj
          rw [hi, Option.some.injEq] at hj
          subst hj
          exact ⟨hq, fun k hk => absurd hk (Nat.not_lt_zero k)⟩
      | unmapped => exact hknows
      | allUnmapped => exact hknows
      | unclaimed i k todo inc hi hk =>
          intro jnc hj
          have hdrains := hknows jnc hj
          rw [hi, Option.some.injEq] at hj
          subst hj
          exact hdrains.succ (hr.handoffs hi) hk
      | _ => trivial
  | _ => trivial

/-- `collect_quiescent` has found the incarnation drained. -/
lemma drains (h : Tracking s) (hr : Arena.Reachable s) {i : ℕ} {todo : List ℕ} {goal : Goal}
    (hd : s.Drained i todo goal) : ∀ inc, s.incarnations i = some inc → ∀ n, inc.Drains n := by
  obtain ⟨inc, hi, hpc⟩ := hd
  have hknows := h.knows
  intro jnc hj n
  rcases hpc with ⟨m, hpc, -, -, hframes⟩ | ⟨k, hpc, hclaim, hframes⟩
  · rw [hpc] at hknows
    have hdrains := hknows jnc hj
    rw [hi, Option.some.injEq] at hj
    subst hj
    exact hdrains.all (hr.handoffs hi) (by omega) n
  · rw [hpc] at hknows
    have hdrains := hknows jnc hj
    rw [hi, Option.some.injEq] at hj
    subst hj
    exact (hdrains.succ (hr.handoffs hi) hclaim).all (hr.handoffs hi) (by omega) n

/-- **Every step keeps track.** -/
theorem acts (h : Tracking s) (hr : Arena.Reachable s) (hs : s.Acts s') : Tracking s' := by
  have hvisits := hr.ledger.visits
  have same : s'.producer = s.producer → Tracking s' := by
    intro hp
    refine h.frame hr hs (by rw [hp]) ?_
    rw [hp]
    exact knows_of_acts hr hs h.knows hvisits
  have ha := hs
  cases hs with
  | incarnation i inc inc' hi hact => exact same rfl
  | write g index bytes => exact same rfl
  | abandon g index => exact same rfl
  | releaseMap g => exact same rfl
  | dropExport g => exact same rfl
  | flow pc outcome released hf =>
      refine h.frame hr ha rfl (knows_of_acts hr ha ?_ (hf.quiet.2.2.2.2 hvisits))
      exact knows_of_flows h hr hf
  | collect i todo goal hd =>
      obtain ⟨hi, hrem, -⟩ := hr.ledger.drained hd
      obtain ⟨book', -, -, -, -, heq⟩ := hr.ledger.collect_spec hi hrem todo goal
      refine h.frame hr ha (by rw [heq]; rfl) ?_
      rw [heq]
      exact h.drains hr hd
  | remove i todo goal inc hpc hi ho =>
      have hknows := h.knows
      rw [hpc] at hknows
      refine ⟨fun j jnc' hj' hnot n => ?_, trivial⟩
      cases hj : s.incarnations j with
      | none => exact absurd (tracked_of_new hr.ledger ha hj hj') hnot
      | some jnc =>
          refine drains_of_acts hr ha (fun knc hk => ?_) hj hj'
          by_cases hji : j = i
          · subst hji
            exact hknows knc hk n
          · refine h.left j knc hk (fun hmem => hnot ?_) n
            exact List.mem_filter.mpr ⟨hmem, by simpa using hji⟩
  | attach e holding remote hpc =>
      obtain ⟨o, heq⟩ | ⟨book', o, -, -, -, -, heq⟩ | ⟨book', g, r, -, -, -, -, -, -, -, heq⟩ :=
        hr.ledger.attach_spec (by rw [hpc]; rfl) e holding remote
      · exact h.frame hr ha (by rw [heq]; rfl) (by rw [heq]; trivial)
      · exact h.frame hr ha (by rw [heq]; rfl) (by rw [heq]; trivial)
      · refine ⟨fun j jnc' hj' hnot n => ?_, by rw [heq]; trivial⟩
        cases hj : s.incarnations j with
        | none => exact absurd (tracked_of_new hr.ledger ha hj hj') hnot
        | some jnc =>
            refine drains_of_acts hr ha (fun knc hk => h.left j knc hk (fun hmem => hnot ?_) n) hj hj'
            rw [heq]
            exact List.mem_append_left _ hmem
  | reclaim index goal r hpc hget =>
      obtain ⟨_, _, _, _, _, _, _, heq⟩ := hr.ledger.reclaim_spec (by rw [hpc]; rfl) hget goal
      exact h.frame hr ha (by rw [heq]) (by rw [heq]; trivial)
  | ready index goal r hpc hget =>
      obtain ⟨_, _, _, _, _, _, _, heq⟩ := (hr.ledger.ready r.generation).reclaim_spec
        (by rw [Arena.onMap_producer, hpc]; rfl) hget goal
      exact h.frame hr ha (by rw [heq]; rfl) (by rw [heq]; trivial)
  | advance e hpc =>
      obtain ⟨o, heq⟩ | ⟨book', o, -, -, -, -, -, -, heq⟩ |
        ⟨book', layout, n, -, -, -, -, -, -, -, heq⟩ := hr.ledger.advance_spec e
      · exact h.frame hr ha (by rw [heq]; rfl) (by rw [heq]; trivial)
      · exact h.frame hr ha (by rw [heq]; rfl) (by rw [heq]; trivial)
      · exact h.frame hr ha (by rw [heq]) (by rw [heq]; trivial)
  | begin payloadCapacity externalBytes hpc =>
      obtain ⟨o, heq⟩ | ⟨layout, book', g, -, -, -, -, -, -, -, -, -, -, -, heq⟩ :=
        hr.ledger.begin_spec (by rw [hpc]; rfl) payloadCapacity externalBytes <;>
          exact h.frame hr ha (by rw [heq]; rfl) (by rw [heq]; trivial)
  | close call i hpc =>
      obtain ⟨e, heq⟩ | ⟨book', -, -, -, -, heq⟩ := hr.ledger.close_spec i <;>
        exact h.frame hr ha (by rw [heq]; rfl) (by rw [heq]; trivial)
  | retire w off generation hpc =>
      refine h.frame hr ha rfl ?_
      rw [Arena.goto]
      split_ifs
      · cases w with
        | publish source => cases source <;> trivial
        | reserve => trivial
      · trivial
  | _ => exact h.frame hr ha rfl trivial

end Tracking

/-- **The producer keeps track in every reachable arena.** -/
theorem Arena.Reachable.tracking {s : Arena} (h : Reachable s) : Tracking s := by
  refine h.induct ?_ fun _ _ ha hp hs => hp.acts ha hs
  intro page config externalBytes native s₀ h₀
  rw [create] at h₀
  obtain ⟨x, -, h₀⟩ := of_bind_ok h₀
  cases h₀
  exact ⟨by rintro i inc ⟨⟩, trivial⟩

end Jackstay.Acquisition
