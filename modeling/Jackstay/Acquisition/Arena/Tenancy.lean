import Jackstay.Acquisition.Arena.Incarnation

/-!
The ownership of mapping slots, apart from the code that hands them on.

A mapping slot has a tenant from the exchange that takes it to the store that clears it:
an unconsumed grant or offer, then a `ConsumerResources`, then a drop. A second word,
`OFFERED_GENERATION`, is stored behind the first and cleared behind it.

* `Tenancy`: the slots with their tenants, the two kinds of words, how far
  `configuration_offer` has got, and the stores that are still to clear the offer.
* `Tenancy.Step`: a tenant becomes the next one, a slot is taken or set free, and the offer
  is stored or cleared.
* `Tenancy.Sound`: a slot's word is the generation of its tenant, and the offer is in one of
  four phases (`Tenancy.Phase`). `Sound.step`: every step keeps it.
* `Tenancy.Step.passes`: a slot gets a new owner only while it has none.
-/

namespace Jackstay.Acquisition

/-- An unconsumed `ConsumerGrant` or `ConfigurationGrant`. -/
def Tenant.unconsumed : Tenant → Bool
  | .grant _ => true
  | .offer _ => true
  | _ => false

/-- **What becomes of a tenant**: a grant or an offer is passed on, consumed or dropped, and a
`ConsumerResources` is unmapped before the store that acknowledges it. -/
inductive Tenant.Next : Tenant → Tenant → Prop
  | grantPassed (p p' : Place) : Next (.grant p) (.grant p')
  | offerPassed (p p' : Place) : Next (.offer p) (.offer p')
  | grantDropped (p : Place) : Next (.grant p) .acknowledging
  | offerDropped (p : Place) : Next (.offer p) .acknowledging
  | granted (p : Place) : Next (.grant p) .mapped
  | installed (p : Place) : Next (.offer p) .mapped
  | dropped : Next .mapped .unmapping
  | unmapped : Next .unmapping .acknowledging

/-- Nothing is offered a second time. -/
lemma Tenant.Next.unconsumed {a b : Tenant} (h : a.Next b) (hb : b.unconsumed = true) :
    a.unconsumed = true := by
  cases h with
  | grantPassed => rfl
  | offerPassed => rfl
  | _ => cases hb

/-- How far `configuration_offer` has got with the offer of a generation: it has been asked
for one, it tries a mapping slot, or it has taken one and not stored `OFFERED_GENERATION`. -/
inductive Stage where
  | idle
  | asked (generation : ℕ)
  | trying (generation m : ℕ)
  | storing (generation m : ℕ)
  deriving DecidableEq, Repr

/-- The mapping slots of a claim page with their tenants. -/
structure Tenancy where
  mapping : ℕ → Option Mapping
  /-- the mapping slots of the page -/
  word : ℕ → ℕ
  /-- `OFFERED_GENERATION` -/
  offered : ℕ
  stage : Stage
  /-- the stores that are still to clear `OFFERED_GENERATION` -/
  ending : ℕ

namespace Tenancy

/-- The mapping slot has an unconsumed grant or offer. -/
def Offers (t : Tenancy) (m : ℕ) : Prop := ∃ x, t.mapping m = some x ∧ x.tenant.unconsumed = true

/-- A tenant becomes the next one; a grant or an offer that ends is still to clear
`OFFERED_GENERATION`. -/
def turn (t : Tenancy) (m g : ℕ) (a b : Tenant) : Tenancy :=
  { t with
    mapping := Function.update t.mapping m (some ⟨g, b⟩)
    ending := t.ending + if a.unconsumed && !b.unconsumed then 1 else 0 }

/-- **What happens to the mapping slots of a page with `n` of them.** -/
inductive Step (n : ℕ) (t : Tenancy) : Tenancy → Prop
  | same : Step n t t
  | turn (m g : ℕ) (a b : Tenant) : t.mapping m = some ⟨g, a⟩ → a.Next b →
      (∀ g', t.stage ≠ .storing g' m) → Step n t (t.turn m g a b)
  | free (m g : ℕ) : t.mapping m = some ⟨g, .acknowledging⟩ →
      Step n t { t with
        mapping := Function.update t.mapping m none
        word := Function.update t.word m 0 }
  | cleared : t.ending ≠ 0 → Step n t { t with offered := 0, ending := t.ending - 1 }
  | asked (g : ℕ) : g ≠ 0 → (∀ g' m, t.stage ≠ .storing g' m) →
      Step n t { t with stage := .asked g }
  | tried (g : ℕ) : t.stage = .asked g → t.offered = 0 → 0 < n →
      Step n t { t with stage := .trying g 0 }
  | retried (g m : ℕ) : t.stage = .trying g m → m + 1 < n →
      Step n t { t with stage := .trying g (m + 1) }
  | taken (g m : ℕ) : t.stage = .trying g m → t.word m = 0 →
      Step n t { t with
        mapping := Function.update t.mapping m (some ⟨g, .offer .call⟩)
        word := Function.update t.word m g
        stage := .storing g m }
  | stored (g m : ℕ) : t.stage = .storing g m → Step n t { t with offered := g, stage := .idle }
  | stopped : (∀ g m, t.stage ≠ .storing g m) → Step n t { t with stage := .idle }

/-! ### The phases of an offer -/

/-- Nothing is offered, and nothing is still to be cleared. -/
structure Quiet (t : Tenancy) : Prop where
  offered : t.offered = 0
  none : ∀ m, ¬ t.Offers m
  ending : t.ending = 0

/-- `configuration_offer` has taken the mapping slot and not announced it. -/
structure Taken (t : Tenancy) (m : ℕ) : Prop where
  stage : ∃ g, t.stage = .storing g m
  offered : t.offered = 0
  one : ∀ n, t.Offers n → n = m
  ending : t.ending = 0

/-- The grant or offer of the mapping slot has been announced and is not consumed. -/
structure Announced (t : Tenancy) (m : ℕ) (x : Mapping) : Prop where
  mapping : t.mapping m = some x
  unconsumed : x.tenant.unconsumed = true
  offered : t.offered = x.generation
  one : ∀ n, t.Offers n → n = m
  ending : t.ending = 0

/-- A grant or offer has ended and one store is still to clear `OFFERED_GENERATION`. -/
structure Ending (t : Tenancy) : Prop where
  offered : t.offered ≠ 0
  none : ∀ m, ¬ t.Offers m
  ending : t.ending = 1

/-- **The four phases.** Only in the second is a slot about to be announced. -/
def Phase (t : Tenancy) : Prop :=
  (∃ m, t.Taken m) ∨
    (∀ g m, t.stage ≠ .storing g m) ∧ (t.Quiet ∨ (∃ m x, t.Announced m x) ∨ t.Ending)

/-- What `configuration_offer` rests on while it is under way. -/
def Fact (n : ℕ) (t : Tenancy) : Stage → Prop
  | .idle => True
  | .asked g => g ≠ 0
  | .trying g m => g ≠ 0 ∧ m < n ∧ t.Quiet
  | .storing g m => t.mapping m = some ⟨g, .offer .call⟩

/-- **The invariant of the mapping slots.** -/
structure Sound (n : ℕ) (t : Tenancy) : Prop where
  word : ∀ m, t.word m = ((t.mapping m).map Mapping.generation).getD 0
  range : ∀ m x, t.mapping m = some x → x.generation ≠ 0 ∧ m < n
  fact : t.Fact n t.stage
  phase : t.Phase

variable {n : ℕ} {t t' : Tenancy}

/-- A slot whose word is zero has no tenant. -/
lemma Sound.mapping_eq_none (h : t.Sound n) {m : ℕ} (hm : t.word m = 0) : t.mapping m = none := by
  by_contra hne
  obtain ⟨x, hx⟩ := Option.ne_none_iff_exists'.mp hne
  have hword := h.word m
  rw [hm, hx, Option.map_some, Option.getD_some] at hword
  exact (h.range m x hx).1 hword.symm

/-- While an offer is being tried nothing else is offered, and no tenant brings an offer back. -/
lemma Quiet.congr (h : t.Quiet) (ho : t'.offered = t.offered)
    (hoffers : ∀ m, t'.Offers m → t.Offers m) (he : t'.ending = t.ending) : t'.Quiet :=
  ⟨ho.trans h.offered, fun m hm => h.none m (hoffers m hm), he.trans h.ending⟩

/-- Only the stage changes, and neither stage is the one between the two stores. -/
lemma Phase.congr (h : t.Phase) (hs : ∀ g m, t.stage ≠ .storing g m)
    (hs' : ∀ g m, t'.stage ≠ .storing g m) (hm : t'.mapping = t.mapping)
    (ho : t'.offered = t.offered) (he : t'.ending = t.ending) : t'.Phase := by
  have hoffers : ∀ m, t'.Offers m → t.Offers m := by
    rintro m ⟨x, hx, hu⟩
    exact ⟨x, hm ▸ hx, hu⟩
  rcases h with ⟨m, hm⟩ | ⟨-, hq | ⟨m, x, ha⟩ | hend⟩
  · obtain ⟨g, hg⟩ := hm.stage
    exact absurd hg (hs g m)
  · exact Or.inr ⟨hs', Or.inl (hq.congr ho hoffers he)⟩
  · refine Or.inr ⟨hs', Or.inr (Or.inl ⟨m, x, ?_⟩)⟩
    exact ⟨hm ▸ ha.mapping, ha.unconsumed, ho.trans ha.offered,
      fun n hn => ha.one n (hoffers n hn), he.trans ha.ending⟩
  · refine Or.inr ⟨hs', Or.inr (Or.inr ?_)⟩
    exact ⟨ho ▸ hend.offered, fun m hm => hend.none m (hoffers m hm), he.trans hend.ending⟩

/-- `OFFERED_GENERATION` is zero, and no slot is about to be announced: nothing is offered. -/
lemma Sound.quiet_of_offered (h : t.Sound n) (hs : ∀ g m, t.stage ≠ .storing g m)
    (ho : t.offered = 0) : t.Quiet := by
  rcases h.phase with ⟨m, hm⟩ | ⟨-, hq | ⟨m, x, ha⟩ | hend⟩
  · obtain ⟨g, hg⟩ := hm.stage
    exact absurd hg (hs g m)
  · exact hq
  · exact absurd (ha.offered.symm.trans ho) (h.range m x ha.mapping).1
  · exact absurd ho hend.offered

/-! ### The steps keep the invariant -/

/-- Which slots have an unconsumed grant or offer after a tenant's turn. -/
lemma offers_turn {m g : ℕ} {a b : Tenant} (hm : t.mapping m = some ⟨g, a⟩) (hab : a.Next b)
    {k : ℕ} (h : (t.turn m g a b).Offers k) :
    t.Offers k ∧ (k = m → b.unconsumed = true) := by
  obtain ⟨x, hx, hu⟩ := h
  by_cases hk : k = m
  · subst hk
    simp only [turn, Function.update_self, Option.some.injEq] at hx
    subst hx
    exact ⟨⟨_, hm, hab.unconsumed hu⟩, fun _ => hu⟩
  · simp only [turn, Function.update_of_ne hk] at hx
    exact ⟨⟨x, hx, hu⟩, fun h0 => absurd h0 hk⟩

/-- **A tenant's turn** ends the announced offer or leaves its phase as it is. -/
lemma Phase.turn (h : t.Phase) {m g : ℕ} {a b : Tenant} (hm : t.mapping m = some ⟨g, a⟩)
    (hab : a.Next b) (hstage : ∀ g', t.stage ≠ .storing g' m)
    (hrange : ∀ k x, t.mapping k = some x → x.generation ≠ 0) : (t.turn m g a b).Phase := by
  have hoffers : ∀ k, (t.turn m g a b).Offers k → t.Offers k := fun k hk =>
    (offers_turn hm hab hk).1
  -- a tenant that is not offered has nothing to clear
  have hkept : ¬ t.Offers m → (t.turn m g a b).ending = t.ending := by
    intro hnot
    have ha : a.unconsumed = false := by
      by_contra hne
      exact hnot ⟨_, hm, by simpa using hne⟩
    simp [Tenancy.turn, ha]
  rcases h with ⟨k, hk⟩ | ⟨hs, hq | ⟨k, x, ha⟩ | hend⟩
  · obtain ⟨g', hg'⟩ := hk.stage
    have hkm : m ≠ k := by
      rintro rfl
      exact hstage g' hg'
    refine Or.inl ⟨k, ⟨g', hg'⟩, hk.offered, fun j hj => hk.one j (hoffers j hj), ?_⟩
    exact (hkept fun h0 => hkm (hk.one m h0)).trans hk.ending
  · exact Or.inr ⟨hs, Or.inl (hq.congr rfl hoffers (hkept (hq.none m)))⟩
  · refine Or.inr ⟨hs, Or.inr ?_⟩
    by_cases hkm : m = k
    · subst hkm
      have hx : x = ⟨g, a⟩ := by
        have := ha.mapping
        rw [hm, Option.some.injEq] at this
        exact this.symm
      subst hx
      have ha' : a.unconsumed = true := ha.unconsumed
      cases hb : b.unconsumed with
      | true =>
          refine Or.inl ⟨m, ⟨g, b⟩, Function.update_self m _ _, hb, ha.offered,
            fun j hj => ha.one j (hoffers j hj), ?_⟩
          simpa [Tenancy.turn, hb] using ha.ending
      | false =>
          refine Or.inr ⟨?_, fun j hj => ?_, ?_⟩
          · exact fun h0 => hrange m _ hm (ha.offered.symm.trans h0)
          · obtain ⟨hj, hju⟩ := offers_turn hm hab hj
            rw [hju (ha.one j hj)] at hb
            cases hb
          · simp [Tenancy.turn, ha', hb, ha.ending]
    · refine Or.inl ⟨k, x, ?_, ha.unconsumed, ha.offered, fun j hj => ha.one j (hoffers j hj), ?_⟩
      · simp only [Tenancy.turn, Function.update_of_ne (Ne.symm hkm)]
        exact ha.mapping
      · exact (hkept fun h0 => hkm (ha.one m h0)).trans ha.ending
  · exact Or.inr ⟨hs, Or.inr (Or.inr ⟨hend.offered, fun k hk => hend.none k (hoffers k hk),
      (hkept (hend.none m)).trans hend.ending⟩)⟩

lemma Sound.turn (h : t.Sound n) {m g : ℕ} {a b : Tenant} (hm : t.mapping m = some ⟨g, a⟩)
    (hab : a.Next b) (hstage : ∀ g', t.stage ≠ .storing g' m) : (t.turn m g a b).Sound n := by
  constructor
  case word =>
      intro k
      by_cases hk : k = m
      · subst hk
        simpa [Tenancy.turn, hm] using h.word k
      · simpa [Tenancy.turn, hk] using h.word k
  case range =>
      intro k x hx
      by_cases hk : k = m
      · subst hk
        simp only [Tenancy.turn, Function.update_self, Option.some.injEq] at hx
        subst hx
        exact h.range k ⟨g, a⟩ hm
      · simp only [Tenancy.turn, Function.update_of_ne hk] at hx
        exact h.range k x hx
  case fact =>
      have hfact := h.fact
      have hstage' : (t.turn m g a b).stage = t.stage := rfl
      rw [hstage']
      cases hs : t.stage with
      | idle => trivial
      | asked g' =>
          rw [hs] at hfact
          exact hfact
      | trying g' k =>
          rw [hs] at hfact
          obtain ⟨hg, hk, hq⟩ := hfact
          refine ⟨hg, hk, hq.congr rfl (fun j hj => (offers_turn hm hab hj).1) ?_⟩
          have ha : a.unconsumed = false := by
            by_contra hne
            exact hq.none m ⟨_, hm, by simpa using hne⟩
          simp [Tenancy.turn, ha]
      | storing g' k =>
          rw [hs] at hfact
          have hkm : k ≠ m := by
            rintro rfl
            exact hstage g' hs
          simpa [Fact, Tenancy.turn, hkm] using hfact
  case phase => exact h.phase.turn hm hab hstage fun k x hx => (h.range k x hx).1

/-- The store that acknowledges a drop sets the slot free. -/
lemma Sound.free (h : t.Sound n) {m g : ℕ} (hm : t.mapping m = some ⟨g, .acknowledging⟩) :
    Sound n { t with
      mapping := Function.update t.mapping m none
      word := Function.update t.word m 0 } := by
  have hoffers : ∀ k, Offers { t with
      mapping := Function.update t.mapping m none
      word := Function.update t.word m 0 } k → t.Offers k ∧ k ≠ m := by
    rintro k ⟨x, hx, hu⟩
    by_cases hk : k = m
    · subst hk
      simp at hx
    · exact ⟨⟨x, by simpa [hk] using hx, hu⟩, hk⟩
  have hnot : ¬ t.Offers m := by
    rintro ⟨x, hx, hu⟩
    rw [hm, Option.some.injEq] at hx
    subst hx
    cases hu
  constructor
  case word =>
      intro k
      by_cases hk : k = m
      · subst hk
        simp
      · simpa [hk] using h.word k
  case range =>
      intro k x hx
      by_cases hk : k = m
      · subst hk
        simp at hx
      · exact h.range k x (by simpa [hk] using hx)
  case fact =>
      have hfact := h.fact
      show Fact n _ t.stage
      cases hs : t.stage with
      | idle => trivial
      | asked g' =>
          rw [hs] at hfact
          exact hfact
      | trying g' k =>
          rw [hs] at hfact
          exact ⟨hfact.1, hfact.2.1, hfact.2.2.congr rfl (fun j hj => (hoffers j hj).1) rfl⟩
      | storing g' k =>
          rw [hs] at hfact
          have hkm : k ≠ m := by
            rintro rfl
            have hfact : t.mapping k = some ⟨g', .offer .call⟩ := hfact
            rw [hm] at hfact
            cases hfact
          simpa [Fact, hkm] using hfact
  case phase =>
      rcases h.phase with ⟨k, hk⟩ | ⟨hs, hq | ⟨k, x, ha⟩ | hend⟩
      · exact Or.inl ⟨k, hk.stage, hk.offered, fun j hj => hk.one j (hoffers j hj).1, hk.ending⟩
      · exact Or.inr ⟨hs, Or.inl (hq.congr rfl (fun j hj => (hoffers j hj).1) rfl)⟩
      · have hkm : k ≠ m := by
          rintro rfl
          exact hnot ⟨x, ha.mapping, ha.unconsumed⟩
        refine Or.inr ⟨hs, Or.inr (Or.inl ⟨k, x, ?_, ha.unconsumed, ha.offered,
          fun j hj => ha.one j (hoffers j hj).1, ha.ending⟩)⟩
        simpa [hkm] using ha.mapping
      · exact Or.inr ⟨hs, Or.inr (Or.inr ⟨hend.offered, fun j hj => hend.none j (hoffers j hj).1,
          hend.ending⟩)⟩

/-- **The store that ends an offer** finds no unconsumed one. -/
lemma Sound.cleared (h : t.Sound n) (he : t.ending ≠ 0) :
    Sound n { t with offered := 0, ending := t.ending - 1 } := by
  obtain ⟨hs, hend⟩ : (∀ g m, t.stage ≠ .storing g m) ∧ t.Ending := by
    rcases h.phase with ⟨m, hm⟩ | ⟨hs, hq | ⟨m, x, ha⟩ | hend⟩
    · exact absurd hm.ending he
    · exact absurd hq.ending he
    · exact absurd ha.ending he
    · exact ⟨hs, hend⟩
  have hquiet : Quiet { t with offered := 0, ending := t.ending - 1 } :=
    ⟨rfl, hend.none, by simp [hend.ending]⟩
  refine ⟨h.word, h.range, ?_, Or.inr ⟨hs, Or.inl hquiet⟩⟩
  have hfact := h.fact
  show Fact n _ t.stage
  cases hs' : t.stage with
  | idle => trivial
  | asked g =>
      rw [hs'] at hfact
      exact hfact
  | trying g m =>
      rw [hs'] at hfact
      exact absurd hfact.2.2.ending he
  | storing g m => exact absurd hs' (hs g m)

/-- **A slot is taken**: it had no tenant, and nothing else was offered. -/
lemma Sound.taken (h : t.Sound n) {g m : ℕ} (hs : t.stage = .trying g m) (hm : t.word m = 0) :
    Sound n { t with
      mapping := Function.update t.mapping m (some ⟨g, .offer .call⟩)
      word := Function.update t.word m g
      stage := .storing g m } := by
  have hfact := h.fact
  rw [hs] at hfact
  obtain ⟨hg, hmn, hq⟩ := hfact
  constructor
  case word =>
      intro k
      by_cases hk : k = m
      · subst hk
        simp
      · simpa [hk] using h.word k
  case range =>
      intro k x hx
      by_cases hk : k = m
      · subst hk
        simp only [Function.update_self, Option.some.injEq] at hx
        subst hx
        exact ⟨hg, hmn⟩
      · exact h.range k x (by simpa [hk] using hx)
  case fact => exact Function.update_self m _ _
  case phase =>
      refine Or.inl ⟨m, ⟨g, rfl⟩, hq.offered, ?_, hq.ending⟩
      rintro k ⟨x, hx, hu⟩
      by_contra hk
      exact hq.none k ⟨x, by simpa [hk] using hx, hu⟩

/-- The offer is announced. -/
lemma Sound.stored (h : t.Sound n) {g m : ℕ} (hs : t.stage = .storing g m) :
    Sound n { t with offered := g, stage := .idle } := by
  have hfact : t.mapping m = some ⟨g, .offer .call⟩ := by
    have := h.fact
    rw [hs] at this
    exact this
  refine ⟨h.word, h.range, trivial, Or.inr ⟨by simp, Or.inr (Or.inl ⟨m, _, hfact, rfl, rfl, ?_, ?_⟩)⟩⟩
  · rcases h.phase with ⟨k, hk⟩ | ⟨h0, -⟩
    · intro j hj
      rw [hk.one j hj, hk.one m ⟨_, hfact, rfl⟩]
    · exact absurd hs (h0 g m)
  · rcases h.phase with ⟨k, hk⟩ | ⟨h0, -⟩
    · exact hk.ending
    · exact absurd hs (h0 g m)

/-- **Every step keeps the mapping slots sound.** -/
theorem Sound.step (h : t.Sound n) (hs : t.Step n t') : t'.Sound n := by
  cases hs with
  | same => exact h
  | turn m g a b hm hab hstage => exact h.turn hm hab hstage
  | free m g hm => exact h.free hm
  | cleared he => exact h.cleared he
  | asked g hg hstage =>
      exact ⟨h.word, h.range, hg, h.phase.congr hstage (by simp) rfl rfl rfl⟩
  | tried g hstage ho hn =>
      have hne : ∀ g' m, t.stage ≠ .storing g' m := by simp [hstage]
      have hg : g ≠ 0 := by
        have := h.fact
        rw [hstage] at this
        exact this
      have hq := h.quiet_of_offered hne ho
      exact ⟨h.word, h.range, ⟨hg, hn, hq.offered, hq.none, hq.ending⟩,
        h.phase.congr hne (by simp) rfl rfl rfl⟩
  | retried g m hstage hm =>
      have hne : ∀ g' m, t.stage ≠ .storing g' m := by simp [hstage]
      have hfact := h.fact
      rw [hstage] at hfact
      obtain ⟨hg, -, hq⟩ := hfact
      exact ⟨h.word, h.range, ⟨hg, hm, hq.offered, hq.none, hq.ending⟩,
        h.phase.congr hne (by simp) rfl rfl rfl⟩
  | taken g m hstage hm => exact h.taken hstage hm
  | stored g m hstage => exact h.stored hstage
  | stopped hstage => exact ⟨h.word, h.range, trivial, h.phase.congr hstage (by simp) rfl rfl rfl⟩

/-! ### What a slot goes through -/

/-- **The tenants of a slot**: one at a time, each the next of the one before it; the slot is
set free by a drop, and taken by an offer. -/
inductive Passes : Option Mapping → Option Mapping → Prop
  | same (x : Option Mapping) : Passes x x
  | next (g : ℕ) (a b : Tenant) : a.Next b → Passes (some ⟨g, a⟩) (some ⟨g, b⟩)
  | free (g : ℕ) : Passes (some ⟨g, .acknowledging⟩) none
  | taken (g : ℕ) : Passes none (some ⟨g, .offer .call⟩)

/-- A slot that changes at one place. -/
lemma Passes.of_update {f : ℕ → Option Mapping} {m : ℕ} {x : Option Mapping}
    (h : Passes (f m) x) (k : ℕ) : Passes (f k) (Function.update f m x k) := by
  by_cases hk : k = m
  · subst hk
    rw [Function.update_self]
    exact h
  · rw [Function.update_of_ne hk]
    exact .same _

/-- **A slot gets a new owner only while it has none.** -/
theorem Step.passes (h : t.Sound n) (hs : t.Step n t') (m : ℕ) :
    Passes (t.mapping m) (t'.mapping m) := by
  cases hs with
  | turn k g a b hm hab =>
      refine Passes.of_update ?_ m
      rw [hm]
      exact .next g a b hab
  | free k g hm =>
      refine Passes.of_update ?_ m
      rw [hm]
      exact .free g
  | taken g k hs hw =>
      refine Passes.of_update ?_ m
      rw [h.mapping_eq_none hw]
      exact .taken g
  | _ => exact .same _

end Tenancy

end Jackstay.Acquisition
