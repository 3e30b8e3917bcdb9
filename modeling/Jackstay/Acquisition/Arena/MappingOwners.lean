import Jackstay.Acquisition.Arena.SlotSteps

/-!
The owners of the mapping slots: `arena.rs` and `arena/reconfiguration.rs`.

* `Incarnation.Owner`: a live owner of a mapping slot, with the generation it names.
* `Incarnation.Accounted`: slots and owners belong to each other in every state, and the offer
  is in one of the phases of `Tenancy.Phase`. `Incarnation.Bijective` says the same with
  `OFFERED_GENERATION` nonzero exactly while there is an unconsumed grant or offer.
* `mapping_slots_owned`: every reachable incarnation is accounted for until its process has
  exited, is bijective between the two stores that begin or end an offer, and gives a slot to
  a new owner only while it has none.
* `drop_clears_slot_first`: the drop of a grant clears its slot and leaves
  `OFFERED_GENERATION` to a second store.
-/

namespace Jackstay.Acquisition

/-- **The invariant of the mapping slots**, until the exit of the process. -/
structure Incarnation.Owned (inc : Incarnation) : Prop where
  hosted : inc.Hosted
  tended : inc.exited = false → inc.Tended
  sound : inc.exited = false → inc.tenancy.Sound (inc.frames + 2)

namespace Incarnation.Owned

variable {sh : Shared} {inc inc' : Incarnation}

/-- **Every move keeps the owners**, and is a step of the tenancy. -/
theorem follows (h : inc.Owned) (hands : Handoffs sh.native inc) (hl : Lifetime inc)
    (hm : inc.Move sh inc') (hx : inc'.exited = false) : inc.Follows inc' :=
  have hx₀ := hm.exited hx
  .move (h.tended hx₀) (h.sound hx₀) h.hosted hands hl hm hx₀ hx

lemma move (h : inc.Owned) (hands : Handoffs sh.native inc) (hl : Lifetime inc)
    (hm : inc.Move sh inc') : inc'.Owned := by
  refine ⟨h.hosted.move hm, fun hx => (h.follows hands hl hm hx).tended, fun hx => ?_⟩
  have hsound := (h.sound (hm.exited hx)).step (h.follows hands hl hm hx).step
  have hframes : inc'.frames = inc.frames := by
    cases hm with
    | act _ ha => exact ha.static.1
    | _ => rfl
  rw [hframes]
  exact hsound

lemma new (frames : ℕ) (remote : Bool) {generation : ℕ} (hg : generation ≠ 0) :
    (Incarnation.new frames remote generation).Owned := by
  refine ⟨⟨by simp [Incarnation.new], by simp [Incarnation.new]⟩, fun _ => .new _ _ _, fun _ => ?_⟩
  have hgrant : (Tenant.grant (if remote then .host else .client)).unconsumed = true := rfl
  constructor
  case word =>
      intro m
      by_cases hm : m = 0
      · subst hm
        simp [Incarnation.tenancy, Incarnation.new, ClaimPage.storeMapping]
      · simp [Incarnation.tenancy, Incarnation.new, ClaimPage.storeMapping, hm]
  case range =>
      intro m x hx
      by_cases hm : m = 0
      · subst hm
        simp only [Incarnation.tenancy, Incarnation.new, Function.update_self,
          Option.some.injEq] at hx
        subst hx
        exact ⟨hg, by simp⟩
      · simp [Incarnation.tenancy, Incarnation.new, hm] at hx
  case fact => trivial
  case phase =>
      refine Or.inr ⟨by simp [Incarnation.tenancy, Incarnation.stage, Incarnation.new],
        Or.inr (Or.inl ⟨0, ⟨generation, .grant (if remote then .host else .client)⟩, ?_, hgrant,
          rfl, ?_, rfl⟩)⟩
      · simp [Incarnation.tenancy, Incarnation.new]
      rintro m ⟨x, hx, -⟩
      by_contra hm
      simp [Incarnation.tenancy, Incarnation.new, hm] at hx

end Incarnation.Owned

namespace Arena

variable {s s' : Arena}

/-- The mapping slots of every reachable incarnation have their owners. -/
theorem Reachable.owned (h : Reachable s) :
    ∀ i inc, s.incarnations i = some inc → inc.Owned := by
  refine h.incarnation (P := fun _ inc => inc.Owned)
    (Q := fun native inc => Handoffs native inc ∧ Lifetime inc) ?_ ?_ ?_
  · exact fun _ _ _ ha hi => ⟨ha.handoffs hi, (ha.lifetime _ _ hi).2⟩
  · exact fun _ frames remote g _ hg => .new frames remote hg
  · rintro sh inc inc' ⟨hands, hl⟩ ho hm
    exact ho.move hands hl hm

end Arena

/-! ### Owners -/

namespace Incarnation

variable {inc : Incarnation}

/-- **A live owner of a mapping slot**, by the generation it names: a grant or an offer that is
not consumed, in either process or in the call that has it; a `ConsumerResources` that somebody
has a handle of; or a drop that has not acknowledged yet. -/
inductive Owner (inc : Incarnation) (m : ℕ) : ℕ → Prop
  | unconsumed (g : ℕ) (T : Tenant) : inc.mappings m = some ⟨g, T⟩ → T.unconsumed = true →
      T ≠ .offer .call → Owner inc m g
  | calling (g : ℕ) : inc.mappings m = some ⟨g, .offer .call⟩ → inc.tasks (.hold m) = 1 →
      Owner inc m g
  | resources (g : ℕ) : inc.mappings m = some ⟨g, .mapped⟩ → inc.Holds m → Owner inc m g
  | unmapping (g : ℕ) : inc.mappings m = some ⟨g, .unmapping⟩ → inc.tasks (.unmap m) = 1 →
      Owner inc m g
  | acknowledging (g : ℕ) : inc.mappings m = some ⟨g, .acknowledging⟩ →
      inc.tasks (.clear m) = 1 → Owner inc m g

/-- The mapping slot has an unconsumed grant or offer. -/
def Offers (inc : Incarnation) (m : ℕ) : Prop := inc.tenancy.Offers m

lemma Owner.mapping {m g : ℕ} (h : inc.Owner m g) : ∃ T, inc.mappings m = some ⟨g, T⟩ := by
  cases h with
  | unconsumed T hm => exact ⟨T, hm⟩
  | calling hm => exact ⟨_, hm⟩
  | resources hm => exact ⟨_, hm⟩
  | unmapping hm => exact ⟨_, hm⟩
  | acknowledging hm => exact ⟨_, hm⟩

/-- Every tenant is a live owner. -/
lemma Tended.owner (h : inc.Tended) {m g : ℕ} {T : Tenant} (hm : inc.mappings m = some ⟨g, T⟩) :
    inc.Owner m g := by
  have htenant := tenant_of_mapping hm
  have htask : ∀ j : Task, j.tenant = some (m, T) → inc.tasks j = 1 := by
    intro j hj
    rw [h.tasks j m T hj, if_pos htenant]
  cases T with
  | grant p => exact .unconsumed g _ hm rfl (by simp)
  | offer p =>
      cases p with
      | call => exact .calling g hm (htask _ rfl)
      | _ => exact .unconsumed g _ hm rfl (by simp)
  | mapped => exact .resources g hm ((h.holds m).mpr htenant)
  | unmapping => exact .unmapping g hm (htask _ rfl)
  | acknowledging => exact .acknowledging g hm (htask _ rfl)

/-- **Slots and owners belong to each other**: a nonzero slot has an owner of the generation it
stores, and an owner has its slot; no call, drop or handle is about a slot without belonging to
its owner; and the offer is in one of its four phases. -/
structure Accounted (inc : Incarnation) : Prop where
  owner : ∀ m, inc.page.mappingSlot m ≠ 0 → inc.Owner m (inc.page.mappingSlot m)
  slot : ∀ m g, inc.Owner m g → inc.page.mappingSlot m = g ∧ g ≠ 0 ∧ m < inc.frames + 2
  tended : inc.Tended
  phase : inc.tenancy.Phase

/-- The same, and `OFFERED_GENERATION` is nonzero exactly while there is an unconsumed grant or
offer, and then its generation. -/
structure Bijective (inc : Incarnation) : Prop where
  owner : ∀ m, inc.page.mappingSlot m ≠ 0 → inc.Owner m (inc.page.mappingSlot m)
  slot : ∀ m g, inc.Owner m g → inc.page.mappingSlot m = g ∧ g ≠ 0
  one : ∀ m n, inc.Offers m → inc.Offers n → m = n
  offered : inc.page.offeredGeneration ≠ 0 ↔ ∃ m, inc.Offers m
  generation : ∀ m x, inc.mappings m = some x → x.tenant.unconsumed = true →
    inc.page.offeredGeneration = x.generation

/-- No offer is between its two stores: `configuration_offer` has announced what it took, and
what was consumed or dropped has cleared `OFFERED_GENERATION`. -/
def Settled (inc : Incarnation) : Prop :=
  inc.tasks .endOffer = 0 ∧ ∀ g m, inc.stage ≠ .storing g m

lemma Owned.accounted (h : inc.Owned) (hx : inc.exited = false) : inc.Accounted := by
  have hsound := h.sound hx
  have htended := h.tended hx
  have hword : ∀ m, inc.page.mappingSlot m = ((inc.mappings m).map Mapping.generation).getD 0 :=
    hsound.word
  constructor
  case owner =>
      intro m hm
      cases hmap : inc.mappings m with
      | none =>
          rw [hword m, hmap] at hm
          exact absurd rfl hm
      | some x =>
          obtain ⟨g, T⟩ := x
          rw [hword m, hmap, Option.map_some, Option.getD_some]
          exact htended.owner hmap
  case slot =>
      intro m g ho
      obtain ⟨T, hmap⟩ := ho.mapping
      obtain ⟨hg, hm⟩ := hsound.range m ⟨g, T⟩ hmap
      exact ⟨by rw [hword m, hmap]; rfl, hg, hm⟩
  case tended => exact htended
  case phase => exact hsound.phase

/-- At most one offer, whatever its phase. -/
lemma Accounted.one (h : inc.Accounted) {m n : ℕ} (hm : inc.Offers m) (hn : inc.Offers n) :
    m = n := by
  rcases h.phase with ⟨k, hk⟩ | ⟨-, hq | ⟨k, x, ha⟩ | hend⟩
  · rw [hk.one m hm, hk.one n hn]
  · exact absurd hm (hq.none m)
  · rw [ha.one m hm, ha.one n hn]
  · exact absurd hm (hend.none m)

/-- **Between the stores of an offer** the second word says whether there is one. -/
lemma Accounted.bijective (h : inc.Accounted) (hsettled : inc.Settled) : inc.Bijective := by
  have hoffered : inc.tenancy.Quiet ∨ ∃ m x, inc.tenancy.Announced m x := by
    rcases h.phase with ⟨m, hm⟩ | ⟨-, hq | ha | hend⟩
    · obtain ⟨g, hg⟩ := hm.stage
      exact absurd hg (hsettled.2 g m)
    · exact Or.inl hq
    · exact Or.inr ha
    · have hone : inc.tasks .endOffer = 1 := hend.ending
      rw [hsettled.1] at hone
      cases hone
  constructor
  case owner => exact h.owner
  case slot => exact fun m g ho => ⟨(h.slot m g ho).1, (h.slot m g ho).2.1⟩
  case one => exact fun m n hm hn => h.one hm hn
  case offered =>
      rcases hoffered with hq | ⟨m, x, ha⟩
      · exact ⟨fun h0 => absurd hq.offered h0, fun ⟨m, hm⟩ => absurd hm (hq.none m)⟩
      · have hoff : inc.page.offeredGeneration = x.generation := ha.offered
        have hmap : inc.mappings m = some x := ha.mapping
        refine ⟨fun _ => ⟨m, x, hmap, ha.unconsumed⟩, fun _ => ?_⟩
        rw [hoff]
        exact (h.slot m x.generation (h.tended.owner hmap)).2.1
  case generation =>
      intro n y hy hu
      rcases hoffered with hq | ⟨m, x, ha⟩
      · exact absurd ⟨y, hy, hu⟩ (hq.none n)
      · have hn : n = m := ha.one n ⟨y, hy, hu⟩
        subst hn
        have hx : inc.mappings n = some x := ha.mapping
        rw [hx, Option.some.injEq] at hy
        exact hy ▸ ha.offered

end Incarnation

namespace Arena

variable {s : Arena}

/-- **Mapping slots and their owners.** In every reachable arena an incarnation whose process
has not exited is accounted for. Its second word is stored behind the first and cleared behind
it: between the two stores of a creation, a consumption or a drop it lags behind, and in every
other state it is nonzero exactly while there is an unconsumed grant or offer. No step gives a
slot to a new owner before the last one has cleared it. -/
theorem mapping_slots_owned (h : Reachable s) {i : ℕ} {inc : Incarnation}
    (hi : s.incarnations i = some inc) (hx : inc.exited = false) :
    inc.Accounted ∧ (inc.Settled → inc.Bijective) ∧
      ∀ l s' inc', s.step l = some s' → s'.incarnations i = some inc' → inc'.exited = false →
        ∀ m, Tenancy.Passes (inc.mappings m) (inc'.mappings m) := by
  have howned := h.owned i inc hi
  have haccounted := howned.accounted hx
  refine ⟨haccounted, haccounted.bijective, fun l s' inc' hs hi' hx' m => ?_⟩
  rcases (acts_of_step hs).move h.ledger hi hi' with rfl | hm
  · exact .same _
  · obtain ⟨-, hl⟩ := h.lifetime i inc hi
    exact (howned.follows (h.handoffs hi) hl hm hx').step.passes (howned.sound hx) m

/-- A consumer that has consumed its grant. -/
theorem mapping_slots_owned_small : ∃ s inc, Reachable s ∧ s.incarnations 1 = some inc ∧
    inc.exited = false ∧ inc.tenant 0 = some .mapped ∧ inc.Bijective := by
  have hrun : ((script 4096 smallConfig 0 false ([.call (.attach 1 false)] ++ pump 8 ++
      [on (.fromGrant {}), on (.thread 0 {})])).bind fun s => (s.incarnations 1).map fun inc =>
        (inc.exited, inc.tenant 0, inc.tasks .endOffer, inc.stage)) =
      some (false, some .mapped, 0, .idle) := by
    decide +kernel
  obtain ⟨s, hs, hrun⟩ := Option.bind_eq_some_iff.mp hrun
  obtain ⟨inc, hi, hrun⟩ := Option.map_eq_some_iff.mp hrun
  simp only [Prod.mk.injEq] at hrun
  obtain ⟨hx, hmapped, hend, hstage⟩ := hrun
  exact ⟨s, inc, .of_script hs, hi, hx, hmapped, (mapping_slots_owned (.of_script hs) hi hx).2.1
    ⟨hend, fun g m h0 => by rw [hstage] at h0; cases h0⟩⟩

/-- **A grant that is dropped**: its slot is clear, it is gone, and `OFFERED_GENERATION` still
names it. -/
theorem drop_clears_slot_first : ∃ s inc, Reachable s ∧ s.incarnations 1 = some inc ∧
    inc.exited = false ∧ inc.page.offeredGeneration ≠ 0 ∧ inc.mappings 0 = none ∧
      ¬ inc.Bijective := by
  have hrun : ((script 4096 smallConfig 0 false ([.call (.attach 1 false)] ++ pump 8 ++
      [on .dropGrant, on (.thread 0 {})])).bind fun s => (s.incarnations 1).map fun inc =>
        (inc.exited, inc.page.offeredGeneration, inc.mappings 0, inc.tasks .endOffer)) =
      some (false, 1, none, 1) := by
    decide +kernel
  obtain ⟨s, hs, hrun⟩ := Option.bind_eq_some_iff.mp hrun
  obtain ⟨inc, hi, hrun⟩ := Option.map_eq_some_iff.mp hrun
  simp only [Prod.mk.injEq] at hrun
  obtain ⟨hx, hoff, hnone, hend⟩ := hrun
  refine ⟨s, inc, .of_script hs, hi, hx, by rw [hoff]; exact Nat.one_ne_zero, hnone, fun hb => ?_⟩
  obtain ⟨m, hm⟩ := hb.offered.mp (by rw [hoff]; exact Nat.one_ne_zero)
  have hend : inc.tenancy.ending = 1 := hend
  rcases (((Reachable.of_script hs).owned 1 inc hi).sound hx).phase with
    ⟨k, hk⟩ | ⟨-, hq | ⟨k, x, ha⟩ | he⟩
  · rw [hk.ending] at hend
    cases hend
  · exact hq.none m hm
  · rw [ha.ending] at hend
    cases hend
  · exact he.none m hm

end Arena

end Jackstay.Acquisition
