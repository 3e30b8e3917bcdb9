import Jackstay.Acquisition.Arena.Offers
import Jackstay.Acquisition.Arena.SlotTasks

/-!
What each step of the code does to the mapping slots: `reconfiguration.rs` and
`from_grant_with_resources`.

* `Incarnation.tenancy`: the mapping slots of an incarnation.
* `Incarnation.Tended`: a tenant inside a call or a drop has one operation that is still to
  deal with it, no other operation is about a slot, and a slot is mapped as long as somebody
  has a handle.
* `Follows`: a step of the code is a step of the tenancy and keeps every tenant tended. There
  is one lemma for each way in which a slot, an offer or a handle changes hands;
  `Follows.move` collects them.
-/

namespace Jackstay.Acquisition

/-- The tenant that a task belongs to, with its mapping slot. -/
def Task.tenant : Task → Option (ℕ × Tenant)
  | .hold m => some (m, .offer .call)
  | .unmap m => some (m, .unmapping)
  | .clear m => some (m, .acknowledging)
  | .drop _ => none
  | .endOffer => none

/-- The task of the tenant of a mapping slot. -/
def Tenant.task (m : ℕ) : Tenant → Option Task
  | .offer .call => some (.hold m)
  | .unmapping => some (.unmap m)
  | .acknowledging => some (.clear m)
  | _ => none

lemma Task.tenant_eq {j : Task} {n : ℕ} {T : Tenant} (h : j.tenant = some (n, T)) :
    T.task n = some j := by
  cases j <;> cases h <;> rfl

lemma Tenant.task_iff {j : Task} {n m : ℕ} {T a : Tenant} (h : j.tenant = some (n, T)) :
    a.task m = some j ↔ n = m ∧ T = a := by
  constructor
  · intro ha
    cases a with
    | offer p =>
        cases p with
        | call =>
            cases ha
            cases h
            exact ⟨rfl, rfl⟩
        | _ => cases ha
    | unmapping =>
        cases ha
        cases h
        exact ⟨rfl, rfl⟩
    | acknowledging =>
        cases ha
        cases h
        exact ⟨rfl, rfl⟩
    | _ => cases ha
  · rintro ⟨rfl, rfl⟩
    exact Task.tenant_eq h

/-- How far `configuration_offer` has got when this is its next step. -/
def HostOp.stage : HostOp → Stage
  | .offerActive (some g) => .asked g
  | .offerOffered g => .asked g
  | .offerSlot g m => .trying g m
  | .offerStore g m => .storing g m
  | _ => .idle

/-- What may stand behind the next step of the producer's call on a page. -/
def HostOp.Plain : HostOp → Prop
  | .page _ => True
  | .owner (.clear _ _) => True
  | .owner .clearOffered => True
  | _ => False

/-- The producer drops no `ConsumerResources`. -/
def HostOp.Proper : HostOp → Prop
  | .owner (.drop _ _) => False
  | .owner (.unmap _ _) => False
  | _ => True

lemma HostOp.Plain.stage {op : HostOp} (h : op.Plain) : op.stage = .idle := by
  cases op with
  | page op => rfl
  | owner op => rfl
  | _ => cases h

lemma HostOp.Plain.proper {op : HostOp} (h : op.Plain) : op.Proper := by
  cases op with
  | page op => trivial
  | owner op => cases op <;> trivial
  | _ => cases h

/-- Where `configuration_offer` goes on: in the step it names next, or nowhere. -/
lemma HostOp.exec_next (e : Env) (inc : Incarnation) (op : HostOp) (h : op.Proper) :
    (∃ x, (op.exec e inc).2 = [x] ∧ x.Proper) ∨ ∀ x ∈ (op.exec e inc).2, x.Plain := by
  cases op with
  | page op =>
      right
      intro x hx
      obtain ⟨y, -, rfl⟩ := List.mem_map.mp hx
      trivial
  | owner op =>
      cases op with
      | drop m holder => cases h
      | unmap m holder => cases h
      | clear m holder => exact Or.inr (by simp [HostOp.exec, OwnerOp.exec])
      | clearOffered => exact Or.inr (by simp [HostOp.exec, OwnerOp.exec])
  | offerActive generation =>
      cases generation with
      | none =>
          right
          simp only [HostOp.exec]
          split_ifs <;> simp
      | some g =>
          simp only [HostOp.exec]
          split_ifs
          · exact Or.inr (by simp)
          · exact Or.inl ⟨_, rfl, trivial⟩
  | offerOffered g =>
      simp only [HostOp.exec]
      split_ifs
      · exact Or.inr (by simp)
      · exact Or.inr (by simp)
      · exact Or.inl ⟨_, rfl, trivial⟩
  | offerSlot g m =>
      simp only [HostOp.exec]
      split_ifs
      · exact Or.inl ⟨_, rfl, trivial⟩
      · exact Or.inl ⟨_, rfl, trivial⟩
      · exact Or.inr (by simp)
  | offerStore g m => exact Or.inl ⟨_, rfl, trivial⟩
  | offerRecheck m =>
      right
      simp only [HostOp.exec]
      split_ifs <;> simp [offerDrop, Plain]
  | registerActive => exact Or.inr (by simp [HostOp.exec])

namespace Incarnation

variable {sh : Shared} {inc inc' : Incarnation}

/-- How far `configuration_offer` has got on this page. -/
def stage (inc : Incarnation) : Stage := (inc.host.head?.map HostOp.stage).getD .idle

/-- The ownership of the mapping slots. -/
def tenancy (inc : Incarnation) : Tenancy where
  mapping := inc.mappings
  word := inc.page.mappingSlot
  offered := inc.page.offeredGeneration
  stage := inc.stage
  ending := inc.tasks .endOffer

/-- The producer's call on the page makes one offer at a time and drops what it made. -/
structure Hosted (inc : Incarnation) : Prop where
  proper : ∀ op ∈ inc.host, op.Proper
  tail : ∀ op ∈ inc.host.tail, op.Plain

lemma Hosted.congr (h : inc.Hosted) (hh : inc'.host = inc.host) : inc'.Hosted :=
  ⟨hh ▸ h.proper, hh ▸ h.tail⟩

lemma Hosted.move (h : inc.Hosted) (hm : inc.Move sh inc') : inc'.Hosted := by
  cases hm with
  | act _ ha =>
      rcases ha.calls with ⟨hhost, -⟩ | ⟨op, rest, e, hhost, rfl⟩
      · exact h.congr hhost
      · have hrest : ∀ x ∈ rest, x.Plain := by
          have htail := h.tail
          rw [hhost] at htail
          exact htail
        have hop := h.proper op (by rw [hhost]; exact List.mem_cons_self)
        rcases op.exec_next e inc hop with ⟨y, hy, hproper⟩ | hplain
        · refine ⟨fun x hx => ?_, ?_⟩
          · rw [hy] at hx
            rcases List.mem_cons.mp hx with rfl | hx
            · exact hproper
            · exact (hrest x hx).proper
          · rw [hy]
            exact hrest
        · have hall : ∀ x ∈ (op.exec e inc).2 ++ rest, x.Plain := fun x hx =>
            (List.mem_append.mp hx).elim (hplain x) (hrest x)
          exact ⟨fun x hx => (hall x hx).proper, fun x hx => hall x (List.mem_of_mem_tail hx)⟩
  | call op hhost hst =>
      refine ⟨fun x hx => ?_, by simp⟩
      rw [List.mem_singleton] at hx
      rw [hx]
      cases op with
      | owner op => cases hst
      | _ => trivial
  | _ => exact h.congr rfl

/-! ### Tenants and tasks -/

/-- The tenant of the mapping slot. -/
def tenant (inc : Incarnation) (m : ℕ) : Option Tenant := (inc.mappings m).map Mapping.tenant

/-- **Every tenant has its task**: a tenant inside a call or a drop has one operation that is
still to deal with it, and no other has any; a mapped tenant has a handle. -/
structure Tended (inc : Incarnation) : Prop where
  tasks : ∀ j m T, j.tenant = some (m, T) →
    inc.tasks j = if inc.tenant m = some T then 1 else 0
  holds : ∀ m, inc.Holds m ↔ inc.tenant m = some .mapped

lemma tenant_of_mapping {m g : ℕ} {T : Tenant} (h : inc.mappings m = some ⟨g, T⟩) :
    inc.tenant m = some T := by
  rw [tenant, h, Option.map_some]

/-- A task that is still to come belongs to a tenant. -/
lemma Tended.mapping_of_task (h : inc.Tended) {j : Task} {m : ℕ} {T : Tenant}
    (hj : j.tenant = some (m, T)) (hne : inc.tasks j ≠ 0) : ∃ g, inc.mappings m = some ⟨g, T⟩ := by
  have htasks := h.tasks j m T hj
  split_ifs at htasks with ht
  · obtain ⟨⟨g, T'⟩, hx, rfl⟩ := Option.map_eq_some_iff.mp ht
    exact ⟨g, hx⟩
  · exact absurd htasks hne

/-- The offer that `configuration_offer` is about to announce is in its hands. -/
lemma hold_of_storing {g m : ℕ} (h : inc.stage = .storing g m) :
    inc.host.countP (·.task == some (.hold m)) ≠ 0 := by
  rw [stage] at h
  cases hhost : inc.host with
  | nil =>
      rw [hhost] at h
      cases h
  | cons op rest =>
      rw [hhost, List.head?_cons, Option.map_some, Option.getD_some] at h
      rw [List.countP_cons]
      cases op with
      | offerStore g' m' =>
          cases h
          simp [HostOp.task]
      | offerActive generation => cases generation <;> cases h
      | _ => cases h

/-- What a move does to the tenants, the tasks and the words: the abstract step, with its
tasks in order. -/
structure Follows (inc inc' : Incarnation) : Prop where
  tended : inc'.Tended
  step : inc.tenancy.Step (inc.frames + 2) inc'.tenancy

/-- Tenants and words stay as they are; handles pass from one holder to another. -/
lemma Tended.same (h : inc.Tended) (hmap : inc'.mappings = inc.mappings)
    (htasks : ∀ j, j.tenant ≠ none → inc'.tasks j = inc.tasks j)
    (hholds : ∀ m, inc'.Holds m ↔ inc.Holds m) : inc'.Tended := by
  have htenant : inc'.tenant = inc.tenant := by
    funext m
    rw [tenant, tenant, hmap]
  constructor
  case tasks =>
      intro j m T hj
      rw [htenant, htasks j (by simp [hj])]
      exact h.tasks j m T hj
  case holds =>
      intro m
      rw [htenant, hholds m]
      exact h.holds m

lemma Follows.same (h : inc.Tended) (hmap : inc'.mappings = inc.mappings)
    (hword : inc'.page.mappingSlot = inc.page.mappingSlot)
    (hoffered : inc'.page.offeredGeneration = inc.page.offeredGeneration)
    (hst : inc'.stage = inc.stage)
    (htasks : ∀ j, (∀ m, j ≠ .drop m) → inc'.tasks j = inc.tasks j)
    (hholds : ∀ m, inc'.Holds m ↔ inc.Holds m) : inc.Follows inc' := by
  refine ⟨h.same hmap (fun j hj => htasks j ?_) hholds, ?_⟩
  · rintro m rfl
    exact hj rfl
  have heq : inc'.tenancy = inc.tenancy := by
    rw [tenancy, tenancy, hmap, hword, hoffered, htasks .endOffer (by simp), hst]
  rw [heq]
  exact .same

/-- Nothing that the mapping slots depend on changes. -/
lemma Follows.idle (h : inc.Tended) (hmap : inc'.mappings = inc.mappings)
    (hword : inc'.page.mappingSlot = inc.page.mappingSlot)
    (hoffered : inc'.page.offeredGeneration = inc.page.offeredGeneration)
    (hhost : inc'.host = inc.host) (hc : inc'.consumer = inc.consumer)
    (hu : ∀ k, (inc'.uses k).bind Use.owner = (inc.uses k).bind Use.owner)
    (hs : inc'.retirement.slots = inc.retirement.slots)
    (htasks : ∀ j, inc'.tasks j = inc.tasks j) : inc.Follows inc' :=
  .same h hmap hword hoffered (by rw [stage, stage, hhost]) (fun j _ => htasks j)
    fun _ => Holds.congr (by rw [hc]) hu hs (htasks _)

/-- What becomes of the tasks when a mapping slot's tenant `x` gives way to `y`: its own task
gives way to the next one's, and `e` more stores are to clear `OFFERED_GENERATION`. -/
def Turned (inc inc' : Incarnation) (m : ℕ) (x y : Option Tenant) (e : ℕ) : Prop :=
  ∀ j, (∀ n, j ≠ .drop n) →
    inc'.tasks j + (if x.bind (Tenant.task m) = some j then 1 else 0) =
      inc.tasks j + (if y.bind (Tenant.task m) = some j then 1 else 0) +
        (if j = .endOffer then e else 0)

/-- **A tenant gives way to the next one**, and its task to the next one's. -/
lemma Tended.turn (h : inc.Tended) {m e : ℕ} {y : Option Mapping}
    (hmap : inc'.mappings = Function.update inc.mappings m y)
    (htasks : Turned inc inc' m (inc.tenant m) (y.map Mapping.tenant) e)
    (hholds : ∀ n, n ≠ m → (inc'.Holds n ↔ inc.Holds n))
    (hmapped : inc'.Holds m ↔ y.map Mapping.tenant = some .mapped) : inc'.Tended := by
  have hnew : inc'.tenant m = y.map Mapping.tenant := by rw [tenant, hmap, Function.update_self]
  have hother : ∀ n, n ≠ m → inc'.tenant n = inc.tenant n := by
    intro n hn
    rw [tenant, tenant, hmap, Function.update_of_ne hn]
  constructor
  case tasks =>
      intro j n T hj
      have hold := h.tasks j n T hj
      have hturned := htasks j (by rintro k rfl; cases hj)
      have hne : j ≠ .endOffer := by
        rintro rfl
        cases hj
      have hiff : ∀ x : Option Tenant, x.bind (Tenant.task m) = some j ↔ n = m ∧ x = some T := by
        intro x
        cases x with
        | none => simp
        | some a => simp [Tenant.task_iff hj, eq_comm]
      simp only [hiff, hne, if_false, Nat.add_zero] at hturned
      by_cases hn : n = m
      · subst hn
        simp only [hnew, true_and] at hold hturned ⊢
        omega
      · rw [hother n hn]
        simp only [hn, false_and, if_false] at hturned
        omega
  case holds =>
      intro n
      by_cases hn : n = m
      · subst hn
        rw [hnew]
        exact hmapped
      · rw [hother n hn, hholds n hn]
        exact h.holds n

/-- The tenant's turn, with the abstract step. The offer between its two stores is in the
hands of `configuration_offer`. -/
lemma Follows.turn (h : inc.Tended) (hsound : inc.tenancy.Sound (inc.frames + 2)) {m g : ℕ}
    {a b : Tenant} (hm : inc.mappings m = some ⟨g, a⟩) (hab : a.Next b)
    (hstage : a = .offer .call → ∀ g', inc.stage ≠ .storing g' m)
    (hmap : inc'.mappings = Function.update inc.mappings m (some ⟨g, b⟩))
    (hword : inc'.page.mappingSlot = inc.page.mappingSlot)
    (hoffered : inc'.page.offeredGeneration = inc.page.offeredGeneration)
    (hst : inc'.stage = inc.stage)
    (htasks : Turned inc inc' m (some a) (some b) (if a.unconsumed && !b.unconsumed then 1 else 0))
    (hholds : ∀ n, n ≠ m → (inc'.Holds n ↔ inc.Holds n)) (hmapped : inc'.Holds m ↔ b = .mapped) :
    inc.Follows inc' := by
  refine ⟨h.turn hmap ((tenant_of_mapping hm).symm ▸ htasks) hholds ?_, ?_⟩
  · rw [hmapped, Option.map_some, Option.some.injEq]
  have heq : inc'.tenancy = inc.tenancy.turn m g a b := by
    have hend := htasks .endOffer (by simp)
    have hnone : ∀ T : Tenant, T.task m ≠ some .endOffer := by
      intro T
      cases T with
      | offer p => cases p <;> simp [Tenant.task]
      | _ => simp [Tenant.task]
    simp only [Option.bind_some, hnone, if_false, if_true, Nat.add_zero] at hend
    rw [tenancy, tenancy, Tenancy.turn, hmap, hword, hoffered, hst, hend]
  rw [heq]
  refine .turn m g a b hm hab fun g' hg' => ?_
  -- the offer that is about to be announced is the call's
  have hfact := hsound.fact
  rw [hg'] at hfact
  have hfact : inc.mappings m = some ⟨g', .offer .call⟩ := hfact
  rw [hm, Option.some.injEq, Mapping.mk.injEq] at hfact
  exact hstage hfact.2 g' hg'

/-- A turn of a tenant without handles, before and after. -/
lemma Follows.pass (h : inc.Tended) (hsound : inc.tenancy.Sound (inc.frames + 2)) {m g : ℕ}
    {a b : Tenant} (hm : inc.mappings m = some ⟨g, a⟩) (hab : a.Next b)
    (hstage : a = .offer .call → ∀ g', inc.stage ≠ .storing g' m)
    (ha : a ≠ .mapped) (hb : b ≠ .mapped)
    (hmap : inc'.mappings = Function.update inc.mappings m (some ⟨g, b⟩))
    (hword : inc'.page.mappingSlot = inc.page.mappingSlot)
    (hoffered : inc'.page.offeredGeneration = inc.page.offeredGeneration)
    (hst : inc'.stage = inc.stage)
    (htasks : Turned inc inc' m (some a) (some b) (if a.unconsumed && !b.unconsumed then 1 else 0))
    (hholds : ∀ n, inc'.Holds n ↔ inc.Holds n) : inc.Follows inc' := by
  refine .turn h hsound hm hab hstage hmap hword hoffered hst htasks (fun n _ => hholds n) ?_
  rw [hholds m, h.holds m, tenant_of_mapping hm, Option.some.injEq]
  exact ⟨fun h0 => absurd h0 ha, fun h0 => absurd h0 hb⟩

/-- `setTenant` on a slot that has a tenant. -/
lemma setTenant_mappings {m g : ℕ} {a : Tenant} (hm : inc.mappings m = some ⟨g, a⟩) (b : Tenant) :
    (inc.setTenant m b).mappings = Function.update inc.mappings m (some ⟨g, b⟩) := by
  rw [setTenant, hm]
  rfl

/-! ### Grants and offers -/

/-- The drop of an unconsumed offer: the slot, then the offer. -/
lemma count_offerDrop (m : ℕ) (j : Task) :
    ((offerDrop m).map ThreadOp.owner).countP (·.task == some j) =
      (if some (Task.clear m) = some j then 1 else 0) + (if j = .endOffer then 1 else 0) := by
  cases j <;> simp [offerDrop, ThreadOp.task, OwnerOp.task, List.countP_cons]

lemma count_grantDrop (j : Task) :
    grantDrop.countP (·.task == some j) =
      (if some (Task.clear 0) = some j then 1 else 0) + (if j = .endOffer then 1 else 0) := by
  cases j <;> simp [grantDrop, ThreadOp.task, OwnerOp.task, List.countP_cons]

/-- A grant or an offer outside any call is passed on. -/
lemma Follows.sent (h : inc.Tended) (hsound : inc.tenancy.Sound (inc.frames + 2)) {m g : ℕ}
    {a b : Tenant} (hm : inc.mappings m = some ⟨g, a⟩) (hab : a.Next b)
    (ha : a.unconsumed = true) (hb : b.unconsumed = true) (ha' : a ≠ .offer .call)
    (hb' : b ≠ .offer .call) : inc.Follows (inc.setTenant m b) := by
  have hnone : ∀ T : Tenant, T.unconsumed = true → T ≠ .offer .call → T.task m = none := by
    intro T hT hcall
    cases T with
    | offer p => cases p <;> first | rfl | exact absurd rfl hcall
    | _ => first | rfl | cases hT
  refine .pass h hsound hm hab (fun h0 => absurd h0 ha') ?_ ?_ (setTenant_mappings hm b) rfl rfl
    rfl ?_ fun n => Holds.congr rfl (fun _ => rfl) rfl rfl
  · rintro rfl
    cases ha
  · rintro rfl
    cases hb
  · intro j _
    simp [hnone a ha ha', hnone b hb hb', ha, hb]
    rfl

/-- **A grant or an offer outside any call is dropped**: the slot is to be cleared, and
`OFFERED_GENERATION` behind it. -/
lemma Follows.dismissed (h : inc.Tended) (hsound : inc.tenancy.Sound (inc.frames + 2)) {m g : ℕ}
    {a : Tenant} (hm : inc.mappings m = some ⟨g, a⟩) (hab : a.Next .acknowledging)
    (ha : a.unconsumed = true) (ha' : a ≠ .offer .call) {role : Role} {todo : List ThreadOp}
    (hcount : ∀ j, todo.countP (·.task == some j) =
      (if some (Task.clear m) = some j then 1 else 0) + (if j = .endOffer then 1 else 0)) :
    inc.Follows ((inc.setTenant m .acknowledging).spawn role todo) := by
  have htask : a.task m = none := by
    cases a with
    | offer p => cases p <;> first | rfl | exact absurd rfl ha'
    | _ => first | rfl | cases ha
  have hspawn := tasks_spawn_setTenant inc m .acknowledging role todo
  refine .pass h hsound hm hab (fun h0 => absurd h0 ha') ?_ (by simp) (setTenant_mappings hm _)
    rfl rfl rfl ?_ fun n => Holds.congr rfl (fun _ => rfl) rfl ?_
  · rintro rfl
    cases ha
  · intro j _
    rw [hspawn j, hcount j]
    have hend : (a.unconsumed && !Tenant.acknowledging.unconsumed) = true := by rw [ha]; rfl
    rw [Option.bind_some, Option.bind_some, htask, if_pos hend, if_neg (c := none = some j) (by simp)]
    exact (Nat.add_assoc _ _ _).symm
  · rw [hspawn, hcount]
    simp

/-- The recipient consumes its grant. -/
lemma Follows.fromGrant (h : inc.Tended) (hsound : inc.tenancy.Sound (inc.frames + 2)) {g : ℕ}
    (hm : inc.mappings 0 = some ⟨g, .grant .client⟩) (hc : inc.consumer = none)
    {inc' : Incarnation}
    (hinc : inc' = ({ inc.setTenant 0 .mapped with
      consumer := some ⟨some 0⟩
      retirement := { inc.retirement with worker := true } } : Incarnation).spawn .consumer
        [.owner .clearOffered]) : inc.Follows inc' := by
  have hspawn : ∀ j, inc'.tasks j = inc.tasks j + (if j = .endOffer then 1 else 0) := by
    intro j
    rw [@tasks_spawn inc inc' _ _ (by rw [hinc]; rfl) (by rw [hinc]; rfl) (by rw [hinc]; rfl) j]
    cases j <;> simp [ThreadOp.task, OwnerOp.task]
  have hold : ∀ n, n ≠ 0 → (inc'.Holds n ↔ inc.Holds n) := by
    intro n hn
    have hdrop : inc'.tasks (.drop n) = inc.tasks (.drop n) := by simpa using hspawn (.drop n)
    rw [Holds, Holds, hdrop, hinc]
    simp [Keeps, spawn, setTenant, hc, Ne.symm hn]
  refine .turn h hsound hm (.granted .client) (by simp)
    (by rw [hinc]; exact setTenant_mappings hm .mapped) (by rw [hinc]; rfl) (by rw [hinc]; rfl)
    (by rw [hinc]; rfl) ?_ hold ?_
  · intro j _
    simp [hspawn j, Tenant.task, Tenant.unconsumed]
  · exact ⟨fun _ => rfl, fun _ => Or.inl (Or.inl (by rw [hinc]; rfl))⟩

/-- `install_with_resources` takes its offer. -/
lemma Follows.install (h : inc.Tended) (hsound : inc.tenancy.Sound (inc.frames + 2)) {m g : ℕ}
    (hm : inc.mappings m = some ⟨g, .offer .client⟩) :
    inc.Follows ((inc.setTenant m (.offer .call)).spawn .consumer [.installActive m]) := by
  have hspawn : ∀ j, ((inc.setTenant m (.offer .call)).spawn .consumer
      [.installActive m]).tasks j = inc.tasks j + (if some (Task.hold m) = some j then 1 else 0) := by
    intro j
    rw [tasks_spawn_setTenant]
    cases j <;> simp [ThreadOp.task, List.countP_cons]
  refine .pass h hsound hm (.offerPassed _ _) (by simp) (by simp) (by simp)
    (setTenant_mappings hm _) rfl rfl rfl ?_ fun n => Holds.congr rfl (fun _ => rfl) rfl ?_
  · intro j _
    rw [hspawn j]
    simp [Tenant.task, Tenant.unconsumed]
  · simp [hspawn]

/-- **An operation of an owner's end**, wherever it runs: `pop` is the incarnation without it. -/
lemma Follows.owner (h : inc.Tended) (hsound : inc.tenancy.Sound (inc.frames + 2)) {op : OwnerOp}
    {pop : Incarnation} (hmap₀ : pop.mappings = inc.mappings) (hpage₀ : pop.page = inc.page)
    (hmap : inc'.mappings = (op.exec pop).1.mappings) (hpage : inc'.page = (op.exec pop).1.page)
    (hst : inc'.stage = inc.stage) (hc : inc'.consumer = inc.consumer)
    (hu : inc'.uses = inc.uses) (hs : inc'.retirement.slots = inc.retirement.slots)
    (hcount : ∀ j, inc'.tasks j + (if op.task = some j then 1 else 0) =
      inc.tasks j + (op.exec pop).2.countP (·.task == some j))
    (hheld : ∀ m holder, op = .drop m holder → (pop.held m = true ↔ inc'.Holds m)) :
    inc.Follows inc' := by
  have hnext := op.exec_tasks pop
  have hpos : ∀ j, op.task = some j → inc.tasks j ≠ 0 := by
    intro j hj
    have hcount := hcount j
    rw [if_pos hj, op.exec_task_ne pop hj] at hcount
    omega
  have hother : ∀ n, op.task ≠ some (.drop n) → (inc'.Holds n ↔ inc.Holds n) := by
    intro n hn
    refine Holds.congr (by rw [hc]) (fun _ => by rw [hu]) hs ?_
    have hn' := hcount (.drop n)
    rw [if_neg hn, hnext n] at hn'
    exact hn'
  cases op with
  | drop m holder =>
      have hheld := hheld m holder rfl
      have hmapped := (h.holds m).mp (Or.inr (hpos _ rfl))
      obtain ⟨⟨g, T⟩, hm, rfl⟩ := Option.map_eq_some_iff.mp hmapped
      have hne : ∀ n, n ≠ m → (inc'.Holds n ↔ inc.Holds n) := fun n hn =>
        hother n (by simpa [OwnerOp.task] using Ne.symm hn)
      have hdrop : ∀ j, (∀ n, j ≠ .drop n) → ¬ (OwnerOp.drop m holder).task = some j := by
        rintro j hj h0
        cases h0
        exact hj m rfl
      rw [OwnerOp.exec] at hmap hpage hcount
      split_ifs at hmap hpage hcount with hx
      · -- another handle is left
        refine .same h (hmap.trans hmap₀) (by rw [hpage, hpage₀]) (by rw [hpage, hpage₀]) hst ?_ ?_
        · intro j hj
          have := hcount j
          rwa [if_neg (hdrop j hj), List.countP_nil] at this
        · intro n
          by_cases hn : n = m
          · subst hn
            exact ⟨fun _ => Or.inr (hpos _ rfl), fun _ => hheld.mp hx⟩
          · exact hne n hn
      · refine .turn h hsound hm .dropped (by simp) ?_ (by rw [hpage]; exact congrArg _ hpage₀)
          (by rw [hpage]; exact congrArg _ hpage₀) hst ?_ hne ?_
        · rw [hmap, setTenant_mappings (hmap₀ ▸ hm), hmap₀]
        · intro j hj
          have := hcount j
          rw [if_neg (hdrop j hj)] at this
          simpa [Tenant.task, Tenant.unconsumed, OwnerOp.task, List.countP_cons] using this
        · simpa [← hheld] using hx
  | unmap m holder =>
      obtain ⟨g, hm⟩ := h.mapping_of_task rfl (hpos (.unmap m) rfl)
      refine .pass h hsound hm .unmapped (by simp) (by simp) (by simp) ?_
        (by rw [hpage]; exact congrArg _ hpage₀) (by rw [hpage]; exact congrArg _ hpage₀) hst ?_
        fun n => hother n (by simp [OwnerOp.task])
      · rw [hmap]
        exact (setTenant_mappings (hmap₀ ▸ hm) _).trans (by rw [hmap₀])
      · intro j hj
        have := hcount j
        simpa [Tenant.task, Tenant.unconsumed, OwnerOp.task, OwnerOp.exec, List.countP_cons]
          using this
  | clear m holder =>
      obtain ⟨g, hm⟩ := h.mapping_of_task rfl (hpos (.clear m) rfl)
      have hnone : ¬ inc.Holds m := by
        rw [h.holds m, tenant_of_mapping hm]
        simp
      have hmap : inc'.mappings = Function.update inc.mappings m none := by
        rw [hmap, ← hmap₀]
        rfl
      have hcount : ∀ j, inc'.tasks j + (if some (Task.clear m) = some j then 1 else 0) =
          inc.tasks j := hcount
      constructor
      case tended =>
        refine h.turn (e := 0) hmap ?_ (fun n _ => hother n (by simp [OwnerOp.task])) ?_
        · intro j _
          simpa [tenant_of_mapping hm, Tenant.task] using hcount j
        · simpa [hother m (by simp [OwnerOp.task])] using hnone
      case step =>
        have heq : inc'.tenancy = { inc.tenancy with
            mapping := Function.update inc.tenancy.mapping m none
            word := Function.update inc.tenancy.word m 0 } := by
          have hend := hcount .endOffer
          simp only [Option.some.injEq, reduceCtorEq, if_false, Nat.add_zero] at hend
          rw [tenancy, tenancy, hmap, hpage, hst, hend]
          simp only [OwnerOp.exec, ClaimPage.storeMapping, hpage₀]
        rw [heq]
        exact .free m g hm
  | clearOffered =>
      have hcount : ∀ j, inc'.tasks j + (if some Task.endOffer = some j then 1 else 0) =
          inc.tasks j := hcount
      constructor
      case tended =>
        refine h.same (hmap.trans hmap₀) (fun j hj => ?_) fun n =>
          hother n (by simp [OwnerOp.task])
        have := hcount j
        rwa [if_neg (by rintro ⟨⟩; exact hj rfl)] at this
      case step =>
        have heq : inc'.tenancy = { inc.tenancy with
            offered := 0
            ending := inc.tenancy.ending - 1 } := by
          have hend := hcount .endOffer
          simp only [if_true] at hend
          rw [tenancy, tenancy, hmap, hpage, hst]
          simp only [OwnerOp.exec, hmap₀, hpage₀]
          congr 1
          omega
        rw [heq]
        exact .cleared (hpos _ rfl)

/-! ### Threads -/

/-- A thread that has the offer of a slot is not `configuration_offer` before it announces it. -/
lemma Tended.not_storing (h : inc.Tended) {m : ℕ}
    (hpos : inc.pending (·.task == some (.hold m)) ≠ 0) (g : ℕ) : inc.stage ≠ .storing g m := by
  intro hst
  have hhost := hold_of_storing hst
  have htasks := h.tasks (.hold m) m (.offer .call) rfl
  rw [Incarnation.tasks] at htasks
  split_ifs at htasks <;> omega

/-- The producer has no handle to drop. -/
lemma Hosted.count_drop (h : inc.Hosted) (m : ℕ) :
    inc.host.countP (·.task == some (.drop m)) = 0 := by
  rw [List.countP_eq_zero]
  intro op hop htask
  have hproper := h.proper op hop
  cases op with
  | owner op =>
      cases op with
      | drop k holder => exact hproper
      | unmap k holder => exact hproper
      | clear k holder => simp [HostOp.task, OwnerOp.task] at htask
      | clearOffered => simp [HostOp.task, OwnerOp.task] at htask
  | _ => simp [HostOp.task] at htask

/-- What is left of a handle while its drop looks for others. -/
lemma held_pop {pop : Incarnation} {op : OwnerOp} {m : ℕ}
    (hrange : ∀ k, pop.frames ≤ k → pop.uses k = none ∧ pop.retirement.slots k = none)
    (hh : pop.Hosted) (hc : inc'.consumer = pop.consumer) (hu : inc'.uses = pop.uses)
    (hs : inc'.retirement.slots = pop.retirement.slots)
    (hpop : pop.tasks (.drop m) + (if op.task = some (.drop m) then 1 else 0) =
      inc.tasks (.drop m))
    (hcount : inc'.tasks (.drop m) + (if op.task = some (.drop m) then 1 else 0) =
      inc.tasks (.drop m) + (op.exec pop).2.countP (·.task == some (.drop m))) :
    pop.held m = true ↔ inc'.Holds m := by
  rw [held_iff hrange (hh.count_drop m)]
  refine (Holds.congr (by rw [hc]) (fun _ => by rw [hu]) hs ?_).symm
  rw [op.exec_tasks pop m] at hcount
  omega

/-- The rest of `install_with_resources` for the offer that is installed. -/
lemma Follows.installed (h : inc.Tended) (hsound : inc.tenancy.Sound (inc.frames + 2)) {t m : ℕ}
    {rest : List ThreadOp} {role : Role}
    (ht : inc.threads[t]? = some ⟨.installConfiguration m :: rest, role⟩)
    (hinc : inc' = { ({ inc.setTenant m .mapped with consumer := some ⟨some m⟩ } :
        Incarnation) with
      threads := inc.threads.set t ⟨((inc.consumer.bind Consumer.resources).toList.map
        (fun old => ThreadOp.owner (.drop old .consumer)) ++ [.owner .clearOffered]) ++ rest,
          role⟩ }) : inc.Follows inc' := by
  have hpos : inc.pending (·.task == some (.hold m)) ≠ 0 :=
    (pending_pos (List.mem_of_getElem? ht) List.mem_cons_self (by simp [ThreadOp.task])).ne'
  obtain ⟨g, hm⟩ := h.mapping_of_task (j := .hold m) rfl (by rw [Incarnation.tasks]; omega)
  have hcount : ∀ j, inc'.tasks j + (if some (Task.hold m) = some j then 1 else 0) = inc.tasks j +
      ((if (inc.consumer.bind Consumer.resources).map Task.drop = some j then 1 else 0) +
        (if j = .endOffer then 1 else 0)) := by
    intro j
    have hthread : inc'.tasks j + (if some (Task.hold m) = some j then 1 else 0) = _ :=
      tasks_thread ht (by rw [hinc]) (by rw [hinc]; rfl) (by rw [hinc]; rfl)
    refine hthread.trans (congrArg _ ?_)
    rw [List.countP_append]
    cases inc.consumer.bind Consumer.resources with
    | none => cases j <;> simp [ThreadOp.task, OwnerOp.task]
    | some old => cases j <;> simp [ThreadOp.task, OwnerOp.task, List.countP_cons]
  refine .turn h hsound hm (.installed .call) (fun _ => h.not_storing hpos)
    (by rw [hinc]; exact setTenant_mappings hm .mapped) (by rw [hinc]; rfl) (by rw [hinc]; rfl)
    (by rw [hinc]; rfl) ?_ ?_ ?_
  · intro j hj
    have := hcount j
    rw [if_neg (c := (inc.consumer.bind Consumer.resources).map Task.drop = some j)] at this
    · simpa [Tenant.task, Tenant.unconsumed] using this
    · intro h0
      obtain ⟨old, -, rfl⟩ := Option.map_eq_some_iff.mp h0
      exact hj old rfl
  · -- the old handle is still to be dropped
    intro n hn
    refine Holds.dropped (x := inc.consumer.bind Consumer.resources) ?_ ?_
    · have hdrop := hcount (.drop n)
      simp only [Option.some.injEq, reduceCtorEq, if_false, Nat.add_zero,
        Option.map_eq_some_iff, Task.drop.injEq, exists_eq_right] at hdrop
      exact hdrop
    · have hne : ¬ some m = some n := by simpa using Ne.symm hn
      rw [hinc]
      show (_ ∨ _) ↔ (some m = some n ∨ _) ∨ _
      rw [or_iff_right hne]
      exact or_comm
  · exact ⟨fun _ => rfl, fun _ => Or.inl (Or.inl (by rw [hinc]; rfl))⟩

/-- An operation of an owner's end in a thread. -/
lemma Follows.threadOwner (h : inc.Tended) (hsound : inc.tenancy.Sound (inc.frames + 2))
    (hh : inc.Hosted)
    (hrange : ∀ k, inc.frames ≤ k → inc.uses k = none ∧ inc.retirement.slots k = none) {t : ℕ}
    {op : OwnerOp} {rest : List ThreadOp} {role : Role}
    (ht : inc.threads[t]? = some ⟨.owner op :: rest, role⟩) {pop : Incarnation}
    (hpop : pop = { inc with threads := inc.threads.set t ⟨rest, role⟩ })
    (hinc : inc' = { (op.exec pop).1 with
      threads := inc.threads.set t ⟨(op.exec pop).2.map .owner ++ rest, role⟩ }) :
    inc.Follows inc' := by
  obtain ⟨maps, ms, o, hp⟩ := op.exec_shape pop
  have hhost : inc'.host = inc.host := by rw [hinc, hp, hpop]
  have hconsumer : inc'.consumer = inc.consumer := by rw [hinc, hp, hpop]
  have huses : inc'.uses = inc.uses := by rw [hinc, hp, hpop]
  have hretirement : inc'.retirement = inc.retirement := by rw [hinc, hp, hpop]
  have hcount : ∀ j, inc'.tasks j + (if op.task = some j then 1 else 0) =
      inc.tasks j + (op.exec pop).2.countP (·.task == some j) := by
    intro j
    have hthread := tasks_thread (j := j) ht (by rw [hinc]) (by rw [hretirement]) hhost
    rw [List.countP_map] at hthread
    exact hthread
  refine .owner h hsound (by rw [hpop]) (by rw [hpop]) (by rw [hinc]) (by rw [hinc])
    (by rw [stage, stage, hhost]) hconsumer huses (by rw [hretirement]) hcount fun m holder hop => ?_
  refine held_pop (by rw [hpop]; exact hrange) (hh.congr (by rw [hpop])) ?_ ?_ ?_ ?_ (hcount _)
  · rw [hconsumer, hpop]
  · rw [huses, hpop]
  · rw [hretirement, hpop]
  · have hthread : pop.tasks (.drop m) + (if op.task = some (.drop m) then 1 else 0) =
        inc.tasks (.drop m) + ([] : List ThreadOp).countP (·.task == some (.drop m)) :=
      tasks_thread ht (by rw [hpop, List.nil_append]) (by rw [hpop]) (by rw [hpop])
    exact hthread

/-- `install_with_resources` refuses its offer and drops it. -/
lemma Follows.refused (h : inc.Tended) (hsound : inc.tenancy.Sound (inc.frames + 2)) {t m : ℕ}
    {op : ThreadOp} {rest : List ThreadOp} {role : Role}
    (ht : inc.threads[t]? = some ⟨op :: rest, role⟩) (hop : op.Installs m)
    (hinc : inc' = { inc.setTenant m .acknowledging with
      threads := inc.threads.set t ⟨(offerDrop m).map .owner ++ rest, role⟩ }) :
    inc.Follows inc' := by
  have htask := hop.task
  have hpos : inc.pending (·.task == some (.hold m)) ≠ 0 :=
    (pending_pos (List.mem_of_getElem? ht) List.mem_cons_self (by simp [htask])).ne'
  obtain ⟨g, hm⟩ := h.mapping_of_task (j := .hold m) rfl (by rw [Incarnation.tasks]; omega)
  have hcount : ∀ j, inc'.tasks j + (if some (Task.hold m) = some j then 1 else 0) =
      inc.tasks j + ((if some (Task.clear m) = some j then 1 else 0) +
        (if j = .endOffer then 1 else 0)) := by
    intro j
    have hthread : inc'.tasks j + (if op.task = some j then 1 else 0) = _ :=
      tasks_thread ht (by rw [hinc]) (by rw [hinc]; rfl) (by rw [hinc]; rfl)
    rw [htask, count_offerDrop] at hthread
    exact hthread
  refine .pass h hsound hm (.offerDropped .call) (fun _ => h.not_storing hpos) (by simp) (by simp)
    (by rw [hinc]; exact setTenant_mappings hm _) (by rw [hinc]; rfl) (by rw [hinc]; rfl)
    (by rw [hinc]; rfl) ?_ fun n => Holds.congr (by rw [hinc]; rfl) (fun _ => by rw [hinc]; rfl)
      (by rw [hinc]; rfl) ?_
  · intro j _
    simpa [Tenant.task, Tenant.unconsumed, Nat.add_assoc] using hcount j
  · simpa using hcount (.drop n)

/-- **A thread's step.** -/
lemma Follows.thread (h : inc.Tended) (hsound : inc.tenancy.Sound (inc.frames + 2))
    (hh : inc.Hosted)
    (hrange : ∀ k, inc.frames ≤ k → inc.uses k = none ∧ inc.retirement.slots k = none) {e : Env}
    {t : ℕ} (hs : inc.threadStep sh e t = some inc') : inc.Follows inc' := by
  obtain ⟨op, rest, role, mid, next, ht, -, hacts, rfl⟩ := threadStep_acts hs
  -- nothing but the thread changes, and it has the same task
  have quiet : ∀ {i : Incarnation}, i.threads = inc.threads.set t ⟨next ++ rest, role⟩ →
      (∀ j, next.countP (·.task == some j) = if op.task = some j then 1 else 0) →
      i.mappings = inc.mappings → i.page.mappingSlot = inc.page.mappingSlot →
      i.page.offeredGeneration = inc.page.offeredGeneration → i.host = inc.host →
      i.consumer = inc.consumer → i.uses = inc.uses →
      i.retirement.slots = inc.retirement.slots →
      (∀ j, i.retirement.todo.countP (·.task == some j) =
        inc.retirement.todo.countP (·.task == some j)) → inc.Follows i := by
    intro i hthreads hnext hmap hword hoff hhost hc hu hslots htodo
    refine .idle h hmap hword hoff hhost hc (fun _ => by rw [hu]) hslots fun j => ?_
    have := tasks_thread ht hthreads (htodo j) hhost
    have := hnext j
    omega
  cases hacts with
  | page op e =>
      obtain ⟨a, q, c, w, hp⟩ := op.exec_shape e
        { inc with threads := inc.threads.set t ⟨rest, role⟩ }
      have hnone : ∀ j, ((op.exec e { inc with
          threads := inc.threads.set t ⟨rest, role⟩ }).2.map ThreadOp.page).countP
            (·.task == some j) = 0 := by
        intro j
        rw [List.countP_map, List.countP_eq_zero]
        exact fun _ _ => by simp [ThreadOp.task]
      rw [hp]
      exact quiet rfl hnone rfl rfl rfl rfl rfl rfl rfl fun _ => rfl
  | owner op => exact .threadOwner h hsound hh hrange ht rfl rfl
  | refuse op m hop => exact .refused h hsound ht hop rfl
  | installed m hg => exact .installed h hsound ht rfl
  | installActive m =>
      exact quiet rfl (fun j => by rw [List.countP_singleton]; simp [ThreadOp.task]) rfl rfl rfl rfl
        rfl rfl rfl fun _ => rfl
  | installTerminal m =>
      exact quiet rfl (fun j => by rw [List.countP_singleton]; simp [ThreadOp.task]) rfl rfl rfl rfl
        rfl rfl rfl fun _ => rfl
  | installMap m =>
      exact quiet rfl (fun j => by rw [List.countP_singleton]; simp [ThreadOp.task]) rfl rfl rfl rfl
        rfl rfl rfl fun _ => rfl
  | enter s htodo =>
      refine quiet rfl (fun j => rfl) rfl rfl rfl rfl rfl rfl rfl fun j => ?_
      rw [htodo]
      cases s <;> rfl
  | bindRefused op t hop =>
      rcases hop with rfl | rfl | rfl <;>
        exact quiet rfl (fun j => rfl) rfl rfl rfl rfl rfl rfl rfl fun _ => rfl
  | _ => exact quiet rfl (fun j => rfl) rfl rfl rfl rfl rfl rfl rfl fun _ => rfl

/-! ### The section under the retirement mutex -/

/-- `State::poll` takes the resources of a completed slot to drop them. -/
lemma Follows.retired (h : inc.Tended) {k : ℕ} {p : Pending} {rest : List SectionOp}
    (hp : inc.retirement.slots k = some p) (htodo : inc.retirement.todo = .retire k :: rest)
    (hinc : inc' = { inc with retirement := { inc.retirement with
      slots := Function.update inc.retirement.slots k none
      todo := .drop k (.drop p.owner (.retirement k)) :: rest } }) : inc.Follows inc' := by
  have hcount : ∀ j, inc'.tasks j =
      inc.tasks j + (if some (Task.drop p.owner) = some j then 1 else 0) := by
    intro j
    have hsection : inc'.tasks j + (if (SectionOp.retire k).task = some j then 1 else 0) =
        inc.tasks j + [SectionOp.drop k (.drop p.owner (.retirement k))].countP
          (·.task == some j) :=
      tasks_section htodo (by rw [hinc]; rfl) (by rw [hinc]; rfl) (by rw [hinc])
    rw [List.countP_singleton] at hsection
    simpa [SectionOp.task, OwnerOp.task] using hsection
  refine .same h (by rw [hinc]) (by rw [hinc]) (by rw [hinc]) (by rw [hinc]; rfl) ?_ ?_
  · intro j hj
    have hne : ¬ some (Task.drop p.owner) = some j := by
      rintro ⟨⟩
      exact hj _ rfl
    rw [hcount j, if_neg hne, Nat.add_zero]
  · intro n
    refine Holds.dropped (x := some p.owner) (by simpa using hcount (.drop n)) ?_
    have hslots := exists_update_none (f := inc.retirement.slots) (g := Option.map Pending.owner)
      (k := k) (x := some p.owner) rfl (by rw [hp, Option.map_some]) n
    rw [Keeps, hslots, hinc, Keeps]
    tauto

/-- An operation of an owner's end under the mutex. -/
lemma Follows.sectionOwner (h : inc.Tended) (hsound : inc.tenancy.Sound (inc.frames + 2))
    (hh : inc.Hosted)
    (hrange : ∀ k, inc.frames ≤ k → inc.uses k = none ∧ inc.retirement.slots k = none)
    {e : Env} {k : ℕ} {op : OwnerOp} {rest : List SectionOp}
    (htodo : inc.retirement.todo = .drop k op :: rest) {pop : Incarnation}
    (hpop : pop = { inc with retirement := { inc.retirement with todo := rest } })
    (hinc : inc' = { (SectionOp.exec e pop (.drop k op)).1 with
      retirement := { (SectionOp.exec e pop (.drop k op)).1.retirement with
        todo := (SectionOp.exec e pop (.drop k op)).2 ++ rest } }) : inc.Follows inc' := by
  obtain ⟨maps, ms, o, hp⟩ := op.exec_shape pop
  obtain ⟨next, hexec, hnext⟩ : ∃ next, SectionOp.exec e pop (.drop k op) = ((op.exec pop).1, next) ∧
      ∀ j, next.countP (·.task == some j) = (op.exec pop).2.countP (·.task == some j) := by
    rw [SectionOp.exec]
    cases op with
    | drop m holder =>
        rw [OwnerOp.exec]
        split_ifs
        · exact ⟨_, rfl, fun j => rfl⟩
        · exact ⟨_, rfl, fun j => rfl⟩
    | unmap m holder => exact ⟨_, rfl, fun j => rfl⟩
    | clear m holder => exact ⟨_, rfl, fun j => rfl⟩
    | clearOffered => exact ⟨_, rfl, fun j => rfl⟩
  rw [hexec] at hinc
  have hhost : inc'.host = inc.host := by rw [hinc, hp, hpop]
  have hthreads : inc'.threads = inc.threads := by rw [hinc, hp, hpop]
  have hconsumer : inc'.consumer = inc.consumer := by rw [hinc, hp, hpop]
  have huses : inc'.uses = inc.uses := by rw [hinc, hp, hpop]
  have hslots : inc'.retirement.slots = inc.retirement.slots := by rw [hinc, hp, hpop]
  have hcount : ∀ j, inc'.tasks j + (if op.task = some j then 1 else 0) =
      inc.tasks j + (op.exec pop).2.countP (·.task == some j) := by
    intro j
    have hsection := tasks_section (j := j) htodo (by rw [hinc]) (pending_congr hthreads) hhost
    rw [hnext] at hsection
    exact hsection
  refine .owner h hsound (by rw [hpop]) (by rw [hpop]) (by rw [hinc]) (by rw [hinc])
    (by rw [stage, stage, hhost]) hconsumer huses hslots hcount fun m holder hop => ?_
  refine held_pop (by rw [hpop]; exact hrange) (hh.congr (by rw [hpop])) ?_ ?_ ?_ ?_ (hcount _)
  · rw [hconsumer, hpop]
  · rw [huses, hpop]
  · rw [hslots, hpop]
  · have hsection : pop.tasks (.drop m) + (if op.task = some (.drop m) then 1 else 0) =
        inc.tasks (.drop m) + ([] : List SectionOp).countP (·.task == some (.drop m)) :=
      tasks_section htodo (by rw [hpop, List.nil_append]) (by rw [hpop]; rfl) (by rw [hpop])
    exact hsection

/-- **A step under the retirement mutex.** -/
lemma Follows.retire (h : inc.Tended) (hsound : inc.tenancy.Sound (inc.frames + 2))
    (hh : inc.Hosted)
    (hrange : ∀ k, inc.frames ≤ k → inc.uses k = none ∧ inc.retirement.slots k = none) {e : Env}
    (hs : inc.retireStep e = some inc') : inc.Follows inc' := by
  obtain ⟨op, rest, htodo, -, hinc⟩ := retireStep_shape hs
  -- nothing but the section changes, and it has no task
  have quiet : ∀ (mid : Incarnation) (next : List SectionOp),
      op.exec e { inc with retirement := { inc.retirement with todo := rest } } = (mid, next) →
      op.task = none → (∀ j, next.countP (·.task == some j) = 0) →
      mid.threads = inc.threads → mid.mappings = inc.mappings →
      mid.page.mappingSlot = inc.page.mappingSlot →
      mid.page.offeredGeneration = inc.page.offeredGeneration → mid.host = inc.host →
      mid.consumer = inc.consumer → mid.uses = inc.uses →
      mid.retirement.slots = inc.retirement.slots → inc.Follows inc' := by
    intro mid next hexec htask hnext hthreads hmap hword hoff hhost hc hu hslots
    simp only [hexec] at hinc
    have hthreads : inc'.threads = inc.threads := by rw [hinc, ← hthreads]
    have hhost : inc'.host = inc.host := by rw [hinc, ← hhost]
    refine .idle h (by rw [hinc, ← hmap]) (by rw [hinc, ← hword]) (by rw [hinc, ← hoff]) hhost
      (by rw [hinc, ← hc]) (fun _ => by rw [hinc, ← hu]) (by rw [hinc, ← hslots]) fun j => ?_
    have hsection := tasks_section (j := j) htodo (by rw [hinc]) (pending_congr hthreads) hhost
    rw [htask, hnext j] at hsection
    simpa using hsection
  cases op with
  | page op =>
      obtain ⟨a, q, c, w, hp⟩ := op.exec_shape e
        { inc with retirement := { inc.retirement with todo := rest } }
      have hnone : ∀ j, ((op.exec e
          { inc with retirement := { inc.retirement with todo := rest } }).2.map
            SectionOp.page).countP (·.task == some j) = 0 := by
        intro j
        rw [List.countP_map, List.countP_eq_zero]
        exact fun _ _ => by simp [SectionOp.task]
      have hexec : SectionOp.exec e { inc with retirement := { inc.retirement with todo := rest } }
          (.page op) = ((op.exec e _).1, (op.exec e _).2.map .page) := rfl
      rw [hp] at hexec
      exact quiet _ _ hexec rfl hnone rfl rfl rfl rfl rfl rfl rfl rfl
  | drop k op => exact .sectionOwner h hsound hh hrange htodo rfl hinc
  | retire k =>
      rcases SectionOp.retire_cases e
        { inc with retirement := { inc.retirement with todo := rest } } k with
        heq | heq | heq | ⟨p, hp, -, heq⟩
      · refine quiet _ _ heq rfl (fun j => ?_) rfl rfl rfl rfl rfl rfl rfl rfl
        split_ifs <;> rfl
      · exact quiet _ _ heq rfl (fun j => rfl) rfl rfl rfl rfl rfl rfl rfl rfl
      · exact quiet _ _ heq rfl (fun j => rfl) rfl rfl rfl rfl rfl rfl rfl rfl
      · simp only [heq] at hinc
        exact .retired h hp htodo hinc
  | poll =>
      refine quiet _ _ rfl rfl (fun j => ?_) rfl rfl rfl rfl rfl rfl rfl rfl
      split_ifs <;> rfl
  | storePending k =>
      have hthreads : inc'.threads = inc.threads ++ [⟨[.dropLifetime], .free⟩] := by rw [hinc]; rfl
      have huses : inc'.uses = Function.update inc.uses k
          ((inc.uses k).map fun u => { u with pc := .deferred }) := by
        rw [hinc]
        rfl
      refine .idle h (by rw [hinc]; rfl) (by rw [hinc]; rfl) (by rw [hinc]; rfl) (by rw [hinc]; rfl)
        (by rw [hinc]; rfl) (fun n => ?_) (by rw [hinc]; rfl) fun j => ?_
      · rw [huses]
        by_cases hn : n = k
        · subst hn
          cases hu : inc.uses n <;> simp
        · rw [Function.update_of_ne hn]
      · have hpending : inc'.pending (·.task == some j) = inc.pending (·.task == some j) := by
          rw [pending_spawn hthreads]
          simp [ThreadOp.task]
        have hsection : inc'.tasks j + (if (SectionOp.storePending k).task = some j then 1 else 0) =
            inc.tasks j + ([] : List SectionOp).countP (·.task == some j) :=
          tasks_section htodo (by rw [hinc]; rfl) hpending (by rw [hinc]; rfl)
        simpa [SectionOp.task] using hsection
  | _ => exact quiet _ _ rfl rfl (fun j => rfl) rfl rfl rfl rfl rfl rfl rfl rfl

/-! ### The producer's call -/

/-- What the producer does next decides the stage: behind it there is no offer. -/
lemma stage_append {next rest : List HostOp} (hrest : ∀ x ∈ rest, x.Plain)
    (hhost : inc'.host = next ++ rest) :
    inc'.stage = (next.head?.map HostOp.stage).getD .idle := by
  rw [stage, hhost]
  cases next with
  | cons op next => rfl
  | nil =>
      cases rest with
      | nil => rfl
      | cons op rest => exact (hrest op List.mem_cons_self).stage

/-- Only the stage changes. -/
lemma Follows.staged (h : inc.Tended) (hmap : inc'.mappings = inc.mappings)
    (hword : inc'.page.mappingSlot = inc.page.mappingSlot)
    (hoffered : inc'.page.offeredGeneration = inc.page.offeredGeneration)
    (hc : inc'.consumer = inc.consumer) (hu : inc'.uses = inc.uses)
    (hs : inc'.retirement.slots = inc.retirement.slots)
    (htasks : ∀ j, inc'.tasks j = inc.tasks j) {stage : Stage} (hst : inc'.stage = stage)
    (hstep : inc.tenancy.Step (inc.frames + 2) { inc.tenancy with stage }) : inc.Follows inc' := by
  refine ⟨h.same hmap (fun j _ => htasks j) fun m => Holds.congr (by rw [hc]) (fun _ => by rw [hu])
    hs (htasks _), ?_⟩
  have heq : inc'.tenancy = { inc.tenancy with stage } := by
    rw [tenancy, tenancy, hmap, hword, hoffered, htasks .endOffer, hst]
  rw [heq]
  exact hstep

/-- `configuration_offer` takes a mapping slot, which had no tenant. -/
lemma Follows.taken (h : inc.Tended) (hsound : inc.tenancy.Sound (inc.frames + 2)) {g m : ℕ}
    {rest : List HostOp} (hhost : inc.host = .offerSlot g m :: rest)
    (hrest : ∀ x ∈ rest, x.Plain) (hfree : inc.page.mappingSlot m = 0)
    (hinc : inc' = { inc with
      page := inc.page.storeMapping m g
      mappings := Function.update inc.mappings m (some ⟨g, .offer .call⟩)
      host := [HostOp.offerStore g m] ++ rest }) : inc.Follows inc' := by
  have hnone : inc.tenant m = none := by
    have hm : inc.mappings m = none := hsound.mapping_eq_none hfree
    rw [tenant, hm, Option.map_none]
  have hcount : ∀ j, inc'.tasks j =
      inc.tasks j + (if some (Task.hold m) = some j then 1 else 0) := by
    intro j
    have hstep : inc'.tasks j + (if (HostOp.offerSlot g m).task = some j then 1 else 0) =
        inc.tasks j + [HostOp.offerStore g m].countP (·.task == some j) :=
      tasks_host hhost (by rw [hinc]) (by rw [hinc]) (by rw [hinc])
    rw [List.countP_singleton] at hstep
    simpa [HostOp.task] using hstep
  have hholds : ∀ n, inc'.Holds n ↔ inc.Holds n := fun n =>
    Holds.congr (by rw [hinc]) (fun _ => by rw [hinc]) (by rw [hinc]) (by simp [hcount])
  constructor
  case tended =>
    refine h.turn (e := 0) (by rw [hinc]) ?_ (fun n _ => hholds n) ?_
    · intro j _
      simpa [hnone, Tenant.task] using hcount j
    · simp [hholds m, h.holds m, hnone]
  case step =>
    have hhost' : inc'.host = [HostOp.offerStore g m] ++ rest := by rw [hinc]
    have hstage : inc'.stage = .storing g m := stage_append hrest hhost'
    have heq : inc'.tenancy = { inc.tenancy with
        mapping := Function.update inc.tenancy.mapping m (some ⟨g, .offer .call⟩)
        word := Function.update inc.tenancy.word m g
        stage := .storing g m } := by
      rw [tenancy, tenancy, hstage, hcount .endOffer, hinc]
      rfl
    rw [heq]
    refine .taken g m ?_ hfree
    show inc.stage = _
    rw [stage, hhost]
    rfl

/-- **A step of the producer's call.** -/
lemma Follows.host (h : inc.Tended) (hsound : inc.tenancy.Sound (inc.frames + 2))
    (hh : inc.Hosted) {e : Env} (hs : inc.hostStep e = some inc') : inc.Follows inc' := by
  obtain ⟨op, rest, hhost, hinc⟩ := hostStep_shape hs
  have hrest : ∀ x ∈ rest, x.Plain := by
    have htail := hh.tail
    rw [hhost] at htail
    exact htail
  have hstage : inc.stage = op.stage := by
    rw [stage, hhost]
    rfl
  -- nothing but the stage and the reply change
  have quiet : ∀ (mid : Incarnation) (next : List HostOp), op.exec e inc = (mid, next) →
      (∀ j, next.countP (·.task == some j) = if op.task = some j then 1 else 0) →
      mid.threads = inc.threads → mid.mappings = inc.mappings →
      mid.page.mappingSlot = inc.page.mappingSlot →
      mid.page.offeredGeneration = inc.page.offeredGeneration →
      mid.consumer = inc.consumer → mid.uses = inc.uses → mid.retirement = inc.retirement →
      ∀ stage, (next.head?.map HostOp.stage).getD .idle = stage →
      inc.tenancy.Step (inc.frames + 2) { inc.tenancy with stage } → inc.Follows inc' := by
    intro mid next hexec hnext hthreads hmap hword hoff hc hu hr stage hst hstep
    rw [hexec] at hinc
    have hhost' : inc'.host = next ++ rest := by rw [hinc]
    have hthreads : inc'.threads = inc.threads := by rw [hinc, ← hthreads]
    have hretirement : inc'.retirement = inc.retirement := by rw [hinc, ← hr]
    refine .staged h (by rw [hinc, ← hmap]) (by rw [hinc, ← hword]) (by rw [hinc, ← hoff])
      (by rw [hinc, ← hc]) (by rw [hinc, ← hu]) (by rw [hretirement]) (fun j => ?_)
      ((stage_append hrest hhost').trans hst) hstep
    have hcount := tasks_host (j := j) hhost hhost' hthreads (by rw [hretirement])
    rw [hnext j] at hcount
    omega
  have same : ∀ stage, inc.stage = stage →
      inc.tenancy.Step (inc.frames + 2) { inc.tenancy with stage } := by
    rintro stage rfl
    exact .same
  have stopped : (∀ g m, op.stage ≠ .storing g m) →
      inc.tenancy.Step (inc.frames + 2) { inc.tenancy with stage := .idle } := fun hne =>
    .stopped fun g m h0 => hne g m (hstage.symm.trans h0)
  cases op with
  | page op =>
      obtain ⟨a, q, c, w, hp⟩ := op.exec_shape e inc
      have hnone : ∀ j, ((op.exec e inc).2.map HostOp.page).countP (·.task == some j) = 0 := by
        intro j
        rw [List.countP_map, List.countP_eq_zero]
        exact fun _ _ => by simp [HostOp.task]
      have hidle : (((op.exec e inc).2.map HostOp.page).head?.map HostOp.stage).getD .idle =
          .idle := by
        cases (op.exec e inc).2 <;> rfl
      have hexec : HostOp.exec e inc (.page op) = ({ (op.exec e inc).1 with
          hostFault := (op.exec e inc).1.hostFault || (op == .wake && !e.broken && e.fail) },
          (op.exec e inc).2.map .page) := rfl
      rw [hp] at hexec
      exact quiet _ _ hexec hnone rfl rfl rfl rfl rfl rfl rfl .idle hidle (same _ hstage)
  | owner op =>
      obtain ⟨maps, ms, o, hp⟩ := op.exec_shape inc
      have hproper := hh.proper (.owner op) (by rw [hhost]; exact List.mem_cons_self)
      have hhost' : inc'.host = (op.exec inc).2.map .owner ++ rest := by rw [hinc]; rfl
      have hthreads : inc'.threads = inc.threads := by
        rw [hinc]
        show (op.exec inc).1.threads = _
        rw [hp]
      have hretirement : inc'.retirement = inc.retirement := by
        rw [hinc]
        show (op.exec inc).1.retirement = _
        rw [hp]
      refine @Follows.owner inc inc' h hsound op inc rfl rfl (by rw [hinc]; rfl)
        (by rw [hinc]; rfl) ?_ ?_ ?_ (by rw [hretirement]) (fun j => ?_) fun m holder hop => ?_
      · rw [stage_append hrest hhost', hstage]
        cases (op.exec inc).2 <;> rfl
      · rw [hinc]
        show (op.exec inc).1.consumer = _
        rw [hp]
      · rw [hinc]
        show (op.exec inc).1.uses = _
        rw [hp]
      · have hcount := tasks_host (j := j) hhost hhost' hthreads (by rw [hretirement])
        rw [List.countP_map] at hcount
        exact hcount
      · rw [hop] at hproper
        cases hproper
  | offerActive generation =>
      cases generation with
      | none =>
          simp only [HostOp.exec] at quiet
          split_ifs at quiet
          · exact quiet _ _ rfl (fun j => rfl) rfl rfl rfl rfl rfl rfl rfl .idle rfl (same _ hstage)
          · exact quiet _ _ rfl (fun j => rfl) rfl rfl rfl rfl rfl rfl rfl .idle rfl (same _ hstage)
      | some g =>
          simp only [HostOp.exec] at quiet
          split_ifs at quiet
          · exact quiet _ _ rfl (fun j => rfl) rfl rfl rfl rfl rfl rfl rfl .idle rfl
              (stopped (by simp [HostOp.stage]))
          · exact quiet _ _ rfl (fun j => rfl) rfl rfl rfl rfl rfl rfl rfl (.asked g) rfl
              (same _ hstage)
  | offerOffered g =>
      rw [HostOp.exec] at quiet
      split_ifs at quiet with ho
      · exact quiet _ _ rfl (fun j => rfl) rfl rfl rfl rfl rfl rfl rfl .idle rfl
          (stopped (by simp [HostOp.stage]))
      · exact quiet _ _ rfl (fun j => rfl) rfl rfl rfl rfl rfl rfl rfl .idle rfl
          (stopped (by simp [HostOp.stage]))
      · exact quiet _ _ rfl (fun j => rfl) rfl rfl rfl rfl rfl rfl rfl (.trying g 0) rfl
          (.tried g hstage (not_ne_iff.mp ho) (by omega))
  | offerSlot g m =>
      rw [HostOp.exec] at quiet hinc
      split_ifs at quiet hinc with hfree hm
      · exact .taken h hsound hhost hrest hfree hinc
      · exact quiet _ _ rfl (fun j => rfl) rfl rfl rfl rfl rfl rfl rfl (.trying g (m + 1)) rfl
          (.retried g m hstage hm)
      · exact quiet _ _ rfl (fun j => rfl) rfl rfl rfl rfl rfl rfl rfl .idle rfl
          (stopped (by simp [HostOp.stage]))
  | offerStore g m =>
      have hhost' : inc'.host = [HostOp.offerRecheck m] ++ rest := by rw [hinc]; rfl
      have hcount : ∀ j, inc'.tasks j = inc.tasks j := by
        intro j
        have hcount := tasks_host (j := j) hhost hhost' (by rw [hinc]; rfl) (by rw [hinc]; rfl)
        rw [List.countP_singleton] at hcount
        simpa [HostOp.task] using hcount
      constructor
      case tended =>
        exact h.same (by rw [hinc]; rfl) (fun j _ => hcount j) fun n => Holds.congr
          (by rw [hinc]; rfl) (fun _ => by rw [hinc]; rfl) (by rw [hinc]; rfl) (hcount _)
      case step =>
        have heq : inc'.tenancy = { inc.tenancy with offered := g, stage := .idle } := by
          rw [tenancy, tenancy, stage_append hrest hhost', hcount .endOffer, hinc]
          rfl
        rw [heq]
        exact .stored g m hstage
  | offerRecheck m =>
      have hne : ∀ g', inc.stage ≠ .storing g' m := by
        intro g' h0
        rw [hstage] at h0
        cases h0
      have hpos : inc.tasks (.hold m) ≠ 0 := by
        rw [Incarnation.tasks, hhost, List.countP_cons]
        simp [HostOp.task]
      obtain ⟨g, hm⟩ := h.mapping_of_task (j := .hold m) rfl hpos
      rw [HostOp.exec] at hinc
      by_cases hactive : inc.page.active = 0
      · -- the page was closed behind the store: the offer is dropped again
        rw [if_pos hactive] at hinc
        have hhost' : inc'.host = (offerDrop m).map .owner ++ rest := by rw [hinc]
        have hcount : ∀ j, inc'.tasks j + (if some (Task.hold m) = some j then 1 else 0) =
            inc.tasks j + ((if some (Task.clear m) = some j then 1 else 0) +
              (if j = .endOffer then 1 else 0)) := by
          intro j
          refine (tasks_host (j := j) hhost hhost' (by rw [hinc]; rfl) (by rw [hinc]; rfl)).trans ?_
          cases j <;> simp [offerDrop, HostOp.task, OwnerOp.task, List.countP_cons]
        refine .pass h hsound hm (.offerDropped .call) (fun _ => hne) (by simp) (by simp)
          (by rw [hinc]; exact setTenant_mappings hm _) (by rw [hinc]; rfl) (by rw [hinc]; rfl) ?_ ?_
          fun n => Holds.congr (by rw [hinc]; rfl) (fun _ => by rw [hinc]; rfl)
            (by rw [hinc]; rfl) ?_
        · rw [stage_append hrest hhost', hstage]
          rfl
        · intro j _
          simpa [Tenant.task, Tenant.unconsumed, Nat.add_assoc] using hcount j
        · simpa using hcount (.drop n)
      · rw [if_neg hactive] at hinc
        have hhost' : inc'.host = [] ++ rest := by rw [hinc]
        have hcount : ∀ j, inc'.tasks j + (if some (Task.hold m) = some j then 1 else 0) =
            inc.tasks j := fun j =>
          tasks_host (j := j) hhost hhost' (by rw [hinc]; rfl) (by rw [hinc]; rfl)
        have hplace : (if inc.remote then Place.host else Place.client) ≠ .call := by
          split_ifs <;> simp
        refine .pass h hsound hm (.offerPassed .call _) (fun _ => hne) (by simp) (by simp)
          (by rw [hinc]; exact setTenant_mappings hm _) (by rw [hinc]; rfl) (by rw [hinc]; rfl) ?_ ?_
          fun n => Holds.congr (by rw [hinc]; rfl) (fun _ => by rw [hinc]; rfl)
            (by rw [hinc]; rfl) ?_
        · rw [stage_append hrest hhost', hstage]
          rfl
        · intro j _
          cases hr : inc.remote <;> simpa [hr, Tenant.task, Tenant.unconsumed] using hcount j
        · simpa using hcount (.drop n)
  | registerActive =>
      exact quiet _ _ rfl (fun j => rfl) rfl rfl rfl rfl rfl rfl rfl .idle rfl (same _ hstage)

/-! ### The consumer and its claims -/

/-- The consumer gives up its own handle. -/
lemma Follows.released (h : inc.Tended) {c : Consumer} (hc : inc.consumer = some c)
    {role : Role} {todo : List ThreadOp} {consumer : Option Consumer}
    (hnone : consumer.bind Consumer.resources = none)
    (hcount : ∀ j, todo.countP (·.task == some j) =
      if c.resources.map Task.drop = some j then 1 else 0)
    (hinc : inc' = ({ inc with consumer } : Incarnation).spawn role todo) : inc.Follows inc' := by
  have hspawn : ∀ j, inc'.tasks j =
      inc.tasks j + (if c.resources.map Task.drop = some j then 1 else 0) := by
    intro j
    rw [@tasks_spawn inc inc' todo role (by rw [hinc]; rfl) (by rw [hinc]; rfl) (by rw [hinc]; rfl) j,
      hcount j]
  refine .same h (by rw [hinc]; rfl) (by rw [hinc]; rfl) (by rw [hinc]; rfl) (by rw [hinc]; rfl)
    (fun j hj => ?_) fun n => ?_
  · have hne : ¬ c.resources.map Task.drop = some j := by
      intro h0
      obtain ⟨old, -, rfl⟩ := Option.map_eq_some_iff.mp h0
      exact hj old rfl
    rw [hspawn j, if_neg hne, Nat.add_zero]
  · refine Holds.dropped (x := c.resources) ?_ ?_
    · have hdrop := hspawn (.drop n)
      simp only [Option.map_eq_some_iff, Task.drop.injEq, exists_eq_right] at hdrop
      exact hdrop
    · have hne : ¬ consumer.bind Consumer.resources = some n := by simp [hnone]
      rw [hinc, Keeps, hc, Option.bind_some]
      show (_ ∨ _) ↔ (consumer.bind Consumer.resources = some n ∨ _) ∨ _
      rw [or_iff_right hne]
      exact or_comm

lemma count_dropResources (c : Consumer) (j : Task) :
    c.dropResources.countP (·.task == some j) =
      if c.resources.map Task.drop = some j then 1 else 0 := by
  rw [Consumer.dropResources]
  cases c.resources with
  | none => simp
  | some m => simp [ThreadOp.task, OwnerOp.task, List.countP_cons]

/-- One claim slot has another use, with the same owner. -/
lemma Follows.reused (h : inc.Tended) {k : ℕ} {u w : Use} (hu : inc.uses k = some u)
    (huses : inc'.uses = Function.update inc.uses k (some w)) (hw : w.owner = u.owner)
    (hmap : inc'.mappings = inc.mappings)
    (hword : inc'.page.mappingSlot = inc.page.mappingSlot)
    (hoffered : inc'.page.offeredGeneration = inc.page.offeredGeneration)
    (hhost : inc'.host = inc.host) (hc : inc'.consumer = inc.consumer)
    (hs : inc'.retirement = inc.retirement) (ht : inc'.threads = inc.threads) :
    inc.Follows inc' := by
  refine .idle h hmap hword hoffered hhost hc (fun j => ?_) (by rw [hs])
    fun j => tasks_congr ht (by rw [hs]) hhost j
  rw [huses]
  by_cases hj : j = k
  · subst hj
    simp [hu, hw]
  · simp [hj]

/-- A use of a claim slot ends, and its handle is still to be dropped. -/
lemma Follows.returned (h : inc.Tended) {k : ℕ} {u : Use} (hu : inc.uses k = some u)
    (hinc : inc' = ({ inc with
      page := inc.page.modifySlot k (fun w => { w with claim := 0 })
      uses := Function.update inc.uses k none } : Incarnation).spawn
        (if u.outcome.isSome then .call else .free) (releaseTail u)) : inc.Follows inc' := by
  have hcount : ∀ j, (releaseTail u).countP (·.task == some j) =
      if u.owner.map Task.drop = some j then 1 else 0 := by
    intro j
    rw [releaseTail]
    cases u.owner <;> cases u.outcome <;> simp [ThreadOp.task, OwnerOp.task, List.countP_cons]
  have hspawn : ∀ j, inc'.tasks j =
      inc.tasks j + (if u.owner.map Task.drop = some j then 1 else 0) := by
    intro j
    rw [@tasks_spawn inc inc' _ _ (by rw [hinc]; rfl) (by rw [hinc]; rfl) (by rw [hinc]; rfl) j,
      hcount j]
  refine .same h (by rw [hinc]; rfl) (by rw [hinc]; rfl) (by rw [hinc]; rfl) (by rw [hinc]; rfl)
    (fun j hj => ?_) fun n => ?_
  · have hne : ¬ u.owner.map Task.drop = some j := by
      intro h0
      obtain ⟨old, -, rfl⟩ := Option.map_eq_some_iff.mp h0
      exact hj old rfl
    rw [hspawn j, if_neg hne, Nat.add_zero]
  · refine Holds.dropped (x := u.owner) ?_ ?_
    · have hdrop := hspawn (.drop n)
      simp only [Option.map_eq_some_iff, Task.drop.injEq, exists_eq_right] at hdrop
      exact hdrop
    · have huses := exists_update_none (f := inc.uses) (g := (Option.bind · Use.owner)) (k := k)
        (x := u.owner) rfl (by simp [hu]) n
      rw [Keeps, huses, hinc]
      show _ ↔ (_ ∨ (∃ j, (Function.update inc.uses k none j).bind Use.owner = some n) ∨ _) ∨ _
      tauto

/-- An acquisition publishes a claim for the resources that the consumer has mapped. -/
lemma Follows.claimed (h : inc.Tended) {k m : ℕ} (hfree : inc.uses k = none)
    (hm : inc.consumer.bind Consumer.resources = some m) {u : Use} (hu : u.owner = some m)
    {page : ClaimPage} {calls : List AcquireCall}
    (hword : page.mappingSlot = inc.page.mappingSlot)
    (hoffered : page.offeredGeneration = inc.page.offeredGeneration) :
    inc.Follows { inc with page, calls, uses := Function.update inc.uses k (some u) } := by
  refine .same h rfl hword hoffered rfl (fun j _ => rfl) fun n => or_congr ?_ Iff.rfl
  constructor
  · rintro (h0 | ⟨j, hj⟩ | h0)
    · exact Or.inl h0
    · by_cases hjk : j = k
      · subst hjk
        left
        rw [hm, ← hu]
        simpa using hj
      · exact Or.inr (Or.inl ⟨j, by simpa [hjk] using hj⟩)
    · exact Or.inr (Or.inr h0)
  · rintro (h0 | ⟨j, hj⟩ | h0)
    · exact Or.inl h0
    · have hjk : j ≠ k := by
        rintro rfl
        rw [hfree] at hj
        cases hj
      exact Or.inr (Or.inl ⟨j, by simpa [hjk] using hj⟩)
    · exact Or.inr (Or.inr h0)

/-- A lease is handed off: its handle moves to the retirement slot. -/
lemma Follows.handing (h : inc.Tended) {k t v m : ℕ} {u w : Use} (hu : inc.uses k = some u)
    (hown : u.owner = some m) (hw : w.owner = none) (htodo : inc.retirement.todo = [])
    (hslot : inc.retirement.slots k = none)
    (hinc : inc' = { inc with
      uses := Function.update inc.uses k (some w)
      retirement := { inc.retirement with
        slots := Function.update inc.retirement.slots k (some ⟨m, t, v⟩)
        todo := [.storeId k (t + 1) v] } }) : inc.Follows inc' := by
  have htasks : ∀ j, inc'.tasks j = inc.tasks j := by
    intro j
    have hthreads : inc'.threads = inc.threads := by rw [hinc]
    have hhost : inc'.host = inc.host := by rw [hinc]
    have htodo' : inc'.retirement.todo = [.storeId k (t + 1) v] := by rw [hinc]
    rw [Incarnation.tasks, Incarnation.tasks, pending_congr hthreads, hhost, htodo', htodo]
    simp [SectionOp.task]
  refine .same h (by rw [hinc]) (by rw [hinc]) (by rw [hinc]) (by rw [hinc]; rfl)
    (fun j _ => htasks j) fun n => or_congr ?_ (by rw [htasks])
  have huses := exists_update_none (f := inc.uses) (g := (Option.bind · Use.owner)) (k := k)
    (x := some m) rfl (by simp [hu, hown]) n
  have hslots := exists_update_none
    (f := Function.update inc.retirement.slots k (some ⟨m, t, v⟩))
    (g := Option.map Pending.owner) (k := k) (x := some m) rfl (by simp) n
  have hself : Function.update inc.retirement.slots k none = inc.retirement.slots := by
    rw [← hslot, Function.update_eq_self]
  rw [Function.update_idem, hself] at hslots
  have hemptied : (∃ j, (Function.update inc.uses k (some w) j).bind Use.owner = some n) ↔
      ∃ j, (Function.update inc.uses k none j).bind Use.owner = some n := by
    refine exists_congr fun j => ?_
    by_cases hj : j = k
    · subst hj
      simp [hw]
    · rw [Function.update_of_ne hj, Function.update_of_ne hj]
  have hkeeps : inc'.Keeps n ↔ inc.consumer.bind Consumer.resources = some n ∨
      (∃ j, (Function.update inc.uses k none j).bind Use.owner = some n) ∨
        ((∃ j, (inc.retirement.slots j).map Pending.owner = some n) ∨ some m = some n) := by
    rw [hinc]
    exact or_congr Iff.rfl (or_congr hemptied hslots)
  rw [hkeeps, Keeps, huses]
  exact or_congr_right (by rw [or_assoc, or_comm (a := some m = some n)])

/-- `handoff` rejects the release, or moves the handle. -/
lemma Follows.handed (h : inc.Tended) {k t v m : ℕ} {u : Use} (hu : inc.uses k = some u)
    (hown : u.owner = some m) (htodo : inc.retirement.todo = []) (e : Env) :
    inc.Follows (inc.handoff e k t v u m) := by
  rw [handoff]
  split_ifs with hx hfree
  · exact .idle h rfl rfl rfl rfl rfl (fun _ => rfl) rfl fun _ => rfl
  · exact .idle h rfl rfl rfl rfl rfl (fun _ => rfl) rfl fun _ => rfl
  · refine .handing h hu hown ?_ htodo (by simpa using hfree) rfl
    rfl

/-! ### Every move -/

/-- The observer changes no mapping slot before it has seen the exit. -/
lemma observe_words {native : Bool} {e : Env} {op : ObserveOp} (hop : ∀ m, op ≠ .zeroMapping m) :
    (op.exec native e inc).1.page.mappingSlot = inc.page.mappingSlot ∧
      (op.exec native e inc).1.page.offeredGeneration = inc.page.offeredGeneration := by
  cases op with
  | page op =>
      obtain ⟨a, q, c, w, h⟩ := op.exec_shape e inc
      constructor <;> simp only [ObserveOp.exec, h]
  | zeroMapping m => exact absurd rfl (hop m)
  | process => simp only [ObserveOp.exec]; split_ifs <;> exact ⟨rfl, rfl⟩
  | exitPending k => simp only [ObserveOp.exec]; split_ifs <;> exact ⟨rfl, rfl⟩
  | deadline => simp only [ObserveOp.exec]; split_ifs <;> exact ⟨rfl, rfl⟩
  | loadPending k => simp only [ObserveOp.exec]; split_ifs <;> exact ⟨rfl, rfl⟩
  | loadValue k t => simp only [ObserveOp.exec]; split_ifs <;> exact ⟨rfl, rfl⟩
  | completed k t v => simp only [ObserveOp.exec]; split_ifs <;> exact ⟨rfl, rfl⟩
  | register => simp only [ObserveOp.exec]; split_ifs <;> exact ⟨rfl, rfl⟩
  | _ => exact ⟨rfl, rfl⟩

/-- **A step of the observer.** -/
lemma Follows.observe (h : inc.Tended) (hh : Handoffs sh.native inc) (hx : inc.exited = false)
    {e : Env} (hs : inc.observeStep sh.native e = some inc') : inc.Follows inc' := by
  obtain ⟨op, rest, htodo, hinc⟩ := observeStep_shape hs
  obtain ⟨hclient, hthreads, hretirement, hmap, huses⟩ := op.exec_client sh.native e inc
  have hstatic := op.exec_static sh.native e inc
  obtain ⟨hfact, -⟩ := hh.observer op rest htodo
  have hseen : inc.observer.exitSeen = false := hh.not_seen hx
  have hne : ∀ m, op ≠ .zeroMapping m := by
    rintro m rfl
    rw [hfact] at hseen
    cases hseen
  obtain ⟨hword, hoffered⟩ := @observe_words inc sh.native e op hne
  refine .idle h (by rw [hinc]; exact hmap) (by rw [hinc]; exact hword)
    (by rw [hinc]; exact hoffered) (by rw [hinc]; exact hstatic.host)
    (by rw [hinc]; exact hclient.consumer) (fun k => ?_)
    (by rw [hinc]; exact congrArg Retirement.slots hretirement) fun j => ?_
  · rw [hinc]
    show ((op.exec sh.native e inc).1.uses k).bind Use.owner = _
    rcases huses with huses | ⟨n, b, rfl, huses⟩
    · rw [huses]
    · rw [huses]
      by_cases hk : k = n
      · subst hk
        rw [Function.update_self]
        cases b with
        | false =>
            obtain ⟨u, t, v, hu, hpc, -⟩ := hfact
            rw [hu, Option.bind_some, (hh.handed k u hu (Or.inr hpc)).1]
            rfl
        | true =>
            rw [hfact.1] at hseen
            cases hseen
      · rw [Function.update_of_ne hk]
  · rw [hinc]
    exact tasks_congr hthreads (congrArg Retirement.todo hretirement) hstatic.host j

/-- A grant or an offer that is sent is outside any call. -/
lemma Place.Sends.rests {exited : Bool} {p p' : Place} (h : p.Sends exited p') :
    p ≠ .call ∧ p' ≠ .call := by
  constructor
  · rintro rfl
    cases p' <;> cases h
  · rintro rfl
    cases p <;> cases h

lemma Place.Drops.rests {exited : Bool} {p : Place} {role : Role} (h : p.Drops exited role) :
    p ≠ .call := by
  cases p with
  | call => cases role <;> cases h
  | _ => simp

/-- **A move is a step of the tenancy**, as long as the process has not exited. -/
theorem Follows.move (h : inc.Tended) (hsound : inc.tenancy.Sound (inc.frames + 2))
    (hh : inc.Hosted) (hands : Handoffs sh.native inc) (hl : Lifetime inc)
    (hm : inc.Move sh inc') (hx : inc.exited = false) (hx' : inc'.exited = false) :
    inc.Follows inc' := by
  have hrange := hands.range
  cases hm with
  | observe op ho => exact .idle h rfl rfl rfl rfl rfl (fun _ => rfl) rfl fun _ => rfl
  | collect => exact .idle h rfl rfl rfl rfl rfl (fun _ => rfl) rfl fun _ => rfl
  | forget ho => exact .idle h rfl rfl rfl rfl rfl (fun _ => rfl) rfl fun _ => rfl
  | retry ho => exact .idle h rfl rfl rfl rfl rfl (fun _ => rfl) rfl fun _ => rfl
  | call op hhost hst =>
      have htasks : ∀ j, ({ inc with host := [op], hostFault := false, reply := .done } :
          Incarnation).tasks j = inc.tasks j := by
        intro j
        rw [Incarnation.tasks, Incarnation.tasks, hhost, List.countP_singleton]
        cases op <;> first | rfl | cases hst
      have hne : ∀ g m, inc.tenancy.stage ≠ .storing g m := by
        intro g m h0
        have h0 : inc.stage = .storing g m := h0
        rw [stage, hhost] at h0
        cases h0
      refine .staged h rfl rfl rfl rfl rfl rfl htasks rfl ?_
      cases op with
      | offerActive generation =>
          cases generation with
          | none => exact .stopped hne
          | some g => exact .asked g hst hne
      | page op => exact .stopped hne
      | registerActive => exact .stopped hne
      | _ => cases hst
  | act _ ha =>
      cases ha with
      | sendGrant g p p' hmap hp =>
          exact .sent h hsound hmap (.grantPassed p p') rfl rfl (by simp) (by simp)
      | sendOffer m g p p' hmap hp =>
          obtain ⟨hp, hp'⟩ := Place.Sends.rests hp
          exact .sent h hsound hmap (.offerPassed p p') rfl rfl (by simp [hp]) (by simp [hp'])
      | dropGrant g p role hmap =>
          exact .dismissed h hsound hmap (.grantDropped p) rfl (by simp) count_grantDrop
      | dropOffer m g p role hmap hp =>
          exact .dismissed h hsound hmap (.offerDropped p) rfl (by simp [Place.Drops.rests hp])
            (count_offerDrop m)
      | fromGrant g hmap =>
          exact .fromGrant h hsound hmap (hl.granted ⟨g, .client, hmap⟩).1.consumer rfl
      | install m g hmap => exact .install h hsound hmap
      | relinquish c _ hc => exact .released h hc rfl (count_dropResources c) rfl
      | dropConsumer c _ hc =>
          refine .released h hc rfl (fun j => ?_) rfl
          rw [List.countP_append, count_dropResources]
          exact Nat.zero_add _
      | bind t =>
          refine .idle h rfl rfl rfl rfl rfl (fun _ => rfl) rfl fun j => ?_
          exact @tasks_spawn inc (inc.spawn .call [.bindRegistered t]) _ _ rfl rfl rfl j
      | call t _ _ hs =>
          obtain ⟨call, hcall, ⟨pc, -, rfl⟩ | ⟨o, -, rfl⟩ | ⟨c, idx, k, m, x, hn, hc, -, rfl⟩⟩ :=
            callStep_shape hs
          · exact .idle h rfl rfl rfl rfl rfl (fun _ => rfl) rfl fun _ => rfl
          · exact .idle h rfl rfl rfl rfl rfl (fun _ => rfl) rfl fun _ => rfl
          · have hfree : inc.uses k = none := by
              by_contra hne
              obtain ⟨u, hu⟩ := Option.ne_none_iff_exists'.mp hne
              obtain ⟨h1, h2⟩ := hands.used k u hu
              exact h2 (h1 ▸ (Handoffs.next_claimed hn).2)
            exact .claimed h hfree hc rfl rfl rfl
      | use k u e _ _ hu hs =>
          cases useActs_of_step hs with
          | returnClaim => exact .returned h hu rfl
          | _ => exact .reused h hu rfl rfl rfl rfl rfl rfl rfl rfl rfl
      | release k u _ hu => exact .reused h hu rfl rfl rfl rfl rfl rfl rfl rfl rfl
      | defer k t v e u m _ hu _ hown _ htodo => exact .handed h hu hown htodo e
      | retryRetirement => exact .idle h rfl rfl rfl rfl rfl (fun _ => rfl) rfl fun _ => rfl
      | workerPoll _ _ htodo =>
          refine .idle h rfl rfl rfl rfl rfl (fun _ => rfl) rfl fun j => ?_
          rw [Incarnation.tasks, Incarnation.tasks, htodo]
          rfl
      | begin => exact .idle h rfl rfl rfl rfl rfl (fun _ => rfl) rfl fun _ => rfl
      | wait => exact .idle h rfl rfl rfl rfl rfl (fun _ => rfl) rfl fun _ => rfl
      | waiter w e _ _ _ hs =>
          obtain ⟨waiter, interest, bytes, rfl⟩ := waiterStep_shape hs
          exact .idle h rfl rfl rfl rfl rfl (fun _ => rfl) rfl fun _ => rfl
      | thread t e _ hs => exact .thread h hsound hh hrange hs
      | retire e _ hs => exact .retire h hsound hh hrange hs
      | observe e _ hs => exact .observe h hands hx hs
      | host e _ hs => exact .host h hsound hh hs
      | observerPoll => exact .idle h rfl rfl rfl rfl rfl (fun _ => rfl) rfl fun _ => rfl
      | observerFail => exact .idle h rfl rfl rfl rfl rfl (fun _ => rfl) rfl fun _ => rfl
      | exit => cases hx'

/-- An exit is for good. -/
lemma Move.exited (hm : inc.Move sh inc') (hx : inc'.exited = false) : inc.exited = false := by
  cases hm with
  | act _ ha =>
      cases ha with
      | call t _ hx' hs => exact hx'
      | use k u e _ hx' hu hs => exact hx'
      | defer k t v e u m hx' => exact hx'
      | waiter w e _ hx' hw hs => exact hx'
      | thread t e _ hs =>
          obtain ⟨op, rest, role, i, next, -, -, hop, rfl⟩ := threadStep_shape hs
          obtain ⟨a, q, c, ms, g, maps, consumer, todo, sources, w, returns, rfl, -⟩ :=
            ThreadOp.exec_shape hop
          exact hx
      | retire e _ hs =>
          obtain ⟨op, rest, htodo, hx', -⟩ := retireStep_shape hs
          exact hx'
      | observe e _ hs =>
          obtain ⟨op, rest, htodo, rfl⟩ := observeStep_shape hs
          exact (op.exec_client sh.native e inc).1.exited.symm.trans hx
      | host e _ hs =>
          obtain ⟨op, rest, hhost, rfl⟩ := hostStep_shape hs
          obtain ⟨a, q, c, ms, g, maps, w, fault, reply, hp⟩ := op.exec_shape e inc
          rw [hp] at hx
          exact hx
      | exit => cases hx
      | _ => exact hx
  | _ => exact hx

/-- A new incarnation has one owner: the grant, in the first slot. -/
lemma Tended.new (frames : ℕ) (remote : Bool) (generation : ℕ) :
    (Incarnation.new frames remote generation).Tended := by
  have htenant : ∀ m, (Incarnation.new frames remote generation).tenant m =
      if m = 0 then some (.grant (if remote then .host else .client)) else none := by
    intro m
    rw [tenant, Incarnation.new]
    by_cases hm : m = 0
    · simp [hm]
    · simp [hm]
  constructor
  case tasks =>
      intro j m T hj
      rw [htenant]
      have hne : ¬ (if m = 0 then some (Tenant.grant (if remote then .host else .client))
          else none) = some T := by
        split_ifs <;> rintro ⟨⟩ <;> cases j <;> cases hj
      rw [if_neg hne]
      rfl
  case holds =>
      intro m
      rw [htenant]
      constructor
      · rintro ((h | ⟨k, h⟩ | ⟨k, h⟩) | h)
        · cases h
        · cases h
        · cases h
        · exact absurd rfl h
      · split_ifs <;> simp

end Incarnation

end Jackstay.Acquisition
