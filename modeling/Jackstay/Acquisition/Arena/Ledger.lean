import Jackstay.Acquisition.Arena.Transitions
import Jackstay.Acquisition.Accounting

/-!
The producer and its admission book.

`Ledger` ties the producer's own fields to the book: the tracked incarnations are
the recorded reservations, the installed and the retired allocations are the
charged ones, and the layouts are those the book was made for.

* `Ledger.acts`: every step of the arena keeps it. In particular the producer
  never panics, and an admitted incarnation is a new one.
* The `_spec` lemmas say what each call on the book can do, with the invariant at
  hand.
-/

namespace Jackstay.Acquisition

/-- The incarnation whose page the producer's thread is on. -/
def Pc.calling : Pc → Option ℕ
  | .paged _ i _ _ => some i
  | .offering i => some i
  | .registering i => some i
  | _ => none

/-- The incarnation whose observer is removed behind its admission cleanup. -/
def Pc.removing : Pc → Option ℕ
  | .cleanup (.remove i _) _ => some i
  | _ => none

/-- The replacement of a reconfiguration that has not yet retired the old
allocation. -/
def Pc.replacing : Pc → Option ResourceLayout
  | .unconfigure layout => some layout
  | .unpublishLoad layout _ => some layout
  | .unpublish layout _ _ => some layout
  | .firstCursor layout => some layout
  | _ => none

/-- The incarnations that the running loop has still to visit. -/
def Pc.visits : Pc → List ℕ
  | .cleanup (.observers todo) _ => todo
  | .cleanup (.polling i todo) _ => i :: todo
  | .cleanup (.quiescent todo) _ => todo
  | .cleanup (.mapping i _ todo) _ => i :: todo
  | .cleanup (.claim i _ todo) _ => i :: todo
  | .cleanup (.remove i todo) _ => i :: todo
  | .pages _ todo _ => todo
  | .paged _ i todo _ => i :: todo
  | .offering i => [i]
  | .registering i => [i]
  | .dropping todo => todo
  | _ => []

/-- A layout of the size the arena was made with. -/
structure Arena.Fits (s : Arena) (layout : ResourceLayout) : Prop where
  resources : layout.resources = s.producer.admission.limits.resourceCapacity.toNat
  history : layout.history = s.shared.history
  positive : 0 < layout.history
  room : layout.history < layout.resources

/-- **The invariant of the producer's books.** -/
structure Ledger (s : Arena) : Prop where
  accounts : Accounts s.producer.admission
  running : s.producer.pc ≠ .panicked
  calls : ∀ i inc, s.incarnations i = some inc → inc.host ≠ [] → s.producer.pc.calling = some i
  issued : ∀ i inc, s.incarnations i = some inc → i < s.producer.admission.nextIncarnation
  claims_nodup : s.producer.claims.Nodup
  visits : s.producer.pc.visits.Sublist s.producer.claims
  tracked : ∀ i ∈ s.producer.claims, ∃ inc, s.incarnations i = some inc ∧
    (s.producer.pc.removing ≠ some i → ∃ r, s.producer.admission.reservations.get i = some r ∧
      r.reservation.frames = inc.frames)
  recorded : ∀ i, s.producer.admission.reservations.get i ≠ none →
    i ∈ s.producer.claims ∧ s.producer.pc.removing ≠ some i
  current : ∀ g, s.producer.resources = some g → g ≠ 0 ∧
    s.producer.admission.allocations.get g ≠ none ∧ ∀ r ∈ s.producer.retired, r.generation ≠ g
  retired_charged : ∀ r ∈ s.producer.retired, r.generation ≠ 0 ∧
    s.producer.admission.allocations.get r.generation ≠ none ∧ r.native = s.shared.native
  retired_nodup : (s.producer.retired.map RetiredAllocation.generation).Nodup
  charged : ∀ g, s.producer.admission.allocations.get g ≠ none →
    s.producer.resources = some g ∨ ∃ r ∈ s.producer.retired, r.generation = g
  unreserved : ∀ p, s.producer.admission.pendingAllocation = some p → p.reserved = none
  installed : s.producer.pc.replacing = none →
    s.producer.admission.currentAllocation = s.producer.resources ∧
    (s.producer.resources = none ↔ s.producer.pendingLayout.isSome) ∧
    (s.producer.admission.pendingAllocation.isSome ↔ s.producer.pendingLayout.isSome)
  replacing : ∀ layout, s.producer.pc.replacing = some layout → s.Fits layout ∧
    s.producer.resources.isSome ∧ s.producer.pendingLayout = none ∧
    s.producer.admission.pendingAllocation.isSome ∧
    s.producer.admission.currentAllocation = none
  fits : ∀ g, s.producer.resources = some g → s.Fits (s.shared.maps g).layout
  pending_fits : ∀ layout, s.producer.pendingLayout = some layout → s.Fits layout
  history : s.shared.history = s.producer.admission.limits.retainedHistory.toNat

/-! ### Control flow -/

namespace Pc.Flows

variable {s : Arena} {pc pc' : Pc}

/-- Control flow neither starts nor ends a removal, a replacement or a call on a
page that is still under way, and it visits no other incarnations. -/
lemma quiet (h : Pc.Flows s pc pc') : pc' ≠ .panicked ∧ pc'.removing = pc.removing ∧
    pc'.replacing = pc.replacing ∧ pc'.calling = none ∧
    (pc.visits.Sublist s.producer.claims → pc'.visits.Sublist s.producer.claims) := by
  have scans : ∀ w off, Pc.scans s w off ≠ .panicked ∧ (Pc.scans s w off).removing = none ∧
      (Pc.scans s w off).replacing = none ∧ (Pc.scans s w off).calling = none ∧
      (Pc.scans s w off).visits = [] := by
    intro w off
    rw [Pc.scans]
    split_ifs <;> simp [removing, replacing, calling, visits]
  have finds : ∀ off w, Pc.finds s off w ≠ .panicked ∧ (Pc.finds s off w).removing = none ∧
      (Pc.finds s off w).replacing = none ∧ (Pc.finds s off w).calling = none ∧
      (Pc.finds s off w).visits = [] := by
    intro off w
    cases w with
    | publish source => cases source <;> simp [Pc.finds, removing, replacing, calling, visits]
    | reserve => simp [Pc.finds, removing, replacing, calling, visits]
  have nil : ∀ {l : List ℕ}, l = [] → l.Sublist s.producer.claims := by
    rintro l rfl
    exact List.nil_sublist _
  cases h with
  | publish source => exact ⟨(scans _ _).1, (scans _ _).2.1, (scans _ _).2.2.1, (scans _ _).2.2.2.1,
      fun _ => nil (scans _ _).2.2.2.2⟩
  | reserve => exact ⟨(scans _ _).1, (scans _ _).2.1, (scans _ _).2.2.1, (scans _ _).2.2.2.1,
      fun _ => nil (scans _ _).2.2.2.2⟩
  | reserved => exact ⟨(scans _ _).1, (scans _ _).2.1, (scans _ _).2.2.1, (scans _ _).2.2.2.1,
      fun _ => nil (scans _ _).2.2.2.2⟩
  | retained => exact ⟨(scans _ _).1, (scans _ _).2.1, (scans _ _).2.2.1, (scans _ _).2.2.2.1,
      fun _ => nil (scans _ _).2.2.2.2⟩
  | claimed => exact ⟨(scans _ _).1, (scans _ _).2.1, (scans _ _).2.2.1, (scans _ _).2.2.2.1,
      fun _ => nil (scans _ _).2.2.2.2⟩
  | prepareSkipped => exact ⟨(scans _ _).1, (scans _ _).2.1, (scans _ _).2.2.1,
      (scans _ _).2.2.2.1, fun _ => nil (scans _ _).2.2.2.2⟩
  | found => exact ⟨(finds _ _).1, (finds _ _).2.1, (finds _ _).2.2.1, (finds _ _).2.2.2.1,
      fun _ => nil (finds _ _).2.2.2.2⟩
  | clean c c' goal hc =>
      cases hc with
      | acknowledged => exact ⟨by simp, rfl, rfl, rfl, id⟩
      | active => exact ⟨by simp, rfl, rfl, rfl, fun hv => List.sublist_of_cons_sublist hv⟩
      | mapped => exact ⟨by simp, rfl, rfl, rfl, fun hv => List.sublist_of_cons_sublist hv⟩
      | claimed => exact ⟨by simp, rfl, rfl, rfl, fun hv => List.sublist_of_cons_sublist hv⟩
      | observed => exact ⟨by simp, rfl, rfl, rfl, fun _ => List.Sublist.refl _⟩
      | unmapped => exact ⟨by simp, rfl, rfl, rfl, id⟩
      | allUnmapped => exact ⟨by simp, rfl, rfl, rfl, id⟩
      | unclaimed => exact ⟨by simp, rfl, rfl, rfl, id⟩
      | _ => exact ⟨by simp, rfl, rfl, rfl, fun _ => List.nil_sublist _⟩
  | cleanup => exact ⟨by simp, rfl, rfl, rfl, fun _ => List.Sublist.refl _⟩
  | opened => exact ⟨by simp, rfl, rfl, rfl, fun _ => List.Sublist.refl _⟩
  | dropped => exact ⟨by simp, rfl, rfl, rfl, fun _ => List.Sublist.refl _⟩
  | close i hi => exact ⟨by simp, rfl, rfl, rfl, fun _ => List.singleton_sublist.mpr hi⟩
  | paged => exact ⟨by simp, rfl, rfl, rfl, fun hv => List.sublist_of_cons_sublist hv⟩
  | _ => exact ⟨by simp, rfl, rfl, rfl, fun _ => List.nil_sublist _⟩

/-- A call on a page is over when the program counter leaves it. -/
lemma called (h : Pc.Flows s pc pc') {i : ℕ} {inc : Incarnation} (hc : pc.calling = some i)
    (hi : s.incarnations i = some inc) : inc.host = [] := by
  cases h <;> simp only [calling, Option.some.injEq, reduceCtorEq] at hc <;> subst hc <;>
    simp_all

end Pc.Flows

namespace Ledger

variable {s s' : Arena}

/-- The invariant reads these parts of the arena. -/
lemma frame (h : Ledger s) (hbook : s'.producer.admission = s.producer.admission)
    (hclaims : s'.producer.claims = s.producer.claims)
    (hres : s'.producer.resources = s.producer.resources)
    (hret : s'.producer.retired = s.producer.retired)
    (hpend : s'.producer.pendingLayout = s.producer.pendingLayout)
    (hhist : s'.shared.history = s.shared.history) (hnat : s'.shared.native = s.shared.native)
    (hlayout : ∀ g, (s'.shared.maps g).layout = (s.shared.maps g).layout)
    (hinc : ∀ i, (s'.incarnations i).map Incarnation.frames =
      (s.incarnations i).map Incarnation.frames)
    (hcalls : ∀ i inc, s'.incarnations i = some inc → inc.host ≠ [] →
      s'.producer.pc.calling = some i)
    (hrun : s'.producer.pc ≠ .panicked)
    (hremove : s'.producer.pc.removing = s.producer.pc.removing)
    (hrepl : s'.producer.pc.replacing = s.producer.pc.replacing)
    (hvisits : s'.producer.pc.visits.Sublist s.producer.claims) : Ledger s' := by
  have hfit : ∀ layout, s.Fits layout → s'.Fits layout := by
    intro layout hl
    exact ⟨by rw [hbook]; exact hl.resources, hl.history.trans hhist.symm, hl.positive, hl.room⟩
  have back : ∀ i inc', s'.incarnations i = some inc' → ∃ inc, s.incarnations i = some inc ∧
      inc.frames = inc'.frames := by
    intro i inc' hi
    have := hinc i
    rw [hi, Option.map_some] at this
    obtain ⟨inc, hi', hf⟩ := Option.map_eq_some_iff.mp this.symm
    exact ⟨inc, hi', hf⟩
  have forth : ∀ i inc, s.incarnations i = some inc → ∃ inc', s'.incarnations i = some inc' ∧
      inc'.frames = inc.frames := by
    intro i inc hi
    have := hinc i
    rw [hi, Option.map_some] at this
    exact Option.map_eq_some_iff.mp this
  constructor
  case accounts => exact hbook ▸ h.accounts
  case running => exact hrun
  case calls => exact hcalls
  case issued =>
      intro i inc' hi
      obtain ⟨inc, hi', -⟩ := back i inc' hi
      rw [hbook]
      exact h.issued i inc hi'
  case claims_nodup => exact hclaims ▸ h.claims_nodup
  case visits => exact hclaims ▸ hvisits
  case tracked =>
      intro i hi
      rw [hclaims] at hi
      obtain ⟨inc, hi', hr⟩ := h.tracked i hi
      obtain ⟨inc', hinc', hf⟩ := forth i inc hi'
      refine ⟨inc', hinc', fun hrem => ?_⟩
      rw [hbook, hf]
      exact hr (hremove ▸ hrem)
  case recorded => rw [hbook, hclaims, hremove]; exact h.recorded
  case current => rw [hbook, hres, hret]; exact h.current
  case retired_charged => rw [hbook, hret, hnat]; exact h.retired_charged
  case retired_nodup => rw [hret]; exact h.retired_nodup
  case charged => rw [hbook, hres, hret]; exact h.charged
  case unreserved => rw [hbook]; exact h.unreserved
  case installed => rw [hbook, hres, hpend, hrepl]; exact h.installed
  case replacing =>
      rw [hbook, hres, hpend, hrepl]
      exact fun layout hl => ⟨hfit _ (h.replacing layout hl).1, (h.replacing layout hl).2⟩
  case fits =>
      rw [hres]
      intro g hg
      rw [hlayout g]
      exact hfit _ (h.fits g hg)
  case pending_fits =>
      rw [hpend]
      exact fun layout hl => hfit _ (h.pending_fits layout hl)
  case history => rw [hbook, hhist]; exact h.history

/-- While the producer's thread is on no page, no page has a call under way. -/
lemma silent (h : Ledger s) (hpc : s.producer.pc.calling = none) {i : ℕ} {inc : Incarnation}
    (hi : s.incarnations i = some inc) : inc.host = [] := by
  by_contra hne
  rw [h.calls i inc hi hne] at hpc
  cases hpc

end Ledger

/-! ### Calls on the book -/

/-- Two books with the same limits and the same allocations. -/
structure AdmissionBook.SameAllocations (book book' : AdmissionBook) : Prop where
  limits : book'.limits = book.limits
  allocations : book'.allocations = book.allocations
  currentAllocation : book'.currentAllocation = book.currentAllocation
  nextAllocation : book'.nextAllocation = book.nextAllocation
  pendingAllocation : book'.pendingAllocation = book.pendingAllocation

/-- Two books with the same limits and the same incarnations. -/
structure AdmissionBook.SameIncarnations (book book' : AdmissionBook) : Prop where
  limits : book'.limits = book.limits
  reservations : book'.reservations = book.reservations
  nextIncarnation : book'.nextIncarnation = book.nextIncarnation

namespace Ledger

variable {s : Arena}

/-- Closing an incarnation marks its record, or is refused. -/
lemma close_spec (h : Ledger s) (i : ℕ) :
    (∃ e, s.continue_ (.close i) = s.fail e) ∨
    ∃ book', Accounts book' ∧ s.producer.admission.SameAllocations book' ∧
      book'.nextIncarnation = s.producer.admission.nextIncarnation ∧
      (∀ j, (book'.reservations.get j).map IncarnationRecord.reservation =
        (s.producer.admission.reservations.get j).map IncarnationRecord.reservation) ∧
      s.continue_ (.close i) = (s.setBook book').finish .done := by
  have hacc := h.accounts.close i
  obtain ⟨e, he, -⟩ | ⟨record, hg, he⟩ := AdmissionBook.close_cases s.producer.admission i
  · exact Or.inl ⟨.admission e, by simp only [Arena.continue_, he]; rfl⟩
  · rw [he] at hacc
    refine Or.inr ⟨_, hacc, ⟨rfl, rfl, rfl, rfl, rfl⟩, rfl, fun j => ?_, by
      simp only [Arena.continue_, he]⟩
    rw [BTreeMap.get_insert]
    split_ifs with hj
    · rw [hj, hg]
      rfl
    · rfl

/-- The admission cleanup of a tracked incarnation takes its record away. -/
lemma collect_spec (h : Ledger s) {i : ℕ} (hi : i ∈ s.producer.claims)
    (hrem : s.producer.pc.removing = none) (todo : List ℕ) (goal : Goal) :
    ∃ book', Accounts book' ∧ s.producer.admission.SameAllocations book' ∧
      book'.nextIncarnation = s.producer.admission.nextIncarnation ∧
      (∀ j, book'.reservations.get j =
        if j = i then none else s.producer.admission.reservations.get j) ∧
      s.collect i todo goal = (s.setBook book').goto (.cleanup (.remove i todo) goal) := by
  obtain ⟨inc, -, hr⟩ := h.tracked i hi
  obtain ⟨r, hget, -⟩ := hr (by rw [hrem]; simp)
  have hacc := h.accounts.close i
  obtain ⟨e, -, hnone⟩ | ⟨record, hg, he⟩ := AdmissionBook.close_cases s.producer.admission i
  · rw [hget] at hnone
    cases hnone
  rw [he] at hacc
  have hacc' := hacc.completeCleanup i
  obtain ⟨e, -, hclosing⟩ | ⟨record', hg', -, -, -, he'⟩ :=
    AdmissionBook.completeCleanup_cases hacc i
  · have := hclosing { record with closing := true } (by simp)
    cases this
  rw [he'] at hacc'
  refine ⟨_, hacc', ⟨rfl, rfl, rfl, rfl, rfl⟩, rfl, fun j => ?_, by
    simp only [Arena.collect, he, he']⟩
  rw [BTreeMap.get_remove, BTreeMap.get_insert]
  split_ifs <;> rfl

/-- The cleanup of a retired allocation takes its charge away. -/
lemma reclaim_spec (h : Ledger s) (hrepl : s.producer.pc.replacing = none) {index : ℕ}
    {r : RetiredAllocation} (hr : s.producer.retired[index]? = some r) (goal : Goal) :
    ∃ book', Accounts book' ∧ s.producer.admission.SameIncarnations book' ∧
      book'.currentAllocation = s.producer.admission.currentAllocation ∧
      book'.nextAllocation = s.producer.admission.nextAllocation ∧
      book'.pendingAllocation = s.producer.admission.pendingAllocation ∧
      (∀ g, book'.allocations.get g =
        if g = r.generation then none else s.producer.admission.allocations.get g) ∧
      s.reclaim index r.generation goal = { s with producer := { s.producer with
        retired := Arena.swapRemove s.producer.retired index
        admission := book'
        pc := .cleanup (.retired index) goal } } := by
  have hmem : r ∈ s.producer.retired := List.mem_of_getElem? hr
  have hacc := h.accounts.completeAllocationCleanup r.generation
  obtain ⟨e, -, hbad⟩ | ⟨bytes, -, -, -, -, he⟩ :=
    AdmissionBook.completeAllocationCleanup_cases h.accounts r.generation
  · rcases hbad with hbad | hbad | hbad
    · rw [(h.installed hrepl).1] at hbad
      exact absurd rfl ((h.current r.generation hbad).2.2 r hmem)
    · obtain ⟨p, hp, hres⟩ := Option.bind_eq_some_iff.mp hbad
      rw [h.unreserved p hp] at hres
      cases hres
    · exact absurd hbad (h.retired_charged r hmem).2.1
  rw [he] at hacc
  refine ⟨_, hacc, ⟨rfl, rfl, rfl⟩, rfl, rfl, rfl, fun g => ?_, by
    simp only [Arena.reclaim, he]⟩
  rw [BTreeMap.get_remove]

/-- A layout is accepted with the sizes asked for. -/
lemma layout_of_new {page resources history payloadCapacity : ℕ} {layout : ResourceLayout}
    (h : ResourceLayout.new page resources history payloadCapacity = .ok layout) :
    layout.resources = resources ∧ layout.history = history ∧
      layout.payloadCapacity = payloadCapacity ∧ 0 < history ∧ history < resources := by
  rw [ResourceLayout.new] at h
  by_cases hbad : history = 0 ∨ resources ≤ history
  · rw [if_pos hbad] at h
    cases h
  rw [if_neg hbad] at h
  obtain ⟨_, -, h⟩ := of_bind_ok h
  obtain ⟨_, -, h⟩ := of_bind_ok h
  obtain ⟨_, -, h⟩ := of_bind_ok h
  obtain ⟨_, -, h⟩ := of_bind_ok h
  obtain ⟨_, -, h⟩ := of_bind_ok h
  split_ifs at h
  cases h
  exact ⟨rfl, rfl, rfl, by omega, by omega⟩

/-- A reconfiguration is refused, or recorded before anything is unpublished. -/
lemma begin_spec (h : Ledger s) (hrepl : s.producer.pc.replacing = none)
    (payloadCapacity externalBytes : ℕ) :
    (∃ o, s.beginReconfiguration payloadCapacity externalBytes = s.finish o) ∨
    ∃ layout book' g, s.Fits layout ∧ s.producer.resources = some g ∧
      s.producer.pendingLayout = none ∧ s.shared.control.terminal = 0 ∧
      layout.payloadCapacity = payloadCapacity ∧ Accounts book' ∧
      s.producer.admission.SameIncarnations book' ∧ book'.currentAllocation = none ∧
      book'.nextAllocation = s.producer.admission.nextAllocation ∧
      book'.allocations = s.producer.admission.allocations ∧
      (∃ n, book'.pendingAllocation = some ⟨n, none⟩) ∧
      s.beginReconfiguration payloadCapacity externalBytes =
        (s.setBook book').goto (.unconfigure layout) := by
  rw [Arena.beginReconfiguration]
  by_cases ht : s.shared.control.terminal ≠ 0
  · rw [if_pos ht]
    exact Or.inl ⟨_, rfl⟩
  rw [if_neg ht]
  by_cases hp : s.producer.pendingLayout.isSome
  · rw [if_pos hp]
    exact Or.inl ⟨_, rfl⟩
  rw [if_neg hp]
  have hres : s.producer.resources ≠ none := fun h0 => hp ((h.installed hrepl).2.1.mp h0)
  rw [if_neg hres]
  obtain ⟨g, hg⟩ := Option.ne_none_iff_exists'.mp hres
  have hcur : s.current = g := by rw [Arena.current, hg]; rfl
  have hfit := h.fits g hg
  cases hl : ResourceLayout.new s.shared.page s.layout.resources s.layout.history
      payloadCapacity with
  | error e => exact Or.inl ⟨_, rfl⟩
  | ok layout =>
      dsimp only
      obtain ⟨hr, hh, hpay, hpos, hlt⟩ := layout_of_new hl
      rw [Arena.layout, hcur] at hr hh hpos hlt
      split_ifs with hbig
      · exact Or.inl ⟨_, rfl⟩
      have hacc := h.accounts.beginReconfiguration
        (UInt64.ofNat (layout.len + layout.payloadLen + externalBytes))
      obtain ⟨e, he⟩ | ⟨-, -, -, -, he⟩ := AdmissionBook.beginReconfiguration_cases h.accounts
        (UInt64.ofNat (layout.len + layout.payloadLen + externalBytes))
      · rw [he]
        exact Or.inl ⟨_, rfl⟩
      · rw [he] at hacc ⊢
        refine Or.inr ⟨layout, _, g, ⟨hr.trans hfit.resources, hh.trans hfit.history,
          by omega, by omega⟩, hg, by simpa using hp, by simpa using ht, hpay, hacc,
          ⟨rfl, rfl, rfl⟩, rfl, rfl, rfl, ⟨_, rfl⟩, rfl⟩

/-- Admission is refused, rolled back, or adds a new incarnation. -/
lemma attach_spec (h : Ledger s) (hrepl : s.producer.pc.replacing = none) (e : Env)
    (holding : UInt32) (remote : Bool) :
    (∃ o, s.attach e holding remote = s.finish o) ∨
    (∃ book' o, Accounts book' ∧ s.producer.admission.SameAllocations book' ∧
      book'.nextIncarnation = s.producer.admission.nextIncarnation + 1 ∧
      (∀ j, book'.reservations.get j = s.producer.admission.reservations.get j) ∧
      s.attach e holding remote = (s.setBook book').finish o) ∨
    ∃ book' g r, Accounts book' ∧ s.producer.admission.SameAllocations book' ∧
      book'.nextIncarnation = s.producer.admission.nextIncarnation + 1 ∧
      (∀ j, book'.reservations.get j = if j = s.producer.admission.nextIncarnation then some r
        else s.producer.admission.reservations.get j) ∧
      r.reservation.frames = holding.toNat ∧ 0 < holding.toNat ∧
      s.producer.resources = some g ∧
      s.attach e holding remote = { s with
        incarnations := Function.update s.incarnations s.producer.admission.nextIncarnation
          (some (Incarnation.new holding.toNat remote g))
        producer := { s.producer with
          admission := book'
          claims := s.producer.claims ++ [s.producer.admission.nextIncarnation]
          pc := .idle
          outcome := .attached s.producer.admission.nextIncarnation } } := by
  rw [Arena.attach]
  split
  · exact Or.inl ⟨_, rfl⟩
  rename_i len _
  have hacc := h.accounts.admitHolding ⟨holding, UInt64.ofNat len⟩
  obtain ⟨err, he⟩ | ⟨hpend, -, -, -, -, hpos, he⟩ :=
    AdmissionBook.admitHolding_cases h.accounts ⟨holding, UInt64.ofNat len⟩
  · rw [he]
    exact Or.inl ⟨_, rfl⟩
  rw [he] at hacc ⊢
  dsimp only at hacc hpos ⊢
  have hres : s.producer.resources ≠ none := by
    intro h0
    have := (h.installed hrepl).2.2.mpr ((h.installed hrepl).2.1.mp h0)
    rw [hpend] at this
    cases this
  obtain ⟨g, hg⟩ := Option.ne_none_iff_exists'.mp hres
  by_cases hf : e.fail = true
  · rw [if_pos hf]
    refine Or.inr (Or.inl ?_)
    -- the new record is closed and cleaned up at once
    have hacc1 := hacc.close s.producer.admission.nextIncarnation
    have hclose := AdmissionBook.close_cases ((AdmissionBook.admitHolding
      ⟨holding, UInt64.ofNat len⟩).on s.producer.admission).2
      s.producer.admission.nextIncarnation
    rw [he] at hclose
    obtain ⟨e1, -, hn⟩ | ⟨record, hg1, he1⟩ := hclose
    · simp at hn
    rw [he1] at hacc1 ⊢
    dsimp only at hacc1 hg1 ⊢
    have hacc2 := hacc1.completeCleanup s.producer.admission.nextIncarnation
    obtain ⟨e2, -, hn⟩ | ⟨record2, hg2, -, -, -, he2⟩ :=
      AdmissionBook.completeCleanup_cases hacc1 s.producer.admission.nextIncarnation
    · have := hn { record with closing := true } (by simp)
      cases this
    rw [he2] at hacc2 ⊢
    refine ⟨_, _, hacc2, ⟨rfl, rfl, rfl, rfl, rfl⟩, rfl, fun j => ?_, rfl⟩
    simp only [BTreeMap.get_remove, BTreeMap.get_insert]
    split_ifs with hj
    · rw [hj]
      exact (h.accounts.incarnation_fresh _ le_rfl).symm
    · rfl
  · rw [if_neg hf]
    refine Or.inr (Or.inr ⟨_, g, _, hacc, ⟨rfl, rfl, rfl, rfl, rfl⟩, rfl,
      fun j => BTreeMap.get_insert .., rfl, hpos, hg, ?_⟩)
    split
    · rename_i h0
      rw [hg] at h0
      cases h0
    · rename_i g' hg'
      rw [hg, Option.some.injEq] at hg'
      rw [hg']
      rfl

/-- The book with a replacement reserved. -/
def reserving (book : AdmissionBook) (p : PendingAllocation) : AdmissionBook :=
  { book with
    nextAllocation := book.nextAllocation + 1
    committedBytes := book.committedBytes + p.upperBound
    allocations := book.allocations.insert book.nextAllocation p.upperBound
    pendingAllocation := some { p with reserved := some book.nextAllocation } }

/-- The pending replacement has lost its attempt: an identifier is used up, and
nothing else has changed. -/
def Retried (s t : Arena) : Prop :=
  ∃ book' o, Accounts book' ∧ s.producer.admission.SameIncarnations book' ∧
    book'.currentAllocation = s.producer.admission.currentAllocation ∧
    book'.nextAllocation = s.producer.admission.nextAllocation + 1 ∧
    (∀ g, book'.allocations.get g = s.producer.admission.allocations.get g) ∧
    book'.pendingAllocation = s.producer.admission.pendingAllocation ∧
    t = (s.setBook book').finish o

/-- The replacement is installed under a fresh allocation. -/
def Installed (s t : Arena) : Prop :=
  ∃ book' layout n, Accounts book' ∧ s.producer.admission.SameIncarnations book' ∧
    s.producer.pendingLayout = some layout ∧
    book'.currentAllocation = some s.producer.admission.nextAllocation ∧
    book'.nextAllocation = s.producer.admission.nextAllocation + 1 ∧
    (∀ g, book'.allocations.get g = if g = s.producer.admission.nextAllocation then some n
      else s.producer.admission.allocations.get g) ∧
    book'.pendingAllocation = none ∧
    t = { s.onMap s.producer.admission.nextAllocation (fun _ => ResourceMap.new layout) with
      producer := { s.producer with
        admission := book'
        resources := some s.producer.admission.nextAllocation
        pendingLayout := none
        nextSlot := 0
        pc := .configure s.producer.admission.nextAllocation } }

/-- A failed attempt gives its reservation back. -/
lemma abandon_spec (h : Ledger s) {p : PendingAllocation}
    (hp : s.producer.admission.pendingAllocation = some p) (hr : p.reserved = none)
    (hacc : Accounts (reserving s.producer.admission p)) (e : ArenaError) :
    Retried s ((s.setBook (reserving s.producer.admission p)).abandonAllocation e) := by
  have hacc' := hacc.abandonReconfigurationAllocation
  obtain ⟨e', -, hn⟩ | ⟨q, id, hq, hqr, -, -, he⟩ :=
    AdmissionBook.abandonReconfigurationAllocation_cases hacc
  · have := hn _ rfl
    cases this
  simp only [reserving, Option.some.injEq] at hq
  subst hq
  simp only [Option.some.injEq] at hqr
  subst hqr
  rw [he] at hacc'
  refine ⟨_, .error e, hacc', ⟨rfl, rfl, rfl⟩, rfl, rfl, fun g => ?_, ?_, ?_⟩
  · simp only [reserving, BTreeMap.get_remove, BTreeMap.get_insert]
    split_ifs with hg
    · rw [hg]
      exact (h.accounts.allocation_fresh _ le_rfl).symm
    · rfl
  · simp only [hp]
    rw [← hr]
  · simp only [Arena.abandonAllocation, Arena.setBook, he]
    rfl

lemma install_spec (h : Ledger s) {p : PendingAllocation}
    (hp : s.producer.admission.pendingAllocation = some p) (hr : p.reserved = none)
    (hacc : Accounts (reserving s.producer.admission p)) {layout : ResourceLayout}
    (hl : s.producer.pendingLayout = some layout) (bytes : ℕ) :
    Retried s ((s.setBook (reserving s.producer.admission p)).installAllocation layout
      s.producer.admission.nextAllocation bytes) ∨
    Installed s ((s.setBook (reserving s.producer.admission p)).installAllocation layout
      s.producer.admission.nextAllocation bytes) := by
  have hacc' := hacc.installReconfiguration (UInt64.ofNat bytes)
  obtain ⟨e, he⟩ | ⟨q, id, hq, hqr, -, -, -, he⟩ :=
    AdmissionBook.installReconfiguration_cases hacc (UInt64.ofNat bytes)
  · left
    have := h.abandon_spec hp hr hacc (.admission e)
    simpa only [Arena.installAllocation, Arena.setBook, he] using this
  · simp only [reserving, Option.some.injEq] at hq
    subst hq
    simp only [Option.some.injEq] at hqr
    subst hqr
    rw [he] at hacc'
    refine Or.inr ⟨_, layout, (UInt64.ofNat bytes).toNat, hacc', ⟨rfl, rfl, rfl⟩, hl, rfl, rfl,
      fun g => ?_, rfl, ?_⟩
    · simp only [reserving, BTreeMap.get_insert]
      split_ifs <;> rfl
    · simp only [Arena.installAllocation, Arena.setBook, he]
      rfl

/-- A pending replacement stays pending, loses its attempt, or is installed under a
fresh allocation. -/
lemma advance_spec (h : Ledger s) (e : Env) :
    (∃ o, s.advance e = s.finish o) ∨ Retried s (s.advance e) ∨ Installed s (s.advance e) := by
  rw [Arena.advance]
  cases hl : s.producer.pendingLayout with
  | none => exact Or.inl ⟨_, rfl⟩
  | some layout =>
      dsimp only
      have hacc := h.accounts.reserveReconfiguration
      obtain ⟨err, he⟩ | ⟨p, id, hp, hr, -⟩ | ⟨p, hp, hr, -, -, he⟩ :=
        AdmissionBook.reserveReconfiguration_cases h.accounts
      · rw [he]
        cases err <;> exact Or.inl ⟨_, rfl⟩
      · rw [h.unreserved p hp] at hr
        cases hr
      rw [he] at hacc ⊢
      have abandoned := fun e' => h.abandon_spec hp hr hacc e'
      have installed := fun bytes => h.install_spec hp hr hacc hl bytes
      right
      dsimp only
      generalize layout.len + layout.payloadLen + _ = bytes
      split_ifs
      · exact Or.inl (abandoned .storage)
      · exact Or.inl (abandoned .storage)
      · exact Or.inl (abandoned (.admission .invalidAllocationSize))
      · exact installed bytes

end Ledger

/-! ### The steps -/

/-- `swap_remove` keeps the other entries. -/
lemma Arena.swapRemove_perm {α : Type} {l : List α} {index : ℕ} (h : index < l.length) :
    (Arena.swapRemove l index).Perm (l.eraseIdx index) := by
  obtain ⟨front, last, rfl⟩ : ∃ front last, l = front ++ [last] :=
    ⟨l.dropLast, l.getLast (List.ne_nil_of_length_pos (by omega)),
      (List.dropLast_append_getLast _).symm⟩
  rw [Arena.swapRemove, List.getLast?_append_of_ne_nil _ (by simp)]
  simp only [List.getLast?_singleton]
  rw [List.length_append, List.length_singleton] at h
  by_cases hlast : index < front.length
  · rw [List.set_append_left _ _ hlast, List.dropLast_concat, List.eraseIdx_append_of_lt_length hlast]
    have hset : (front.set index last).Perm (last :: front.eraseIdx index) := by
      rw [List.set_eq_take_append_cons_drop, if_pos hlast, List.eraseIdx_eq_take_drop_succ]
      exact List.perm_middle
    exact hset.trans (List.perm_append_singleton _ _).symm
  · have hidx : index = front.length := by omega
    subst hidx
    rw [List.eraseIdx_append_of_length_le le_rfl]
    simp

namespace Ledger

variable {s s' : Arena}

/-- The sizes of the incarnations when one of them has changed. -/
lemma frames_update {i : ℕ} {inc inc' : Incarnation} (hi : s.incarnations i = some inc)
    (hf : inc'.frames = inc.frames) (j : ℕ) :
    ((Function.update s.incarnations i (some inc')) j).map Incarnation.frames =
      (s.incarnations j).map Incarnation.frames := by
  by_cases hj : j = i
  · subst hj
    simp [hi, hf]
  · simp [hj]

lemma onPage_incarnations {i : ℕ} {inc : Incarnation} (hi : s.incarnations i = some inc)
    (f : Incarnation → Incarnation) :
    (s.onPage i f).incarnations = Function.update s.incarnations i (some (f inc)) := by
  simp [Arena.onPage, hi]

/-- One incarnation changes and the producer moves on; the books stay. -/
lemma changed (h : Ledger s) {i : ℕ} {inc inc' : Incarnation} (hi : s.incarnations i = some inc)
    (hf : inc'.frames = inc.frames) {producer : Producer}
    (hinc : s'.incarnations = Function.update s.incarnations i (some inc'))
    (hshared : s'.shared = s.shared) (hprod : s'.producer = producer)
    (hbook : producer.admission = s.producer.admission)
    (hclaims : producer.claims = s.producer.claims)
    (hres : producer.resources = s.producer.resources)
    (hret : producer.retired = s.producer.retired)
    (hpend : producer.pendingLayout = s.producer.pendingLayout)
    (hhost : inc'.host ≠ [] → producer.pc.calling = some i)
    (hothers : s.producer.pc.calling = none ∨ producer.pc.calling = s.producer.pc.calling)
    (hrun : producer.pc ≠ .panicked) (hremove : producer.pc.removing = s.producer.pc.removing)
    (hrepl : producer.pc.replacing = s.producer.pc.replacing)
    (hvisits : producer.pc.visits.Sublist s.producer.claims) : Ledger s' := by
  refine h.frame (hprod ▸ hbook) (hprod ▸ hclaims) (hprod ▸ hres) (hprod ▸ hret) (hprod ▸ hpend)
    (by rw [hshared]) (by rw [hshared]) (fun g => by rw [hshared]) ?_ ?_ (hprod ▸ hrun)
    (hprod ▸ hremove) (hprod ▸ hrepl) (hprod ▸ hvisits)
  · rw [hinc]
    exact frames_update hi hf
  · intro j jnc hj hne
    rw [hinc] at hj
    rw [hprod]
    by_cases hji : j = i
    · subst hji
      rw [Function.update_self, Option.some.injEq] at hj
      subst hj
      exact hhost hne
    · rw [Function.update_of_ne hji] at hj
      rcases hothers with h0 | h0
      · exact absurd (h.silent h0 hj) hne
      · rw [h0]
        exact h.calls j jnc hj hne

/-- The producer's thread changes one page. -/
lemma touched (h : Ledger s) {i : ℕ} {inc : Incarnation} (hi : s.incarnations i = some inc)
    {f : Incarnation → Incarnation} (hinc : s'.incarnations = (s.onPage i f).incarnations)
    (hf : (f inc).frames = inc.frames) (hshared : s'.shared = s.shared)
    (hbook : s'.producer.admission = s.producer.admission)
    (hclaims : s'.producer.claims = s.producer.claims)
    (hres : s'.producer.resources = s.producer.resources)
    (hret : s'.producer.retired = s.producer.retired)
    (hpend : s'.producer.pendingLayout = s.producer.pendingLayout)
    (hhost : (f inc).host ≠ [] → s'.producer.pc.calling = some i)
    (hothers : s.producer.pc.calling = none ∨
      s'.producer.pc.calling = none ∧ s.producer.pc.calling = some i)
    (hrun : s'.producer.pc ≠ .panicked)
    (hremove : s'.producer.pc.removing = s.producer.pc.removing)
    (hrepl : s'.producer.pc.replacing = s.producer.pc.replacing)
    (hvisits : s'.producer.pc.visits.Sublist s.producer.claims) : Ledger s' := by
  rw [onPage_incarnations hi] at hinc
  refine h.frame hbook hclaims hres hret hpend (by rw [hshared]) (by rw [hshared])
    (fun g => by rw [hshared]) ?_ ?_ hrun hremove hrepl hvisits
  · rw [hinc]
    exact frames_update hi hf
  · intro j jnc hj hne
    rw [hinc] at hj
    by_cases hji : j = i
    · subst hji
      rw [Function.update_self, Option.some.injEq] at hj
      subst hj
      exact hhost hne
    · rw [Function.update_of_ne hji] at hj
      have hcall := h.calls j jnc hj hne
      rcases hothers with h0 | ⟨-, h0⟩
      · rw [h0] at hcall
        cases hcall
      · rw [h0, Option.some.injEq] at hcall
        exact absurd hcall.symm hji

/-- The shared maps change in their records, or the control words do, and the
producer moves on from a step that is on no page. -/
lemma stored (h : Ledger s) (hinc : s'.incarnations = s.incarnations)
    (hhist : s'.shared.history = s.shared.history) (hnat : s'.shared.native = s.shared.native)
    (hlayout : ∀ g, (s'.shared.maps g).layout = (s.shared.maps g).layout)
    (hbook : s'.producer.admission = s.producer.admission)
    (hclaims : s'.producer.claims = s.producer.claims)
    (hres : s'.producer.resources = s.producer.resources)
    (hret : s'.producer.retired = s.producer.retired)
    (hpend : s'.producer.pendingLayout = s.producer.pendingLayout)
    (hpc : s'.producer.pc = s.producer.pc ∨
      s.producer.pc.calling = none ∧ s'.producer.pc ≠ .panicked ∧
      s'.producer.pc.removing = s.producer.pc.removing ∧
      s'.producer.pc.replacing = s.producer.pc.replacing ∧
      s'.producer.pc.visits.Sublist s.producer.claims) : Ledger s' := by
  rcases hpc with hpc | ⟨hcall, hrun, hremove, hrepl, hvisits⟩
  · refine h.frame hbook hclaims hres hret hpend hhist hnat hlayout (fun i => by rw [hinc])
      ?_ (hpc ▸ h.running) (by rw [hpc]) (by rw [hpc]) (hpc ▸ h.visits)
    rw [hinc, hpc]
    exact h.calls
  · refine h.frame hbook hclaims hres hret hpend hhist hnat hlayout (fun i => by rw [hinc])
      ?_ hrun hremove hrepl hvisits
    rw [hinc]
    exact fun i inc hi hne => absurd (h.silent hcall hi) hne

/-- The book changes in its reservations only; the producer leaves or enters the
removal of an incarnation. -/
lemma recounted (h : Ledger s) (hinc : s'.incarnations = s.incarnations)
    (hshared : s'.shared = s.shared) (hacc : Accounts s'.producer.admission)
    (hsame : s.producer.admission.SameAllocations s'.producer.admission)
    (hnext : s.producer.admission.nextIncarnation ≤ s'.producer.admission.nextIncarnation)
    (hclaims : s'.producer.claims = s.producer.claims)
    (hres : s'.producer.resources = s.producer.resources)
    (hret : s'.producer.retired = s.producer.retired)
    (hpend : s'.producer.pendingLayout = s.producer.pendingLayout)
    (hcall : s.producer.pc.calling = none) (hrun : s'.producer.pc ≠ .panicked)
    (hremove : s.producer.pc.removing = none)
    (hkept : ∀ j, s'.producer.pc.removing ≠ some j →
      (s'.producer.admission.reservations.get j).map IncarnationRecord.reservation =
        (s.producer.admission.reservations.get j).map IncarnationRecord.reservation)
    (hgone : ∀ j, s'.producer.pc.removing = some j →
      s'.producer.admission.reservations.get j = none)
    (hrepl : s'.producer.pc.replacing = s.producer.pc.replacing)
    (hvisits : s'.producer.pc.visits.Sublist s.producer.claims) : Ledger s' := by
  have hfit : ∀ layout, s.Fits layout → s'.Fits layout := by
    intro layout hl
    exact ⟨by rw [hsame.limits]; exact hl.resources, by rw [hshared]; exact hl.history,
      hl.positive, hl.room⟩
  constructor
  case accounts => exact hacc
  case running => exact hrun
  case calls =>
      rw [hinc]
      exact fun i inc hi hne => absurd (h.silent hcall hi) hne
  case issued =>
      rw [hinc]
      exact fun i inc hi => lt_of_lt_of_le (h.issued i inc hi) hnext
  case claims_nodup => exact hclaims ▸ h.claims_nodup
  case visits => exact hclaims ▸ hvisits
  case tracked =>
      intro i hi
      rw [hclaims] at hi
      obtain ⟨inc, hi', hr⟩ := h.tracked i hi
      refine ⟨inc, hinc ▸ hi', fun hne => ?_⟩
      obtain ⟨r, hget, hf⟩ := hr (by rw [hremove]; simp)
      have hk := hkept i hne
      rw [hget, Option.map_some] at hk
      obtain ⟨r', hget', hr'⟩ := Option.map_eq_some_iff.mp hk
      exact ⟨r', hget', by rw [hr']; exact hf⟩
  case recorded =>
      intro i hne
      have hnr : s'.producer.pc.removing ≠ some i := fun h0 => hne (hgone i h0)
      have hk := hkept i hnr
      obtain ⟨r, hr⟩ := Option.ne_none_iff_exists'.mp hne
      rw [hr, Option.map_some] at hk
      obtain ⟨r', hr', -⟩ := Option.map_eq_some_iff.mp hk.symm
      exact ⟨hclaims ▸ (h.recorded i (by rw [hr']; simp)).1, hnr⟩
  case current => rw [hsame.allocations, hres, hret]; exact h.current
  case retired_charged => rw [hsame.allocations, hret, hshared]; exact h.retired_charged
  case retired_nodup => rw [hret]; exact h.retired_nodup
  case charged => rw [hsame.allocations, hres, hret]; exact h.charged
  case unreserved => rw [hsame.pendingAllocation]; exact h.unreserved
  case installed =>
      rw [hsame.currentAllocation, hsame.pendingAllocation, hres, hpend, hrepl]
      exact h.installed
  case replacing =>
      rw [hsame.currentAllocation, hsame.pendingAllocation, hres, hpend, hrepl]
      exact fun layout hl => ⟨hfit _ (h.replacing layout hl).1, (h.replacing layout hl).2⟩
  case fits =>
      rw [hres, hshared]
      exact fun g hg => hfit _ (h.fits g hg)
  case pending_fits =>
      rw [hpend]
      exact fun layout hl => hfit _ (h.pending_fits layout hl)
  case history => rw [hsame.limits, hshared]; exact h.history

/-- An incarnation is added under the next identifier. -/
lemma admitted (h : Ledger s) {book' : AdmissionBook} {g n : ℕ} {remote : Bool}
    {r : IncarnationRecord} {o : Outcome} (hacc : Accounts book')
    (hsame : s.producer.admission.SameAllocations book')
    (hnext : book'.nextIncarnation = s.producer.admission.nextIncarnation + 1)
    (hget : ∀ j, book'.reservations.get j = if j = s.producer.admission.nextIncarnation
      then some r else s.producer.admission.reservations.get j)
    (hr : r.reservation.frames = n) (hcall : s.producer.pc.calling = none)
    (hremove : s.producer.pc.removing = none) (hrepl : s.producer.pc.replacing = none) :
    Ledger { s with
      incarnations := Function.update s.incarnations s.producer.admission.nextIncarnation
        (some (Incarnation.new n remote g))
      producer := { s.producer with
        admission := book'
        claims := s.producer.claims ++ [s.producer.admission.nextIncarnation]
        pc := .idle
        outcome := o } } := by
  have hfit : ∀ layout, s.Fits layout → Arena.Fits { s with
      incarnations := Function.update s.incarnations s.producer.admission.nextIncarnation
        (some (Incarnation.new n remote g))
      producer := { s.producer with
        admission := book'
        claims := s.producer.claims ++ [s.producer.admission.nextIncarnation]
        pc := .idle
        outcome := o } } layout := by
    intro layout hl
    exact ⟨by simp only [hsame.limits]; exact hl.resources, hl.history, hl.positive, hl.room⟩
  have hfresh : ∀ i ∈ s.producer.claims, i ≠ s.producer.admission.nextIncarnation := by
    rintro i hi rfl
    obtain ⟨inc, hinc, -⟩ := h.tracked _ hi
    exact absurd (h.issued _ inc hinc) (lt_irrefl _)
  constructor
  case accounts => exact hacc
  case running => simp
  case calls =>
      intro j jnc hj hne
      by_cases hji : j = s.producer.admission.nextIncarnation
      · subst hji
        simp only [Function.update_self, Option.some.injEq] at hj
        subst hj
        exact absurd rfl hne
      · simp only [ne_eq, hji, not_false_eq_true, Function.update_of_ne] at hj
        exact absurd (h.silent hcall hj) hne
  case issued =>
      intro j jnc hj
      simp only [hnext]
      by_cases hji : j = s.producer.admission.nextIncarnation
      · omega
      · simp only [ne_eq, hji, not_false_eq_true, Function.update_of_ne] at hj
        exact Nat.lt_succ_of_lt (h.issued j jnc hj)
  case claims_nodup =>
      refine List.nodup_append.mpr ⟨h.claims_nodup, List.nodup_singleton _, ?_⟩
      intro i hi j hj
      rw [List.mem_singleton.mp hj]
      exact hfresh i hi
  case visits => exact List.nil_sublist _
  case tracked =>
      intro i hi
      rcases List.mem_append.mp hi with hi | hi
      · obtain ⟨inc, hinc, hrec⟩ := h.tracked i hi
        obtain ⟨r', hget', hf⟩ := hrec (by rw [hremove]; simp)
        refine ⟨inc, ?_, fun _ => ⟨r', ?_, hf⟩⟩
        · simpa [hfresh i hi] using hinc
        · simpa [hget, hfresh i hi] using hget'
      · rw [List.mem_singleton.mp hi]
        exact ⟨_, Function.update_self .., fun _ => ⟨r, by simp [hget], hr⟩⟩
  case recorded =>
      intro i hne
      refine ⟨?_, by simp [Pc.removing]⟩
      simp only [hget] at hne
      split_ifs at hne with hi
      · simp [hi]
      · exact List.mem_append_left _ (h.recorded i hne).1
  case current => simpa only [hsame.allocations] using h.current
  case retired_charged => simpa only [hsame.allocations] using h.retired_charged
  case retired_nodup => exact h.retired_nodup
  case charged => simpa only [hsame.allocations] using h.charged
  case unreserved => simpa only [hsame.pendingAllocation] using h.unreserved
  case installed =>
      intro _
      simpa only [hsame.currentAllocation, hsame.pendingAllocation] using h.installed hrepl
  case replacing =>
      intro layout hl
      cases hl
  case fits => exact fun g hg => hfit _ (h.fits g hg)
  case pending_fits => exact fun layout hl => hfit _ (h.pending_fits layout hl)
  case history =>
      simp only [hsame.limits]
      exact h.history

/-- The allocations change and the incarnations do not: the facts about the
allocations have to be shown anew. -/
lemma reallocated (h : Ledger s) (hinc : s'.incarnations = s.incarnations)
    (hhist : s'.shared.history = s.shared.history)
    (hacc : Accounts s'.producer.admission)
    (hsame : s.producer.admission.SameIncarnations s'.producer.admission)
    (hclaims : s'.producer.claims = s.producer.claims)
    (hcall : s.producer.pc.calling = none) (hrun : s'.producer.pc ≠ .panicked)
    (hremove : s'.producer.pc.removing = s.producer.pc.removing)
    (hvisits : s'.producer.pc.visits.Sublist s.producer.claims)
    (hcurrent : ∀ g, s'.producer.resources = some g → g ≠ 0 ∧
      s'.producer.admission.allocations.get g ≠ none ∧
      ∀ r ∈ s'.producer.retired, r.generation ≠ g)
    (hretired : ∀ r ∈ s'.producer.retired, r.generation ≠ 0 ∧
      s'.producer.admission.allocations.get r.generation ≠ none ∧ r.native = s'.shared.native)
    (hnodup : (s'.producer.retired.map RetiredAllocation.generation).Nodup)
    (hcharged : ∀ g, s'.producer.admission.allocations.get g ≠ none →
      s'.producer.resources = some g ∨ ∃ r ∈ s'.producer.retired, r.generation = g)
    (hunreserved : ∀ p, s'.producer.admission.pendingAllocation = some p → p.reserved = none)
    (hinstalled : s'.producer.pc.replacing = none →
      s'.producer.admission.currentAllocation = s'.producer.resources ∧
      (s'.producer.resources = none ↔ s'.producer.pendingLayout.isSome) ∧
      (s'.producer.admission.pendingAllocation.isSome ↔ s'.producer.pendingLayout.isSome))
    (hreplacing : ∀ layout, s'.producer.pc.replacing = some layout → s'.Fits layout ∧
      s'.producer.resources.isSome ∧ s'.producer.pendingLayout = none ∧
      s'.producer.admission.pendingAllocation.isSome ∧
      s'.producer.admission.currentAllocation = none)
    (hfits : ∀ g, s'.producer.resources = some g → s'.Fits (s'.shared.maps g).layout)
    (hpending : ∀ layout, s'.producer.pendingLayout = some layout → s'.Fits layout) :
    Ledger s' where
  accounts := hacc
  running := hrun
  calls := by
    rw [hinc]
    exact fun i inc hi hne => absurd (h.silent hcall hi) hne
  issued := by
    rw [hinc, hsame.nextIncarnation]
    exact h.issued
  claims_nodup := hclaims ▸ h.claims_nodup
  visits := hclaims ▸ hvisits
  tracked := by
    rw [hclaims, hinc, hsame.reservations, hremove]
    exact h.tracked
  recorded := by
    rw [hclaims, hsame.reservations, hremove]
    exact h.recorded
  current := hcurrent
  retired_charged := hretired
  retired_nodup := hnodup
  charged := hcharged
  unreserved := hunreserved
  installed := hinstalled
  replacing := hreplacing
  fits := hfits
  pending_fits := hpending
  history := by
    rw [hhist, hsame.limits]
    exact h.history

/-- A layout fits as long as the limits and the history do not change. -/
lemma fits_of {layout : ResourceLayout} (h : s.Fits layout)
    (hlimits : s'.producer.admission.limits = s.producer.admission.limits)
    (hhist : s'.shared.history = s.shared.history) : s'.Fits layout :=
  ⟨by rw [hlimits]; exact h.resources, h.history.trans hhist.symm, h.positive, h.room⟩

/-- `swap_remove` takes out the one entry of that generation. -/
lemma mem_swapRemove_retired (h : Ledger s) {index : ℕ} {r : RetiredAllocation}
    (hr : s.producer.retired[index]? = some r) (x : RetiredAllocation) :
    x ∈ Arena.swapRemove s.producer.retired index ↔
      x ∈ s.producer.retired ∧ x.generation ≠ r.generation := by
  have hlt : index < s.producer.retired.length := (List.getElem?_eq_some_iff.mp hr).1
  rw [(Arena.swapRemove_perm hlt).mem_iff, List.mem_eraseIdx_iff_getElem?]
  constructor
  · rintro ⟨j, hj, hx⟩
    refine ⟨List.mem_of_getElem? hx, fun hg => hj ?_⟩
    have hj' := (List.getElem?_eq_some_iff.mp hx).1
    have hsame : (s.producer.retired.map RetiredAllocation.generation)[j]? =
        (s.producer.retired.map RetiredAllocation.generation)[index]? := by
      rw [List.getElem?_map, List.getElem?_map, hx, hr, Option.map_some, Option.map_some, hg]
    exact (List.getElem?_inj (by simpa using hj') h.retired_nodup).mp hsame
  · rintro ⟨hx, hg⟩
    obtain ⟨j, hj⟩ := List.mem_iff_getElem?.mp hx
    refine ⟨j, fun hji => hg ?_, hj⟩
    subst hji
    rw [hr, Option.some.injEq] at hj
    rw [hj]

/-- A retired allocation leaves the producer's list and the book together. -/
lemma reclaim (h : Ledger s) (hcall : s.producer.pc.calling = none)
    (hremove : s.producer.pc.removing = none) (hrepl : s.producer.pc.replacing = none)
    {index : ℕ} {r : RetiredAllocation} (hr : s.producer.retired[index]? = some r)
    (goal : Goal) : Ledger (s.reclaim index r.generation goal) := by
  obtain ⟨book', hacc, hsame, hcur, hnext, hpend, hget, heq⟩ := h.reclaim_spec hrepl hr goal
  have hlt : index < s.producer.retired.length := (List.getElem?_eq_some_iff.mp hr).1
  have hperm := Arena.swapRemove_perm hlt
  have hnodup : ((s.producer.retired.eraseIdx index).map RetiredAllocation.generation).Nodup :=
    (h.retired_nodup.sublist ((List.eraseIdx_sublist ..).map _))
  -- the other entries are of other allocations
  have hother := h.mem_swapRemove_retired hr
  rw [heq]
  refine h.reallocated rfl rfl hacc hsame rfl hcall (by simp) (by rw [hremove]; rfl)
    (List.nil_sublist _) ?_ ?_ ?_ ?_ ?_ ?_ ?_ ?_ ?_
  · intro g hg
    obtain ⟨h0, h1, h2⟩ := h.current g hg
    refine ⟨h0, ?_, fun x hx => h2 x ((hother x).mp hx).1⟩
    rw [hget, if_neg (h2 r (List.mem_of_getElem? hr)).symm]
    exact h1
  · intro x hx
    obtain ⟨hx, hg⟩ := (hother x).mp hx
    obtain ⟨h0, h1, h2⟩ := h.retired_charged x hx
    refine ⟨h0, ?_, h2⟩
    rw [hget, if_neg hg]
    exact h1
  · exact ((hperm.map _).nodup_iff).mpr hnodup
  · intro g hg
    rw [hget] at hg
    split_ifs at hg with hgr
    · exact absurd rfl hg
    rcases h.charged g hg with h0 | ⟨x, hx, hxg⟩
    · exact Or.inl h0
    · exact Or.inr ⟨x, (hother x).mpr ⟨hx, by rw [hxg]; exact hgr⟩, hxg⟩
  · simp only [hpend]
    exact h.unreserved
  · intro _
    simp only [hcur, hpend]
    exact h.installed hrepl
  · intro layout hl
    cases hl
  · exact fun g hg => fits_of (h.fits g hg) hsame.limits rfl
  · exact fun layout hl => fits_of (h.pending_fits layout hl) hsame.limits rfl

/-- A recorded reconfiguration has an installed allocation to replace. -/
lemma begin (h : Ledger s) (hcall : s.producer.pc.calling = none)
    (hremove : s.producer.pc.removing = none) (hrepl : s.producer.pc.replacing = none)
    (payloadCapacity externalBytes : ℕ) :
    Ledger (s.beginReconfiguration payloadCapacity externalBytes) := by
  obtain ⟨o, heq⟩ | ⟨layout, book', g, hfit, hg, hpl, -, -, hacc, hsame, hcur, hnext, halloc,
      ⟨n, hpend⟩, heq⟩ := h.begin_spec hrepl payloadCapacity externalBytes
  · rw [heq]
    exact h.stored rfl rfl rfl (fun _ => rfl) rfl rfl rfl rfl rfl
      (Or.inr ⟨hcall, by simp [Arena.finish], by rw [hremove]; rfl, by rw [hrepl]; rfl,
        List.nil_sublist _⟩)
  rw [heq]
  refine h.reallocated rfl rfl hacc hsame rfl hcall (by simp [Arena.goto]) (by rw [hremove]; rfl)
    (List.nil_sublist _) ?_ ?_ h.retired_nodup ?_ ?_ ?_ ?_ ?_ ?_
  · simpa only [Arena.goto, Arena.setBook, halloc] using h.current
  · simpa only [Arena.goto, Arena.setBook, halloc] using h.retired_charged
  · simpa only [Arena.goto, Arena.setBook, halloc] using h.charged
  · intro p hp
    have hp : book'.pendingAllocation = some p := hp
    rw [hpend, Option.some.injEq] at hp
    rw [← hp]
  · intro hnone
    cases hnone
  · intro l hl
    have hl : some layout = some l := hl
    cases hl
    refine ⟨fits_of hfit hsame.limits rfl, ?_, hpl, ?_, hcur⟩
    · show s.producer.resources.isSome
      rw [hg]
      rfl
    · show book'.pendingAllocation.isSome
      rw [hpend]
      rfl
  · exact fun g hg => fits_of (h.fits g hg) hsame.limits rfl
  · exact fun layout hl => fits_of (h.pending_fits layout hl) hsame.limits rfl

/-- A replacement is installed under an identifier that nothing has used. -/
lemma advance (h : Ledger s) (hcall : s.producer.pc.calling = none)
    (hremove : s.producer.pc.removing = none) (hrepl : s.producer.pc.replacing = none)
    (e : Env) : Ledger (s.advance e) := by
  obtain ⟨o, heq⟩ | ⟨book', o, hacc, hsame, hcur, hnext, hget, hpend, heq⟩ |
      ⟨book', layout, n, hacc, hsame, hl, hcur, hnext, hget, hpend, heq⟩ := h.advance_spec e
  · rw [heq]
    exact h.stored rfl rfl rfl (fun _ => rfl) rfl rfl rfl rfl rfl
      (Or.inr ⟨hcall, by simp [Arena.finish], by rw [hremove]; rfl, by rw [hrepl]; rfl,
        List.nil_sublist _⟩)
  · rw [heq]
    refine h.reallocated rfl rfl hacc hsame rfl hcall (by simp [Arena.finish])
      (by rw [hremove]; rfl) (List.nil_sublist _) ?_ ?_ h.retired_nodup ?_ ?_ ?_ ?_ ?_ ?_
    · simpa only [Arena.finish, Arena.setBook, hget] using h.current
    · simpa only [Arena.finish, Arena.setBook, hget] using h.retired_charged
    · simpa only [Arena.finish, Arena.setBook, hget] using h.charged
    · simpa only [Arena.finish, Arena.setBook, hpend] using h.unreserved
    · intro _
      simpa only [Arena.finish, Arena.setBook, hpend, hcur] using h.installed hrepl
    · intro layout hl
      cases hl
    · exact fun g hg => fits_of (h.fits g hg) hsame.limits rfl
    · exact fun layout hl => fits_of (h.pending_fits layout hl) hsame.limits rfl
  · have hnew := h.accounts.allocation_fresh _ le_rfl
    have hres : s.producer.resources = none := by
      rw [(h.installed hrepl).2.1, hl]
      rfl
    have hne : ∀ r ∈ s.producer.retired,
        r.generation ≠ s.producer.admission.nextAllocation := by
      intro r hr hg
      exact (h.retired_charged r hr).2.1 (hg ▸ hnew)
    rw [heq]
    refine h.reallocated rfl rfl hacc hsame rfl hcall (by simp) (by rw [hremove]; rfl)
      (List.nil_sublist _) ?_ ?_ h.retired_nodup ?_ ?_ ?_ ?_ ?_ ?_
    · intro g hg
      have hg : some s.producer.admission.nextAllocation = some g := hg
      rw [Option.some.injEq] at hg
      subst hg
      have hpos := h.accounts.allocation_pos
      exact ⟨by omega, by simp [hget], hne⟩
    · intro r hr
      obtain ⟨h0, h1, h2⟩ := h.retired_charged r hr
      refine ⟨h0, ?_, h2⟩
      simpa [hget, hne r hr] using h1
    · intro g hg
      simp only [hget] at hg
      split_ifs at hg with hgn
      · exact Or.inl (by rw [hgn])
      · rcases h.charged g hg with h0 | h0
        · rw [hres] at h0
          cases h0
        · exact Or.inr h0
    · intro p hp
      have hp : book'.pendingAllocation = some p := hp
      rw [hpend] at hp
      cases hp
    · intro _
      refine ⟨hcur, by simp, ?_⟩
      show book'.pendingAllocation.isSome ↔ _
      simp [hpend]
    · intro layout hl
      cases hl
    · intro g hg
      have hg : some s.producer.admission.nextAllocation = some g := hg
      rw [Option.some.injEq] at hg
      subst hg
      refine fits_of ?_ hsame.limits rfl
      simp only [Arena.onMap, Function.update_self]
      exact h.pending_fits layout hl
    · intro layout hl
      cases hl

/-- The old allocation is retired before its replacement is allocated. -/
lemma firstCursor (h : Ledger s) {layout : ResourceLayout}
    (hpc : s.producer.pc = .firstCursor layout) :
    Ledger { s.onControl fun c => { c with firstCursor := s.producer.cursor + 1 } with
      producer := { s.producer with
        retired := s.producer.retired ++ [⟨s.current, s.shared.native⟩]
        resources := none
        pendingLayout := some layout
        pc := .epochLoad .advance } } := by
  obtain ⟨hfit, hres, hpl, hpend, hcur⟩ := h.replacing layout (by rw [hpc]; rfl)
  obtain ⟨g, hg⟩ := Option.isSome_iff_exists.mp hres
  have hg' : s.current = g := by rw [Arena.current, hg]; rfl
  obtain ⟨h0, h1, h2⟩ := h.current g hg
  refine h.reallocated rfl rfl h.accounts ⟨rfl, rfl, rfl⟩ rfl (by rw [hpc]; rfl) (by simp)
    (by rw [hpc]; rfl) (List.nil_sublist _) (fun g hg => by cases hg) ?_ ?_ ?_ h.unreserved ?_
    (fun layout hl => by cases hl) (fun g hg => by cases hg) ?_
  · intro r hr
    rcases List.mem_append.mp hr with hr | hr
    · exact h.retired_charged r hr
    · rw [List.mem_singleton.mp hr, hg']
      exact ⟨h0, h1, rfl⟩
  · rw [List.map_append]
    refine List.nodup_append.mpr ⟨h.retired_nodup, by simp, ?_⟩
    intro a ha b hb
    obtain ⟨r, hr, rfl⟩ := List.mem_map.mp ha
    simp only [List.map_cons, List.map_nil, List.mem_singleton] at hb
    rw [hb, hg']
    exact h2 r hr
  · intro g'' hg''
    right
    rcases h.charged g'' hg'' with h3 | ⟨r, hr, hrg⟩
    · refine ⟨⟨s.current, s.shared.native⟩, by simp, ?_⟩
      rw [hg, Option.some.injEq] at h3
      exact hg'.trans h3
    · exact ⟨r, List.mem_append_left _ hr, hrg⟩
  · intro _
    refine ⟨hcur, by simp, ?_⟩
    show s.producer.admission.pendingAllocation.isSome ↔ _
    simp [hpend]
  · intro l hl
    cases hl
    exact fits_of hfit rfl rfl

/-- The removal of an incarnation whose record is gone. -/
lemma remove (h : Ledger s) {i : ℕ} {todo : List ℕ} {goal : Goal} {inc inc' : Incarnation}
    (hpc : s.producer.pc = .cleanup (.remove i todo) goal) (hi : s.incarnations i = some inc)
    (hhost : inc'.host = inc.host) :
    Ledger { s with
      incarnations := Function.update s.incarnations i (some inc')
      producer := { s.producer with
        claims := s.producer.claims.filter (· ≠ i)
        pc := .cleanup (.quiescent todo) goal } } := by
  have hcall : s.producer.pc.calling = none := by rw [hpc]; rfl
  have hvis : (i :: todo).Sublist s.producer.claims := by
    have := h.visits
    rw [hpc] at this
    exact this
  have hnot : i ∉ todo := (List.nodup_cons.mp (h.claims_nodup.sublist hvis)).1
  constructor
  case accounts => exact h.accounts
  case running => simp
  case calls =>
      intro j jnc hj hne
      by_cases hji : j = i
      · subst hji
        simp only [Function.update_self, Option.some.injEq] at hj
        subst hj
        exact absurd (hhost.trans (h.silent hcall hi)) hne
      · simp only [ne_eq, hji, not_false_eq_true, Function.update_of_ne] at hj
        exact absurd (h.silent hcall hj) hne
  case issued =>
      intro j jnc hj
      by_cases hji : j = i
      · exact hji ▸ h.issued i inc hi
      · simp only [ne_eq, hji, not_false_eq_true, Function.update_of_ne] at hj
        exact h.issued j jnc hj
  case claims_nodup => exact h.claims_nodup.filter _
  case visits =>
      show todo.Sublist _
      have htodo : todo.filter (fun j => decide (j ≠ i)) = todo := by
        refine List.filter_eq_self.mpr fun j hj => ?_
        simp only [ne_eq, decide_not, Bool.not_eq_eq_eq_not, Bool.not_true, decide_eq_false_iff_not]
        rintro rfl
        exact hnot hj
      rw [← htodo]
      exact (List.sublist_of_cons_sublist hvis).filter _
  case tracked =>
      intro j hj
      obtain ⟨hj, hji⟩ := List.mem_filter.mp hj
      have hji : j ≠ i := by simpa using hji
      obtain ⟨jnc, hjnc, hr⟩ := h.tracked j hj
      refine ⟨jnc, by simpa [hji] using hjnc, fun _ => hr ?_⟩
      rw [hpc]
      simpa [Pc.removing] using Ne.symm hji
  case recorded =>
      intro j hne
      obtain ⟨hj, hrem⟩ := h.recorded j hne
      refine ⟨List.mem_filter.mpr ⟨hj, ?_⟩, by simp [Pc.removing]⟩
      rw [hpc] at hrem
      have hji : j ≠ i := fun hji => hrem (by rw [hji]; rfl)
      simpa using hji
  case current => exact h.current
  case retired_charged => exact h.retired_charged
  case retired_nodup => exact h.retired_nodup
  case charged => exact h.charged
  case unreserved => exact h.unreserved
  case installed => exact fun _ => h.installed (by rw [hpc]; rfl)
  case replacing => exact fun layout hl => by cases hl
  case fits => exact fun g hg => fits_of (h.fits g hg) rfl rfl
  case pending_fits => exact fun layout hl => fits_of (h.pending_fits layout hl) rfl rfl
  case history => exact h.history

/-- **The step lemma.** -/
theorem acts (h : Ledger s) (hs : s.Acts s') : Ledger s' := by
  have quiet : ∀ {pc : Pc}, s.producer.pc = pc → pc.calling = none →
      s.producer.pc.calling = none := by
    rintro pc rfl h0
    exact h0
  cases hs with
  | incarnation i inc inc' hi ha =>
      obtain ⟨hf, -, hhost⟩ := ha.static
      refine h.changed hi hf rfl rfl rfl rfl rfl rfl rfl rfl (fun hne => ?_) (Or.inr rfl)
        h.running rfl rfl h.visits
      exact h.calls i inc hi fun h0 => hne (hhost h0)
  | write g index bytes =>
      exact h.stored rfl rfl rfl (Arena.modify_layout s g index _) rfl rfl rfl rfl rfl (Or.inl rfl)
  | abandon g index =>
      exact h.stored rfl rfl rfl (Arena.onMap_layout s g _ fun _ => rfl) rfl rfl rfl rfl rfl
        (Or.inl rfl)
  | releaseMap g =>
      exact h.stored rfl rfl rfl (Arena.onMap_layout s g _ fun _ => rfl) rfl rfl rfl rfl rfl
        (Or.inl rfl)
  | dropExport g =>
      exact h.stored rfl rfl rfl (Arena.onMap_layout s g _ fun _ => rfl) rfl rfl rfl rfl rfl
        (Or.inl rfl)
  | flow pc outcome released hf =>
      obtain ⟨hrun, hremove, hrepl, hcall, hvis⟩ := hf.quiet
      refine h.frame rfl rfl rfl rfl rfl rfl rfl (fun _ => rfl) (fun _ => rfl) ?_ hrun hremove
        hrepl (hvis h.visits)
      intro i inc hi hne
      exact absurd (hf.called (h.calls i inc hi hne) hi) hne
  | commitCall g index descriptor hpc =>
      exact h.stored rfl rfl rfl (Arena.modify_layout s g index _) rfl rfl rfl rfl rfl
        (Or.inr ⟨quiet hpc rfl, by simp [Arena.goto], by rw [hpc]; rfl, by rw [hpc]; rfl,
          List.nil_sublist _⟩)
  | offerCall i hpc hi =>
      obtain ⟨inc, hinc, -⟩ := h.tracked i hi
      exact h.touched hinc rfl rfl rfl rfl rfl rfl rfl rfl
        (fun _ => rfl) (Or.inl (quiet hpc rfl)) (by simp [Arena.goto]) (by rw [hpc]; rfl)
        (by rw [hpc]; rfl) (List.singleton_sublist.mpr hi)
  | registerCall i hpc hi =>
      obtain ⟨inc, hinc, -⟩ := h.tracked i hi
      exact h.touched hinc rfl rfl rfl rfl rfl rfl rfl rfl
        (fun _ => rfl) (Or.inl (quiet hpc rfl)) (by simp [Arena.goto]) (by rw [hpc]; rfl)
        (by rw [hpc]; rfl) (List.singleton_sublist.mpr hi)
  | observe i todo goal inc hpc hi =>
      have hvis := h.visits
      rw [hpc] at hvis
      exact h.touched hi rfl rfl rfl rfl rfl rfl rfl rfl
        (fun hne => absurd (h.silent (quiet hpc rfl) hi) hne) (Or.inl (quiet hpc rfl))
        (by simp [Arena.goto]) (by rw [hpc]; rfl) (by rw [hpc]; rfl) hvis
  | observed i todo goal released hpc =>
      have hvis := h.visits
      rw [hpc] at hvis
      obtain ⟨inc, hi, -⟩ := h.tracked i (hvis.subset List.mem_cons_self)
      exact h.touched hi rfl rfl rfl rfl rfl rfl rfl rfl
        (fun hne => absurd (h.silent (quiet hpc rfl) hi) hne) (Or.inl (quiet hpc rfl))
        (by simp [Arena.flow]) (by rw [hpc]; rfl) (by rw [hpc]; rfl)
        (List.sublist_of_cons_sublist hvis)
  | collect i todo goal hd =>
      obtain ⟨inc, hi, hd⟩ := hd
      have hpc : s.producer.pc.calling = none ∧ s.producer.pc.removing = none ∧
          s.producer.pc.replacing = none ∧ s.producer.pc.visits = i :: todo := by
        rcases hd with ⟨m, hpc, -⟩ | ⟨k, hpc, -⟩ <;> rw [hpc] <;> exact ⟨rfl, rfl, rfl, rfl⟩
      have hvis := h.visits
      rw [hpc.2.2.2] at hvis
      obtain ⟨book', hacc, hsame, hnext, hget, heq⟩ := h.collect_spec
        (hvis.subset List.mem_cons_self) hpc.2.1 todo goal
      rw [heq]
      refine h.recounted rfl rfl hacc hsame (le_of_eq hnext.symm) rfl rfl rfl rfl hpc.1
        (by simp [Arena.goto]) hpc.2.1 ?_ ?_ (by rw [hpc.2.2.1]; rfl) hvis
      · intro j hj
        have hji : j ≠ i := fun hji => hj (by rw [hji]; rfl)
        show (book'.reservations.get j).map _ = _
        rw [hget, if_neg hji]
      · intro j hj
        have hj : some i = some j := hj
        cases hj
        show book'.reservations.get i = none
        rw [hget, if_pos rfl]
  | remove i todo goal inc hpc hi =>
      rw [show (s.onPage i fun inc => { inc with observer :=
          { inc.observer with present := false } }) = { s with
          incarnations := Function.update s.incarnations i
            (some { inc with observer := { inc.observer with present := false } }) } by
        simp [Arena.onPage, hi]]
      exact h.remove hpc hi rfl
  | reclaim index goal r hpc hr =>
      exact h.reclaim (quiet hpc rfl) (by rw [hpc]; rfl) (by rw [hpc]; rfl) hr goal
  | unready index goal r hpc =>
      exact h.stored rfl rfl rfl
        (Arena.onMap_layout s r.generation (fun map => { map with ready := false }) fun _ => rfl)
        rfl rfl rfl rfl rfl
        (Or.inr ⟨quiet hpc rfl, by simp [Arena.goto], by rw [hpc]; rfl, by rw [hpc]; rfl,
          List.nil_sublist _⟩)
  | ready index goal r hpc hr =>
      have hmap : Ledger (s.onMap r.generation fun map => { map with ready := true }) :=
        h.stored rfl rfl rfl (Arena.onMap_layout s _ _ fun _ => rfl) rfl rfl rfl rfl rfl
          (Or.inl rfl)
      refine hmap.reclaim (quiet hpc rfl) ?_ ?_ hr goal
      · rw [Arena.onMap_producer, hpc]; rfl
      · rw [Arena.onMap_producer, hpc]; rfl
  | attach e holding remote hpc =>
      have hrepl : s.producer.pc.replacing = none := by rw [hpc]; rfl
      obtain ⟨o, heq⟩ | ⟨book', o, hacc, hsame, hnext, hget, heq⟩ |
          ⟨book', g, r, hacc, hsame, hnext, hget, hr, -, -, heq⟩ :=
        h.attach_spec hrepl e holding remote
      · rw [heq]
        exact h.stored rfl rfl rfl (fun _ => rfl) rfl rfl rfl rfl rfl
          (Or.inr ⟨quiet hpc rfl, by simp [Arena.finish], by rw [hpc]; rfl, by rw [hpc]; rfl,
            List.nil_sublist _⟩)
      · rw [heq]
        refine h.recounted rfl rfl hacc hsame ?_ rfl rfl rfl rfl (quiet hpc rfl)
          (by simp [Arena.finish]) (by rw [hpc]; rfl) ?_ (fun j hj => by cases hj)
          (by rw [hpc]; rfl) (List.nil_sublist _)
        · show _ ≤ book'.nextIncarnation
          omega
        · intro j _
          show (book'.reservations.get j).map _ = _
          rw [hget]
      · rw [heq]
        exact h.admitted hacc hsame hnext hget hr (quiet hpc rfl) (by rw [hpc]; rfl) hrepl
  | advance e hpc => exact h.advance (quiet hpc rfl) (by rw [hpc]; rfl) (by rw [hpc]; rfl) e
  | retire w off generation hpc =>
      refine h.stored rfl rfl rfl (Arena.modify_layout s _ _ _) rfl rfl rfl rfl rfl
        (Or.inr ⟨quiet hpc rfl, ?_⟩)
      rw [hpc]
      simp only [Arena.goto]
      split_ifs
      · cases w with
        | publish source => cases source <;> exact ⟨by simp [Pc.finds], rfl, rfl,
            List.nil_sublist _⟩
        | reserve => exact ⟨by simp [Pc.finds], rfl, rfl, List.nil_sublist _⟩
      · exact ⟨by simp, rfl, rfl, List.nil_sublist _⟩
  | reserve index hpc =>
      exact h.stored rfl rfl rfl (Arena.modify_layout s _ _ _) rfl rfl rfl rfl rfl
        (Or.inr ⟨quiet hpc rfl, by simp [Arena.finish], by rw [hpc]; rfl, by rw [hpc]; rfl,
          List.nil_sublist _⟩)
  | stage off descriptor bytes hostTimeNs hpc =>
      exact h.stored rfl rfl rfl (Arena.modify_layout s _ _ _) rfl rfl rfl rfl rfl
        (Or.inr ⟨quiet hpc rfl, by simp [Arena.goto], by rw [hpc]; rfl, by rw [hpc]; rfl,
          List.nil_sublist _⟩)
  | copy index descriptor bytes hostTimeNs hpc =>
      exact h.stored rfl rfl rfl (Arena.modify_layout s _ _ _) rfl rfl rfl rfl rfl
        (Or.inr ⟨quiet hpc rfl, by simp [Arena.goto], by rw [hpc]; rfl, by rw [hpc]; rfl,
          List.nil_sublist _⟩)
  | describe p after hpc =>
      exact h.stored rfl rfl rfl (Arena.modify_layout s _ _ _) rfl rfl rfl rfl rfl
        (Or.inr ⟨quiet hpc rfl, by simp [Arena.goto], by rw [hpc]; rfl, by rw [hpc]; rfl,
          List.nil_sublist _⟩)
  | store p after hpc =>
      exact h.stored rfl rfl rfl (Arena.modify_layout s _ _ _) rfl rfl rfl rfl rfl
        (Or.inr ⟨quiet hpc rfl, by simp [Arena.goto], by rw [hpc]; rfl, by rw [hpc]; rfl,
          List.nil_sublist _⟩)
  | ring p after hpc =>
      exact h.stored rfl rfl rfl (fun _ => rfl) rfl rfl rfl rfl rfl
        (Or.inr ⟨quiet hpc rfl, by simp [Arena.goto], by rw [hpc]; rfl, by rw [hpc]; rfl,
          List.nil_sublist _⟩)
  | latest p after hpc =>
      exact h.stored rfl rfl rfl (fun _ => rfl) rfl rfl rfl rfl rfl
        (Or.inr ⟨quiet hpc rfl, by simp, by rw [hpc]; rfl, by rw [hpc]; rfl, List.Sublist.refl _⟩)
  | release g index outcome hpc =>
      exact h.stored rfl rfl rfl (Arena.modify_layout s _ _ _) rfl rfl rfl rfl rfl
        (Or.inr ⟨quiet hpc rfl, by simp [Arena.finish], by rw [hpc]; rfl, by rw [hpc]; rfl,
          List.nil_sublist _⟩)
  | begin payloadCapacity externalBytes hpc =>
      exact h.begin (quiet hpc rfl) (by rw [hpc]; rfl) (by rw [hpc]; rfl) _ _
  | unconfigure layout hpc =>
      exact h.stored rfl rfl rfl (fun _ => rfl) rfl rfl rfl rfl rfl
        (Or.inr ⟨quiet hpc rfl, by simp [Arena.goto], by rw [hpc]; rfl, by rw [hpc]; rfl,
          List.nil_sublist _⟩)
  | unpublish layout index state hpc =>
      exact h.stored rfl rfl rfl (Arena.modify_layout s _ _ _) rfl rfl rfl rfl rfl
        (Or.inr ⟨quiet hpc rfl, by simp [Arena.goto], by rw [hpc]; rfl, by rw [hpc]; rfl,
          List.nil_sublist _⟩)
  | firstCursor layout hpc => exact h.firstCursor hpc
  | configure g hpc =>
      exact h.stored rfl rfl rfl (fun _ => rfl) rfl rfl rfl rfl rfl
        (Or.inr ⟨quiet hpc rfl, by simp [Arena.goto], by rw [hpc]; rfl, by rw [hpc]; rfl,
          List.nil_sublist _⟩)
  | epoch value after hpc =>
      exact h.stored rfl rfl rfl (fun _ => rfl) rfl rfl rfl rfl rfl
        (Or.inr ⟨quiet hpc rfl, by simp [Arena.goto], by rw [hpc]; rfl, by rw [hpc]; rfl,
          List.Sublist.refl _⟩)
  | terminate after hpc =>
      exact h.stored rfl rfl rfl (fun _ => rfl) rfl rfl rfl rfl rfl
        (Or.inr ⟨quiet hpc rfl, by simp [Arena.goto], by rw [hpc]; rfl, by rw [hpc]; rfl,
          List.Sublist.refl _⟩)
  | page op i todo after hpc =>
      have hvis := h.visits
      rw [hpc] at hvis
      obtain ⟨inc, hinc, -⟩ := h.tracked i (hvis.subset List.mem_cons_self)
      exact h.touched hinc rfl rfl rfl rfl rfl rfl rfl rfl
        (fun _ => rfl) (Or.inl (quiet hpc rfl)) (by simp [Arena.goto]) (by rw [hpc]; rfl)
        (by rw [hpc]; rfl) hvis
  | close op i hpc =>
      obtain ⟨e, heq⟩ | ⟨book', hacc, hsame, hnext, hget, heq⟩ := h.close_spec i
      · rw [heq]
        exact h.stored rfl rfl rfl (fun _ => rfl) rfl rfl rfl rfl rfl
          (Or.inr ⟨quiet hpc rfl, by simp [Arena.fail, Arena.finish], by rw [hpc]; rfl,
            by rw [hpc]; rfl, List.nil_sublist _⟩)
      · rw [heq]
        exact h.recounted rfl rfl hacc hsame (le_of_eq hnext.symm) rfl rfl rfl rfl (quiet hpc rfl)
          (by simp [Arena.finish]) (by rw [hpc]; rfl) (fun j _ => hget j) (fun j hj => by cases hj)
          (by rw [hpc]; rfl) (List.nil_sublist _)
  | register i inc hpc hi hhost =>
      exact h.touched hi rfl rfl rfl rfl rfl rfl rfl rfl
        (fun hne => absurd hhost hne) (Or.inr ⟨rfl, by rw [hpc]; rfl⟩) (by simp [Arena.goto])
        (by rw [hpc]; rfl) (by rw [hpc]; rfl) (List.nil_sublist _)
  | retry i inc outcome hpc hi =>
      exact h.touched hi rfl rfl rfl rfl rfl rfl rfl rfl
        (fun hne => absurd (h.silent (quiet hpc rfl) hi) hne) (Or.inl (quiet hpc rfl))
        (by simp [Arena.finish]) (by rw [hpc]; rfl) (by rw [hpc]; rfl) (List.nil_sublist _)
  | exported g hpc =>
      exact h.stored rfl rfl rfl
        (Arena.onMap_layout s g (fun map => { map with exports := map.exports + 1 }) fun _ => rfl)
        rfl rfl rfl rfl rfl
        (Or.inr ⟨quiet hpc rfl, by simp [Arena.finish], by rw [hpc]; rfl, by rw [hpc]; rfl,
          List.nil_sublist _⟩)
  | dropObserver i todo inc hpc hi =>
      have hvis := h.visits
      rw [hpc] at hvis
      exact h.touched hi rfl rfl rfl rfl rfl rfl rfl rfl
        (fun hne => absurd (h.silent (quiet hpc rfl) hi) hne) (Or.inl (quiet hpc rfl))
        (by simp [Arena.goto]) (by rw [hpc]; rfl) (by rw [hpc]; rfl)
        (List.sublist_of_cons_sublist hvis)

/-- A new arena has one installed allocation and no incarnation. -/
lemma of_create {page : ℕ} {config : ArenaConfig} {externalBytes : ℕ} {native : Bool}
    (h : Arena.create page config externalBytes native = .ok s) : Ledger s := by
  rw [Arena.create] at h
  obtain ⟨⟨layout, admission⟩, hprep, h⟩ := of_bind_ok h
  cases h
  rw [Arena.prepare] at hprep
  split_ifs at hprep
  obtain ⟨layout', hl, hprep⟩ := of_bind_ok hprep
  obtain ⟨controlLen, -, hprep⟩ := of_bind_ok hprep
  split_ifs at hprep
  split at hprep
  swap
  · cases hprep
  rename_i book hbook
  cases hprep
  obtain ⟨hacc, hlimits, -, -⟩ := Accounts.of_new hbook
  obtain ⟨hr, hh, -, hpos, hroom⟩ := layout_of_new hl
  have hbook' : admission.reservations = .empty ∧ admission.currentAllocation = some 1 ∧
      admission.pendingAllocation = none ∧ ∀ g, admission.allocations.get g ≠ none ↔ g = 1 := by
    simp only [AdmissionBook.new] at hbook
    split_ifs at hbook
    cases hbook
    refine ⟨rfl, rfl, rfl, fun g => ?_⟩
    simp only [BTreeMap.get_insert, BTreeMap.get_empty]
    split_ifs with hg <;> simp [hg]
  obtain ⟨hres, hcur, hpend, halloc⟩ := hbook'
  constructor
  case accounts => exact hacc
  case running => simp
  case calls => exact fun i inc hi => by cases hi
  case issued => exact fun i inc hi => by cases hi
  case claims_nodup => exact List.nodup_nil
  case visits => exact List.nil_sublist _
  case tracked => exact fun i hi => by cases hi
  case recorded => exact fun i hi => by simp [hres] at hi
  case current =>
      rintro g hg
      cases hg
      exact ⟨one_ne_zero, (halloc 1).mpr rfl, by simp⟩
  case retired_charged => exact fun r hr => by cases hr
  case retired_nodup => exact List.nodup_nil
  case charged => exact fun g hg => Or.inl (by rw [(halloc g).mp hg])
  case unreserved => exact fun p hp => by simp [hpend] at hp
  case installed => exact fun _ => ⟨hcur, by simp, by simp [hpend]⟩
  case replacing => exact fun layout hl => by cases hl
  case fits =>
      rintro g -
      refine ⟨?_, rfl, ?_, ?_⟩
      · show layout.resources = admission.limits.resourceCapacity.toNat
        rw [hlimits, hr]
      · show 0 < layout.history
        omega
      · show layout.history < layout.resources
        omega
  case pending_fits => exact fun layout hl => by cases hl
  case history =>
      show layout.history = admission.limits.retainedHistory.toNat
      rw [hlimits, hh]

end Ledger

end Jackstay.Acquisition
