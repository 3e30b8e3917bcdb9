import Jackstay.Acquisition.BookRuns
import Jackstay.Acquisition.Arena.Runs

/-!
`acquisition/arena/reconfiguration.rs`: replacements that fail, and are tried again.

`advance_with_allocation` reserves the bytes of the pending replacement, creates its maps,
calls the external allocator, and installs what it has got. Each of its five exits undoes
what the attempt has done so far.

* `Arena.Cleaned`: what `poll_cleanup` may have changed on the way.
* `Arena.Retained`: an attempt that has used up an allocation id, and nothing else.
* `Arena.Replaced`: the replacement is installed and charged with its bytes.
* `replacement_retryable`: every call ends in one of these, and the replacement can be
  installed as soon as its bytes are free.
-/

namespace Jackstay.Acquisition

open Transition

/-- The producer is in `advance_with_allocation`. -/
def Pc.advances : Pc → Bool
  | .terminal .advance => true
  | .cleanup _ .advance => true
  | .resume .advance => true
  | .configure _ => true
  | _ => false

namespace Arena

variable {s t u : Arena}

/-- **What cleanup leaves**: retired allocations may be gone with their charges, and
drained incarnations with their reservations. -/
structure Cleaned (s t : Arena) : Prop where
  pendingLayout : t.producer.pendingLayout = s.producer.pendingLayout
  resources : t.producer.resources = s.producer.resources
  configuration : t.shared.control.configuration = s.shared.control.configuration
  limits : t.producer.admission.limits = s.producer.admission.limits
  pending : t.producer.admission.pendingAllocation = s.producer.admission.pendingAllocation
  current : t.producer.admission.currentAllocation = s.producer.admission.currentAllocation
  next : t.producer.admission.nextAllocation = s.producer.admission.nextAllocation
  retired : t.producer.retired ⊆ s.producer.retired
  allocations : ∀ g, t.producer.admission.allocations.get g =
      s.producer.admission.allocations.get g ∨
    t.producer.admission.allocations.get g = none ∧
      ∃ r ∈ s.producer.retired, r.generation = g ∧ r ∉ t.producer.retired
  reservations : ∀ i, t.producer.admission.reservations.get i =
      s.producer.admission.reservations.get i ∨
    t.producer.admission.reservations.get i = none

/-- The book with one allocation id used up. -/
def spent (book : AdmissionBook) : AdmissionBook :=
  { book with nextAllocation := book.nextAllocation + 1 }

/-- **The replacement stays pending**: all is as it was, but that an allocation id may
have been used up. -/
structure Retained (s t : Arena) : Prop where
  pendingLayout : t.producer.pendingLayout = s.producer.pendingLayout
  resources : t.producer.resources = s.producer.resources
  configuration : t.shared.control.configuration = s.shared.control.configuration
  retired : t.producer.retired = s.producer.retired
  book : t.producer.admission = s.producer.admission ∨
    t.producer.admission = spent s.producer.admission

/-- The book that charges the next allocation with so many bytes, and holds no proposal. -/
def charging (book : AdmissionBook) (bytes : ℕ) : AdmissionBook :=
  { book with
    nextAllocation := book.nextAllocation + 1
    committedBytes := book.committedBytes + bytes
    allocations := book.allocations.insert book.nextAllocation bytes
    currentAllocation := some book.nextAllocation
    pendingAllocation := none }

/-- The bytes of the maps of a replacement and of what the external allocator has got. -/
def bytesOf (s : Arena) (layout : ResourceLayout) (external : ℕ) : ℕ :=
  layout.len + layout.payloadLen + if s.shared.native then external else 0

/-- **The replacement is installed**, under the next allocation id and charged with
exactly its bytes. -/
structure Replaced (s t : Arena) (layout : ResourceLayout) (bytes : ℕ) : Prop where
  pendingLayout : t.producer.pendingLayout = none
  resources : t.producer.resources = some s.producer.admission.nextAllocation
  layout : (t.shared.maps s.producer.admission.nextAllocation).layout = layout
  retired : t.producer.retired = s.producer.retired
  book : t.producer.admission = charging s.producer.admission bytes

/-- The arena after the installation, up to the store of `CONFIGURATION`. -/
def replace (s : Arena) (layout : ResourceLayout) (bytes : ℕ) : Arena :=
  { s.onMap s.producer.admission.nextAllocation (fun _ => ResourceMap.new layout) with
    producer := { s.producer with
      admission := charging s.producer.admission bytes
      resources := some s.producer.admission.nextAllocation
      pendingLayout := none
      nextSlot := 0
      pc := .configure s.producer.admission.nextAllocation } }

/-! ### One attempt -/

/-- A reservation that is given back leaves the book as it was. -/
lemma abandon_reserving (h : Ledger s) {p : PendingAllocation}
    (hp : s.producer.admission.pendingAllocation = some p) (hr : p.reserved = none)
    (hacc : Accounts (Ledger.reserving s.producer.admission p)) (e : ArenaError) :
    (s.setBook (Ledger.reserving s.producer.admission p)).abandonAllocation e =
      (s.setBook (spent s.producer.admission)).finish (.error e) := by
  obtain ⟨e', -, hn⟩ | ⟨q, id, hq, hqr, -, -, he⟩ :=
    AdmissionBook.abandonReconfigurationAllocation_cases hacc
  · have := hn _ rfl
    cases this
  simp only [Ledger.reserving, Option.some.injEq] at hq
  subst hq
  simp only [Option.some.injEq] at hqr
  subst hqr
  have hallocations : (s.producer.admission.allocations.insert
      s.producer.admission.nextAllocation p.upperBound).remove
        s.producer.admission.nextAllocation = s.producer.admission.allocations := by
    refine BTreeMap.ext_get fun g => ?_
    rw [BTreeMap.get_remove, BTreeMap.get_insert]
    split_ifs with hg
    · rw [hg]
      exact (h.accounts.allocation_fresh _ le_rfl).symm
    · rfl
  have hpending : ({ p with reserved := none } : PendingAllocation) = p := by
    rw [← hr]
  have hbook : ({ Ledger.reserving s.producer.admission p with
      committedBytes := (Ledger.reserving s.producer.admission p).committedBytes - p.upperBound
      allocations := (Ledger.reserving s.producer.admission p).allocations.remove
        s.producer.admission.nextAllocation
      pendingAllocation := some { p with reserved := none } } : AdmissionBook) =
        spent s.producer.admission := by
    simp only [Ledger.reserving, spent, hallocations, hpending, ← hp, Nat.add_sub_cancel]
  simp only [abandonAllocation, setBook, he]
  exact congrArg (fun b => (s.setBook b).finish (.error e)) hbook

/-- A replacement whose size is refused is given back, any other is installed. -/
lemma install_reserving (h : Ledger s) {p : PendingAllocation}
    (hp : s.producer.admission.pendingAllocation = some p) (hr : p.reserved = none)
    (hacc : Accounts (Ledger.reserving s.producer.admission p)) (layout : ResourceLayout)
    {bytes : ℕ} (hbytes : bytes < 2 ^ 64) :
    (∃ e, (s.setBook (Ledger.reserving s.producer.admission p)).installAllocation layout
        s.producer.admission.nextAllocation bytes =
          (s.setBook (spent s.producer.admission)).finish (.error e) ∧
            ¬ (0 < bytes ∧ bytes ≤ p.upperBound)) ∨
      (s.setBook (Ledger.reserving s.producer.admission p)).installAllocation layout
        s.producer.admission.nextAllocation bytes = s.replace layout bytes := by
  have hnat : (UInt64.ofNat bytes).toNat = bytes := by
    rw [UInt64.toNat_ofNat']
    exact Nat.mod_eq_of_lt hbytes
  obtain ⟨e, he⟩ | ⟨q, id, hq, hqr, hpos, hle, -, he⟩ :=
    AdmissionBook.installReconfiguration_cases hacc (UInt64.ofNat bytes)
  · refine Or.inl ⟨.admission e, ?_, ?_⟩
    · have hgive := abandon_reserving h hp hr hacc (.admission e)
      simpa only [installAllocation, setBook, he] using hgive
    · rintro ⟨hpos, hle⟩
      obtain ⟨b, hok⟩ := AdmissionBook.install_of_reserved hacc rfl rfl
        (UInt64.lt_iff_toNat_lt.mpr (by rw [hnat]; exact hpos)) (by rw [hnat]; exact hle)
      rw [he] at hok
      cases hok
  · right
    simp only [Ledger.reserving, Option.some.injEq] at hq
    subst hq
    simp only [Option.some.injEq] at hqr
    subst hqr
    have hle : bytes ≤ p.upperBound := hnat ▸ hle
    have hallocations : (s.producer.admission.allocations.insert
        s.producer.admission.nextAllocation p.upperBound).insert
          s.producer.admission.nextAllocation bytes =
        s.producer.admission.allocations.insert s.producer.admission.nextAllocation bytes := by
      refine BTreeMap.ext_get fun g => ?_
      rw [BTreeMap.get_insert, BTreeMap.get_insert, BTreeMap.get_insert]
      split_ifs <;> rfl
    have hcommitted : s.producer.admission.committedBytes + p.upperBound -
        (p.upperBound - bytes) = s.producer.admission.committedBytes + bytes := by
      omega
    simp only [installAllocation, setBook, he, hnat]
    simp only [Ledger.reserving, hallocations, hcommitted]
    rfl

/-- **One attempt**: it leaves all as it was, uses up an id, or installs the replacement
with exactly its bytes. -/
lemma advance_outcomes (h : Ledger s) {layout : ResourceLayout}
    (hl : s.producer.pendingLayout = some layout) (e : Env) :
    (∃ o, s.advance e = s.finish o) ∨
      (∃ o, s.advance e = (s.setBook (spent s.producer.admission)).finish o) ∨
      s.advance e = s.replace layout (s.bytesOf layout e.value) := by
  simp only [advance, hl]
  have hacc := h.accounts.reserveReconfiguration
  obtain ⟨err, he⟩ | ⟨p, id, hp, hr, -⟩ | ⟨p, hp, hr, -, -, he⟩ :=
    AdmissionBook.reserveReconfiguration_cases h.accounts
  · rw [he]
    cases err <;> exact Or.inl ⟨_, rfl⟩
  · rw [h.unreserved p hp] at hr
    cases hr
  rw [he] at hacc ⊢
  right
  have abandoned := fun e' => abandon_reserving h hp hr hacc e'
  by_cases hfail : e.fail = true
  · refine Or.inl ⟨.error .storage, ?_⟩
    simp only [hfail, if_true]
    exact abandoned .storage
  by_cases hbroken : s.shared.native = true ∧ e.broken = true
  · refine Or.inl ⟨.error .storage, ?_⟩
    simp only [hfail, setBook_shared, hbroken, and_self, if_true, Bool.false_eq_true, if_false]
    exact abandoned .storage
  by_cases hbig : 2 ^ 64 ≤ s.bytesOf layout e.value
  · refine Or.inl ⟨.error (.admission .invalidAllocationSize), ?_⟩
    simp only [hfail, setBook_shared, hbroken, Bool.false_eq_true, if_false]
    exact (if_pos hbig).trans (abandoned _)
  · have hinstall := install_reserving h hp hr hacc layout (Nat.lt_of_not_le hbig)
    simp only [hfail, setBook_shared, hbroken, Bool.false_eq_true, if_false]
    rcases hinstall with ⟨e', hret, -⟩ | hdone
    · exact Or.inl ⟨_, (if_neg hbig).trans hret⟩
    · exact Or.inr ((if_neg hbig).trans hdone)

/-- **A fitting attempt succeeds**: the bytes of the proposal are free, an id is left, and
maps and pool are created within the proposal. -/
lemma advance_installs (h : Ledger s) {layout : ResourceLayout} {p : PendingAllocation}
    (hl : s.producer.pendingLayout = some layout)
    (hp : s.producer.admission.pendingAllocation = some p)
    (hfree : s.producer.admission.committedBytes + p.upperBound ≤
      s.producer.admission.limits.memoryBudget.toNat)
    (hids : s.producer.admission.nextAllocation + 1 < 2 ^ 64) {e : Env}
    (hfail : e.fail = false) (hbroken : s.shared.native = true → e.broken = false)
    (hpos : 0 < s.bytesOf layout e.value) (hle : s.bytesOf layout e.value ≤ p.upperBound) :
    s.advance e = s.replace layout (s.bytesOf layout e.value) := by
  have hr : p.reserved = none := h.unreserved p hp
  have hupper : p.upperBound < 2 ^ 64 := by
    have hbudget := Accounts.budget_lt s.producer.admission
    omega
  have he := AdmissionBook.reserve_of_free hp hr hfree hids
  have hacc := h.accounts.reserveReconfiguration
  rw [he] at hacc
  have hbig : ¬ 2 ^ 64 ≤ s.bytesOf layout e.value := by omega
  have hnot : ¬ (s.shared.native = true ∧ e.broken = true) := fun h0 => by
    rw [hbroken h0.1] at h0
    exact absurd h0.2 Bool.false_ne_true
  simp only [advance, hl, he, hfail, setBook_shared, hnot, Bool.false_eq_true, if_false]
  refine (if_neg hbig).trans ?_
  rcases install_reserving h hp hr hacc layout (Nat.lt_of_not_le hbig) with ⟨e', -, hbad⟩ | hdone
  · exact absurd ⟨hpos, hle⟩ hbad
  · exact hdone

/-! ### Cleanup on the way -/

/-- The fields that cleanup may change are as they were. -/
lemma Cleaned.of_same (hproducer : t.producer.pendingLayout = s.producer.pendingLayout ∧
      t.producer.resources = s.producer.resources ∧ t.producer.retired = s.producer.retired ∧
      t.producer.admission = s.producer.admission)
    (hcontrol : t.shared.control = s.shared.control) : Cleaned s t := by
  obtain ⟨hlayout, hresources, hretired, hbook⟩ := hproducer
  refine ⟨hlayout, hresources, by rw [hcontrol], by rw [hbook], by rw [hbook], by rw [hbook],
    by rw [hbook], ?_, fun g => Or.inl (by rw [hbook]), fun i => Or.inl (by rw [hbook])⟩
  rw [hretired]
  exact List.Subset.refl _

lemma Cleaned.refl (s : Arena) : Cleaned s s := .of_same ⟨rfl, rfl, rfl, rfl⟩ rfl

lemma Cleaned.trans (h : Cleaned s t) (h' : Cleaned t u) : Cleaned s u := by
  refine ⟨h'.pendingLayout.trans h.pendingLayout, h'.resources.trans h.resources,
    h'.configuration.trans h.configuration, h'.limits.trans h.limits, h'.pending.trans h.pending,
    h'.current.trans h.current, h'.next.trans h.next, fun r hr => h.retired (h'.retired hr),
    fun g => ?_, fun i => ?_⟩
  · rcases h'.allocations g with hu | ⟨hu, r, hr, hg, hgone⟩
    · rcases h.allocations g with ht | ⟨ht, r, hr, hg, hgone⟩
      · exact Or.inl (hu.trans ht)
      · exact Or.inr ⟨hu.trans ht, r, hr, hg, fun h0 => hgone (h'.retired h0)⟩
    · exact Or.inr ⟨hu, r, h.retired hr, hg, hgone⟩
  · rcases h'.reservations i with hu | hu
    · rcases h.reservations i with ht | ht
      · exact Or.inl (hu.trans ht)
      · exact Or.inr (hu.trans ht)
    · exact Or.inr hu

/-- The cleanup of a drained incarnation. -/
lemma Cleaned.collect (h : Ledger s) {i : ℕ} {todo : List ℕ} {goal : Goal}
    (hd : s.Drained i todo goal) : Cleaned s (s.collect i todo goal) := by
  obtain ⟨hi, hrem, -⟩ := h.drained hd
  obtain ⟨book', -, hsame, -, hget, heq⟩ := h.collect_spec hi hrem todo goal
  rw [heq]
  refine ⟨rfl, rfl, rfl, hsame.limits, hsame.pendingAllocation, hsame.currentAllocation,
    hsame.nextAllocation, List.Subset.refl _, fun g => Or.inl ?_, fun j => ?_⟩
  · exact congrArg (BTreeMap.get · g) hsame.allocations
  · have hj := hget j
    by_cases hji : j = i
    · exact Or.inr (hj.trans (if_pos hji))
    · exact Or.inl (hj.trans (if_neg hji))

/-- The cleanup of a retired allocation. -/
lemma Cleaned.reclaim (h : Ledger s) (hrepl : s.producer.pc.replacing = none) {index : ℕ}
    {r : RetiredAllocation} (hr : s.producer.retired[index]? = some r) (goal : Goal) :
    Cleaned s (s.reclaim index r.generation goal) := by
  obtain ⟨book', -, hsame, hcurrent, hnext, hpending, hget, heq⟩ := h.reclaim_spec hrepl hr goal
  have hmem := h.mem_swapRemove_retired hr
  rw [heq]
  refine ⟨rfl, rfl, rfl, hsame.limits, hpending, hcurrent, hnext,
    fun x hx => ((hmem x).mp hx).1, fun g => ?_, fun i => Or.inl ?_⟩
  · by_cases hg : g = r.generation
    · refine Or.inr ⟨(hget g).trans (if_pos hg), r, List.mem_of_getElem? hr, hg.symm, fun h0 => ?_⟩
      exact ((hmem r).mp h0).2 rfl
    · exact Or.inl ((hget g).trans (if_neg hg))
  · exact congrArg (BTreeMap.get · i) hsame.reservations

/-- **A step of `poll_cleanup`.** -/
lemma Acts.cleaned (h : Ledger s) {c : CleanupPc} {goal : Goal}
    (hpc : s.producer.pc = .cleanup c goal) (hs : s.Acts t) :
    Cleaned s t ∧ ((∃ c', t.producer.pc = .cleanup c' goal) ∨
      t.producer.pc = .resume goal ∨ t.producer.pc = .idle) := by
  cases hs with
  | incarnation i inc inc' hi ha => exact ⟨.of_same ⟨rfl, rfl, rfl, rfl⟩ rfl, Or.inl ⟨c, hpc⟩⟩
  | write g index bytes hres hlen => exact ⟨.of_same ⟨rfl, rfl, rfl, rfl⟩ rfl, Or.inl ⟨c, hpc⟩⟩
  | abandon g index hres => exact ⟨.of_same ⟨rfl, rfl, rfl, rfl⟩ rfl, Or.inl ⟨c, hpc⟩⟩
  | releaseMap g hpos => exact ⟨.of_same ⟨rfl, rfl, rfl, rfl⟩ rfl, Or.inl ⟨c, hpc⟩⟩
  | dropExport g hpos => exact ⟨.of_same ⟨rfl, rfl, rfl, rfl⟩ rfl, Or.inl ⟨c, hpc⟩⟩
  | flow pc outcome released hflow =>
      refine ⟨.of_same ⟨rfl, rfl, rfl, rfl⟩ rfl, ?_⟩
      have hgoal : (∃ c', pc = .cleanup c' goal) ∨ pc = .resume goal ∨ pc = .idle := by
        rw [hpc] at hflow
        cases hflow with
        | clean c c' goal hc => exact Or.inl ⟨c', rfl⟩
        | cleaned index goal hnone => exact Or.inr (Or.inl rfl)
        | unready index goal' => exact Or.inr (Or.inr rfl)
      exact hgoal
  | observe i todo goal' inc hpc' hi ho =>
      rw [hpc] at hpc'
      cases hpc'
      exact ⟨.of_same ⟨rfl, rfl, rfl, rfl⟩ rfl, Or.inl ⟨_, rfl⟩⟩
  | observed i todo goal' released hpc' =>
      rw [hpc] at hpc'
      cases hpc'
      exact ⟨.of_same ⟨rfl, rfl, rfl, rfl⟩ rfl, Or.inl ⟨_, rfl⟩⟩
  | collect i todo goal' hd =>
      have hgoal : goal' = goal := by
        obtain ⟨-, -, c', hpc'⟩ := h.drained hd
        rw [hpc] at hpc'
        cases hpc'
        rfl
      subst hgoal
      refine ⟨.collect h hd, Or.inl ⟨.remove i todo, ?_⟩⟩
      obtain ⟨hi, hrem, -⟩ := h.drained hd
      obtain ⟨book', -, -, -, -, heq⟩ := h.collect_spec hi hrem todo goal'
      rw [heq]
      rfl
  | remove i todo goal' inc hpc' hi ho =>
      rw [hpc] at hpc'
      cases hpc'
      exact ⟨.of_same ⟨rfl, rfl, rfl, rfl⟩ rfl, Or.inl ⟨_, rfl⟩⟩
  | reclaim index goal' r hpc' hr hcount hnative =>
      rw [hpc] at hpc'
      cases hpc'
      have hrepl : s.producer.pc.replacing = none := by rw [hpc]; rfl
      refine ⟨.reclaim h hrepl hr goal, Or.inl ⟨.retired index, ?_⟩⟩
      obtain ⟨_, _, _, _, _, _, _, heq⟩ := h.reclaim_spec hrepl hr goal
      rw [heq]
  | unready index goal' r hpc' hr =>
      rw [hpc] at hpc'
      cases hpc'
      exact ⟨.of_same ⟨rfl, rfl, rfl, rfl⟩ rfl, Or.inl ⟨_, rfl⟩⟩
  | ready index goal' r hpc' hr =>
      rw [hpc] at hpc'
      cases hpc'
      have hrepl : s.producer.pc.replacing = none := by rw [hpc]; rfl
      have hready := h.ready r.generation
      have hmid : Cleaned s (s.onMap r.generation fun map => { map with ready := true }) :=
        .of_same ⟨rfl, rfl, rfl, rfl⟩ rfl
      refine ⟨hmid.trans (.reclaim hready hrepl hr goal), Or.inl ⟨.retired index, ?_⟩⟩
      obtain ⟨_, _, _, _, _, _, _, heq⟩ := hready.reclaim_spec hrepl hr goal
      rw [heq]
  | _ => simp_all only [reduceCtorEq]

/-! ### The proposal -/

/-- **The proposal covers the maps** of the replacement that is under way or pending. -/
def Proposed (s : Arena) : Prop :=
  ∀ layout p, s.producer.pendingLayout = some layout ∨ s.producer.pc.replacing = some layout →
    s.producer.admission.pendingAllocation = some p →
    0 < layout.len ∧ layout.len + layout.payloadLen ≤ p.upperBound

/-- The maps of a layout take some bytes. -/
lemma len_pos_of_new {page resources history payloadCapacity : ℕ} {layout : ResourceLayout}
    (h : ResourceLayout.new page resources history payloadCapacity = .ok layout) :
    0 < layout.len := by
  rw [ResourceLayout.new] at h
  by_cases hbad : history = 0 ∨ resources ≤ history
  · rw [if_pos hbad] at h
    cases h
  rw [if_neg hbad] at h
  obtain ⟨size, -, h⟩ := of_bind_ok h
  obtain ⟨total, htotal, h⟩ := of_bind_ok h
  obtain ⟨len, hlen, h⟩ := of_bind_ok h
  obtain ⟨payloadLen, -, h⟩ := of_bind_ok h
  obtain ⟨both, -, h⟩ := of_bind_ok h
  split_ifs at h
  cases h
  rw [checkedAdd] at htotal
  split_ifs at htotal
  cases htotal
  rw [pageRounded] at hlen
  split_ifs at hlen with hpage
  rw [rounded] at hlen
  obtain ⟨sum, hsum, hlen⟩ := of_bind_ok hlen
  cases hlen
  rw [checkedAdd] at hsum
  split_ifs at hsum
  cases hsum
  have hone : 1 ≤ (headerLen + size + (page - 1)) / page := by
    rw [Nat.one_le_div_iff (Nat.pos_of_ne_zero hpage), headerLen]
    omega
  exact Nat.mul_pos hone (Nat.pos_of_ne_zero hpage)

/-- A reconfiguration proposes the bytes of its maps and of its pool. -/
lemma begin_proposed (h : Ledger s) (payloadCapacity externalBytes : ℕ)
    {layout : ResourceLayout} {p : PendingAllocation}
    (hpc : (s.beginReconfiguration payloadCapacity externalBytes).producer.pc.replacing =
      some layout)
    (hp : (s.beginReconfiguration payloadCapacity externalBytes).producer.admission.pendingAllocation
      = some p) : 0 < layout.len ∧ layout.len + layout.payloadLen ≤ p.upperBound := by
  have refused : ∀ e, (s.fail e).producer.pc.replacing ≠ some layout := fun e h0 => by cases h0
  have hpanic : (s.goto .panicked).producer.pc.replacing ≠ some layout := fun h0 => by cases h0
  rw [beginReconfiguration] at hpc hp
  split_ifs at hpc hp with hterm hpend hres
  · exact absurd hpc (refused _)
  · exact absurd hpc (refused _)
  · exact absurd hpc hpanic
  cases hl : ResourceLayout.new s.shared.page s.layout.resources s.layout.history
      payloadCapacity with
  | error e =>
      rw [hl] at hpc
      exact absurd hpc (refused _)
  | ok new =>
      rw [hl] at hpc hp
      dsimp only at hpc hp
      split_ifs at hpc hp with hbig
      · exact absurd hpc (refused _)
      obtain ⟨e, he⟩ | ⟨-, -, -, -, he⟩ := AdmissionBook.beginReconfiguration_cases h.accounts
        (UInt64.ofNat (new.len + new.payloadLen + externalBytes))
      · rw [he] at hpc
        cases hpc
      · rw [he] at hpc hp
        cases hpc
        cases hp
        refine ⟨len_pos_of_new hl, ?_⟩
        have hnat : (UInt64.ofNat (layout.len + layout.payloadLen + externalBytes)).toNat =
            layout.len + layout.payloadLen + externalBytes := by
          rw [UInt64.toNat_ofNat']
          exact Nat.mod_eq_of_lt (Nat.lt_of_not_le hbig)
        have hgoal : layout.len + layout.payloadLen ≤
            (UInt64.ofNat (layout.len + layout.payloadLen + externalBytes)).toNat := by omega
        exact hgoal

lemma Proposed.of_same (h : s.Proposed)
    (hlayout : t.producer.pendingLayout = s.producer.pendingLayout)
    (hpc : t.producer.pc.replacing = s.producer.pc.replacing)
    (hbook : t.producer.admission.pendingAllocation = s.producer.admission.pendingAllocation) :
    t.Proposed := by
  intro layout p hl hp
  rw [hlayout, hpc] at hl
  rw [hbook] at hp
  exact h layout p hl hp

/-- **Every step keeps the proposal.** -/
lemma Proposed.acts (h : s.Proposed) (hl : Ledger s) (hs : s.Acts t) : t.Proposed := by
  cases hs with
  | incarnation i inc inc' hi ha => exact h.of_same rfl rfl rfl
  | write g index bytes hres hlen => exact h.of_same rfl rfl rfl
  | abandon g index hres => exact h.of_same rfl rfl rfl
  | releaseMap g hpos => exact h.of_same rfl rfl rfl
  | dropExport g hpos => exact h.of_same rfl rfl rfl
  | flow pc outcome released hflow => exact h.of_same rfl hflow.quiet.2.2.1 rfl
  | collect i todo goal hd =>
      obtain ⟨hi, hrem, c, hpc⟩ := hl.drained hd
      obtain ⟨book', -, hsame, -, -, heq⟩ := hl.collect_spec hi hrem todo goal
      rw [heq]
      exact h.of_same rfl (by rw [hpc]; rfl) hsame.pendingAllocation
  | reclaim index goal r hpc hr hcount hnative =>
      have hrepl : s.producer.pc.replacing = none := by rw [hpc]; rfl
      obtain ⟨_, -, -, -, -, hpending, -, heq⟩ := hl.reclaim_spec hrepl hr goal
      rw [heq]
      exact h.of_same rfl hrepl.symm hpending
  | ready index goal r hpc hr =>
      have hrepl : s.producer.pc.replacing = none := by rw [hpc]; rfl
      obtain ⟨_, -, -, -, -, hpending, -, heq⟩ :=
        (hl.ready r.generation).reclaim_spec hrepl hr goal
      rw [heq]
      exact h.of_same rfl hrepl.symm hpending
  | attach e holding remote hpc =>
      have hrepl : s.producer.pc.replacing = none := by rw [hpc]; rfl
      obtain ⟨o, heq⟩ | ⟨book', o, -, hsame, -, -, heq⟩ | ⟨book', g, r, -, hsame, -, -, -, -, -, heq⟩ :=
        hl.attach_spec hrepl e holding remote
      · rw [heq]
        exact h.of_same rfl hrepl.symm rfl
      · rw [heq]
        exact h.of_same rfl hrepl.symm hsame.pendingAllocation
      · rw [heq]
        exact h.of_same rfl hrepl.symm hsame.pendingAllocation
  | advance e hpc =>
      have hrepl : s.producer.pc.replacing = none := by rw [hpc]; rfl
      cases hpend : s.producer.pendingLayout with
      | none =>
          rw [Arena.advance, hpend]
          exact h.of_same rfl hrepl.symm rfl
      | some layout =>
          rcases advance_outcomes hl hpend e with ⟨o, heq⟩ | ⟨o, heq⟩ | heq
          · rw [heq]
            exact h.of_same rfl hrepl.symm rfl
          · rw [heq]
            exact h.of_same rfl hrepl.symm rfl
          · rw [heq]
            intro layout' p hl' hp
            cases hp
  | begin payloadCapacity externalBytes hpc =>
      have hrepl : s.producer.pc.replacing = none := by rw [hpc]; rfl
      intro layout p hl' hp
      rcases hl' with hl' | hl'
      · obtain ⟨o, heq⟩ | ⟨new, book', g, -, -, hnone, -, -, -, -, -, -, -, -, heq⟩ :=
          hl.begin_spec hrepl payloadCapacity externalBytes
        · rw [heq] at hl' hp
          exact h layout p (Or.inl hl') hp
        · rw [heq] at hl'
          cases hnone.symm.trans hl'
      · exact begin_proposed hl payloadCapacity externalBytes hl' hp
  | firstCursor layout hpc =>
      intro layout' p hl' hp
      rcases hl' with hl' | hl'
      · cases hl'
        exact h layout p (Or.inr (by rw [hpc]; rfl)) hp
      · cases hl'
  | close call i hpc =>
      have hrepl : s.producer.pc.replacing = none := by rw [hpc]; rfl
      obtain ⟨e, heq⟩ | ⟨book', -, hsame, -, -, heq⟩ := hl.close_spec i
      · rw [heq]
        exact h.of_same rfl hrepl.symm rfl
      · rw [heq]
        exact h.of_same rfl hrepl.symm hsame.pendingAllocation
  | retire w off generation hpc =>
      have hrepl : s.producer.pc.replacing = none := by rw [hpc]; rfl
      refine h.of_same rfl (Eq.trans ?_ hrepl.symm) rfl
      have hpc' : (if generation = 0 then Pc.finds s off w
          else .scanClaims w off generation s.claimProbes).replacing = none := by
        split_ifs
        · rcases w with (_ | _) | _ <;> rfl
        · rfl
      exact hpc'
  | _ => exact h.of_same rfl (by simp_all only [Pc.replacing] <;> rfl) rfl

/-- In every reachable arena. -/
lemma Reachable.proposed (h : Reachable s) : s.Proposed := by
  refine h.induct (fun page config externalBytes native s₀ h₀ => ?_)
    fun a b ha hp hs => hp.acts ha.ledger hs
  rw [create] at h₀
  obtain ⟨x, -, h₀⟩ := of_bind_ok h₀
  cases h₀
  intro layout p hl hp
  rcases hl with hl | hl
  · cases hl
  · cases hl

/-! ### The call -/

/-- The producer is in the call. -/
def Advancing (s : Arena) (_ : Label) : Prop := s.producer.pc.advances = true

/-- **How far a call of `advance_with_allocation` has come** since the arena was `s`. -/
inductive Advance (s : Arena) (layout : ResourceLayout) (t : Arena) : Prop
  /-- nothing has happened but cleanup -/
  | cleaning : Cleaned s t → t.producer.pc = .terminal .advance ∨
      (∃ c, t.producer.pc = .cleanup c .advance) ∨ t.producer.pc = .resume .advance →
      Advance s layout t
  /-- the call has returned, and the replacement is as pending as it was -/
  | returned (mid : Arena) : Cleaned s mid → Retained mid t → t.producer.pc = .idle →
      Advance s layout t
  /-- the replacement is installed, and `CONFIGURATION` about to be stored -/
  | installing (mid : Arena) (external : ℕ) : Cleaned s mid →
      Replaced mid t layout (mid.bytesOf layout external) →
      t.producer.pc = .configure mid.producer.admission.nextAllocation → Advance s layout t
  /-- consumers can be told -/
  | installed (mid : Arena) (external : ℕ) : Cleaned s mid →
      Replaced mid t layout (mid.bytesOf layout external) →
      t.shared.control.configuration = mid.producer.admission.nextAllocation →
      t.producer.pc = .epochLoad (.finish (.ready mid.producer.admission.nextAllocation)) →
      Advance s layout t

lemma Retained.of_finish (o : Outcome) : Retained s (s.finish o) :=
  ⟨rfl, rfl, rfl, rfl, Or.inl rfl⟩

/-- The others leave the producer alone, and the layouts. -/
lemma step_other {l : Label} (hpc : s.producer.pc ≠ .idle) (hl : ∀ e, l ≠ .producer e)
    (hs : s.step l = some t) : t.producer = s.producer ∧ t.shared.control = s.shared.control ∧
      ∀ g, (t.shared.maps g).layout = (s.shared.maps g).layout := by
  cases l with
  | call op =>
      rw [step, if_neg hpc] at hs
      cases hs
  | producer e => exact absurd rfl (hl e)
  | incarnation i l =>
      simp only [step, Option.bind_eq_bind, Option.bind_eq_some_iff] at hs
      obtain ⟨inc, -, inc', -, heq⟩ := hs
      cases heq
      exact ⟨rfl, rfl, fun _ => rfl⟩
  | write g index bytes =>
      simp only [step] at hs
      split_ifs at hs
      cases hs
      exact ⟨rfl, rfl, onMap_layout s g _ fun _ => rfl⟩
  | abandon g index =>
      simp only [step] at hs
      split_ifs at hs
      cases hs
      exact ⟨rfl, rfl, onMap_layout s g _ fun _ => rfl⟩
  | releaseMap g =>
      simp only [step] at hs
      split_ifs at hs
      cases hs
      exact ⟨rfl, rfl, onMap_layout s g _ fun _ => rfl⟩
  | dropExport g =>
      simp only [step] at hs
      split_ifs at hs
      cases hs
      exact ⟨rfl, rfl, onMap_layout s g _ fun _ => rfl⟩

/-- **A step of the call, or of another party during it.** -/
lemma Advance.step (ht : Ledger t) {layout : ResourceLayout}
    (hl : s.producer.pendingLayout = some layout) (h : Advance s layout t) {l : Label}
    (hC : Advancing t l) (hs : t.step l = some u) : Advance s layout u := by
  have hpc : t.producer.pc ≠ .idle := fun h0 => by
    rw [Advancing, h0] at hC
    cases hC
  by_cases hprod : ∃ e, l = .producer e
  swap
  · -- another party
    obtain ⟨hp, hc, hlayouts⟩ := step_other hpc (fun e h0 => hprod ⟨e, h0⟩) hs
    cases h with
    | cleaning hclean hwhere =>
        refine .cleaning (hclean.trans (.of_same (by simp only [hp, and_self]) hc)) ?_
        rw [hp]
        exact hwhere
    | returned mid hclean hret hidle => exact absurd hidle hpc
    | installing mid external hclean hrep hconf =>
        refine .installing mid external hclean ⟨?_, ?_, ?_, ?_, ?_⟩ (by rw [hp]; exact hconf)
        · rw [hp]
          exact hrep.pendingLayout
        · rw [hp]
          exact hrep.resources
        · rw [hlayouts]
          exact hrep.layout
        · rw [hp]
          exact hrep.retired
        · rw [hp]
          exact hrep.book
    | installed mid external hclean hrep hstored hdone =>
        rw [Advancing, hdone] at hC
        cases hC
  obtain ⟨e, rfl⟩ := hprod
  cases h with
  | cleaning hclean hwhere =>
      rcases hwhere with hpc' | ⟨c, hpc'⟩ | hpc'
      · -- the `TERMINAL` load
        simp only [Arena.step, producerStep, hpc'] at hs
        split_ifs at hs
        · cases hs
          exact .returned t hclean (.of_finish _) rfl
        · cases hs
          exact .cleaning (hclean.trans (.of_same ⟨rfl, rfl, rfl, rfl⟩ rfl))
            (Or.inr (Or.inl ⟨_, rfl⟩))
      · obtain ⟨hstep, hwhere⟩ := (acts_of_step hs).cleaned ht hpc'
        rcases hwhere with ⟨c', hc'⟩ | hres | hidle
        · exact .cleaning (hclean.trans hstep) (Or.inr (Or.inl ⟨c', hc'⟩))
        · exact .cleaning (hclean.trans hstep) (Or.inr (Or.inr hres))
        · exact .returned u (hclean.trans hstep) ⟨rfl, rfl, rfl, rfl, Or.inl rfl⟩ hidle
      · -- the attempt
        have hadv : u = t.advance e := by
          simp only [Arena.step, producerStep, hpc', resume] at hs
          exact (Option.some.inj hs).symm
        have hpend : t.producer.pendingLayout = some layout := hclean.pendingLayout.trans hl
        rcases advance_outcomes ht hpend e with ⟨o, heq⟩ | ⟨o, heq⟩ | heq
        · rw [hadv, heq]
          exact .returned t hclean (.of_finish o) rfl
        · rw [hadv, heq]
          exact .returned t hclean ⟨rfl, rfl, rfl, rfl, Or.inr rfl⟩ rfl
        · rw [hadv, heq]
          refine .installing t e.value hclean ⟨rfl, rfl, ?_, rfl, rfl⟩ rfl
          have hmap : ((t.replace layout (t.bytesOf layout e.value)).shared.maps
              t.producer.admission.nextAllocation) = ResourceMap.new layout :=
            Function.update_self _ _ _
          rw [hmap]
          rfl
  | returned mid hclean hret hidle => exact absurd hidle hpc
  | installing mid external hclean hrep hconf =>
      simp only [Arena.step, producerStep, hconf, reconfigureStep] at hs
      cases hs
      exact .installed mid external hclean
        ⟨hrep.pendingLayout, hrep.resources, hrep.layout, hrep.retired, hrep.book⟩ rfl rfl
  | installed mid external hclean hrep hstored hdone =>
      rw [Advancing, hdone] at hC
      cases hC

/-- What maps and pool an attempt gets: the maps are created, the pool is allocated, and
together they keep to the proposal. A CPU arena has no pool. -/
structure Fitting (s : Arena) (layout : ResourceLayout) (p : PendingAllocation) (e : Env) :
    Prop where
  maps : e.fail = false
  pool : s.shared.native = true → e.broken = false ∧
    layout.len + layout.payloadLen + e.value ≤ p.upperBound

/-- **A failed replacement can be tried again and leaks nothing.** A call of
`advance_with_allocation` that finds a replacement pending cleans up, and then either
installs the replacement, charged with exactly its bytes, or leaves everything as it was but
for an allocation id; and at any later time an attempt whose maps and pool fit installs the
replacement that is pending then, as soon as the bytes of its proposal are free. -/
theorem replacement_retryable (h : Reachable s) {layout : ResourceLayout}
    (hl : s.producer.pendingLayout = some layout) (hpc : s.producer.pc = .terminal .advance) :
    (∀ t, Reaches step Advancing s t → Advance s layout t) ∧
      ∀ t, Reaches step Always s t → t.producer.pc = .resume .advance →
        ∀ layout', t.producer.pendingLayout = some layout' →
          ∃ p, t.producer.admission.pendingAllocation = some p ∧
            (t.producer.admission.committedBytes + p.upperBound ≤
                t.producer.admission.limits.memoryBudget.toNat →
              t.producer.admission.nextAllocation + 1 < 2 ^ 64 →
              ∀ e, t.Fitting layout' p e → ∃ u, t.step (.producer e) = some u ∧
                Replaced t u layout' (t.bytesOf layout' e.value) ∧
                u.producer.pc = .configure t.producer.admission.nextAllocation) := by
  constructor
  · intro t hrun
    refine hrun.invariant_with (P := Advance s layout) (Q := Reachable) (fun a ha => h.run ha)
      (.cleaning (.refl s) (Or.inl hpc)) fun a l b ha hp hC hs => ?_
    exact hp.step ha.ledger hl hC hs
  · intro t hrun hresume layout' hl'
    have ht : Reachable t := h.run hrun
    have hledger := ht.ledger
    have hrepl : t.producer.pc.replacing = none := by rw [hresume]; rfl
    obtain ⟨p, hp⟩ : ∃ p, t.producer.admission.pendingAllocation = some p := by
      have hsome := (hledger.installed hrepl).2.2.mpr (by rw [hl']; rfl)
      exact Option.isSome_iff_exists.mp hsome
    refine ⟨p, hp, fun hfree hids e hfit => ?_⟩
    obtain ⟨hlen, hcover⟩ := ht.proposed layout' p (Or.inl hl') hp
    have hpos : 0 < t.bytesOf layout' e.value := by
      rw [bytesOf]
      omega
    have hle : t.bytesOf layout' e.value ≤ p.upperBound := by
      rw [bytesOf]
      split_ifs with hnative
      · exact (hfit.pool hnative).2
      · exact hcover
    have heq := advance_installs hledger hl' hp hfree hids hfit.maps
      (fun hnative => (hfit.pool hnative).1) hpos hle
    refine ⟨t.replace layout' (t.bytesOf layout' e.value), ?_, ⟨rfl, rfl, ?_, rfl, rfl⟩, rfl⟩
    · simp only [step, producerStep, hresume, resume, heq]
    · have hmap : ((t.replace layout' (t.bytesOf layout' e.value)).shared.maps
          t.producer.admission.nextAllocation) = ResourceMap.new layout' :=
        Function.update_self _ _ _
      rw [hmap]
      rfl

/-- Two slots, one of them history. -/
def pairConfig : ArenaConfig where
  resourceCapacity := 2
  retainedHistory := 1
  producerReserve := 1
  payloadCapacity := 4
  memoryBudget := 65536
  maxIncarnations := 1
  drainTimeout := 1

/-- A replacement is proposed, and the producer is about to try it. -/
def proposing : List Label := .call (.reconfigureCpu 8) :: List.replicate 11 (.producer {})

theorem replacement_retryable_pair : ∃ s layout, Reachable s ∧
    s.producer.pendingLayout = some layout ∧ layout.payloadCapacity = 8 ∧
    ∀ t, Reaches step Advancing s t → Advance s layout t := by
  have hrun : ((script 4096 pairConfig 0 false proposing).bind fun s =>
      s.producer.pendingLayout.map fun layout =>
        (decide (s.producer.pc = .terminal .advance), layout.payloadCapacity)) =
          some (true, 8) := by
    decide +kernel
  obtain ⟨s, hs, hrun⟩ := Option.bind_eq_some_iff.mp hrun
  obtain ⟨layout, hl, hrun⟩ := Option.map_eq_some_iff.mp hrun
  simp only [Prod.mk.injEq, decide_eq_true_eq] at hrun
  exact ⟨s, layout, .of_script hs, hl, hrun.2, (replacement_retryable (.of_script hs) hl hrun.1).1⟩

end Arena

end Jackstay.Acquisition
