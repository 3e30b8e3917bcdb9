import Jackstay.Acquisition.AdmissionBook

/-!
Accounting of the admission book over whole runs.

* `Call.on_bind` and its companions run a call step by step, so that each
  operation has one inversion lemma (`admitHolding_cases`, …): it fails with an
  error and leaves the book alone, or it succeeds with the update written out.
* `Accounts` is the invariant: the two counters are the sums they stand for,
  within capacity and budget, and identifiers at or above the next one are
  unused. It carries the feasibility of a pending replacement, which is what
  keeps a started reconfiguration satisfiable while claims only shrink.
* `Accounts.admitHolding` and its companions are the step lemmas; the runs are
  in `BookRuns`.
-/

namespace Jackstay.Acquisition

open Call

/-! ### Running a call -/

namespace Call

variable {α β : Type} {book : AdmissionBook}

@[simp] lemma on_pure (a : α) : (pure a : Call α).on book = (.ok a, book) := rfl

@[simp] lemma on_err (e : AdmissionError) :
    (err e : Call α).on book = (.error (.error e), book) := rfl

@[simp] lemma on_get : (get : Call AdmissionBook).on book = (.ok book, book) := rfl

@[simp] lemma on_set (b : AdmissionBook) : (set b : Call PUnit).on book = (.ok ⟨⟩, b) := rfl

@[simp] lemma on_modify (f : AdmissionBook → AdmissionBook) :
    (modify f : Call PUnit).on book = (.ok ⟨⟩, f book) := rfl

lemma on_bind (c : Call α) (f : α → Call β) :
    (c >>= f).on book =
      match c.on book with
      | (.ok a, b) => (f a).on b
      | (.error e, b) => (.error e, b) := by
  simp only [on, ExceptT.run_bind, StateT.run_bind]
  cases StateT.run (ExceptT.run c) book with
  | mk r b => cases r <;> rfl

/-- A call that returns hands its value on. -/
lemma on_bind_ok {c : Call α} {f : α → Call β} {a : α} {b : AdmissionBook}
    (h : c.on book = (.ok a, b)) : (c >>= f).on book = (f a).on b := by
  rw [on_bind, h]

/-- A call that stops takes the rest with it. -/
lemma on_bind_error {c : Call α} {f : α → Call β} {e : Fault} {b : AdmissionBook}
    (h : c.on book = (.error e, b)) : (c >>= f).on book = (.error e, b) := by
  rw [on_bind, h]

lemma on_failIf_pos {c : Prop} [Decidable c] {e : AdmissionError} (h : c) :
    (failIf c e).on book = (.error (.error e), book) := by
  rw [failIf, if_pos h, on_err]

lemma on_failIf_neg {c : Prop} [Decidable c] {e : AdmissionError} (h : ¬ c) :
    (failIf c e).on book = (.ok (), book) := by
  rw [failIf, if_neg h, on_pure]

lemma on_sub {a b : ℕ} (h : b ≤ a) : (sub a b).on book = (.ok (a - b), book) := by
  rw [sub, if_pos h, on_pure]

lemma on_add32 {a b : ℕ} (h : a + b < 2 ^ 32) : (add32 a b).on book = (.ok (a + b), book) := by
  rw [add32, if_pos h, on_pure]

lemma on_add64 {a b : ℕ} (h : a + b < 2 ^ 64) : (add64 a b).on book = (.ok (a + b), book) := by
  rw [add64, if_pos h, on_pure]

lemma on_checkedAdd64_pos {a b : ℕ} {e : AdmissionError} (h : a + b < 2 ^ 64) :
    (checkedAdd64 a b e).on book = (.ok (a + b), book) := by
  rw [checkedAdd64, if_pos h, on_pure]

lemma on_checkedAdd64_neg {a b : ℕ} {e : AdmissionError} (h : ¬ a + b < 2 ^ 64) :
    (checkedAdd64 a b e).on book = (.error (.error e), book) := by
  rw [checkedAdd64, if_neg h, on_err]

/-- A checked sum is the sum, as long as the total is representable. -/
lemma on_sum64 {values : List ℕ} (h : values.sum < 2 ^ 64) :
    (sum64 values).on book = (.ok values.sum, book) := by
  have key : ∀ (vs : List ℕ) (a : ℕ), a + vs.sum < 2 ^ 64 →
      (vs.foldlM add64 a : Call ℕ).on book = (.ok (a + vs.sum), book) := by
    intro vs
    induction vs with
    | nil => intro a _; simp
    | cons v vs ih =>
        intro a ha
        rw [List.sum_cons] at ha ⊢
        rw [List.foldlM_cons, on_bind_ok (on_add64 (by omega))]
        rw [ih (a + v) (by omega), Nat.add_assoc]
  have h0 := key values 0 (by omega)
  rw [Nat.zero_add] at h0
  exact h0

end Call

/-! ### The invariant -/

/-- The claim bytes of all recorded reservations. -/
def AdmissionBook.claimBytes (book : AdmissionBook) : ℕ :=
  book.reservations.weight fun r => r.reservation.claimBytes

/-- The bytes charged for resource allocations. -/
def AdmissionBook.resourceBytes (book : AdmissionBook) : ℕ := book.allocations.weight id

/-- The recorded holding reservations. -/
def AdmissionBook.holdings (book : AdmissionBook) : ℕ :=
  book.reservations.weight fun r => r.reservation.frames

/-- **The accounting invariant** of the admission book. -/
structure Accounts (book : AdmissionBook) : Prop where
  frames_eq : book.reservedFrames = book.holdings
  frames_le : book.limits.retainedHistory.toNat + book.limits.producerReserve.toNat +
    book.reservedFrames ≤ book.limits.resourceCapacity.toNat
  bytes_eq : book.committedBytes =
    book.limits.fixedBytes.toNat + book.resourceBytes + book.claimBytes
  bytes_le : book.committedBytes ≤ book.limits.memoryBudget.toNat
  len_le : book.reservations.len ≤ book.limits.maxIncarnations.toNat
  incarnation_fresh : ∀ k, book.nextIncarnation ≤ k → book.reservations.get k = none
  allocation_fresh : ∀ k, book.nextAllocation ≤ k → book.allocations.get k = none
  incarnation_pos : 0 < book.nextIncarnation
  allocation_pos : 1 < book.nextAllocation
  pending_charged : ∀ p id, book.pendingAllocation = some p → p.reserved = some id →
    book.allocations.get id = some p.upperBound
  pending_fits : ∀ p, book.pendingAllocation = some p →
    book.limits.fixedBytes.toNat + book.claimBytes + p.upperBound ≤
      book.limits.memoryBudget.toNat
  pending_current : ∀ p, book.pendingAllocation = some p → book.currentAllocation = none

namespace Accounts

variable {book : AdmissionBook}

lemma budget_lt (book : AdmissionBook) : book.limits.memoryBudget.toNat < 2 ^ 64 :=
  book.limits.memoryBudget.toNat_lt

lemma capacity_lt (book : AdmissionBook) : book.limits.resourceCapacity.toNat < 2 ^ 32 :=
  book.limits.resourceCapacity.toNat_lt

/-- `AdmissionBook::new` accepts only limits whose book balances. -/
lemma of_new {limits : AdmissionLimits} (h : AdmissionBook.new limits = .ok book) :
    Accounts book ∧ book.limits = limits ∧ book.nextIncarnation = 1 ∧
      book.nextAllocation = 2 := by
  simp only [AdmissionBook.new] at h
  split at h
  · cases h
  split at h
  · cases h
  split at h
  · cases h
  split at h
  · cases h
  split at h
  · cases h
  rename_i _ hcap _ hbud hmax
  cases h
  push Not at hcap
  have hw : (BTreeMap.empty.insert 1 limits.allocatedBytes.toNat).weight id =
      limits.allocatedBytes.toNat := by
    have := BTreeMap.weight_insert id BTreeMap.empty 1 limits.allocatedBytes.toNat
    simpa using this
  refine ⟨{ frames_eq := ?_, frames_le := ?_, bytes_eq := ?_, bytes_le := ?_, len_le := ?_,
            incarnation_fresh := ?_, allocation_fresh := ?_, incarnation_pos := ?_,
            allocation_pos := ?_, pending_charged := ?_, pending_fits := ?_,
            pending_current := ?_ }, rfl, rfl, rfl⟩
  · rfl
  · simpa using hcap.2
  · simp only [AdmissionBook.resourceBytes, AdmissionBook.claimBytes, hw, BTreeMap.weight_empty]
    omega
  · simpa using hbud
  · exact Nat.zero_le _
  · intro k _; rfl
  · intro k hk
    have hk : 2 ≤ k := hk
    rw [BTreeMap.get_insert, if_neg (by omega)]
    rfl
  · exact Nat.one_pos
  · exact Nat.one_lt_two
  · intro p id hp; cases hp
  · intro p hp; cases hp
  · intro p hp; cases hp

end Accounts

/-! ### What each operation can do -/

namespace AdmissionBook

variable {book : AdmissionBook}

/-- A charged allocation is part of the resource bytes. -/
lemma charged_le {k n : ℕ} (h : book.allocations.get k = some n) : n ≤ book.resourceBytes := by
  have hw := BTreeMap.weight_remove id book.allocations k
  rw [h, Option.elim_some] at hw
  rw [resourceBytes, ← hw]
  exact Nat.le_add_left _ _

/-- A request is refused without an effect, or recorded under a fresh
incarnation. -/
lemma admitHolding_cases (h : Accounts book) (request : HoldingRequest) :
    (∃ e, (admitHolding request).on book = (.error (.error e), book)) ∨
    (book.pendingAllocation = none ∧ book.nextIncarnation + 1 < 2 ^ 64 ∧
      book.limits.retainedHistory.toNat + book.limits.producerReserve.toNat +
        book.reservedFrames + request.frames.toNat ≤ book.limits.resourceCapacity.toNat ∧
      book.reservations.len < book.limits.maxIncarnations.toNat ∧
      book.committedBytes + request.claimBytes.toNat ≤ book.limits.memoryBudget.toNat ∧
      0 < request.frames.toNat ∧
      (admitHolding request).on book =
        (.ok ⟨book.nextIncarnation, request.frames.toNat, request.claimBytes.toNat⟩,
          { book with
            nextIncarnation := book.nextIncarnation + 1
            reservedFrames := book.reservedFrames + request.frames.toNat
            committedBytes := book.committedBytes + request.claimBytes.toNat
            reservations := book.reservations.insert book.nextIncarnation
              ⟨⟨book.nextIncarnation, request.frames.toNat, request.claimBytes.toNat⟩,
                false⟩ })) := by
  have hf := h.frames_le
  have hb := h.bytes_le
  have hcap := Accounts.capacity_lt book
  have hbud := Accounts.budget_lt book
  have hav : availableFrames.on book = (.ok (book.limits.resourceCapacity.toNat -
      book.limits.retainedHistory.toNat - book.limits.producerReserve.toNat -
      book.reservedFrames), book) := by
    rw [availableFrames, on_bind_ok on_get, on_bind_ok (on_sub (by omega)),
      on_bind_ok (on_sub (by omega)), on_sub (by omega)]
  rw [admitHolding, on_bind_ok on_get]
  by_cases hp : book.pendingAllocation.isSome
  · exact Or.inl ⟨_, on_bind_error (on_failIf_pos hp)⟩
  rw [on_bind_ok (on_failIf_neg hp)]
  by_cases hr : request.frames = 0 ∨ request.claimBytes = 0
  · exact Or.inl ⟨_, on_bind_error (on_failIf_pos hr)⟩
  rw [on_bind_ok (on_failIf_neg hr), on_bind_ok hav]
  by_cases hframes : book.limits.resourceCapacity.toNat - book.limits.retainedHistory.toNat -
      book.limits.producerReserve.toNat - book.reservedFrames < request.frames.toNat
  · exact Or.inl ⟨_, on_bind_error (on_failIf_pos hframes)⟩
  rw [on_bind_ok (on_failIf_neg hframes)]
  by_cases hlen : book.limits.maxIncarnations.toNat ≤ book.reservations.len
  · exact Or.inl ⟨_, on_bind_error (on_failIf_pos hlen)⟩
  rw [on_bind_ok (on_failIf_neg hlen), on_bind_ok (on_sub hb)]
  by_cases hbytes : book.limits.memoryBudget.toNat - book.committedBytes <
      request.claimBytes.toNat
  · exact Or.inl ⟨_, on_bind_error (on_failIf_pos hbytes)⟩
  rw [on_bind_ok (on_failIf_neg hbytes)]
  by_cases hid : book.nextIncarnation + 1 < 2 ^ 64
  swap
  · exact Or.inl ⟨_, on_bind_error (on_checkedAdd64_neg hid)⟩
  rw [on_bind_ok (on_checkedAdd64_pos hid), on_bind_ok (on_add32 (by omega)),
    on_bind_ok (on_add64 (by omega))]
  refine Or.inr ⟨by simpa using hp, hid, by omega, by omega, by omega, ?_, rfl⟩
  have h0 : request.frames ≠ 0 := fun h0 => hr (Or.inl h0)
  have h1 : request.frames.toNat ≠ 0 := fun h1 => h0 (UInt32.toNat_inj.mp (by simpa using h1))
  omega

/-- Closing marks a record, and only that. -/
lemma close_cases (book : AdmissionBook) (incarnation : ℕ) :
    (∃ e, (close incarnation).on book = (.error (.error e), book) ∧
      book.reservations.get incarnation = none) ∨
    (∃ record, book.reservations.get incarnation = some record ∧
      (close incarnation).on book = (.ok (),
        { book with
          reservations :=
            book.reservations.insert incarnation { record with closing := true } })) := by
  rw [close, on_bind_ok on_get]
  cases hg : book.reservations.get incarnation with
  | none => exact Or.inl ⟨_, rfl, rfl⟩
  | some record => exact Or.inr ⟨record, rfl, rfl⟩

/-- Cleanup of a closing record returns exactly what it held. -/
lemma completeCleanup_cases (h : Accounts book) (incarnation : ℕ) :
    (∃ e, (completeCleanup incarnation).on book = (.error (.error e), book) ∧
      ∀ record, book.reservations.get incarnation = some record → record.closing = false) ∨
    (∃ record, book.reservations.get incarnation = some record ∧ record.closing = true ∧
      record.reservation.frames ≤ book.reservedFrames ∧
      record.reservation.claimBytes ≤ book.claimBytes ∧
      (completeCleanup incarnation).on book = (.ok (),
        { book with
          reservations := book.reservations.remove incarnation
          reservedFrames := book.reservedFrames - record.reservation.frames
          committedBytes := book.committedBytes - record.reservation.claimBytes })) := by
  rw [completeCleanup, on_bind_ok on_get]
  cases hg : book.reservations.get incarnation with
  | none => exact Or.inl ⟨_, rfl, fun _ hr => by cases hr⟩
  | some record =>
      have hf : record.reservation.frames ≤ book.reservedFrames := by
        have hw := BTreeMap.weight_remove
          (fun r : IncarnationRecord => r.reservation.frames) book.reservations incarnation
        rw [hg] at hw
        rw [h.frames_eq, AdmissionBook.holdings, ← hw]
        exact Nat.le_add_left _ _
      have hc : record.reservation.claimBytes ≤ book.claimBytes := by
        have hw := BTreeMap.weight_remove
          (fun r : IncarnationRecord => r.reservation.claimBytes) book.reservations incarnation
        rw [hg] at hw
        rw [AdmissionBook.claimBytes, ← hw]
        exact Nat.le_add_left _ _
      have hb := h.bytes_eq
      dsimp only
      by_cases hcl : record.closing = false
      · refine Or.inl ⟨_, on_bind_error (on_failIf_pos hcl), fun r hr => ?_⟩
        cases hr
        exact hcl
      rw [on_bind_ok (on_failIf_neg hcl), on_bind_ok (on_set _), on_bind_ok (on_sub hf),
        on_bind_ok (on_modify _), on_bind_ok (on_sub (by omega)), on_modify]
      exact Or.inr ⟨record, rfl, by simpa using hcl, hf, hc, rfl⟩

/-- A proposal is refused, or recorded with room for it once all old
allocations are gone. -/
lemma beginReconfiguration_cases (h : Accounts book) (upperBound : UInt64) :
    (∃ e, (beginReconfiguration upperBound).on book = (.error (.error e), book)) ∨
    (book.pendingAllocation = none ∧ 0 < upperBound.toNat ∧
      book.nextAllocation + 1 < 2 ^ 64 ∧
      book.limits.fixedBytes.toNat + book.claimBytes + upperBound.toNat ≤
        book.limits.memoryBudget.toNat ∧
      (beginReconfiguration upperBound).on book = (.ok (),
        { book with
          pendingAllocation := some ⟨upperBound.toNat, none⟩
          currentAllocation := none })) := by
  have hb := h.bytes_le
  have he := h.bytes_eq
  have hbud := Accounts.budget_lt book
  have hsum : book.allocations.values.sum = book.resourceBytes := by
    rw [AdmissionBook.resourceBytes, BTreeMap.weight_eq_sum_values, List.map_id]
  rw [beginReconfiguration, on_bind_ok on_get]
  by_cases hp : book.pendingAllocation.isSome
  · exact Or.inl ⟨_, on_bind_error (on_failIf_pos hp)⟩
  rw [on_bind_ok (on_failIf_neg hp)]
  by_cases hz : upperBound = 0
  · exact Or.inl ⟨_, on_bind_error (on_failIf_pos hz)⟩
  rw [on_bind_ok (on_failIf_neg hz), on_bind_ok (on_sum64 (by omega)),
    on_bind_ok (on_sub (by omega)), on_bind_ok (on_sub (by omega)), hsum]
  by_cases hfit : book.limits.memoryBudget.toNat -
      (book.committedBytes - book.resourceBytes) < upperBound.toNat
  · exact Or.inl ⟨_, on_bind_error (on_failIf_pos hfit)⟩
  rw [on_bind_ok (on_failIf_neg hfit)]
  by_cases hid : book.nextAllocation + 1 < 2 ^ 64
  swap
  · exact Or.inl ⟨_, on_bind_error (on_checkedAdd64_neg hid)⟩
  rw [on_bind_ok (on_checkedAdd64_pos hid), on_set]
  refine Or.inr ⟨by simpa using hp, ?_, hid, by omega, rfl⟩
  have h1 : upperBound.toNat ≠ 0 := fun h1 => hz (UInt64.toNat_inj.mp (by simpa using h1))
  omega

/-- A replacement is reserved under a fresh identifier, or the reservation
already made is returned. -/
lemma reserveReconfiguration_cases (h : Accounts book) :
    (∃ e, reserveReconfiguration.on book = (.error (.error e), book)) ∨
    (∃ p id, book.pendingAllocation = some p ∧ p.reserved = some id ∧
      reserveReconfiguration.on book = (.ok id, book)) ∨
    (∃ p, book.pendingAllocation = some p ∧ p.reserved = none ∧
      book.nextAllocation + 1 < 2 ^ 64 ∧
      book.committedBytes + p.upperBound ≤ book.limits.memoryBudget.toNat ∧
      reserveReconfiguration.on book = (.ok book.nextAllocation,
        { book with
          nextAllocation := book.nextAllocation + 1
          committedBytes := book.committedBytes + p.upperBound
          allocations := book.allocations.insert book.nextAllocation p.upperBound
          pendingAllocation := some { p with reserved := some book.nextAllocation } })) := by
  have hb := h.bytes_le
  have hbud := Accounts.budget_lt book
  rw [reserveReconfiguration, on_bind_ok on_get]
  cases hp : book.pendingAllocation with
  | none => exact Or.inl ⟨_, rfl⟩
  | some p =>
      dsimp only
      cases hr : p.reserved with
      | some id => exact Or.inr (Or.inl ⟨p, id, rfl, hr, rfl⟩)
      | none =>
          dsimp only
          rw [on_bind_ok (on_sub hb)]
          by_cases hfit : book.limits.memoryBudget.toNat - book.committedBytes < p.upperBound
          · exact Or.inl ⟨_, on_bind_error (on_failIf_pos hfit)⟩
          rw [on_bind_ok (on_failIf_neg hfit)]
          by_cases hid : book.nextAllocation + 1 < 2 ^ 64
          swap
          · exact Or.inl ⟨_, on_bind_error (on_checkedAdd64_neg hid)⟩
          rw [on_bind_ok (on_checkedAdd64_pos hid), on_bind_ok (on_add64 (by omega))]
          exact Or.inr (Or.inr ⟨p, rfl, hr, hid, by omega, rfl⟩)

/-- Installation charges the actual bytes in place of the bound. -/
lemma installReconfiguration_cases (h : Accounts book) (actualBytes : UInt64) :
    (∃ e, (installReconfiguration actualBytes).on book = (.error (.error e), book)) ∨
    (∃ p id, book.pendingAllocation = some p ∧ p.reserved = some id ∧
      0 < actualBytes.toNat ∧ actualBytes.toNat ≤ p.upperBound ∧
      p.upperBound - actualBytes.toNat ≤ book.committedBytes ∧
      (installReconfiguration actualBytes).on book = (.ok id,
        { book with
          committedBytes := book.committedBytes - (p.upperBound - actualBytes.toNat)
          allocations := book.allocations.insert id actualBytes.toNat
          currentAllocation := some id
          pendingAllocation := none })) := by
  have he := h.bytes_eq
  rw [installReconfiguration, on_bind_ok on_get]
  cases hp : book.pendingAllocation with
  | none => exact Or.inl ⟨_, rfl⟩
  | some p =>
      dsimp only
      cases hr : p.reserved with
      | none => exact Or.inl ⟨_, rfl⟩
      | some id =>
          have hc := charged_le (h.pending_charged p id hp hr)
          dsimp only
          by_cases hz : actualBytes = 0 ∨ p.upperBound < actualBytes.toNat
          · exact Or.inl ⟨_, on_bind_error (on_failIf_pos hz)⟩
          rw [on_bind_ok (on_failIf_neg hz)]
          push Not at hz
          have h1 : actualBytes.toNat ≠ 0 :=
            fun h1 => hz.1 (UInt64.toNat_inj.mp (by simpa using h1))
          rw [on_bind_ok (on_sub (by omega)), on_bind_ok (on_sub (by omega))]
          exact Or.inr ⟨p, id, rfl, hr, by omega, by omega, by omega, rfl⟩

/-- Abandonment returns the reserved bound; the proposal stays. -/
lemma abandonReconfigurationAllocation_cases (h : Accounts book) :
    (∃ e, abandonReconfigurationAllocation.on book = (.error (.error e), book) ∧
      ∀ p, book.pendingAllocation = some p → p.reserved = none) ∨
    (∃ p id, book.pendingAllocation = some p ∧ p.reserved = some id ∧
      book.allocations.get id = some p.upperBound ∧ p.upperBound ≤ book.resourceBytes ∧
      abandonReconfigurationAllocation.on book = (.ok (),
        { book with
          committedBytes := book.committedBytes - p.upperBound
          allocations := book.allocations.remove id
          pendingAllocation := some { p with reserved := none } })) := by
  have he := h.bytes_eq
  rw [abandonReconfigurationAllocation, on_bind_ok on_get]
  cases hp : book.pendingAllocation with
  | none => exact Or.inl ⟨_, rfl, fun _ hp => by cases hp⟩
  | some p =>
      dsimp only
      cases hr : p.reserved with
      | none =>
          refine Or.inl ⟨_, rfl, fun q hq => ?_⟩
          cases hq
          exact hr
      | some id =>
          have hg := h.pending_charged p id hp hr
          have hc := charged_le hg
          dsimp only
          rw [on_bind_ok (on_set _), hg]
          dsimp only
          rw [on_bind_ok (on_sub (by omega)), on_modify]
          exact Or.inr ⟨p, id, rfl, hr, hg, hc, rfl⟩

/-- Allocation cleanup returns exactly the charged bytes, of an allocation that
is neither installed nor reserved. -/
lemma completeAllocationCleanup_cases (h : Accounts book) (id : ℕ) :
    (∃ e, (completeAllocationCleanup id).on book = (.error (.error e), book) ∧
      (book.currentAllocation = some id ∨
        book.pendingAllocation.bind PendingAllocation.reserved = some id ∨
        book.allocations.get id = none)) ∨
    (∃ bytes, book.allocations.get id = some bytes ∧ book.currentAllocation ≠ some id ∧
      book.pendingAllocation.bind PendingAllocation.reserved ≠ some id ∧
      bytes ≤ book.resourceBytes ∧
      (completeAllocationCleanup id).on book = (.ok (),
        { book with
          committedBytes := book.committedBytes - bytes
          allocations := book.allocations.remove id })) := by
  have he := h.bytes_eq
  rw [completeAllocationCleanup, on_bind_ok on_get]
  by_cases hu : book.currentAllocation = some id ∨
      book.pendingAllocation.bind PendingAllocation.reserved = some id
  · refine Or.inl ⟨_, on_bind_error (on_failIf_pos hu), ?_⟩
    rcases hu with hu | hu
    · exact Or.inl hu
    · exact Or.inr (Or.inl hu)
  rw [on_bind_ok (on_failIf_neg hu)]
  push Not at hu
  cases hg : book.allocations.get id with
  | none => exact Or.inl ⟨_, rfl, Or.inr (Or.inr rfl)⟩
  | some bytes =>
      have hc := charged_le hg
      dsimp only
      rw [on_bind_ok (on_set _), on_bind_ok (on_sub (by omega)), on_modify]
      exact Or.inr ⟨bytes, rfl, hu.1, hu.2, hc, rfl⟩

end AdmissionBook

/-! ### Every operation keeps the accounts -/

namespace Accounts

variable {book : AdmissionBook}

lemma admitHolding (h : Accounts book) (request : HoldingRequest) :
    Accounts ((AdmissionBook.admitHolding request).on book).2 := by
  obtain ⟨e, he⟩ | ⟨hp, hid, hf, hl, hb, -, he⟩ :=
    AdmissionBook.admitHolding_cases h request
  · rw [he]
    exact h
  have hn := h.incarnation_fresh book.nextIncarnation le_rfl
  have hw : ∀ f : IncarnationRecord → ℕ, ∀ r,
      (book.reservations.insert book.nextIncarnation r).weight f =
        book.reservations.weight f + f r := by
    intro f r
    have := BTreeMap.weight_insert f book.reservations book.nextIncarnation r
    simpa [hn] using this
  have hfe := h.frames_eq
  have hbe := h.bytes_eq
  have hip := h.incarnation_pos
  have hlen := BTreeMap.len_eq_weight book.reservations
  rw [he]
  refine { frames_eq := ?_, frames_le := ?_, bytes_eq := ?_, bytes_le := hb, len_le := ?_,
           incarnation_fresh := ?_, allocation_fresh := h.allocation_fresh,
           incarnation_pos := ?_, allocation_pos := h.allocation_pos,
           pending_charged := h.pending_charged, pending_fits := ?_,
           pending_current := h.pending_current }
  · simp only [AdmissionBook.holdings, hw] at hfe ⊢
    omega
  · dsimp only
    omega
  · simp only [AdmissionBook.claimBytes, AdmissionBook.resourceBytes, hw] at hbe ⊢
    omega
  · rw [BTreeMap.len_eq_weight]
    simp only [hw]
    omega
  · intro k hk
    have hk : book.nextIncarnation + 1 ≤ k := hk
    rw [BTreeMap.get_insert, if_neg (by omega)]
    exact h.incarnation_fresh k (by omega)
  · exact Nat.succ_pos _
  · intro p hp'
    rw [hp] at hp'
    cases hp'

lemma close (h : Accounts book) (incarnation : ℕ) :
    Accounts ((AdmissionBook.close incarnation).on book).2 := by
  obtain ⟨e, he, -⟩ | ⟨record, hg, he⟩ := AdmissionBook.close_cases book incarnation
  · rw [he]
    exact h
  -- only the `closing` mark changes, which no sum reads
  have hw : ∀ f : IncarnationRecord → ℕ, f { record with closing := true } = f record →
      (book.reservations.insert incarnation { record with closing := true }).weight f =
        book.reservations.weight f := by
    intro f hf
    have := BTreeMap.weight_insert f book.reservations incarnation { record with closing := true }
    rw [hg, Option.elim_some, hf] at this
    omega
  rw [he]
  refine { frames_eq := ?_, frames_le := h.frames_le, bytes_eq := ?_, bytes_le := h.bytes_le,
           len_le := ?_, incarnation_fresh := ?_, allocation_fresh := h.allocation_fresh,
           incarnation_pos := h.incarnation_pos, allocation_pos := h.allocation_pos,
           pending_charged := h.pending_charged, pending_fits := ?_,
           pending_current := h.pending_current }
  · rw [AdmissionBook.holdings, hw _ rfl]
    exact h.frames_eq
  · rw [AdmissionBook.claimBytes, hw _ rfl]
    exact h.bytes_eq
  · rw [BTreeMap.len_eq_weight, hw _ rfl, ← BTreeMap.len_eq_weight]
    exact h.len_le
  · intro k hk
    have hne : k ≠ incarnation := by
      rintro rfl
      rw [h.incarnation_fresh k hk] at hg
      cases hg
    rw [BTreeMap.get_insert, if_neg hne]
    exact h.incarnation_fresh k hk
  · rw [AdmissionBook.claimBytes, hw _ rfl]
    exact h.pending_fits

lemma completeCleanup (h : Accounts book) (incarnation : ℕ) :
    Accounts ((AdmissionBook.completeCleanup incarnation).on book).2 := by
  obtain ⟨e, he, -⟩ | ⟨record, hg, -, hf, hc, he⟩ :=
    AdmissionBook.completeCleanup_cases h incarnation
  · rw [he]
    exact h
  have hw : ∀ f : IncarnationRecord → ℕ,
      (book.reservations.remove incarnation).weight f + f record =
        book.reservations.weight f := by
    intro f
    have := BTreeMap.weight_remove f book.reservations incarnation
    simpa [hg] using this
  have hfe := h.frames_eq
  have hfl := h.frames_le
  have hbe := h.bytes_eq
  have hbl := h.bytes_le
  have hwf := hw fun r => r.reservation.frames
  have hwc := hw fun r => r.reservation.claimBytes
  have hwl := hw fun _ => 1
  rw [he]
  refine { frames_eq := ?_, frames_le := ?_, bytes_eq := ?_, bytes_le := ?_, len_le := ?_,
           incarnation_fresh := ?_, allocation_fresh := h.allocation_fresh,
           incarnation_pos := h.incarnation_pos, allocation_pos := h.allocation_pos,
           pending_charged := h.pending_charged, pending_fits := ?_,
           pending_current := h.pending_current }
  · simp only [AdmissionBook.holdings] at hfe ⊢
    omega
  · dsimp only
    omega
  · simp only [AdmissionBook.claimBytes, AdmissionBook.resourceBytes] at hbe hc ⊢
    omega
  · dsimp only
    omega
  · have hl := h.len_le
    rw [BTreeMap.len_eq_weight] at hl ⊢
    dsimp only
    omega
  · intro k hk
    rw [BTreeMap.get_remove]
    split
    · rfl
    · exact h.incarnation_fresh k hk
  · intro p hp
    have hpf := h.pending_fits p hp
    simp only [AdmissionBook.claimBytes] at hpf ⊢
    omega

lemma beginReconfiguration (h : Accounts book) (upperBound : UInt64) :
    Accounts ((AdmissionBook.beginReconfiguration upperBound).on book).2 := by
  obtain ⟨e, he⟩ | ⟨-, -, -, hfit, he⟩ := AdmissionBook.beginReconfiguration_cases h upperBound
  · rw [he]
    exact h
  rw [he]
  refine { frames_eq := h.frames_eq, frames_le := h.frames_le, bytes_eq := h.bytes_eq,
           bytes_le := h.bytes_le, len_le := h.len_le,
           incarnation_fresh := h.incarnation_fresh, allocation_fresh := h.allocation_fresh,
           incarnation_pos := h.incarnation_pos, allocation_pos := h.allocation_pos,
           pending_charged := ?_, pending_fits := ?_, pending_current := fun _ _ => rfl }
  · intro p id hp hr
    cases hp
    cases hr
  · intro p hp
    cases hp
    exact hfit

lemma reserveReconfiguration (h : Accounts book) :
    Accounts (AdmissionBook.reserveReconfiguration.on book).2 := by
  obtain ⟨e, he⟩ | ⟨p, id, hp, hr, he⟩ | ⟨p, hp, hr, hid, hb, he⟩ :=
    AdmissionBook.reserveReconfiguration_cases h
  · rw [he]
    exact h
  · rw [he]
    exact h
  have hn := h.allocation_fresh book.nextAllocation le_rfl
  have hw : (book.allocations.insert book.nextAllocation p.upperBound).weight id =
      book.allocations.weight id + p.upperBound := by
    have := BTreeMap.weight_insert id book.allocations book.nextAllocation p.upperBound
    simpa [hn] using this
  have hbe := h.bytes_eq
  have hap := h.allocation_pos
  rw [he]
  refine { frames_eq := h.frames_eq, frames_le := h.frames_le, bytes_eq := ?_, bytes_le := hb,
           len_le := h.len_le, incarnation_fresh := h.incarnation_fresh, allocation_fresh := ?_,
           incarnation_pos := h.incarnation_pos, allocation_pos := ?_, pending_charged := ?_,
           pending_fits := ?_, pending_current := ?_ }
  · simp only [AdmissionBook.resourceBytes, hw] at hbe ⊢
    simp only [AdmissionBook.claimBytes] at hbe ⊢
    omega
  · intro k hk
    have hk : book.nextAllocation + 1 ≤ k := hk
    rw [BTreeMap.get_insert, if_neg (by omega)]
    exact h.allocation_fresh k (by omega)
  · dsimp only
    omega
  · intro p' id hp' hr'
    cases hp'
    cases hr'
    rw [BTreeMap.get_insert, if_pos rfl]
  · intro p' hp'
    cases hp'
    exact h.pending_fits p hp
  · intro p' _
    exact h.pending_current p hp

lemma installReconfiguration (h : Accounts book) (actualBytes : UInt64) :
    Accounts ((AdmissionBook.installReconfiguration actualBytes).on book).2 := by
  obtain ⟨e, he⟩ | ⟨p, id, hp, hr, hpos, hle, hc, he⟩ :=
    AdmissionBook.installReconfiguration_cases h actualBytes
  · rw [he]
    exact h
  have hg := h.pending_charged p id hp hr
  have hw := BTreeMap.weight_insert (fun n : ℕ => n) book.allocations id actualBytes.toNat
  rw [hg, Option.elim_some] at hw
  have hbe := h.bytes_eq
  have hbl := h.bytes_le
  have hfresh : ∀ k, book.nextAllocation ≤ k → k ≠ id := by
    rintro k hk rfl
    rw [h.allocation_fresh k hk] at hg
    cases hg
  rw [he]
  refine { frames_eq := h.frames_eq, frames_le := h.frames_le, bytes_eq := ?_, bytes_le := ?_,
           len_le := h.len_le, incarnation_fresh := h.incarnation_fresh, allocation_fresh := ?_,
           incarnation_pos := h.incarnation_pos, allocation_pos := h.allocation_pos,
           pending_charged := ?_, pending_fits := ?_, pending_current := ?_ }
  · have hle' := AdmissionBook.charged_le hg
    have hw : (book.allocations.insert id actualBytes.toNat).weight _ + p.upperBound =
      book.resourceBytes + actualBytes.toNat := hw
    simp only [AdmissionBook.claimBytes] at hbe ⊢
    simp only [AdmissionBook.resourceBytes] at hbe hw hle' ⊢
    change _ = _ + BTreeMap.weight (fun n : ℕ => n) _ + _
    omega
  · dsimp only
    omega
  · intro k hk
    rw [BTreeMap.get_insert, if_neg (hfresh k hk)]
    exact h.allocation_fresh k hk
  · intro p' id' hp'
    cases hp'
  · intro p' hp'
    cases hp'
  · intro p' hp'
    cases hp'

/-- Taking a charged allocation out of the map takes its bytes out of the
total. -/
lemma remove_allocation (h : Accounts book) {k n : ℕ} (hg : book.allocations.get k = some n)
    (pending : Option PendingAllocation)
    (hcharged : ∀ p id, pending = some p → p.reserved = some id →
      id ≠ k ∧ book.allocations.get id = some p.upperBound)
    (hfits : ∀ p, pending = some p → ∃ q, book.pendingAllocation = some q ∧
      p.upperBound = q.upperBound) :
    Accounts { book with
      committedBytes := book.committedBytes - n
      allocations := book.allocations.remove k
      pendingAllocation := pending } := by
  have hw := BTreeMap.weight_remove (fun n : ℕ => n) book.allocations k
  rw [hg, Option.elim_some] at hw
  have hle := AdmissionBook.charged_le hg
  have hbe := h.bytes_eq
  have hbl := h.bytes_le
  refine { frames_eq := h.frames_eq, frames_le := h.frames_le, bytes_eq := ?_, bytes_le := ?_,
           len_le := h.len_le, incarnation_fresh := h.incarnation_fresh, allocation_fresh := ?_,
           incarnation_pos := h.incarnation_pos, allocation_pos := h.allocation_pos,
           pending_charged := ?_, pending_fits := ?_, pending_current := ?_ }
  · have hw : (book.allocations.remove k).weight _ + n = book.resourceBytes := hw
    simp only [AdmissionBook.claimBytes] at hbe ⊢
    simp only [AdmissionBook.resourceBytes] at hbe hw hle ⊢
    change _ = _ + BTreeMap.weight (fun n : ℕ => n) _ + _
    omega
  · dsimp only
    omega
  · intro j hj
    rw [BTreeMap.get_remove]
    split
    · rfl
    · exact h.allocation_fresh j hj
  · intro p id hp hr
    obtain ⟨hne, hget⟩ := hcharged p id hp hr
    rw [BTreeMap.get_remove, if_neg hne]
    exact hget
  · intro p hp
    obtain ⟨q, hq, hpq⟩ := hfits p hp
    have := h.pending_fits q hq
    simp only [AdmissionBook.claimBytes] at this ⊢
    omega
  · intro p hp
    obtain ⟨q, hq, -⟩ := hfits p hp
    exact h.pending_current q hq

lemma abandonReconfigurationAllocation (h : Accounts book) :
    Accounts (AdmissionBook.abandonReconfigurationAllocation.on book).2 := by
  obtain ⟨e, he, -⟩ | ⟨p, id, hp, hr, hg, -, he⟩ :=
    AdmissionBook.abandonReconfigurationAllocation_cases h
  · rw [he]
    exact h
  rw [he]
  refine h.remove_allocation hg _ ?_ ?_
  · intro p' id' hp' hr'
    cases hp'
    cases hr'
  · intro p' hp'
    cases hp'
    exact ⟨p, hp, rfl⟩

lemma completeAllocationCleanup (h : Accounts book) (id : ℕ) :
    Accounts ((AdmissionBook.completeAllocationCleanup id).on book).2 := by
  obtain ⟨e, he, -⟩ | ⟨bytes, hg, -, hnp, -, he⟩ :=
    AdmissionBook.completeAllocationCleanup_cases h id
  · rw [he]
    exact h
  rw [he]
  refine h.remove_allocation hg _ ?_ ?_
  · intro p id' hp hr
    refine ⟨?_, h.pending_charged p id' hp hr⟩
    rintro rfl
    rw [hp] at hnp
    exact hnp hr
  · intro p hp
    exact ⟨p, hp, rfl⟩

end Accounts

end Jackstay.Acquisition
