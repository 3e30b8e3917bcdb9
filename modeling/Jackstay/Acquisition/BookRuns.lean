import Jackstay.Acquisition.Accounting

/-!
Runs of the admission book: any finite sequence of calls with any arguments,
successful or failing.

* `BookOp.on_cases` runs one call: it ends with an error and an unchanged book,
  or with a value; it never panics while the accounts balance.
* `accounts_after` is the run lemma, and `issued_gt` the reason why no
  identifier is handed out twice: what is issued is at least the next identifier
  at the start and below the next one at the end.
* `Pending` is the part of the invariant that a started reconfiguration adds:
  until it is installed its bound stays recorded, so that admission stays
  closed and the bound fits as soon as the other allocations are gone.
-/

namespace Jackstay.Acquisition

open Call

/-! ### Runs of the book -/

/-- One call on the book, with the arguments its caller chose. -/
inductive BookOp where
  | admitHolding (request : HoldingRequest)
  | close (incarnation : ℕ)
  | completeCleanup (incarnation : ℕ)
  | beginReconfiguration (upperBound : UInt64)
  | reserveReconfiguration
  | installReconfiguration (actualBytes : UInt64)
  | abandonReconfigurationAllocation
  | completeAllocationCleanup (id : ℕ)
  deriving DecidableEq, Repr

namespace BookOp

/-- The call, with the identifier it hands out, if any. -/
def call : BookOp → Call (Option ℕ)
  | admitHolding request => do return some (← AdmissionBook.admitHolding request).incarnation
  | close incarnation => do AdmissionBook.close incarnation; return none
  | completeCleanup incarnation => do AdmissionBook.completeCleanup incarnation; return none
  | beginReconfiguration upperBound => do
      AdmissionBook.beginReconfiguration upperBound; return none
  | reserveReconfiguration => do return some (← AdmissionBook.reserveReconfiguration)
  | installReconfiguration actualBytes => do
      return some (← AdmissionBook.installReconfiguration actualBytes)
  | abandonReconfigurationAllocation => do
      AdmissionBook.abandonReconfigurationAllocation; return none
  | completeAllocationCleanup id => do
      AdmissionBook.completeAllocationCleanup id; return none

/-- The incarnation an operation issues at a book. -/
def issuesIncarnation (op : BookOp) (book : AdmissionBook) : Option ℕ :=
  match op, (op.call.on book).1 with
  | admitHolding _, .ok id => id
  | _, _ => none

/-- The allocation identifier an operation issues at a book: a reservation that
is already made is returned, not issued again. -/
def issuesAllocation (op : BookOp) (book : AdmissionBook) : Option ℕ :=
  match op, book.pendingAllocation.bind PendingAllocation.reserved, (op.call.on book).1 with
  | reserveReconfiguration, none, .ok id => id
  | _, _, _ => none

end BookOp

namespace AdmissionBook

/-- The book after a sequence of calls, successful or failing. -/
def after (book : AdmissionBook) : List BookOp → AdmissionBook
  | [] => book
  | op :: ops => (op.call.on book).2.after ops

/-- The identifiers a sequence of calls issues, in order. -/
def issued (issues : BookOp → AdmissionBook → Option ℕ) (book : AdmissionBook) :
    List BookOp → List ℕ
  | [] => []
  | op :: ops => (issues op book).toList ++ (op.call.on book).2.issued issues ops

end AdmissionBook

namespace BookOp

variable {book : AdmissionBook}

/-- What a call does to the parts of the book that identify things: the limits
stay, an identifier is issued only by taking the next one, and a pending
proposal keeps its bound unless this call installs it. -/
structure Effect (op : BookOp) (book : AdmissionBook) : Prop where
  accounts : Accounts (op.call.on book).2
  no_panic : (op.call.on book).1 ≠ .error .panic
  limits : (op.call.on book).2.limits = book.limits
  incarnation :
    (op.issuesIncarnation book = none ∧
      (op.call.on book).2.nextIncarnation = book.nextIncarnation) ∨
    (op.issuesIncarnation book = some book.nextIncarnation ∧
      (op.call.on book).2.nextIncarnation = book.nextIncarnation + 1)
  allocation :
    (op.issuesAllocation book = none ∧
      (op.call.on book).2.nextAllocation = book.nextAllocation) ∨
    (op.issuesAllocation book = some book.nextAllocation ∧
      (op.call.on book).2.nextAllocation = book.nextAllocation + 1)
  pending : ∀ p, book.pendingAllocation = some p →
    (∃ r, (op.call.on book).2.pendingAllocation = some { p with reserved := r }) ∨
    (∃ m id, op = installReconfiguration m ∧ (op.call.on book).1 = .ok id)

/-- A refused call has no effect. -/
lemma Effect.of_error {op : BookOp} (h : Accounts book) {e : AdmissionError}
    (he : op.call.on book = (.error (.error e), book)) : Effect op book where
  accounts := by rw [he]; exact h
  no_panic := by simp [he]
  limits := by rw [he]
  incarnation := by
    refine Or.inl ⟨?_, by rw [he]⟩
    cases op <;> simp [issuesIncarnation, he]
  allocation := by
    refine Or.inl ⟨?_, by rw [he]⟩
    cases op <;> simp [issuesAllocation, he]
  pending := fun p hp => Or.inl ⟨p.reserved, by rw [he]; exact hp⟩

/-- **The step lemma**: every call on a book whose accounts balance. -/
lemma effect (h : Accounts book) (op : BookOp) : Effect op book := by
  cases op with
  | admitHolding request =>
      have hacc := h.admitHolding request
      obtain ⟨e, he⟩ | ⟨hp, -, -, -, -, -, he⟩ := AdmissionBook.admitHolding_cases h request
      · exact .of_error h (on_bind_error he)
      rw [he] at hacc
      have hcall : (admitHolding request).call.on book = _ := on_bind_ok he
      rw [on_pure] at hcall
      exact { accounts := by rw [hcall]; exact hacc
              no_panic := by simp [hcall]
              limits := by rw [hcall]
              incarnation := Or.inr ⟨by simp [issuesIncarnation, hcall], by rw [hcall]⟩
              allocation := Or.inl ⟨by simp [issuesAllocation], by rw [hcall]⟩
              pending := fun p hp' => by rw [hp] at hp'; cases hp' }
  | close incarnation =>
      have hacc := h.close incarnation
      obtain ⟨e, he, -⟩ | ⟨record, hg, he⟩ := AdmissionBook.close_cases book incarnation
      · exact .of_error h (on_bind_error he)
      rw [he] at hacc
      have hcall : (close incarnation).call.on book = _ := on_bind_ok he
      rw [on_pure] at hcall
      exact { accounts := by rw [hcall]; exact hacc
              no_panic := by simp [hcall]
              limits := by rw [hcall]
              incarnation := Or.inl ⟨by simp [issuesIncarnation], by rw [hcall]⟩
              allocation := Or.inl ⟨by simp [issuesAllocation], by rw [hcall]⟩
              pending := fun p hp => Or.inl ⟨p.reserved, by rw [hcall]; exact hp⟩ }
  | completeCleanup incarnation =>
      have hacc := h.completeCleanup incarnation
      obtain ⟨e, he, -⟩ | ⟨record, -, -, -, -, he⟩ :=
        AdmissionBook.completeCleanup_cases h incarnation
      · exact .of_error h (on_bind_error he)
      rw [he] at hacc
      have hcall : (completeCleanup incarnation).call.on book = _ := on_bind_ok he
      rw [on_pure] at hcall
      exact { accounts := by rw [hcall]; exact hacc
              no_panic := by simp [hcall]
              limits := by rw [hcall]
              incarnation := Or.inl ⟨by simp [issuesIncarnation], by rw [hcall]⟩
              allocation := Or.inl ⟨by simp [issuesAllocation], by rw [hcall]⟩
              pending := fun p hp => Or.inl ⟨p.reserved, by rw [hcall]; exact hp⟩ }
  | beginReconfiguration upperBound =>
      have hacc := h.beginReconfiguration upperBound
      obtain ⟨e, he⟩ | ⟨hp, -, -, -, he⟩ :=
        AdmissionBook.beginReconfiguration_cases h upperBound
      · exact .of_error h (on_bind_error he)
      rw [he] at hacc
      have hcall : (beginReconfiguration upperBound).call.on book = _ := on_bind_ok he
      rw [on_pure] at hcall
      exact { accounts := by rw [hcall]; exact hacc
              no_panic := by simp [hcall]
              limits := by rw [hcall]
              incarnation := Or.inl ⟨by simp [issuesIncarnation], by rw [hcall]⟩
              allocation := Or.inl ⟨by simp [issuesAllocation], by rw [hcall]⟩
              pending := fun p hp' => by rw [hp] at hp'; cases hp' }
  | reserveReconfiguration =>
      have hacc := h.reserveReconfiguration
      obtain ⟨e, he⟩ | ⟨p, id, hp, hr, he⟩ | ⟨p, hp, hr, -, -, he⟩ :=
        AdmissionBook.reserveReconfiguration_cases h
      · exact .of_error h (on_bind_error he)
      · have hcall : reserveReconfiguration.call.on book = _ := on_bind_ok he
        rw [on_pure] at hcall
        exact { accounts := by rw [hcall]; exact h
                no_panic := by simp [hcall]
                limits := by rw [hcall]
                incarnation := Or.inl ⟨by simp [issuesIncarnation], by rw [hcall]⟩
                allocation := Or.inl ⟨by simp [issuesAllocation, hp, hr], by rw [hcall]⟩
                pending := fun q hq => Or.inl ⟨q.reserved, by rw [hcall]; exact hq⟩ }
      · rw [he] at hacc
        have hcall : reserveReconfiguration.call.on book = _ := on_bind_ok he
        rw [on_pure] at hcall
        exact { accounts := by rw [hcall]; exact hacc
                no_panic := by simp [hcall]
                limits := by rw [hcall]
                incarnation := Or.inl ⟨by simp [issuesIncarnation], by rw [hcall]⟩
                allocation :=
                  Or.inr ⟨by simp [issuesAllocation, hp, hr, hcall], by rw [hcall]⟩
                pending := fun q hq => by
                  rw [hp] at hq
                  cases hq
                  exact Or.inl ⟨some book.nextAllocation, by rw [hcall]⟩ }
  | installReconfiguration actualBytes =>
      have hacc := h.installReconfiguration actualBytes
      obtain ⟨e, he⟩ | ⟨p, id, hp, hr, -, -, -, he⟩ :=
        AdmissionBook.installReconfiguration_cases h actualBytes
      · exact .of_error h (on_bind_error he)
      rw [he] at hacc
      have hcall : (installReconfiguration actualBytes).call.on book = _ := on_bind_ok he
      rw [on_pure] at hcall
      exact { accounts := by rw [hcall]; exact hacc
              no_panic := by simp [hcall]
              limits := by rw [hcall]
              incarnation := Or.inl ⟨by simp [issuesIncarnation], by rw [hcall]⟩
              allocation := Or.inl ⟨by simp [issuesAllocation], by rw [hcall]⟩
              pending := fun q _ => Or.inr ⟨actualBytes, some id, rfl, by rw [hcall]⟩ }
  | abandonReconfigurationAllocation =>
      have hacc := h.abandonReconfigurationAllocation
      obtain ⟨e, he, -⟩ | ⟨p, id, hp, -, -, -, he⟩ :=
        AdmissionBook.abandonReconfigurationAllocation_cases h
      · exact .of_error h (on_bind_error he)
      rw [he] at hacc
      have hcall : abandonReconfigurationAllocation.call.on book = _ := on_bind_ok he
      rw [on_pure] at hcall
      exact { accounts := by rw [hcall]; exact hacc
              no_panic := by simp [hcall]
              limits := by rw [hcall]
              incarnation := Or.inl ⟨by simp [issuesIncarnation], by rw [hcall]⟩
              allocation := Or.inl ⟨by simp [issuesAllocation], by rw [hcall]⟩
              pending := fun q hq => by
                rw [hp] at hq
                cases hq
                exact Or.inl ⟨none, by rw [hcall]⟩ }
  | completeAllocationCleanup id =>
      have hacc := h.completeAllocationCleanup id
      obtain ⟨e, he, -⟩ | ⟨bytes, -, -, -, -, he⟩ :=
        AdmissionBook.completeAllocationCleanup_cases h id
      · exact .of_error h (on_bind_error he)
      rw [he] at hacc
      have hcall : (completeAllocationCleanup id).call.on book = _ := on_bind_ok he
      rw [on_pure] at hcall
      exact { accounts := by rw [hcall]; exact hacc
              no_panic := by simp [hcall]
              limits := by rw [hcall]
              incarnation := Or.inl ⟨by simp [issuesIncarnation], by rw [hcall]⟩
              allocation := Or.inl ⟨by simp [issuesAllocation], by rw [hcall]⟩
              pending := fun p hp => Or.inl ⟨p.reserved, by rw [hcall]; exact hp⟩ }

end BookOp

namespace AdmissionBook

variable {book : AdmissionBook}

/-- **The run lemma**: any sequence of calls keeps the accounts and the limits. -/
lemma accounts_after (h : Accounts book) (ops : List BookOp) :
    Accounts (book.after ops) ∧ (book.after ops).limits = book.limits := by
  induction ops generalizing book with
  | nil => exact ⟨h, rfl⟩
  | cons op ops ih =>
      have he := BookOp.effect h op
      obtain ⟨hacc, hlim⟩ := ih he.accounts
      exact ⟨hacc, hlim.trans he.limits⟩

/-- Identifiers taken from a counter that only grows are never repeated, and
are not below its value at the start. -/
lemma issued_nodup {issues : BookOp → AdmissionBook → Option ℕ} {next : AdmissionBook → ℕ}
    (hstep : ∀ op b, Accounts b → (issues op b = none ∧ next (op.call.on b).2 = next b) ∨
      (issues op b = some (next b) ∧ next (op.call.on b).2 = next b + 1))
    (h : Accounts book) (ops : List BookOp) :
    (book.issued issues ops).Nodup ∧ ∀ id ∈ book.issued issues ops, next book ≤ id := by
  induction ops generalizing book with
  | nil => exact ⟨List.nodup_nil, fun id hid => by cases hid⟩
  | cons op ops ih =>
      obtain ⟨hnd, hge⟩ := ih (BookOp.effect h op).accounts
      rw [AdmissionBook.issued]
      obtain ⟨hi, hn⟩ | ⟨hi, hn⟩ := hstep op book h
      · rw [hi, Option.toList_none, List.nil_append]
        exact ⟨hnd, fun id hid => hn ▸ hge id hid⟩
      · rw [hi, Option.toList_some, List.singleton_append]
        refine ⟨List.nodup_cons.mpr ⟨fun hmem => ?_, hnd⟩, fun id hid => ?_⟩
        · have := hge _ hmem
          omega
        · rcases List.mem_cons.mp hid with rfl | hid
          · exact le_rfl
          · have := hge id hid
            omega

/-- **Accounting of the admission book.** From any accepted limits and after any
sequence of calls: the frame counter is the sum of the recorded reservations and
stays, with the history and the producer reserve, within capacity; the byte
counter is the sum of the fixed bytes, the charged allocations and the claim
bytes, and stays within the budget; there are at most `max_incarnations` records;
no further call overflows a counter; and no identifier has been issued twice
(allocation `1` is the one `new` issues). -/
theorem accounts_of_run {limits : AdmissionLimits} {book : AdmissionBook}
    (hnew : AdmissionBook.new limits = .ok book) (ops : List BookOp) :
    (book.after ops).reservedFrames =
        ((book.after ops).reservations.values.map fun r => r.reservation.frames).sum ∧
      limits.retainedHistory.toNat + limits.producerReserve.toNat +
        (book.after ops).reservedFrames ≤ limits.resourceCapacity.toNat ∧
      (book.after ops).committedBytes = limits.fixedBytes.toNat +
        (book.after ops).allocations.values.sum +
        ((book.after ops).reservations.values.map fun r => r.reservation.claimBytes).sum ∧
      (book.after ops).committedBytes ≤ limits.memoryBudget.toNat ∧
      (book.after ops).reservations.len ≤ limits.maxIncarnations.toNat ∧
      (∀ op : BookOp, (op.call.on (book.after ops)).1 ≠ .error .panic) ∧
      (book.issued BookOp.issuesIncarnation ops).Nodup ∧
      (1 :: book.issued BookOp.issuesAllocation ops).Nodup := by
  obtain ⟨h, hlim, -, hnext⟩ := Accounts.of_new hnew
  obtain ⟨hacc, hlim'⟩ := accounts_after h ops
  rw [hlim] at hlim'
  have hf := hacc.frames_eq
  have hfl := hacc.frames_le
  have hb := hacc.bytes_eq
  have hbl := hacc.bytes_le
  have hl := hacc.len_le
  rw [hlim'] at hfl hb hbl hl
  rw [AdmissionBook.holdings, BTreeMap.weight_eq_sum_values] at hf
  rw [AdmissionBook.resourceBytes, AdmissionBook.claimBytes, BTreeMap.weight_eq_sum_values,
    BTreeMap.weight_eq_sum_values, List.map_id] at hb
  have hinc := (issued_nodup (fun op b hb => (BookOp.effect hb op).incarnation) h ops).1
  obtain ⟨hnd, hge⟩ := issued_nodup (fun op b hb => (BookOp.effect hb op).allocation) h ops
  refine ⟨hf, hfl, hb, hbl, hl, fun op => (BookOp.effect hacc op).no_panic, hinc,
    List.nodup_cons.mpr ⟨fun hmem => ?_, hnd⟩⟩
  have := hge 1 hmem
  omega

/-- Limits of a small CPU arena. -/
def smallLimits : AdmissionLimits :=
  { resourceCapacity := 5, retainedHistory := 2, producerReserve := 1, allocatedBytes := 8192
    fixedBytes := 4096, memoryBudget := 1048576, maxIncarnations := 2 }

theorem accounts_of_run_small : ∃ book, AdmissionBook.new smallLimits = .ok book ∧
    (book.after [.admitHolding ⟨2, 4096⟩, .beginReconfiguration 8192]).committedBytes =
      4096 + (book.after [.admitHolding ⟨2, 4096⟩,
        .beginReconfiguration 8192]).allocations.values.sum + 4096 := by
  refine ⟨_, rfl, ?_⟩
  have h := accounts_of_run (show AdmissionBook.new smallLimits = _ from rfl)
    [.admitHolding ⟨2, 4096⟩, .beginReconfiguration 8192]
  exact h.2.2.1

/-! ### A started reconfiguration -/

/-- A run in which no installation succeeds. -/
def neverInstalls (book : AdmissionBook) : List BookOp → Prop
  | [] => True
  | op :: ops =>
      (∀ m id, op = .installReconfiguration m → (op.call.on book).1 ≠ .ok id) ∧
        (op.call.on book).2.neverInstalls ops

/-- Until it is installed, a proposal keeps its bound. -/
lemma pending_after (h : Accounts book) {p : PendingAllocation}
    (hp : book.pendingAllocation = some p) {ops : List BookOp} (hni : book.neverInstalls ops) :
    ∃ r, (book.after ops).pendingAllocation = some { p with reserved := r } := by
  induction ops generalizing book p with
  | nil => exact ⟨p.reserved, hp⟩
  | cons op ops ih =>
      have he := BookOp.effect h op
      obtain ⟨r, hr⟩ | ⟨m, id, hop, hok⟩ := he.pending p hp
      · obtain ⟨r', hr'⟩ := ih he.accounts hr hni.2
        exact ⟨r', hr'⟩
      · exact absurd hok (hni.1 m id hop)

/-- While a proposal is pending every admission fails and changes nothing. -/
lemma admitHolding_of_pending (h : Accounts book) {p : PendingAllocation}
    (hp : book.pendingAllocation = some p) (request : HoldingRequest) :
    ∃ e, (admitHolding request).on book = (.error (.error e), book) := by
  obtain he | ⟨hnone, -⟩ := admitHolding_cases h request
  · exact he
  · rw [hp] at hnone
    cases hnone

/-- A proposal whose bytes are free is reserved under the next identifier. -/
lemma reserve_of_free {p : PendingAllocation} (hp : book.pendingAllocation = some p)
    (hr : p.reserved = none)
    (hfree : book.committedBytes + p.upperBound ≤ book.limits.memoryBudget.toNat)
    (hids : book.nextAllocation + 1 < 2 ^ 64) :
    reserveReconfiguration.on book = (.ok book.nextAllocation,
      { book with
        nextAllocation := book.nextAllocation + 1
        committedBytes := book.committedBytes + p.upperBound
        allocations := book.allocations.insert book.nextAllocation p.upperBound
        pendingAllocation := some { p with reserved := some book.nextAllocation } }) := by
  have hbud := Accounts.budget_lt book
  rw [reserveReconfiguration, on_bind_ok on_get, hp]
  dsimp only
  rw [hr]
  dsimp only
  rw [on_bind_ok (on_sub (by omega)), on_bind_ok (on_failIf_neg (by omega)),
    on_bind_ok (on_checkedAdd64_pos hids), on_bind_ok (on_add64 (by omega))]
  rfl

/-- Once no other allocation is charged, the bound of a proposal can be
reserved. -/
lemma reserve_of_drained (h : Accounts book) {p : PendingAllocation}
    (hp : book.pendingAllocation = some p)
    (hdrained : ∀ id, book.allocations.get id ≠ none → p.reserved = some id)
    (hids : book.nextAllocation + 1 < 2 ^ 64) :
    ∃ id b, reserveReconfiguration.on book = (.ok id, b) ∧ Accounts b ∧
      b.pendingAllocation = some { p with reserved := some id } := by
  have hacc := h.reserveReconfiguration
  cases hr : p.reserved with
  | some id =>
      refine ⟨id, book, ?_, h, ?_⟩
      · rw [reserveReconfiguration, on_bind_ok on_get, hp]
        dsimp only
        rw [hr]
        rfl
      · rw [hp, ← hr]
  | none =>
      -- nothing is charged, so the committed bytes are the nonresource bytes
      have hres : book.resourceBytes = 0 := by
        refine BTreeMap.weight_of_get_none _ fun k => ?_
        by_contra hk
        have := hdrained k hk
        rw [hr] at this
        cases this
      have hbe := h.bytes_eq
      have hfit := h.pending_fits p hp
      have hok := reserve_of_free hp hr (by omega) hids
      rw [hok] at hacc
      exact ⟨_, _, hok, hacc, rfl⟩

/-- A reserved proposal can be installed at any size within its bound. -/
lemma install_of_reserved (h : Accounts book) {p : PendingAllocation} {id : ℕ}
    (hp : book.pendingAllocation = some p) (hr : p.reserved = some id) {m : UInt64}
    (hpos : 0 < m) (hle : m.toNat ≤ p.upperBound) :
    ∃ b, (installReconfiguration m).on book = (.ok id, b) := by
  have hbe := h.bytes_eq
  have hc := charged_le (h.pending_charged p id hp hr)
  have hm : ¬ (m = 0 ∨ p.upperBound < m.toNat) := by
    rintro (rfl | hlt)
    · exact absurd hpos (by decide)
    · omega
  rw [installReconfiguration, on_bind_ok on_get, hp]
  dsimp only
  rw [hr]
  dsimp only
  rw [on_bind_ok (on_failIf_neg hm), on_bind_ok (on_sub (by omega)),
    on_bind_ok (on_sub (by omega)), on_bind_ok (on_set _), on_pure]
  exact ⟨_, rfl⟩

/-- **A started reconfiguration keeps its capacity.** After a successful
`begin_reconfiguration(n)` and any later calls that have not installed it, every
admission fails and changes nothing; and once every allocation other than a
reserved replacement is gone and identifiers remain, the reservation succeeds
and then every installation of `0 < m ≤ n` bytes does. -/
theorem capacity_of_started {limits : AdmissionLimits} {book : AdmissionBook}
    (hnew : AdmissionBook.new limits = .ok book) (before : List BookOp) (n : UInt64)
    {started : AdmissionBook}
    (hbegin : (beginReconfiguration n).on (book.after before) = (.ok (), started))
    (later : List BookOp) (hni : started.neverInstalls later) :
    (∀ request, ∃ e, (admitHolding request).on (started.after later) =
        (.error (.error e), started.after later)) ∧
      ((∀ id, (started.after later).allocations.get id ≠ none →
          (started.after later).pendingAllocation.bind PendingAllocation.reserved = some id) →
        (started.after later).nextAllocation < 2 ^ 64 - 1 →
        ∃ id b, reserveReconfiguration.on (started.after later) = (.ok id, b) ∧
          ∀ m : UInt64, 0 < m → m ≤ n →
            ∃ b', (installReconfiguration m).on b = (.ok id, b')) := by
  obtain ⟨h₀, -⟩ := Accounts.of_new hnew
  have h₁ := (accounts_after h₀ before).1
  have h₂ : Accounts started := by
    have := h₁.beginReconfiguration n
    rwa [hbegin] at this
  have hp : started.pendingAllocation = some ⟨n.toNat, none⟩ := by
    obtain ⟨e, he⟩ | ⟨-, -, -, -, he⟩ := beginReconfiguration_cases h₁ n
    · rw [he] at hbegin
      cases hbegin
    · rw [he] at hbegin
      cases hbegin
      rfl
  have h₃ := (accounts_after h₂ later).1
  obtain ⟨r, hr⟩ := pending_after h₂ hp hni
  refine ⟨admitHolding_of_pending h₃ hr, fun hdrained hids => ?_⟩
  rw [hr] at hdrained
  obtain ⟨id, b, hok, hacc, hpb⟩ := reserve_of_drained h₃ hr hdrained (by omega)
  refine ⟨id, b, hok, fun m hpos hle => ?_⟩
  exact install_of_reserved hacc hpb rfl hpos (UInt64.le_iff_toNat_le.mp hle)

theorem capacity_of_started_small : ∃ book started,
    AdmissionBook.new smallLimits = .ok book ∧
    (beginReconfiguration 16384).on book = (.ok (), started) ∧
    ∃ id b, reserveReconfiguration.on (started.after [.completeAllocationCleanup 1]) =
        (.ok id, b) ∧
      ∃ b', (installReconfiguration 8192).on b = (.ok id, b') := by
  refine ⟨_, _, rfl, rfl, ?_⟩
  have h := capacity_of_started (show AdmissionBook.new smallLimits = _ from rfl) [] 16384 rfl
    [.completeAllocationCleanup 1] ⟨fun m id h => (by cases h), trivial⟩
  obtain ⟨id, b, hok, hall⟩ := h.2 (fun id hid => absurd rfl hid) (by decide)
  exact ⟨id, b, hok, hall 8192 (by decide) (by decide)⟩

end AdmissionBook

end Jackstay.Acquisition
