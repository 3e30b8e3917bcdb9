import Jackstay.Library.BTreeMap
import Mathlib.Data.UInt

/-!
`acquisition.rs` and `acquisition/allocation.rs`: the admission book. The
producer serialises admission, closure, cleanup acknowledgement and the
reconfiguration transaction through this record, and the arena asks it before
any claim mapping or resource allocation is created.

A call runs in `Call`: it reads and writes the book, and ends with a value, with
an `AdmissionError` (the writes made before it are kept, as through `&mut self`),
or with a panic. A panic is an overflowing `+`, `-` or `sum` of the source's
`u32` and `u64` counters, or a failed `expect`; the counters are natural numbers
and every unchecked operation goes through `add32`, `add64`, `sub` and `sum64`.
The arguments that a caller chooses keep their machine types.
-/

namespace Jackstay.Acquisition

/-- `AdmissionLimits`. -/
structure AdmissionLimits where
  resourceCapacity : UInt32
  retainedHistory : UInt32
  producerReserve : UInt32
  allocatedBytes : UInt64
  fixedBytes : UInt64
  memoryBudget : UInt64
  maxIncarnations : UInt32
  deriving DecidableEq, Repr

/-- `HoldingRequest`. -/
structure HoldingRequest where
  frames : UInt32
  claimBytes : UInt64
  deriving DecidableEq, Repr

/-- `HoldingReservation`: an admission record, not a frame lease. -/
structure HoldingReservation where
  incarnation : ℕ
  frames : ℕ
  claimBytes : ℕ
  deriving DecidableEq, Repr

/-- `AdmissionError`. -/
inductive AdmissionError where
  | invalidLimits (reason : String)
  | invalidRequest
  | insufficientResources (requested available : ℕ)
  | insufficientMemory (requested available : ℕ)
  | incarnationCapacity
  | idsExhausted
  | unknownIncarnation
  | stillActive
  | reconfigurationPending
  | noReconfiguration
  | allocationNotReserved
  | unknownAllocation
  | allocationInUse
  | invalidAllocationSize
  deriving DecidableEq, Repr

/-- `IncarnationRecord`. -/
structure IncarnationRecord where
  reservation : HoldingReservation
  closing : Bool
  deriving DecidableEq, Repr

/-- `PendingAllocation`: the proposed replacement and the allocation reserved
for it. -/
structure PendingAllocation where
  upperBound : ℕ
  reserved : Option ℕ
  deriving DecidableEq, Repr

/-- `AdmissionBook`. -/
structure AdmissionBook where
  limits : AdmissionLimits
  nextIncarnation : ℕ
  reservations : BTreeMap IncarnationRecord
  reservedFrames : ℕ
  committedBytes : ℕ
  allocations : BTreeMap ℕ
  currentAllocation : Option ℕ
  nextAllocation : ℕ
  pendingAllocation : Option PendingAllocation

/-- Why a call did not return a value. -/
inductive Fault where
  | error (e : AdmissionError)
  | panic
  deriving DecidableEq, Repr

/-- A call on `&mut AdmissionBook`. -/
abbrev Call (α : Type) : Type := ExceptT Fault (StateM AdmissionBook) α

namespace Call

/-- The result of a call and the book it leaves. -/
def on {α : Type} (c : Call α) (book : AdmissionBook) : Except Fault α × AdmissionBook :=
  (ExceptT.run c).run book

/-- `Err(e)`. -/
def err {α : Type} (e : AdmissionError) : Call α := throw (.error e)

/-- A failed `expect`, or an overflow. -/
def panic {α : Type} : Call α := throw .panic

/-- `if c { return Err(e) }`. -/
def failIf (c : Prop) [Decidable c] (e : AdmissionError) : Call Unit :=
  if c then err e else pure ()

/-- `u32` addition. -/
def add32 (a b : ℕ) : Call ℕ := if a + b < 2 ^ 32 then pure (a + b) else panic

/-- `u64` addition. -/
def add64 (a b : ℕ) : Call ℕ := if a + b < 2 ^ 64 then pure (a + b) else panic

/-- Unsigned subtraction. -/
def sub (a b : ℕ) : Call ℕ := if b ≤ a then pure (a - b) else panic

/-- `Iterator::sum::<u64>`. -/
def sum64 (values : List ℕ) : Call ℕ := values.foldlM add64 0

/-- `u64::checked_add` followed by `ok_or`. -/
def checkedAdd64 (a b : ℕ) (e : AdmissionError) : Call ℕ :=
  if a + b < 2 ^ 64 then pure (a + b) else err e

end Call

open Call

namespace AdmissionBook

/-- `AdmissionBook::new`. -/
def new (limits : AdmissionLimits) : Except AdmissionError AdmissionBook :=
  let protectedFrames := limits.retainedHistory.toNat + limits.producerReserve.toNat
  let committedBytes := limits.allocatedBytes.toNat + limits.fixedBytes.toNat
  if 2 ^ 32 ≤ protectedFrames then
    throw (.invalidLimits "history and producer reserve overflow")
  else if limits.producerReserve = 0 ∨ limits.resourceCapacity.toNat < protectedFrames then
    throw (.invalidLimits "resource capacity must cover history and a nonzero producer reserve")
  else if 2 ^ 64 ≤ committedBytes then
    throw (.invalidLimits "initial allocation byte total overflows")
  else if limits.memoryBudget.toNat < committedBytes then
    throw (.invalidLimits "existing allocation exceeds the memory budget")
  else if limits.maxIncarnations = 0 then
    throw (.invalidLimits "incarnation capacity must be nonzero")
  else
    return {
      limits
      nextIncarnation := 1
      reservations := .empty
      reservedFrames := 0
      committedBytes
      allocations := BTreeMap.empty.insert 1 limits.allocatedBytes.toNat
      currentAllocation := some 1
      nextAllocation := 2
      pendingAllocation := none }

/-- `AdmissionBook::available_frames`: three unchecked subtractions. -/
def availableFrames : Call ℕ := do
  let book ← get
  let a ← sub book.limits.resourceCapacity.toNat book.limits.retainedHistory.toNat
  let a ← sub a book.limits.producerReserve.toNat
  sub a book.reservedFrames

/-- `AdmissionBook::admit`. -/
def admitHolding (request : HoldingRequest) : Call HoldingReservation := do
  let book ← get
  failIf book.pendingAllocation.isSome .reconfigurationPending
  failIf (request.frames = 0 ∨ request.claimBytes = 0) .invalidRequest
  let available ← availableFrames
  failIf (available < request.frames.toNat)
    (.insufficientResources request.frames.toNat available)
  failIf (book.limits.maxIncarnations.toNat ≤ book.reservations.len) .incarnationCapacity
  let available ← sub book.limits.memoryBudget.toNat book.committedBytes
  failIf (available < request.claimBytes.toNat)
    (.insufficientMemory request.claimBytes.toNat available)
  let next ← checkedAdd64 book.nextIncarnation 1 .idsExhausted
  let reservation : HoldingReservation :=
    { incarnation := book.nextIncarnation
      frames := request.frames.toNat
      claimBytes := request.claimBytes.toNat }
  let reservedFrames ← add32 book.reservedFrames request.frames.toNat
  let committedBytes ← add64 book.committedBytes request.claimBytes.toNat
  set { book with
    nextIncarnation := next
    reservedFrames
    committedBytes
    reservations := book.reservations.insert reservation.incarnation
      { reservation, closing := false } }
  return reservation

/-- `AdmissionBook::close`: record closure without reclaiming anything. -/
def close (incarnation : ℕ) : Call Unit := do
  let book ← get
  match book.reservations.get incarnation with
  | none => err .unknownIncarnation
  | some record =>
      set { book with
        reservations := book.reservations.insert incarnation { record with closing := true } }

/-- `AdmissionBook::complete_cleanup`. -/
def completeCleanup (incarnation : ℕ) : Call Unit := do
  let book ← get
  match book.reservations.get incarnation with
  | none => err .unknownIncarnation
  | some record =>
      failIf (record.closing = false) .stillActive
      set { book with reservations := book.reservations.remove incarnation }
      let reservedFrames ← sub book.reservedFrames record.reservation.frames
      modify fun b => { b with reservedFrames }
      let committedBytes ← sub book.committedBytes record.reservation.claimBytes
      modify fun b => { b with committedBytes }

/-- `AdmissionBook::begin_reconfiguration`. -/
def beginReconfiguration (upperBound : UInt64) : Call Unit := do
  let book ← get
  failIf book.pendingAllocation.isSome .reconfigurationPending
  failIf (upperBound = 0) .invalidAllocationSize
  -- reject a proposal that cannot fit even after all old generations are gone
  let resourceBytes ← sum64 book.allocations.values
  let nonresourceBytes ← sub book.committedBytes resourceBytes
  let available ← sub book.limits.memoryBudget.toNat nonresourceBytes
  failIf (available < upperBound.toNat) (.insufficientMemory upperBound.toNat available)
  let _ ← checkedAdd64 book.nextAllocation 1 .idsExhausted
  set { book with
    pendingAllocation := some { upperBound := upperBound.toNat, reserved := none }
    currentAllocation := none }

/-- `AdmissionBook::reserve_reconfiguration`: retrying a reservation is
idempotent. -/
def reserveReconfiguration : Call ℕ := do
  let book ← get
  match book.pendingAllocation with
  | none => err .noReconfiguration
  | some pending =>
      match pending.reserved with
      | some id => return id
      | none =>
          let available ← sub book.limits.memoryBudget.toNat book.committedBytes
          failIf (available < pending.upperBound)
            (.insufficientMemory pending.upperBound available)
          let next ← checkedAdd64 book.nextAllocation 1 .idsExhausted
          let id := book.nextAllocation
          let committedBytes ← add64 book.committedBytes pending.upperBound
          set { book with
            nextAllocation := next
            committedBytes
            allocations := book.allocations.insert id pending.upperBound
            pendingAllocation := some { pending with reserved := some id } }
          return id

/-- `AdmissionBook::install_reconfiguration`. -/
def installReconfiguration (actualBytes : UInt64) : Call ℕ := do
  let book ← get
  match book.pendingAllocation with
  | none => err .noReconfiguration
  | some pending =>
      match pending.reserved with
      | none => err .allocationNotReserved
      | some id =>
          failIf (actualBytes = 0 ∨ pending.upperBound < actualBytes.toNat)
            .invalidAllocationSize
          let unused ← sub pending.upperBound actualBytes.toNat
          let committedBytes ← sub book.committedBytes unused
          set { book with
            committedBytes
            allocations := book.allocations.insert id actualBytes.toNat
            currentAllocation := some id
            pendingAllocation := none }
          return id

/-- `AdmissionBook::abandon_reconfiguration_allocation`: the proposal stays
pending, so another admission cannot consume its retry capacity. -/
def abandonReconfigurationAllocation : Call Unit := do
  let book ← get
  match book.pendingAllocation with
  | none => err .noReconfiguration
  | some pending =>
      match pending.reserved with
      | none => err .allocationNotReserved
      | some id =>
          set { book with pendingAllocation := some { pending with reserved := none } }
          match book.allocations.get id with
          | none => panic
          | some bytes =>
              let committedBytes ← sub book.committedBytes bytes
              modify fun b =>
                { b with committedBytes, allocations := book.allocations.remove id }

/-- `AdmissionBook::complete_allocation_cleanup`. -/
def completeAllocationCleanup (id : ℕ) : Call Unit := do
  let book ← get
  failIf (book.currentAllocation = some id ∨
      book.pendingAllocation.bind PendingAllocation.reserved = some id) .allocationInUse
  match book.allocations.get id with
  | none => err .unknownAllocation
  | some bytes =>
      set { book with allocations := book.allocations.remove id }
      let committedBytes ← sub book.committedBytes bytes
      modify fun b => { b with committedBytes }

end AdmissionBook

end Jackstay.Acquisition
