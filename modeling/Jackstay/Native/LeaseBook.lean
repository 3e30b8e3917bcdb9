import Jackstay.Library.BTreeMap

/-!
`native/lease.rs`: the leases that the consumers of a native track hold, and their releases.

A lease is outstanding until it is released. A release takes effect at once, or when a
release timeline of the consumer reaches a value; the book is told of the values that were
reached. A slot with a lease that has not been resolved is not staged into again.

The ids are words; the last one is kept back. A failed operation takes an entry out of the
map and puts it back, which leaves the book as it was.

* `NativeLeaseBook.acquire_cases`, `release_cases`: what an operation does, or that it does
  nothing.
* `NativeLeaseBook.Kept`: what every book that is built from `new` satisfies.
-/

namespace Jackstay.Native

/-- `NativeLeaseIdentity`: the frame that a lease protects. -/
structure NativeLeaseIdentity where
  cursor : ℕ
  sequence : ℕ
  poolId : ℕ
  slotId : ℕ
  deriving DecidableEq, Repr

/-- `NativeLeaseRelease`. -/
inductive NativeLeaseRelease where
  | now
  | timelineValue (releaseSyncId value : ℕ)
  deriving DecidableEq, Repr

/-- `ReleasedNativeLease`. -/
structure ReleasedNativeLease where
  leaseId : ℕ
  identity : NativeLeaseIdentity
  deriving DecidableEq, Repr

/-- `NativeLeaseError`. -/
inductive NativeLeaseError where
  | unknownLease (leaseId : ℕ)
  | alreadyReleased (leaseId : ℕ)
  | unknownReleaseSync (releaseSyncId : ℕ)
  | leaseIdsExhausted
  | releaseSyncIdsExhausted
  deriving DecidableEq, Repr

/-- The text of an error of the book. -/
def NativeLeaseError.toString : NativeLeaseError → String
  | .unknownLease leaseId => s!"native lease id {leaseId} is unknown"
  | .alreadyReleased leaseId => s!"native lease id {leaseId} was already released"
  | .unknownReleaseSync releaseSyncId => s!"native release sync id {releaseSyncId} is unknown"
  | .leaseIdsExhausted => "native lease id space is exhausted"
  | .releaseSyncIdsExhausted => "native release sync id space is exhausted"

/-- `LeaseState`. -/
inductive LeaseState where
  | outstanding
  | releasePending (releaseSyncId value : ℕ)
  deriving DecidableEq, Repr

/-- `LeaseEntry`. -/
structure LeaseEntry where
  identity : NativeLeaseIdentity
  state : LeaseState
  deriving DecidableEq, Repr

/-- `u64::MAX`. -/
def maxId : ℕ := 2 ^ 64 - 1

/-- `NativeLeaseBook`, as `new` makes it. -/
structure NativeLeaseBook where
  nextLeaseId : ℕ := 1
  nextReleaseSyncId : ℕ := 1
  leases : BTreeMap LeaseEntry := .empty
  releaseSyncs : List ℕ := []

namespace NativeLeaseBook

/-- `acquire`. -/
def acquire (b : NativeLeaseBook) (identity : NativeLeaseIdentity) :
    NativeLeaseBook × Except NativeLeaseError ℕ :=
  if b.nextLeaseId = maxId then (b, .error .leaseIdsExhausted)
  else
    ({ b with
        nextLeaseId := b.nextLeaseId + 1
        leases := b.leases.insert b.nextLeaseId { identity, state := .outstanding } },
      .ok b.nextLeaseId)

/-- `register_release_sync`. -/
def registerReleaseSync (b : NativeLeaseBook) : NativeLeaseBook × Except NativeLeaseError ℕ :=
  if b.nextReleaseSyncId = maxId then (b, .error .releaseSyncIdsExhausted)
  else
    ({ b with
        nextReleaseSyncId := b.nextReleaseSyncId + 1
        releaseSyncs := b.releaseSyncs.insert b.nextReleaseSyncId },
      .ok b.nextReleaseSyncId)

/-- `register_release_sync_id`. -/
def registerReleaseSyncId (b : NativeLeaseBook) (releaseSyncId : ℕ) :
    NativeLeaseBook × Except NativeLeaseError Unit :=
  if releaseSyncId = maxId then (b, .error .releaseSyncIdsExhausted)
  else
    ({ b with
        nextReleaseSyncId := max b.nextReleaseSyncId (releaseSyncId + 1)
        releaseSyncs := b.releaseSyncs.insert releaseSyncId },
      .ok ())

/-- `release`. -/
def release (b : NativeLeaseBook) (leaseId : ℕ) (how : NativeLeaseRelease) :
    NativeLeaseBook × Except NativeLeaseError ReleasedNativeLease :=
  match b.leases.get leaseId with
  | none => (b, .error (.unknownLease leaseId))
  | some entry =>
      let removed := b.leases.remove leaseId
      if entry.state ≠ .outstanding then
        ({ b with leases := removed.insert leaseId entry }, .error (.alreadyReleased leaseId))
      else match how with
        | .now => ({ b with leases := removed }, .ok ⟨leaseId, entry.identity⟩)
        | .timelineValue releaseSyncId value =>
            if releaseSyncId ∉ b.releaseSyncs then
              ({ b with leases := removed.insert leaseId entry },
                .error (.unknownReleaseSync releaseSyncId))
            else
              ({ b with
                  leases := removed.insert leaseId
                    { entry with state := .releasePending releaseSyncId value } },
                .ok ⟨leaseId, entry.identity⟩)

/-- The timeline has reached what the lease waits for. -/
def completes (releaseSyncId reached : ℕ) (entry : LeaseEntry) : Bool :=
  match entry.state with
  | .outstanding => false
  | .releasePending pending value => pending == releaseSyncId && value ≤ reached

/-- `complete_release_sync`. -/
def completeReleaseSync (b : NativeLeaseBook) (releaseSyncId reached : ℕ) :
    NativeLeaseBook × Except NativeLeaseError (List ReleasedNativeLease) :=
  if releaseSyncId ∉ b.releaseSyncs then (b, .error (.unknownReleaseSync releaseSyncId))
  else
    ({ b with leases := b.leases.retain fun _ entry => !completes releaseSyncId reached entry },
      .ok ((b.leases.entries.filter fun e => completes releaseSyncId reached e.2).map fun e =>
        ⟨e.1, e.2.identity⟩))

/-- `slot_has_unresolved_leases`. -/
def slotHasUnresolvedLeases (b : NativeLeaseBook) (poolId slotId : ℕ) : Bool :=
  b.leases.values.any fun entry =>
    entry.identity.poolId == poolId && entry.identity.slotId == slotId

/-! ### What an operation does -/

variable {b : NativeLeaseBook} {identity : NativeLeaseIdentity} {leaseId : ℕ}

lemma acquire_cases (b : NativeLeaseBook) (identity : NativeLeaseIdentity) :
    b.acquire identity = (b, .error .leaseIdsExhausted) ∨
    b.acquire identity =
      ({ b with
          nextLeaseId := b.nextLeaseId + 1
          leases := b.leases.insert b.nextLeaseId ⟨identity, .outstanding⟩ },
        .ok b.nextLeaseId) := by
  rw [acquire]
  split_ifs
  · exact Or.inl rfl
  · exact Or.inr rfl

/-- An entry that is taken out and put back leaves the map as it was. -/
lemma insert_remove {m : BTreeMap LeaseEntry} {entry : LeaseEntry}
    (h : m.get leaseId = some entry) : (m.remove leaseId).insert leaseId entry = m := by
  refine BTreeMap.ext_get fun k => ?_
  rw [BTreeMap.get_insert, BTreeMap.get_remove]
  split_ifs with hk
  · rw [hk, h]
  · rfl

lemma insert_remove_of_eq (m : BTreeMap LeaseEntry) (entry : LeaseEntry) :
    (m.remove leaseId).insert leaseId entry = m.insert leaseId entry := by
  refine BTreeMap.ext_get fun k => ?_
  rw [BTreeMap.get_insert, BTreeMap.get_remove, BTreeMap.get_insert]
  split_ifs
  · rfl
  · rfl

/-- **A release takes an outstanding lease, or fails and leaves the book as it was.** -/
lemma release_cases (b : NativeLeaseBook) (leaseId : ℕ) (how : NativeLeaseRelease) :
    (∃ e, b.release leaseId how = (b, .error e)) ∨
    ∃ identity, b.leases.get leaseId = some ⟨identity, .outstanding⟩ ∧
      ((how = .now ∧ b.release leaseId how =
        ({ b with leases := b.leases.remove leaseId }, .ok ⟨leaseId, identity⟩)) ∨
      ∃ releaseSyncId value, how = .timelineValue releaseSyncId value ∧
        releaseSyncId ∈ b.releaseSyncs ∧ b.release leaseId how =
          ({ b with
              leases := b.leases.insert leaseId ⟨identity, .releasePending releaseSyncId value⟩ },
            .ok ⟨leaseId, identity⟩)) := by
  rw [release]
  cases hget : b.leases.get leaseId with
  | none => exact Or.inl ⟨_, rfl⟩
  | some entry =>
      dsimp only
      rw [insert_remove hget]
      split_ifs with hstate
      · exact Or.inl ⟨_, rfl⟩
      · obtain ⟨identity, state⟩ := entry
        have hstate : state = .outstanding := not_not.mp hstate
        subst hstate
        cases how with
        | now => exact Or.inr ⟨identity, rfl, Or.inl ⟨rfl, rfl⟩⟩
        | timelineValue releaseSyncId value =>
            dsimp only
            rw [insert_remove_of_eq]
            split_ifs with hsync
            · exact Or.inr ⟨identity, rfl, Or.inr ⟨_, _, rfl, hsync, rfl⟩⟩
            · exact Or.inl ⟨_, rfl⟩

/-- What a value of a timeline leaves of the leases. -/
lemma get_completeReleaseSync (b : NativeLeaseBook) (releaseSyncId reached k : ℕ) :
    (b.completeReleaseSync releaseSyncId reached).1.leases.get k =
      (b.leases.get k).filter fun entry =>
        decide (releaseSyncId ∉ b.releaseSyncs) || !completes releaseSyncId reached entry := by
  rw [completeReleaseSync]
  split_ifs with hsync
  · simp only [hsync, not_true_eq_false, decide_false, Bool.false_or]
    exact BTreeMap.get_retain ..
  · simp only [hsync, not_false_eq_true, decide_true, Bool.true_or]
    cases b.leases.get k with
    | none => rfl
    | some entry => rfl

/-! ### Books -/

/-- **What every book satisfies**: the ids that are in use have been given out, and a lease
waits for a timeline that is registered. -/
structure Kept (b : NativeLeaseBook) : Prop where
  ids : ∀ leaseId entry, b.leases.get leaseId = some entry → leaseId < b.nextLeaseId
  syncs : ∀ releaseSyncId ∈ b.releaseSyncs, releaseSyncId < b.nextReleaseSyncId
  pending : ∀ leaseId identity releaseSyncId value,
    b.leases.get leaseId = some ⟨identity, .releasePending releaseSyncId value⟩ →
    releaseSyncId ∈ b.releaseSyncs

namespace Kept

lemma new : Kept {} :=
  ⟨fun _ _ h0 => (nomatch h0), fun _ h0 => (nomatch h0), fun _ _ _ _ h0 => (nomatch h0)⟩

/-- A lease is recorded. -/
lemma acquired (h : b.Kept) (identity : NativeLeaseIdentity) :
    Kept { b with
      nextLeaseId := b.nextLeaseId + 1
      leases := b.leases.insert b.nextLeaseId ⟨identity, .outstanding⟩ } := by
  refine ⟨fun k entry hget => ?_, h.syncs, fun k other sync value hget => ?_⟩
  · rw [BTreeMap.get_insert] at hget
    show k < b.nextLeaseId + 1
    split_ifs at hget with hk
    · omega
    · exact Nat.lt_succ_of_lt (h.ids k entry hget)
  · rw [BTreeMap.get_insert] at hget
    split_ifs at hget
    · cases hget
    · exact h.pending k other sync value hget

/-- A timeline is registered. -/
lemma registered (h : b.Kept) :
    Kept { b with
      nextReleaseSyncId := b.nextReleaseSyncId + 1
      releaseSyncs := b.releaseSyncs.insert b.nextReleaseSyncId } := by
  refine ⟨h.ids, fun sync hsync => ?_, fun k identity sync value hget => ?_⟩
  · show sync < b.nextReleaseSyncId + 1
    rcases List.mem_insert_iff.mp hsync with rfl | hsync
    · omega
    · exact Nat.lt_succ_of_lt (h.syncs sync hsync)
  · exact List.mem_insert_of_mem (h.pending k identity sync value hget)

/-- A lease is released. -/
lemma released (h : b.Kept) (leaseId : ℕ) : Kept { b with leases := b.leases.remove leaseId } := by
  refine ⟨fun k entry hget => ?_, h.syncs, fun k other sync value hget => ?_⟩
  · rw [BTreeMap.get_remove] at hget
    split_ifs at hget
    exact h.ids k entry hget
  · rw [BTreeMap.get_remove] at hget
    split_ifs at hget
    exact h.pending k other sync value hget

/-- A lease waits for a timeline. -/
lemma deferred (h : b.Kept) {entry : LeaseEntry} (hlease : b.leases.get leaseId = some entry)
    {sync : ℕ} (hsync : sync ∈ b.releaseSyncs) (identity : NativeLeaseIdentity) (value : ℕ) :
    Kept { b with leases := b.leases.insert leaseId ⟨identity, .releasePending sync value⟩ } := by
  refine ⟨fun k other hget => ?_, h.syncs, fun k other sync' value' hget => ?_⟩
  · rw [BTreeMap.get_insert] at hget
    split_ifs at hget with hk
    · rw [hk]
      exact h.ids leaseId entry hlease
    · exact h.ids k other hget
  · rw [BTreeMap.get_insert] at hget
    split_ifs at hget
    · cases hget
      exact hsync
    · exact h.pending k other sync' value' hget

lemma completeReleaseSync (h : b.Kept) (releaseSyncId reached : ℕ) :
    (b.completeReleaseSync releaseSyncId reached).1.Kept := by
  have hget := b.get_completeReleaseSync releaseSyncId reached
  have hsame : (b.completeReleaseSync releaseSyncId reached).1.nextLeaseId = b.nextLeaseId ∧
      (b.completeReleaseSync releaseSyncId reached).1.releaseSyncs = b.releaseSyncs ∧
      (b.completeReleaseSync releaseSyncId reached).1.nextReleaseSyncId =
        b.nextReleaseSyncId := by
    rw [NativeLeaseBook.completeReleaseSync]
    split_ifs
    · exact ⟨rfl, rfl, rfl⟩
    · exact ⟨rfl, rfl, rfl⟩
  obtain ⟨hnext, hsyncs, hnextSync⟩ := hsame
  refine ⟨fun k entry hk => ?_, ?_, fun k identity sync value hk => ?_⟩
  · rw [hget] at hk
    rw [hnext]
    exact h.ids k entry (Option.filter_eq_some_iff.mp hk).1
  · rw [hsyncs, hnextSync]
    exact h.syncs
  · rw [hget] at hk
    rw [hsyncs]
    exact h.pending k identity sync value (Option.filter_eq_some_iff.mp hk).1

end Kept

end NativeLeaseBook

end Jackstay.Native
