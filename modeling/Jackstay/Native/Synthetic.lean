import Jackstay.Native.LeaseBook
import Jackstay.Video.Staging

/-!
`native/linux/synthetic.rs`: the native producer whose surfaces are allocated from a heap, with
the book of the leases on them.

A slot may be claimed when the ring has let go of it and no lease on it is unresolved. Before
a claim the release timelines are queried, in any order, and the book is told what they have
reached. Pool ids and lease ids are given out in order.

What the device and the heap answer comes with the call. `consumers` is the table of consumer
cursors of the page, as far as it is known who has an entry of it. `resolved` is a history
variable: the leases that were released `Now`, or whose timeline has reached its value.

* `refreshReleaseSyncs_get`: what the queries do to one lease.
* `SyntheticProducer.step_book`, `SyntheticProducer.step_lease`: a step changes the book only
  by the queries before a claim, and takes a lease out of it only when it is resolved.
-/

namespace Jackstay.Native

open Video

/-- `SyntheticLinuxBackend` with the producer that drives it. -/
structure SyntheticProducer (F : Type) where
  track : NativeTrackProducer F
  nextPoolId : ℕ
  /-- `reuse_blocked` of the pool -/
  reuseBlocked : List Bool
  leaseBook : NativeLeaseBook := {}
  /-- the ids of the timelines that were imported -/
  releaseSyncs : List ℕ := []
  /-- an entry is the id of a consumer, or zero -/
  consumers : List ℕ
  resolved : List ℕ := []

/-- The error of a lease, as the backend reports it. -/
def leaseError (e : NativeLeaseError) : NativeError :=
  .nativeBackend "linux-native-lease" e.toString

/-- `surface_layout`: the stride and the length of a surface. -/
def surfaceLayout (params : NativeStreamParams) : Except NativeError (ℕ × ℕ) :=
  let operation := "linux-synthetic-surface-layout"
  -- `Bgra8Unorm` and `Rgba8Unorm`
  if params.pixelFormat = 1 ∨ params.pixelFormat = 2 then
    let stride := params.width * 4
    if 2 ^ 32 ≤ stride then
      .error (.nativeBackend operation s!"width {params.width} overflows stride")
    else
      let len := stride * params.height
      if 2 ^ 64 ≤ len then
        .error (.nativeBackend operation
          s!"surface {params.width}x{params.height} overflows allocation length")
      else if len = 0 then
        .error (.nativeBackend operation "surface dimensions must be non-zero")
      else .ok (stride, len)
  else .error (.nativeBackend operation "unknown pixel format cannot be allocated as dmabuf")

/-- `allocate_surface_pool`, up to the id of the pool. -/
def allocateSurfaces (params : NativeStreamParams) (slotCount : ℕ)
    (heap : Except NativeError Unit) : Except NativeError Unit :=
  if slotCount = 0 then
    .error (.nativeBackend "linux-synthetic-allocate-surface-pool" "slot count must be non-zero")
  else (surfaceLayout params).bind fun _ => heap

/-- `set_reuse_blocked`. -/
def setReuseBlocked (reuseBlocked : List Bool) (slotId : ℕ) (blocked : Bool) :
    Except NativeError (List Bool) :=
  if slotId < reuseBlocked.length then .ok (reuseBlocked.set slotId blocked)
  else
    .error (.nativeBackend "linux-synthetic-set-reuse-blocked"
      s!"slot {slotId} outside pool with {reuseBlocked.length} slots")

/-- The loop of `claim_reusable_slot` over the candidates. -/
def blockLeased (leased : ℕ → Bool) (reuseBlocked : List Bool) :
    List SlotReuseCandidate → Except NativeError (List Bool)
  | [] => .ok reuseBlocked
  | c :: cs =>
      match setReuseBlocked reuseBlocked c.slotId (leased c.slotId) with
      | .error e => .error e
      | .ok reuseBlocked => blockLeased leased reuseBlocked cs

/-- `refresh_release_syncs`: the book, the leases that were resolved, and the error at which
the loop has stopped. The timelines are given with what they answer, in the order of the
loop. -/
def refreshReleaseSyncs (b : NativeLeaseBook) :
    List (ℕ × Except NativeError ℕ) → NativeLeaseBook × List ℕ × Except NativeError Unit
  | [] => (b, [], .ok ())
  | (_, .error e) :: _ => (b, [], .error e)
  | (releaseSyncId, .ok reached) :: rest =>
      match b.completeReleaseSync releaseSyncId reached with
      | (b, .error e) => (b, [], .error (leaseError e))
      | (b, .ok released) =>
          let refreshed := refreshReleaseSyncs b rest
          (refreshed.1, released.map (·.leaseId) ++ refreshed.2.1, refreshed.2.2)

namespace SyntheticProducer

variable {F : Type}

/-- `SyntheticLinuxBackend::open` and `NativeTrackProducer::new`, on devices that work. -/
def new (params : NativeStreamParams) (ringCapacity poolSlotCount : ℕ)
    (policy : PoolExhaustionPolicy) : Except NativeError (SyntheticProducer F) :=
  match allocateSurfaces params poolSlotCount (.ok ()) with
  | .error e => .error e
  | .ok () =>
      -- the payload is `DmaBuf`
      match NativeTrackProducer.fromAllocatedParts ⟨2, 1⟩ params ringCapacity poolSlotCount 1
          policy with
      | .error e => .error e
      | .ok track => .ok {
          track
          nextPoolId := 2
          reuseBlocked := List.replicate poolSlotCount false
          consumers := List.replicate track.page.slotCapacity 0 }

/-- `reconfigure`. -/
def reconfigure (s : SyntheticProducer F) (params : NativeStreamParams) (poolSlotCount : ℕ)
    (heap : Except NativeError Unit) : SyntheticProducer F :=
  match allocateSurfaces params poolSlotCount heap with
  | .error e => { s with track := { s.track with result := .error e } }
  | .ok () =>
      { s with
        nextPoolId := saturatingSucc 64 s.nextPoolId
        track := s.track.replacePool params poolSlotCount s.nextPoolId
        reuseBlocked :=
          if poolSlotCount ≤ s.track.page.slotCapacity then s.reuseBlocked
          else List.replicate poolSlotCount false }

/-- A lease keeps this slot of the pool. -/
def leased (s : SyntheticProducer F) (slotId : ℕ) : Bool :=
  s.leaseBook.slotHasUnresolvedLeases s.track.pool slotId

/-- The book after the timelines were queried. -/
def refreshed (s : SyntheticProducer F) (queries : List (ℕ × Except NativeError ℕ)) :
    SyntheticProducer F :=
  let refreshed := refreshReleaseSyncs s.leaseBook queries
  { s with leaseBook := refreshed.1, resolved := s.resolved ++ refreshed.2.1 }

/-- `claim_reusable_slot` of the backend and of the pool. -/
def claimReusableSlot (s : SyntheticProducer F) (queries : List (ℕ × Except NativeError ℕ))
    (candidates : List SlotReuseCandidate) :
    SyntheticProducer F × Except NativeError SlotClaim :=
  let refresh := (refreshReleaseSyncs s.leaseBook queries).2.2
  let s := s.refreshed queries
  match refresh with
  | .error e => (s, .error e)
  | .ok () =>
      match blockLeased s.leased s.reuseBlocked candidates with
      | .error e => (s, .error e)
      | .ok reuseBlocked =>
          ({ s with reuseBlocked },
            match candidates.find? fun c => !reuseBlocked.getD c.slotId false with
            | some c => .ok (.ready c.slotId)
            | none => .ok .wouldBlock)

/-- `publish`, up to the stores of `push`. -/
def publish (s : SyntheticProducer F) (frame : F) (timestampNs : ℕ)
    (queries : List (ℕ × Except NativeError ℕ)) (signal : Except NativeError Unit) :
    SyntheticProducer F :=
  -- the sums of `claim_slot` panic before the backend is asked
  if 2 ^ 32 < s.track.nextSlotHint + s.track.poolSlotCount then
    { s with track := { s.track with pc := .panicked } }
  else
    let claim := s.claimReusableSlot queries (s.track.candidates none)
    { claim.1 with track := s.track.publish frame timestampNs { claim := claim.2, signal } }

/-- `acquire_linux_lease`. -/
def acquireLinuxLease (s : SyntheticProducer F) (identity : NativeLeaseIdentity) :
    SyntheticProducer F × Except NativeError ℕ :=
  let acquired := s.leaseBook.acquire identity
  ({ s with leaseBook := acquired.1 }, acquired.2.mapError leaseError)

/-- `register_linux_release_sync`. -/
def registerLinuxReleaseSync (s : SyntheticProducer F) (syncKind : ℕ)
    (imported : Except NativeError Unit) : SyntheticProducer F × Except NativeError ℕ :=
  -- `FT_NATIVE_SYNC_DRM_SYNCOBJ_TIMELINE`
  if syncKind ≠ 2 then
    (s, .error (.nativeBackend "linux-synthetic-register-release-sync"
      s!"unsupported release sync kind {syncKind}"))
  else match imported with
    | .error e => (s, .error e)
    | .ok () =>
        match s.leaseBook.registerReleaseSync with
        | (leaseBook, .error e) => ({ s with leaseBook }, .error (leaseError e))
        | (leaseBook, .ok releaseSyncId) =>
            ({ s with leaseBook, releaseSyncs := s.releaseSyncs.insert releaseSyncId },
              .ok releaseSyncId)

/-- `release_linux_lease`. -/
def releaseLinuxLease (s : SyntheticProducer F) (leaseId : ℕ) (how : NativeLeaseRelease) :
    SyntheticProducer F × Except NativeError Unit :=
  match s.leaseBook.release leaseId how with
  | (leaseBook, .error e) => ({ s with leaseBook }, .error (leaseError e))
  | (leaseBook, .ok _) =>
      ({ s with
          leaseBook
          resolved := if how = .now then s.resolved ++ [leaseId] else s.resolved }, .ok ())

end SyntheticProducer

/-- What may happen next to the producer, besides the requests of its consumers. -/
inductive SyntheticLabel (F : Type) where
  | publish (frame : F) (timestampNs : ℕ) (queries : List (ℕ × Except NativeError ℕ))
    (signal : Except NativeError Unit)
  | store
  | finish
  | reconfigure (params : NativeStreamParams) (poolSlotCount : ℕ)
    (heap : Except NativeError Unit)

/-- **One step of the producer.** Every imported timeline is queried once, in some order. -/
def SyntheticProducer.step {F : Type} (s : SyntheticProducer F) :
    SyntheticLabel F → Option (SyntheticProducer F)
  | .publish frame timestampNs queries signal =>
      if s.track.pc = .idle ∧ (queries.map (·.1)).Perm s.releaseSyncs then
        some (s.publish frame timestampNs queries signal)
      else none
  | .store => (s.track.step .store).map fun track => { s with track }
  | .finish => (s.track.step .finish).map fun track => { s with track }
  | .reconfigure params poolSlotCount heap =>
      if s.track.pc = .idle then some (s.reconfigure params poolSlotCount heap) else none

/-! ### Claims -/

/-! ### Timelines -/

section Timelines

variable {b : NativeLeaseBook} {queries : List (ℕ × Except NativeError ℕ)}

/-- What holds of a book and is kept by every value of a timeline holds after the queries. -/
lemma refreshReleaseSyncs_induct {P : NativeLeaseBook → Prop}
    (hP : ∀ b releaseSyncId reached, P b → P (b.completeReleaseSync releaseSyncId reached).1)
    (h : P b) : P (refreshReleaseSyncs b queries).1 := by
  induction queries generalizing b with
  | nil => exact h
  | cons query queries ih =>
      obtain ⟨releaseSyncId, answer⟩ := query
      cases answer with
      | error e => exact h
      | ok reached =>
          have hcomplete := hP b releaseSyncId reached h
          rw [refreshReleaseSyncs]
          split
          · rename_i he
            rw [he] at hcomplete
            exact hcomplete
          · rename_i he
            rw [he] at hcomplete
            exact ih hcomplete

lemma refreshReleaseSyncs_frame (b : NativeLeaseBook)
    (queries : List (ℕ × Except NativeError ℕ)) :
    (refreshReleaseSyncs b queries).1.nextLeaseId = b.nextLeaseId ∧
      (refreshReleaseSyncs b queries).1.nextReleaseSyncId = b.nextReleaseSyncId ∧
      (refreshReleaseSyncs b queries).1.releaseSyncs = b.releaseSyncs := by
  refine refreshReleaseSyncs_induct (P := fun b' => b'.nextLeaseId = b.nextLeaseId ∧
    b'.nextReleaseSyncId = b.nextReleaseSyncId ∧ b'.releaseSyncs = b.releaseSyncs) ?_
    ⟨rfl, rfl, rfl⟩
  intro b' releaseSyncId reached h
  rw [NativeLeaseBook.completeReleaseSync]
  split_ifs
  · exact h
  · exact h

/-- The ids that `complete_release_sync` returns are those of the leases it takes out. -/
lemma completeReleaseSync_get {releaseSyncId reached : ℕ} {b' : NativeLeaseBook}
    {released : List ReleasedNativeLease}
    (h : b.completeReleaseSync releaseSyncId reached = (b', .ok released)) (k : ℕ) :
    b'.leases.get k = b.leases.get k ∨ ∃ identity value,
      b.leases.get k = some ⟨identity, .releasePending releaseSyncId value⟩ ∧ value ≤ reached ∧
      b'.leases.get k = none ∧ k ∈ released.map (·.leaseId) := by
  rw [NativeLeaseBook.completeReleaseSync] at h
  by_cases hsync : releaseSyncId ∉ b.releaseSyncs
  · rw [if_pos hsync] at h
    cases h
  rw [if_neg hsync] at h
  cases h
  cases hget : b.leases.get k with
  | none =>
      left
      rw [BTreeMap.get_retain, hget]
      rfl
  | some entry =>
      rw [BTreeMap.get_retain, hget, Option.filter_some]
      cases hcompletes : NativeLeaseBook.completes releaseSyncId reached entry with
      | false => exact Or.inl rfl
      | true =>
          right
          obtain ⟨identity, state⟩ := entry
          cases state with
          | outstanding => cases hcompletes
          | releasePending pending value =>
              have hboth := hcompletes
              rw [NativeLeaseBook.completes, Bool.and_eq_true, beq_iff_eq,
                decide_eq_true_eq] at hboth
              obtain ⟨rfl, hle⟩ := hboth
              refine ⟨identity, value, rfl, hle, rfl, ?_⟩
              rw [List.map_map]
              refine List.mem_map.mpr ⟨(k, ⟨identity, .releasePending pending value⟩), ?_, rfl⟩
              exact List.mem_filter.mpr ⟨BTreeMap.mem_of_get hget, hcompletes⟩

/-- **The queries take out the leases whose timeline has reached their value**, and these are
resolved. -/
lemma refreshReleaseSyncs_get (k : ℕ) :
    (refreshReleaseSyncs b queries).1.leases.get k = b.leases.get k ∨
      ∃ identity releaseSyncId value reached,
        b.leases.get k = some ⟨identity, .releasePending releaseSyncId value⟩ ∧
        (releaseSyncId, .ok reached) ∈ queries ∧ value ≤ reached ∧
        (refreshReleaseSyncs b queries).1.leases.get k = none ∧
        k ∈ (refreshReleaseSyncs b queries).2.1 := by
  induction queries generalizing b with
  | nil => exact Or.inl rfl
  | cons query queries ih =>
      obtain ⟨releaseSyncId, answer⟩ := query
      cases answer with
      | error e => exact Or.inl rfl
      | ok reached =>
          rw [refreshReleaseSyncs]
          split
          · rename_i b' e he
            left
            rw [NativeLeaseBook.completeReleaseSync] at he
            split_ifs at he
            · cases he
            · cases he
              rfl
          · rename_i b' released he
            rcases completeReleaseSync_get he k with
              hsame | ⟨identity, value, hget, hle, hnone, hmem⟩
            · rcases ih (b := b') with hrest | ⟨identity, sync, value, r, hget, hq, hle, hnone, hmem⟩
              · exact Or.inl (hrest.trans hsame)
              · exact Or.inr ⟨identity, sync, value, r, hsame.symm.trans hget,
                  List.mem_cons_of_mem _ hq, hle, hnone, List.mem_append_right _ hmem⟩
            · refine Or.inr ⟨identity, releaseSyncId, value, reached, hget, List.mem_cons_self, hle,
                ?_, List.mem_append_left _ hmem⟩
              rcases ih (b := b') with hrest | ⟨_, _, _, _, hsome, -⟩
              · exact hrest.trans hnone
              · rw [hnone] at hsome
                cases hsome

end Timelines

namespace SyntheticProducer

variable {F : Type} {s s' : SyntheticProducer F} {queries : List (ℕ × Except NativeError ℕ)}

/-- The claim concerns the book and the blocked slots only. -/
lemma claimReusableSlot_frame (s : SyntheticProducer F)
    (queries : List (ℕ × Except NativeError ℕ)) (candidates : List SlotReuseCandidate) :
    ∃ reuseBlocked, (s.claimReusableSlot queries candidates).1 =
      { s.refreshed queries with reuseBlocked } := by
  rw [claimReusableSlot]
  split
  · exact ⟨_, rfl⟩
  · split
    · exact ⟨_, rfl⟩
    · exact ⟨_, rfl⟩

/-- **The book changes when the timelines are queried**, before a claim. -/
lemma step_book {l : SyntheticLabel F} (hs : s.step l = some s') :
    (s'.leaseBook = s.leaseBook ∧ s'.resolved = s.resolved) ∨
    ∃ frame timestampNs queries signal, l = .publish frame timestampNs queries signal ∧
      s'.leaseBook = (refreshReleaseSyncs s.leaseBook queries).1 ∧
      s'.resolved = s.resolved ++ (refreshReleaseSyncs s.leaseBook queries).2.1 := by
  cases l with
  | publish frame timestampNs queries signal =>
      simp only [step] at hs
      split_ifs at hs
      cases hs
      rw [publish]
      split_ifs
      · exact Or.inl ⟨rfl, rfl⟩
      · obtain ⟨reuseBlocked, hclaim⟩ :=
          s.claimReusableSlot_frame queries (s.track.candidates none)
        refine Or.inr ⟨frame, timestampNs, queries, signal, rfl, ?_, ?_⟩
        · show (s.claimReusableSlot queries _).1.leaseBook = _
          rw [hclaim]
          rfl
        · show (s.claimReusableSlot queries _).1.resolved = _
          rw [hclaim]
          rfl
  | store =>
      obtain ⟨track, -, rfl⟩ := Option.map_eq_some_iff.mp hs
      exact Or.inl ⟨rfl, rfl⟩
  | finish =>
      obtain ⟨track, -, rfl⟩ := Option.map_eq_some_iff.mp hs
      exact Or.inl ⟨rfl, rfl⟩
  | reconfigure params poolSlotCount heap =>
      simp only [step] at hs
      split_ifs at hs
      cases hs
      rw [reconfigure]
      split
      · exact Or.inl ⟨rfl, rfl⟩
      · exact Or.inl ⟨rfl, rfl⟩

/-- What a step does to one lease. -/
lemma step_lease {l : SyntheticLabel F} (hs : s.step l = some s') (k : ℕ) :
    s'.leaseBook.leases.get k = s.leaseBook.leases.get k ∨
      ∃ identity releaseSyncId value,
        s.leaseBook.leases.get k = some ⟨identity, .releasePending releaseSyncId value⟩ ∧
        s'.leaseBook.leases.get k = none ∧ k ∈ s'.resolved := by
  rcases step_book hs with ⟨hbook, -⟩ | ⟨_, _, queries, _, -, hbook, hresolved⟩
  · exact Or.inl (by rw [hbook])
  · rw [hbook, hresolved]
    have hget := @refreshReleaseSyncs_get s.leaseBook queries k
    rcases hget with
      hsame | ⟨identity, sync, value, _, hget, -, -, hnone, hmem⟩
    · exact Or.inl hsame
    · exact Or.inr ⟨identity, sync, value, hget, hnone, List.mem_append_right _ hmem⟩

end SyntheticProducer

end Jackstay.Native
