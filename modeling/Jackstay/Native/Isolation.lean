import Jackstay.Native.Attach
import Jackstay.Library.Transition

/-!
What the streams of one producer can do to each other.

* `Serves`: the ways in which a request can come out, each with what it needs.
* `Owned`: the leases that were recorded, the tokens that were presented, and the book.
* `streams_isolated`: a stream that is not attached changes nothing and gets no descriptor; an
  attached one leaves the leases of the others as they are, unless it releases one by its id.

The server checks that the timeline of a release was registered on the stream it comes from,
and does not check where the lease was acquired.
-/

namespace Jackstay.Native

open Video Transition

variable {F : Type}

/-! ### What a request can do -/

/-- The answer is an error, or the stream ends. -/
def Refusal (answer : Except CaptureTransferError LinuxAttachOutbound) : Prop :=
  ∀ outbound, answer = .ok outbound → outbound.fds = [] ∧
    ∃ code message, outbound.response = .error code message

/-- **The ways in which a request can come out.** -/
inductive Serves (endpoint : AttachEndpoint) (session : LinuxAttachStreamSession)
    (s : SyntheticProducer F) : LinuxAttachRequest → Served F → Prop
  | refused {request : LinuxAttachRequest}
      {answer : Except CaptureTransferError LinuxAttachOutbound} :
      Refusal answer → Serves endpoint session s request ⟨session, s, answer⟩
  | authorized {token : String} :
      endpoint.expectedBearer = none ∨ endpoint.expectedBearer = some token →
      Serves endpoint session s (.authorize token)
        (.json { session with attach := { session.attach with authorized := true } } s .authorized)
  /-- the consumer is registered, and the grant fails -/
  | notGranted {consumerId : ℕ} {consumers : List ℕ} {e : CaptureTransferError} :
      Serves endpoint session s (.attach consumerId)
        (.json session { s with consumers } (linuxAttachErrorResponse (.grant e)))
  | granted {consumerId : ℕ} {consumers : List ℕ} {grant : AttachGrant} :
      endpoint.expectedBearer = none ∨ session.attach.authorized = true →
      session.attach.attached = false →
      Serves endpoint session s (.attach consumerId)
        ⟨{ session with attach := { session.attach with attached := true } },
          { s with consumers }, do
            let (grant, fds) ← encodeLinuxAttachGrant grant
            return { response := .granted grant, fds }⟩
  | exported {poolId : ℕ} {pool : AttachPool} : session.attach.attached = true →
      Serves endpoint session s (.getPool poolId)
        ⟨session, s, do
          let (pool, fds) ← encodeLinuxAttachPool pool
          return { response := .pool pool, fds }⟩
  | acquired {identity : NativeLeaseIdentity} : session.attach.attached = true →
      Serves endpoint session s (.acquireLease identity)
        (.json session { s with
          leaseBook := { s.leaseBook with
            nextLeaseId := s.leaseBook.nextLeaseId + 1
            leases := s.leaseBook.leases.insert s.leaseBook.nextLeaseId
              { identity, state := .outstanding } } }
          (.leaseAcquired s.leaseBook.nextLeaseId))
  | registered {sync : LinuxSyncDescriptor} {fds : List Fd} {releaseSyncs : List ℕ} {next : ℕ} :
      session.attach.attached = true →
      Serves endpoint session s (.registerReleaseSync sync)
        (.json { session with
            nextReleaseSyncId := next
            releaseSyncs := session.releaseSyncs.insert s.leaseBook.nextReleaseSyncId ⟨sync, fds⟩ }
          { s with
            leaseBook := { s.leaseBook with
              nextReleaseSyncId := s.leaseBook.nextReleaseSyncId + 1
              releaseSyncs := s.leaseBook.releaseSyncs.insert s.leaseBook.nextReleaseSyncId }
            releaseSyncs }
          (.releaseSyncRegistered s.leaseBook.nextReleaseSyncId))
  | released {leaseId : ℕ} {identity : NativeLeaseIdentity} : session.attach.attached = true →
      s.leaseBook.leases.get leaseId = some ⟨identity, .outstanding⟩ →
      Serves endpoint session s (.releaseFrame (.now leaseId))
        (.json session { s with
          leaseBook := { s.leaseBook with leases := s.leaseBook.leases.remove leaseId }
          resolved := s.resolved ++ [leaseId] } .frameReleased)
  | deferred {leaseId releaseSyncId value : ℕ} {identity : NativeLeaseIdentity} :
      session.attach.attached = true →
      (session.releaseSyncs.get releaseSyncId).isSome →
      s.leaseBook.leases.get leaseId = some ⟨identity, .outstanding⟩ →
      releaseSyncId ∈ s.leaseBook.releaseSyncs →
      Serves endpoint session s (.releaseFrame (.timelineValue leaseId releaseSyncId value))
        (.json session { s with
          leaseBook := { s.leaseBook with
            leases := s.leaseBook.leases.insert leaseId
              ⟨identity, .releasePending releaseSyncId value⟩ } } .frameReleased)

/-- A grant concerns the table of consumers only. -/
lemma SyntheticProducer.grantAttach_frame (s : SyntheticProducer F) (consumerId : ℕ)
    (env : RequestEnv) : ∃ consumers, (s.grantAttach consumerId env).1 = { s with consumers } := by
  simp only [grantAttach]
  split
  · exact ⟨s.consumers, rfl⟩
  · exact ⟨_, rfl⟩

namespace Serves

variable {endpoint : AttachEndpoint} {session : LinuxAttachStreamSession}
  {s : SyntheticProducer F} {env : RequestEnv}

/-- An error without descriptors. -/
lemma json_refused {request : LinuxAttachRequest} (code message : String) :
    Serves endpoint session s request (.json session s (.error code message)) := by
  refine .refused fun outbound hok => ?_
  cases hok
  exact ⟨rfl, code, message, rfl⟩

lemma authorize (token : String) :
    Serves endpoint session s (.authorize token)
      (match endpoint.authorize session.attach token with
        | (attach, .ok ()) => .json { session with attach } s .authorized
        | (attach, .error e) => .json { session with attach } s (linuxAttachErrorResponse e)) := by
  rw [AttachEndpoint.authorize]
  cases hexpected : endpoint.expectedBearer with
  | none => exact .authorized (Or.inl hexpected)
  | some expected =>
      dsimp only
      by_cases htoken : constantTimeTokenEq expected token = true
      · rw [if_pos htoken]
        have hsame := constantTimeTokenEq_iff.mp htoken
        exact .authorized (Or.inr (hsame ▸ hexpected))
      · rw [if_neg htoken]
        exact json_refused _ _

lemma attach (consumerId : ℕ) :
    Serves endpoint session s (.attach consumerId)
      (match endpoint.attach session.attach s consumerId env with
        | (attach, s, .ok grant) =>
            ⟨{ session with attach }, s, do
              let (grant, fds) ← encodeLinuxAttachGrant grant
              return { response := .granted grant, fds }⟩
        | (attach, s, .error e) =>
            .json { session with attach } s (linuxAttachErrorResponse e)) := by
  rw [AttachEndpoint.attach]
  by_cases hauthorized : endpoint.expectedBearer.isSome ∧ session.attach.authorized = false
  · rw [if_pos hauthorized]
    exact json_refused _ _
  rw [if_neg hauthorized]
  by_cases hattached : session.attach.attached = true
  · rw [if_pos hattached]
    exact json_refused _ _
  rw [if_neg hattached]
  have hmay : endpoint.expectedBearer = none ∨ session.attach.authorized = true := by
    cases hexpected : endpoint.expectedBearer with
    | none => exact Or.inl rfl
    | some expected =>
        right
        by_contra hnot
        exact hauthorized ⟨by rw [hexpected]; rfl, Bool.eq_false_iff.mpr hnot⟩
  obtain ⟨consumers, hconsumers⟩ := SyntheticProducer.grantAttach_frame s
    (if consumerId = 0 then 2 ^ 63 ||| env.assigned else consumerId) env
  dsimp only
  generalize s.grantAttach
    (if consumerId = 0 then 2 ^ 63 ||| env.assigned else consumerId) env = result at hconsumers ⊢
  obtain ⟨s', grant⟩ := result
  cases hconsumers
  cases grant with
  | error e => exact .notGranted
  | ok grant => exact .granted hmay (Bool.eq_false_iff.mpr hattached)

lemma getPool (hattached : session.attach.attached = true) (poolId : ℕ) :
    Serves endpoint session s (.getPool poolId) (onGetPool session s poolId env) := by
  rw [onGetPool]
  split
  · exact .exported hattached
  · exact json_refused _ _
  · exact json_refused _ _

lemma acquireLease (hattached : session.attach.attached = true) (identity : NativeLeaseIdentity) :
    Serves endpoint session s (.acquireLease identity)
      (match s.acquireLinuxLease identity with
        | (s, .ok leaseId) => .json session s (.leaseAcquired leaseId)
        | (s, .error e) => .json session s (linuxNativeErrorResponse (.ofNative e))) := by
  rw [SyntheticProducer.acquireLinuxLease]
  rcases s.leaseBook.acquire_cases identity with he | he
  · rw [he]
    exact json_refused _ _
  · rw [he]
    exact .acquired hattached

lemma registerReleaseSync (hattached : session.attach.attached = true)
    (sync : LinuxSyncDescriptor) (passedFds : Option (List Fd)) :
    Serves endpoint session s (.registerReleaseSync sync)
      (onRegisterReleaseSync session s sync passedFds env) := by
  rw [onRegisterReleaseSync.eq_def]
  cases passedFds with
  | none => exact .refused fun _ h0 => (nomatch h0)
  | some fds =>
      dsimp only
      cases sync.validateFdIndices fds.length with
      | error e => exact json_refused _ _
      | ok checked =>
          dsimp only
          rw [SyntheticProducer.registerLinuxReleaseSync.eq_def]
          by_cases hkind : sync.syncKind ≠ 2
          · rw [if_pos hkind]
            exact json_refused _ _
          rw [if_neg hkind]
          cases env.imported with
          | error e => exact json_refused _ _
          | ok imported =>
              dsimp only
              rw [NativeLeaseBook.registerReleaseSync]
              split_ifs
              · exact json_refused _ _
              · exact .registered hattached

lemma releaseFrame (hattached : session.attach.attached = true)
    (release : LinuxReleaseDescriptor) :
    Serves endpoint session s (.releaseFrame release) (onReleaseFrame session s release) := by
  rw [onReleaseFrame]
  cases hforeign : session.foreignSync release with
  | some releaseSyncId => exact json_refused _ _
  | none =>
      dsimp only
      rw [SyntheticProducer.releaseLinuxLease]
      rcases s.leaseBook.release_cases release.leaseId release.release with
        ⟨e, he⟩ | ⟨identity, hget, ⟨hnow, he⟩ | ⟨releaseSyncId, value, hhow, hsync, he⟩⟩
      · rw [he]
        exact json_refused _ _
      · rw [he]
        cases release with
        | now leaseId => exact .released hattached hget
        | timelineValue leaseId releaseSyncId value => cases hnow
      · rw [he]
        cases release with
        | now leaseId => cases hhow
        | timelineValue leaseId releaseSyncId value =>
            cases hhow
            refine .deferred hattached ?_ hget hsync
            rw [LinuxAttachStreamSession.foreignSync] at hforeign
            split_ifs at hforeign with hnone
            exact Option.isSome_iff_ne_none.mpr fun h0 => hnone (Option.isNone_iff_eq_none.mpr h0)

/-- **Every request comes out in one of these ways.** -/
lemma of_build (endpoint : AttachEndpoint) (session : LinuxAttachStreamSession)
    (s : SyntheticProducer F) (request : LinuxAttachRequest) (passedFds : Option (List Fd))
    (env : RequestEnv) : Serves endpoint session s request
      (buildLinuxAttachResponse endpoint session s request passedFds env) := by
  rw [buildLinuxAttachResponse.eq_def]
  by_cases hgate : request.isHandshake = false ∧ session.attach.attached = false
  · rw [if_pos hgate]
    exact json_refused _ _
  rw [if_neg hgate]
  have hattached : request.isHandshake = false → session.attach.attached = true := by
    intro hrequest
    exact Bool.eq_false_imp_eq_true.mp fun h0 => absurd ⟨hrequest, h0⟩ hgate
  cases request with
  | authorize token => exact .authorize token
  | attach consumerId => exact .attach consumerId
  | getPool poolId => exact .getPool (hattached rfl) poolId
  | acquireLease identity => exact .acquireLease (hattached rfl) identity
  | registerReleaseSync sync => exact .registerReleaseSync (hattached rfl) sync passedFds
  | releaseFrame release => exact .releaseFrame (hattached rfl) release

variable {request : LinuxAttachRequest} {served : Served F}

/-- A grant or a pool is no lease. -/
lemma leases_bind {α : Type} (encoded : Except CaptureTransferError α)
    (outbound : α → LinuxAttachOutbound)
    (hresponse : ∀ x leaseId, (outbound x).response ≠ .leaseAcquired leaseId) :
    Host.leases (encoded.bind fun x => .ok (outbound x)) = [] := by
  cases encoded with
  | error e => rfl
  | ok x =>
      rw [Except.bind, Host.leases.eq_def]
      split
      · rename_i leaseId fds hok
        have hsame := congrArg LinuxAttachOutbound.response (Except.ok.inj hok)
        exact absurd hsame (hresponse x leaseId)
      · rfl

/-- **What a request does to the book**: a lease is recorded under the next id, or none is. -/
lemma book (hs : Serves endpoint session s request served) (hk : s.leaseBook.Kept) :
    served.producer.leaseBook.Kept ∧
    (∀ sync ∈ s.leaseBook.releaseSyncs, sync ∈ served.producer.leaseBook.releaseSyncs) ∧
    ((Host.leases served.answer = [] ∧
        served.producer.leaseBook.nextLeaseId = s.leaseBook.nextLeaseId) ∨
      Host.leases served.answer = [s.leaseBook.nextLeaseId] ∧
        served.producer.leaseBook.nextLeaseId = s.leaseBook.nextLeaseId + 1) := by
  cases hs with
  | @refused _ answer hrefusal =>
      refine ⟨hk, fun _ h0 => h0, Or.inl ⟨?_, rfl⟩⟩
      rw [Host.leases.eq_def]
      split
      · rename_i leaseId fds hok
        obtain ⟨-, _, _, hresponse⟩ := hrefusal _ hok
        cases hresponse
      · rfl
  | authorized _ => exact ⟨hk, fun _ h0 => h0, Or.inl ⟨rfl, rfl⟩⟩
  | notGranted => exact ⟨hk, fun _ h0 => h0, Or.inl ⟨rfl, rfl⟩⟩
  | granted _ _ =>
      exact ⟨hk, fun _ h0 => h0, Or.inl ⟨leases_bind _ _ fun _ _ h0 => (nomatch h0), rfl⟩⟩
  | exported _ =>
      exact ⟨hk, fun _ h0 => h0, Or.inl ⟨leases_bind _ _ fun _ _ h0 => (nomatch h0), rfl⟩⟩
  | acquired _ => exact ⟨hk.acquired _, fun _ h0 => h0, Or.inr ⟨rfl, rfl⟩⟩
  | registered _ =>
      exact ⟨hk.registered, fun _ h0 => List.mem_insert_of_mem h0, Or.inl ⟨rfl, rfl⟩⟩
  | released _ _ => exact ⟨hk.released _, fun _ h0 => h0, Or.inl ⟨rfl, rfl⟩⟩
  | deferred _ _ hlease hsync =>
      exact ⟨hk.deferred hlease hsync _ _, fun _ h0 => h0, Or.inl ⟨rfl, rfl⟩⟩

/-- **What a request does to its session.** -/
lemma session_cases (hs : Serves endpoint session s request served) :
    (served.session.attach.authorized = session.attach.authorized ∨
      served.session.attach.authorized = true ∧ ∃ token, request = .authorize token ∧
        (endpoint.expectedBearer = none ∨ endpoint.expectedBearer = some token)) ∧
    (served.session.attach.attached = session.attach.attached ∨
      served.session.attach.attached = true ∧ session.attach.attached = false ∧
        served.session.attach.authorized = session.attach.authorized ∧
        (endpoint.expectedBearer = none ∨ session.attach.authorized = true)) ∧
    ∀ sync, (served.session.releaseSyncs.get sync).isSome →
      (session.releaseSyncs.get sync).isSome ∨ sync ∈ served.producer.leaseBook.releaseSyncs := by
  cases hs with
  | refused _ => exact ⟨Or.inl rfl, Or.inl rfl, fun _ h0 => Or.inl h0⟩
  | @authorized token hexpected =>
      exact ⟨Or.inr ⟨rfl, token, rfl, hexpected⟩, Or.inl rfl, fun _ h0 => Or.inl h0⟩
  | notGranted => exact ⟨Or.inl rfl, Or.inl rfl, fun _ h0 => Or.inl h0⟩
  | granted hmay hattached =>
      exact ⟨Or.inl rfl, Or.inr ⟨rfl, hattached, rfl, hmay⟩, fun _ h0 => Or.inl h0⟩
  | exported _ => exact ⟨Or.inl rfl, Or.inl rfl, fun _ h0 => Or.inl h0⟩
  | acquired _ => exact ⟨Or.inl rfl, Or.inl rfl, fun _ h0 => Or.inl h0⟩
  | registered _ =>
      refine ⟨Or.inl rfl, Or.inl rfl, fun sync hsync => ?_⟩
      simp only [Served.json, BTreeMap.get_insert] at hsync
      split_ifs at hsync with hnew
      · rw [hnew]
        exact Or.inr List.mem_insert_self
      · exact Or.inl hsync
  | released _ _ => exact ⟨Or.inl rfl, Or.inl rfl, fun _ h0 => Or.inl h0⟩
  | deferred _ _ _ _ => exact ⟨Or.inl rfl, Or.inl rfl, fun _ h0 => Or.inl h0⟩

/-- **What a request does to a lease that was recorded before**: it is left as it is, or the
request releases it. -/
lemma lease (hs : Serves endpoint session s request served) {k : ℕ}
    (hk : k < s.leaseBook.nextLeaseId) :
    served.producer.leaseBook.leases.get k = s.leaseBook.leases.get k ∨
    ∃ release identity, request = .releaseFrame release ∧ k = release.leaseId ∧
      session.attach.attached = true ∧ session.foreignSync release = none ∧
      s.leaseBook.leases.get k = some ⟨identity, .outstanding⟩ := by
  cases hs with
  | refused _ => exact Or.inl rfl
  | authorized _ => exact Or.inl rfl
  | notGranted => exact Or.inl rfl
  | granted _ _ => exact Or.inl rfl
  | exported _ => exact Or.inl rfl
  | acquired _ => exact Or.inl ((BTreeMap.get_insert ..).trans (if_neg hk.ne))
  | registered _ => exact Or.inl rfl
  | @released leaseId identity hattached hget =>
      by_cases hsame : k = leaseId
      · subst hsame
        exact Or.inr ⟨_, identity, rfl, rfl, hattached, rfl, hget⟩
      · exact Or.inl ((BTreeMap.get_remove ..).trans (if_neg hsame))
  | @deferred leaseId releaseSyncId value identity hattached hsync hget _ =>
      by_cases hsame : k = leaseId
      · subst hsame
        refine Or.inr ⟨_, identity, rfl, rfl, hattached, ?_, hget⟩
        rw [LinuxAttachStreamSession.foreignSync, if_neg]
        rw [Option.isNone_iff_eq_none]
        exact Option.isSome_iff_ne_none.mp hsync
      · exact Or.inl ((BTreeMap.get_insert ..).trans (if_neg hsame))

/-- **A stream that is not attached** changes the table of consumers at most. It gets
descriptors with the answer that attaches it. -/
lemma of_not_attached (hs : Serves endpoint session s request served)
    (hattached : session.attach.attached = false) :
    (∃ consumers, served.producer = { s with consumers }) ∧
    ∀ outbound, served.answer = .ok outbound → outbound.fds ≠ [] →
      served.session.attach.attached = true := by
  cases hs with
  | refused hrefusal =>
      exact ⟨⟨s.consumers, rfl⟩, fun outbound hok hfds => absurd (hrefusal outbound hok).1 hfds⟩
  | authorized _ =>
      refine ⟨⟨s.consumers, rfl⟩, fun outbound hok hfds => ?_⟩
      cases hok
      exact absurd rfl hfds
  | notGranted =>
      refine ⟨⟨_, rfl⟩, fun outbound hok hfds => ?_⟩
      cases hok
      exact absurd rfl hfds
  | granted _ _ => exact ⟨⟨_, rfl⟩, fun _ _ _ => rfl⟩
  | exported h0 => cases hattached.symm.trans h0
  | acquired h0 => cases hattached.symm.trans h0
  | registered h0 => cases hattached.symm.trans h0
  | released h0 _ => cases hattached.symm.trans h0
  | deferred h0 _ _ _ => cases hattached.symm.trans h0

end Serves

/-- A release that the server accepts on the stream takes the lease, whoever has it. -/
lemma onReleaseFrame_lease {session : LinuxAttachStreamSession} {s : SyntheticProducer F}
    {release : LinuxReleaseDescriptor} {identity : NativeLeaseIdentity}
    (hforeign : session.foreignSync release = none)
    (hsyncs : ∀ sync, (session.releaseSyncs.get sync).isSome → sync ∈ s.leaseBook.releaseSyncs)
    (hget : s.leaseBook.leases.get release.leaseId = some ⟨identity, .outstanding⟩) :
    (onReleaseFrame session s release).producer.leaseBook.leases.get release.leaseId ≠
      s.leaseBook.leases.get release.leaseId := by
  rw [hget, onReleaseFrame, hforeign]
  cases release with
  | now leaseId =>
      have hrelease : s.leaseBook.release leaseId .now =
          ({ s.leaseBook with leases := s.leaseBook.leases.remove leaseId },
            .ok ⟨leaseId, identity⟩) := by
        rw [NativeLeaseBook.release, show s.leaseBook.leases.get leaseId = _ from hget]
        rfl
      simp only [SyntheticProducer.releaseLinuxLease, LinuxReleaseDescriptor.leaseId,
        LinuxReleaseDescriptor.release, hrelease, Served.json, BTreeMap.get_remove, if_true]
      rintro ⟨⟩
  | timelineValue leaseId releaseSyncId value =>
      rw [LinuxAttachStreamSession.foreignSync] at hforeign
      split_ifs at hforeign with hnone
      have hsync : releaseSyncId ∈ s.leaseBook.releaseSyncs :=
        hsyncs releaseSyncId (Option.isSome_iff_ne_none.mpr fun h0 =>
          hnone (Option.isNone_iff_eq_none.mpr h0))
      have hrelease : s.leaseBook.release leaseId (.timelineValue releaseSyncId value) =
          ({ s.leaseBook with
              leases := (s.leaseBook.leases.remove leaseId).insert leaseId
                ⟨identity, .releasePending releaseSyncId value⟩ },
            .ok ⟨leaseId, identity⟩) := by
        rw [NativeLeaseBook.release, show s.leaseBook.leases.get leaseId = _ from hget]
        exact if_neg (not_not.mpr hsync)
      simp only [SyntheticProducer.releaseLinuxLease, LinuxReleaseDescriptor.leaseId,
        LinuxReleaseDescriptor.release, hrelease, Served.json, BTreeMap.get_insert, if_true]
      intro h0
      cases Option.some.inj h0

/-! ### The producer and its streams -/

namespace Host

variable {h h' : Host F} {i : ℕ} {request : LinuxAttachRequest} {passedFds : Option (List Fd)}
  {env : RequestEnv} {answer : Except CaptureTransferError LinuxAttachOutbound}

/-- The stream has completed attach. -/
def Attached (h : Host F) (i : ℕ) : Prop :=
  ∃ stream, h.streams[i]? = some stream ∧ stream.session.attach.attached = true

/-- The token of the endpoint, if it has one, was presented on the stream. -/
def Presented (h : Host F) (i : ℕ) : Prop :=
  ∃ stream, h.streams[i]? = some stream ∧
    ∀ token, h.endpoint.expectedBearer = some token → token ∈ stream.presented

/-- What the book has of a lease. -/
def lease (h : Host F) (leaseId : ℕ) : Option LeaseEntry :=
  h.producer.leaseBook.leases.get leaseId

/-- **The request releases a lease of another stream**: the lease is outstanding, and the release
is one that the server accepts on this stream. -/
def Trespasses (h : Host F) (i : ℕ) (request : LinuxAttachRequest) : Prop :=
  ∃ stream release j identity, h.streams[i]? = some stream ∧
    stream.session.attach.attached = true ∧ request = .releaseFrame release ∧
    stream.session.foreignSync release = none ∧ (j, release.leaseId) ∈ h.acquired ∧ j ≠ i ∧
    h.lease release.leaseId = some ⟨identity, .outstanding⟩

/-- What serving a request comes to. -/
lemma respond_cases (hs : h.respond i request passedFds env = some (h', answer)) :
    ∃ stream served, h.streams[i]? = some stream ∧ served =
        buildLinuxAttachResponse h.endpoint stream.session h.producer request passedFds env ∧
      Serves h.endpoint stream.session h.producer request served ∧ answer = served.answer ∧
      h' = { h with
        producer := served.producer
        streams := h.streams.set i {
          session := served.session
          serving := served.answer.isOk
          presented := stream.presented ++ tokens request }
        acquired := h.acquired ++ (leases served.answer).map (i, ·) } := by
  rw [respond] at hs
  split at hs
  · cases hs
  · rename_i stream hstream
    split_ifs at hs with hguard
    cases hs
    exact ⟨stream, _, hstream, rfl, .of_build .., rfl, rfl⟩

/-- **What holds of the leases, the tokens and the streams.** -/
structure Owned (h : Host F) : Prop where
  book : h.producer.leaseBook.Kept
  /-- a lease that was recorded has an id that was given out, to one stream -/
  acquired : ∀ x ∈ h.acquired, x.2 < h.producer.leaseBook.nextLeaseId
  unique : (h.acquired.map (·.2)).Nodup
  authorized : ∀ (i : ℕ) stream, h.streams[i]? = some stream →
    (stream.session.attach.authorized = true →
      ∀ token, h.endpoint.expectedBearer = some token → token ∈ stream.presented) ∧
    (stream.session.attach.attached = true →
      h.endpoint.expectedBearer = none ∨ stream.session.attach.authorized = true)
  syncs : ∀ (i : ℕ) stream releaseSyncId, h.streams[i]? = some stream →
    (stream.session.releaseSyncs.get releaseSyncId).isSome →
    releaseSyncId ∈ h.producer.leaseBook.releaseSyncs

/-- An attached stream has presented the token. -/
lemma Owned.presented (ho : h.Owned) (hattached : h.Attached i) : h.Presented i := by
  obtain ⟨stream, hstream, hattached⟩ := hattached
  obtain ⟨htoken, hmay⟩ := ho.authorized i stream hstream
  refine ⟨stream, hstream, fun token hexpected => ?_⟩
  rcases hmay hattached with hnone | hauthorized
  · rw [hnone] at hexpected
    cases hexpected
  · exact htoken hauthorized token hexpected

/-- A stream of the list, when one has been replaced. -/
lemma getElem?_set_cases {streams : List Stream} {old new stream : Stream} {j : ℕ}
    (hold : streams[i]? = some old) (hj : (streams.set i new)[j]? = some stream) :
    (j = i ∧ stream = new) ∨ (j ≠ i ∧ streams[j]? = some stream) := by
  obtain ⟨hlt, -⟩ := List.getElem?_eq_some_iff.mp hold
  rw [List.getElem?_set] at hj
  split_ifs at hj with hij
  · cases hj
    exact Or.inl ⟨hij.symm, rfl⟩
  · exact Or.inr ⟨fun h0 => hij h0.symm, hj⟩

/-- A request keeps what holds. -/
lemma Owned.respond (ho : h.Owned) (hs : h.respond i request passedFds env = some (h', answer)) :
    h'.Owned := by
  obtain ⟨stream, served, hstream, -, hserves, -, rfl⟩ := respond_cases hs
  obtain ⟨hbook, hsyncs, hleases⟩ := hserves.book ho.book
  obtain ⟨hauthorized, hattached, hregistered⟩ := hserves.session_cases
  refine ⟨hbook, fun x hx => ?_, ?_, fun j other hother => ?_, fun j other sync hother hsync => ?_⟩
  · show x.2 < served.producer.leaseBook.nextLeaseId
    rcases List.mem_append.mp hx with hx | hx
    · have hlt := ho.acquired x hx
      rcases hleases with ⟨-, hnext⟩ | ⟨-, hnext⟩
      · omega
      · omega
    · obtain ⟨leaseId, hleaseId, rfl⟩ := List.mem_map.mp hx
      rcases hleases with ⟨hnone, -⟩ | ⟨hone, hnext⟩
      · rw [hnone] at hleaseId
        cases hleaseId
      · rw [hone] at hleaseId
        cases List.mem_singleton.mp hleaseId
        dsimp only
        omega
  · show ((h.acquired ++ (leases served.answer).map (i, ·)).map (·.2)).Nodup
    rcases hleases with ⟨hnone, -⟩ | ⟨hone, -⟩
    · rw [hnone, List.map_nil, List.append_nil]
      exact ho.unique
    · rw [hone, List.map_append]
      refine List.nodup_append.mpr ⟨ho.unique, List.nodup_singleton _, fun a ha b hb => ?_⟩
      obtain ⟨x, hx, rfl⟩ := List.mem_map.mp ha
      cases List.mem_singleton.mp hb
      exact (ho.acquired x hx).ne
  · rcases getElem?_set_cases hstream hother with ⟨rfl, rfl⟩ | ⟨-, hold⟩
    · obtain ⟨htoken, hmay⟩ := ho.authorized j stream hstream
      constructor
      · intro hnow token hexpected
        rcases hauthorized with hsame | ⟨-, presented, rfl, hnone | hsome⟩
        · exact List.mem_append_left _ (htoken (hsame.symm.trans hnow) token hexpected)
        · rw [hnone] at hexpected
          cases hexpected
        · rw [hsome] at hexpected
          cases hexpected
          exact List.mem_append_right _ List.mem_cons_self
      · intro hnow
        rcases hattached with hsame | ⟨-, -, hsame, hmay⟩
        · rcases hmay (hsame.symm.trans hnow) with hnone | hold
          · exact Or.inl hnone
          · rcases hauthorized with hauth | ⟨hauth, -⟩
            · exact Or.inr (hauth.trans hold)
            · exact Or.inr hauth
        · exact hmay.imp_right hsame.trans
    · exact ho.authorized j other hold
  · rcases getElem?_set_cases hstream hother with ⟨rfl, rfl⟩ | ⟨-, hold⟩
    · rcases hregistered sync hsync with hbefore | hnow
      · exact hsyncs sync (ho.syncs j stream sync hstream hbefore)
      · exact hnow
    · exact hsyncs sync (ho.syncs j other sync hold hsync)

/-- **Every step keeps what holds.** -/
lemma Owned.step (ho : h.Owned) {l : HostLabel F} (hs : h.step l = some h') : h'.Owned := by
  cases l with
  | producer l =>
      obtain ⟨producer, hproducer, rfl⟩ := Option.map_eq_some_iff.mp hs
      have hbook : producer.leaseBook.Kept ∧
          producer.leaseBook.nextLeaseId = h.producer.leaseBook.nextLeaseId ∧
          producer.leaseBook.releaseSyncs = h.producer.leaseBook.releaseSyncs := by
        rcases SyntheticProducer.step_book hproducer with
          ⟨hsame, -⟩ | ⟨_, _, queries, _, -, hrefreshed, -⟩
        · rw [hsame]
          exact ⟨ho.book, rfl, rfl⟩
        · obtain ⟨hnext, -, hsyncs⟩ := refreshReleaseSyncs_frame h.producer.leaseBook queries
          rw [hrefreshed]
          exact ⟨refreshReleaseSyncs_induct (fun b sync reached hb =>
            hb.completeReleaseSync sync reached) ho.book, hnext, hsyncs⟩
      obtain ⟨hkept, hnext, hsyncs⟩ := hbook
      refine ⟨hkept, fun x hx => ?_, ho.unique, ho.authorized, fun j stream sync hj hsync => ?_⟩
      · exact hnext ▸ ho.acquired x hx
      · exact hsyncs ▸ ho.syncs j stream sync hj hsync
  | accept =>
      cases hs
      have hnew : ∀ (j : ℕ) (stream : Stream),
          (h.streams ++ [({} : Stream)])[j]? = some stream →
          h.streams[j]? = some stream ∨ stream = ({} : Stream) := by
        intro j stream hj
        rcases Nat.lt_or_ge j h.streams.length with hlt | hge
        · rw [List.getElem?_append_left hlt] at hj
          exact Or.inl hj
        · rw [List.getElem?_append_right hge] at hj
          exact Or.inr (List.mem_singleton.mp (List.mem_of_getElem? hj))
      refine ⟨ho.book, ho.acquired, ho.unique, fun j stream hj => ?_,
        fun j stream sync hj hsync => ?_⟩
      · rcases hnew j stream hj with hold | rfl
        · exact ho.authorized j stream hold
        · exact ⟨fun h0 => (nomatch h0), fun h0 => (nomatch h0)⟩
      · rcases hnew j stream hj with hold | rfl
        · exact ho.syncs j stream sync hold hsync
        · cases hsync
  | request i request passedFds env =>
      obtain ⟨⟨_, answer⟩, hrespond, rfl⟩ := Option.map_eq_some_iff.mp hs
      exact ho.respond hrespond
  | close i =>
      simp only [Host.step] at hs
      split at hs
      · cases hs
      · rename_i stream hstream
        cases hs
        refine ⟨ho.book, ho.acquired, ho.unique, fun j other hj => ?_,
          fun j other sync hj hsync => ?_⟩
        · rcases getElem?_set_cases hstream hj with ⟨rfl, rfl⟩ | ⟨-, hold⟩
          · exact ho.authorized j stream hstream
          · exact ho.authorized j other hold
        · rcases getElem?_set_cases hstream hj with ⟨rfl, rfl⟩ | ⟨-, hold⟩
          · exact ho.syncs j stream sync hstream hsync
          · exact ho.syncs j other sync hold hsync

/-- A stream that has not completed attach changes the table of consumers at most, and gets
descriptors only with the grant that attaches it. -/
lemma Owned.unattached (ho : h.Owned)
    (hs : h.respond i request passedFds env = some (h', answer)) (hattached : ¬ h.Attached i) :
    (∃ consumers, h'.producer = { h.producer with consumers }) ∧
    ∀ outbound, answer = .ok outbound → outbound.fds ≠ [] → h'.Attached i ∧ h'.Presented i := by
  have ho' := ho.respond hs
  obtain ⟨stream, served, hstream, -, hserves, rfl, rfl⟩ := respond_cases hs
  have hnot : stream.session.attach.attached = false :=
    Bool.eq_false_iff.mpr fun h0 => hattached ⟨stream, hstream, h0⟩
  obtain ⟨hproducer, hfds⟩ := hserves.of_not_attached hnot
  refine ⟨hproducer, fun outbound hok hne => ?_⟩
  obtain ⟨hlt, -⟩ := List.getElem?_eq_some_iff.mp hstream
  have hnow : Attached { h with
      producer := served.producer
      streams := h.streams.set i {
        session := served.session
        serving := served.answer.isOk
        presented := stream.presented ++ tokens request }
      acquired := h.acquired ++ (leases served.answer).map (i, ·) } i :=
    ⟨_, List.getElem?_set_self hlt, hfds outbound hok hne⟩
  exact ⟨hnow, ho'.presented hnow⟩

/-- **A request leaves the leases of the other streams**, but for a release of one of them. -/
lemma Owned.elsewhere (ho : h.Owned)
    (hs : h.respond i request passedFds env = some (h', answer)) :
    (∀ j leaseId, j ≠ i → (j, leaseId) ∈ h.acquired → h'.lease leaseId = h.lease leaseId) ↔
      ¬ h.Trespasses i request := by
  obtain ⟨stream, served, hstream, hserved, hserves, -, rfl⟩ := respond_cases hs
  constructor
  · rintro hsame ⟨other, release, j, identity, hother, hattached, rfl, hforeign, hmem, hne, hget⟩
    cases hstream.symm.trans hother
    have hchanged := onReleaseFrame_lease hforeign
      (fun sync hsync => ho.syncs i stream sync hstream hsync) hget
    refine hchanged ?_
    have hbuild : served = onReleaseFrame stream.session h.producer release := by
      rw [hserved, buildLinuxAttachResponse.eq_def, if_neg (by rw [hattached]; exact (nomatch ·.2))]
    rw [← hbuild]
    exact hsame j release.leaseId hne hmem
  · intro hnot j leaseId hne hmem
    rcases hserves.lease (ho.acquired _ hmem) with
      hsame | ⟨release, identity, rfl, rfl, hattached, hforeign, hget⟩
    · exact hsame
    · exact absurd ⟨stream, release, j, identity, hstream, hattached, rfl, hforeign, hmem, hne, hget⟩
        hnot

/-- No request of stream `j`, and none that releases a lease of another stream. -/
def Minds (j : ℕ) (h : Host F) : HostLabel F → Prop
  | .request i request _ _ => i ≠ j ∧ ¬ h.Trespasses i request
  | _ => True

/-- The leases that were recorded stay on record. -/
lemma acquired_step {l : HostLabel F} (hs : h.step l = some h') {x : ℕ × ℕ}
    (hx : x ∈ h.acquired) : x ∈ h'.acquired := by
  cases l with
  | producer l =>
      obtain ⟨producer, -, rfl⟩ := Option.map_eq_some_iff.mp hs
      exact hx
  | accept =>
      cases hs
      exact hx
  | request i request passedFds env =>
      obtain ⟨⟨_, answer⟩, hrespond, rfl⟩ := Option.map_eq_some_iff.mp hs
      obtain ⟨stream, served, -, -, -, -, rfl⟩ := respond_cases hrespond
      exact List.mem_append_left _ hx
  | close i =>
      simp only [Host.step] at hs
      split at hs
      · cases hs
      · cases hs
        exact hx

/-- What a step leaves of a lease of stream `j`. -/
lemma Owned.lease_step (ho : h.Owned) {j leaseId : ℕ} (hmem : (j, leaseId) ∈ h.acquired)
    {l : HostLabel F} (hl : Minds j h l) (hs : h.step l = some h') :
    h'.lease leaseId = h.lease leaseId ∨ ∃ identity sync value,
      h.lease leaseId = some ⟨identity, .releasePending sync value⟩ ∧ h'.lease leaseId = none := by
  cases l with
  | producer l =>
      obtain ⟨producer, hproducer, rfl⟩ := Option.map_eq_some_iff.mp hs
      rcases SyntheticProducer.step_lease hproducer leaseId with
        hsame | ⟨identity, sync, value, hget, hnone, -⟩
      · exact Or.inl hsame
      · exact Or.inr ⟨identity, sync, value, hget, hnone⟩
  | accept =>
      cases hs
      exact Or.inl rfl
  | request i request passedFds env =>
      obtain ⟨⟨_, answer⟩, hrespond, rfl⟩ := Option.map_eq_some_iff.mp hs
      exact Or.inl ((ho.elsewhere hrespond).mpr hl.2 j leaseId hl.1.symm hmem)
  | close i =>
      simp only [Host.step] at hs
      split at hs
      · cases hs
      · cases hs
        exact Or.inl rfl

/-- **Along a run** in which stream `j` asks for nothing and no lease of another stream is
released, a lease of `j` stays as it is until its own timeline resolves it. -/
lemma Owned.lease_run (ho : h.Owned) {j leaseId : ℕ} (hmem : (j, leaseId) ∈ h.acquired)
    (hrun : Reaches Host.step (Minds j) h h') :
    h'.lease leaseId = h.lease leaseId ∨ ∃ identity sync value,
      h.lease leaseId = some ⟨identity, .releasePending sync value⟩ ∧ h'.lease leaseId = none := by
  have hinv : h'.Owned ∧ (j, leaseId) ∈ h'.acquired ∧
      (h'.lease leaseId = h.lease leaseId ∨ ∃ identity sync value,
        h.lease leaseId = some ⟨identity, .releasePending sync value⟩ ∧
        h'.lease leaseId = none) := by
    refine hrun.invariant (P := fun a => a.Owned ∧ (j, leaseId) ∈ a.acquired ∧
      (a.lease leaseId = h.lease leaseId ∨ ∃ identity sync value,
        h.lease leaseId = some ⟨identity, .releasePending sync value⟩ ∧ a.lease leaseId = none))
      ⟨ho, hmem, Or.inl rfl⟩ ?_
    rintro a l b ⟨ha, hin, hlease⟩ hl hs
    refine ⟨ha.step hs, acquired_step hs hin, ?_⟩
    rcases ha.lease_step hin hl hs with hsame | ⟨identity, sync, value, hpending, hnone⟩
    · rcases hlease with hlease | ⟨identity, sync, value, hpending, hnone⟩
      · exact Or.inl (hsame.trans hlease)
      · exact Or.inr ⟨identity, sync, value, hpending, hsame.trans hnone⟩
    · rcases hlease with hlease | ⟨_, _, _, _, h0⟩
      · exact Or.inr ⟨identity, sync, value, hlease.symm.trans hpending, hnone⟩
      · rw [hpending] at h0
        cases h0
  exact hinv.2.2

/-- A producer that has just been made, without streams. -/
lemma Owned.new {endpoint : AttachEndpoint} {params : NativeStreamParams}
    {ringCapacity poolSlotCount : ℕ} {policy : PoolExhaustionPolicy} {p : SyntheticProducer F}
    (hp : SyntheticProducer.new params ringCapacity poolSlotCount policy = .ok p) :
    Owned { endpoint, producer := p } := by
  have hbook : p.leaseBook = {} := by
    rw [SyntheticProducer.new] at hp
    split at hp
    · cases hp
    · split at hp
      · cases hp
      · cases hp
        rfl
  refine ⟨?_, fun _ h0 => (nomatch h0), List.nodup_nil, fun _ _ h0 => (nomatch h0),
    fun _ _ _ h0 => (nomatch h0)⟩
  show p.leaseBook.Kept
  rw [hbook]
  exact .new

end Host

/-- **Streams are isolated but for releases.** For every producer, every endpoint, and every
interleaving of requests on any number of streams with the steps of the producer:

* a request on a stream that has not completed attach changes the table of consumers at most,
  and is answered with descriptors only when it completes the attach, on a stream that has
  presented the token of the endpoint, if there is one; every attached stream has;
* a request leaves the leases that were acquired on the other streams as they are if and only
  if it does not release one of them;
* so that, as long as no request does, a lease stays as it is until its own stream asks for
  something, or its timeline has reached its value. -/
theorem streams_isolated {endpoint : AttachEndpoint} {params : NativeStreamParams}
    {ringCapacity poolSlotCount : ℕ} {policy : PoolExhaustionPolicy} {p : SyntheticProducer F}
    (hp : SyntheticProducer.new params ringCapacity poolSlotCount policy = .ok p) {h : Host F}
    (hrun : Reaches Host.step Always { endpoint, producer := p } h) :
    (∀ i request passedFds env h' answer,
      h.respond i request passedFds env = some (h', answer) →
      (¬ h.Attached i → (∃ consumers, h'.producer = { h.producer with consumers }) ∧
        ∀ outbound, answer = .ok outbound → outbound.fds ≠ [] →
          h'.Attached i ∧ h'.Presented i) ∧
      ((∀ j leaseId, j ≠ i → (j, leaseId) ∈ h.acquired → h'.lease leaseId = h.lease leaseId) ↔
        ¬ h.Trespasses i request)) ∧
    (∀ i, h.Attached i → h.Presented i) ∧
    ∀ j leaseId h', (j, leaseId) ∈ h.acquired → Reaches Host.step (Host.Minds j) h h' →
      h'.lease leaseId = h.lease leaseId ∨ ∃ identity sync value,
        h.lease leaseId = some ⟨identity, .releasePending sync value⟩ ∧
        h'.lease leaseId = none := by
  have ho : h.Owned := hrun.invariant (.new hp) fun _ _ _ ha _ hs => ha.step hs
  refine ⟨fun i request passedFds env h' answer hs => ⟨ho.unattached hs, ho.elsewhere hs⟩,
    fun i hattached => ho.presented hattached, fun j leaseId h' hmem => ho.lease_run hmem⟩

/-- Two streams attach, and the first acquires a lease. -/
def twoAttached : List (HostLabel ℕ) :=
  [.accept, .accept,
    .request 0 (.authorize "t") none {}, .request 0 (.attach 7) none {},
    .request 1 (.authorize "t") none {}, .request 1 (.attach 8) none {},
    .request 0 (.acquireLease ⟨1, 1, 1, 0⟩) none {}]

/-- A small producer. -/
def smallProducer : Except NativeError (SyntheticProducer ℕ) :=
  SyntheticProducer.new ⟨2, 2, 1, 1, 0⟩ 2 3 .dropFrame

/-- The small producer after a script, at an endpoint with a token. -/
def smallHost (script : List (HostLabel ℕ)) : Option (Host ℕ) :=
  smallProducer.toOption.map fun p => play Host.step { endpoint := ⟨some "t"⟩, producer := p } script

lemma smallHost_run {script : List (HostLabel ℕ)} {h : Host ℕ} (hh : smallHost script = some h) :
    ∃ p, smallProducer = .ok p ∧
      Reaches Host.step Always { endpoint := ⟨some "t"⟩, producer := p } h := by
  obtain ⟨p, hp, rfl⟩ := Option.map_eq_some_iff.mp hh
  refine ⟨p, ?_, Reaches.of_play ..⟩
  cases hsmall : smallProducer with
  | error e =>
      rw [hsmall] at hp
      cases hp
  | ok q =>
      rw [hsmall] at hp
      cases hp
      rfl

/-- The second stream releases the lease of the first. -/
theorem release_crosses_streams : ∃ (p : SyntheticProducer ℕ) (h h' : Host ℕ)
    (answer : Except CaptureTransferError LinuxAttachOutbound), smallProducer = .ok p ∧
    Reaches Host.step Always { endpoint := ⟨some "t"⟩, producer := p } h ∧
    h.respond 1 (.releaseFrame (.now 1)) none {} = some (h', answer) ∧
    (0, 1) ∈ h.acquired ∧ h.lease 1 = some ⟨⟨1, 1, 1, 0⟩, .outstanding⟩ ∧ h'.lease 1 = none := by
  have hcheck : ((smallHost twoAttached).bind fun h =>
      (h.respond 1 (.releaseFrame (.now 1)) none {}).map fun x =>
        decide ((0, 1) ∈ h.acquired ∧ h.lease 1 = some ⟨⟨1, 1, 1, 0⟩, .outstanding⟩ ∧
          x.1.lease 1 = none)) = some true := by decide +kernel
  obtain ⟨h, hh, hx⟩ := Option.bind_eq_some_iff.mp hcheck
  obtain ⟨⟨h', answer⟩, hrespond, hall⟩ := Option.map_eq_some_iff.mp hx
  obtain ⟨p, hp, hrun⟩ := smallHost_run hh
  exact ⟨p, h, h', answer, hp, hrun, hrespond, of_decide_eq_true hall⟩

theorem streams_isolated_twoAttached : ∃ h : Host ℕ, smallHost twoAttached = some h ∧
    (∀ i request passedFds env h' answer,
      h.respond i request passedFds env = some (h', answer) →
      (¬ h.Attached i → (∃ consumers, h'.producer = { h.producer with consumers }) ∧
        ∀ outbound, answer = .ok outbound → outbound.fds ≠ [] →
          h'.Attached i ∧ h'.Presented i) ∧
      ((∀ j leaseId, j ≠ i → (j, leaseId) ∈ h.acquired → h'.lease leaseId = h.lease leaseId) ↔
        ¬ h.Trespasses i request)) ∧
    (∀ i, h.Attached i → h.Presented i) ∧
    ∀ j leaseId h', (j, leaseId) ∈ h.acquired → Reaches Host.step (Host.Minds j) h h' →
      h'.lease leaseId = h.lease leaseId ∨ ∃ identity sync value,
        h.lease leaseId = some ⟨identity, .releasePending sync value⟩ ∧
        h'.lease leaseId = none := by
  obtain ⟨h, hh⟩ : ∃ h, smallHost twoAttached = some h :=
    Option.isSome_iff_exists.mp (by decide +kernel)
  obtain ⟨p, hp, hrun⟩ := smallHost_run hh
  exact ⟨h, hh, streams_isolated hp hrun⟩

end Jackstay.Native
