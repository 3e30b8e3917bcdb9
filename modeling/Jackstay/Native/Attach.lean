import Jackstay.Native.Synthetic

/-!
`native/attach.rs` and `native/linux.rs`: how a consumer attaches to a native producer over a
stream, and what it may ask for then.

A stream is authorised when it has presented the token of the endpoint, and attached when it
has been granted the descriptors of the page, of the pool and of the fence. Pools, leases and
releases are asked for on an attached stream. The requests of all streams are served one by
one, under the lock of the producer, so that none is served while a frame is published.

A handle is described by its place in a list of file descriptors, which cross with the answer.
What the system answers to the calls of a request comes with the request, also what the
backend exports: `RequestEnv`. An answer that cannot be encoded ends the stream.

* `constantTimeTokenEq_iff`: the comparison of tokens is an equality.
* `Host.respond`: a request is served. `Host.step`: all that may happen.
-/

namespace Jackstay.Native

open Video

/-- `CaptureTransferError`, as far as a stream meets it. -/
inductive CaptureTransferError where
  | fdPassing (operation message : String)
  | missingPassedFd
  | sharedMemory (operation message : String)
  | nativeBackend (operation message : String)
  | surfacePoolExhausted (slotCount : ℕ)
  deriving DecidableEq, Repr

/-- The text of an error. -/
def CaptureTransferError.toString : CaptureTransferError → String
  | .fdPassing operation message => s!"fd passing {operation} failed: {message}"
  | .missingPassedFd => "fd passing response did not include a file descriptor"
  | .sharedMemory operation message => s!"shared memory {operation} failed: {message}"
  | .nativeBackend operation message => s!"native frame backend {operation} failed: {message}"
  | .surfacePoolExhausted slotCount =>
      s!"surface pool exhausted: all {slotCount} surfaces are held by consumers or live in the ring"

/-- The errors of the producer are errors of the crate. -/
def CaptureTransferError.ofNative : NativeError → CaptureTransferError
  | .nativeBackend operation message => .nativeBackend operation message
  | .surfacePoolExhausted slotCount => .surfacePoolExhausted slotCount

/-! ### Messages and handles -/

/-- A file descriptor. -/
abbrev Fd := ℕ

/-- `LinuxPlaneDescriptor`. -/
structure LinuxPlaneDescriptor where
  fdIndex : ℕ
  offset : ℕ
  stride : ℕ
  deriving DecidableEq, Repr

/-- `LinuxSurfaceDescriptor`. -/
structure LinuxSurfaceDescriptor where
  handleKind : ℕ
  width : ℕ
  height : ℕ
  pixelFormat : ℕ
  modifier : ℕ
  planes : List LinuxPlaneDescriptor
  deriving DecidableEq, Repr

/-- `LinuxPoolDescriptor`. -/
structure LinuxPoolDescriptor where
  poolId : ℕ
  surfaces : List LinuxSurfaceDescriptor
  deriving DecidableEq, Repr

/-- `LinuxSyncDescriptor`. -/
structure LinuxSyncDescriptor where
  syncKind : ℕ
  syncId : ℕ
  fdIndex : ℕ
  deriving DecidableEq, Repr

/-- `LinuxReleaseDescriptor`. -/
inductive LinuxReleaseDescriptor where
  | now (leaseId : ℕ)
  | timelineValue (leaseId releaseSyncId value : ℕ)
  deriving DecidableEq, Repr

/-- `lease_id`. -/
def LinuxReleaseDescriptor.leaseId : LinuxReleaseDescriptor → ℕ
  | .now leaseId => leaseId
  | .timelineValue leaseId _ _ => leaseId

/-- `release`. -/
def LinuxReleaseDescriptor.release : LinuxReleaseDescriptor → NativeLeaseRelease
  | .now _ => .now
  | .timelineValue _ releaseSyncId value => .timelineValue releaseSyncId value

/-- `LinuxAttachGrant`. -/
structure LinuxAttachGrant where
  consumerId : ℕ
  consumerSlot : ℕ
  ringFdIndex : ℕ
  ringMapLen : ℕ
  pools : List LinuxPoolDescriptor
  producerSync : LinuxSyncDescriptor
  deriving DecidableEq, Repr

/-- `LinuxAttachRequest`. -/
inductive LinuxAttachRequest where
  | authorize (bearerToken : String)
  | attach (consumerId : ℕ)
  | getPool (poolId : ℕ)
  | acquireLease (identity : NativeLeaseIdentity)
  | registerReleaseSync (sync : LinuxSyncDescriptor)
  | releaseFrame (release : LinuxReleaseDescriptor)
  deriving DecidableEq, Repr

/-- `LinuxAttachResponse`. -/
inductive LinuxAttachResponse where
  | authorized
  | granted (grant : LinuxAttachGrant)
  | pool (pool : LinuxPoolDescriptor)
  | leaseAcquired (leaseId : ℕ)
  | releaseSyncRegistered (releaseSyncId : ℕ)
  | frameReleased
  | error (code message : String)
  deriving DecidableEq, Repr

/-- `LinuxAttachOutbound`: an answer and the descriptors that cross with it. -/
structure LinuxAttachOutbound where
  response : LinuxAttachResponse
  fds : List Fd := []
  deriving DecidableEq, Repr

/-- `LinuxDmabufPlaneHandle`. -/
structure LinuxDmabufPlaneHandle where
  fd : Fd
  offset : ℕ
  stride : ℕ
  deriving DecidableEq, Repr

/-- `LinuxSurfaceHandle`. -/
structure LinuxSurfaceHandle where
  handleKind : ℕ
  width : ℕ
  height : ℕ
  pixelFormat : ℕ
  modifier : ℕ
  planes : List LinuxDmabufPlaneHandle
  deriving DecidableEq, Repr

/-- `LinuxSyncHandle`. -/
structure LinuxSyncHandle where
  syncKind : ℕ
  syncId : ℕ
  fd : Fd
  deriving DecidableEq, Repr

/-- `AttachGrant`. -/
structure AttachGrant where
  consumerId : ℕ
  consumerSlot : ℕ
  ringFd : Fd
  ringMapLen : ℕ
  poolId : ℕ
  poolSlotCount : ℕ
  surfaceHandles : List LinuxSurfaceHandle
  fenceId : ℕ
  syncHandle : LinuxSyncHandle
  deriving DecidableEq, Repr

/-- `AttachPool`. -/
structure AttachPool where
  poolId : ℕ
  poolSlotCount : ℕ
  surfaceHandles : List LinuxSurfaceHandle
  deriving DecidableEq, Repr

/-! ### Descriptors in their table -/

/-- `LINUX_ATTACH_MAX_PLANES`. -/
def linuxAttachMaxPlanes : ℕ := 4

/-- `LINUX_ATTACH_MAX_FDS`. -/
def linuxAttachMaxFds : ℕ := 253

/-- `validate_fd_index`. -/
def validateFdIndex (kind : String) (fdIndex fdCount : ℕ) : Except CaptureTransferError Unit :=
  if fdIndex < fdCount then .ok ()
  else .error (.fdPassing "validate-linux-attach"
    s!"{kind} fd_index {fdIndex} outside fd table length {fdCount}")

/-- `validate_fd_indices` of a sync descriptor. -/
def LinuxSyncDescriptor.validateFdIndices (sync : LinuxSyncDescriptor) (fdCount : ℕ) :
    Except CaptureTransferError Unit := validateFdIndex "sync" sync.fdIndex fdCount

/-- The error of a surface with no plane, or with too many. -/
def planesError (operation : String) (count : ℕ) : CaptureTransferError :=
  .fdPassing operation s!"surface has {count} planes; expected 1..={linuxAttachMaxPlanes}"

/-- `validate_fd_indices` of a surface descriptor. -/
def LinuxSurfaceDescriptor.validateFdIndices (surface : LinuxSurfaceDescriptor) (fdCount : ℕ) :
    Except CaptureTransferError Unit :=
  if surface.planes = [] ∨ linuxAttachMaxPlanes < surface.planes.length then
    .error (planesError "validate-linux-attach" surface.planes.length)
  else surface.planes.forM fun plane => validateFdIndex "dmabuf-plane" plane.fdIndex fdCount

/-- `validate_fd_indices` of a grant. -/
def LinuxAttachGrant.validateFdIndices (grant : LinuxAttachGrant) (fdCount : ℕ) :
    Except CaptureTransferError Unit := do
  validateFdIndex "ring-fd" grant.ringFdIndex fdCount
  grant.producerSync.validateFdIndices fdCount
  grant.pools.forM fun pool => pool.surfaces.forM fun surface =>
    surface.validateFdIndices fdCount

/-- `push_fd`: the index of the descriptor, and the longer table. -/
def pushFd (fds : List Fd) (fd : Fd) : Except CaptureTransferError (ℕ × List Fd) :=
  if linuxAttachMaxFds ≤ fds.length then
    .error (.fdPassing "encode-linux-attach-grant"
      s!"fd table cannot exceed {linuxAttachMaxFds} fds")
  else .ok (fds.length, fds ++ [fd])

/-- The planes of a surface, one after the other. -/
def encodeLinuxPlanes (fds : List Fd) :
    List LinuxDmabufPlaneHandle → Except CaptureTransferError (List LinuxPlaneDescriptor × List Fd)
  | [] => .ok ([], fds)
  | plane :: planes => do
      let (fdIndex, fds) ← pushFd fds plane.fd
      let (rest, fds) ← encodeLinuxPlanes fds planes
      return (⟨fdIndex, plane.offset, plane.stride⟩ :: rest, fds)

/-- The surfaces of a pool, one after the other. -/
def encodeLinuxSurfaces (fds : List Fd) :
    List LinuxSurfaceHandle → Except CaptureTransferError (List LinuxSurfaceDescriptor × List Fd)
  | [] => .ok ([], fds)
  | surface :: surfaces =>
      if surface.planes = [] ∨ linuxAttachMaxPlanes < surface.planes.length then
        .error (planesError "encode-linux-attach-pool" surface.planes.length)
      else do
        let (planes, fds) ← encodeLinuxPlanes fds surface.planes
        let (rest, fds) ← encodeLinuxSurfaces fds surfaces
        return (⟨surface.handleKind, surface.width, surface.height, surface.pixelFormat,
          surface.modifier, planes⟩ :: rest, fds)

/-- `encode_linux_pool_descriptor`. -/
def encodeLinuxPoolDescriptor (poolId : ℕ) (surfaceHandles : List LinuxSurfaceHandle)
    (fds : List Fd) : Except CaptureTransferError (LinuxPoolDescriptor × List Fd) := do
  let (surfaces, fds) ← encodeLinuxSurfaces fds surfaceHandles
  return (⟨poolId, surfaces⟩, fds)

/-- `encode_linux_attach_grant`. -/
def encodeLinuxAttachGrant (grant : AttachGrant) :
    Except CaptureTransferError (LinuxAttachGrant × List Fd) := do
  let (ringFdIndex, fds) ← pushFd [] grant.ringFd
  let (pool, fds) ← encodeLinuxPoolDescriptor grant.poolId grant.surfaceHandles fds
  let (fdIndex, fds) ← pushFd fds grant.syncHandle.fd
  let encoded : LinuxAttachGrant := {
    consumerId := grant.consumerId
    consumerSlot := grant.consumerSlot
    ringFdIndex
    ringMapLen := grant.ringMapLen
    pools := [pool]
    producerSync := ⟨grant.syncHandle.syncKind, grant.syncHandle.syncId, fdIndex⟩ }
  encoded.validateFdIndices fds.length
  return (encoded, fds)

/-- `encode_linux_attach_pool`. -/
def encodeLinuxAttachPool (pool : AttachPool) :
    Except CaptureTransferError (LinuxPoolDescriptor × List Fd) :=
  if pool.poolSlotCount ≠ pool.surfaceHandles.length then
    .error (.fdPassing "encode-linux-attach-pool"
      (s!"pool {pool.poolId} declares {pool.poolSlotCount} slots but " ++
        s!"exports {pool.surfaceHandles.length} surfaces"))
  else do
    let (pool, fds) ← encodeLinuxPoolDescriptor pool.poolId pool.surfaceHandles []
    pool.surfaces.forM fun surface => surface.validateFdIndices fds.length
    return (pool, fds)

/-! ### The endpoint -/

/-- `AttachError`. -/
inductive AttachError where
  | notAuthorized
  | invalidToken
  | alreadyAttached
  | grant (error : CaptureTransferError)
  deriving DecidableEq, Repr

/-- The text of an error of the endpoint. -/
def AttachError.toString : AttachError → String
  | .notAuthorized => "attach requires authorization first"
  | .invalidToken => "bearer token rejected"
  | .alreadyAttached => "consumer is already attached on this session"
  | .grant error => "assembling the attach grant failed: " ++ error.toString

/-- `AttachSession`. -/
structure AttachSession where
  authorized : Bool := false
  attached : Bool := false
  deriving DecidableEq, Repr

/-- `AttachEndpoint`. -/
structure AttachEndpoint where
  expectedBearer : Option String
  deriving DecidableEq, Repr

/-- What the system answers to the calls that a request makes. -/
structure RequestEnv where
  /-- the number that `NEXT_ASSIGNED_CONSUMER_ID` gives out -/
  assigned : ℕ := 1
  /-- `try_clone_fd` and `mapped_len` of the page -/
  ringFd : Except CaptureTransferError Fd := .ok 0
  ringMapLen : ℕ := 0
  /-- `export_surface_handles` -/
  surfaceHandles : Except CaptureTransferError (List LinuxSurfaceHandle) := .ok []
  /-- `export_sync_handle` -/
  syncHandle : Except CaptureTransferError LinuxSyncHandle := .ok ⟨2, 1, 0⟩
  /-- `import_syncobj_timeline_fd` -/
  imported : Except NativeError Unit := .ok ()

/-- The bytes of a token. -/
def bytes (token : String) : List UInt8 := token.toUTF8.data.toList

/-- `constant_time_token_eq`. -/
def constantTimeTokenEq (expected presented : String) : Bool :=
  if (bytes expected).length ≠ (bytes presented).length then false
  else ((bytes expected).zip (bytes presented)).foldl (fun acc x => acc ||| (x.1 ^^^ x.2)) 0 == 0

/-- `register_consumer_cursor`: the entry of the consumer, and the table. -/
def registerConsumerCursor (consumers : List ℕ) (consumerId : ℕ) :
    Except CaptureTransferError (ℕ × List ℕ) :=
  let operation := "validate-control-page"
  if consumerId = 0 then .error (.sharedMemory operation "consumer id must be non-zero")
  else match consumers.findIdx? (· == consumerId) with
    | some index => .ok (index, consumers)
    | none =>
        match consumers.findIdx? (· == 0) with
        | some index => .ok (index, consumers.set index consumerId)
        | none => .error (.sharedMemory operation "consumer cursor table is full")

variable {F : Type}

/-- `grant_attach`. A consumer stays registered when the rest fails. -/
def SyntheticProducer.grantAttach (s : SyntheticProducer F) (consumerId : ℕ) (env : RequestEnv) :
    SyntheticProducer F × Except CaptureTransferError AttachGrant :=
  match registerConsumerCursor s.consumers consumerId with
  | .error e => (s, .error e)
  | .ok (consumerSlot, consumers) =>
      ({ s with consumers }, do
        let ringFd ← env.ringFd
        let surfaceHandles ← env.surfaceHandles
        let syncHandle ← env.syncHandle
        return {
          consumerId, consumerSlot, ringFd
          ringMapLen := env.ringMapLen
          poolId := s.track.pool
          poolSlotCount := s.track.poolSlotCount
          surfaceHandles
          fenceId := s.track.backend.fenceId
          syncHandle })

/-- `export_pool`. -/
def SyntheticProducer.exportPool (s : SyntheticProducer F) (poolId : ℕ) (env : RequestEnv) :
    Except CaptureTransferError AttachPool :=
  if s.track.pool = poolId ∨ poolId ∈ s.track.retiredPools then do
    let surfaceHandles ← env.surfaceHandles
    return ⟨poolId, surfaceHandles.length % 2 ^ 32, surfaceHandles⟩
  else .error (.nativeBackend "export-native-pool"
    s!"pool id {poolId} is not active or recently retired")

/-- `AttachEndpoint::handle`, for `Authorize`. -/
def AttachEndpoint.authorize (endpoint : AttachEndpoint) (session : AttachSession)
    (bearerToken : String) : AttachSession × Except AttachError Unit :=
  match endpoint.expectedBearer with
  | some expected =>
      if constantTimeTokenEq expected bearerToken then ({ session with authorized := true }, .ok ())
      else (session, .error .invalidToken)
  | none => ({ session with authorized := true }, .ok ())

/-- `AttachEndpoint::handle`, for `Attach`. -/
def AttachEndpoint.attach (endpoint : AttachEndpoint) (session : AttachSession)
    (s : SyntheticProducer F) (consumerId : ℕ) (env : RequestEnv) :
    AttachSession × SyntheticProducer F × Except AttachError AttachGrant :=
  if endpoint.expectedBearer.isSome ∧ session.authorized = false then
    (session, s, .error .notAuthorized)
  else if session.attached then (session, s, .error .alreadyAttached)
  else
    let consumerId := if consumerId = 0 then 2 ^ 63 ||| env.assigned else consumerId
    match s.grantAttach consumerId env with
    | (s, .error e) => (session, s, .error (.grant e))
    | (s, .ok grant) => ({ session with attached := true }, s, .ok grant)

/-! ### Streams -/

/-- `LinuxRegisteredReleaseSync`. -/
structure LinuxRegisteredReleaseSync where
  descriptor : LinuxSyncDescriptor
  fds : List Fd
  deriving DecidableEq, Repr

/-- `LinuxAttachStreamSession`. -/
structure LinuxAttachStreamSession where
  attach : AttachSession := {}
  nextReleaseSyncId : ℕ := 1
  releaseSyncs : BTreeMap LinuxRegisteredReleaseSync := .empty

/-- `linux_attach_error_response`. -/
def linuxAttachErrorResponse (error : AttachError) : LinuxAttachResponse :=
  let code := match error with
    | .notAuthorized => "not_authorized"
    | .invalidToken => "invalid_token"
    | .alreadyAttached => "already_attached"
    | .grant _ => "grant_failed"
  .error code error.toString

/-- `linux_native_error_response`. -/
def linuxNativeErrorResponse (error : CaptureTransferError) : LinuxAttachResponse :=
  .error "native_backend" error.toString

/-- `Vec::swap_remove`, without the element. -/
def swapRemove {α : Type*} (xs : List α) (i : ℕ) : List α :=
  match xs.getLast? with
  | some last => (xs.set i last).dropLast
  | none => []

/-- A stream, as its server has it. `presented` is a history variable: the tokens that came
with `Authorize`. -/
structure Stream where
  session : LinuxAttachStreamSession := {}
  serving : Bool := true
  presented : List String := []

/-- What one request comes to: the session, the producer, and the answer or the error that
ends the stream. -/
structure Served (F : Type) where
  session : LinuxAttachStreamSession
  producer : SyntheticProducer F
  answer : Except CaptureTransferError LinuxAttachOutbound

/-- An answer without descriptors. -/
def Served.json (session : LinuxAttachStreamSession) (producer : SyntheticProducer F)
    (response : LinuxAttachResponse) : Served F :=
  ⟨session, producer, .ok { response }⟩

/-- Whether the request is part of the handshake. -/
def LinuxAttachRequest.isHandshake : LinuxAttachRequest → Bool
  | .authorize _ => true
  | .attach _ => true
  | _ => false

/-- `RegisterReleaseSync`, on an attached stream. -/
def onRegisterReleaseSync (session : LinuxAttachStreamSession) (s : SyntheticProducer F)
    (sync : LinuxSyncDescriptor) (passedFds : Option (List Fd)) (env : RequestEnv) : Served F :=
  match passedFds with
  | none => ⟨session, s, .error (.fdPassing "linux-register-release-sync"
      "register release sync request did not include passed fds")⟩
  | some fds =>
      match sync.validateFdIndices fds.length with
      | .error e => .json session s (.error "invalid_argument" e.toString)
      | .ok () =>
          match s.registerLinuxReleaseSync sync.syncKind env.imported with
          | (s, .error e) => .json session s (linuxNativeErrorResponse (.ofNative e))
          | (s, .ok releaseSyncId) =>
              let session := { session with
                nextReleaseSyncId :=
                  max session.nextReleaseSyncId (saturatingSucc 64 releaseSyncId)
                releaseSyncs := session.releaseSyncs.insert releaseSyncId
                  ⟨sync, swapRemove fds sync.fdIndex⟩ }
              .json session s (.releaseSyncRegistered releaseSyncId)

/-- The timeline of a release, when it is not one of this stream. -/
def LinuxAttachStreamSession.foreignSync (session : LinuxAttachStreamSession) :
    LinuxReleaseDescriptor → Option ℕ
  | .now _ => none
  | .timelineValue _ releaseSyncId _ =>
      if (session.releaseSyncs.get releaseSyncId).isNone then some releaseSyncId else none

/-- `ReleaseFrame`, on an attached stream. -/
def onReleaseFrame (session : LinuxAttachStreamSession) (s : SyntheticProducer F)
    (release : LinuxReleaseDescriptor) : Served F :=
  match session.foreignSync release with
  | some releaseSyncId => .json session s (.error "invalid_state"
      s!"release sync id {releaseSyncId} is not registered on this attach stream")
  | none =>
      match s.releaseLinuxLease release.leaseId release.release with
      | (s, .ok ()) => .json session s .frameReleased
      | (s, .error e) => .json session s (linuxNativeErrorResponse (.ofNative e))

/-- `GetPool`, on an attached stream. -/
def onGetPool (session : LinuxAttachStreamSession) (s : SyntheticProducer F) (poolId : ℕ)
    (env : RequestEnv) : Served F :=
  match s.exportPool poolId env with
  | .ok pool =>
      ⟨session, s, do
        let (pool, fds) ← encodeLinuxAttachPool pool
        return { response := .pool pool, fds }⟩
  | .error (.nativeBackend _ _) => .json session s (.error "not_found"
      s!"pool id {poolId} is not active or recently retired")
  | .error e => .json session s (linuxNativeErrorResponse e)

/-- `build_linux_attach_response`. -/
def buildLinuxAttachResponse (endpoint : AttachEndpoint) (session : LinuxAttachStreamSession)
    (s : SyntheticProducer F) (request : LinuxAttachRequest) (passedFds : Option (List Fd))
    (env : RequestEnv) : Served F :=
  if request.isHandshake = false ∧ session.attach.attached = false then
    .json session s (.error "not_authorized" "attach stream operations require a completed attach")
  else match request with
    | .authorize bearerToken =>
        match endpoint.authorize session.attach bearerToken with
        | (attach, .ok ()) => .json { session with attach } s .authorized
        | (attach, .error e) => .json { session with attach } s (linuxAttachErrorResponse e)
    | .attach consumerId =>
        match endpoint.attach session.attach s consumerId env with
        | (attach, s, .ok grant) =>
            ⟨{ session with attach }, s, do
              let (grant, fds) ← encodeLinuxAttachGrant grant
              return { response := .granted grant, fds }⟩
        | (attach, s, .error e) => .json { session with attach } s (linuxAttachErrorResponse e)
    | .getPool poolId => onGetPool session s poolId env
    | .acquireLease identity =>
        match s.acquireLinuxLease identity with
        | (s, .ok leaseId) => .json session s (.leaseAcquired leaseId)
        | (s, .error e) => .json session s (linuxNativeErrorResponse (.ofNative e))
    | .registerReleaseSync sync => onRegisterReleaseSync session s sync passedFds env
    | .releaseFrame release => onReleaseFrame session s release

/-! ### The producer and its streams -/

/-- **The producer with all its streams.** `acquired` is a history variable: the leases that
were recorded, each with its stream. -/
structure Host (F : Type) where
  endpoint : AttachEndpoint
  producer : SyntheticProducer F
  streams : List Stream := []
  acquired : List (ℕ × ℕ) := []

/-- What may happen next to the producer and its streams. -/
inductive HostLabel (F : Type) where
  /-- a step of the producer -/
  | producer (l : SyntheticLabel F)
  /-- a consumer has connected -/
  | accept
  /-- a request is served -/
  | request (i : ℕ) (request : LinuxAttachRequest) (passedFds : Option (List Fd))
    (env : RequestEnv)
  /-- a consumer is gone -/
  | close (i : ℕ)

namespace Host

/-- The tokens that the request presents. -/
def tokens : LinuxAttachRequest → List String
  | .authorize bearerToken => [bearerToken]
  | _ => []

/-- The leases that the answer gives out. -/
def leases : Except CaptureTransferError LinuxAttachOutbound → List ℕ
  | .ok ⟨.leaseAcquired leaseId, _⟩ => [leaseId]
  | _ => []

/-- A request is served, and the answer to it; none when the stream is not there, or the
producer is busy. -/
def respond (h : Host F) (i : ℕ) (request : LinuxAttachRequest) (passedFds : Option (List Fd))
    (env : RequestEnv) : Option (Host F × Except CaptureTransferError LinuxAttachOutbound) :=
  match h.streams[i]? with
  | none => none
  | some stream =>
      if stream.serving ∧ h.producer.track.pc = .idle then
        let served := buildLinuxAttachResponse h.endpoint stream.session h.producer request
          passedFds env
        let stream := {
          session := served.session
          serving := served.answer.isOk
          presented := stream.presented ++ tokens request }
        some ({ h with
          producer := served.producer
          streams := h.streams.set i stream
          acquired := h.acquired ++ (leases served.answer).map (i, ·) }, served.answer)
      else none

/-- **One step of the producer and its streams.** -/
def step (h : Host F) : HostLabel F → Option (Host F)
  | .producer l => (h.producer.step l).map fun producer => { h with producer }
  | .accept => some { h with streams := h.streams ++ [{}] }
  | .request i request passedFds env => (h.respond i request passedFds env).map (·.1)
  | .close i =>
      match h.streams[i]? with
      | none => none
      | some stream => some { h with streams := h.streams.set i { stream with serving := false } }

end Host

/-! ### Tokens -/

/-- The differences gather in the accumulator. -/
lemma foldl_or_xor_eq_zero {xs ys : List UInt8} (hlength : xs.length = ys.length) :
    ∀ acc : UInt8, (xs.zip ys).foldl (fun acc x => acc ||| (x.1 ^^^ x.2)) acc = 0 ↔
      acc = 0 ∧ xs = ys := by
  induction xs generalizing ys with
  | nil =>
      intro acc
      cases ys with
      | nil => exact ⟨fun h => ⟨h, rfl⟩, fun h => h.1⟩
      | cons y ys => cases hlength
  | cons x xs ih =>
      intro acc
      cases ys with
      | nil => cases hlength
      | cons y ys =>
          rw [List.zip_cons_cons, List.foldl_cons, ih (Nat.succ.inj hlength), UInt8.or_eq_zero_iff,
            UInt8.xor_eq_zero_iff, List.cons.injEq, and_assoc]

/-- **The comparison of tokens is an equality.** -/
lemma constantTimeTokenEq_iff {expected presented : String} :
    constantTimeTokenEq expected presented = true ↔ expected = presented := by
  have hbytes : bytes expected = bytes presented ↔ expected = presented := by
    rw [bytes, bytes, Array.toList_inj, ← ByteArray.ext_iff]
    exact String.toByteArray_inj
  rw [constantTimeTokenEq, ← hbytes]
  by_cases hlength : (bytes expected).length = (bytes presented).length
  · rw [if_neg (not_not.mpr hlength), beq_iff_eq, foldl_or_xor_eq_zero hlength]
    exact and_iff_right rfl
  · rw [if_pos hlength]
    constructor
    · intro h0
      cases h0
    · intro hsame
      exact absurd (congrArg List.length hsame) hlength

end Jackstay.Native
