import Jackstay.Video.Configs

/-!
`ft_native_poll_event` of `ffi_native.rs`: the control events of a consumer of native frames.

A consumer compares the generation of the latest entry with that of its last event. When it is
newer the stream has changed; a pool that the consumer does not know is fetched and announced,
and the pool of the last event is taken back. What is left to say is queued. At the attach the
first pool comes with the grant, and the first generation from the page: the last config that
`config_snapshot` can read.

The grant is made between two calls of the producer. The loads of the consumer and the stores
of the producer are steps of their own; what a fetch answers, and whether the peer has closed
the stream, comes with the call. Its pointers are valid, and a pool is its id. `events` and
`quiet` are history variables: what was delivered, and that no push has begun since the poll.

* `FtNativeAttach.beginPoll`, `FtNativeAttach.endPoll`: a poll, before and after its read of the
  latest entry.
* `Watch.step`: one step of a producer and of a consumer of its page.
-/

namespace Jackstay.Native

open Transition Video

/-- What a call returns. -/
inductive FtStatus where
  | ok
  | empty
  | invalidArgument
  | error
  | unsupported
  | invalidState
  deriving DecidableEq, Repr

/-- How a fetch of a pool fails. -/
inductive FetchError where
  | invalidArgument
  | error
  | unsupported
  | invalidState
  deriving DecidableEq, Repr

/-- The status of a fetch that has failed. -/
def FetchError.status : FetchError → FtStatus
  | .invalidArgument => .invalidArgument
  | .error => .error
  | .unsupported => .unsupported
  | .invalidState => .invalidState

/-- The kind of a control event. -/
inductive FtNativeEventKind where
  | poolAdded
  | poolRemoved
  | streamConfigChanged
  | producerStopped
  deriving DecidableEq, Repr

/-- `FtNativeEvent`. -/
structure FtNativeEvent where
  kind : FtNativeEventKind
  poolId : ℕ
  configGeneration : ℕ
  deriving DecidableEq, Repr

/-- `FtNativeAttach`. -/
structure FtNativeAttach where
  /-- the pools of the grant -/
  pools : List ℕ
  dynamicPools : List ℕ := []
  pendingEvents : List FtNativeEvent := []
  lastEventConfigGeneration : ℕ
  lastEventPoolId : ℕ
  producerStopped : Bool := false
  producerStoppedEventEmitted : Bool := false
  deriving DecidableEq, Repr

namespace FtNativeAttach

/-- `from_unix_socket`, with the pools of the grant and the last config of the page. -/
def fromUnixSocket (pools : List ℕ) (latestConfigGeneration : ℕ) : FtNativeAttach where
  pools := pools
  lastEventConfigGeneration := latestConfigGeneration
  -- the encoder puts the pool of the producer into every grant
  lastEventPoolId := pools.head?.getD 0

/-- `known_pool`. -/
def knownPool (a : FtNativeAttach) (poolId : ℕ) : Option ℕ :=
  (a.pools ++ a.dynamicPools).find? (· = poolId)

/-- `import_linux_pool`. -/
def importLinuxPool (a : FtNativeAttach) (poolId : ℕ) : FtNativeAttach :=
  { a with dynamicPools := a.dynamicPools ++ [poolId] }

/-- `ft_native_poll_event`, up to its read of the latest entry. -/
def beginPoll (a : FtNativeAttach) (peerClosed : Bool) : FtNativeAttach × Option FtNativeEvent :=
  match a.pendingEvents with
  | event :: rest => ({ a with pendingEvents := rest }, some event)
  | [] =>
      -- `observe_producer_stopped`
      let a := { a with producerStopped := a.producerStopped || peerClosed }
      if a.producerStopped ∧ ¬ a.producerStoppedEventEmitted then
        ({ a with producerStoppedEventEmitted := true },
          some ⟨.producerStopped, 0, a.lastEventConfigGeneration⟩)
      else (a, none)

/-- The stream has changed, and the consumer did not know the pool, which has been fetched. -/
def addPool (a : FtNativeAttach) (poolId generation : ℕ) : FtNativeAttach × FtNativeEvent :=
  let previousPoolId := a.lastEventPoolId
  let poolChanged := previousPoolId ≠ 0 ∧ previousPoolId ≠ poolId
  let a := { a.importLinuxPool poolId with
    lastEventConfigGeneration := generation
    lastEventPoolId := poolId }
  if poolChanged then
    ({ a with
        pendingEvents := a.pendingEvents ++
          [⟨.poolAdded, poolId, generation⟩, ⟨.streamConfigChanged, poolId, generation⟩] },
      ⟨.poolRemoved, previousPoolId, generation⟩)
  else
    ({ a with pendingEvents := a.pendingEvents ++ [⟨.streamConfigChanged, poolId, generation⟩] },
      ⟨.poolAdded, poolId, generation⟩)

/-- The stream has changed, and the consumer knows the pool. -/
def changePool (a : FtNativeAttach) (poolId generation : ℕ) : FtNativeAttach × FtNativeEvent :=
  let previousPoolId := a.lastEventPoolId
  let poolChanged := previousPoolId ≠ 0 ∧ previousPoolId ≠ poolId
  let removed := if poolChanged then [⟨.poolRemoved, previousPoolId, generation⟩] else []
  ({ a with
      lastEventConfigGeneration := generation
      lastEventPoolId := poolId
      pendingEvents := a.pendingEvents ++ removed },
    ⟨.streamConfigChanged, poolId, generation⟩)

/-- `ft_native_poll_event`, with the pool and the generation of the latest entry, and with what
`fetch_linux_pool` answers. -/
def endPoll (a : FtNativeAttach) (latest : Option (ℕ × ℕ)) (fetched : Except FetchError Unit) :
    FtNativeAttach × FtStatus × Option FtNativeEvent :=
  match latest with
  | none => (a, .empty, none)
  | some (poolId, generation) =>
      if generation = 0 ∨ generation ≤ a.lastEventConfigGeneration then (a, .empty, none)
      else match a.knownPool poolId, fetched with
        | none, .error e => (a, e.status, none)
        | none, .ok () => ((a.addPool poolId generation).1, .ok, (a.addPool poolId generation).2)
        | some _, _ =>
            ((a.changePool poolId generation).1, .ok, (a.changePool poolId generation).2)

end FtNativeAttach

/-! ### A producer and a consumer -/

/-- Where a consumer is. -/
inductive ConsumerPc where
  | detached
  /-- the grant has arrived -/
  | granted
  /-- `config_snapshot`, before the first load of the sequence word of this config -/
  | configFirst (generation latest found : ℕ)
  /-- before the second load of it -/
  | configSecond (generation latest first found : ℕ)
  /-- with what `latest_config_generation` has returned -/
  | attaching (found : ℕ)
  | idle
  /-- `ft_native_poll_event`, before `latest_cursor` -/
  | polling
  /-- in `read_entry_for_cursor` -/
  | reading
  deriving DecidableEq, Repr

/-- A producer, and a consumer of its page. -/
structure Watch (F : Type) where
  producer : NativeTrackProducer F
  pc : ConsumerPc := .detached
  attach : FtNativeAttach := .fromUnixSocket [] 0
  /-- what the last poll has returned -/
  status : Option FtStatus := none
  events : List FtNativeEvent := []
  quiet : Bool := false

/-- What may happen next. -/
inductive WatchLabel (F : Type) where
  | producer (l : NativeLabel F)
  /-- the server answers an attach -/
  | grant
  /-- the consumer loads -/
  | load
  /-- `from_unix_socket` returns -/
  | attach
  /-- `ft_native_poll_event` is called -/
  | poll (peerClosed : Bool)
  /-- the latest entry has been read -/
  | polled (fetched : Except FetchError Unit)

namespace Watch

variable {F : Type}

/-- The next config of the snapshot, or its end. -/
def sampleFrom (generation latest found : ℕ) : ConsumerPc :=
  if generation ≤ latest then .configFirst generation latest found else .attaching found

/-- The poll returns. -/
def finishPoll (s : Watch F) (latest : Option (ℕ × ℕ)) (fetched : Except FetchError Unit) :
    Watch F :=
  let returned := s.attach.endPoll latest fetched
  { s with
    pc := .idle
    attach := returned.1
    status := some returned.2.1
    events := s.events ++ returned.2.2.toList }

/-- A load of the consumer. -/
def load (s : Watch F) : Option (Watch F) :=
  let page := s.producer.page
  match s.pc with
  | .granted =>
      let latest := page.configCursor
      let live := min latest configRingCapacity
      some { s with
        pc := if latest = 0 then .attaching 0 else sampleFrom (latest - live + 1) latest 0 }
  | .configFirst generation latest found =>
      let first := (page.configs (Page.configIndex generation)).sequence
      some { s with pc := .configSecond generation latest first found }
  | .configSecond generation latest first found =>
      let second := (page.configs (Page.configIndex generation)).sequence
      let found := if first ≠ generation ∨ second ≠ generation then found else generation
      some { s with pc := sampleFrom (generation + 1) latest found }
  | .polling =>
      if page.producerCursor = 0 then some (s.finishPoll none (.ok ()))
      else (page.step (.read page.producerCursor)).map fun page =>
        { s with producer := { s.producer with page }, pc := .reading }
  | .reading =>
      (page.step .load).map fun page => { s with producer := { s.producer with page } }
  | _ => none

/-- `ft_native_poll_event` is called. -/
def poll (s : Watch F) (peerClosed : Bool) : Watch F :=
  let begun := s.attach.beginPoll peerClosed
  let quiet := decide (s.producer.page.push = .idle)
  match begun.2 with
  | some event =>
      { s with attach := begun.1, status := some .ok, events := s.events ++ [event], quiet }
  | none => { s with attach := begun.1, pc := .polling, quiet }

/-- **One step of a producer and a consumer.** -/
def step (s : Watch F) : WatchLabel F → Option (Watch F)
  | .producer l =>
      if l.isProducers then
        (s.producer.step l).map fun producer =>
          { s with producer, quiet := s.quiet && decide (producer.page.push = .idle) }
      else none
  | .grant =>
      if s.pc = .detached ∧ s.producer.pc = .idle then
        some { s with pc := .granted, attach := .fromUnixSocket [s.producer.pool] 0 }
      else none
  | .load => s.load
  | .attach =>
      match s.pc with
      | .attaching found =>
          some { s with pc := .idle, attach := .fromUnixSocket s.attach.pools found }
      | _ => none
  | .poll peerClosed => if s.pc = .idle then some (s.poll peerClosed) else none
  | .polled fetched =>
      match s.pc, s.producer.page.read with
      | .reading, .returned _ result =>
          some (s.finishPoll
            (result.toOption.map fun entry => (entry.poolId, entry.configGeneration)) fetched)
      | _, _ => none

end Watch

end Jackstay.Native
