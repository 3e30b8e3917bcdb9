import Jackstay.Acquisition.Arena.Layout

/-!
One admitted incarnation: its claim page, the consumer-side objects that use it,
and the two cleanup owners.

The words of the page are those of `ClaimMap`. Around it stand the objects whose
drops and calls touch it: the unconsumed grant or offer of each mapping slot and
the `ConsumerResources` mapped there (`mappings`), the consumer, the claims
published in each claim slot (`uses`), the consumer's `Retirement` with its
worker, and the producer's `IncarnationObserver`. An `Arc` is the set of its
holders: `held` and `lifetimeHeld` read it off the state.

Code runs as lists of operations. A thread of the consumer's process runs
`ThreadOp`s, the section under the retirement mutex `SectionOp`s, the section
under the observer mutex `ObserveOp`s, and the producer's own thread, inside a
`ClaimMap` method, `HostOp`s. Each operation is one atomic access to the page (or
one private step) and names what the same function does next, so that an early
return is a list that ends. Every interleaving is a run of `Incarnation.step` in
the next module.

What only schedules a poll is left out: `release_wake`, `LocalWake` and armed
`ReleaseNotification`s carry no state that a poll reads, and polls may happen at
any time here. The doorbell of a track handshake is a hint of the same kind.
-/

namespace Jackstay.Acquisition

/-! ### Answers of the environment -/

/-- What the operating system, a backend or a timeline answers to one step. -/
structure Env where
  /-- a completed timeline value, the host time, or external bytes -/
  value : ℕ := 0
  /-- the call fails -/
  fail : Bool := false
  /-- the peer endpoint is gone, or the second call of the step fails -/
  broken : Bool := false
  /-- the answer that lets the code go on is not there yet -/
  skip : Bool := false
  descriptor : FrameDescriptor := {}
  bytes : List UInt8 := []
  deriving DecidableEq, Repr

/-! ### The claim page -/

/-- The bits of `WAIT_INTEREST`: `DATA`, `CAPACITY`, `RECONFIGURATION`, `CLOSED`. -/
inductive Event where
  | data
  | capacity
  | reconfiguration
  | closed
  deriving DecidableEq, Repr

/-- The words of one claim slot. -/
structure ClaimSlot where
  claim : ℕ := 0
  releaseId : ℕ := 0
  releaseValue : ℕ := 0
  releasePending : ℕ := 0
  deriving DecidableEq, Repr

/-- The words of `ClaimMap`, initialised as `ClaimMap::new` does. -/
structure ClaimPage where
  active : ℕ := 1
  quiescent : ℕ := 0
  capacityEpoch : ℕ := 0
  waitInterest : Event → Bool := fun _ => false
  offeredGeneration : ℕ := 0
  slot : ℕ → ClaimSlot := fun _ => {}
  registeredTimeline : ℕ → ℕ := fun _ => 0
  mappingSlot : ℕ → ℕ := fun _ => 0

/-- Change the words of one claim slot. -/
def ClaimPage.modifySlot (page : ClaimPage) (k : ℕ) (f : ClaimSlot → ClaimSlot) : ClaimPage :=
  { page with slot := Function.update page.slot k (f (page.slot k)) }

/-- Store one mapping slot. -/
def ClaimPage.storeMapping (page : ClaimPage) (m generation : ℕ) : ClaimPage :=
  { page with mappingSlot := Function.update page.mappingSlot m generation }

/-! ### Owners of a mapping slot -/

/-- Where an unconsumed grant or offer is: with the host, exported, with the
consumer's process, or inside the call that consumes it. -/
inductive Place where
  | host
  | transit
  | client
  | call
  deriving DecidableEq, Repr

/-- Who uses a mapping slot. -/
inductive Tenant where
  /-- the unconsumed `ConsumerGrant` -/
  | grant (place : Place)
  /-- an unconsumed `ConfigurationGrant` -/
  | offer (place : Place)
  /-- a live `ConsumerResources` -/
  | mapped
  /-- `ConsumerResources::drop` before the map is unmapped -/
  | unmapping
  /-- a drop before the store that acknowledges it -/
  | acknowledging
  deriving DecidableEq, Repr

/-- The object of a mapping slot and the allocation it names. -/
structure Mapping where
  generation : ℕ
  tenant : Tenant
  deriving DecidableEq, Repr

/-! ### Acquisition -/

/-- The three acquisition calls. -/
inductive Request where
  | latest (after : ℕ)
  | next (after : ℕ)
  | exact (cursor : ℕ)
  deriving DecidableEq, Repr

/-- `AcquireOutcome`, or the error. A frame carries its lease's descriptor. -/
inductive AcquireOutcome where
  | frame (descriptor : FrameDescriptor)
  | empty
  | miss (cursor : ℕ)
  | gap (first last : ℕ)
  | holdingLimit
  | reconfiguration
  | closed
  | error (e : ArenaError)
  deriving DecidableEq, Repr

/-- A finished acquisition call of one of the consumer's threads. -/
structure Return where
  client : ℕ
  request : Request
  outcome : AcquireOutcome
  deriving DecidableEq, Repr

/-- Where an acquisition is before it publishes a claim; `cursor` values are what
the call has loaded from `LATEST` or selected. -/
inductive CallPc where
  | latest
  | active (latest : ℕ)
  | terminal (latest : ℕ)
  | configuration (latest : ℕ)
  | first (latest : ℕ)
  | ring (cursor : ℕ)
  | claim (cursor index k : ℕ)
  deriving DecidableEq, Repr

/-- An acquisition call that has not published a claim. -/
structure AcquireCall where
  client : ℕ
  request : Request
  pc : CallPc
  deriving DecidableEq, Repr

/-- Where a published claim is: in `acquire` after the claim, leased, in
`return_credit`, or in and after `handoff`. -/
inductive UsePc where
  | validate
  | active
  | terminal
  | configuration
  | describe
  | leased
  | returnPending
  | returnClaim
  | handing
  | deferred
  deriving DecidableEq, Repr

/-- One use of a claim slot, from the exchange that publishes the claim to the
store that clears it: the `Claim`, then the `FrameLease` around it, then the
deferred release it was handed off as. -/
structure Use where
  client : ℕ
  request : Request
  cursor : ℕ
  /-- the advertised slot of the map -/
  index : ℕ
  /-- the generation of the map of `Claim::owner` -/
  generation : ℕ
  /-- `Claim::owner`, by mapping slot -/
  owner : Option ℕ
  /-- generation validation has succeeded -/
  validated : Bool := false
  /-- `FrameLease::descriptor` -/
  descriptor : FrameDescriptor := {}
  /-- what the call returns once the dropped claim is back -/
  outcome : Option AcquireOutcome := none
  /-- the timeline id and value of the handoff -/
  handoff : Option (ℕ × ℕ) := none
  pc : UsePc := .validate
  deriving DecidableEq, Repr

/-- The use still owns its `Claim`, and with it the consumer's lifetime. -/
def Use.hasClaim (u : Use) : Bool := u.pc != .deferred

/-- The use is inside the acquisition call that made it. -/
def Use.inCall (u : Use) : Bool :=
  u.outcome.isSome ||
    match u.pc with
    | .validate | .active | .terminal | .configuration | .describe => true
    | _ => false

/-- `ArenaConsumer`: its current `ConsumerResources`, by mapping slot. -/
structure Consumer where
  resources : Option ℕ
  deriving DecidableEq, Repr

/-! ### Waiting -/

/-- `WaitEvents`. -/
structure WaitEvents where
  dataCursor : ℕ := 0
  capacityEpoch : ℕ := 0
  reconfigurationEpoch : ℕ := 0
  closed : Bool := false
  deriving DecidableEq, Repr

/-- `WaitInterest`. -/
inductive WaitInterest where
  | data
  | capacity
  | reconfiguration
  | all
  deriving DecidableEq, Repr

/-- The bits of an interest. -/
def WaitInterest.contains : WaitInterest → Event → Bool
  | .data, .data => true
  | .capacity, .capacity => true
  | .reconfiguration, .reconfiguration => true
  | .all, .data => true
  | .all, .capacity => true
  | .all, .reconfiguration => true
  | _, _ => false

/-- `WaitInterest::changed`. -/
def WaitInterest.changed (interest : WaitInterest) (before after : WaitEvents) : Bool :=
  after.closed || before.reconfigurationEpoch != after.reconfigurationEpoch ||
    (interest.contains .data && before.dataCursor != after.dataCursor) ||
    (interest.contains .capacity && before.capacityEpoch != after.capacityEpoch)

/-- What `wait` arms: `interest.0 | CLOSED | RECONFIGURATION`. -/
def WaitInterest.armed (interest : WaitInterest) (event : Event) : Bool :=
  interest.contains event || event == .closed || event == .reconfiguration

/-- `WaitOutcome`, or an error of the wait channel. -/
inductive WaitOutcome where
  | changed (events : WaitEvents)
  | cancelled
  | timedOut
  | error
  deriving DecidableEq, Repr

/-- Where `wait` is: the loop drains, checks cancellation, reads the five words
of `events`, decides and sleeps. -/
inductive WaiterPc where
  | drain
  | cancelled
  | data
  | capacity
  | reconfiguration
  | active
  | terminal
  | decide
  | asleep
  | disarm (outcome : WaitOutcome)
  deriving DecidableEq, Repr

/-- A `wait` in progress and the events it has read in this round. -/
structure Waiter where
  observed : WaitEvents
  interest : WaitInterest
  read : WaitEvents := {}
  pc : WaiterPc := .drain
  deriving DecidableEq, Repr

/-! ### Operations -/

/-- The steps of the `ClaimMap` methods that signal: `return_credit` after the
claim is cleared, `close`, `signal` and `acknowledge_quiescent`. -/
inductive PageOp where
  | epoch
  | close
  | interest (event : Event)
  | wake
  | inactive
  | quiesce
  deriving DecidableEq, Repr

/-- Whose handle of a mapping slot is being dropped. -/
inductive Holder where
  | consumer
  | lease
  | retirement (k : ℕ)
  | offer
  deriving DecidableEq, Repr

/-- The steps that end the use of a mapping slot: dropping one `Arc` of its
`ConsumerResources`, unmapping, the acknowledging store, and the store of
`OFFERED_GENERATION` that ends an offer. -/
inductive OwnerOp where
  | drop (m : ℕ) (holder : Holder)
  | unmap (m : ℕ) (holder : Holder)
  | clear (m : ℕ) (holder : Holder)
  | clearOffered
  deriving DecidableEq, Repr

/-- A section under the retirement mutex: `begin_drain`, and the rest of
`Retirement::close`. -/
inductive Section where
  | drain
  | close
  deriving DecidableEq, Repr

/-- Steps of a thread of the consumer's process (or of the host, dropping a grant
it holds). -/
inductive ThreadOp where
  | page (op : PageOp)
  | owner (op : OwnerOp)
  | dropLifetime
  | enter (s : Section)
  | await
  | ret (r : Return)
  | installActive (m : ℕ)
  | installTerminal (m : ℕ)
  | installMap (m : ℕ)
  | installConfiguration (m : ℕ)
  | bindRegistered (t : ℕ)
  | bindActive (t : ℕ)
  | bindTerminal (t : ℕ)
  | bindSource (t : ℕ)
  deriving DecidableEq, Repr

/-- Steps under the retirement mutex: `begin_drain`, `close`, `poll`, the worker's
exit check and the three stores of `handoff`. -/
inductive SectionOp where
  | page (op : PageOp)
  | drain
  | setClosed
  | poll
  | retire (k : ℕ)
  | drop (k : ℕ) (op : OwnerOp)
  | storeRetired (k : ℕ)
  | workerCheck
  | storeId (k timeline value : ℕ)
  | storeValue (k value : ℕ)
  | storePending (k : ℕ)
  deriving DecidableEq, Repr

/-- Steps under the observer mutex: `observe_process`, `observe_deadline`, the
loop of `poll`, `return_credit` (from the exit scan or from the loop), and the
locked part of `register_release_timeline`. -/
inductive ObserveOp where
  | page (op : PageOp)
  | process
  | zeroMapping (m : ℕ)
  | exitClaim (k : ℕ)
  | exitPending (k : ℕ)
  | exitRetire (k : ℕ)
  | deadline
  | loadPending (k : ℕ)
  | loadId (k : ℕ)
  | loadValue (k timeline : ℕ)
  | completed (k timeline value : ℕ)
  | recheck (k timeline value : ℕ)
  | creditPending (k : ℕ) (atExit : Bool)
  | creditClaim (k : ℕ) (atExit : Bool)
  | register
  | registerStore (t : ℕ)
  deriving DecidableEq, Repr

/-- Steps of the producer's thread on this page: `close`, `signal`,
`configuration_offer` and the unlocked check of `register_release_timeline`. -/
inductive HostOp where
  | page (op : PageOp)
  | owner (op : OwnerOp)
  | offerActive (generation : Option ℕ)
  | offerOffered (generation : ℕ)
  | offerSlot (generation m : ℕ)
  | offerStore (generation m : ℕ)
  | offerRecheck (m : ℕ)
  | registerActive
  deriving DecidableEq, Repr

/-- What the producer's last call on this page returned. -/
inductive Reply where
  | done
  | noOffer
  | offer (m : ℕ)
  | registered (id : ℕ)
  | error (e : ArenaError)
  deriving DecidableEq, Repr

/-- What a thread is doing: inside a call that borrows the consumer, inside one
that owns it, on its own, or in the host's process. -/
inductive Role where
  | call
  | consumer
  | free
  | host
  deriving DecidableEq, Repr

/-- A thread and what it still has to do. -/
structure Thread where
  todo : List ThreadOp
  role : Role
  deriving DecidableEq, Repr

/-! ### The two cleanup owners -/

/-- `Pending`, for a slot that has resources: the owner it keeps, by mapping
slot, and the completion it waits for. -/
structure Pending where
  owner : ℕ
  timeline : ℕ
  value : ℕ
  deriving DecidableEq, Repr

/-- `Retirement`: the state under its mutex, what the section that holds the
mutex still has to do, and whether the worker is in its loop. `draining` says that
a deadline is set. -/
structure Retirement where
  todo : List SectionOp := []
  sources : ℕ → Bool := fun _ => false
  slots : ℕ → Option Pending := fun _ => none
  closed : Bool := false
  failure : Bool := false
  draining : Bool := false
  worker : Bool := false

/-- `IncarnationObserver`: the state under its mutex and what the section that
holds the mutex still has to do. `reported` is the greatest value each registered
timeline has answered, `exitSeen` that `observe_process` saw the exit, and
`unresolved` the claim slots that `unresolved_native_claims` counts. -/
structure Observer where
  present : Bool := true
  worker : Bool := true
  todo : List ObserveOp := []
  process : Bool := false
  exitSeen : Bool := false
  timelines : ℕ := 0
  reported : ℕ → Option ℕ := fun _ => none
  failure : Bool := false
  notificationFailed : Bool := false
  unresolved : List ℕ := []
  released : ℕ := 0

/-- A registered timeline has answered with this value or a greater one. -/
def Observer.Reported (o : Observer) (timeline value : ℕ) : Prop :=
  ∃ completed, o.reported timeline = some completed ∧ value ≤ completed

/-- An incarnation. -/
structure Incarnation where
  frames : ℕ
  /-- the recipient process is monitored -/
  remote : Bool
  /-- the recipient process has ended -/
  exited : Bool := false
  page : ClaimPage
  mappings : ℕ → Option Mapping
  consumer : Option Consumer := none
  calls : List AcquireCall := []
  uses : ℕ → Option Use := fun _ => none
  threads : List Thread := []
  retirement : Retirement := {}
  observer : Observer
  host : List HostOp := []
  hostFault : Bool := false
  reply : Reply := .done
  /-- bytes in the wake channel -/
  wakeBytes : ℕ := 0
  waiter : Option Waiter := none
  /-- what the acquisition calls returned, in order -/
  returns : List Return := []
  /-- the errors of rejected deferred releases -/
  rejected : List ArenaError := []

namespace Incarnation

/-- The incarnation that `attach_with_recipient` builds: a fresh page whose first
mapping slot and offer name the current allocation, the grant, and a tracked
observer. -/
def new (frames : ℕ) (remote : Bool) (generation : ℕ) : Incarnation where
  frames
  remote
  page := ({ offeredGeneration := generation } : ClaimPage).storeMapping 0 generation
  mappings := Function.update (fun _ => none) 0
    (some ⟨generation, .grant (if remote then .host else .client)⟩)
  observer := { process := remote }

/-! ### Holders -/

/-- `State::empty`: no retirement slot has resources. -/
def empty (inc : Incarnation) : Bool :=
  (List.range inc.frames).all fun k => (inc.retirement.slots k).isNone

/-- Some list of operations still drops an `Arc` of this `ConsumerResources`. -/
def dropsPending (inc : Incarnation) (m : ℕ) : Bool :=
  (inc.threads.any fun t => t.todo.any fun op =>
    match op with | .owner (.drop j _) => j == m | _ => false) ||
  inc.retirement.todo.any fun op =>
    match op with | .drop _ (.drop j _) => j == m | _ => false

/-- Some `Arc<ConsumerResources>` of this mapping slot is alive: the consumer's,
a claim's, a retirement slot's, or one that is about to be dropped. -/
def held (inc : Incarnation) (m : ℕ) : Bool :=
  (inc.consumer.bind Consumer.resources) == some m ||
  ((List.range inc.frames).any fun k =>
    (inc.uses k).any (fun u => u.owner == some m) ||
    (inc.retirement.slots k).any (fun p => p.owner == m)) ||
  inc.dropsPending m

/-- Some `Arc<ConsumerLifetime>` is alive: the consumer's, a claim's, or one that
is about to be dropped. -/
def lifetimeHeld (inc : Incarnation) : Bool :=
  inc.consumer.isSome ||
  ((List.range inc.frames).any fun k => (inc.uses k).any Use.hasClaim) ||
  inc.threads.any fun t => t.todo.contains .dropLifetime

/-- Some thread with this role is running. -/
def running (inc : Incarnation) (role : Role) : Bool :=
  inc.threads.any fun t => t.role == role && !t.todo.isEmpty

/-- A call holds `&mut ArenaConsumer`. -/
def busy (inc : Incarnation) : Bool := inc.running .consumer || inc.waiter.isSome

/-- A call holds `&ArenaConsumer`. -/
def borrowed (inc : Incarnation) : Bool :=
  !inc.calls.isEmpty || inc.running .call ||
    (List.range inc.frames).any fun k => (inc.uses k).any Use.inCall

/-- Start a thread. -/
def spawn (inc : Incarnation) (role : Role) (todo : List ThreadOp) : Incarnation :=
  { inc with threads := inc.threads ++ [⟨todo, role⟩] }

/-- Change the object of a mapping slot. -/
def setTenant (inc : Incarnation) (m : ℕ) (tenant : Tenant) : Incarnation :=
  { inc with
    mappings := Function.update inc.mappings m
      ((inc.mappings m).map fun x => { x with tenant }) }

/-- Change one use. -/
def setUse (inc : Incarnation) (k : ℕ) (u : Use) : Incarnation :=
  { inc with uses := Function.update inc.uses k (some u) }

end Incarnation

/-! ### What the operations do -/

/-- `ClaimMap::close`, `signal`, `acknowledge_quiescent` and the tail of
`return_credit`, one access at a time. A full channel keeps its byte
(`WouldBlock`). -/
def PageOp.exec (e : Env) (inc : Incarnation) : PageOp → Incarnation × List PageOp
  | .epoch =>
      ({ inc with page :=
          { inc.page with capacityEpoch := (inc.page.capacityEpoch + 1) % 2 ^ 64 } },
        if inc.page.capacityEpoch = 2 ^ 64 - 1 then [.close, .interest .capacity]
        else [.interest .capacity])
  | .close =>
      ({ inc with page := { inc.page with active := 0 } },
        if inc.page.active = 0 then [] else [.interest .closed])
  | .interest event => (inc, if inc.page.waitInterest event then [.wake] else [])
  | .wake =>
      if e.broken then (inc, [.inactive])
      else if e.fail then (inc, [])
      else if e.skip ∧ inc.wakeBytes ≠ 0 then (inc, [])
      else ({ inc with wakeBytes := inc.wakeBytes + 1 }, [])
  | .inactive => ({ inc with page := { inc.page with active := 0 } }, [])
  | .quiesce => ({ inc with page := { inc.page with quiescent := 1 } }, [])

/-- Dropping an `Arc<ConsumerResources>`, and `ConsumerResources::drop` behind the
last one: unmap first, acknowledge after. -/
def OwnerOp.exec (inc : Incarnation) : OwnerOp → Incarnation × List OwnerOp
  | .drop m holder =>
      if inc.held m then (inc, []) else (inc.setTenant m .unmapping, [.unmap m holder])
  | .unmap m holder => (inc.setTenant m .acknowledging, [.clear m holder])
  | .clear m _ =>
      ({ inc with
          page := inc.page.storeMapping m 0
          mappings := Function.update inc.mappings m none }, [])
  | .clearOffered => ({ inc with page := { inc.page with offeredGeneration := 0 } }, [])

/-- `Drop for ConfigurationGrant`, after its file descriptors are closed. -/
def offerDrop (m : ℕ) : List OwnerOp := [.clear m .offer, .clearOffered]

/-- What runs under the retirement mutex. -/
def Section.program : Section → List SectionOp
  | .drain => [.page .close, .drain]
  | .close => [.setClosed, .poll]

/-- `Retirement::close`, run by the last owner of the consumer's lifetime. -/
def closing : List ThreadOp := [.enter .drain, .await, .enter .close, .await]

/-- The steps of a thread. The four `install` steps are
`install_with_resources`; an offer that is not consumed is dropped on the way out. -/
def ThreadOp.exec (sh : Shared) (e : Env) (inc : Incarnation) :
    ThreadOp → Option (Incarnation × List ThreadOp)
  | .page op =>
      let (inc, next) := op.exec e inc
      some (inc, next.map .page)
  | .owner op =>
      let (inc, next) := op.exec inc
      some (inc, next.map .owner)
  | .dropLifetime => some (inc, if inc.lifetimeHeld then [] else closing)
  | .enter s =>
      if inc.retirement.todo = [] then
        some ({ inc with retirement := { inc.retirement with todo := s.program } }, [])
      else none
  | .await => if inc.retirement.todo = [] then some (inc, []) else none
  | .ret r => some ({ inc with returns := inc.returns ++ [r] }, [])
  | .installActive m =>
      some <| if inc.page.active = 0
        then (inc.setTenant m .acknowledging, (offerDrop m).map .owner)
        else (inc, [.installTerminal m])
  | .installTerminal m =>
      some <| if sh.control.terminal ≠ 0
        then (inc.setTenant m .acknowledging, (offerDrop m).map .owner)
        else (inc, [.installMap m])
  | .installMap m =>
      some <| if e.fail
        then (inc.setTenant m .acknowledging, (offerDrop m).map .owner)
        else (inc, [.installConfiguration m])
  | .installConfiguration m =>
      -- a stale generation drops its map and its offer
      some <| if (inc.mappings m).map Mapping.generation ≠ some sh.control.configuration
        then (inc.setTenant m .acknowledging, (offerDrop m).map .owner)
        else
          let next := match inc.consumer.bind Consumer.resources with
            | some old => [.owner (.drop old .consumer), .owner .clearOffered]
            | none => [.owner .clearOffered]
          let inc := inc.setTenant m .mapped
          ({ inc with consumer := some ⟨some m⟩ }, next)
  | .bindRegistered t =>
      some (inc, if t < inc.frames ∧ inc.page.registeredTimeline t = t + 1
        then [.bindActive t] else [])
  | .bindActive t => some (inc, if inc.page.active = 0 then [] else [.bindTerminal t])
  | .bindTerminal t => some (inc, if sh.control.terminal ≠ 0 then [] else [.bindSource t])
  | .bindSource t =>
      if inc.retirement.todo = [] then
        some ({ inc with retirement :=
          { inc.retirement with sources := Function.update inc.retirement.sources t true } }, [])
      else none

/-- The steps under the retirement mutex. `retire` walks the slots of `State::poll`
and ends with its acknowledgement; a completed slot drops its resources before the
store that lets the producer return the credit. -/
def SectionOp.exec (e : Env) (inc : Incarnation) : SectionOp → Incarnation × List SectionOp
  | .page op =>
      let (inc, next) := op.exec e inc
      (inc, next.map .page)
  | .drain => ({ inc with retirement := { inc.retirement with draining := true } }, [])
  | .setClosed => ({ inc with retirement := { inc.retirement with closed := true } }, [])
  | .poll => (inc, if inc.retirement.failure then [] else [.retire 0])
  | .retire k =>
      if inc.frames ≤ k then
        (inc, if inc.retirement.closed ∧ inc.empty then [.page .quiesce] else [])
      else
        match inc.retirement.slots k with
        | none => (inc, [.retire (k + 1)])
        | some p =>
            if e.fail then
              ({ inc with retirement := { inc.retirement with failure := true } },
                [.page .close])
            else if p.value ≤ e.value then
              ({ inc with retirement := { inc.retirement with
                  slots := Function.update inc.retirement.slots k none } },
                [.drop k (.drop p.owner (.retirement k))])
            else if e.broken then
              ({ inc with retirement := { inc.retirement with failure := true } },
                [.page .close])
            else (inc, [.retire (k + 1)])
  | .drop k op =>
      match op.exec inc with
      | (inc, next :: _) => (inc, [.drop k next])
      | (inc, []) => (inc, [.storeRetired k])
  | .storeRetired k =>
      ({ inc with page := inc.page.modifySlot k fun w => { w with releasePending := 2 } },
        [.retire (k + 1)])
  | .workerCheck =>
      ({ inc with retirement := { inc.retirement with
          worker := !(inc.retirement.closed && inc.empty) } }, [])
  | .storeId k timeline value =>
      ({ inc with page := inc.page.modifySlot k fun w => { w with releaseId := timeline } },
        [.storeValue k value])
  | .storeValue k value =>
      ({ inc with page := inc.page.modifySlot k fun w => { w with releaseValue := value } },
        [.storePending k])
  | .storePending k =>
      -- the mutex is released here; the emptied lease then drops its lifetime
      (({ inc with
          page := inc.page.modifySlot k fun w => { w with releasePending := 1 }
          uses := Function.update inc.uses k
            ((inc.uses k).map fun u => { u with pc := .deferred }) } : Incarnation).spawn
              .free [.dropLifetime], [])

/-- `register_release_timeline` beyond the holding reservation. -/
def timelineCapacity : ArenaError :=
  .configuration "release timeline capacity equals the holding reservation"

/-- `configuration_offer` without a free mapping slot. -/
def mappingCapacityExhausted : ArenaError :=
  .configuration "configuration mapping capacity exhausted"

/-- `handoff` into a retirement slot that has resources. -/
def retirementSlotInUse : ArenaError := .mapping "consumer retirement slot is still in use"

/-- The steps under the observer mutex. -/
def ObserveOp.exec (native : Bool) (e : Env) (inc : Incarnation) :
    ObserveOp → Incarnation × List ObserveOp
  | .page op =>
      let (inc, next) := op.exec e inc
      (inc, next.map .page)
  | .process =>
      if inc.observer.process = false then (inc, [.deadline])
      else if e.fail then
        ({ inc with observer := { inc.observer with
            process := false, failure := true, notificationFailed := true } },
          [.page .close, .deadline])
      else if inc.exited ∧ ¬ e.skip then
        ({ inc with observer := { inc.observer with process := false, exitSeen := true } },
          [.page .close, .page .quiesce, .zeroMapping 0])
      else (inc, [.deadline])
  | .zeroMapping m =>
      ({ inc with page := inc.page.storeMapping m 0 },
        if m + 1 < inc.frames + 2 then [.zeroMapping (m + 1)] else [.exitClaim 0])
  | .exitClaim k =>
      (inc, if inc.frames ≤ k then [.deadline]
        else if (inc.page.slot k).claim = 0 then [.exitClaim (k + 1)]
        else [.exitPending k])
  | .exitPending k =>
      if (inc.page.slot k).releasePending = 1 ∨ (inc.page.slot k).releasePending = 2 then
        (inc, [.exitRetire k])
      else if (inc.page.slot k).releasePending = 0 then
        if native = false ∧ inc.observer.timelines = 0 then (inc, [.creditPending k true])
        else
          ({ inc with observer := { inc.observer with
              unresolved := inc.observer.unresolved ++ [k] } }, [.exitClaim (k + 1)])
      else
        ({ inc with observer := { inc.observer with failure := true } },
          [.page .close, .exitClaim (k + 1)])
  | .exitRetire k =>
      ({ inc with page := inc.page.modifySlot k fun w => { w with releasePending := 2 } },
        [.exitClaim (k + 1)])
  | .deadline =>
      -- an unrepresentable drain deadline is a failure; an expired one is only reported
      if inc.page.active = 0 ∧ e.fail then
        ({ inc with observer := { inc.observer with failure := true } }, [.page .close])
      else (inc, if inc.observer.failure then [] else [.loadPending 0])
  | .loadPending k =>
      if inc.frames ≤ k then (inc, [])
      else if (inc.page.slot k).releasePending = 0 then (inc, [.loadPending (k + 1)])
      else if (inc.page.slot k).releasePending = 1 ∨ (inc.page.slot k).releasePending = 2 then
        (inc, [.loadId k])
      else
        ({ inc with observer := { inc.observer with failure := true } }, [.page .close])
  | .loadId k => (inc, [.loadValue k (inc.page.slot k).releaseId])
  | .loadValue k timeline =>
      if timeline = 0 ∨ inc.observer.timelines < timeline then
        ({ inc with observer := { inc.observer with failure := true } }, [.page .close])
      else (inc, [.completed k timeline (inc.page.slot k).releaseValue])
  | .completed k timeline v =>
      if e.fail then
        ({ inc with observer := { inc.observer with failure := true } }, [.page .close])
      else
        let inc := { inc with observer := { inc.observer with
          reported := Function.update inc.observer.reported timeline
            (some (max ((inc.observer.reported timeline).getD 0) e.value)) } }
        if v ≤ e.value then (inc, [.recheck k timeline v])
        else if e.broken then
          ({ inc with observer := { inc.observer with failure := true } }, [.page .close])
        else (inc, [.loadPending (k + 1)])
  | .recheck k _ _ =>
      (inc, if (inc.page.slot k).releasePending = 2 then [.creditPending k false]
        else [.loadPending (k + 1)])
  | .creditPending k atExit =>
      ({ inc with page := inc.page.modifySlot k fun w => { w with releasePending := 0 } },
        [.creditClaim k atExit])
  | .creditClaim k atExit =>
      ({ inc with
          page := inc.page.modifySlot k fun w => { w with claim := 0 }
          uses := Function.update inc.uses k none
          observer := { inc.observer with released := inc.observer.released + 1 } },
        [.page .epoch, if atExit then .exitClaim (k + 1) else .loadPending (k + 1)])
  | .register =>
      if inc.page.active = 0 then ({ inc with reply := .error .closed }, [])
      else if inc.frames ≤ inc.observer.timelines then
        ({ inc with reply := .error timelineCapacity }, [])
      else
        ({ inc with observer := { inc.observer with
            timelines := inc.observer.timelines + 1 } },
          [.registerStore inc.observer.timelines])
  | .registerStore t =>
      ({ inc with
          page := { inc.page with
            registeredTimeline := Function.update inc.page.registeredTimeline t (t + 1) }
          reply := .registered (t + 1) }, [])

/-- The steps of the producer's thread on this page. A wake that fails with
anything but a lost peer is an error for the caller of `signal`. -/
def HostOp.exec (e : Env) (inc : Incarnation) : HostOp → Incarnation × List HostOp
  | .page op =>
      let fault := op == .wake && !e.broken && e.fail
      let (inc, next) := op.exec e inc
      ({ inc with hostFault := inc.hostFault || fault }, next.map .page)
  | .owner op =>
      let (inc, next) := op.exec inc
      (inc, next.map .owner)
  | .offerActive generation =>
      if inc.page.active = 0 then ({ inc with reply := .error .closed }, [])
      else match generation with
        | none => ({ inc with reply := .noOffer }, [])
        | some g => (inc, [.offerOffered g])
  | .offerOffered g =>
      if inc.page.offeredGeneration ≠ 0 then ({ inc with reply := .noOffer }, [])
      else if e.fail then ({ inc with reply := .error .storage }, [])
      else (inc, [.offerSlot g 0])
  | .offerSlot g m =>
      if inc.page.mappingSlot m = 0 then
        ({ inc with
            page := inc.page.storeMapping m g
            mappings := Function.update inc.mappings m (some ⟨g, .offer .call⟩) },
          [.offerStore g m])
      else if m + 1 < inc.frames + 2 then (inc, [.offerSlot g (m + 1)])
      else
        ({ inc with reply := .error mappingCapacityExhausted }, [])
  | .offerStore g m =>
      ({ inc with page := { inc.page with offeredGeneration := g } }, [.offerRecheck m])
  | .offerRecheck m =>
      if inc.page.active = 0 then
        let inc := inc.setTenant m .acknowledging
        ({ inc with reply := .error .closed }, (offerDrop m).map .owner)
      else
        let inc := inc.setTenant m (.offer (if inc.remote then .host else .client))
        ({ inc with reply := .offer m }, [])
  | .registerActive =>
      ({ inc with reply := if inc.page.active = 0 then .error .closed else .done }, [])

end Jackstay.Acquisition
