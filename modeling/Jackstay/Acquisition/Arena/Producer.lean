import Jackstay.Acquisition.Arena.Step

/-!
The arena as a whole: one `ArenaProducer`, the maps it shares, and its admitted
incarnations.

`&mut self` serialises the producer, so its thread is one program counter `Pc`,
grouped as the source is: `poll_cleanup` in front of the operation that called it
(`CleanupPc`, with the operation as its `Goal`), the slot scan that `publish` and
`reserve` share, the publication itself, the reconfiguration transaction, and the
loops that call a `ClaimMap` method on every incarnation. One step of the producer
is one access to shared memory, or a step on its own fields. `Arena.step`
interleaves it with the incarnations and with the holders of reservations.

`log` is a history variable: what `publish` or `commit` stored under each cursor.
-/

namespace Jackstay.Acquisition

/-! ### The producer -/

/-- `ArenaConfig`. -/
structure ArenaConfig where
  resourceCapacity : UInt32
  retainedHistory : UInt32
  producerReserve : UInt32
  payloadCapacity : ℕ
  memoryBudget : UInt64
  maxIncarnations : UInt32
  drainTimeout : ℕ
  deriving DecidableEq, Repr

/-- What one `publish` or `commit` stored. -/
structure Publication where
  generation : ℕ
  index : ℕ
  descriptor : FrameDescriptor
  bytes : List UInt8
  deriving DecidableEq, Repr

/-- What is published: inline bytes, or a native frame that the backend's
`prepare` callback stages. -/
inductive Source where
  | cpu (descriptor : FrameDescriptor) (bytes : List UInt8)
  | native
  deriving DecidableEq, Repr

/-- The inline bytes of a source. -/
def Source.len : Source → ℕ
  | .cpu _ bytes => bytes.length
  | .native => 0

/-- What a producer call returned. -/
inductive Outcome where
  | done
  | published (cursor : ℕ)
  | dropped
  | reserved (index : ℕ)
  | noSlot
  | attached (i : ℕ)
  | offered (m : ℕ)
  | noOffer
  | registered (id : ℕ)
  | ready (generation : ℕ)
  | pausedCapacity (requested available : ℕ)
  | released (count : ℕ)
  | shutdown (ready : Bool)
  | exported
  | error (e : ArenaError)
  deriving DecidableEq, Repr

/-- The call that `poll_cleanup` runs for. -/
inductive Goal where
  | publish (source : Source)
  | reserve
  | attach (holding : UInt32) (remote : Bool)
  | advance
  | poll
  | shutdown
  deriving DecidableEq, Repr

/-- Which of the two slot scans is running. -/
inductive Writer where
  | publish (source : Source)
  | reserve
  deriving DecidableEq, Repr

/-- The `ClaimMap` method that a loop over the claim pages calls. -/
inductive PageCall where
  | close
  | signal (event : Event)
  deriving DecidableEq, Repr

/-- The first access of the method. -/
def PageCall.op : PageCall → PageOp
  | .close => .close
  | .signal event => .interest event

/-- What follows a loop over all claim pages. -/
inductive After where
  | finish (outcome : Outcome)
  | release (generation index : ℕ) (outcome : Outcome)
  | advance
  | close (i : ℕ)
  | drop
  deriving DecidableEq, Repr

/-- One load of `collect_retired_allocations`. -/
inductive Probe where
  | mapping (i m : ℕ)
  | record (i index : ℕ)
  | claim (i cursor k : ℕ)
  deriving DecidableEq, Repr

/-- Where `poll_cleanup` is: the observers, `collect_quiescent`,
`collect_retired_allocations`. -/
inductive CleanupPc where
  | observers (todo : List ℕ)
  | polling (i : ℕ) (todo : List ℕ)
  | quiescent (todo : List ℕ)
  | mapping (i m : ℕ) (todo : List ℕ)
  | claim (i k : ℕ) (todo : List ℕ)
  | remove (i : ℕ) (todo : List ℕ)
  | retired (index : ℕ)
  | probe (index : ℕ) (probes : List Probe)
  | count (index : ℕ)
  | ready (index : ℕ)
  deriving DecidableEq, Repr

/-- Where the producer is. -/
inductive Pc where
  | idle
  | panicked
  /-- the producer has been dropped -/
  | gone
  /-- the `TERMINAL` load at the head of a call -/
  | terminal (goal : Goal)
  | cleanup (c : CleanupPc) (goal : Goal)
  /-- after `poll_cleanup` -/
  | resume (goal : Goal)
  | shutdown
  /-- the slot scan: reserved flag, state, retirement, claims -/
  | scan (w : Writer) (off : ℕ)
  | scanState (w : Writer) (off : ℕ)
  | scanRetire (w : Writer) (off generation : ℕ)
  | scanClaims (w : Writer) (off generation : ℕ) (probes : List (ℕ × ℕ))
  | reserveFlag (index : ℕ)
  /-- the publication -/
  | prepare (off : ℕ)
  | copy (index : ℕ) (descriptor : FrameDescriptor) (bytes : List UInt8)
  | describe (p : Publication) (after : After)
  | store (p : Publication) (after : After)
  | ring (p : Publication) (after : After)
  | latest (p : Publication) (after : After)
  | commit (generation index : ℕ) (descriptor : FrameDescriptor)
  | release (generation index : ℕ) (outcome : Outcome)
  /-- reconfiguration -/
  | begin (payloadCapacity externalBytes : ℕ)
  | unconfigure (layout : ResourceLayout)
  | unpublishLoad (layout : ResourceLayout) (index : ℕ)
  | unpublish (layout : ResourceLayout) (index state : ℕ)
  | firstCursor (layout : ResourceLayout)
  | configure (generation : ℕ)
  | epochLoad (after : After)
  | epoch (value : ℕ) (after : After)
  /-- loops over the claim pages -/
  | terminate (after : After)
  | pages (call : PageCall) (todo : List ℕ) (after : After)
  | paged (call : PageCall) (i : ℕ) (todo : List ℕ) (after : After)
  /-- calls on one page -/
  | offering (i : ℕ)
  | registering (i : ℕ)
  | registered (i : ℕ)
  | retrying (i : ℕ)
  | exporting
  | dropping (todo : List ℕ)
  deriving DecidableEq, Repr

/-- `RetiredAllocation`: its generation, and whether a native pool is attached. -/
structure RetiredAllocation where
  generation : ℕ
  native : Bool
  deriving DecidableEq, Repr

/-- `ArenaProducer`, with its program counter and the last result. The map behind
`resources` and `retired` is the shared one of that generation; `claims` lists
the tracked incarnations in ascending order, as the keys of the `BTreeMap`. -/
structure Producer where
  resources : Option ℕ
  retired : List RetiredAllocation := []
  pendingLayout : Option ResourceLayout := none
  admission : AdmissionBook
  claims : List ℕ := []
  cursor : ℕ := 0
  nextSlot : ℕ := 0
  /-- credit returned in the running `poll_cleanup` -/
  released : ℕ := 0
  pc : Pc := .idle
  outcome : Outcome := .done

/-- The arena. -/
structure Arena where
  shared : Shared
  producer : Producer
  incarnations : ℕ → Option Incarnation := fun _ => none
  log : ℕ → Option Publication := fun _ => none

namespace Arena

/-- `ArenaProducer::prepare`: layout and admission of a configuration. -/
def prepare (page : ℕ) (config : ArenaConfig) (externalBytes : ℕ) :
    Except ArenaError (ResourceLayout × AdmissionBook) :=
  if config.drainTimeout = 0 then
    .error (.configuration "drain interval must be positive and representable")
  else do
    let layout ← ResourceLayout.new page config.resourceCapacity.toNat
      config.retainedHistory.toNat config.payloadCapacity
    let controlLen ← controlAllocationLen page layout.history
    if 2 ^ 64 ≤ layout.len + layout.payloadLen + externalBytes then
      .error (.configuration "allocation byte total overflow")
    else
      match AdmissionBook.new
        { resourceCapacity := config.resourceCapacity
          retainedHistory := config.retainedHistory
          producerReserve := config.producerReserve
          allocatedBytes := UInt64.ofNat (layout.len + layout.payloadLen + externalBytes)
          fixedBytes := UInt64.ofNat controlLen
          memoryBudget := config.memoryBudget
          maxIncarnations := config.maxIncarnations } with
      | .ok admission => .ok (layout, admission)
      | .error e => .error (.admission e)

/-- `ArenaProducer::create`: control words, the first allocation, no claims. -/
def create (page : ℕ) (config : ArenaConfig) (externalBytes : ℕ) (native : Bool) :
    Except ArenaError Arena := do
  let (layout, admission) ← prepare page config externalBytes
  return {
    shared := {
      page
      history := layout.history
      native
      control := {}
      maps := fun _ => ResourceMap.new layout }
    producer := { resources := some 1, admission } }

/-! ### Access to the parts -/

/-- Move the producer's program counter. -/
def goto (s : Arena) (pc : Pc) : Arena := { s with producer := { s.producer with pc } }

/-- Return from the producer's call. -/
def finish (s : Arena) (outcome : Outcome) : Arena :=
  { s with producer := { s.producer with pc := .idle, outcome } }

/-- `Err` of the producer's call. -/
def fail (s : Arena) (e : ArenaError) : Arena := s.finish (.error e)

/-- Change one incarnation. -/
def onPage (s : Arena) (i : ℕ) (f : Incarnation → Incarnation) : Arena :=
  { s with incarnations := Function.update s.incarnations i ((s.incarnations i).map f) }

/-- Change one resource map. -/
def onMap (s : Arena) (g : ℕ) (f : ResourceMap → ResourceMap) : Arena :=
  { s with shared := { s.shared with
      maps := Function.update s.shared.maps g (f (s.shared.maps g)) } }

/-- Change the control words. -/
def onControl (s : Arena) (f : ControlMap → ControlMap) : Arena :=
  { s with shared := { s.shared with control := f s.shared.control } }

/-- Replace the admission book. -/
def setBook (s : Arena) (book : AdmissionBook) : Arena :=
  { s with producer := { s.producer with admission := book } }

/-- The generation of the installed allocation; zero when there is none. -/
def current (s : Arena) : ℕ := s.producer.resources.getD 0

/-- The layout of the installed allocation. -/
def layout (s : Arena) : ResourceLayout := (s.shared.maps s.current).layout

/-- The claim slots a scan loads: every slot of every tracked incarnation. -/
def claimProbes (s : Arena) : List (ℕ × ℕ) :=
  s.producer.claims.flatMap fun i =>
    match s.incarnations i with
    | some inc => (List.range inc.frames).map fun k => (i, k)
    | none => []

/-- The loads of `collect_retired_allocations` for one retired generation. -/
def retiredProbes (s : Arena) (g : ℕ) : List Probe :=
  s.producer.claims.flatMap fun i =>
    match s.incarnations i with
    | some inc =>
        ((List.range (inc.frames + 2)).map fun m => .mapping i m) ++
          (List.range (s.shared.maps g).layout.resources).map fun index => .record i index
    | none => []

/-- What follows a loop over the claim pages. -/
def continue_ (s : Arena) : After → Arena
  | .finish outcome => s.finish outcome
  | .release g index outcome => s.goto (.release g index outcome)
  | .advance => s.goto (.terminal .advance)
  | .close i =>
      match (AdmissionBook.close i).on s.producer.admission with
      | (.ok _, book) => (s.setBook book).finish .done
      | (.error (.error e), book) => (s.setBook book).fail (.admission e)
      | (.error .panic, book) => (s.setBook book).goto .panicked
  | .drop => s.goto (.dropping s.producer.claims)

/-- Start a loop over the claim pages. -/
def overPages (s : Arena) (call : PageCall) (after : After) : Arena :=
  s.goto (.pages call s.producer.claims after)

/-! ### `poll_cleanup` -/

/-- `collect_quiescent` has found the incarnation drained: acknowledge the
admission cleanup, then remove the observer. -/
def collect (s : Arena) (i : ℕ) (todo : List ℕ) (goal : Goal) : Arena :=
  match (AdmissionBook.close i).on s.producer.admission with
  | (.ok _, book) =>
      match (AdmissionBook.completeCleanup i).on book with
      | (.ok _, book) => (s.setBook book).goto (.cleanup (.remove i todo) goal)
      | (.error _, book) => (s.setBook book).goto .panicked
  | (.error _, book) => (s.setBook book).goto .panicked

/-- `collect_quiescent` after slot `k` of an incarnation was found empty. -/
def claimsFrom (s : Arena) (i k : ℕ) (todo : List ℕ) (goal : Goal) : Arena :=
  if ((s.incarnations i).map Incarnation.frames).getD 0 ≤ k then s.collect i todo goal
  else s.goto (.cleanup (.claim i k todo) goal)

/-- `Vec::swap_remove`: the last entry moves into the freed place. -/
def swapRemove {α : Type} (l : List α) (index : ℕ) : List α :=
  match l.getLast? with
  | some last => (l.set index last).dropLast
  | none => []

/-- Reclaim a retired allocation: destroy the producer's map, then return its
bytes. -/
def reclaim (s : Arena) (index : ℕ) (g : ℕ) (goal : Goal) : Arena :=
  let retired := swapRemove s.producer.retired index
  match (AdmissionBook.completeAllocationCleanup g).on s.producer.admission with
  | (.ok _, book) =>
      { s with producer := { s.producer with
          retired, admission := book, pc := .cleanup (.retired index) goal } }
  | (.error _, book) =>
      { s with producer := { s.producer with retired, admission := book, pc := .panicked } }

/-- One step of `poll_cleanup`. -/
def cleanupStep (s : Arena) (e : Env) (goal : Goal) : CleanupPc → Option Arena
  | .observers [] => some (s.goto (.cleanup (.quiescent s.producer.claims) goal))
  | .observers (i :: todo) => do
      let inc ← s.incarnations i
      if inc.observer.todo = [] then
        return (s.onPage i fun inc =>
          { inc with observer := { inc.observer with todo := [.process] } }).goto
            (.cleanup (.polling i todo) goal)
      else none
  | .polling i todo => do
      let inc ← s.incarnations i
      if inc.observer.todo = [] then
        let s := s.onPage i fun inc => { inc with observer := { inc.observer with released := 0 } }
        return { s with producer := { s.producer with
          released := s.producer.released + inc.observer.released
          pc := .cleanup (.observers todo) goal } }
      else none
  | .quiescent [] => some (s.goto (.cleanup (.retired 0) goal))
  | .quiescent (i :: todo) => do
      let inc ← s.incarnations i
      return s.goto (.cleanup
        (if inc.page.quiescent = 0 then .quiescent todo else .mapping i 0 todo) goal)
  | .mapping i m todo => do
      let inc ← s.incarnations i
      return if inc.page.mappingSlot m ≠ 0 then s.goto (.cleanup (.quiescent todo) goal)
        else if m + 1 < inc.frames + 2 then s.goto (.cleanup (.mapping i (m + 1) todo) goal)
        else s.claimsFrom i 0 todo goal
  | .claim i k todo => do
      let inc ← s.incarnations i
      return if (inc.page.slot k).claim ≠ 0 then s.goto (.cleanup (.quiescent todo) goal)
        else s.claimsFrom i (k + 1) todo goal
  | .remove i todo => do
      -- the observer's worker is joined, then the closure tells `retain` to forget it
      let inc ← s.incarnations i
      if inc.observer.todo = [] then
        let s := s.onPage i fun inc =>
          { inc with observer := { inc.observer with present := false } }
        return { s with producer := { s.producer with
          claims := s.producer.claims.filter (· ≠ i)
          pc := .cleanup (.quiescent todo) goal } }
      else none
  | .retired index =>
      match s.producer.retired[index]? with
      | none => some (s.goto (.resume goal))
      | some r => some (s.goto (.cleanup (.probe index (s.retiredProbes r.generation)) goal))
  | .probe index [] => some (s.goto (.cleanup (.count index) goal))
  | .probe index (p :: probes) => do
      let r ← s.producer.retired[index]?
      match p with
      | .mapping i m => do
          let inc ← s.incarnations i
          return s.goto (.cleanup
            (if inc.page.mappingSlot m = r.generation then .retired (index + 1)
             else .probe index probes) goal)
      | .record i slot => do
          let inc ← s.incarnations i
          let cursor := ((s.shared.maps r.generation).records slot).state / 2
          return s.goto (.cleanup (.probe index
            (if cursor = 0 then probes
             else ((List.range inc.frames).map fun k => .claim i cursor k) ++ probes)) goal)
      | .claim i cursor k => do
          let inc ← s.incarnations i
          return s.goto (.cleanup
            (if (inc.page.slot k).claim = cursor then .retired (index + 1)
             else .probe index probes) goal)
  | .count index => do
      let r ← s.producer.retired[index]?
      return if (s.shared.maps r.generation).strongCount ≠ 1
        then s.goto (.cleanup (.retired (index + 1)) goal)
        else if r.native then s.goto (.cleanup (.ready index) goal)
        else s.reclaim index r.generation goal
  | .ready index => do
      let r ← s.producer.retired[index]?
      return if e.fail then s.fail .storage
        else
          let s := s.onMap r.generation fun map => { map with ready := !e.skip }
          if e.skip then s.goto (.cleanup (.retired (index + 1)) goal)
          else s.reclaim index r.generation goal

/-! ### Publication -/

/-- Continue the slot scan at this offset, or give up. -/
def scanFrom (s : Arena) (w : Writer) (off : ℕ) : Arena :=
  if off < s.layout.resources then s.goto (.scan w off)
  else s.finish (match w with | .publish _ => .dropped | .reserve => .noSlot)

/-- The slot the scan looks at. -/
def scanIndex (s : Arena) (off : ℕ) : ℕ := (s.producer.nextSlot + off) % s.layout.resources

/-- The oldest cursor of the protected history window. -/
def oldest (s : Arena) : ℕ := max (s.producer.cursor - (s.layout.history - 1)) 1

/-- The scan has found a retired, unclaimed slot. -/
def found (s : Arena) (off : ℕ) : Writer → Arena
  | .publish (.cpu descriptor bytes) => s.goto (.copy (s.scanIndex off) descriptor bytes)
  | .publish .native => s.goto (.prepare off)
  | .reserve => s.goto (.reserveFlag (s.scanIndex off))

/-- The publication of the next cursor in a slot of the installed allocation. -/
def publication (s : Arena) (index : ℕ) (descriptor : FrameDescriptor) (bytes : List UInt8)
    (hostTimeNs : ℕ) : Publication where
  generation := s.current
  index
  bytes
  descriptor := { descriptor with
    cursor := s.producer.cursor + 1
    slotId := index
    configGeneration := s.current
    payloadOffset := s.layout.payloadOffset index
    payloadLen := bytes.length }.stamp hostTimeNs

/-- `commit` keeps the descriptor's own payload length; the bytes are what the
reservation's holder left in the slot. -/
def committed (s : Arena) (g index : ℕ) (descriptor : FrameDescriptor) (hostTimeNs : ℕ) :
    Publication where
  generation := g
  index
  bytes := ((s.shared.maps g).records index).payload.take descriptor.payloadLen
  descriptor := { descriptor with
    cursor := s.producer.cursor + 1
    configGeneration := g
    slotId := index
    payloadOffset := (s.shared.maps g).layout.payloadOffset index }.stamp hostTimeNs

/-- One step of a slot scan. -/
def scanStep (s : Arena) : Pc → Option Arena
  | .scan w off =>
      some <| if ((s.shared.maps s.current).records (s.scanIndex off)).reserved
        then s.scanFrom w (off + 1) else s.goto (.scanState w off)
  | .scanState w off =>
      let generation := ((s.shared.maps s.current).records (s.scanIndex off)).state / 2
      some <| if generation ≠ 0 ∧ s.oldest ≤ generation then s.scanFrom w (off + 1)
        else s.goto (.scanRetire w off generation)
  | .scanRetire w off generation =>
      -- retire before scanning claims
      let s := s.onMap s.current fun map =>
        map.modify (s.scanIndex off) fun r => { r with state := 2 * generation }
      some <| if generation = 0 then s.found off w
        else s.goto (.scanClaims w off generation s.claimProbes)
  | .scanClaims w off _ [] => some (s.found off w)
  | .scanClaims w off generation ((i, k) :: probes) => do
      let inc ← s.incarnations i
      return if (inc.page.slot k).claim = generation then s.scanFrom w (off + 1)
        else s.goto (.scanClaims w off generation probes)
  | .reserveFlag index =>
      some <| (s.onMap s.current fun map =>
        map.modify index fun r => { r with reserved := true, reservation := .held }).finish
          (.reserved index)
  | _ => none

/-- One step of a publication: the slot's bytes, its descriptor, its state word,
the ring and `LATEST`. -/
def publishStep (s : Arena) (e : Env) : Pc → Option Arena
  | .prepare off =>
      some <| if e.fail then s.fail .storage
        else if e.skip then s.scanFrom (.publish .native) (off + 1)
        else
          let p := s.publication (s.scanIndex off) e.descriptor [] e.value
          (s.onMap s.current fun map =>
            map.modify (s.scanIndex off) fun r => { r with payload := e.bytes }).goto
              (.describe p (.finish (.published p.descriptor.cursor)))
  | .copy index descriptor bytes =>
      let p := s.publication index descriptor bytes e.value
      some <| (s.onMap s.current fun map =>
        map.modify index fun r => { r with payload := bytes ++ r.payload.drop bytes.length }).goto
          (.describe p (.finish (.published p.descriptor.cursor)))
  | .describe p after =>
      some <| (s.onMap p.generation fun map =>
        map.modify p.index fun r => { r with descriptor := p.descriptor }).goto (.store p after)
  | .store p after =>
      let s := s.onMap p.generation fun map =>
        map.modify p.index fun r => { r with state := 2 * p.descriptor.cursor + 1 }
      some <| { s with log := Function.update s.log p.descriptor.cursor (some p) }.goto
        (.ring p after)
  | .ring p after =>
      some <| (s.onControl fun c => { c with
        ring := Function.update c.ring ((p.descriptor.cursor - 1) % s.shared.history)
          (p.index + 1) }).goto (.latest p after)
  | .latest p after =>
      let s := s.onControl fun c => { c with latest := p.descriptor.cursor }
      let s := { s with producer := { s.producer with
        cursor := p.descriptor.cursor
        nextSlot := (p.index + 1) % (s.shared.maps p.generation).layout.resources } }
      some (s.overPages (.signal .data) after)
  | .commit g index descriptor =>
      -- every error drops the reservation
      let map := s.shared.maps g
      some <| if s.shared.control.terminal ≠ 0 then s.goto (.release g index (.error .closed))
        else if s.producer.resources ≠ some g then
          s.goto (.release g index
            (.error (.configuration "stale or foreign CPU reservation")))
        else if map.layout.payloadCapacity < descriptor.payloadLen then
          s.goto (.release g index (.error .payloadTooLarge))
        else if s.producer.cursor = maxGeneration then
          s.goto (.terminate (.release g index (.error .generationsExhausted)))
        else
          let p := s.committed g index descriptor e.value
          s.goto (.describe p (.release g index (.published p.descriptor.cursor)))
  | .release g index outcome =>
      some <| (s.onMap g fun map =>
        map.modify index fun r => { r with reserved := false, reservation := .absent }).finish
          outcome
  | _ => none

/-! ### Reconfiguration -/

/-- `begin_reconfiguration` up to its first store. -/
def beginReconfiguration (s : Arena) (payloadCapacity externalBytes : ℕ) : Arena :=
  if s.shared.control.terminal ≠ 0 then s.fail .closed
  else if s.producer.pendingLayout.isSome then s.fail (.admission .reconfigurationPending)
  else if s.producer.resources = none then s.goto .panicked
  else
    match ResourceLayout.new s.shared.page s.layout.resources s.layout.history payloadCapacity with
    | .error e => s.fail e
    | .ok layout =>
        if 2 ^ 64 ≤ layout.len + layout.payloadLen + externalBytes then
          s.fail (.configuration "replacement allocation byte total overflow")
        else
          match (AdmissionBook.beginReconfiguration
              (UInt64.ofNat (layout.len + layout.payloadLen + externalBytes))).on
                s.producer.admission with
          | (.ok _, book) => (s.setBook book).goto (.unconfigure layout)
          | (.error (.error e), book) => (s.setBook book).fail (.admission e)
          | (.error .panic, book) => (s.setBook book).goto .panicked

/-- Give up a reserved replacement whose allocation failed. -/
def abandonAllocation (s : Arena) (e : ArenaError) : Arena :=
  match AdmissionBook.abandonReconfigurationAllocation.on s.producer.admission with
  | (.ok _, book) => (s.setBook book).fail e
  | (.error (.error e'), book) => (s.setBook book).fail (.admission e')
  | (.error .panic, book) => (s.setBook book).goto .panicked

/-- Install a replacement of this many bytes under its reserved allocation. -/
def installAllocation (s : Arena) (layout : ResourceLayout) (id bytes : ℕ) : Arena :=
  match (AdmissionBook.installReconfiguration (UInt64.ofNat bytes)).on s.producer.admission with
  | (.error (.error e), book) => (s.setBook book).abandonAllocation (.admission e)
  | (.error .panic, book) => (s.setBook book).goto .panicked
  | (.ok _, book) =>
      let s := (s.setBook book).onMap id fun _ => ResourceMap.new layout
      { s with producer := { s.producer with
          resources := some id
          pendingLayout := none
          nextSlot := 0
          pc := .configure id } }

/-- `advance_with_allocation` after `poll_cleanup`: reserve, allocate the maps and
the external pool (`fail` and `broken`; `value` are its bytes), install. -/
def advance (s : Arena) (e : Env) : Arena :=
  match s.producer.pendingLayout with
  | none => s.finish (.ready s.shared.control.configuration)
  | some layout =>
      match AdmissionBook.reserveReconfiguration.on s.producer.admission with
      | (.error (.error (.insufficientMemory requested available)), book) =>
          (s.setBook book).finish (.pausedCapacity requested available)
      | (.error (.error e), book) => (s.setBook book).fail (.admission e)
      | (.error .panic, book) => (s.setBook book).goto .panicked
      | (.ok id, book) =>
          let s := s.setBook book
          let bytes := layout.len + layout.payloadLen + if s.shared.native then e.value else 0
          if e.fail then s.abandonAllocation .storage
          else if s.shared.native ∧ e.broken then s.abandonAllocation .storage
          else if 2 ^ 64 ≤ bytes then s.abandonAllocation (.admission .invalidAllocationSize)
          else s.installAllocation layout id bytes

/-- One step of a reconfiguration. -/
def reconfigureStep (s : Arena) : Pc → Option Arena
  | .begin payloadCapacity externalBytes =>
      some (s.beginReconfiguration payloadCapacity externalBytes)
  | .unconfigure layout =>
      some <| (s.onControl fun c => { c with configuration := 0 }).goto (.unpublishLoad layout 0)
  | .unpublishLoad layout index =>
      some <| if index < s.layout.resources then
          s.goto (.unpublish layout index ((s.shared.maps s.current).records index).state)
        else s.goto (.firstCursor layout)
  | .unpublish layout index state =>
      some <| (s.onMap s.current fun map =>
        map.modify index fun r => { r with state := 2 * (state / 2) }).goto
          (.unpublishLoad layout (index + 1))
  | .firstCursor layout =>
      let s := s.onControl fun c => { c with firstCursor := s.producer.cursor + 1 }
      some { s with producer := { s.producer with
        retired := s.producer.retired ++ [⟨s.current, s.shared.native⟩]
        resources := none
        pendingLayout := some layout
        pc := .epochLoad .advance } }
  | .configure g =>
      some <| (s.onControl fun c => { c with configuration := g }).goto
        (.epochLoad (.finish (.ready g)))
  | .epochLoad after => some (s.goto (.epoch s.shared.control.reconfigurationEpoch after))
  | .epoch value after =>
      some <| if 2 ^ 64 ≤ value + 1 then
          s.goto (.terminate (.finish (.error .generationsExhausted)))
        else if s.shared.control.reconfigurationEpoch = value then
          (s.onControl fun c => { c with reconfigurationEpoch := value + 1 }).overPages
            (.signal .reconfiguration) after
        else s.goto (.epoch s.shared.control.reconfigurationEpoch after)
  | _ => none

/-! ### Calls on the claim pages -/

/-- Start the producer's call on one page. -/
def callPage (s : Arena) (i : ℕ) (todo : List HostOp) : Arena :=
  s.onPage i fun inc => { inc with host := todo, hostFault := false, reply := .done }

/-- One step of a loop over the claim pages, or of a call on one of them. A failed
`signal` ends the loop with an error; `close` ignores it. -/
def pagesStep (s : Arena) (e : Env) : Pc → Option Arena
  | .terminate after =>
      some <| (s.onControl fun c => { c with terminal := 1 }).overPages .close after
  | .pages _ [] after => some (s.continue_ after)
  | .pages call (i :: todo) after =>
      some <| (s.callPage i [.page call.op]).goto (.paged call i todo after)
  | .paged call i todo after => do
      let inc ← s.incarnations i
      if inc.host = [] then
        return if call ≠ .close ∧ inc.hostFault then
            match after with
            | .release g index _ => s.goto (.release g index (.error .notification))
            | _ => s.fail .notification
          else s.goto (.pages call todo after)
      else none
  | .offering i => do
      let inc ← s.incarnations i
      if inc.host = [] then
        return match inc.reply with
          | .offer m => s.finish (.offered m)
          | .error e => s.fail e
          | _ => s.finish .noOffer
      else none
  | .registering i => do
      let inc ← s.incarnations i
      if inc.host = [] then
        match inc.reply with
        | .error e => return s.fail e
        | _ =>
            if inc.observer.todo = [] then
              return (s.onPage i fun inc =>
                { inc with observer := { inc.observer with todo := [.register] } }).goto
                  (.registered i)
            else none
      else none
  | .registered i => do
      let inc ← s.incarnations i
      if inc.observer.todo = [] then
        return match inc.reply with
          | .registered id => s.finish (.registered id)
          | .error e => s.fail e
          | _ => s.finish .done
      else none
  | .retrying i => do
      let inc ← s.incarnations i
      if inc.observer.todo = [] then
        return if inc.observer.notificationFailed then s.fail .notification
          else
            let s := s.onPage i fun inc =>
              { inc with observer := { inc.observer with failure := false } }
            if e.fail then s.fail .notification
            else if e.skip then s.fail .recoveryRequired
            else s.finish .done
      else none
  | .exporting =>
      some <| if s.shared.control.terminal ≠ 0 then s.fail .closed
        else match s.producer.resources with
          | none => s.finish .noOffer
          | some g =>
              if (s.shared.maps g).layout.payloadCapacity = 0 then
                s.fail (.configuration "writer export requires nonzero CPU storage")
              else
                (s.onMap g fun map => { map with exports := map.exports + 1 }).finish .exported
  | .dropping [] => some (s.goto .gone)
  | .dropping (i :: todo) => do
      let inc ← s.incarnations i
      if inc.observer.todo = [] then
        return (s.onPage i fun inc =>
          { inc with observer := { inc.observer with present := false } }).goto (.dropping todo)
      else none
  | _ => none

/-! ### The rest of a call after `poll_cleanup` -/

/-- `attach_with_recipient` after `poll_cleanup`. No mapping escapes before the
claim page is complete, so a failed setup rolls the admission back. -/
def attach (s : Arena) (e : Env) (holding : UInt32) (remote : Bool) : Arena :=
  match claimAllocationLen s.shared.page holding.toNat with
  | .error err => s.fail err
  | .ok len =>
      match (AdmissionBook.admitHolding ⟨holding, UInt64.ofNat len⟩).on s.producer.admission with
      | (.error (.error err), book) => (s.setBook book).fail (.admission err)
      | (.error .panic, book) => (s.setBook book).goto .panicked
      | (.ok reservation, book) =>
          let i := reservation.incarnation
          if e.fail then
            match (AdmissionBook.close i).on book with
            | (.ok _, book) =>
                match (AdmissionBook.completeCleanup i).on book with
                | (.ok _, book) => (s.setBook book).fail .storage
                | (.error (.error err), book) => (s.setBook book).fail (.admission err)
                | (.error .panic, book) => (s.setBook book).goto .panicked
            | (.error (.error err), book) => (s.setBook book).fail (.admission err)
            | (.error .panic, book) => (s.setBook book).goto .panicked
          else
            match s.producer.resources with
            | none => (s.setBook book).goto .panicked
            | some g =>
                let s := s.setBook book
                { s with
                  incarnations := Function.update s.incarnations i
                    (some (Incarnation.new holding.toNat remote g))
                  producer := { s.producer with
                    claims := s.producer.claims ++ [i]
                    pc := .idle
                    outcome := .attached i } }

/-- The rest of the call that `poll_cleanup` ran for. -/
def resume (s : Arena) (e : Env) : Goal → Arena
  | .publish source =>
      match s.producer.resources with
      | none => s.finish .dropped
      | some _ =>
          if s.layout.payloadCapacity < source.len then s.fail .payloadTooLarge
          else if s.producer.cursor = maxGeneration then
            s.goto (.terminate (.finish (.error .generationsExhausted)))
          else s.scanFrom (.publish source) 0
  | .reserve =>
      if s.producer.cursor = maxGeneration then
        s.goto (.terminate (.finish (.error .generationsExhausted)))
      else match s.producer.resources with
        | none => s.finish .noSlot
        | some _ =>
            if s.layout.payloadCapacity = 0 then
              s.fail (.configuration "CPU reservation requires nonzero storage")
            else s.scanFrom .reserve 0
  | .attach holding remote => s.attach e holding remote
  | .advance => s.advance e
  | .poll => s.finish (.released s.producer.released)
  | .shutdown => s.goto .shutdown

/-- One step of the producer's thread. -/
def producerStep (s : Arena) (e : Env) : Option Arena :=
  match s.producer.pc with
  | .idle | .panicked | .gone => none
  | .terminal goal =>
      some <| if s.shared.control.terminal ≠ 0 then s.fail .closed
        else { s with producer := { s.producer with
          released := 0, pc := .cleanup (.observers s.producer.claims) goal } }
  | .cleanup c goal => s.cleanupStep e goal c
  | .resume goal => some (s.resume e goal)
  | .shutdown =>
      some (s.finish (.shutdown (s.shared.control.terminal != 0 && s.producer.claims.isEmpty &&
        s.producer.retired.isEmpty)))
  | .scan .. | .scanState .. | .scanRetire .. | .scanClaims .. | .reserveFlag .. =>
      s.scanStep s.producer.pc
  | .prepare .. | .copy .. | .describe .. | .store .. | .ring .. | .latest .. | .commit ..
  | .release .. => s.publishStep e s.producer.pc
  | .begin .. | .unconfigure .. | .unpublishLoad .. | .unpublish .. | .firstCursor ..
  | .configure .. | .epochLoad .. | .epoch .. => s.reconfigureStep s.producer.pc
  | _ => s.pagesStep e s.producer.pc

/-! ### Calls of the host -/

/-- The public operations of the producer. -/
inductive Op where
  | publish (source : Source)
  | reserve
  | commit (generation index : ℕ) (descriptor : FrameDescriptor)
  | attach (holding : UInt32) (remote : Bool)
  | close (i : ℕ)
  | stop
  | pollCleanup
  | pollShutdownReady
  | reconfigureCpu (payloadCapacity : ℕ)
  | reconfigureNative (externalBytes : ℕ)
  | advanceReconfiguration
  | configurationOffer (i : ℕ)
  | registerReleaseTimeline (i : ℕ)
  | retryCleanup (i : ℕ)
  | exportWriter
  | drop
  deriving DecidableEq, Repr

/-- Start `poll_cleanup` for a call that does not check `TERMINAL` first. -/
def startCleanup (s : Arena) (goal : Goal) : Arena :=
  { s with producer := { s.producer with
      released := 0, pc := .cleanup (.observers s.producer.claims) goal } }

/-- Begin an operation: the checks on the producer's own fields, up to the first
access to shared memory. -/
def begin (s : Arena) : Op → Option Arena
  | .publish (.cpu descriptor bytes) =>
      some (s.goto (.terminal (.publish (.cpu descriptor bytes))))
  | .publish .native =>
      some <| if s.producer.resources.isSome ∧ s.layout.payloadCapacity ≠ 0 then
          s.fail (.configuration "native resources require no inline CPU storage")
        else s.goto (.terminal (.publish .native))
  | .reserve =>
      some <| if s.shared.native then
          s.fail (.configuration "CPU reservation requires CPU arena")
        else s.goto (.terminal .reserve)
  | .commit g index descriptor =>
      if ((s.shared.maps g).records index).reservation = .held then
        some ((s.onMap g fun map =>
          map.modify index fun r => { r with reservation := .committing }).goto
            (.commit g index descriptor))
      else none
  | .attach holding remote => some (s.goto (.terminal (.attach holding remote)))
  | .close i =>
      some <| if i ∈ s.producer.claims then s.goto (.pages .close [i] (.close i))
        else s.fail (.admission .unknownIncarnation)
  | .stop => some (s.goto (.terminate (.finish .done)))
  | .pollCleanup => some (s.startCleanup .poll)
  | .pollShutdownReady => some (s.startCleanup .shutdown)
  | .reconfigureCpu payloadCapacity =>
      some <| if s.shared.native then
          s.fail (.configuration "CPU reconfiguration cannot replace an external native pool")
        else s.goto (.begin payloadCapacity 0)
  | .reconfigureNative externalBytes =>
      some <| if s.shared.native then s.goto (.begin 0 externalBytes)
        else s.fail (.configuration "native replacement requires an external pool")
  | .advanceReconfiguration => some (s.goto (.terminal .advance))
  | .configurationOffer i =>
      some <| if i ∈ s.producer.claims then
          (s.callPage i [.offerActive s.producer.resources]).goto (.offering i)
        else s.fail (.admission .unknownIncarnation)
  | .registerReleaseTimeline i =>
      some <| if i ∈ s.producer.claims then
          (s.callPage i [.registerActive]).goto (.registering i)
        else s.fail (.admission .unknownIncarnation)
  | .retryCleanup i =>
      some <| if i ∈ s.producer.claims then s.goto (.retrying i)
        else s.fail (.admission .unknownIncarnation)
  | .exportWriter =>
      some <| if s.shared.native then
          s.fail (.configuration "writer export requires CPU arena")
        else s.goto .exporting
  | .drop => some (s.goto (.terminate .drop))

/-- What may happen next in the arena. -/
inductive Label where
  /-- the host calls the idle producer -/
  | call (op : Op)
  /-- the producer's thread takes one step -/
  | producer (e : Env)
  /-- something happens on one incarnation -/
  | incarnation (i : ℕ) (l : IncLabel)
  /-- the holder of a reservation, or its delegate, writes the slot -/
  | write (generation index : ℕ) (bytes : List UInt8)
  /-- `abandon`, or a dropped reservation: the flag, then the `Arc` -/
  | abandon (generation index : ℕ)
  | releaseMap (generation : ℕ)
  /-- a dropped `WriterExport` -/
  | dropExport (generation : ℕ)
  deriving DecidableEq, Repr

/-- **One step of the arena.** -/
def step (s : Arena) : Label → Option Arena
  | .call op => if s.producer.pc = .idle then s.begin op else none
  | .producer e => s.producerStep e
  | .incarnation i l => do
      let inc ← s.incarnations i
      let inc' ← inc.step s.shared l
      return { s with incarnations := Function.update s.incarnations i (some inc') }
  | .write g index bytes =>
      let r := (s.shared.maps g).records index
      if r.reservation = .held ∧ bytes.length = r.payload.length then
        some (s.onMap g fun map => map.modify index fun r => { r with payload := bytes })
      else none
  | .abandon g index =>
      if ((s.shared.maps g).records index).reservation = .held then
        some (s.onMap g fun map =>
          { map.modify index fun r => { r with reserved := false, reservation := .absent } with
            releasing := map.releasing + 1 })
      else none
  | .releaseMap g =>
      if 0 < (s.shared.maps g).releasing then
        some (s.onMap g fun map => { map with releasing := map.releasing - 1 })
      else none
  | .dropExport g =>
      if 0 < (s.shared.maps g).exports then
        some (s.onMap g fun map => { map with exports := map.exports - 1 })
      else none

end Arena

end Jackstay.Acquisition
