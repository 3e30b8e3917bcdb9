import Jackstay.Input.Model

/-!
`input/session.rs`: the input target, its one active controller and the executor's
side of it.

`State` is what the mutex of a `Target` guards, with the mailboxes of all controllers
beside it, by controller id: `Active` and `Controller` share one. Every public call is
one function on `State`. `poll` takes the lock of a mailbox only; a poll between two
statuses of one call yields what a poll before or after the call does, since no call
posts more than half of what a mailbox holds.

`Instant::now` is an argument of the calls that read the clock. Counters of type `u64`
wrap as they do in a release build. `overflowed` is a history variable.
-/

namespace Jackstay.Input

/-- `Controller`. -/
structure Controller where
  id : UInt64
  mode : Mode
  deriving DecidableEq, Repr

/-- `Active`. -/
structure Active where
  id : UInt64
  mode : Mode
  epoch : UInt64
  lastSequence : UInt64
  lastSeen : ℕ
  keys : Finmap fun _ : UInt64 => Key
  buttons : Finset UInt32
  scrollOpen : Bool

/-- `Barrier`; `ending` is the source's `end`. -/
structure Barrier where
  scope : Scope
  reason : Reason
  ending : Bool
  deriving DecidableEq, Repr

/-- `Flight`. -/
structure Flight where
  work : Work
  ending : Bool
  deriving DecidableEq, Repr

/-- `State`, with the mailboxes. -/
structure State where
  config : Config
  nextController : UInt64 := 0
  nextWork : UInt64 := 0
  active : Option Active := none
  queue : List Work := []
  flight : Option Flight := none
  barrier : Option Barrier := none
  failed : Bool := false
  mailboxes : UInt64 → List Status := fun _ => []
  /-- the mailbox of this controller has overflowed -/
  overflowed : UInt64 → Bool := fun _ => false

/-! ### Validation -/

/-- `position`. -/
def position (c : Config) (p : Position) : Except Error Unit :=
  if p.revision ≠ c.geometry.revision then .error .stale
  else if !p.x.isFinite || !p.y.isFinite || p.x.lt .zero || p.y.lt .zero ||
      c.geometry.width.le p.x || c.geometry.height.le p.y then .error .invalid
  else .ok ()

/-- What `validate` checks of an event, with the capability it needs; `none` when the
event needs none. -/
def validateEvent (c : Config) (mode : Mode) : Event → Except Error (Option UInt32)
  | .key press action key modifiers =>
      if press = 0 ∨ modifiers &&& ~~~0xff ≠ 0 then .error .invalid
      else if action = .repeat ∧ mode = .physical then .error .unsupported
      else if key.name.isEmpty ∨ 63 < key.name.utf8ByteSize ∨ '\x00' ∈ key.name.toList then
        .error .invalid
      else if action ≠ .down then .ok none
      else match key with
        | .physical name =>
            if name.toList.all Char.isAlphanum then .ok (some capPhysical) else .error .invalid
        | .logical _ => .ok (some capLogical)
  | .text t =>
      if t.isEmpty ∨ c.maxTextBytes < t.utf8ByteSize then .error .invalid else .ok (some capText)
  | .motion p => do
      position c p
      return some capPointer
  | .button button action p =>
      if button < 1 ∨ 32 < button ∨ action = .repeat ∨ p.x.isFinite = false ∨
          p.y.isFinite = false then .error .invalid
      else do
        -- a release does not depend on the current geometry
        if action = .down then position c p
        return some capPointer
  | .scroll x y _ phase _ _ p =>
      if x.isFinite = false ∨ y.isFinite = false ∨
          (phase = some .stationary ∧ (x.eq .zero = false ∨ y.eq .zero = false)) then
        .error .invalid
      else do
        position c p
        return some capScroll

/-- `validate`. -/
def validate (c : Config) (mode : Mode) (e : Event) : Except Error Unit := do
  match ← validateEvent c mode e with
  | none => .ok ()
  | some capability =>
      if c.capabilities &&& capability = 0 then .error .unsupported else .ok ()

/-- A cleanup of this scope drops the work. -/
def Scope.drops (scope : Scope) (w : Work) : Bool :=
  scope == .all || match w.operation with
    | .event e => e.pointer
    | .cleanup _ _ => false

namespace State

/-! ### Statuses and barriers -/

/-- The statuses a mailbox holds. -/
def mailboxCapacity (s : State) : ℕ := s.config.maxEvents * 2 + 4

/-- `State::status`. -/
def status (s : State) (status : Status) : State :=
  match s.active with
  | none => s
  | some a =>
      let mailbox := s.mailboxes a.id
      -- adjacent unread counts are one status
      match mailbox.getLast?.bind (·.mergeCoalesced status) with
      | some merged =>
          { s with mailboxes := Function.update s.mailboxes a.id (mailbox.dropLast ++ [merged]) }
      | none =>
          if s.mailboxCapacity ≤ mailbox.length then
            { s with
              mailboxes := Function.update s.mailboxes a.id [.closed .overflow false]
              queue := []
              barrier := some ⟨.all, .overflow, true⟩
              overflowed := Function.update s.overflowed a.id true }
          else
            { s with mailboxes := Function.update s.mailboxes a.id (mailbox ++ [status]) }

/-- The rest of the loop of `cancel`: `keep` is what it has kept so far. A status that
overflows the mailbox empties the queue under the loop. The count is the length of the
queue. -/
def cancelQueue (scope : Scope) : ℕ → State → List Work → State
  | 0, s, keep => { s with queue := keep }
  | n + 1, s, keep =>
      match s.queue with
      | [] => { s with queue := keep }
      | w :: queue =>
          if scope.drops w then
            cancelQueue scope n
              (({ s with queue } : State).status (.rejected w.sequence .stale)) keep
          else cancelQueue scope n { s with queue } (keep ++ [w])

/-- `State::cancel`. -/
def cancel (s : State) (scope : Scope) (reason : Reason) (ending : Bool) : State :=
  if s.active.isNone then s
  else
    let old := s.barrier
    let scope := if old.any (·.scope == .all) || ending then .all else scope
    let flightEnds := s.flight.any (·.ending)
    let reason := match old with
      | some b => if b.ending then b.reason else reason
      | none => reason
    -- a cleanup in flight that ends the controller suffices
    if flightEnds then s
    else
      let barrier : Barrier := ⟨scope, reason, ending || old.any (·.ending) || flightEnds⟩
      cancelQueue scope s.queue.length { s with barrier := some barrier } []

/-- `State::expire`. -/
def expire (s : State) (now : ℕ) : State :=
  match s.active with
  | some a =>
      if s.config.idleTimeout ≤ now - a.lastSeen then s.cancel .all .expired true else s
  | none => s

/-! ### Held keys and buttons -/

/-- `State::bind`: the work as it is dispatched, or `none` when there is nothing to
release. -/
def bind (s : State) (w : Work) : Except Error (Option Work) :=
  match s.active with
  | none => .error .closed
  | some a =>
      match w.operation with
      | .event (.key press .down _ _) =>
          if press ∈ a.keys ∨ s.config.maxEvents ≤ a.keys.keys.card then .error .invalid
          else .ok (some w)
      | .event (.key press action _ modifiers) =>
          match a.keys.lookup press with
          | none => if action = .up then .ok none else .error .invalid
          | some binding =>
              .ok (some { w with operation := .event (.key press action binding modifiers) })
      | .event (.button button action _) =>
          if action = .up ∧ button ∉ a.buttons then .ok none
          else if decide (action = .down) = decide (button ∈ a.buttons) then .error .invalid
          else .ok (some w)
      | _ => .ok (some w)

/-- `State::apply`. -/
def apply (s : State) (event : Event) : State :=
  match s.active with
  | none => s
  | some a =>
      match event with
      | .key press .down key _ => { s with active := some { a with keys := a.keys.insert press key } }
      | .key press .up _ _ => { s with active := some { a with keys := a.keys.erase press } }
      | .button button .down _ =>
          { s with active := some { a with buttons := insert button a.buttons } }
      | .button button .up _ =>
          { s with active := some { a with buttons := a.buttons.erase button } }
      | _ => s

/-! ### The target -/

/-- `Target::new`. -/
def new (config : Config) : Except Error State :=
  if config.modes = 0 ∨ config.modes &&& ~~~7 ≠ 0 ∨ config.capabilities &&& ~~~capAll ≠ 0 ∨
      config.maxEvents = 0 ∨ 65536 < config.maxEvents ∨ config.maxBytes < 112 ∨
      16 * 1024 * 1024 < config.maxBytes ∨ config.maxTextBytes = 0 ∨
      16384 < config.maxTextBytes ∨ config.idleTimeout / 10 ^ 6 < 100 ∨
      3600 < config.idleTimeout / 10 ^ 9 ∨ config.geometry.valid = false then .error .invalid
  else .ok { config }

/-- `Target::admit`. -/
def admitController (s : State) (mode : Mode) (now : ℕ) : State × Except Error Controller :=
  if s.failed then (s, .error .cleanupFailed)
  else if s.active.isSome then (s, .error .busy)
  else if s.config.modes &&& mode.bit = 0 then (s, .error .unsupported)
  else if s.nextController.toNat + 1 < 2 ^ 64 then
    let id := s.nextController + 1
    ({ s with
        nextController := id
        active := some
          { id
            mode
            epoch := 1
            lastSequence := 0
            lastSeen := now
            keys := ∅
            buttons := ∅
            scrollOpen := false }
        mailboxes := Function.update s.mailboxes id [] }, .ok ⟨id, mode⟩)
  else (s, .error .closed)

/-- The loop of `next` over the queue; the count is its length. -/
def dispatch : ℕ → State → State × Option Work
  | 0, s => (s, none)
  | n + 1, s =>
      match s.queue with
      | [] => (s, none)
      | work :: queue =>
          let s := { s with queue }
          match s.bind work with
          | .ok (some work) => ({ s with flight := some ⟨work, false⟩ }, some work)
          | .ok none =>
              let s := s.status (.completed work.sequence .executed)
              if s.barrier.isSome then (s, none) else dispatch n s
          | .error error =>
              let s := s.status (.rejected work.sequence error)
              if s.barrier.isSome then (s, none) else dispatch n s

/-- `Target::next`. -/
def next (s : State) (now : ℕ) : State × Option Work :=
  let s := s.expire now
  if s.flight.isSome then (s, none)
  else match s.barrier with
    | some b =>
        let s := { s with barrier := none }
        match s.active with
        | none => (s, none)
        | some a =>
            let work : Work :=
              { mode := a.mode
                id := s.nextWork + 1
                controller := a.id
                epoch := a.epoch
                sequence := 0
                operation := .cleanup b.scope b.reason }
            ({ s with nextWork := s.nextWork + 1, flight := some ⟨work, b.ending⟩ }, some work)
    | none => s.dispatch s.queue.length

/-- `Target::complete` for an event. -/
def completeEvent (s : State) (sequence : UInt64) (event : Event) (outcome : Outcome) : State :=
  let s := if outcome = .executed then s.apply event else s
  let s := s.status (.completed sequence outcome)
  if outcome = .partially ∨ outcome = .uncertain then s.cancel .all .execution true else s

/-- A cleanup has been executed: nothing of its scope is held any more. -/
def release (s : State) (scope : Scope) : State :=
  { s with active := s.active.map fun a =>
      { a with
        buttons := ∅
        scrollOpen := false
        keys := if scope = .all then ∅ else a.keys } }

/-- A cleanup that ends nothing begins a new epoch. -/
def renew (s : State) : State :=
  match s.active with
  | none => s
  | some a =>
      -- preserved keyboard work belongs to the new epoch
      ({ s with
          active := some { a with epoch := a.epoch + 1 }
          queue := s.queue.map fun w => { w with epoch := a.epoch + 1 } } : State).status
        (.reset (a.epoch + 1) s.config.geometry)

/-- `Target::complete` for a cleanup. -/
def completeCleanup (s : State) (scope : Scope) (reason : Reason) (ending : Bool)
    (outcome : Outcome) : State × Except Error Unit :=
  if outcome ≠ .executed then
    let s := { s with failed := true, queue := [], barrier := none }
    let s := s.status (.closed reason false)
    ({ s with active := none }, .error .cleanupFailed)
  else
    let s := s.release scope
    if ending then
      let s := s.status (.closed reason true)
      ({ s with active := none, barrier := none, queue := [] }, .ok ())
    else if s.barrier.isNone then (s.renew, .ok ())
    else (s, .ok ())

/-- `Target::complete`. -/
def complete (s : State) (id : UInt64) (outcome : Outcome) : State × Except Error Unit :=
  match s.flight with
  | none => (s, .error .invalid)
  | some f =>
      if f.work.id ≠ id then (s, .error .invalid)
      else
        let s := { s with flight := none }
        match f.work.operation with
        | .event event => (s.completeEvent f.work.sequence event outcome, .ok ())
        | .cleanup scope reason => s.completeCleanup scope reason f.ending outcome

/-- `Target::set_geometry`. -/
def setGeometry (s : State) (geometry : Geometry) : State × Except Error Unit :=
  if geometry.valid = false ∨ geometry.revision ≤ s.config.geometry.revision then
    (s, .error .invalid)
  else
    let s := { s with config := { s.config with geometry } }
    (if s.active.isSome then s.cancel .pointer .geometry false else s, .ok ())

/-- `Target::idle`. -/
def idle (s : State) : Bool := s.active.isNone && s.flight.isNone && !s.failed

/-- `Target::resolve_failed_cleanup`. -/
def resolveFailedCleanup (s : State) : State × Except Error Unit :=
  if s.failed = false ∨ s.flight.isSome then (s, .error .invalid)
  else ({ s with failed := false }, .ok ())

/-! ### The controller -/

/-- `Controller::heartbeat`. -/
def heartbeat (s : State) (c : Controller) (now : ℕ) : State × Except Error Unit :=
  let s := s.expire now
  match s.active with
  | none => (s, .error .closed)
  | some a =>
      if a.id ≠ c.id then (s, .error .closed)
      else ({ s with active := some { a with lastSeen := now } }, .ok ())

/-- `work_bytes`. -/
def workBytes (w : Work) : ℕ :=
  match w.operation with
  | .event e => e.bytes
  | .cleanup _ _ => 0

/-- The charge of the queue and of what is in flight. -/
def charged (s : State) : ℕ :=
  (s.queue.map workBytes).sum + (s.flight.map fun f => workBytes f.work).getD 0

/-- The flight is a cleanup. -/
def cleaning (s : State) : Bool :=
  s.flight.any fun f => match f.work.operation with
    | .cleanup _ _ => true
    | .event _ => false

/-- The queue ends in a motion. -/
def motionTail (s : State) : Bool :=
  s.queue.getLast?.any fun w => match w.operation with
    | .event e => e.isMotion
    | .cleanup _ _ => false

/-- `Controller::submit` for a valid event: supersede the queued tail, or accept. -/
def accept (s : State) (c : Controller) (a : Active) (epoch sequence : UInt64) (event : Event) :
    State × Except Error Unit :=
  if event.isMotion && s.motionTail then
    (({ s with queue := s.queue.dropLast ++ s.queue.getLast?.toList.map fun tail =>
        { tail with sequence, operation := .event event } } : State).status (.coalesced 1), .ok ())
  else if s.config.maxEvents ≤ s.queue.length + s.flight.toList.length ∨
      s.config.maxBytes < s.charged + event.bytes then
    (s.cancel .all .overflow true, .error .overflow)
  else
    ({ s with
        active := some { a with scrollOpen := a.scrollOpen || event.scrollStart }
        nextWork := s.nextWork + 1
        queue := s.queue ++ [
          { mode := c.mode
            id := s.nextWork + 1
            controller := c.id
            epoch
            sequence
            operation := .event event }] }, .ok ())

/-- `Controller::submit`. -/
def submit (s : State) (c : Controller) (now : ℕ) (epoch sequence : UInt64) (event : Event) :
    State × Except Error Unit :=
  let s := s.expire now
  match s.active with
  | none => (s, .error .closed)
  | some a =>
      if a.id ≠ c.id then (s, .error .closed)
      else if sequence = 0 ∨ sequence ≤ a.lastSequence then (s, .error .invalid)
      else
        let a := { a with lastSequence := sequence }
        let s := { s with active := some a }
        if epoch ≠ a.epoch then (s, .error .stale)
        else if s.barrier.isSome || s.cleaning then (s, .error .busy)
        else match validate s.config a.mode event with
          | .error e => (s, .error e)
          | .ok () =>
              if !a.scrollOpen && !event.scrollStart && event.scrollContinuation then
                (s, .error .stale)
              else s.accept c a epoch sequence event

/-- `Controller::reset`. -/
def reset (s : State) (c : Controller) : State × Except Error Unit :=
  if s.active.any (·.id == c.id) then (s.cancel .all .focus false, .ok ())
  else (s, .error .closed)

/-- `Controller::close`, and the drop of a `Controller`. -/
def close (s : State) (c : Controller) : State :=
  if s.active.any (·.id == c.id) then s.cancel .all .disconnect true else s

/-- `Controller::poll`. -/
def poll (s : State) (c : Controller) : State × Option Status :=
  ({ s with mailboxes := Function.update s.mailboxes c.id (s.mailboxes c.id).tail },
    (s.mailboxes c.id).head?)

end State

/-! ### Calls -/

/-- The public calls that change something, with what they read of the clock. -/
inductive Call where
  | admitController (mode : Mode) (now : ℕ)
  | next (now : ℕ)
  | complete (id : UInt64) (outcome : Outcome)
  | setGeometry (geometry : Geometry)
  | tick (now : ℕ)
  | resolveFailedCleanup
  | heartbeat (c : Controller) (now : ℕ)
  | submit (c : Controller) (now : ℕ) (epoch sequence : UInt64) (event : Event)
  | reset (c : Controller)
  | close (c : Controller)
  | drop (c : Controller)
  | poll (c : Controller)
  deriving DecidableEq, Repr

/-- What a call returns. -/
inductive Reply where
  | done
  | error (e : Error)
  | admitted (c : Controller)
  | work (w : Option Work)
  | status (status : Option Status)
  deriving DecidableEq, Repr

/-- The reply of a call that returns nothing but success. -/
def Reply.ofExcept : Except Error Unit → Reply
  | .ok () => .done
  | .error e => .error e

/-- **One call on the target or on a controller.** -/
def State.call (s : State) : Call → State × Reply
  | .admitController mode now =>
      match s.admitController mode now with
      | (s, .ok c) => (s, .admitted c)
      | (s, .error e) => (s, .error e)
  | .next now => ((s.next now).1, .work (s.next now).2)
  | .complete id outcome => ((s.complete id outcome).1, .ofExcept (s.complete id outcome).2)
  | .setGeometry geometry => ((s.setGeometry geometry).1, .ofExcept (s.setGeometry geometry).2)
  | .tick now => (s.expire now, .done)
  | .resolveFailedCleanup => (s.resolveFailedCleanup.1, .ofExcept s.resolveFailedCleanup.2)
  | .heartbeat c now => ((s.heartbeat c now).1, .ofExcept (s.heartbeat c now).2)
  | .submit c now epoch sequence event =>
      ((s.submit c now epoch sequence event).1, .ofExcept (s.submit c now epoch sequence event).2)
  | .reset c => ((s.reset c).1, .ofExcept (s.reset c).2)
  | .close c => (s.close c, .done)
  | .drop c => (s.close c, .done)
  | .poll c => ((s.poll c).1, .status (s.poll c).2)

end Jackstay.Input
