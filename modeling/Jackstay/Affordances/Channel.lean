import Jackstay.Library.BTreeMap
import Jackstay.Library.Transition
import Jackstay.Affordances.Snapshot

/-!
`affordances.rs`: one end of a semantic channel, with the thread that drives it.

The calls of the owner (`publish`, `send`, `poll`, `close`) take the lock of the
state and are one step each. The worker runs `drive`: it holds the lock while it
moves messages to the wire and while it decodes a message, and not while it
flushes or receives, so that calls come between any two turns of those.

* `decode`: what a message means to an end, given its snapshots;
* `Channel`, `Channel.enqueueLocked`, `Channel.publish`, `Channel.send`, …: the calls;
* `Channel.work`: one step of `drive`, and of the closing that follows it;
* `Channel.step`: the end as a transition system.
-/

namespace Jackstay.Affordances

open Framing

/-! ### Messages -/

/-- `serde_json::to_vec` and `serde_json::from_slice`, at `Value`. Writing a value cannot
fail, and no JSON text is empty. -/
structure JsonText where
  toVec : Value → List UInt8
  fromSlice : List UInt8 → Except IoError Value
  toVec_ne_nil : ∀ v, toVec v ≠ []

/-- The compact texts of values, and a reading of those of some values; the text of an `f64` is
that of zero. -/
def jsonOf (vs : List Value) : JsonText where
  toVec v := (v.print fun _ => ['0', '.', '0']).flatMap String.utf8EncodeChar
  fromSlice bytes :=
    match vs.find? fun v =>
        (v.print fun _ => ['0', '.', '0']).flatMap String.utf8EncodeChar == bytes with
    | some v => .ok v
    | none => .error (.json "expected value at line 1 column 1")
  toVec_ne_nil v := by
    obtain ⟨c, cs, hprint⟩ :=
      List.exists_cons_of_ne_nil (Value.print_ne_nil (fun _ => List.cons_ne_nil '0' ['.', '0']) v)
    rw [hprint, List.flatMap_cons]
    refine List.append_ne_nil_of_left_ne_nil ?_ _
    exact List.ne_nil_of_length_pos (by rw [String.length_utf8EncodeChar]; exact c.utf8Size_pos)

/-- The codec of a wire that carries values. -/
def JsonText.codec (json : JsonText) : Codec Value where
  toVec v := .ok (json.toVec v)
  fromSlice := json.fromSlice

/-- `Event`. -/
inductive Event where
  | snapshot (v : Snapshot)
  | verb (v : Verb)
  | closed

/-- `State`. -/
structure State where
  outgoing : List Value := []
  bytes : ℕ := 0
  wireBytes : ℕ := 0
  events : List Event := []
  eventBytes : ℕ := 0
  snapshots : BTreeMap Snapshot := .empty
  alive : Bool := true

/-- The snapshot of a domain. -/
def State.snapshot (s : State) (d : Domain) : Option Snapshot := s.snapshots.get d.index

/-- A snapshot takes the place of the one before; a withdrawal takes it away. -/
def State.store (s : State) (v : Snapshot) : State :=
  match v with
  | .withdraw d => { s with snapshots := s.snapshots.remove d.index }
  | v => { s with snapshots := s.snapshots.insert v.domain.index v }

/-- `event_size`. -/
def eventSize (json : JsonText) : Event → ℕ
  | .snapshot v => (json.toVec v.wire).length + 4
  | .verb v => (json.toVec v.body).length + v.name.utf8ByteSize + 64
  | .closed => 0

/-- `ok_or_else(invalid)`. -/
def orInvalid {α : Type} : Option α → Except Error α
  | some a => .ok a
  | none => .error .invalid

/-- What `decode` makes of a verb that is known, given the snapshot of its domain. -/
def decodeVerb (snapshot : Snapshot) (d : Domain) (name : String) (o : Value) :
    Except Error (Option Event) :=
  if ((snapshot.body.index "capabilities").index name).asBool ≠ some true then .ok none
  else do
    let body ← orInvalid (o.get "body")
    let verb : Verb := { domain := d, name, body }
    let valid ← validateVerb verb
    if valid = false then return none
    else
      match snapshot with
      | .scroll scroll =>
          if (verb.body.index "axis").asStr = some "x" ∧ scroll.x.scrollable = false ∨
              (verb.body.index "axis").asStr = some "y" ∧ scroll.y.scrollable = false then
            return none
          else return some (.verb verb)
      | _ => return some (.verb verb)

/-- `decode`. -/
def decode (v : Value) (s : State) (producer : Bool) : Except Error (Option Event) := do
  refuse (v.isObject = false)
  let version ← orInvalid ((v.get "version").bind Value.asU64)
  let d ← orInvalid ((v.get "domain").bind Value.asStr)
  let dv ← orInvalid ((v.get "domain_version").bind Value.asU64)
  let kind ← orInvalid ((v.get "kind").bind Value.asStr)
  refuse (version ≠ 1)
  match Domain.parse d with
  | none => return none
  | some d =>
      if dv ≠ 1 then return none
      else if kind = "snapshot" then do
        refuse (decide (d = .presentation) ≠ producer)
        let body ← orInvalid (v.get "body")
        let snapshot ← parseSnapshot d body
        return some (.snapshot snapshot)
      else if kind = "verb" then do
        refuse (producer = false ∨ d.hasVerbs = false)
        let name ← orInvalid ((v.get "verb").bind Value.asStr)
        -- the gate comes before the body: verbs that are not offered are passed over
        if knownVerb d name = false then return none
        else
          match s.snapshot d with
          | none => return none
          | some snapshot => decodeVerb snapshot d name v
      else return none

/-! ### The channel -/

/-- Where the worker is. -/
inductive Pc where
  /-- Before `stop.load`, at the head of the loop of `drive`. -/
  | check
  /-- Holding the lock, with so many messages left to move to the wire. -/
  | queueing (left : ℕ)
  | flushing
  /-- Before `wire_bytes` is brought up to date after the flush. -/
  | refresh
  | receiving (left : ℕ)
  /-- Before the lock for a message that has been received. -/
  | deliver (v : Value) (left : ℕ)
  /-- `drive` has returned. -/
  | ending
  | ended
  /-- The subtraction from `bytes` has underflowed. -/
  | panicked

/-- `Channel`, with its worker; and the snapshots that `publish` has accepted, the messages that
have been queued, and those that have been handed to the wire. -/
structure Channel where
  producer : Bool
  state : State := {}
  stop : Bool := false
  wire : Framed := {}
  pc : Pc := .check
  published : List Snapshot := []
  accepted : List Value := []
  handed : List Value := []

namespace Channel

/-- The worker holds the lock. -/
def locked (c : Channel) : Bool :=
  match c.pc with
  | .queueing _ => true
  | _ => false

/-- `Channel::enqueue_locked`, and `enqueue`. -/
def enqueueLocked (json : JsonText) (c : Channel) (v : Value) : Channel × Except Error Unit :=
  let n := (json.toVec v).length + 4
  if c.state.alive = false ∨ c.stop = true then (c, .error .brokenPipe)
  else if 131076 < n ∨ 524288 < c.state.bytes + c.state.wireBytes + n then
    ({ c with stop := true }, .error (.other "affordances queue overflow"))
  else
    ({ c with
      state := { c.state with bytes := c.state.bytes + n, outgoing := c.state.outgoing ++ [v] }
      accepted := c.accepted ++ [v] }, .ok ())

/-- A time of `Media` that is not finite. -/
def isNotFinite (o : Option Input.F64) : Bool := o.any fun x => !x.isFinite

/-- What `publish` refuses before it looks at the body: the other end's domain, and times of
`Media` that are not finite, which would go into a message as null. -/
def refuses (c : Channel) (v : Snapshot) : Bool :=
  decide (v.domain = .presentation) == c.producer ||
    match v with
    | .media m => isNotFinite m.position || isNotFinite m.duration
    | _ => false

/-- `Channel::publish`. -/
def publish (json : JsonText) (c : Channel) (v : Snapshot) : Channel × Except Error Unit :=
  if c.refuses v then (c, .error .invalid)
  else
    match parseSnapshot v.domain v.body with
    | .error e => (c, .error e)
    | .ok v =>
        match c.enqueueLocked json v.wire with
        | (c, .error e) => (c, .error e)
        | (c, .ok ()) => ({ c with state := c.state.store v, published := c.published ++ [v] }, .ok ())

/-- The message of a verb. -/
def verbWire (v : Verb) : Value :=
  .object [("body", v.body), ("domain", .string v.domain.name),
    ("domain_version", .number (.posInt 1)), ("kind", .string "verb"), ("verb", .string v.name),
    ("version", .number (.posInt 1))]

/-- `Host::send`. -/
def send (json : JsonText) (c : Channel) (v : Verb) : Channel × Except Error Unit :=
  if knownVerb v.domain v.name = false then (c, .error .invalid)
  else
    match validateVerb v with
    | .error e => (c, .error e)
    | .ok false => (c, .error .invalid)
    | .ok true => c.enqueueLocked json (verbWire v)

/-- `Channel::poll`. -/
def poll (json : JsonText) (c : Channel) : Channel × Option Event :=
  match c.state.events with
  | [] => (c, none)
  | e :: events =>
      ({ c with state := { c.state with
          events, eventBytes := c.state.eventBytes - eventSize json e } }, some e)

/-- `Channel::close`. -/
def close (c : Channel) : Channel := { c with stop := true }

/-- Moving one message to the wire. -/
def queueStep (json : JsonText) (c : Channel) (left : ℕ) : Channel :=
  match left, c.state.outgoing with
  | left + 1, v :: outgoing =>
      let n := (json.toVec v).length + 4
      if c.state.bytes < n then { c with pc := .panicked }
      else
        let c := { c with state := { c.state with outgoing, bytes := c.state.bytes - n } }
        match c.wire.send json.codec v with
        | .error _ => { c with pc := .ending }
        | .ok wire => { c with wire, handed := c.handed ++ [v], pc := .queueing left }
  | _, _ => { c with state := { c.state with wireBytes := c.wire.queued }, pc := .flushing }

/-- A message that has been received is decoded and its event queued; a message that is
malformed, or one event too many, ends `drive`. -/
def deliverStep (json : JsonText) (c : Channel) (v : Value) (left : ℕ) : Channel :=
  match decode v c.state c.producer with
  | .error _ => { c with pc := .ending }
  | .ok none => { c with pc := .receiving left }
  | .ok (some e) =>
      let bytes := eventSize json e
      if 524288 < c.state.eventBytes + bytes ∨ 1024 ≤ c.state.events.length then
        { c with pc := .ending }
      else
        let s := match e with
          | .snapshot v => c.state.store v
          | _ => c.state
        { c with
          state := { s with eventBytes := s.eventBytes + bytes, events := s.events ++ [e] }
          pc := .receiving left }

/-- What follows `drive`: the state says that the channel has closed, and nothing else. -/
def endStep (c : Channel) : Channel :=
  { c with
    state := { c.state with
      alive := false, snapshots := .empty, events := [.closed], eventBytes := 0 }
    pc := .ended }

/-- One step of the worker, with what the stream answers where it is asked. -/
def work (json : JsonText) (c : Channel) (written : Written) (read : Read) : Option Channel :=
  match c.pc with
  | .check => some { c with pc := if c.stop then .ending else .queueing 8 }
  | .queueing left => some (c.queueStep json left)
  | .flushing =>
      let (wire, turn) := c.wire.flushTurn written
      match turn with
      | .again => some { c with wire }
      | .returned (.ok ()) => some { c with wire, pc := .refresh }
      | .returned (.error _) => some { c with wire, pc := .ending }
  | .refresh =>
      some { c with
        state := { c.state with wireBytes := c.wire.queued }
        pc := .receiving 32 }
  | .receiving 0 => some { c with pc := .check }
  | .receiving (left + 1) =>
      let (wire, turn) := c.wire.receiveTurn json.codec read
      match turn with
      | .again => some { c with wire }
      | .returned (.ok none) => some { c with wire, pc := .check }
      | .returned (.ok (some v)) => some { c with wire, pc := .deliver v left }
      | .returned (.error _) => some { c with wire, pc := .ending }
  | .deliver v left => some (c.deliverStep json v left)
  | .ending => some c.endStep
  | .ended => none
  | .panicked => none

end Channel

/-- The calls of the owner, and the steps of the worker. -/
inductive ChannelLabel where
  | publish (v : Snapshot)
  | send (v : Verb)
  | poll
  | close
  | work (written : Written) (read : Read)

/-- A step of the worker. -/
def ChannelLabel.IsWork : ChannelLabel → Prop
  | .work _ _ => True
  | _ => False

/-- What a `write` can answer: at most what it was offered. -/
def Within (n : ℕ) : Written → Prop
  | .ok k => k ≤ n
  | _ => True

instance (n : ℕ) (answer : Written) : Decidable (Within n answer) := by
  cases answer <;> unfold Within <;> infer_instance

/-- One step of an end. A call waits for the lock; only a host sends verbs. -/
def Channel.step (json : JsonText) (c : Channel) : ChannelLabel → Option Channel
  | .publish v => if c.locked then none else some (c.publish json v).1
  | .send v => if c.locked || c.producer then none else some (c.send json v).1
  | .poll => if c.locked then none else some (c.poll json).1
  | .close => some c.close
  | .work written read =>
      if Within c.wire.offered.length written then c.work json written read else none

end Jackstay.Affordances
