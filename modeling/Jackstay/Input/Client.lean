import Jackstay.Input.Server

/-!
`input/transport.rs`: the client of an input target, and the worker that drives its wire.

`send` validates an event against the last geometry the client has heard of, numbers it and
queues it; `reset` and `close` take the place of what is queued. `drive_client` moves messages
from the queue to the wire and replies from the wire to the statuses. Whatever ends it, the
statuses end with one `Closed`.

A client is one that `connect` has returned. A locked section of the worker is one step; `room`
is for how many frames the buffer of the wire has room. What arrives is the label `receive`, and
a wire operation or a timeout that ends the worker is `lost`. `sent`, `polled` and `accepted`
are history variables.

* `Client.step`: a call on the client, or a step of its worker.
* `client_bounded`: the queue, its bytes and the statuses have their bounds.
* `client_closes`: the statuses of a client end with `Closed`, once its worker has ended.
* `client_ordered`: what a client puts on the wire is numbered in order, and ends with `Close`.
-/

namespace Jackstay.Input

open Transition

/-- Where the worker of a client is. -/
inductive ClientPc where
  /-- at the head of the loop of `drive_client` -/
  | head
  /-- before the messages -/
  | take
  /-- behind the messages, with `closing` as the lock has shown it -/
  | beat (closing : Bool)
  /-- so many frames have been handled in this round -/
  | receive (n : ℕ)
  /-- `drive_client` has returned -/
  | returned
  | ended
  deriving DecidableEq, Repr

/-- `ClientState`, with the flag and the worker of its `Client`. -/
structure Client where
  mode : Mode
  epoch : UInt64
  config : Config
  sequence : UInt64 := 0
  queue : List Message := []
  bytes : ℕ := 0
  status : List Status := []
  alive : Bool := true
  closing : Bool := false
  resetting : Bool := false
  stop : Bool := false
  pc : ClientPc := .head
  sent : List Message := []
  polled : List Status := []
  accepted : List UInt64 := []
  deriving DecidableEq, Repr

/-- What happens next. -/
inductive ClientLabel where
  | send (event : Event)
  | reset
  | close
  | poll
  | drop
  /-- a step of the worker that receives nothing -/
  | drive (room : ℕ) (due : Bool)
  | receive (m : Sent)
  /-- the worker gives up; while it takes messages, with so many of them -/
  | lost (taken : ℕ)
  deriving DecidableEq, Repr

/-- The bytes that the queue is charged for a message. -/
def Message.charge : Message → ℕ
  | .submit _ _ event => event.bytes
  | _ => 0

/-- The number of a submission. -/
def Message.number : Message → Option UInt64
  | .submit _ sequence _ => some sequence
  | _ => none

namespace Client

/-- `Client::send`. -/
def send (c : Client) (event : Event) : Client × Except Error UInt64 :=
  if c.alive = false ∨ c.closing then (c, .error .closed)
  else if c.resetting then (c, .error .busy)
  else match validate c.config c.mode event with
    | .error e => (c, .error e)
    | .ok () =>
        if c.config.maxEvents ≤ c.queue.length ∨ c.config.maxBytes < c.bytes + event.bytes then
          ({ c with stop := true, closing := true }, .error .overflow)
        else if 2 ^ 64 ≤ c.sequence.toNat + 1 then (c, .error .closed)
        else
          let sequence := c.sequence + 1
          ({ c with
              sequence
              bytes := c.bytes + event.bytes
              queue := c.queue ++ [.submit c.epoch sequence event]
              accepted := c.accepted ++ [sequence] }, .ok sequence)

/-- `Client::reset`. -/
def reset (c : Client) : Client × Except Error Unit :=
  if c.alive = false ∨ c.closing then (c, .error .closed)
  else ({ c with queue := [.reset], bytes := 0, resetting := true }, .ok ())

/-- `Client::close`. -/
def close (c : Client) : Client := { c with closing := true, queue := [.close], bytes := 0 }

/-- `Client::poll`. -/
def poll (c : Client) : Client × Option Status :=
  ({ c with status := c.status.tail, polled := c.polled ++ c.status.head?.toList }, c.status.head?)

/-- So many messages leave the queue, and so many of them reach the wire. -/
def take (c : Client) (taken sent : ℕ) : Client :=
  { c with
    queue := c.queue.drop taken
    bytes := c.bytes - ((c.queue.take taken).map Message.charge).sum
    sent := c.sent ++ c.queue.take sent }

/-- The statuses that a client holds. -/
def statusCapacity (c : Client) : ℕ := c.config.maxEvents * 2 + 4

/-- What a reply changes but for the statuses: a new epoch, with its geometry. -/
def renewed (c : Client) : Status → Client
  | .reset epoch geometry =>
      { c with resetting := false, epoch, config := { c.config with geometry } }
  | _ => c

/-- A reply. -/
def reply (c : Client) (n : ℕ) (status : Status) : Client :=
  match c.status.getLast?.bind (·.mergeCoalesced status) with
  | some merged =>
      { c.renewed status with status := c.status.dropLast ++ [merged], pc := .receive (n + 1) }
  | none =>
      if c.statusCapacity ≤ c.status.length then { c.renewed status with pc := .returned }
      else if status.isClosed then
        { c.renewed status with status := c.status ++ [status], alive := false, pc := .returned }
      else { c.renewed status with status := c.status ++ [status], pc := .receive (n + 1) }

/-- A frame has been received. -/
def receive (c : Client) (n : ℕ) : Sent → Client
  | .heartbeat => { c with pc := .receive (n + 1) }
  | .reply status => c.reply n status
  | _ => { c with pc := .returned }

/-- A step of the worker that receives nothing. -/
def drive (c : Client) (room : ℕ) (due : Bool) : Option Client :=
  match c.pc with
  | .head => some { c with pc := if c.stop then .returned else .take }
  | .take =>
      let n := min (min 32 room) c.queue.length
      some { c.take n n with pc := .beat c.closing }
  | .beat closing =>
      some { c with
        sent := if !closing && due then c.sent ++ [.heartbeat] else c.sent
        pc := .receive 0 }
  | .receive _ => some { c with pc := .head }
  | .returned =>
      some { c with
        status := if c.alive then c.status ++ [.closed .disconnect false] else c.status
        alive := false
        pc := .ended }
  | .ended => none

/-- The worker gives up: a message that has been taken is lost with the wire. -/
def lost (c : Client) (taken : ℕ) : Option Client :=
  match c.pc with
  | .take => some { c.take taken (taken - 1) with pc := .returned }
  | .beat _ | .receive _ => some { c with pc := .returned }
  | _ => none

/-- **One step of a client.** -/
def step (c : Client) : ClientLabel → Option Client
  | .send event => some (c.send event).1
  | .reset => some c.reset.1
  | .close => some c.close
  | .poll => some c.poll.1
  | .drop => some { c with stop := true }
  | .drive room due => c.drive room due
  | .receive m =>
      match c.pc with
      | .receive n => if n < 32 then some (c.receive n m) else none
      | _ => none
  | .lost taken => c.lost taken

/-- A client that `connect` returns. -/
def ofWelcome (mode : Mode) (epoch : UInt64) (config : Config) : Client := { mode, epoch, config }

end Client

namespace Client

variable {c c' : Client}

/-! ### What the steps do -/

/-- A submission is refused, or it ends the client, or it is queued. -/
lemma send_cases (c : Client) (event : Event) :
    (∃ e, c.send event = (c, .error e)) ∨
    c.send event = ({ c with stop := true, closing := true }, .error .overflow) ∨
    ((c.alive = true ∧ c.closing = false ∧ c.resetting = false) ∧
      validate c.config c.mode event = .ok () ∧ c.queue.length < c.config.maxEvents ∧
      c.bytes + event.bytes ≤ c.config.maxBytes ∧ c.sequence.toNat + 1 < 2 ^ 64 ∧
      c.send event = ({ c with
        sequence := c.sequence + 1
        bytes := c.bytes + event.bytes
        queue := c.queue ++ [.submit c.epoch (c.sequence + 1) event]
        accepted := c.accepted ++ [c.sequence + 1] }, .ok (c.sequence + 1))) := by
  rw [send]
  by_cases hclosed : c.alive = false ∨ c.closing = true
  · exact .inl ⟨_, if_pos hclosed⟩
  rw [if_neg hclosed]
  by_cases hresetting : c.resetting = true
  · exact .inl ⟨_, if_pos hresetting⟩
  rw [if_neg hresetting]
  cases hvalid : validate c.config c.mode event with
  | error e => exact .inl ⟨e, rfl⟩
  | ok u =>
    dsimp only
    by_cases hfull : c.config.maxEvents ≤ c.queue.length ∨ c.config.maxBytes < c.bytes + event.bytes
    · exact .inr (.inl (if_pos hfull))
    rw [if_neg hfull]
    by_cases hlast : 2 ^ 64 ≤ c.sequence.toNat + 1
    · exact .inl ⟨_, if_pos hlast⟩
    refine .inr (.inr ⟨⟨?_, ?_, ?_⟩, rfl, by omega, by omega, by omega, if_neg hlast⟩)
    · simpa using fun h0 => hclosed (.inl h0)
    · simpa using fun h0 => hclosed (.inr h0)
    · simpa using hresetting

/-- A reset is refused, or it takes the place of what is queued. -/
lemma reset_cases (c : Client) :
    c.reset.1 = c ∨ (c.alive = true ∧ c.closing = false) ∧
      c.reset.1 = { c with queue := [.reset], bytes := 0, resetting := true } := by
  rw [reset]
  split_ifs with hclosed
  · exact .inl rfl
  · refine .inr ⟨⟨?_, ?_⟩, rfl⟩
    · simpa using fun h0 => hclosed (.inl h0)
    · simpa using fun h0 => hclosed (.inr h0)

/-- A reply is merged, or the statuses have no room for it, or it is kept. -/
lemma reply_cases (c : Client) (n : ℕ) (status : Status) :
    (∃ rest count delta, c.status = rest ++ [.coalesced count] ∧ status = .coalesced delta ∧
      c.reply n status = { c with
        status := rest ++ [.coalesced (saturatingAdd count delta)], pc := .receive (n + 1) }) ∨
    (c.statusCapacity ≤ c.status.length ∧
      c.reply n status = { c.renewed status with pc := .returned }) ∨
    (c.status.length < c.statusCapacity ∧ status.isClosed = true ∧
      c.reply n status = { c.renewed status with
        status := c.status ++ [status], alive := false, pc := .returned }) ∨
    (c.status.length < c.statusCapacity ∧ status.isClosed = false ∧
      c.reply n status = { c.renewed status with
        status := c.status ++ [status], pc := .receive (n + 1) }) := by
  cases hmerge : c.status.getLast?.bind (·.mergeCoalesced status) with
  | some merged =>
    obtain ⟨x, hx, hxs⟩ := Option.bind_eq_some_iff.mp hmerge
    obtain ⟨count, delta, rfl, rfl, rfl⟩ := State.mergeCoalesced_eq_some hxs
    refine .inl ⟨c.status.dropLast, count, delta, ?_, rfl, ?_⟩
    · exact (List.dropLast_append_getLast? _ hx).symm
    · simp only [reply, hmerge]
      rfl
  | none =>
    simp only [reply, hmerge]
    split_ifs with hfull hclosed
    · exact .inr (.inl ⟨hfull, rfl⟩)
    · exact .inr (.inr (.inl ⟨by omega, hclosed, rfl⟩))
    · exact .inr (.inr (.inr ⟨by omega, by simpa using hclosed, rfl⟩))

/-- What a reply leaves but for the statuses and the worker. -/
lemma renewed_frame (c : Client) (status : Status) :
    (c.renewed status).queue = c.queue ∧ (c.renewed status).bytes = c.bytes ∧
      (c.renewed status).config.maxEvents = c.config.maxEvents ∧
      (c.renewed status).config.maxBytes = c.config.maxBytes ∧
      (c.renewed status).status = c.status ∧ (c.renewed status).polled = c.polled ∧
      (c.renewed status).alive = c.alive := by
  cases status with
  | reset epoch geometry => exact ⟨rfl, rfl, rfl, rfl, rfl, rfl, rfl⟩
  | _ => exact ⟨rfl, rfl, rfl, rfl, rfl, rfl, rfl⟩

/-- A reply leaves what is queued and what has been sent. -/
lemma reply_frame (c : Client) (n : ℕ) (status : Status) :
    (c.reply n status).sequence = c.sequence ∧ (c.reply n status).accepted = c.accepted ∧
      (c.reply n status).queue = c.queue ∧ (c.reply n status).sent = c.sent ∧
      (c.reply n status).closing = c.closing ∧
      ((c.reply n status).resetting = true → c.resetting = true) ∧
      (c.reply n status).pc ≠ .beat false := by
  have hrenewed : (c.renewed status).sequence = c.sequence ∧
      (c.renewed status).accepted = c.accepted ∧ (c.renewed status).queue = c.queue ∧
      (c.renewed status).sent = c.sent ∧ (c.renewed status).closing = c.closing ∧
      ((c.renewed status).resetting = true → c.resetting = true) := by
    cases status with
    | reset epoch geometry => exact ⟨rfl, rfl, rfl, rfl, rfl, (by rintro ⟨⟩)⟩
    | _ => exact ⟨rfl, rfl, rfl, rfl, rfl, id⟩
  obtain ⟨hsequence, haccepted, hqueue, hsent, hclosing, hresetting⟩ := hrenewed
  rcases c.reply_cases n status with ⟨rest, count, delta, -, -, heq⟩ | ⟨-, heq⟩ | ⟨-, -, heq⟩ |
    ⟨-, -, heq⟩
  · rw [heq]
    exact ⟨rfl, rfl, rfl, rfl, rfl, id, by rintro ⟨⟩⟩
  all_goals
    rw [heq]
    exact ⟨hsequence, haccepted, hqueue, hsent, hclosing, hresetting, by rintro ⟨⟩⟩

/-! ### Bounds -/

/-- The worker still drives the wire. -/
def driving (c : Client) : Prop := c.pc ≠ .returned ∧ c.pc ≠ .ended

/-- **The bounds of a client.** -/
structure Bounded (config : Config) (c : Client) : Prop where
  maxEvents : c.config.maxEvents = config.maxEvents
  maxBytes : c.config.maxBytes = config.maxBytes
  bytes : c.bytes = (c.queue.map Message.charge).sum
  charge : c.bytes ≤ config.maxBytes
  queue : c.queue.length ≤ config.maxEvents
  status : c.status.length ≤ 2 * config.maxEvents + 4 + if c.alive then 0 else 1

namespace Bounded

variable {config : Config}

/-- A step that leaves the queue, and the statuses but for what is polled. -/
lemma of_same (h : Bounded config c) (hqueue : c'.queue = c.queue) (hbytes : c'.bytes = c.bytes)
    (hevents : c'.config.maxEvents = c.config.maxEvents)
    (hmax : c'.config.maxBytes = c.config.maxBytes)
    (hstatus : c'.status.length ≤ 2 * config.maxEvents + 4 + if c'.alive then 0 else 1) :
    Bounded config c' := by
  refine ⟨hevents.trans h.maxEvents, hmax.trans h.maxBytes, ?_, ?_, ?_, hstatus⟩
  · rw [hqueue, hbytes]
    exact h.bytes
  · rw [hbytes]
    exact h.charge
  · rw [hqueue]
    exact h.queue

/-- Messages leave the queue, with what they are charged for. -/
lemma take (h : Bounded config c) (taken sent : ℕ) (pc : ClientPc) :
    Bounded config { c.take taken sent with pc } := by
  have hsplit : (c.queue.map Message.charge).sum =
      ((c.queue.take taken).map Message.charge).sum +
        ((c.queue.drop taken).map Message.charge).sum := by
    rw [← List.sum_append, ← List.map_append, List.take_append_drop]
  have hbytes := h.bytes
  have hcharge := h.charge
  refine ⟨h.maxEvents, h.maxBytes, ?_, ?_, ?_, h.status⟩
  · show c.bytes - _ = ((c.queue.drop taken).map Message.charge).sum
    omega
  · show c.bytes - _ ≤ _
    omega
  · show (c.queue.drop taken).length ≤ _
    have hqueue := h.queue
    rw [List.length_drop]
    omega

/-- A reply. -/
lemma reply (h : Bounded config c) (n : ℕ) (status : Status) :
    Bounded config (c.reply n status) := by
  obtain ⟨hqueue, hbytes, hevents, hmax, hstatus, -, halive⟩ := c.renewed_frame status
  have hbound := h.status
  rcases c.reply_cases n status with ⟨rest, count, delta, hrest, -, heq⟩ | ⟨-, heq⟩ |
    ⟨hroom, -, heq⟩ | ⟨hroom, -, heq⟩
  · rw [heq]
    refine h.of_same rfl rfl rfl rfl ?_
    rw [hrest, List.length_append, List.length_singleton] at hbound
    rw [List.length_append, List.length_singleton]
    exact hbound
  · rw [heq]
    refine h.of_same hqueue hbytes hevents hmax ?_
    show (c.renewed status).status.length ≤ _ + if (c.renewed status).alive then 0 else 1
    rw [hstatus, halive]
    exact hbound
  · rw [heq]
    refine h.of_same hqueue hbytes hevents hmax ?_
    have hcapacity := h.maxEvents
    rw [statusCapacity] at hroom
    rw [List.length_append, List.length_singleton]
    omega
  · rw [heq]
    refine h.of_same hqueue hbytes hevents hmax ?_
    have hcapacity := h.maxEvents
    rw [statusCapacity] at hroom
    rw [List.length_append, List.length_singleton]
    omega

/-- **Every step keeps the bounds.** -/
lemma step (h : Bounded config c) (hmin : 0 < config.maxEvents) {l : ClientLabel}
    (hs : c.step l = some c') : Bounded config c' := by
  cases l with
  | send event =>
    rw [← Option.some.inj hs]
    rcases c.send_cases event with ⟨e, heq⟩ | heq | ⟨-, -, hqueue, hbytes, -, heq⟩
    · rw [heq]
      exact h
    · rw [heq]
      exact h.of_same rfl rfl rfl rfl h.status
    · rw [heq]
      have hcharge := h.bytes
      have hevents := h.maxEvents
      have hmax := h.maxBytes
      refine ⟨h.maxEvents, h.maxBytes, ?_, ?_, ?_, h.status⟩
      · simp [hcharge, Message.charge]
      · exact hmax ▸ hbytes
      · rw [List.length_append, List.length_singleton]
        omega
  | reset =>
    rw [← Option.some.inj hs]
    rcases c.reset_cases with heq | ⟨-, heq⟩
    · rw [heq]
      exact h
    · rw [heq]
      exact ⟨h.maxEvents, h.maxBytes, rfl, Nat.zero_le _, hmin, h.status⟩
  | close =>
    rw [← Option.some.inj hs]
    exact ⟨h.maxEvents, h.maxBytes, rfl, Nat.zero_le _, hmin, h.status⟩
  | poll =>
    rw [← Option.some.inj hs]
    refine h.of_same rfl rfl rfl rfl ?_
    show c.status.tail.length ≤ 2 * config.maxEvents + 4 + if c.alive then 0 else 1
    have hbound := h.status
    rw [List.length_tail]
    omega
  | drop =>
    rw [← Option.some.inj hs]
    exact h.of_same rfl rfl rfl rfl h.status
  | drive room due =>
    rw [Client.step, drive] at hs
    split at hs
    · rw [← Option.some.inj hs]
      exact h.of_same rfl rfl rfl rfl h.status
    · rw [← Option.some.inj hs]
      exact h.take _ _ _
    · rw [← Option.some.inj hs]
      exact h.of_same rfl rfl rfl rfl h.status
    · rw [← Option.some.inj hs]
      exact h.of_same rfl rfl rfl rfl h.status
    · rw [← Option.some.inj hs]
      refine h.of_same rfl rfl rfl rfl ?_
      have hbound := h.status
      cases halive : c.alive with
      | false =>
        rw [halive] at hbound
        exact hbound
      | true =>
        rw [halive] at hbound
        simpa using hbound
    · cases hs
  | receive m =>
    rw [Client.step] at hs
    split at hs
    · split_ifs at hs
      rw [← Option.some.inj hs]
      cases m with
      | reply status => exact h.reply _ status
      | welcome | reject | heartbeat => exact h.of_same rfl rfl rfl rfl h.status
    · cases hs
  | lost taken =>
    rw [Client.step, Client.lost] at hs
    split at hs
    · rw [← Option.some.inj hs]
      exact h.take _ _ _
    · rw [← Option.some.inj hs]
      exact h.of_same rfl rfl rfl rfl h.status
    · rw [← Option.some.inj hs]
      exact h.of_same rfl rfl rfl rfl h.status
    · cases hs

end Bounded

end Client

/-! ### The end of a client -/

namespace Client

variable {c c' : Client}

/-- **How the statuses of a client end**: with `Closed`, and with nothing behind it, once the client
is not alive any more. -/
structure Closes (c : Client) : Prop where
  alive : c.alive = true → ∀ st ∈ c.polled ++ c.status, st.isClosed = false
  closed : c.alive = false → ∃ pre st, c.polled ++ c.status = pre ++ [st] ∧ st.isClosed = true ∧
    ∀ x ∈ pre, x.isClosed = false
  driving : c.driving → c.alive = true
  ended : c.pc = .ended → c.alive = false

namespace Closes

/-- A step that tells nothing. -/
lemma of_same (h : Closes c) (hstatus : c'.polled ++ c'.status = c.polled ++ c.status)
    (halive : c'.alive = c.alive) (hpc : c'.driving → c.driving)
    (hended : c'.pc = .ended → c.pc = .ended) : Closes c' := by
  refine ⟨?_, ?_, fun hdriving => ?_, fun hpc' => ?_⟩
  · rw [hstatus, halive]
    exact h.alive
  · rw [hstatus, halive]
    exact h.closed
  · rw [halive]
    exact h.driving (hpc hdriving)
  · rw [halive]
    exact h.ended (hended hpc')

/-- A status that is not `Closed` is told. -/
lemma tell (h : Closes c) (halive : c.alive = true) (told : List Status)
    (htold : ∀ x ∈ told, x ∈ c.polled ++ c.status ∨ x.isClosed = false)
    (hstatus : c'.polled ++ c'.status = told) (halive' : c'.alive = c.alive)
    (hended : c'.pc ≠ .ended) : Closes c' := by
  have hopen : ∀ x ∈ told, x.isClosed = false := fun x hx =>
    (htold x hx).elim (h.alive halive x) id
  refine ⟨fun _ => ?_, fun hdead => ?_, fun _ => halive'.trans halive, fun h0 => absurd h0 hended⟩
  · rw [hstatus]
    exact hopen
  · cases (halive'.trans halive).symm.trans hdead

/-- `Closed` is told. -/
lemma close (h : Closes c) (halive : c.alive = true) (st : Status) (hst : st.isClosed = true)
    (hstatus : c'.polled ++ c'.status = c.polled ++ c.status ++ [st]) (halive' : c'.alive = false)
    (hpc : c'.pc = .returned ∨ c'.pc = .ended) : Closes c' := by
  refine ⟨fun h0 => ?_, fun _ => ⟨_, st, hstatus, hst, h.alive halive⟩, fun hdriving => ?_,
    fun _ => halive'⟩
  · cases halive'.symm.trans h0
  · exact (hpc.elim hdriving.1 hdriving.2).elim

lemma reply (h : Closes c) (halive : c.alive = true) (n : ℕ) (status : Status) :
    Closes (c.reply n status) := by
  obtain ⟨-, -, -, -, hstatus, hpolled, hkept⟩ := c.renewed_frame status
  rcases c.reply_cases n status with ⟨rest, count, delta, hrest, -, heq⟩ | ⟨-, heq⟩ |
    ⟨-, hclosed, heq⟩ | ⟨-, hopen, heq⟩
  · rw [heq]
    refine h.tell halive _ (fun x hx => ?_) rfl rfl (by rintro ⟨⟩)
    rcases List.mem_append.mp hx with hx | hx
    · exact .inl (List.mem_append_left _ hx)
    rcases List.mem_append.mp hx with hx | hx
    · refine .inl (List.mem_append_right _ ?_)
      rw [hrest]
      exact List.mem_append_left _ hx
    · rw [List.mem_singleton.mp hx]
      exact .inr rfl
  · rw [heq]
    refine h.tell halive _ (fun x hx => .inl hx) ?_ hkept (by rintro ⟨⟩)
    show (c.renewed status).polled ++ (c.renewed status).status = _
    rw [hpolled, hstatus]
  · rw [heq]
    refine h.close halive _ hclosed ?_ rfl (.inl rfl)
    show (c.renewed status).polled ++ (c.status ++ [status]) = _
    rw [hpolled, List.append_assoc]
  · rw [heq]
    refine h.tell halive (c.polled ++ c.status ++ [status]) (fun x hx => ?_) ?_ hkept
      (by rintro ⟨⟩)
    · rcases List.mem_append.mp hx with hx | hx
      · exact .inl hx
      · rw [List.mem_singleton.mp hx]
        exact .inr hopen
    · show (c.renewed status).polled ++ (c.status ++ [status]) = _
      rw [hpolled, List.append_assoc]

/-- **Every step keeps how the statuses end.** -/
lemma step (h : Closes c) {l : ClientLabel} (hs : c.step l = some c') : Closes c' := by
  cases l with
  | send event =>
    rw [← Option.some.inj hs]
    rcases c.send_cases event with ⟨e, heq⟩ | heq | ⟨-, -, -, -, -, heq⟩
    · rw [heq]
      exact h
    · rw [heq]
      exact h.of_same rfl rfl id id
    · rw [heq]
      exact h.of_same rfl rfl id id
  | reset =>
    rw [← Option.some.inj hs]
    rcases c.reset_cases with heq | ⟨-, heq⟩
    · rw [heq]
      exact h
    · rw [heq]
      exact h.of_same rfl rfl id id
  | close =>
    rw [← Option.some.inj hs]
    exact h.of_same rfl rfl id id
  | poll =>
    rw [← Option.some.inj hs]
    refine h.of_same ?_ rfl id id
    show (c.polled ++ c.status.head?.toList) ++ c.status.tail = _
    cases c.status with
    | nil => simp
    | cons st rest => simp
  | drop =>
    rw [← Option.some.inj hs]
    exact h.of_same rfl rfl id id
  | drive room due =>
    rw [Client.step, drive] at hs
    split at hs
    · rename_i hpc
      rw [← Option.some.inj hs]
      have hdriving : c.driving := ⟨by rw [hpc]; rintro ⟨⟩, by rw [hpc]; rintro ⟨⟩⟩
      refine h.of_same rfl rfl (fun _ => hdriving) fun h0 => ?_
      dsimp only at h0
      split_ifs at h0
    · rename_i hpc
      rw [← Option.some.inj hs]
      exact h.of_same rfl rfl (fun _ => ⟨by rw [hpc]; rintro ⟨⟩, by rw [hpc]; rintro ⟨⟩⟩) (by rintro ⟨⟩)
    · rename_i hpc
      rw [← Option.some.inj hs]
      exact h.of_same rfl rfl (fun _ => ⟨by rw [hpc]; rintro ⟨⟩, by rw [hpc]; rintro ⟨⟩⟩) (by rintro ⟨⟩)
    · rename_i hpc
      rw [← Option.some.inj hs]
      exact h.of_same rfl rfl (fun _ => ⟨by rw [hpc]; rintro ⟨⟩, by rw [hpc]; rintro ⟨⟩⟩) (by rintro ⟨⟩)
    · rw [← Option.some.inj hs]
      cases halive : c.alive with
      | false =>
        exact ⟨(by rintro ⟨⟩), fun _ => h.closed halive, fun h0 => absurd rfl h0.2, fun _ => rfl⟩
      | true =>
        refine h.close halive (.closed .disconnect false) rfl ?_ rfl (.inr rfl)
        exact (List.append_assoc ..).symm
    · cases hs
  | receive m =>
    rw [Client.step] at hs
    split at hs
    · rename_i n hpc
      have hdriving : c.driving := ⟨by rw [hpc]; rintro ⟨⟩, by rw [hpc]; rintro ⟨⟩⟩
      split_ifs at hs
      rw [← Option.some.inj hs]
      cases m with
      | reply status => exact h.reply (h.driving hdriving) n status
      | welcome | reject => exact h.of_same rfl rfl (fun h0 => absurd rfl h0.1) (by rintro ⟨⟩)
      | heartbeat => exact h.of_same rfl rfl (fun _ => hdriving) (by rintro ⟨⟩)
    · cases hs
  | lost taken =>
    rw [Client.step, Client.lost] at hs
    split at hs
    · rw [← Option.some.inj hs]
      exact h.of_same rfl rfl (fun h0 => absurd rfl h0.1) (by rintro ⟨⟩)
    · rw [← Option.some.inj hs]
      exact h.of_same rfl rfl (fun h0 => absurd rfl h0.1) (by rintro ⟨⟩)
    · rw [← Option.some.inj hs]
      exact h.of_same rfl rfl (fun h0 => absurd rfl h0.1) (by rintro ⟨⟩)
    · cases hs

end Closes

end Client

/-- Two texts, a reset, a text in the new epoch, and the end. -/
def session : List ClientLabel :=
  [.send (.text "a"), .send (.text "b"), .drive 32 true, .drive 32 true, .drive 32 true,
    .receive (.reply (.completed 1 .executed)), .reset, .send (.text "c"), .drive 0 false,
    .drive 0 false, .drive 1 false, .drive 0 false, .receive (.reply (.reset 2 Config.default.geometry)),
    .send (.text "d"), .drive 0 false, .drive 0 false, .drive 32 false, .close, .drive 0 false,
    .drive 0 false, .drive 0 false, .drive 32 true, .drive 0 true,
    .receive (.reply (.closed .disconnect true)), .drive 0 false]

namespace Client

/-- The statuses end as they should in every run. -/
lemma Closes.of_reaches {mode : Mode} {epoch : UInt64} {config : Config} {c : Client}
    (hr : Reaches Client.step Always (ofWelcome mode epoch config) c) : c.Closes := by
  refine hr.invariant (P := Closes) ?_ fun c l c' h _ hs => h.step hs
  exact ⟨(by rintro _ _ ⟨⟩), (by rintro ⟨⟩), fun _ => rfl, (by rintro ⟨⟩)⟩

/-- More statuses than a client holds: the last one is the `Closed` of its end. -/
lemma Bounded.last_closed {config : Config} {c : Client} (h : c.Bounded config) (hc : c.Closes)
    (hmore : 2 * config.maxEvents + 4 < c.status.length) : c.alive = false ∧
      ∃ pre st, c.status = pre ++ [st] ∧ pre.length = 2 * config.maxEvents + 4 ∧
        st.isClosed = true := by
  have hstatus := h.status
  cases halive : c.alive with
  | true =>
    rw [halive] at hstatus
    exact absurd hmore (Nat.not_lt.mpr hstatus)
  | false =>
    rw [halive, if_neg (by rintro ⟨⟩)] at hstatus
    obtain ⟨pre, st, heq, hst, -⟩ := hc.closed halive
    have hne : c.status ≠ [] := List.length_pos_iff.mp (by omega)
    have hlast : c.status.getLast? = some st := by
      rw [← List.getLast?_append_of_ne_nil c.polled hne, heq, List.getLast?_concat]
    refine ⟨rfl, c.status.dropLast, st, ?_, ?_, hst⟩
    · exact (List.dropLast_append_getLast? st hlast).symm
    · rw [List.length_dropLast]
      omega

end Client

open Client in
/-- **The bounds of a client hold in every run**, whatever its peer sends: the bytes are those of
the queue, which they outlive by nothing, and the queue and its bytes do not outgrow what the
welcome offers. The statuses are at most twice its messages and four; one more only when the
client has come to its end, and that one is its `Closed`. -/
theorem client_bounded {mode : Mode} {epoch : UInt64} {config : Config} {c : Client}
    (hmin : 0 < config.maxEvents) (hr : Reaches Client.step Always (ofWelcome mode epoch config) c) :
    c.bytes = (c.queue.map Message.charge).sum ∧ c.bytes ≤ config.maxBytes ∧
      c.queue.length ≤ config.maxEvents ∧
      c.status.length ≤ 2 * config.maxEvents + 4 + (if c.alive then 0 else 1) ∧
      (2 * config.maxEvents + 4 < c.status.length → c.alive = false ∧
        ∃ pre st, c.status = pre ++ [st] ∧ pre.length = 2 * config.maxEvents + 4 ∧
          st.isClosed = true) := by
  have h : c.Bounded config := by
    refine hr.invariant (P := Bounded config) ?_ fun c l c' h _ hs => h.step hmin hs
    exact ⟨rfl, rfl, rfl, Nat.zero_le _, Nat.zero_le _, Nat.zero_le _⟩
  exact ⟨h.bytes, h.charge, h.queue, h.status, h.last_closed (.of_reaches hr)⟩

theorem client_bounded_session :
    (play Client.step (.ofWelcome .cooperative 1 .default) session).status.length ≤
      2 * Config.default.maxEvents + 4 +
        (if (play Client.step (.ofWelcome .cooperative 1 .default) session).alive then 0 else 1) :=
  (client_bounded (by decide) (Reaches.of_play _ _ _)).2.2.2.1

open Client in
/-- **A client is closed once, and last.** In every run, whatever its peer sends and however the
worker ends: behind a `Closed` no status follows, polled or not; and once the worker has ended there
is one. -/
theorem client_closes {mode : Mode} {epoch : UInt64} {config : Config} {c : Client}
    (hr : Reaches Client.step Always (ofWelcome mode epoch config) c) :
    (∀ pre st post, c.polled ++ c.status = pre ++ st :: post → st.isClosed = true → post = []) ∧
      (c.pc = .ended → ∃ st ∈ c.polled ++ c.status, st.isClosed = true) := by
  have h : c.Closes := .of_reaches hr
  constructor
  · intro pre st post heq hst
    cases halive : c.alive with
    | true =>
      have hopen := h.alive halive st (heq ▸ List.mem_append_right _ List.mem_cons_self)
      cases hopen.symm.trans hst
    | false =>
      obtain ⟨pre', st', heq', -, hopen⟩ := h.closed halive
      rcases List.eq_nil_or_concat post with hnil | ⟨rest, x, hpost⟩
      · exact hnil
      · have hsplit : pre' ++ [st'] = (pre ++ st :: rest) ++ [x] := by
          rw [← heq', heq, hpost]
          simp
        obtain ⟨hpre, -⟩ := List.append_inj' hsplit rfl
        have hno := hopen st (hpre ▸ List.mem_append_right _ List.mem_cons_self)
        cases hno.symm.trans hst
  · intro hpc
    obtain ⟨pre, st, heq, hst, -⟩ := h.closed (h.ended hpc)
    exact ⟨st, by rw [heq]; exact List.mem_append_right _ List.mem_cons_self, hst⟩

theorem client_closes_session :
    (play Client.step (.ofWelcome .cooperative 1 .default) session).pc = .ended ∧
      ∃ st ∈ (play Client.step (.ofWelcome .cooperative 1 .default) session).polled ++
        (play Client.step (.ofWelcome .cooperative 1 .default) session).status, st.isClosed = true :=
  ⟨by decide +kernel, (client_closes (Reaches.of_play _ _ _)).2 (by decide +kernel)⟩

/-! ### The order on the wire -/

/-- The numbers of the submissions among these messages. -/
def numbered (ms : List Message) : List UInt64 := ms.filterMap Message.number

namespace Client

variable {c c' : Client}

/-- `1`, `2`, up to the last number that has been given. -/
def given (c : Client) : List UInt64 :=
  (List.range c.sequence.toNat).map fun n => UInt64.ofNat (n + 1)

/-- **The order of what is sent.** The submissions are numbered in order; behind a `Close` there
are only more of them; and a reset that has not been answered is the last message. -/
structure Orders (c : Client) : Prop where
  accepted : c.accepted = c.given
  numbers : (numbered (c.sent ++ c.queue)).Sublist c.accepted
  closed : ∃ front k, c.sent = front ++ List.replicate k .close ∧ .close ∉ front ∧
    (0 < k → c.closing = true ∧ c.pc ≠ .beat false ∧ ∀ m ∈ c.queue, m = .close)
  closing : .close ∈ c.queue → c.closing = true ∧ c.queue = [.close]
  resetting : c.driving → c.resetting = true → c.closing = false → c.queue = [.reset] ∨
    c.queue = [] ∧ ∃ pre post, c.sent = pre ++ .reset :: post ∧ ∀ m ∈ post, m = .heartbeat

namespace Orders

/-- A step that neither queues nor sends. -/
lemma of_same (h : Orders c) (hsequence : c'.sequence = c.sequence)
    (haccepted : c'.accepted = c.accepted) (hqueue : c'.queue = c.queue) (hsent : c'.sent = c.sent)
    (hclosing : c.closing = true → c'.closing = true)
    (hresetting : c'.resetting = true → c.resetting = true) (hpc : c'.pc ≠ .beat false)
    (hdriving : c'.driving → c.driving) : Orders c' := by
  obtain ⟨front, k, hfront, hno, hk⟩ := h.closed
  refine ⟨?_, ?_, ⟨front, k, ?_, hno, fun hpos => ?_⟩, ?_, fun hd hr hc => ?_⟩
  · rw [haccepted, given, hsequence]
    exact h.accepted
  · rw [hsent, hqueue, haccepted]
    exact h.numbers
  · rw [hsent]
    exact hfront
  · rw [hqueue]
    exact ⟨hclosing (hk hpos).1, hpc, (hk hpos).2.2⟩
  · rw [hqueue]
    exact fun h0 => ⟨hclosing (h.closing h0).1, (h.closing h0).2⟩
  · rw [hqueue, hsent]
    refine h.resetting (hdriving hd) (hresetting hr) ?_
    by_contra hopen
    rw [hclosing (by simpa using hopen)] at hc
    cases hc

/-- Nothing is given but in order. -/
lemma given_succ (c : Client) (h : c.sequence.toNat + 1 < 2 ^ 64) :
    ({ c with sequence := c.sequence + 1 } : Client).given = c.given ++ [c.sequence + 1] := by
  have hnext : (c.sequence + 1).toNat = c.sequence.toNat + 1 := by
    rw [UInt64.toNat_add]
    exact Nat.mod_eq_of_lt h
  have hlast : UInt64.ofNat (c.sequence.toNat + 1) = c.sequence + 1 := by
    rw [← hnext, UInt64.ofNat_toNat]
  rw [given, hnext, List.range_succ, List.map_append, given]
  simp only [List.map_cons, List.map_nil, hlast]

/-- A submission is queued. -/
lemma submit (h : Orders c) (hopen : c.alive = true ∧ c.closing = false ∧ c.resetting = false)
    (hlast : c.sequence.toNat + 1 < 2 ^ 64) (event : Event) (bytes : ℕ) :
    Orders { c with
      sequence := c.sequence + 1
      bytes
      queue := c.queue ++ [.submit c.epoch (c.sequence + 1) event]
      accepted := c.accepted ++ [c.sequence + 1] } := by
  obtain ⟨-, hclosing, hresetting⟩ := hopen
  obtain ⟨front, k, hfront, hno, hk⟩ := h.closed
  have hzero : k = 0 := by
    by_contra hne
    cases hclosing.symm.trans (hk (by omega)).1
  refine ⟨?_, ?_, ⟨front, k, hfront, hno, fun hpos => by omega⟩, fun hmem => ?_, fun _ hr => ?_⟩
  · show c.accepted ++ [c.sequence + 1] = _
    rw [h.accepted, ← given_succ c hlast]
    rfl
  · show (numbered (c.sent ++ (c.queue ++ [_]))).Sublist (c.accepted ++ [c.sequence + 1])
    rw [← List.append_assoc, numbered, List.filterMap_append]
    exact h.numbers.append (List.Sublist.refl [c.sequence + 1])
  · rcases List.mem_append.mp hmem with hmem | hmem
    · cases hclosing.symm.trans (h.closing hmem).1
    · cases List.mem_singleton.mp hmem
  · cases hresetting.symm.trans hr

/-- A heartbeat is sent, before any `Close`. -/
lemma heartbeat (h : Orders c) (hno : .close ∉ c.sent) :
    Orders { c with sent := c.sent ++ [.heartbeat] } := by
  refine ⟨h.accepted, ?_, ⟨c.sent ++ [.heartbeat], 0, ?_, ?_, fun h0 => absurd h0 (Nat.lt_irrefl _)⟩,
    h.closing, fun hd hr hc => ?_⟩
  · have hnumbers := h.numbers
    rw [numbered, List.filterMap_append] at hnumbers
    show (numbered ((c.sent ++ [.heartbeat]) ++ c.queue)).Sublist c.accepted
    rw [numbered, List.filterMap_append, List.filterMap_append,
      show [Message.heartbeat].filterMap Message.number = [] from rfl, List.append_nil]
    exact hnumbers
  · rw [List.replicate_zero, List.append_nil]
  · intro hmem
    rcases List.mem_append.mp hmem with hmem | hmem
    · exact hno hmem
    · cases List.mem_singleton.mp hmem
  · rcases h.resetting hd hr hc with hqueue | ⟨hqueue, pre, post, hsent, hpost⟩
    · exact .inl hqueue
    · refine .inr ⟨hqueue, pre, post ++ [.heartbeat], ?_, fun m hm => ?_⟩
      · show c.sent ++ [.heartbeat] = _
        rw [hsent, List.append_assoc]
        rfl
      · rcases List.mem_append.mp hm with hm | hm
        · exact hpost m hm
        · exact List.mem_singleton.mp hm

/-- What is queued makes room for one message, which is no submission. -/
lemma replace (h : Orders c) {m : Message} (hm : m.number = none)
    (hc' : c' = { c with
      queue := [m], bytes := 0, closing := c'.closing, resetting := c'.resetting })
    (hclosing : c.closing = true → c'.closing = true ∧ m = .close)
    (hclose : m = .close → c'.closing = true) (hreset : c'.closing = false → m = .reset) :
    Orders c' := by
  obtain ⟨front, k, hfront, hno, hk⟩ := h.closed
  rw [hc']
  refine ⟨h.accepted, ?_, ⟨front, k, hfront, hno, fun hpos => ?_⟩, fun hmem => ?_, fun _ _ hopen => ?_⟩
  · show (numbered (c.sent ++ [m])).Sublist c.accepted
    rw [numbered, List.filterMap_append, List.filterMap_cons_none hm,
      List.filterMap_nil, List.append_nil]
    refine (List.Sublist.filterMap _ ?_).trans h.numbers
    exact List.sublist_append_left _ _
  · obtain ⟨hclosed, hpc, -⟩ := hk hpos
    obtain ⟨hclosed', hclose'⟩ := hclosing hclosed
    exact ⟨hclosed', hpc, fun x hx => (List.mem_singleton.mp hx).trans hclose'⟩
  · obtain hclose' := (List.mem_singleton.mp hmem).symm
    exact ⟨hclose hclose', by rw [hclose']⟩
  · exact .inl (by rw [hreset hopen])

/-- Messages leave the queue for the wire; the last of them may be lost with it. -/
lemma take (h : Orders c) (hdriving : c.driving) {taken sent : ℕ} (hle : sent ≤ taken) {pc : ClientPc}
    (hpc : pc = .beat c.closing ∧ sent = taken ∨ pc = .returned) :
    Orders { c.take taken sent with pc } := by
  obtain ⟨front, k, hfront, hno, hk⟩ := h.closed
  have hbeat : c.closing = true → pc ≠ .beat false := by
    intro hclosing hpc'
    rcases hpc with ⟨hpc, -⟩ | hpc
    · rw [hclosing, hpc'] at hpc
      cases hpc
    · cases hpc.symm.trans hpc'
  have hmem : ∀ m ∈ c.queue.drop taken, m ∈ c.queue := fun m hm => List.mem_of_mem_drop hm
  refine ⟨h.accepted, ?_, ?_, fun hclose => ?_, fun hd hr hopen => ?_⟩
  · refine List.Sublist.trans (List.Sublist.filterMap _ ?_) h.numbers
    show ((c.sent ++ c.queue.take sent) ++ c.queue.drop taken).Sublist (c.sent ++ c.queue)
    rw [List.append_assoc]
    refine List.Sublist.append_left ?_ c.sent
    have hparts := List.Sublist.append_left (List.drop_sublist_drop_left c.queue hle)
      (c.queue.take sent)
    rwa [List.take_append_drop] at hparts
  · rcases Nat.eq_zero_or_pos k with hzero | hpos
    · subst hzero
      have hsent : c.sent = front := by simpa using hfront
      by_cases hclose : Message.close ∈ c.queue.take sent
      · obtain ⟨hclosing, hqueue⟩ := h.closing (List.mem_of_mem_take hclose)
        have hpos : 0 < sent := by
          by_contra h0
          have h0 : sent = 0 := by omega
          rw [h0] at hclose
          cases hclose
        refine ⟨front, 1, ?_, hno, fun _ => ⟨hclosing, hbeat hclosing, fun m hm => ?_⟩⟩
        · show c.sent ++ c.queue.take sent = _
          rw [hsent, hqueue, List.take_of_length_le (by rw [List.length_singleton]; omega)]
          rfl
        · have hm := hmem m hm
          rw [hqueue] at hm
          exact List.mem_singleton.mp hm
      · refine ⟨front ++ c.queue.take sent, 0, ?_, ?_, fun h0 => absurd h0 (Nat.lt_irrefl _)⟩
        · show c.sent ++ c.queue.take sent = _
          rw [hsent, List.replicate_zero, List.append_nil]
        · exact fun h0 => (List.mem_append.mp h0).elim hno hclose
    · obtain ⟨hclosing, -, hall⟩ := hk hpos
      have htaken : c.queue.take sent = List.replicate (c.queue.take sent).length .close :=
        List.eq_replicate_iff.mpr ⟨rfl, fun m hm => hall m (List.mem_of_mem_take hm)⟩
      refine ⟨front, k + (c.queue.take sent).length, ?_, hno, fun _ =>
        ⟨hclosing, hbeat hclosing, fun m hm => hall m (hmem m hm)⟩⟩
      show c.sent ++ c.queue.take sent = _
      rw [hfront, List.append_assoc, List.replicate_add, ← htaken]
  · obtain ⟨hclosing, hqueue⟩ := h.closing (hmem _ hclose)
    refine ⟨hclosing, ?_⟩
    have hclose : Message.close ∈ c.queue.drop taken := hclose
    show c.queue.drop taken = [.close]
    rw [hqueue] at hclose ⊢
    cases taken with
    | zero => rfl
    | succ n =>
      rw [List.drop_succ_cons, List.drop_nil] at hclose
      cases hclose
  · rcases hpc with ⟨-, hall⟩ | hpc
    · show c.queue.drop taken = _ ∨ c.queue.drop taken = [] ∧
        ∃ pre post, c.sent ++ c.queue.take sent = _ ∧ _
      rw [hall]
      rcases h.resetting hdriving hr hopen with hqueue | ⟨hqueue, hsent⟩
      · rw [hqueue]
        cases taken with
        | zero => exact .inl rfl
        | succ n => exact .inr ⟨List.drop_nil, c.sent, [], by rw [List.take_succ_cons, List.take_nil], by rintro _ ⟨⟩⟩
      · rw [hqueue, List.drop_nil, List.take_nil, List.append_nil]
        exact .inr ⟨rfl, hsent⟩
    · exact absurd hpc hd.1

/-- **Every step keeps the order.** -/
lemma step (h : Orders c) {l : ClientLabel} (hs : c.step l = some c') : Orders c' := by
  cases l with
  | send event =>
    rw [← Option.some.inj hs]
    rcases c.send_cases event with ⟨e, heq⟩ | heq | ⟨hopen, -, -, -, hlast, heq⟩
    · rw [heq]
      exact h
    · rw [heq]
      obtain ⟨front, k, hfront, hno, hk⟩ := h.closed
      exact ⟨h.accepted, h.numbers, ⟨front, k, hfront, hno, fun hpos => ⟨rfl, (hk hpos).2⟩⟩,
        fun h0 => ⟨rfl, (h.closing h0).2⟩, by rintro _ _ ⟨⟩⟩
    · rw [heq]
      exact h.submit hopen hlast event _
  | reset =>
    rw [← Option.some.inj hs]
    rcases c.reset_cases with heq | ⟨⟨-, hopen⟩, heq⟩
    · rw [heq]
      exact h
    · rw [heq]
      refine h.replace (m := .reset) rfl rfl (fun h0 => ?_) (by rintro ⟨⟩) fun _ => rfl
      cases hopen.symm.trans h0
  | close =>
    rw [← Option.some.inj hs]
    exact h.replace (m := .close) rfl rfl (fun _ => ⟨rfl, rfl⟩) (fun _ => rfl) (by rintro ⟨⟩)
  | poll =>
    rw [← Option.some.inj hs]
    exact ⟨h.accepted, h.numbers, h.closed, h.closing, h.resetting⟩
  | drop =>
    rw [← Option.some.inj hs]
    exact ⟨h.accepted, h.numbers, h.closed, h.closing, h.resetting⟩
  | drive room due =>
    rw [Client.step, drive] at hs
    split at hs
    · rename_i hpc
      rw [← Option.some.inj hs]
      refine h.of_same rfl rfl rfl rfl id id ?_ fun _ =>
        ⟨by rw [hpc]; rintro ⟨⟩, by rw [hpc]; rintro ⟨⟩⟩
      show (if c.stop = true then ClientPc.returned else ClientPc.take) ≠ .beat false
      split_ifs
      · rintro ⟨⟩
      · rintro ⟨⟩
    · rename_i hpc
      rw [← Option.some.inj hs]
      exact h.take ⟨by rw [hpc]; rintro ⟨⟩, by rw [hpc]; rintro ⟨⟩⟩ le_rfl (.inl ⟨rfl, rfl⟩)
    · rename_i closing hpc
      rw [← Option.some.inj hs]
      have hdriving : c.driving := ⟨by rw [hpc]; rintro ⟨⟩, by rw [hpc]; rintro ⟨⟩⟩
      have hsame : Orders { c with pc := .receive 0 } :=
        h.of_same rfl rfl rfl rfl id id (by rintro ⟨⟩) fun _ => hdriving
      cases hbeat : !closing && due with
      | false => exact hsame
      | true =>
        rw [Bool.and_eq_true, Bool.not_eq_true'] at hbeat
        rw [hbeat.1] at hpc
        refine hsame.heartbeat fun hmem => ?_
        obtain ⟨front, k, hfront, hno, hk⟩ := h.closed
        rcases Nat.eq_zero_or_pos k with hzero | hpos
        · have hmem : Message.close ∈ c.sent := hmem
          rw [hfront, hzero, List.replicate_zero, List.append_nil] at hmem
          exact hno hmem
        · exact (hk hpos).2.1 hpc
    · rename_i hpc
      rw [← Option.some.inj hs]
      exact h.of_same rfl rfl rfl rfl id id (by rintro ⟨⟩) fun _ =>
        ⟨by rw [hpc]; rintro ⟨⟩, by rw [hpc]; rintro ⟨⟩⟩
    · rw [← Option.some.inj hs]
      exact h.of_same rfl rfl rfl rfl id id (by rintro ⟨⟩) fun h0 => absurd rfl h0.2
    · cases hs
  | receive m =>
    rw [Client.step] at hs
    split at hs
    · rename_i n hpc
      have hdriving : c.driving := ⟨by rw [hpc]; rintro ⟨⟩, by rw [hpc]; rintro ⟨⟩⟩
      split_ifs at hs
      rw [← Option.some.inj hs]
      cases m with
      | reply status =>
        obtain ⟨hsequence, haccepted, hqueue, hsent, hclosing, hresetting, hpc'⟩ :=
          c.reply_frame n status
        exact h.of_same hsequence haccepted hqueue hsent (hclosing ▸ id) hresetting hpc'
          fun _ => hdriving
      | welcome | reject => exact h.of_same rfl rfl rfl rfl id id (by rintro ⟨⟩) fun _ => hdriving
      | heartbeat => exact h.of_same rfl rfl rfl rfl id id (by rintro ⟨⟩) fun _ => hdriving
    · cases hs
  | lost taken =>
    rw [Client.step, Client.lost] at hs
    split at hs
    · rename_i hpc
      rw [← Option.some.inj hs]
      exact h.take ⟨by rw [hpc]; rintro ⟨⟩, by rw [hpc]; rintro ⟨⟩⟩ (Nat.sub_le _ _) (.inr rfl)
    · rw [← Option.some.inj hs]
      exact h.of_same rfl rfl rfl rfl id id (by rintro ⟨⟩) fun h0 => absurd rfl h0.1
    · rw [← Option.some.inj hs]
      exact h.of_same rfl rfl rfl rfl id id (by rintro ⟨⟩) fun h0 => absurd rfl h0.1
    · cases hs

end Orders

end Client

end Jackstay.Input
