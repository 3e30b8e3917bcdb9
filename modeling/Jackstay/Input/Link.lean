import Jackstay.Input.Client
import Jackstay.Input.Told

/-!
`input/transport.rs`: a client and the server it is connected to, with the stream between them.

`up` holds what the client has written and the server has not received. What a server has sent
arrives in order: `read` is how much of it the client has received. Everyone else calls the target
as before. `connect` is the rest of `Client::connect`, for one frame.

* `Link.step`: a step of the client, of the server, or of the stream.
* `Link.Sound`: what is on its way is in order, and is valid for the epoch it names.
* `link_sound`: what has come through the checks of a client comes through those of the target.
-/

namespace Jackstay.Input

open Transition

/-- The client's end: `Client::connect` is waiting, has returned a client, or has failed. -/
inductive Peer where
  | connecting
  | connected (c : Client)
  | refused
  deriving DecidableEq, Repr

/-- The two ends of a stream. -/
structure Link where
  server : Server
  mode : Mode
  peer : Peer := .connecting
  up : List Message := [.hello version mode]
  read : ℕ := 0

/-- What happens next. -/
inductive LinkLabel where
  | server (l : ServerLabel)
  /-- the next message of the client arrives -/
  | arrive
  /-- `Client::connect` receives its frame -/
  | connect
  /-- `Client::connect` fails -/
  | refuse
  | client (l : ClientLabel)
  /-- the next message of the server is received -/
  | receive
  deriving DecidableEq, Repr

/-- What the client or its worker does without a frame. -/
def ClientLabel.isLocal : ClientLabel → Bool
  | .receive _ => false
  | _ => true

/-- What the server and everyone else do without a frame. -/
def ServerLabel.isLocal : ServerLabel → Bool
  | .client _ => false
  | _ => true

namespace Link

/-- `Client::connect`, when it has received a frame. -/
def greeted (mode : Mode) : Sent → Peer
  | .welcome m v _ epoch config =>
      if v = version ∧ m = mode then
        match State.new config with
        | .ok _ => .connected (.ofWelcome mode epoch config)
        | .error _ => .refused
      else .refused
  | _ => .refused

/-- `connect` fails, or it returns a client for the offer of the welcome. -/
lemma greeted_cases (mode : Mode) (m : Sent) :
    greeted mode m = .refused ∨ ∃ v id epoch config, m = .welcome mode v id epoch config ∧
      greeted mode m = .connected (.ofWelcome mode epoch config) := by
  cases m with
  | welcome m v id epoch config =>
    rw [greeted]
    split_ifs with hmatch
    · obtain ⟨-, rfl⟩ := hmatch
      cases State.new config with
      | error e => exact .inl rfl
      | ok s => exact .inr ⟨v, id, epoch, config, rfl, rfl⟩
    · exact .inl rfl
  | _ => exact .inl rfl

/-- The client has done a step: what it has sent is on its way. -/
def driven (k : Link) (c c' : Client) : Link :=
  { k with peer := .connected c', up := k.up ++ c'.sent.drop c.sent.length }

/-- **One step of a link.** -/
def step (k : Link) : LinkLabel → Option Link
  | .server l =>
      if l.isLocal then (k.server.step l).map fun server => { k with server } else none
  | .arrive =>
      match k.up with
      | [] => none
      | m :: up => (k.server.step (.client m)).map fun server => { k with server, up }
  | .connect =>
      match k.peer, k.server.sent[k.read]? with
      | .connecting, some m => some { k with peer := greeted k.mode m, read := k.read + 1 }
      | _, _ => none
  | .refuse =>
      match k.peer with
      | .connecting => some { k with peer := .refused }
      | _ => none
  | .client l =>
      match k.peer with
      | .connected c => if l.isLocal then (c.step l).map (k.driven c) else none
      | _ => none
  | .receive =>
      match k.peer, k.server.sent[k.read]? with
      | .connected c, some m =>
          (c.step (.receive m)).map fun c => { k with peer := .connected c, read := k.read + 1 }
      | _, _ => none

/-- `connect` has written its `Hello` to a server that has just been made. -/
def Starts (config : Config) (k : Link) : Prop :=
  ∃ sv mode, sv.Starts config ∧ k = { server := sv, mode }

end Link

/-! ### What the ends do to the stream -/

lemma numbered_append (xs ys : List Message) : numbered (xs ++ ys) = numbered xs ++ numbered ys :=
  List.filterMap_append

namespace Server

variable {sv sv' : Server} {c : Controller}

/-- What a step takes from the inbox, and what it adds to the replies. -/
structure Takes (sv sv' : Server) : Prop where
  taken : ∃ front got, sv.inbox = front ++ sv'.inbox ∧ sv'.received = sv.received ++ got ∧
    got.Sublist (numbered front)
  sent : ∃ more, sv'.sent = sv.sent ++ more
  controller : ∀ c, sv.controller = some c → sv'.controller = some c

namespace Takes

lemma of_same (hinbox : sv'.inbox = sv.inbox) (hreceived : sv'.received = sv.received)
    (hsent : ∃ more, sv'.sent = sv.sent ++ more)
    (hcontroller : ∀ c, sv.controller = some c → sv'.controller = some c) : sv.Takes sv' :=
  ⟨⟨[], [], hinbox.symm, by rw [hreceived, List.append_nil], .refl _⟩, hsent, hcontroller⟩

lemma quit (sv : Server) (ok : Bool) : sv.Takes (sv.quit ok) := by
  rw [Server.quit]
  split
  · rename_i c hc
    exact .of_same rfl rfl ⟨[], (List.append_nil _).symm⟩ fun d hd => hd
  · exact .of_same rfl rfl ⟨[], (List.append_nil _).symm⟩ fun d hd => hd

/-- A message is taken, and then something is done. -/
lemma next {m : Message} {inbox : List Message} (hinbox : sv.inbox = m :: inbox)
    (h : ({ sv with inbox } : Server).Takes sv') (hrest : sv'.inbox = inbox)
    (hsame : sv'.received = sv.received) : sv.Takes sv' := by
  refine ⟨⟨[m], [], ?_, ?_, List.nil_sublist _⟩, h.sent, h.controller⟩
  · rw [hinbox, hrest]
    rfl
  · rw [hsame, List.append_nil]

end Takes

lemma quit_inbox (sv : Server) (ok : Bool) :
    (sv.quit ok).inbox = sv.inbox ∧ (sv.quit ok).received = sv.received := by
  rw [quit]
  split
  · exact ⟨rfl, rfl⟩
  · exact ⟨rfl, rfl⟩

/-- A message is handled. -/
lemma takes_handle {m : Message} {inbox : List Message} (hinbox : sv.inbox = m :: inbox)
    (e : ServerEnv) (n : ℕ) : sv.Takes (({ sv with inbox } : Server).handle e c n m) := by
  have quits : ∀ sv' : Server, sv'.inbox = inbox → sv'.received = sv.received →
      sv'.sent = sv.sent → sv'.controller = sv.controller → sv.Takes (sv'.quit false) := by
    intro sv' hrest hreceived hsent hcontroller
    obtain ⟨hinbox', hreceived'⟩ := sv'.quit_inbox false
    have h := Takes.quit sv' false
    refine ⟨⟨[m], [], ?_, ?_, List.nil_sublist _⟩, hsent ▸ h.sent, hcontroller ▸ h.controller⟩
    · rw [hinbox, hinbox', hrest]
      rfl
    · rw [hreceived', hreceived, List.append_nil]
  have stays : ∀ sv' : Server, sv'.inbox = inbox → sv'.received = sv.received →
      sv'.sent = sv.sent → sv'.controller = sv.controller → sv.Takes sv' := by
    intro sv' hrest hreceived hsent hcontroller
    refine ⟨⟨[m], [], ?_, ?_, List.nil_sublist _⟩, ⟨[], ?_⟩, fun d hd => hcontroller ▸ hd⟩
    · rw [hinbox, hrest]
      rfl
    · rw [hreceived, List.append_nil]
    · rw [hsent, List.append_nil]
  cases m with
  | submit epoch sequence event =>
    refine ⟨⟨[.submit epoch sequence event], [sequence], ?_, rfl, .refl _⟩, ?_, fun d hd => hd⟩
    · rw [hinbox]
      rfl
    · rw [handle]
      dsimp only
      split
      · exact ⟨_, rfl⟩
      · exact ⟨[], (List.append_nil _).symm⟩
  | heartbeat => exact stays _ rfl rfl rfl rfl
  | reset =>
    rw [handle]
    split
    · exact quits _ rfl rfl rfl rfl
    · exact stays _ rfl rfl rfl rfl
  | close => exact stays _ rfl rfl rfl rfl
  | hello | foreign => exact quits _ rfl rfl rfl rfl

/-- Before the loop. -/
lemma takes_helloStep (e : ServerEnv) (hc : sv.controller = none) : sv.Takes (sv.helloStep e) := by
  have nobody : ∀ {sv' : Server}, ∀ d, sv.controller = some d → sv'.controller = some d := by
    intro sv' d hd
    cases hc.symm.trans hd
  have quits : ∀ {m : Message} {inbox : List Message}, sv.inbox = m :: inbox →
      sv.Takes (({ sv with inbox } : Server).quit false) := by
    intro m inbox hinbox
    have hquit := quit_inbox { sv with inbox } false
    exact (Takes.quit _ false).next hinbox hquit.1 hquit.2
  rw [helloStep]
  split_ifs
  · exact .quit sv true
  cases hinbox : sv.inbox with
  | nil => exact .of_same rfl rfl ⟨[], (List.append_nil _).symm⟩ nobody
  | cons m inbox =>
    cases m with
    | hello v mode =>
      dsimp only
      split_ifs
      · cases (sv.target.call (.admitController mode e.now)).2 with
        | admitted c =>
          exact ⟨⟨[_], [], hinbox, (List.append_nil _).symm, List.nil_sublist _⟩,
            ⟨[], (List.append_nil _).symm⟩, nobody⟩
        | error error =>
          exact ⟨⟨[_], [], hinbox, (List.append_nil _).symm, List.nil_sublist _⟩, ⟨_, rfl⟩, nobody⟩
        | _ =>
          exact ⟨⟨[_], [], hinbox, (List.append_nil _).symm, List.nil_sublist _⟩,
            ⟨[], (List.append_nil _).symm⟩, nobody⟩
      · exact quits hinbox
    | _ => exact quits hinbox

/-- One step of the loop. -/
lemma takes_loopStep {e : ServerEnv} (hs : sv.loopStep e c = some sv') : sv.Takes sv' := by
  have stays : ∀ {sv' : Server}, sv'.inbox = sv.inbox → sv'.received = sv.received →
      sv'.sent = sv.sent → sv'.controller = sv.controller → sv.Takes sv' :=
    fun hinbox hreceived hsent hcontroller => .of_same hinbox hreceived
      ⟨[], by rw [hsent, List.append_nil]⟩ fun d hd => hcontroller ▸ hd
  rw [loopStep] at hs
  split at hs
  · rw [← Option.some.inj hs]
    exact .of_same rfl rfl ⟨_, rfl⟩ fun d hd => hd
  · rw [← Option.some.inj hs]
    split_ifs
    · exact .quit sv true
    · exact stays rfl rfl rfl rfl
    · exact stays rfl rfl rfl rfl
  · split_ifs at hs
    · split at hs
      · rw [← Option.some.inj hs]
        exact stays rfl rfl rfl rfl
      · rename_i m inbox hinbox
        rw [← Option.some.inj hs]
        exact takes_handle hinbox e _
    · rw [← Option.some.inj hs]
      exact stays rfl rfl rfl rfl
  · split at hs
    · rw [← Option.some.inj hs]
      exact .of_same rfl rfl ⟨_, rfl⟩ fun d hd => hd
    · rw [← Option.some.inj hs]
      exact stays rfl rfl rfl rfl
  · rw [← Option.some.inj hs, flush]
    split_ifs
    · exact .quit sv true
    · exact stays rfl rfl rfl rfl
    · exact .of_same rfl rfl ⟨_, rfl⟩ fun d hd => hd
    · exact stays rfl rfl rfl rfl
  · cases hs

/-- **What a server takes** off the stream, and what it sends. -/
lemma takes_step {l : ServerLabel} (hl : l.isLocal = true)
    (hhello : sv.pc = .hello → sv.controller = none) (hs : sv.step l = some sv') : sv.Takes sv' := by
  cases l with
  | client m => cases hl
  | serve e =>
    rw [step, serveStep] at hs
    split_ifs at hs with hpc
    · rw [← Option.some.inj hs]
      exact takes_helloStep e (hhello hpc)
    · split at hs
      · exact takes_loopStep hs
      · cases hs
  | target l =>
    rw [step] at hs
    split_ifs at hs
    rw [← Option.some.inj hs]
    exact .of_same rfl rfl ⟨[], (List.append_nil _).symm⟩ fun d hd => hd
  | stop =>
    rw [← Option.some.inj hs]
    exact .of_same rfl rfl ⟨[], (List.append_nil _).symm⟩ fun d hd => hd
  | lost =>
    rw [step] at hs
    split at hs
    · cases hs
    · cases hs
    · rw [← Option.some.inj hs]
      exact .quit sv false

end Server

namespace Client

variable {c c' : Client}

/-- What the checks of a client let through: no submission, or one that is valid for the geometry
and in the epoch that the client has heard of. -/
def Passes (c : Client) (m : Message) : Prop :=
  m.number = none ∧ m.wellFormed = true ∨ ∃ sequence event, m = .submit c.epoch sequence event ∧
    validate c.config c.mode event = .ok ()

/-- What a client queues and what it sends has been queued, or passes its checks. -/
structure Writes (c c' : Client) : Prop where
  mode : c'.mode = c.mode
  epoch : c'.epoch = c.epoch
  config : c'.config = c.config
  sent : ∃ more, c'.sent = c.sent ++ more ∧ ∀ m ∈ more ++ c'.queue, m ∈ c.queue ∨ c.Passes m

namespace Writes

lemma of_same (hmode : c'.mode = c.mode) (hepoch : c'.epoch = c.epoch) (hconfig : c'.config = c.config)
    (hsent : c'.sent = c.sent) (hqueue : ∀ m ∈ c'.queue, m ∈ c.queue ∨ c.Passes m) : c.Writes c' :=
  ⟨hmode, hepoch, hconfig, [], by rw [hsent, List.append_nil], hqueue⟩

/-- Messages leave the queue. -/
lemma take (c : Client) (taken sent : ℕ) (pc : ClientPc) :
    c.Writes { c.take taken sent with pc } := by
  refine ⟨rfl, rfl, rfl, c.queue.take sent, rfl, fun m hm => .inl ?_⟩
  rcases List.mem_append.mp hm with hm | hm
  · exact List.mem_of_mem_take hm
  · exact List.mem_of_mem_drop hm

end Writes

/-- **What a step of a client writes.** -/
lemma writes_step {l : ClientLabel} (hl : l.isLocal = true) (hs : c.step l = some c') :
    c.Writes c' := by
  cases l with
  | send event =>
    rw [← Option.some.inj hs]
    rcases c.send_cases event with ⟨e, heq⟩ | heq | ⟨-, hvalid, -, -, -, heq⟩
    · rw [heq]
      exact .of_same rfl rfl rfl rfl fun m hm => .inl hm
    · rw [heq]
      exact .of_same rfl rfl rfl rfl fun m hm => .inl hm
    · rw [heq]
      refine .of_same rfl rfl rfl rfl fun m hm => ?_
      exact (List.mem_append.mp hm).imp_right fun hm =>
        .inr ⟨_, event, List.mem_singleton.mp hm, hvalid⟩
  | reset =>
    rw [← Option.some.inj hs]
    rcases c.reset_cases with heq | ⟨-, heq⟩
    · rw [heq]
      exact .of_same rfl rfl rfl rfl fun m hm => .inl hm
    · rw [heq]
      refine .of_same rfl rfl rfl rfl fun m hm => .inr (.inl ?_)
      rw [List.mem_singleton.mp hm]
      exact ⟨rfl, rfl⟩
  | close =>
    rw [← Option.some.inj hs]
    refine .of_same rfl rfl rfl rfl fun m hm => .inr (.inl ?_)
    rw [List.mem_singleton.mp hm]
    exact ⟨rfl, rfl⟩
  | poll =>
    rw [← Option.some.inj hs]
    exact .of_same rfl rfl rfl rfl fun m hm => .inl hm
  | drop =>
    rw [← Option.some.inj hs]
    exact .of_same rfl rfl rfl rfl fun m hm => .inl hm
  | drive room due =>
    rw [step, drive] at hs
    split at hs
    · rw [← Option.some.inj hs]
      exact .of_same rfl rfl rfl rfl fun m hm => .inl hm
    · rw [← Option.some.inj hs]
      exact .take c _ _ _
    · rw [← Option.some.inj hs]
      split_ifs
      · refine ⟨rfl, rfl, rfl, [.heartbeat], rfl, fun m hm => ?_⟩
        rcases List.mem_append.mp hm with hm | hm
        · rw [List.mem_singleton.mp hm]
          exact .inr (.inl ⟨rfl, rfl⟩)
        · exact .inl hm
      · exact .of_same rfl rfl rfl rfl fun m hm => .inl hm
    · rw [← Option.some.inj hs]
      exact .of_same rfl rfl rfl rfl fun m hm => .inl hm
    · rw [← Option.some.inj hs]
      exact .of_same rfl rfl rfl rfl fun m hm => .inl hm
    · cases hs
  | receive m => cases hl
  | lost taken =>
    rw [step, lost] at hs
    split at hs
    · rw [← Option.some.inj hs]
      exact .take c _ _ _
    · rw [← Option.some.inj hs]
      exact .of_same rfl rfl rfl rfl fun m hm => .inl hm
    · rw [← Option.some.inj hs]
      exact .of_same rfl rfl rfl rfl fun m hm => .inl hm
    · cases hs

/-- What a frame changes of the checks: a `Reset` brings an epoch, with its geometry. -/
lemma hears_step {m : Sent} (hs : c.step (.receive m) = some c') :
    c'.mode = c.mode ∧ c'.sent = c.sent ∧ c'.queue = c.queue ∧
      (c'.epoch = c.epoch ∧ c'.config = c.config ∨
        m.epoch = some (c'.epoch, c'.config.geometry) ∧
          c'.config = { c.config with geometry := c'.config.geometry }) := by
  rw [step] at hs
  split at hs
  swap
  · cases hs
  rename_i n hpc
  split_ifs at hs
  rw [← Option.some.inj hs]
  cases m with
  | reply status =>
    obtain ⟨-, -, hqueue, hsent, -⟩ := c.reply_frame n status
    have hrenewed : (c.renewed status).mode = c.mode ∧
        ((c.renewed status).epoch = c.epoch ∧ (c.renewed status).config = c.config ∨
          status.renewal = some ((c.renewed status).epoch, (c.renewed status).config.geometry) ∧
            (c.renewed status).config =
              { c.config with geometry := (c.renewed status).config.geometry }) := by
      cases status with
      | reset epoch geometry => exact ⟨rfl, .inr ⟨rfl, rfl⟩⟩
      | _ => exact ⟨rfl, .inl ⟨rfl, rfl⟩⟩
    obtain ⟨hmode, hepoch⟩ := hrenewed
    rw [receive]
    refine ⟨?_, hsent, hqueue, ?_⟩
    · rcases c.reply_cases n status with ⟨rest, count, delta, -, -, heq⟩ | ⟨-, heq⟩ | ⟨-, -, heq⟩ |
        ⟨-, -, heq⟩
      · rw [heq]
      all_goals rw [heq]; exact hmode
    · rcases c.reply_cases n status with ⟨rest, count, delta, -, -, heq⟩ | ⟨-, heq⟩ | ⟨-, -, heq⟩ |
        ⟨-, -, heq⟩
      · rw [heq]
        exact .inl ⟨rfl, rfl⟩
      all_goals rw [heq]; exact hepoch
  | welcome | reject | heartbeat => exact ⟨rfl, rfl, rfl, .inl ⟨rfl, rfl⟩⟩

/-- The numbers that a client has given go up from `1`. -/
lemma given_pairwise (c : Client) : c.given.Pairwise (· < ·) ∧ ∀ q ∈ c.given, 0 < q := by
  have hnext : ∀ n, n < c.sequence.toNat → (UInt64.ofNat (n + 1)).toNat = n + 1 := fun n hn =>
    UInt64.toNat_ofNat_of_lt' (Nat.lt_of_le_of_lt hn (UInt64.toNat_lt _))
  constructor
  · refine List.pairwise_map.mpr (List.pairwise_lt_range.imp_of_mem fun {i j} hi hj hij => ?_)
    rw [UInt64.lt_iff_toNat_lt, hnext i (List.mem_range.mp hi), hnext j (List.mem_range.mp hj)]
    omega
  · intro q hq
    obtain ⟨n, hn, rfl⟩ := List.mem_map.mp hq
    rw [UInt64.lt_iff_toNat_lt, hnext n (List.mem_range.mp hn)]
    exact Nat.succ_pos n

end Client

namespace Link

variable {config : Config} {k k' : Link}

/-- What the client has put on the wire. -/
def written (k : Link) : List Message :=
  match k.peer with
  | .connected c => c.sent
  | _ => []

/-- What waits at the client. -/
def queued (k : Link) : List Message :=
  match k.peer with
  | .connected c => c.queue
  | _ => []

/-- What is on its way to the handling of the server, in order. -/
def arriving (k : Link) : List Message := k.server.inbox ++ k.up

/-- No submission, or one of an event that is valid for the controller with the geometry of the
epoch that it names. -/
def Valid (config : Config) (sv : Server) (m : Message) : Prop :=
  m.number = none ∨ ∃ epoch sequence event geometry c, m = .submit epoch sequence event ∧
    (epoch, geometry) ∈ issued sv.sent ∧ sv.controller = some c ∧
      validate { config with geometry } c.mode event = .ok ()

/-- The client checks for the mode of its controller, and with a geometry that has been issued. -/
structure Knows (config : Config) (sv : Server) (c : Client) : Prop where
  orders : c.Orders
  mode : ∃ d, sv.controller = some d ∧ d.mode = c.mode
  issued : (c.epoch, c.config.geometry) ∈ issued sv.sent
  config : c.config = { config with geometry := c.config.geometry }

/-- **What is on its way** is in order, and is valid for the epoch it names. -/
structure Sound (config : Config) (k : Link) : Prop where
  told : k.server.Told config
  client : ∀ c, k.peer = .connected c → Knows config k.server c
  order : (k.server.received ++ numbered k.arriving).Sublist (numbered k.written)
  valid : ∀ m ∈ k.arriving ++ k.queued, Valid config k.server m

/-- The epochs of the target do not wrap. -/
def Epochs (k : Link) (_ : LinkLabel) : Prop := k.server.Epochs

lemma mem_issued {sent more : List Sent} {x : UInt64 × Geometry} (h : x ∈ issued sent) :
    x ∈ issued (sent ++ more) := by
  rw [issued_append]
  exact List.mem_append_left _ h

/-- What a server has sent stays, and so does its controller. -/
lemma Valid.takes {sv sv' : Server} {m : Message} (h : Valid config sv m) (ht : sv.Takes sv') :
    Valid config sv' m := by
  obtain ⟨more, hsent⟩ := ht.sent
  rcases h with h | ⟨epoch, sequence, event, geometry, c, hm, hissued, hc, hvalid⟩
  · exact .inl h
  · exact .inr ⟨epoch, sequence, event, geometry, c, hm, hsent ▸ mem_issued hissued,
      ht.controller c hc, hvalid⟩

lemma Knows.takes {sv sv' : Server} {c : Client} (h : Knows config sv c) (ht : sv.Takes sv') :
    Knows config sv' c := by
  obtain ⟨more, hsent⟩ := ht.sent
  obtain ⟨d, hd, hmode⟩ := h.mode
  exact ⟨h.orders, ⟨d, ht.controller d hd, hmode⟩, hsent ▸ mem_issued h.issued, h.config⟩

/-- What passes the checks of a client is valid. -/
lemma Knows.valid {sv : Server} {c : Client} (h : Knows config sv c) {m : Message}
    (hm : c.Passes m) : Valid config sv m := by
  rcases hm with ⟨hm, -⟩ | ⟨sequence, event, hm, hvalid⟩
  · exact .inl hm
  · obtain ⟨d, hd, hmode⟩ := h.mode
    refine .inr ⟨c.epoch, sequence, event, c.config.geometry, d, hm, h.issued, hd, ?_⟩
    rw [hmode, ← h.config]
    exact hvalid

namespace Sound

/-- A step of the server or of everyone else. -/
lemma server (h : Sound config k) {l : ServerLabel} (hl : l.isLocal = true) (he : k.server.Epochs)
    {sv : Server} (hs : k.server.step l = some sv) : Sound config { k with server := sv } := by
  have htakes := Server.takes_step hl (fun hpc => (h.told.hello hpc).1) hs
  obtain ⟨front, got, hinbox, hreceived, hgot⟩ := htakes.taken
  refine ⟨h.told.step he hs, fun c hc => (h.client c hc).takes htakes, ?_, fun m hm => ?_⟩
  · refine List.Sublist.trans ?_ h.order
    show (sv.received ++ numbered (sv.inbox ++ k.up)).Sublist
      (k.server.received ++ numbered (k.server.inbox ++ k.up))
    rw [hreceived, hinbox, List.append_assoc, List.append_assoc, numbered_append front]
    exact (hgot.append_right _).append_left _
  · refine (h.valid m ?_).takes htakes
    have hm : m ∈ sv.inbox ++ k.up ++ k.queued := hm
    show m ∈ k.server.inbox ++ k.up ++ k.queued
    rw [hinbox, List.append_assoc, List.append_assoc]
    rw [List.append_assoc] at hm
    exact List.mem_append_right _ hm

/-- A message arrives. -/
lemma arrive (h : Sound config k) {m : Message} {up : List Message} (hup : k.up = m :: up)
    (he : k.server.Epochs) :
    Sound config { k with server := { k.server with inbox := k.server.inbox ++ [m] }, up } := by
  have hall : k.server.inbox ++ [m] ++ up = k.arriving := by
    rw [arriving, hup, List.append_assoc]
    rfl
  refine ⟨h.told.step he (l := .client m) rfl, fun c hc => ?_, ?_, fun x hx => ?_⟩
  · exact ⟨(h.client c hc).orders, (h.client c hc).mode, (h.client c hc).issued, (h.client c hc).config⟩
  · show (k.server.received ++ numbered (k.server.inbox ++ [m] ++ up)).Sublist _
    rw [hall]
    exact h.order
  · have hx : x ∈ k.server.inbox ++ [m] ++ up ++ k.queued := hx
    rw [hall] at hx
    exact h.valid x hx

/-- `connect` has received its frame. -/
lemma connect (h : Sound config k) (hpeer : k.peer = .connecting) {m : Sent}
    (hm : m ∈ k.server.sent) :
    Sound config { k with peer := greeted k.mode m, read := k.read + 1 } := by
  have hwritten : k.written = [] := by rw [written, hpeer]
  have hqueued : k.queued = [] := by rw [queued, hpeer]
  have hnumbers := h.order
  rw [hwritten] at hnumbers
  have hvalid := h.valid
  rw [hqueued] at hvalid
  rcases greeted_cases k.mode m with heq | ⟨v, id, epoch, offer, rfl, heq⟩
  · rw [heq]
    exact ⟨h.told, (by rintro c ⟨⟩), hnumbers, hvalid⟩
  · rw [heq]
    refine ⟨h.told, fun c hc => ?_, hnumbers, hvalid⟩
    obtain ⟨⟨d, hd, hmode⟩, hoffer⟩ := h.told.welcomed k.mode v id epoch offer hm
    obtain rfl := Peer.connected.inj hc
    refine ⟨⟨rfl, .refl _, ⟨[], 0, rfl, (by rintro ⟨⟩), by rintro ⟨⟩⟩, (by rintro ⟨⟩), by rintro _ ⟨⟩⟩, ⟨d, hd, hmode⟩, ?_, hoffer⟩
    exact List.mem_filterMap.mpr ⟨_, hm, rfl⟩

/-- A step of the client. -/
lemma client_step (h : Sound config k) {c c' : Client} (hpeer : k.peer = .connected c)
    {l : ClientLabel} (hl : l.isLocal = true) (hs : c.step l = some c') :
    Sound config (k.driven c c') := by
  obtain ⟨hmode, hepoch, hconfig, more, hsent, hpasses⟩ := Client.writes_step hl hs
  have hknows := h.client c hpeer
  have hdrop : c'.sent.drop c.sent.length = more := by rw [hsent, List.drop_left]
  have hqueued : k.queued = c.queue := by rw [queued, hpeer]
  have hwritten : k.written = c.sent := by rw [written, hpeer]
  refine ⟨h.told, fun d hd => ?_, ?_, fun m hm => ?_⟩
  · obtain rfl := Peer.connected.inj hd
    refine ⟨hknows.orders.step hs, hmode ▸ hknows.mode, ?_, hconfig ▸ hknows.config⟩
    rw [hepoch, hconfig]
    exact hknows.issued
  · show (k.server.received ++ numbered (k.server.inbox ++
      (k.up ++ c'.sent.drop c.sent.length))).Sublist (numbered c'.sent)
    have hnumbers := h.order
    rw [hwritten] at hnumbers
    rw [hdrop, hsent, ← List.append_assoc, numbered_append, numbered_append c.sent,
      ← List.append_assoc]
    exact hnumbers.append (.refl _)
  · have hm : m ∈ k.server.inbox ++ (k.up ++ c'.sent.drop c.sent.length) ++ c'.queue := hm
    rw [hdrop, ← List.append_assoc, List.append_assoc] at hm
    rcases List.mem_append.mp hm with hm | hm
    · exact h.valid m (List.mem_append_left _ hm)
    · rcases hpasses m hm with hm | hm
      · refine h.valid m (List.mem_append_right _ ?_)
        rw [hqueued]
        exact hm
      · exact hknows.valid hm

/-- A frame is received. -/
lemma receive (h : Sound config k) {c c' : Client} (hpeer : k.peer = .connected c) {m : Sent}
    (hm : m ∈ k.server.sent) (hs : c.step (.receive m) = some c') :
    Sound config { k with peer := .connected c', read := k.read + 1 } := by
  obtain ⟨hmode, hsent, hqueue, hchecks⟩ := Client.hears_step hs
  have hknows := h.client c hpeer
  have hqueued : k.queued = c.queue := by rw [queued, hpeer]
  have hwritten : k.written = c.sent := by rw [written, hpeer]
  refine ⟨h.told, fun d hd => ?_, ?_, fun x hx => ?_⟩
  · obtain rfl := Peer.connected.inj hd
    refine ⟨hknows.orders.step hs, hmode ▸ hknows.mode, ?_, ?_⟩
    · rcases hchecks with ⟨hepoch, hconfig⟩ | ⟨hepoch, -⟩
      · rw [hepoch, hconfig]
        exact hknows.issued
      · exact List.mem_filterMap.mpr ⟨m, hm, hepoch⟩
    · rcases hchecks with ⟨-, hconfig⟩ | ⟨-, hconfig⟩
      · rw [hconfig]
        exact hknows.config
      · rw [hconfig, hknows.config]
  · have hnumbers := h.order
    rw [hwritten] at hnumbers
    show List.Sublist _ (numbered c'.sent)
    rw [hsent]
    exact hnumbers
  · have hx : x ∈ k.arriving ++ c'.queue := hx
    rw [hqueue, ← hqueued] at hx
    exact h.valid x hx

/-- **Every step keeps what is on its way.** -/
lemma step (h : Sound config k) (he : k.server.Epochs) {l : LinkLabel} (hs : k.step l = some k') :
    Sound config k' := by
  cases l with
  | server l =>
    rw [Link.step] at hs
    split_ifs at hs with hl
    obtain ⟨sv, hsv, rfl⟩ := Option.map_eq_some_iff.mp hs
    exact h.server hl he hsv
  | arrive =>
    rw [Link.step] at hs
    split at hs
    · cases hs
    · rename_i m up hup
      rw [← Option.some.inj hs]
      exact h.arrive hup he
  | connect =>
    rw [Link.step] at hs
    split at hs
    · rename_i m hpeer hm
      rw [← Option.some.inj hs]
      exact h.connect hpeer (List.mem_of_getElem? hm)
    · cases hs
  | refuse =>
    rw [Link.step] at hs
    split at hs
    · rename_i hpeer
      rw [← Option.some.inj hs]
      have hnumbers := h.order
      have hvalid := h.valid
      rw [written, hpeer] at hnumbers
      rw [queued, hpeer] at hvalid
      exact ⟨h.told, (by rintro c ⟨⟩), hnumbers, hvalid⟩
    · cases hs
  | client l =>
    rw [Link.step] at hs
    split at hs
    · rename_i c hpeer
      split_ifs at hs with hl
      obtain ⟨c', hc', rfl⟩ := Option.map_eq_some_iff.mp hs
      exact h.client_step hpeer hl hc'
    · cases hs
  | receive =>
    rw [Link.step] at hs
    split at hs
    · rename_i c m hpeer hm
      obtain ⟨c', hc', rfl⟩ := Option.map_eq_some_iff.mp hs
      exact h.receive hpeer (List.mem_of_getElem? hm) hc'
    · cases hs

end Sound

/-- A submission that is handled has a number of its own, behind those that have been handled. -/
lemma Sound.number (h : Sound config k) {epoch sequence : UInt64} {event : Event}
    (hh : k.server.handles (.submit epoch sequence event)) :
    0 < sequence ∧ ∀ q ∈ k.server.received, q < sequence := by
  obtain ⟨n, inbox, -, -, hinbox⟩ := hh
  have hnumbers := h.order
  rw [arriving, hinbox] at hnumbers
  cases hpeer : k.peer with
  | connected c =>
    obtain ⟨hlt, hpos⟩ := c.given_pairwise
    have hgiven : (k.server.received ++
        numbered (Message.submit epoch sequence event :: inbox ++ k.up)).Sublist c.given := by
      have hsent := (h.client c hpeer).orders.numbers
      rw [(h.client c hpeer).orders.accepted, numbered_append] at hsent
      rw [written, hpeer] at hnumbers
      exact hnumbers.trans ((List.sublist_append_left _ _).trans hsent)
    have hfirst : sequence ∈ numbered (Message.submit epoch sequence event :: inbox ++ k.up) :=
      List.mem_cons_self
    refine ⟨hpos _ (hgiven.subset (List.mem_append_right _ hfirst)), fun q hq => ?_⟩
    exact (List.pairwise_append.mp (hlt.sublist hgiven)).2.2 q hq sequence hfirst
  | connecting | refused =>
    rw [written, hpeer] at hnumbers
    have hnil := List.eq_nil_of_sublist_nil hnumbers
    cases (List.append_eq_nil_iff.mp hnil).2

lemma Starts.sound {k₀ : Link} (h₀ : k₀.Starts config) : Sound config k₀ := by
  obtain ⟨sv, mode, ⟨s₀, hnew, rfl⟩, rfl⟩ := h₀
  have htold : Server.Told config { target := s₀ } := by
    refine ⟨⟨config, [], s₀, hnew, .nil⟩, ?_, fun _ => ⟨rfl, rfl⟩, by rintro _ ⟨⟩, by rintro _ ⟨⟩, by rintro _ ⟨⟩,
      by rintro _ _ _ _ _ ⟨⟩⟩
    rw [(State.new_eq hnew).1]
  refine ⟨htold, by rintro _ ⟨⟩, .refl _, fun m hm => ?_⟩
  rw [List.mem_singleton.mp hm]
  exact .inl rfl

end Link

/-- **What becomes of a submission** that has come through the checks of its client. -/
inductive Link.Meets (s : State) (c : Controller) (epoch : UInt64) (event : Event) : Reply → Prop
  | done : Meets s c epoch event .done
  | overflow : Meets s c epoch event (.error .overflow)
  | closed : (∀ a, s.active = some a → a.id ≠ c.id) → Meets s c epoch event (.error .closed)
  /-- something is being cleaned up -/
  | busy (a : Active) : s.active = some a → a.id = c.id → epoch = a.epoch →
      s.barrier.isSome ∨ s.cleaning = true → Meets s c epoch event (.error .busy)
  /-- the client has not yet heard of the current epoch -/
  | late (a : Active) : s.active = some a → a.id = c.id → epoch < a.epoch →
      Meets s c epoch event (.error .stale)
  /-- the event continues a scroll that is not open -/
  | unopened (a : Active) : s.active = some a → a.id = c.id → epoch = a.epoch →
      a.scrollOpen = false → event.scrollStart = false → event.scrollContinuation = true →
      Meets s c epoch event (.error .stale)

/-- A submission of a new number, which is valid for the geometry of an epoch that has been heard
of. -/
lemma State.Announced.meets {s s' : State} {c : Controller} {heard : List (UInt64 × Geometry)}
    (h : s.Announced c.id heard) {config : Config}
    (hconfig : s.config = { config with geometry := s.config.geometry }) {sequence : UInt64}
    (hactive : ∀ a, s.active = some a → a.id = c.id → a.mode = c.mode ∧ a.lastSequence < sequence)
    (hpos : 0 < sequence) {epoch : UInt64} {geometry : Geometry} (hheard : (epoch, geometry) ∈ heard)
    {event : Event} (hvalid : validate { config with geometry } c.mode event = .ok ()) {now : ℕ}
    {r : Reply} (hacts : s.Acts (.submit c now epoch sequence event) r s') :
    Link.Meets s c epoch event r := by
  have hpasses : ∀ a, s.active = some a → a.id = c.id → epoch = a.epoch → s.barrier = none →
      s.cleaning = false → validate s.config a.mode event = .ok () := by
    intro a ha hid hepoch hb hclean
    have hgeometry : geometry = s.config.geometry := h.geometry_eq ha hid hb hclean hheard hepoch
    rw [hconfig, (hactive a ha hid).1, ← hgeometry]
    exact hvalid
  cases hacts with
  | idle _ _ hidle =>
    rcases hidle with ⟨rfl, hnone⟩ | ⟨rfl, a, ha, hid, hsequence⟩
    · exact .closed hnone
    · -- the number is new
      have hlt := (hactive a ha hid).2
      rcases hsequence with hzero | hle
      · rw [hzero] at hpos
        exact absurd hpos (UInt64.lt_irrefl _)
      · exact absurd hlt (UInt64.not_lt.mpr hle)
  | refused _ _ _ _ _ a e ha hid hseq href =>
    cases e with
    | stale =>
      rcases href with hne | ⟨hepoch, hb, hclean, hstale⟩
      · have hle : epoch ≤ a.epoch := h.le a ha hid _ (List.mem_append_left _ hheard)
        exact .late a ha hid (UInt64.lt_of_le_of_ne hle hne)
      · rcases hstale with hstale | ⟨-, hopen, hstart, hcontinues⟩
        · cases hstale.symm.trans (hpasses a ha hid hepoch hb hclean)
        · exact .unopened a ha hid hepoch hopen hstart hcontinues
    | busy => exact .busy a ha hid href.1 href.2
    | _ =>
      obtain ⟨hepoch, hb, hclean, herror⟩ := href
      cases herror.symm.trans (hpasses a ha hid hepoch hb hclean)
  | superseded _ _ _ _ _ a front tail motion s' hr hm hq hop hmot hcount => exact .done
  | overflowed _ _ _ _ _ a s' hr hfull hc => exact .overflow
  | accepted _ _ _ _ _ a hr hmot hroom hbytes => exact .done
  | close _ _ a _ hl => rcases hl with hl | hl <;> cases hl

/-- The epoch of the target may be followed by another. -/
def Link.epochs (k : Link) (_ : LinkLabel) : Bool :=
  k.server.target.active.all fun a => decide (a.epoch.toNat + 1 < 2 ^ 64)

lemma Link.of_epochs {k : Link} {l : LinkLabel} (h : k.epochs l = true) : k.Epochs l :=
  fun a ha => of_decide_eq_true (by rwa [Link.epochs, ha] at h)

/-- The geometry changes while a text is on its way. -/
def overtaken : List LinkLabel :=
  [.arrive, .server (.serve {}), .server (.serve {}), .connect, .client (.send (.text "a")),
    .client (.drive 32 false), .client (.drive 32 false),
    .server (.target (.setGeometry ⟨2, Config.default.geometry.width, Config.default.geometry.height⟩)),
    .server (.target (.next 0)), .server (.target (.complete 1 .executed)), .arrive,
    .server (.serve {})]

end Jackstay.Input
