import Jackstay.Library.Transition
import Jackstay.Input.Closing

/-!
`input/transport.rs`: the worker that serves one client.

`serve` admits a controller for the client's `Hello` and then loops: it ticks the target,
handles up to 32 messages, drains the mailbox of the controller into the wire and flushes.
The executor, the host and the other controllers of the target call it in between, one
call at a time; `Server.step` interleaves them with the steps of the worker.

`inbox` holds the messages that have arrived, `sent` what has been queued for the client.
A wire operation that fails is the label `lost`. `calls` and `received` are history
variables: the calls on the target with their replies, and the sequence numbers of the
`Submit` messages that have been handled.

* `Serving`: how what has been sent accounts for what has been received and polled.
* `served_end`: the worker returns behind `Closed` only, and every `Submit` is answered
  once before it, in runs without the three defects that `Server.Spared` names.
* `reset_of_ended`: a `Reset` that meets an ended controller ends the worker instead.
-/

namespace Jackstay.Input

open Transition

/-- `VERSION`. -/
def version : UInt32 := 2

/-- `Wire`, as a client sends it. -/
inductive Message where
  | hello (version : UInt32) (mode : Mode)
  | submit (epoch sequence : UInt64) (event : Event)
  | reset
  | heartbeat
  | close
  /-- what only a server sends -/
  | foreign
  deriving DecidableEq, Repr

/-- The messages of a connected client. -/
def Message.wellFormed : Message → Bool
  | .submit .. => true
  | .reset => true
  | .heartbeat => true
  | .close => true
  | _ => false

/-- `Wire`, as a server sends it. -/
inductive Sent where
  | welcome (mode : Mode) (version : UInt32) (controller epoch : UInt64) (config : Config)
  | reject (e : Error)
  | reply (status : Status)
  | heartbeat
  deriving DecidableEq, Repr

/-- The status of a reply. -/
def Sent.status : Sent → Option Status
  | .reply status => some status
  | _ => none

/-- Where `serve` is. -/
inductive ServerPc where
  | hello
  | welcome
  | head
  /-- so many messages have been handled in this round -/
  | receive (n : ℕ)
  | poll
  | flush
  | returned (ok : Bool)
  deriving DecidableEq, Repr

/-- The worker with its target and its wire. -/
structure Server where
  target : State
  pc : ServerPc := .hello
  controller : Option Controller := none
  closing : Bool := false
  stop : Bool := false
  inbox : List Message := []
  sent : List Sent := []
  calls : Trace := []
  received : List UInt64 := []

/-- What a step of the worker finds: the time, whether the five seconds for `Hello` are
over, whether a heartbeat is due, and whether the wire has become idle. -/
structure ServerEnv where
  now : ℕ := 0
  late : Bool := false
  due : Bool := false
  idle : Bool := false
  deriving DecidableEq, Repr

/-- What may happen next. -/
inductive ServerLabel where
  /-- a message of the client arrives -/
  | client (m : Message)
  | serve (e : ServerEnv)
  /-- a call of the executor, of the host or of another controller -/
  | target (l : Call)
  /-- the `Server` is dropped -/
  | stop
  /-- the wire fails: the stream has ended, a frame is not valid, or the buffer is full -/
  | lost
  deriving DecidableEq, Repr

/-- The controller that makes a call. -/
def Call.caller : Call → Option UInt64
  | .heartbeat c _ => some c.id
  | .submit c _ _ _ _ => some c.id
  | .reset c => some c.id
  | .close c => some c.id
  | .drop c => some c.id
  | .poll c => some c.id
  | _ => none

namespace Server

/-- Make a call on the target. -/
def on (sv : Server) (l : Call) : Server :=
  { sv with
    target := (sv.target.call l).1
    calls := sv.calls ++ [(l, (sv.target.call l).2)] }

/-- Return from `serve`; the controller is dropped on the way. -/
def quit (sv : Server) (ok : Bool) : Server :=
  match sv.controller with
  | some c => { sv.on (.drop c) with pc := .returned ok }
  | none => { sv with pc := .returned ok }

/-- One message of the client. -/
def handle (sv : Server) (e : ServerEnv) (c : Controller) (n : ℕ) : Message → Server
  | .submit epoch sequence event =>
      let l : Call := .submit c e.now epoch sequence event
      let sent := match (sv.target.call l).2 with
        | .error error => sv.sent ++ [.reply (.rejected sequence error)]
        | _ => sv.sent
      { sv.on l with sent, received := sv.received ++ [sequence], pc := .receive (n + 1) }
  | .heartbeat => { sv.on (.heartbeat c e.now) with pc := .receive (n + 1) }
  | .reset =>
      match (sv.target.call (.reset c)).2 with
      | .error _ => (sv.on (.reset c)).quit false
      | _ => { sv.on (.reset c) with pc := .receive (n + 1) }
  | .close => { sv.on (.close c) with pc := .receive (n + 1) }
  | _ => sv.quit false

/-- The part of `serve` before the loop. -/
def helloStep (sv : Server) (e : ServerEnv) : Server :=
  if sv.stop || e.late then sv.quit true
  else match sv.inbox with
    | [] => sv
    | .hello v mode :: inbox =>
        if v = version then
          let l : Call := .admitController mode e.now
          let sv' := ({ sv with inbox } : Server).on l
          match (sv.target.call l).2 with
          | .admitted c => { sv' with controller := some c, pc := .welcome }
          | .error error => { sv' with sent := sv.sent ++ [.reject error], pc := .returned true }
          | _ => sv'
        else ({ sv with inbox } : Server).quit false
    | _ :: inbox => ({ sv with inbox } : Server).quit false

/-- The end of a round: a heartbeat if one is due, and the return behind `Closed`. -/
def flush (sv : Server) (e : ServerEnv) : Server :=
  if sv.closing then
    if e.idle then sv.quit true else { sv with pc := .head }
  else { sv with sent := if e.due then sv.sent ++ [.heartbeat] else sv.sent, pc := .head }

/-- The rest of `serve`, for the admitted controller. -/
def loopStep (sv : Server) (e : ServerEnv) (c : Controller) : Option Server :=
  match sv.pc with
  | .welcome =>
      some { sv with
        sent := sv.sent ++ [.welcome c.mode version c.id 1 sv.target.config]
        pc := .head }
  | .head =>
      some <| if sv.stop then sv.quit true
        else { sv.on (.tick e.now) with pc := if sv.closing then .poll else .receive 0 }
  | .receive n =>
      if n < 32 then
        match sv.inbox with
        | [] => some { sv with pc := .poll }
        | m :: inbox => some (({ sv with inbox } : Server).handle e c n m)
      else some { sv with pc := .poll }
  | .poll =>
      match (sv.target.call (.poll c)).2 with
      | .status (some status) =>
          some { sv.on (.poll c) with
            closing := sv.closing || status.isClosed
            sent := sv.sent ++ [.reply status]
            pc := .poll }
      | _ => some { sv.on (.poll c) with pc := .flush }
  | .flush => some (sv.flush e)
  | _ => none

/-- One step of the worker. -/
def serveStep (sv : Server) (e : ServerEnv) : Option Server :=
  if sv.pc = .hello then some (sv.helloStep e)
  else match sv.controller with
    | some c => sv.loopStep e c
    | none => none

/-- **One step of a served target.** -/
def step (sv : Server) : ServerLabel → Option Server
  | .client m => some { sv with inbox := sv.inbox ++ [m] }
  | .serve e => sv.serveStep e
  | .target l =>
      if l.caller = none ∨ l.caller ≠ sv.controller.map (·.id) then some (sv.on l) else none
  | .stop => some { sv with stop := true }
  | .lost =>
      match sv.pc with
      | .returned _ | .head => none
      | _ => some (sv.quit false)

/-- A target that has just been made, and a worker for it. -/
def Starts (config : Config) (sv : Server) : Prop :=
  ∃ s₀, State.new config = .ok s₀ ∧ sv = { target := s₀ }

/-- The replies that have been queued for the client. -/
def replies (sv : Server) : List Status := sv.sent.filterMap Sent.status

/-- The message that the worker handles next. -/
def handles (sv : Server) (m : Message) : Prop :=
  ∃ n inbox, sv.pc = .receive n ∧ n < 32 ∧ sv.inbox = m :: inbox

/-- **What the theorem is about**: the stream stays open, the wire has room, the server is
not dropped, and the client sends what a client sends. -/
def Open (sv : Server) : ServerLabel → Prop
  | .serve _ => ∀ m, sv.handles m → m.wellFormed = true
  | .stop => False
  | .lost => False
  | _ => True

/-- **The steps that spare the three defects**: no `Reset` is handled for a controller
that has ended, no cleanup fails while works are queued, and the mailbox of the served
controller does not overflow. -/
structure Spared (sv : Server) (l : ServerLabel) : Prop where
  reset : ∀ e c, l = .serve e → sv.controller = some c → sv.handles .reset →
    ∃ a, sv.target.active = some a ∧ a.id = c.id
  failsEmpty : ∀ k, l = .target k → sv.target.FailsEmpty k
  fits : ∀ sv' c, sv.step l = some sv' → sv'.controller = some c →
    sv'.target.overflowed c.id = false

/-! ### The account of the worker -/

/-- **How the worker accounts for its controller**: what it has sent is what it has polled
and what it has refused itself, and what it has received has been accepted or refused. -/
structure Account (sv : Server) (c : Controller) : Prop where
  fits : sv.target.overflowed c.id = false
  refused : ∃ refused : List UInt64,
    (sequences sv.replies).Perm (sequences (polled c.id sv.calls) ++ refused) ∧
    supersessions sv.replies = supersessions (polled c.id sv.calls) ∧
    sv.received.Perm ((accepted c.id sv.calls).map (·.sequence) ++ refused)
  unclosed : sv.closing = false → (∀ st ∈ sv.replies, st.isClosed = false) ∧
    ∀ st ∈ polled c.id sv.calls, st.isClosed = false
  closed : sv.closing = true → ∃ pre before reason clean,
    sv.replies = pre ++ [.closed reason clean] ∧ (∀ st ∈ pre, st.isClosed = false) ∧
    polled c.id sv.calls = before ++ [.closed reason clean]
  receiving : ∀ n, sv.pc = .receive n → sv.closing = false
  returned : ∀ ok, sv.pc = .returned ok → sv.closing = true

/-- **The invariant of a served target.** -/
structure Serving (config : Config) (sv : Server) : Prop where
  run : Run config State.FailsEmpty sv.calls sv.target
  stop : sv.stop = false
  hello : sv.pc = .hello → sv.controller = none
  waiting : sv.controller = none → sv.sent = [] ∧ sv.received = [] ∧ sv.closing = false ∨
    ∃ ok, sv.pc = .returned ok
  account : ∀ c, sv.controller = some c → sv.Account c

variable {config : Config} {sv sv' : Server} {c : Controller}

/-- A step that neither polls nor submits for the controller, nor sends a reply. -/
lemma Account.of_same (h : sv.Account c) (hfits : sv'.target.overflowed c.id = false)
    (hreplies : sv'.replies = sv.replies) (hreceived : sv'.received = sv.received)
    (hclosing : sv'.closing = sv.closing)
    (hpolled : polled c.id sv'.calls = polled c.id sv.calls)
    (haccepted : accepted c.id sv'.calls = accepted c.id sv.calls)
    (hreceive : ∀ n, sv'.pc = .receive n → sv.closing = false)
    (hreturned : ∀ ok, sv'.pc = .returned ok → sv.closing = true) : sv'.Account c := by
  refine ⟨hfits, ?_, ?_, ?_, ?_, ?_⟩
  · rw [hreplies, hpolled, haccepted, hreceived]
    exact h.refused
  · rw [hreplies, hpolled, hclosing]
    exact h.unclosed
  · rw [hreplies, hpolled, hclosing]
    exact h.closed
  · rw [hclosing]
    exact hreceive
  · rw [hclosing]
    exact hreturned

/-- The call is no poll and no submission of the controller. -/
lemma quiet_of_caller {l : Call} {r : Reply} (tr : Trace) (h : l.caller ≠ some c.id ∨
    (∀ p, l ≠ .poll p) ∧ ∀ p now epoch sequence event, l ≠ .submit p now epoch sequence event) :
    polled c.id (tr ++ [(l, r)]) = polled c.id tr ∧
      accepted c.id (tr ++ [(l, r)]) = accepted c.id tr := by
  constructor
  · refine polled_of_none ?_
    cases l with
    | poll p =>
        rcases h with h | h
        · have hne : p.id ≠ c.id := fun h0 => h (by rw [Call.caller, h0])
          cases r with
          | status st => exact if_neg hne
          | _ => rfl
        · exact absurd rfl (h.1 p)
    | _ => rfl
  · cases l with
    | submit p now epoch sequence event =>
        rcases h with h | h
        · have hne : p.id ≠ c.id := fun h0 => h (by rw [Call.caller, h0])
          cases r with
          | done => rw [accepted_submit, if_neg hne, List.append_nil]
          | _ => exact accepted_of_none rfl
        · exact absurd rfl (h.2 p now epoch sequence event)
    | _ => exact accepted_of_none rfl

lemma run_on (h : Run config State.FailsEmpty sv.calls sv.target) {l : Call}
    (hl : sv.target.FailsEmpty l) : Run config State.FailsEmpty (sv.on l).calls (sv.on l).target :=
  h.snoc l hl

lemma perm_append_middle {xs ys zs : List UInt64} (h : xs.Perm (ys ++ zs)) (qs : List UInt64) :
    (xs ++ qs).Perm (ys ++ qs ++ zs) := by
  have hcomm : (ys ++ zs ++ qs).Perm (ys ++ qs ++ zs) := by
    rw [List.append_assoc, List.append_assoc]
    exact List.perm_append_comm.append_left ys
  exact (h.append_right qs).trans hcomm

/-- A call of the worker that is neither a submission nor a poll. -/
lemma Account.of_on (h : sv.Account c) {l : Call} (hpoll : ∀ p, l ≠ .poll p)
    (hsubmit : ∀ p now epoch sequence event, l ≠ .submit p now epoch sequence event)
    (hsv : sv' = { sv.on l with inbox := sv'.inbox, pc := sv'.pc })
    (hfits : sv'.target.overflowed c.id = false)
    (hreceive : ∀ n, sv'.pc = .receive n → sv.closing = false)
    (hreturned : ∀ ok, sv'.pc = .returned ok → sv.closing = true) : sv'.Account c := by
  obtain ⟨hpolled, haccepted⟩ := quiet_of_caller (c := c) (r := (sv.target.call l).2)
    sv.calls (Or.inr ⟨hpoll, hsubmit⟩)
  refine h.of_same hfits ?_ ?_ ?_ ?_ ?_ hreceive hreturned
  · rw [hsv]
    rfl
  · rw [hsv]
    rfl
  · rw [hsv]
    rfl
  · rw [hsv]
    exact hpolled
  · rw [hsv]
    exact haccepted

lemma Account.of_submit (h : sv.Account c) (e : ServerEnv) (n : ℕ) (epoch sequence : UInt64)
    (event : Event) (inbox : List Message) (hclosing : sv.closing = false)
    (hfits : (({ sv with inbox } : Server).handle e c n
      (.submit epoch sequence event)).target.overflowed c.id = false) :
    (({ sv with inbox } : Server).handle e c n (.submit epoch sequence event)).Account c := by
  obtain ⟨R, hseqs, hsups, hreceived⟩ := h.refused
  obtain ⟨hopen, hpolls⟩ := h.unclosed hclosing
  have hpolled : polled c.id (sv.calls ++ [(Call.submit c e.now epoch sequence event,
      (sv.target.call (.submit c e.now epoch sequence event)).2)]) = polled c.id sv.calls :=
    polled_of_none rfl
  have hreply : (sv.target.call (.submit c e.now epoch sequence event)).2 = .done ∨
      ∃ error, (sv.target.call (.submit c e.now epoch sequence event)).2 = .error error := by
    rw [State.call]
    cases (sv.target.submit c e.now epoch sequence event).2 with
    | ok u => exact Or.inl rfl
    | error error => exact Or.inr ⟨error, rfl⟩
  have hreceiving : ∀ m, (({ sv with inbox } : Server).handle e c n
      (.submit epoch sequence event)).pc = .receive m → sv.closing = false := fun _ _ => hclosing
  have hreturned : ∀ ok, (({ sv with inbox } : Server).handle e c n
      (.submit epoch sequence event)).pc = .returned ok → sv.closing = true :=
    (by rintro ok ⟨⟩)
  rcases hreply with hreply | ⟨error, hreply⟩
  · have hsent : (({ sv with inbox } : Server).handle e c n (.submit epoch sequence event)).replies =
        sv.replies := by
      simp only [replies, handle, hreply]
    have haccepted : accepted c.id (sv.calls ++ [(Call.submit c e.now epoch sequence event,
        (sv.target.call (.submit c e.now epoch sequence event)).2)]) =
        accepted c.id sv.calls ++ [⟨c.id, epoch, sequence, event⟩] := by
      rw [hreply, accepted_submit, if_pos rfl]
    refine ⟨hfits, ⟨R, ?_, ?_, ?_⟩, fun _ => ?_, fun h0 => ?_, hreceiving, hreturned⟩
    · rw [hsent]
      exact hpolled.symm ▸ hseqs
    · rw [hsent]
      exact hpolled.symm ▸ hsups
    · show (sv.received ++ [sequence]).Perm ((accepted c.id (sv.calls ++
        [(Call.submit c e.now epoch sequence event, _)])).map (·.sequence) ++ R)
      rw [haccepted, List.map_append]
      exact perm_append_middle hreceived [sequence]
    · rw [hsent]
      exact ⟨hopen, hpolled.symm ▸ hpolls⟩
    · cases hclosing.symm.trans h0
  · have hsent : (({ sv with inbox } : Server).handle e c n (.submit epoch sequence event)).replies =
        sv.replies ++ [.rejected sequence error] := by
      simp only [replies, handle, hreply, List.filterMap_append]
      rfl
    have haccepted : accepted c.id (sv.calls ++ [(Call.submit c e.now epoch sequence event,
        (sv.target.call (.submit c e.now epoch sequence event)).2)]) = accepted c.id sv.calls := by
      rw [hreply]
      exact accepted_of_none rfl
    refine ⟨hfits, ⟨R ++ [sequence], ?_, ?_, ?_⟩, fun _ => ⟨?_, ?_⟩, fun h0 => ?_, hreceiving,
      hreturned⟩
    · rw [hsent, sequences_append, ← List.append_assoc]
      exact (hpolled.symm ▸ hseqs).append_right _
    · rw [hsent, supersessions_append]
      exact hpolled.symm ▸ hsups
    · show (sv.received ++ [sequence]).Perm ((accepted c.id (sv.calls ++
        [(Call.submit c e.now epoch sequence event, _)])).map (·.sequence) ++ (R ++ [sequence]))
      rw [haccepted, ← List.append_assoc]
      exact hreceived.append_right _
    · rw [hsent]
      intro st hst
      rcases List.mem_append.mp hst with hst | hst
      · exact hopen st hst
      · rw [List.mem_singleton.mp hst]
        rfl
    · exact hpolled.symm ▸ hpolls
    · cases hclosing.symm.trans h0

/-- **A status is moved from the mailbox to the wire.** Nothing follows `Closed`. -/
lemma Account.of_polled (h : sv.Account c) (hrun : Run config State.FailsEmpty sv.calls sv.target)
    {status : Status} (hreply : (sv.target.call (.poll c)).2 = .status (some status))
    (hsv : sv' = { sv.on (.poll c) with
      closing := sv.closing || status.isClosed
      sent := sv.sent ++ [.reply status]
      pc := .poll })
    (hfits : sv'.target.overflowed c.id = false) : sv'.Account c := by
  have hcalls : sv'.calls = sv.calls ++ [(Call.poll c, Reply.status (some status))] := by
    rw [hsv]
    show sv.calls ++ _ = _
    rw [hreply]
  have hpolled : polled c.id sv'.calls = polled c.id sv.calls ++ [status] := by
    rw [hcalls, polled_snoc, yielded, if_pos rfl]
    rfl
  have haccepted : accepted c.id sv'.calls = accepted c.id sv.calls := by
    rw [hcalls]
    exact accepted_of_none rfl
  have hsent : sv'.replies = sv.replies ++ [status] := by
    rw [hsv, replies, replies, List.filterMap_append]
    rfl
  have hpc' : sv'.pc = .poll := by rw [hsv]
  have hrun' : Run config Traces.Always sv'.calls sv'.target := by
    rw [hsv]
    exact (run_on hrun (failsEmpty_of_call (l := .poll c) (by rintro _ _ ⟨⟩))).always
  obtain ⟨R, hseqs, hsups, hreceived⟩ := h.refused
  have hclosing : sv.closing = false := by
    by_contra h0
    obtain ⟨pre, before, reason, clean, -, -, heq⟩ := h.closed (by simpa using h0)
    have hend : polled c.id sv'.calls = before ++ .closed reason clean :: [status] := by
      rw [hpolled, heq]
      simp
    cases ((hrun'.closing hfits).polled_end hend rfl).1
  have hclosing' : sv'.closing = status.isClosed := by rw [hsv, hclosing]; rfl
  obtain ⟨hopen, hpolls⟩ := h.unclosed hclosing
  refine ⟨hfits, ⟨R, ?_, ?_, ?_⟩, fun h0 => ⟨?_, ?_⟩, fun h0 => ?_, fun n h0 => ?_, fun ok h0 => ?_⟩
  · rw [hsent, hpolled, sequences_append, sequences_append]
    exact perm_append_middle hseqs _
  · rw [hsent, hpolled, supersessions_append, supersessions_append, hsups]
  · rw [haccepted, hsv]
    exact hreceived
  · rw [hsent]
    intro st hst
    rcases List.mem_append.mp hst with hst | hst
    · exact hopen st hst
    · rw [List.mem_singleton.mp hst, ← hclosing']
      exact h0
  · rw [hpolled]
    intro st hst
    rcases List.mem_append.mp hst with hst | hst
    · exact hpolls st hst
    · rw [List.mem_singleton.mp hst, ← hclosing']
      exact h0
  · rw [hclosing'] at h0
    cases status with
    | closed reason clean =>
        exact ⟨sv.replies, polled c.id sv.calls, reason, clean, hsent, hopen, hpolled⟩
    | _ => cases h0
  · rw [hpc'] at h0
    cases h0
  · rw [hpc'] at h0
    cases h0

/-- The worker returns, behind `Closed`. -/
lemma Serving.quit (h : Serving config sv) (hc : sv.controller = some c)
    (hclosing : sv.closing = true) {ok : Bool}
    (hfits : (sv.quit ok).target.overflowed c.id = false) : Serving config (sv.quit ok) := by
  have hquit : sv.quit ok = { sv.on (.drop c) with pc := .returned ok } := by
    rw [Server.quit, hc]
  rw [hquit] at hfits ⊢
  refine ⟨run_on h.run (failsEmpty_of_call (l := .drop c) fun _ _ h0 => (nomatch h0)), h.stop,
    fun h0 => (nomatch h0), fun _ => Or.inr ⟨ok, rfl⟩, fun d hd => ?_⟩
  have hd : sv.controller = some d := hd
  rw [hc, Option.some.injEq] at hd
  subst hd
  exact (h.account c hc).of_on (l := .drop c) (fun _ h0 => (nomatch h0))
    (fun _ _ _ _ _ h0 => (nomatch h0)) rfl hfits (fun _ h0 => (nomatch h0)) fun _ _ => hclosing

/-- A call of the worker for its controller, with which the round goes on. -/
lemma Serving.of_on (h : Serving config sv) (hc : sv.controller = some c) {l : Call}
    (hcomplete : ∀ id outcome, l ≠ .complete id outcome) (hpoll : ∀ p, l ≠ .poll p)
    (hsubmit : ∀ p now epoch sequence event, l ≠ .submit p now epoch sequence event)
    (hsv : sv' = { sv.on l with inbox := sv'.inbox, pc := sv'.pc })
    (hfits : sv'.target.overflowed c.id = false)
    (hreceive : ∀ n, sv'.pc = .receive n → sv.closing = false) (hhello : sv'.pc ≠ .hello)
    (hreturned : ∀ ok, sv'.pc ≠ .returned ok) : Serving config sv' := by
  refine ⟨?_, ?_, fun h0 => absurd h0 hhello, fun h0 => ?_, fun d hd => ?_⟩
  · rw [hsv]
    exact run_on h.run (failsEmpty_of_call hcomplete)
  · rw [hsv]
    exact h.stop
  · rw [hsv] at h0
    cases hc.symm.trans h0
  · rw [hsv] at hd
    cases hc.symm.trans hd
    exact (h.account c hc).of_on hpoll hsubmit hsv hfits hreceive fun ok h0 => absurd h0 (hreturned ok)

/-- **The worker handles a message.** -/
lemma Serving.handle (h : Serving config sv) (hc : sv.controller = some c) {e : ServerEnv} {n : ℕ}
    {m : Message} {inbox : List Message} (hclosing : sv.closing = false) (hm : m.wellFormed = true)
    (hreset : m = .reset → ∃ a, sv.target.active = some a ∧ a.id = c.id)
    (hfits : (({ sv with inbox } : Server).handle e c n m).target.overflowed c.id = false) :
    Serving config (({ sv with inbox } : Server).handle e c n m) := by
  cases m with
  | submit epoch sequence event =>
      refine ⟨?_, h.stop, by rintro ⟨⟩, fun h0 => ?_, fun d hd => ?_⟩
      · exact run_on h.run (failsEmpty_of_call (l := .submit c e.now epoch sequence event)
          (by rintro _ _ ⟨⟩))
      · cases hc.symm.trans h0
      · cases hc.symm.trans hd
        exact (h.account c hc).of_submit e n epoch sequence event inbox hclosing hfits
  | heartbeat =>
      exact h.of_on hc (l := .heartbeat c e.now) (by rintro _ _ ⟨⟩)
        (by rintro _ ⟨⟩) (by rintro _ _ _ _ _ ⟨⟩) rfl hfits
        (fun _ _ => hclosing) (by rintro ⟨⟩) (by rintro _ ⟨⟩)
  | reset =>
      obtain ⟨a, ha, hid⟩ := hreset rfl
      have hreply : (sv.target.call (.reset c)).2 = .done := by
        simp [State.call, State.reset, ha, hid, Reply.ofExcept]
      have hsv : ({ sv with inbox } : Server).handle e c n .reset =
          { ({ sv with inbox } : Server).on (.reset c) with pc := .receive (n + 1) } := by
        simp only [Server.handle, hreply]
      rw [hsv] at hfits ⊢
      exact h.of_on hc (l := .reset c) (by rintro _ _ ⟨⟩)
        (by rintro _ ⟨⟩) (by rintro _ _ _ _ _ ⟨⟩) rfl hfits
        (fun _ _ => hclosing) (by rintro ⟨⟩) (by rintro _ ⟨⟩)
  | close =>
      exact h.of_on hc (l := .close c) (by rintro _ _ ⟨⟩)
        (by rintro _ ⟨⟩) (by rintro _ _ _ _ _ ⟨⟩) rfl hfits
        (fun _ _ => hclosing) (by rintro ⟨⟩) (by rintro _ ⟨⟩)
  | hello v mode => cases hm
  | foreign => cases hm

/-- The worker moves on without a call. -/
lemma Serving.of_pc (h : Serving config sv) (hc : sv.controller = some c)
    (hsv : sv' = { sv with sent := sv'.sent, pc := sv'.pc }) (hreplies : sv'.replies = sv.replies)
    (hreceive : ∀ n, sv'.pc ≠ .receive n) (hhello : sv'.pc ≠ .hello)
    (hreturned : ∀ ok, sv'.pc ≠ .returned ok) : Serving config sv' := by
  refine ⟨?_, ?_, fun h0 => absurd h0 hhello, fun h0 => ?_, fun d hd => ?_⟩
  · rw [hsv]
    exact h.run
  · rw [hsv]
    exact h.stop
  · rw [hsv] at h0
    cases hc.symm.trans h0
  · rw [hsv] at hd
    cases hc.symm.trans hd
    have haccount := h.account c hc
    refine haccount.of_same ?_ hreplies ?_ ?_ ?_ ?_ (fun n h0 => absurd h0 (hreceive n))
      fun ok h0 => absurd h0 (hreturned ok)
    · rw [hsv]
      exact haccount.fits
    · rw [hsv]
    · rw [hsv]
    · rw [hsv]
    · rw [hsv]

/-- A worker that has no controller returns. -/
lemma Serving.quit_waiting (h : Serving config sv) (hc : sv.controller = none) (ok : Bool)
    (inbox : List Message) : Serving config (({ sv with inbox } : Server).quit ok) := by
  have hquit : ({ sv with inbox } : Server).quit ok = { sv with inbox, pc := .returned ok } := by
    simp only [Server.quit, hc]
  rw [hquit]
  refine ⟨h.run, h.stop, fun h0 => (nomatch h0), fun _ => Or.inr ⟨ok, rfl⟩, fun d hd => ?_⟩
  cases hc.symm.trans hd

/-- What `admit` returns: an error, or a controller with a new number. -/
lemma admit_cases (s : State) (mode : Mode) (now : ℕ) :
    (∃ error, (s.call (.admitController mode now)).2 = .error error) ∨
    ∃ c, (s.call (.admitController mode now)).2 = .admitted c ∧ s.nextController < c.id := by
  simp only [State.call, State.admitController]
  split_ifs with h1 h2 h3 h4
  · exact Or.inl ⟨_, rfl⟩
  · exact Or.inl ⟨_, rfl⟩
  · exact Or.inl ⟨_, rfl⟩
  · refine Or.inr ⟨_, rfl, UInt64.lt_iff_toNat_lt.mpr ?_⟩
    have hone : (1 : UInt64).toNat = 1 := rfl
    rw [UInt64.toNat_add, hone, Nat.mod_eq_of_lt h4]
    omega
  · exact Or.inl ⟨_, rfl⟩

/-- **The client says hello.** -/
lemma Serving.helloStep (h : Serving config sv) (hpc : sv.pc = .hello) (e : ServerEnv)
    (hfits : ∀ c, (sv.helloStep e).controller = some c →
      (sv.helloStep e).target.overflowed c.id = false) : Serving config (sv.helloStep e) := by
  have hc := h.hello hpc
  rw [Server.helloStep] at hfits ⊢
  by_cases hlate : (sv.stop || e.late) = true
  · rw [if_pos hlate]
    exact h.quit_waiting hc true sv.inbox
  rw [if_neg hlate] at hfits ⊢
  cases hinbox : sv.inbox with
  | nil => exact h
  | cons m inbox =>
      rw [hinbox] at hfits
      cases m with
      | hello v mode =>
          dsimp only at hfits ⊢
          by_cases hv : v = version
          swap
          · rw [if_neg hv]
            exact h.quit_waiting hc false inbox
          rw [if_pos hv] at hfits ⊢
          have hrun := run_on h.run
            (failsEmpty_of_call (l := .admitController mode e.now) fun _ _ h0 => (nomatch h0))
          rcases admit_cases sv.target mode e.now with ⟨error, hreply⟩ | ⟨c, hreply, hlt⟩
          · rw [hreply]
            refine ⟨hrun, h.stop, fun h0 => (nomatch h0), fun _ => Or.inr ⟨true, rfl⟩, fun d hd => ?_⟩
            cases hc.symm.trans hd
          · rw [hreply] at hfits ⊢
            refine ⟨hrun, h.stop, fun h0 => (nomatch h0), fun h0 => (nomatch h0), fun d hd => ?_⟩
            cases hd
            obtain ⟨hsent, hreceived, hclosing⟩ := (h.waiting hc).resolve_right (by simp [hpc])
            obtain ⟨haccepted, hpolled⟩ := h.run.books.fresh c.id hlt
            have hnone : polled c.id (sv.calls ++ [(Call.admitController mode e.now,
                (sv.target.call (.admitController mode e.now)).2)]) = [] :=
              (polled_of_none rfl).trans hpolled
            have hnone' : accepted c.id (sv.calls ++ [(Call.admitController mode e.now,
                (sv.target.call (.admitController mode e.now)).2)]) = [] :=
              (accepted_of_none rfl).trans haccepted
            refine ⟨hfits c rfl, ⟨[], ?_, ?_, ?_⟩, fun _ => ⟨?_, ?_⟩, fun h0 => ?_,
              fun _ h0 => (nomatch h0), fun _ h0 => (nomatch h0)⟩
            · simp [replies, on, hsent, hnone, sequences]
            · simp [replies, on, hsent, hnone, supersessions]
            · simp [on, hreceived, hnone']
            · simp [replies, on, hsent]
            · simp [on, hnone]
            · cases hclosing.symm.trans h0
      | _ => exact h.quit_waiting hc false inbox

/-- **A round ends.** -/
lemma Serving.flush (h : Serving config sv) (hc : sv.controller = some c) (e : ServerEnv)
    (hfits : (sv.flush e).target.overflowed c.id = false) : Serving config (sv.flush e) := by
  rw [Server.flush] at hfits ⊢
  by_cases hclosing : sv.closing = true
  · rw [if_pos hclosing] at hfits ⊢
    by_cases hidle : e.idle = true
    · rw [if_pos hidle] at hfits ⊢
      exact h.quit hc hclosing hfits
    · rw [if_neg hidle]
      exact h.of_pc hc rfl rfl (fun _ h0 => (nomatch h0)) (fun h0 => (nomatch h0))
        fun _ h0 => (nomatch h0)
  · rw [if_neg hclosing]
    refine h.of_pc hc rfl ?_ (fun _ h0 => (nomatch h0)) (fun h0 => (nomatch h0))
      fun _ h0 => (nomatch h0)
    by_cases hdue : e.due = true
    · rw [if_pos hdue, replies, List.filterMap_append]
      exact List.append_nil _
    · rw [if_neg hdue]
      rfl

/-- One step of the loop. -/
lemma Serving.loopStep (h : Serving config sv) (hc : sv.controller = some c) {e : ServerEnv}
    (hopen : ∀ m, sv.handles m → m.wellFormed = true)
    (hreset : sv.handles .reset → ∃ a, sv.target.active = some a ∧ a.id = c.id)
    (hs : sv.loopStep e c = some sv')
    (hfits : ∀ c, sv'.controller = some c → sv'.target.overflowed c.id = false) :
    Serving config sv' := by
  rw [Server.loopStep] at hs
  cases hpc : sv.pc with
  | hello =>
      rw [hpc] at hs
      cases hs
  | returned ok =>
      rw [hpc] at hs
      cases hs
  | welcome =>
      rw [hpc] at hs
      cases hs
      refine h.of_pc hc rfl ?_ (by rintro _ ⟨⟩) (by rintro ⟨⟩)
        (by rintro _ ⟨⟩)
      rw [replies, replies, List.filterMap_append]
      exact List.append_nil _
  | head =>
      rw [hpc] at hs
      dsimp only at hs
      rw [if_neg (by rw [h.stop]; exact Bool.false_ne_true), Option.some.injEq] at hs
      subst hs
      refine h.of_on hc (l := .tick e.now) (by rintro _ _ ⟨⟩)
        (by rintro _ ⟨⟩) (by rintro _ _ _ _ _ ⟨⟩) rfl (hfits c hc)
        (fun n h0 => ?_) (fun h0 => ?_) fun ok h0 => ?_
      · cases hclosing : sv.closing with
        | false => rfl
        | true => simp [hclosing] at h0
      · split_ifs at h0
      · split_ifs at h0
  | receive n =>
      have hpoll : Serving config { sv with pc := .poll } :=
        h.of_pc hc rfl rfl (by rintro _ ⟨⟩) (by rintro ⟨⟩)
          (by rintro _ ⟨⟩)
      rw [hpc] at hs
      dsimp only at hs
      by_cases hn : n < 32
      swap
      · rw [if_neg hn, Option.some.injEq] at hs
        exact hs ▸ hpoll
      rw [if_pos hn] at hs
      cases hinbox : sv.inbox with
      | nil =>
          rw [hinbox] at hs
          dsimp only at hs
          rw [Option.some.injEq, ← hinbox] at hs
          exact hs ▸ hpoll
      | cons m inbox =>
          rw [hinbox] at hs
          have hhandles : sv.handles m := ⟨n, inbox, hpc, hn, hinbox⟩
          have hm := hopen m hhandles
          rw [Option.some.injEq] at hs
          have hc' : sv'.controller = some c := by
            subst hs
            cases m with
            | reset =>
                simp only [Server.handle]
                split
                · simp [Server.quit, on, hc]
                · exact hc
            | hello v mode => cases hm
            | foreign => cases hm
            | _ => exact hc
          subst hs
          exact h.handle hc ((h.account c hc).receiving n hpc) hm (fun h0 => hreset (h0 ▸ hhandles))
            (hfits c hc')
  | poll =>
      rw [hpc] at hs
      dsimp only at hs
      have hrun := run_on h.run (failsEmpty_of_call (l := .poll c) (by rintro _ _ ⟨⟩))
      cases hst : (sv.target.mailboxes c.id).head? with
      | none =>
          have hreply : (sv.target.call (.poll c)).2 = .status none := by
            rw [← hst]
            rfl
          rw [hreply, Option.some.injEq] at hs
          subst hs
          have hcalls : polled c.id (sv.calls ++ [(Call.poll c, (sv.target.call (.poll c)).2)]) =
              polled c.id sv.calls := by
            rw [hreply, polled_snoc, yielded, if_pos rfl]
            exact List.append_nil _
          refine ⟨hrun, h.stop, by rintro ⟨⟩, fun h0 => ?_, fun d hd => ?_⟩
          · cases hc.symm.trans h0
          · cases hc.symm.trans hd
            exact (h.account c hc).of_same (hfits c hc) rfl rfl rfl hcalls
              (accepted_of_none rfl) (by rintro _ ⟨⟩) (by rintro _ ⟨⟩)
      | some status =>
          have hreply : (sv.target.call (.poll c)).2 = .status (some status) := by
            rw [← hst]
            rfl
          rw [hreply, Option.some.injEq] at hs
          subst hs
          refine ⟨hrun, h.stop, by rintro ⟨⟩, fun h0 => ?_, fun d hd => ?_⟩
          · cases hc.symm.trans h0
          · cases hc.symm.trans hd
            exact (h.account c hc).of_polled h.run hreply rfl (hfits c hc)
  | flush =>
      rw [hpc] at hs
      cases hs
      refine h.flush hc e (hfits c ?_)
      rw [Server.flush]
      split_ifs
      · rw [Server.quit, hc]
        exact hc
      · exact hc
      · exact hc
      · exact hc

/-- One step of the worker. -/
lemma Serving.serveStep (h : Serving config sv) {e : ServerEnv} (hopen : sv.Open (.serve e))
    (hspared : sv.Spared (.serve e)) (hs : sv.serveStep e = some sv') : Serving config sv' := by
  have hfits : ∀ c, sv'.controller = some c → sv'.target.overflowed c.id = false :=
    fun c hc => hspared.fits sv' c hs hc
  rw [Server.serveStep] at hs
  split_ifs at hs with hpc
  · cases hs
    exact h.helloStep hpc e hfits
  · generalize hc : sv.controller = controller at hs
    cases controller with
    | none => cases hs
    | some c =>
        exact h.loopStep hc hopen (fun hh => hspared.reset e c rfl hc hh) hs hfits

/-- **Every step that spares the defects keeps the account.** -/
theorem Serving.step (h : Serving config sv) {l : ServerLabel} (hopen : sv.Open l)
    (hspared : sv.Spared l) (hs : sv.step l = some sv') : Serving config sv' := by
  cases l with
  | client m =>
      cases hs
      refine ⟨h.run, h.stop, h.hello, h.waiting, fun c hc => ?_⟩
      have haccount := h.account c hc
      exact haccount.of_same haccount.fits rfl rfl rfl rfl rfl haccount.receiving haccount.returned
  | serve e => exact h.serveStep hopen hspared hs
  | target k =>
      have hs' := hs
      rw [Server.step] at hs
      split_ifs at hs with hcaller
      cases hs
      refine ⟨run_on h.run (hspared.failsEmpty k rfl), h.stop, h.hello, h.waiting, fun c hc => ?_⟩
      have hc : sv.controller = some c := hc
      have haccount := h.account c hc
      have hne : k.caller ≠ some c.id := by
        rcases hcaller with hnone | hne
        · rw [hnone]
          exact fun h0 => (nomatch h0)
        · rw [hc] at hne
          exact hne
      obtain ⟨hpolled, haccepted⟩ := quiet_of_caller (c := c)
        (r := (sv.target.call k).2) sv.calls (Or.inl hne)
      exact haccount.of_same (hspared.fits _ c hs' hc) rfl rfl rfl hpolled haccepted
        haccount.receiving haccount.returned
  | stop => exact hopen.elim
  | lost => exact hopen.elim

end Server

open Server in
/-- **A served controller's end reaches its client.** In every run of a worker whose stream
stays open and that spares the three defects:

* it has returned only behind the `Closed` of its controller;
* nothing is sent behind `Closed`, and the worker has stopped receiving;
* before it every `Submit` that was received has been answered once: by a `Completed` or
  `Rejected` with its own number, or by one unit of a `Coalesced`. -/
theorem served_end {config : Config} {sv₀ sv : Server} (h₀ : sv₀.Starts config)
    (h : Reaches Server.step (fun sv l => sv.Open l ∧ sv.Spared l) sv₀ sv) {c : Controller}
    (hc : sv.controller = some c) :
    (∀ ok, sv.pc = .returned ok → ∃ st ∈ sv.replies, st.isClosed = true) ∧
    ∀ pre st post, sv.replies = pre ++ st :: post → st.isClosed = true → post = [] ∧
      (∀ n, sv.pc ≠ .receive n) ∧ settled pre = sv.received.length ∧
      List.Subperm (sequences pre) sv.received := by
  have hserving : Serving config sv := by
    refine h.invariant (P := Serving config) ?_ fun a l b hp hl hs => hp.step hl.1 hl.2 hs
    obtain ⟨s₀, hnew, rfl⟩ := h₀
    exact ⟨⟨s₀, hnew, .nil⟩, rfl, fun _ => rfl, fun _ => Or.inl ⟨rfl, rfl, rfl⟩,
      fun c hc => (nomatch hc)⟩
  have haccount := hserving.account c hc
  refine ⟨fun ok hpc => ?_, fun pre st post heq hst => ?_⟩
  · obtain ⟨pre, before, reason, clean, heq, -⟩ := haccount.closed (haccount.returned ok hpc)
    exact ⟨_, by rw [heq]; exact List.mem_append_right _ List.mem_cons_self, rfl⟩
  have hclosing : sv.closing = true := by
    by_contra h0
    have hopen := (haccount.unclosed (by simpa using h0)).1 st
      (by rw [heq]; exact List.mem_append_right _ List.mem_cons_self)
    rw [hopen] at hst
    cases hst
  obtain ⟨pre', before, reason, clean, heq', hpre', hpolled⟩ := haccount.closed hclosing
  have hlast : pre = pre' ∧ st :: post = [.closed reason clean] := by
    rw [heq'] at heq
    rcases List.eq_nil_or_concat post with rfl | ⟨rest, x, rfl⟩
    · obtain ⟨hpre, hend⟩ := List.append_inj' heq rfl
      exact ⟨hpre.symm, hend.symm⟩
    · have hsplit : pre' ++ [.closed reason clean] = (pre ++ st :: rest) ++ [x] := by
        rw [heq]
        simp
      obtain ⟨rfl, -⟩ := List.append_inj' hsplit rfl
      rw [hpre' st (by simp)] at hst
      cases hst
  obtain ⟨rfl, hend⟩ := hlast
  cases hend
  have hreceive : ∀ n, sv.pc ≠ .receive n := by
    intro n hpc
    cases (haccount.receiving n hpc).symm.trans hclosing
  -- nothing is left in the mailbox, so what was accepted has been settled by what was polled
  have hbox := ((hserving.run.always.closing haccount.fits).polled_end hpolled rfl).2
  have hposted : posted c.id sv.calls sv.target = polled c.id sv.calls := by
    rw [posted, hbox, List.append_nil]
  have hbooks := hserving.run.books.settled c.id haccount.fits
  have hmem : .closed reason clean ∈ posted c.id sv.calls sv.target := by
    rw [hposted, hpolled]
    exact List.mem_append_right _ List.mem_cons_self
  have hcount := hbooks.settled_of_closed hmem
  rw [hposted] at hcount
  obtain ⟨R, hseqs, hsups, hreceived⟩ := haccount.refused
  have hpre : sequences sv.replies = sequences pre ∧ settled sv.replies = settled pre := by
    rw [heq']
    simp [sequences, settled, Status.sequence, Status.settles]
  refine ⟨rfl, hreceive, ?_, ?_⟩
  · have hlen := hseqs.length_eq
    have hlen' := hreceived.length_eq
    rw [List.length_append] at hlen
    rw [List.length_append, List.length_map] at hlen'
    rw [settled_eq] at hcount
    have hpres := hpre.2
    rw [settled_eq] at hpres
    omega
  · have hsubperm : List.Subperm (sequences (polled c.id sv.calls))
        ((accepted c.id sv.calls).map (·.sequence)) := by
      have hledger : ledger c.id sv.calls sv.target = sequences (polled c.id sv.calls) ++
          sv.target.entries c.id := rfl
      have hnodup := hbooks.nodup
      have hsubset := hbooks.subset
      rw [hledger] at hnodup hsubset
      exact (List.Nodup.of_append_left hnodup).subperm fun q hq =>
        hsubset q (List.mem_append_left _ hq)
    rw [← hpre.1]
    exact hseqs.subperm.trans (((List.subperm_append_right R).mpr hsubperm).trans
      hreceived.symm.subperm)

/-! ### Two runs -/

namespace Server

/-- The controller of the worker has no mailbox that overflowed. -/
def isDry (sv : Server) : Bool :=
  sv.controller.all fun c => !sv.target.overflowed c.id

/-- The step is one of those that `Open` and `Spared` allow; no `Reset` among them. -/
def spares (sv : Server) (l : ServerLabel) : Bool :=
  ((sv.step l).all isDry) && match l with
    | .client _ => true
    | .serve _ => sv.pc == .hello ||
        sv.inbox.all fun m => m.wellFormed && m != .reset
    | .target (.complete _ outcome) => outcome == .executed
    | .target _ => true
    | _ => false

lemma of_spares {sv : Server} {l : ServerLabel} (h : sv.spares l = true) :
    sv.Open l ∧ sv.Spared l := by
  unfold spares at h
  rw [Bool.and_eq_true] at h
  obtain ⟨hdry, h⟩ := h
  have hfits : ∀ sv' c, sv.step l = some sv' → sv'.controller = some c →
      sv'.target.overflowed c.id = false := by
    intro sv' c hs hc
    rw [hs, Option.all_some, isDry, hc, Option.all_some] at hdry
    simpa using hdry
  cases l with
  | client m => exact ⟨trivial, fun _ _ h0 => (nomatch h0), fun _ h0 => (nomatch h0), hfits⟩
  | serve e =>
      have hhandles : ∀ m, sv.handles m → m.wellFormed = true ∧ m ≠ .reset := by
        rintro m ⟨n, inbox, hpc, -, hinbox⟩
        simp only [hpc, hinbox, List.all_cons, Bool.or_eq_true, Bool.and_eq_true,
          bne_iff_ne] at h
        rcases h with h | h
        · cases beq_iff_eq.mp h
        · exact h.1
      exact ⟨fun m hm => (hhandles m hm).1,
        fun _ _ _ _ hm => absurd rfl (hhandles _ hm).2, fun _ h0 => (nomatch h0), hfits⟩
  | target k =>
      refine ⟨trivial, fun _ _ h0 => (nomatch h0), ?_, hfits⟩
      intro k' hk id outcome f hl _ _ _ hne
      cases hk
      subst hl
      exact absurd (beq_iff_eq.mp h) hne
  | stop => cases h
  | lost => cases h

end Server

/-- A client that submits a text, sees it executed, and closes. -/
def visit : List ServerLabel :=
  [.client (.hello version .cooperative), .serve {}, .serve {}, .serve {},
    .client (.submit 1 1 (.text "a")), .serve {}, .target (.next 0),
    .target (.complete 1 .executed), .client .close, .serve {}, .target (.next 0),
    .target (.complete 2 .executed), .serve {}, .serve {}, .serve {}, .serve {},
    .serve { idle := true }]

open Server in
theorem served_end_visit :
    ∃ sv c, execIn Server.step Server.spares { target := { config := tiny } } visit = some sv ∧
      sv.controller = some c ∧ sv.pc = .returned true ∧
      (∀ ok, sv.pc = .returned ok → ∃ st ∈ sv.replies, st.isClosed = true) ∧
      ∀ pre st post, sv.replies = pre ++ st :: post → st.isClosed = true → post = [] ∧
        (∀ n, sv.pc ≠ .receive n) ∧ settled pre = sv.received.length ∧
        List.Subperm (sequences pre) sv.received := by
  obtain ⟨sv, hsv⟩ : ∃ sv, execIn Server.step Server.spares { target := { config := tiny } } visit =
      some sv := Option.isSome_iff_exists.mp (by decide +kernel)
  have hpc : (execIn Server.step Server.spares { target := { config := tiny } } visit).map
      (fun sv => (sv.pc, sv.controller)) = some (.returned true, some ⟨1, .cooperative⟩) := by
    decide +kernel
  rw [hsv, Option.map_some, Option.some.injEq, Prod.mk.injEq] at hpc
  refine ⟨sv, ⟨1, .cooperative⟩, hsv, hpc.2, hpc.1, ?_⟩
  exact served_end ⟨_, new_tiny, rfl⟩ (Reaches.of_execIn (fun _ _ h => of_spares h) hsv) hpc.2

/-- The step is one of those that `Open` allows. -/
def Server.opens (sv : Server) : ServerLabel → Bool
  | .client _ => true
  | .serve _ => sv.pc == .hello || sv.inbox.all Message.wellFormed
  | .target _ => true
  | _ => false

lemma Server.of_opens {sv : Server} {l : ServerLabel} (h : sv.opens l = true) : sv.Open l := by
  cases l with
  | client m => trivial
  | serve e =>
      rintro m ⟨n, inbox, hpc, -, hinbox⟩
      simp only [Server.opens, hpc, hinbox, List.all_cons, Bool.or_eq_true, Bool.and_eq_true] at h
      rcases h with h | h
      · cases beq_iff_eq.mp h
      · exact h.1
  | target k => trivial
  | stop => cases h
  | lost => cases h

/-- The executor ends the controller, and a `Reset` that was on its way is handled next. -/
def crossed : List ServerLabel :=
  [.client (.hello version .cooperative), .serve {}, .serve {}, .serve {},
    .client (.submit 1 1 (.text "a")), .serve {}, .target (.next 0),
    .target (.complete 1 .partially), .target (.next 0), .target (.complete 2 .executed),
    .client .reset, .serve {}]

open Server in
/-- **A `Reset` that meets an ended controller ends the worker**: the `Closed` in the
mailbox is not sent, nor the answer to the text before it. -/
theorem reset_of_ended :
    ¬ ∀ (config : Config) (sv₀ sv : Server), sv₀.Starts config →
      Reaches Server.step Server.Open sv₀ sv → ∀ c ok, sv.controller = some c →
        sv.pc = .returned ok → ∃ st ∈ sv.replies, st.isClosed = true := by
  intro h
  obtain ⟨sv, hsv⟩ : ∃ sv, execIn Server.step Server.opens { target := { config := tiny } }
      crossed = some sv := Option.isSome_iff_exists.mp (by decide +kernel)
  have hend : (execIn Server.step Server.opens { target := { config := tiny } } crossed).map
      (fun sv => (sv.pc, sv.controller, sv.replies)) =
        some (.returned false, some ⟨1, .cooperative⟩, []) := by decide +kernel
  rw [hsv, Option.map_some, Option.some.injEq, Prod.mk.injEq, Prod.mk.injEq] at hend
  obtain ⟨hpc, hc, hreplies⟩ := hend
  obtain ⟨st, hst, -⟩ := h tiny _ sv ⟨_, new_tiny, rfl⟩
    (Reaches.of_execIn (fun _ _ hl => of_opens hl) hsv) _ _ hc hpc
  rw [hreplies] at hst
  cases hst

end Jackstay.Input
