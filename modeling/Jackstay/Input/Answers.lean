import Jackstay.Input.Link

/-!
What a client is told of what it has submitted.

The client merges adjacent counts of superseded motions that have not been polled, and so does the
mailbox of its controller. A client that is told of a clean end has received every reply, and every
submission that the server has handled is settled once among its statuses.

* `Client.Hears`: how the statuses of a client account for the replies that have been received.
* `Link.Mannered`: a client writes its `Hello` first, and then what a connected client writes.
* `link_settled`: what a client has been told when it has been told of a clean end.
-/

namespace Jackstay.Input

open Transition

/-- These statuses settle what those do, unless a count is saturated. -/
structure Tallies (xs ys : List Status) : Prop where
  seqs : sequences xs = sequences ys
  sups : supersessions ys < 2 ^ 64 → supersessions xs = supersessions ys

namespace Tallies

variable {xs ys : List Status}

/-- Both lists go on with the same status. -/
lemma snoc (h : Tallies xs ys) (st : Status) : Tallies (xs ++ [st]) (ys ++ [st]) := by
  refine ⟨?_, fun hlt => ?_⟩
  · rw [sequences_append, sequences_append, h.seqs]
  · rw [supersessions_append] at hlt
    rw [supersessions_append, supersessions_append, h.sups (by omega)]

/-- `Closed` settles nothing. -/
lemma closed (h : Tallies xs ys) (reason : Reason) (clean : Bool) :
    Tallies (xs ++ [.closed reason clean]) ys := by
  refine ⟨?_, fun hlt => ?_⟩
  · rw [sequences_append, h.seqs]
    exact List.append_nil _
  · rw [supersessions_append, h.sups hlt]
    rfl

lemma supersessions_singleton (count : UInt64) : supersessions [.coalesced count] = count.toNat :=
  List.sum_singleton

/-- A count is merged into the last one. -/
lemma merge {count delta : UInt64} (h : Tallies (xs ++ [Status.coalesced count]) ys) :
    Tallies (xs ++ [.coalesced (saturatingAdd count delta)]) (ys ++ [.coalesced delta]) := by
  refine ⟨?_, fun hlt => ?_⟩
  · have hsame := h.seqs
    rw [sequences_append] at hsame ⊢
    rw [sequences_append, ← hsame]
    exact (List.append_nil _).symm
  · rw [supersessions_append, supersessions_singleton] at hlt
    have hsame := h.sups (by omega)
    rw [supersessions_append, supersessions_singleton] at hsame
    have hsum : count.toNat + delta.toNat < 2 ^ 64 := by omega
    have hmerged : (saturatingAdd count delta).toNat = count.toNat + delta.toNat := by
      rw [saturatingAdd, Nat.min_eq_left (by omega), UInt64.toNat_ofNat_of_lt' hsum]
    rw [supersessions_append, supersessions_append, supersessions_singleton,
      supersessions_singleton, hmerged]
    omega

end Tallies

namespace Client

variable {c c' : Client} {heard : List Status}

/-- What a client has been told, polled or not. -/
def told (c : Client) : List Status := c.polled ++ c.status

/-- **How a client accounts for the replies that it has received**: while its worker drives the
wire, and once it has been told of a clean end. -/
structure Hears (heard : List Status) (c : Client) : Prop where
  closes : c.Closes
  driving : c.driving → Tallies c.told heard
  closed : ∀ reason, .closed reason true ∈ c.told →
    Tallies c.told heard ∧ ∃ st ∈ heard, st.isClosed = true

namespace Hears

/-- A step that tells nothing. -/
lemma of_same (h : Hears heard c) {l : ClientLabel} (hs : c.step l = some c')
    (hstatus : c'.told = c.told) (hpc : c'.driving → c.driving) : Hears heard c' := by
  refine ⟨h.closes.step hs, fun hdriving => ?_, fun reason hclosed => ?_⟩
  · rw [hstatus]
    exact h.driving (hpc hdriving)
  · rw [hstatus] at hclosed ⊢
    exact h.closed reason hclosed

/-- A reply. -/
lemma reply (h : Hears heard c) {status : Status} (hs : c.step (.receive (.reply status)) = some c') :
    Hears (heard ++ [status]) c' := by
  have hcloses := h.closes.step hs
  rw [Client.step] at hs
  split at hs
  swap
  · cases hs
  rename_i n hpc
  split_ifs at hs
  have hdriving : c.driving := ⟨by rw [hpc]; rintro ⟨⟩, by rw [hpc]; rintro ⟨⟩⟩
  have halive := h.closes.driving hdriving
  have htallies := h.driving hdriving
  have hopen : ∀ reason, .closed reason true ∉ c.told := fun reason hmem => by
    cases h.closes.alive halive _ hmem
  obtain ⟨-, -, -, -, hstatus, hpolled, -⟩ := c.renewed_frame status
  have heq := Option.some.inj hs
  rw [receive] at heq
  rcases c.reply_cases n status with ⟨rest, count, delta, hrest, hdelta, hcase⟩ | ⟨-, hcase⟩ |
    ⟨-, hclosed, hcase⟩ | ⟨-, -, hcase⟩
  · have htold : c'.told = c.polled ++ rest ++ [.coalesced (saturatingAdd count delta)] := by
      rw [← heq, hcase]
      exact (List.append_assoc _ _ _).symm
    have htold₀ : c.told = c.polled ++ rest ++ [.coalesced count] := by
      rw [told, hrest, List.append_assoc]
    rw [htold₀] at htallies hopen
    refine ⟨hcloses, fun _ => ?_, fun reason hmem => ?_⟩
    · rw [htold, hdelta]
      exact htallies.merge
    · rw [htold] at hmem
      rcases List.mem_append.mp hmem with hmem | hmem
      · exact absurd (List.mem_append_left _ hmem) (hopen reason)
      · cases List.mem_singleton.mp hmem
  · have htold : c'.told = c.told := by
      rw [← heq, hcase]
      show (c.renewed status).polled ++ (c.renewed status).status = _
      rw [hpolled, hstatus]
      rfl
    refine ⟨hcloses, fun hd => ?_, fun reason hmem => ?_⟩
    · rw [← heq, hcase] at hd
      exact absurd rfl hd.1
    · rw [htold] at hmem
      exact absurd hmem (hopen reason)
  all_goals
    have htold : c'.told = c.told ++ [status] := by
      rw [← heq, hcase]
      show (c.renewed status).polled ++ (c.status ++ [status]) = _
      rw [hpolled, ← List.append_assoc]
      rfl
    refine ⟨hcloses, fun _ => htold ▸ htallies.snoc status, fun reason hmem => ?_⟩
    refine ⟨htold ▸ htallies.snoc status, status, by simp, ?_⟩
    rw [htold] at hmem
    rcases List.mem_append.mp hmem with hmem | hmem
    · exact absurd hmem (hopen reason)
    · rw [← List.mem_singleton.mp hmem]
      rfl

/-- **What a step without a frame** tells a client. -/
lemma local_step (h : Hears heard c) {l : ClientLabel} (hl : l.isLocal = true)
    (hs : c.step l = some c') : Hears heard c' := by
  have hs₀ := hs
  cases l with
  | send event =>
    rw [← Option.some.inj hs]
    rcases c.send_cases event with ⟨e, heq⟩ | heq | ⟨-, -, -, -, -, heq⟩
    · exact h.of_same (l := .send event) rfl (by rw [heq]) (by rw [heq]; exact id)
    · exact h.of_same (l := .send event) rfl (by rw [heq]; rfl) (by rw [heq]; exact id)
    · exact h.of_same (l := .send event) rfl (by rw [heq]; rfl) (by rw [heq]; exact id)
  | reset =>
    rw [← Option.some.inj hs]
    rcases c.reset_cases with heq | ⟨-, heq⟩
    · exact h.of_same (l := .reset) rfl (by rw [heq]) (by rw [heq]; exact id)
    · exact h.of_same (l := .reset) rfl (by rw [heq]; rfl) (by rw [heq]; exact id)
  | close =>
    rw [← Option.some.inj hs]
    exact h.of_same (l := .close) rfl rfl id
  | poll =>
    rw [← Option.some.inj hs]
    refine h.of_same (l := .poll) rfl ?_ id
    show (c.polled ++ c.status.head?.toList) ++ c.status.tail = c.polled ++ c.status
    cases c.status with
    | nil => simp
    | cons st rest => simp
  | drop =>
    rw [← Option.some.inj hs]
    exact h.of_same (l := .drop) rfl rfl id
  | drive room due =>
    rw [step, drive] at hs
    split at hs
    · rename_i hpc
      refine h.of_same hs₀ ?_ fun _ => ⟨by rw [hpc]; rintro ⟨⟩, by rw [hpc]; rintro ⟨⟩⟩
      rw [← Option.some.inj hs]
      rfl
    · rename_i hpc
      refine h.of_same hs₀ ?_ fun _ => ⟨by rw [hpc]; rintro ⟨⟩, by rw [hpc]; rintro ⟨⟩⟩
      rw [← Option.some.inj hs]
      rfl
    · rename_i hpc
      refine h.of_same hs₀ ?_ fun _ => ⟨by rw [hpc]; rintro ⟨⟩, by rw [hpc]; rintro ⟨⟩⟩
      rw [← Option.some.inj hs]
      rfl
    · rename_i hpc
      refine h.of_same hs₀ ?_ fun _ => ⟨by rw [hpc]; rintro ⟨⟩, by rw [hpc]; rintro ⟨⟩⟩
      rw [← Option.some.inj hs]
      rfl
    · have hcloses := h.closes.step hs₀
      have htold : c'.told = c.told ∨ c'.told = c.told ++ [.closed .disconnect false] := by
        rw [← Option.some.inj hs]
        cases halive : c.alive with
        | false => exact .inl (by simp [told])
        | true => exact .inr (by simp [told])
      refine ⟨hcloses, fun hd => ?_, fun reason hmem => ?_⟩
      · rw [← Option.some.inj hs] at hd
        exact absurd rfl hd.2
      rcases htold with htold | htold
      · rw [htold] at hmem ⊢
        exact h.closed reason hmem
      · rw [htold] at hmem ⊢
        rcases List.mem_append.mp hmem with hmem | hmem
        · obtain ⟨htallies, hst⟩ := h.closed reason hmem
          exact ⟨htallies.closed .disconnect false, hst⟩
        · cases List.mem_singleton.mp hmem
    · cases hs
  | receive m => cases hl
  | lost taken =>
    rw [step, lost] at hs
    split at hs
    · refine h.of_same hs₀ ?_ fun hd => ?_
      · rw [← Option.some.inj hs]
        rfl
      · rw [← Option.some.inj hs] at hd
        exact absurd rfl hd.1
    · refine h.of_same hs₀ ?_ fun hd => ?_
      · rw [← Option.some.inj hs]
        rfl
      · rw [← Option.some.inj hs] at hd
        exact absurd rfl hd.1
    · refine h.of_same hs₀ ?_ fun hd => ?_
      · rw [← Option.some.inj hs]
        rfl
      · rw [← Option.some.inj hs] at hd
        exact absurd rfl hd.1
    · cases hs

/-- A frame that is no reply. -/
lemma other (h : Hears heard c) {m : Sent} (hm : m.status = none)
    (hs : c.step (.receive m) = some c') : Hears heard c' := by
  have hs₀ := hs
  rw [Client.step] at hs
  split at hs
  swap
  · cases hs
  rename_i n hpc
  split_ifs at hs
  refine h.of_same hs₀ ?_ fun _ => ⟨by rw [hpc]; rintro ⟨⟩, by rw [hpc]; rintro ⟨⟩⟩
  rw [← Option.some.inj hs]
  cases m with
  | reply status => cases hm
  | welcome | reject | heartbeat => rfl

end Hears

end Client

/-! ### Manners -/

namespace Server

variable {sv sv' : Server} {c : Controller}

lemma quit_pc (sv : Server) (ok : Bool) : (sv.quit ok).pc = .returned ok := by
  rw [quit]
  split
  · rfl
  · rfl

/-- What becomes of a `Hello`. -/
lemma helloStep_cases (sv : Server) (e : ServerEnv) :
    sv.helloStep e = sv ∨ (∃ ok, (sv.helloStep e).pc = .returned ok) ∨
      (sv.helloStep e).pc = .welcome ∧ ∃ m, sv.inbox = m :: (sv.helloStep e).inbox := by
  rw [helloStep]
  split_ifs
  · exact .inr (.inl ⟨true, sv.quit_pc true⟩)
  cases hinbox : sv.inbox with
  | nil => exact .inl rfl
  | cons m inbox =>
    cases m with
    | hello v mode =>
      dsimp only
      split_ifs
      · have hreply : (∃ c, (sv.target.call (.admitController mode e.now)).2 = .admitted c) ∨
            ∃ error, (sv.target.call (.admitController mode e.now)).2 = .error error := by
          rw [State.call]
          split
          · exact .inl ⟨_, rfl⟩
          · exact .inr ⟨_, rfl⟩
        rcases hreply with ⟨c, hreply⟩ | ⟨error, hreply⟩
        · rw [hreply]
          exact .inr (.inr ⟨rfl, _, rfl⟩)
        · rw [hreply]
          exact .inr (.inl ⟨true, rfl⟩)
      · exact .inr (.inl ⟨false, quit_pc _ false⟩)
    | _ => exact .inr (.inl ⟨false, quit_pc _ false⟩)

/-- Where the worker goes from its loop. -/
lemma loopStep_pc {e : ServerEnv} (hs : sv.loopStep e c = some sv') : sv'.pc ≠ .hello := by
  have quits : ∀ (sv : Server) (ok : Bool), (sv.quit ok).pc ≠ .hello := by
    intro sv ok
    rw [quit_pc]
    rintro ⟨⟩
  rw [loopStep] at hs
  split at hs
  · rw [← Option.some.inj hs]
    rintro ⟨⟩
  · rw [← Option.some.inj hs]
    split_ifs
    · exact quits sv true
    · rintro ⟨⟩
    · rintro ⟨⟩
  · split_ifs at hs
    · split at hs
      · rw [← Option.some.inj hs]
        rintro ⟨⟩
      · rename_i m inbox hinbox
        rw [← Option.some.inj hs]
        cases m with
        | submit epoch sequence event => rintro ⟨⟩
        | heartbeat => rintro ⟨⟩
        | reset =>
          rw [handle]
          split
          · exact quits _ false
          · rintro ⟨⟩
        | close => rintro ⟨⟩
        | hello | foreign => exact quits _ false
    · rw [← Option.some.inj hs]
      rintro ⟨⟩
  · split at hs
    · rw [← Option.some.inj hs]
      rintro ⟨⟩
    · rw [← Option.some.inj hs]
      rintro ⟨⟩
  · rw [← Option.some.inj hs, flush]
    split_ifs
    · exact quits sv true
    · rintro ⟨⟩
    · rintro ⟨⟩
    · rintro ⟨⟩
  · cases hs

end Server

namespace Link

variable {config : Config} {k k' : Link}

/-- **The manners of a client**: its `Hello` is handled first, and then what a connected client
writes. -/
structure Mannered (k : Link) : Prop where
  writes : ∀ m ∈ k.written ++ k.queued, m.wellFormed = true
  arrives : (k.server.pc = .hello ∧ ∃ m rest, k.arriving = m :: rest ∧ ∀ m ∈ rest, m.wellFormed = true) ∨
    (∃ ok, k.server.pc = .returned ok) ∨
    k.server.pc ≠ .hello ∧ ∀ m ∈ k.arriving, m.wellFormed = true

namespace Mannered

/-- What arrives next is what has arrived, or it has the manners of a client. -/
lemma arrives_append (h : Mannered k) (more : List Message)
    (hmore : ∀ m ∈ more, m.wellFormed = true) (hserver : k'.server.pc = k.server.pc)
    (harriving : k'.arriving = k.arriving ++ more) :
    (k'.server.pc = .hello ∧ ∃ m rest, k'.arriving = m :: rest ∧ ∀ m ∈ rest, m.wellFormed = true) ∨
      (∃ ok, k'.server.pc = .returned ok) ∨
      k'.server.pc ≠ .hello ∧ ∀ m ∈ k'.arriving, m.wellFormed = true := by
  have all : ∀ {ms : List Message}, (∀ m ∈ ms, m.wellFormed = true) →
      ∀ m ∈ ms ++ more, m.wellFormed = true := fun hms m hm =>
    (List.mem_append.mp hm).elim (hms m) (hmore m)
  rw [hserver, harriving]
  rcases h.arrives with ⟨hpc, m, rest, hall, hrest⟩ | hreturned | ⟨hpc, hall⟩
  · exact .inl ⟨hpc, m, rest ++ more, by rw [hall]; rfl, all hrest⟩
  · exact .inr (.inl hreturned)
  · exact .inr (.inr ⟨hpc, all hall⟩)

/-- A step of the server. -/
lemma server (h : Mannered k) {l : ServerLabel} (hl : l.isLocal = true)
    (hhello : k.server.pc = .hello → k.server.controller = none) {sv : Server}
    (hs : k.server.step l = some sv) : Mannered { k with server := sv } := by
  refine ⟨h.writes, ?_⟩
  have htakes := Server.takes_step hl hhello hs
  obtain ⟨front, -, hinbox, -⟩ := htakes.taken
  have hsub : ∀ m ∈ sv.inbox ++ k.up, m ∈ k.arriving := by
    intro m hm
    rw [arriving, hinbox, List.append_assoc]
    exact List.mem_append_right _ hm
  show (sv.pc = .hello ∧ ∃ m rest, sv.inbox ++ k.up = m :: rest ∧ ∀ m ∈ rest, m.wellFormed = true) ∨
    (∃ ok, sv.pc = .returned ok) ∨ sv.pc ≠ .hello ∧ ∀ m ∈ sv.inbox ++ k.up, m.wellFormed = true
  have same : sv.pc = k.server.pc → sv.inbox = k.server.inbox →
      (sv.pc = .hello ∧ ∃ m rest, sv.inbox ++ k.up = m :: rest ∧ ∀ m ∈ rest, m.wellFormed = true) ∨
        (∃ ok, sv.pc = .returned ok) ∨
        sv.pc ≠ .hello ∧ ∀ m ∈ sv.inbox ++ k.up, m.wellFormed = true := by
    intro hpc hsame
    rw [hpc, hsame]
    exact h.arrives
  cases l with
  | client m => cases hl
  | serve e =>
    rw [Server.step, Server.serveStep] at hs
    split_ifs at hs with hpc
    · rcases h.arrives with ⟨-, m, rest, hall, hrest⟩ | ⟨ok, hok⟩ | ⟨hne, -⟩
      · rcases k.server.helloStep_cases e with heq | hreturned | ⟨hwelcome, x, hx⟩
        · rw [← Option.some.inj hs, heq]
          exact h.arrives
        · rw [← Option.some.inj hs]
          exact .inr (.inl hreturned)
        · rw [← Option.some.inj hs]
          refine .inr (.inr ⟨by rw [hwelcome]; rintro ⟨⟩, fun y hy => hrest y ?_⟩)
          rw [arriving, hx, List.cons_append, List.cons.injEq] at hall
          rw [← hall.2]
          exact hy
      · cases hpc.symm.trans hok
      · exact absurd hpc hne
    · split at hs
      · rename_i c hc
        have hne := Server.loopStep_pc hs
        rcases h.arrives with ⟨hhello, -⟩ | ⟨ok, hok⟩ | ⟨-, hall⟩
        · exact absurd hhello hpc
        · rw [Server.loopStep, hok] at hs
          cases hs
        · exact .inr (.inr ⟨hne, fun m hm => hall m (hsub m hm)⟩)
      · cases hs
  | target l =>
    rw [Server.step] at hs
    split_ifs at hs
    rw [← Option.some.inj hs] at same ⊢
    exact same rfl rfl
  | stop =>
    rw [← Option.some.inj hs] at same ⊢
    exact same rfl rfl
  | lost =>
    rw [Server.step] at hs
    split at hs
    · cases hs
    · cases hs
    · rw [← Option.some.inj hs]
      exact .inr (.inl ⟨false, Server.quit_pc _ false⟩)

/-- The message that is handled next is one of a connected client. -/
lemma handles (h : Mannered k) {m : Message} (hm : k.server.handles m) : m.wellFormed = true := by
  obtain ⟨n, inbox, hpc, -, hinbox⟩ := hm
  rcases h.arrives with ⟨hhello, -⟩ | ⟨ok, hok⟩ | ⟨-, hall⟩
  · cases hhello.symm.trans hpc
  · cases hok.symm.trans hpc
  · refine hall m ?_
    rw [arriving, hinbox]
    exact List.mem_cons_self

end Mannered

/-- **The steps of the server that are open and spare the defects.** -/
def Spares (k : Link) : LinkLabel → Prop
  | .server l => l ≠ .stop ∧ l ≠ .lost ∧ k.server.Spared l
  | _ => True

/-- The replies that the client has received. -/
def heard (k : Link) : List Status := (k.server.sent.take k.read).filterMap Sent.status

/-- **How the two ends account for what is submitted.** -/
structure Settles (config : Config) (k : Link) : Prop where
  serving : Server.Serving config k.server
  sound : Sound config k
  mannered : Mannered k
  connecting : k.peer = .connecting → k.read = 0
  read : k.read ≤ k.server.sent.length
  hears : ∀ c, k.peer = .connected c → c.Hears k.heard

namespace Settles

/-- A step of the server. -/
lemma server (h : Settles config k) {l : ServerLabel} (hl : l.isLocal = true) (he : k.server.Epochs)
    (hspares : k.Spares (.server l)) {sv : Server} (hs : k.server.step l = some sv) :
    Settles config { k with server := sv } := by
  obtain ⟨hstop, hlost, hspared⟩ := hspares
  have hopen : k.server.Open l := by
    cases l with
    | serve e => exact fun m hm => h.mannered.handles hm
    | stop => exact absurd rfl hstop
    | lost => exact absurd rfl hlost
    | _ => trivial
  obtain ⟨more, hsent⟩ := (Server.takes_step hl h.serving.hello hs).sent
  have hread : k.read ≤ sv.sent.length := by
    rw [hsent, List.length_append]
    exact Nat.le_add_right_of_le h.read
  have hheard : (sv.sent.take k.read).filterMap Sent.status = k.heard := by
    rw [hsent, List.take_append_of_le_length h.read]
    rfl
  refine ⟨h.serving.step hopen hspared hs, h.sound.server hl he hs,
    h.mannered.server hl h.serving.hello hs, h.connecting, hread, fun c hc => ?_⟩
  show c.Hears ((sv.sent.take k.read).filterMap Sent.status)
  rw [hheard]
  exact h.hears c hc

/-- A message arrives. -/
lemma arrive (h : Settles config k) {m : Message} {up : List Message} (hup : k.up = m :: up)
    (he : k.server.Epochs) :
    Settles config { k with server := { k.server with inbox := k.server.inbox ++ [m] }, up } := by
  have hserving : Server.Serving config { k.server with inbox := k.server.inbox ++ [m] } := by
    refine h.serving.step (l := .client m) trivial
      ⟨by rintro _ _ ⟨⟩, by rintro _ ⟨⟩, fun sv c hsv hc => ?_⟩ rfl
    rw [← Option.some.inj hsv] at hc ⊢
    exact (h.serving.account c hc).fits
  refine ⟨hserving, h.sound.arrive hup he, ⟨h.mannered.writes, ?_⟩, h.connecting, h.read, h.hears⟩
  refine h.mannered.arrives_append [] (by rintro _ ⟨⟩) rfl ?_
  rw [arriving, arriving, hup, List.append_assoc, List.append_nil]
  rfl

/-- A step of the client. -/
lemma client_step (h : Settles config k) {c c' : Client} (hpeer : k.peer = .connected c)
    {l : ClientLabel} (hl : l.isLocal = true) (hs : c.step l = some c') :
    Settles config (k.driven c c') := by
  obtain ⟨-, -, -, more, hsent, hpasses⟩ := Client.writes_step hl hs
  have hdrop : c'.sent.drop c.sent.length = more := by rw [hsent, List.drop_left]
  have hwritten : k.written ++ k.queued = c.sent ++ c.queue := by rw [written, queued, hpeer]
  have hwrites := h.mannered.writes
  rw [hwritten] at hwrites
  have hmore : ∀ m ∈ more ++ c'.queue, m.wellFormed = true := by
    intro m hm
    rcases hpasses m hm with hm | ⟨-, hm⟩ | ⟨sequence, event, rfl, -⟩
    · exact hwrites m (List.mem_append_right _ hm)
    · exact hm
    · rfl
  refine ⟨h.serving, h.sound.client_step hpeer hl hs, ⟨fun m hm => ?_, ?_⟩, (by rintro ⟨⟩), h.read,
    fun d hd => ?_⟩
  · have hm : m ∈ c'.sent ++ c'.queue := hm
    rw [hsent, List.append_assoc] at hm
    rcases List.mem_append.mp hm with hm | hm
    · exact hwrites m (List.mem_append_left _ hm)
    · exact hmore m hm
  · refine h.mannered.arrives_append more (fun m hm => hmore m (List.mem_append_left _ hm))
      rfl ?_
    show k.server.inbox ++ (k.up ++ c'.sent.drop c.sent.length) = _
    rw [hdrop, ← List.append_assoc]
    rfl
  · obtain rfl := Peer.connected.inj hd
    exact (h.hears c hpeer).local_step hl hs

/-- A frame is received. -/
lemma receive (h : Settles config k) {c c' : Client} (hpeer : k.peer = .connected c) {m : Sent}
    (hm : k.server.sent[k.read]? = some m) (hs : c.step (.receive m) = some c') :
    Settles config { k with peer := .connected c', read := k.read + 1 } := by
  obtain ⟨-, hsent, hqueue, -⟩ := Client.hears_step hs
  obtain ⟨hlt, hget⟩ := List.getElem?_eq_some_iff.mp hm
  have hheard : (k.server.sent.take (k.read + 1)).filterMap Sent.status =
      k.heard ++ m.status.toList := by
    rw [List.take_add_one, hm, List.filterMap_append]
    cases hstatus : m.status with
    | none => rw [heard, Option.toList_some, List.filterMap_cons_none hstatus]; rfl
    | some st => rw [heard, Option.toList_some, List.filterMap_cons_some hstatus]; rfl
  refine ⟨h.serving, h.sound.receive hpeer (List.mem_of_getElem? hm) hs, ⟨fun x hx => ?_,
    h.mannered.arrives⟩, (by rintro ⟨⟩), hlt, fun d hd => ?_⟩
  · refine h.mannered.writes x ?_
    have hx : x ∈ c'.sent ++ c'.queue := hx
    rw [hsent, hqueue] at hx
    rw [written, queued, hpeer]
    exact hx
  · obtain rfl := Peer.connected.inj hd
    show c'.Hears ((k.server.sent.take (k.read + 1)).filterMap Sent.status)
    rw [hheard]
    cases m with
    | reply status => exact (h.hears c hpeer).reply hs
    | welcome | reject | heartbeat =>
      rw [show Sent.status _ = none from rfl, Option.toList_none, List.append_nil]
      exact (h.hears c hpeer).other rfl hs

/-- **Every step keeps the account.** -/
lemma step (h : Settles config k) {l : LinkLabel} (hspares : k.Spares l) (he : k.server.Epochs)
    (hs : k.step l = some k') : Settles config k' := by
  have hsound := h.sound.step he hs
  cases l with
  | server l =>
    rw [Link.step] at hs
    split_ifs at hs with hl
    obtain ⟨sv, hsv, rfl⟩ := Option.map_eq_some_iff.mp hs
    exact h.server hl he hspares hsv
  | arrive =>
    rw [Link.step] at hs
    split at hs
    · cases hs
    · rename_i m up hup
      rw [← Option.some.inj hs]
      exact h.arrive hup he
  | connect =>
    rw [Link.step] at hs
    split at hs
    swap
    · cases hs
    rename_i m hpeer hm
    rw [← Option.some.inj hs] at hsound ⊢
    obtain ⟨hlt, -⟩ := List.getElem?_eq_some_iff.mp hm
    have hzero := h.connecting hpeer
    have hfirst : k.server.sent.take (k.read + 1) = [m] := by
      rw [hzero] at hm ⊢
      rw [List.take_add_one, hm]
      rfl
    have hmanners : ∀ p, (p = .refused ∨ ∃ epoch config, p = .connected (.ofWelcome k.mode epoch config)) →
        Mannered { k with peer := p, read := k.read + 1 } := by
      rintro p (rfl | ⟨epoch, config, rfl⟩)
      · exact ⟨(by rintro _ ⟨⟩), h.mannered.arrives⟩
      · exact ⟨(by rintro _ ⟨⟩), h.mannered.arrives⟩
    rcases greeted_cases k.mode m with heq | ⟨v, id, epoch, offer, rfl, heq⟩
    · rw [heq] at hsound ⊢
      exact ⟨h.serving, hsound, hmanners _ (.inl rfl), by rintro ⟨⟩, hlt, by rintro c ⟨⟩⟩
    · rw [heq] at hsound ⊢
      refine ⟨h.serving, hsound, hmanners _ (.inr ⟨epoch, offer, rfl⟩), by rintro ⟨⟩, hlt,
        fun c hc => ?_⟩
      obtain rfl := Peer.connected.inj hc
      show Client.Hears ((k.server.sent.take (k.read + 1)).filterMap Sent.status) _
      rw [hfirst]
      exact ⟨⟨by rintro _ _ ⟨⟩, by rintro ⟨⟩, fun _ => rfl, by rintro ⟨⟩⟩,
        fun _ => ⟨rfl, fun _ => rfl⟩, by rintro _ ⟨⟩⟩
  | refuse =>
    rw [Link.step] at hs
    split at hs
    · rename_i hpeer
      rw [← Option.some.inj hs] at hsound ⊢
      exact ⟨h.serving, hsound, ⟨(by rintro _ ⟨⟩), h.mannered.arrives⟩, by rintro ⟨⟩, h.read, by rintro c ⟨⟩⟩
    · cases hs
  | client l =>
    rw [Link.step] at hs
    split at hs
    · rename_i c hpeer
      split_ifs at hs with hl
      obtain ⟨c', hc', rfl⟩ := Option.map_eq_some_iff.mp hs
      exact h.client_step hpeer hl hc'
    · cases hs
  | receive =>
    rw [Link.step] at hs
    split at hs
    · rename_i c m hpeer hm
      obtain ⟨c', hc', rfl⟩ := Option.map_eq_some_iff.mp hs
      exact h.receive hpeer hm hc'
    · cases hs

end Settles

end Link

namespace Server

variable {config : Config} {sv : Server} {c : Controller}

/-- What has been received of the replies, once `Closed` is among it. -/
lemma Serving.answers (h : Serving config sv) (hc : sv.controller = some c) {heard : List Status}
    (hheard : heard <+: sv.replies) (hclosed : ∃ st ∈ heard, st.isClosed = true) :
    settled heard = sv.received.length ∧ List.Subperm (sequences heard) sv.received := by
  have haccount := h.account c hc
  obtain ⟨st, hst, hend⟩ := hclosed
  have hclosing : sv.closing = true := by
    by_contra hopen
    have hno := (haccount.unclosed (by simpa using hopen)).1 st (hheard.subset hst)
    cases hno.symm.trans hend
  obtain ⟨pre, before, reason, clean, hreplies, hpre, hpolled⟩ := haccount.closed hclosing
  -- `Closed` is the last reply, so nothing is missing
  have hall : heard = sv.replies := by
    rw [hreplies] at hheard ⊢
    rcases List.prefix_concat_iff.mp hheard with heq | hshort
    · exact heq
    · cases (hpre st (hshort.subset hst)).symm.trans hend
  -- and nothing is left in the mailbox
  have hbox := ((h.run.always.closing haccount.fits).polled_end hpolled rfl).2
  have hposted : posted c.id sv.calls sv.target = polled c.id sv.calls := by
    rw [posted, hbox, List.append_nil]
  have hbooks := h.run.books.settled c.id haccount.fits
  have hmem : .closed reason clean ∈ posted c.id sv.calls sv.target := by
    rw [hposted, hpolled]
    exact List.mem_append_right _ List.mem_cons_self
  have hcount := hbooks.settled_of_closed hmem
  rw [hposted] at hcount
  obtain ⟨refused, hseqs, hsups, hreceived⟩ := haccount.refused
  rw [hall]
  constructor
  · have hlen := hseqs.length_eq
    have hlen' := hreceived.length_eq
    rw [List.length_append] at hlen
    rw [List.length_append, List.length_map] at hlen'
    rw [settled_eq] at hcount ⊢
    omega
  · have hledger : ledger c.id sv.calls sv.target = sequences (polled c.id sv.calls) ++
        sv.target.entries c.id := rfl
    have hnodup := hbooks.nodup
    have hsubset := hbooks.subset
    rw [hledger] at hnodup hsubset
    have hsubperm := (List.Nodup.of_append_left hnodup).subperm fun q hq =>
      hsubset q (List.mem_append_left _ hq)
    exact hseqs.subperm.trans (((List.subperm_append_right refused).mpr hsubperm).trans
      hreceived.symm.subperm)

end Server

open Link in
/-- **A client that is told of a clean end has been told of everything**, in every run that spares
the defects of the server and in which the epochs of the target do not wrap. Every submission that
the server has handled is settled once among the statuses of the client: by its own number, or by
one unit of a count of superseded motions. And what has been handled is what the client has numbered,
in order. -/
theorem link_settled {config : Config} {k₀ k : Link} (h₀ : k₀.Starts config)
    (hr : Reaches Link.step (fun k l => k.Spares l ∧ k.Epochs l) k₀ k) {c : Client}
    (hpeer : k.peer = .connected c) {reason : Reason}
    (hclosed : .closed reason true ∈ c.polled ++ c.status) :
    settled (c.polled ++ c.status) = k.server.received.length ∧
      List.Subperm (sequences (c.polled ++ c.status)) k.server.received ∧
      k.server.received.Sublist c.accepted := by
  have h : Settles config k := by
    refine hr.invariant (P := Settles config) ?_ fun k l k' h hl hs => h.step hl.1 hl.2 hs
    have hsound := h₀.sound
    obtain ⟨sv, mode, ⟨s₀, hnew, rfl⟩, rfl⟩ := h₀
    have hserving : Server.Serving config { target := s₀ } :=
      ⟨⟨s₀, hnew, .nil⟩, rfl, fun _ => rfl, fun _ => .inl ⟨rfl, rfl, rfl⟩, by rintro c ⟨⟩⟩
    exact ⟨hserving, hsound, ⟨(by rintro _ ⟨⟩), .inl ⟨rfl, _, [], rfl, (by rintro _ ⟨⟩)⟩⟩, fun _ => rfl, le_rfl,
      by rintro c ⟨⟩⟩
  obtain ⟨htallies, hend⟩ := (h.hears c hpeer).closed reason hclosed
  obtain ⟨d, hd, -⟩ := (h.sound.client c hpeer).mode
  have hpre : k.heard <+: k.server.replies := (List.take_prefix _ _).filterMap _
  obtain ⟨hcount, hsubperm⟩ := h.serving.answers hd hpre hend
  have horders := (h.sound.client c hpeer).orders
  have hreceived : k.server.received.Sublist c.accepted := by
    have horder := h.sound.order
    have hsent := horders.numbers
    rw [written, hpeer] at horder
    rw [numbered_append] at hsent
    exact ((List.sublist_append_left _ _).trans horder).trans
      ((List.sublist_append_left _ _).trans hsent)
  have hsups : supersessions k.heard < 2 ^ 64 := by
    have hle := hreceived.length_le
    rw [horders.accepted, Client.given, List.length_map, List.length_range] at hle
    have hlt := c.sequence.toNat_lt
    rw [settled_eq] at hcount
    omega
  have htold : c.polled ++ c.status = c.told := rfl
  refine ⟨?_, ?_, hreceived⟩
  · rw [htold, settled_eq, htallies.seqs, htallies.sups hsups, ← settled_eq]
    exact hcount
  · rw [htold, htallies.seqs]
    exact hsubperm

/-- The step is one of those that `Spares` allows. -/
def Link.spares (k : Link) : LinkLabel → Bool
  | .server l => k.server.spares l
  | _ => true

lemma Link.of_spares {k : Link} {l : LinkLabel} (h : k.spares l = true) : k.Spares l := by
  cases l with
  | server l =>
    obtain ⟨hopen, hspared⟩ := Server.of_spares h
    refine ⟨?_, ?_, hspared⟩
    · rintro rfl
      exact hopen
    · rintro rfl
      exact hopen
  | _ => trivial

/-- What the client of a link has been told, polled or not. -/
def Link.answered (k : Link) : List Status :=
  match k.peer with
  | .connected c => c.told
  | _ => []

/-- A client sends a text, sees it executed, and closes. -/
def errand : List LinkLabel :=
  [.arrive, .server (.serve {}), .server (.serve {}), .connect, .client (.send (.text "a")),
    .client (.drive 32 false), .client (.drive 32 false), .arrive, .server (.serve {}),
    .server (.serve {}), .server (.serve {}), .server (.serve {}), .server (.serve {}),
    .server (.target (.next 0)), .server (.target (.complete 1 .executed)), .client .close,
    .client (.drive 32 false), .client (.drive 32 false), .client (.drive 32 false),
    .client (.drive 32 false), .arrive, .server (.serve {}), .server (.serve {}),
    .server (.serve {}), .server (.serve {}), .server (.serve {}), .server (.serve {}),
    .server (.target (.next 0)), .server (.target (.complete 2 .executed)), .server (.serve {}),
    .server (.serve {}), .server (.serve {}), .server (.serve {}), .client (.drive 32 false),
    .receive, .receive]

open Link in
theorem link_settled_errand :
    ∃ k c, execIn Link.step (fun k l => k.spares l && k.epochs l)
        { server := { target := { config := tiny } }, mode := .cooperative } errand = some k ∧
      k.peer = .connected c ∧
      c.polled ++ c.status = [.completed 1 .executed, .closed .disconnect true] ∧
      settled (c.polled ++ c.status) = k.server.received.length ∧
      List.Subperm (sequences (c.polled ++ c.status)) k.server.received ∧
      k.server.received.Sublist c.accepted := by
  obtain ⟨k, hk⟩ : ∃ k, execIn Link.step (fun k l => k.spares l && k.epochs l)
      { server := { target := { config := tiny } }, mode := .cooperative } errand = some k :=
    Option.isSome_iff_exists.mp (by decide +kernel)
  have hend : (execIn Link.step (fun k l => k.spares l && k.epochs l)
      { server := { target := { config := tiny } }, mode := .cooperative } errand).map
        Link.answered = some [.completed 1 .executed, .closed .disconnect true] := by decide +kernel
  rw [hk, Option.map_some, Option.some.injEq] at hend
  rw [Link.answered] at hend
  cases hpeer : k.peer with
  | connected c =>
    rw [hpeer] at hend
    have hend : c.polled ++ c.status = [.completed 1 .executed, .closed .disconnect true] := hend
    have hclosed : Status.closed .disconnect true ∈ c.polled ++ c.status := by
      rw [hend]
      exact List.mem_cons_of_mem _ List.mem_cons_self
    refine ⟨k, c, hk, hpeer, hend, ?_⟩
    refine link_settled ⟨_, _, ⟨_, new_tiny, rfl⟩, rfl⟩
      (Reaches.of_execIn (fun _ _ h => ?_) hk) hpeer hclosed
    rw [Bool.and_eq_true] at h
    exact ⟨of_spares h.1, of_epochs h.2⟩
  | _ =>
    rw [hpeer] at hend
    cases hend

end Jackstay.Input
