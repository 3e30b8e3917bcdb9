import Jackstay.Library.Transition
import Jackstay.Framing.Framed

/-!
Two ends of a framed channel and the stream from one to the other: what is sent
at one end is what the other end receives.

The stream is a lossless queue of bytes. It takes any part of what a `write`
offers and hands any part of what it holds, up to the 4096 bytes of the buffer,
to a `read`; either call may answer `WouldBlock` or `Interrupted` instead. The
turns of `flush` and `receive` and the calls of `send` come in any order.

* `Link`, `Link.step`: the two ends, the stream, and the history of the calls;
* `Link.Carried`: what is buffered, in the stream and unsent is, byte for byte, the
  frames of the messages that were accepted and not yet received;
* `Link.left`: how far the bytes on the way are from having been received. Turns
  never raise it, and those that move anything lower it (`left_step`);
* `delivered_once_in_order`: **the transport is exact**.
-/

namespace Jackstay.Framing

open LengthPrefix Transition

variable {M : Type}

/-- The sending end, the stream, the receiving end; and the messages that `send` has accepted,
with what the calls of `flush` and of `receive` have returned. -/
structure Link (M : Type) where
  sender : Framed := {}
  pipe : List UInt8 := []
  receiver : Framed := {}
  accepted : List M := []
  flushes : List (Except IoError Unit) := []
  receives : List (Except IoError (Option M)) := []

/-- A call of `send`, or a turn of one of the loops with what the stream answers: how many bytes
it takes or hands over, if any. -/
inductive LinkLabel (M : Type) where
  | send (msg : M)
  | flush (answer : Written)
  | receive (answer : Written)

/-- A turn of one of the loops. -/
def LinkLabel.IsTurn : LinkLabel M → Prop
  | .send _ => False
  | .flush _ => True
  | .receive _ => True

namespace Link

/-- What the stream may answer to a call that could move `n` bytes: not the zero that
means the end of the stream, and no error. -/
def Allows (n : ℕ) : Written → Prop
  | .ok k => 0 < k ∧ k ≤ n
  | .wouldBlock => True
  | .interrupted => True
  | .failed _ => False

instance (n : ℕ) : (answer : Written) → Decidable (Allows n answer)
  | .ok k => inferInstanceAs (Decidable (0 < k ∧ k ≤ n))
  | .wouldBlock => .isTrue trivial
  | .interrupted => .isTrue trivial
  | .failed _ => .isFalse id

/-- How many bytes an answer moves. -/
def moved : Written → ℕ
  | .ok n => n
  | _ => 0

/-- What a `read` sees of an answer, by what the stream holds. -/
def hand (pipe : List UInt8) : Written → Read
  | .ok n => .ok (pipe.take n)
  | .wouldBlock => .wouldBlock
  | .interrupted => .interrupted
  | .failed text => .failed text

/-- The result of a turn that ends a call. -/
def ended {α : Type} : Turn α → List (Except IoError α)
  | .again => []
  | .returned result => [result]

/-- One step. A turn that does not reach the stream takes nothing from its answer. -/
def step (codec : Codec M) (s : Link M) : LinkLabel M → Option (Link M)
  | .send msg =>
      match s.sender.send codec msg with
      | .error _ => some s
      | .ok sender => some { s with sender, accepted := s.accepted ++ [msg] }
  | .flush answer =>
      if s.sender.output = [] then
        some { s with flushes := s.flushes ++ ended (s.sender.flushTurn answer).2 }
      else if Allows s.sender.offered.length answer then
        some { s with
          sender := (s.sender.flushTurn answer).1
          pipe := s.pipe ++ s.sender.offered.take (moved answer)
          flushes := s.flushes ++ ended (s.sender.flushTurn answer).2 }
      else none
  | .receive answer =>
      match s.receiver.front codec with
      | some _ =>
          some { s with
            receiver := (s.receiver.receiveTurn codec (hand s.pipe answer)).1
            receives := s.receives ++ ended (s.receiver.receiveTurn codec (hand s.pipe answer)).2 }
      | none =>
          if Allows (min 4096 s.pipe.length) answer then
            some { s with
              receiver := (s.receiver.receiveTurn codec (hand s.pipe answer)).1
              pipe := s.pipe.drop (moved answer)
              receives :=
                s.receives ++ ended (s.receiver.receiveTurn codec (hand s.pipe answer)).2 }
          else none

/-- The message that a call of `receive` yields. -/
def yield : Except IoError (Option M) → Option M
  | .ok msg => msg
  | .error _ => none

/-- The messages that the calls of `receive` have yielded. -/
def received (s : Link M) : List M := s.receives.filterMap yield

/-- The bytes on the way: in the buffer of the receiver, in the stream, and unsent. -/
def onTheWay (s : Link M) : List UInt8 := s.receiver.input ++ (s.pipe ++ s.sender.unsent)

/-! ### What a turn of `receive` finds -/

variable {codec : Codec M}

/-- Nothing is found before the first frame is whole. -/
lemma front_of_lt {w : Framed} {ys p zs : List UInt8}
    (h : w.input ++ ys = prefixed 4 p ++ zs) (hpos : 0 < p.length) (hp : p.length ≤ maxFrame)
    (hlt : w.input.length < p.length + 4) : w.front codec = none := by
  rw [Framed.front]
  by_cases hfour : 4 ≤ w.input.length
  · have hsize : value (w.input.take 4) = p.length :=
      value_take h hfour (Nat.lt_of_le_of_lt hp (by decide))
    have hin : ¬ (p.length = 0 ∨ maxFrame < p.length) := by omega
    have hpart : ¬ p.length + 4 ≤ w.input.length := by omega
    simp only [if_pos hfour, hsize, if_neg hin, if_neg hpart]
  · rw [if_neg hfour]

/-- A first frame that is whole is found, and what follows it stays. -/
lemma front_of_le {w : Framed} {ys p zs : List UInt8} {msg : M}
    (h : w.input ++ ys = prefixed 4 p ++ zs) (hpos : 0 < p.length) (hp : p.length ≤ maxFrame)
    (hmsg : codec.fromSlice p = .ok msg) (hle : p.length + 4 ≤ w.input.length) :
    w.front codec = some ({ w with input := w.input.drop (p.length + 4) }, .ok msg) := by
  have hfour : 4 ≤ w.input.length := by omega
  have hsize : value (w.input.take 4) = p.length :=
    value_take h hfour (Nat.lt_of_le_of_lt hp (by decide))
  have hin : ¬ (p.length = 0 ∨ maxFrame < p.length) := by omega
  simp only [Framed.front, if_pos hfour, hsize, if_neg hin, if_pos hle, take_first h hle, hmsg]

/-- An empty buffer holds no frame. -/
lemma front_of_nil {w : Framed} (h : w.input = []) : w.front codec = none := by
  rw [Framed.front, if_neg (by rw [h]; decide)]

/-! ### The invariant -/

/-- A message that is on the way, with its text. -/
structure Waiting (codec : Codec M) where
  msg : M
  json : List UInt8
  encoded : codec.toVec msg = .ok json
  pos : 0 < json.length
  le : json.length ≤ maxFrame

/-- What is on the way is what was accepted and not yet received, byte for byte. -/
structure Carried (codec : Codec M) (s : Link M) : Prop where
  sound : s.sender.Sound
  receives_ok : ∀ r ∈ s.receives, ∃ msg, r = .ok msg
  flushes_ok : ∀ r ∈ s.flushes, r = .ok ()
  waiting : ∃ waiting : List (Waiting codec),
    s.accepted = s.received ++ waiting.map Waiting.msg ∧
      s.onTheWay = stream 4 (waiting.map Waiting.json)

lemma carried_new : Carried codec ({} : Link M) := by
  refine ⟨Framed.sound_new, ?_, ?_, [], rfl, rfl⟩
  · intro r h
    cases h
  · intro r h
    cases h

/-- The messages received after a call has returned. -/
lemma received_append (s : Link M) (receiver : Framed) (pipe : List UInt8)
    (results : List (Except IoError (Option M))) :
    ({ s with receiver, pipe, receives := s.receives ++ results } : Link M).received =
      s.received ++ results.filterMap yield := by
  rw [received, List.filterMap_append]
  rfl

/-- A message that is accepted waits behind the others. -/
lemma Carried.send {s : Link M} (hs : s.Carried codec) {msg : M} {sender : Framed}
    (h : s.sender.send codec msg = .ok sender) :
    Carried codec { s with sender, accepted := s.accepted ++ [msg] } := by
  obtain ⟨json, hjson, hsend⟩ := Framed.send_ok h
  obtain ⟨hpos, hle, -, -⟩ := Framed.sendJson_ok hsend
  obtain ⟨waiting, haccepted, hway⟩ := hs.waiting
  refine ⟨hs.sound.send hsend, hs.receives_ok, hs.flushes_ok,
    waiting ++ [⟨msg, json, hjson, hpos, hle⟩], ?_, ?_⟩
  · rw [List.map_append, ← List.append_assoc]
    exact congrArg (· ++ [msg]) haccepted
  · rw [onTheWay] at hway
    rw [onTheWay, hs.sound.unsent_send hsend, List.map_append, stream_append, ← hway]
    simp [stream]

/-- What a turn of `flush` moves stays on the way. -/
lemma Carried.write {s : Link M} (hs : s.Carried codec) (hout : s.sender.output ≠ []) {n : ℕ}
    (hpos : 0 < n) (hn : n ≤ s.sender.offered.length) :
    ∃ sender, s.sender.flushTurn (.ok n) = (sender, .again) ∧
      s.sender.unsent.length = n + sender.unsent.length ∧
      Carried codec { s with sender, pipe := s.pipe ++ s.sender.offered.take n } := by
  obtain ⟨sender, hturn, hsound, -, hunsent, -⟩ := hs.sound.flushTurn hout hpos hn
  obtain ⟨waiting, haccepted, hway⟩ := hs.waiting
  refine ⟨sender, hturn, ?_, hsound, hs.receives_ok, hs.flushes_ok, waiting, haccepted, ?_⟩
  · rw [hunsent, List.length_append, List.length_take_of_le hn]
  · rw [onTheWay, hunsent] at hway
    rw [onTheWay, ← hway]
    simp only [List.append_assoc]

/-- What a turn of `receive` reads stays on the way. -/
lemma Carried.read {s : Link M} (hs : s.Carried codec) (n : ℕ) :
    Carried codec { s with
      receiver := { s.receiver with input := s.receiver.input ++ s.pipe.take n }
      pipe := s.pipe.drop n } := by
  obtain ⟨waiting, haccepted, hway⟩ := hs.waiting
  refine ⟨hs.sound, hs.receives_ok, hs.flushes_ok, waiting, haccepted, ?_⟩
  rw [onTheWay] at hway
  rw [onTheWay, ← hway, List.append_assoc, ← List.append_assoc (s.pipe.take n),
    List.take_append_drop]

/-- **A frame that is found is the first message on the way**, and it is whole. -/
lemma Carried.front (hcodec : codec.RoundTrips) {s : Link M} (hs : s.Carried codec)
    {found : Framed × Except IoError M} (h : s.receiver.front codec = some found) :
    ∃ msg receiver, found = (receiver, .ok msg) ∧
      receiver.input.length < s.receiver.input.length ∧
      Carried codec { s with receiver, receives := s.receives ++ [.ok (some msg)] } := by
  obtain ⟨waiting, haccepted, hway⟩ := hs.waiting
  cases waiting with
  | nil =>
      -- nothing is on the way, so nothing can be found
      have hnil : s.receiver.input = [] := (List.append_eq_nil_iff.mp hway).1
      rw [front_of_nil hnil] at h
      cases h
  | cons first rest =>
      by_cases hle : first.json.length + 4 ≤ s.receiver.input.length
      · have hmsg := hcodec first.msg first.json first.encoded
        rw [front_of_le hway first.pos first.le hmsg hle, Option.some.injEq] at h
        refine ⟨first.msg, _, h.symm, ?_, hs.sound, ?_, hs.flushes_ok, rest, ?_, ?_⟩
        · rw [List.length_drop]
          omega
        · intro r hr
          rcases List.mem_append.mp hr with hold | hnew
          · exact hs.receives_ok r hold
          · exact ⟨some first.msg, List.mem_singleton.mp hnew⟩
        · rw [received_append s _ s.pipe, haccepted, List.map_cons, List.append_cons]
          rfl
        · exact drop_first hway hle
      · rw [front_of_lt hway first.pos first.le (by omega)] at h
        cases h

/-! ### What a step does -/

/-- What a step does when the messages on the way are carried. -/
inductive Moves (codec : Codec M) (s : Link M) : LinkLabel M → Link M → Prop
  | refused (msg : M) : Moves codec s (.send msg) s
  | accepted (msg : M) (sender : Framed) : s.sender.send codec msg = .ok sender →
      Moves codec s (.send msg) { s with sender, accepted := s.accepted ++ [msg] }
  | flushIdle (answer : Written) (results : List (Except IoError Unit)) :
      (∀ r ∈ results, r = .ok ()) →
      Moves codec s (.flush answer) { s with flushes := s.flushes ++ results }
  | wrote (n : ℕ) (sender : Framed) : 0 < n → s.sender.unsent.length = n + sender.unsent.length →
      Carried codec { s with sender, pipe := s.pipe ++ s.sender.offered.take n } →
      n ≤ s.sender.offered.length →
      Moves codec s (.flush (.ok n)) { s with sender, pipe := s.pipe ++ s.sender.offered.take n }
  | receiveIdle (answer : Written) (results : List (Except IoError (Option M))) :
      (∀ r ∈ results, r = .ok none) →
      Moves codec s (.receive answer) { s with receives := s.receives ++ results }
  | read (n : ℕ) : 0 < n → n ≤ s.pipe.length →
      Moves codec s (.receive (.ok n)) { s with
        receiver := { s.receiver with input := s.receiver.input ++ s.pipe.take n }
        pipe := s.pipe.drop n }
  | yielded (answer : Written) (receiver : Framed) (msg : M) :
      receiver.input.length < s.receiver.input.length →
      Carried codec { s with receiver, receives := s.receives ++ [.ok (some msg)] } →
      Moves codec s (.receive answer)
        { s with receiver, receives := s.receives ++ [.ok (some msg)] }

/-- The turns of `flush`. -/
lemma moves_flush {s s' : Link M} (hs : s.Carried codec) {answer : Written}
    (h : step codec s (.flush answer) = some s') : Moves codec s (.flush answer) s' := by
  rw [step] at h
  split_ifs at h with hout hallows
  · have hturn : s.sender.flushTurn answer = (s.sender, .returned (.ok ())) := by
      rw [Framed.flushTurn.eq_def, hout]
    rw [hturn] at h
    obtain rfl := Option.some.inj h
    exact .flushIdle answer _ fun r hr => List.mem_singleton.mp hr
  · obtain ⟨frame, rest, houtput⟩ := List.exists_cons_of_ne_nil hout
    cases answer with
    | ok n =>
        obtain ⟨sender, hturn, hunsent, hcarried⟩ := hs.write hout hallows.1 hallows.2
        rw [hturn] at h
        obtain rfl := Option.some.inj h
        simp only [ended, moved, List.append_nil]
        exact .wrote n sender hallows.1 hunsent hcarried hallows.2
    | wouldBlock =>
        have hturn : s.sender.flushTurn .wouldBlock = (s.sender, .returned (.ok ())) := by
          simp only [Framed.flushTurn, houtput]
        rw [hturn] at h
        obtain rfl := Option.some.inj h
        simp only [moved, List.take_zero, List.append_nil]
        exact .flushIdle _ _ fun r hr => List.mem_singleton.mp hr
    | interrupted =>
        have hturn : s.sender.flushTurn .interrupted = (s.sender, .again) := by
          simp only [Framed.flushTurn, houtput]
        rw [hturn] at h
        obtain rfl := Option.some.inj h
        simp only [moved, List.take_zero, List.append_nil]
        exact .flushIdle _ _ fun r hr => absurd hr List.not_mem_nil
    | failed text => exact hallows.elim

/-- The turns of `receive`. -/
lemma moves_receive (hcodec : codec.RoundTrips) {s s' : Link M} (hs : s.Carried codec)
    {answer : Written} (h : step codec s (.receive answer) = some s') :
    Moves codec s (.receive answer) s' := by
  rw [step] at h
  cases hfront : s.receiver.front codec with
  | some found =>
      obtain ⟨msg, receiver, rfl, hlt, hcarried⟩ := hs.front hcodec hfront
      simp only [hfront, Framed.receiveTurn] at h
      obtain rfl := Option.some.inj h
      exact .yielded answer receiver msg hlt hcarried
  | none =>
      simp only [hfront, Framed.receiveTurn] at h
      split_ifs at h with hallows
      obtain rfl := Option.some.inj h
      cases answer with
      | ok n =>
          obtain ⟨hpos, hmin⟩ := hallows
          have hn : n ≤ s.pipe.length := (Nat.le_min.mp hmin).2
          obtain ⟨b, bs, htake⟩ : ∃ b bs, s.pipe.take n = b :: bs := by
            refine List.exists_cons_of_ne_nil (List.ne_nil_of_length_pos ?_)
            rw [List.length_take_of_le hn]
            exact hpos
          have hread : Moves codec s (.receive (.ok n)) _ := .read n hpos hn
          rw [htake] at hread
          simp only [hand, htake, moved, ended, List.append_nil]
          exact hread
      | wouldBlock => exact .receiveIdle _ _ fun r hr => List.mem_singleton.mp hr
      | interrupted => exact .receiveIdle _ _ fun r hr => absurd hr List.not_mem_nil
      | failed text => exact hallows.elim

/-- Every step does one of these. -/
lemma moves_step (hcodec : codec.RoundTrips) {s s' : Link M} (hs : s.Carried codec)
    {l : LinkLabel M} (h : step codec s l = some s') : Moves codec s l s' := by
  cases l with
  | send msg =>
      rw [step] at h
      cases hsend : s.sender.send codec msg with
      | error e =>
          rw [hsend] at h
          obtain rfl := Option.some.inj h
          exact .refused msg
      | ok sender =>
          rw [hsend] at h
          obtain rfl := Option.some.inj h
          exact .accepted msg sender hsend
  | flush answer => exact moves_flush hs h
  | receive answer => exact moves_receive hcodec hs h

/-- The messages stay carried. -/
lemma Moves.carried {s s' : Link M} {l : LinkLabel M} (h : Moves codec s l s')
    (hs : s.Carried codec) : s'.Carried codec := by
  cases h with
  | refused msg => exact hs
  | accepted msg sender hsend => exact hs.send hsend
  | flushIdle answer results hok =>
      refine ⟨hs.sound, hs.receives_ok, ?_, hs.waiting⟩
      intro r hr
      rcases List.mem_append.mp hr with hold | hnew
      · exact hs.flushes_ok r hold
      · exact hok r hnew
  | wrote n sender hpos hunsent hcarried hn => exact hcarried
  | receiveIdle answer results hok =>
      have hnone : results.filterMap yield = [] := by
        rw [List.filterMap_eq_nil_iff]
        intro r hr
        rw [hok r hr]
        rfl
      obtain ⟨waiting, haccepted, hway⟩ := hs.waiting
      refine ⟨hs.sound, ?_, hs.flushes_ok, waiting, ?_, hway⟩
      · intro r hr
        rcases List.mem_append.mp hr with hold | hnew
        · exact hs.receives_ok r hold
        · exact ⟨none, hok r hnew⟩
      · rw [received_append s s.receiver s.pipe results, hnone, List.append_nil]
        exact haccepted
  | read n hpos hn => exact hs.read n
  | yielded answer receiver msg hlt hcarried => exact hcarried

/-- The messages on the way are carried in every state reached. -/
lemma carried_of_reaches (hcodec : codec.RoundTrips) {s : Link M}
    (h : Reaches (step codec) Always {} s) : s.Carried codec :=
  h.invariant carried_new fun _ _ _ ha _ hb => (moves_step hcodec ha hb).carried ha

/-! ### Progress -/

/-- How far the bytes on the way are from having been received: a byte goes from unsent into the
stream, from there into the buffer, and out of it. -/
def left (s : Link M) : ℕ :=
  3 * s.sender.unsent.length + 2 * s.pipe.length + s.receiver.input.length

/-- A turn never raises what is left, and lowers it unless it leaves the ends and the stream
as they are. -/
lemma Moves.left_le {s s' : Link M} {l : LinkLabel M} (h : Moves codec s l s') (hl : l.IsTurn) :
    s'.left < s.left ∨
      s'.sender = s.sender ∧ s'.pipe = s.pipe ∧ s'.receiver = s.receiver := by
  cases h with
  | refused msg => exact hl.elim
  | accepted msg sender hsend => exact hl.elim
  | flushIdle answer results hok => exact .inr ⟨rfl, rfl, rfl⟩
  | wrote n sender hpos hunsent hcarried hn =>
      left
      have htake : (s.sender.offered.take n).length = n := List.length_take_of_le hn
      simp only [Link.left, List.length_append, htake, hunsent]
      omega
  | receiveIdle answer results hok => exact .inr ⟨rfl, rfl, rfl⟩
  | read n hpos hn =>
      left
      have htake : (s.pipe.take n).length = n := List.length_take_of_le hn
      simp only [Link.left, List.length_append, List.length_drop, htake]
      omega
  | yielded answer receiver msg hlt hcarried =>
      left
      simp only [Link.left]
      omega

/-- Everything has been received exactly when nothing is left. -/
lemma Carried.left_eq_zero {s : Link M} (hs : s.Carried codec) :
    s.left = 0 ↔ s.received = s.accepted := by
  obtain ⟨waiting, haccepted, hway⟩ := hs.waiting
  have hlength := congrArg List.length hway
  simp only [onTheWay, List.length_append] at hlength
  cases waiting with
  | nil =>
      rw [List.map_nil, stream_nil, List.length_nil] at hlength
      rw [List.map_nil, List.append_nil] at haccepted
      refine ⟨fun _ => haccepted.symm, fun _ => ?_⟩
      simp only [left]
      omega
  | cons first rest =>
      rw [List.map_cons, stream_cons, List.length_append, length_prefixed] at hlength
      constructor
      · intro hleft
        simp only [left] at hleft
        omega
      · intro heq
        have hcount := congrArg List.length haccepted
        rw [heq, List.length_append, List.length_map, List.length_cons] at hcount
        omega

/-- When nothing is unsent, the stream is empty and no frame is found, nothing is left: a message
that were still on the way would be whole in the buffer. -/
lemma Carried.left_of_still (hcodec : codec.RoundTrips) {s : Link M} (hs : s.Carried codec)
    (hout : s.sender.output = []) (hpipe : s.pipe = [])
    (hfront : s.receiver.front codec = none) : s.left = 0 := by
  have hunsent : s.sender.unsent = [] := hs.sound.unsent_eq_nil.mpr hout
  obtain ⟨waiting, haccepted, hway⟩ := hs.waiting
  have hinput : s.receiver.input ++ [] = stream 4 (waiting.map Waiting.json) := by
    rw [← hway, onTheWay, hpipe, hunsent]
    rfl
  cases waiting with
  | nil =>
      have hnil : s.receiver.input = [] := (List.append_eq_nil_iff.mp hinput).1
      simp [left, hunsent, hpipe, hnil]
  | cons first rest =>
      exfalso
      have hmsg := hcodec first.msg first.json first.encoded
      have hle : first.json.length + 4 ≤ s.receiver.input.length := by
        have hlen := congrArg List.length hinput
        rw [List.append_nil, List.map_cons, stream_cons, List.length_append,
          length_prefixed] at hlen
        omega
      rw [front_of_le hinput first.pos first.le hmsg hle] at hfront
      cases hfront

/-- A turn of `receive` that reads a byte lowers what is left. -/
lemma Carried.exists_read {s : Link M} (hpipe : s.pipe ≠ [])
    (hcodec : codec.RoundTrips) (hs : s.Carried codec) (hfront : s.receiver.front codec = none) :
    ∃ s', step codec s (.receive (.ok 1)) = some s' ∧ s'.left < s.left := by
  have hpos : 0 < s.pipe.length := List.length_pos_iff.mpr hpipe
  have hallows : Allows (min 4096 s.pipe.length) (.ok 1) :=
    ⟨by decide, Nat.le_min.mpr ⟨by decide, hpos⟩⟩
  have hstep : step codec s (.receive (.ok 1)) = some { s with
      receiver := (s.receiver.receiveTurn codec (hand s.pipe (.ok 1))).1
      pipe := s.pipe.drop 1
      receives := s.receives ++
        ended (s.receiver.receiveTurn codec (hand s.pipe (.ok 1))).2 } := by
    rw [step]
    simp only [hfront, if_pos hallows]
    rfl
  refine ⟨_, hstep, ?_⟩
  rcases (moves_step hcodec hs hstep).left_le trivial with hlt | ⟨-, hsame, -⟩
  · exact hlt
  · have hlen := congrArg List.length hsame
    simp only [List.length_drop] at hlen
    omega

/-- As long as something is left, a turn can lower it. -/
lemma Carried.exists_turn (hcodec : codec.RoundTrips) {s : Link M} (hs : s.Carried codec)
    (hleft : s.left ≠ 0) :
    ∃ l s', l.IsTurn ∧ step codec s l = some s' ∧ s'.left < s.left := by
  by_cases hout : s.sender.output = []
  · cases hfront : s.receiver.front codec with
    | some found =>
        obtain ⟨msg, receiver, rfl, hlt, -⟩ := hs.front hcodec hfront
        refine ⟨.receive .wouldBlock, _, trivial, by rw [step]; simp only [hfront]; rfl, ?_⟩
        simp only [left, Framed.receiveTurn, hfront]
        omega
    | none =>
        have hpipe : s.pipe ≠ [] := fun h => hleft (hs.left_of_still hcodec hout h hfront)
        obtain ⟨s', hstep, hlt⟩ := Carried.exists_read hpipe hcodec hs hfront
        exact ⟨.receive (.ok 1), s', trivial, hstep, hlt⟩
  · have hpos := hs.sound.offered_pos hout
    obtain ⟨sender, hturn, hunsent, -⟩ := hs.write hout (n := 1) (by decide) hpos
    refine ⟨.flush (.ok 1), _, trivial,
      by rw [step, if_neg hout, if_pos (show Allows _ (.ok 1) from ⟨by decide, hpos⟩)], ?_⟩
    simp only [left, hturn, moved, List.length_append, List.length_take_of_le hpos, hunsent]
    omega

/-- From any state the turns alone can bring over everything that has been accepted. -/
lemma Carried.drains (hcodec : codec.RoundTrips) {s : Link M} (hs : s.Carried codec) :
    ∃ s', Reaches (step codec) (fun _ l => l.IsTurn) s s' ∧ s'.received = s.accepted := by
  induction hn : s.left using Nat.strongRecOn generalizing s with
  | _ n ih =>
      by_cases hleft : s.left = 0
      · exact ⟨s, .refl, hs.left_eq_zero.mp hleft⟩
      · obtain ⟨l, s₁, hturn, hstep, hlt⟩ := hs.exists_turn hcodec hleft
        have hmoves := moves_step hcodec hs hstep
        have haccepted : s₁.accepted = s.accepted := by
          cases hmoves with
          | refused msg => exact hturn.elim
          | accepted msg sender hsend => exact hturn.elim
          | _ => rfl
        obtain ⟨s', hreach, heq⟩ := ih s₁.left (hn ▸ hlt) (hmoves.carried hs) rfl
        have hfirst : Reaches (step codec) (fun _ l => l.IsTurn) s s₁ :=
          Reaches.tail .refl hturn hstep
        exact ⟨s', hfirst.trans hreach, heq.trans haccepted⟩

/-! ### Main results -/

/-- What a framed transport is for. -/
structure Exact (codec : Codec M) (s : Link M) : Prop where
  /-- No call of `receive` has failed. -/
  receives_ok : ∀ r ∈ s.receives, ∃ msg, r = .ok msg
  /-- No call of `flush` has failed. -/
  flushes_ok : ∀ r ∈ s.flushes, r = .ok ()
  /-- The messages received are the first of those accepted, in their order. -/
  in_order : s.received <+: s.accepted
  /-- When nothing is unsent, the stream is empty and `receive` would read on, everything that
  has been accepted has been received. -/
  complete : s.sender.output = [] → s.pipe = [] → s.receiver.front codec = none →
    s.received = s.accepted
  /-- As long as something has not been received, a turn can bring it closer; -/
  progress : s.received ≠ s.accepted →
    ∃ l s', l.IsTurn ∧ step codec s l = some s' ∧ s'.left < s.left
  /-- every turn that changes anything does so, -/
  no_return : ∀ l s', l.IsTurn → step codec s l = some s' → s'.left < s.left ∨
    s'.sender = s.sender ∧ s'.pipe = s.pipe ∧ s'.receiver = s.receiver
  /-- and turns alone can bring over all of it. -/
  drains : ∃ s', Reaches (step codec) (fun _ l => l.IsTurn) s s' ∧ s'.received = s.accepted
  /-- `queued` counts the bytes that are unsent. -/
  queued_eq : s.sender.queued = s.sender.unsent.length
  queued_le : s.sender.queued ≤ maxBuffer
  /-- A frame that `send` would accept now is one that `receive` takes. -/
  accepts : ∀ msg sender, s.sender.send codec msg = .ok sender →
    ∃ frame, sender.output = s.sender.output ++ [frame] ∧ ∀ (w : Framed) more,
      w.input = frame ++ more → w.front codec = some ({ w with input := more }, .ok msg)

end Link

/-- **The framed transport delivers exactly once and in order**, for every sequence of messages,
every splitting of the writes and every chunking of the reads. -/
theorem delivered_once_in_order {codec : Codec M} (hcodec : codec.RoundTrips) {s : Link M}
    (h : Reaches (Link.step codec) Always {} s) : s.Exact codec := by
  have hs : s.Carried codec := Link.carried_of_reaches hcodec h
  obtain ⟨waiting, haccepted, -⟩ := hs.waiting
  refine ⟨hs.receives_ok, hs.flushes_ok, ⟨_, haccepted.symm⟩, ?_, ?_, ?_, hs.drains hcodec,
    hs.sound.queued_eq, hs.sound.queued_le, ?_⟩
  · intro hout hpipe hfront
    exact hs.left_eq_zero.mp (hs.left_of_still hcodec hout hpipe hfront)
  · intro hne
    exact hs.exists_turn hcodec fun hleft => hne (hs.left_eq_zero.mp hleft)
  · intro l s' hturn hstep
    exact (Link.moves_step hcodec hs hstep).left_le hturn
  · intro msg sender hsend
    obtain ⟨json, hjson, hqueue⟩ := Framed.send_ok hsend
    obtain ⟨hpos, hle, -, rfl⟩ := Framed.sendJson_ok hqueue
    refine ⟨prefixed 4 json, rfl, fun w more hinput => ?_⟩
    have hsplit : w.input ++ [] = prefixed 4 json ++ more := by rw [List.append_nil, hinput]
    have hwhole : json.length + 4 ≤ w.input.length := by
      rw [hinput, List.length_append, length_prefixed]
      omega
    rw [Link.front_of_le hsplit hpos hle (hcodec msg json hjson) hwhole]
    have hrest := drop_first hsplit hwhole
    rw [List.append_nil] at hrest
    rw [hrest]

/-- The texts `true` and `false`, as `serde_json` writes and reads them. -/
def boolCodec : Codec Bool where
  toVec msg := .ok (if msg then [116, 114, 117, 101] else [102, 97, 108, 115, 101])
  fromSlice json :=
    if json = [116, 114, 117, 101] then .ok true
    else if json = [102, 97, 108, 115, 101] then .ok false
    else .error (.json "expected value at line 1 column 1")

lemma boolCodec_roundTrips : boolCodec.RoundTrips := by
  intro msg json h
  cases msg with
  | false =>
      obtain rfl := Except.ok.inj h
      rfl
  | true =>
      obtain rfl := Except.ok.inj h
      rfl

/-- Two messages, the first cut inside its length, and the end of the first read together with
the start of the second. -/
def splitScript : List (LinkLabel Bool) :=
  [.send true, .send false, .flush (.ok 3), .receive (.ok 2), .receive .interrupted,
    .flush .wouldBlock, .receive (.ok 1), .receive .wouldBlock, .flush (.ok 5), .flush (.ok 4),
    .receive (.ok 9), .receive .wouldBlock, .flush (.ok 5)]

/-- After that script the first message has been received and the second has not. -/
theorem delivered_once_in_order_split :
    let s := play (Link.step boolCodec) {} splitScript
    s.Exact boolCodec ∧ s.received = [true] ∧ s.accepted = [true, false] := by
  intro s
  refine ⟨delivered_once_in_order boolCodec_roundTrips (.of_play _ _ _), ?_, ?_⟩
  · decide +kernel
  · decide +kernel

end Jackstay.Framing
