import Jackstay.Affordances.Normal
import Jackstay.Affordances.Channel

/-!
What an end queues, the other end can read: `decode` never fails on the message of a
conforming peer. `decode` reads the JSON value; that its text is read back, at any depth of
nesting, is up to the codec.

* `enqueueLocked_cases`, `publish_cases`, `send_cases`: what the calls do;
* `decode_wire`, `decode_verbWire`: what the other end makes of the messages;
* `Channel.Conforming`, `queued_decodes`: **every message that is queued decodes**, to the
  snapshot that was stored or to the verb that was sent, and a call that fails leaves
  the snapshots and the queue.
-/

namespace Jackstay.Affordances

namespace Channel

variable {json : JsonText} {c c' : Channel}

/-- `enqueue_locked` appends the message, or leaves the state. -/
lemma enqueueLocked_cases (json : JsonText) (c : Channel) (message : Value) :
    (∃ e stop, c.enqueueLocked json message = ({ c with stop }, .error e)) ∨
      c.enqueueLocked json message = ({ c with
        state := { c.state with
          bytes := c.state.bytes + ((json.toVec message).length + 4)
          outgoing := c.state.outgoing ++ [message] }
        accepted := c.accepted ++ [message] }, .ok ()) ∧
        c.state.alive = true ∧ c.stop = false ∧ (json.toVec message).length + 4 ≤ 131076 ∧
        c.state.bytes + c.state.wireBytes + ((json.toVec message).length + 4) ≤ 524288 := by
  rw [enqueueLocked]
  by_cases hdead : c.state.alive = false ∨ c.stop = true
  · rw [if_pos hdead]
    exact .inl ⟨.brokenPipe, c.stop, rfl⟩
  · rw [if_neg hdead]
    obtain ⟨halive, hstop⟩ := not_or.mp hdead
    by_cases hbound : 131076 < (json.toVec message).length + 4 ∨
        524288 < c.state.bytes + c.state.wireBytes + ((json.toVec message).length + 4)
    · rw [if_pos hbound]
      exact .inl ⟨_, true, rfl⟩
    · rw [if_neg hbound]
      obtain ⟨hframe, hbuffer⟩ := not_or.mp hbound
      exact .inr ⟨rfl, by simpa using halive, by simpa using hstop, Nat.not_lt.mp hframe,
        Nat.not_lt.mp hbuffer⟩

/-- `publish` queues the message of the normal snapshot and stores it, or leaves the state. -/
lemma publish_cases (json : JsonText) (c : Channel) (v : Snapshot) :
    (∃ e stop, c.publish json v = ({ c with stop }, .error e)) ∨
      ∃ w, decide (v.domain = .presentation) = !c.producer ∧
        parseSnapshot v.domain v.body = .ok w ∧
        c.enqueueLocked json w.wire = ((c.enqueueLocked json w.wire).1, .ok ()) ∧
        c.publish json v = ({ (c.enqueueLocked json w.wire).1 with
          state := (c.enqueueLocked json w.wire).1.state.store w
          published := c.published ++ [w] }, .ok ()) := by
  rw [publish]
  by_cases hrefuses : c.refuses v = true
  · rw [if_pos hrefuses]
    exact .inl ⟨.invalid, c.stop, rfl⟩
  · rw [if_neg hrefuses]
    cases hparse : parseSnapshot v.domain v.body with
    | error e => exact .inl ⟨e, c.stop, rfl⟩
    | ok w =>
        rcases enqueueLocked_cases json c w.wire with ⟨e, stop, hfail⟩ | ⟨hqueue, -⟩
        · simp only [hfail]
          exact .inl ⟨e, stop, rfl⟩
        · simp only [hqueue]
          refine .inr ⟨w, ?_, rfl, by rw [hqueue], by rw [hqueue]⟩
          have hdirection : ¬ (decide (v.domain = .presentation) == c.producer) = true := by
            intro heq
            exact hrefuses (by simp only [refuses, heq, Bool.true_or])
          rw [beq_iff_eq] at hdirection
          exact Bool.eq_not_of_ne hdirection

/-- `send` queues the message of a verb that is known and valid, or leaves the state. -/
lemma send_cases (json : JsonText) (c : Channel) (v : Verb) :
    (∃ e stop, c.send json v = ({ c with stop }, .error e)) ∨
      knownVerb v.domain v.name = true ∧ validateVerb v = .ok true ∧
        c.send json v = c.enqueueLocked json (verbWire v) ∧
        c.enqueueLocked json (verbWire v) = ((c.enqueueLocked json (verbWire v)).1, .ok ()) := by
  rw [send]
  by_cases hknown : knownVerb v.domain v.name = false
  · rw [if_pos hknown]
    exact .inl ⟨.invalid, c.stop, rfl⟩
  · rw [if_neg hknown]
    cases hvalid : validateVerb v with
    | error e => exact .inl ⟨e, c.stop, rfl⟩
    | ok valid =>
        cases valid with
        | false => exact .inl ⟨.invalid, c.stop, rfl⟩
        | true =>
            rcases enqueueLocked_cases json c (verbWire v) with ⟨e, stop, hfail⟩ | ⟨hqueue, -⟩
            · exact .inl ⟨e, stop, hfail⟩
            · exact .inr ⟨by simpa using hknown, rfl, rfl, by rw [hqueue]⟩

end Channel

/-! ### The messages at the other end -/

lemma Domain.parse_name (d : Domain) : Domain.parse d.name = some d := by
  cases d <;> rfl

/-- The other end reads a snapshot as it was stored. -/
lemma decode_wire {w : Snapshot} (h : w.Normal) {producer : Bool}
    (hdirection : decide (w.domain = .presentation) = producer) (peer : State) :
    decode w.wire peer producer = .ok (some (.snapshot w)) := by
  have hdomain : orInvalid ((w.wire.get "domain").bind Value.asStr) = .ok w.domain.name := rfl
  have hbody : orInvalid (w.wire.get "body") = .ok w.body := rfl
  have hrefuse : refuse (decide (w.domain = .presentation) ≠ producer) = .ok () :=
    refuse_of_not (not_not.mpr hdirection)
  rw [decode, hdomain, hbody]
  simp only [bind_ok, Domain.parse_name]
  show (refuse (decide (w.domain = .presentation) ≠ producer) >>= _) = _
  rw [hrefuse, bind_ok, parse_of_normal h]
  rfl

lemma hasVerbs_of_known {d : Domain} {name : String} (h : knownVerb d name = true) :
    d.hasVerbs = true := by
  cases d with
  | media | navigation | scroll => rfl
  | cursor | window | presentation => cases h

/-- A verb with a valid body is delivered or passed over. -/
lemma decodeVerb_of_valid {v : Verb} (hvalid : validateVerb v = .ok true) (snapshot : Snapshot)
    {o : Value} (ho : o.get "body" = some v.body) :
    decodeVerb snapshot v.domain v.name o = .ok none ∨
      decodeVerb snapshot v.domain v.name o = .ok (some (.verb v)) := by
  rw [decodeVerb, ho]
  split_ifs with hgate
  · exact .inl rfl
  · have hverb : validateVerb ⟨v.domain, v.name, v.body⟩ = .ok true := hvalid
    simp only [orInvalid, bind_ok, hverb]
    cases snapshot with
    | scroll scroll =>
        by_cases haxis : (v.body.index "axis").asStr = some "x" ∧ scroll.x.scrollable = false ∨
            (v.body.index "axis").asStr = some "y" ∧ scroll.y.scrollable = false
        · left
          simp only [haxis, if_true]
          rfl
        · right
          simp only [haxis, if_false]
          rfl
    | _ => exact .inr rfl

/-- The other end reads a verb as it was sent, or passes it over. -/
lemma decode_verbWire {v : Verb} (hknown : knownVerb v.domain v.name = true)
    (hvalid : validateVerb v = .ok true) (peer : State) :
    decode (Channel.verbWire v) peer true = .ok none ∨
      decode (Channel.verbWire v) peer true = .ok (some (.verb v)) := by
  have hdomain : orInvalid (((Channel.verbWire v).get "domain").bind Value.asStr) =
      .ok v.domain.name := rfl
  have hname : orInvalid (((Channel.verbWire v).get "verb").bind Value.asStr) = .ok v.name := rfl
  have hrefuse : refuse (true = false ∨ v.domain.hasVerbs = false) = .ok () := by
    refine refuse_of_not ?_
    rw [hasVerbs_of_known hknown]
    decide
  have hdecode : decode (Channel.verbWire v) peer true =
      (peer.snapshot v.domain).elim (.ok none)
        fun snapshot => decodeVerb snapshot v.domain v.name (Channel.verbWire v) := by
    rw [decode, hdomain, hname]
    simp only [bind_ok, Domain.parse_name]
    show (refuse (true = false ∨ v.domain.hasVerbs = false) >>= _) = _
    rw [hrefuse, bind_ok, hknown, if_neg (by decide)]
    cases peer.snapshot v.domain <;> rfl
  rw [hdecode]
  cases peer.snapshot v.domain with
  | none => exact .inl rfl
  | some snapshot => exact decodeVerb_of_valid hvalid snapshot rfl

/-! ### Main result -/

/-- What a conforming end promises about its calls. -/
structure Channel.Conforming (json : JsonText) (c : Channel) : Prop where
  /-- A snapshot that `publish` accepts is stored in its normal form, and a withdrawal takes the
  snapshot away; the message that is queued decodes at the other end, in whatever state it is,
  to what was stored. -/
  publish : ∀ v c', c.publish json v = (c', .ok ()) →
    ∃ w, parseSnapshot v.domain v.body = .ok w ∧
      c'.state.outgoing = c.state.outgoing ++ [w.wire] ∧ c'.published = c.published ++ [w] ∧
      (∀ d, v = .withdraw d → w = .withdraw d ∧ c'.state.snapshot d = none) ∧
      ((∀ d, v ≠ .withdraw d) → c'.state.snapshot v.domain = some w) ∧
      ∀ peer : State, decode w.wire peer (!c.producer) = .ok (some (.snapshot w))
  /-- A verb that `send` accepts decodes to itself or to nothing. -/
  send : c.producer = false → ∀ v c', c.send json v = (c', .ok ()) →
    c'.state.outgoing = c.state.outgoing ++ [verbWire v] ∧
      ∀ peer : State, decode (verbWire v) peer true = .ok none ∨
        decode (verbWire v) peer true = .ok (some (.verb v))
  /-- `parse_snapshot` is idempotent. -/
  idempotent : ∀ d b w, parseSnapshot d b = .ok w → parseSnapshot d w.body = .ok w
  /-- A call that fails leaves the state. -/
  publish_failed : ∀ v c' e, c.publish json v = (c', .error e) → c'.state = c.state
  send_failed : ∀ v c' e, c.send json v = (c', .error e) → c'.state = c.state

/-- The body of a snapshot is null only for a withdrawal. -/
lemma Snapshot.isNull_body {v : Snapshot} (h : ∀ d, v ≠ .withdraw d) : v.body.isNull = false := by
  cases v with
  | withdraw d => exact absurd rfl (h d)
  | _ => rfl

/-- What has been stored is the snapshot of its domain. -/
lemma State.snapshot_store (s : State) {w : Snapshot} (h : ∀ d, w ≠ .withdraw d) :
    (s.store w).snapshot w.domain = some w := by
  have hstore : s.store w = { s with snapshots := s.snapshots.insert w.domain.index w } := by
    cases w with
    | withdraw d => exact absurd rfl (h d)
    | _ => rfl
  rw [hstore, State.snapshot, BTreeMap.get_insert, if_pos rfl]

lemma State.snapshot_withdraw (s : State) (d : Domain) :
    (s.store (.withdraw d)).snapshot d = none := by
  rw [State.store, State.snapshot, BTreeMap.get_remove, if_pos rfl]

lemma State.outgoing_store (s : State) (w : Snapshot) : (s.store w).outgoing = s.outgoing := by
  cases w <;> rfl

/-- **`decode` accepts every message that a conforming peer queues**, in whatever state the two
ends are. -/
theorem queued_decodes (json : JsonText) (c : Channel) : c.Conforming json := by
  refine ⟨?_, ?_, ?_, ?_, ?_⟩
  · intro v c' h
    rcases Channel.publish_cases json c v with ⟨e, stop, hfail⟩ | ⟨w, hdirection, hparse, hok, hdone⟩
    · rw [hfail] at h
      cases (Prod.mk.inj h).2
    · obtain ⟨hnormal, hdomain, hne⟩ := normal_of_parse hparse
      rcases Channel.enqueueLocked_cases json c w.wire with ⟨e, stop, hfail⟩ | ⟨hqueue, -⟩
      · rw [hfail] at hok
        cases (Prod.mk.inj hok).2
      rw [hdone] at h
      obtain rfl := (Prod.mk.inj h).1
      refine ⟨w, hparse, ?_, rfl, ?_, ?_, ?_⟩
      · show ((c.enqueueLocked json w.wire).1.state.store w).outgoing = _
        rw [State.outgoing_store, hqueue]
      · rintro d rfl
        obtain rfl : Snapshot.withdraw d = w := Except.ok.inj hparse
        exact ⟨rfl, State.snapshot_withdraw _ d⟩
      · intro hv
        rw [← hdomain]
        exact State.snapshot_store _ (hne (Snapshot.isNull_body hv))
      · intro peer
        exact decode_wire hnormal (by rw [hdomain]; exact hdirection) peer
  · intro _ v c' h
    rcases Channel.send_cases json c v with ⟨e, stop, hfail⟩ | ⟨hknown, hvalid, hsend, hok⟩
    · rw [hfail] at h
      cases (Prod.mk.inj h).2
    · rcases Channel.enqueueLocked_cases json c (Channel.verbWire v) with
        ⟨e, stop, hfail⟩ | ⟨hqueue, -⟩
      · rw [hfail] at hok
        cases (Prod.mk.inj hok).2
      rw [hsend, hqueue] at h
      obtain rfl := (Prod.mk.inj h).1
      exact ⟨rfl, decode_verbWire hknown hvalid⟩
  · intro d b w h
    obtain ⟨hnormal, rfl, -⟩ := normal_of_parse h
    exact parse_of_normal hnormal
  · intro v c' e h
    rcases Channel.publish_cases json c v with ⟨_, stop, hfail⟩ | ⟨w, -, -, -, hdone⟩
    · rw [hfail] at h
      obtain rfl := (Prod.mk.inj h).1
      rfl
    · rw [hdone] at h
      cases (Prod.mk.inj h).2
  · intro v c' e h
    rcases Channel.send_cases json c v with ⟨_, stop, hfail⟩ | ⟨-, -, hsend, hok⟩
    · rw [hfail] at h
      obtain rfl := (Prod.mk.inj h).1
      rfl
    · rw [hsend, hok] at h
      cases (Prod.mk.inj h).2

/-- A paused player, with a capability that is not a verb of media. -/
def paused : Snapshot :=
  .media
    { status := "paused"
      position := some .zero
      rate := .zero
      duration := none
      title := none
      artwork := none
      capabilities := .collect [("play", true), ("juggle", true)] }

/-- A seek to the start. -/
def seekStart : Verb := ⟨.media, "seek_absolute", .object [("position", .number (.posInt 0))]⟩

/-- The producer stores the player without that capability, and the host reads it so; when it
is published, the producer reads the verb that the host sends. -/
theorem queued_decodes_paused :
    let c : Channel := { producer := true }
    let d : Channel := { producer := false }
    ∃ c' d' w, c.publish (jsonOf []) paused = (c', .ok ()) ∧ c'.state.outgoing = [w.wire] ∧
      ((w.body.index "capabilities").get "juggle").isNone = true ∧
      decode w.wire d.state false = .ok (some (.snapshot w)) ∧
      d.send (jsonOf []) seekStart = (d', .ok ()) ∧
      (decode (Channel.verbWire seekStart) c'.state true = .ok none ∨
        decode (Channel.verbWire seekStart) c'.state true = .ok (some (.verb seekStart))) := by
  intro c d
  have accepted : ∀ {r : Channel × Except Error Unit}, r.2.isOk = true → r = (r.1, .ok ()) := by
    rintro ⟨c, _ | ⟨⟨⟩⟩⟩ hok
    · cases hok
    · rfl
  have hpublish := accepted (r := c.publish (jsonOf []) paused) (by decide +kernel)
  have hsend := accepted (r := d.send (jsonOf []) seekStart) (by decide +kernel)
  obtain ⟨w, hparse, houtgoing, -, -, -, hdecode⟩ :=
    (queued_decodes (jsonOf []) c).publish paused _ hpublish
  have hdropped : ((parseSnapshot paused.domain paused.body).toOption.map fun w =>
      ((w.body.index "capabilities").get "juggle").isNone) = some true := by
    decide +kernel
  rw [hparse] at hdropped
  exact ⟨_, _, w, hpublish, houtgoing, Option.some.inj hdropped, hdecode d.state, hsend,
    ((queued_decodes (jsonOf []) d).send rfl seekStart _ hsend).2 _⟩

end Jackstay.Affordances
