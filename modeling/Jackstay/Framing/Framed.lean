import Jackstay.Library.LengthPrefix

/-!
The bounded, length-prefixed JSON framing of the private typed channels
(`framing.rs`), one end of it.

`flush` and `receive` are loops around a call of the stream, and keep nothing of
their own from one turn to the next: a turn is a function of the end and of what
the stream answers, and a call is a run of turns up to the first that returns.

* `Framed.send`, `Framed.flushTurn`, `Framed.receiveTurn`: the operations;
* `Framed.Sound`: `queued` is the number of bytes not yet handed to the stream,
  within `MAX_BUFFER`, and the offset lies within the frame in front;
* `Framed.Sound.send`, `Framed.Sound.flushTurn`, `Framed.receiveTurn_frame`: the operations
  keep it, and what a turn of `flush` hands to the stream is taken off the front of what is
  unsent.
-/

namespace Jackstay.Framing

open LengthPrefix

/-- `MAX_FRAME`. -/
def maxFrame : ℕ := 128 * 1024

/-- `MAX_BUFFER`. -/
def maxBuffer : ℕ := 512 * 1024

/-- The errors of an end, by what they say. -/
inductive IoError where
  | other (text : String)
  | writeZero
  | unexpectedEof
  /-- An error of `serde_json`. -/
  | json (text : String)
  /-- Any other error of the stream. -/
  | stream (text : String)
  deriving DecidableEq, Repr

/-- What `Stream::write` answers. -/
inductive Written where
  | ok (n : ℕ)
  | wouldBlock
  | interrupted
  | failed (text : String)
  deriving DecidableEq, Repr

/-- What `Stream::read` answers, with the bytes that it puts in the buffer. -/
inductive Read where
  | ok (bytes : List UInt8)
  | wouldBlock
  | interrupted
  | failed (text : String)
  deriving DecidableEq, Repr

/-- How a turn of a loop ends. -/
inductive Turn (α : Type*) where
  | again
  | returned (result : Except IoError α)

/-- `serde_json::to_vec` and `serde_json::from_slice`, at the type of the messages. -/
structure Codec (M : Type*) where
  toVec : M → Except IoError (List UInt8)
  fromSlice : List UInt8 → Except IoError M

/-- `serde_json` decodes what it encodes. -/
def Codec.RoundTrips {M : Type*} (codec : Codec M) : Prop :=
  ∀ msg json, codec.toVec msg = .ok json → codec.fromSlice json = .ok msg

/-- `Framed`, without its stream. -/
structure Framed where
  input : List UInt8 := []
  output : List (List UInt8) := []
  offset : ℕ := 0
  queued : ℕ := 0
  deriving DecidableEq, Repr

/-- `(json.len() as u32).to_be_bytes()`. -/
def toBeBytes (n : UInt32) : List UInt8 := bytes 4 n.toNat

namespace Framed

variable {M : Type*}

/-- What `send` does with the text of a message. -/
def sendJson (w : Framed) (json : List UInt8) : Except IoError Framed :=
  if json.isEmpty ∨ maxFrame < json.length ∨ maxBuffer < w.queued + json.length + 4 then
    .error (.other "input wire bound exceeded")
  else
    let frame := toBeBytes (.ofNat json.length) ++ json
    .ok { w with queued := w.queued + frame.length, output := w.output ++ [frame] }

/-- `Framed::send`. -/
def send (codec : Codec M) (w : Framed) (msg : M) : Except IoError Framed := do
  let json ← codec.toVec msg
  w.sendJson json

/-- What a turn of `flush` offers to the stream: `frame[self.offset..]`. -/
def offered (w : Framed) : List UInt8 := (w.output.headD []).drop w.offset

/-- One turn of the loop of `Framed::flush`. -/
def flushTurn (w : Framed) (answer : Written) : Framed × Turn Unit :=
  match w.output with
  | [] => (w, .returned (.ok ()))
  | frame :: rest =>
      match answer with
      | .ok 0 => (w, .returned (.error .writeZero))
      | .ok n =>
          let w := { w with offset := w.offset + n, queued := w.queued - n }
          (if w.offset = frame.length then { w with output := rest, offset := 0 } else w, .again)
      | .wouldBlock => (w, .returned (.ok ()))
      | .interrupted => (w, .again)
      | .failed text => (w, .returned (.error (.stream text)))

/-- What a turn of `receive` finds in its buffer: `none` when it has to read on. -/
def front (codec : Codec M) (w : Framed) : Option (Framed × Except IoError M) :=
  if 4 ≤ w.input.length then
    let size := value (w.input.take 4)
    if size = 0 ∨ maxFrame < size then some (w, .error (.other "invalid input frame size"))
    else if size + 4 ≤ w.input.length then
      match codec.fromSlice ((w.input.take (size + 4)).drop 4) with
      | .error e => some (w, .error e)
      | .ok msg => some ({ w with input := w.input.drop (size + 4) }, .ok msg)
    else none
  else none

/-- One turn of the loop of `Framed::receive`; a turn that finds a frame does not read. -/
def receiveTurn (codec : Codec M) (w : Framed) (answer : Read) : Framed × Turn (Option M) :=
  match w.front codec with
  | some (w, .error e) => (w, .returned (.error e))
  | some (w, .ok msg) => (w, .returned (.ok (some msg)))
  | none =>
      match answer with
      | .ok [] => (w, .returned (.error .unexpectedEof))
      | .ok bytes => ({ w with input := w.input ++ bytes }, .again)
      | .wouldBlock => (w, .returned (.ok none))
      | .interrupted => (w, .again)
      | .failed text => (w, .returned (.error (.stream text)))

/-- The bytes that have not been handed to the stream. -/
def unsent (w : Framed) : List UInt8 := w.output.flatten.drop w.offset

/-- What holds of an end at all times. -/
structure Sound (w : Framed) : Prop where
  queued_eq : w.queued = w.unsent.length
  queued_le : w.queued ≤ maxBuffer
  /-- Something of the frame in front is unsent. -/
  offset_lt : ∀ frame rest, w.output = frame :: rest → w.offset < frame.length
  offset_eq : w.output = [] → w.offset = 0
  /-- Every frame has its prefix and is not empty. -/
  frames_pos : ∀ frame ∈ w.output, 4 < frame.length

lemma sound_new : ({} : Framed).Sound := by
  refine ⟨rfl, Nat.zero_le _, ?_, fun _ => rfl, ?_⟩
  · intro frame rest h
    cases h
  · intro frame h
    cases h

/-! ### Sending -/

/-- A frame of a text within the bound has the length of the text in front. -/
lemma frame_eq {json : List UInt8} (h : json.length ≤ maxFrame) :
    toBeBytes (.ofNat json.length) ++ json = prefixed 4 json := by
  have hlt : json.length < 2 ^ 32 := Nat.lt_of_le_of_lt h (by decide)
  rw [toBeBytes, prefixed, UInt32.toNat_ofNat_of_lt' hlt]

/-- What `send` asks of the text and what it has queued. -/
lemma sendJson_ok {w w' : Framed} {json : List UInt8} (h : w.sendJson json = .ok w') :
    0 < json.length ∧ json.length ≤ maxFrame ∧ w.queued + json.length + 4 ≤ maxBuffer ∧
      w' = { w with
        queued := w.queued + (json.length + 4)
        output := w.output ++ [prefixed 4 json] } := by
  rw [sendJson] at h
  split_ifs at h with hbound
  rw [not_or, not_or, List.isEmpty_iff, Nat.not_lt, Nat.not_lt] at hbound
  obtain ⟨hne, hframe, hbuffer⟩ := hbound
  refine ⟨List.length_pos_iff.mpr hne, hframe, hbuffer, ?_⟩
  simp only [frame_eq hframe, length_prefixed, Except.ok.injEq] at h
  rw [← h, Nat.add_comm json.length 4]

/-- Only the bounds make `send` fail on a text. -/
lemma sendJson_of_le {w : Framed} {json : List UInt8} (hpos : 0 < json.length)
    (hframe : json.length ≤ maxFrame) (hbuffer : w.queued + json.length + 4 ≤ maxBuffer) :
    w.sendJson json = .ok { w with
      queued := w.queued + (json.length + 4)
      output := w.output ++ [prefixed 4 json] } := by
  have hbound : ¬ ((json.isEmpty : Prop) ∨ maxFrame < json.length ∨
      maxBuffer < w.queued + json.length + 4) := by
    rw [not_or, not_or, List.isEmpty_iff, Nat.not_lt, Nat.not_lt]
    exact ⟨List.length_pos_iff.mp hpos, hframe, hbuffer⟩
  rw [sendJson, if_neg hbound]
  simp only [frame_eq hframe, length_prefixed, Nat.add_comm 4 json.length]

/-- A message that `send` takes has been encoded. -/
lemma send_ok {codec : Codec M} {w w' : Framed} {msg : M} (h : w.send codec msg = .ok w') :
    ∃ json, codec.toVec msg = .ok json ∧ w.sendJson json = .ok w' := by
  rw [send] at h
  cases hjson : codec.toVec msg with
  | error e =>
      rw [hjson] at h
      cases h
  | ok json =>
      rw [hjson] at h
      exact ⟨json, rfl, h⟩

/-- The offset lies within what is queued. -/
lemma Sound.offset_le {w : Framed} (hw : w.Sound) : w.offset ≤ w.output.flatten.length := by
  cases hout : w.output with
  | nil => simp [hw.offset_eq hout]
  | cons frame rest =>
      have hlt := hw.offset_lt frame rest hout
      rw [List.flatten_cons, List.length_append]
      omega

/-- `send` queues the frame behind what is unsent. -/
lemma Sound.unsent_send {w w' : Framed} {json : List UInt8} (hw : w.Sound)
    (h : w.sendJson json = .ok w') : w'.unsent = w.unsent ++ prefixed 4 json := by
  obtain ⟨-, -, -, rfl⟩ := sendJson_ok h
  rw [unsent, unsent]
  simp only [List.flatten_append, List.flatten_cons, List.flatten_nil, List.append_nil]
  rw [List.drop_append_of_le_length hw.offset_le]

/-- `send` keeps an end sound. -/
lemma Sound.send {w w' : Framed} {json : List UInt8} (hw : w.Sound)
    (h : w.sendJson json = .ok w') : w'.Sound := by
  have hunsent := hw.unsent_send h
  obtain ⟨hpos, -, hbuffer, rfl⟩ := sendJson_ok h
  refine ⟨?_, ?_, ?_, ?_, ?_⟩
  · rw [hunsent, List.length_append, length_prefixed, ← hw.queued_eq]
    show w.queued + (json.length + 4) = w.queued + (4 + json.length)
    omega
  · show w.queued + (json.length + 4) ≤ maxBuffer
    omega
  · intro frame rest hout
    show w.offset < frame.length
    cases hold : w.output with
    | nil =>
        simp only [hold, List.nil_append, List.cons.injEq] at hout
        rw [hw.offset_eq hold, ← hout.1, length_prefixed]
        omega
    | cons first others =>
        simp only [hold, List.cons_append, List.cons.injEq] at hout
        rw [← hout.1]
        exact hw.offset_lt first others hold
  · intro hout
    exact absurd hout (by simp)
  · intro frame hframe
    rcases List.mem_append.mp hframe with hold | hnew
    · exact hw.frames_pos frame hold
    · rw [List.mem_singleton.mp hnew, length_prefixed]
      omega

/-! ### Flushing -/

/-- Something is offered as long as a frame is queued. -/
lemma Sound.offered_pos {w : Framed} (hw : w.Sound) (h : w.output ≠ []) :
    0 < w.offered.length := by
  cases hout : w.output with
  | nil => exact absurd hout h
  | cons frame rest =>
      have hlt := hw.offset_lt frame rest hout
      rw [offered, hout, List.headD_cons, List.length_drop]
      omega

/-- What is offered is the front of what is unsent. -/
lemma Sound.offered_take {w : Framed} (hw : w.Sound) {n : ℕ} (hn : n ≤ w.offered.length) :
    w.unsent = w.offered.take n ++ w.output.flatten.drop (w.offset + n) := by
  have hfront : w.offered.take n = w.unsent.take n := by
    cases hout : w.output with
    | nil => simp [offered, unsent, hout]
    | cons frame rest =>
        have hlt := hw.offset_lt frame rest hout
        rw [offered, hout, List.headD_cons] at hn
        rw [offered, unsent, hout, List.headD_cons, List.flatten_cons,
          List.drop_append_of_le_length (Nat.le_of_lt hlt), List.take_append_of_le_length hn]
  have hrest : w.output.flatten.drop (w.offset + n) = w.unsent.drop n := by
    rw [unsent, List.drop_drop]
  rw [hfront, hrest, List.take_append_drop]

/-- **A turn of `flush` that writes** takes what the stream took off the front of what is unsent,
and counts it. -/
lemma Sound.flushTurn {w : Framed} (hw : w.Sound) (hout : w.output ≠ []) {n : ℕ} (hpos : 0 < n)
    (hn : n ≤ w.offered.length) :
    ∃ w', w.flushTurn (.ok n) = (w', .again) ∧ w'.Sound ∧ w'.input = w.input ∧
      w.unsent = w.offered.take n ++ w'.unsent ∧ w'.queued = w.queued - n := by
  obtain ⟨frame, rest, houtput⟩ := List.exists_cons_of_ne_nil hout
  have hsplit := hw.offered_take hn
  have hlt := hw.offset_lt frame rest houtput
  have hfits : w.offset + n ≤ frame.length := by
    rw [offered, houtput, List.headD_cons, List.length_drop] at hn
    omega
  have hqueued : w.queued - n = (w.output.flatten.drop (w.offset + n)).length := by
    rw [hw.queued_eq, hsplit, List.length_append, List.length_take_of_le hn]
    omega
  have hle := hw.queued_le
  obtain ⟨k, rfl⟩ : ∃ k, n = k + 1 := ⟨n - 1, by omega⟩
  by_cases hdone : w.offset + (k + 1) = frame.length
  · -- the frame has gone out: the next one starts at its first byte
    have hdrop : w.output.flatten.drop (w.offset + (k + 1)) = rest.flatten := by
      rw [houtput, List.flatten_cons]
      exact List.drop_left' hdone.symm
    refine ⟨{ w with output := rest, offset := 0, queued := w.queued - (k + 1) }, ?_, ?_, rfl, ?_, rfl⟩
    · simp only [Framed.flushTurn, houtput, hdone, if_true]
    · refine ⟨?_, ?_, ?_, fun _ => rfl, ?_⟩
      · rw [unsent, List.drop_zero, ← hdrop]
        exact hqueued
      · show w.queued - (k + 1) ≤ maxBuffer
        omega
      · intro next others hnext
        have hmem : next ∈ w.output := by
          rw [houtput, show rest = next :: others from hnext]
          exact List.mem_cons_of_mem frame List.mem_cons_self
        exact Nat.lt_of_le_of_lt (Nat.zero_le _) (hw.frames_pos next hmem)
      · intro next hmem
        exact hw.frames_pos next (houtput ▸ List.mem_cons_of_mem frame hmem)
    · rw [hsplit, hdrop]
      rfl
  · refine ⟨{ w with offset := w.offset + (k + 1), queued := w.queued - (k + 1) }, ?_, ?_, rfl,
      hsplit, rfl⟩
    · simp only [Framed.flushTurn, houtput, hdone, if_false]
    · refine ⟨hqueued, ?_, ?_, ?_, hw.frames_pos⟩
      · show w.queued - (k + 1) ≤ maxBuffer
        omega
      · intro next others hnext
        have heq : next = frame := by
          have hnext' : w.output = next :: others := hnext
          rw [houtput, List.cons.injEq] at hnext'
          exact hnext'.1.symm
        show w.offset + (k + 1) < next.length
        rw [heq]
        omega
      · intro hnil
        exact absurd hnil hout

/-- Nothing is unsent exactly when no frame is queued. -/
lemma Sound.unsent_eq_nil {w : Framed} (hw : w.Sound) : w.unsent = [] ↔ w.output = [] := by
  constructor
  · intro h
    by_contra hout
    have hpos := hw.offered_pos hout
    have hsplit := hw.offered_take (n := 1) hpos
    rw [h] at hsplit
    have hlen := congrArg List.length hsplit
    rw [List.length_append, List.length_take_of_le hpos, List.length_nil] at hlen
    omega
  · intro h
    rw [unsent, h, List.flatten_nil, List.drop_nil]

/-- A turn of `flush` keeps an end sound, and queues nothing, whatever the stream answers. -/
lemma Sound.flushTurn_le {w : Framed} (hw : w.Sound) {answer : Written}
    (h : ∀ n, answer = .ok n → n ≤ w.offered.length) :
    (w.flushTurn answer).1.Sound ∧ (w.flushTurn answer).1.queued ≤ w.queued := by
  cases hout : w.output with
  | nil =>
      have hturn : w.flushTurn answer = (w, .returned (.ok ())) := by
        rw [Framed.flushTurn.eq_def, hout]
      rw [hturn]
      exact ⟨hw, Nat.le_refl _⟩
  | cons frame rest =>
      have hne : w.output ≠ [] := by
        rw [hout]
        exact List.cons_ne_nil frame rest
      cases answer with
      | ok n =>
          rcases Nat.eq_zero_or_pos n with rfl | hpos
          · have hturn : w.flushTurn (.ok 0) = (w, .returned (.error .writeZero)) := by
              simp only [Framed.flushTurn, hout]
            rw [hturn]
            exact ⟨hw, Nat.le_refl _⟩
          · obtain ⟨w', hturn, hsound, -, -, hqueued⟩ := hw.flushTurn hne hpos (h n rfl)
            rw [hturn]
            exact ⟨hsound, hqueued ▸ Nat.sub_le _ _⟩
      | wouldBlock => simp only [Framed.flushTurn, hout]; exact ⟨hw, Nat.le_refl _⟩
      | interrupted => simp only [Framed.flushTurn, hout]; exact ⟨hw, Nat.le_refl _⟩
      | failed text => simp only [Framed.flushTurn, hout]; exact ⟨hw, Nat.le_refl _⟩

/-! ### Receiving -/

/-- Soundness is about what is queued alone. -/
lemma Sound.congr {w w' : Framed} (hw : w.Sound) (hout : w'.output = w.output)
    (hoffset : w'.offset = w.offset) (hqueued : w'.queued = w.queued) : w'.Sound := by
  have hunsent : w'.unsent = w.unsent := by rw [unsent, unsent, hout, hoffset]
  refine ⟨?_, ?_, ?_, ?_, ?_⟩
  · rw [hqueued, hunsent, hw.queued_eq]
  · rw [hqueued]
    exact hw.queued_le
  · rw [hout, hoffset]
    exact hw.offset_lt
  · rw [hout, hoffset]
    exact hw.offset_eq
  · rw [hout]
    exact hw.frames_pos

/-- What a turn of `receive` finds leaves what is queued. -/
lemma front_frame {codec : Codec M} {w w' : Framed} {result : Except IoError M}
    (h : w.front codec = some (w', result)) :
    w'.output = w.output ∧ w'.offset = w.offset ∧ w'.queued = w.queued := by
  simp only [front] at h
  split_ifs at h
  · obtain ⟨rfl, -⟩ := Prod.mk.inj (Option.some.inj h)
    exact ⟨rfl, rfl, rfl⟩
  · split at h
    · obtain ⟨rfl, -⟩ := Prod.mk.inj (Option.some.inj h)
      exact ⟨rfl, rfl, rfl⟩
    · obtain ⟨rfl, -⟩ := Prod.mk.inj (Option.some.inj h)
      exact ⟨rfl, rfl, rfl⟩

/-- A turn of `receive` leaves what is queued. -/
lemma receiveTurn_frame (codec : Codec M) (w : Framed) (answer : Read) :
    (w.receiveTurn codec answer).1.output = w.output ∧
      (w.receiveTurn codec answer).1.offset = w.offset ∧
      (w.receiveTurn codec answer).1.queued = w.queued := by
  rw [receiveTurn.eq_def]
  split
  · rename_i h
    exact front_frame h
  · rename_i h
    exact front_frame h
  · split
    all_goals exact ⟨rfl, rfl, rfl⟩

end Framed

end Jackstay.Framing
