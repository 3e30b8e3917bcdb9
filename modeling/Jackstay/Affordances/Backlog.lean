import Mathlib.Algebra.Order.BigOperators.Group.List
import Mathlib.Algebra.Order.Group.Nat
import Jackstay.Affordances.Conforming

/-!
What an end has queued fits the wire.

The bound is checked when a message is queued, against the messages that wait and
`wire_bytes`, a copy of what the wire has not sent. The copy is brought up to date
under the lock after messages have been moved and again after a flush; in between
the wire only sends, so that the copy is never too low.

* `encodedSize`: what messages take on the wire, with their lengths in front;
* `Channel.Backlog`: the invariant, with `Backlog.step` for a step;
* `Channel.Fitting`, `queued_fits`: **every queued message fits**, at the frame and at the
  buffer, and `bytes` counts exactly what waits.
-/

namespace Jackstay.Affordances

open Framing Transition

/-- The bytes that messages take on the wire. -/
def encodedSize (json : JsonText) (vs : List Value) : ℕ :=
  (vs.map fun v => (json.toVec v).length + 4).sum

@[simp] lemma encodedSize_cons (json : JsonText) (v : Value) (vs : List Value) :
    encodedSize json (v :: vs) = (json.toVec v).length + 4 + encodedSize json vs := by
  rw [encodedSize, List.map_cons, List.sum_cons]
  rfl

lemma encodedSize_append (json : JsonText) (vs : List Value) (v : Value) :
    encodedSize json (vs ++ [v]) = encodedSize json vs + ((json.toVec v).length + 4) := by
  rw [encodedSize, List.map_append, List.sum_append]
  simp [encodedSize]

namespace Channel

variable {json : JsonText} {c c' : Channel}

/-- What holds of the messages that wait. -/
structure Backlog (json : JsonText) (c : Channel) : Prop where
  sound : c.wire.Sound
  bytes_eq : c.state.bytes = encodedSize json c.state.outgoing
  frame_le : ∀ v ∈ c.state.outgoing, (json.toVec v).length + 4 ≤ 131076
  room : c.state.bytes + c.wire.queued ≤ 524288
  /-- While the worker does not hold the lock, the copy is not too low. -/
  copy_le : c.locked = false → c.wire.queued ≤ c.state.wireBytes
  copied : c.locked = false → c.state.bytes + c.state.wireBytes ≤ 524288
  calm : c.pc ≠ .panicked
  handed : c.accepted = c.handed ++ c.state.outgoing

lemma backlog_new (producer : Bool) : Backlog json { producer } := by
  refine ⟨Framed.sound_new, rfl, ?_, Nat.zero_le _, fun _ => Nat.le_refl _,
    fun _ => Nat.zero_le _, nofun, rfl⟩
  intro v hv
  cases hv

/-- The messages and what counts them are all that matters. -/
lemma Backlog.congr (h : c.Backlog json) (hwire : c'.wire = c.wire)
    (hout : c'.state.outgoing = c.state.outgoing) (hbytes : c'.state.bytes = c.state.bytes)
    (hcopy : c'.state.wireBytes = c.state.wireBytes) (haccepted : c'.accepted = c.accepted)
    (hhanded : c'.handed = c.handed) (hlocked : c'.locked = false → c.locked = false)
    (hcalm : c'.pc ≠ .panicked) : c'.Backlog json := by
  refine ⟨hwire ▸ h.sound, ?_, ?_, ?_, fun hl => ?_, fun hl => ?_, hcalm, ?_⟩
  · rw [hbytes, hout]
    exact h.bytes_eq
  · rw [hout]
    exact h.frame_le
  · rw [hbytes, hwire]
    exact h.room
  · rw [hwire, hcopy]
    exact h.copy_le (hlocked hl)
  · rw [hbytes, hcopy]
    exact h.copied (hlocked hl)
  · rw [haccepted, hhanded, hout]
    exact h.handed

/-! ### The calls -/

/-- A message that is queued fits. -/
lemma Backlog.enqueueLocked (h : c.Backlog json) (hlocked : c.locked = false) (v : Value) :
    (c.enqueueLocked json v).1.Backlog json := by
  rcases enqueueLocked_cases json c v with ⟨e, stop, hfail⟩ | ⟨hdone, -, -, hframe, hbuffer⟩
  · rw [hfail]
    exact h.congr rfl rfl rfl rfl rfl rfl id h.calm
  · rw [hdone]
    have hcopy := h.copy_le hlocked
    refine ⟨h.sound, ?_, ?_, ?_, fun _ => hcopy, fun _ => ?_, h.calm, ?_⟩
    · show c.state.bytes + ((json.toVec v).length + 4) = encodedSize json (c.state.outgoing ++ [v])
      rw [encodedSize_append, ← h.bytes_eq]
    · intro v' hv'
      rcases List.mem_append.mp hv' with hold | hnew
      · exact h.frame_le v' hold
      · rw [List.mem_singleton.mp hnew]
        exact hframe
    · show c.state.bytes + ((json.toVec v).length + 4) + c.wire.queued ≤ 524288
      omega
    · show c.state.bytes + ((json.toVec v).length + 4) + c.state.wireBytes ≤ 524288
      omega
    · show c.accepted ++ [v] = c.handed ++ (c.state.outgoing ++ [v])
      rw [h.handed, List.append_assoc]

lemma Backlog.store (h : c.Backlog json) (v : Snapshot) (published : List Snapshot) :
    Backlog json { c with state := c.state.store v, published } := by
  refine h.congr rfl (State.outgoing_store c.state v) ?_ ?_ rfl rfl id h.calm
  · cases v <;> rfl
  · cases v <;> rfl

lemma Backlog.publish (h : c.Backlog json) (hlocked : c.locked = false) (v : Snapshot) :
    (c.publish json v).1.Backlog json := by
  rcases publish_cases json c v with ⟨e, stop, hfail⟩ | ⟨w, -, -, -, hdone⟩
  · rw [hfail]
    exact h.congr rfl rfl rfl rfl rfl rfl id h.calm
  · rw [hdone]
    exact (h.enqueueLocked hlocked w.wire).store w _

lemma Backlog.send (h : c.Backlog json) (hlocked : c.locked = false) (v : Verb) :
    (c.send json v).1.Backlog json := by
  rcases send_cases json c v with ⟨e, stop, hfail⟩ | ⟨-, -, hsend, -⟩
  · rw [hfail]
    exact h.congr rfl rfl rfl rfl rfl rfl id h.calm
  · rw [hsend]
    exact h.enqueueLocked hlocked _

lemma Backlog.poll (h : c.Backlog json) : (c.poll json).1.Backlog json := by
  rw [Channel.poll.eq_def]
  split
  · exact h
  · exact h.congr rfl rfl rfl rfl rfl rfl id h.calm

/-! ### The worker -/

/-- A message that waits is handed to the wire: the wire takes it, and `bytes` does not
underflow. -/
lemma Backlog.sends (h : c.Backlog json) {v : Value} {outgoing : List Value}
    (hout : c.state.outgoing = v :: outgoing) :
    (json.toVec v).length + 4 ≤ c.state.bytes ∧
      ∃ wire, c.wire.send json.codec v = .ok wire ∧ wire.Sound ∧
        wire.queued = c.wire.queued + ((json.toVec v).length + 4) := by
  have hframe := h.frame_le v (by rw [hout]; exact List.mem_cons_self)
  have hbytes : c.state.bytes = (json.toVec v).length + 4 + encodedSize json outgoing := by
    rw [h.bytes_eq, hout, encodedSize_cons]
  have hroom := h.room
  have hsend := Framed.sendJson_of_le (w := c.wire)
    (List.length_pos_iff.mpr (json.toVec_ne_nil v)) (show _ ≤ 128 * 1024 by omega)
    (show _ ≤ 512 * 1024 by omega)
  exact ⟨by omega, _, hsend, h.sound.send hsend, rfl⟩

/-- What a step under the lock does. -/
lemma Backlog.queueStep_cases (h : c.Backlog json) {left : ℕ} (hpc : c.pc = .queueing left) :
    (∃ k v outgoing wire, left = k + 1 ∧ c.state.outgoing = v :: outgoing ∧ wire.Sound ∧
      wire.queued = c.wire.queued + ((json.toVec v).length + 4) ∧
      (json.toVec v).length + 4 ≤ c.state.bytes ∧
      c.queueStep json left = { c with
        state := { c.state with
          outgoing, bytes := c.state.bytes - ((json.toVec v).length + 4) }
        wire, handed := c.handed ++ [v], pc := .queueing k }) ∨
      (left = 0 ∨ c.state.outgoing = []) ∧ c.queueStep json left = { c with
        state := { c.state with wireBytes := c.wire.queued }, pc := .flushing } := by
  cases left with
  | zero => exact .inr ⟨.inl rfl, rfl⟩
  | succ k =>
      cases hout : c.state.outgoing with
      | nil =>
          right
          refine ⟨.inr rfl, ?_⟩
          rw [Channel.queueStep.eq_def, hout]
      | cons v outgoing =>
          obtain ⟨hle, wire, hsend, hsound, hqueued⟩ := h.sends hout
          refine .inl ⟨k, v, outgoing, wire, rfl, rfl, hsound, hqueued, hle, ?_⟩
          rw [Channel.queueStep.eq_def, hout]
          simp only [if_neg (Nat.not_lt.mpr hle), hsend]

lemma Backlog.queueStep (h : c.Backlog json) {left : ℕ} (hpc : c.pc = .queueing left) :
    (c.queueStep json left).Backlog json := by
  rcases h.queueStep_cases hpc with
    ⟨k, v, outgoing, wire, rfl, hout, hsound, hqueued, hle, hstep⟩ | ⟨-, hstep⟩
  · rw [hstep]
    have hbytes : c.state.bytes = (json.toVec v).length + 4 + encodedSize json outgoing := by
      rw [h.bytes_eq, hout, encodedSize_cons]
    have hroom := h.room
    refine ⟨hsound, ?_, ?_, ?_, nofun, nofun, nofun, ?_⟩
    · show c.state.bytes - ((json.toVec v).length + 4) = encodedSize json outgoing
      omega
    · intro v' hv'
      exact h.frame_le v' (by rw [hout]; exact List.mem_cons_of_mem v hv')
    · show c.state.bytes - ((json.toVec v).length + 4) + wire.queued ≤ 524288
      omega
    · show c.accepted = c.handed ++ [v] ++ outgoing
      rw [h.handed, hout, List.append_assoc]
      rfl
  · rw [hstep]
    exact ⟨h.sound, h.bytes_eq, h.frame_le, h.room, fun _ => Nat.le_refl _, fun _ => h.room, nofun,
      h.handed⟩

/-- A wire that has sent more and queued nothing. -/
lemma Backlog.flushed (h : c.Backlog json) (hlocked : c.locked = false) {wire : Framed} {pc : Pc}
    (hsound : wire.Sound) (hle : wire.queued ≤ c.wire.queued) (hcalm : pc ≠ .panicked) :
    Backlog json { c with wire, pc } := by
  have hroom := h.room
  have hcopy := h.copy_le hlocked
  refine ⟨hsound, h.bytes_eq, h.frame_le, ?_, fun _ => ?_, fun _ => h.copied hlocked, hcalm,
    h.handed⟩
  · show c.state.bytes + wire.queued ≤ 524288
    omega
  · show wire.queued ≤ c.state.wireBytes
    omega

lemma Backlog.deliverStep (h : c.Backlog json) (hlocked : c.locked = false) (v : Value)
    (left : ℕ) : (c.deliverStep json v left).Backlog json := by
  rw [Channel.deliverStep.eq_def]
  split
  · exact h.congr rfl rfl rfl rfl rfl rfl (fun _ => hlocked) nofun
  · exact h.congr rfl rfl rfl rfl rfl rfl (fun _ => hlocked) nofun
  · rename_i e _
    dsimp only
    split_ifs
    · exact h.congr rfl rfl rfl rfl rfl rfl (fun _ => hlocked) nofun
    · cases e with
      | snapshot w =>
          refine h.congr rfl (State.outgoing_store c.state w) ?_ ?_ rfl rfl (fun _ => hlocked) nofun
          · cases w <;> rfl
          · cases w <;> rfl
      | verb verb => exact h.congr rfl rfl rfl rfl rfl rfl (fun _ => hlocked) nofun
      | closed => exact h.congr rfl rfl rfl rfl rfl rfl (fun _ => hlocked) nofun

/-- The worker keeps the backlog. -/
lemma Backlog.work (h : c.Backlog json) {written : Written} {read : Read}
    (hwithin : Within c.wire.offered.length written)
    (hstep : c.work json written read = some c') : c'.Backlog json := by
  have hoffer : ∀ n, written = .ok n → n ≤ c.wire.offered.length := by
    rintro n rfl
    exact hwithin
  rw [Channel.work.eq_def] at hstep
  cases hpc : c.pc with
  | check =>
      simp only [hpc] at hstep
      obtain rfl := Option.some.inj hstep
      have hlocked : c.locked = false := by rw [locked, hpc]
      refine h.congr rfl rfl rfl rfl rfl rfl (fun _ => hlocked) ?_
      show (if c.stop = true then Pc.ending else Pc.queueing 8) ≠ .panicked
      split_ifs <;> exact nofun
  | queueing left =>
      simp only [hpc] at hstep
      obtain rfl := Option.some.inj hstep
      exact h.queueStep hpc
  | flushing =>
      have hlocked : c.locked = false := by rw [locked, hpc]
      obtain ⟨hsound, hle⟩ := h.sound.flushTurn_le hoffer
      simp only [hpc] at hstep
      split at hstep
      all_goals
        obtain rfl := Option.some.inj hstep
        exact h.flushed hlocked hsound hle nofun
  | refresh =>
      have hlocked : c.locked = false := by rw [locked, hpc]
      simp only [hpc] at hstep
      obtain rfl := Option.some.inj hstep
      exact ⟨h.sound, h.bytes_eq, h.frame_le, h.room, fun _ => Nat.le_refl _, fun _ => h.room,
        nofun, h.handed⟩
  | receiving left =>
      have hlocked : c.locked = false := by rw [locked, hpc]
      cases left with
      | zero =>
          simp only [hpc] at hstep
          obtain rfl := Option.some.inj hstep
          exact h.congr rfl rfl rfl rfl rfl rfl (fun _ => hlocked) nofun
      | succ left =>
          obtain ⟨hout, hoffset, hqueued⟩ := c.wire.receiveTurn_frame json.codec read
          have hsound := h.sound.congr hout hoffset hqueued
          have hle := Nat.le_of_eq hqueued
          simp only [hpc] at hstep
          split at hstep
          all_goals
            obtain rfl := Option.some.inj hstep
            exact h.flushed hlocked hsound hle nofun
  | deliver v left =>
      have hlocked : c.locked = false := by rw [locked, hpc]
      simp only [hpc] at hstep
      obtain rfl := Option.some.inj hstep
      exact h.deliverStep hlocked v left
  | ending =>
      have hlocked : c.locked = false := by rw [locked, hpc]
      simp only [hpc] at hstep
      obtain rfl := Option.some.inj hstep
      exact h.congr rfl rfl rfl rfl rfl rfl (fun _ => hlocked) nofun
  | ended =>
      simp only [hpc] at hstep
      cases hstep
  | panicked =>
      simp only [hpc] at hstep
      cases hstep

/-- Every step keeps the backlog. -/
lemma Backlog.step (h : c.Backlog json) {l : ChannelLabel} (hstep : c.step json l = some c') :
    c'.Backlog json := by
  cases l with
  | publish v =>
      simp only [Channel.step] at hstep
      split_ifs at hstep with hlocked
      obtain rfl := Option.some.inj hstep
      exact h.publish (Bool.eq_false_iff.mpr hlocked) v
  | send v =>
      simp only [Channel.step] at hstep
      split_ifs at hstep with hlocked
      obtain rfl := Option.some.inj hstep
      rw [Bool.or_eq_true, not_or] at hlocked
      exact h.send (Bool.eq_false_iff.mpr hlocked.1) v
  | poll =>
      simp only [Channel.step] at hstep
      split_ifs at hstep
      obtain rfl := Option.some.inj hstep
      exact h.poll
  | close =>
      obtain rfl := Option.some.inj hstep
      exact h.congr rfl rfl rfl rfl rfl rfl id h.calm
  | work written read =>
      simp only [Channel.step] at hstep
      split_ifs at hstep with hwithin
      exact h.work hwithin hstep

/-- Under the lock, the worker hands as many messages to the wire as it may, or all. -/
lemma Backlog.passes (h : c.Backlog json) {left : ℕ} (hpc : c.pc = .queueing left) :
    ∃ c', Reaches (Channel.step json) (fun _ l => l.IsWork) c c' ∧ c'.pc = .flushing ∧
      c'.handed = c.handed ++ c.state.outgoing.take left ∧
      c'.state.outgoing = c.state.outgoing.drop left := by
  induction left generalizing c with
  | zero =>
      have hwork : c.step json (.work .wouldBlock .wouldBlock) = some (c.queueStep json 0) := by
        rw [Channel.step, if_pos (show Within _ .wouldBlock from trivial), Channel.work.eq_def, hpc]
      refine ⟨_, .tail (l := .work .wouldBlock .wouldBlock) .refl trivial hwork, rfl, ?_, rfl⟩
      show c.handed = c.handed ++ []
      rw [List.append_nil]
  | succ k ih =>
      have hwork : c.step json (.work .wouldBlock .wouldBlock) =
          some (c.queueStep json (k + 1)) := by
        rw [Channel.step, if_pos (show Within _ .wouldBlock from trivial), Channel.work.eq_def, hpc]
      have hnext := h.queueStep hpc
      have hfirst : Reaches (Channel.step json) (fun _ l => l.IsWork) c (c.queueStep json (k + 1)) :=
        .tail (l := .work .wouldBlock .wouldBlock) .refl trivial hwork
      rcases h.queueStep_cases hpc with
        ⟨k', v, outgoing, wire, hk, hout, -, -, -, hstep⟩ | ⟨hnone, hstep⟩
      · obtain rfl : k = k' := by omega
        rw [hstep] at hnext hfirst
        obtain ⟨c', hreach, hpc', hhanded, houtgoing⟩ := ih hnext rfl
        refine ⟨c', hfirst.trans hreach, hpc', ?_, ?_⟩
        · rw [hhanded, hout, List.take_succ_cons]
          exact List.append_assoc c.handed [v] _
        · rw [houtgoing, hout, List.drop_succ_cons]
      · have hnil : c.state.outgoing = [] := hnone.resolve_left (Nat.succ_ne_zero k)
        rw [hstep] at hfirst
        refine ⟨_, hfirst, rfl, ?_, ?_⟩
        · rw [hnil, List.take_nil, List.append_nil]
        · show c.state.outgoing = _
          rw [hnil, List.drop_nil]

/-! ### Main result -/

/-- What holds of the messages of an end at all times. -/
structure Fitting (json : JsonText) (c : Channel) : Prop where
  /-- `bytes` is the size of what waits, -/
  bytes_eq : c.state.bytes = encodedSize json c.state.outgoing
  /-- its subtraction has never underflowed, -/
  calm : c.pc ≠ .panicked
  /-- and with what the wire has not sent it stays within the buffer. -/
  room : c.state.bytes + c.wire.unsent.length ≤ 524288
  queued_eq : c.wire.queued = c.wire.unsent.length
  /-- Every message that was accepted waits, or has been handed to the wire, in order. -/
  handed : c.accepted = c.handed ++ c.state.outgoing
  /-- The wire accepts the next one, whenever it is handed over, -/
  sends : ∀ v outgoing, c.state.outgoing = v :: outgoing →
    (json.toVec v).length ≤ maxFrame ∧
      c.wire.queued + (json.toVec v).length + 4 ≤ maxBuffer ∧
      ∃ wire, c.wire.send json.codec v = .ok wire
  /-- and a pass of the worker that has the lock hands over all or as many as it may. -/
  passes : ∀ left, c.pc = .queueing left →
    ∃ c', Reaches (Channel.step json) (fun _ l => l.IsWork) c c' ∧ c'.pc = .flushing ∧
      c'.handed = c.handed ++ c.state.outgoing.take left ∧
      c'.state.outgoing = c.state.outgoing.drop left

end Channel

/-- **Queued affordances always fit the wire**, for every interleaving of the calls with the
passes of the worker. -/
theorem queued_fits {json : JsonText} {producer : Bool} {c : Channel}
    (h : Reaches (Channel.step json) Always { producer } c) : c.Fitting json := by
  have hc : c.Backlog json :=
    h.invariant (Channel.backlog_new producer) fun _ _ _ ha _ hstep => ha.step hstep
  have hroom := hc.room
  rw [hc.sound.queued_eq] at hroom
  refine ⟨hc.bytes_eq, hc.calm, hroom, hc.sound.queued_eq, hc.handed, ?_, fun left => hc.passes⟩
  intro v outgoing hout
  obtain ⟨hle, wire, hsend, -, -⟩ := hc.sends hout
  obtain ⟨-, hframe, hbuffer, -⟩ := Framed.sendJson_ok hsend
  exact ⟨hframe, hbuffer, wire, hsend⟩

/-- A producer withdraws a domain, flushes a part of the message, and withdraws another. -/
def withdrawals : List ChannelLabel :=
  [.publish (.withdraw .media), .work .wouldBlock .wouldBlock, .work .wouldBlock .wouldBlock,
    .work .wouldBlock .wouldBlock, .work (.ok 50) .wouldBlock, .publish (.withdraw .window),
    .work .wouldBlock .wouldBlock, .work .wouldBlock .wouldBlock]

/-- There, 33 bytes of the first message are unsent and the 84 of the second wait. -/
theorem queued_fits_withdrawals :
    let c := play (Channel.step (jsonOf [])) { producer := true } withdrawals
    c.Fitting (jsonOf []) ∧ c.state.bytes = 84 ∧ c.wire.queued = 33 := by
  intro c
  refine ⟨queued_fits (.of_play _ _ _), ?_, ?_⟩
  · decide +kernel
  · decide +kernel

end Jackstay.Affordances
