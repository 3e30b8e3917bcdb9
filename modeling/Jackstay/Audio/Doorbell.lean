import Mathlib.Data.List.Basic
import Jackstay.Library.Transition

/-!
`audio.rs`: the doorbell of a consumer incarnation.

A doorbell is a word of changed-track bits and a channel of bytes. `BellInner::ring` sets
a bit, and signals only if it found the word empty; `Doorbell::wait` drains the channel,
takes the word and sleeps if it took nothing. Ringers are the writers of the tracks and the
arena of the video track, any number of them. Every access to the word or to the channel
is a step of its own.

A drain reads up to 4096 bytes, so that some may remain; a signal that finds the channel
full leaves it as it is. `takes` and `rings` are history variables: what has been taken,
and each mask that has been set together with the number of takes before it.

* `Doorbell.Kept`: a word that is not empty has a signal under way, in the channel, or
  drained by a consumer that is about to take.
* `no_lost_wake`: a consumer does not sleep over a set bit, and no bit is lost.
-/

namespace Jackstay.Audio

open Transition

/-- Where the consumer is: between two calls, or in the loop of `wait`. -/
inductive WaitPc where
  | out
  | drain
  | take
  | asleep
  deriving DecidableEq, Repr

/-- A doorbell with its ringers and its consumer. -/
structure Doorbell where
  /-- the bytes that the channel holds at most -/
  capacity : ℕ
  hint : BitVec 64 := 0
  channel : ℕ := 0
  /-- the ringers between their `fetch_or` and their signal -/
  signalling : ℕ → Bool := fun _ => false
  consumer : WaitPc := .out
  takes : List (BitVec 64) := []
  rings : List (BitVec 64 × ℕ) := []

/-- What may happen next to a doorbell. -/
inductive DoorbellLabel where
  /-- ringer `i` sets its bit -/
  | fetchOr (i : ℕ) (bit : BitVec 64)
  /-- ringer `i` signals -/
  | signal (i : ℕ)
  /-- the consumer calls `wait` -/
  | wait
  /-- so many bytes are read from the channel -/
  | drain (n : ℕ)
  /-- the word is taken; `stop` when the wait is cancelled or its deadline has passed -/
  | take (stop : Bool)
  /-- the consumer wakes; `stop` without a byte in the channel -/
  | wake (stop : Bool)
  /-- the channel fails, and `wait` returns an error -/
  | fail
  deriving DecidableEq, Repr

namespace Doorbell

/-- `BellInner::ring`, up to its `fetch_or`: only the first bit calls for a signal. -/
def fetchOr (d : Doorbell) (i : ℕ) (bit : BitVec 64) : Doorbell :=
  { d with
    hint := d.hint ||| bit
    signalling := Function.update d.signalling i (d.hint == 0)
    rings := d.rings ++ [(bit, d.takes.length)] }

/-- `Wake::signal`: a byte, unless the channel is full. -/
def signal (d : Doorbell) (i : ℕ) : Doorbell :=
  { d with
    channel := if d.channel < d.capacity then d.channel + 1 else d.channel
    signalling := Function.update d.signalling i false }

/-- The bytes that `Receiver::drain` may read. -/
def readable (d : Doorbell) (n : ℕ) : Bool :=
  if d.channel = 0 then n == 0 else decide (0 < n ∧ n ≤ d.channel ∧ n ≤ 4096)

/-- `Doorbell::take`. -/
def take (d : Doorbell) : Doorbell := { d with hint := 0, takes := d.takes ++ [d.hint] }

/-- **One step of a doorbell.** -/
def step (d : Doorbell) : DoorbellLabel → Option Doorbell
  | .fetchOr i bit => if d.signalling i then none else some (d.fetchOr i bit)
  | .signal i => if d.signalling i then some (d.signal i) else none
  | .wait => if d.consumer = .out then some { d with consumer := .drain } else none
  | .drain n =>
      if d.consumer = .drain ∧ d.readable n = true then
        some { d with channel := d.channel - n, consumer := .take }
      else none
  | .take stop =>
      match d.consumer with
      -- a take between two waits
      | .out => some d.take
      | .take => some { d.take with
          consumer := if d.hint ≠ 0 ∨ stop = true then .out else .asleep }
      | _ => none
  | .wake stop =>
      if d.consumer = .asleep ∧ (d.channel ≠ 0 ∨ stop = true) then some { d with consumer := .drain }
      else none
  | .fail =>
      match d.consumer with
      | .drain | .asleep => some { d with consumer := .out }
      | _ => none

/-! ### What keeps the consumer awake -/

/-- The bits of the mask are all set. -/
def Has (hint bit : BitVec 64) : Prop := ∀ n, bit.getLsbD n = true → hint.getLsbD n = true

lemma has_or_left {hint bit : BitVec 64} (h : Has hint bit) (more : BitVec 64) :
    Has (hint ||| more) bit := by
  intro n hn
  rw [BitVec.getLsbD_or, h n hn, Bool.true_or]

lemma has_or_right (hint bit : BitVec 64) : Has (hint ||| bit) bit := by
  intro n hn
  rw [BitVec.getLsbD_or, hn, Bool.or_true]

/-- **A word that is not empty is on its way to the consumer**: its first ringer has still
to signal, or a byte is in the channel, or the consumer is between its drain and its take. -/
def Kept (d : Doorbell) : Prop :=
  d.hint ≠ 0 → (∃ i, d.signalling i = true) ∨ d.channel ≠ 0 ∨ d.consumer = .take

/-- **A mask that has been set is still there, or a take after it has returned it.** -/
def Recorded (d : Doorbell) : Prop :=
  ∀ x ∈ d.rings, x.2 ≤ d.takes.length ∧
    (Has d.hint x.1 ∨ ∃ taken ∈ d.takes.drop x.2, Has taken x.1)

variable {d d' : Doorbell}

/-- A bit is set, by the first ringer or by another. -/
lemma Kept.fetchOr (h : d.Kept) {i : ℕ} (hi : d.signalling i = false) (bit : BitVec 64) :
    (d.fetchOr i bit).Kept := by
  intro _
  by_cases hzero : d.hint = 0
  · refine Or.inl ⟨i, ?_⟩
    show Function.update d.signalling i (d.hint == 0) i = true
    rw [Function.update_self, hzero]
    rfl
  · rcases h hzero with ⟨j, hj⟩ | hrest
    · refine Or.inl ⟨j, ?_⟩
      have hij : j ≠ i := by
        rintro rfl
        cases hj.symm.trans hi
      show Function.update d.signalling i (d.hint == 0) j = true
      rw [Function.update_of_ne hij]
      exact hj
    · exact Or.inr hrest

/-- A signal leaves a byte in the channel. -/
lemma Kept.signal (hcapacity : 0 < d.capacity) (i : ℕ) : (d.signal i).Kept := by
  intro _
  refine Or.inr (Or.inl ?_)
  show (if d.channel < d.capacity then d.channel + 1 else d.channel) ≠ 0
  split_ifs <;> omega

lemma Recorded.fetchOr (h : d.Recorded) (i : ℕ) (bit : BitVec 64) :
    (d.fetchOr i bit).Recorded := by
  intro x hx
  rcases List.mem_append.mp hx with hx | hx
  · obtain ⟨hle, hhas | htaken⟩ := h x hx
    · exact ⟨hle, Or.inl (has_or_left hhas bit)⟩
    · exact ⟨hle, Or.inr htaken⟩
  · rw [List.mem_singleton.mp hx]
    exact ⟨Nat.le_refl _, Or.inl (has_or_right d.hint bit)⟩

/-- A take returns what the word held. -/
lemma Recorded.take (h : d.Recorded) : d.take.Recorded := by
  intro x hx
  obtain ⟨hle, hhas⟩ := h x hx
  have hdrop : d.take.takes.drop x.2 = d.takes.drop x.2 ++ [d.hint] :=
    List.drop_append_of_le_length hle
  refine ⟨?_, Or.inr ?_⟩
  · show x.2 ≤ (d.takes ++ [d.hint]).length
    rw [List.length_append]
    omega
  · rw [hdrop]
    rcases hhas with hhas | ⟨taken, htaken, hhas⟩
    · exact ⟨d.hint, List.mem_append_right _ List.mem_cons_self, hhas⟩
    · exact ⟨taken, List.mem_append_left _ htaken, hhas⟩

/-- **Every step keeps what keeps the consumer awake, and loses no bit.** -/
lemma Kept.step (hcapacity : 0 < d.capacity) (hk : d.Kept) (hr : d.Recorded) {l : DoorbellLabel}
    (hs : d.step l = some d') : d'.capacity = d.capacity ∧ d'.Kept ∧ d'.Recorded := by
  cases l with
  | fetchOr i bit =>
      rw [Doorbell.step] at hs
      split_ifs at hs with hi
      cases hs
      exact ⟨rfl, hk.fetchOr (by simpa using hi) bit, hr.fetchOr i bit⟩
  | signal i =>
      rw [Doorbell.step] at hs
      split_ifs at hs
      cases hs
      exact ⟨rfl, Kept.signal hcapacity i, hr⟩
  | wait =>
      rw [Doorbell.step] at hs
      split_ifs at hs with hout
      cases hs
      refine ⟨rfl, fun hne => ?_, hr⟩
      rcases hk hne with hsignal | hchannel | htake
      · exact Or.inl hsignal
      · exact Or.inr (Or.inl hchannel)
      · cases hout.symm.trans htake
  | drain n =>
      rw [Doorbell.step] at hs
      split_ifs at hs
      cases hs
      exact ⟨rfl, fun _ => Or.inr (Or.inr rfl), hr⟩
  | take stop =>
      rw [Doorbell.step] at hs
      cases hpc : d.consumer with
      | out =>
          rw [hpc] at hs
          cases hs
          exact ⟨rfl, fun h0 => absurd rfl h0, hr.take⟩
      | take =>
          rw [hpc] at hs
          cases hs
          exact ⟨rfl, fun h0 => absurd rfl h0, hr.take⟩
      | drain =>
          rw [hpc] at hs
          cases hs
      | asleep =>
          rw [hpc] at hs
          cases hs
  | wake stop =>
      rw [Doorbell.step] at hs
      split_ifs at hs with hasleep
      cases hs
      refine ⟨rfl, fun hne => ?_, hr⟩
      rcases hk hne with hsignal | hchannel | htake
      · exact Or.inl hsignal
      · exact Or.inr (Or.inl hchannel)
      · cases hasleep.1.symm.trans htake
  | fail =>
      rw [Doorbell.step] at hs
      have hsame : d.consumer ≠ .take ∧ d' = { d with consumer := .out } := by
        cases hpc : d.consumer with
        | out =>
            rw [hpc] at hs
            cases hs
        | take =>
            rw [hpc] at hs
            cases hs
        | drain =>
            rw [hpc] at hs
            exact ⟨fun h0 => (nomatch h0), (Option.some.inj hs).symm⟩
        | asleep =>
            rw [hpc] at hs
            exact ⟨fun h0 => (nomatch h0), (Option.some.inj hs).symm⟩
      obtain ⟨hne, rfl⟩ := hsame
      refine ⟨rfl, fun hhint => ?_, hr⟩
      rcases hk hhint with hsignal | hchannel | htake
      · exact Or.inl hsignal
      · exact Or.inr (Or.inl hchannel)
      · exact absurd htake hne

end Doorbell

/-- **No wake is lost.** In every interleaving of any ringers with the waits and takes of
the consumer, over a channel that holds at least one byte:

* a consumer that sleeps on an empty channel, while no ringer is between its `fetch_or` and
  its signal, has no bit to take;
* every mask that a ring has set is still in the word, or a take after the ring has
  returned it. -/
theorem no_lost_wake {capacity : ℕ} (hcapacity : 0 < capacity) {d : Doorbell}
    (h : Reaches Doorbell.step Always { capacity } d) :
    (d.consumer = .asleep → d.channel = 0 → (∀ i, d.signalling i = false) → d.hint = 0) ∧
    ∀ x ∈ d.rings, Doorbell.Has d.hint x.1 ∨
      ∃ taken ∈ d.takes.drop x.2, Doorbell.Has taken x.1 := by
  obtain ⟨-, hkept, hrecorded⟩ := h.invariant
    (P := fun d => d.capacity = capacity ∧ d.Kept ∧ d.Recorded)
    ⟨rfl, fun h0 => absurd rfl h0, fun x hx => (nomatch hx)⟩ fun a l b hp _ hs => by
      obtain ⟨hsame, hkept, hrecorded⟩ := Doorbell.Kept.step (hp.1 ▸ hcapacity) hp.2.1 hp.2.2 hs
      exact ⟨hsame.trans hp.1, hkept, hrecorded⟩
  refine ⟨fun hasleep hempty hquiet => ?_, fun x hx => (hrecorded x hx).2⟩
  by_contra hne
  rcases hkept hne with ⟨i, hi⟩ | hchannel | htake
  · cases (hquiet i).symm.trans hi
  · exact hchannel hempty
  · cases hasleep.symm.trans htake

/-- Two ringers, of which the first signals late, and a consumer that waits twice. -/
def rungTwice : List DoorbellLabel :=
  [.wait, .drain 0, .fetchOr 0 1, .fetchOr 1 2, .take false, .signal 0, .wait, .drain 1,
    .take false]

theorem no_lost_wake_rungTwice :
    let d := play Doorbell.step { capacity := 1 } rungTwice
    (d.takes = [3, 0] ∧ d.consumer = .asleep) ∧
    (d.consumer = .asleep → d.channel = 0 → (∀ i, d.signalling i = false) → d.hint = 0) ∧
    ∀ x ∈ d.rings, Doorbell.Has d.hint x.1 ∨
      ∃ taken ∈ d.takes.drop x.2, Doorbell.Has taken x.1 := by
  refine ⟨by decide +kernel, ?_⟩
  exact no_lost_wake Nat.zero_lt_one (Reaches.of_play _ _ _)

end Jackstay.Audio
