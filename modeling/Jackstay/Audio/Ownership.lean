import Mathlib.Data.List.Nodup
import Jackstay.Audio.Recording

/-!
Who owns the rings of a recording track.

A ring is unmapped when its last `Arc` goes. The track keeps its first ring, the table keeps
the ring of the admitted writer, and the list of retired rings keeps those that the source
may still read: a retired ring is let go when its strong count says that nobody else has it.
`Recording.retire` lets it go when the source does not hold it; `retire_eq_retain` says that
these are the same test in every reachable state.

* `Recording.strongCount`: the owners of a ring.
* `Recording.Owned`: the invariant of the owners.
* `never_unmaps`: the ring of the source has another owner, so that a read that takes a new
  ring over does not unmap the old one.
-/

namespace Jackstay.Audio

open Transition

namespace Recording

/-- `Arc::strong_count` of the ring of an epoch: the track has ring 0, the table has the ring
of the writer, the list has the retired ones, and the source has the ring it reads. -/
def strongCount (t : Recording) (e : ℕ) : ℕ :=
  (if e = 0 then 1 else 0) + t.current.toList.count e + t.retired.count e +
    (if t.ring = e then 1 else 0)

/-- The first half of `Writers::retire`: the ring of the writer joins the retired ones. -/
def extend (t : Recording) : Recording :=
  { t with retired := t.retired ++ t.current.toList, current := none }

/-- The second half of `Writers::retire`: rings that nobody else has are let go. -/
def retain (t : Recording) : Recording :=
  { t with retired := t.retired.filter fun e => 1 < t.strongCount e }

/-- **The invariant of the owners**: the ring of the source has another one, and the host
has every ring once. -/
structure Owned (t : Recording) : Prop where
  ring : t.ring = 0 ∨ t.current = some t.ring ∨ t.ring ∈ t.retired
  nodup : (t.retired ++ t.current.toList).Nodup
  range : ∀ e ∈ t.retired ++ t.current.toList, 0 < e ∧ e ≤ t.epoch

variable {t t' : Recording}

/-! ### Pruning -/

/-- A ring of the list has an owner beside the list exactly if the source holds it. -/
lemma Owned.one_lt_strongCount (h : t.Owned) {e : ℕ} (he : e ∈ t.extend.retired) :
    1 < t.extend.strongCount e ↔ e = t.ring := by
  have hpos := (h.range e he).1
  have hcount : t.extend.retired.count e = 1 := List.count_eq_one_of_mem h.nodup he
  have hsum : t.extend.strongCount e = 1 + (if t.ring = e then 1 else 0) := by
    rw [strongCount, if_neg (by omega), hcount]
    show 0 + ([] : List ℕ).count e + 1 + _ = _
    rw [List.count_nil]
    rfl
  rw [hsum]
  constructor
  · intro hlt
    split_ifs at hlt with hring
    · exact hring.symm
    · omega
  · rintro rfl
    rw [if_pos rfl]
    omega

/-- **The pruning of retired rings is by their strong count.** -/
lemma Owned.retire_eq_retain (h : t.Owned) : t.retire = t.extend.retain := by
  have hfilter : (t.extend.retired.filter fun e => e = t.ring) =
      t.extend.retired.filter fun e => 1 < t.extend.strongCount e := by
    refine List.filter_congr fun e he => ?_
    rw [decide_eq_decide]
    exact (h.one_lt_strongCount he).symm
  rw [retire, retain, ← hfilter]
  rfl

/-- Pruning keeps the ring of the source. -/
lemma Owned.retire (h : t.Owned) : t.retire.Owned := by
  have hnil : t.retire.current.toList = [] := rfl
  refine ⟨?_, ?_, ?_⟩
  · rcases h.ring with h0 | h0 | h0
    · exact Or.inl h0
    · refine Or.inr (Or.inr (List.mem_filter.mpr ⟨?_, decide_eq_true rfl⟩))
      rw [h0]
      exact List.mem_append_right _ (List.mem_singleton.mpr rfl)
    · refine Or.inr (Or.inr (List.mem_filter.mpr ⟨?_, decide_eq_true rfl⟩))
      exact List.mem_append_left _ h0
  · rw [hnil, List.append_nil]
    exact h.nodup.filter _
  · rw [hnil, List.append_nil]
    intro e he
    exact h.range e (List.mem_of_mem_filter he)

/-- The ring of a new writer is one that the host does not have. -/
lemma Owned.insert (h : t.Owned) (hcurrent : t.current = none)
    (ht : t'.ring = t.ring ∧ t'.retired = t.retired ∧ t'.epoch = t.epoch + 1 ∧
      t'.current = some (t.epoch + 1)) : t'.Owned := by
  obtain ⟨hring, hretired, hepoch, hnew⟩ := ht
  have hold : t.retired ++ t.current.toList = t.retired := by
    rw [hcurrent, Option.toList_none, List.append_nil]
  have hnodup := h.nodup
  have hrange := h.range
  rw [hold] at hnodup hrange
  refine ⟨?_, ?_, ?_⟩
  · rw [hring, hretired]
    rcases h.ring with h0 | h0 | h0
    · exact Or.inl h0
    · cases hcurrent.symm.trans h0
    · exact Or.inr (Or.inr h0)
  · rw [hretired, hnew, Option.toList_some]
    refine List.nodup_append.mpr ⟨hnodup, List.nodup_singleton _, fun a ha b hb => ?_⟩
    have hle := (hrange a ha).2
    rw [List.mem_singleton.mp hb]
    omega
  · rw [hretired, hnew, hepoch, Option.toList_some]
    intro e he
    rcases List.mem_append.mp he with he | he
    · have hle := hrange e he
      omega
    · rw [List.mem_singleton.mp he]
      omega

/-! ### The steps -/

/-- What a step does to the owners: nothing, or the host retires a ring, admits a writer with
a new one, or the source takes over the ring in the table. -/
inductive Moves (t : Recording) (l : RecordingLabel) (t' : Recording) : Prop
  | same (ring : t'.ring = t.ring) (current : t'.current = t.current)
      (retired : t'.retired = t.retired) (epoch : t'.epoch = t.epoch)
  | create (ring : t'.ring = t.ring) (current : t'.current = some (t.epoch + 1))
      (retired : t'.retired = t.retire.retired) (epoch : t'.epoch = t.epoch + 1)
  | retire (ring : t'.ring = t.ring) (current : t'.current = none)
      (retired : t'.retired = t.retire.retired) (epoch : t'.epoch = t.epoch)
  | switch (label : l = .tryLock true) (host : t.host = .unlocked)
      (new : t.current = some t'.ring) (current : t'.current = t.current)
      (retired : t'.retired = t.retired) (epoch : t'.epoch = t.epoch)

lemma settle_owners (t : Recording) (epoch : ℕ) (leases : List ℕ) :
    (t.settle epoch leases).ring = t.ring ∧ (t.settle epoch leases).current = t.current ∧
      (t.settle epoch leases).retired = t.retired ∧ (t.settle epoch leases).epoch = t.epoch := by
  rw [settle]
  split_ifs
  · exact ⟨rfl, rfl, rfl, rfl⟩
  · exact ⟨rfl, rfl, rfl, rfl⟩

lemma Moves.settle {l : RecordingLabel} (h : t.Moves l t') (epoch : ℕ) (leases : List ℕ) :
    t.Moves l (t'.settle epoch leases) := by
  obtain ⟨hring, hcurrent, hretired, hepoch⟩ := t'.settle_owners epoch leases
  cases h with
  | same h₁ h₂ h₃ h₄ =>
      exact .same (hring.trans h₁) (hcurrent.trans h₂) (hretired.trans h₃) (hepoch.trans h₄)
  | create h₁ h₂ h₃ h₄ =>
      exact .create (hring.trans h₁) (hcurrent.trans h₂) (hretired.trans h₃) (hepoch.trans h₄)
  | retire h₁ h₂ h₃ h₄ =>
      exact .retire (hring.trans h₁) (hcurrent.trans h₂) (hretired.trans h₃) (hepoch.trans h₄)
  | switch hlabel hhost h₁ h₂ h₃ h₄ =>
      refine .switch hlabel hhost ?_ (hcurrent.trans h₂) (hretired.trans h₃) (hepoch.trans h₄)
      rw [hring]
      exact h₁

lemma Moves.refl (t : Recording) (l : RecordingLabel) : t.Moves l t := .same rfl rfl rfl rfl

/-- The source holds the lock. -/
lemma Moves.of_switch (hhost : t.host = .unlocked) (epoch : ℕ) :
    t.Moves (.tryLock true) (t.switch epoch) := by
  rw [Recording.switch]
  split
  · next ring hring =>
      split_ifs
      · exact .switch rfl hhost hring rfl rfl rfl
      · exact .refl t _
  · exact .refl t _

lemma Moves.of_onWriter {e : ℕ} {l : WriterLabel} (hs : t.onWriter e l = some t')
    (l' : RecordingLabel) : t.Moves l' t' := by
  obtain ⟨w, -, hs⟩ := Option.bind_eq_some_iff.mp hs
  obtain ⟨x, -, hs⟩ := Option.bind_eq_some_iff.mp hs
  cases hs
  exact .same rfl rfl rfl rfl

/-- **What a step does to the owners.** -/
lemma Moves.of_step {l : RecordingLabel} (hs : t.step l = some t') : t.Moves l t' := by
  cases l with
  | claim | enroll | drop | withdraw | map _ =>
      rw [Recording.step] at hs
      split_ifs at hs
      cases hs
      exact .same rfl rfl rfl rfl
  | create ok =>
      rw [Recording.step] at hs
      split_ifs at hs
      · cases hs
        exact .same rfl rfl rfl rfl
      · cases hs
        exact .create rfl rfl rfl rfl
  | retire =>
      rw [Recording.step] at hs
      split_ifs at hs
      cases hs
      exact .retire rfl rfl rfl rfl
  | write _ _ _ => exact .of_onWriter hs _
  | discontinuity _ => exact .of_onWriter hs _
  | store _ => exact .of_onWriter hs _
  | read =>
      rw [Recording.step] at hs
      split_ifs at hs
      · cases hs
        exact .same rfl rfl rfl rfl
      · cases hs
        exact (Moves.refl t _).settle _ _
  | tryLock ok =>
      rw [Recording.step] at hs
      split at hs
      · split_ifs at hs with hok hhost
        · cases hs
          subst hok
          exact (Moves.of_switch hhost _).settle _ _
        · cases hs
          exact (Moves.refl t _).settle _ _
      · cases hs
  | load =>
      rw [Recording.step] at hs
      split at hs
      · obtain ⟨r, -, hs⟩ := Option.map_eq_some_iff.mp hs
        subst hs
        split_ifs
        · exact .same rfl rfl rfl rfl
        · exact .same rfl rfl rfl rfl
      · cases hs

/-- **Every step keeps the invariant of the owners.** -/
lemma Owned.step (h : t.Owned) {l : RecordingLabel} (hs : t.step l = some t') : t'.Owned := by
  cases Moves.of_step hs with
  | same hring hcurrent hretired hepoch =>
      refine ⟨?_, ?_, ?_⟩
      · rw [hring, hcurrent, hretired]
        exact h.ring
      · rw [hretired, hcurrent]
        exact h.nodup
      · rw [hretired, hcurrent, hepoch]
        exact h.range
  | create hring hcurrent hretired hepoch =>
      exact h.retire.insert rfl ⟨hring, hretired, hepoch, hcurrent⟩
  | retire hring hcurrent hretired hepoch =>
      refine ⟨?_, ?_, ?_⟩
      · rw [hring, hcurrent, hretired]
        exact h.retire.ring
      · rw [hretired, hcurrent]
        exact h.retire.nodup
      · rw [hretired, hcurrent, hepoch]
        exact h.retire.range
  | switch _ _ hnew hcurrent hretired hepoch =>
      refine ⟨Or.inr (Or.inl (hcurrent.trans hnew)), ?_, ?_⟩
      · rw [hretired, hcurrent]
        exact h.nodup
      · rw [hretired, hcurrent, hepoch]
        exact h.range

/-- The ring of the source has an owner beside the source. -/
lemma Owned.one_lt (h : t.Owned) : 1 < t.strongCount t.ring := by
  rw [strongCount, if_pos rfl]
  rcases h.ring with h0 | h0 | h0
  · rw [if_pos h0]
    omega
  · have hcount : 0 < t.current.toList.count t.ring := by
      rw [h0]
      exact List.count_pos_iff.mpr (List.mem_singleton.mpr rfl)
    omega
  · have hcount : 0 < t.retired.count t.ring := List.count_pos_iff.mpr h0
    omega

/-- A step that replaces the ring of the source leaves the old one with its other owner. -/
lemma Owned.replaced (h : t.Owned) {l : RecordingLabel} (hs : t.step l = some t')
    (hne : t'.ring ≠ t.ring) :
    l = .tryLock true ∧ t.host = .unlocked ∧ 0 < t'.strongCount t.ring := by
  cases Moves.of_step hs with
  | same hring => exact absurd hring hne
  | create hring => exact absurd hring hne
  | retire hring => exact absurd hring hne
  | switch hlabel hhost _ hcurrent hretired =>
      refine ⟨hlabel, hhost, ?_⟩
      have hcount := h.one_lt
      rw [strongCount, if_pos rfl] at hcount
      rw [strongCount, hcurrent, hretired]
      omega

lemma Owned.of_new {s : Settings} {latency : ℕ} (h : Recording.new s latency = some t) :
    t.Owned := by
  obtain ⟨ring, -, h⟩ := Option.bind_eq_some_iff.mp h
  cases h
  exact ⟨Or.inl rfl, List.nodup_nil, fun e he => (nomatch he)⟩

end Recording

/-- **The audio thread never unmaps.** In every interleaving of claims, drops of leases,
writes and reads:

* the ring that the source holds is the first one of the track, that of the writer in the
  table, or a retired one;
* retired rings are pruned by their strong count;
* a step that replaces the ring of the source is a read that has the lock, and the old ring
  has an owner before and after it. -/
theorem never_unmaps {s : Settings} {latency : ℕ} {t₀ t : Recording}
    (h₀ : Recording.new s latency = some t₀) (h : Reaches Recording.step Always t₀ t) :
    (t.ring = 0 ∨ t.current = some t.ring ∨ t.ring ∈ t.retired) ∧
    t.retire = t.extend.retain ∧
    ∀ l t', t.step l = some t' → t'.ring ≠ t.ring →
      l = .tryLock true ∧ t.host = .unlocked ∧ 1 < t.strongCount t.ring ∧
        0 < t'.strongCount t.ring := by
  have howned := h.invariant (P := Recording.Owned) (Recording.Owned.of_new h₀)
    fun a l b hp _ hs => hp.step hs
  refine ⟨howned.ring, howned.retire_eq_retain, fun l t' hs hne => ?_⟩
  obtain ⟨hlabel, hhost, hcount⟩ := howned.replaced hs hne
  exact ⟨hlabel, hhost, howned.one_lt, hcount⟩

/-- Two writers one after the other; the source reads the first and takes the second over. -/
def succeeded : List RecordingLabel :=
  [.claim, .create true, .enroll, .read, .tryLock true, .load, .drop, .withdraw, .retire, .claim,
    .create true, .enroll, .read]

theorem never_unmaps_succeeded :
    let t := play Recording.step tinyRecording succeeded
    let t' := play Recording.step t [.tryLock true]
    (t.ring, t.current, t.retired) = (1, some 2, [1]) ∧ t'.ring = 2 ∧
    (t.ring = 0 ∨ t.current = some t.ring ∨ t.ring ∈ t.retired) ∧
    t.retire = t.extend.retain ∧
    ∀ l t', t.step l = some t' → t'.ring ≠ t.ring →
      l = .tryLock true ∧ t.host = .unlocked ∧ 1 < t.strongCount t.ring ∧
        0 < t'.strongCount t.ring := by
  intro t t'
  have hreach : Reaches Recording.step Always tinyRecording t := Reaches.of_play _ _ _
  exact ⟨by decide +kernel, by decide +kernel, never_unmaps new_tiny hreach⟩

end Jackstay.Audio
