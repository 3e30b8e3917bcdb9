import Jackstay.Library.Transition
import Jackstay.Video.NativeTrack

/-!
`native/windows/timeline.rs`: notifications at the values of a fence.

`notify_at` asks the fence to set an event at a value, records the notification, and then
fires what has completed. A wait of the system thread pool watches the event: each time it is
set the wait resets it and runs a callback, which fires as well. To fire is to read the
completed value, and then, under the lock, to notify and take out all that is recorded up to
it.

Calls and callbacks run side by side, and the value that one of them has read may be out of
date when it takes the lock. The event is set some time after the fence has reached a value
that was asked for; events that are set before the wait resets them are one. A notification
is named by the call that has recorded it. `notified` is a history variable.

* `Notifier.Sound`: a recorded value that has completed is taken out by an event, a callback
  or a call that is under way.
* `nothing_lost`: when nothing is under way nothing that has completed is recorded; a
  notification is notified once, and when its value has completed.
-/

namespace Jackstay.Native

open Transition Video

/-- Where `fire` is. -/
inductive FirePc where
  | querying
  /-- with the completed value that was read -/
  | firing (completed : ℕ)
  | done
  deriving DecidableEq, Repr

/-- Where `notify_at` is. -/
inductive NotifyPc where
  | registering
  | arming
  | recording
  | fire (pc : FirePc)
  | failed (error : NativeError)
  deriving DecidableEq, Repr

/-- A call of `notify_at`, or a callback of the wait. -/
inductive Thread where
  | notify (value : ℕ) (pc : NotifyPc)
  | callback (pc : FirePc)
  deriving DecidableEq, Repr

/-- `Notifier` with its `Waiter`, the fence, the event and the wait. -/
structure Notifier where
  /-- what `GetCompletedValue` answers -/
  completed : ℕ
  registration : Option (Except String Unit) := none
  /-- the values at which the event is still to be set -/
  armed : List ℕ := []
  event : Bool := false
  /-- the values that are recorded, each with the call that has recorded it -/
  pending : List (ℕ × ℕ) := []
  threads : List Thread := []
  notified : List ℕ := []

/-- What may happen next. -/
inductive NotifierLabel where
  /-- `notify_at` is called -/
  | notifyAt (value : ℕ)
  /-- a thread goes on; the answer is that of the system, if it is asked -/
  | thread (i : ℕ) (answer : Except String Unit)
  /-- the fence completes a value -/
  | advance (value : ℕ)
  /-- the event is set for a value that was armed -/
  | set (value : ℕ)
  /-- the wait resets the event, and a callback is due -/
  | reset

namespace Notifier

/-- `failure`. -/
def failure (message : String) : NativeError := .nativeBackend "fence-notification" message

/-- Thread `i` is there now. -/
def goto (n : Notifier) (i : ℕ) (t : Thread) : Notifier :=
  { n with threads := n.threads.set i t }

/-- The loop of `fire`, under the lock. -/
def fire (n : Notifier) (completed : ℕ) : Notifier :=
  { n with
    pending := n.pending.filter fun p => decide (completed < p.1)
    notified := n.notified ++ (n.pending.filter fun p => decide (p.1 ≤ completed)).map (·.2) }

/-- One step of `fire`. -/
def fireStep (n : Notifier) : FirePc → Option (Notifier × FirePc)
  | .querying => some (n, .firing n.completed)
  | .firing completed => some (n.fire completed, .done)
  | .done => none

/-- One step of `notify_at`. -/
def notifyStep (n : Notifier) (i value : ℕ) (answer : Except String Unit) :
    NotifyPc → Option Notifier
  | .registering =>
      -- `get_or_init`: what the first call gets stays
      let registration := n.registration.getD answer
      let n := { n with registration := some registration }
      match registration with
      | .ok () => some (n.goto i (.notify value .arming))
      | .error message => some (n.goto i (.notify value (.failed (failure message))))
  | .arming =>
      match answer with
      | .ok () =>
          some ({ n with armed := n.armed ++ [value] }.goto i (.notify value .recording))
      | .error message => some (n.goto i (.notify value (.failed (failure message))))
  | .recording =>
      some ({ n with pending := n.pending ++ [(value, i)] }.goto i
        (.notify value (.fire .querying)))
  | .fire pc => (n.fireStep pc).map fun r => r.1.goto i (.notify value (.fire r.2))
  | .failed _ => none

/-- **One step of the calls, the callbacks and the system.** -/
def step (n : Notifier) : NotifierLabel → Option Notifier
  | .notifyAt value => some { n with threads := n.threads ++ [.notify value .registering] }
  | .thread i answer =>
      match n.threads[i]? with
      | none => none
      | some (.notify value pc) => n.notifyStep i value answer pc
      | some (.callback pc) => (n.fireStep pc).map fun r => r.1.goto i (.callback r.2)
  | .advance value => if n.completed ≤ value then some { n with completed := value } else none
  | .set value =>
      if value ∈ n.armed ∧ value ≤ n.completed then
        some { n with armed := n.armed.erase value, event := true }
      else none
  | .reset =>
      if n.event then
        some { n with event := false, threads := n.threads ++ [.callback .querying] }
      else none

end Notifier

/-- Whether the thread will take out a value that has completed. -/
def FirePc.takes (value : ℕ) : FirePc → Bool
  | .querying => true
  | .firing completed => value ≤ completed
  | .done => false

/-- Where the thread is in `fire`. -/
def Thread.firePc : Thread → Option FirePc
  | .notify _ (.fire pc) => some pc
  | .notify _ _ => none
  | .callback pc => some pc

/-- Whether the thread will take out a value that has completed. -/
def Thread.takes (t : Thread) (value : ℕ) : Bool := t.firePc.any (·.takes value)

/-- The value of a notification that the thread has recorded. -/
def Thread.recorded : Thread → Option ℕ
  | .notify value (.fire _) => some value
  | _ => none

/-- The thread has returned. -/
def Thread.returned : Thread → Bool
  | .notify _ (.fire .done) => true
  | .notify _ (.failed _) => true
  | .callback .done => true
  | _ => false

namespace Notifier

/-- No call and no callback is in progress or due. -/
def Quiescent (n : Notifier) : Prop :=
  (∀ t ∈ n.threads, t.returned = true) ∧ n.event = false ∧ ∀ value ∈ n.armed, n.completed < value

/-- A value that has completed will be taken out. -/
def Due (n : Notifier) (value : ℕ) : Prop :=
  n.event = true ∨ ∃ (i : ℕ) (t : Thread), n.threads[i]? = some t ∧ t.takes value = true

/-- **What holds of the notifications**, however the threads take turns. -/
structure Sound (n : Notifier) : Prop where
  armed : ∀ (i value : ℕ), n.threads[i]? = some (Thread.notify value .recording) →
    value ∈ n.armed ∨ value ≤ n.completed
  due : ∀ p ∈ n.pending, p.1 ∈ n.armed ∨ p.1 ≤ n.completed ∧ n.Due p.1
  read : ∀ (i : ℕ) (t : Thread) (completed : ℕ), n.threads[i]? = some t →
    t.firePc = some (.firing completed) → completed ≤ n.completed
  recorded : ∀ (i : ℕ) (t : Thread) (value : ℕ), n.threads[i]? = some t →
    t.recorded = some value → (value, i) ∈ n.pending ∨ i ∈ n.notified
  pending : ∀ p ∈ n.pending, ∃ t, n.threads[p.2]? = some t ∧ t.recorded = some p.1
  notified : ∀ i ∈ n.notified, ∃ t value, n.threads[i]? = some t ∧ t.recorded = some value ∧
    value ≤ n.completed
  once : (n.pending.map (·.2) ++ n.notified).Nodup

section Steps

variable {n n' : Notifier} {i : ℕ}

/-- A place of a list in which one place was written. -/
lemma getElem?_set_cases {α : Type} {xs : List α} {j : ℕ} {x y : α}
    (h : (xs.set i x)[j]? = some y) : j = i ∧ y = x ∨ j ≠ i ∧ xs[j]? = some y := by
  rw [List.getElem?_set] at h
  split_ifs at h with hj hlt
  · cases h
    exact Or.inl ⟨hj.symm, rfl⟩
  · exact Or.inr ⟨fun h0 => hj h0.symm, h⟩

lemma getElem?_goto_ne {t : Thread} {j : ℕ} (h : j ≠ i) :
    (n.goto i t).threads[j]? = n.threads[j]? := List.getElem?_set_ne (Ne.symm h)

lemma getElem?_goto_self {t old : Thread} (h : n.threads[i]? = some old) :
    (n.goto i t).threads[i]? = some t := by
  rw [goto, List.getElem?_set_self (List.getElem?_eq_some_iff.mp h).1]

/-- A place of a list that has grown at its end. -/
lemma getElem?_concat_cases {α : Type} {xs : List α} {j : ℕ} {x y : α}
    (h : (xs ++ [x])[j]? = some y) : xs[j]? = some y ∨ y = x := by
  rw [List.getElem?_append] at h
  split_ifs at h
  · exact Or.inl h
  · exact Or.inr (List.mem_singleton.mp (List.mem_of_getElem? h))

lemma getElem?_concat {α : Type} {xs : List α} {j : ℕ} {x y : α} (h : xs[j]? = some y) :
    (xs ++ [x])[j]? = some y := by
  rw [List.getElem?_append_left (List.getElem?_eq_some_iff.mp h).1]
  exact h

/-- A step that neither records nor notifies. -/
structure Keeps (n n' : Notifier) : Prop where
  completed_le : n.completed ≤ n'.completed
  armed : ∀ value ∈ n.armed, value ∈ n'.armed ∨ value ≤ n'.completed ∧ n'.event = true
  due : ∀ value ≤ n.completed, n.Due value → n'.Due value
  pending : n'.pending = n.pending
  notified : n'.notified = n.notified
  recording : ∀ (i value : ℕ), n'.threads[i]? = some (Thread.notify value .recording) →
    n.threads[i]? = some (Thread.notify value .recording) ∨ value ∈ n'.armed
  read : ∀ (i : ℕ) (t : Thread) (completed : ℕ), n'.threads[i]? = some t →
    t.firePc = some (.firing completed) → n.threads[i]? = some t ∨ completed ≤ n.completed
  recorded : ∀ (i : ℕ) (t' : Thread) (value : ℕ), n'.threads[i]? = some t' →
    t'.recorded = some value → ∃ t, n.threads[i]? = some t ∧ t.recorded = some value
  kept : ∀ (i : ℕ) (t : Thread) (value : ℕ), n.threads[i]? = some t →
    t.recorded = some value → ∃ t', n'.threads[i]? = some t' ∧ t'.recorded = some value

lemma Sound.keeps (h : n.Sound) (hk : n.Keeps n') : n'.Sound := by
  have harmed : ∀ value, value ∈ n.armed ∨ value ≤ n.completed →
      value ∈ n'.armed ∨ value ≤ n'.completed := by
    rintro value (hmem | hle)
    · exact (hk.armed value hmem).imp_right And.left
    · exact Or.inr (Nat.le_trans hle hk.completed_le)
  constructor
  · intro j value hget
    rcases hk.recording j value hget with hold | hmem
    · exact harmed value (h.armed j value hold)
    · exact Or.inl hmem
  · rw [hk.pending]
    intro p hp
    rcases h.due p hp with hmem | ⟨hle, hdue⟩
    · rcases hk.armed p.1 hmem with hmem | ⟨hle, hevent⟩
      · exact Or.inl hmem
      · exact Or.inr ⟨hle, Or.inl hevent⟩
    · exact Or.inr ⟨Nat.le_trans hle hk.completed_le, hk.due p.1 hle hdue⟩
  · intro j t completed hget hpc
    rcases hk.read j t completed hget hpc with hold | hle
    · exact Nat.le_trans (h.read j t completed hold hpc) hk.completed_le
    · exact Nat.le_trans hle hk.completed_le
  · rw [hk.pending, hk.notified]
    intro j t' value hget hrecorded
    obtain ⟨t, hold, ht⟩ := hk.recorded j t' value hget hrecorded
    exact h.recorded j t value hold ht
  · rw [hk.pending]
    intro p hp
    obtain ⟨t, hget, ht⟩ := h.pending p hp
    exact hk.kept p.2 t p.1 hget ht
  · rw [hk.notified]
    intro j hj
    obtain ⟨t, value, hget, ht, hle⟩ := h.notified j hj
    obtain ⟨t', hget', ht'⟩ := hk.kept j t value hget ht
    exact ⟨t', value, hget', ht', Nat.le_trans hle hk.completed_le⟩
  · rw [hk.pending, hk.notified]
    exact h.once

/-- A thread moves on and neither records nor notifies. -/
lemma Keeps.goto {old t : Thread} {registration : Option (Except String Unit)} {armed : List ℕ}
    (hget : n.threads[i]? = some old) (harmed : ∀ value ∈ n.armed, value ∈ armed)
    (htakes : ∀ value ≤ n.completed, old.takes value = true → t.takes value = true)
    (hrecording : ∀ value, t = .notify value .recording → value ∈ armed)
    (hread : ∀ completed, t.firePc = some (.firing completed) → completed ≤ n.completed)
    (hrecorded : t.recorded = old.recorded) :
    n.Keeps ({ n with registration, armed }.goto i t) := by
  have hself : ({ n with registration, armed }.goto i t).threads[i]? = some t :=
    getElem?_goto_self hget
  constructor
  · exact le_rfl
  · exact fun value hmem => Or.inl (harmed value hmem)
  · rintro value hle (hevent | ⟨j, u, hu, htake⟩)
    · exact Or.inl hevent
    · by_cases hj : j = i
      · rw [hj, hget] at hu
        cases hu
        exact Or.inr ⟨i, t, hself, htakes value hle htake⟩
      · exact Or.inr ⟨j, u, (getElem?_goto_ne hj).trans hu, htake⟩
  · rfl
  · rfl
  · intro j value hj
    rcases getElem?_set_cases hj with ⟨rfl, ht⟩ | ⟨-, hold⟩
    · exact Or.inr (hrecording value ht.symm)
    · exact Or.inl hold
  · intro j u completed hj hpc
    rcases getElem?_set_cases hj with ⟨rfl, rfl⟩ | ⟨-, hold⟩
    · exact Or.inr (hread completed hpc)
    · exact Or.inl hold
  · intro j u value hj hu
    rcases getElem?_set_cases hj with ⟨rfl, rfl⟩ | ⟨-, hold⟩
    · exact ⟨old, hget, hrecorded ▸ hu⟩
    · exact ⟨u, hold, hu⟩
  · intro j u value hj hu
    by_cases hji : j = i
    · rw [hji, hget] at hj
      cases hj
      exact ⟨t, hji ▸ hself, hrecorded.trans hu⟩
    · exact ⟨u, (getElem?_goto_ne hji).trans hj, hu⟩

/-- A call or a callback begins. -/
lemma Keeps.spawn {t : Thread} {event : Bool} (hrecorded : t.recorded = none)
    (hrecording : ∀ value, t ≠ .notify value .recording)
    (hread : ∀ completed, t.firePc ≠ some (.firing completed))
    (hevent : n.event = true → event = true ∨ t.firePc = some .querying) :
    n.Keeps { n with event, threads := n.threads ++ [t] } := by
  have hlast : (n.threads ++ [t])[n.threads.length]? = some t := List.getElem?_concat_length
  constructor
  · exact le_rfl
  · exact fun value hmem => Or.inl hmem
  · rintro value - (hset | ⟨j, u, hu, htake⟩)
    · rcases hevent hset with hset | hquery
      · exact Or.inl hset
      · exact Or.inr ⟨_, t, hlast, by rw [Thread.takes, hquery]; rfl⟩
    · exact Or.inr ⟨j, u, getElem?_concat hu, htake⟩
  · rfl
  · rfl
  · intro j value hj
    rcases getElem?_concat_cases hj with hold | ht
    · exact Or.inl hold
    · exact absurd ht.symm (hrecording value)
  · intro j u completed hj hpc
    rcases getElem?_concat_cases hj with hold | rfl
    · exact Or.inl hold
    · exact absurd hpc (hread completed)
  · intro j u value hj hu
    rcases getElem?_concat_cases hj with hold | rfl
    · exact ⟨u, hold, hu⟩
    · rw [hrecorded] at hu
      cases hu
  · exact fun j u value hj hu => ⟨u, getElem?_concat hj, hu⟩

/-- The fence completes a value. -/
lemma Keeps.advance {value : ℕ} (hle : n.completed ≤ value) :
    n.Keeps { n with completed := value } :=
  ⟨hle, fun _ hmem => Or.inl hmem, fun _ _ hdue => hdue, rfl, rfl, fun _ _ hj => Or.inl hj,
    fun _ _ _ hj _ => Or.inl hj, fun _ t _ hj ht => ⟨t, hj, ht⟩, fun _ t _ hj ht => ⟨t, hj, ht⟩⟩

/-- The event is set. -/
lemma Keeps.set {value : ℕ} (hle : value ≤ n.completed) :
    n.Keeps { n with armed := n.armed.erase value, event := true } := by
  refine ⟨le_rfl, fun other hmem => ?_, fun _ _ _ => Or.inl rfl, rfl, rfl, ?_,
    fun _ _ _ hj _ => Or.inl hj, fun _ t _ hj ht => ⟨t, hj, ht⟩, fun _ t _ hj ht => ⟨t, hj, ht⟩⟩
  · by_cases hsame : other = value
    · exact Or.inr ⟨hsame ▸ hle, rfl⟩
    · exact Or.inl ((List.mem_erase_of_ne hsame).mpr hmem)
  · exact fun _ _ hj => Or.inl hj

/-- **A call records its notification**, and is then about to fire. -/
lemma Sound.record (h : n.Sound) {value : ℕ}
    (hget : n.threads[i]? = some (.notify value .recording)) :
    ({ n with pending := n.pending ++ [(value, i)] }.goto i
      (.notify value (.fire .querying))).Sound := by
  have hself : ({ n with pending := n.pending ++ [(value, i)] }.goto i
      (.notify value (.fire .querying))).threads[i]? = some (.notify value (.fire .querying)) :=
    getElem?_goto_self hget
  have hnew : ∀ (t : Thread) (v : ℕ), n.threads[i]? = some t → t.recorded ≠ some v := by
    intro t v hi
    rw [hget] at hi
    cases hi
    exact nofun
  constructor
  · intro j v hj
    rcases getElem?_set_cases hj with ⟨-, h0⟩ | ⟨-, hold⟩
    · cases h0
    · exact h.armed j v hold
  · intro p hp
    rcases List.mem_append.mp hp with hp | hp
    · rcases h.due p hp with hmem | ⟨hle, hevent | ⟨j, t, hj, htake⟩⟩
      · exact Or.inl hmem
      · exact Or.inr ⟨hle, Or.inl hevent⟩
      · by_cases hji : j = i
        · exact Or.inr ⟨hle, Or.inr ⟨i, _, hself, rfl⟩⟩
        · exact Or.inr ⟨hle, Or.inr ⟨j, t, (getElem?_goto_ne hji).trans hj, htake⟩⟩
    · cases List.mem_singleton.mp hp
      rcases h.armed i value hget with hmem | hle
      · exact Or.inl hmem
      · exact Or.inr ⟨hle, Or.inr ⟨i, _, hself, rfl⟩⟩
  · intro j t completed hj hpc
    rcases getElem?_set_cases hj with ⟨-, rfl⟩ | ⟨-, hold⟩
    · cases hpc
    · exact h.read j t completed hold hpc
  · intro j t v hj ht
    rcases getElem?_set_cases hj with ⟨rfl, rfl⟩ | ⟨-, hold⟩
    · cases ht
      exact Or.inl (List.mem_append_right _ List.mem_cons_self)
    · exact (h.recorded j t v hold ht).imp_left (List.mem_append_left _)
  · intro p hp
    rcases List.mem_append.mp hp with hp | hp
    · obtain ⟨t, hj, ht⟩ := h.pending p hp
      have hne : p.2 ≠ i := fun h0 => hnew t p.1 (h0 ▸ hj) ht
      exact ⟨t, (getElem?_goto_ne hne).trans hj, ht⟩
    · cases List.mem_singleton.mp hp
      exact ⟨_, hself, rfl⟩
  · intro j hj
    obtain ⟨t, v, hget', ht, hle⟩ := h.notified j hj
    have hne : j ≠ i := fun h0 => hnew t v (h0 ▸ hget') ht
    exact ⟨t, v, (getElem?_goto_ne hne).trans hget', ht, hle⟩
  · have hfresh : i ∉ n.pending.map (·.2) ++ n.notified := by
      rw [List.mem_append, List.mem_map]
      rintro (⟨p, hp, rfl⟩ | hj)
      · obtain ⟨t, hj, ht⟩ := h.pending p hp
        exact hnew t p.1 hj ht
      · obtain ⟨t, v, hget', ht, -⟩ := h.notified i hj
        exact hnew t v hget' ht
    show ((n.pending ++ [(value, i)]).map (·.2) ++ n.notified).Nodup
    have hperm : ((n.pending ++ [(value, i)]).map (·.2) ++ n.notified).Perm
        (i :: (n.pending.map (·.2) ++ n.notified)) := by
      rw [List.map_append, List.append_assoc]
      exact List.perm_middle
    exact hperm.nodup_iff.mpr (List.nodup_cons.mpr ⟨hfresh, h.once⟩)

/-- What is kept of the recorded values, and what is notified. -/
lemma pending_fire (pending : List (ℕ × ℕ)) (completed : ℕ) :
    ((pending.filter fun p => decide (completed < p.1)) ++
      pending.filter fun p => decide (p.1 ≤ completed)).Perm pending := by
  have hnot : (fun p : ℕ × ℕ => decide (p.1 ≤ completed)) =
      fun p => !decide (completed < p.1) := by
    funext p
    rw [← decide_not]
    exact decide_eq_decide.mpr Nat.not_lt.symm
  rw [hnot]
  exact List.filter_append_perm _ pending

/-- **A thread fires** what is recorded up to the value it has read. -/
lemma Sound.fire (h : n.Sound) {old t : Thread} {completed : ℕ}
    (hget : n.threads[i]? = some old) (hold : old.firePc = some (.firing completed))
    (ht : t.firePc = some .done) (hrecorded : t.recorded = old.recorded) :
    ((n.fire completed).goto i t).Sound := by
  have hself : ((n.fire completed).goto i t).threads[i]? = some t :=
    getElem?_goto_self (n := n.fire completed) hget
  have hle := h.read i old completed hget hold
  have hkept : ∀ (j : ℕ) (u : Thread) (value : ℕ), n.threads[j]? = some u →
      u.recorded = some value → ∃ u', ((n.fire completed).goto i t).threads[j]? = some u' ∧
        u'.recorded = some value := by
    intro j u value hj hu
    by_cases hji : j = i
    · rw [hji, hget] at hj
      cases hj
      exact ⟨t, hji ▸ hself, hrecorded.trans hu⟩
    · exact ⟨u, (getElem?_goto_ne (n := n.fire completed) hji).trans hj, hu⟩
  constructor
  · intro j value hj
    rcases getElem?_set_cases hj with ⟨-, h0⟩ | ⟨-, hj⟩
    · rw [← h0] at ht
      cases ht
    · exact h.armed j value hj
  · intro p hp
    obtain ⟨hp, hlt⟩ := List.mem_filter.mp hp
    have hlt := of_decide_eq_true hlt
    rcases h.due p hp with hmem | ⟨hreach, hevent | ⟨j, u, hj, htake⟩⟩
    · exact Or.inl hmem
    · exact Or.inr ⟨hreach, Or.inl hevent⟩
    · by_cases hji : j = i
      · -- the thread itself does not take out what is left
        rw [hji, hget] at hj
        cases hj
        rw [Thread.takes, hold] at htake
        exact absurd (of_decide_eq_true htake) (Nat.not_le.mpr hlt)
      · exact Or.inr ⟨hreach, Or.inr ⟨j, u,
          (getElem?_goto_ne (n := n.fire completed) hji).trans hj, htake⟩⟩
  · intro j u c hj hpc
    rcases getElem?_set_cases hj with ⟨-, rfl⟩ | ⟨-, hj⟩
    · rw [ht] at hpc
      cases hpc
    · exact h.read j u c hj hpc
  · intro j u value hj hu
    have hbefore : (value, j) ∈ n.pending ∨ j ∈ n.notified := by
      rcases getElem?_set_cases hj with ⟨rfl, rfl⟩ | ⟨-, hj⟩
      · exact h.recorded j old value hget (hrecorded ▸ hu)
      · exact h.recorded j u value hj hu
    rcases hbefore with hmem | hmem
    · by_cases hreach : value ≤ completed
      · refine Or.inr (List.mem_append_right _ (List.mem_map.mpr ⟨(value, j), ?_, rfl⟩))
        exact List.mem_filter.mpr ⟨hmem, decide_eq_true hreach⟩
      · exact Or.inl (List.mem_filter.mpr ⟨hmem, decide_eq_true (Nat.not_le.mp hreach)⟩)
    · exact Or.inr (List.mem_append_left _ hmem)
  · intro p hp
    obtain ⟨u, hj, hu⟩ := h.pending p (List.mem_filter.mp hp).1
    exact hkept p.2 u p.1 hj hu
  · intro j hj
    rcases List.mem_append.mp hj with hj | hj
    · obtain ⟨u, value, hget', hu, hreach⟩ := h.notified j hj
      obtain ⟨u', hget', hu'⟩ := hkept j u value hget' hu
      exact ⟨u', value, hget', hu', hreach⟩
    · obtain ⟨p, hp, rfl⟩ := List.mem_map.mp hj
      obtain ⟨hp, hreach⟩ := List.mem_filter.mp hp
      obtain ⟨u, hget', hu⟩ := h.pending p hp
      obtain ⟨u', hget', hu'⟩ := hkept p.2 u p.1 hget' hu
      exact ⟨u', p.1, hget', hu', Nat.le_trans (of_decide_eq_true hreach) hle⟩
  · have hperm := ((pending_fire n.pending completed).map (·.2)).append_right n.notified
    rw [List.map_append, List.append_assoc] at hperm
    refine (List.Perm.nodup_iff ?_).mpr (hperm.nodup_iff.mpr h.once)
    exact List.Perm.append_left _ List.perm_append_comm

lemma Sound.notifyStep (h : n.Sound) {value : ℕ} {answer : Except String Unit} {pc : NotifyPc}
    (hget : n.threads[i]? = some (.notify value pc))
    (hs : n.notifyStep i value answer pc = some n') : n'.Sound := by
  cases pc with
  | registering =>
      rw [Notifier.notifyStep] at hs
      split at hs
      · cases hs
        exact h.keeps (Keeps.goto hget (fun _ h0 => h0) nofun nofun nofun rfl)
      · cases hs
        exact h.keeps (Keeps.goto hget (fun _ h0 => h0) nofun nofun nofun rfl)
  | arming =>
      cases answer with
      | ok _ =>
          cases hs
          refine h.keeps (Keeps.goto hget (fun _ => List.mem_append_left _) nofun ?_ nofun rfl)
          intro v hv
          cases hv
          exact List.mem_append_right _ List.mem_cons_self
      | error message =>
          cases hs
          exact h.keeps (Keeps.goto hget (fun _ h0 => h0) nofun nofun nofun rfl)
  | recording =>
      cases hs
      exact h.record hget
  | fire pc =>
      obtain ⟨r, hr, rfl⟩ := Option.map_eq_some_iff.mp hs
      cases pc with
      | querying =>
          cases hr
          refine h.keeps (Keeps.goto hget (fun _ h0 => h0) ?_ nofun ?_ rfl)
          · exact fun v hle _ => decide_eq_true hle
          · intro completed hpc
            cases hpc
            exact le_rfl
      | firing completed =>
          cases hr
          exact h.fire hget rfl rfl rfl
      | done => cases hr
  | failed error => cases hs

/-- **A step keeps what holds of the notifications.** -/
lemma Sound.step (h : n.Sound) {l : NotifierLabel} (hs : n.step l = some n') : n'.Sound := by
  cases l with
  | notifyAt value =>
      cases hs
      exact h.keeps (Keeps.spawn rfl nofun nofun Or.inl)
  | thread i answer =>
      rw [Notifier.step] at hs
      split at hs
      · cases hs
      · rename_i value pc hget
        exact h.notifyStep hget hs
      · rename_i pc hget
        obtain ⟨r, hr, rfl⟩ := Option.map_eq_some_iff.mp hs
        cases pc with
        | querying =>
            cases hr
            refine h.keeps (Keeps.goto hget (fun _ h0 => h0) ?_ nofun ?_ rfl)
            · exact fun v hle _ => decide_eq_true hle
            · intro completed hpc
              cases hpc
              exact le_rfl
        | firing completed =>
            cases hr
            exact h.fire hget rfl rfl rfl
        | done => cases hr
  | advance value =>
      simp only [Notifier.step] at hs
      split_ifs at hs with hle
      cases hs
      exact h.keeps (Keeps.advance hle)
  | set value =>
      simp only [Notifier.step] at hs
      split_ifs at hs with hset
      cases hs
      exact h.keeps (Keeps.set hset.2)
  | reset =>
      simp only [Notifier.step] at hs
      split_ifs at hs with hevent
      cases hs
      exact h.keeps (Keeps.spawn rfl nofun nofun fun _ => Or.inr rfl)

lemma Sound.new (completed : ℕ) : Sound { completed } :=
  ⟨nofun, nofun, nofun, nofun, nofun, nofun, List.nodup_nil⟩

lemma Sound.run {completed : ℕ} (h : Reaches Notifier.step Always { completed } n) : n.Sound :=
  h.invariant (P := Sound) (.new completed) fun _ _ _ ha _ hs => ha.step hs

/-- Nobody takes out a value once all have returned. -/
lemma Quiescent.not_due (h : n.Quiescent) (value : ℕ) : ¬n.Due value := by
  rintro (hevent | ⟨j, t, hj, htake⟩)
  · rw [h.2.1] at hevent
    cases hevent
  · have hreturned := h.1 t (List.mem_of_getElem? hj)
    cases t with
    | notify v pc =>
        cases pc with
        | fire pc =>
            cases pc with
            | done => cases htake
            | querying => cases hreturned
            | firing completed => cases hreturned
        | failed error => cases htake
        | registering => cases htake
        | arming => cases htake
        | recording => cases htake
    | callback pc =>
        cases pc with
        | done => cases htake
        | querying => cases hreturned
        | firing completed => cases hreturned

end Steps

/-- **The notifier loses nothing.** When no call and no callback is in progress or due, what is
recorded has not completed. A notification is notified once at most, and its value has
completed then. A call that has succeeded has been notified or is recorded, and one that has
failed has left nothing. -/
theorem nothing_lost {completed : ℕ} {n : Notifier}
    (h : Reaches Notifier.step Always { completed } n) :
    (n.Quiescent → ∀ p ∈ n.pending, n.completed < p.1) ∧
    (∀ i, n.notified.count i ≤ 1) ∧
    (∀ i ∈ n.notified, ∃ value pc, n.threads[i]? = some (.notify value (.fire pc)) ∧
      value ≤ n.completed) ∧
    (∀ (i value : ℕ), n.threads[i]? = some (.notify value (.fire .done)) →
      (value, i) ∈ n.pending ∨ i ∈ n.notified) ∧
    (∀ (i value : ℕ) (error : NativeError), n.threads[i]? = some (.notify value (.failed error)) →
      i ∉ n.notified ∧ ∀ p ∈ n.pending, p.2 ≠ i) := by
  have hsound := Sound.run h
  refine ⟨fun hquiet p hp => ?_, fun i => ?_, fun i hi => ?_, fun i value hget => ?_,
    fun i value error hget => ⟨fun hi => ?_, fun p hp hsame => ?_⟩⟩
  · rcases hsound.due p hp with hmem | ⟨-, hdue⟩
    · exact hquiet.2.2 p.1 hmem
    · exact absurd hdue (hquiet.not_due p.1)
  · exact List.nodup_iff_count.mp (List.nodup_append.mp hsound.once).2.1 i
  · obtain ⟨t, value, hget, ht, hle⟩ := hsound.notified i hi
    cases t with
    | notify v pc =>
        cases pc with
        | fire pc =>
            cases ht
            exact ⟨value, pc, hget, hle⟩
        | _ => cases ht
    | callback pc => cases ht
  · exact hsound.recorded i _ value hget rfl
  · obtain ⟨t, v, hget', ht, -⟩ := hsound.notified i hi
    rw [hget] at hget'
    cases hget'
    cases ht
  · obtain ⟨t, hget', ht⟩ := hsound.pending p hp
    rw [hsame, hget] at hget'
    cases hget'
    cases ht

/-- Two values, one event, and a callback that has read before the second was recorded. -/
def coalesced : List NotifierLabel :=
  [.notifyAt 4, .notifyAt 5, .thread 0 (.ok ()), .thread 0 (.ok ()), .thread 0 (.ok ()),
    .thread 1 (.ok ()), .thread 1 (.ok ()), .advance 5, .set 4, .set 5, .reset,
    .thread 2 (.ok ()), .thread 1 (.ok ()), .thread 2 (.ok ()), .thread 0 (.ok ()),
    .thread 0 (.ok ()), .thread 1 (.ok ()), .thread 1 (.ok ())]

theorem nothing_lost_coalesced :
    (play Notifier.step { completed := 0 } coalesced).notified = [0, 1] ∧
      ∀ i, (play Notifier.step { completed := 0 } coalesced).notified.count i ≤ 1 :=
  ⟨by decide, (nothing_lost (Reaches.of_play _ _ _)).2.1⟩

end Notifier

end Jackstay.Native
