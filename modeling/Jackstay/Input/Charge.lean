import Mathlib.Algebra.Order.BigOperators.Group.List
import Mathlib.Algebra.Order.Group.Nat
import Jackstay.Input.Bounds

/-!
The bytes of a session.

`Controller::submit` keeps the charge of the queue and of the event in flight within
`max_bytes`. `State::bind` then gives a release or a repeat the key that its press was
bound to, and with it the length of that key's name.

* `State.Covers`: no release or repeat in the queue is named shorter than the press that
  it belongs to.
* `charge_bounded`: in every run whose calls of `next` find the queue so, the charge never
  exceeds `max_bytes`.
* `charge_exceeded`: a run in which it does.
-/

namespace Jackstay.Input

open Traces

/-- A name that is not shorter. -/
def Key.Covers (key binding : Key) : Prop :=
  binding.name.utf8ByteSize ≤ key.name.utf8ByteSize

/-- **The queue covers the held keys** when `next` is called: a release or a repeat whose
press is held names its key with at least as many bytes as the press did. -/
def State.Covers (s : State) : Call → Prop
  | .next _ => ∀ a, s.active = some a → ∀ w ∈ s.queue, ∀ press action key modifiers binding,
      w.operation = .event (.key press action key modifiers) → action ≠ .down →
      a.keys.lookup press = some binding → key.Covers binding
  | _ => True

namespace State

variable {s s' : State} {a : Active}

/-! ### The charge of a queue -/

lemma sum_workBytes_le {l l' : List Work} (h : l.Sublist l') :
    (l.map workBytes).sum ≤ (l'.map workBytes).sum :=
  (h.map workBytes).sum_le_sum fun _ _ => Nat.zero_le _

/-- What is charged for the flight. -/
def flightBytes (s : State) : ℕ := (s.flight.map fun f => workBytes f.work).getD 0

lemma charged_eq (s : State) : s.charged = (s.queue.map workBytes).sum + s.flightBytes := rfl

/-- A queue that has only lost works, and a flight that has not grown. -/
lemma charged_le (hq : s'.queue.Sublist s.queue) (hf : s'.flightBytes ≤ s.flightBytes) :
    s'.charged ≤ s.charged := by
  have hsum := sum_workBytes_le hq
  rw [charged_eq, charged_eq]
  omega

lemma Posts.sublist {statuses : List Status} {queue kept l : List Work}
    (h : s.Posts a statuses queue kept s') (hq : queue.Sublist l) (hk : kept.Sublist l) :
    s'.queue.Sublist l := by
  cases h with
  | appended => exact hq
  | overflowed rest hrest => exact hrest.sublist.trans hk

lemma Posts.charged_le {statuses : List Status} {queue kept : List Work}
    (h : s.Posts a statuses queue kept s') (hq : queue.Sublist s.queue)
    (hk : kept.Sublist s.queue) : s'.charged ≤ s.charged := by
  refine State.charged_le (h.sublist hq hk) (le_of_eq ?_)
  rw [flightBytes, flightBytes, h.frame.flight]

lemma Cancels.sublist {scope : Scope} {reason : Reason} {ending : Bool}
    (h : s.Cancels scope reason ending s') : s'.queue.Sublist s.queue := by
  cases h with
  | inactive => exact List.Sublist.refl _
  | sufficed => exact List.Sublist.refl _
  | barred a s' ha hf hp => exact hp.sublist List.filter_sublist List.filter_sublist

lemma Cancels.charged_le {scope : Scope} {reason : Reason} {ending : Bool}
    (h : s.Cancels scope reason ending s') : s'.charged ≤ s.charged := by
  refine State.charged_le h.sublist (le_of_eq ?_)
  rw [flightBytes, flightBytes, h.frame.flight]

/-- A count leaves the queue alone, or empties it. -/
lemma Counts.charged_le (h : s.Counts a s') : s'.charged ≤ s.charged := by
  refine State.charged_le ?_ (le_of_eq ?_)
  · cases h with
    | merged => exact List.Sublist.refl _
    | appended => exact List.Sublist.refl _
    | overflowed => exact List.nil_sublist _
  · rw [flightBytes, flightBytes, h.frame.flight]

/-- Every motion is charged the same. -/
lemma bytes_of_isMotion {e : Event} (h : e.isMotion = true) : e.bytes = 112 := by
  cases e <;> first | rfl | cases h

/-! ### Dispatch -/

/-- **A work that is dispatched is charged no more than it was queued with**, if its name
covers the key it is bound to. -/
lemma bind_workBytes_le {w bound : Work} (ha : s.active = some a)
    (hc : ∀ press action key modifiers binding,
      w.operation = .event (.key press action key modifiers) → action ≠ .down →
      a.keys.lookup press = some binding → key.Covers binding)
    (h : s.bind w = .ok (some bound)) : workBytes bound ≤ workBytes w := by
  have rebound : ∀ press action key modifiers binding,
      w.operation = .event (.key press action key modifiers) → action ≠ .down →
      a.keys.lookup press = some binding →
      bound = { w with operation := .event (.key press action binding modifiers) } →
      workBytes bound ≤ workBytes w := by
    intro press action key modifiers binding hop hdown hl hbound
    have hle := hc press action key modifiers binding hop hdown hl
    rw [Key.Covers] at hle
    simp only [hbound, workBytes, hop, Event.bytes]
    omega
  rw [State.bind, ha] at h
  dsimp only at h
  split at h
  · rename_i press key modifiers hop
    split_ifs at h
    cases h
    exact le_rfl
  · rename_i press action key modifiers hne hop
    cases hl : a.keys.lookup press with
    | none =>
        rw [hl] at h
        dsimp only at h
        split_ifs at h
        cases h
    | some binding =>
        rw [hl] at h
        cases h
        exact rebound press action key modifiers binding hop hne hl rfl
  · split_ifs at h
    · cases h
    · cases h
      exact le_rfl
  · cases h
    exact le_rfl

/-- A dispatched work takes its charge out of the queue. -/
lemma Dispatches.charged_le {r : Option Work} (ha : s.active = some a)
    (hc : ∀ w ∈ s.queue, ∀ press action key modifiers binding,
      w.operation = .event (.key press action key modifiers) → action ≠ .down →
      a.keys.lookup press = some binding → key.Covers binding)
    (h : s.Dispatches a s' r) : s'.charged ≤ s.charged := by
  cases h with
  | refused pre rest s' hq href hp hend =>
      refine hp.charged_le ?_ (List.nil_sublist _)
      rw [hq]
      exact List.sublist_append_right _ _
  | dispatched pre w bound rest hq href hbind hfit =>
      have hmem : w ∈ s.queue := by
        rw [hq]
        exact List.mem_append_right _ List.mem_cons_self
      have hle := bind_workBytes_le ha (hc w hmem) hbind
      have hrest : (rest.map workBytes).sum + workBytes w ≤ (s.queue.map workBytes).sum := by
        rw [hq, List.map_append, List.sum_append, List.map_cons, List.sum_cons]
        omega
      calc (rest.map workBytes).sum + workBytes bound
          ≤ (rest.map workBytes).sum + workBytes w := by omega
        _ ≤ (s.queue.map workBytes).sum := hrest
        _ ≤ s.charged := Nat.le_add_right _ _

/-! ### Calls -/

/-- The flight is over. -/
lemma charged_landed (s : State) (active : Option Active) :
    ({ s with flight := none, active } : State).charged ≤ s.charged :=
  charged_le (List.Sublist.refl _) (Nat.zero_le _)

/-- **Every call keeps the charge within the bound**, if the queue covers the held keys. -/
lemma charged_acts (h : s.charged ≤ s.config.maxBytes) {l : Call} {r : Reply}
    (hc : s.Covers l) (hacts : s.Acts l r s') : s'.charged ≤ s.config.maxBytes := by
  cases hacts with
  | idle => exact h
  | admitted => exact h
  | cleanup now b a work hf hb ha hw =>
      subst hw
      have hle : ((s.queue.map workBytes).sum + 0) ≤ s.charged := by
        rw [charged_eq]
        omega
      exact hle.trans h
  | discarded => exact h
  | dispatched now a r s' ha hf hb hd => exact (hd.charged_le ha (hc a ha)).trans h
  | completed f event outcome a mid s' hf hop ha hp hkeep hcancel =>
      have hmid : mid.charged ≤ s.charged :=
        (hp.charged_le (List.Sublist.refl _) (List.nil_sublist _)).trans (s.charged_landed _)
      by_cases ho : outcome.Ends
      · exact ((hcancel ho).charged_le.trans hmid).trans h
      · rw [hkeep ho]
        exact hmid.trans h
  | cleanupFailed f scope reason outcome a mid hf hop ha ho hp =>
      have hmid := hp.charged_le (List.Sublist.refl _) (List.Sublist.refl _)
      exact hmid.trans (Nat.zero_le _)
  | cleanupEnded f scope reason a mid hf hop ha hend hp =>
      have hmid := hp.charged_le (List.Sublist.refl _) (List.nil_sublist _)
      have hempty : ({ mid with active := none, barrier := none, queue := [] } : State).charged ≤
          mid.charged := charged_le (List.nil_sublist _) le_rfl
      exact ((hempty.trans hmid).trans (s.charged_landed _)).trans h
  | cleanupRenewed f scope reason a s' hf hop ha hend hb hp =>
      have hmid := hp.charged_le (List.Sublist.refl _) (List.nil_sublist _)
      -- a new epoch is not charged
      have hsame : ((s.queue.map fun w => { w with epoch := a.epoch + 1 }).map workBytes).sum =
          (s.queue.map workBytes).sum := by
        rw [List.map_map]
        rfl
      have hle : ((s.queue.map fun w => { w with epoch := a.epoch + 1 }).map workBytes).sum + 0 ≤
          s.charged := by
        rw [hsame, charged_eq]
        omega
      exact (hmid.trans hle).trans h
  | cleanupBarred => exact (s.charged_landed _).trans h
  | geometry g s' hv hrev hcancel => exact hcancel.charged_le.trans h
  | resolved => exact h
  | heartbeat => exact h
  | refused => exact h
  | superseded c now epoch sequence event a front tail motion s' hr hm hq hop hmot hcount =>
      have hsame : ((front ++ [{ tail with sequence, operation := .event event }]).map
          workBytes).sum = (s.queue.map workBytes).sum := by
        rw [hq]
        simp only [List.map_append, List.sum_append, List.map_singleton, List.sum_singleton,
          workBytes, hop, bytes_of_isMotion hm, bytes_of_isMotion hmot]
      have hcharge : ({ s with
          active := some { a with lastSequence := sequence }
          queue := front ++ [{ tail with sequence, operation := .event event }] } :
            State).charged = s.charged := by
        rw [charged_eq, charged_eq, ← hsame]
        rfl
      exact (hcount.charged_le.trans hcharge.le).trans h
  | overflowed c now epoch sequence event a s' hr hfull hcancel =>
      exact hcancel.charged_le.trans h
  | accepted c now epoch sequence event a hr hmot hroom hbytes =>
      have hcharge : ((s.queue ++ [(⟨c.mode, s.nextWork + 1, c.id, epoch, sequence,
          .event event⟩ : Work)]).map workBytes).sum + s.flightBytes =
            s.charged + event.bytes := by
        simp only [List.map_append, List.sum_append, List.map_singleton, List.sum_singleton,
          workBytes, charged_eq]
        omega
      exact hcharge.le.trans hbytes
  | reset c a s' ha hid hcancel => exact hcancel.charged_le.trans h
  | close l c a s' hl ha hid hcancel => exact hcancel.charged_le.trans h
  | polled => exact h

/-- An expiry takes works out of the queue, and leaves the held keys alone. -/
lemma Covers.timed {l : Call} (h : s.Covers l) : (s.timed l).Covers l := by
  rcases s.timed_cases l with heq | hc
  · rw [heq]
    exact h
  · cases l with
    | next now =>
        intro a ha w hw
        rw [hc.frame.active] at ha
        exact h a ha w (hc.sublist.subset hw)
    | _ => trivial

end State

/-- **The byte bound of the input queue**: for every configuration that `Target::new`
accepts and every run in which no release or repeat waits under a shorter name than its
press was bound to, the bytes of the queued works and of the event in flight never exceed
`max_bytes`. -/
theorem charge_bounded {config : Config} {tr : Trace} {s : State}
    (h : Run config State.Covers tr s) :
    (s.queue.map State.workBytes).sum + (s.flying.map State.workBytes).sum ≤ config.maxBytes := by
  have hcharged : s.charged ≤ config.maxBytes ∧ s.config.maxBytes = config.maxBytes := by
    refine h.traced (P := fun _ s => s.charged ≤ config.maxBytes ∧
      s.config.maxBytes = config.maxBytes) (fun s l hl => hl.timed) (fun s₀ hnew => ?_)
      (fun tr s s' _ h0 hc => ?_) fun tr s l r s' _ hl h0 hacts => ?_
    · rw [(State.new_eq hnew).1]
      exact ⟨Nat.zero_le _, rfl⟩
    · exact ⟨hc.charged_le.trans h0.1, by rw [hc.frame.config]; exact h0.2⟩
    · obtain ⟨g, hg⟩ := hacts.config
      refine ⟨?_, by rw [hg]; exact h0.2⟩
      rw [← h0.2]
      exact State.charged_acts (by rw [h0.2]; exact h0.1) hl hacts
  have hfly : (s.flying.map State.workBytes).sum ≤ s.flightBytes := by
    rw [State.flightBytes]
    cases hf : s.flight with
    | none => simp [State.flying, hf]
    | some f =>
        simp only [State.flying, hf, Option.toList_some, List.map_singleton, Option.map_some,
          Option.getD_some]
        rw [List.filter_singleton]
        cases f.work.isCleanup <;> simp
  have htotal := hcharged.1
  rw [State.charged_eq] at htotal
  omega

/-! ### Two runs -/

/-- `Covers`, decided. -/
def State.covers (s : State) : Call → Bool
  | .next _ => s.active.all fun a => s.queue.all fun w => match w.operation with
      | .event (.key press action key _) => action == .down ||
          (a.keys.lookup press).all fun binding =>
            decide (binding.name.utf8ByteSize ≤ key.name.utf8ByteSize)
      | _ => true
  | _ => true

lemma State.of_covers {s : State} {l : Call} (h : s.covers l = true) : s.Covers l := by
  cases l with
  | next now =>
      intro a ha w hw press action key modifiers binding hop hdown hlookup
      simp only [State.covers, ha, Option.all_some, List.all_eq_true] at h
      have hkey := h w hw
      simp only [hop, hlookup, Option.all_some, Bool.or_eq_true, beq_iff_eq,
        decide_eq_true_eq] at hkey
      exact hkey.resolve_left hdown
  | _ => trivial

/-- Two events of 113 bytes fill the queue. -/
def narrow : Config := { Config.default with maxBytes := 226 }

lemma new_narrow : State.new narrow = .ok { config := narrow } := by
  rw [State.new]
  exact if_neg (by decide +kernel)

/-- A key is pressed, and two events wait, the first of which is its release. -/
def typing (pressed released : String) : List Call :=
  [.admitController .cooperative 0,
    .submit ⟨1, .cooperative⟩ 0 1 1 (.key 1 .down (.logical pressed) 0),
    .next 0,
    .complete 1 .executed,
    .submit ⟨1, .cooperative⟩ 0 1 2 (.key 1 .up (.logical released) 0),
    .submit ⟨1, .cooperative⟩ 0 1 3 (.text "x"),
    .next 0]

theorem charge_bounded_typing :
    meets State.call State.covers { config := narrow } (typing "a" "a") = true ∧
      let s := (record State.call { config := narrow } (typing "a" "a")).2
      (s.queue.map State.workBytes).sum + (s.flying.map State.workBytes).sum ≤ 226 := by
  have hmeets : meets State.call State.covers { config := narrow } (typing "a" "a") = true := by
    decide +kernel
  exact ⟨hmeets, charge_bounded
    ⟨_, new_narrow, Runs.of_meets (fun _ _ h => State.of_covers h) hmeets⟩⟩

/-- **A release under a shorter name**: it is queued with the length of its own name, and
dispatched with that of the name its press was bound to. -/
theorem charge_exceeded :
    ¬ ∀ (config : Config) (tr : Trace) (s : State), Run config Always tr s →
      (s.queue.map State.workBytes).sum + (s.flying.map State.workBytes).sum ≤
        config.maxBytes := by
  intro h
  have hle := h narrow _ _ (Run.of_record narrow new_narrow (typing "Enter" "a"))
  have hcharge : let s := (record State.call { config := narrow } (typing "Enter" "a")).2
      (s.queue.map State.workBytes).sum + (s.flying.map State.workBytes).sum = 230 := by
    decide +kernel
  have hbound : narrow.maxBytes = 226 := rfl
  rw [hbound] at hle
  dsimp only at hcharge
  omega

end Jackstay.Input
