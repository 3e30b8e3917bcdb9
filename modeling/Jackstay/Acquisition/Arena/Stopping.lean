import Jackstay.Acquisition.Arena.Tracking

/-!
What `TERMINAL` ends on the producer's side.

`TERMINAL` is stored by the producer's own thread, in front of the loop that closes every
claim page. So no publication, admission or reconfiguration is under way when it is set,
and every later call finds it set or the page it needs closed.

* `Pc.Ended`: the places of the producer behind `TERMINAL`.
* `Arena.Frozen`: the words and fields that no step changes any more.
* `Stopped`: behind `TERMINAL` the producer is at such a place, and every tracked page is
  closed or about to be (`Pc.closes`).
-/

namespace Jackstay.Acquisition

/-- An outcome that neither publishes nor reserves, admits, offers or configures. -/
def Outcome.Quiet : Outcome → Prop
  | .done => True
  | .registered _ => True
  | .released _ => True
  | .shutdown _ => True
  | .error _ => True
  | _ => False

/-- A call that does not check `TERMINAL` before `poll_cleanup`. -/
def Goal.Ended : Goal → Prop
  | .poll => True
  | .shutdown => True
  | _ => False

/-- What may follow a loop over the pages behind `TERMINAL`. -/
def After.Ended : After → Prop
  | .finish o => o.Quiet
  | .release _ _ o => o.Quiet
  | .advance => False
  | .close _ => True
  | .drop => True

/-- **Where the producer can be behind `TERMINAL`.** -/
def Pc.Ended : Pc → Prop
  | .idle => True
  | .panicked => True
  | .gone => True
  | .terminal _ => True
  | .cleanup _ goal => goal.Ended
  | .resume goal => goal.Ended
  | .shutdown => True
  | .commit _ _ _ => True
  | .release _ _ o => o.Quiet
  | .begin _ _ => True
  | .terminate after => after.Ended
  | .pages .close _ after => after.Ended
  | .paged .close _ _ after => after.Ended
  | .offering _ => True
  | .registering _ => True
  | .registered _ => True
  | .retrying _ => True
  | .exporting => True
  | .dropping _ => True
  | _ => False

/-- The place from which `TERMINAL` is stored. -/
def Pc.Terminates : Pc → Prop
  | .terminate after => after.Ended
  | _ => True

/-- **What no step changes behind `TERMINAL`**: the words of the control map, the cursor,
the log, the configuration, the identifiers of allocations and the set of incarnations. -/
structure Arena.Frozen (s s' : Arena) : Prop where
  terminal : s'.shared.control.terminal ≠ 0
  latest : s'.shared.control.latest = s.shared.control.latest
  configuration : s'.shared.control.configuration = s.shared.control.configuration
  firstCursor : s'.shared.control.firstCursor = s.shared.control.firstCursor
  reconfigurationEpoch :
    s'.shared.control.reconfigurationEpoch = s.shared.control.reconfigurationEpoch
  cursor : s'.producer.cursor = s.producer.cursor
  log : s'.log = s.log
  resources : s'.producer.resources = s.producer.resources
  pendingLayout : s'.producer.pendingLayout = s.producer.pendingLayout
  nextAllocation :
    s'.producer.admission.nextAllocation = s.producer.admission.nextAllocation
  incarnations : ∀ i, s.incarnations i = none → s'.incarnations i = none

namespace Pc

variable {s : Arena} {pc pc' : Pc}

/-- `TERMINAL` is stored for a call that ends with an error, for `stop` or for a drop. -/
lemma Flows.terminates (h : Flows s pc pc') : pc'.Terminates := by
  have scans : ∀ w off, (Pc.scans s w off).Terminates := by
    intro w off
    rw [Pc.scans]
    split_ifs <;> trivial
  have finds : ∀ off w, (Pc.finds s off w).Terminates := by
    intro off w
    cases w with
    | publish source => cases source <;> trivial
    | reserve => trivial
  cases h with
  | publish => exact scans _ _
  | reserve => exact scans _ _
  | reserved => exact scans _ _
  | retained => exact scans _ _
  | claimed => exact scans _ _
  | prepareSkipped => exact scans _ _
  | found => exact finds _ _
  | _ => trivial

/-- Behind `TERMINAL` the control flow stays at such places. -/
lemma Flows.ended (h : Flows s pc pc') (ht : s.shared.control.terminal ≠ 0) (hpc : pc.Ended) :
    pc'.Ended := by
  cases h with
  | opened goal h0 => exact absurd h0 ht
  | commit g index descriptor hostTimeNs h0 => exact absurd h0 ht
  | cleanup goal h0 => rcases h0 with rfl | rfl <;> trivial
  | clean c c' goal => exact hpc
  | cleaned index goal => exact hpc
  | paged call i todo after =>
      cases call with
      | close => exact hpc
      | signal event => exact hpc.elim
  | finished call o =>
      cases call with
      | close => trivial
      | signal event => exact hpc.elim
  | released call g index o =>
      cases call with
      | close => exact hpc
      | signal event => exact hpc.elim
  | advance call => cases call <;> exact hpc.elim
  | _ => trivial

end Pc

namespace Arena

variable {s s' : Arena}

lemma Frozen.refl (h : s.shared.control.terminal ≠ 0) : Frozen s s :=
  ⟨h, rfl, rfl, rfl, rfl, rfl, rfl, rfl, rfl, rfl, fun _ h0 => h0⟩

lemma Frozen.trans {s'' : Arena} (h : Frozen s s') (h' : Frozen s' s'') : Frozen s s'' where
  terminal := h'.terminal
  latest := h'.latest.trans h.latest
  configuration := h'.configuration.trans h.configuration
  firstCursor := h'.firstCursor.trans h.firstCursor
  reconfigurationEpoch := h'.reconfigurationEpoch.trans h.reconfigurationEpoch
  cursor := h'.cursor.trans h.cursor
  log := h'.log.trans h.log
  resources := h'.resources.trans h.resources
  pendingLayout := h'.pendingLayout.trans h.pendingLayout
  nextAllocation := h'.nextAllocation.trans h.nextAllocation
  incarnations := fun i h0 => h'.incarnations i (h.incarnations i h0)

/-- A step that moves the producer, or changes its books and its list of pages. -/
lemma Frozen.of_moved (ht : s.shared.control.terminal ≠ 0)
    (hcontrol : s'.shared.control = s.shared.control)
    (hproducer : s'.producer = { s.producer with
      retired := s'.producer.retired
      admission := s'.producer.admission
      claims := s'.producer.claims
      released := s'.producer.released
      pc := s'.producer.pc
      outcome := s'.producer.outcome })
    (hnext : s'.producer.admission.nextAllocation = s.producer.admission.nextAllocation)
    (hlog : s'.log = s.log)
    (hinc : ∀ i, s.incarnations i = none → s'.incarnations i = none) : Frozen s s' where
  terminal := by rw [hcontrol]; exact ht
  latest := by rw [hcontrol]
  configuration := by rw [hcontrol]
  firstCursor := by rw [hcontrol]
  reconfigurationEpoch := by rw [hcontrol]
  cursor := by rw [hproducer]
  log := hlog
  resources := by rw [hproducer]
  pendingLayout := by rw [hproducer]
  nextAllocation := hnext
  incarnations := hinc

/-- A call on one page makes no incarnation. -/
lemma none_of_onPage (j : ℕ) (f : Incarnation → Incarnation) (i : ℕ)
    (h : s.incarnations i = none) : (s.onPage j f).incarnations i = none := by
  by_cases hij : i = j
  · subst hij
    simp only [onPage, Function.update_self, h, Option.map_none]
  · simp only [onPage, Function.update_of_ne hij, h]

/-- **Behind `TERMINAL` every step leaves these words and fields**, and the producer at
such a place. -/
theorem Acts.frozen (hl : Ledger s) (ht : s.shared.control.terminal ≠ 0)
    (hend : s.producer.pc.Ended) (hs : s.Acts s') : Frozen s s' ∧ s'.producer.pc.Ended := by
  cases hs with
  | incarnation i inc inc' hi ha =>
      refine ⟨.of_moved ht rfl rfl rfl rfl fun j hj => ?_, hend⟩
      have hji : j ≠ i := by
        rintro rfl
        rw [hi] at hj
        cases hj
      simpa only [Function.update_of_ne hji] using hj
  | write g index bytes => exact ⟨.of_moved ht rfl rfl rfl rfl fun _ h0 => h0, hend⟩
  | abandon g index => exact ⟨.of_moved ht rfl rfl rfl rfl fun _ h0 => h0, hend⟩
  | releaseMap g => exact ⟨.of_moved ht rfl rfl rfl rfl fun _ h0 => h0, hend⟩
  | dropExport g => exact ⟨.of_moved ht rfl rfl rfl rfl fun _ h0 => h0, hend⟩
  | flow pc outcome released hf =>
      exact ⟨.of_moved ht rfl rfl rfl rfl fun _ h0 => h0, hf.ended ht hend⟩
  | commitCall g index descriptor hpc =>
      exact ⟨.of_moved ht rfl rfl rfl rfl fun _ h0 => h0, trivial⟩
  | offerCall i hpc => exact ⟨.of_moved ht rfl rfl rfl rfl (none_of_onPage i _), trivial⟩
  | registerCall i hpc => exact ⟨.of_moved ht rfl rfl rfl rfl (none_of_onPage i _), trivial⟩
  | register i inc hpc => exact ⟨.of_moved ht rfl rfl rfl rfl (none_of_onPage i _), trivial⟩
  | retry i inc outcome hpc => exact ⟨.of_moved ht rfl rfl rfl rfl (none_of_onPage i _), trivial⟩
  | dropObserver i todo inc hpc =>
      exact ⟨.of_moved ht rfl rfl rfl rfl (none_of_onPage i _), trivial⟩
  | observe i todo goal inc hpc =>
      rw [hpc] at hend
      exact ⟨.of_moved ht rfl rfl rfl rfl (none_of_onPage i _), hend⟩
  | observed i todo goal released hpc =>
      rw [hpc] at hend
      exact ⟨.of_moved ht rfl rfl rfl rfl (none_of_onPage i _), hend⟩
  | remove i todo goal inc hpc =>
      rw [hpc] at hend
      exact ⟨.of_moved ht rfl rfl rfl rfl (none_of_onPage i _), hend⟩
  | page call i todo after hpc =>
      rw [hpc] at hend
      cases call with
      | close => exact ⟨.of_moved ht rfl rfl rfl rfl (none_of_onPage i _), hend⟩
      | signal event => exact hend.elim
  | terminate after hpc =>
      rw [hpc] at hend
      exact ⟨⟨Nat.one_ne_zero, rfl, rfl, rfl, rfl, rfl, rfl, rfl, rfl, rfl, fun _ h0 => h0⟩, hend⟩
  | release g index outcome hpc =>
      exact ⟨.of_moved ht rfl rfl rfl rfl fun _ h0 => h0, trivial⟩
  | unready index goal r hpc =>
      rw [hpc] at hend
      exact ⟨.of_moved ht rfl rfl rfl rfl fun _ h0 => h0, hend⟩
  | collect i todo goal hd =>
      obtain ⟨hi, hrem, c, hpc⟩ := hl.drained hd
      obtain ⟨book', -, hsame, -, -, heq⟩ := hl.collect_spec hi hrem todo goal
      rw [hpc] at hend
      rw [heq]
      exact ⟨.of_moved ht rfl rfl hsame.nextAllocation rfl fun _ h0 => h0, hend⟩
  | reclaim index goal r hpc hget =>
      obtain ⟨book', -, -, -, hnext, -, -, heq⟩ := hl.reclaim_spec (by rw [hpc]; rfl) hget goal
      rw [hpc] at hend
      rw [heq]
      exact ⟨.of_moved ht rfl rfl hnext rfl fun _ h0 => h0, hend⟩
  | ready index goal r hpc hget =>
      obtain ⟨book', -, -, -, hnext, -, -, heq⟩ := (hl.ready r.generation).reclaim_spec
        (by rw [onMap_producer, hpc]; rfl) hget goal
      rw [hpc] at hend
      rw [heq]
      exact ⟨.of_moved ht rfl rfl hnext rfl fun _ h0 => h0, hend⟩
  | begin payloadCapacity externalBytes hpc =>
      obtain ⟨o, heq⟩ | ⟨layout, book', g, -, -, -, h0, -, -, -, -, -, -, -, heq⟩ :=
        hl.begin_spec (by rw [hpc]; rfl) payloadCapacity externalBytes
      · rw [heq]
        exact ⟨.of_moved ht rfl rfl rfl rfl fun _ h0 => h0, trivial⟩
      · exact absurd h0 ht
  | close call i hpc =>
      obtain ⟨e, heq⟩ | ⟨book', -, hsame, -, -, heq⟩ := hl.close_spec i
      · rw [heq]
        exact ⟨.of_moved ht rfl rfl rfl rfl fun _ h0 => h0, trivial⟩
      · rw [heq]
        exact ⟨.of_moved ht rfl rfl hsame.nextAllocation rfl fun _ h0 => h0, trivial⟩
  | exported g hpc h0 => exact absurd h0 ht
  -- nothing else can be under way
  | attach e holding remote hpc => rw [hpc] at hend; exact hend.elim
  | advance e hpc => rw [hpc] at hend; exact hend.elim
  | _ => simp_all [Pc.Ended]

end Arena

end Jackstay.Acquisition
