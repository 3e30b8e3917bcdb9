import Jackstay.Acquisition.Arena.Publication
import Jackstay.Native.ArenaProducer
import Jackstay.Video.Accounts

/-!
The sequence numbers of native frames, and the drops between them.

* `Pc.tries`: the arena looks for a slot of a native frame. `Pc.quiet`: it does not publish.
* `tries_producerStep`, `quiet_producerStep`: what a step of the arena does there.
* `gaps_explained`: consecutive frames of a producer differ in their sequence by the drops
  that the later one reports.
-/

namespace Jackstay.Acquisition

/-! ### The arena during a call -/

/-- The call is `publish_resource`. -/
def Goal.native : Goal → Bool
  | .publish .native => true
  | _ => false

/-- The scan is that of `publish_resource`. -/
def Writer.native : Writer → Bool
  | .publish .native => true
  | _ => false

lemma Goal.eq_of_native {goal : Goal} (h : goal.native = true) : goal = .publish .native := by
  cases goal with
  | publish source =>
      cases source with
      | native => rfl
      | cpu descriptor bytes => cases h
  | _ => cases h

lemma Writer.eq_of_native {w : Writer} (h : w.native = true) : w = .publish .native := by
  cases w with
  | publish source =>
      cases source with
      | native => rfl
      | cpu descriptor bytes => cases h
  | reserve => cases h

/-- The arena looks for a slot of a native frame, or has failed to. -/
def Pc.tries : Pc → Bool
  | .terminal goal | .cleanup _ goal | .resume goal => goal.native
  | .scan w _ | .scanState w _ | .scanRetire w _ _ | .scanClaims w _ _ _ => w.native
  | .prepare _ | .terminate (.finish (.error _)) | .pages .close _ (.finish (.error _))
  | .paged .close _ _ (.finish (.error _)) => true
  | _ => false

/-- The consumers are told of a frame. -/
def Pc.notifies : Pc → Bool
  | .pages (.signal .data) _ (.finish (.published _))
  | .paged (.signal .data) _ _ (.finish (.published _)) => true
  | _ => false

/-- The call is none that publishes. -/
def Goal.quiet : Goal → Bool
  | .publish _ | .reserve => false
  | _ => true

/-- Nothing is being published. -/
def Pc.quiet : Pc → Bool
  | .terminal goal | .cleanup _ goal | .resume goal => goal.quiet
  | .scan .. | .scanState .. | .scanRetire .. | .scanClaims .. | .reserveFlag _ | .prepare _
  | .copy .. | .describe .. | .store .. | .ring .. | .latest .. | .commit .. => false
  | _ => true

namespace Arena

variable {s s' : Arena} {e : Env}

/-- The call has failed. -/
def failed (s : Arena) : Prop :=
  s.producer.pc = .panicked ∨ s.producer.pc = .idle ∧ ∃ err, s.producer.outcome = .error err

lemma collect_frame (s : Arena) (i : ℕ) (todo : List ℕ) (goal : Goal) :
    (s.collect i todo goal).log = s.log ∧
      (s.collect i todo goal).producer.cursor = s.producer.cursor ∧
      ((∃ c, (s.collect i todo goal).producer.pc = .cleanup c goal) ∨
        (s.collect i todo goal).failed) := by
  rw [collect]
  split
  · split
    · exact ⟨rfl, rfl, Or.inl ⟨_, rfl⟩⟩
    · exact ⟨rfl, rfl, Or.inr (Or.inl rfl)⟩
  · exact ⟨rfl, rfl, Or.inr (Or.inl rfl)⟩

lemma claimsFrom_frame (s : Arena) (i k : ℕ) (todo : List ℕ) (goal : Goal) :
    (s.claimsFrom i k todo goal).log = s.log ∧
      (s.claimsFrom i k todo goal).producer.cursor = s.producer.cursor ∧
      ((∃ c, (s.claimsFrom i k todo goal).producer.pc = .cleanup c goal) ∨
        (s.claimsFrom i k todo goal).failed) := by
  rw [claimsFrom]
  split_ifs
  · exact s.collect_frame i todo goal
  · exact ⟨rfl, rfl, Or.inl ⟨_, rfl⟩⟩

lemma reclaim_frame (s : Arena) (index g : ℕ) (goal : Goal) :
    (s.reclaim index g goal).log = s.log ∧
      (s.reclaim index g goal).producer.cursor = s.producer.cursor ∧
      ((∃ c, (s.reclaim index g goal).producer.pc = .cleanup c goal) ∨
        (s.reclaim index g goal).failed) := by
  simp only [reclaim]
  split
  · exact ⟨rfl, rfl, Or.inl ⟨_, rfl⟩⟩
  · exact ⟨rfl, rfl, Or.inr (Or.inl rfl)⟩

/-- **`poll_cleanup` publishes nothing**: it goes on, returns to the call it runs for, or
fails. -/
lemma cleanupStep_frame {goal : Goal} {c : CleanupPc} (hs : s.cleanupStep e goal c = some s') :
    s'.log = s.log ∧ s'.producer.cursor = s.producer.cursor ∧
      ((∃ c', s'.producer.pc = .cleanup c' goal) ∨ s'.producer.pc = .resume goal ∨ s'.failed) := by
  have hon : ∀ t : Arena, t.log = s.log ∧ t.producer.cursor = s.producer.cursor ∧
      ((∃ c', t.producer.pc = .cleanup c' goal) ∨ t.failed) →
      t.log = s.log ∧ t.producer.cursor = s.producer.cursor ∧
      ((∃ c', t.producer.pc = .cleanup c' goal) ∨ t.producer.pc = .resume goal ∨ t.failed) := by
    rintro t ⟨hlog, hcursor, hpc | hfailed⟩
    · exact ⟨hlog, hcursor, Or.inl hpc⟩
    · exact ⟨hlog, hcursor, Or.inr (Or.inr hfailed)⟩
  cases c with
  | observers todo =>
      cases todo with
      | nil =>
          cases hs
          exact ⟨rfl, rfl, Or.inl ⟨_, rfl⟩⟩
      | cons i todo =>
          obtain ⟨inc, hinc, hs⟩ := Option.bind_eq_some_iff.mp hs
          split_ifs at hs
          cases hs
          exact ⟨rfl, rfl, Or.inl ⟨_, rfl⟩⟩
  | polling i todo =>
      obtain ⟨inc, hinc, hs⟩ := Option.bind_eq_some_iff.mp hs
      split_ifs at hs
      cases hs
      exact ⟨rfl, rfl, Or.inl ⟨_, rfl⟩⟩
  | quiescent todo =>
      cases todo with
      | nil =>
          cases hs
          exact ⟨rfl, rfl, Or.inl ⟨_, rfl⟩⟩
      | cons i todo =>
          obtain ⟨inc, hinc, hs⟩ := Option.bind_eq_some_iff.mp hs
          cases hs
          exact ⟨rfl, rfl, Or.inl ⟨_, rfl⟩⟩
  | mapping i m todo =>
      obtain ⟨inc, hinc, hs⟩ := Option.bind_eq_some_iff.mp hs
      cases hs
      split_ifs
      · exact ⟨rfl, rfl, Or.inl ⟨_, rfl⟩⟩
      · exact ⟨rfl, rfl, Or.inl ⟨_, rfl⟩⟩
      · exact hon _ (s.claimsFrom_frame i 0 todo goal)
  | claim i k todo =>
      obtain ⟨inc, hinc, hs⟩ := Option.bind_eq_some_iff.mp hs
      cases hs
      split_ifs
      · exact ⟨rfl, rfl, Or.inl ⟨_, rfl⟩⟩
      · exact hon _ (s.claimsFrom_frame i (k + 1) todo goal)
  | remove i todo =>
      obtain ⟨inc, hinc, hs⟩ := Option.bind_eq_some_iff.mp hs
      split_ifs at hs
      cases hs
      exact ⟨rfl, rfl, Or.inl ⟨_, rfl⟩⟩
  | retired index =>
      simp only [cleanupStep] at hs
      split at hs
      · cases hs
        exact ⟨rfl, rfl, Or.inr (Or.inl rfl)⟩
      · cases hs
        exact ⟨rfl, rfl, Or.inl ⟨_, rfl⟩⟩
  | probe index probes =>
      cases probes with
      | nil =>
          cases hs
          exact ⟨rfl, rfl, Or.inl ⟨_, rfl⟩⟩
      | cons p probes =>
          obtain ⟨r, hr, hs⟩ := Option.bind_eq_some_iff.mp hs
          cases p with
          | mapping i m =>
              obtain ⟨inc, hinc, hs⟩ := Option.bind_eq_some_iff.mp hs
              cases hs
              exact ⟨rfl, rfl, Or.inl ⟨_, rfl⟩⟩
          | record i slot =>
              obtain ⟨inc, hinc, hs⟩ := Option.bind_eq_some_iff.mp hs
              cases hs
              exact ⟨rfl, rfl, Or.inl ⟨_, rfl⟩⟩
          | claim i cursor k =>
              obtain ⟨inc, hinc, hs⟩ := Option.bind_eq_some_iff.mp hs
              cases hs
              exact ⟨rfl, rfl, Or.inl ⟨_, rfl⟩⟩
  | count index =>
      obtain ⟨r, hr, hs⟩ := Option.bind_eq_some_iff.mp hs
      cases hs
      split_ifs
      · exact ⟨rfl, rfl, Or.inl ⟨_, rfl⟩⟩
      · exact ⟨rfl, rfl, Or.inl ⟨_, rfl⟩⟩
      · exact hon _ (s.reclaim_frame index r.generation goal)
  | ready index =>
      obtain ⟨r, hr, hs⟩ := Option.bind_eq_some_iff.mp hs
      cases hs
      split_ifs
      · exact ⟨rfl, rfl, Or.inr (Or.inr (Or.inr ⟨rfl, _, rfl⟩))⟩
      · exact ⟨rfl, rfl, Or.inl ⟨_, rfl⟩⟩
      · exact hon _ (reclaim_frame _ index r.generation goal)

/-- What may become of a native frame in a step of the scan: the arena goes on, gives the frame
up, fails, or has staged it. -/
def Tried (s : Arena) (e : Env) (s' : Arena) : Prop :=
  s'.log = s.log ∧ s'.producer.cursor = s.producer.cursor ∧
    (s'.producer.pc.tries = true ∨
      (s'.producer.pc = .idle ∧ s'.producer.outcome = .dropped) ∨ s'.failed ∨
      ∃ off, s.producer.pc = .prepare off ∧ e.fail = false ∧ e.skip = false ∧
        s'.producer.pc = .describe (s.publication (s.scanIndex off) e.descriptor [] e.value)
          (.finish (.published (s.producer.cursor + 1))))

lemma tried_scanFrom (s : Arena) (e : Env) (off : ℕ) :
    s.Tried e (s.scanFrom (.publish .native) off) := by
  rw [scanFrom]
  split_ifs
  · exact ⟨rfl, rfl, Or.inl rfl⟩
  · exact ⟨rfl, rfl, Or.inr (Or.inl ⟨rfl, rfl⟩)⟩

/-- **A native frame is tried.** -/
lemma tries_producerStep (h : s.producer.pc.tries = true) (hs : s.producerStep e = some s') :
    s.Tried e s' := by
  rw [producerStep] at hs
  cases hpc : s.producer.pc with
  | terminal goal =>
      rw [hpc] at h hs
      cases hs
      split_ifs
      · exact ⟨rfl, rfl, Or.inr (Or.inr (Or.inl (Or.inr ⟨rfl, _, rfl⟩)))⟩
      · exact ⟨rfl, rfl, Or.inl h⟩
  | cleanup c goal =>
      rw [hpc] at h hs
      obtain ⟨hlog, hcursor, ⟨c', hc⟩ | hresume | hfailed⟩ := cleanupStep_frame hs
      · exact ⟨hlog, hcursor, Or.inl (hc ▸ h)⟩
      · exact ⟨hlog, hcursor, Or.inl (hresume ▸ h)⟩
      · exact ⟨hlog, hcursor, Or.inr (Or.inr (Or.inl hfailed))⟩
  | resume goal =>
      rw [hpc] at h hs
      obtain rfl := Goal.eq_of_native h
      cases hs
      rw [resume]
      split
      · exact ⟨rfl, rfl, Or.inr (Or.inl ⟨rfl, rfl⟩)⟩
      · split_ifs
        · exact ⟨rfl, rfl, Or.inr (Or.inr (Or.inl (Or.inr ⟨rfl, _, rfl⟩)))⟩
        · exact ⟨rfl, rfl, Or.inl rfl⟩
        · exact s.tried_scanFrom e 0
  | scan w off =>
      rw [hpc] at h hs
      obtain rfl := Writer.eq_of_native h
      cases hs
      split_ifs
      · exact s.tried_scanFrom e (off + 1)
      · exact ⟨rfl, rfl, Or.inl rfl⟩
  | scanState w off =>
      rw [hpc] at h hs
      obtain rfl := Writer.eq_of_native h
      cases hs
      split_ifs
      · exact s.tried_scanFrom e (off + 1)
      · exact ⟨rfl, rfl, Or.inl rfl⟩
  | scanRetire w off generation =>
      rw [hpc] at h hs
      obtain rfl := Writer.eq_of_native h
      cases hs
      split_ifs
      · exact ⟨rfl, rfl, Or.inl rfl⟩
      · exact ⟨rfl, rfl, Or.inl rfl⟩
  | scanClaims w off generation probes =>
      rw [hpc] at h hs
      obtain rfl := Writer.eq_of_native h
      cases probes with
      | nil =>
          cases hs
          exact ⟨rfl, rfl, Or.inl rfl⟩
      | cons x probes =>
          obtain ⟨inc, hinc, hs⟩ := Option.bind_eq_some_iff.mp hs
          cases hs
          split_ifs
          · exact s.tried_scanFrom e (off + 1)
          · exact ⟨rfl, rfl, Or.inl rfl⟩
  | prepare off =>
      rw [hpc] at hs
      cases hs
      split_ifs with hfail hskip
      · exact ⟨rfl, rfl, Or.inr (Or.inr (Or.inl (Or.inr ⟨rfl, _, rfl⟩)))⟩
      · exact s.tried_scanFrom e (off + 1)
      · refine ⟨rfl, rfl, Or.inr (Or.inr (Or.inr ⟨off, hpc, by simpa using hfail,
          by simpa using hskip, ?_⟩))⟩
        show Pc.describe _ _ = Pc.describe _ _
        rw [publication_cursor]
  | terminate after =>
      rw [hpc] at h hs
      cases hs
      refine ⟨rfl, rfl, Or.inl ?_⟩
      cases after with
      | finish outcome => cases outcome with
          | error err => rfl
          | _ => cases h
      | _ => cases h
  | pages call todo after =>
      rw [hpc] at h hs
      cases call with
      | signal event => cases h
      | close =>
          cases after with
          | finish outcome => cases outcome with
              | error err =>
                  cases todo with
                  | nil =>
                      cases hs
                      exact ⟨rfl, rfl, Or.inr (Or.inr (Or.inl (Or.inr ⟨rfl, _, rfl⟩)))⟩
                  | cons i todo =>
                      cases hs
                      exact ⟨rfl, rfl, Or.inl rfl⟩
              | _ => cases h
          | _ => cases h
  | paged call i todo after =>
      rw [hpc] at h hs
      cases call with
      | signal event => cases h
      | close =>
          cases after with
          | finish outcome => cases outcome with
              | error err =>
                  obtain ⟨inc, hinc, hs⟩ := Option.bind_eq_some_iff.mp hs
                  split_ifs at hs with hhost hfault
                  · exact absurd rfl hfault.1
                  · cases hs
                    exact ⟨rfl, rfl, Or.inl rfl⟩
              | _ => cases h
          | _ => cases h
  | _ =>
      rw [hpc] at h
      cases h

/-- **The consumers are told of a frame**: the next one, or all have been told, or it fails. -/
lemma notifies_producerStep (h : s.producer.pc.notifies = true)
    (hs : s.producerStep e = some s') :
    s'.log = s.log ∧ s'.producer.cursor = s.producer.cursor ∧
      (s'.producer.pc.notifies = true ∨
        (s'.producer.pc = .idle ∧ ∃ c, s'.producer.outcome = .published c) ∨ s'.failed) := by
  rw [producerStep] at hs
  cases hpc : s.producer.pc with
  | pages call todo after =>
      rw [hpc] at h hs
      cases call with
      | close => cases h
      | signal event =>
          cases event with
          | data =>
              cases after with
              | finish outcome => cases outcome with
                  | published c =>
                      cases todo with
                      | nil =>
                          cases hs
                          exact ⟨rfl, rfl, Or.inr (Or.inl ⟨rfl, c, rfl⟩)⟩
                      | cons i todo =>
                          cases hs
                          exact ⟨rfl, rfl, Or.inl rfl⟩
                  | _ => cases h
              | _ => cases h
          | _ => cases h
  | paged call i todo after =>
      rw [hpc] at h hs
      cases call with
      | close => cases h
      | signal event =>
          cases event with
          | data =>
              cases after with
              | finish outcome => cases outcome with
                  | published c =>
                      obtain ⟨inc, hinc, hs⟩ := Option.bind_eq_some_iff.mp hs
                      split_ifs at hs
                      · cases hs
                        exact ⟨rfl, rfl, Or.inr (Or.inr (Or.inr ⟨rfl, _, rfl⟩))⟩
                      · cases hs
                        exact ⟨rfl, rfl, Or.inl rfl⟩
                  | _ => cases h
              | _ => cases h
          | _ => cases h
  | _ =>
      rw [hpc] at h
      cases h

lemma continue_frame (s : Arena) (after : After) :
    (s.continue_ after).log = s.log ∧ (s.continue_ after).producer.cursor = s.producer.cursor ∧
      (s.continue_ after).producer.pc.quiet = true := by
  cases after with
  | close i =>
      rw [continue_]
      split
      · exact ⟨rfl, rfl, rfl⟩
      · exact ⟨rfl, rfl, rfl⟩
      · exact ⟨rfl, rfl, rfl⟩
  | _ => exact ⟨rfl, rfl, rfl⟩

lemma abandonAllocation_frame (s : Arena) (err : ArenaError) :
    (s.abandonAllocation err).log = s.log ∧
      (s.abandonAllocation err).producer.cursor = s.producer.cursor ∧
      (s.abandonAllocation err).producer.pc.quiet = true := by
  rw [abandonAllocation]
  split
  · exact ⟨rfl, rfl, rfl⟩
  · exact ⟨rfl, rfl, rfl⟩
  · exact ⟨rfl, rfl, rfl⟩

lemma installAllocation_frame (s : Arena) (layout : ResourceLayout) (id bytes : ℕ) :
    (s.installAllocation layout id bytes).log = s.log ∧
      (s.installAllocation layout id bytes).producer.cursor = s.producer.cursor ∧
      (s.installAllocation layout id bytes).producer.pc.quiet = true := by
  rw [installAllocation]
  split
  · exact abandonAllocation_frame _ _
  · exact ⟨rfl, rfl, rfl⟩
  · exact ⟨rfl, rfl, rfl⟩

lemma advance_frame (s : Arena) (e : Env) :
    (s.advance e).log = s.log ∧ (s.advance e).producer.cursor = s.producer.cursor ∧
      (s.advance e).producer.pc.quiet = true := by
  rw [advance]
  split
  · exact ⟨rfl, rfl, rfl⟩
  · split
    · exact ⟨rfl, rfl, rfl⟩
    · exact ⟨rfl, rfl, rfl⟩
    · exact ⟨rfl, rfl, rfl⟩
    · dsimp only
      split_ifs
      · exact abandonAllocation_frame _ _
      · exact abandonAllocation_frame _ _
      · exact abandonAllocation_frame _ _
      · exact installAllocation_frame _ _ _ _
      · exact abandonAllocation_frame _ _
      · exact installAllocation_frame _ _ _ _

lemma attach_frame (s : Arena) (e : Env) (holding : UInt32) (remote : Bool) :
    (s.attach e holding remote).log = s.log ∧
      (s.attach e holding remote).producer.cursor = s.producer.cursor ∧
      (s.attach e holding remote).producer.pc.quiet = true := by
  rw [attach]
  split
  · exact ⟨rfl, rfl, rfl⟩
  · split
    · exact ⟨rfl, rfl, rfl⟩
    · exact ⟨rfl, rfl, rfl⟩
    · dsimp only
      split_ifs
      · split
        · split
          · exact ⟨rfl, rfl, rfl⟩
          · exact ⟨rfl, rfl, rfl⟩
          · exact ⟨rfl, rfl, rfl⟩
        · exact ⟨rfl, rfl, rfl⟩
        · exact ⟨rfl, rfl, rfl⟩
      · split
        · exact ⟨rfl, rfl, rfl⟩
        · exact ⟨rfl, rfl, rfl⟩

lemma beginReconfiguration_frame (s : Arena) (payloadCapacity externalBytes : ℕ) :
    (s.beginReconfiguration payloadCapacity externalBytes).log = s.log ∧
      (s.beginReconfiguration payloadCapacity externalBytes).producer.cursor =
        s.producer.cursor ∧
      (s.beginReconfiguration payloadCapacity externalBytes).producer.pc.quiet = true := by
  rw [beginReconfiguration]
  split_ifs
  · exact ⟨rfl, rfl, rfl⟩
  · exact ⟨rfl, rfl, rfl⟩
  · exact ⟨rfl, rfl, rfl⟩
  · split
    · exact ⟨rfl, rfl, rfl⟩
    · split_ifs
      · exact ⟨rfl, rfl, rfl⟩
      · split
        · exact ⟨rfl, rfl, rfl⟩
        · exact ⟨rfl, rfl, rfl⟩
        · exact ⟨rfl, rfl, rfl⟩

/-- **A call that does not publish leaves the log.** -/
lemma quiet_producerStep (h : s.producer.pc.quiet = true) (hs : s.producerStep e = some s') :
    s'.log = s.log ∧ s'.producer.cursor = s.producer.cursor ∧ s'.producer.pc.quiet = true := by
  rw [producerStep] at hs
  cases hpc : s.producer.pc with
  | idle | panicked | gone =>
      rw [hpc] at hs
      cases hs
  | scan _ _ | scanState _ _ | scanRetire _ _ _ | scanClaims _ _ _ _ | reserveFlag _ | prepare _
  | copy _ _ _ | describe _ _ | store _ _ | ring _ _ | latest _ _ | commit _ _ _ =>
      rw [hpc] at h
      cases h
  | terminal goal =>
      rw [hpc] at h hs
      cases hs
      split_ifs
      · exact ⟨rfl, rfl, rfl⟩
      · exact ⟨rfl, rfl, h⟩
  | cleanup c goal =>
      rw [hpc] at h hs
      obtain ⟨hlog, hcursor, ⟨c', hc⟩ | hresume | hpanicked | ⟨hidle, -⟩⟩ := cleanupStep_frame hs
      · exact ⟨hlog, hcursor, hc ▸ h⟩
      · exact ⟨hlog, hcursor, hresume ▸ h⟩
      · exact ⟨hlog, hcursor, hpanicked ▸ rfl⟩
      · exact ⟨hlog, hcursor, hidle ▸ rfl⟩
  | resume goal =>
      rw [hpc] at h hs
      cases hs
      cases goal with
      | publish _ | reserve => cases h
      | attach holding remote => exact s.attach_frame e holding remote
      | advance => exact s.advance_frame e
      | poll | shutdown => exact ⟨rfl, rfl, rfl⟩
  | shutdown | release _ _ _ | unconfigure _ | unpublish _ _ _ | firstCursor _ | configure _
  | epochLoad _ | terminate _ =>
      rw [hpc] at hs
      cases hs
      exact ⟨rfl, rfl, rfl⟩
  | begin payloadCapacity externalBytes =>
      rw [hpc] at hs
      cases hs
      exact s.beginReconfiguration_frame payloadCapacity externalBytes
  | unpublishLoad layout index =>
      rw [hpc] at hs
      cases hs
      split_ifs
      · exact ⟨rfl, rfl, rfl⟩
      · exact ⟨rfl, rfl, rfl⟩
  | epoch value after =>
      rw [hpc] at hs
      cases hs
      split_ifs
      · exact ⟨rfl, rfl, rfl⟩
      · exact ⟨rfl, rfl, rfl⟩
      · exact ⟨rfl, rfl, rfl⟩
  | pages call todo after =>
      rw [hpc] at hs
      cases todo with
      | nil =>
          cases hs
          exact s.continue_frame after
      | cons i todo =>
          cases hs
          exact ⟨rfl, rfl, rfl⟩
  | paged call i todo after =>
      rw [hpc] at hs
      obtain ⟨inc, hinc, hs⟩ := Option.bind_eq_some_iff.mp hs
      split_ifs at hs
      · cases hs
        split
        · exact ⟨rfl, rfl, rfl⟩
        · exact ⟨rfl, rfl, rfl⟩
      · cases hs
        exact ⟨rfl, rfl, rfl⟩
  | offering i =>
      rw [hpc] at hs
      obtain ⟨inc, hinc, hs⟩ := Option.bind_eq_some_iff.mp hs
      split_ifs at hs
      cases hs
      split
      · exact ⟨rfl, rfl, rfl⟩
      · exact ⟨rfl, rfl, rfl⟩
      · exact ⟨rfl, rfl, rfl⟩
  | registering i =>
      rw [hpc] at hs
      obtain ⟨inc, hinc, hs⟩ := Option.bind_eq_some_iff.mp hs
      split_ifs at hs
      · split at hs
        · cases hs
          exact ⟨rfl, rfl, rfl⟩
        · cases hs
          exact ⟨rfl, rfl, rfl⟩
      · split at hs
        · cases hs
          exact ⟨rfl, rfl, rfl⟩
        · cases hs
  | registered i =>
      rw [hpc] at hs
      obtain ⟨inc, hinc, hs⟩ := Option.bind_eq_some_iff.mp hs
      split_ifs at hs
      cases hs
      split
      · exact ⟨rfl, rfl, rfl⟩
      · exact ⟨rfl, rfl, rfl⟩
      · exact ⟨rfl, rfl, rfl⟩
  | retrying i =>
      rw [hpc] at hs
      obtain ⟨inc, hinc, hs⟩ := Option.bind_eq_some_iff.mp hs
      split_ifs at hs
      all_goals
        cases hs
        exact ⟨rfl, rfl, rfl⟩
  | exporting =>
      rw [hpc] at hs
      cases hs
      split_ifs
      · exact ⟨rfl, rfl, rfl⟩
      · split
        · exact ⟨rfl, rfl, rfl⟩
        · split_ifs
          · exact ⟨rfl, rfl, rfl⟩
          · exact ⟨rfl, rfl, rfl⟩
  | dropping todo =>
      rw [hpc] at hs
      cases todo with
      | nil =>
          cases hs
          exact ⟨rfl, rfl, rfl⟩
      | cons i todo =>
          obtain ⟨inc, hinc, hs⟩ := Option.bind_eq_some_iff.mp hs
          split_ifs at hs
          cases hs
          exact ⟨rfl, rfl, rfl⟩

/-- The calls that do not publish. -/
def Op.quiet : Op → Bool
  | .publish _ | .reserve | .commit .. => false
  | _ => true

/-- A call begins and leaves the log. -/
lemma call_frame {op : Op} (hs : s.step (.call op) = some s') (hop : op.quiet = true) :
    s'.log = s.log ∧ s'.producer.cursor = s.producer.cursor ∧ s'.producer.pc.quiet = true := by
  rw [step] at hs
  split_ifs at hs
  cases op with
  | publish _ | reserve | commit _ _ _ => cases hop
  | attach _ _ | stop | pollCleanup | pollShutdownReady | advanceReconfiguration | drop =>
      cases hs
      exact ⟨rfl, rfl, rfl⟩
  | close _ | reconfigureCpu _ | reconfigureNative _ | configurationOffer _
  | registerReleaseTimeline _ | retryCleanup _ | exportWriter =>
      cases hs
      split_ifs
      · exact ⟨rfl, rfl, rfl⟩
      · exact ⟨rfl, rfl, rfl⟩

/-- `publish_resource` begins. -/
lemma publish_frame (hs : s.step (.call (.publish .native)) = some s') :
    s'.log = s.log ∧ s'.producer.cursor = s.producer.cursor ∧
      (s'.producer.pc.tries = true ∨ s'.failed) := by
  rw [step] at hs
  split_ifs at hs
  cases hs
  split_ifs
  · exact ⟨rfl, rfl, Or.inr (Or.inr ⟨rfl, _, rfl⟩)⟩
  · exact ⟨rfl, rfl, Or.inl rfl⟩

lemma create_frame {page : ℕ} {config : ArenaConfig} {externalBytes : ℕ} {native : Bool}
    (h : create page config externalBytes native = .ok s) :
    s.log = (fun _ => none) ∧ s.producer.cursor = 0 ∧ s.producer.pc = .idle := by
  rw [create] at h
  obtain ⟨x, -, h⟩ := of_bind_ok h
  cases h
  exact ⟨rfl, rfl, rfl⟩

/-! ### The tally of the log -/

/-- What a publication says of the frames before it. -/
def item (p : Publication) : Tally.Item where
  sequence := p.descriptor.sequence
  dropped := p.descriptor.droppedBeforePublish
  total := p.descriptor.producerDropCount

/-- What the log says, up to this cursor. -/
def itemsTo (s : Arena) (n : ℕ) : List Tally.Item :=
  (List.range n).map fun i => ((s.log (i + 1)).map item).getD ⟨0, 0, 0⟩

lemma itemsTo_congr {n : ℕ} (h : ∀ c, 1 ≤ c → c ≤ n → s'.log c = s.log c) :
    s'.itemsTo n = s.itemsTo n := by
  refine List.map_congr_left fun i hi => ?_
  rw [h (i + 1) (Nat.succ_pos i) (List.mem_range.mp hi)]

lemma itemsTo_succ (s : Arena) (n : ℕ) {p : Publication} (h : s.log (n + 1) = some p) :
    s.itemsTo (n + 1) = s.itemsTo n ++ [item p] := by
  rw [itemsTo, List.range_succ, List.map_append, List.map_singleton, h]
  rfl

lemma itemsTo_get {n c : ℕ} {p : Publication} (h : s.log c = some p) (hpos : 1 ≤ c)
    (hle : c ≤ n) : (s.itemsTo n)[c - 1]? = some (item p) := by
  rw [itemsTo, List.getElem?_map, List.getElem?_range (by omega), Option.map_some,
    Nat.sub_add_cancel hpos, h]
  rfl

/-- **The tally of the log balances** with these counters. -/
structure Balances (s : Arena) (n sequence pending drops : ℕ) : Prop where
  logs : ∀ c p, s.log c = some p → 1 ≤ c ∧ c ≤ n
  balanced : (⟨s.itemsTo n, sequence, pending, drops⟩ : Tally).Balanced

namespace Balances

variable {n sequence pending drops : ℕ}

lemma congr (h : s.Balances n sequence pending drops) (hlog : s'.log = s.log) :
    s'.Balances n sequence pending drops := by
  refine ⟨fun c p hp => h.logs c p (hlog ▸ hp), ?_⟩
  have hsame : s'.itemsTo n = s.itemsTo n := itemsTo_congr fun c _ _ => by rw [hlog]
  rw [hsame]
  exact h.balanced

lemma drop (h : s.Balances n sequence pending drops) :
    s.Balances n (sequence + 1) (pending + 1) (drops + 1) := ⟨h.logs, h.balanced.drop⟩

/-- The next frame is logged. -/
lemma store (h : s.Balances n sequence pending drops) {p : Publication}
    (hp : item p = ⟨sequence + 1, pending, drops⟩)
    (hlog : s'.log = Function.update s.log (n + 1) (some p)) :
    s'.Balances (n + 1) (sequence + 1) 0 drops := by
  have hself : s'.log (n + 1) = some p := by rw [hlog, Function.update_self]
  have hold : ∀ c, c ≠ n + 1 → s'.log c = s.log c := fun c hc => by
    rw [hlog, Function.update_of_ne hc]
  refine ⟨fun c q hq => ?_, ?_⟩
  · by_cases hc : c = n + 1
    · omega
    · rw [hold c hc] at hq
      have hle := h.logs c q hq
      omega
  · have hsame : s'.itemsTo n = s.itemsTo n := itemsTo_congr fun c _ hc => hold c (by omega)
    rw [itemsTo_succ s' n hself, hsame, hp]
    exact h.balanced.publish

/-- Two frames one after the other. -/
lemma follows (h : s.Balances n sequence pending drops) {c : ℕ} {x y : Publication}
    (hx : s.log c = some x) (hy : s.log (c + 1) = some y) :
    Tally.Follows (item x) (item y) := by
  obtain ⟨hpos, -⟩ := h.logs c x hx
  obtain ⟨-, hle⟩ := h.logs (c + 1) y hy
  have hnext := itemsTo_get hy (Nat.succ_pos c) hle
  refine h.balanced.next (c - 1) _ _ (itemsTo_get hx hpos (by omega)) ?_
  rw [Nat.sub_add_cancel hpos]
  exact hnext

/-- The first frame. -/
lemma first (h : s.Balances n sequence pending drops) {x : Publication}
    (hx : s.log 1 = some x) : Tally.Follows ⟨0, 0, 0⟩ (item x) := by
  obtain ⟨-, hle⟩ := h.logs 1 x hx
  exact h.balanced.first _ (itemsTo_get hx le_rfl hle)

end Balances

end Arena

end Jackstay.Acquisition

namespace Jackstay.Native

open Acquisition Video Transition

namespace NativeArenaProducer

variable {F : Type} {p p' : NativeArenaProducer F}

/-! ### The numbers of a producer -/

/-- The tally of the log balances with these counters. -/
def Counts (p : NativeArenaProducer F) (n sequence pending : ℕ) : Prop :=
  p.arena.Balances n sequence pending p.dropped

/-- The frame of the call has its number and is not logged yet. -/
def Trying (p : NativeArenaProducer F) : Prop :=
  ∃ sequence, p.sequence = sequence + 1 ∧
    p.Counts p.arena.producer.cursor sequence p.pendingDrops

/-- The log balances, whatever comes. -/
def Ended (p : NativeArenaProducer F) : Prop :=
  ∃ sequence pending, p.Counts p.arena.producer.cursor sequence pending

/-- **Where a `publish` is**, and what has been counted there. -/
inductive Publishing (p : NativeArenaProducer F) : Prop
  | trying : p.arena.producer.pc.tries = true → p.Trying → Publishing p
  | staged (pub : Publication) (c : ℕ) :
      p.arena.producer.pc = .describe pub (.finish (.published c)) ∨
        p.arena.producer.pc = .store pub (.finish (.published c)) →
      pub.descriptor.cursor = p.arena.producer.cursor + 1 →
      Arena.item pub = ⟨p.sequence, p.pendingDrops, p.dropped⟩ → p.Trying → Publishing p
  | stored (pub : Publication) (c : ℕ) :
      p.arena.producer.pc = .ring pub (.finish (.published c)) ∨
        p.arena.producer.pc = .latest pub (.finish (.published c)) →
      pub.descriptor.cursor = p.arena.producer.cursor + 1 →
      p.Counts (p.arena.producer.cursor + 1) p.sequence 0 → Publishing p
  | notifying : p.arena.producer.pc.notifies = true →
      p.Counts p.arena.producer.cursor p.sequence 0 → Publishing p
  | dropped : p.arena.producer.pc = .idle → p.arena.producer.outcome = .dropped → p.Trying →
      Publishing p
  | published (c : ℕ) : p.arena.producer.pc = .idle → p.arena.producer.outcome = .published c →
      p.Counts p.arena.producer.cursor p.sequence 0 → Publishing p
  | failed : p.arena.failed → p.Ended → Publishing p

/-- **The numbers of a producer.** -/
inductive Numbers (p : NativeArenaProducer F) : Prop
  | publishing (frame : F) (timestampNs ready : ℕ) (hint : Option ℕ) :
      p.call = .publishing frame timestampNs ready hint → p.faulted = false → p.Publishing →
      Numbers p
  | resting : (∀ frame timestampNs ready hint, p.call ≠ .publishing frame timestampNs ready hint) →
      (p.call = .panicked → ∃ off, p.arena.producer.pc = .prepare off) →
      (p.call ≠ .panicked → p.arena.producer.pc.quiet = true) →
      (p.call ≠ .panicked → p.faulted = false →
        p.Counts p.arena.producer.cursor p.sequence p.pendingDrops) →
      p.Ended → Numbers p

/-- The arena goes on and leaves the log. -/
lemma Counts.congr {n sequence pending : ℕ} (h : p.Counts n sequence pending)
    (hlog : p'.arena.log = p.arena.log) (hdropped : p'.dropped = p.dropped) :
    p'.Counts n sequence pending := by
  rw [Counts, hdropped]
  exact Arena.Balances.congr h hlog

lemma Trying.ended (h : p.Trying) : p.Ended := by
  obtain ⟨sequence, -, hcounts⟩ := h
  exact ⟨sequence, p.pendingDrops, hcounts⟩

lemma Trying.congr (h : p.Trying) (hlog : p'.arena.log = p.arena.log)
    (hcursor : p'.arena.producer.cursor = p.arena.producer.cursor)
    (hsequence : p'.sequence = p.sequence) (hpending : p'.pendingDrops = p.pendingDrops)
    (hdropped : p'.dropped = p.dropped) : p'.Trying := by
  obtain ⟨sequence, hnext, hcounts⟩ := h
  refine ⟨sequence, hsequence.trans hnext, ?_⟩
  rw [hcursor, hpending]
  exact hcounts.congr hlog hdropped

lemma Ended.congr (h : p.Ended) (hlog : p'.arena.log = p.arena.log)
    (hcursor : p'.arena.producer.cursor = p.arena.producer.cursor)
    (hdropped : p'.dropped = p.dropped) : p'.Ended := by
  obtain ⟨sequence, pending, hcounts⟩ := h
  refine ⟨sequence, pending, ?_⟩
  rw [hcursor]
  exact hcounts.congr hlog hdropped

/-- The counters and the call are the same. -/
structure Same (p p' : NativeArenaProducer F) : Prop where
  sequence : p'.sequence = p.sequence
  pendingDrops : p'.pendingDrops = p.pendingDrops
  dropped : p'.dropped = p.dropped
  call : p'.call = p.call
  faulted : p'.faulted = p.faulted

lemma Same.refl (p : NativeArenaProducer F) : Same p p := ⟨rfl, rfl, rfl, rfl, rfl⟩

/-- **The callback counts nothing**, and the descriptor of a staged frame says what has been
counted. -/
lemma prepare_frame (p : NativeArenaProducer F) (frame : F) (timestampNs ready : ℕ)
    (hint : Option ℕ) (pool slot : ℕ) (a : SlotAnswers) :
    (p.prepare frame timestampNs ready hint pool slot a).1.arena = p.arena ∧
    Same p (p.prepare frame timestampNs ready hint pool slot a).1 ∧
    ((p.prepare frame timestampNs ready hint pool slot a).2.fail = false →
      (p.prepare frame timestampNs ready hint pool slot a).2.skip = false →
      ∃ q : NativeArenaProducer F, Same p q ∧
        (p.prepare frame timestampNs ready hint pool slot a).2.descriptor =
          q.descriptor pool slot timestampNs) := by
  rw [prepare]
  split_ifs
  · exact ⟨rfl, .refl p, fun _ h0 => (nomatch h0)⟩
  · split
    · exact ⟨rfl, .refl p, fun h0 => (nomatch h0)⟩
    · exact ⟨rfl, .refl p, fun _ h0 => (nomatch h0)⟩
    · split_ifs
      · exact ⟨rfl, .refl p, fun h0 => (nomatch h0)⟩
      · dsimp only
        split
        · exact ⟨rfl, ⟨rfl, rfl, rfl, rfl, rfl⟩, fun h0 => (nomatch h0)⟩
        · split_ifs
          · exact ⟨rfl, ⟨rfl, rfl, rfl, rfl, rfl⟩, fun h0 => (nomatch h0)⟩
          · split
            · exact ⟨rfl, ⟨rfl, rfl, rfl, rfl, rfl⟩, fun h0 => (nomatch h0)⟩
            · exact ⟨rfl, ⟨rfl, rfl, rfl, rfl, rfl⟩, fun _ _ =>
                ⟨(p.stage pool slot frame).submit slot, ⟨rfl, rfl, rfl, rfl, rfl⟩, rfl⟩⟩

lemma follow_frame (p : NativeArenaProducer F) (pc : Pc) : Same p (p.follow pc) := by
  cases pc with
  | firstCursor layout =>
      rw [follow]
      split
      · exact ⟨rfl, rfl, rfl, rfl, rfl⟩
      · exact .refl p
  | configure generation => exact ⟨rfl, rfl, rfl, rfl, rfl⟩
  | _ => exact .refl p

/-- A publication says what its descriptor says. -/
lemma item_publication (s : Arena) (index : ℕ) (d : FrameDescriptor) (bytes : List UInt8)
    (hostTimeNs : ℕ) : Arena.item (s.publication index d bytes hostTimeNs) =
      ⟨d.sequence, d.droppedBeforePublish, d.producerDropCount⟩ := by
  rw [Arena.item, Arena.publication]
  dsimp only
  rw [FrameDescriptor.stamp]
  split_ifs
  · rfl
  · rfl

/-- **A step of the arena in a `publish`.** -/
lemma Publishing.producerStep (h : p.Publishing) {e : Env}
    (hs : p.arena.producerStep e = some p'.arena) (hsame : Same p p')
    (hdescriptor : ∀ off, p.arena.producer.pc = .prepare off → e.fail = false → e.skip = false →
      ∃ q : NativeArenaProducer F, Same p q ∧
        ∃ pool slot timestampNs, e.descriptor = q.descriptor pool slot timestampNs) :
    p'.Publishing := by
  cases h with
  | trying hpc htrying =>
      obtain ⟨hlog, hcursor, htries | ⟨hidle, hdropped⟩ | hfailed | hstaged⟩ :=
        Arena.tries_producerStep hpc hs
      · exact .trying htries
          (htrying.congr hlog hcursor hsame.sequence hsame.pendingDrops hsame.dropped)
      · exact .dropped hidle hdropped
          (htrying.congr hlog hcursor hsame.sequence hsame.pendingDrops hsame.dropped)
      · exact .failed hfailed (htrying.ended.congr hlog hcursor hsame.dropped)
      · obtain ⟨off, hoff, hfail, hskip, hdescribe⟩ := hstaged
        obtain ⟨q, hq, pool, slot, timestampNs, hd⟩ := hdescriptor off hoff hfail hskip
        refine .staged _ _ (Or.inl hdescribe) ?_ ?_
          (htrying.congr hlog hcursor hsame.sequence hsame.pendingDrops hsame.dropped)
        · rw [Arena.publication_cursor, hcursor]
        · rw [item_publication, hd, hsame.sequence, hsame.pendingDrops, hsame.dropped]
          show (⟨q.sequence, q.pendingDrops, q.dropped⟩ : Tally.Item) = _
          rw [hq.sequence, hq.pendingDrops, hq.dropped]
  | staged pub c hpc hcursor hitem htrying =>
      rw [Arena.producerStep] at hs
      rcases hpc with hpc | hpc
      · rw [hpc] at hs
        have harena := Option.some.inj hs
        refine .staged pub c (Or.inr ?_) ?_ ?_ (htrying.congr ?_ ?_ hsame.sequence
          hsame.pendingDrops hsame.dropped)
        · rw [← harena]
          rfl
        · rw [← harena]
          exact hcursor
        · rw [hitem, hsame.sequence, hsame.pendingDrops, hsame.dropped]
        · rw [← harena]
          rfl
        · rw [← harena]
          rfl
      · rw [hpc] at hs
        have harena := Option.some.inj hs
        obtain ⟨sequence, hnext, hcounts⟩ := htrying
        refine .stored pub c (Or.inl ?_) ?_ ?_
        · rw [← harena]
          rfl
        · rw [← harena]
          exact hcursor
        · have hstored : p'.arena.Balances (p.arena.producer.cursor + 1) (sequence + 1) 0
              p.dropped := by
            refine Arena.Balances.store hcounts (p := pub) ?_ ?_
            · rw [hitem, hnext]
            · rw [← harena, ← hcursor]
              rfl
          rw [Counts, hsame.dropped, hsame.sequence, hnext, ← harena]
          rw [← harena] at hstored
          exact hstored
  | stored pub c hpc hcursor hcounts =>
      rw [Arena.producerStep] at hs
      rcases hpc with hpc | hpc
      · rw [hpc] at hs
        have harena := Option.some.inj hs
        refine .stored pub c (Or.inr ?_) ?_ ?_
        · rw [← harena]
          rfl
        · rw [← harena]
          exact hcursor
        · have hcounts' : p'.Counts (p.arena.producer.cursor + 1) p.sequence 0 :=
            hcounts.congr (by rw [← harena]; rfl) hsame.dropped
          rw [hsame.sequence, ← harena]
          exact hcounts'
      · rw [hpc] at hs
        have harena := Option.some.inj hs
        refine .notifying ?_ ?_
        · rw [← harena]
          rfl
        · have hcounts' : p'.Counts (p.arena.producer.cursor + 1) p.sequence 0 :=
            hcounts.congr (by rw [← harena]; rfl) hsame.dropped
          have hnow : p'.arena.producer.cursor = p.arena.producer.cursor + 1 := by
            rw [← harena, ← hcursor]
            rfl
          rw [hsame.sequence, hnow]
          exact hcounts'
  | notifying hpc hcounts =>
      obtain ⟨hlog, hcursor, hnotifies | ⟨hidle, c, hpublished⟩ | hfailed⟩ :=
        Arena.notifies_producerStep hpc hs
      · refine .notifying hnotifies ?_
        rw [hcursor, hsame.sequence]
        exact hcounts.congr hlog hsame.dropped
      · refine .published c hidle hpublished ?_
        rw [hcursor, hsame.sequence]
        exact hcounts.congr hlog hsame.dropped
      · refine .failed hfailed ⟨p.sequence, 0, ?_⟩
        rw [hcursor]
        exact hcounts.congr hlog hsame.dropped
  | dropped hpc _ _ =>
      rw [Arena.producerStep, hpc] at hs
      cases hs
  | published c hpc _ _ =>
      rw [Arena.producerStep, hpc] at hs
      cases hs
  | failed hfailed _ =>
      rcases hfailed with hpc | ⟨hpc, -⟩
      · rw [Arena.producerStep, hpc] at hs
        cases hs
      · rw [Arena.producerStep, hpc] at hs
        cases hs

/-- `publish` has returned that the frame was dropped. -/
def returnsDropped (p : NativeArenaProducer F) :
    NativeArenaLabel F → NativeArenaProducer F → Bool
  | .returns _, _ =>
      match p.call, p.arena.producer.outcome with
      | .publishing .., .dropped => true
      | _, _ => false
  | _, _ => false

/-- A call is made that does not publish. -/
lemma Ended.calls (h : p.Ended) {op : Arena.Op} (hop : op.quiet = true) {call : NativeCall F}
    (hno : call ≠ .panicked)
    (hcall : ∀ frame timestampNs ready hint, call ≠ .publishing frame timestampNs ready hint)
    (hopen : p.faulted = false → p.Counts p.arena.producer.cursor p.sequence p.pendingDrops)
    (hs : p.calls op call = some p') : p'.Numbers ∧ p'.dropped = p.dropped := by
  obtain ⟨arena, harena, rfl⟩ := Option.map_eq_some_iff.mp hs
  obtain ⟨hlog, hcursor, hquiet⟩ := Arena.call_frame harena hop
  refine ⟨.resting hcall (fun h0 => absurd h0 hno) (fun _ => hquiet) (fun _ hfaulted => ?_)
    (h.congr hlog hcursor rfl), rfl⟩
  show Counts _ arena.producer.cursor p.sequence p.pendingDrops
  rw [hcursor]
  exact (hopen hfaulted).congr hlog rfl

/-- `publish` has failed. -/
lemma Ended.fault (h : p.Ended) {err : ArenaError} (hs : p.fault err = some p') :
    p'.Numbers ∧ p'.dropped = p.dropped := by
  have hended : ({ p with faulted := true, result := .error err } :
      NativeArenaProducer F).Ended := h.congr rfl rfl rfl
  exact hended.calls rfl (by intro h0; cases h0) (by intro _ _ _ _ h0; cases h0)
    (fun h0 => (nomatch h0)) hs

/-- The producer rests between two calls. -/
lemma Numbers.idle (h : p.Numbers) (hcall : p.call = .idle) : p.Ended ∧
    p.arena.producer.pc.quiet = true ∧
    (p.faulted = false → p.Counts p.arena.producer.cursor p.sequence p.pendingDrops) := by
  cases h with
  | publishing frame timestampNs ready hint hpublishing _ _ => cases hcall.symm.trans hpublishing
  | resting _ _ hquiet hopen hended =>
      have hno : p.call ≠ .panicked := fun h0 => (nomatch hcall.symm.trans h0)
      exact ⟨hended, hquiet hno, hopen hno⟩

/-- Only the result has changed. -/
lemma Numbers.result (h : p.Numbers) (hcall : p.call = .idle) (result : Outcome) :
    ({ p with result } : NativeArenaProducer F).Numbers := by
  obtain ⟨hended, hquiet, hopen⟩ := h.idle hcall
  exact .resting (fun _ _ _ _ h0 => (nomatch hcall.symm.trans h0))
    (fun h0 => (nomatch hcall.symm.trans h0)) (fun _ => hquiet) (fun _ => hopen) hended

/-- **A `publish` begins.** -/
lemma Numbers.publish (h : p.Numbers) (hcall : p.call = .idle) {frame : F} {timestampNs : ℕ}
    {completed : Except Unit ℕ} {hint : Option ℕ}
    (hs : p.publish frame timestampNs completed hint = some p') :
    p'.Numbers ∧ p'.dropped = p.dropped := by
  obtain ⟨hended, hquiet, hopen⟩ := h.idle hcall
  rw [NativeArenaProducer.publish] at hs
  split_ifs at hs with hclosed hend
  · cases hs
    exact ⟨h.result hcall _, rfl⟩
  · exact hended.fault hs
  · have hfaulted : p.faulted = false := by
      cases hf : p.faulted with
      | false => rfl
      | true => exact absurd (Or.inl hf) hclosed
    have htrying : ({ p with sequence := p.sequence + 1 } : NativeArenaProducer F).Trying :=
      ⟨p.sequence, rfl, hopen hfaulted⟩
    split at hs
    · exact htrying.ended.fault hs
    · obtain ⟨arena, harena, rfl⟩ := Option.map_eq_some_iff.mp hs
      obtain ⟨hlog, hcursor, htries | hfailed⟩ := Arena.publish_frame harena
      · exact ⟨.publishing _ _ _ _ rfl hfaulted
          (.trying htries (htrying.congr hlog hcursor rfl rfl rfl)), rfl⟩
      · exact ⟨.publishing _ _ _ _ rfl hfaulted
          (.failed hfailed (htrying.ended.congr hlog hcursor rfl)), rfl⟩

/-- **The arena returns**: a dropped frame is counted. -/
lemma Numbers.returns (h : p.Numbers) (hpc : p.arena.producer.pc = .idle)
    (hpending : p.pendingDrops + 1 < 2 ^ 32) (hdropped : p.dropped + 1 < 2 ^ 64)
    {completed : Except Unit ℕ} (hs : p.returns completed = some p') : p'.Numbers ∧
      p'.dropped = if p.returnsDropped (.returns completed) p' then p.dropped + 1
        else p.dropped := by
  cases h with
  | publishing frame timestampNs ready hint hcall hfaulted hpublishing =>
      simp only [NativeArenaProducer.returns, hcall] at hs
      simp only [returnsDropped, hcall]
      cases hpublishing with
      | trying htries _ =>
          rw [hpc] at htries
          cases htries
      | staged pub c hwhere _ _ _ =>
          rcases hwhere with hwhere | hwhere
          · cases hpc.symm.trans hwhere
          · cases hpc.symm.trans hwhere
      | stored pub c hwhere _ _ =>
          rcases hwhere with hwhere | hwhere
          · cases hpc.symm.trans hwhere
          · cases hpc.symm.trans hwhere
      | notifying hnotifies _ =>
          rw [hpc] at hnotifies
          cases hnotifies
      | dropped _ houtcome htrying =>
          simp only [houtcome] at hs ⊢
          cases hs
          obtain ⟨sequence, hnext, hcounts⟩ := htrying
          have hcounts : p.arena.Balances p.arena.producer.cursor p.sequence
              (saturatingSucc 32 p.pendingDrops) (saturatingSucc 64 p.dropped) := by
            rw [hnext, saturatingSucc_of_lt hpending, saturatingSucc_of_lt hdropped]
            exact Arena.Balances.drop hcounts
          refine ⟨.resting (fun _ _ _ _ h0 => (nomatch h0)) (fun h0 => (nomatch h0)) (fun _ => ?_)
            (fun _ _ => hcounts) ⟨_, _, hcounts⟩, saturatingSucc_of_lt hdropped⟩
          show p.arena.producer.pc.quiet = true
          rw [hpc]
          rfl
      | published c _ houtcome hcounts =>
          simp only [houtcome] at hs ⊢
          cases hs
          refine ⟨.resting (fun _ _ _ _ h0 => (nomatch h0)) (fun h0 => (nomatch h0)) (fun _ => ?_)
            (fun _ _ => hcounts) ⟨_, _, hcounts⟩, rfl⟩
          show p.arena.producer.pc.quiet = true
          rw [hpc]
          rfl
      | failed hfailed hended =>
          rcases hfailed with hpanicked | ⟨-, err, houtcome⟩
          · cases hpc.symm.trans hpanicked
          · simp only [houtcome] at hs ⊢
            exact hended.fault hs
  | resting hcall _ hquiet hopen hended =>
      -- a call that does not publish
      have hrests : p.call ≠ .panicked → ∀ q : NativeArenaProducer F, q.call = .idle →
          q.arena = p.arena → q.sequence = p.sequence → q.pendingDrops = p.pendingDrops →
          q.dropped = p.dropped → q.faulted = p.faulted → q.Numbers ∧ q.dropped = p.dropped := by
        intro hno q hidle harena hsequence hpendingDrops hsame hfaulted
        refine ⟨.resting (fun _ _ _ _ h0 => (nomatch hidle.symm.trans h0))
          (fun h0 => (nomatch hidle.symm.trans h0)) (fun _ => ?_) (fun _ hf => ?_)
          (hended.congr (by rw [harena]) (by rw [harena]) hsame), hsame⟩
        · rw [harena, hpc]
          rfl
        · rw [harena, hsequence, hpendingDrops]
          exact (hopen hno (hfaulted.symm.trans hf)).congr (by rw [harena]) hsame
      simp only [NativeArenaProducer.returns] at hs
      cases hwhich : p.call with
      | publishing frame timestampNs ready hint => exact absurd hwhich (hcall _ _ _ _)
      | idle | panicked =>
          rw [hwhich] at hs
          cases hs
      | faulting | reconfiguring _ _ | advancing | shutdown | passed =>
          simp only [hwhich] at hs
          simp only [returnsDropped, hwhich]
          cases hs
          exact hrests (fun h0 => (nomatch hwhich.symm.trans h0)) _ rfl rfl rfl rfl rfl rfl

/-- **A step of the arena in any call.** -/
lemma Numbers.producerStep (h : p.Numbers) {e : Env}
    (hs : p.arena.producerStep e = some p'.arena) (hsame : Same p p')
    (hno : p.call ≠ .panicked)
    (hdescriptor : ∀ off, p.arena.producer.pc = .prepare off → e.fail = false → e.skip = false →
      ∃ q : NativeArenaProducer F, Same p q ∧
        ∃ pool slot timestampNs, e.descriptor = q.descriptor pool slot timestampNs) :
    p'.Numbers := by
  cases h with
  | publishing frame timestampNs ready hint hcall hfaulted hpublishing =>
      exact .publishing frame timestampNs ready hint (hsame.call.trans hcall)
        (hsame.faulted.trans hfaulted) (hpublishing.producerStep hs hsame hdescriptor)
  | resting hcall _ hquiet hopen hended =>
      obtain ⟨hlog, hcursor, hquiet'⟩ := Arena.quiet_producerStep (hquiet hno) hs
      refine .resting (fun _ _ _ _ h0 => hcall _ _ _ _ (hsame.call.symm.trans h0))
        (fun h0 => absurd (hsame.call.symm.trans h0) hno) (fun _ => hquiet') (fun _ hf => ?_)
        (hended.congr hlog hcursor hsame.dropped)
      rw [hcursor, hsame.sequence, hsame.pendingDrops]
      exact (hopen hno (hsame.faulted.symm.trans hf)).congr hlog hsame.dropped

/-- A producer that has panicked has left its arena in the scan. -/
lemma Numbers.panicked (h : p.Numbers) (hcall : p.call = .panicked) :
    ∃ off, p.arena.producer.pc = .prepare off := by
  cases h with
  | publishing frame timestampNs ready hint hpublishing _ _ => cases hcall.symm.trans hpublishing
  | resting _ hpanicked _ _ _ => exact hpanicked hcall

/-- A step of a consumer in a `publish`. -/
lemma Publishing.outside (h : p.Publishing)
    (hproducer : p'.arena.producer = p.arena.producer) (hlog : p'.arena.log = p.arena.log)
    (hsame : Same p p') : p'.Publishing := by
  have hcursor : p'.arena.producer.cursor = p.arena.producer.cursor := by rw [hproducer]
  have hshown : ∀ n, p.Counts n p.sequence 0 → p'.Counts n p'.sequence 0 := by
    intro n hcounts
    rw [hsame.sequence]
    exact hcounts.congr hlog hsame.dropped
  cases h with
  | trying htries htrying =>
      refine .trying ?_
        (htrying.congr hlog hcursor hsame.sequence hsame.pendingDrops hsame.dropped)
      rw [hproducer]
      exact htries
  | staged pub c hpc hnext hitem htrying =>
      refine .staged pub c ?_ ?_ ?_
        (htrying.congr hlog hcursor hsame.sequence hsame.pendingDrops hsame.dropped)
      · rw [hproducer]
        exact hpc
      · rw [hproducer]
        exact hnext
      · rw [hitem, hsame.sequence, hsame.pendingDrops, hsame.dropped]
  | stored pub c hpc hnext hcounts =>
      refine .stored pub c ?_ ?_ ?_
      · rw [hproducer]
        exact hpc
      · rw [hproducer]
        exact hnext
      · rw [hcursor]
        exact hshown _ hcounts
  | notifying hnotifies hcounts =>
      refine .notifying ?_ ?_
      · rw [hproducer]
        exact hnotifies
      · rw [hcursor]
        exact hshown _ hcounts
  | dropped hpc houtcome htrying =>
      refine .dropped ?_ ?_
        (htrying.congr hlog hcursor hsame.sequence hsame.pendingDrops hsame.dropped)
      · rw [hproducer]
        exact hpc
      · rw [hproducer]
        exact houtcome
  | published c hpc houtcome hcounts =>
      refine .published c ?_ ?_ ?_
      · rw [hproducer]
        exact hpc
      · rw [hproducer]
        exact houtcome
      · rw [hcursor]
        exact hshown _ hcounts
  | failed hfailed hended =>
      refine .failed ?_ (hended.congr hlog hcursor hsame.dropped)
      rw [Arena.failed, hproducer]
      exact hfailed

/-- A step of a consumer. -/
lemma Numbers.outside (h : p.Numbers) (hproducer : p'.arena.producer = p.arena.producer)
    (hlog : p'.arena.log = p.arena.log) (hsame : Same p p') : p'.Numbers := by
  have hcursor : p'.arena.producer.cursor = p.arena.producer.cursor := by rw [hproducer]
  cases h with
  | publishing frame timestampNs ready hint hcall hfaulted hpublishing =>
      exact .publishing frame timestampNs ready hint (hsame.call.trans hcall)
        (hsame.faulted.trans hfaulted) (hpublishing.outside hproducer hlog hsame)
  | resting hcall hpanicked hquiet hopen hended =>
      refine .resting (fun _ _ _ _ h0 => hcall _ _ _ _ (hsame.call.symm.trans h0))
        (fun h0 => ?_) (fun h0 => ?_) (fun h0 hf => ?_) (hended.congr hlog hcursor hsame.dropped)
      · rw [hproducer]
        exact hpanicked (hsame.call.symm.trans h0)
      · rw [hproducer]
        exact hquiet (hsame.call ▸ h0)
      · rw [hcursor, hsame.sequence, hsame.pendingDrops]
        exact (hopen (hsame.call ▸ h0) (hsame.faulted.symm.trans hf)).congr hlog hsame.dropped

/-- The scan asks for a slot. -/
lemma Numbers.askPrepare (h : p.Numbers) {off : ℕ} (hpc : p.arena.producer.pc = .prepare off)
    {answers : SlotAnswers} (hs : p.askPrepare off answers = some p') :
    p'.Numbers ∧ p'.dropped = p.dropped := by
  rw [NativeArenaProducer.askPrepare] at hs
  split at hs
  · rename_i frame timestampNs ready hint pool hcall hpool
    obtain ⟨harena, hsame, hdescriptor⟩ :=
      p.prepare_frame frame timestampNs ready hint pool (p.arena.scanIndex off) answers
    generalize p.prepare frame timestampNs ready hint pool (p.arena.scanIndex off) answers = r at *
    obtain ⟨q, e⟩ := r
    obtain ⟨arena, hstep, rfl⟩ := Option.map_eq_some_iff.mp hs
    rw [harena] at hstep
    refine ⟨h.producerStep (e := e) hstep ?_ ?_ ?_, hsame.dropped⟩
    · exact ⟨hsame.sequence, hsame.pendingDrops, hsame.dropped, hsame.call, hsame.faulted⟩
    · rw [hcall]
      exact fun h0 => (nomatch h0)
    · intro _ _ hfail hskip
      obtain ⟨q', hq', hd⟩ := hdescriptor hfail hskip
      exact ⟨q', hq', pool, _, timestampNs, hd⟩
  · rename_i frame timestampNs ready hint hcall hpool
    cases hs
    have hended : p.Ended := by
      cases h with
      | resting hno _ _ _ _ => exact absurd hcall (hno _ _ _ _)
      | publishing _ _ _ _ _ _ hpublishing =>
          cases hpublishing with
          | trying _ htrying => exact htrying.ended
          | staged pub c hwhere _ _ _ =>
              rcases hwhere with hwhere | hwhere
              · cases hpc.symm.trans hwhere
              · cases hpc.symm.trans hwhere
          | stored pub c hwhere _ _ =>
              rcases hwhere with hwhere | hwhere
              · cases hpc.symm.trans hwhere
              · cases hpc.symm.trans hwhere
          | notifying hnotifies _ =>
              rw [hpc] at hnotifies
              cases hnotifies
          | dropped hidle _ _ => cases hpc.symm.trans hidle
          | published c hidle _ _ => cases hpc.symm.trans hidle
          | failed _ hended => exact hended
    exact ⟨.resting (fun _ _ _ _ h0 => (nomatch h0)) (fun _ => ⟨off, hpc⟩)
      (fun h0 => absurd rfl h0) (fun h0 => absurd rfl h0) (hended.congr rfl rfl rfl), rfl⟩
  · cases hs

/-- **Every step keeps the numbers**, and a dropped frame is counted. -/
lemma Numbers.step (h : p.Numbers) (hpending : p.pendingDrops + 1 < 2 ^ 32)
    (hdropped : p.dropped + 1 < 2 ^ 64) {l : NativeArenaLabel F} (hs : p.step l = some p') :
    p'.Numbers ∧ p'.dropped = if p.returnsDropped l p' then p.dropped + 1 else p.dropped := by
  have hno : (∀ off, p.arena.producer.pc ≠ .prepare off) → p.call ≠ .panicked := by
    intro hpc hcall
    obtain ⟨off, hoff⟩ := h.panicked hcall
    exact hpc off hoff
  cases l with
  | publish frame timestampNs completed hint =>
      simp only [NativeArenaProducer.step] at hs
      split at hs
      · exact h.publish (by assumption) hs
      · cases hs
  | reconfigure params bound timeline =>
      simp only [NativeArenaProducer.step] at hs
      split at hs
      · rename_i hcall
        obtain ⟨hended, -, hopen⟩ := h.idle hcall
        simp only [reconfigure] at hs
        split_ifs at hs
        · cases hs
          exact ⟨h.result hcall _, rfl⟩
        · cases hs
          exact ⟨h.result hcall _, rfl⟩
        · split at hs
          · exact hended.calls rfl (by intro h0; cases h0) (by intro _ _ _ _ h0; cases h0) hopen hs
          · cases hs
            exact ⟨h.result hcall _, rfl⟩
      · cases hs
  | advanceReconfiguration =>
      simp only [NativeArenaProducer.step] at hs
      split at hs
      · rename_i hcall
        obtain ⟨hended, -, hopen⟩ := h.idle hcall
        rw [advanceReconfiguration] at hs
        split_ifs at hs
        · cases hs
          exact ⟨h.result hcall _, rfl⟩
        · split at hs
          · cases hs
            exact ⟨h.result hcall _, rfl⟩
          · exact hended.calls rfl (by intro h0; cases h0) (by intro _ _ _ _ h0; cases h0) hopen hs
      · cases hs
  | stop =>
      simp only [NativeArenaProducer.step] at hs
      split at hs
      · rename_i hcall
        obtain ⟨hended, -, hopen⟩ := h.idle hcall
        have hended : ({ p with stopped := true } : NativeArenaProducer F).Ended :=
          hended.congr rfl rfl rfl
        exact hended.calls rfl (by intro h0; cases h0) (by intro _ _ _ _ h0; cases h0) hopen hs
      · cases hs
  | pollShutdownReady =>
      simp only [NativeArenaProducer.step] at hs
      split at hs
      · rename_i hcall
        obtain ⟨hended, -, hopen⟩ := h.idle hcall
        rw [pollShutdownReady] at hs
        split_ifs at hs
        · cases hs
          exact ⟨h.result hcall _, rfl⟩
        · cases hs
          exact ⟨h.result hcall _, rfl⟩
        · exact hended.calls rfl (by intro h0; cases h0) (by intro _ _ _ _ h0; cases h0) hopen hs
      · cases hs
  | pass op =>
      simp only [NativeArenaProducer.step] at hs
      split at hs
      · rename_i hcall
        obtain ⟨hended, -, hopen⟩ := h.idle hcall
        split_ifs at hs with hpass
        have hquiet : op.quiet = true := by
          cases op with
          | publish _ | reserve | commit _ _ _ => cases hpass
          | _ => rfl
        exact hended.calls hquiet (by intro h0; cases h0) (by intro _ _ _ _ h0; cases h0) hopen hs
      · cases hs
  | prepare answers =>
      simp only [NativeArenaProducer.step] at hs
      split at hs
      · exact h.askPrepare (by assumption) hs
      · cases hs
  | ready completed =>
      simp only [NativeArenaProducer.step] at hs
      split at hs
      · rename_i index goal hpc
        have hcalled : p.call ≠ .panicked := hno fun off h0 => (nomatch hpc.symm.trans h0)
        have hprepare : ∀ off, p.arena.producer.pc ≠ .prepare off :=
          fun off h0 => (nomatch hpc.symm.trans h0)
        obtain ⟨r, hr, hs⟩ := Option.bind_eq_some_iff.mp hs
        obtain ⟨native, hnative, hs⟩ := Option.bind_eq_some_iff.mp hs
        cases completed with
        | error _ =>
            obtain ⟨arena, hstep, hs⟩ := Option.bind_eq_some_iff.mp hs
            cases hs
            exact ⟨h.producerStep hstep ⟨rfl, rfl, rfl, rfl, rfl⟩ hcalled
              fun off hoff => absurd hoff (hprepare off), rfl⟩
        | ok value =>
            dsimp only at hs
            split_ifs at hs
            · obtain ⟨arena, hstep, hs⟩ := Option.bind_eq_some_iff.mp hs
              cases hs
              exact ⟨h.producerStep hstep ⟨rfl, rfl, rfl, rfl, rfl⟩ hcalled
                fun off hoff => absurd hoff (hprepare off), rfl⟩
            · obtain ⟨arena, hstep, hs⟩ := Option.bind_eq_some_iff.mp hs
              cases hs
              exact ⟨h.producerStep hstep ⟨rfl, rfl, rfl, rfl, rfl⟩ hcalled
                fun off hoff => absurd hoff (hprepare off), rfl⟩
      · cases hs
  | allocate maps pool =>
      simp only [NativeArenaProducer.step] at hs
      split at hs
      · rename_i hpc
        have hcalled : p.call ≠ .panicked := hno fun off h0 => (nomatch hpc.symm.trans h0)
        have hprepare : ∀ off, p.arena.producer.pc ≠ .prepare off :=
          fun off h0 => (nomatch hpc.symm.trans h0)
        rw [askAllocation.eq_def] at hs
        obtain ⟨arena, hstep, rfl⟩ := Option.map_eq_some_iff.mp hs
        split
        · exact ⟨h.producerStep hstep ⟨rfl, rfl, rfl, rfl, rfl⟩ hcalled
            fun off hoff => absurd hoff (hprepare off), rfl⟩
        · exact ⟨h.producerStep hstep ⟨rfl, rfl, rfl, rfl, rfl⟩ hcalled
            fun off hoff => absurd hoff (hprepare off), rfl⟩
      · cases hs
  | arena e =>
      simp only [NativeArenaProducer.step] at hs
      split_ifs at hs with halone
      obtain ⟨arena, hstep, rfl⟩ := Option.map_eq_some_iff.mp hs
      have hsame := p.follow_frame p.arena.producer.pc
      refine ⟨h.producerStep (e := e) hstep ⟨hsame.sequence, hsame.pendingDrops, hsame.dropped,
        hsame.call, hsame.faulted⟩ (hno fun off hoff => ?_) fun off hoff => ?_, hsame.dropped⟩
      · rw [hoff] at halone
        cases halone
      · rw [hoff] at halone
        cases halone
  | returns completed =>
      simp only [NativeArenaProducer.step] at hs
      split at hs
      · exact h.returns (by assumption) hpending hdropped hs
      · cases hs
  | incarnation i l =>
      simp only [NativeArenaProducer.step] at hs
      obtain ⟨arena, hstep, rfl⟩ := Option.map_eq_some_iff.mp hs
      simp only [Arena.step] at hstep
      obtain ⟨inc, hinc, hstep⟩ := Option.bind_eq_some_iff.mp hstep
      obtain ⟨inc', hinc', hstep⟩ := Option.bind_eq_some_iff.mp hstep
      cases hstep
      exact ⟨h.outside rfl rfl ⟨rfl, rfl, rfl, rfl, rfl⟩, rfl⟩

/-- The counters of the producer are below their ends. -/
def Below (s : NativeArenaProducer F × ℕ) (_ : NativeArenaLabel F) : Prop :=
  s.1.pendingDrops + 1 < 2 ^ 32 ∧ s.1.dropped + 1 < 2 ^ 64

lemma Numbers.ended (h : p.Numbers) :
    ∃ n sequence pending, p.arena.Balances n sequence pending p.dropped := by
  cases h with
  | resting _ _ _ _ hended =>
      obtain ⟨sequence, pending, hcounts⟩ := hended
      exact ⟨_, sequence, pending, hcounts⟩
  | publishing frame timestampNs ready hint _ _ hpublishing =>
      cases hpublishing with
      | trying _ htrying | staged _ _ _ _ _ htrying | dropped _ _ htrying =>
          obtain ⟨sequence, pending, hcounts⟩ := htrying.ended
          exact ⟨_, sequence, pending, hcounts⟩
      | stored _ _ _ _ hcounts | notifying _ hcounts | published _ _ _ hcounts =>
          exact ⟨_, _, _, hcounts⟩
      | failed _ hended =>
          obtain ⟨sequence, pending, hcounts⟩ := hended
          exact ⟨_, sequence, pending, hcounts⟩

lemma Numbers.fromAllocatedParts {page pool : ℕ} {backend : Backend}
    {params : NativeStreamParams} {config : ArenaConfig} {handles poolBytes : Except ArenaError ℕ}
    (hnew : NativeArenaProducer.fromAllocatedParts page backend pool params config handles
      poolBytes = .ok p) : p.Numbers ∧ p.dropped = 0 := by
  rw [NativeArenaProducer.fromAllocatedParts] at hnew
  split_ifs at hnew
  obtain ⟨count, -, hnew⟩ := of_bind_ok hnew
  split_ifs at hnew
  obtain ⟨bytes, -, hnew⟩ := of_bind_ok hnew
  obtain ⟨arena, harena, hnew⟩ := of_bind_ok hnew
  cases hnew
  obtain ⟨hlog, hcursor, hpc⟩ := Arena.create_frame harena
  have hcounts : arena.Balances arena.producer.cursor 0 0 0 := by
    rw [hcursor]
    refine ⟨fun c q hq => ?_, Tally.balanced_empty⟩
    rw [hlog] at hq
    cases hq
  refine ⟨.resting (fun _ _ _ _ h0 => (nomatch h0)) (fun h0 => (nomatch h0)) (fun _ => ?_)
    (fun _ _ => hcounts) ⟨0, 0, hcounts⟩, rfl⟩
  rw [hpc]
  rfl

/-- **The numbers of a producer balance**, and it counts every frame that it drops. -/
lemma balanced {page pool : ℕ} {backend : Backend} {params : NativeStreamParams}
    {config : ArenaConfig} {handles poolBytes : Except ArenaError ℕ}
    {p₀ : NativeArenaProducer F} {dropped : ℕ}
    (hnew : fromAllocatedParts page backend pool params config handles poolBytes = .ok p₀)
    (h : Reaches (counting NativeArenaProducer.step returnsDropped) Below (p₀, 0) (p, dropped)) :
    (∃ n sequence pending, p.arena.Balances n sequence pending p.dropped) ∧
      p.dropped = dropped := by
  have hall := h.invariant (P := fun s => s.1.Numbers ∧ s.1.dropped = s.2)
    (Numbers.fromAllocatedParts hnew) ?_
  · exact ⟨hall.1.ended, hall.2⟩
  · rintro ⟨q, d⟩ l ⟨q', d'⟩ ⟨hq, hd⟩ ⟨hpending, hdropped⟩ hs
    obtain ⟨q'', hstep, hnext⟩ := Option.map_eq_some_iff.mp hs
    cases hnext
    obtain ⟨hq', hcount⟩ := hq.step hpending hdropped hstep
    refine ⟨hq', ?_⟩
    rw [hcount, hd]

end NativeArenaProducer

/-- **Drops explain the gaps.** In every run of a producer on a track, with any answers of its
backend as long as no fence of a staged frame fails to be signalled, and in every run of a
producer on an arena, with any answers of its backend, the counters being below their ends:
a frame has the number of the frame published before it, plus one, plus the number of frames
that it says were dropped in between, and what it says was dropped in all has grown by as much;
and the producer has counted every frame for which `publish` has returned `Dropped`. -/
theorem gaps_explained (F : Type) :
    (∀ (backend : Backend) (params : NativeStreamParams) (ringCapacity poolSlotCount pool : ℕ)
      (policy : PoolExhaustionPolicy) (p₀ p : NativeTrackProducer F) (dropped : ℕ),
      NativeTrackProducer.fromAllocatedParts backend params ringCapacity poolSlotCount pool
        policy = .ok p₀ →
      Reaches (counting NativeTrackProducer.step NativeTrackProducer.returnsDropped)
        NativeTrackProducer.Explains (p₀, 0) (p, dropped) →
      (∀ i x y, p.page.entered[i]? = some x → p.page.entered[i + 1]? = some y →
        y.sequence = x.sequence + 1 + y.droppedBeforePublish ∧
        y.producerDropCount = x.producerDropCount + y.droppedBeforePublish) ∧
      (∀ x, p.page.entered[0]? = some x → x.sequence = 1 + x.droppedBeforePublish ∧
        x.producerDropCount = x.droppedBeforePublish) ∧
      p.producerDropCount = dropped) ∧
    (∀ (page : ℕ) (backend : Backend) (pool : ℕ) (params : NativeStreamParams)
      (config : ArenaConfig) (handles poolBytes : Except ArenaError ℕ)
      (p₀ p : NativeArenaProducer F) (dropped : ℕ),
      NativeArenaProducer.fromAllocatedParts page backend pool params config handles poolBytes =
        .ok p₀ →
      Reaches (counting NativeArenaProducer.step NativeArenaProducer.returnsDropped)
        NativeArenaProducer.Below (p₀, 0) (p, dropped) →
      (∀ c x y, p.arena.log c = some x → p.arena.log (c + 1) = some y →
        y.descriptor.sequence = x.descriptor.sequence + 1 + y.descriptor.droppedBeforePublish ∧
        y.descriptor.producerDropCount =
          x.descriptor.producerDropCount + y.descriptor.droppedBeforePublish) ∧
      (∀ x, p.arena.log 1 = some x →
        x.descriptor.sequence = 1 + x.descriptor.droppedBeforePublish ∧
        x.descriptor.producerDropCount = x.descriptor.droppedBeforePublish) ∧
      p.dropped = dropped) := by
  constructor
  · intro backend params ringCapacity poolSlotCount pool policy p₀ p dropped hnew h
    obtain ⟨hbalanced, hcount⟩ := NativeTrackProducer.balanced hnew h
    have hitem : ∀ (i : ℕ) (x : PendingVideoRingEntry), p.page.entered[i]? = some x →
        p.told.tally.published[i]? = some x.item := by
      intro i x hx
      show (p.page.entered.map (·.item))[i]? = some x.item
      rw [List.getElem?_map, hx]
      rfl
    refine ⟨fun i x y hx hy => ?_, fun x hx => ?_, hcount⟩
    · exact hbalanced.next i _ _ (hitem i x hx) (hitem (i + 1) y hy)
    · obtain ⟨hsequence, htotal⟩ := hbalanced.first _ (hitem 0 x hx)
      exact ⟨hsequence, htotal.trans (Nat.zero_add _)⟩
  · intro page backend pool params config handles poolBytes p₀ p dropped hnew h
    obtain ⟨⟨n, sequence, pending, hbalances⟩, hcount⟩ := NativeArenaProducer.balanced hnew h
    refine ⟨fun c x y hx hy => hbalances.follows hx hy, fun x hx => ?_, hcount⟩
    obtain ⟨hsequence, htotal⟩ := hbalances.first hx
    exact ⟨hsequence, htotal.trans (Nat.zero_add _)⟩

/-- The fence of the frame is signalled. -/
def signalled {F : Type} : NativeLabel F → Bool
  | .publish _ _ a => a.signal.isOk
  | _ => true

/-- The check of `NativeTrackProducer.Explains`. -/
def explains {F : Type} (s : NativeTrackProducer F × ℕ) (l : NativeLabel F) : Bool :=
  signalled l && decide (s.1.pendingDropped + 1 < 2 ^ 32 ∧ s.1.producerDropCount + 1 < 2 ^ 64)

lemma explains_of {F : Type} {s : NativeTrackProducer F × ℕ} {l : NativeLabel F}
    (h : explains s l = true) : NativeTrackProducer.Explains s l := by
  rw [explains, Bool.and_eq_true, decide_eq_true_eq] at h
  refine ⟨?_, h.2⟩
  rintro frame timestampNs a slotId e rfl - - hsignal
  rw [signalled, hsignal] at h
  cases h.1

/-- The check of `NativeArenaProducer.Below`. -/
def below {F : Type} (s : NativeArenaProducer F × ℕ) (_ : NativeArenaLabel F) : Bool :=
  decide (s.1.pendingDrops + 1 < 2 ^ 32 ∧ s.1.dropped + 1 < 2 ^ 64)

lemma below_of {F : Type} {s : NativeArenaProducer F × ℕ} {l : NativeArenaLabel F}
    (h : below s l = true) : NativeArenaProducer.Below s l := by
  rw [below, decide_eq_true_eq] at h
  exact h

/-- A frame of a track, one that is dropped, and another. -/
def oneDropped : List (NativeLabel ℕ) :=
  [NativeLabel.publish 1 0 { claim := .ok (.ready 0) }] ++ List.replicate 28 NativeLabel.store ++
    [NativeLabel.finish, .publish 2 0 { claim := .ok .wouldBlock },
      .publish 3 0 { claim := .ok (.ready 1) }]

/-- An arena of three surfaces without inline storage. -/
def surfacesConfig : ArenaConfig where
  resourceCapacity := 3
  retainedHistory := 1
  producerReserve := 1
  payloadCapacity := 0
  memoryBudget := 65536
  maxIncarnations := 2
  drainTimeout := 1

/-- A frame of an arena, in this slot, if the backend lets go of it. -/
def arenaFrame (slot : ℕ) (claim : SlotClaim) : List (NativeArenaLabel ℕ) :=
  [NativeArenaLabel.publish slot 1 (.ok slot) (some slot)] ++
    (List.replicate 24 [NativeArenaLabel.arena {}, .prepare { claim := .ok claim }]).flatten ++
    [NativeArenaLabel.returns (.ok 0)]

/-- A frame, one that is dropped, and another. -/
def oneUnready : List (NativeArenaLabel ℕ) :=
  arenaFrame 0 (.ready 0) ++ arenaFrame 1 .wouldBlock ++ arenaFrame 1 (.ready 1)

/-- The frames of the track. -/
def trackRun : NativeTrackProducer ℕ × ℕ :=
  playIn (counting NativeTrackProducer.step NativeTrackProducer.returnsDropped) explains
    (ringOfFour, 0) oneDropped

lemma reaches_trackRun :
    Reaches (counting NativeTrackProducer.step NativeTrackProducer.returnsDropped)
      NativeTrackProducer.Explains (ringOfFour, 0) (trackRun.1, trackRun.2) := by
  rw [Prod.mk.eta]
  exact Reaches.of_playIn (fun _ _ h => explains_of h) _ _

/-- The frames of the arena. -/
def arenaRun (p₀ : NativeArenaProducer ℕ) : NativeArenaProducer ℕ × ℕ :=
  playIn (counting NativeArenaProducer.step NativeArenaProducer.returnsDropped) below (p₀, 0)
    oneUnready

lemma reaches_arenaRun (p₀ : NativeArenaProducer ℕ) :
    Reaches (counting NativeArenaProducer.step NativeArenaProducer.returnsDropped)
      NativeArenaProducer.Below (p₀, 0) ((arenaRun p₀).1, (arenaRun p₀).2) := by
  rw [Prod.mk.eta]
  exact Reaches.of_playIn (fun _ _ h => below_of h) _ _

theorem gaps_explained_dropped :
    (∃ x y, trackRun.1.page.entered[0]? = some x ∧ trackRun.1.page.entered[1]? = some y ∧
      y.sequence = x.sequence + 1 + y.droppedBeforePublish ∧ trackRun.2 = 1 ∧
      trackRun.1.producerDropCount = trackRun.2) ∧
    ∃ p₀ c x y, NativeArenaProducer.fromAllocatedParts 4096 ⟨1, 1⟩ 7 ⟨2, 2, 0, 0, 0⟩
        surfacesConfig (.ok 3) (.ok 64) = .ok p₀ ∧
      (arenaRun p₀).1.arena.log c = some x ∧ (arenaRun p₀).1.arena.log (c + 1) = some y ∧
      y.descriptor.sequence = x.descriptor.sequence + 1 + y.descriptor.droppedBeforePublish ∧
      (arenaRun p₀).2 = 1 ∧ (arenaRun p₀).1.dropped = (arenaRun p₀).2 := by
  obtain ⟨htrack, harena⟩ := gaps_explained ℕ
  constructor
  · obtain ⟨hnext, -, hcount⟩ := htrack _ _ _ _ _ _ _ _ _ fromAllocatedParts_ringOfFour
      reaches_trackRun
    have hdropped : trackRun.2 = 1 := by decide +kernel
    obtain ⟨x, hx⟩ : ∃ x, trackRun.1.page.entered[0]? = some x :=
      Option.isSome_iff_exists.mp (by decide +kernel)
    obtain ⟨y, hy⟩ : ∃ y, trackRun.1.page.entered[1]? = some y :=
      Option.isSome_iff_exists.mp (by decide +kernel)
    exact ⟨x, y, hx, hy, (hnext 0 x y hx hy).1, hdropped, hcount⟩
  · obtain ⟨p₀, hp₀⟩ : ∃ p₀, (NativeArenaProducer.fromAllocatedParts (F := ℕ) 4096 ⟨1, 1⟩ 7
        ⟨2, 2, 0, 0, 0⟩ surfacesConfig (.ok 3) (.ok 64)).toOption = some p₀ :=
      Option.isSome_iff_exists.mp (by decide +kernel)
    have hfacts : (NativeArenaProducer.fromAllocatedParts (F := ℕ) 4096 ⟨1, 1⟩ 7
        ⟨2, 2, 0, 0, 0⟩ surfacesConfig (.ok 3) (.ok 64)).toOption.map (fun p₀ =>
          ((arenaRun p₀).2, ((arenaRun p₀).1.arena.log 1).isSome,
            ((arenaRun p₀).1.arena.log (1 + 1)).isSome)) = some (1, true, true) := by decide +kernel
    rw [hp₀, Option.map_some, Option.some.injEq, Prod.mk.injEq, Prod.mk.injEq] at hfacts
    obtain ⟨hdropped, hfirst, hsecond⟩ := hfacts
    obtain ⟨x, hx⟩ := Option.isSome_iff_exists.mp hfirst
    obtain ⟨y, hy⟩ := Option.isSome_iff_exists.mp hsecond
    have hnew : NativeArenaProducer.fromAllocatedParts 4096 ⟨1, 1⟩ 7 ⟨2, 2, 0, 0, 0⟩
        surfacesConfig (.ok 3) (.ok 64) = .ok p₀ := by
      cases hmade : NativeArenaProducer.fromAllocatedParts (F := ℕ) 4096 ⟨1, 1⟩ 7 ⟨2, 2, 0, 0, 0⟩
          surfacesConfig (.ok 3) (.ok 64) with
      | error e =>
          rw [hmade] at hp₀
          cases hp₀
      | ok p =>
          rw [hmade] at hp₀
          cases hp₀
          rfl
    obtain ⟨hnext, -, hcount⟩ := harena _ _ _ _ _ _ _ _ _ _ hnew (reaches_arenaRun p₀)
    have hgap := (hnext 1 x y hx hy).1
    exact ⟨p₀, 1, x, y, hnew, hx, hy, hgap, hdropped, hcount⟩

/-- A frame, one whose fence cannot be signalled, and another. -/
def oneLost : List (NativeLabel ℕ) :=
  [NativeLabel.publish 1 0 { claim := .ok (.ready 0) }] ++ List.replicate 28 NativeLabel.store ++
    [NativeLabel.finish,
      .publish 2 0 { claim := .ok (.ready 1), signal := .error (.nativeBackend "" "") },
      .publish 3 0 { claim := .ok (.ready 1) }]

/-- The frames with one that is lost. -/
def lostRun : NativeTrackProducer ℕ × ℕ :=
  play (counting NativeTrackProducer.step NativeTrackProducer.returnsDropped) (ringOfFour, 0)
    oneLost

lemma reaches_lostRun :
    Reaches (counting NativeTrackProducer.step NativeTrackProducer.returnsDropped) Always
      (ringOfFour, 0) (lostRun.1, lostRun.2) := by
  rw [Prod.mk.eta]
  exact Reaches.of_play _ _ _

/-- The number of a frame that was staged and not published is missing, and no drop explains
it. -/
theorem gap_unexplained : ∃ (p₀ p : NativeTrackProducer ℕ) (dropped : ℕ)
    (x y : PendingVideoRingEntry),
    NativeTrackProducer.fromAllocatedParts ⟨1, 1⟩ ⟨2, 2, 0, 0, 0⟩ 4 5 1 .dropFrame = .ok p₀ ∧
    Reaches (counting NativeTrackProducer.step NativeTrackProducer.returnsDropped) Always (p₀, 0)
      (p, dropped) ∧
    p.page.entered[0]? = some x ∧ p.page.entered[1]? = some y ∧ p.producerDropCount = 0 ∧
    y.sequence ≠ x.sequence + 1 + y.droppedBeforePublish := by
  have hrun := reaches_lostRun
  have hcount : lostRun.1.producerDropCount = 0 := by decide +kernel
  have hfirst : (lostRun.1.page.entered[0]?).map (·.sequence) = some 1 := by decide +kernel
  have hsecond : (lostRun.1.page.entered[1]?).map (fun y => (y.sequence, y.droppedBeforePublish)) =
      some (3, 0) := by decide +kernel
  generalize lostRun.1 = p at hrun hcount hfirst hsecond
  obtain ⟨x, hx, hxs⟩ := Option.map_eq_some_iff.mp hfirst
  obtain ⟨y, hy, hys⟩ := Option.map_eq_some_iff.mp hsecond
  rw [Prod.mk.injEq] at hys
  exact ⟨ringOfFour, p, lostRun.2, x, y, fromAllocatedParts_ringOfFour, hrun, hx, hy, hcount,
    by omega⟩

end Jackstay.Native
