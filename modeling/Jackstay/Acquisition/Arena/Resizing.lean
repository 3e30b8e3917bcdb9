import Jackstay.Acquisition.Arena.InPlace
import Jackstay.Acquisition.Arena.Replacement

/-!
What a caller of the arena may rely on between and during its reconfigurations.

* `Pc.resizes`: the producer is in a call that may replace the allocation.
  `step_settled`: outside of such a call nothing changes what is pending, what is installed
  and how large its payloads are.
* `Resizing`: where a call of `reconfigure_cpu` or `advance_reconfiguration` stands and what
  its answer will mean. `Resizing.step`: every step of the arena during the call keeps it.
-/

namespace Jackstay.Acquisition

open Transition

/-! ### Between reconfigurations -/

/-- What follows is the second half of a reconfiguration. -/
def After.advances : After → Bool
  | .advance => true
  | _ => false

/-- `poll_cleanup` runs for a reconfiguration. -/
def Goal.advances : Goal → Bool
  | .advance => true
  | _ => false

/-- **The running call may replace the allocation.** -/
def Pc.resizes : Pc → Bool
  | .begin _ _ => true
  | .unconfigure _ => true
  | .unpublishLoad _ _ => true
  | .unpublish _ _ _ => true
  | .firstCursor _ => true
  | .terminal goal => goal.advances
  | .cleanup _ goal => goal.advances
  | .resume goal => goal.advances
  | .describe _ after => after.advances
  | .store _ after => after.advances
  | .ring _ after => after.advances
  | .latest _ after => after.advances
  | .epochLoad after => after.advances
  | .epoch _ after => after.advances
  | .terminate after => after.advances
  | .pages _ _ after => after.advances
  | .paged _ _ _ after => after.advances
  | _ => false

/-- The operation may replace the allocation. -/
def Arena.Op.resizes : Arena.Op → Bool
  | .reconfigureCpu _ => true
  | .reconfigureNative _ => true
  | .advanceReconfiguration => true
  | _ => false

namespace Arena

variable {s t a b : Arena} {l : Label} {n : ℕ}

/-- What a reconfiguration changes, unchanged. -/
structure SameInstallation (a b : Arena) : Prop where
  pending : b.producer.pendingLayout = a.producer.pendingLayout
  resources : b.producer.resources = a.producer.resources
  layout : b.layout = a.layout

/-- The installed layout is read off one map. -/
lemma SameInstallation.of_maps (hpending : b.producer.pendingLayout = a.producer.pendingLayout)
    (hresources : b.producer.resources = a.producer.resources)
    (hmaps : ∀ g, (b.shared.maps g).layout = (a.shared.maps g).layout) : SameInstallation a b := by
  refine ⟨hpending, hresources, ?_⟩
  rw [Arena.layout, Arena.layout, Arena.current, Arena.current, hresources, hmaps]

end Arena

lemma Pc.resizes_finds (s : Arena) (off : ℕ) (w : Writer) : (Pc.finds s off w).resizes = false := by
  rcases w with (_ | _) | _ <;> rfl

lemma Pc.resizes_scans (s : Arena) (w : Writer) (off : ℕ) :
    (Pc.scans s w off).resizes = false := by
  rw [Pc.scans]
  split_ifs <;> rfl

/-- The control flow of another call does not become that of a reconfiguration. -/
lemma Pc.Flows.not_resizes {s : Arena} {pc pc' : Pc} (h : Flows s pc pc') (hidle : pc ≠ .idle)
    (hpc : pc.resizes = false) : pc'.resizes = false := by
  cases h with
  | refused => rfl
  | terminal goal => exact absurd rfl hidle
  | cleanup goal hgoal => exact absurd rfl hidle
  | reconfigure payloadCapacity externalBytes => exact absurd rfl hidle
  | publish source g hres hlen hmax => exact Pc.resizes_scans _ _ _
  | reserve g hres hcap hmax => exact Pc.resizes_scans _ _ _
  | reserved w off hflag => exact Pc.resizes_scans _ _ _
  | retained w off hzero hold => exact Pc.resizes_scans _ _ _
  | claimed w off generation i k probes inc hi hclaim => exact Pc.resizes_scans _ _ _
  | prepareSkipped off => exact Pc.resizes_scans _ _ _
  | found w off generation => exact Pc.resizes_finds _ _ _
  | advance call => cases hpc
  | _ => first | rfl | exact hpc

namespace Arena

variable {s t a b : Arena} {l : Label} {n : ℕ}

/-- A store into the records or the counters of one map. -/
lemma SameInstallation.of_stored (g : ℕ) {map : ResourceMap}
    (hmaps : b.shared.maps = Function.update a.shared.maps g map)
    (hlayout : map.layout = (a.shared.maps g).layout)
    (hpending : b.producer.pendingLayout = a.producer.pendingLayout)
    (hresources : b.producer.resources = a.producer.resources) : SameInstallation a b := by
  refine .of_maps hpending hresources fun g' => ?_
  rw [hmaps]
  by_cases hg : g' = g
  · rw [hg, Function.update_self, hlayout]
  · rw [Function.update_of_ne hg]

/-- **A step of another call**: it replaces nothing, and stays another call. -/
lemma Acts.same_installation (h : Ledger a) (hidle : a.producer.pc ≠ .idle)
    (hpc : a.producer.pc.resizes = false) (hs : a.Acts b) :
    SameInstallation a b ∧ b.producer.pc.resizes = false := by
  cases hs with
  | incarnation i inc inc' hi ha => exact ⟨.of_maps rfl rfl fun _ => rfl, hpc⟩
  | write g index bytes hres hlen => exact ⟨.of_stored g rfl rfl rfl rfl, hpc⟩
  | abandon g index hres => exact ⟨.of_stored g rfl rfl rfl rfl, hpc⟩
  | releaseMap g hpos => exact ⟨.of_stored g rfl rfl rfl rfl, hpc⟩
  | dropExport g hpos => exact ⟨.of_stored g rfl rfl rfl rfl, hpc⟩
  | flow pc outcome released hflow =>
      exact ⟨.of_maps rfl rfl fun _ => rfl, hflow.not_resizes hidle hpc⟩
  | commitCall g index descriptor h0 => exact absurd h0 hidle
  | offerCall i h0 => exact absurd h0 hidle
  | registerCall i h0 => exact absurd h0 hidle
  | observe i todo goal inc hpc' =>
      rw [hpc'] at hpc
      exact ⟨.of_maps rfl rfl fun _ => rfl, hpc⟩
  | observed i todo goal released hpc' =>
      rw [hpc'] at hpc
      exact ⟨.of_maps rfl rfl fun _ => rfl, hpc⟩
  | collect i todo goal hd =>
      obtain ⟨hi, hrem, c, hc⟩ := h.drained hd
      obtain ⟨book', -, -, -, -, heq⟩ := h.collect_spec hi hrem todo goal
      rw [hc] at hpc
      rw [heq]
      exact ⟨.of_maps rfl rfl fun _ => rfl, hpc⟩
  | remove i todo goal inc hpc' =>
      rw [hpc'] at hpc
      exact ⟨.of_maps rfl rfl fun _ => rfl, hpc⟩
  | reclaim index goal r hpc' hr =>
      obtain ⟨_, -, -, -, -, -, -, heq⟩ := h.reclaim_spec (by rw [hpc']; rfl) hr goal
      rw [hpc'] at hpc
      rw [heq]
      exact ⟨.of_maps rfl rfl fun _ => rfl, hpc⟩
  | unready index goal r hpc' =>
      rw [hpc'] at hpc
      exact ⟨.of_stored r.generation rfl rfl rfl rfl, hpc⟩
  | ready index goal r hpc' hr =>
      have hready := h.ready r.generation
      obtain ⟨_, -, -, -, -, -, -, heq⟩ := hready.reclaim_spec
        (by rw [onMap_producer, hpc']; rfl) hr goal
      rw [hpc'] at hpc
      rw [heq]
      exact ⟨.of_stored r.generation rfl rfl rfl rfl, hpc⟩
  | attach e holding remote hpc' =>
      obtain ⟨o, heq⟩ | ⟨book', o, -, -, -, -, heq⟩ | ⟨book', g, r, -, -, -, -, -, -, -, heq⟩ :=
        h.attach_spec (by rw [hpc']; rfl) e holding remote <;> rw [heq] <;>
          exact ⟨.of_maps rfl rfl fun _ => rfl, rfl⟩
  | advance e hpc' =>
      rw [hpc'] at hpc
      cases hpc
  | retire w off generation hpc' =>
      refine ⟨.of_stored a.current rfl rfl rfl rfl, ?_⟩
      show (if generation = 0 then Pc.finds a off w
        else .scanClaims w off generation a.claimProbes).resizes = false
      split_ifs
      · exact Pc.resizes_finds _ _ _
      · rfl
  | reserve index hpc' => exact ⟨.of_stored a.current rfl rfl rfl rfl, rfl⟩
  | stage off descriptor bytes hostTimeNs hpc' => exact ⟨.of_stored a.current rfl rfl rfl rfl, rfl⟩
  | copy index descriptor bytes hostTimeNs hpc' =>
      exact ⟨.of_stored a.current rfl rfl rfl rfl, rfl⟩
  | describe p after hpc' =>
      rw [hpc'] at hpc
      exact ⟨.of_stored p.generation rfl rfl rfl rfl, hpc⟩
  | store p after hpc' =>
      rw [hpc'] at hpc
      exact ⟨.of_stored p.generation rfl rfl rfl rfl, hpc⟩
  | ring p after hpc' =>
      rw [hpc'] at hpc
      exact ⟨.of_maps rfl rfl fun _ => rfl, hpc⟩
  | latest p after hpc' =>
      rw [hpc'] at hpc
      exact ⟨.of_maps rfl rfl fun _ => rfl, hpc⟩
  | release g index outcome hpc' => exact ⟨.of_stored g rfl rfl rfl rfl, rfl⟩
  | begin payloadCapacity externalBytes hpc' =>
      rw [hpc'] at hpc
      cases hpc
  | unconfigure layout hpc' =>
      rw [hpc'] at hpc
      cases hpc
  | unpublish layout index state hpc' =>
      rw [hpc'] at hpc
      cases hpc
  | firstCursor layout hpc' =>
      rw [hpc'] at hpc
      cases hpc
  | configure g hpc' => exact ⟨.of_maps rfl rfl fun _ => rfl, rfl⟩
  | epoch value after hpc' =>
      rw [hpc'] at hpc
      exact ⟨.of_maps rfl rfl fun _ => rfl, hpc⟩
  | terminate after hpc' =>
      rw [hpc'] at hpc
      exact ⟨.of_maps rfl rfl fun _ => rfl, hpc⟩
  | page call i todo after hpc' =>
      rw [hpc'] at hpc
      exact ⟨.of_maps rfl rfl fun _ => rfl, hpc⟩
  | close call i hpc' =>
      obtain ⟨e, heq⟩ | ⟨book', -, -, -, -, heq⟩ := h.close_spec i <;> rw [heq] <;>
        exact ⟨.of_maps rfl rfl fun _ => rfl, rfl⟩
  | register i inc hpc' => exact ⟨.of_maps rfl rfl fun _ => rfl, rfl⟩
  | retry i inc outcome hpc' => exact ⟨.of_maps rfl rfl fun _ => rfl, rfl⟩
  | exported g hpc' => exact ⟨.of_stored g rfl rfl rfl rfl, rfl⟩
  | dropObserver i todo inc hpc' => exact ⟨.of_maps rfl rfl fun _ => rfl, rfl⟩

/-- An operation that replaces nothing begins another call. -/
lemma begin_same_installation {op : Op} (hop : op.resizes = false) (hs : a.begin op = some b) :
    SameInstallation a b ∧ b.producer.pc.resizes = false := by
  cases op with
  | reconfigureCpu payloadCapacity => cases hop
  | reconfigureNative externalBytes => cases hop
  | advanceReconfiguration => cases hop
  | commit g index descriptor =>
      simp only [begin] at hs
      split_ifs at hs
      cases hs
      exact ⟨.of_stored g rfl rfl rfl rfl, rfl⟩
  | publish source =>
      cases source with
      | cpu descriptor bytes =>
          simp only [begin, Option.some.injEq] at hs
          subst hs
          exact ⟨.of_maps rfl rfl fun _ => rfl, rfl⟩
      | native =>
          simp only [begin, Option.some.injEq] at hs
          split_ifs at hs <;> subst hs <;> exact ⟨.of_maps rfl rfl fun _ => rfl, rfl⟩
  | _ =>
      simp only [begin, Option.some.injEq] at hs
      try split_ifs at hs
      all_goals
        subst hs
        exact ⟨.of_maps rfl rfl fun _ => rfl, rfl⟩

/-- The operation that a step calls, if it calls one. -/
def Label.Calls (P : Op → Prop) : Label → Prop
  | .call op => P op
  | _ => True

/-- The others leave the producer alone, and the layouts. -/
lemma step_layouts (hc : ∀ op, l ≠ .call op) (hl : ∀ e, l ≠ .producer e)
    (hs : a.step l = some b) :
    b.producer = a.producer ∧ ∀ g, (b.shared.maps g).layout = (a.shared.maps g).layout := by
  cases l with
  | call op => exact absurd rfl (hc op)
  | producer e => exact absurd rfl (hl e)
  | incarnation i l =>
      simp only [Arena.step, Option.bind_eq_bind, Option.bind_eq_some_iff] at hs
      obtain ⟨inc, -, inc', -, heq⟩ := hs
      cases heq
      exact ⟨rfl, fun _ => rfl⟩
  | write g index bytes =>
      simp only [Arena.step] at hs
      split_ifs at hs
      cases hs
      exact ⟨rfl, onMap_layout a g _ fun _ => rfl⟩
  | abandon g index =>
      simp only [Arena.step] at hs
      split_ifs at hs
      cases hs
      exact ⟨rfl, onMap_layout a g _ fun _ => rfl⟩
  | releaseMap g =>
      simp only [Arena.step] at hs
      split_ifs at hs
      cases hs
      exact ⟨rfl, onMap_layout a g _ fun _ => rfl⟩
  | dropExport g =>
      simp only [Arena.step] at hs
      split_ifs at hs
      cases hs
      exact ⟨rfl, onMap_layout a g _ fun _ => rfl⟩

/-- **Between reconfigurations the installation stays**, whatever else happens in the arena. -/
theorem step_same_installation (h : Ledger a) (hpc : a.producer.pc.resizes = false)
    (hl : l.Calls fun op => op.resizes = false) (hs : a.step l = some b) :
    SameInstallation a b ∧ b.producer.pc.resizes = false := by
  by_cases hidle : a.producer.pc = .idle
  swap
  · exact (acts_of_step hs).same_installation h hidle hpc
  by_cases hcall : ∃ op, l = .call op
  · obtain ⟨op, rfl⟩ := hcall
    simp only [Arena.step, if_pos hidle] at hs
    exact begin_same_installation hl hs
  by_cases hprod : ∃ e, l = .producer e
  · obtain ⟨e, rfl⟩ := hprod
    simp only [Arena.step, producerStep, hidle] at hs
    cases hs
  obtain ⟨hproducer, hlayouts⟩ :=
    step_layouts (fun op h0 => hcall ⟨op, h0⟩) (fun e h0 => hprod ⟨e, h0⟩) hs
  exact ⟨.of_maps (by rw [hproducer]) (by rw [hproducer]) hlayouts, by rw [hproducer]; exact hpc⟩

/-! ### During a reconfiguration -/

end Arena

/-- The replacement has been asked for and the old allocation is still installed. -/
def Pc.asks (n : ℕ) : Pc → Bool
  | .begin payloadCapacity _ => payloadCapacity == n
  | .unconfigure layout => layout.payloadCapacity == n
  | .unpublishLoad layout _ => layout.payloadCapacity == n
  | .unpublish layout _ _ => layout.payloadCapacity == n
  | .firstCursor layout => layout.payloadCapacity == n
  | _ => false

/-- What follows is the return of such an outcome. -/
def After.returns (P : Outcome → Bool) : After → Bool
  | .finish o => P o
  | _ => false

/-- The call is on its way to return such an outcome. -/
def Pc.returns (P : Outcome → Bool) : Pc → Bool
  | .epochLoad after => after.returns P
  | .epoch _ after => after.returns P
  | .terminate after => after.returns P
  | .pages _ _ after => after.returns P
  | .paged _ _ _ after => after.returns P
  | _ => false

/-- The outcome is an error. -/
def Outcome.failed : Outcome → Bool
  | .error _ => true
  | _ => false

/-- The outcome of a reconfiguration that has been completed, or an error. -/
def Outcome.completes : Outcome → Bool
  | .ready _ => true
  | .error _ => true
  | _ => false

/-- The replacement is pending, and the call is on its way to try to install it. -/
def Pc.attempts : Pc → Bool
  | .terminal goal => goal.advances
  | .cleanup _ goal => goal.advances
  | .resume goal => goal.advances
  | .epochLoad after => after.advances
  | .epoch _ after => after.advances
  | .pages _ _ after => after.advances
  | .paged _ _ _ after => after.advances
  | _ => false

namespace Arena

variable {s a b : Arena} {l : Label} {n : ℕ}

/-- **What an answer means**: a replacement of this capacity is installed, or it is pending;
behind an error nothing is said. -/
def Answers (n : ℕ) (s : Arena) : Outcome → Prop
  | .ready _ => s.producer.pendingLayout = none ∧ s.layout.payloadCapacity = n
  | .pausedCapacity _ _ =>
      ∃ layout, s.producer.pendingLayout = some layout ∧ layout.payloadCapacity = n
  | .error _ => True
  | _ => False

/-- **Where a reconfiguration to this capacity stands.** -/
inductive Resizing (n : ℕ) (s : Arena) : Prop
  | asked : s.producer.pc.asks n = true → Resizing n s
  | pending (layout : ResourceLayout) :
      s.producer.pc.attempts = true ∨ s.producer.pc.returns Outcome.failed = true →
      s.producer.pendingLayout = some layout → layout.payloadCapacity = n → Resizing n s
  | installed : (∃ g, s.producer.pc = .configure g) ∨
        s.producer.pc.returns Outcome.completes = true →
      s.producer.pendingLayout = none → s.layout.payloadCapacity = n → Resizing n s
  | answered : s.producer.pc = .idle → s.Answers n s.producer.outcome → Resizing n s

lemma SameInstallation.answers (h : SameInstallation a b) {o : Outcome} (ha : a.Answers n o) :
    b.Answers n o := by
  cases o with
  | ready g => exact ⟨h.pending.trans ha.1, by rw [h.layout]; exact ha.2⟩
  | pausedCapacity requested available =>
      obtain ⟨layout, hlayout, hn⟩ := ha
      exact ⟨layout, h.pending.trans hlayout, hn⟩
  | error e => trivial
  | _ => exact ha.elim

/-- A step of another party during the call. -/
lemma Resizing.of_same (h : Resizing n a) (hsame : SameInstallation a b)
    (hproducer : b.producer = a.producer) : Resizing n b := by
  cases h with
  | asked hpc => exact .asked (by rw [hproducer]; exact hpc)
  | pending layout hpc hlayout hn =>
      exact .pending layout (by rw [hproducer]; exact hpc) (hsame.pending.trans hlayout) hn
  | installed hpc hnone hn =>
      exact .installed (by rw [hproducer]; exact hpc) (hsame.pending.trans hnone)
        (by rw [hsame.layout]; exact hn)
  | answered hidle ha =>
      exact .answered (by rw [hproducer]; exact hidle)
        (by rw [hproducer]; exact hsame.answers ha)

/-- A call with its outcome at hand tells the consumers and returns it, or an error. -/
lemma returns_step {P : Outcome → Bool} (hP : ∀ e, P (.error e) = true)
    (hpc : a.producer.pc.returns P = true) {e : Env} (hs : a.producerStep e = some b) :
    SameInstallation a b ∧ (b.producer.pc.returns P = true ∨
      b.producer.pc = .idle ∧ P b.producer.outcome = true) := by
  cases hat : a.producer.pc with
  | epochLoad after =>
      simp only [producerStep, hat, reconfigureStep, Option.some.injEq] at hs
      subst hs
      rw [hat] at hpc
      exact ⟨.of_maps rfl rfl fun _ => rfl, Or.inl hpc⟩
  | epoch value after =>
      simp only [producerStep, hat, reconfigureStep, Option.some.injEq] at hs
      rw [hat] at hpc
      split_ifs at hs <;> subst hs
      · exact ⟨.of_maps rfl rfl fun _ => rfl, Or.inl (hP _)⟩
      · exact ⟨.of_maps rfl rfl fun _ => rfl, Or.inl hpc⟩
      · exact ⟨.of_maps rfl rfl fun _ => rfl, Or.inl hpc⟩
  | terminate after =>
      simp only [producerStep, hat, pagesStep, Option.some.injEq] at hs
      subst hs
      rw [hat] at hpc
      exact ⟨.of_maps rfl rfl fun _ => rfl, Or.inl hpc⟩
  | pages call todo after =>
      rw [hat] at hpc
      cases after with
      | finish o =>
          cases todo with
          | nil =>
              simp only [producerStep, hat, pagesStep, continue_, Option.some.injEq] at hs
              subst hs
              exact ⟨.of_maps rfl rfl fun _ => rfl, Or.inr ⟨rfl, hpc⟩⟩
          | cons i todo =>
              simp only [producerStep, hat, pagesStep, Option.some.injEq] at hs
              subst hs
              exact ⟨.of_maps rfl rfl fun _ => rfl, Or.inl hpc⟩
      | _ => cases hpc
  | paged call i todo after =>
      rw [hat] at hpc
      cases after with
      | finish o =>
          simp only [producerStep, hat, pagesStep, Option.bind_eq_bind, Option.bind_eq_some_iff]
            at hs
          obtain ⟨inc, -, hs⟩ := hs
          split_ifs at hs
          · cases hs
            exact ⟨.of_maps rfl rfl fun _ => rfl, Or.inr ⟨rfl, hP _⟩⟩
          · cases hs
            exact ⟨.of_maps rfl rfl fun _ => rfl, Or.inl hpc⟩
      | _ => cases hpc
  | _ =>
      rw [hat] at hpc
      cases hpc

/-- A refused proposal is answered with an error. -/
lemma beginReconfiguration_failed {payloadCapacity externalBytes : ℕ}
    (h : (a.beginReconfiguration payloadCapacity externalBytes).producer.pc = .idle) :
    (a.beginReconfiguration payloadCapacity externalBytes).producer.outcome.failed = true := by
  revert h
  rw [beginReconfiguration]
  split_ifs
  · intro; rfl
  · intro; rfl
  · rintro ⟨⟩
  · split
    · intro; rfl
    · split_ifs
      · intro; rfl
      · split
        · rintro ⟨⟩
        · intro; rfl
        · rintro ⟨⟩

/-- An attempt that is given up is answered with an error. -/
lemma abandonAllocation_failed {e : ArenaError} (h : (a.abandonAllocation e).producer.pc = .idle) :
    (a.abandonAllocation e).producer.outcome.failed = true := by
  revert h
  rw [abandonAllocation]
  split
  · intro; rfl
  · intro; rfl
  · rintro ⟨⟩

/-- An attempt that installs nothing is answered with `PausedCapacity` or an error. -/
lemma advance_answers {layout : ResourceLayout} (hl : a.producer.pendingLayout = some layout)
    {e : Env} (h : (a.advance e).producer.pc = .idle) :
    (∃ requested available, (a.advance e).producer.outcome = .pausedCapacity requested available) ∨
      (a.advance e).producer.outcome.failed = true := by
  revert h
  simp only [advance, hl]
  split
  · exact fun _ => Or.inl ⟨_, _, rfl⟩
  · exact fun _ => Or.inr rfl
  · rintro ⟨⟩
  · generalize layout.len + layout.payloadLen + _ = bytes
    split_ifs
    · exact fun h => Or.inr (abandonAllocation_failed h)
    · exact fun h => Or.inr (abandonAllocation_failed h)
    · exact fun h => Or.inr (abandonAllocation_failed h)
    · rw [installAllocation]
      split
      · exact fun h => Or.inr (abandonAllocation_failed h)
      · rintro ⟨⟩
      · rintro ⟨⟩

/-- `poll_cleanup` ends a call with an error only. -/
lemma cleanupStep_failed {e : Env} {goal : Goal} {c : CleanupPc}
    (hs : a.cleanupStep e goal c = some b) (hidle : b.producer.pc = .idle) :
    b.producer.outcome.failed = true := by
  have collected : ∀ i todo, (a.collect i todo goal).producer.pc ≠ .idle := by
    intro i todo
    rw [collect]
    split
    · split <;> rintro ⟨⟩
    · rintro ⟨⟩
  have claimed : ∀ i k todo, (a.claimsFrom i k todo goal).producer.pc ≠ .idle := by
    intro i k todo
    rw [claimsFrom]
    split_ifs
    · exact collected i todo
    · rintro ⟨⟩
  have reclaimed : ∀ (a : Arena) index g, (a.reclaim index g goal).producer.pc ≠ .idle := by
    intro a index g
    rw [reclaim]
    split <;> rintro ⟨⟩
  have bound : ∀ {α : Type} {x : Option α} {f : α → Arena}, (x.bind fun y => some (f y)) = some b →
      (∀ y, (f y).producer.pc ≠ .idle) → False := by
    intro α x f hx hf
    obtain ⟨y, -, hy⟩ := Option.bind_eq_some_iff.mp hx
    rw [← Option.some.inj hy] at hidle
    exact hf y hidle
  cases c with
  | observers todo =>
      cases todo with
      | nil =>
          simp only [cleanupStep, Option.some.injEq] at hs
          subst hs
          cases hidle
      | cons i todo =>
          simp only [cleanupStep, Option.bind_eq_bind, Option.bind_eq_some_iff] at hs
          obtain ⟨inc, -, hs⟩ := hs
          split_ifs at hs
          cases hs
          cases hidle
  | polling i todo =>
      simp only [cleanupStep, Option.bind_eq_bind, Option.bind_eq_some_iff] at hs
      obtain ⟨inc, -, hs⟩ := hs
      split_ifs at hs
      cases hs
      cases hidle
  | quiescent todo =>
      cases todo with
      | nil =>
          simp only [cleanupStep, Option.some.injEq] at hs
          subst hs
          cases hidle
      | cons i todo => exact (bound hs fun inc => by rintro ⟨⟩).elim
  | mapping i m todo =>
      refine (bound hs fun inc => ?_).elim
      split_ifs
      · rintro ⟨⟩
      · rintro ⟨⟩
      · exact claimed i 0 todo
  | claim i k todo =>
      refine (bound hs fun inc => ?_).elim
      split_ifs
      · rintro ⟨⟩
      · exact claimed i (k + 1) todo
  | remove i todo =>
      simp only [cleanupStep, Option.bind_eq_bind, Option.bind_eq_some_iff] at hs
      obtain ⟨inc, -, hs⟩ := hs
      split_ifs at hs
      cases hs
      cases hidle
  | retired index =>
      simp only [cleanupStep] at hs
      split at hs <;> cases hs <;> cases hidle
  | probe index probes =>
      cases probes with
      | nil =>
          simp only [cleanupStep, Option.some.injEq] at hs
          subst hs
          cases hidle
      | cons p probes =>
          simp only [cleanupStep, Option.bind_eq_bind, Option.bind_eq_some_iff] at hs
          obtain ⟨r, -, hs⟩ := hs
          cases p with
          | mapping i m => exact (bound hs fun inc => by rintro ⟨⟩).elim
          | record i slot => exact (bound hs fun inc => by rintro ⟨⟩).elim
          | claim i cursor k => exact (bound hs fun inc => by rintro ⟨⟩).elim
  | count index =>
      refine (bound hs fun r => ?_).elim
      split_ifs
      · rintro ⟨⟩
      · rintro ⟨⟩
      · exact reclaimed a index r.generation
  | ready index =>
      simp only [cleanupStep, Option.bind_eq_bind, Option.bind_eq_some_iff] at hs
      obtain ⟨r, -, hs⟩ := hs
      split_ifs at hs <;> cases hs
      · rfl
      · cases hidle
      · exact absurd hidle (reclaimed _ index r.generation)

/-- The proposal, and the stores that retire the old allocation. -/
lemma asks_step (h : Ledger a) (hpc : a.producer.pc.asks n = true) {e : Env}
    (hs : a.producerStep e = some b) : Resizing n b := by
  cases hat : a.producer.pc with
  | begin payloadCapacity externalBytes =>
      simp only [producerStep, hat, reconfigureStep, Option.some.injEq] at hs
      rw [hat] at hpc
      have hn : payloadCapacity = n := by simpa [Pc.asks] using hpc
      obtain ⟨o, heq⟩ | ⟨layout, book', g, -, -, -, -, hlayout, -, -, -, -, -, -, heq⟩ :=
        h.begin_spec (by rw [hat]; rfl) payloadCapacity externalBytes
      · have hfailed := beginReconfiguration_failed (by rw [heq]; rfl)
        rw [← hs]
        refine .answered (by rw [heq]; rfl) ?_
        cases ho : (a.beginReconfiguration payloadCapacity externalBytes).producer.outcome with
        | error e => trivial
        | _ =>
            rw [ho] at hfailed
            cases hfailed
      · rw [← hs, heq]
        exact .asked (by simpa [Pc.asks, goto] using hlayout.trans hn)
  | unconfigure layout =>
      simp only [producerStep, hat, reconfigureStep, Option.some.injEq] at hs
      subst hs
      rw [hat] at hpc
      exact .asked hpc
  | unpublishLoad layout index =>
      simp only [producerStep, hat, reconfigureStep, Option.some.injEq] at hs
      rw [hat] at hpc
      split_ifs at hs <;> subst hs <;> exact .asked hpc
  | unpublish layout index state =>
      simp only [producerStep, hat, reconfigureStep, Option.some.injEq] at hs
      subst hs
      rw [hat] at hpc
      exact .asked hpc
  | firstCursor layout =>
      simp only [producerStep, hat, reconfigureStep, Option.some.injEq] at hs
      subst hs
      rw [hat] at hpc
      exact .pending layout (Or.inl rfl) rfl (by simpa [Pc.asks] using hpc)
  | _ =>
      rw [hat] at hpc
      cases hpc

lemma Resizing.of_failed (hidle : b.producer.pc = .idle) (h : b.producer.outcome.failed = true) :
    Resizing n b := by
  refine .answered hidle ?_
  cases ho : b.producer.outcome with
  | error e => trivial
  | _ =>
      rw [ho] at h
      cases h

/-- The attempt is answered with its failure, or the replacement is installed. -/
lemma advance_step (h : Ledger a) {layout : ResourceLayout}
    (hl : a.producer.pendingLayout = some layout) (hn : layout.payloadCapacity = n) (e : Env) :
    Resizing n (a.advance e) := by
  have answered : (a.advance e).producer.pc = .idle →
      (a.advance e).producer.pendingLayout = some layout → Resizing n (a.advance e) := by
    intro hidle hkept
    rcases advance_answers hl hidle with ⟨requested, available, ho⟩ | hfailed
    · refine .answered hidle ?_
      rw [ho]
      exact ⟨layout, hkept, hn⟩
    · exact .of_failed hidle hfailed
  obtain ⟨o, heq⟩ | ⟨book', o, -, -, -, -, -, -, heq⟩ |
    ⟨book', layout', bytes, -, -, hl', -, -, -, -, heq⟩ := h.advance_spec e
  · exact answered (by rw [heq]; rfl) (by rw [heq]; exact hl)
  · exact answered (by rw [heq]; rfl) (by rw [heq]; exact hl)
  · obtain rfl : layout = layout' := Option.some.inj (hl.symm.trans hl')
    rw [heq]
    refine .installed (Or.inl ⟨_, rfl⟩) rfl ?_
    show ((Function.update a.shared.maps a.producer.admission.nextAllocation
      (ResourceMap.new layout)) a.producer.admission.nextAllocation).layout.payloadCapacity = n
    rw [Function.update_self]
    exact hn

/-- The way to the attempt: the consumers are told, what can be cleaned up is. -/
lemma attempts_step (h : Ledger a) (hpc : a.producer.pc.attempts = true) {layout : ResourceLayout}
    (hl : a.producer.pendingLayout = some layout) (hn : layout.payloadCapacity = n) {e : Env}
    (hs : a.producerStep e = some b) : Resizing n b := by
  cases hat : a.producer.pc with
  | terminal goal =>
      simp only [producerStep, hat, Option.some.injEq] at hs
      rw [hat] at hpc
      split_ifs at hs <;> subst hs
      · exact .of_failed rfl rfl
      · exact .pending layout (Or.inl hpc) hl hn
  | cleanup c goal =>
      obtain ⟨hclean, hwhere⟩ := (acts_of_step (l := .producer e) hs).cleaned h hat
      have hl' : b.producer.pendingLayout = some layout := hclean.pendingLayout.trans hl
      rw [hat] at hpc
      rcases hwhere with ⟨c', hc'⟩ | hresume | hidle
      · exact .pending layout (Or.inl (by rw [hc']; exact hpc)) hl' hn
      · exact .pending layout (Or.inl (by rw [hresume]; exact hpc)) hl' hn
      · simp only [producerStep, hat] at hs
        exact .of_failed hidle (cleanupStep_failed hs hidle)
  | resume goal =>
      rw [hat] at hpc
      cases goal with
      | advance =>
          simp only [producerStep, hat, resume, Option.some.injEq] at hs
          subst hs
          exact advance_step h hl hn e
      | _ => cases hpc
  | epochLoad after =>
      simp only [producerStep, hat, reconfigureStep, Option.some.injEq] at hs
      subst hs
      rw [hat] at hpc
      exact .pending layout (Or.inl hpc) hl hn
  | epoch value after =>
      simp only [producerStep, hat, reconfigureStep, Option.some.injEq] at hs
      rw [hat] at hpc
      split_ifs at hs <;> subst hs
      · exact .pending layout (Or.inr rfl) hl hn
      · exact .pending layout (Or.inl hpc) hl hn
      · exact .pending layout (Or.inl hpc) hl hn
  | pages call todo after =>
      rw [hat] at hpc
      cases after with
      | advance =>
          cases todo with
          | nil =>
              simp only [producerStep, hat, pagesStep, continue_, Option.some.injEq] at hs
              subst hs
              exact .pending layout (Or.inl rfl) hl hn
          | cons i todo =>
              simp only [producerStep, hat, pagesStep, Option.some.injEq] at hs
              subst hs
              exact .pending layout (Or.inl rfl) hl hn
      | _ => cases hpc
  | paged call i todo after =>
      rw [hat] at hpc
      cases after with
      | advance =>
          simp only [producerStep, hat, pagesStep, Option.bind_eq_bind, Option.bind_eq_some_iff]
            at hs
          obtain ⟨inc, -, hs⟩ := hs
          split_ifs at hs
          · cases hs
            exact .of_failed rfl rfl
          · cases hs
            exact .pending layout (Or.inl rfl) hl hn
      | _ => cases hpc
  | _ =>
      rw [hat] at hpc
      cases hpc

/-- **A step during a reconfiguration**, of the call or of another party. -/
theorem Resizing.step (h : Ledger a) (hr : Resizing n a) (hl : ∀ op, l ≠ .call op)
    (hs : a.step l = some b) : Resizing n b := by
  by_cases hprod : ∃ e, l = .producer e
  swap
  · obtain ⟨hproducer, hlayouts⟩ := step_layouts hl (fun e he => hprod ⟨e, he⟩) hs
    exact hr.of_same (.of_maps (by rw [hproducer]) (by rw [hproducer]) hlayouts) hproducer
  obtain ⟨e, rfl⟩ := hprod
  have hs : a.producerStep e = some b := hs
  cases hr with
  | asked hpc => exact asks_step h hpc hs
  | pending layout hpc hlayout hn =>
      rcases hpc with hpc | hpc
      · exact attempts_step h hpc hlayout hn hs
      · obtain ⟨hsame, hpc' | ⟨hidle, ho⟩⟩ := returns_step (fun _ => rfl) hpc hs
        · exact .pending layout (Or.inr hpc') (hsame.pending.trans hlayout) hn
        · exact .of_failed hidle ho
  | installed hpc hnone hn =>
      rcases hpc with ⟨g, hpc⟩ | hpc
      · simp only [producerStep, hpc, reconfigureStep, Option.some.injEq] at hs
        subst hs
        exact .installed (Or.inr rfl) hnone hn
      · obtain ⟨hsame, hpc' | ⟨hidle, ho⟩⟩ := returns_step (fun _ => rfl) hpc hs
        · exact .installed (Or.inr hpc') (hsame.pending.trans hnone) (by rw [hsame.layout]; exact hn)
        · refine .answered hidle ?_
          cases houtcome : b.producer.outcome with
          | ready g => exact ⟨hsame.pending.trans hnone, by rw [hsame.layout]; exact hn⟩
          | error e => trivial
          | _ =>
              rw [houtcome] at ho
              cases ho
  | answered hidle ha =>
      simp only [producerStep, hidle] at hs
      cases hs

/-- The call has returned. -/
lemma Resizing.answers (h : Resizing n a) (hidle : a.producer.pc = .idle) :
    a.Answers n a.producer.outcome := by
  cases h with
  | asked hpc =>
      rw [hidle] at hpc
      cases hpc
  | pending layout hpc =>
      rw [hidle] at hpc
      rcases hpc with hpc | hpc <;> cases hpc
  | installed hpc =>
      rw [hidle] at hpc
      rcases hpc with ⟨g, hpc⟩ | hpc <;> cases hpc
  | answered _ ha => exact ha

end Arena

end Jackstay.Acquisition
