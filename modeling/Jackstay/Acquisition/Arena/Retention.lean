import Jackstay.Acquisition.Arena.Placement
import Jackstay.Acquisition.Arena.Sizes

/-!
`acquisition/arena.rs`: what stays of the frames of the history window.

* `Retention`: the ring names the slot of every cursor of the window, the state word of this
  slot is the published one, and the slot is of the installed allocation. The window ends
  below at `FIRST_CURSOR`; a reconfiguration that unpublishes the slots moves it up before
  the next allocation is installed.
* `Described`: a published descriptor is within the bounds of its slot.
* `Retention.acts`: every step keeps this. A scan retires only what is older than the window,
  and a publication goes to a slot whose state word is even.
-/

namespace Jackstay.Acquisition

/-- A reconfiguration is unpublishing the slots. -/
def Pc.unpublishing : Pc → Bool
  | .unpublishLoad _ _ => true
  | .unpublish _ _ _ => true
  | .firstCursor _ => true
  | _ => false

namespace Arena

variable {s s' : Arena}

/-- The descriptor names its slot, and its payload is within the slot. -/
structure Described (s : Arena) (p : Publication) : Prop where
  slotId : p.descriptor.slotId = p.index
  payloadOffset :
    p.descriptor.payloadOffset = (s.shared.maps p.generation).layout.payloadOffset p.index
  payloadLen : p.descriptor.payloadLen ≤ (s.shared.maps p.generation).layout.payloadCapacity

/-- The layout of the slot is all that matters. -/
lemma Described.congr {p : Publication} (h : s.Described p)
    (hlayout : (s'.shared.maps p.generation).layout = (s.shared.maps p.generation).layout) :
    s'.Described p :=
  ⟨h.slotId, by rw [hlayout]; exact h.payloadOffset, by rw [hlayout]; exact h.payloadLen⟩

/-- **The invariant of the history window.** -/
structure Retention (s : Arena) : Prop where
  uniform : ∀ g, (s.shared.maps g).layout.resources =
    s.producer.admission.limits.resourceCapacity.toNat
  configured : s.shared.control.configuration ≠ 0 →
    s.producer.resources = some s.shared.control.configuration
  replacing : s.producer.pc.unpublishing = true → s.shared.control.configuration = 0
  installed : ∀ c p, s.log c = some p → s.shared.control.firstCursor ≤ c →
    s.producer.resources = some p.generation
  described : ∀ c p, s.log c = some p → s.Described p
  writing : ∀ p, s.producer.pc.writing = some p →
    s.producer.resources = some p.generation ∧ s.Described p
  states : ∀ c p, s.log c = some p → s.shared.control.firstCursor ≤ c →
    s.producer.cursor < c + s.shared.history → s.producer.pc.unpublishing = false →
    (s.record p.generation p.index).state = 2 * c + 1
  rings : ∀ c p, s.log c = some p → c ≤ s.producer.cursor →
    s.producer.cursor < c + s.shared.history →
    (∀ q after, s.producer.pc = .latest q after → s.producer.cursor + 1 < c + s.shared.history) →
    s.shared.ring c = p.index + 1
  ringing : ∀ p after, s.producer.pc = .latest p after →
    s.shared.ring p.descriptor.cursor = p.index + 1

/-! ### What no step changes -/

/-- The limits of the admission book stay. -/
lemma Acts.limits (hl : Ledger s) (hs : s.Acts s') :
    s'.producer.admission.limits = s.producer.admission.limits := by
  cases hs with
  | collect i todo goal hd =>
      obtain ⟨hi, hrem, -⟩ := hl.drained hd
      obtain ⟨_, -, hsame, -, -, heq⟩ := hl.collect_spec hi hrem todo goal
      rw [heq]
      exact hsame.limits
  | reclaim index goal r hpc hget =>
      obtain ⟨_, -, hsame, -, -, -, -, heq⟩ := hl.reclaim_spec (by rw [hpc]; rfl) hget goal
      rw [heq]
      exact hsame.limits
  | ready index goal r hpc hget =>
      obtain ⟨_, -, hsame, -, -, -, -, heq⟩ := (hl.ready r.generation).reclaim_spec
        (by rw [onMap_producer, hpc]; rfl) hget goal
      rw [heq]
      exact hsame.limits
  | attach e holding remote hpc =>
      obtain ⟨o, heq⟩ | ⟨book', o, -, hsame, -, -, heq⟩ |
        ⟨book', g, r, -, hsame, -, -, -, -, -, heq⟩ :=
          hl.attach_spec (by rw [hpc]; rfl) e holding remote
      · rw [heq]
        rfl
      · rw [heq]
        exact hsame.limits
      · rw [heq]
        exact hsame.limits
  | advance e hpc =>
      obtain ⟨o, heq⟩ | ⟨book', o, -, hsame, -, -, -, -, heq⟩ |
        ⟨book', layout, n, -, hsame, -, -, -, -, -, heq⟩ := hl.advance_spec e
      · rw [heq]
        rfl
      · rw [heq]
        exact hsame.limits
      · rw [heq]
        exact hsame.limits
  | begin payloadCapacity externalBytes hpc =>
      obtain ⟨o, heq⟩ | ⟨layout, book', g, -, -, -, -, -, -, hsame, -, -, -, -, heq⟩ :=
        hl.begin_spec (by rw [hpc]; rfl) payloadCapacity externalBytes
      · rw [heq]
        rfl
      · rw [heq]
        exact hsame.limits
  | close call i hpc =>
      obtain ⟨e, heq⟩ | ⟨book', -, hsame, -, -, heq⟩ := hl.close_spec i
      · rw [heq]
        rfl
      · rw [heq]
        exact hsame.limits
  | _ => rfl

/-- Only an installation leads to the store of `CONFIGURATION`. -/
lemma Acts.configuring (hl : Ledger s) (hs : s.Acts s') {g : ℕ}
    (hpc' : s'.producer.pc = .configure g) :
    s'.producer.resources = some g ∨
      s.producer.pc = .configure g ∧ s'.producer.resources = s.producer.resources := by
  cases hs with
  | incarnation i inc inc' hi ha => exact Or.inr ⟨hpc', rfl⟩
  | write g' index bytes hres hlen => exact Or.inr ⟨hpc', rfl⟩
  | abandon g' index hres => exact Or.inr ⟨hpc', rfl⟩
  | releaseMap g' hpos => exact Or.inr ⟨hpc', rfl⟩
  | dropExport g' hpos => exact Or.inr ⟨hpc', rfl⟩
  | flow pc outcome released hf =>
      have hpc' : pc = .configure g := hpc'
      subst hpc'
      generalize s.producer.pc = pc₀ at hf
      have hscans : ∀ w off, Pc.scans s w off ≠ .configure g := fun w off => by
        rw [Pc.scans]
        split_ifs <;> rintro ⟨⟩
      have hfinds : ∀ off w, Pc.finds s off w ≠ .configure g := fun off w => by
        rcases w with (_ | _) | _ <;> rintro ⟨⟩
      generalize hq : Pc.configure g = q at hf
      cases hf with
      | publish => exact absurd hq.symm (hscans _ _)
      | reserve => exact absurd hq.symm (hscans _ _)
      | reserved => exact absurd hq.symm (hscans _ _)
      | retained => exact absurd hq.symm (hscans _ _)
      | claimed => exact absurd hq.symm (hscans _ _)
      | prepareSkipped => exact absurd hq.symm (hscans _ _)
      | found => exact absurd hq.symm (hfinds _ _)
      | _ => cases hq
  | collect i todo goal hd =>
      obtain ⟨hi, hrem, -⟩ := hl.drained hd
      obtain ⟨_, -, -, -, -, heq⟩ := hl.collect_spec hi hrem todo goal
      rw [heq] at hpc'
      cases hpc'
  | reclaim index goal r hpc hget =>
      obtain ⟨_, -, -, -, -, -, -, heq⟩ := hl.reclaim_spec (by rw [hpc]; rfl) hget goal
      rw [heq] at hpc'
      cases hpc'
  | ready index goal r hpc hget =>
      obtain ⟨_, -, -, -, -, -, -, heq⟩ := (hl.ready r.generation).reclaim_spec
        (by rw [onMap_producer, hpc]; rfl) hget goal
      rw [heq] at hpc'
      cases hpc'
  | attach e holding remote hpc =>
      obtain ⟨o, heq⟩ | ⟨book', o, -, -, -, -, heq⟩ | ⟨book', g, r, -, -, -, -, -, -, -, heq⟩ :=
        hl.attach_spec (by rw [hpc]; rfl) e holding remote <;> rw [heq] at hpc' <;> cases hpc'
  | advance e hpc =>
      obtain ⟨o, heq⟩ | ⟨book', o, -, -, -, -, -, -, heq⟩ |
        ⟨book', layout, n, -, -, -, -, -, -, -, heq⟩ := hl.advance_spec e
      · rw [heq] at hpc'
        cases hpc'
      · rw [heq] at hpc'
        cases hpc'
      · rw [heq] at hpc' ⊢
        cases hpc'
        exact Or.inl rfl
  | begin payloadCapacity externalBytes hpc =>
      obtain ⟨o, heq⟩ | ⟨layout, book', g, -, -, -, -, -, -, -, -, -, -, -, heq⟩ :=
        hl.begin_spec (by rw [hpc]; rfl) payloadCapacity externalBytes <;> rw [heq] at hpc' <;>
          cases hpc'
  | close call i hpc =>
      obtain ⟨e, heq⟩ | ⟨book', -, -, -, -, heq⟩ := hl.close_spec i <;> rw [heq] at hpc' <;>
        cases hpc'
  | retire w off generation hpc =>
      have hpc' : (if generation = 0 then Pc.finds s off w
        else .scanClaims w off generation s.claimProbes) = .configure g := hpc'
      split_ifs at hpc'
      rcases w with (_ | _) | _ <;> cases hpc'
  | _ => cases hpc'

/-- The allocation that is about to be configured is the installed one. -/
theorem Reachable.configuring (h : Reachable s) :
    ∀ g, s.producer.pc = .configure g → s.producer.resources = some g := by
  refine h.induct (P := fun s => ∀ g, s.producer.pc = .configure g → s.producer.resources = some g)
    (fun page config externalBytes native s₀ h₀ g hpc => ?_) fun a b ha hp hs g hpc => ?_
  · rw [create] at h₀
    obtain ⟨x, -, h₀⟩ := of_bind_ok h₀
    cases h₀
    cases hpc
  · rcases hs.configuring ha.ledger hpc with h0 | ⟨h0, hres⟩
    · exact h0
    · rw [hres]
      exact hp g h0

/-! ### Control flow -/

/-- Control flow neither begins nor ends the unpublishing, and begins a publication with
what `commit` has checked. -/
lemma retention_flows {pc pc' : Pc} (h : Pc.Flows s pc pc') :
    pc'.unpublishing = pc.unpublishing ∧
      ∀ p, pc'.writing = some p → s.producer.resources = some p.generation ∧ s.Described p := by
  have hscans : ∀ w off, (Pc.scans s w off).unpublishing = false ∧
      (Pc.scans s w off).writing = none := fun w off => by
    rw [Pc.scans]
    split_ifs <;> exact ⟨rfl, rfl⟩
  have hfinds : ∀ off w, (Pc.finds s off w).unpublishing = false ∧
      (Pc.finds s off w).writing = none := fun off w => by
    rcases w with (_ | _) | _ <;> exact ⟨rfl, rfl⟩
  have plain : ∀ {q : Pc}, q.writing = none → ∀ p, q.writing = some p →
      s.producer.resources = some p.generation ∧ s.Described p := fun h0 p hp => by
    rw [h0] at hp
    cases hp
  cases h with
  | publish => exact ⟨(hscans _ _).1, plain (hscans _ _).2⟩
  | reserve => exact ⟨(hscans _ _).1, plain (hscans _ _).2⟩
  | reserved => exact ⟨(hscans _ _).1, plain (hscans _ _).2⟩
  | retained => exact ⟨(hscans _ _).1, plain (hscans _ _).2⟩
  | claimed => exact ⟨(hscans _ _).1, plain (hscans _ _).2⟩
  | prepareSkipped => exact ⟨(hscans _ _).1, plain (hscans _ _).2⟩
  | found => exact ⟨(hfinds _ _).1, plain (hfinds _ _).2⟩
  | commit g index descriptor hostTimeNs _ hres hlen =>
      refine ⟨rfl, fun p hp => ?_⟩
      cases hp
      refine ⟨hres, ?_, ?_, ?_⟩
      · rw [committed, FrameDescriptor.stamp]
        split_ifs <;> rfl
      · rw [committed, FrameDescriptor.stamp]
        split_ifs <;> rfl
      · rw [committed, FrameDescriptor.stamp_payloadLen]
        exact hlen
  | _ => exact ⟨rfl, plain rfl⟩

/-- What is published from a scan is within its slot. -/
lemma described_publication {index : ℕ} {descriptor : FrameDescriptor} {bytes : List UInt8}
    {hostTimeNs : ℕ} (hlen : bytes.length ≤ s.layout.payloadCapacity) :
    s.Described (s.publication index descriptor bytes hostTimeNs) := by
  refine ⟨?_, ?_, ?_⟩
  · rw [publication, FrameDescriptor.stamp]
    split_ifs <;> rfl
  · rw [publication, FrameDescriptor.stamp]
    split_ifs <;> rfl
  · rw [publication, FrameDescriptor.stamp_payloadLen]
    exact hlen

namespace Retention

/-! ### The steps -/

/-- **A step that leaves the window alone.** -/
lemma frame (h : Retention s) (hl : Ledger s) (hs : s.Acts s')
    (hfirst : s'.shared.control.firstCursor = s.shared.control.firstCursor)
    (hconf : s'.shared.control.configuration = s.shared.control.configuration)
    (hring : s'.shared.control.ring = s.shared.control.ring)
    (hcursor : s'.producer.cursor = s.producer.cursor)
    (hres : s'.producer.resources = s.producer.resources) (hlog : s'.log = s.log)
    (hlayout : ∀ g, (s'.shared.maps g).layout = (s.shared.maps g).layout)
    (hstate : ∀ c p, s.log c = some p → s.shared.control.firstCursor ≤ c →
      s.producer.cursor < c + s.shared.history → s.producer.pc.unpublishing = false →
      (s'.record p.generation p.index).state = (s.record p.generation p.index).state)
    (hunp : s'.producer.pc.unpublishing = s.producer.pc.unpublishing)
    (hwriting : ∀ p, s'.producer.pc.writing = some p →
      s.producer.resources = some p.generation ∧ s.Described p)
    (hlatest : ∀ p after, s'.producer.pc = .latest p after ↔ s.producer.pc = .latest p after) :
    Retention s' := by
  have hhist : s'.shared.history = s.shared.history := (hs.static hl).2.1
  have hringed : ∀ c, s'.shared.ring c = s.shared.ring c := fun c => by
    rw [Shared.ring, Shared.ring, hring, hhist]
  constructor
  case uniform => exact fun g => by rw [hlayout, hs.limits hl]; exact h.uniform g
  case configured => rw [hconf, hres]; exact h.configured
  case replacing => rw [hconf, hunp]; exact h.replacing
  case installed => rw [hlog, hfirst, hres]; exact h.installed
  case described =>
      rw [hlog]
      exact fun c p hp => (h.described c p hp).congr (hlayout _)
  case writing =>
      intro p hp
      obtain ⟨h0, hd⟩ := hwriting p hp
      exact ⟨hres ▸ h0, hd.congr (hlayout _)⟩
  case states =>
      rw [hlog, hfirst, hcursor, hhist, hunp]
      intro c p hp hc hw hu
      rw [hstate c p hp hc hw hu]
      exact h.states c p hp hc hw hu
  case rings =>
      rw [hlog, hcursor, hhist]
      intro c p hp hle hw hexc
      rw [hringed]
      exact h.rings c p hp hle hw fun q after hq => hexc q after ((hlatest q after).mpr hq)
  case ringing =>
      intro p after hpc
      rw [hringed]
      exact h.ringing p after ((hlatest p after).mp hpc)

/-- **A step between two places where nothing is published.** -/
lemma moved (h : Retention s) (hl : Ledger s) (hs : s.Acts s')
    (hcontrol : s'.shared.control.firstCursor = s.shared.control.firstCursor ∧
      s'.shared.control.configuration = s.shared.control.configuration ∧
      s'.shared.control.ring = s.shared.control.ring)
    (hcursor : s'.producer.cursor = s.producer.cursor)
    (hres : s'.producer.resources = s.producer.resources) (hlog : s'.log = s.log)
    (hlayout : ∀ g, (s'.shared.maps g).layout = (s.shared.maps g).layout)
    (hstate : ∀ g index, (s'.record g index).state = (s.record g index).state)
    (hpc : s.producer.pc.writing = none ∧ s.producer.pc.unpublishing = false)
    (hpc' : s'.producer.pc.writing = none ∧ s'.producer.pc.unpublishing = false) :
    Retention s' := by
  refine h.frame hl hs hcontrol.1 hcontrol.2.1 hcontrol.2.2 hcursor hres hlog hlayout
    (fun c p _ _ _ _ => hstate _ _) (hpc'.2.trans hpc.2.symm) (fun p hp => ?_) fun p after => ?_
  · rw [hpc'.1] at hp
    cases hp
  · constructor
    · intro h0
      rw [h0] at hpc'
      cases hpc'.1
    · intro h0
      rw [h0] at hpc
      cases hpc.1

/-- **A step of another party.** -/
lemma aside (h : Retention s) (hl : Ledger s) (hs : s.Acts s')
    (hcontrol : s'.shared.control = s.shared.control) (hproducer : s'.producer = s.producer)
    (hlog : s'.log = s.log)
    (hlayout : ∀ g, (s'.shared.maps g).layout = (s.shared.maps g).layout)
    (hstate : ∀ g index, (s'.record g index).state = (s.record g index).state) :
    Retention s' :=
  h.frame hl hs (by rw [hcontrol]) (by rw [hcontrol]) (by rw [hcontrol]) (by rw [hproducer])
    (by rw [hproducer]) hlog hlayout (fun c p _ _ _ _ => hstate _ _) (by rw [hproducer])
    (fun p hp => h.writing p (hproducer ▸ hp)) fun p after => by rw [hproducer]

/-- What the books do. While an allocation is being installed the window is empty. -/
lemma books (h : Retention s) (hr : Reachable s) (hs : s.Acts s')
    (hpc : s.producer.pc.writing = none ∧ s.producer.pc.unpublishing = false)
    (hb : s.Books s') : Retention s' := by
  have hl := hr.ledger
  have idles : ∀ pc : Pc, pc.idles → pc.writing = none ∧ pc.unpublishing = false := by
    intro pc h0
    cases pc with
    | idle | cleanup | unconfigure | configure => exact ⟨rfl, rfl⟩
    | _ => exact h0.elim
  cases hb with
  | kept hshared hlog hcursor _ hres hidles =>
      refine h.moved hl hs ?_ hcursor hres hlog (fun g => by rw [hshared])
        (fun g index => by rw [record, record, hshared]) hpc (idles _ hidles)
      rw [hshared]
      exact ⟨rfl, rfl, rfl⟩
  | installed layout hnone hpending hshared hlog hcursor _ hres hpc' =>
      have hpc' : s'.producer.pc.writing = none ∧ s'.producer.pc.unpublishing = false := by
        rw [hpc']
        exact ⟨rfl, rfl⟩
      have hcontrol : s'.shared.control = s.shared.control := by rw [hshared]; rfl
      have hfresh : ∀ c p, s.log c = some p →
          (s'.shared.maps p.generation).layout = (s.shared.maps p.generation).layout := by
        intro c p hp
        have hlt := hr.exclusive.fresh c p hp
        have hne : p.generation ≠ s.producer.admission.nextAllocation := by omega
        rw [hshared]
        simp only [onMap, Function.update_of_ne hne]
      have hempty : ∀ c p, s.log c = some p → ¬ s.shared.control.firstCursor ≤ c := by
        intro c p hp hc
        cases hnone.symm.trans (h.installed c p hp hc)
      have hhist : s'.shared.history = s.shared.history := (hs.static hl).2.1
      constructor
      case uniform =>
          intro g
          rw [hs.limits hl, hshared]
          by_cases hg : g = s.producer.admission.nextAllocation
          · subst hg
            simp only [onMap, Function.update_self]
            exact (hl.pending_fits layout hpending).resources
          · simp only [onMap, Function.update_of_ne hg]
            exact h.uniform g
      case configured =>
          intro h0
          rw [hcontrol] at h0
          cases hnone.symm.trans (h.configured h0)
      case replacing =>
          intro h0
          rw [hpc'.2] at h0
          cases h0
      case installed =>
          intro c p hp hc
          rw [hlog] at hp
          rw [hcontrol] at hc
          exact absurd hc (hempty c p hp)
      case described =>
          intro c p hp
          rw [hlog] at hp
          exact (h.described c p hp).congr (hfresh c p hp)
      case writing =>
          intro p hp
          rw [hpc'.1] at hp
          cases hp
      case states =>
          intro c p hp hc
          rw [hlog] at hp
          rw [hcontrol] at hc
          exact absurd hc (hempty c p hp)
      case rings =>
          intro c p hp hle hw _
          rw [hlog] at hp
          rw [hcursor] at hle hw
          rw [hhist] at hw
          rw [Shared.ring, hcontrol, hhist]
          refine h.rings c p hp hle hw fun q after h0 => ?_
          rw [h0] at hpc
          cases hpc.1
      case ringing =>
          intro p after h0
          rw [h0] at hpc'
          cases hpc'.1

/-- A store into a record that leaves its state word. -/
lemma state_modify {g index : ℕ} {f : Record → Record} (hf : ∀ r, (f r).state = r.state)
    (hmaps : s'.shared.maps = (s.onMap g fun map => map.modify index f).shared.maps)
    (g' index' : ℕ) : (s'.record g' index').state = (s.record g' index').state := by
  have hrec : s'.record g' index' = (s.onMap g fun map => map.modify index f).record g' index' := by
    rw [record, record, hmaps]
  rw [hrec, s.record_modify g index f _ fun _ => rfl]
  split_ifs with hslot
  · rw [hf, hslot.1, hslot.2]
  · rfl

/-- A slot of the window is not one whose state word is even. -/
lemma odd_slot (h : Retention s) {c : ℕ} {p : Publication} (hp : s.log c = some p)
    (hc : s.shared.control.firstCursor ≤ c) (hw : s.producer.cursor < c + s.shared.history)
    (hunp : s.producer.pc.unpublishing = false) {g index : ℕ}
    (heven : (s.record g index).state % 2 = 0) : ¬ (p.generation = g ∧ p.index = index) := by
  rintro ⟨rfl, rfl⟩
  have hstate := h.states c p hp hc hw hunp
  omega

/-- Two cursors of one window have different places in the ring. -/
lemma mod_ne_of_lt {a b n : ℕ} (hab : a < b) (hn : b < a + n) : a % n ≠ b % n := by
  intro heq
  have hdvd : n ∣ b - a := (Nat.modEq_iff_dvd' hab.le).mp heq
  have hle := Nat.le_of_dvd (by omega) hdvd
  omega

/-- The state word is stored: a publication goes to a slot that is not of the window. -/
lemma store (h : Retention s) (hr : Reachable s) {p : Publication} {after : After}
    (hpc : s.producer.pc = .store p after) :
    Retention ({ s.onMap p.generation fun map =>
        map.modify p.index fun r => { r with state := 2 * p.descriptor.cursor + 1 } with
      log := Function.update s.log p.descriptor.cursor (some p) }.goto (.ring p after)) := by
  have hwriting := h.writing p (by rw [hpc]; rfl)
  have hnext := hr.published.writing p (by rw [hpc]; rfl)
  have hunp : s.producer.pc.unpublishing = false := by rw [hpc]; rfl
  have hrests := hr.exclusive.rests
  rw [hpc] at hrests
  have heven : (s.record p.generation p.index).state % 2 = 0 := hrests.1.even
  have hlayout := s.modify_layout p.generation p.index
    (fun r => { r with state := 2 * p.descriptor.cursor + 1 })
  have hrec := s.record_modify p.generation p.index
    (fun r => { r with state := 2 * p.descriptor.cursor + 1 }) _ fun _ => rfl
  -- what is in the log is old, or the new publication
  have hlog : ∀ c q, Function.update s.log p.descriptor.cursor (some p) c = some q →
      s.log c = some q ∨ c = p.descriptor.cursor ∧ q = p := by
    intro c q hq
    by_cases hc : c = p.descriptor.cursor
    · rw [hc, Function.update_self, Option.some.injEq] at hq
      exact Or.inr ⟨hc, hq.symm⟩
    · rw [Function.update_of_ne hc] at hq
      exact Or.inl hq
  constructor
  case uniform => exact fun g => (congrArg ResourceLayout.resources (hlayout g)).trans (h.uniform g)
  case configured => exact h.configured
  case replacing => exact fun h0 => nomatch h0
  case installed =>
      intro c q hq hc
      rcases hlog c q hq with hold | ⟨-, rfl⟩
      · exact h.installed c q hold hc
      · exact hwriting.1
  case described =>
      intro c q hq
      rcases hlog c q hq with hold | ⟨-, rfl⟩
      · exact (h.described c q hold).congr (hlayout _)
      · exact hwriting.2.congr (hlayout _)
  case writing =>
      intro q hq
      cases hq
      exact ⟨hwriting.1, hwriting.2.congr (hlayout _)⟩
  case states =>
      intro c q hq hc hw _
      rcases hlog c q hq with hold | ⟨rfl, rfl⟩
      · have hrec' := hrec q.generation q.index
        rw [if_neg (h.odd_slot hold hc hw hunp heven)] at hrec'
        exact (congrArg Record.state hrec').trans (h.states c q hold hc hw hunp)
      · have hrec' := hrec q.generation q.index
        rw [if_pos ⟨rfl, rfl⟩] at hrec'
        exact congrArg Record.state hrec'
  case rings =>
      intro c q hq hle hw _
      have hle : c ≤ s.producer.cursor := hle
      rcases hlog c q hq with hold | ⟨rfl, rfl⟩
      · refine h.rings c q hold hle hw fun q' after h0 => ?_
        rw [hpc] at h0
        cases h0
      · omega
  case ringing => exact fun q after h0 => nomatch h0

/-- The ring entry is stored: it replaces that of the oldest cursor of the window. -/
lemma ring (h : Retention s) (hr : Reachable s) {p : Publication} {after : After}
    (hpc : s.producer.pc = .ring p after) :
    Retention ((s.onControl fun c => { c with
      ring := Function.update c.ring ((p.descriptor.cursor - 1) % s.shared.history)
        (p.index + 1) }).goto (.latest p after)) := by
  have hnext := hr.published.writing p (by rw [hpc]; rfl)
  constructor
  case uniform => exact h.uniform
  case configured => exact h.configured
  case replacing => exact fun h0 => nomatch h0
  case installed => exact h.installed
  case described => exact fun c p hp => (h.described c p hp).congr rfl
  case writing =>
      intro q hq
      cases hq
      have hwriting := h.writing p (by rw [hpc]; rfl)
      exact ⟨hwriting.1, hwriting.2.congr rfl⟩
  case states => exact fun c q hq hc hw _ => h.states c q hq hc hw (by rw [hpc]; rfl)
  case rings =>
      intro c q hq hle hw hexc
      have hle : c ≤ s.producer.cursor := hle
      have hexc : s.producer.cursor + 1 < c + s.shared.history := hexc p after rfl
      obtain ⟨-, hc, -⟩ := hr.published.logs c q hq
      have hne : (c - 1) % s.shared.history ≠ (p.descriptor.cursor - 1) % s.shared.history :=
        mod_ne_of_lt (by omega) (by omega)
      have hold := h.rings c q hq hle hw fun q' after h0 => by
        rw [hpc] at h0
        cases h0
      exact (Function.update_of_ne hne _ _).trans hold
  case ringing =>
      intro q after' h0
      cases h0
      exact Function.update_self _ _ _

/-- `LATEST` is stored: the window moves up. -/
lemma latest (h : Retention s) (hr : Reachable s) {p : Publication} {after : After}
    (hpc : s.producer.pc = .latest p after) :
    Retention { s.onControl fun c => { c with latest := p.descriptor.cursor } with
      producer := { s.producer with
        cursor := p.descriptor.cursor
        nextSlot := (p.index + 1) % (s.shared.maps p.generation).layout.resources
        pc := .pages (.signal .data) s.producer.claims after } } := by
  have hnext := hr.published.writing p (by rw [hpc]; rfl)
  have hstored := hr.published.stored p (by rw [hpc]; rfl)
  constructor
  case uniform => exact h.uniform
  case configured => exact h.configured
  case replacing => exact fun h0 => nomatch h0
  case installed => exact h.installed
  case described => exact fun c p hp => (h.described c p hp).congr rfl
  case writing => exact fun q hq => nomatch hq
  case states =>
      intro c q hq hc hw _
      have hw : p.descriptor.cursor < c + s.shared.history := hw
      exact h.states c q hq hc (by omega) (by rw [hpc]; rfl)
  case rings =>
      intro c q hq hle hw _
      have hle : c ≤ p.descriptor.cursor := hle
      have hw : p.descriptor.cursor < c + s.shared.history := hw
      by_cases hc : c = p.descriptor.cursor
      · subst hc
        cases hstored.symm.trans hq
        exact h.ringing p after hpc
      · exact h.rings c q hq (by omega) (by omega) fun _ _ _ => by omega
  case ringing => exact fun q after h0 => nomatch h0

/-- **Every step keeps the window.** -/
theorem acts (h : Retention s) (hr : Reachable s) (hs : s.Acts s') : Retention s' := by
  have hl := hr.ledger
  have ha := hs
  have hpub := hr.published
  have hrests := hr.exclusive.rests
  have hplaces := hr.placed.places
  have hsized := hr.sized
  have books : s.Books s' → s.producer.pc.writing = none ∧ s.producer.pc.unpublishing = false →
      Retention s' := fun hb hpc => h.books hr ha hpc hb
  have same : ∀ c p, s.log c = some p → s.shared.control.firstCursor ≤ c →
      s.producer.cursor < c + s.shared.history → s.producer.pc.unpublishing = false →
      (s.record p.generation p.index).state = (s.record p.generation p.index).state :=
    fun _ _ _ _ _ _ => rfl
  cases hs with
  | incarnation i inc inc' hi hact => exact h.aside hl ha rfl rfl rfl (fun _ => rfl) fun _ _ => rfl
  | write g index bytes hres hlen =>
      exact h.aside hl ha rfl rfl rfl (s.modify_layout g index _)
        (state_modify (f := fun r => { r with payload := bytes }) (fun _ => rfl) rfl)
  | abandon g index hres =>
      refine h.aside hl ha rfl rfl rfl (s.onMap_layout g _ fun _ => rfl) fun g' index' => ?_
      rw [s.record_modify g index (fun r => { r with reserved := false, reservation := .absent })
        (fun map => { map.modify index fun r =>
          { r with reserved := false, reservation := .absent } with
            releasing := map.releasing + 1 }) fun _ => rfl]
      split_ifs with hslot
      · rw [hslot.1, hslot.2]
      · rfl
  | releaseMap g hpos =>
      refine h.aside hl ha rfl rfl rfl (s.onMap_layout g _ fun _ => rfl) fun g' index' => ?_
      rw [s.record_of_records g (fun map => { map with releasing := map.releasing - 1 })
        fun _ => rfl]
  | dropExport g hpos =>
      refine h.aside hl ha rfl rfl rfl (s.onMap_layout g _ fun _ => rfl) fun g' index' => ?_
      rw [s.record_of_records g (fun map => { map with exports := map.exports - 1 }) fun _ => rfl]
  | flow pc outcome released hf =>
      obtain ⟨hunp, hwriting⟩ := retention_flows hf
      obtain ⟨hnone, hstored, -⟩ := hf.writing
      refine h.frame hl ha rfl rfl rfl rfl rfl rfl (fun _ => rfl) same hunp hwriting
        fun p after => ⟨fun h0 => ?_, fun h0 => ?_⟩
      · have h0 : pc = .latest p after := h0
        rw [h0] at hstored
        cases hstored
      · rw [h0] at hnone
        cases hnone
  | commitCall g index descriptor hpc hres =>
      exact h.moved hl ha ⟨rfl, rfl, rfl⟩ rfl rfl rfl (s.modify_layout g index _)
        (state_modify (f := fun r => { r with reservation := .committing }) (fun _ => rfl) rfl)
        (by rw [hpc]; exact ⟨rfl, rfl⟩) ⟨rfl, rfl⟩
  | collect i todo goal hd =>
      refine books (hl.collect_books hd) ?_
      obtain ⟨-, -, c, hpc⟩ := hl.drained hd
      rw [hpc]
      exact ⟨rfl, rfl⟩
  | reclaim index goal r hpc hget =>
      exact books (hl.reclaim_books (by rw [hpc]; rfl) hget goal) (by rw [hpc]; exact ⟨rfl, rfl⟩)
  | ready index goal r hpc hget =>
      obtain ⟨_, _, _, _, _, _, _, heq⟩ := (hl.ready r.generation).reclaim_spec
        (by rw [onMap_producer, hpc]; rfl) hget goal
      have hrec := s.record_of_records r.generation (fun map => { map with ready := true })
        fun _ => rfl
      have hlayout := s.onMap_layout r.generation (fun map => { map with ready := true })
        fun _ => rfl
      refine h.moved hl ha ?_ ?_ ?_ ?_ ?_ ?_ (by rw [hpc]; exact ⟨rfl, rfl⟩) ?_
      · rw [heq]
        exact ⟨rfl, rfl, rfl⟩
      · rw [heq]
        rfl
      · rw [heq]
        rfl
      · rw [heq]
        rfl
      · rw [heq]
        exact hlayout
      · rw [heq]
        intro g' index'
        exact congrArg Record.state (hrec g' index')
      · rw [heq]
        exact ⟨rfl, rfl⟩
  | unready index goal r hpc hget =>
      have hrec := s.record_of_records r.generation (fun map => { map with ready := false })
        fun _ => rfl
      exact h.moved hl ha ⟨rfl, rfl, rfl⟩ rfl rfl rfl
        (s.onMap_layout r.generation (fun map => { map with ready := false }) fun _ => rfl)
        (fun g' index' => congrArg Record.state (hrec g' index')) (by rw [hpc]; exact ⟨rfl, rfl⟩)
        ⟨rfl, rfl⟩
  | exported g hpc =>
      have hrec := s.record_of_records g (fun map => { map with exports := map.exports + 1 })
        fun _ => rfl
      exact h.moved hl ha ⟨rfl, rfl, rfl⟩ rfl rfl rfl
        (s.onMap_layout g (fun map => { map with exports := map.exports + 1 }) fun _ => rfl)
        (fun g' index' => congrArg Record.state (hrec g' index')) (by rw [hpc]; exact ⟨rfl, rfl⟩)
        ⟨rfl, rfl⟩
  | attach e holding remote hpc =>
      exact books (hl.attach_books (by rw [hpc]; rfl) e holding remote)
        (by rw [hpc]; exact ⟨rfl, rfl⟩)
  | advance e hpc =>
      exact books (hl.advance_books (by rw [hpc]; rfl) e) (by rw [hpc]; exact ⟨rfl, rfl⟩)
  | begin payloadCapacity externalBytes hpc =>
      exact books (hl.begin_books (by rw [hpc]; rfl) _ _) (by rw [hpc]; exact ⟨rfl, rfl⟩)
  | close call i hpc => exact books (hl.close_books i) (by rw [hpc]; exact ⟨rfl, rfl⟩)
  | retire w off generation hpc =>
      rw [hpc] at hplaces hrests
      have hpc' : (if generation = 0 then Pc.finds s off w
          else .scanClaims w off generation s.claimProbes).writing = none ∧
          (if generation = 0 then Pc.finds s off w
            else .scanClaims w off generation s.claimProbes).unpublishing = false := by
        split_ifs
        · rcases w with (_ | _) | _ <;> exact ⟨rfl, rfl⟩
        · exact ⟨rfl, rfl⟩
      refine h.frame hl ha rfl rfl rfl rfl rfl rfl (s.modify_layout s.current (s.scanIndex off) _)
        (fun c p hp hc hw hunp => ?_) ?_ (fun p hp => ?_) fun p after => ⟨fun h0 => ?_, fun h0 => ?_⟩
      · -- the scan retires a slot that is older than the window
        have hstate := h.states c p hp hc hw hunp
        have hne : ¬ (p.generation = s.current ∧ p.index = s.scanIndex off) := by
          rintro ⟨hg, hi⟩
          rw [hg, hi] at hstate
          obtain ⟨-, hgen⟩ := hrests
          obtain ⟨-, hstale⟩ := hplaces
          have hfit := (hl.fits p.generation (h.installed c p hp hc)).history
          obtain ⟨-, hpos, -⟩ := hpub.logs c p hp
          rw [oldest, layout, ← hg, hfit] at hstale
          omega
        have hrec := s.record_modify s.current (s.scanIndex off)
          (fun r => { r with state := 2 * generation }) _ (fun _ => rfl) p.generation p.index
        rw [if_neg hne] at hrec
        exact congrArg Record.state hrec
      · rw [hpc]
        exact hpc'.2
      · have hp : (if generation = 0 then Pc.finds s off w
          else .scanClaims w off generation s.claimProbes).writing = some p := hp
        rw [hpc'.1] at hp
        cases hp
      · have h0 : (if generation = 0 then Pc.finds s off w
          else .scanClaims w off generation s.claimProbes) = .latest p after := h0
        rw [h0] at hpc'
        cases hpc'.1
      · rw [hpc] at h0
        cases h0
  | reserve index hpc =>
      exact h.moved hl ha ⟨rfl, rfl, rfl⟩ rfl rfl rfl (s.modify_layout s.current index _)
        (state_modify (f := fun r => { r with reserved := true, reservation := .held })
          (fun _ => rfl) rfl) (by rw [hpc]; exact ⟨rfl, rfl⟩) ⟨rfl, rfl⟩
  | release g index outcome hpc =>
      exact h.moved hl ha ⟨rfl, rfl, rfl⟩ rfl rfl rfl (s.modify_layout g index _)
        (state_modify (f := fun r => { r with reserved := false, reservation := .absent })
          (fun _ => rfl) rfl) (by rw [hpc]; exact ⟨rfl, rfl⟩) ⟨rfl, rfl⟩
  | stage off descriptor bytes hostTimeNs hpc =>
      have hres := hsized.installed (by rw [hpc]; rfl)
      obtain ⟨g, hg⟩ := Option.ne_none_iff_exists'.mp hres
      have hcurrent : s.producer.resources = some s.current := by rw [current, hg]; rfl
      refine h.frame hl ha rfl rfl rfl rfl rfl rfl (s.modify_layout s.current (s.scanIndex off) _)
        (fun c p _ _ _ _ => state_modify (f := fun r => { r with payload := bytes })
          (fun _ => rfl) rfl _ _) (by rw [hpc]; rfl) (fun p hp => ?_)
        fun p after => ⟨by rintro ⟨⟩, fun h0 => by cases hpc.symm.trans h0⟩
      cases hp
      exact ⟨hcurrent, described_publication (Nat.zero_le _)⟩
  | copy index descriptor bytes hostTimeNs hpc =>
      have hres := hsized.installed (by rw [hpc]; rfl)
      obtain ⟨g, hg⟩ := Option.ne_none_iff_exists'.mp hres
      have hcurrent : s.producer.resources = some s.current := by rw [current, hg]; rfl
      have hroom := hsized.room (by rw [hpc]; rfl) (.cpu descriptor bytes) (by rw [hpc]; rfl)
      refine h.frame hl ha rfl rfl rfl rfl rfl rfl (s.modify_layout s.current index _)
        (fun c p _ _ _ _ => state_modify
          (f := fun r => { r with payload := bytes ++ r.payload.drop bytes.length })
          (fun _ => rfl) rfl _ _) (by rw [hpc]; rfl) (fun p hp => ?_)
        fun p after => ⟨by rintro ⟨⟩, fun h0 => by cases hpc.symm.trans h0⟩
      cases hp
      exact ⟨hcurrent, described_publication hroom⟩
  | describe p after hpc =>
      have hwriting := h.writing p (by rw [hpc]; rfl)
      refine h.frame hl ha rfl rfl rfl rfl rfl rfl (s.modify_layout p.generation p.index _)
        (fun c q _ _ _ _ => state_modify (f := fun r => { r with descriptor := p.descriptor })
          (fun _ => rfl) rfl _ _) (by rw [hpc]; rfl) (fun q hq => ?_)
        fun q after => ⟨by rintro ⟨⟩, fun h0 => by cases hpc.symm.trans h0⟩
      cases hq
      exact hwriting
  | store p after hpc => exact h.store hr hpc
  | ring p after hpc => exact h.ring hr hpc
  | latest p after hpc => exact h.latest hr hpc
  | unconfigure layout hpc =>
      constructor
      case uniform => exact h.uniform
      case configured => exact fun h0 => absurd rfl h0
      case replacing => exact fun _ => rfl
      case installed => exact h.installed
      case described => exact fun c p hp => (h.described c p hp).congr rfl
      case writing => rintro p ⟨⟩
      case states => rintro c p _ _ _ ⟨⟩
      case rings =>
          intro c p hp hle hw _
          refine h.rings c p hp hle hw fun q after h0 => ?_
          rw [hpc] at h0
          cases h0
      case ringing => rintro p after ⟨⟩
  | unpublish layout index state hpc =>
      refine h.frame hl ha rfl rfl rfl rfl rfl rfl (s.modify_layout s.current index _)
        (fun c p _ _ _ hunp => ?_) (by rw [hpc]; rfl) (by rintro p ⟨⟩)
        fun p after => ⟨by rintro ⟨⟩, fun h0 => by cases hpc.symm.trans h0⟩
      rw [hpc] at hunp
      cases hunp
  | firstCursor layout hpc =>
      have hempty : ∀ c p, s.log c = some p → ¬ s.producer.cursor + 1 ≤ c := by
        intro c p hp hc
        obtain ⟨-, -, hle⟩ := hpub.logs c p hp
        rw [hpc] at hle
        have hle := hle.resolve_right (by rintro ⟨⟩)
        omega
      constructor
      case uniform => exact h.uniform
      case configured => exact fun h0 => absurd (h.replacing (by rw [hpc]; rfl)) h0
      case replacing => rintro ⟨⟩
      case installed => exact fun c p hp hc => absurd hc (hempty c p hp)
      case described => exact fun c p hp => (h.described c p hp).congr rfl
      case writing => rintro p ⟨⟩
      case states => exact fun c p hp hc => absurd hc (hempty c p hp)
      case rings =>
          intro c p hp hle hw _
          refine h.rings c p hp hle hw fun q after h0 => ?_
          rw [hpc] at h0
          cases h0
      case ringing => rintro p after ⟨⟩
  | configure g hpc =>
      constructor
      case uniform => exact h.uniform
      case configured => exact fun _ => hr.configuring g hpc
      case replacing => rintro ⟨⟩
      case installed => exact h.installed
      case described => exact fun c p hp => (h.described c p hp).congr rfl
      case writing => rintro p ⟨⟩
      case states => exact fun c p hp hc hw _ => h.states c p hp hc hw (by rw [hpc]; rfl)
      case rings =>
          intro c p hp hle hw _
          refine h.rings c p hp hle hw fun q after h0 => ?_
          rw [hpc] at h0
          cases h0
      case ringing => rintro p after ⟨⟩
  | offerCall i hpc | registerCall i hpc =>
      exact h.moved hl ha ⟨rfl, rfl, rfl⟩ rfl rfl rfl (fun _ => rfl) (fun _ _ => rfl)
        (by rw [hpc]; exact ⟨rfl, rfl⟩) ⟨rfl, rfl⟩
  | observe i todo goal inc hpc | observed i todo goal inc hpc | remove i todo goal inc hpc
  | epoch value after hpc | terminate after hpc | page call i todo after hpc | register i inc hpc
  | retry i inc outcome hpc | dropObserver i todo inc hpc =>
      exact h.moved hl ha ⟨rfl, rfl, rfl⟩ rfl rfl rfl (fun _ => rfl) (fun _ _ => rfl)
        (by rw [hpc]; exact ⟨rfl, rfl⟩) ⟨rfl, rfl⟩

/-- A created arena has published nothing. -/
lemma of_create {page : ℕ} {config : ArenaConfig} {externalBytes : ℕ} {native : Bool}
    (h : create page config externalBytes native = .ok s) : Retention s := by
  have hl := Ledger.of_create h
  rw [create] at h
  obtain ⟨x, -, h⟩ := of_bind_ok h
  cases h
  constructor
  case uniform => exact fun g => (hl.fits 1 rfl).resources
  case configured => exact fun _ => rfl
  case replacing => rintro ⟨⟩
  case installed => rintro c p ⟨⟩
  case described => rintro c p ⟨⟩
  case writing => rintro p ⟨⟩
  case states => rintro c p ⟨⟩
  case rings => rintro c p ⟨⟩
  case ringing => rintro p after ⟨⟩

end Retention

/-- **The history window is retained in every reachable arena.** -/
theorem Reachable.retention (h : Reachable s) : Retention s :=
  h.induct (fun _ _ _ _ _ h₀ => Retention.of_create h₀) fun _ _ ha hp hs => hp.acts ha hs

/-! ### The ring -/

/-- The window has at least one cursor. -/
lemma history_pos (hl : Ledger s) : 0 < s.shared.history := by
  have hfit : ∃ layout, s.Fits layout := by
    cases hrepl : s.producer.pc.replacing with
    | some layout => exact ⟨layout, (hl.replacing layout hrepl).1⟩
    | none =>
        cases hres : s.producer.resources with
        | some g => exact ⟨_, hl.fits g hres⟩
        | none =>
            have hsome := (hl.installed hrepl).2.1.mp hres
            obtain ⟨layout, hlayout⟩ := Option.isSome_iff_exists.mp hsome
            exact ⟨layout, hl.pending_fits layout hlayout⟩
  obtain ⟨layout, hfit⟩ := hfit
  rw [← hfit.history]
  exact hfit.positive

/-- A published slot is a slot of its allocation, and all allocations have as many. -/
lemma Reachable.index_lt (h : Reachable s) {c : ℕ} {p : Publication} (hp : s.log c = some p)
    (g : ℕ) : p.index < (s.shared.maps g).layout.resources := by
  obtain ⟨-, hpos, -⟩ := h.published.logs c p hp
  have hnewest := h.placed.newest c p hp
  have hlt := h.placed.occupied p.generation p.index (Or.inl (by omega))
  rw [h.retention.uniform] at hlt ⊢
  exact hlt

/-- **The ring entry of a published cursor names a slot**, whatever the cursor is that
was stored there last. -/
lemma Reachable.ringed (h : Reachable s) {c : ℕ} (hpos : 1 ≤ c)
    (hle : c ≤ s.shared.control.latest) (g : ℕ) :
    1 ≤ s.shared.ring c ∧ s.shared.ring c ≤ (s.shared.maps g).layout.resources := by
  have hn := history_pos h.ledger
  rw [h.published.latest] at hle
  -- the cursor of the window with the same place in the ring
  obtain ⟨k, hk⟩ : ∃ k, s.producer.cursor - c = s.shared.history * k +
      (s.producer.cursor - c) % s.shared.history := ⟨_, (Nat.div_add_mod _ _).symm⟩
  have hmod := Nat.mod_lt (s.producer.cursor - c) hn
  generalize (s.producer.cursor - c) % s.shared.history = r at hk hmod
  obtain ⟨c', hc'⟩ : ∃ c', c' = c + s.shared.history * k := ⟨_, rfl⟩
  have hplace : s.shared.ring c = s.shared.ring c' := by
    have hsame : (c - 1) % s.shared.history = (c' - 1) % s.shared.history := by
      have hsum : c' - 1 = c - 1 + s.shared.history * k := by omega
      rw [hsum, Nat.add_mul_mod_self_left]
    rw [Shared.ring, Shared.ring, hsame]
  obtain ⟨p, hp⟩ := Option.ne_none_iff_exists'.mp (h.published.logged c' (by omega) (by omega))
  rw [hplace]
  by_cases hexc : ∃ q after, s.producer.pc = .latest q after ∧
      s.producer.cursor + 1 = c' + s.shared.history
  · -- its entry has just been replaced by that of the next cursor
    obtain ⟨q, after, hpc, heq⟩ := hexc
    have hnext := h.published.writing q (by rw [hpc]; rfl)
    have hq := h.published.stored q (by rw [hpc]; rfl)
    have hring := h.retention.ringing q after hpc
    have hsame : (q.descriptor.cursor - 1) % s.shared.history = (c' - 1) % s.shared.history := by
      have hsum : q.descriptor.cursor - 1 = c' - 1 + s.shared.history := by omega
      rw [hsum, Nat.add_mod_right]
    rw [Shared.ring, hsame] at hring
    rw [Shared.ring, hring]
    have hlt := h.index_lt hq g
    omega
  · have hring := h.retention.rings c' p hp (by omega) (by omega) fun q after hpc => by
      by_contra hge
      exact hexc ⟨q, after, hpc, by omega⟩
    rw [hring]
    have hlt := h.index_lt hp g
    omega

end Arena

end Jackstay.Acquisition
