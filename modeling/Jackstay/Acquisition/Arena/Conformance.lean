import Jackstay.Acquisition.Arena.Retention

/-!
`native/arena.rs`: what a consumer of a native arena checks of a descriptor, and what the
native producer puts there.

A consumer of a native arena keeps the handles of a pool with the resource map of its
generation (`RetainedNativeResources`), and compares a leased descriptor with them.

* `NativePool.validateDescriptor`: the comparison.
* `Arena.Conforms`: the native producer runs no CPU operation, and the descriptor that its
  `prepare` callback returns names the pool, the fence and the kind of synchronisation of
  the installed generation. The attachment's answer is that of `validateDescriptor`.
* `Accepted`: in such a run every published descriptor passes the comparison.
-/

namespace Jackstay.Acquisition

open Transition

/-- `FrameSyncKind::NativeTimeline`. -/
def nativeTimeline : ℕ := 3

/-- What `RetainedNativeResources` knows of its pool, besides the surfaces. -/
structure NativePool where
  poolId : ℕ
  fenceId : ℕ
  deriving DecidableEq, Repr

/-- `RetainedNativeResources::validate_descriptor`, for a pool with so many surfaces. -/
def NativePool.validateDescriptor (pool : NativePool) (surfaces : ℕ) (d : FrameDescriptor) :
    Bool :=
  decide (d.poolId = pool.poolId ∧ d.fenceId = pool.fenceId ∧ d.slotId < surfaces ∧
    d.syncKind = nativeTimeline)

/-- The operations of the CPU arena, which `NativeArenaProducer` never runs. -/
def Arena.Op.cpu : Arena.Op → Bool
  | .publish (.cpu _ _) => true
  | .reserve => true
  | .commit _ _ _ => true
  | .reconfigureCpu _ => true
  | .exportWriter => true
  | _ => false

/-- The call publishes a CPU frame. -/
def Goal.cpu : Goal → Bool
  | .publish (.cpu _ _) => true
  | .reserve => true
  | _ => false

/-- The scan is for a CPU frame. -/
def Writer.cpu : Writer → Bool
  | .publish (.cpu _ _) => true
  | .publish .native => false
  | .reserve => true

/-- The producer is in a CPU operation, up to the store of the descriptor. -/
def Pc.cpu : Pc → Bool
  | .terminal goal => goal.cpu
  | .cleanup _ goal => goal.cpu
  | .resume goal => goal.cpu
  | .scan w _ => w.cpu
  | .scanState w _ => w.cpu
  | .scanRetire w _ _ => w.cpu
  | .scanClaims w _ _ _ => w.cpu
  | .reserveFlag _ => true
  | .copy _ _ _ => true
  | .commit _ _ _ => true
  | _ => false

namespace Arena

variable {s s' a b : Arena} {l : Label} {pool : ℕ → NativePool}

/-- **A conforming producer**, with the pools of its generations. -/
def Conforms (pool : ℕ → NativePool) (s : Arena) : Label → Prop
  | .call op => s.shared.native = true → op.cpu = false
  | .producer e => s.shared.native = true → ∀ off, s.producer.pc = .prepare off →
      e.fail = false → e.skip = false →
      e.descriptor.poolId = (pool s.current).poolId ∧
        e.descriptor.fenceId = (pool s.current).fenceId ∧ e.descriptor.syncKind = nativeTimeline
  | .incarnation i (.use k e) => s.shared.native = true → e.fail = true →
      ∀ inc u, s.incarnations i = some inc → inc.uses k = some u → u.pc = .describe →
        (pool u.generation).validateDescriptor
          (s.shared.maps u.generation).layout.resources
          ((s.shared.maps u.generation).records u.index).descriptor = false
  | _ => True

/-- The descriptor passes the comparison with the pool of its generation. -/
def Accepts (pool : ℕ → NativePool) (s : Arena) (p : Publication) : Prop :=
  (pool p.generation).validateDescriptor (s.shared.maps p.generation).layout.resources
    p.descriptor = true

/-- **The invariant of a conforming native producer.** -/
structure Accepted (pool : ℕ → NativePool) (s : Arena) : Prop where
  native : s.producer.pc.cpu = false
  logged : ∀ c p, s.log c = some p → s.Accepts pool p
  writing : ∀ p, s.producer.pc.writing = some p → s.Accepts pool p

/-- All allocations have as many slots. -/
lemma resources_congr (hr : Reachable a) (hs : a.step l = some b) (g : ℕ) :
    (b.shared.maps g).layout.resources = (a.shared.maps g).layout.resources := by
  rw [(hr.tail hs).retention.uniform, hr.retention.uniform,
    (acts_of_step hs).limits hr.ledger]

lemma Accepts.congr {p : Publication} (h : a.Accepts pool p) (hr : Reachable a)
    (hs : a.step l = some b) : b.Accepts pool p := by
  rw [Accepts, resources_congr hr hs]
  exact h

/-- The control flow of a running call does not change over to a CPU operation. -/
lemma cpu_of_flows {pc pc' : Pc} (h : Pc.Flows s pc pc') (hidle : pc ≠ .idle)
    (hcpu : pc'.cpu = true) : pc.cpu = true := by
  have hscans : ∀ w off, (Pc.scans s w off).cpu = true → w.cpu = true := by
    intro w off h0
    rw [Pc.scans] at h0
    split_ifs at h0
    · exact h0
    · cases h0
  have hfinds : ∀ off w, (Pc.finds s off w).cpu = true → w.cpu = true := by
    intro off w h0
    rcases w with (_ | _) | _
    · rfl
    · cases h0
    · rfl
  cases h with
  | refused => exact absurd rfl hidle
  | terminal => exact absurd rfl hidle
  | cleanup => exact absurd rfl hidle
  | opened goal => exact hcpu
  | clean c c' goal => exact hcpu
  | cleaned index goal => exact hcpu
  | publish source =>
      cases source with
      | cpu => rfl
      | native => cases hscans _ _ hcpu
  | reserve => rfl
  | reserved w off => exact hscans w _ hcpu
  | unreserved w off => exact hcpu
  | retained w off => exact hscans w _ hcpu
  | stale w off => exact hcpu
  | found w off => exact hfinds off w hcpu
  | claimed w off => exact hscans w _ hcpu
  | unclaimed w off => exact hcpu
  | prepareSkipped off => exact hscans _ _ hcpu
  | _ => cases hcpu

/-- **A step of a running call** does not change over to a CPU operation. -/
lemma Acts.cpu (hl : Ledger s) (hidle : s.producer.pc ≠ .idle) (hs : s.Acts s')
    (hcpu : s'.producer.pc.cpu = true) : s.producer.pc.cpu = true := by
  have books : s.Books s' → (∀ c goal, s'.producer.pc ≠ .cleanup c goal) →
      s.producer.pc.cpu = true := by
    intro hb hnot
    have hidles : s'.producer.pc.idles := by
      cases hb with
      | kept _ _ _ _ _ hpc => exact hpc
      | installed layout _ _ _ _ _ _ _ hpc =>
          rw [hpc]
          trivial
    cases hq : s'.producer.pc with
    | cleanup c goal => exact absurd hq (hnot c goal)
    | idle | unconfigure | configure =>
        rw [hq] at hcpu
        cases hcpu
    | _ =>
        rw [hq] at hidles
        exact hidles.elim
  cases hs with
  | incarnation i inc inc' hi ha => exact hcpu
  | write g index bytes => exact hcpu
  | abandon g index => exact hcpu
  | releaseMap g => exact hcpu
  | dropExport g => exact hcpu
  | flow pc outcome released hf => exact cpu_of_flows hf hidle hcpu
  | commitCall g index descriptor hpc => exact absurd hpc hidle
  | offerCall i hpc => exact absurd hpc hidle
  | registerCall i hpc => exact absurd hpc hidle
  | observe i todo goal inc hpc => rw [hpc]; exact hcpu
  | observed i todo goal released hpc => rw [hpc]; exact hcpu
  | remove i todo goal inc hpc => rw [hpc]; exact hcpu
  | unready index goal r hpc => rw [hpc]; exact hcpu
  | collect i todo goal hd =>
      obtain ⟨hi, hrem, c, hpc⟩ := hl.drained hd
      obtain ⟨_, -, -, -, -, heq⟩ := hl.collect_spec hi hrem todo goal
      rw [heq] at hcpu
      rw [hpc]
      exact hcpu
  | reclaim index goal r hpc hget =>
      obtain ⟨_, -, -, -, -, -, -, heq⟩ := hl.reclaim_spec (by rw [hpc]; rfl) hget goal
      rw [heq] at hcpu
      rw [hpc]
      exact hcpu
  | ready index goal r hpc hget =>
      obtain ⟨_, -, -, -, -, -, -, heq⟩ := (hl.ready r.generation).reclaim_spec
        (by rw [onMap_producer, hpc]; rfl) hget goal
      rw [heq] at hcpu
      rw [hpc]
      exact hcpu
  | attach e holding remote hpc =>
      refine books (hl.attach_books (by rw [hpc]; rfl) e holding remote) fun c goal h0 => ?_
      obtain ⟨o, heq⟩ | ⟨book', o, -, -, -, -, heq⟩ | ⟨book', g, r, -, -, -, -, -, -, -, heq⟩ :=
        hl.attach_spec (by rw [hpc]; rfl) e holding remote <;> rw [heq] at h0 <;> cases h0
  | advance e hpc =>
      refine books (hl.advance_books (by rw [hpc]; rfl) e) fun c goal h0 => ?_
      obtain ⟨o, heq⟩ | ⟨book', o, -, -, -, -, -, -, heq⟩ |
        ⟨book', layout, n, -, -, -, -, -, -, -, heq⟩ := hl.advance_spec e <;> rw [heq] at h0 <;>
          cases h0
  | begin payloadCapacity externalBytes hpc =>
      refine books (hl.begin_books (by rw [hpc]; rfl) _ _) fun c goal h0 => ?_
      obtain ⟨o, heq⟩ | ⟨layout, book', g, -, -, -, -, -, -, -, -, -, -, -, heq⟩ :=
        hl.begin_spec (by rw [hpc]; rfl) payloadCapacity externalBytes <;> rw [heq] at h0 <;>
          cases h0
  | close call i hpc =>
      refine books (hl.close_books i) fun c goal h0 => ?_
      obtain ⟨e, heq⟩ | ⟨book', -, -, -, -, heq⟩ := hl.close_spec i <;> rw [heq] at h0 <;> cases h0
  | retire w off generation hpc =>
      rw [hpc]
      have hcpu : (if generation = 0 then Pc.finds s off w
        else .scanClaims w off generation s.claimProbes).cpu = true := hcpu
      split_ifs at hcpu
      · rcases w with (_ | _) | _
        · rfl
        · cases hcpu
        · rfl
      · exact hcpu
  | _ => cases hcpu

/-- **Where a publication comes from**: a staged native frame, a copy, or a commit. -/
lemma Acts.begins (hl : Ledger s) (hs : s.Acts s') {p : Publication}
    (hp : s'.producer.pc.writing = some p) :
    s.producer.pc.writing = some p ∨ s.producer.pc.cpu = true ∨
      ∃ off, s.producer.pc = .prepare off := by
  have books : s.Books s' → False := by
    intro hb
    have hidles : s'.producer.pc.idles := by
      cases hb with
      | kept _ _ _ _ _ hpc => exact hpc
      | installed layout _ _ _ _ _ _ _ hpc =>
          rw [hpc]
          trivial
    cases hq : s'.producer.pc <;> rw [hq] at hidles hp <;> first | exact hidles | cases hp
  cases hs with
  | incarnation i inc inc' hi ha => exact Or.inl hp
  | write g index bytes => exact Or.inl hp
  | abandon g index => exact Or.inl hp
  | releaseMap g => exact Or.inl hp
  | dropExport g => exact Or.inl hp
  | flow pc outcome released hf =>
      have hscans := fun w off => Pc.scans_writing s w off
      have hfinds := fun off w => Pc.finds_writing s off w
      have hp : pc.writing = some p := hp
      generalize s.producer.pc = pc₀ at hf
      cases hf with
      | commit => exact Or.inr (Or.inl rfl)
      | publish => rw [hscans] at hp; cases hp
      | reserve => rw [hscans] at hp; cases hp
      | reserved => rw [hscans] at hp; cases hp
      | retained => rw [hscans] at hp; cases hp
      | claimed => rw [hscans] at hp; cases hp
      | prepareSkipped => rw [hscans] at hp; cases hp
      | found => rw [hfinds] at hp; cases hp
      | _ => cases hp
  | collect i todo goal hd => exact (books (hl.collect_books hd)).elim
  | reclaim index goal r hpc hget =>
      exact (books (hl.reclaim_books (by rw [hpc]; rfl) hget goal)).elim
  | ready index goal r hpc hget =>
      obtain ⟨_, -, -, -, -, -, -, heq⟩ := (hl.ready r.generation).reclaim_spec
        (by rw [onMap_producer, hpc]; rfl) hget goal
      rw [heq] at hp
      cases hp
  | attach e holding remote hpc =>
      exact (books (hl.attach_books (by rw [hpc]; rfl) e holding remote)).elim
  | advance e hpc => exact (books (hl.advance_books (by rw [hpc]; rfl) e)).elim
  | begin payloadCapacity externalBytes hpc =>
      exact (books (hl.begin_books (by rw [hpc]; rfl) _ _)).elim
  | close call i hpc => exact (books (hl.close_books i)).elim
  | retire w off generation hpc =>
      have hp : (if generation = 0 then Pc.finds s off w
        else .scanClaims w off generation s.claimProbes).writing = some p := hp
      split_ifs at hp
      · rw [Pc.finds_writing] at hp
        cases hp
      · cases hp
  | stage off descriptor bytes hostTimeNs hpc => exact Or.inr (Or.inr ⟨off, hpc⟩)
  | copy index descriptor bytes hostTimeNs hpc =>
      rw [hpc]
      exact Or.inr (Or.inl rfl)
  | describe q after hpc => rw [hpc]; exact Or.inl hp
  | store q after hpc => rw [hpc]; exact Or.inl hp
  | ring q after hpc => rw [hpc]; exact Or.inl hp
  | _ => cases hp

/-- The others leave the producer and the log alone. -/
lemma step_aside (hc : ∀ op, l ≠ .call op) (hl : ∀ e, l ≠ .producer e) (hs : a.step l = some b) :
    b.producer = a.producer ∧ b.log = a.log := by
  cases l with
  | call op => exact absurd rfl (hc op)
  | producer e => exact absurd rfl (hl e)
  | incarnation i l =>
      simp only [Arena.step, Option.bind_eq_bind, Option.bind_eq_some_iff] at hs
      obtain ⟨inc, -, inc', -, heq⟩ := hs
      cases heq
      exact ⟨rfl, rfl⟩
  | _ =>
      simp only [Arena.step] at hs
      split_ifs at hs
      cases hs
      exact ⟨rfl, rfl⟩

/-- An operation of the native arena begins no CPU operation, and publishes nothing yet. -/
lemma begin_native {op : Op} (hop : op.cpu = false) (hs : a.begin op = some b) :
    b.producer.pc.cpu = false ∧ b.producer.pc.writing = none ∧ b.log = a.log := by
  cases op with
  | publish source =>
      cases source with
      | cpu => cases hop
      | native =>
          simp only [begin, Option.some.injEq] at hs
          split_ifs at hs <;> subst hs <;> exact ⟨rfl, rfl, rfl⟩
  | reserve => cases hop
  | commit => cases hop
  | reconfigureCpu => cases hop
  | exportWriter => cases hop
  | close | reconfigureNative | configurationOffer | registerReleaseTimeline | retryCleanup =>
      simp only [begin, Option.some.injEq] at hs
      split_ifs at hs <;> subst hs <;> exact ⟨rfl, rfl, rfl⟩
  | _ =>
      simp only [begin, Option.some.injEq] at hs
      subst hs
      exact ⟨rfl, rfl, rfl⟩

/-- The descriptor of a staged frame passes the comparison. -/
lemma staged_accepts (hr : Reachable a) (hs : a.step l = some b) {off : ℕ} {e : Env}
    (hpc : a.producer.pc = .prepare off)
    (hfields : e.descriptor.poolId = (pool a.current).poolId ∧
      e.descriptor.fenceId = (pool a.current).fenceId ∧ e.descriptor.syncKind = nativeTimeline) :
    b.Accepts pool (a.publication (a.scanIndex off) e.descriptor [] e.value) := by
  have hplaces := hr.placed.places
  rw [hpc] at hplaces
  have hlt := a.scanIndex_lt hplaces.1
  rw [Accepts, resources_congr hr hs, NativePool.validateDescriptor, decide_eq_true_eq]
  have hd : (a.publication (a.scanIndex off) e.descriptor [] e.value).descriptor.poolId =
      e.descriptor.poolId ∧
      (a.publication (a.scanIndex off) e.descriptor [] e.value).descriptor.fenceId =
        e.descriptor.fenceId ∧
      (a.publication (a.scanIndex off) e.descriptor [] e.value).descriptor.slotId =
        a.scanIndex off ∧
      (a.publication (a.scanIndex off) e.descriptor [] e.value).descriptor.syncKind =
        e.descriptor.syncKind := by
    rw [publication, FrameDescriptor.stamp]
    split_ifs <;> exact ⟨rfl, rfl, rfl, rfl⟩
  obtain ⟨hpool, hfence, hslot, hsync⟩ := hd
  rw [hpool, hfence, hslot, hsync]
  exact ⟨hfields.1, hfields.2.1, hlt, hfields.2.2⟩

/-- **One step of a conforming run.** -/
lemma Accepted.step (h : Accepted pool a) (hr : Reachable a) (hnative : a.shared.native = true)
    (hC : Conforms pool a l) (hs : a.step l = some b) : Accepted pool b := by
  have hacts := acts_of_step hs
  have kept : b.log = a.log → ∀ c p, b.log c = some p → b.Accepts pool p :=
    fun hlog c p hp => (h.logged c p (hlog ▸ hp)).congr hr hs
  by_cases hidle : a.producer.pc = .idle
  · cases l with
    | call op =>
        rw [Arena.step, if_pos hidle] at hs
        obtain ⟨hcpu, hwriting, hlog⟩ := begin_native (hC hnative) hs
        refine ⟨hcpu, fun c p hp => ?_, fun p hp => ?_⟩
        · have hstep : a.step (.call op) = some b := by rw [Arena.step, if_pos hidle]; exact hs
          exact (h.logged c p (hlog ▸ hp)).congr hr hstep
        · rw [hwriting] at hp
          cases hp
    | producer e =>
        simp only [Arena.step, producerStep, hidle] at hs
        cases hs
    | _ =>
        obtain ⟨hproducer, hlog⟩ := step_aside (by rintro _ ⟨⟩) (by rintro _ ⟨⟩) hs
        refine ⟨by rw [hproducer]; exact h.native, kept hlog, fun p hp => ?_⟩
        rw [hproducer] at hp
        exact (h.writing p hp).congr hr hs
  · refine ⟨?_, fun c p hp => ?_, fun p hp => ?_⟩
    · by_contra hne
      have hcpu := hacts.cpu hr.ledger hidle (Bool.not_eq_false _ ▸ hne)
      rw [h.native] at hcpu
      cases hcpu
    · rcases (hacts.publishes hr.ledger hr.published).1 with hlog | ⟨q, after, hpc, hlog⟩
      · exact kept hlog c p hp
      · rw [hlog] at hp
        by_cases hc : c = a.producer.cursor + 1
        · subst hc
          rw [Function.update_self, Option.some.injEq] at hp
          subst hp
          exact (h.writing q (by rw [hpc]; rfl)).congr hr hs
        · rw [Function.update_of_ne hc] at hp
          exact (h.logged c p hp).congr hr hs
    · rcases hacts.begins hr.ledger hp with hold | hcpu | ⟨off, hpc⟩
      · exact (h.writing p hold).congr hr hs
      · rw [h.native] at hcpu
        cases hcpu
      · -- the frame has just been staged
        cases l with
        | call op =>
            rw [Arena.step, if_neg hidle] at hs
            cases hs
        | producer e =>
            have hs' := hs
            simp only [Arena.step, producerStep, hpc, publishStep, Option.some.injEq] at hs'
            split_ifs at hs' with hfail hskip <;> subst hs'
            · cases hp
            · have hnone := Pc.scans_writing a (.publish .native) (off + 1)
              have hgoto : (a.scanFrom (.publish .native) (off + 1)).producer.pc =
                  Pc.scans a (.publish .native) (off + 1) := by
                by_cases hoff : off + 1 < a.layout.resources
                · rw [show a.scanFrom (.publish .native) (off + 1) =
                    a.goto (.scan (.publish .native) (off + 1)) from if_pos hoff, Pc.scans,
                    if_pos hoff]
                  rfl
                · rw [show a.scanFrom (.publish .native) (off + 1) = a.finish .dropped
                    from if_neg hoff, Pc.scans, if_neg hoff]
                  rfl
              rw [hgoto, hnone] at hp
              cases hp
            · cases hp
              exact staged_accepts hr hs hpc (hC hnative off hpc (Bool.not_eq_true _ ▸ hfail)
                (Bool.not_eq_true _ ▸ hskip))
        | _ =>
            obtain ⟨hproducer, -⟩ := step_aside (by rintro _ ⟨⟩) (by rintro _ ⟨⟩) hs
            rw [hproducer] at hp
            exact (h.writing p hp).congr hr hs

/-- **Every descriptor that a conforming native producer has published is accepted.** -/
theorem accepted_of_conforms (h : ReachableIn (Conforms pool) s) (hnative : s.shared.native = true)
    {c : ℕ} {p : Publication} (hp : s.log c = some p) : s.Accepts pool p := by
  obtain ⟨page, config, externalBytes, native, s₀, h₀, hrun⟩ := h
  have h₁ : Reachable s₀ := ⟨page, config, externalBytes, native, s₀, h₀, .refl⟩
  have hacc : s.shared.native = true → Accepted pool s := by
    refine hrun.invariant_with (P := fun s => s.shared.native = true → Accepted pool s)
      (Q := Reachable) (fun a ha => h₁.run ha) (fun _ => ?_) fun a l b ha hp hC hs hb => ?_
    · rw [create] at h₀
      obtain ⟨x, -, h₀⟩ := of_bind_ok h₀
      cases h₀
      exact ⟨rfl, by rintro c p ⟨⟩, by rintro p ⟨⟩⟩
    · rw [((acts_of_step hs).static ha.ledger).1] at hb
      exact (hp hb).step ha hb hC hs
  exact (hacc hnative).logged c p hp

/-- Every run of a CPU arena conforms. -/
lemma Reachable.conforms (h : Reachable s) (hcpu : s.shared.native = false) :
    ReachableIn (Conforms pool) s := by
  obtain ⟨page, config, externalBytes, native, s₀, h₀, hrun⟩ := h
  refine ⟨page, config, externalBytes, native, s₀, h₀, ?_⟩
  induction hrun with
  | refl => exact .refl
  | @tail a b l hrun _ hs ih =>
      have ha : Reachable a := ⟨page, config, externalBytes, native, s₀, h₀, hrun⟩
      have hcpu' : a.shared.native = false := by
        rw [← ((acts_of_step hs).static ha.ledger).1]
        exact hcpu
      refine (ih hcpu').tail ?_ hs
      have hnot : a.shared.native ≠ true := by rw [hcpu']; decide
      cases l with
      | call op => exact fun h0 => absurd h0 hnot
      | producer e => exact fun h0 => absurd h0 hnot
      | incarnation i l =>
          cases l with
          | use k e => exact fun h0 => absurd h0 hnot
          | _ => trivial
      | _ => trivial

end Arena

end Jackstay.Acquisition
