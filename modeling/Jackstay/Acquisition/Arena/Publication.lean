import Jackstay.Acquisition.Arena.Runs

/-!
Cursors and the publication log.

* `Published`: `LATEST` is the producer's cursor, every cursor up to it has been
  logged, each under its own number, and `FIRST_CURSOR` is at most one beyond it.
* `Published.acts`: every step keeps it. A cursor is assigned to one publication and
  logged once (`Acts.log_mono`); `LATEST` never goes back (`Acts.latest_le`).
-/

namespace Jackstay.Acquisition

/-- The publication under way, from the store of its descriptor on. -/
def Pc.writing : Pc → Option Publication
  | .describe p _ => some p
  | .store p _ => some p
  | .ring p _ => some p
  | .latest p _ => some p
  | _ => none

/-- The publication whose state word is stored and whose cursor is not `LATEST` yet. -/
def Pc.stored : Pc → Option Publication
  | .ring p _ => some p
  | .latest p _ => some p
  | _ => none

/-- **The invariant of the publication log.** -/
structure Published (s : Arena) : Prop where
  latest : s.shared.control.latest = s.producer.cursor
  first_pos : 1 ≤ s.shared.control.firstCursor
  first_le : s.shared.control.firstCursor ≤ s.producer.cursor + 1
  logged : ∀ c, 1 ≤ c → c ≤ s.producer.cursor → s.log c ≠ none
  logs : ∀ c p, s.log c = some p → p.descriptor.cursor = c ∧ 1 ≤ c ∧
    (c ≤ s.producer.cursor ∨ s.producer.pc.stored = some p)
  writing : ∀ p, s.producer.pc.writing = some p → p.descriptor.cursor = s.producer.cursor + 1
  stored : ∀ p, s.producer.pc.stored = some p → s.log p.descriptor.cursor = some p

/-! ### Control flow -/

@[simp] lemma FrameDescriptor.stamp_cursor (d : FrameDescriptor) (hostTimeNs : ℕ) :
    (d.stamp hostTimeNs).cursor = d.cursor := by
  rw [stamp]
  split_ifs <;> rfl

@[simp] lemma Arena.publication_cursor (s : Arena) (index : ℕ) (descriptor : FrameDescriptor)
    (bytes : List UInt8) (hostTimeNs : ℕ) :
    (s.publication index descriptor bytes hostTimeNs).descriptor.cursor =
      s.producer.cursor + 1 := by
  simp [Arena.publication]

@[simp] lemma Arena.committed_cursor (s : Arena) (g index : ℕ) (descriptor : FrameDescriptor)
    (hostTimeNs : ℕ) :
    (s.committed g index descriptor hostTimeNs).descriptor.cursor = s.producer.cursor + 1 := by
  simp [Arena.committed]

lemma Pc.stored_of_writing {pc : Pc} (h : pc.writing = none) : pc.stored = none := by
  cases pc <;> simp_all [Pc.writing, Pc.stored]

lemma Pc.finds_writing (s : Arena) (off : ℕ) (w : Writer) : (Pc.finds s off w).writing = none := by
  cases w with
  | publish source => cases source <;> rfl
  | reserve => rfl

lemma Pc.scans_writing (s : Arena) (w : Writer) (off : ℕ) : (Pc.scans s w off).writing = none := by
  rw [Pc.scans]
  split_ifs <;> rfl

/-- Control flow begins a publication in `commit` only, and with the next cursor. -/
lemma Pc.Flows.writing {s : Arena} {pc pc' : Pc} (h : Pc.Flows s pc pc') :
    pc.writing = none ∧ pc'.stored = none ∧
      ∀ p, pc'.writing = some p → p.descriptor.cursor = s.producer.cursor + 1 := by
  have quiet : ∀ {q : Pc}, q.writing = none → q.stored = none ∧
      ∀ p, q.writing = some p → p.descriptor.cursor = s.producer.cursor + 1 := by
    intro q hq
    exact ⟨Pc.stored_of_writing hq, fun p hp => by rw [hq] at hp; cases hp⟩
  cases h with
  | commit g index descriptor hostTimeNs =>
      refine ⟨rfl, rfl, fun p hp => ?_⟩
      cases hp
      exact s.committed_cursor g index descriptor hostTimeNs
  | publish => exact ⟨rfl, quiet (Pc.scans_writing _ _ _)⟩
  | reserve => exact ⟨rfl, quiet (Pc.scans_writing _ _ _)⟩
  | reserved => exact ⟨rfl, quiet (Pc.scans_writing _ _ _)⟩
  | retained => exact ⟨rfl, quiet (Pc.scans_writing _ _ _)⟩
  | claimed => exact ⟨rfl, quiet (Pc.scans_writing _ _ _)⟩
  | prepareSkipped => exact ⟨rfl, quiet (Pc.scans_writing _ _ _)⟩
  | found => exact ⟨rfl, quiet (Pc.finds_writing _ _ _)⟩
  | _ => exact ⟨rfl, quiet rfl⟩

namespace Published

variable {s s' : Arena}

/-- Steps that publish nothing: the control words of the log and the cursor stay, and
no publication is under way that was not before. -/
lemma frame (h : Published s) (hl : s'.shared.control.latest = s.shared.control.latest)
    (hf : s'.shared.control.firstCursor = s.shared.control.firstCursor)
    (hc : s'.producer.cursor = s.producer.cursor) (hlog : s'.log = s.log)
    (hpc : s'.producer.pc = s.producer.pc ∨
      s.producer.pc.writing = none ∧ s'.producer.pc.stored = none ∧
      ∀ p, s'.producer.pc.writing = some p → p.descriptor.cursor = s.producer.cursor + 1) :
    Published s' := by
  have hstored : s'.producer.pc.stored = s.producer.pc.stored := by
    rcases hpc with hpc | ⟨hw, hs, -⟩
    · rw [hpc]
    · rw [hs, Pc.stored_of_writing hw]
  constructor
  case latest => rw [hl, hc]; exact h.latest
  case first_pos => rw [hf]; exact h.first_pos
  case first_le => rw [hf, hc]; exact h.first_le
  case logged => rw [hlog, hc]; exact h.logged
  case logs => rw [hlog, hc, hstored]; exact h.logs
  case writing =>
      rw [hc]
      rcases hpc with hpc | ⟨-, -, hw⟩
      · rw [hpc]; exact h.writing
      · exact hw
  case stored => rw [hlog, hstored]; exact h.stored

/-- The same, when the program counter goes from one place without a publication to
another. -/
lemma moved (h : Published s) (hl : s'.shared.control.latest = s.shared.control.latest)
    (hf : s'.shared.control.firstCursor = s.shared.control.firstCursor)
    (hc : s'.producer.cursor = s.producer.cursor) (hlog : s'.log = s.log) {pc : Pc}
    (hpc : s.producer.pc = pc) (hw : pc.writing = none) (hw' : s'.producer.pc.writing = none) :
    Published s' :=
  h.frame hl hf hc hlog (Or.inr ⟨hpc ▸ hw, Pc.stored_of_writing hw',
    fun p hp => by rw [hw'] at hp; cases hp⟩)

/-- The state word of the next cursor is stored. -/
lemma store (h : Published s) {p : Publication} {after : After}
    (hpc : s.producer.pc = .store p after)
    (hl : s'.shared.control = s.shared.control) (hc : s'.producer.cursor = s.producer.cursor)
    (hlog : s'.log = Function.update s.log p.descriptor.cursor (some p))
    (hpc' : s'.producer.pc = .ring p after) : Published s' := by
  have hcur : p.descriptor.cursor = s.producer.cursor + 1 := h.writing p (by rw [hpc]; rfl)
  constructor
  case latest => rw [hl, hc]; exact h.latest
  case first_pos => rw [hl]; exact h.first_pos
  case first_le => rw [hl, hc]; exact h.first_le
  case logged =>
      intro c h1 h2
      rw [hc] at h2
      rw [hlog, Function.update_of_ne (by omega)]
      exact h.logged c h1 h2
  case logs =>
      intro c q hq
      rw [hlog] at hq
      rw [hc, hpc']
      by_cases hcp : c = p.descriptor.cursor
      · subst hcp
        rw [Function.update_self, Option.some.injEq] at hq
        subst hq
        exact ⟨rfl, by omega, Or.inr rfl⟩
      · rw [Function.update_of_ne hcp] at hq
        obtain ⟨h1, h2, h3 | h3⟩ := h.logs c q hq
        · exact ⟨h1, h2, Or.inl h3⟩
        · rw [hpc] at h3
          cases h3
  case writing =>
      rw [hpc', hc]
      rintro q ⟨⟩
      exact hcur
  case stored =>
      rw [hpc']
      rintro q ⟨⟩
      rw [hlog, Function.update_self]

/-- `LATEST` names the stored cursor. -/
lemma advanced (h : Published s) {p : Publication} {after : After}
    (hpc : s.producer.pc = .latest p after)
    (hl : s'.shared.control.latest = p.descriptor.cursor)
    (hf : s'.shared.control.firstCursor = s.shared.control.firstCursor)
    (hc : s'.producer.cursor = p.descriptor.cursor) (hlog : s'.log = s.log)
    (hpc' : s'.producer.pc.writing = none) : Published s' := by
  have hcur : p.descriptor.cursor = s.producer.cursor + 1 := h.writing p (by rw [hpc]; rfl)
  have hp : s.log p.descriptor.cursor = some p := h.stored p (by rw [hpc]; rfl)
  constructor
  case latest => rw [hl, hc]
  case first_pos => rw [hf]; exact h.first_pos
  case first_le =>
      have := h.first_le
      rw [hf, hc]
      omega
  case logged =>
      intro c h1 h2
      rw [hc] at h2
      rw [hlog]
      by_cases hcp : c = p.descriptor.cursor
      · rw [hcp, hp]
        simp
      · exact h.logged c h1 (by omega)
  case logs =>
      intro c q hq
      rw [hlog] at hq
      rw [hc]
      obtain ⟨h1, h2, h3 | h3⟩ := h.logs c q hq
      · exact ⟨h1, h2, Or.inl (by omega)⟩
      · rw [hpc] at h3
        cases h3
        exact ⟨h1, h2, Or.inl (by omega)⟩
  case writing => exact fun q hq => by rw [hpc'] at hq; cases hq
  case stored => exact fun q hq => by rw [Pc.stored_of_writing hpc'] at hq; cases hq

/-- What the books do publishes nothing. -/
lemma books (h : Published s) (hw : s.producer.pc.writing = none) (hb : s.Books s') :
    Published s' := by
  cases hb with
  | kept hshared hlog hc _ _ hpc =>
      refine h.moved (by rw [hshared]) (by rw [hshared]) hc hlog rfl hw ?_
      cases hs : s'.producer.pc <;> simp_all [Pc.idles, Pc.writing]
  | installed layout _ _ hshared hlog hc _ _ hpc =>
      refine h.moved (by rw [hshared]; rfl) (by rw [hshared]; rfl) hc hlog rfl hw ?_
      rw [hpc]
      rfl

/-- **Every step keeps the log.** -/
theorem acts (hl : Ledger s) (h : Published s) (hs : s.Acts s') : Published s' := by
  cases hs with
  | incarnation i inc inc' hi ha => exact h.frame rfl rfl rfl rfl (Or.inl rfl)
  | write g index bytes => exact h.frame rfl rfl rfl rfl (Or.inl rfl)
  | abandon g index => exact h.frame rfl rfl rfl rfl (Or.inl rfl)
  | releaseMap g => exact h.frame rfl rfl rfl rfl (Or.inl rfl)
  | dropExport g => exact h.frame rfl rfl rfl rfl (Or.inl rfl)
  | flow pc outcome released hf => exact h.frame rfl rfl rfl rfl (Or.inr hf.writing)
  | commitCall g index descriptor hpc => exact h.moved rfl rfl rfl rfl hpc rfl rfl
  | offerCall i hpc => exact h.moved rfl rfl rfl rfl hpc rfl rfl
  | registerCall i hpc => exact h.moved rfl rfl rfl rfl hpc rfl rfl
  | observe i todo goal inc hpc => exact h.moved rfl rfl rfl rfl hpc rfl rfl
  | observed i todo goal released hpc => exact h.moved rfl rfl rfl rfl hpc rfl rfl
  | collect i todo goal hd =>
      refine h.books ?_ (hl.collect_books hd)
      obtain ⟨inc, -, ⟨m, hpc, -⟩ | ⟨k, hpc, -⟩⟩ := hd
      · rw [hpc]; rfl
      · rw [hpc]; rfl
  | remove i todo goal inc hpc => exact h.moved rfl rfl rfl rfl hpc rfl rfl
  | reclaim index goal r hpc hr =>
      exact h.books (by rw [hpc]; rfl) (hl.reclaim_books (by rw [hpc]; rfl) hr goal)
  | unready index goal r hpc => exact h.moved rfl rfl rfl rfl hpc rfl rfl
  | ready index goal r hpc hr =>
      have hready : Published (s.onMap r.generation fun map => { map with ready := true }) :=
        h.moved rfl rfl rfl rfl hpc rfl (by rw [Arena.onMap_producer, hpc]; rfl)
      exact hready.books (by rw [Arena.onMap_producer, hpc]; rfl)
        (hl.ready_books (by rw [hpc]; rfl) hr goal)
  | attach e holding remote hpc =>
      exact h.books (by rw [hpc]; rfl) (hl.attach_books (by rw [hpc]; rfl) e holding remote)
  | advance e hpc => exact h.books (by rw [hpc]; rfl) (hl.advance_books (by rw [hpc]; rfl) e)
  | retire w off generation hpc =>
      refine h.moved rfl rfl rfl rfl hpc rfl ?_
      rw [Arena.goto]
      split_ifs
      · exact Pc.finds_writing s off w
      · rfl
  | reserve index hpc => exact h.moved rfl rfl rfl rfl hpc rfl rfl
  | stage off descriptor bytes hostTimeNs hpc =>
      refine h.frame rfl rfl rfl rfl (Or.inr ⟨by rw [hpc]; rfl, rfl, ?_⟩)
      rintro p ⟨⟩
      simp
  | copy index descriptor bytes hostTimeNs hpc =>
      refine h.frame rfl rfl rfl rfl (Or.inr ⟨by rw [hpc]; rfl, rfl, ?_⟩)
      rintro p ⟨⟩
      simp
  | describe p after hpc =>
      have hp := h.writing p (by rw [hpc]; rfl)
      constructor
      case latest => exact h.latest
      case first_pos => exact h.first_pos
      case first_le => exact h.first_le
      case logged => exact h.logged
      case logs =>
          intro c q hq
          obtain ⟨h1, h2, h3⟩ := h.logs c q hq
          rw [hpc] at h3
          exact ⟨h1, h2, Or.inl (h3.resolve_right (by simp [Pc.stored]))⟩
      case writing =>
          rintro q ⟨⟩
          exact hp
      case stored => exact fun q hq => by cases hq
  | store p after hpc => exact h.store hpc rfl rfl rfl rfl
  | ring p after hpc =>
      have hw := h.writing p (by rw [hpc]; rfl)
      have hp := h.stored p (by rw [hpc]; rfl)
      constructor
      case latest => exact h.latest
      case first_pos => exact h.first_pos
      case first_le => exact h.first_le
      case logged => exact h.logged
      case logs =>
          intro c q hq
          obtain ⟨h1, h2, h3⟩ := h.logs c q hq
          rw [hpc] at h3
          exact ⟨h1, h2, h3⟩
      case writing =>
          rintro q ⟨⟩
          exact hw
      case stored =>
          rintro q ⟨⟩
          exact hp
  | latest p after hpc => exact h.advanced hpc rfl rfl rfl rfl rfl
  | release g index outcome hpc => exact h.moved rfl rfl rfl rfl hpc rfl rfl
  | begin payloadCapacity externalBytes hpc =>
      exact h.books (by rw [hpc]; rfl) (hl.begin_books (by rw [hpc]; rfl) _ _)
  | unconfigure layout hpc => exact h.moved rfl rfl rfl rfl hpc rfl rfl
  | unpublish layout index state hpc => exact h.moved rfl rfl rfl rfl hpc rfl rfl
  | firstCursor layout hpc =>
      have hs : s.producer.pc.stored = none := by rw [hpc]; rfl
      constructor
      case latest => exact h.latest
      case first_pos => exact Nat.succ_pos _
      case first_le => exact le_rfl
      case logged => exact h.logged
      case logs =>
          intro c q hq
          obtain ⟨h1, h2, h3⟩ := h.logs c q hq
          exact ⟨h1, h2, Or.inl (h3.resolve_right (by rw [hs]; simp))⟩
      case writing => exact fun q hq => by cases hq
      case stored => exact fun q hq => by cases hq
  | configure g hpc => exact h.moved rfl rfl rfl rfl hpc rfl rfl
  | epoch value after hpc => exact h.moved rfl rfl rfl rfl hpc rfl rfl
  | terminate after hpc => exact h.moved rfl rfl rfl rfl hpc rfl rfl
  | page call i todo after hpc => exact h.moved rfl rfl rfl rfl hpc rfl rfl
  | close call i hpc => exact h.books (by rw [hpc]; rfl) (hl.close_books i)
  | register i inc hpc => exact h.moved rfl rfl rfl rfl hpc rfl rfl
  | retry i inc outcome hpc => exact h.moved rfl rfl rfl rfl hpc rfl rfl
  | exported g hpc => exact h.moved rfl rfl rfl rfl hpc rfl rfl
  | dropObserver i todo inc hpc => exact h.moved rfl rfl rfl rfl hpc rfl rfl

lemma of_create {page : ℕ} {config : ArenaConfig} {externalBytes : ℕ} {native : Bool}
    (h : Arena.create page config externalBytes native = .ok s) : Published s := by
  rw [Arena.create] at h
  obtain ⟨x, -, h⟩ := of_bind_ok h
  cases h
  constructor
  case latest => exact rfl
  case first_pos => exact le_rfl
  case first_le => exact le_rfl
  case logged =>
      intro c h1 h2
      have h2 : c ≤ 0 := h2
      omega
  case logs => exact fun c p hp => by cases hp
  case writing => exact fun p hp => by cases hp
  case stored => exact fun p hp => by cases hp

end Published

namespace Arena

variable {s s' : Arena}

theorem Reachable.published (h : Reachable s) : Published s :=
  h.induct (fun _ _ _ _ _ h₀ => Published.of_create h₀) fun _ _ ha hp hs => hp.acts ha.ledger hs

lemma Books.control (h : s.Books s') : s'.shared.control = s.shared.control := by
  cases h with
  | kept hshared => rw [hshared]
  | installed layout _ _ hshared => rw [hshared]; rfl

lemma Books.logged (h : s.Books s') : s'.log = s.log := by
  cases h with
  | kept _ hlog => exact hlog
  | installed layout _ _ _ hlog => exact hlog

/-- **What a step does to the log**: nothing, or the next cursor is logged; and
`LATEST` stays or moves to that cursor. -/
theorem Acts.publishes (hl : Ledger s) (h : Published s) (hs : s.Acts s') :
    (s'.log = s.log ∨ ∃ p after, s.producer.pc = .store p after ∧
      s'.log = Function.update s.log (s.producer.cursor + 1) (some p)) ∧
    (s'.shared.control.latest = s.shared.control.latest ∨
      s'.shared.control.latest = s.shared.control.latest + 1) := by
  have books : s.Books s' → (s'.log = s.log ∨ ∃ p after, s.producer.pc = .store p after ∧
      s'.log = Function.update s.log (s.producer.cursor + 1) (some p)) ∧
    (s'.shared.control.latest = s.shared.control.latest ∨
      s'.shared.control.latest = s.shared.control.latest + 1) := by
    intro hb
    exact ⟨Or.inl hb.logged, Or.inl (by rw [hb.control])⟩
  cases hs with
  | store p after hpc =>
      have hcur := h.writing p (by rw [hpc]; rfl)
      refine ⟨Or.inr ⟨p, after, hpc, ?_⟩, Or.inl rfl⟩
      rw [← hcur]
      rfl
  | latest p after hpc =>
      refine ⟨Or.inl rfl, Or.inr ?_⟩
      rw [h.latest]
      exact h.writing p (by rw [hpc]; rfl)
  | collect i todo goal hd => exact books (hl.collect_books hd)
  | reclaim index goal r hpc hr => exact books (hl.reclaim_books (by rw [hpc]; rfl) hr goal)
  | ready index goal r hpc hr =>
      have hb := hl.ready_books (by rw [hpc]; rfl) hr goal
      exact ⟨Or.inl hb.logged, Or.inl (by rw [hb.control]; rfl)⟩
  | attach e holding remote hpc => exact books (hl.attach_books (by rw [hpc]; rfl) e holding remote)
  | advance e hpc => exact books (hl.advance_books (by rw [hpc]; rfl) e)
  | begin payloadCapacity externalBytes hpc => exact books (hl.begin_books (by rw [hpc]; rfl) _ _)
  | close call i hpc => exact books (hl.close_books i)
  | _ => exact ⟨Or.inl rfl, Or.inl rfl⟩

lemma Acts.latest_le (hl : Ledger s) (h : Published s) (hs : s.Acts s') :
    s.shared.control.latest ≤ s'.shared.control.latest := by
  have := (hs.publishes hl h).2
  omega

/-- What is logged stays. -/
lemma Acts.log_mono (hl : Ledger s) (h : Published s) (hs : s.Acts s') {c : ℕ} {p : Publication}
    (hp : s.log c = some p) : s'.log c = some p := by
  obtain ⟨hlog | ⟨q, after, hpc, hlog⟩, -⟩ := hs.publishes hl h
  · rw [hlog]
    exact hp
  · have hc : c ≠ s.producer.cursor + 1 := by
      obtain ⟨h1, h2, h3 | h3⟩ := h.logs c p hp
      · omega
      · rw [hpc] at h3
        cases h3
    rw [hlog, Function.update_of_ne hc]
    exact hp

end Arena

end Jackstay.Acquisition
