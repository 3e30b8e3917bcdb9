import Jackstay.Acquisition.Arena.InPlace

/-!
`acquisition/arena.rs`, `arena/writer.rs`: the slot that a scan chooses.

* `Arena.Chooses`: the first slot of the scan that is neither reserved nor in the history
  window nor claimed. `Arena.Scanned`: a `publish` that runs alone takes this slot, and gives
  up only when there is none.
* `Arena.Kept`: what a reservation that is abandoned, and the cleanup of the next `publish`,
  leave as it was.
* `in_place_eq_copy`: writing in place and publishing a copy reach the same arenas, and a
  reservation that is abandoned leaves the next `publish` the slot it would have chosen.
-/

namespace Jackstay.Acquisition

open Transition

namespace Arena

variable {s t u a b : Arena} {v g index : ℕ} {d : FrameDescriptor} {bytes : List UInt8} {l : Label}

/-! ### Occupied slots -/

/-- A tracked consumer claims the generation. -/
def InUse (a : Arena) (generation : ℕ) : Prop :=
  ∃ i ∈ a.producer.claims, ∃ inc, a.incarnations i = some inc ∧
    ∃ k < inc.frames, (inc.page.slot k).claim = generation

/-- The slot is reserved, or what was published in it is in the history window or claimed. -/
def Occupied (a : Arena) (index : ℕ) : Prop :=
  (a.record a.current index).reserved = true ∨
    (a.record a.current index).state / 2 ≠ 0 ∧
      (a.oldest ≤ (a.record a.current index).state / 2 ∨
        a.InUse ((a.record a.current index).state / 2))

/-- The slots of the scan before this offset are occupied. -/
def Passed (a : Arena) (off : ℕ) : Prop := ∀ off', off' < off → a.Occupied (a.scanIndex off')

/-- **The first slot of the scan that is not occupied.** -/
def Chooses (a : Arena) (index : ℕ) : Prop :=
  ∃ off, off < a.layout.resources ∧ index = a.scanIndex off ∧ a.Passed off ∧
    ¬ a.Occupied (a.scanIndex off)

lemma Chooses.unique {index' : ℕ} (h : a.Chooses index) (h' : a.Chooses index') :
    index' = index := by
  obtain ⟨off, -, rfl, hpassed, hfree⟩ := h
  obtain ⟨off', -, rfl, hpassed', hfree'⟩ := h'
  rcases Nat.lt_trichotomy off off' with hlt | rfl | hlt
  · exact absurd (hpassed' off hlt) hfree
  · rfl
  · exact absurd (hpassed off' hlt) hfree'

lemma Passed.succ {off : ℕ} (h : a.Passed off) (hocc : a.Occupied (a.scanIndex off)) :
    a.Passed (off + 1) := by
  intro off' hoff'
  rcases Nat.lt_succ_iff_lt_or_eq.mp hoff' with hlt | rfl
  · exact h off' hlt
  · exact hocc

/-- The claim slots that a scan loads. -/
lemma mem_claimProbes {i k : ℕ} : (i, k) ∈ a.claimProbes ↔
    i ∈ a.producer.claims ∧ ∃ inc, a.incarnations i = some inc ∧ k < inc.frames := by
  rw [claimProbes, List.mem_flatMap]
  constructor
  · rintro ⟨j, hj, hmem⟩
    cases hinc : a.incarnations j with
    | none =>
        rw [hinc] at hmem
        cases hmem
    | some inc =>
        rw [hinc] at hmem
        obtain ⟨k', hk', heq⟩ := List.mem_map.mp hmem
        cases heq
        exact ⟨hj, inc, hinc, List.mem_range.mp hk'⟩
  · rintro ⟨hi, inc, hinc, hk⟩
    refine ⟨i, hi, ?_⟩
    rw [hinc]
    exact List.mem_map.mpr ⟨k, List.mem_range.mpr hk, rfl⟩

/-! ### The scan -/

/-- **What a scan has found out**, by where it is. -/
def ScannedAt (a : Arena) : Pc → Prop
  | .idle => a.producer.outcome = .dropped → a.Passed a.layout.resources
  | .scan _ off => off < a.layout.resources ∧ a.Passed off
  | .scanState _ off => off < a.layout.resources ∧ a.Passed off
  | .scanRetire _ off generation => off < a.layout.resources ∧ a.Passed off ∧
      generation = (a.record a.current (a.scanIndex off)).state / 2 ∧
      (generation = 0 ∨ generation < a.oldest)
  | .scanClaims _ off generation probes => off < a.layout.resources ∧ a.Passed off ∧
      generation = (a.record a.current (a.scanIndex off)).state / 2 ∧
      (generation ≠ 0 ∧ generation < a.oldest) ∧ probes ⊆ a.claimProbes ∧
      ∀ i k inc, (i, k) ∈ a.claimProbes → a.incarnations i = some inc →
        (inc.page.slot k).claim = generation → (i, k) ∈ probes
  | .copy index _ _ => a.Chooses index
  | _ => True

/-- What the scan of the running call has found out. -/
def Scanned (a : Arena) : Prop := a.ScannedAt a.producer.pc

/-- The scan goes on, or gives up. -/
lemma Passed.scanFrom {off : ℕ} (h : a.Passed off) (source : Source) (hoff : off ≤ a.layout.resources) :
    Scanned (a.scanFrom (.publish source) off) := by
  by_cases hlt : off < a.layout.resources
  · have hscan : a.scanFrom (.publish source) off = a.goto (.scan (.publish source) off) :=
      if_pos hlt
    rw [hscan]
    exact ⟨hlt, h⟩
  · have hgive : a.scanFrom (.publish source) off = a.finish .dropped := if_neg hlt
    have hall : off = a.layout.resources := by omega
    rw [hgive]
    intro _
    rw [hall] at h
    exact h

/-- A retired slot is as occupied as it was. -/
lemma occupied_retireSlot (off generation : ℕ)
    (hgen : generation = (a.record a.current (a.scanIndex off)).state / 2) (index : ℕ) :
    (a.retireSlot (a.scanIndex off) generation).Occupied index ↔ a.Occupied index := by
  have hcurrent : (a.retireSlot (a.scanIndex off) generation).current = a.current := rfl
  have hold : (a.retireSlot (a.scanIndex off) generation).oldest = a.oldest := by
    rw [oldest, oldest, layout, layout, hcurrent, retireSlot_layout]
    rfl
  have hclaimed : ∀ n, (a.retireSlot (a.scanIndex off) generation).InUse n ↔ a.InUse n :=
    fun n => Iff.rfl
  have hstate : ((a.retireSlot (a.scanIndex off) generation).record a.current index).state / 2 =
      (a.record a.current index).state / 2 := by
    rw [record_retireSlot]
    split_ifs with h0
    · rw [h0.2, hgen]
      exact Nat.mul_div_cancel_left _ Nat.two_pos
    · rfl
  rw [Occupied, Occupied, hcurrent, retireSlot_reserved, hstate, hold, hclaimed]

lemma passed_retireSlot (off generation : ℕ)
    (hgen : generation = (a.record a.current (a.scanIndex off)).state / 2) (n : ℕ) :
    (a.retireSlot (a.scanIndex off) generation).Passed n ↔ a.Passed n := by
  refine forall_congr' fun off' => imp_congr_right fun _ => ?_
  rw [retireSlot_scanIndex]
  exact occupied_retireSlot off generation hgen _

/-- **One step of the scan.** -/
lemma Scanned.scanStep (h : Scanned a) (hsearch : Searching g d bytes a)
    (hscan : a.producer.pc.inScan = true) (hs : a.scanStep a.producer.pc = some b) :
    Scanned b := by
  have hplace := hsearch.place
  have hvacant := hsearch.vacant
  have hcurrent : a.current = g := by rw [current, hsearch.resources]; rfl
  rw [Scanned] at h
  cases hq : a.producer.pc with
  | scan w off =>
      rw [hq] at h hs hplace
      cases hplace
      simp only [Arena.scanStep, Option.some.injEq] at hs
      split_ifs at hs with hres <;> subst hs
      · exact (h.2.succ (Or.inl hres)).scanFrom _ h.1
      · exact h
  | scanState w off =>
      rw [hq] at h hs hplace
      cases hplace
      simp only [Arena.scanStep, Option.some.injEq] at hs
      split_ifs at hs with hkept <;> subst hs
      · exact (h.2.succ (Or.inr ⟨hkept.1, Or.inl hkept.2⟩)).scanFrom _ h.1
      · refine ⟨h.1, h.2, rfl, ?_⟩
        have hstale : ((a.record a.current (a.scanIndex off)).state / 2 = 0) ∨
            (a.record a.current (a.scanIndex off)).state / 2 < a.oldest := by
          by_contra hnot
          rw [not_or, Nat.not_lt] at hnot
          exact hkept hnot
        exact hstale
  | scanRetire w off generation =>
      rw [hq] at h hs hplace hvacant
      cases hplace
      obtain ⟨hlt, hpassed, hgen, hstale⟩ := h
      have hfree : (a.record a.current (a.scanIndex off)).reserved = false := by
        rw [hcurrent]
        exact hvacant _ rfl
      have hlt' : off < (a.retireSlot (a.scanIndex off) generation).layout.resources := by
        have hlayout : (a.retireSlot (a.scanIndex off) generation).layout = a.layout :=
          retireSlot_layout _ _ _
        rw [hlayout]
        exact hlt
      have hpassed' := (passed_retireSlot off generation hgen off).mpr hpassed
      simp only [Arena.scanStep, Option.some.injEq] at hs
      split_ifs at hs with hzero <;> subst hs
      · -- nothing was ever published in the slot
        refine ⟨off, hlt', rfl, hpassed', ?_⟩
        have hocc := occupied_retireSlot off generation hgen (a.scanIndex off)
        have hnot : ¬ a.Occupied (a.scanIndex off) := by
          rintro (h0 | ⟨h0, -⟩)
          · rw [hfree] at h0
            cases h0
          · exact h0 (hgen.symm.trans hzero)
        have hindex := retireSlot_scanIndex (a := a) (a.scanIndex off) generation off
        have hgoal : ¬ (a.retireSlot (a.scanIndex off) generation).Occupied
            ((a.retireSlot (a.scanIndex off) generation).scanIndex off) := by
          rw [hindex, hocc]
          exact hnot
        exact hgoal
      · have hindex := retireSlot_scanIndex (a := a) (a.scanIndex off) generation off
        refine ⟨hlt', hpassed', ?_, ⟨hzero, ?_⟩, List.Subset.refl _, fun i k inc hmem _ _ => hmem⟩
        · have hrec := record_retireSlot (a := a) (a.scanIndex off) generation a.current
            (a.scanIndex off)
          rw [if_pos ⟨rfl, rfl⟩] at hrec
          have hstate : ((a.retireSlot (a.scanIndex off) generation).record a.current
              ((a.retireSlot (a.scanIndex off) generation).scanIndex off)).state =
                2 * generation := by
            rw [hindex, hrec]
          have hhalf : generation = ((a.retireSlot (a.scanIndex off) generation).record a.current
              ((a.retireSlot (a.scanIndex off) generation).scanIndex off)).state / 2 := by
            rw [hstate]
            exact (Nat.mul_div_cancel_left _ Nat.two_pos).symm
          exact hhalf
        · have hold : (a.retireSlot (a.scanIndex off) generation).oldest = a.oldest := by
            have hcur : (a.retireSlot (a.scanIndex off) generation).current = a.current := rfl
            rw [oldest, oldest, layout, layout, hcur, retireSlot_layout]
            rfl
          have hlt'' : generation < (a.retireSlot (a.scanIndex off) generation).oldest := by
            rw [hold]
            exact hstale.resolve_left hzero
          exact hlt''
  | scanClaims w off generation probes =>
      rw [hq] at h hs hplace hvacant
      cases hplace
      obtain ⟨hlt, hpassed, hgen, ⟨hzero, hstale⟩, hsub, hall⟩ := h
      have hfree : (a.record a.current (a.scanIndex off)).reserved = false := by
        rw [hcurrent]
        exact hvacant _ rfl
      cases probes with
      | nil =>
          simp only [Arena.scanStep, Option.some.injEq] at hs
          subst hs
          refine ⟨off, hlt, rfl, hpassed, ?_⟩
          have hnot : ¬ a.Occupied (a.scanIndex off) := by
            rintro (h0 | ⟨-, h0 | ⟨i, hi, inc, hinc, k, hk, hclaim⟩⟩)
            · rw [hfree] at h0
              cases h0
            · rw [← hgen] at h0
              omega
            · have hmem := mem_claimProbes.mpr ⟨hi, inc, hinc, hk⟩
              cases hall i k inc hmem hinc (hclaim.trans hgen.symm)
          exact hnot
      | cons probe probes =>
          simp only [Arena.scanStep, Option.bind_eq_bind, Option.bind_eq_some_iff] at hs
          obtain ⟨inc, hinc, hs⟩ := hs
          cases hs
          split_ifs with hclaim
          · obtain ⟨hi, inc', hinc', hk⟩ := mem_claimProbes.mp (hsub List.mem_cons_self)
            cases hinc.symm.trans hinc'
            have hclaimed : a.InUse ((a.record a.current (a.scanIndex off)).state / 2) :=
              ⟨probe.1, hi, inc, hinc, probe.2, hk, hclaim.trans hgen⟩
            exact (hpassed.succ (Or.inr ⟨hgen ▸ hzero, Or.inr hclaimed⟩)).scanFrom _ hlt
          · refine ⟨hlt, hpassed, hgen, ⟨hzero, hstale⟩, fun x hx => hsub (List.mem_cons_of_mem _ hx),
              fun i k inc' hmem hinc' hclaim' => ?_⟩
            rcases List.mem_cons.mp (hall i k inc' hmem hinc' hclaim') with heq | hmem'
            · cases heq
              cases hinc.symm.trans hinc'
              exact absurd hclaim' hclaim
            · exact hmem'
  | copy index d' bytes' =>
      rw [hq] at hs
      cases hs
  | prepare off =>
      rw [hq] at hs
      cases hs
  | _ =>
      rw [hq] at hscan
      cases hscan

/-- **One step of a `publish` that runs alone.** -/
lemma Scanned.step (h : Scanned a) (hsearch : Searching g d bytes a) (hl : Ledger a)
    (hC : Alone v a l) (hcopy : ∀ index, a.producer.pc ≠ .copy index d bytes)
    (hs : a.step l = some b) : Scanned b := by
  have hplace := hsearch.place
  have alone : a.producer.pc.calling = none → a.producer.pc.awaits = none →
      ∃ e : Env, a.producerStep e = some b := fun hcalling hawaits => by
    obtain ⟨e, -, rfl⟩ := hC.producer hcalling hawaits
    exact ⟨e, hs⟩
  -- a call of a page or a poll leaves the producer where it is
  have called : (∃ e, l = .producer e) ∨ b.producer.pc = a.producer.pc := by
    cases l with
    | producer e => exact Or.inl ⟨e, rfl⟩
    | incarnation i l =>
        right
        simp only [Arena.step, Option.bind_eq_bind, Option.bind_eq_some_iff] at hs
        obtain ⟨inc, -, inc', -, heq⟩ := hs
        cases heq
        rfl
    | _ => exact hC.2.1.elim
  have ended : ∀ (x : Arena) e, Scanned (x.finish (.error e)) := fun x e h0 => by cases h0
  rw [Scanned]
  cases hq : a.producer.pc with
  | idle => exact absurd hq hC.1
  | terminal goal =>
      obtain ⟨e, hs⟩ := alone (by rw [hq]; rfl) (by rw [hq]; rfl)
      simp only [producerStep, hq, Option.some.injEq] at hs
      split_ifs at hs <;> subst hs
      · exact ended a .closed
      · trivial
  | cleanup c goal =>
      rcases called with ⟨e, rfl⟩ | hsame
      · rcases ((acts_of_step hs).cleaned hl hq).2 with ⟨c', h0⟩ | h0 | h0
        · rw [h0]
          trivial
        · rw [h0]
          trivial
        · simp only [Arena.step, producerStep, hq] at hs
          have hout := cleanupStep_outcome hs h0
          rw [h0]
          intro h1
          rw [hout] at h1
          cases h1
      · rw [hsame, hq]
        trivial
  | resume goal =>
      rw [hq] at hplace
      cases hplace
      obtain ⟨e, hs⟩ := alone (by rw [hq]; rfl) (by rw [hq]; rfl)
      have hcurrent : a.current = g := by rw [current, hsearch.resources]; rfl
      have hroom : ¬ a.layout.payloadCapacity < bytes.length := by
        rw [layout, hcurrent]
        exact Nat.not_lt.mpr hsearch.room
      simp only [producerStep, hq, Option.some.injEq, resume, hsearch.resources, Source.len, hroom,
        if_false] at hs
      split_ifs at hs with hmax <;> subst hs
      · trivial
      · have hnone : a.Passed 0 := by
          intro off' hoff'
          cases hoff'
        exact hnone.scanFrom _ (Nat.zero_le _)
  | scan | scanState | scanRetire | scanClaims =>
      obtain ⟨e, hs⟩ := alone (by rw [hq]; rfl) (by rw [hq]; rfl)
      simp only [producerStep, hq] at hs
      exact h.scanStep hsearch (by rw [hq]; rfl) (by rw [hq]; exact hs)
  | copy index d' bytes' =>
      rw [hq] at hplace
      obtain ⟨rfl, rfl⟩ := hplace
      exact absurd hq (hcopy index)
  | terminate after =>
      obtain ⟨e, hs⟩ := alone (by rw [hq]; rfl) (by rw [hq]; rfl)
      simp only [producerStep, hq, pagesStep, Option.some.injEq] at hs
      subst hs
      trivial
  | pages call todo after =>
      rw [hq] at hplace
      obtain ⟨e, hs⟩ := alone (by rw [hq]; rfl) (by rw [hq]; rfl)
      cases call with
      | signal event => exact hplace.elim
      | close =>
          cases hplace
          cases todo with
          | nil =>
              simp only [producerStep, hq, pagesStep, Option.some.injEq] at hs
              subst hs
              exact ended a _
          | cons i todo =>
              simp only [producerStep, hq, pagesStep, Option.some.injEq] at hs
              subst hs
              trivial
  | paged call i todo after =>
      rw [hq] at hplace
      cases call with
      | signal event => exact hplace.elim
      | close =>
          rcases called with ⟨e, rfl⟩ | hsame
          · simp only [Arena.step, producerStep, hq, pagesStep, Option.bind_eq_bind,
              Option.bind_eq_some_iff] at hs
            obtain ⟨inc, -, hs⟩ := hs
            split_ifs at hs with hhost hfault
            · exact absurd rfl hfault.1
            · cases hs
              trivial
          · rw [hsame, hq]
            trivial
  | _ =>
      rw [hq] at hplace
      exact hplace.elim

/-! ### What the next call finds -/

/-- **What a scan looks at is as it was.** -/
structure Kept (a b : Arena) : Prop where
  resources : b.producer.resources = a.producer.resources
  nextSlot : b.producer.nextSlot = a.producer.nextSlot
  cursor : b.producer.cursor = a.producer.cursor
  layout : (b.shared.maps a.current).layout = (a.shared.maps a.current).layout
  flags : ∀ index, (b.record a.current index).reserved = (a.record a.current index).reserved
  states : ∀ index, (b.record a.current index).state / 2 = (a.record a.current index).state / 2
  claims : ∀ generation, generation ≠ 0 → (b.InUse generation ↔ a.InUse generation)

lemma Kept.current (h : Kept a b) : b.current = a.current := by
  rw [Arena.current, Arena.current, h.resources]

lemma Kept.trans {c : Arena} (h : Kept a b) (h' : Kept b c) : Kept a c := by
  obtain ⟨hres, hnext, hcursor, hlayout, hflags, hstates, hclaims⟩ := h'
  rw [h.current] at hlayout hflags hstates
  exact ⟨hres.trans h.resources, hnext.trans h.nextSlot, hcursor.trans h.cursor,
    hlayout.trans h.layout, fun i => (hflags i).trans (h.flags i),
    fun i => (hstates i).trans (h.states i), fun n hn => (hclaims n hn).trans (h.claims n hn)⟩

/-- The same slots are occupied. -/
lemma Kept.occupied (h : Kept a b) (index : ℕ) : b.Occupied index ↔ a.Occupied index := by
  have hold : b.oldest = a.oldest := by
    rw [oldest, oldest, Arena.layout, Arena.layout, h.current, h.layout, h.cursor]
  rw [Occupied, Occupied, h.current, h.flags, h.states, hold]
  refine or_congr_right (and_congr_right fun hne => or_congr_right ?_)
  exact h.claims _ hne

lemma Kept.scanIndex (h : Kept a b) (off : ℕ) : b.scanIndex off = a.scanIndex off := by
  rw [Arena.scanIndex, Arena.scanIndex, Arena.layout, Arena.layout, h.current, h.layout, h.nextSlot]

/-- A scan chooses the same slot. -/
lemma Kept.chooses (h : Kept a b) (index : ℕ) : b.Chooses index ↔ a.Chooses index := by
  have hresources : b.layout.resources = a.layout.resources := by
    rw [Arena.layout, Arena.layout, h.current, h.layout]
  have hpassed : ∀ off, b.Passed off ↔ a.Passed off := fun off =>
    forall_congr' fun off' => imp_congr_right fun _ => by
      rw [h.scanIndex]
      exact h.occupied _
  simp only [Chooses, hresources, h.scanIndex, hpassed, h.occupied]

/-- Nothing that a scan looks at is stored to. -/
lemma Kept.of_same (hfields : SameFields a b) (hnext : b.producer.nextSlot = a.producer.nextSlot)
    (hmaps : b.shared.maps = a.shared.maps)
    (hclaims : ∀ generation, generation ≠ 0 → (b.InUse generation ↔ a.InUse generation)) :
    Kept a b :=
  ⟨hfields.2.1, hnext, hfields.1, by rw [hmaps], fun i => by rw [record, record, hmaps],
    fun i => by rw [record, record, hmaps], hclaims⟩

/-- The producer's thread runs alone, and what it hears from the observers releases no
claim. -/
def Still (v : ℕ) (a : Arena) (l : Label) : Prop :=
  Alone v a l ∧ ∀ b, a.step l = some b → ∀ i inc inc', a.incarnations i = some inc →
    b.incarnations i = some inc' → ∀ k, (inc'.page.slot k).claim = (inc.page.slot k).claim

/-- A step changes the number of claim slots of no incarnation. -/
lemma Acts.frames (hl : Ledger a) (hs : a.Acts b) {i : ℕ} {inc inc' : Incarnation}
    (hi : a.incarnations i = some inc) (hi' : b.incarnations i = some inc') :
    inc'.frames = inc.frames := by
  rcases hs.move hl hi hi' with rfl | hm
  · rfl
  · cases hm with
    | act _ ha => exact ha.static.1
    | _ => rfl

/-- **A consumer that `poll_cleanup` forgets claims nothing.** -/
lemma inUse_of_still (hr : Reachable a) (hC : Still v a l) (hs : a.step l = some b)
    (hsub : b.producer.claims ⊆ a.producer.claims) {generation : ℕ} (hne : generation ≠ 0) :
    b.InUse generation ↔ a.InUse generation := by
  have hacts := acts_of_step hs
  constructor
  · rintro ⟨i, hi, inc', hinc', k, hk, hclaim⟩
    obtain ⟨inc, hinc, -⟩ := hr.ledger.tracked i (hsub hi)
    have hwords := hC.2 b hs i inc inc' hinc hinc' k
    have hframes := hacts.frames hr.ledger hinc hinc'
    exact ⟨i, hsub hi, inc, hinc, k, hframes ▸ hk, hwords ▸ hclaim⟩
  · rintro ⟨i, hi, inc, hinc, k, hk, hclaim⟩
    obtain ⟨inc', hinc'⟩ := hacts.stays hr.ledger hinc
    have hwords := hC.2 b hs i inc inc' hinc hinc' k
    have hframes := hacts.frames hr.ledger hinc hinc'
    have hb : Reachable b := hr.tail hs
    by_cases hmem : i ∈ b.producer.claims
    · exact ⟨i, hmem, inc', hinc', k, hframes ▸ hk, hwords.trans hclaim⟩
    · have hdrains := hb.tracking.left i inc' hinc' hmem (k + 1)
      have hempty := ((hb.handoffs hinc').unused k (hdrains.empty k (Nat.lt_succ_self k))).1
      rw [hwords, hclaim] at hempty
      exact absurd hempty hne

/-- `poll_cleanup` stores into no slot. -/
lemma cleanupStep_slots {c : CleanupPc} {goal : Goal} {e : Env}
    (hs : a.cleanupStep e goal c = some b) :
    b.producer.nextSlot = a.producer.nextSlot ∧ ∀ g', (b.shared.maps g').records =
      (a.shared.maps g').records ∧ (b.shared.maps g').layout = (a.shared.maps g').layout := by
  have hcollect : ∀ i todo, (a.collect i todo goal).producer.nextSlot = a.producer.nextSlot ∧
      (a.collect i todo goal).shared = a.shared := by
    intro i todo
    rw [collect]
    split
    · split <;> exact ⟨rfl, rfl⟩
    · exact ⟨rfl, rfl⟩
  have hclaims : ∀ i k todo, (a.claimsFrom i k todo goal).producer.nextSlot =
      a.producer.nextSlot ∧ (a.claimsFrom i k todo goal).shared = a.shared := by
    intro i k todo
    rw [claimsFrom]
    split_ifs
    · exact hcollect i todo
    · exact ⟨rfl, rfl⟩
  have hreclaim : ∀ (a : Arena) index r, (a.reclaim index r goal).producer.nextSlot =
      a.producer.nextSlot ∧ (a.reclaim index r goal).shared = a.shared := by
    intro a index r
    simp only [reclaim]
    split <;> exact ⟨rfl, rfl⟩
  have same : b.producer.nextSlot = a.producer.nextSlot ∧ b.shared = a.shared →
      b.producer.nextSlot = a.producer.nextSlot ∧ ∀ g', (b.shared.maps g').records =
        (a.shared.maps g').records ∧ (b.shared.maps g').layout = (a.shared.maps g').layout := by
    rintro ⟨hnext, hshared⟩
    exact ⟨hnext, fun g' => by rw [hshared]; exact ⟨rfl, rfl⟩⟩
  cases c with
  | observers todo =>
      cases todo with
      | nil =>
          cases hs
          exact same ⟨rfl, rfl⟩
      | cons i todo =>
          simp only [cleanupStep, Option.bind_eq_bind, Option.bind_eq_some_iff] at hs
          obtain ⟨inc, -, hs⟩ := hs
          split_ifs at hs
          cases hs
          exact same ⟨rfl, rfl⟩
  | polling i todo =>
      simp only [cleanupStep, Option.bind_eq_bind, Option.bind_eq_some_iff] at hs
      obtain ⟨inc, -, hs⟩ := hs
      split_ifs at hs
      cases hs
      exact same ⟨rfl, rfl⟩
  | quiescent todo =>
      cases todo with
      | nil =>
          cases hs
          exact same ⟨rfl, rfl⟩
      | cons i todo =>
          simp only [cleanupStep, Option.bind_eq_bind, Option.bind_eq_some_iff] at hs
          obtain ⟨inc, -, hs⟩ := hs
          cases hs
          exact same ⟨rfl, rfl⟩
  | mapping i m todo =>
      simp only [cleanupStep, Option.bind_eq_bind, Option.bind_eq_some_iff] at hs
      obtain ⟨inc, -, hs⟩ := hs
      cases hs
      refine same ?_
      split_ifs
      · exact ⟨rfl, rfl⟩
      · exact ⟨rfl, rfl⟩
      · exact hclaims i 0 todo
  | claim i k todo =>
      simp only [cleanupStep, Option.bind_eq_bind, Option.bind_eq_some_iff] at hs
      obtain ⟨inc, -, hs⟩ := hs
      cases hs
      refine same ?_
      split_ifs
      · exact ⟨rfl, rfl⟩
      · exact hclaims i (k + 1) todo
  | remove i todo =>
      simp only [cleanupStep, Option.bind_eq_bind, Option.bind_eq_some_iff] at hs
      obtain ⟨inc, -, hs⟩ := hs
      split_ifs at hs
      cases hs
      exact same ⟨rfl, rfl⟩
  | retired index =>
      simp only [cleanupStep] at hs
      split at hs
      · cases hs
        exact same ⟨rfl, rfl⟩
      · cases hs
        exact same ⟨rfl, rfl⟩
  | probe index probes =>
      cases probes with
      | nil =>
          cases hs
          exact same ⟨rfl, rfl⟩
      | cons probe probes =>
          simp only [cleanupStep, Option.bind_eq_bind, Option.bind_eq_some_iff] at hs
          obtain ⟨r, -, hs⟩ := hs
          cases probe <;>
          · simp only [Option.bind_eq_some_iff] at hs
            obtain ⟨inc, -, hs⟩ := hs
            cases hs
            exact same ⟨rfl, rfl⟩
  | count index =>
      simp only [cleanupStep, Option.bind_eq_bind, Option.bind_eq_some_iff] at hs
      obtain ⟨r, -, hs⟩ := hs
      cases hs
      refine same ?_
      split_ifs
      · exact ⟨rfl, rfl⟩
      · exact ⟨rfl, rfl⟩
      · exact hreclaim a index r.generation
  | ready index =>
      simp only [cleanupStep, Option.bind_eq_bind, Option.bind_eq_some_iff] at hs
      obtain ⟨r, -, hs⟩ := hs
      -- the readiness of a retired pool is all that is stored
      have asked : ∀ g', (((a.onMap r.generation fun map =>
          { map with ready := !e.skip }).shared.maps g').records = (a.shared.maps g').records) ∧
          ((a.onMap r.generation fun map =>
            { map with ready := !e.skip }).shared.maps g').layout =
              (a.shared.maps g').layout := by
        intro g'
        by_cases hg : g' = r.generation
        · subst hg
          simp only [onMap, Function.update_self, and_self]
        · simp only [onMap, Function.update_of_ne hg, and_self]
      obtain ⟨hnext, hshared⟩ := hreclaim
        (a.onMap r.generation fun map => { map with ready := !e.skip }) index r.generation
      rw [Option.pure_def, Option.some.injEq] at hs
      split_ifs at hs <;> subst hs
      · exact same ⟨rfl, rfl⟩
      · exact ⟨rfl, asked⟩
      · refine ⟨hnext, ?_⟩
        rw [hshared]
        exact asked

/-- A scan that goes on, or gives up, has stored nothing. -/
lemma scanFrom_same (a : Arena) (w : Writer) (off : ℕ) :
    SameFields a (a.scanFrom w off) ∧
      (a.scanFrom w off).producer.nextSlot = a.producer.nextSlot ∧
      (a.scanFrom w off).shared.maps = a.shared.maps ∧
      (a.scanFrom w off).producer.claims = a.producer.claims := by
  by_cases hoff : off < a.layout.resources
  · have hscan : a.scanFrom w off = a.goto (.scan w off) := if_pos hoff
    rw [hscan]
    exact ⟨⟨rfl, rfl, rfl⟩, rfl, rfl, rfl⟩
  · have hgive : ∃ o, a.scanFrom w off = a.finish o := ⟨_, if_neg hoff⟩
    obtain ⟨o, hgive⟩ := hgive
    rw [hgive]
    exact ⟨⟨rfl, rfl, rfl⟩, rfl, rfl, rfl⟩

/-- A scan that retires a slot leaves what a later scan looks at. -/
lemma Kept.retireSlot {off generation : ℕ} {pc : Pc}
    (hgen : generation = (a.record a.current (a.scanIndex off)).state / 2) :
    Kept a ((a.retireSlot (a.scanIndex off) generation).goto pc) := by
  refine ⟨rfl, rfl, rfl, retireSlot_layout _ _ _, fun i => retireSlot_reserved _ _ _ _,
    fun i => ?_, fun _ _ => Iff.rfl⟩
  have hstate : ((a.retireSlot (a.scanIndex off) generation).record a.current i).state / 2 =
      (a.record a.current i).state / 2 := by
    rw [record_retireSlot]
    split_ifs with h0
    · rw [h0.2, hgen]
      exact Nat.mul_div_cancel_left _ Nat.two_pos
    · rfl
  exact hstate

/-- **A `publish` that looks for a slot** leaves what a later scan looks at. -/
lemma Kept.step (hr : Reachable a) (hsearch : Searching g d bytes a) (h : Scanned a)
    (hC : Still v a l) (hcopy : ∀ index, a.producer.pc ≠ .copy index d bytes)
    (hs : a.step l = some b) : Kept a b := by
  have hclaims : b.producer.claims ⊆ a.producer.claims → ∀ n, n ≠ 0 → (b.InUse n ↔ a.InUse n) :=
    fun hsub n hn => inUse_of_still hr hC hs hsub hn
  -- in most steps nothing that a scan looks at is stored to
  have same : SameFields a b ∧ b.producer.nextSlot = a.producer.nextSlot ∧
      b.shared.maps = a.shared.maps ∧ b.producer.claims = a.producer.claims → Kept a b := by
    rintro ⟨hfields, hnext, hmaps, hsame⟩
    exact Kept.of_same hfields hnext hmaps (hclaims (hsame ▸ List.Subset.refl _))
  have hplace := hsearch.place
  cases l with
  | incarnation i l =>
      simp only [Arena.step, Option.bind_eq_bind, Option.bind_eq_some_iff] at hs
      obtain ⟨inc, -, inc', -, heq⟩ := hs
      cases heq
      exact same ⟨⟨rfl, rfl, rfl⟩, rfl, rfl, rfl⟩
  | producer e =>
      have hacts := acts_of_step hs
      simp only [Arena.step, producerStep] at hs
      rw [Scanned] at h
      cases hq : a.producer.pc with
      | idle => exact absurd hq hC.1.1
      | terminal goal =>
          rw [hq] at hs
          simp only [Option.some.injEq] at hs
          split_ifs at hs <;> subst hs
          · exact same ⟨⟨rfl, rfl, rfl⟩, rfl, rfl, rfl⟩
          · exact same ⟨⟨rfl, rfl, rfl⟩, rfl, rfl, rfl⟩
      | cleanup c goal =>
          obtain ⟨-, hfields, hsub⟩ := hacts.keeps hr.ledger hq
          rw [hq] at hs
          obtain ⟨hnext, hmaps⟩ := cleanupStep_slots hs
          refine ⟨hfields.2.1, hnext, hfields.1, (hmaps _).2, fun i => ?_, fun i => ?_,
            hclaims hsub⟩
          · rw [record, record, (hmaps _).1]
          · rw [record, record, (hmaps _).1]
      | resume goal =>
          rw [hq] at hplace hs
          cases hplace
          simp only [Option.some.injEq, resume, hsearch.resources] at hs
          split_ifs at hs <;> subst hs
          · exact same ⟨⟨rfl, rfl, rfl⟩, rfl, rfl, rfl⟩
          · exact same ⟨⟨rfl, rfl, rfl⟩, rfl, rfl, rfl⟩
          · exact same (scanFrom_same a _ _)
      | scan w off =>
          rw [hq] at hs
          simp only [Arena.scanStep, Option.some.injEq] at hs
          split_ifs at hs <;> subst hs
          · exact same (scanFrom_same a _ _)
          · exact same ⟨⟨rfl, rfl, rfl⟩, rfl, rfl, rfl⟩
      | scanState w off =>
          rw [hq] at hs
          simp only [Arena.scanStep, Option.some.injEq] at hs
          split_ifs at hs <;> subst hs
          · exact same (scanFrom_same a _ _)
          · exact same ⟨⟨rfl, rfl, rfl⟩, rfl, rfl, rfl⟩
      | scanRetire w off generation =>
          rw [hq] at hs h
          obtain ⟨-, -, hgen, -⟩ := h
          simp only [Arena.scanStep, Option.some.injEq] at hs
          split_ifs at hs <;> subst hs
          · rw [hq] at hplace
            cases hplace
            exact Kept.retireSlot hgen
          · exact Kept.retireSlot hgen
      | scanClaims w off generation probes =>
          rw [hq] at hplace hs
          cases hplace
          cases probes with
          | nil =>
              simp only [Arena.scanStep, Option.some.injEq] at hs
              subst hs
              exact same ⟨⟨rfl, rfl, rfl⟩, rfl, rfl, rfl⟩
          | cons probe probes =>
              simp only [Arena.scanStep, Option.bind_eq_bind, Option.bind_eq_some_iff] at hs
              obtain ⟨inc, -, hs⟩ := hs
              rw [Option.pure_def, Option.some.injEq] at hs
              split_ifs at hs <;> subst hs
              · exact same (scanFrom_same a _ _)
              · exact same ⟨⟨rfl, rfl, rfl⟩, rfl, rfl, rfl⟩
      | copy index d' bytes' =>
          rw [hq] at hplace
          obtain ⟨rfl, rfl⟩ := hplace
          exact absurd hq (hcopy index)
      | terminate after =>
          rw [hq] at hs
          simp only [pagesStep, Option.some.injEq] at hs
          subst hs
          exact same ⟨⟨rfl, rfl, rfl⟩, rfl, rfl, rfl⟩
      | pages call todo after =>
          rw [hq] at hplace hs
          cases call with
          | signal event => exact hplace.elim
          | close =>
              cases hplace
              cases todo with
              | nil =>
                  simp only [pagesStep, Option.some.injEq] at hs
                  subst hs
                  exact same ⟨⟨rfl, rfl, rfl⟩, rfl, rfl, rfl⟩
              | cons i todo =>
                  simp only [pagesStep, Option.some.injEq] at hs
                  subst hs
                  exact same ⟨⟨rfl, rfl, rfl⟩, rfl, rfl, rfl⟩
      | paged call i todo after =>
          rw [hq] at hplace hs
          cases call with
          | signal event => exact hplace.elim
          | close =>
              simp only [pagesStep, Option.bind_eq_bind, Option.bind_eq_some_iff] at hs
              obtain ⟨inc, -, hs⟩ := hs
              split_ifs at hs with hhost hfault
              · exact absurd rfl hfault.1
              · cases hs
                exact same ⟨⟨rfl, rfl, rfl⟩, rfl, rfl, rfl⟩
      | _ =>
          rw [hq] at hplace
          exact hplace.elim
  | _ => exact hC.1.2.1.elim

/-! ### An abandoned reservation -/

/-- **A reservation that is dropped leaves nothing behind.** -/
lemma Filling.abandoned (h : Filling g index d bytes a)
    (hab : (a.reservedSlot g index).step (.abandon g index) = some t)
    (hrel : t.step (.releaseMap g) = some u) : u = a.finish (.reserved index) := by
  have hheld : ((a.reservedSlot g index).shared.maps g).records index =
      { a.record g index with reserved := true, reservation := .held } := by
    have hflag := record_onRecord a g index
      (fun r => { r with reserved := true, reservation := .held }) g index
    rw [if_pos ⟨rfl, rfl⟩] at hflag
    exact hflag
  simp only [Arena.step, hheld, if_true, Option.some.injEq] at hab
  subst hab
  -- the flag is cleared, and the `Arc` that was taken is given back
  have hmap : ∀ map : ResourceMap, (map.records index).reserved = false →
      (map.records index).reservation = .absent →
      ({ ((map.modify index fun r => { r with reserved := true, reservation := .held }).modify
        index fun r => { r with reserved := false, reservation := .absent }) with
          releasing := map.releasing + 1 - 1 } : ResourceMap) = map := by
    rintro ⟨layout, records, releasing, exports, ready⟩ hres habs
    have hrecord : ({ records index with reserved := false, reservation := .absent } : Record) =
        records index := by
      have hself : records index = { records index with
          reserved := (records index).reserved
          reservation := (records index).reservation } := rfl
      rw [show (records index).reserved = false from hres,
        show (records index).reservation = .absent from habs] at hself
      exact hself.symm
    simp only [ResourceMap.modify, Function.update_self, Function.update_idem, hrecord,
      Function.update_eq_self, Nat.add_sub_cancel]
  have hback := hmap (a.shared.maps g) h.unflagged h.unreserved
  simp only [Arena.step] at hrel
  split_ifs at hrel
  cases hrel
  have hmaps : Function.update (Function.update (Function.update a.shared.maps g
      ((a.shared.maps g).modify index fun r => { r with reserved := true, reservation := .held }))
        g { (((a.shared.maps g).modify index fun r =>
          { r with reserved := true, reservation := .held }).modify index fun r =>
            { r with reserved := false, reservation := .absent }) with
          releasing := (a.shared.maps g).releasing + 1 }) g
        { (((a.shared.maps g).modify index fun r =>
          { r with reserved := true, reservation := .held }).modify index fun r =>
            { r with reserved := false, reservation := .absent }) with
          releasing := (a.shared.maps g).releasing + 1 - 1 } = a.shared.maps := by
    rw [hback, Function.update_idem, Function.update_idem, Function.update_eq_self]
  simp only [reservedSlot, onRecord, onMap, finish, Function.update_self]
  have hshared := congrArg (fun maps => { a.shared with maps }) hmaps
  exact congrArg (fun shared => { a with
    shared, producer := { a.producer with pc := .idle, outcome := .reserved index } }) hshared

/-- What a `publish` that stores into its slot is going to return, or has returned. -/
def returns (a : Arena) : Option Outcome :=
  match a.producer.pc with
  | .idle => some a.producer.outcome
  | .describe _ (.finish o) => some o
  | .store _ (.finish o) => some o
  | .ring _ (.finish o) => some o
  | .latest _ (.finish o) => some o
  | .pages _ _ (.finish o) => some o
  | .paged _ _ _ (.finish o) => some o
  | _ => none

/-- A `publish` that has found a slot does not give up. -/
lemma Posting.returns (h : Posting g index a) (hret : a.returns ≠ some .dropped)
    (hidle : a.producer.pc ≠ .idle) (ht : l.threads v) (hs : a.step l = some b) :
    b.returns ≠ some .dropped := by
  cases l with
  | incarnation i l =>
      simp only [Arena.step, Option.bind_eq_bind, Option.bind_eq_some_iff] at hs
      obtain ⟨inc, -, inc', -, heq⟩ := hs
      cases heq
      exact hret
  | producer e =>
      have hplace := h.place
      simp only [Arena.step, producerStep] at hs
      rw [Arena.returns] at hret
      cases hq : a.producer.pc with
      | idle => exact absurd hq hidle
      | describe p after | store p after | ring p after =>
          rw [hq] at hplace hs hret
          obtain ⟨-, o, rfl⟩ := hplace
          cases hs
          exact hret
      | latest p after =>
          rw [hq] at hplace hs hret
          obtain ⟨-, o, rfl⟩ := hplace
          cases hs
          exact hret
      | pages call todo after =>
          rw [hq] at hplace hs hret
          cases call with
          | close => exact hplace.elim
          | signal event =>
              obtain ⟨o, rfl⟩ := hplace
              cases todo with
              | nil =>
                  cases hs
                  exact hret
              | cons i todo =>
                  cases hs
                  exact hret
      | paged call i todo after =>
          rw [hq] at hplace hs hret
          cases call with
          | close => exact hplace.elim
          | signal event =>
              obtain ⟨o, rfl⟩ := hplace
              simp only [pagesStep, Option.bind_eq_bind, Option.bind_eq_some_iff] at hs
              obtain ⟨inc, -, hs⟩ := hs
              split_ifs at hs <;> cases hs
              · rintro ⟨⟩
              · exact hret
      | _ =>
          rw [hq] at hplace
          exact hplace.elim
  | _ => exact ht.elim

/-- Not every slot is occupied when one is chosen. -/
lemma Chooses.not_passed (h : a.Chooses index) : ¬ a.Passed a.layout.resources := by
  obtain ⟨off, hoff, -, -, hfree⟩ := h
  exact fun hall => hfree (hall off hoff)

section Abandoned

variable (hr : Reachable s) (hidle : s.producer.pc = .idle) (hg : s.producer.resources = some g)
  (hcap : (s.shared.maps g).layout.payloadCapacity ≠ 0)
  (hlen : bytes.length ≤ (s.shared.maps g).layout.payloadCapacity)

include hr hidle hg hcap hlen in
/-- **The slot that a `publish` copies into is the one its scan chooses.** -/
lemma chooses_of_copy (hrun : Reaches step (Alone v) (s.called d bytes) a)
    (hpc : a.producer.pc = .copy index d bytes) : a.Chooses index := by
  have hinv : (Searching g d bytes a ∧ Scanned a) ∨ ∃ index, Posting g index a := by
    refine hrun.invariant_with (Q := Reachable)
      (P := fun x => (Searching g d bytes x ∧ Scanned x) ∨ ∃ index, Posting g index x)
      (fun x hx => (hr.tail (step_publish hidle d bytes)).run hx)
      (Or.inl ⟨searching_called hg hcap hlen, trivial⟩) ?_
    rintro x l y hx (⟨hsearch, hscan⟩ | ⟨index, hpost⟩) hC hs
    · by_cases hcopy : ∃ index, x.producer.pc = .copy index d bytes
      · obtain ⟨index, hcopy⟩ := hcopy
        obtain ⟨e, -, rfl⟩ := hC.producer (by rw [hcopy]; rfl) (by rw [hcopy]; rfl)
        exact Or.inr ⟨index, (hsearch.filling hx hcopy).posting hs⟩
      · have hnot : ∀ index, x.producer.pc ≠ .copy index d bytes := fun i h0 => hcopy ⟨i, h0⟩
        exact Or.inl ⟨hsearch.step hx.ledger hC.1 hnot hC.2.1 hs,
          hscan.step hsearch hx.ledger hC hnot hs⟩
    · exact Or.inr ⟨index, hpost.step hC.1 hC.2.1 hs⟩
  rcases hinv with ⟨-, hscan⟩ | ⟨index', hpost⟩
  · rw [Scanned, hpc] at hscan
    exact hscan
  · have hplace := hpost.place
    rw [hpc] at hplace
    exact hplace.elim

/-- **Where the next `publish` is**: it looks for a slot and finds what the last scan has
found, or it publishes the slot that was chosen. -/
inductive Next (g index : ℕ) (d : FrameDescriptor) (bytes : List UInt8) (a x : Arena) : Prop
  | searching : Searching g d bytes x → Scanned x → Kept a x → Next g index d bytes a x
  | posting : Posting g index x → x.returns ≠ some .dropped → Next g index d bytes a x

/-- **One step of the next `publish`.** -/
lemma Next.step {x y : Arena} (h : Next g index d bytes a x) (ha : a.Chooses index)
    (hx : Reachable x) (hC : Still v x l) (hs : x.step l = some y) :
    Next g index d bytes a y := by
  cases h with
  | searching hsearch hscan hkept =>
      by_cases hcopy : ∃ i, x.producer.pc = .copy i d bytes
      · obtain ⟨i, hcopy⟩ := hcopy
        obtain ⟨e, -, rfl⟩ := hC.1.producer (by rw [hcopy]; rfl) (by rw [hcopy]; rfl)
        have hfill := hsearch.filling hx hcopy
        rw [Scanned, hcopy] at hscan
        have hi : i = index := ha.unique ((hkept.chooses i).mp hscan)
        subst hi
        refine .posting (hfill.posting hs) ?_
        rw [hfill.copied e, Option.some.injEq] at hs
        rw [← hs]
        rintro ⟨⟩
      · have hnot : ∀ i, x.producer.pc ≠ .copy i d bytes := fun i h0 => hcopy ⟨i, h0⟩
        exact .searching (hsearch.step hx.ledger hC.1.1 hnot hC.1.2.1 hs)
          (hscan.step hsearch hx.ledger hC.1 hnot hs)
          (hkept.trans (Kept.step hx hsearch hscan hC hnot hs))
  | posting hpost hret =>
      exact .posting (hpost.step hC.1.1 hC.1.2.1 hs) (hpost.returns hret hC.1.1 hC.1.2.1 hs)

/-- The next `publish` takes the slot that was chosen, and does not give up. -/
lemma Next.taken {x : Arena} (h : Next g index d bytes a x) (ha : a.Chooses index) :
    (∀ i, x.producer.pc = .copy i d bytes → i = index) ∧
      (x.producer.pc = .idle → x.producer.outcome ≠ .dropped) := by
  cases h with
  | searching hsearch hscan hkept =>
      refine ⟨fun i hcopy => ?_, fun hidle hout => ?_⟩
      · rw [Scanned, hcopy] at hscan
        exact ha.unique ((hkept.chooses i).mp hscan)
      · rw [Scanned, hidle] at hscan
        exact ((hkept.chooses index).mpr ha).not_passed (hscan hout)
  | posting hpost hret =>
      refine ⟨fun i hcopy => ?_, fun hidle hout => hret ?_⟩
      · have hplace := hpost.place
        rw [hcopy] at hplace
        exact hplace.elim
      · rw [Arena.returns, hidle, hout]

end Abandoned

/-- **Writing in place is publishing a copy.** Run alone on a CPU arena with storage, the two
ways reach the same arenas. A reservation that is abandoned is for the slot that `publish`
would have copied into, and the next `publish` takes this slot. -/
theorem in_place_eq_copy {w : ℕ} (hr : Reachable s) (hcpu : s.shared.native = false)
    (hidle : s.producer.pc = .idle) (hg : s.producer.resources = some g)
    (hcap : (s.shared.maps g).layout.payloadCapacity ≠ 0)
    (hlen : bytes.length ≤ (s.shared.maps g).layout.payloadCapacity) :
    (∀ t, Copies v d bytes s t ↔ InPlace v g d bytes s t) ∧
      ∀ t₂ t₃ t₄ index, Reserves v s t₂ → t₂.producer.outcome = .reserved index →
        t₂.step (.abandon g index) = some t₃ → t₃.step (.releaseMap g) = some t₄ →
        (∃ a, Reaches step (Alone v) (s.called d bytes) a ∧
          a.producer.pc = .copy index d bytes) ∧
        ∀ x, Reaches step (Still w) (t₄.called d bytes) x →
          (∀ i, x.producer.pc = .copy i d bytes → i = index) ∧
            (x.producer.pc = .idle → x.producer.outcome ≠ .dropped) := by
  refine ⟨fun t => copies_iff_inPlace hr hcpu hidle hg hcap hlen, ?_⟩
  rintro t₂ t₃ t₄ index ⟨t₁, hcall, hrun, ht₂⟩ hout hab hrel
  cases (step_reserve hcpu hidle d bytes).symm.trans hcall
  have hstart : Searching g d bytes (s.called d bytes) := searching_called hg hcap hlen
  have hreserved : Reserved v g d bytes s t₂ :=
    hrun.invariant (P := Reserved v g d bytes s) (.searching _ hstart .refl rfl)
      fun a l b hp hC hs => hp.step hr hidle hC hs
  cases hreserved with
  | searching a hsearch hrun' ha =>
      subst ha
      have ha : a.producer.pc = .idle := ((reserving_same a.producer.pc).1).mp ht₂
      exact absurd hout ((hsearch.returned ha).1 index)
  | filling a index' hfill hrun' ha =>
      subst ha
      cases hout
      have hchosen := chooses_of_copy hr hidle hg hcap hlen hrun' hfill.copy
      have ht₄ := hfill.abandoned hab hrel
      subst ht₄
      have hkept : Kept a ((a.finish (.reserved index)).called d bytes) :=
        Kept.of_same ⟨rfl, rfl, rfl⟩ rfl rfl fun _ _ => Iff.rfl
      have hcalled : Searching g d bytes ((a.finish (.reserved index)).called d bytes) :=
        searching_called hfill.resources hfill.nonzero hfill.room
      have ht : Reachable ((a.finish (.reserved index)).called d bytes) :=
        (((hr.tail hcall).run hrun).tail hab).tail hrel |>.tail (step_publish rfl d bytes)
      refine ⟨⟨a, hrun', hfill.copy⟩, fun x hx => ?_⟩
      have hnext : Next g index d bytes a x :=
        hx.invariant_with (P := Next g index d bytes a) (Q := Reachable)
          (fun y hy => ht.run hy) (.searching hcalled trivial hkept)
          fun y l z hy hp hC hs => hp.step hchosen hy hC hs
      exact hnext.taken hchosen

/-- One frame is published, and the producer is idle. -/
def onePublished : List Label :=
  .call (.publish (.cpu {} [7])) :: List.replicate 14 (.producer {})

/-- The producer's thread alone, at one clock value. -/
def ticks (a : Arena) (l : Label) : Bool :=
  decide (a.producer.pc ≠ .idle) && decide (l = .producer { value := 5 })

theorem in_place_eq_copy_pair : ∃ s t₂ t₃ t₄, Reachable s ∧ s.shared.native = false ∧
    s.producer.cursor = 1 ∧ Reserves 5 s t₂ ∧ t₂.producer.outcome = .reserved 1 ∧
    t₂.step (.abandon 1 1) = some t₃ ∧ t₃.step (.releaseMap 1) = some t₄ ∧
    (∀ t, Copies 5 {} [1, 2] s t ↔ InPlace 5 1 {} [1, 2] s t) ∧
    ∀ x, Reaches step (Still 6) (t₄.called {} [1, 2]) x →
      ∀ i, x.producer.pc = .copy i {} [1, 2] → i = 1 := by
  have hrun : ((script 4096 pairConfig 0 false onePublished).bind fun s =>
      (s.step (.call .reserve)).bind fun t₁ =>
        (execIn step ticks t₁ (List.replicate 9 (.producer { value := 5 }))).bind fun t₂ =>
          (t₂.step (.abandon 1 1)).bind fun t₃ => (t₃.step (.releaseMap 1)).map fun _ =>
            decide (s.shared.native = false ∧ s.producer.pc = .idle ∧
              s.producer.resources = some 1 ∧ (s.shared.maps 1).layout.payloadCapacity = 4 ∧
              s.producer.cursor = 1 ∧ t₂.producer.pc = .idle ∧
              t₂.producer.outcome = .reserved 1)) = some true := by
    decide +kernel
  obtain ⟨s, hs, hrun⟩ := Option.bind_eq_some_iff.mp hrun
  obtain ⟨t₁, hcall, hrun⟩ := Option.bind_eq_some_iff.mp hrun
  obtain ⟨t₂, hexec, hrun⟩ := Option.bind_eq_some_iff.mp hrun
  obtain ⟨t₃, hab, hrun⟩ := Option.bind_eq_some_iff.mp hrun
  obtain ⟨t₄, hrel, hrun⟩ := Option.map_eq_some_iff.mp hrun
  obtain ⟨hcpu, hidle, hres, hcap, hcursor, ht₂, hout⟩ := of_decide_eq_true hrun
  have hreserves : Reserves 5 s t₂ := by
    refine ⟨t₁, hcall, Reaches.of_execIn (B := ticks) (fun a l hB => ?_) hexec, ht₂⟩
    simp only [ticks, Bool.and_eq_true, decide_eq_true_eq] at hB
    obtain ⟨hpc, rfl⟩ := hB
    exact ⟨hpc, rfl, trivial⟩
  have hlen : ([1, 2] : List UInt8).length ≤ (s.shared.maps 1).layout.payloadCapacity := by
    rw [hcap]
    decide
  have hmain := in_place_eq_copy (v := 5) (w := 6) (d := {}) (.of_script hs) hcpu hidle hres
    (by rw [hcap]; decide) hlen
  exact ⟨s, t₂, t₃, t₄, .of_script hs, hcpu, hcursor, hreserves, hout, hab, hrel, hmain.1,
    fun x hx => ((hmain.2 t₂ t₃ t₄ 1 hreserves hout hab hrel).2 x hx).1⟩

end Arena

end Jackstay.Acquisition
