import Jackstay.Acquisition.Arena.Tracking

/-!
Leases are exclusive: nobody writes a slot that somebody reads.

The producer retires a slot (it stores an even state word) before it scans the claims;
a consumer publishes its claim before it validates the state word. Whichever of the two
loads comes last sees the other's store.

* `Arena.Pins`: a claim whose generation validation has succeeded. `Acts.pins`: a pin is
  old, or the state word it has read is the published one.
* `Arena.Free`: a slot with an even state word and no pin. What the producer has
  scanned, what a reservation holds and what is written is free.
* `Arena.Changes`: what a step may do to a slot. `Exclusive.changes`: a step changes the
  descriptor or the bytes of free slots and of fresh allocations only.
-/

namespace Jackstay.Acquisition

namespace Arena

/-- The record of a slot. -/
def record (s : Arena) (g index : ℕ) : Record := (s.shared.maps g).records index

/-- A claim whose generation validation has succeeded. -/
def Pins (s : Arena) (i k : ℕ) (u : Use) : Prop :=
  ∃ inc, s.incarnations i = some inc ∧ inc.uses k = some u ∧ u.validated = true

/-- The slot has the descriptor and the bytes that were published under a cursor. -/
def Shows (s : Arena) (g index c : ℕ) : Prop :=
  ∃ p, s.log c = some p ∧ p.generation = g ∧ p.index = index ∧
    (s.record g index).descriptor = p.descriptor ∧
    (s.record g index).payload.take p.descriptor.payloadLen = p.bytes

/-- Nobody reads the slot, and nobody can begin to. -/
structure Free (s : Arena) (g index : ℕ) : Prop where
  even : (s.record g index).state % 2 = 0
  unpinned : ∀ i k u, s.Pins i k u → ¬ (u.generation = g ∧ u.index = index)

/-- A slot that the producer, and no holder of a reservation, may write. -/
structure Owned (s : Arena) (g index : ℕ) : Prop extends Free s g index where
  unheld : (s.record g index).reservation ≠ .held

/-- **What a step may do to a slot.** -/
inductive Changes (s s' : Arena) (g index : ℕ) : Prop
  | kept : (s'.record g index).descriptor = (s.record g index).descriptor →
      (s'.record g index).payload = (s.record g index).payload →
      (s'.record g index).state = (s.record g index).state ∨
        (s'.record g index).state = 2 * ((s.record g index).state / 2) → Changes s s' g index
  | written : s.Free g index → (s'.record g index).state = (s.record g index).state →
      Changes s s' g index
  | published (c : ℕ) : s.Free g index → (s'.record g index).state = 2 * c + 1 →
      s'.Shows g index c → Changes s s' g index
  | installed : (∀ c p, s.log c = some p → p.generation ≠ g) →
      (s'.record g index).state = 0 → Changes s s' g index

end Arena

/-- What the producer's place rests on. -/
def Pc.Rests (s : Arena) : Pc → Prop
  | .scanState _ off => (s.record s.current (s.scanIndex off)).reservation ≠ .held
  | .scanRetire _ off generation =>
      (s.record s.current (s.scanIndex off)).reservation ≠ .held ∧
        (s.record s.current (s.scanIndex off)).state / 2 = generation
  | .scanClaims _ off generation probes =>
      (s.record s.current (s.scanIndex off)).reservation ≠ .held ∧
        (s.record s.current (s.scanIndex off)).state = 2 * generation ∧
        ∀ i k u, s.Pins i k u → u.generation = s.current ∧ u.index = s.scanIndex off →
          (i, k) ∈ probes
  | .reserveFlag index => s.Owned s.current index
  | .prepare off => s.Owned s.current (s.scanIndex off)
  | .copy index _ _ => s.Owned s.current index
  | .commit g index _ => s.Owned g index
  | .describe p _ => s.Owned p.generation p.index ∧
      p.generation < s.producer.admission.nextAllocation ∧
      (s.record p.generation p.index).payload.take p.descriptor.payloadLen = p.bytes
  | .store p _ => s.Owned p.generation p.index ∧
      p.generation < s.producer.admission.nextAllocation ∧
      (s.record p.generation p.index).payload.take p.descriptor.payloadLen = p.bytes ∧
      (s.record p.generation p.index).descriptor = p.descriptor
  | .unpublish _ index state => (s.record s.current index).state = state
  | _ => True

/-- **The invariant of slots and claims.** -/
structure Exclusive (s : Arena) : Prop where
  published : ∀ g index, (s.record g index).state % 2 = 1 →
    s.Shows g index ((s.record g index).state / 2)
  pinned : ∀ i k u, s.Pins i k u → s.Shows u.generation u.index u.cursor ∧
    (s.record u.generation u.index).state / 2 = u.cursor
  held : ∀ g index, (s.record g index).reservation = .held → s.Free g index
  flagged : ∀ g index, (s.record g index).reservation ≠ .absent →
    (s.record g index).reserved = true
  fresh : ∀ c p, s.log c = some p → p.generation < s.producer.admission.nextAllocation
  rests : s.producer.pc.Rests s

/-! ### Records -/

@[simp] lemma FrameDescriptor.stamp_payloadLen (d : FrameDescriptor) (hostTimeNs : ℕ) :
    (d.stamp hostTimeNs).payloadLen = d.payloadLen := by
  rw [stamp]
  split_ifs <;> rfl

namespace Arena

variable {s s' : Arena}

lemma record_onMap (s : Arena) (g : ℕ) (f : ResourceMap → ResourceMap) (g' index : ℕ) :
    (s.onMap g f).record g' index =
      if g' = g then (f (s.shared.maps g)).records index else s.record g' index := by
  simp only [record, onMap, Function.update_apply]
  split_ifs <;> rfl

lemma record_of_records (s : Arena) (g : ℕ) (f : ResourceMap → ResourceMap)
    (hf : ∀ map, (f map).records = map.records) (g' index : ℕ) :
    (s.onMap g f).record g' index = s.record g' index := by
  rw [record_onMap]
  split_ifs with hg
  · rw [hf, hg]
    rfl
  · rfl

lemma record_modify (s : Arena) (g index : ℕ) (f : Record → Record)
    (F : ResourceMap → ResourceMap) (hF : ∀ map, (F map).records = (map.modify index f).records)
    (g' index' : ℕ) : (s.onMap g F).record g' index' =
      if g' = g ∧ index' = index then f (s.record g index) else s.record g' index' := by
  rw [record_onMap]
  by_cases hg : g' = g
  · subst hg
    simp only [if_true, hF, ResourceMap.modify, Function.update_apply, true_and]
    rfl
  · rw [if_neg hg, if_neg (fun h => hg h.1)]

lemma scanIndex_onMap (s : Arena) (g : ℕ) (f : ResourceMap → ResourceMap)
    (hf : ∀ map, (f map).layout = map.layout) (off : ℕ) :
    (s.onMap g f).scanIndex off = s.scanIndex off := by
  simp only [scanIndex, layout]
  rw [onMap_layout s g f hf]
  rfl

/-! ### Pins -/

/-- **A pin is old, or has just been validated** against the state word. -/
lemma Acts.pins (hr : Reachable s) (hs : s.Acts s') {i k : ℕ} {u' : Use} (h : s'.Pins i k u') :
    (∃ u, s.Pins i k u ∧ u'.cursor = u.cursor ∧ u'.generation = u.generation ∧
      u'.index = u.index) ∨
    (s'.shared = s.shared ∧
      (s.record u'.generation u'.index).state = 2 * u'.cursor + 1) := by
  obtain ⟨inc', hi', hu', hv'⟩ := h
  have old : s.incarnations i = some inc' → ∃ u, s.Pins i k u ∧ u'.cursor = u.cursor ∧
      u'.generation = u.generation ∧ u'.index = u.index :=
    fun hi => ⟨u', ⟨inc', hi, hu', hv'⟩, rfl, rfl, rfl⟩
  cases hs.local hr.ledger with
  | same heq => exact Or.inl (old (by rw [← heq]; exact hi'))
  | admitted j frames remote g hj _ _ _ _ heq =>
      rw [heq] at hi'
      by_cases hij : i = j
      · subst hij
        rw [Function.update_self, Option.some.injEq] at hi'
        subst hi'
        cases hu'
      · rw [Function.update_of_ne hij] at hi'
        exact Or.inl (old hi')
  | moved j inc jnc' hj hm hshared heq =>
      rw [heq] at hi'
      by_cases hij : i = j
      · subst hij
        rw [Function.update_self, Option.some.injEq] at hi'
        subst hi'
        have huse := hm.uses (hr.handoffs hj) k
        rw [hu'] at huse
        generalize hx : inc.uses k = x at huse
        have pin : ∀ u : Use, x = some u → u.validated = true → u'.cursor = u.cursor →
            u'.generation = u.generation → u'.index = u.index →
            ∃ u, s.Pins i k u ∧ u'.cursor = u.cursor ∧ u'.generation = u.generation ∧
              u'.index = u.index :=
          fun u h0 hv h1 h2 h3 => ⟨u, ⟨inc, hj, hx.trans h0, hv⟩, h1, h2, h3⟩
        cases huse with
        | same => exact Or.inl (pin u' rfl hv' rfl rfl rfl)
        | claimed => cases hv'
        | validate u _ _ hstate => exact Or.inr ⟨hshared, hstate⟩
        | miss u => exact Or.inl (pin u rfl hv' rfl rfl rfl)
        | refuse u => exact Or.inl (pin u rfl hv' rfl rfl rfl)
        | next u => exact Or.inl (pin u rfl hv' rfl rfl rfl)
        | lease u => exact Or.inl (pin u rfl hv' rfl rfl rfl)
        | release u => exact Or.inl (pin u rfl hv' rfl rfl rfl)
        | returnPending u => exact Or.inl (pin u rfl hv' rfl rfl rfl)
        | handing u => exact Or.inl (pin u rfl hv' rfl rfl rfl)
        | deferred u => exact Or.inl (pin u rfl hv' rfl rfl rfl)
      · rw [Function.update_of_ne hij] at hi'
        exact Or.inl (old hi')

/-- A slot stays free while its state word is even. -/
lemma Free.acts {g index : ℕ} (h : s.Free g index) (hr : Reachable s) (hs : s.Acts s')
    (heven : (s'.record g index).state % 2 = 0) : s'.Free g index := by
  refine ⟨heven, fun i k u' hpin hslot => ?_⟩
  rcases hs.pins hr hpin with ⟨u, hu, -, hg, hidx⟩ | ⟨-, hstate⟩
  · exact h.unpinned i k u hu ⟨hg ▸ hslot.1, hidx ▸ hslot.2⟩
  · rw [hslot.1, hslot.2] at hstate
    have := h.even
    omega

lemma Owned.acts {g index : ℕ} (h : s.Owned g index) (hr : Reachable s) (hs : s.Acts s')
    (heven : (s'.record g index).state % 2 = 0)
    (hunheld : (s'.record g index).reservation ≠ .held) : s'.Owned g index :=
  ⟨h.toFree.acts hr hs heven, hunheld⟩

lemma Shows.mono {g index c : ℕ} (h : s.Shows g index c)
    (hlog : ∀ p, s.log c = some p → s'.log c = some p)
    (hd : (s'.record g index).descriptor = (s.record g index).descriptor)
    (hp : (s'.record g index).payload = (s.record g index).payload) : s'.Shows g index c := by
  obtain ⟨p, hlogged, hg, hidx, hdesc, hbytes⟩ := h
  exact ⟨p, hlog p hlogged, hg, hidx, hd.trans hdesc, by rw [hp]; exact hbytes⟩

end Arena

namespace Exclusive

variable {s s' : Arena}

/-- **A slot that is read is not written.** -/
lemma shows_of_changes (h : Exclusive s) {i k : ℕ} {u : Use} (hpin : s.Pins i k u)
    (hch : s.Changes s' u.generation u.index) :
    (s'.record u.generation u.index).descriptor =
        (s.record u.generation u.index).descriptor ∧
      (s'.record u.generation u.index).payload = (s.record u.generation u.index).payload ∧
      (s'.record u.generation u.index).state / 2 = u.cursor := by
  obtain ⟨⟨p, hlog, hg, -⟩, hstate⟩ := h.pinned i k u hpin
  cases hch with
  | kept hd hp hst => exact ⟨hd, hp, by omega⟩
  | written hfree => exact absurd ⟨rfl, rfl⟩ (hfree.unpinned i k u hpin)
  | published c hfree => exact absurd ⟨rfl, rfl⟩ (hfree.unpinned i k u hpin)
  | installed hnone => exact absurd hg (hnone u.cursor p hlog)

/-- What the slots show after the changes of a step. -/
lemma changed (h : Exclusive s) (hr : Arena.Reachable s) (hs : s.Acts s')
    (hch : ∀ g index, s.Changes s' g index) :
    (∀ g index, (s'.record g index).state % 2 = 1 →
      s'.Shows g index ((s'.record g index).state / 2)) ∧
    ∀ i k u, s'.Pins i k u → s'.Shows u.generation u.index u.cursor ∧
      (s'.record u.generation u.index).state / 2 = u.cursor := by
  have hmono : ∀ c p, s.log c = some p → s'.log c = some p :=
    fun c p hp => hs.log_mono hr.ledger hr.published hp
  constructor
  · intro g index hodd
    cases hch g index with
    | kept hd hp hst =>
        have hsame : (s'.record g index).state = (s.record g index).state := by omega
        rw [hsame] at hodd ⊢
        exact (h.published g index hodd).mono (hmono _) hd hp
    | written hfree hst =>
        have := hfree.even
        omega
    | published c _ hst hshows =>
        have hc : (s'.record g index).state / 2 = c := by omega
        rw [hc]
        exact hshows
    | installed _ hst => omega
  · intro i k u' hpin'
    rcases hs.pins hr hpin' with ⟨u, hpin, hc, hg, hidx⟩ | ⟨hshared, hstate⟩
    · obtain ⟨hd, hp, hst⟩ := h.shows_of_changes hpin (hch _ _)
      rw [hc, hg, hidx]
      exact ⟨(h.pinned i k u hpin).1.mono (hmono _) hd hp, hst⟩
    · have hrec : ∀ g index, s'.record g index = s.record g index := by
        intro g index
        rw [Arena.record, hshared]
        rfl
      have hshows := h.published u'.generation u'.index (by omega)
      have hc : (s.record u'.generation u'.index).state / 2 = u'.cursor := by omega
      rw [hc] at hshows
      refine ⟨hshows.mono (hmono _) (by rw [hrec]) (by rw [hrec]), ?_⟩
      rw [hrec]
      exact hc

/-- What the producer rests on stays when others move: they change neither the state
words nor the slots that no reservation holds. -/
lemma rests_of_others (hr : Arena.Reachable s) (hs : s.Acts s') {pc : Pc} (h : pc.Rests s)
    (hcurrent : s'.current = s.current) (hscan : ∀ off, s'.scanIndex off = s.scanIndex off)
    (hnext : s'.producer.admission.nextAllocation = s.producer.admission.nextAllocation)
    (hstate : ∀ g index, (s'.record g index).state = (s.record g index).state)
    (hrec : ∀ g index, (s.record g index).reservation ≠ .held →
      s'.record g index = s.record g index) : pc.Rests s' := by
  have owned : ∀ g index, s.Owned g index → s'.Owned g index := by
    intro g index hown
    have hsame := hrec g index hown.unheld
    exact hown.acts hr hs (by rw [hsame]; exact hown.even) (by rw [hsame]; exact hown.unheld)
  cases pc with
  | scanState w off =>
      simp only [Pc.Rests, hcurrent, hscan] at h ⊢
      rw [hrec _ _ h]
      exact h
  | scanRetire w off generation =>
      simp only [Pc.Rests, hcurrent, hscan] at h ⊢
      rw [hrec _ _ h.1]
      exact h
  | scanClaims w off generation probes =>
      simp only [Pc.Rests, hcurrent, hscan] at h ⊢
      rw [hrec _ _ h.1]
      refine ⟨h.1, h.2.1, fun i k u' hpin hslot => ?_⟩
      rcases hs.pins hr hpin with ⟨u, hu, -, hg, hidx⟩ | ⟨-, hodd⟩
      · exact h.2.2 i k u hu (by rw [← hg, ← hidx]; exact hslot)
      · rw [hslot.1, hslot.2, h.2.1] at hodd
        omega
  | reserveFlag index =>
      simp only [Pc.Rests, hcurrent] at h ⊢
      exact owned _ _ h
  | prepare off =>
      simp only [Pc.Rests, hcurrent, hscan] at h ⊢
      exact owned _ _ h
  | copy index descriptor bytes =>
      simp only [Pc.Rests, hcurrent] at h ⊢
      exact owned _ _ h
  | commit g index descriptor => exact owned _ _ h
  | describe p after =>
      obtain ⟨hown, hlt, hbytes⟩ := h
      refine ⟨owned _ _ hown, by omega, ?_⟩
      rw [hrec _ _ hown.unheld]
      exact hbytes
  | store p after =>
      obtain ⟨hown, hlt, hbytes, hdesc⟩ := h
      refine ⟨owned _ _ hown, by omega, ?_⟩
      rw [hrec _ _ hown.unheld]
      exact ⟨hbytes, hdesc⟩
  | unpublish layout index state =>
      simp only [Pc.Rests, hcurrent] at h ⊢
      rw [hstate]
      exact h
  | _ => trivial

/-- The same, when the holder of a reservation changes its slot. -/
lemma rests_of_reserved (hr : Arena.Reachable s) (hs : s.Acts s') {pc : Pc} (h : pc.Rests s)
    {g index : ℕ} (f : Record → Record) (hres : (s.record g index).reservation = .held)
    (hrec : ∀ g' index', s'.record g' index' =
      if g' = g ∧ index' = index then f (s.record g index) else s.record g' index')
    (hstate : (f (s.record g index)).state = (s.record g index).state)
    (hp : s'.producer = s.producer) (hscan : ∀ off, s'.scanIndex off = s.scanIndex off) :
    pc.Rests s' := by
  refine rests_of_others hr hs h (by rw [Arena.current, hp]; rfl) hscan (by rw [hp])
    (fun g' index' => ?_) fun g' index' hne => ?_
  · rw [hrec]
    split_ifs with hslot
    · rw [hslot.1, hslot.2, hstate]
    · rfl
  · rw [hrec, if_neg]
    rintro ⟨rfl, rfl⟩
    exact hne hres

/-- The installed allocation has an identifier that was issued. -/
lemma current_lt (hl : Ledger s) : s.current < s.producer.admission.nextAllocation := by
  have hpos := hl.accounts.allocation_pos
  cases hres : s.producer.resources with
  | none =>
      simp only [Arena.current, hres, Option.getD_none]
      omega
  | some g =>
      simp only [Arena.current, hres, Option.getD_some]
      by_contra hge
      exact (hl.current g hres).2.1 (hl.accounts.allocation_fresh g (by omega))

/-- What the producer reads on its way. -/
lemma rests_of_flows (h : Exclusive s) (hr : Arena.Reachable s) {pc : Pc}
    (hf : s.producer.pc.Flows s pc) : pc.Rests s := by
  have hrests := h.rests
  have scans : ∀ w off, (Pc.scans s w off).Rests s := by
    intro w off
    rw [Pc.scans]
    split_ifs <;> trivial
  generalize s.producer.pc = pc₀ at hf hrests
  cases hf with
  | publish => exact scans _ _
  | reserve => exact scans _ _
  | reserved => exact scans _ _
  | retained => exact scans _ _
  | claimed => exact scans _ _
  | prepareSkipped => exact scans _ _
  | unreserved w off hflag =>
      intro hheld
      have hset := h.flagged s.current (s.scanIndex off) (by rw [hheld]; simp)
      rw [Arena.record, hflag] at hset
      cases hset
  | stale w off => exact ⟨hrests, rfl⟩
  | unclaimed w off generation i k probes inc hi hclaim =>
      obtain ⟨hunheld, hstate, hcover⟩ := hrests
      refine ⟨hunheld, hstate, fun j l u hpin hslot => ?_⟩
      rcases List.mem_cons.mp (hcover j l u hpin hslot) with heq | hmem
      · -- the pin on the slot at hand has the claim word that was just loaded
        exfalso
        cases heq
        obtain ⟨-, hcursor⟩ := h.pinned _ _ u hpin
        obtain ⟨jnc, hj, hu, -⟩ := hpin
        rw [hi, Option.some.injEq] at hj
        subst hj
        have hword := ((hr.handoffs hi).used _ u hu).1
        rw [hslot.1, hslot.2] at hcursor
        omega
      · exact hmem
  | found w off generation =>
      obtain ⟨hunheld, hstate, hcover⟩ := hrests
      have hown : s.Owned s.current (s.scanIndex off) :=
        ⟨⟨by omega, fun i k u hpin hslot => by cases hcover i k u hpin hslot⟩, hunheld⟩
      cases w with
      | publish source => cases source <;> exact hown
      | reserve => exact hown
  | commit g index descriptor hostTimeNs _ hres =>
      refine ⟨hrests, ?_, ?_⟩
      · have hlt := current_lt hr.ledger
        rw [Arena.current, hres] at hlt
        exact hlt
      · simp only [Arena.committed, FrameDescriptor.stamp_payloadLen]
        rfl
  | unpublishLoad => exact rfl
  | _ => trivial

/-- A step that keeps the slots' reservations, or reserves free ones. -/
lemma assemble (h : Exclusive s) (hr : Arena.Reachable s) (hs : s.Acts s')
    (hch : ∀ g index, s.Changes s' g index)
    (hheld : ∀ g index, (s'.record g index).reservation = .held →
      s.Free g index ∧ (s'.record g index).state % 2 = 0)
    (hflag : ∀ g index, (s'.record g index).reservation ≠ .absent →
      (s'.record g index).reserved = true)
    (hlog : ∀ c p, s'.log c = some p → s.log c = some p ∨
      p.generation < s.producer.admission.nextAllocation)
    (hrests : s'.producer.pc.Rests s') : (∀ g index, s.Changes s' g index) ∧ Exclusive s' := by
  obtain ⟨hpublished, hpinned⟩ := h.changed hr hs hch
  refine ⟨hch, hpublished, hpinned, fun g index hres => ?_, hflag, fun c p hp => ?_, hrests⟩
  · obtain ⟨hfree, heven⟩ := hheld g index hres
    exact hfree.acts hr hs heven
  · have hle := hs.nextAllocation_le hr.ledger
    rcases hlog c p hp with hold | hlt
    · have := h.fresh c p hold
      omega
    · omega

/-- A step that changes no slot. -/
lemma quiet (h : Exclusive s) (hr : Arena.Reachable s) (hs : s.Acts s')
    (hrec : ∀ g index, s'.record g index = s.record g index) (hlog : s'.log = s.log)
    (hrests : s'.producer.pc.Rests s') : (∀ g index, s.Changes s' g index) ∧ Exclusive s' := by
  refine h.assemble hr hs (fun g index => ?_) (fun g index hheld => ?_) (fun g index hres => ?_)
    (fun c p hp => Or.inl (hlog ▸ hp)) hrests
  · exact .kept (by rw [hrec]) (by rw [hrec]) (Or.inl (by rw [hrec]))
  · rw [hrec] at hheld ⊢
    exact ⟨h.held g index hheld, (h.held g index hheld).even⟩
  · rw [hrec] at hres ⊢
    exact h.flagged g index hres

/-- A step that changes one slot. -/
lemma modified (h : Exclusive s) (hr : Arena.Reachable s) (hs : s.Acts s') {g index : ℕ}
    (f : Record → Record)
    (hrec : ∀ g' index', s'.record g' index' =
      if g' = g ∧ index' = index then f (s.record g index) else s.record g' index')
    (hch : s'.record g index = f (s.record g index) → s.Changes s' g index)
    (hheld : (f (s.record g index)).reservation = .held →
      s.Free g index ∧ (f (s.record g index)).state % 2 = 0)
    (hflag : (f (s.record g index)).reservation ≠ .absent →
      (f (s.record g index)).reserved = true)
    (hlog : ∀ c p, s'.log c = some p → s.log c = some p ∨
      p.generation < s.producer.admission.nextAllocation)
    (hrests : s'.record g index = f (s.record g index) → s'.producer.pc.Rests s') :
    (∀ g index, s.Changes s' g index) ∧ Exclusive s' := by
  have other : ∀ g' index', ¬ (g' = g ∧ index' = index) →
      s'.record g' index' = s.record g' index' := by
    intro g' index' hne
    rw [hrec, if_neg hne]
  have this : s'.record g index = f (s.record g index) := by rw [hrec, if_pos ⟨rfl, rfl⟩]
  refine h.assemble hr hs (fun g' index' => ?_) (fun g' index' hres => ?_)
    (fun g' index' hres => ?_) hlog (hrests this)
  · by_cases hslot : g' = g ∧ index' = index
    · obtain ⟨rfl, rfl⟩ := hslot
      exact hch this
    · have hsame := other g' index' hslot
      exact .kept (by rw [hsame]) (by rw [hsame]) (Or.inl (by rw [hsame]))
  · by_cases hslot : g' = g ∧ index' = index
    · obtain ⟨rfl, rfl⟩ := hslot
      rw [this] at hres ⊢
      exact hheld hres
    · rw [other g' index' hslot] at hres ⊢
      exact ⟨h.held g' index' hres, (h.held g' index' hres).even⟩
  · by_cases hslot : g' = g ∧ index' = index
    · obtain ⟨rfl, rfl⟩ := hslot
      rw [this] at hres ⊢
      exact hflag hres
    · rw [other g' index' hslot] at hres ⊢
      exact h.flagged g' index' hres

/-- A step on the words of one slot that retires it or leaves its state. -/
lemma restated (h : Exclusive s) (hr : Arena.Reachable s) (hs : s.Acts s') {g index : ℕ}
    (f : Record → Record)
    (hrec : ∀ g' index', s'.record g' index' =
      if g' = g ∧ index' = index then f (s.record g index) else s.record g' index')
    (hd : (f (s.record g index)).descriptor = (s.record g index).descriptor)
    (hp : (f (s.record g index)).payload = (s.record g index).payload)
    (hst : (f (s.record g index)).state = (s.record g index).state ∨
      (f (s.record g index)).state = 2 * ((s.record g index).state / 2))
    (hheld : (f (s.record g index)).reservation = .held → s.Free g index)
    (hflag : (f (s.record g index)).reservation ≠ .absent →
      (f (s.record g index)).reserved = true)
    (hlog : s'.log = s.log)
    (hrests : s'.record g index = f (s.record g index) → s'.producer.pc.Rests s') :
    (∀ g index, s.Changes s' g index) ∧ Exclusive s' := by
  refine h.modified hr hs f hrec (fun this => .kept ?_ ?_ ?_) (fun hres => ?_) hflag
    (fun c p hc => Or.inl (hlog ▸ hc)) hrests
  · rw [this, hd]
  · rw [this, hp]
  · rw [this]
    exact hst
  · have heven := (hheld hres).even
    exact ⟨hheld hres, by omega⟩

/-- A step that writes the bytes or the descriptor of a free slot. -/
lemma rewritten (h : Exclusive s) (hr : Arena.Reachable s) (hs : s.Acts s') {g index : ℕ}
    (f : Record → Record)
    (hrec : ∀ g' index', s'.record g' index' =
      if g' = g ∧ index' = index then f (s.record g index) else s.record g' index')
    (hfree : s.Free g index) (hst : (f (s.record g index)).state = (s.record g index).state)
    (hres : (f (s.record g index)).reservation = (s.record g index).reservation)
    (hflag : (f (s.record g index)).reserved = (s.record g index).reserved)
    (hlog : s'.log = s.log)
    (hrests : s'.record g index = f (s.record g index) → s'.producer.pc.Rests s') :
    (∀ g index, s.Changes s' g index) ∧ Exclusive s' := by
  refine h.modified hr hs f hrec (fun this => .written hfree (by rw [this, hst]))
    (fun _ => ⟨hfree, ?_⟩) (fun hne => ?_) (fun c p hc => Or.inl (hlog ▸ hc)) hrests
  · rw [hst]
    exact hfree.even
  · rw [hflag]
    exact h.flagged g index (hres ▸ hne)

/-- What the producer owns stays its own while it writes. -/
lemma owned_of_written (hr : Arena.Reachable s) (hs : s.Acts s') {g index : ℕ} {r : Record}
    (hown : s.Owned g index) (this : s'.record g index = r)
    (hst : r.state = (s.record g index).state)
    (hres : r.reservation = (s.record g index).reservation) : s'.Owned g index := by
  refine hown.acts hr hs ?_ ?_
  · rw [this, hst]
    exact hown.even
  · rw [this, hres]
    exact hown.unheld

/-- Between calls, in `poll_cleanup` and around the stores of a reconfiguration the
producer rests on nothing. -/
lemma rests_of_idles {pc : Pc} (h : pc.idles) : pc.Rests s := by
  cases pc <;> trivial

/-- Every pin is on a claim slot that the scan loads. -/
lemma mem_claimProbes (hr : Arena.Reachable s) {i k : ℕ} {u : Use} (hpin : s.Pins i k u) :
    (i, k) ∈ s.claimProbes := by
  obtain ⟨inc, hi, hu, -⟩ := hpin
  have hclaims : i ∈ s.producer.claims := by
    by_contra hnot
    have hnone := (hr.tracking.left i inc hi hnot (k + 1)).empty k (Nat.lt_succ_self k)
    rw [hnone] at hu
    cases hu
  refine List.mem_flatMap.mpr ⟨i, hclaims, ?_⟩
  rw [hi]
  exact List.mem_map.mpr ⟨k, List.mem_range.mpr ((hr.handoffs hi).lt_frames hu), rfl⟩

/-- **The slot is retired before its claims are scanned**: from here on every pin on it
is on a claim slot that the scan has still to load. -/
lemma rests_of_retired (h : Exclusive s) (hr : Arena.Reachable s) {w : Writer}
    {off generation : ℕ}
    (hunheld : (s.record s.current (s.scanIndex off)).reservation ≠ .held)
    (hstate : (s.record s.current (s.scanIndex off)).state / 2 = generation)
    (hinc : s'.incarnations = s.incarnations) (hcurrent : s'.current = s.current)
    (hscan : s'.scanIndex off = s.scanIndex off)
    (this : s'.record s.current (s.scanIndex off) =
      { s.record s.current (s.scanIndex off) with state := 2 * generation }) :
    (if generation = 0 then Pc.finds s off w
      else .scanClaims w off generation s.claimProbes).Rests s' := by
  have hpins : ∀ i k u, s'.Pins i k u → s.Pins i k u := by
    rintro i k u ⟨inc, hi, hu⟩
    exact ⟨inc, by rw [← hinc]; exact hi, hu⟩
  split_ifs with hzero
  · -- nothing was ever published in the slot
    have hown : s'.Owned s.current (s.scanIndex off) := by
      refine ⟨⟨by rw [this]; simp, fun i k u hpin hslot => ?_⟩, by rw [this]; exact hunheld⟩
      obtain ⟨-, hcursor⟩ := h.pinned i k u (hpins i k u hpin)
      obtain ⟨inc, hi, hu, -⟩ := hpins i k u hpin
      rw [hslot.1, hslot.2, hstate] at hcursor
      exact ((hr.handoffs hi).used k u hu).2 (hcursor.symm.trans hzero)
    cases w with
    | publish source =>
        cases source with
        | cpu descriptor bytes =>
            simp only [Pc.finds, Pc.Rests, hcurrent]
            exact hown
        | native =>
            simp only [Pc.finds, Pc.Rests, hcurrent, hscan]
            exact hown
    | reserve =>
        simp only [Pc.finds, Pc.Rests, hcurrent]
        exact hown
  · simp only [Pc.Rests, hcurrent, hscan]
    refine ⟨by rw [this]; exact hunheld, by rw [this], fun i k u hpin _ => ?_⟩
    exact mem_claimProbes hr (hpins i k u hpin)

/-- What the books do: nothing, or a fresh allocation is installed. -/
lemma books (h : Exclusive s) (hr : Arena.Reachable s) (hs : s.Acts s') (hb : s.Books s') :
    (∀ g index, s.Changes s' g index) ∧ Exclusive s' := by
  cases hb with
  | kept hshared hlog _ _ _ hpc =>
      exact h.quiet hr hs (fun g index => by rw [Arena.record, hshared]; rfl) hlog
        (rests_of_idles hpc)
  | installed layout _ _ hshared hlog _ _ _ hpc =>
      have hrec : ∀ g index, s'.record g index =
          if g = s.producer.admission.nextAllocation then
            { payload := List.replicate layout.payloadCapacity 0 }
          else s.record g index := by
        intro g index
        rw [Arena.record, hshared]
        exact s.record_onMap _ _ g index
      refine h.assemble hr hs (fun g index => ?_) (fun g index hres => ?_) (fun g index hres => ?_)
        (fun c p hp => Or.inl (hlog ▸ hp)) (rests_of_idles (by rw [hpc]; trivial))
      · by_cases hg : g = s.producer.admission.nextAllocation
        · refine .installed (fun c p hp => ?_) (by rw [hrec, if_pos hg])
          have := h.fresh c p hp
          omega
        · have hsame := hrec g index
          rw [if_neg hg] at hsame
          exact .kept (by rw [hsame]) (by rw [hsame]) (Or.inl (by rw [hsame]))
      · rw [hrec] at hres ⊢
        split_ifs at hres ⊢ with hg
        exact ⟨h.held g index hres, (h.held g index hres).even⟩
      · rw [hrec] at hres ⊢
        split_ifs at hres ⊢ with hg
        · exact absurd rfl hres
        · exact h.flagged g index hres

/-- **Every step keeps the slots that are read**, and changes slots in no other way. -/
theorem acts (h : Exclusive s) (hr : Arena.Reachable s) (hs : s.Acts s') :
    (∀ g index, s.Changes s' g index) ∧ Exclusive s' := by
  have ha := hs
  have hrests := h.rests
  have logged : ∀ c p, s.log c = some p → s.log c = some p ∨
      p.generation < s.producer.admission.nextAllocation := fun _ _ hp => Or.inl hp
  cases hs with
  | incarnation i inc inc' hi hact =>
      exact h.quiet hr ha (fun _ _ => rfl) rfl (rests_of_others hr ha hrests rfl (fun _ => rfl) rfl
        (fun _ _ => rfl) fun _ _ _ => rfl)
  | write g index bytes hres hlen =>
      have hrec := s.record_modify g index (fun r => { r with payload := bytes }) _ fun _ => rfl
      exact h.rewritten hr ha (fun r => { r with payload := bytes }) hrec (h.held g index hres) rfl
        rfl rfl rfl fun _ => rests_of_reserved hr ha hrests (fun r => { r with payload := bytes })
          hres hrec rfl rfl (Arena.scanIndex_onMap s g _ fun _ => rfl)
  | abandon g index hres =>
      have hrec := s.record_modify g index
        (fun r => { r with reserved := false, reservation := .absent })
        (fun map => { map.modify index fun r =>
          { r with reserved := false, reservation := .absent } with
            releasing := map.releasing + 1 }) fun _ => rfl
      exact h.restated hr ha (fun r => { r with reserved := false, reservation := .absent }) hrec
        rfl rfl (Or.inl rfl) (fun h0 => (nomatch h0)) (fun h0 => absurd rfl h0) rfl
        fun _ => rests_of_reserved hr ha hrests
          (fun r => { r with reserved := false, reservation := .absent }) hres hrec rfl rfl
          (Arena.scanIndex_onMap s g _ fun _ => rfl)
  | releaseMap g hpos =>
      have hrec := s.record_of_records g (fun map => { map with releasing := map.releasing - 1 })
        fun _ => rfl
      exact h.quiet hr ha hrec rfl (rests_of_others hr ha hrests rfl
        (Arena.scanIndex_onMap s g _ fun _ => rfl) rfl (fun g' index' => by rw [hrec])
        fun g' index' _ => hrec _ _)
  | dropExport g hpos =>
      have hrec := s.record_of_records g (fun map => { map with exports := map.exports - 1 })
        fun _ => rfl
      exact h.quiet hr ha hrec rfl (rests_of_others hr ha hrests rfl
        (Arena.scanIndex_onMap s g _ fun _ => rfl) rfl (fun g' index' => by rw [hrec])
        fun g' index' _ => hrec _ _)
  | flow pc outcome released hf =>
      refine h.quiet hr ha (fun _ _ => rfl) rfl ?_
      exact rests_of_others hr ha (h.rests_of_flows hr hf) rfl (fun _ => rfl) rfl
        (fun _ _ => rfl) fun _ _ _ => rfl
  | commitCall g index descriptor hpc hres =>
      have hfree := h.held g index hres
      have hflag : (s.record g index).reserved = true :=
        h.flagged g index fun h0 => (nomatch hres.symm.trans h0)
      refine h.restated hr ha (fun r => { r with reservation := .committing })
        (s.record_modify g index (fun r => { r with reservation := .committing }) _ fun _ => rfl)
        rfl rfl (Or.inl rfl) (fun h0 => (nomatch h0)) (fun _ => hflag) rfl fun this => ?_
      refine ⟨hfree.acts hr ha ?_, ?_⟩
      · rw [this]
        exact hfree.even
      · rw [this]
        simp
  | collect i todo goal hd => exact h.books hr ha (hr.ledger.collect_books hd)
  | reclaim index goal r hpc hget =>
      exact h.books hr ha (hr.ledger.reclaim_books (by rw [hpc]; rfl) hget goal)
  | unready index goal r hpc hget =>
      exact h.quiet hr ha (s.record_of_records r.generation
        (fun map => { map with ready := false }) fun _ => rfl) rfl trivial
  | exported g hpc =>
      exact h.quiet hr ha (s.record_of_records g
        (fun map => { map with exports := map.exports + 1 }) fun _ => rfl) rfl trivial
  | ready index goal r hpc hget =>
      have hrec := s.record_of_records r.generation (fun map => { map with ready := true })
        fun _ => rfl
      obtain ⟨_, _, _, _, _, _, _, heq⟩ := (hr.ledger.ready r.generation).reclaim_spec
        (by rw [Arena.onMap_producer, hpc]; rfl) hget goal
      exact h.quiet hr ha (fun g index => by rw [heq]; exact hrec g index) (by rw [heq]; rfl)
        (by rw [heq]; trivial)
  | attach e holding remote hpc =>
      exact h.books hr ha (hr.ledger.attach_books (by rw [hpc]; rfl) e holding remote)
  | advance e hpc => exact h.books hr ha (hr.ledger.advance_books (by rw [hpc]; rfl) e)
  | retire w off generation hpc =>
      rw [hpc] at hrests
      obtain ⟨hunheld, hstate⟩ := hrests
      refine h.restated hr ha (fun r => { r with state := 2 * generation })
        (s.record_modify _ _ (fun r => { r with state := 2 * generation }) _ fun _ => rfl)
        rfl rfl (Or.inr (by rw [hstate])) (fun h0 => absurd h0 hunheld)
        (fun h0 => h.flagged _ _ h0) rfl fun this => ?_
      have hscan := Arena.scanIndex_onMap s s.current (fun map =>
        map.modify (s.scanIndex off) fun r => { r with state := 2 * generation }) (fun _ => rfl) off
      exact h.rests_of_retired hr hunheld hstate rfl rfl hscan this
  | reserve index hpc =>
      rw [hpc] at hrests
      exact h.restated hr ha (fun r => { r with reserved := true, reservation := .held })
        (s.record_modify _ _ (fun r => { r with reserved := true, reservation := .held }) _
          fun _ => rfl)
        rfl rfl (Or.inl rfl) (fun _ => hrests.toFree) (fun _ => rfl) rfl fun _ => trivial
  | stage off descriptor bytes hostTimeNs hpc =>
      rw [hpc] at hrests
      refine h.rewritten hr ha (fun r => { r with payload := bytes })
        (s.record_modify _ _ (fun r => { r with payload := bytes }) _ fun _ => rfl)
        hrests.toFree rfl rfl rfl rfl fun this => ?_
      refine ⟨owned_of_written hr ha hrests this rfl rfl, current_lt hr.ledger, ?_⟩
      simp [Arena.publication]
  | copy index descriptor bytes hostTimeNs hpc =>
      rw [hpc] at hrests
      refine h.rewritten hr ha
        (fun r => { r with payload := bytes ++ r.payload.drop bytes.length })
        (s.record_modify _ _
          (fun r => { r with payload := bytes ++ r.payload.drop bytes.length }) _ fun _ => rfl)
        hrests.toFree rfl rfl rfl rfl fun this => ?_
      refine ⟨owned_of_written hr ha hrests this rfl rfl, current_lt hr.ledger, ?_⟩
      have hlen : (s.publication index descriptor bytes hostTimeNs).descriptor.payloadLen =
          bytes.length := by simp [Arena.publication]
      rw [hlen]
      exact (congrArg (fun r => r.payload.take bytes.length) this).trans
        (List.take_left' rfl)
  | describe p after hpc =>
      rw [hpc] at hrests
      obtain ⟨hown, hlt, hbytes⟩ := hrests
      refine h.rewritten hr ha (fun r => { r with descriptor := p.descriptor })
        (s.record_modify _ _ (fun r => { r with descriptor := p.descriptor }) _ fun _ => rfl)
        hown.toFree rfl rfl rfl rfl fun this => ?_
      refine ⟨owned_of_written hr ha hown this rfl rfl, hlt, ?_, ?_⟩
      · rw [this]
        exact hbytes
      · rw [this]
  | store p after hpc =>
      rw [hpc] at hrests
      obtain ⟨hown, hlt, hbytes, hdesc⟩ := hrests
      refine h.modified hr ha (fun r => { r with state := 2 * p.descriptor.cursor + 1 })
        (s.record_modify _ _ (fun r => { r with state := 2 * p.descriptor.cursor + 1 }) _
          fun _ => rfl)
        (fun this => .published p.descriptor.cursor hown.toFree (by rw [this]) ?_)
        (fun h0 => absurd h0 hown.unheld) (fun h0 => h.flagged _ _ h0) (fun c q hq => ?_)
        fun _ => trivial
      · refine ⟨p, Function.update_self _ _ _, rfl, rfl, ?_, ?_⟩
        · rw [this]
          exact hdesc
        · rw [this]
          exact hbytes
      · have hq : Function.update s.log p.descriptor.cursor (some p) c = some q := hq
        by_cases hc : c = p.descriptor.cursor
        · rw [hc, Function.update_self, Option.some.injEq] at hq
          rw [← hq]
          exact Or.inr hlt
        · rw [Function.update_of_ne hc] at hq
          exact Or.inl hq
  | release g index outcome hpc =>
      exact h.restated hr ha (fun r => { r with reserved := false, reservation := .absent })
        (s.record_modify _ _ (fun r => { r with reserved := false, reservation := .absent }) _
          fun _ => rfl)
        rfl rfl (Or.inl rfl) (fun h0 => (nomatch h0)) (fun h0 => absurd rfl h0) rfl
        fun _ => trivial
  | begin payloadCapacity externalBytes hpc =>
      exact h.books hr ha (hr.ledger.begin_books (by rw [hpc]; rfl) _ _)
  | unpublish layout index state hpc =>
      rw [hpc] at hrests
      exact h.restated hr ha (fun r => { r with state := 2 * (state / 2) })
        (s.record_modify _ _ (fun r => { r with state := 2 * (state / 2) }) _ fun _ => rfl)
        rfl rfl (Or.inr (by rw [← hrests])) (fun h0 => h.held _ _ h0)
        (fun h0 => h.flagged _ _ h0) rfl fun _ => trivial
  | close call i hpc => exact h.books hr ha (hr.ledger.close_books i)
  | _ => exact h.quiet hr ha (fun _ _ => rfl) rfl trivial

/-- A created arena has published nothing. -/
lemma of_create {page : ℕ} {config : ArenaConfig} {externalBytes : ℕ} {native : Bool}
    (h : Arena.create page config externalBytes native = .ok s) : Exclusive s := by
  rw [Arena.create] at h
  obtain ⟨x, -, h⟩ := of_bind_ok h
  cases h
  constructor
  case published => rintro g index ⟨⟩
  case pinned => exact fun i k u hpin => by cases hpin.choose_spec.1
  case held => rintro g index ⟨⟩
  case flagged => exact fun g index hres => absurd rfl hres
  case fresh => rintro c p ⟨⟩
  case rests => trivial

end Exclusive

/-- **Slots and claims agree in every reachable arena.** -/
theorem Arena.Reachable.exclusive {s : Arena} (h : Reachable s) : Exclusive s :=
  h.induct (fun _ _ _ _ _ h₀ => Exclusive.of_create h₀) fun _ _ ha hp hs => (hp.acts ha hs).2

end Jackstay.Acquisition
