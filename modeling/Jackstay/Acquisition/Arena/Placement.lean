import Jackstay.Acquisition.Arena.Exclusivity

/-!
Where the frames are.

* `Placed`: a slot in use is a slot of its layout, the newest cursor published in it is the
  one its state word names, and the state words of retired allocations are even.
* `Pc.Places`: what the scan has found out about its slot, up to the publication in it. A
  slot that is about to be staged or written holds no frame of the retained history.
* `Placed.outside`: no cursor of the history window was published in such a slot.
-/

namespace Jackstay.Acquisition

/-- What the producer knows of the place it looks at. -/
def Pc.Places (s : Arena) : Pc → Prop
  | .scan _ off => off < s.layout.resources
  | .scanState _ off => off < s.layout.resources
  | .scanRetire _ off generation => off < s.layout.resources ∧ generation < s.oldest
  | .scanClaims _ off generation _ => off < s.layout.resources ∧ generation < s.oldest
  | .reserveFlag index => index < s.layout.resources
  | .prepare off => off < s.layout.resources ∧
      (s.record s.current (s.scanIndex off)).state / 2 < s.oldest
  | .copy index _ _ => index < s.layout.resources
  | .commit g index _ => index < (s.shared.maps g).layout.resources
  | .describe p _ => p.generation = s.current ∧ p.index < s.layout.resources
  | .store p _ => p.generation = s.current ∧ p.index < s.layout.resources
  | .unpublishLoad _ n => ∀ index, index < n → (s.record s.current index).state % 2 = 0
  | .unpublish _ n _ => n < s.layout.resources ∧
      ∀ index, index < n → (s.record s.current index).state % 2 = 0
  | .firstCursor _ => ∀ index, (s.record s.current index).state % 2 = 0
  | _ => True

/-- **The invariant of places.** -/
structure Placed (s : Arena) : Prop where
  occupied : ∀ g index, (s.record g index).state ≠ 0 ∨ (s.record g index).reservation ≠ .absent →
    index < (s.shared.maps g).layout.resources
  newest : ∀ c p, s.log c = some p → c ≤ (s.record p.generation p.index).state / 2
  known : ∀ g index, (s.record g index).state / 2 ≠ 0 →
    ∃ p, s.log ((s.record g index).state / 2) = some p ∧ p.generation = g ∧ p.index = index
  even : ∀ r ∈ s.producer.retired, ∀ index, (s.record r.generation index).state % 2 = 0
  places : s.producer.pc.Places s

/-! ### Retired allocations -/

namespace Arena

variable {s s' : Arena}

lemma oldest_pos (s : Arena) : 0 < s.oldest := by
  rw [oldest]
  omega

lemma scanIndex_lt (s : Arena) {off : ℕ} (h : off < s.layout.resources) :
    s.scanIndex off < s.layout.resources :=
  Nat.mod_lt _ (by omega)

lemma mem_of_mem_swapRemove {α : Type} {l : List α} {index : ℕ} (h : index < l.length) {a : α}
    (ha : a ∈ swapRemove l index) : a ∈ l :=
  List.mem_of_mem_eraseIdx ((swapRemove_perm h).mem_iff.mp ha)

/-- Only the step that stores `FIRST_CURSOR` retires an allocation. -/
lemma Acts.retired (hl : Ledger s) (hs : s.Acts s') :
    (∀ r ∈ s'.producer.retired, r ∈ s.producer.retired) ∨
    ∃ layout, s.producer.pc = .firstCursor layout ∧
      s'.producer.retired = s.producer.retired ++ [⟨s.current, s.shared.native⟩] := by
  cases hs with
  | firstCursor layout hpc => exact Or.inr ⟨layout, hpc, rfl⟩
  | collect i todo goal hd =>
      obtain ⟨hi, hrem, -⟩ := hl.drained hd
      obtain ⟨_, -, -, -, -, heq⟩ := hl.collect_spec hi hrem todo goal
      rw [heq]
      exact Or.inl fun _ hr => hr
  | reclaim index goal r hpc hget =>
      obtain ⟨_, -, -, -, -, -, -, heq⟩ := hl.reclaim_spec (by rw [hpc]; rfl) hget goal
      rw [heq]
      exact Or.inl fun _ hr => mem_of_mem_swapRemove (List.getElem?_eq_some_iff.mp hget).1 hr
  | ready index goal r hpc hget =>
      obtain ⟨_, -, -, -, -, -, -, heq⟩ := (hl.ready r.generation).reclaim_spec
        (by rw [onMap_producer, hpc]; rfl) hget goal
      rw [heq]
      exact Or.inl fun _ hr => mem_of_mem_swapRemove (List.getElem?_eq_some_iff.mp hget).1 hr
  | attach e holding remote hpc =>
      obtain ⟨o, heq⟩ | ⟨book', o, -, -, -, -, heq⟩ | ⟨book', g, r, -, -, -, -, -, -, -, heq⟩ :=
        hl.attach_spec (by rw [hpc]; rfl) e holding remote <;> rw [heq] <;>
          exact Or.inl fun _ hr => hr
  | advance e hpc =>
      obtain ⟨o, heq⟩ | ⟨book', o, -, -, -, -, -, -, heq⟩ |
        ⟨book', layout, n, -, -, -, -, -, -, -, heq⟩ := hl.advance_spec e <;> rw [heq] <;>
          exact Or.inl fun _ hr => hr
  | begin payloadCapacity externalBytes hpc =>
      obtain ⟨o, heq⟩ | ⟨layout, book', g, -, -, -, -, -, -, -, -, -, -, -, heq⟩ :=
        hl.begin_spec (by rw [hpc]; rfl) payloadCapacity externalBytes <;> rw [heq] <;>
          exact Or.inl fun _ hr => hr
  | close call i hpc =>
      obtain ⟨e, heq⟩ | ⟨book', -, -, -, -, heq⟩ := hl.close_spec i <;> rw [heq] <;>
        exact Or.inl fun _ hr => hr
  | _ => exact Or.inl fun _ hr => hr

/-- A retired allocation is not the installed one. -/
lemma retired_ne_current (hl : Ledger s) {r : RetiredAllocation} (hr : r ∈ s.producer.retired) :
    r.generation ≠ s.current := by
  cases hres : s.producer.resources with
  | none =>
      rw [current, hres]
      exact (hl.retired_charged r hr).1
  | some g =>
      rw [current, hres]
      exact (hl.current g hres).2.2 r hr

/-- A retired allocation has an identifier that was issued. -/
lemma retired_lt (hl : Ledger s) {r : RetiredAllocation} (hr : r ∈ s.producer.retired) :
    r.generation < s.producer.admission.nextAllocation := by
  by_contra hge
  exact (hl.retired_charged r hr).2.1 (hl.accounts.allocation_fresh r.generation (by omega))

end Arena

namespace Placed

variable {s s' : Arena}

/-! ### The producer's place -/

/-- A place depends on these parts of the arena. -/
lemma places_congr {pc : Pc} (h : pc.Places s) (hcurrent : s'.current = s.current)
    (hscan : ∀ off, s'.scanIndex off = s.scanIndex off) (hold : s'.oldest = s.oldest)
    (hlayout : ∀ g, (s'.shared.maps g).layout = (s.shared.maps g).layout)
    (hstate : ∀ g index, (s'.record g index).state = (s.record g index).state) :
    pc.Places s' := by
  have hl : s'.layout = s.layout := by rw [Arena.layout, hcurrent, hlayout]; rfl
  cases pc <;> simp only [Pc.Places, hl, hold, hcurrent, hscan, hlayout, hstate] at h ⊢ <;>
    exact h

/-- The parts that a step on the producer's own fields keeps. -/
lemma places_of_shared {pc : Pc} (h : pc.Places s) (hshared : s'.shared = s.shared)
    (hres : s'.producer.resources = s.producer.resources)
    (hcursor : s'.producer.cursor = s.producer.cursor)
    (hnext : s'.producer.nextSlot = s.producer.nextSlot) : pc.Places s' := by
  have hcurrent : s'.current = s.current := by rw [Arena.current, hres]; rfl
  have hl : s'.layout = s.layout := by rw [Arena.layout, hcurrent, hshared]; rfl
  refine places_congr h hcurrent (fun off => ?_) ?_ (fun g => by rw [hshared]) (fun g index => ?_)
  · rw [Arena.scanIndex, hnext, hl]
    rfl
  · rw [Arena.oldest, hcursor, hl]
    rfl
  · rw [Arena.record, hshared]
    rfl

/-- The parts that a change of one map keeps. -/
lemma places_of_onMap {pc : Pc} (h : pc.Places s) (g : ℕ) (f : ResourceMap → ResourceMap)
    (hf : ∀ map, (f map).layout = map.layout)
    (hstate : ∀ g' index, ((s.onMap g f).record g' index).state = (s.record g' index).state) :
    pc.Places (s.onMap g f) := by
  refine places_congr h rfl (fun off => s.scanIndex_onMap g f hf off) ?_
    (s.onMap_layout g f hf) hstate
  simp only [Arena.oldest, Arena.layout]
  rw [s.onMap_layout g f hf]
  rfl

lemma places_scans (s : Arena) (w : Writer) (off : ℕ) : (Pc.scans s w off).Places s := by
  rw [Pc.scans]
  split_ifs with hoff
  · exact hoff
  · trivial

/-- A slot that the scan has found. -/
lemma places_finds {off : ℕ} (w : Writer) (hoff : off < s.layout.resources)
    (hstate : (s.record s.current (s.scanIndex off)).state / 2 < s.oldest) :
    (Pc.finds s off w).Places s := by
  have hlt := s.scanIndex_lt hoff
  cases w with
  | publish source =>
      cases source with
      | cpu descriptor bytes => exact hlt
      | native => exact ⟨hoff, hstate⟩
  | reserve => exact hlt

lemma places_flows (h : Placed s) (hr : Arena.Reachable s) {pc : Pc}
    (hf : s.producer.pc.Flows s pc) : pc.Places s := by
  have hplaces := h.places
  have hrests := hr.exclusive.rests
  generalize s.producer.pc = pc₀ at hf hplaces hrests
  cases hf with
  | publish => exact places_scans s _ _
  | reserve => exact places_scans s _ _
  | reserved => exact places_scans s _ _
  | retained => exact places_scans s _ _
  | claimed => exact places_scans s _ _
  | prepareSkipped => exact places_scans s _ _
  | unreserved w off => exact hplaces
  | stale w off hstale =>
      have hpos := s.oldest_pos
      exact ⟨hplaces, by omega⟩
  | unclaimed w off generation i k probes inc => exact hplaces
  | found w off generation =>
      have hstate : (s.record s.current (s.scanIndex off)).state = 2 * generation := hrests.2.1
      exact places_finds w hplaces.1 (by have := hplaces.2; omega)
  | commit g index descriptor hostTimeNs _ hres =>
      have hcurrent : g = s.current := by rw [Arena.current, hres]; rfl
      refine ⟨hcurrent, ?_⟩
      subst hcurrent
      exact hplaces
  | unpublishLoad layout index hlt => exact ⟨hlt, hplaces⟩
  | unpublished layout index hge =>
      intro j
      rcases lt_or_ge j index with hj | hj
      · exact hplaces j hj
      · -- behind the last slot there is nothing
        by_contra hne
        have := h.occupied s.current j (Or.inl (by omega))
        rw [Arena.layout] at hge
        omega
  | _ => trivial

/-! ### The steps -/

/-- A step that changes no state word and reserves slots of the layout only. -/
lemma keep (h : Placed s)
    (hstate : ∀ g index, (s'.record g index).state = (s.record g index).state)
    (hres : ∀ g index, (s'.record g index).reservation ≠ .absent →
      (s.record g index).reservation ≠ .absent ∨ index < (s.shared.maps g).layout.resources)
    (hlayout : ∀ g, (s'.shared.maps g).layout = (s.shared.maps g).layout)
    (hlog : s'.log = s.log) (hret : ∀ r ∈ s'.producer.retired, r ∈ s.producer.retired)
    (hplaces : s'.producer.pc.Places s') : Placed s' := by
  refine ⟨fun g index hocc => ?_, fun c p hp => ?_, fun g index hne => ?_, fun r hr index => ?_,
    hplaces⟩
  · rw [hlayout]
    rcases hocc with hocc | hocc
    · exact h.occupied g index (Or.inl (by rw [← hstate]; exact hocc))
    · rcases hres g index hocc with hold | hlt
      · exact h.occupied g index (Or.inr hold)
      · exact hlt
  · rw [hstate]
    rw [hlog] at hp
    exact h.newest c p hp
  · rw [hstate] at hne ⊢
    rw [hlog]
    exact h.known g index hne
  · rw [hstate]
    exact h.even r (hret r hr) index

/-- A step that leaves the maps alone. -/
lemma quiet (h : Placed s) (hmaps : s'.shared.maps = s.shared.maps) (hlog : s'.log = s.log)
    (hret : ∀ r ∈ s'.producer.retired, r ∈ s.producer.retired)
    (hplaces : s'.producer.pc.Places s') : Placed s' := by
  have hrec : ∀ g index, s'.record g index = s.record g index := by
    intro g index
    rw [Arena.record, hmaps]
    rfl
  refine h.keep (fun g index => by rw [hrec]) (fun g index hres => Or.inl ?_)
    (fun g => by rw [hmaps]) hlog hret hplaces
  rw [← hrec]
  exact hres

/-- A step that changes one slot, and not its state word. -/
lemma touched (h : Placed s) {g index : ℕ} (f : Record → Record)
    (hrec : ∀ g' index', s'.record g' index' =
      if g' = g ∧ index' = index then f (s.record g index) else s.record g' index')
    (hstate : (f (s.record g index)).state = (s.record g index).state)
    (hres : (f (s.record g index)).reservation ≠ .absent →
      (s.record g index).reservation ≠ .absent ∨ index < (s.shared.maps g).layout.resources)
    (hlayout : ∀ g, (s'.shared.maps g).layout = (s.shared.maps g).layout)
    (hlog : s'.log = s.log) (hret : s'.producer.retired = s.producer.retired)
    (hplaces : (∀ g index, (s'.record g index).state = (s.record g index).state) →
      s'.producer.pc.Places s') : Placed s' := by
  have hsame : ∀ g index, (s'.record g index).state = (s.record g index).state := by
    intro g' index'
    rw [hrec]
    split_ifs with hslot
    · rw [hstate, hslot.1, hslot.2]
    · rfl
  refine h.keep hsame (fun g' index' hne => ?_) hlayout hlog (fun r hr => by rw [← hret]; exact hr)
    (hplaces hsame)
  rw [hrec] at hne
  split_ifs at hne with hslot
  · rw [hslot.1, hslot.2]
    exact hres hne
  · exact Or.inl hne

/-- A step that changes a counter of one map. -/
lemma counted (h : Placed s) {g : ℕ} (F : ResourceMap → ResourceMap)
    (hF : ∀ map, (F map).records = map.records) (hF' : ∀ map, (F map).layout = map.layout)
    (hmaps : s'.shared.maps = (s.onMap g F).shared.maps) (hlog : s'.log = s.log)
    (hret : ∀ r ∈ s'.producer.retired, r ∈ s.producer.retired)
    (hplaces : (∀ g index, (s'.record g index).state = (s.record g index).state) →
      s'.producer.pc.Places s') : Placed s' := by
  have hrec : ∀ g' index', s'.record g' index' = s.record g' index' := by
    intro g' index'
    rw [Arena.record, hmaps]
    exact s.record_of_records g F hF g' index'
  refine h.keep (fun g' index' => by rw [hrec]) (fun g' index' h0 => Or.inl ?_)
    (fun g' => ?_) hlog hret (hplaces fun g' index' => by rw [hrec])
  · rw [← hrec]
    exact h0
  · rw [hmaps]
    exact s.onMap_layout g F hF' g'

/-- A step that stores the state word of a slot of the installed allocation. -/
lemma restated (h : Placed s) (hl : Ledger s) {index st : ℕ} (hlt : index < s.layout.resources)
    (hrec : ∀ g' index', s'.record g' index' = if g' = s.current ∧ index' = index
      then { s.record s.current index with state := st } else s.record g' index')
    (hle : (s.record s.current index).state / 2 ≤ st / 2)
    (hlayout : ∀ g, (s'.shared.maps g).layout = (s.shared.maps g).layout)
    (hlog : ∀ c p, s'.log c = some p → s.log c = some p ∨
      (p.generation = s.current ∧ p.index = index ∧ c ≤ st / 2))
    (hmono : ∀ c p, s.log c = some p → s'.log c = some p)
    (hknown : st / 2 = (s.record s.current index).state / 2 ∨
      ∃ p, s'.log (st / 2) = some p ∧ p.generation = s.current ∧ p.index = index)
    (hret : s'.producer.retired = s.producer.retired)
    (hplaces : s'.producer.pc.Places s') : Placed s' := by
  refine ⟨fun g j hocc => ?_, fun c p hp => ?_, fun g j hne => ?_, fun r hr j => ?_, hplaces⟩
  · rw [hlayout]
    rw [hrec] at hocc
    split_ifs at hocc with hslot
    · rw [hslot.1, hslot.2]
      exact hlt
    · exact h.occupied g j hocc
  · rw [hrec]
    rcases hlog c p hp with hold | ⟨hg, hi, hc⟩
    · have hnewest := h.newest c p hold
      split_ifs with hslot
      · rw [hslot.1, hslot.2] at hnewest
        exact hnewest.trans hle
      · exact hnewest
    · rw [if_pos ⟨hg, hi⟩]
      exact hc
  · rw [hrec] at hne ⊢
    split_ifs at hne ⊢ with hslot
    · obtain ⟨rfl, rfl⟩ := hslot
      rcases hknown with heq | hp
      · obtain ⟨p, hp, hslot⟩ := h.known _ _ (fun h0 => hne (heq.trans h0))
        exact ⟨p, by rw [heq]; exact hmono _ p hp, hslot⟩
      · exact hp
    · obtain ⟨p, hp, hslot⟩ := h.known g j hne
      exact ⟨p, hmono _ p hp, hslot⟩
  · rw [hret] at hr
    rw [hrec, if_neg fun hslot => Arena.retired_ne_current hl hr hslot.1]
    exact h.even r hr j

/-- What the books do. -/
lemma books (h : Placed s) (hr : Arena.Reachable s) (hb : s.Books s')
    (hret : ∀ r ∈ s'.producer.retired, r ∈ s.producer.retired) : Placed s' := by
  have idles : ∀ pc : Pc, pc.idles → pc.Places s' := by
    intro pc hpc
    cases pc <;> trivial
  cases hb with
  | kept hshared hlog _ _ _ hpc => exact h.quiet (by rw [hshared]) hlog hret (idles _ hpc)
  | installed layout _ _ hshared hlog _ _ _ hpc =>
      have hrec : ∀ g index, s'.record g index =
          if g = s.producer.admission.nextAllocation then
            { payload := List.replicate layout.payloadCapacity 0 }
          else s.record g index := by
        intro g index
        rw [Arena.record, hshared]
        exact s.record_onMap _ _ g index
      refine ⟨fun g index hocc => ?_, fun c p hp => ?_, fun g index hne => ?_,
        fun r hmem index => ?_, idles _ (by rw [hpc]; trivial)⟩
      · rw [hrec] at hocc
        split_ifs at hocc with hg
        · simp at hocc
        · rw [hshared]
          simp only [Arena.onMap, Function.update_of_ne hg]
          exact h.occupied g index hocc
      · rw [hlog] at hp
        have hlt := hr.exclusive.fresh c p hp
        rw [hrec, if_neg (by omega)]
        exact h.newest c p hp
      · rw [hrec] at hne ⊢
        rw [hlog]
        split_ifs at hne ⊢ with hg
        · exact absurd (Nat.zero_div 2) hne
        · exact h.known g index hne
      · have hlt := Arena.retired_lt hr.ledger (hret r hmem)
        rw [hrec, if_neg (by omega)]
        exact h.even r (hret r hmem) index

/-- **Every step keeps the frames in their places.** -/
theorem acts (h : Placed s) (hr : Arena.Reachable s) (hs : s.Acts s') : Placed s' := by
  have hl := hr.ledger
  have hplaces := h.places
  have hrests := hr.exclusive.rests
  have kept : ∀ r ∈ s.producer.retired, r ∈ s.producer.retired := fun _ h0 => h0
  have retired := hs.retired hl
  have books : s.Books s' → (∀ layout, s.producer.pc ≠ .firstCursor layout) → Placed s' := by
    intro hb hpc
    rcases retired with hret | ⟨layout, h0, -⟩
    · exact h.books hr hb hret
    · exact absurd h0 (hpc layout)
  cases hs with
  | incarnation i inc inc' hi hact =>
      exact h.quiet rfl rfl kept (places_of_shared hplaces rfl rfl rfl rfl)
  | write g index bytes hres hlen =>
      have hrec := s.record_modify g index (fun r => { r with payload := bytes }) _ fun _ => rfl
      exact h.touched (fun r => { r with payload := bytes }) hrec rfl (fun h0 => Or.inl h0)
        (s.modify_layout g index _) rfl rfl
        fun hsame => places_of_onMap hplaces g _ (fun _ => rfl) hsame
  | abandon g index hres =>
      have hrec := s.record_modify g index
        (fun r => { r with reserved := false, reservation := .absent })
        (fun map => { map.modify index fun r =>
          { r with reserved := false, reservation := .absent } with
            releasing := map.releasing + 1 }) fun _ => rfl
      exact h.touched (fun r => { r with reserved := false, reservation := .absent }) hrec rfl
        (fun h0 => absurd rfl h0) (s.onMap_layout g _ fun _ => rfl) rfl rfl
        fun hsame => places_of_onMap hplaces g _ (fun _ => rfl) hsame
  | releaseMap g hpos =>
      exact h.counted (fun map => { map with releasing := map.releasing - 1 }) (fun _ => rfl)
        (fun _ => rfl) rfl rfl kept fun hsame => places_of_onMap hplaces g _ (fun _ => rfl) hsame
  | dropExport g hpos =>
      exact h.counted (fun map => { map with exports := map.exports - 1 }) (fun _ => rfl)
        (fun _ => rfl) rfl rfl kept fun hsame => places_of_onMap hplaces g _ (fun _ => rfl) hsame
  | flow pc outcome released hf =>
      exact h.quiet rfl rfl kept (places_of_shared (h.places_flows hr hf) rfl rfl rfl rfl)
  | commitCall g index descriptor hpc hres =>
      have hrec := s.record_modify g index (fun r => { r with reservation := .committing }) _
        fun _ => rfl
      have hheld : (s.record g index).reservation ≠ .absent := fun h0 => by cases hres.symm.trans h0
      refine h.touched (fun r => { r with reservation := .committing }) hrec rfl
        (fun _ => Or.inl hheld) (s.modify_layout g index _) rfl rfl fun _ => ?_
      have hlt := h.occupied g index (Or.inr hheld)
      have hlayout := s.modify_layout g index (fun r => { r with reservation := .committing }) g
      have hplace : index < ((s.onMap g fun map => map.modify index fun r =>
          { r with reservation := .committing }).shared.maps g).layout.resources := by
        rw [hlayout]
        exact hlt
      exact hplace
  | collect i todo goal hd =>
      refine books (hl.collect_books hd) fun layout h0 => ?_
      obtain ⟨-, -, c, hpc⟩ := hl.drained hd
      rw [hpc] at h0
      cases h0
  | reclaim index goal r hpc hget =>
      exact books (hl.reclaim_books (by rw [hpc]; rfl) hget goal) (by rw [hpc]; rintro _ ⟨⟩)
  | unready index goal r hpc hget =>
      exact h.counted (fun map => { map with ready := false }) (fun _ => rfl) (fun _ => rfl) rfl rfl
        kept fun _ => trivial
  | exported g hpc =>
      exact h.counted (fun map => { map with exports := map.exports + 1 }) (fun _ => rfl)
        (fun _ => rfl) rfl rfl kept fun _ => trivial
  | ready index goal r hpc hget =>
      obtain ⟨_, _, _, _, _, _, _, heq⟩ := (hl.ready r.generation).reclaim_spec
        (by rw [Arena.onMap_producer, hpc]; rfl) hget goal
      rcases retired with hret | ⟨layout, h0, -⟩
      · exact h.counted (g := r.generation) (fun map => { map with ready := true }) (fun _ => rfl)
          (fun _ => rfl) (by rw [heq]) (by rw [heq]; rfl) hret fun _ => by rw [heq]; trivial
      · rw [hpc] at h0
        cases h0
  | attach e holding remote hpc =>
      exact books (hl.attach_books (by rw [hpc]; rfl) e holding remote) (by rw [hpc]; rintro _ ⟨⟩)
  | advance e hpc =>
      exact books (hl.advance_books (by rw [hpc]; rfl) e) (by rw [hpc]; rintro _ ⟨⟩)
  | begin payloadCapacity externalBytes hpc =>
      exact books (hl.begin_books (by rw [hpc]; rfl) _ _) (by rw [hpc]; rintro _ ⟨⟩)
  | close call i hpc => exact books (hl.close_books i) (by rw [hpc]; rintro _ ⟨⟩)
  | retire w off generation hpc =>
      rw [hpc] at hplaces hrests
      obtain ⟨hoff, hstale⟩ := hplaces
      obtain ⟨-, hstate⟩ := hrests
      have hhalf : 2 * generation / 2 = generation := Nat.mul_div_cancel_left _ Nat.two_pos
      have hF : ∀ map : ResourceMap, (map.modify (s.scanIndex off) fun r =>
          { r with state := 2 * generation }).layout = map.layout := fun _ => rfl
      have hrec := s.record_modify s.current (s.scanIndex off)
        (fun r => { r with state := 2 * generation }) _ fun _ => rfl
      have hlayout := s.modify_layout s.current (s.scanIndex off)
        (fun r => { r with state := 2 * generation })
      refine h.restated hl (s.scanIndex_lt hoff) hrec (by rw [hstate, hhalf]) hlayout
        (fun c p hp => Or.inl hp) (fun c p hp => hp) (Or.inl (by rw [hstate, hhalf])) rfl ?_
      have hold : (s.onMap s.current fun map => map.modify (s.scanIndex off) fun r =>
          { r with state := 2 * generation }).oldest = s.oldest := by
        simp only [Arena.oldest, Arena.layout]
        rw [s.onMap_layout s.current _ hF]
        rfl
      have hwide : (s.onMap s.current fun map => map.modify (s.scanIndex off) fun r =>
          { r with state := 2 * generation }).layout = s.layout := hlayout _
      have hindex := s.scanIndex_onMap s.current (fun map =>
        map.modify (s.scanIndex off) fun r => { r with state := 2 * generation }) hF off
      have hlt : s.scanIndex off < (s.onMap s.current fun map =>
          map.modify (s.scanIndex off) fun r => { r with state := 2 * generation }).layout.resources := by
        rw [hwide]
        exact s.scanIndex_lt hoff
      have hoff' : off < (s.onMap s.current fun map => map.modify (s.scanIndex off) fun r =>
          { r with state := 2 * generation }).layout.resources := by
        rw [hwide]
        exact hoff
      have hstale' : generation < (s.onMap s.current fun map => map.modify (s.scanIndex off) fun r =>
          { r with state := 2 * generation }).oldest := by
        rw [hold]
        exact hstale
      by_cases hzero : generation = 0
      · have hpc' : (if generation = 0 then Pc.finds s off w
            else .scanClaims w off generation s.claimProbes) = Pc.finds s off w := if_pos hzero
        rw [hpc']
        cases w with
        | publish source =>
            cases source with
            | cpu descriptor bytes => exact hlt
            | native =>
                have hhead : ((s.onMap s.current fun map =>
                    map.modify (s.scanIndex off) fun r =>
                      { r with state := 2 * generation }).record s.current
                    ((s.onMap s.current fun map => map.modify (s.scanIndex off) fun r =>
                      { r with state := 2 * generation }).scanIndex off)).state / 2 = generation := by
                  rw [hindex, hrec, if_pos ⟨rfl, rfl⟩, hhalf]
                exact ⟨hoff', lt_of_eq_of_lt hhead hstale'⟩
        | reserve => exact hlt
      · have hpc' : (if generation = 0 then Pc.finds s off w
            else .scanClaims w off generation s.claimProbes) =
              .scanClaims w off generation s.claimProbes := if_neg hzero
        rw [hpc']
        exact ⟨hoff', hstale'⟩
  | reserve index hpc =>
      rw [hpc] at hplaces
      exact h.touched (fun r => { r with reserved := true, reservation := .held })
        (s.record_modify _ _ (fun r => { r with reserved := true, reservation := .held }) _
          fun _ => rfl) rfl (fun _ => Or.inr hplaces) (s.modify_layout s.current index _) rfl rfl
        fun _ => trivial
  | stage off descriptor bytes hostTimeNs hpc =>
      rw [hpc] at hplaces
      have hlayout := s.modify_layout s.current (s.scanIndex off)
        (fun r => { r with payload := bytes })
      refine h.touched (fun r => { r with payload := bytes })
        (s.record_modify _ _ (fun r => { r with payload := bytes }) _ fun _ => rfl) rfl
        (fun h0 => Or.inl h0) hlayout rfl rfl fun _ => ⟨rfl, ?_⟩
      have hwide : (s.onMap s.current fun map => map.modify (s.scanIndex off) fun r =>
          { r with payload := bytes }).layout = s.layout := hlayout _
      have hlt : s.scanIndex off < (s.onMap s.current fun map =>
          map.modify (s.scanIndex off) fun r => { r with payload := bytes }).layout.resources := by
        rw [hwide]
        exact s.scanIndex_lt hplaces.1
      exact hlt
  | copy index descriptor bytes hostTimeNs hpc =>
      rw [hpc] at hplaces
      have hlayout := s.modify_layout s.current index
        (fun r => { r with payload := bytes ++ r.payload.drop bytes.length })
      refine h.touched (fun r => { r with payload := bytes ++ r.payload.drop bytes.length })
        (s.record_modify _ _
          (fun r => { r with payload := bytes ++ r.payload.drop bytes.length }) _ fun _ => rfl) rfl
        (fun h0 => Or.inl h0) hlayout rfl rfl fun _ => ⟨rfl, ?_⟩
      have hwide : (s.onMap s.current fun map => map.modify index fun r =>
          { r with payload := bytes ++ r.payload.drop bytes.length }).layout = s.layout := hlayout _
      have hlt : index < (s.onMap s.current fun map => map.modify index fun r =>
          { r with payload := bytes ++ r.payload.drop bytes.length }).layout.resources := by
        rw [hwide]
        exact hplaces
      exact hlt
  | describe p after hpc =>
      rw [hpc] at hplaces
      have hlayout := s.modify_layout p.generation p.index
        (fun r => { r with descriptor := p.descriptor })
      refine h.touched (fun r => { r with descriptor := p.descriptor })
        (s.record_modify _ _ (fun r => { r with descriptor := p.descriptor }) _ fun _ => rfl) rfl
        (fun h0 => Or.inl h0) hlayout rfl rfl fun _ => ⟨hplaces.1, ?_⟩
      have hwide : (s.onMap p.generation fun map => map.modify p.index fun r =>
          { r with descriptor := p.descriptor }).layout = s.layout := hlayout _
      have hlt : p.index < (s.onMap p.generation fun map => map.modify p.index fun r =>
          { r with descriptor := p.descriptor }).layout.resources := by
        rw [hwide]
        exact hplaces.2
      exact hlt
  | store p after hpc =>
      have hpub := hr.published
      have hnext : p.descriptor.cursor = s.producer.cursor + 1 :=
        hpub.writing p (by rw [hpc]; rfl)
      rw [hpc] at hplaces
      obtain ⟨hcurrent, hlt⟩ := hplaces
      have hhalf : (2 * p.descriptor.cursor + 1) / 2 = p.descriptor.cursor := by omega
      have hold : (s.record s.current p.index).state / 2 ≤ p.descriptor.cursor := by
        by_cases hzero : (s.record s.current p.index).state / 2 = 0
        · omega
        · obtain ⟨q, hq, -, -⟩ := h.known _ _ hzero
          obtain ⟨-, -, hle⟩ := hpub.logs _ q hq
          rw [hpc] at hle
          have hle := hle.resolve_right (by rintro ⟨⟩)
          omega
      have hrec := s.record_modify p.generation p.index
        (fun r => { r with state := 2 * p.descriptor.cursor + 1 }) _ fun _ => rfl
      rw [hcurrent] at hrec
      refine h.restated hl hlt ?_ (by rw [hhalf]; exact hold)
        (s.modify_layout p.generation p.index _) (fun c q hq => ?_) (fun c q hq => ?_)
        (Or.inr ⟨p, ?_, hcurrent, rfl⟩) rfl trivial
      · intro g' index'
        have hrec' := hrec g' index'
        rw [← hrec', hcurrent]
        rfl
      · have hq : Function.update s.log p.descriptor.cursor (some p) c = some q := hq
        by_cases hc : c = p.descriptor.cursor
        · rw [hc, Function.update_self, Option.some.injEq] at hq
          subst hq
          exact Or.inr ⟨hcurrent, rfl, by omega⟩
        · rw [Function.update_of_ne hc] at hq
          exact Or.inl hq
      · -- the cursor is new
        obtain ⟨-, -, hle⟩ := hpub.logs c q hq
        rw [hpc] at hle
        have hle := hle.resolve_right (by rintro ⟨⟩)
        have hne : c ≠ p.descriptor.cursor := by omega
        exact (Function.update_of_ne hne _ _).trans hq
      · rw [hhalf]
        exact Function.update_self _ _ _
  | release g index outcome hpc =>
      exact h.touched (fun r => { r with reserved := false, reservation := .absent })
        (s.record_modify _ _ (fun r => { r with reserved := false, reservation := .absent }) _
          fun _ => rfl) rfl (fun h0 => absurd rfl h0) (s.modify_layout g index _) rfl rfl
        fun _ => trivial
  | unpublish layout index state hpc =>
      rw [hpc] at hplaces hrests
      obtain ⟨hlt, heven⟩ := hplaces
      have hstate : (s.record s.current index).state = state := hrests
      have hhalf : 2 * (state / 2) / 2 = state / 2 := Nat.mul_div_cancel_left _ Nat.two_pos
      have hrec := s.record_modify s.current index (fun r => { r with state := 2 * (state / 2) }) _
        fun _ => rfl
      refine h.restated hl hlt hrec (by rw [hstate, hhalf]) (s.modify_layout s.current index _)
        (fun c p hp => Or.inl hp) (fun c p hp => hp) (Or.inl (by rw [hstate, hhalf])) rfl ?_
      have hafter : ∀ j, j < index + 1 → ((s.onMap s.current fun map => map.modify index fun r =>
          { r with state := 2 * (state / 2) }).record s.current j).state % 2 = 0 := by
        intro j hj
        rw [hrec]
        split_ifs with hslot
        · exact Nat.mul_mod_right 2 _
        · exact heven j (by omega)
      exact hafter
  | unconfigure layout hpc => exact h.quiet rfl rfl kept (by rintro _ ⟨⟩)
  | firstCursor layout hpc =>
      rw [hpc] at hplaces
      refine ⟨h.occupied, h.newest, h.known, fun r hmem index => ?_, trivial⟩
      rcases List.mem_append.mp hmem with hold | hnew
      · exact h.even r hold index
      · rw [List.mem_singleton.mp hnew]
        exact hplaces index
  | _ => exact h.quiet rfl rfl kept trivial

/-- A created arena has published nothing. -/
lemma of_create {page : ℕ} {config : ArenaConfig} {externalBytes : ℕ} {native : Bool}
    (h : Arena.create page config externalBytes native = .ok s) : Placed s := by
  rw [Arena.create] at h
  obtain ⟨x, -, h⟩ := of_bind_ok h
  cases h
  constructor
  case occupied => exact fun g index hocc => by rcases hocc with h0 | h0 <;> exact absurd rfl h0
  case newest => rintro c p ⟨⟩
  case known => exact fun g index hne => absurd (Nat.zero_div 2) hne
  case even => rintro r ⟨⟩
  case places => trivial

end Placed

/-- **The frames are in their places in every reachable arena.** -/
theorem Arena.Reachable.placed {s : Arena} (h : Reachable s) : Placed s :=
  h.induct (fun _ _ _ _ _ h₀ => Placed.of_create h₀) fun _ _ ha hp hs => hp.acts ha hs

end Jackstay.Acquisition
