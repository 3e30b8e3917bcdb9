import Mathlib.Data.Finset.Card
import Mathlib.Order.Interval.Finset.Nat
import Jackstay.Video.NativeTrack
import Jackstay.Video.PageReads

/-!
A native producer does not stage into a surface that a reader may reach.

The producer keeps for each slot of its pool the cursor at which it was last published. The
cursors are reset with the pool; the entries of the old pool stay live, and name another pool.

* `Staging`: the slot cursors, the live window and the staged frames, related.
* `Staging.not_live`: what the backend may claim is named by no live entry.
* `Staging.candidates_ne_nil`: there is a candidate, as more slots than live cursors.
* `staged_unreachable`: every run with backends that claim what they are offered, and pools
  that are new.
-/

namespace Jackstay.Video

open Seqlock Transition

/-! ### The last frame of a surface -/

section LastStaged

variable {F : Type} {x y : Surface} {frame : F}

/-- The frame that was last staged into a surface. -/
def lastStaged (staged : List (Surface × F)) (x : Surface) : Option F :=
  ((staged.filter fun y => y.1 == x).getLast?).map (·.2)

lemma lastStaged_self (staged : List (Surface × F)) (x : Surface) (frame : F) :
    lastStaged (staged ++ [(x, frame)]) x = some frame := by
  rw [lastStaged, List.filter_append, List.filter_singleton, beq_self_eq_true]
  exact congrArg (Option.map _) List.getLast?_concat

lemma lastStaged_of_ne (staged : List (Surface × F)) (frame : F) (hne : x ≠ y) :
    lastStaged (staged ++ [(x, frame)]) y = lastStaged staged y := by
  have hno : ((x, frame).1 == y) = false := beq_false_of_ne hne
  rw [lastStaged, List.filter_append, List.filter_singleton, hno, cond_false, List.append_nil]
  rfl

end LastStaged

/-! ### The entries of a page -/

/-- The surface that an entry names. -/
def PendingVideoRingEntry.surface (e : PendingVideoRingEntry) : Surface := (e.poolId, e.slotId)

/-- The entry that `push` has not logged yet. -/
def PushPc.pending : PushPc → List PendingVideoRingEntry
  | .config e | .configStore e _ _ | .configCursor e _ | .slot e _ => [e]
  | _ => []

namespace Page

variable {p p' : Page}

/-- The entries that were given to `push`. -/
def entered (p : Page) : List PendingVideoRingEntry := p.pushes.map (·.1) ++ p.push.pending

/-- The cursor is in the live window of the page: `oldest_live_cursor` and `latest_cursor`. -/
def Live (p : Page) (cursor : ℕ) : Prop :=
  p.producerCursor - min p.producerCursor p.slotCapacity + 1 ≤ cursor ∧ cursor ≤ p.producerCursor

/-- A store of `push` leaves the entries that were given to it. -/
lemma entered_store (hs : p.pushStep = some p') :
    p'.entered = p.entered ∧ p'.slotCapacity = p.slotCapacity := by
  unfold pushStep at hs
  split at hs
  · cases hs
  · rename_i e hpc
    have hpending : p.push.pending = [e] := by rw [hpc]; rfl
    split at hs
    · split_ifs at hs
      · cases hs
        exact ⟨by rw [entered, entered, hpending]; rfl, rfl⟩
      · cases hs
        exact ⟨by rw [entered, entered, hpending]; rfl, rfl⟩
    · cases hs
      exact ⟨by rw [entered, entered, hpending]; rfl, rfl⟩
  · rename_i e generation hpc
    cases hs
    exact ⟨by rw [entered, entered, hpc]; rfl, rfl⟩
  · rename_i e generation f todo hpc
    cases hs
    exact ⟨by rw [entered, entered, hpc]; rfl, rfl⟩
  · rename_i e generation hpc
    cases hs
    exact ⟨by rw [entered, entered, hpc]; rfl, rfl⟩
  · rename_i e generation hpc
    cases hs
    refine ⟨?_, rfl⟩
    rw [entered, entered, hpc]
    show (p.pushes ++ [(e, generation)]).map _ ++ [] = _
    rw [List.map_append, List.append_nil]
    rfl
  · rename_i cursor hpc
    cases hs
    exact ⟨by rw [entered, entered, hpc]; rfl, rfl⟩
  · rename_i e generation cursor f todo hpc
    cases hs
    exact ⟨by rw [entered, entered, hpc]; rfl, rfl⟩
  · rename_i cursor hpc
    cases hs
    exact ⟨by rw [entered, entered, hpc]; rfl, rfl⟩

/-- A load of a reader leaves the page as it is. -/
lemma readStep_frame (hs : p.readStep = some p') :
    p'.pushes = p.pushes ∧ p'.push = p.push ∧ p'.slotCapacity = p.slotCapacity ∧
      p'.producerCursor = p.producerCursor := by
  unfold readStep at hs
  split at hs
  · cases hs
  · cases hs
  · split_ifs at hs
    all_goals
      cases hs
      exact ⟨rfl, rfl, rfl, rfl⟩
  · dsimp only at hs
    split_ifs at hs
    all_goals
      cases hs
      exact ⟨rfl, rfl, rfl, rfl⟩
  · cases hs
    exact ⟨rfl, rfl, rfl, rfl⟩
  · cases hs
    exact ⟨rfl, rfl, rfl, rfl⟩
  · dsimp only at hs
    split_ifs at hs
    all_goals
      cases hs
      exact ⟨rfl, rfl, rfl, rfl⟩
  · split_ifs at hs
    all_goals
      cases hs
      exact ⟨rfl, rfl, rfl, rfl⟩
  · cases hs
    exact ⟨rfl, rfl, rfl, rfl⟩
  · dsimp only at hs
    split_ifs at hs
    all_goals
      cases hs
      exact ⟨rfl, rfl, rfl, rfl⟩

/-- The cursor of the producer counts the entries, but for the one that is being pushed. -/
lemma Producing.entered_length (h : p.Producing) :
    p.entered.length = if p.push = .idle then p.producerCursor else p.producerCursor + 1 := by
  have hhere := h.here
  rw [entered, List.length_append, List.length_map]
  cases hpc : p.push with
  | idle =>
      rw [hpc] at hhere
      rw [if_pos rfl, hhere.2]
      rfl
  | config e =>
      rw [hpc] at hhere
      rw [if_neg (by intro h0; cases h0), hhere.2]
      rfl
  | configStore e generation todo =>
      rw [hpc] at hhere
      rw [if_neg (by intro h0; cases h0), hhere.1.2]
      rfl
  | configCursor e generation =>
      rw [hpc] at hhere
      rw [if_neg (by intro h0; cases h0), hhere.1.2]
      rfl
  | slot e generation =>
      rw [hpc] at hhere
      rw [if_neg (by intro h0; cases h0), hhere.1.2]
      rfl
  | slotStore e generation cursor todo =>
      rw [hpc] at hhere
      rw [if_neg (by intro h0; cases h0), hhere.1.2, hhere.2.1]
      rfl
  | cursor cursor =>
      rw [hpc] at hhere
      rw [if_neg (by intro h0; cases h0), hhere.1.2, hhere.2]
      rfl

end Page

/-! ### The producer -/

variable {F : Type} {p p' : NativeTrackProducer F}

/-- **What the backend promises**: a claim is one of the candidates, and a pool is new. -/
def Honest (p : NativeTrackProducer F) : NativeLabel F → Prop
  | .publish _ _ a => ∀ slotId, a.claim = .ok (.ready slotId) →
      ∃ c ∈ p.candidates a.hint, c.slotId = slotId
  | .replacePool _ _ pool => pool ∉ p.pools
  | _ => True

/-- **The invariant of a producer.** -/
structure Staging (p : NativeTrackProducer F) : Prop where
  page : p.page.Producing ∧ p.page.Reading p.page.read
  capacity : p.page.slotCapacity < p.poolSlotCount
  hint : p.nextSlotHint < p.poolSlotCount
  slots : p.slotCursors.length = p.poolSlotCount
  entered : p.page.entered.map (·.surface) = p.published.map (·.1)
  idle : (∀ slotId, p.pc ≠ .pushing slotId) →
    p.page.push = .idle ∧ p.lastCursor = p.published.length
  pushing : ∀ slotId, p.pc = .pushing slotId → p.published.length = p.lastCursor + 1 ∧
    slotId < p.poolSlotCount ∧
    ∃ frame, Logged p.published (p.lastCursor + 1) ((p.pool, slotId), frame)
  pools : p.pool ∈ p.pools ∧ ∀ x ∈ p.published, x.1.1 ∈ p.pools
  /-- a published slot of the pool has a cursor that is as late -/
  cursors : ∀ c slotId frame, c ≤ p.lastCursor →
    Logged p.published c ((p.pool, slotId), frame) →
    slotId < p.poolSlotCount ∧ c ≤ p.slotCursors.getD slotId 0
  /-- the slot was published at its cursor -/
  named : ∀ slotId, p.slotCursors.getD slotId 0 ≠ 0 →
    p.slotCursors.getD slotId 0 ≤ p.lastCursor ∧
    ∃ frame, Logged p.published (p.slotCursors.getD slotId 0) ((p.pool, slotId), frame)
  staged : ∀ c x, Logged p.published c x → p.lastCursor < c + p.page.slotCapacity →
    lastStaged p.staged x.1 = some x.2

namespace Staging

/-- The cursor of the page is the last one, or the one that is being published. -/
lemma producerCursor (h : Staging p) : p.lastCursor ≤ p.page.producerCursor ∧
    p.page.producerCursor ≤ p.published.length ∧
    (p.page.push = .idle → p.page.producerCursor = p.published.length) := by
  have hlength := h.page.1.entered_length
  have hsame : p.page.entered.length = p.published.length := by
    have hmap := congrArg List.length h.entered
    rwa [List.length_map, List.length_map] at hmap
  by_cases hpc : ∃ slotId, p.pc = .pushing slotId
  · obtain ⟨slotId, hpc⟩ := hpc
    obtain ⟨hlast, -⟩ := h.pushing slotId hpc
    split_ifs at hlength with hpush
    · exact ⟨by omega, by omega, fun _ => by omega⟩
    · exact ⟨by omega, by omega, fun h0 => absurd h0 hpush⟩
  · obtain ⟨hpush, hlast⟩ := h.idle fun slotId h0 => hpc ⟨slotId, h0⟩
    rw [if_pos hpush] at hlength
    exact ⟨by omega, by omega, fun _ => by omega⟩

/-- Between two calls nothing is being pushed. -/
lemma resting (h : Staging p) (hpc : p.pc = .idle) :
    p.page.push = .idle ∧ p.lastCursor = p.published.length :=
  h.idle fun _ h0 => (nomatch hpc.symm.trans h0)

/-- The surface of a published frame is the one that its entry names. -/
lemma entry (h : Staging p) {c : ℕ} {e : PendingVideoRingEntry} {generation : ℕ}
    (he : Logged p.page.pushes c (e, generation)) :
    ∃ frame, Logged p.published c (e.surface, frame) := by
  have hpushed : Logged (p.page.entered.map (·.surface)) c e.surface := by
    refine ⟨he.1, ?_⟩
    have hlt : c - 1 < (p.page.pushes.map (·.1)).length := by
      rw [List.length_map]
      exact (List.getElem?_eq_some_iff.mp he.2).1
    rw [List.getElem?_map, Page.entered, List.getElem?_append_left hlt, List.getElem?_map, he.2]
    rfl
  rw [h.entered] at hpushed
  obtain ⟨hpos, hx⟩ := hpushed
  rw [List.getElem?_map] at hx
  obtain ⟨⟨surface, frame⟩, hx, hsurface⟩ := Option.map_eq_some_iff.mp hx
  cases hsurface
  exact ⟨frame, hpos, hx⟩

/-- **What may be claimed is named by no live entry.** -/
lemma not_live (h : Staging p) (hpc : p.pc = .idle) {hint : Option ℕ} {x : SlotReuseCandidate}
    (hx : x ∈ p.candidates hint) : x.slotId < p.poolSlotCount ∧
      ∀ c y, Logged p.published c y → p.lastCursor < c + p.page.slotCapacity →
        y.1 ≠ (p.pool, x.slotId) := by
  obtain ⟨offset, -, hoffset⟩ := List.mem_filterMap.mp hx
  dsimp only at hoffset
  split_ifs at hoffset with hhint hreachable
  cases hoffset
  have hpos : 0 < p.poolSlotCount := Nat.zero_lt_of_lt h.capacity
  refine ⟨Nat.mod_lt _ hpos, fun c y hy hlive hsame => hreachable ?_⟩
  obtain ⟨⟨pool, slotId⟩, frame⟩ := y
  cases hsame
  have hle : c ≤ p.lastCursor := by
    rw [(h.resting hpc).2]
    exact hy.le
  have hcursor := (h.cursors c _ frame hle hy).2
  have hfirst := hy.1
  dsimp only at hcursor
  rw [NativeTrackProducer.oldestLiveCursor]
  exact ⟨by omega, by omega⟩

/-- Every slot comes up once. -/
lemma exists_offset {count hint slotId : ℕ} (hhint : hint < count) (hslot : slotId < count) :
    ∃ offset < count, (hint + offset) % count = slotId := by
  rcases Nat.lt_or_ge slotId hint with hlt | hge
  · refine ⟨slotId + count - hint, by omega, ?_⟩
    rw [show hint + (slotId + count - hint) = slotId + count by omega, Nat.add_mod_right]
    exact Nat.mod_eq_of_lt hslot
  · refine ⟨slotId - hint, by omega, ?_⟩
    rw [show hint + (slotId - hint) = slotId by omega]
    exact Nat.mod_eq_of_lt hslot

/-- **There is a candidate.** The slots that are reachable were published at different cursors
of the live window, and there are fewer of these than slots. -/
lemma candidates_ne_nil (h : Staging p) : p.candidates none ≠ [] := by
  intro hempty
  have hall : ∀ slotId < p.poolSlotCount, p.slotCursors.getD slotId 0 ≠ 0 ∧
      p.oldestLiveCursor ≤ p.slotCursors.getD slotId 0 := by
    intro slotId hslot
    obtain ⟨offset, hoffset, hmod⟩ := exists_offset h.hint hslot
    by_contra hfree
    have hmem : (⟨slotId, p.slotCursors.getD slotId 0⟩ : SlotReuseCandidate) ∈
        p.candidates none := by
      refine List.mem_filterMap.mpr ⟨offset, List.mem_range.mpr hoffset, ?_⟩
      dsimp only
      rw [hmod, if_neg hfree]
      rfl
    rw [hempty] at hmem
    cases hmem
  have hcard : (Finset.range p.poolSlotCount).card ≤
      (Finset.Icc p.oldestLiveCursor p.lastCursor).card := by
    refine Finset.card_le_card_of_injOn (fun slotId => p.slotCursors.getD slotId 0) ?_ ?_
    · intro slotId hslot
      obtain ⟨hpos, hold⟩ := hall slotId (Finset.mem_range.mp hslot)
      exact Finset.mem_Icc.mpr ⟨hold, (h.named slotId hpos).1⟩
    · intro a ha b hb hab
      obtain ⟨-, frame, hfirst⟩ := h.named a (hall a (Finset.mem_range.mp ha)).1
      obtain ⟨-, frame', hsecond⟩ := h.named b (hall b (Finset.mem_range.mp hb)).1
      have hab : p.slotCursors.getD a 0 = p.slotCursors.getD b 0 := hab
      rw [← hab] at hsecond
      cases hfirst.unique hsecond
      rfl
  rw [Finset.card_range, Nat.card_Icc, NativeTrackProducer.oldestLiveCursor] at hcard
  have hcapacity := h.capacity
  omega

/-! ### Steps -/

/-- A step that concerns the counters and the result only. -/
lemma counted (h : Staging p) (hp : p' = { p with
    sequence := p'.sequence
    fenceValue := p'.fenceValue
    pendingDropped := p'.pendingDropped
    producerDropCount := p'.producerDropCount
    result := p'.result }) : Staging p' := by
  rw [hp]
  exact ⟨h.page, h.capacity, h.hint, h.slots, h.entered, h.idle, h.pushing, h.pools, h.cursors,
    h.named, h.staged⟩

lemma panics (h : Staging p) (hpc : p.pc = .idle) : Staging { p with pc := .panicked } :=
  ⟨h.page, h.capacity, h.hint, h.slots, h.entered, fun _ => h.resting hpc,
    fun _ h0 => (nomatch h0), h.pools, h.cursors, h.named, h.staged⟩

/-- A frame is staged into a surface that may be claimed. -/
lemma stage (h : Staging p) (hpc : p.pc = .idle) {hint : Option ℕ} {x : SlotReuseCandidate}
    (hx : x ∈ p.candidates hint) (frame : F) : Staging (p.stage frame x.slotId) := by
  refine ⟨h.page, h.capacity, h.hint, h.slots, h.entered, h.idle, h.pushing, h.pools, h.cursors,
    h.named, fun c y hy hlive => ?_⟩
  have hne := (h.not_live hpc hx).2 c y hy hlive
  show lastStaged (p.staged ++ [((p.pool, x.slotId), frame)]) y.1 = some y.2
  rw [lastStaged_of_ne _ _ hne.symm]
  exact h.staged c y hy hlive

/-- The descriptor of a frame that has been staged is pushed. -/
lemma push (h : Staging p) (hpc : p.pc = .idle) {slotId : ℕ} (hslot : slotId < p.poolSlotCount)
    {frame : F} (hstaged : lastStaged p.staged (p.pool, slotId) = some frame) (timestampNs : ℕ) :
    Staging (p.push frame timestampNs slotId) := by
  obtain ⟨hpush, hlast⟩ := h.resting hpc
  have hpage : p.page.step (.push (p.entry slotId timestampNs)) =
      some (p.push frame timestampNs slotId).page := by
    rw [Page.step, if_pos hpush]
    rfl
  have hproducing := Page.Producing.step h.page hpage
  have hold : ∀ c y, Logged (p.published ++ [((p.pool, slotId), frame)]) c y →
      c ≤ p.lastCursor → Logged p.published c y := by
    intro c y hy hle
    exact hy.of_append (hlast ▸ hle)
  have hnew := Logged.last p.published ((p.pool, slotId), frame)
  rw [← hlast] at hnew
  refine ⟨hproducing, h.capacity, h.hint, h.slots, ?_, fun h0 => absurd rfl (h0 slotId),
    fun k hk => ?_, ?_,
    fun c k f hle hy => h.cursors c k f hle (hold c _ hy hle), fun k hk => ?_,
    fun c y hy hlive => ?_⟩
  · show (p.page.pushes.map (·.1) ++ [p.entry slotId timestampNs]).map (·.surface) =
      (p.published ++ [((p.pool, slotId), frame)]).map (·.1)
    have hentered := h.entered
    rw [Page.entered, hpush] at hentered
    rw [List.map_append, List.map_append, ← hentered]
    show _ = List.map _ (_ ++ []) ++ _
    rw [List.append_nil]
    rfl
  · cases hk
    refine ⟨?_, hslot, frame, hnew⟩
    show (p.published ++ [_]).length = p.lastCursor + 1
    rw [List.length_append, hlast]
    rfl
  · refine ⟨h.pools.1, fun x hx => ?_⟩
    rcases List.mem_append.mp hx with hx | hx
    · exact h.pools.2 x hx
    · cases List.mem_singleton.mp hx
      exact h.pools.1
  · obtain ⟨hle, f, hf⟩ := h.named k hk
    exact ⟨hle, f, hf.append _⟩
  · rcases Nat.lt_or_ge p.lastCursor c with hlt | hge
    · have hc : c = p.lastCursor + 1 := by
        have hle : c ≤ (p.published ++ [((p.pool, slotId), frame)]).length := hy.le
        rw [List.length_append, List.length_singleton] at hle
        omega
      subst hc
      cases hy.unique hnew
      exact hstaged
    · exact h.staged c y (hold c y hy hge) hlive

/-- The page has gone on: a store of `push`, or a step of a reader. -/
lemma paged (h : Staging p) {page : Page} {l : PageLabel} (hl : ∀ e, l ≠ .push e)
    (hpage : p.page.step l = some page) : Staging { p with page } := by
  have hproducing := Page.Producing.step h.page hpage
  have hframe : page.entered = p.page.entered ∧ page.slotCapacity = p.page.slotCapacity ∧
      (p.page.push = .idle → page.push = .idle) := by
    cases l with
    | push e => exact absurd rfl (hl e)
    | store =>
        obtain ⟨hentered, hcapacity⟩ := Page.entered_store hpage
        refine ⟨hentered, hcapacity, fun hidle => ?_⟩
        rw [Page.step, Page.pushStep, hidle] at hpage
        cases hpage
    | read cursor =>
        rw [Page.step] at hpage
        split_ifs at hpage
        cases hpage
        exact ⟨rfl, rfl, fun hidle => hidle⟩
    | load =>
        obtain ⟨hpushes, hpush, hcapacity, -⟩ := Page.readStep_frame hpage
        refine ⟨?_, hcapacity, fun hidle => hpush.trans hidle⟩
        rw [Page.entered, Page.entered, hpushes, hpush]
  obtain ⟨hentered, hcapacity, hidle⟩ := hframe
  refine ⟨hproducing, ?_, h.hint, h.slots, ?_, fun hpc => ?_, h.pushing, h.pools, h.cursors, h.named,
    fun c y hy hlive => ?_⟩
  · show page.slotCapacity < _
    rw [hcapacity]
    exact h.capacity
  · show page.entered.map _ = _
    rw [hentered]
    exact h.entered
  · exact ⟨hidle (h.idle hpc).1, (h.idle hpc).2⟩
  · have hlive : p.lastCursor < c + page.slotCapacity := hlive
    rw [hcapacity] at hlive
    exact h.staged c y hy hlive

lemma getD_replicate (count k : ℕ) : (List.replicate count 0).getD k 0 = 0 := by
  rw [List.getD_eq_getElem?_getD, List.getElem?_replicate]
  split_ifs
  · rfl
  · rfl

lemma getD_set {xs : List ℕ} {i j n : ℕ} (hi : i < xs.length) :
    (xs.set i n).getD j 0 = if i = j then n else xs.getD j 0 := by
  rw [List.getD_eq_getElem?_getD, List.getD_eq_getElem?_getD, List.getElem?_set]
  by_cases hij : i = j
  · rw [if_pos hij, if_pos hij, if_pos hi]
    rfl
  · rw [if_neg hij, if_neg hij]

/-- `push` has returned. -/
lemma finish (h : Staging p) {slotId : ℕ} (hpc : p.pc = .pushing slotId)
    (hpush : p.page.push = .idle) : Staging (p.finish slotId) := by
  obtain ⟨hlength, hslot, frame, hframe⟩ := h.pushing slotId hpc
  have hcursor : p.page.producerCursor = p.lastCursor + 1 := by
    rw [h.producerCursor.2.2 hpush]
    exact hlength
  have hset : ∀ k, (p.slotCursors.set slotId p.page.producerCursor).getD k 0 =
      if slotId = k then p.lastCursor + 1 else p.slotCursors.getD k 0 := by
    intro k
    rw [getD_set (by rw [h.slots]; exact hslot), hcursor]
  refine ⟨h.page, h.capacity, Nat.mod_lt _ (Nat.zero_lt_of_lt hslot), ?_, h.entered,
    fun _ => ⟨hpush, ?_⟩, fun k hk => (nomatch hk), h.pools, fun c k f hle hy => ?_, fun k hk => ?_,
    fun c y hy hlive => ?_⟩
  · show (p.slotCursors.set slotId _).length = _
    rw [List.length_set]
    exact h.slots
  · exact hcursor.trans hlength.symm
  · have hle : c ≤ p.page.producerCursor := hle
    show k < p.poolSlotCount ∧ c ≤ (p.slotCursors.set slotId p.page.producerCursor).getD k 0
    rw [hset k]
    rw [hcursor] at hle
    rcases Nat.lt_or_ge p.lastCursor c with hlt | hge
    · have hc : c = p.lastCursor + 1 := by omega
      subst hc
      cases hy.unique hframe
      rw [if_pos rfl]
      exact ⟨hslot, le_rfl⟩
    · obtain ⟨hk, hc⟩ := h.cursors c k f hge hy
      refine ⟨hk, ?_⟩
      split_ifs
      · omega
      · exact hc
  · have hk : (p.slotCursors.set slotId p.page.producerCursor).getD k 0 ≠ 0 := hk
    show (p.slotCursors.set slotId p.page.producerCursor).getD k 0 ≤ p.page.producerCursor ∧
      ∃ f, Logged p.published ((p.slotCursors.set slotId p.page.producerCursor).getD k 0)
        ((p.pool, k), f)
    rw [hset k] at hk ⊢
    rw [hcursor]
    split_ifs at hk ⊢ with hsame
    · subst hsame
      exact ⟨le_rfl, frame, hframe⟩
    · obtain ⟨hle, f, hf⟩ := h.named k hk
      exact ⟨by omega, f, hf⟩
  · have hlive : p.page.producerCursor < c + p.page.slotCapacity := hlive
    exact h.staged c y hy (by omega)

/-- `replace_pool`. -/
lemma replacePool (h : Staging p) (hpc : p.pc = .idle) {params : NativeStreamParams}
    {poolSlotCount pool : ℕ} (hnew : pool ∉ p.pools) :
    Staging (p.replacePool params poolSlotCount pool) := by
  rw [NativeTrackProducer.replacePool]
  split_ifs with hsmall
  · exact h.counted rfl
  · refine ⟨h.page, Nat.lt_of_not_le hsmall, Nat.zero_lt_of_lt (Nat.lt_of_not_le hsmall),
      List.length_replicate, h.entered, h.idle, fun k hk => ?_, ⟨?_, fun x hx => ?_⟩,
      fun c k f _ hy => ?_, fun k hk => absurd (getD_replicate poolSlotCount k) hk, h.staged⟩
    · cases hpc.symm.trans hk
    · exact List.mem_append_right _ List.mem_cons_self
    · exact List.mem_append_left _ (h.pools.2 x hx)
    · exact absurd (h.pools.2 _ hy.mem) hnew

/-- A claim is answered by `stage_frame`, `signal_fence` and `push`. -/
lemma claimed (h : Staging p) (hpc : p.pc = .idle) {hint : Option ℕ} {x : SlotReuseCandidate}
    (hx : x ∈ p.candidates hint) (frame : F) (timestampNs : ℕ) (a : Answers) :
    Staging (p.onClaimed frame timestampNs x.slotId a) ∧
      (p.onClaimed frame timestampNs x.slotId a).staged =
        p.staged ++ [((p.pool, x.slotId), frame)] := by
  have hstage := h.stage hpc hx frame
  have hslot := (h.not_live hpc hx).1
  have hadvanced : Staging (p.stage frame x.slotId).advance := hstage.counted rfl
  rw [NativeTrackProducer.onClaimed]
  dsimp only
  split
  · exact ⟨hstage.counted rfl, rfl⟩
  · split_ifs
    · exact ⟨hstage.panics hpc, rfl⟩
    · split
      · exact ⟨hadvanced.counted rfl, rfl⟩
      · exact ⟨hadvanced.push hpc hslot (lastStaged_self _ _ _) timestampNs, rfl⟩

/-- **Every step keeps the invariant**, and what it stages is named by no live entry. -/
theorem step (h : Staging p) {l : NativeLabel F} (hl : Honest p l) (hs : p.step l = some p') :
    Staging p' ∧ (p'.staged = p.staged ∨ ∃ x frame, p'.staged = p.staged ++ [(x, frame)] ∧
      p.pc = .idle ∧ ∀ c y, Logged p.published c y → p.lastCursor < c + p.page.slotCapacity →
        y.1 ≠ x) := by
  cases l with
  | publish frame timestampNs a =>
      simp only [NativeTrackProducer.step] at hs
      split_ifs at hs with hpc
      cases hs
      rw [NativeTrackProducer.publish]
      split_ifs
      · exact ⟨h.panics hpc, Or.inl rfl⟩
      · split
        · exact ⟨h.counted rfl, Or.inl rfl⟩
        · rw [NativeTrackProducer.onExhausted]
          split
          · split_ifs
            · exact ⟨h.panics hpc, Or.inl rfl⟩
            · exact ⟨h.counted rfl, Or.inl rfl⟩
          · exact ⟨h.counted rfl, Or.inl rfl⟩
        · rename_i slotId hclaim
          obtain ⟨x, hx, rfl⟩ := hl slotId hclaim
          obtain ⟨hstaging, hstaged⟩ := h.claimed hpc hx frame timestampNs a
          exact ⟨hstaging, Or.inr ⟨_, frame, hstaged, hpc, (h.not_live hpc hx).2⟩⟩
  | store =>
      obtain ⟨page, hpage, rfl⟩ := Option.map_eq_some_iff.mp hs
      exact ⟨h.paged (by intro e h0; cases h0) hpage, Or.inl rfl⟩
  | finish =>
      simp only [NativeTrackProducer.step] at hs
      split at hs
      · rename_i slotId hpc
        split_ifs at hs with hpush
        cases hs
        exact ⟨h.finish hpc hpush, Or.inl rfl⟩
      · cases hs
  | replacePool params poolSlotCount pool =>
      simp only [NativeTrackProducer.step] at hs
      split_ifs at hs with hpc
      cases hs
      refine ⟨h.replacePool hpc hl, Or.inl ?_⟩
      rw [NativeTrackProducer.replacePool]
      split_ifs
      · rfl
      · rfl
  | read cursor =>
      obtain ⟨page, hpage, rfl⟩ := Option.map_eq_some_iff.mp hs
      exact ⟨h.paged (by intro e h0; cases h0) hpage, Or.inl rfl⟩
  | load =>
      obtain ⟨page, hpage, rfl⟩ := Option.map_eq_some_iff.mp hs
      exact ⟨h.paged (by intro e h0; cases h0) hpage, Or.inl rfl⟩

lemma fromAllocatedParts {backend : Backend} {params : NativeStreamParams}
    {ringCapacity poolSlotCount pool : ℕ} {policy : PoolExhaustionPolicy}
    (hp : NativeTrackProducer.fromAllocatedParts backend params ringCapacity poolSlotCount pool
      policy = .ok p) : Staging p := by
  rw [NativeTrackProducer.fromAllocatedParts] at hp
  split_ifs at hp with hsmall
  cases hp
  exact ⟨⟨Page.producing_new ringCapacity, trivial⟩, Nat.lt_of_not_le hsmall,
    Nat.zero_lt_of_lt (Nat.lt_of_not_le hsmall), List.length_replicate, rfl, fun _ => ⟨rfl, rfl⟩,
    fun k hk => (nomatch hk), ⟨List.mem_cons_self, fun x hx => (nomatch hx)⟩,
    fun c k f _ hy => (nomatch hy.2), fun k hk => absurd (getD_replicate poolSlotCount k) hk,
    fun c y hy _ => (nomatch hy.2)⟩

/-- A live cursor of the page is live for the producer. -/
lemma live (h : Staging p) {c : ℕ} (hc : p.page.Live c) :
    p.lastCursor < c + p.page.slotCapacity := by
  obtain ⟨hold, hlast⟩ := hc
  have hcursor := h.producerCursor.1
  have hcapacity := h.capacity
  omega

/-- Every live cursor has an entry, whose surface holds the frame that was published there. -/
lemma holds (h : Staging p) {c : ℕ} (hc : p.page.Live c) {e : PendingVideoRingEntry}
    {generation : ℕ} (he : Logged p.page.pushes c (e, generation)) :
    ∃ frame, Logged p.published c (e.surface, frame) ∧
      lastStaged p.staged e.surface = some frame := by
  obtain ⟨frame, hframe⟩ := h.entry he
  exact ⟨frame, hframe, h.staged c _ hframe (h.live hc)⟩

lemma pushed (h : Staging p) {c : ℕ} (hc : p.page.Live c) :
    ∃ e generation, Logged p.page.pushes c (e, generation) := by
  obtain ⟨hold, hlast⟩ := hc
  have hlength : p.page.producerCursor ≤ p.page.pushes.length := by
    have hhere := h.page.1.here
    cases hpc : p.page.push with
    | idle =>
        rw [hpc] at hhere
        exact hhere.2.ge
    | config e =>
        rw [hpc] at hhere
        exact hhere.2.ge
    | configStore e generation todo =>
        rw [hpc] at hhere
        exact hhere.1.2.ge
    | configCursor e generation =>
        rw [hpc] at hhere
        exact hhere.1.2.ge
    | slot e generation =>
        rw [hpc] at hhere
        exact hhere.1.2.ge
    | slotStore e generation cursor todo =>
        rw [hpc] at hhere
        obtain ⟨⟨-, hpushes⟩, hcursor, -⟩ := hhere
        omega
    | cursor cursor =>
        rw [hpc] at hhere
        obtain ⟨⟨-, hpushes⟩, hcursor⟩ := hhere
        omega
  have hlt : c - 1 < p.page.pushes.length := by omega
  exact ⟨(p.page.pushes.get ⟨c - 1, hlt⟩).1, (p.page.pushes.get ⟨c - 1, hlt⟩).2, by omega,
    List.getElem?_eq_getElem hlt⟩

end Staging

/-- The entry at this cursor names the surface. -/
def NativeTrackProducer.Names (p : NativeTrackProducer F) (c : ℕ) (x : Surface) : Prop :=
  ∃ e generation, Logged p.page.pushes c (e, generation) ∧ e.surface = x

/-- **A producer does not stage into a reachable surface.** For every ring and every pool that
`from_allocated_parts` accepts, and every run of the producer with any answers of its backend,
any replacements of the pool and any reads of the page, where the backend claims what it was
offered and a new pool has a new id:

* the frame of a step is staged into a surface that no live entry names;
* every live entry names a surface, the last frame of which is the one that was published
  at its cursor, and so does what a reader has got for a live cursor;
* without a hint there is a candidate. -/
theorem staged_unreachable {backend : Backend} {params : NativeStreamParams}
    {ringCapacity poolSlotCount pool : ℕ} {policy : PoolExhaustionPolicy}
    {p₀ p : NativeTrackProducer F}
    (hnew : NativeTrackProducer.fromAllocatedParts backend params ringCapacity poolSlotCount pool
      policy = .ok p₀)
    (h : Reaches NativeTrackProducer.step Honest p₀ p) :
    (∀ l p' x frame, Honest p l → p.step l = some p' → p'.staged = p.staged ++ [(x, frame)] →
      ∀ c, p.page.Live c → ¬ p.Names c x) ∧
    (∀ c, p.page.Live c → ∃ e generation frame, Logged p.page.pushes c (e, generation) ∧
      Logged p.published c (e.surface, frame) ∧ lastStaged p.staged e.surface = some frame) ∧
    (∀ c entry, p.page.read = .returned c (.ok entry) → p.page.Live c → ∃ frame,
      Logged p.published c ((entry.poolId, entry.slotId), frame) ∧
      lastStaged p.staged (entry.poolId, entry.slotId) = some frame) ∧
    p.candidates none ≠ [] := by
  have hstaging : Staging p := h.invariant (.fromAllocatedParts hnew)
    fun _ _ _ hp hc hs => (hp.step hc hs).1
  refine ⟨fun l p' x frame hl hs hx c hc hnames => ?_, fun c hc => ?_, fun c entry hread hc => ?_,
    hstaging.candidates_ne_nil⟩
  · obtain ⟨e, generation, he, rfl⟩ := hnames
    obtain ⟨f, hf, -⟩ := hstaging.holds hc he
    rcases (hstaging.step hl hs).2 with hsame | ⟨y, frame', hy, -, hfree⟩
    · rw [hsame] at hx
      exact absurd hx.symm (by simp)
    · rw [hy] at hx
      cases (List.append_cancel_left hx)
      exact hfree c _ hf (hstaging.live hc) rfl
  · obtain ⟨e, generation, he⟩ := hstaging.pushed hc
    obtain ⟨frame, hframe⟩ := hstaging.holds hc he
    exact ⟨e, generation, frame, he, hframe⟩
  · have hreading := hstaging.page.2
    rw [hread] at hreading
    obtain ⟨e, generation, he, rfl⟩ := hreading
    exact hstaging.holds hc he

/-- The check of `Honest`. -/
def honest (p : NativeTrackProducer F) : NativeLabel F → Bool
  | .publish _ _ a =>
      match a.claim with
      | .ok (.ready slotId) => (p.candidates a.hint).any (·.slotId == slotId)
      | _ => true
  | .replacePool _ _ pool => !p.pools.contains pool
  | _ => true

lemma honest_of {l : NativeLabel F} (h : honest p l = true) : Honest p l := by
  cases l with
  | publish frame timestampNs a =>
      intro slotId hclaim
      rw [honest, hclaim] at h
      obtain ⟨c, hc, hslot⟩ := List.any_eq_true.mp h
      exact ⟨c, hc, by simpa using hslot⟩
  | replacePool params poolSlotCount pool =>
      intro hmem
      rw [honest, List.contains_iff_mem.mpr hmem] at h
      cases h
  | _ => trivial

/-- On a ring of one slot: a frame, a new pool, a frame whose fence cannot be signalled, and two
more frames. -/
def replaced : List (NativeLabel ℕ) :=
  [NativeLabel.publish 1 0 { claim := .ok (.ready 0) }] ++
    List.replicate 28 NativeLabel.store ++ [NativeLabel.finish] ++
    [NativeLabel.replacePool ⟨4, 4, 0, 0, 0⟩ 2 8,
      .publish 2 0 { claim := .ok (.ready 0), signal := .error (.nativeBackend "signal" "") },
      .publish 3 0 { claim := .ok (.ready 0) }] ++
    List.replicate 28 NativeLabel.store ++ [NativeLabel.finish] ++
    [NativeLabel.publish 4 0 { claim := .ok (.ready 1), hint := some 1 }]

theorem staged_unreachable_replaced : ∃ p₀ p : NativeTrackProducer ℕ,
    NativeTrackProducer.fromAllocatedParts ⟨1, 1⟩ ⟨2, 2, 0, 0, 0⟩ 1 2 7 .dropFrame = .ok p₀ ∧
    execIn NativeTrackProducer.step honest p₀ replaced = some p ∧
    p.staged = [((7, 0), 1), ((8, 0), 2), ((8, 0), 3), ((8, 1), 4)] ∧
    (∀ l p' x frame, Honest p l → p.step l = some p' → p'.staged = p.staged ++ [(x, frame)] →
      ∀ c, p.page.Live c → ¬ p.Names c x) ∧
    (∀ c, p.page.Live c → ∃ e generation frame, Logged p.page.pushes c (e, generation) ∧
      Logged p.published c (e.surface, frame) ∧ lastStaged p.staged e.surface = some frame) ∧
    (∀ c entry, p.page.read = .returned c (.ok entry) → p.page.Live c → ∃ frame,
      Logged p.published c ((entry.poolId, entry.slotId), frame) ∧
      lastStaged p.staged (entry.poolId, entry.slotId) = some frame) ∧
    p.candidates none ≠ [] := by
  let p₀ : NativeTrackProducer ℕ := {
    backend := ⟨1, 1⟩
    params := ⟨2, 2, 0, 0, 0⟩
    page := Page.new 1
    pool := 7
    poolSlotCount := 2
    exhaustionPolicy := .dropFrame
    slotCursors := [0, 0]
    pools := [7] }
  have hnew : NativeTrackProducer.fromAllocatedParts ⟨1, 1⟩ ⟨2, 2, 0, 0, 0⟩ 1 2 7 .dropFrame =
      .ok p₀ := if_neg (by decide +kernel)
  obtain ⟨p, hp⟩ : ∃ p, execIn NativeTrackProducer.step honest p₀ replaced = some p :=
    Option.isSome_iff_exists.mp (by decide +kernel)
  have hstaged : (execIn NativeTrackProducer.step honest p₀ replaced).map (·.staged) =
      some [((7, 0), 1), ((8, 0), 2), ((8, 0), 3), ((8, 1), 4)] := by decide +kernel
  rw [hp] at hstaged
  exact ⟨p₀, p, hnew, hp, Option.some.inj hstaged, staged_unreachable hnew
    (Reaches.of_execIn (fun _ _ h => honest_of h) hp)⟩

end Jackstay.Video
