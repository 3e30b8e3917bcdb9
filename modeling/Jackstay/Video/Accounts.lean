import Jackstay.Library.Tally
import Jackstay.Video.Window

/-!
What a producer of native frames tells its readers: the pool, the sequence and the drops of
each frame.

* `Told`: the fields of the producer that say so, and the entries that it has pushed.
* `Tells`: what a step does to them.
* `readable_exported`: an entry that can be read names a pool that is exported, as long as no
  more than two pools have come after it.
* `Told.tally`: the numbers and the drops that a producer tells.
* `NativeTrackProducer.balanced`: they balance, as long as no fence fails to be signalled.
-/

namespace Jackstay.Video

open Seqlock Transition

/-! ### What a step tells -/

/-- What a producer tells, and where it is. -/
structure Told where
  entered : List PendingVideoRingEntry
  pool : ℕ
  retiredPools : List ℕ
  pools : List ℕ
  sequence : ℕ
  pendingDropped : ℕ
  producerDropCount : ℕ
  pc : PublishPc

/-- What has become of a captured frame. -/
inductive FrameEvent where
  | none
  | dropped
  /-- its fence could not be signalled -/
  | lost
  deriving DecidableEq, Repr

/-- **What a step tells.** -/
inductive Tells (t : Told) : FrameEvent → Told → Prop
  | same : Tells t .none t
  | panics : t.pc = .idle → Tells t .none { t with pc := .panicked }
  | drops : t.pc = .idle → ¬ NativeTrackProducer.exhausted t.sequence → Tells t .dropped
      { t with
        sequence := saturatingSucc 64 t.sequence
        pendingDropped := saturatingSucc 32 t.pendingDropped
        producerDropCount := saturatingSucc 64 t.producerDropCount }
  | loses : t.pc = .idle → ¬ NativeTrackProducer.exhausted t.sequence →
      Tells t .lost { t with sequence := saturatingSucc 64 t.sequence }
  | pushes (e : PendingVideoRingEntry) (slotId : ℕ) : t.pc = .idle →
      ¬ NativeTrackProducer.exhausted t.sequence → e.poolId = t.pool →
      e.sequence = saturatingSucc 64 t.sequence → e.droppedBeforePublish = t.pendingDropped →
      e.producerDropCount = t.producerDropCount → Tells t .none
      { t with
        entered := t.entered ++ [e]
        sequence := saturatingSucc 64 t.sequence
        pc := .pushing slotId }
  | finishes (slotId : ℕ) : t.pc = .pushing slotId →
      Tells t .none { t with pendingDropped := 0, pc := .idle }
  | replaces (pool : ℕ) : t.pc = .idle → Tells t .none
      { t with
        pool
        retiredPools := (t.retiredPools ++ [t.pool]).drop ((t.retiredPools ++ [t.pool]).length - 2)
        pools := t.pools ++ [pool] }

namespace NativeTrackProducer

variable {F : Type} {p p' : NativeTrackProducer F}

def told (p : NativeTrackProducer F) : Told where
  entered := p.page.entered
  pool := p.pool
  retiredPools := p.retiredPools
  pools := p.pools
  sequence := p.sequence
  pendingDropped := p.pendingDropped
  producerDropCount := p.producerDropCount
  pc := p.pc

/-- `publish` has returned that the frame was dropped. -/
def returnsDropped (_ : NativeTrackProducer F) : NativeLabel F → NativeTrackProducer F → Bool
  | .publish _ _ _, p =>
      match p.pc, p.result with
      | .idle, .ok .dropped => true
      | _, _ => false
  | _, _ => false

/-- The page between the steps of the producer. -/
structure Paged (p : NativeTrackProducer F) : Prop where
  page : p.page.Producing ∧ p.page.Reading p.page.read
  idle : (∀ slotId, p.pc ≠ .pushing slotId) → p.page.push = .idle

lemma entered_idle (h : p.page.push = .idle) (e : PendingVideoRingEntry) :
    ({ p.page with push := .config e } : Page).entered = p.page.entered ++ [e] := by
  rw [Page.entered, Page.entered, h]
  show p.page.pushes.map (·.1) ++ [e] = p.page.pushes.map (·.1) ++ [] ++ [e]
  rw [List.append_nil]

/-- A step of the page alone tells nothing. -/
lemma Paged.paged (h : Paged p) {page : Page} {l : PageLabel} (hl : ∀ e, l ≠ .push e)
    (hs : p.page.step l = some page) : Paged { p with page } ∧ page.entered = p.page.entered := by
  have hpage := Page.Producing.step h.page hs
  cases l with
  | push e => exact absurd rfl (hl e)
  | store =>
      refine ⟨⟨hpage, fun hpc => ?_⟩, (Page.entered_store hs).1⟩
      have hstuck : p.page.pushStep = none := by rw [Page.pushStep, h.idle hpc]
      cases hstuck.symm.trans hs
  | read cursor =>
      simp only [Page.step] at hs
      split_ifs at hs
      cases hs
      exact ⟨⟨hpage, h.idle⟩, rfl⟩
  | load =>
      obtain ⟨hpushes, hpush, -, -⟩ := Page.readStep_frame hs
      refine ⟨⟨hpage, fun hpc => hpush.trans (h.idle hpc)⟩, ?_⟩
      rw [Page.entered, Page.entered, hpushes, hpush]

/-- `push` is called. -/
lemma Paged.pushing (h : Paged p) (hpc : p.pc = .idle) {p' : NativeTrackProducer F}
    {e : PendingVideoRingEntry} {slotId : ℕ} (hpage : p'.page = { p.page with push := .config e })
    (hpc' : p'.pc = .pushing slotId) : Paged p' := by
  have hidle := h.idle fun _ h0 => (nomatch hpc.symm.trans h0)
  refine ⟨?_, fun hno => absurd hpc' (hno slotId)⟩
  rw [hpage]
  exact Page.Producing.step (l := .push e) h.page (if_pos hidle)

lemma told_page (h : Paged p) {page : Page} {l : PageLabel} (hl : ∀ e, l ≠ .push e)
    (hs : p.page.step l = some page) :
    Paged { p with page } ∧ Tells p.told .none (told { p with page }) := by
  obtain ⟨hpaged, hentered⟩ := h.paged hl hs
  refine ⟨hpaged, ?_⟩
  have htold : told { p with page } = p.told := by rw [told, told, hentered]
  rw [htold]
  exact .same

/-- **What `publish` tells.** -/
lemma told_publish (h : Paged p) (hpc : p.pc = .idle) (frame : F) (timestampNs : ℕ)
    (a : Answers) : Paged (p.publish frame timestampNs a) ∧
    ∃ ev, Tells p.told ev (p.publish frame timestampNs a).told ∧
      (p.returnsDropped (.publish frame timestampNs a) (p.publish frame timestampNs a) = true ↔
        ev = .dropped) ∧
      (ev = .lost → ∃ slotId e, a.claim = .ok (.ready slotId) ∧ a.stage = .ok () ∧
        a.signal = .error e) := by
  have hidle := h.idle fun _ h0 => by cases hpc.symm.trans h0
  have hkept : ∀ p' : NativeTrackProducer F, p'.page = p.page → Paged p' := by
    intro p' hpage
    refine ⟨?_, fun _ => ?_⟩
    · rw [hpage]
      exact h.page
    · rw [hpage]
      exact hidle
  rw [publish]
  split_ifs
  · exact ⟨hkept _ rfl, .none, .panics hpc, iff_of_false (by rintro ⟨⟩)
      (by rintro ⟨⟩), by rintro ⟨⟩⟩
  cases hclaim : a.claim with
  | error e =>
      refine ⟨hkept _ rfl, .none, .same, iff_of_false ?_ (by rintro ⟨⟩),
        (by rintro ⟨⟩)⟩
      simp [returnsDropped, hpc]
  | ok claim =>
      cases claim with
      | wouldBlock =>
          simp only [onExhausted]
          split
          · split_ifs with hend
            · exact ⟨hkept _ rfl, .none, .panics hpc, iff_of_false (by rintro ⟨⟩)
                (by rintro ⟨⟩), by rintro ⟨⟩⟩
            · refine ⟨hkept _ rfl, .dropped, .drops hpc hend, iff_of_true ?_ rfl,
                (by rintro ⟨⟩)⟩
              simp [returnsDropped, hpc]
          · refine ⟨hkept _ rfl, .none, .same, iff_of_false ?_ (by rintro ⟨⟩),
              (by rintro ⟨⟩)⟩
            simp [returnsDropped, hpc]
      | ready slotId =>
          simp only [onClaimed]
          cases hstage : a.stage with
          | error e =>
              refine ⟨hkept _ rfl, .none, .same, iff_of_false ?_ (by rintro ⟨⟩),
                (by rintro ⟨⟩)⟩
              simp [returnsDropped, stage, hpc]
          | ok _ =>
              dsimp only
              split_ifs with hend
              · exact ⟨hkept _ rfl, .none, .panics hpc, iff_of_false (by rintro ⟨⟩)
                  (by rintro ⟨⟩), by rintro ⟨⟩⟩
              have hmore : ¬ exhausted p.sequence := fun h0 => hend (Or.inl h0)
              cases hsignal : a.signal with
              | error e =>
                  refine ⟨hkept _ rfl, .lost, .loses hpc hmore,
                    iff_of_false ?_ (by rintro ⟨⟩), fun _ => ⟨slotId, e, rfl, rfl, rfl⟩⟩
                  simp [returnsDropped, advance, stage, hpc]
              | ok _ =>
                  refine ⟨h.pushing hpc rfl rfl, .none, ?_, iff_of_false (by rintro ⟨⟩)
                    (by rintro ⟨⟩), by rintro ⟨⟩⟩
                  have htold := Tells.pushes (t := p.told)
                    ((p.stage frame slotId).advance.entry slotId timestampNs) slotId hpc hmore rfl
                    rfl rfl rfl
                  have hentered := entered_idle hidle
                    ((p.stage frame slotId).advance.entry slotId timestampNs)
                  rw [show p.told.entered = p.page.entered from rfl, ← hentered] at htold
                  exact htold

/-- **What a step tells.** -/
lemma told_step (h : Paged p) {l : NativeLabel F} (hs : p.step l = some p') : Paged p' ∧
    ∃ ev, Tells p.told ev p'.told ∧ (p.returnsDropped l p' = true ↔ ev = .dropped) ∧
      (ev = .lost → ∃ frame timestampNs a slotId e, l = .publish frame timestampNs a ∧
        a.claim = .ok (.ready slotId) ∧ a.stage = .ok () ∧ a.signal = .error e) := by
  cases l with
  | publish frame timestampNs a =>
      simp only [NativeTrackProducer.step] at hs
      split_ifs at hs with hpc
      cases hs
      obtain ⟨hpaged, ev, htells, hdropped, hlost⟩ := told_publish h hpc frame timestampNs a
      refine ⟨hpaged, ev, htells, hdropped, fun hev => ?_⟩
      obtain ⟨slotId, e, hclaim, hstage, hsignal⟩ := hlost hev
      exact ⟨frame, timestampNs, a, slotId, e, rfl, hclaim, hstage, hsignal⟩
  | store =>
      obtain ⟨page, hpage, rfl⟩ := Option.map_eq_some_iff.mp hs
      obtain ⟨hpaged, htells⟩ := told_page h (by intro e h0; cases h0) hpage
      exact ⟨hpaged, .none, htells, by simp [returnsDropped], by rintro ⟨⟩⟩
  | finish =>
      simp only [NativeTrackProducer.step] at hs
      split at hs
      · rename_i slotId hpc
        split_ifs at hs with hpush
        cases hs
        exact ⟨⟨h.page, fun _ => hpush⟩, .none, .finishes slotId hpc, by simp [returnsDropped],
          (by rintro ⟨⟩)⟩
      · cases hs
  | replacePool params poolSlotCount pool =>
      simp only [NativeTrackProducer.step] at hs
      split_ifs at hs with hpc
      cases hs
      rw [replacePool]
      split_ifs
      · exact ⟨⟨h.page, h.idle⟩, .none, .same, by simp [returnsDropped], by rintro ⟨⟩⟩
      · exact ⟨⟨h.page, h.idle⟩, .none, .replaces pool hpc, by simp [returnsDropped],
          (by rintro ⟨⟩)⟩
  | read cursor =>
      obtain ⟨page, hpage, rfl⟩ := Option.map_eq_some_iff.mp hs
      obtain ⟨hpaged, htells⟩ := told_page h (by intro e h0; cases h0) hpage
      exact ⟨hpaged, .none, htells, by simp [returnsDropped], by rintro ⟨⟩⟩
  | load =>
      obtain ⟨page, hpage, rfl⟩ := Option.map_eq_some_iff.mp hs
      obtain ⟨hpaged, htells⟩ := told_page h (by intro e h0; cases h0) hpage
      exact ⟨hpaged, .none, htells, by simp [returnsDropped], by rintro ⟨⟩⟩

lemma Paged.fromAllocatedParts {backend : Backend} {params : NativeStreamParams}
    {ringCapacity poolSlotCount pool : ℕ} {policy : PoolExhaustionPolicy}
    (hnew : NativeTrackProducer.fromAllocatedParts backend params ringCapacity poolSlotCount pool
      policy = .ok p) :
    Paged p ∧ p.told = ⟨[], pool, [], [pool], 0, 0, 0, .idle⟩ := by
  rw [NativeTrackProducer.fromAllocatedParts] at hnew
  split_ifs at hnew with hsmall
  cases hnew
  exact ⟨⟨⟨Page.producing_new ringCapacity, trivial⟩, fun _ => rfl⟩, rfl⟩

end NativeTrackProducer

/-! ### Pools of readable entries -/

namespace Page

/-- Loads alone keep what holds, and what has been pushed. -/
lemma loads_frame (k : ℕ) : ∀ {p : Page}, p.Producing ∧ p.Reading p.read →
    (play Page.step p (List.replicate k .load)).pushes = p.pushes ∧
    (play Page.step p (List.replicate k .load)).Reading
      (play Page.step p (List.replicate k .load)).read := by
  induction k with
  | zero => exact fun h => ⟨rfl, h.2⟩
  | succ k ih =>
      intro p h
      rw [List.replicate_succ, play, List.foldl_cons]
      cases hs : p.step .load with
      | none => exact ih h
      | some p' =>
          obtain ⟨hpushes, -, -, -⟩ := readStep_frame hs
          rw [← hpushes]
          exact ih (Producing.step h hs)

/-- What is read has been pushed. -/
lemma Producing.readEntryForCursor {p : Page} (h : p.Producing) {c : ℕ} {entry : VideoRingEntry}
    (hread : p.readEntryForCursor c = .ok entry) :
    ∃ e generation, Logged p.pushes c (e, generation) ∧ entry = e.entry c generation := by
  obtain ⟨k, hk⟩ := p.returns_readEntryForCursor c
  have hlatest : ({ p with read := .latest c } : Page).Producing :=
    ⟨h.here, h.slots, h.configs, h.placed, h.named, h.cached⟩
  obtain ⟨hpushes, hreading⟩ := loads_frame k ⟨hlatest, trivial⟩
  rw [hk, hread] at hreading
  obtain ⟨e, generation, hlog, hentry⟩ := hreading
  rw [hpushes] at hlog
  exact ⟨e, generation, hlog, hentry⟩

end Page

/-- The pools that are kept are the last three. -/
def Told.Retains (t : Told) : Prop :=
  t.retiredPools ++ [t.pool] = t.pools.drop (t.pools.length - 3)

lemma Tells.retains {t t' : Told} {ev : FrameEvent} (hs : Tells t ev t') (h : t.Retains) :
    t'.Retains := by
  cases hs with
  | replaces pool hpc =>
      have hlength := congrArg List.length h
      rw [List.length_append, List.length_drop] at hlength
      have hone : [t.pool].length = 1 := rfl
      show (t.retiredPools ++ [t.pool]).drop ((t.retiredPools ++ [t.pool]).length - 2) ++ [pool] =
        (t.pools ++ [pool]).drop ((t.pools ++ [pool]).length - 3)
      rw [h, List.drop_drop, List.length_drop, List.length_append, List.drop_append_of_le_length
        (by have hnew : [pool].length = 1 := rfl; omega)]
      congr 2
      have hnew : [pool].length = 1 := rfl
      omega
  | _ => exact h

/-- **What has been told since a state** in which `k` pools were known and `n` entries were
published: later entries name one of the later pools. -/
structure Told.Since (k n : ℕ) (t : Told) : Prop where
  last : t.pools.getLast? = some t.pool
  count : k ≤ t.pools.length
  named : ∀ i e, n ≤ i → t.entered[i]? = some e → e.poolId ∈ t.pools.drop (k - 1)

/-- The pool is one of the later ones. -/
lemma Told.pool_mem {t : Told} (hlast : t.pools.getLast? = some t.pool) {k : ℕ}
    (hcount : k ≤ t.pools.length) : t.pool ∈ t.pools.drop (k - 1) := by
  have hpos : 0 < t.pools.length := by
    rw [List.length_pos_iff]
    intro hnil
    rw [hnil] at hlast
    cases hlast
  refine List.mem_of_getLast? ?_
  rw [List.getLast?_drop, if_neg (by omega), hlast]

lemma Tells.since {t t' : Told} {ev : FrameEvent} (hs : Tells t ev t') {k n : ℕ}
    (h : t.Since k n) : t'.Since k n := by
  cases hs with
  | pushes e slotId hpc hmore hpool hsequence hdropped hcount =>
      refine ⟨h.last, h.count, fun i e' hi he' => ?_⟩
      rw [List.getElem?_append] at he'
      split_ifs at he' with hold
      · exact h.named i e' hi he'
      · have he : e' = e := by
          have hmem := List.mem_of_getElem? he'
          exact List.mem_singleton.mp hmem
        rw [he, hpool]
        exact t.pool_mem h.last h.count
  | replaces pool hpc =>
      have hcount := h.count
      refine ⟨List.getLast?_concat, ?_, fun i e hi he => ?_⟩
      · show k ≤ (t.pools ++ [pool]).length
        rw [List.length_append]
        omega
      · show e.poolId ∈ (t.pools ++ [pool]).drop (k - 1)
        rw [List.drop_append_of_le_length (by omega)]
        exact List.mem_append_left _ (h.named i e hi he)
  | _ => exact ⟨h.last, h.count, h.named⟩

/-- The entry that is being pushed names the pool. -/
def Told.Current (t : Told) : Prop :=
  ∀ slotId, t.pc = .pushing slotId → ∀ e, t.entered.getLast? = some e → e.poolId = t.pool

lemma Tells.current {t t' : Told} {ev : FrameEvent} (hs : Tells t ev t') (h : t.Current) :
    t'.Current := by
  intro k hk e he
  cases hs with
  | same => exact h k hk e he
  | panics => cases hk
  | drops hpc _ => cases hpc.symm.trans hk
  | loses hpc _ => cases hpc.symm.trans hk
  | pushes e' slotId _ _ hpool _ _ _ =>
      rw [List.getLast?_concat] at he
      cases he
      exact hpool
  | finishes slotId _ => cases hk
  | replaces pool hpc => cases hpc.symm.trans hk

namespace NativeTrackProducer

/-- `AttachPool`. -/
structure AttachPool (H : Type) where
  poolId : ℕ
  poolSlotCount : ℕ
  surfaceHandles : List H
  deriving DecidableEq, Repr

/-- `export_pool`; `handles` is `export_surface_handles` of the backend. -/
def exportPool {F H : Type} (p : NativeTrackProducer F)
    (handles : ℕ → Except NativeError (List H)) (poolId : ℕ) :
    Except NativeError (AttachPool H) :=
  let pool := if p.pool = poolId then some p.pool else p.retiredPools.find? (· = poolId)
  match pool with
  | none => .error (.nativeBackend "export-native-pool"
      s!"pool id {poolId} is not active or recently retired")
  | some pool => do
      let surfaceHandles ← handles pool
      return ⟨poolId, surfaceHandles.length % 2 ^ 32, surfaceHandles⟩

/-- A pool that is kept is exported, as the backend does it. -/
lemma exportPool_of_mem {F H : Type} {p : NativeTrackProducer F} {poolId : ℕ}
    (hmem : poolId ∈ p.retiredPools ++ [p.pool]) (handles : ℕ → Except NativeError (List H)) :
    p.exportPool handles poolId = (handles poolId).map fun surfaceHandles =>
      ⟨poolId, surfaceHandles.length % 2 ^ 32, surfaceHandles⟩ := by
  have hpool : (if p.pool = poolId then some p.pool else p.retiredPools.find? (· = poolId)) =
      some poolId := by
    split_ifs with hcurrent
    · rw [hcurrent]
    · rcases List.mem_append.mp hmem with hretired | hpool
      · cases hfind : p.retiredPools.find? (· = poolId) with
        | none =>
            have hno := List.find?_eq_none.mp hfind poolId hretired
            simp at hno
        | some x =>
            have hx := List.find?_some hfind
            rw [of_decide_eq_true hx]
      · exact absurd (List.mem_singleton.mp hpool).symm hcurrent
  rw [exportPool, hpool]
  dsimp only
  cases handles poolId with
  | error e => rfl
  | ok surfaceHandles => rfl

end NativeTrackProducer

/-- **Readable entries name exported pools.** In every run of a producer, with any answers of
its backend, any replacements of the pool and any reads: an entry that can be read and that was
published in the last part of the run, in which at most two pools were taken in place of the
one before, names a pool that `export_pool` exports. -/
theorem readable_exported {F H : Type} {backend : Backend} {params : NativeStreamParams}
    {ringCapacity poolSlotCount pool : ℕ} {policy : PoolExhaustionPolicy}
    {p₀ p q : NativeTrackProducer F}
    (hnew : NativeTrackProducer.fromAllocatedParts backend params ringCapacity poolSlotCount pool
      policy = .ok p₀)
    (hp : Reaches NativeTrackProducer.step Always p₀ p)
    (hq : Reaches NativeTrackProducer.step Always p q)
    (hpools : q.pools.length ≤ p.pools.length + 2) {c : ℕ} (hc : p.page.producerCursor < c)
    {entry : VideoRingEntry} (hread : q.page.readEntryForCursor c = .ok entry)
    (handles : ℕ → Except NativeError (List H)) :
    q.exportPool handles entry.poolId = (handles entry.poolId).map fun surfaceHandles =>
      ⟨entry.poolId, surfaceHandles.length % 2 ^ 32, surfaceHandles⟩ := by
  obtain ⟨hpaged, htold⟩ := NativeTrackProducer.Paged.fromAllocatedParts hnew
  have hfirst : p.Paged ∧ p.told.Retains ∧ p.told.Current ∧ p.told.Since 0 0 := by
    refine hp.invariant (P := fun p => p.Paged ∧ p.told.Retains ∧ p.told.Current ∧
      p.told.Since 0 0) ⟨hpaged, ?_, ?_, ?_⟩ fun a l b ha _ hs => ?_
    · rw [htold]
      rfl
    · rw [htold]
      exact fun _ h0 => (nomatch h0)
    · rw [htold]
      exact ⟨rfl, Nat.zero_le _, fun _ _ _ h0 => (nomatch h0)⟩
    · obtain ⟨hnext, ev, htells, -, -⟩ := NativeTrackProducer.told_step ha.1 hs
      exact ⟨hnext, htells.retains ha.2.1, htells.current ha.2.2.1, htells.since ha.2.2.2⟩
  obtain ⟨hpaged, hretains, hcurrent, hall⟩ := hfirst
  -- nothing has been published since, unless it is being pushed
  have hsince : p.told.Since p.pools.length p.page.producerCursor := by
    refine ⟨hall.last, le_rfl, fun i e hi he => ?_⟩
    have hlength := hpaged.page.1.entered_length
    have hlt : i < p.page.entered.length := (List.getElem?_eq_some_iff.mp he).1
    have hpush : p.page.push ≠ .idle := by
      intro hidle
      rw [if_pos hidle] at hlength
      omega
    have hpc : ∃ slotId, p.pc = .pushing slotId := by
      by_contra hno
      exact hpush (hpaged.idle fun slotId h0 => hno ⟨slotId, h0⟩)
    rw [if_neg hpush] at hlength
    obtain ⟨slotId, hpc⟩ := hpc
    have hlast : p.page.entered.getLast? = some e := by
      rw [List.getLast?_eq_getElem?, ← he]
      congr 1
      omega
    rw [hcurrent slotId hpc e hlast]
    exact p.told.pool_mem hall.last le_rfl
  have hlater : q.Paged ∧ q.told.Retains ∧
      q.told.Since p.pools.length p.page.producerCursor := by
    refine hq.invariant (P := fun q => q.Paged ∧ q.told.Retains ∧ q.told.Since p.pools.length
      p.page.producerCursor) ⟨hpaged, hretains, hsince⟩ fun a l b ha _ hs => ?_
    obtain ⟨hnext, ev, htells, -, -⟩ := NativeTrackProducer.told_step ha.1 hs
    exact ⟨hnext, htells.retains ha.2.1, htells.since ha.2.2⟩
  obtain ⟨hqpaged, hqretains, hqsince⟩ := hlater
  obtain ⟨e, generation, hlog, rfl⟩ := hqpaged.page.1.readEntryForCursor hread
  refine NativeTrackProducer.exportPool_of_mem ?_ handles
  have hentered : q.page.entered[c - 1]? = some e := by
    have hlt : c - 1 < (q.page.pushes.map (·.1)).length := by
      rw [List.length_map]
      exact (List.getElem?_eq_some_iff.mp hlog.2).1
    rw [Page.entered, List.getElem?_append_left hlt, List.getElem?_map, hlog.2]
    rfl
  have hmem : e.poolId ∈ q.pools.drop (p.pools.length - 1) :=
    hqsince.named (c - 1) e (by omega) hentered
  rw [show q.retiredPools ++ [q.pool] = q.pools.drop (q.pools.length - 3) from hqretains]
  have hfew : p.pools.length - 1 =
      (q.pools.length - 3) + (p.pools.length - 1 - (q.pools.length - 3)) := by omega
  rw [hfew, ← List.drop_drop] at hmem
  exact List.mem_of_mem_drop hmem

/-- A producer with a ring of four slots. -/
def ringOfFour : NativeTrackProducer ℕ where
  backend := ⟨1, 1⟩
  params := ⟨2, 2, 0, 0, 0⟩
  page := Page.new 4
  pool := 1
  poolSlotCount := 5
  exhaustionPolicy := .dropFrame
  slotCursors := [0, 0, 0, 0, 0]
  pools := [1]

lemma fromAllocatedParts_ringOfFour :
    NativeTrackProducer.fromAllocatedParts ⟨1, 1⟩ ⟨2, 2, 0, 0, 0⟩ 4 5 1 .dropFrame =
      .ok ringOfFour := if_neg (by decide +kernel)

/-- A frame, and then another pool, for each of these. -/
def onePerPool (pools : List ℕ) : List (NativeLabel ℕ) :=
  pools.flatMap fun pool => [NativeLabel.publish pool 0 { claim := .ok (.ready 0) }] ++
    List.replicate 28 NativeLabel.store ++ [NativeLabel.finish, .replacePool ⟨2, 2, 0, 0, 0⟩ 5 pool]

theorem readable_exported_twice : ∃ entry,
    (play NativeTrackProducer.step ringOfFour (onePerPool [2, 3])).page.readEntryForCursor 1 =
      .ok entry ∧ entry.poolId = 1 ∧
    (play NativeTrackProducer.step ringOfFour (onePerPool [2, 3])).exportPool
      (fun _ => .ok [true]) entry.poolId = .ok ⟨entry.poolId, 1, [true]⟩ := by
  have hread : ((play NativeTrackProducer.step ringOfFour
      (onePerPool [2, 3])).page.readEntryForCursor 1).toOption.map (·.poolId) = some 1 := by
    decide +kernel
  obtain ⟨entry, hentry, hpool⟩ := Option.map_eq_some_iff.mp hread
  cases hok : (play NativeTrackProducer.step ringOfFour
      (onePerPool [2, 3])).page.readEntryForCursor 1 with
  | error e =>
      rw [hok] at hentry
      cases hentry
  | ok entry' =>
      rw [hok] at hentry
      cases hentry
      exact ⟨entry, rfl, hpool, readable_exported fromAllocatedParts_ringOfFour .refl
        (Reaches.of_play _ _ _) (by decide +kernel) (c := 1) (by decide +kernel) hok
        (fun _ => .ok [true])⟩

/-- Three pools have been taken since: the first entry can be read, and its pool is gone. -/
theorem readable_not_exported : ∃ p₀ p : NativeTrackProducer ℕ,
    NativeTrackProducer.fromAllocatedParts ⟨1, 1⟩ ⟨2, 2, 0, 0, 0⟩ 4 5 1 .dropFrame = .ok p₀ ∧
    Reaches NativeTrackProducer.step Always p₀ p ∧
    ∃ entry, p.page.readEntryForCursor 1 = .ok entry ∧ entry.poolId = 1 ∧
      p.pool ≠ entry.poolId ∧ entry.poolId ∉ p.retiredPools ∧
      p.exportPool (fun _ => .ok [true]) entry.poolId =
        .error (.nativeBackend "export-native-pool"
          "pool id 1 is not active or recently retired") := by
  refine ⟨ringOfFour, play NativeTrackProducer.step ringOfFour (onePerPool [2, 3, 4]),
    fromAllocatedParts_ringOfFour, Reaches.of_play _ _ _, ?_⟩
  have hread : ((play NativeTrackProducer.step ringOfFour
      (onePerPool [2, 3, 4])).page.readEntryForCursor 1).toOption.map (·.poolId) = some 1 := by
    decide +kernel
  have hkept : (play NativeTrackProducer.step ringOfFour (onePerPool [2, 3, 4])).pool = 4 ∧
      (play NativeTrackProducer.step ringOfFour (onePerPool [2, 3, 4])).retiredPools = [2, 3] := by
    decide +kernel
  generalize play NativeTrackProducer.step ringOfFour (onePerPool [2, 3, 4]) = p at hread hkept
  obtain ⟨hpool, hretired⟩ := hkept
  obtain ⟨entry, hentry, hid⟩ := Option.map_eq_some_iff.mp hread
  cases hok : p.page.readEntryForCursor 1 with
  | error e =>
      rw [hok] at hentry
      cases hentry
  | ok entry' =>
      rw [hok] at hentry
      cases hentry
      refine ⟨entry, rfl, hid, by omega, by rw [hid, hretired]; decide, ?_⟩
      rw [hid, NativeTrackProducer.exportPool, hpool, hretired]
      rfl

/-! ### Sequence numbers and drops -/

/-- What an entry says of the frames before it. -/
def PendingVideoRingEntry.item (e : PendingVideoRingEntry) : Tally.Item where
  sequence := e.sequence
  dropped := e.droppedBeforePublish
  total := e.producerDropCount

/-- The tally of a producer. While an entry is pushed, the drops that it reports are still
counted. -/
def Told.tally (t : Told) : Tally where
  published := t.entered.map (·.item)
  sequence := t.sequence
  pending := match t.pc with
    | .pushing _ => 0
    | _ => t.pendingDropped
  drops := t.producerDropCount

lemma NativeTrackProducer.succ_of_not_exhausted {n : ℕ} (h : ¬ exhausted n) :
    saturatingSucc 64 n = n + 1 := by
  rw [exhausted, saturatingSucc] at h
  exact saturatingSucc_of_lt (by omega)

/-- **A step keeps the tally**: a captured frame is published, or dropped and counted. -/
lemma Tells.tally {t t' : Told} {ev : FrameEvent} (hs : Tells t ev t') (hev : ev ≠ .lost)
    (hpending : t.pendingDropped + 1 < 2 ^ 32) (hcount : t.producerDropCount + 1 < 2 ^ 64) :
    ev = .dropped ∧ t'.tally = t.tally.drop ∨
      ev = .none ∧ (t'.tally = t.tally ∨ t'.tally = t.tally.publish) := by
  cases hs with
  | same => exact Or.inr ⟨rfl, Or.inl rfl⟩
  | panics hpc =>
      refine Or.inr ⟨rfl, Or.inl ?_⟩
      rw [Told.tally, Told.tally, hpc]
  | drops hpc hmore =>
      refine Or.inl ⟨rfl, ?_⟩
      rw [Told.tally, Told.tally, Tally.drop, hpc,
        NativeTrackProducer.succ_of_not_exhausted hmore, saturatingSucc_of_lt hpending,
        saturatingSucc_of_lt hcount]
  | loses _ _ => exact absurd rfl hev
  | pushes e slotId hpc hmore hpool hsequence hdropped htotal =>
      refine Or.inr ⟨rfl, Or.inr ?_⟩
      have hitem : e.item = ⟨t.sequence + 1, t.pendingDropped, t.producerDropCount⟩ := by
        rw [PendingVideoRingEntry.item, hsequence, hdropped, htotal,
          NativeTrackProducer.succ_of_not_exhausted hmore]
      rw [Told.tally, Told.tally, Tally.publish, hpc, List.map_append,
        NativeTrackProducer.succ_of_not_exhausted hmore, List.map_singleton, hitem]
  | finishes slotId hpc =>
      refine Or.inr ⟨rfl, Or.inl ?_⟩
      rw [Told.tally, Told.tally, hpc]
  | replaces pool hpc => exact Or.inr ⟨rfl, Or.inl rfl⟩

namespace NativeTrackProducer

variable {F : Type}

/-- No frame is lost between its staging and its publication, and the counters are below their
ends. -/
def Explains (s : NativeTrackProducer F × ℕ) (l : NativeLabel F) : Prop :=
  (∀ frame timestampNs a slotId e, l = .publish frame timestampNs a →
    a.claim = .ok (.ready slotId) → a.stage = .ok () → a.signal ≠ .error e) ∧
  s.1.pendingDropped + 1 < 2 ^ 32 ∧ s.1.producerDropCount + 1 < 2 ^ 64

/-- **The tally of a producer balances**, and it counts every frame that it drops. -/
lemma balanced {backend : Backend} {params : NativeStreamParams}
    {ringCapacity poolSlotCount pool : ℕ} {policy : PoolExhaustionPolicy}
    {p₀ p : NativeTrackProducer F} {dropped : ℕ}
    (hnew : fromAllocatedParts backend params ringCapacity poolSlotCount pool policy = .ok p₀)
    (h : Reaches (counting NativeTrackProducer.step returnsDropped) Explains (p₀, 0)
      (p, dropped)) :
    p.told.tally.Balanced ∧ p.producerDropCount = dropped := by
  obtain ⟨hpaged, htold⟩ := Paged.fromAllocatedParts hnew
  have hall := h.invariant (P := fun s => Paged s.1 ∧ s.1.told.tally.Balanced ∧
    s.1.told.tally.drops = s.2) ?_ ?_
  · exact hall.2
  · refine ⟨hpaged, ?_⟩
    rw [htold]
    exact ⟨Tally.balanced_empty, rfl⟩
  · rintro ⟨q, d⟩ l ⟨q', d'⟩ ⟨hq, hbalanced, hdrops⟩ ⟨hsignal, hpending, hcount⟩ hs
    obtain ⟨q'', hstep, hnext⟩ := Option.map_eq_some_iff.mp hs
    cases hnext
    obtain ⟨hq', ev, htells, hdropped, hlost⟩ := told_step hq hstep
    have hev : ev ≠ .lost := by
      intro h0
      obtain ⟨frame, timestampNs, a, slotId, e, hl, hclaim, hstage, herror⟩ := hlost h0
      exact hsignal frame timestampNs a slotId e hl hclaim hstage herror
    refine ⟨hq', ?_⟩
    rcases htells.tally hev hpending hcount with ⟨rfl, hdrop⟩ | ⟨rfl, hsame | hpublish⟩
    · rw [if_pos (hdropped.mpr rfl), hdrop]
      exact ⟨hbalanced.drop, congrArg (· + 1) hdrops⟩
    · rw [if_neg (fun h0 => (nomatch hdropped.mp h0)), hsame]
      exact ⟨hbalanced, hdrops⟩
    · rw [if_neg (fun h0 => (nomatch hdropped.mp h0)), hpublish]
      exact ⟨hbalanced.publish, hdrops⟩

end NativeTrackProducer

end Jackstay.Video
