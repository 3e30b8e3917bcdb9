import Jackstay.Video.Accounts

/-!
The configs of the frames that a producer pushes.

A config begins when a frame brings other stream values than the frame before it, so that a
frame from another pool need not begin one.

* `Renewed`: a frame from another pool does. Then the frames of a config name one pool
  (`Renewed.one_pool`).
* `NativeTrackProducer.Pushes`: what a step of a producer does to its page.
* `NativeTrackProducer.Paging.latest`: a reader of a page at rest gets the latest entry.
-/

namespace Jackstay.Video

open Seqlock Transition

/-- A step of the producer itself, not of a reader. -/
def NativeLabel.isProducers {F : Type} : NativeLabel F → Bool
  | .read _ => false
  | .load => false
  | _ => true

/-! ### The pools of one config -/

/-- **A frame from another pool brings other stream values** than the frame before it. -/
def Renewed (es : List PendingVideoRingEntry) : Prop :=
  es.IsChain fun e e' => e.poolId ≠ e'.poolId → e.body ≠ e'.body

instance (es : List PendingVideoRingEntry) : Decidable (Renewed es) :=
  inferInstanceAs (Decidable (es.IsChain _))

lemma configsOf_getLast? (es : List PendingVideoRingEntry) :
    (configsOf es).getLast? = es.getLast?.map (·.body) := by
  induction es using List.reverseRecOn with
  | nil => rfl
  | append_singleton es e ih =>
    rw [configsOf_append, List.getLast?_concat]
    rcases addConfig_cases (configsOf es) e with ⟨hsame, hlast⟩ | hnew
    · rw [hsame, hlast]
      rfl
    · rw [hnew, List.getLast?_concat]
      rfl

lemma generationAt_length (es : List PendingVideoRingEntry) :
    generationAt es es.length = (configsOf es).length := by
  rw [generationAt, List.take_length]

lemma generationAt_append {es : List PendingVideoRingEntry} {c : ℕ} (h : c ≤ es.length)
    (more : List PendingVideoRingEntry) : generationAt (es ++ more) c = generationAt es c := by
  rw [generationAt, generationAt, List.take_append_of_le_length h]

lemma length_configsOf_le (es more : List PendingVideoRingEntry) :
    (configsOf es).length ≤ (configsOf (es ++ more)).length := by
  rw [← generationAt_length es, ← generationAt_append le_rfl more]
  exact generationAt_le _ _

namespace Renewed

variable {es : List PendingVideoRingEntry} {e : PendingVideoRingEntry}

lemma of_append {more : List PendingVideoRingEntry} (h : Renewed (es ++ more)) : Renewed es :=
  (List.isChain_append.mp h).1

/-- A frame that brings no new config comes from the pool of the frame before it. -/
lemma same_pool (h : Renewed (es ++ [e]))
    (hsame : (configsOf (es ++ [e])).length = (configsOf es).length) :
    ∃ last, es.getLast? = some last ∧ last.poolId = e.poolId := by
  rw [configsOf_append] at hsame
  rcases addConfig_cases (configsOf es) e with ⟨-, hlast⟩ | hnew
  · rw [configsOf_getLast?] at hlast
    obtain ⟨last, hes, hbody⟩ := Option.map_eq_some_iff.mp hlast
    refine ⟨last, hes, ?_⟩
    by_contra hne
    exact (List.isChain_append.mp h).2.2 last hes e rfl hne hbody
  · rw [hnew, List.length_append, List.length_singleton] at hsame
    omega

/-- **The frames of the last config name one pool.** -/
lemma one_pool (h : Renewed es) {c : ℕ} {last : PendingVideoRingEntry} (hpos : 0 < c)
    (he : es[c - 1]? = some e) (hgeneration : generationAt es c = (configsOf es).length)
    (hlast : es.getLast? = some last) : e.poolId = last.poolId := by
  induction es using List.reverseRecOn generalizing last with
  | nil => cases he
  | append_singleton es x ih =>
    rw [List.getLast?_concat, Option.some.injEq] at hlast
    subst hlast
    rcases Nat.lt_or_ge (c - 1) es.length with hlt | hge
    · rw [List.getElem?_append_left hlt] at he
      rw [generationAt_append (by omega)] at hgeneration
      -- the last frame has not brought a config of its own
      have hle := generationAt_le es c
      have hmore := length_configsOf_le es [x]
      obtain ⟨before, hbefore, hpool⟩ := h.same_pool (by omega)
      rw [← hpool]
      exact ih h.of_append he (by omega) hbefore
    · rw [List.getElem?_append_right hge] at he
      have hhere : c - 1 - es.length = 0 := by
        by_contra hne
        rw [List.getElem?_eq_none (by rw [List.length_singleton]; omega)] at he
        cases he
      rw [hhere] at he
      rw [← Option.some.inj he]

end Renewed

/-- Entries whose generations a reader can name, and whose pools their configs tell apart. -/
structure Tame (es : List PendingVideoRingEntry) : Prop where
  renewed : Renewed es
  configs : (configsOf es).length < 2 ^ 32

lemma Tame.of_append {es more : List PendingVideoRingEntry} (h : Tame (es ++ more)) : Tame es :=
  ⟨h.renewed.of_append, (length_configsOf_le es more).trans_lt h.configs⟩

/-! ### The page -/

namespace Page

variable {p p' : Page}

/-- A load writes what belongs to the reader. -/
lemma readStep_eq (hs : p.readStep = some p') :
    p' = { p with read := p'.read, slotCopy := p'.slotCopy, configCopy := p'.configCopy } := by
  unfold readStep at hs
  split at hs
  case h_1 => cases hs
  case h_2 => cases hs
  all_goals
    try dsimp only at hs
    first
    | split_ifs at hs
      all_goals
        cases hs
        rfl
    | cases hs
      rfl

lemma Settled.of_read (h : p.Settled)
    (hp : p' = { p with read := p'.read, slotCopy := p'.slotCopy, configCopy := p'.configCopy }) :
    p'.Settled := by
  rw [hp]
  exact ⟨h.slots, h.configs, h.slotAt, h.configAt, h.placed, h.stamped, h.stamps⟩

/-- What a read returns does not change on the way. -/
lemma Returns.unload {cursor : ℕ} {result : Except VideoRingReadError VideoRingEntry}
    (h : p.Returns cursor result) (hs : p.readStep = some p') : p'.Returns cursor result := by
  obtain ⟨k, hk⟩ := h
  cases k with
  | zero =>
    have hreturned : p.read = .returned cursor result := hk
    rw [readStep, hreturned] at hs
    cases hs
  | succ k =>
    rw [List.replicate_succ, play, List.foldl_cons, show p.step .load = some p' from hs] at hk
    exact ⟨k, hk⟩

lemma Returns.eq {cursor cursor' : ℕ} {result result' : Except VideoRingReadError VideoRingEntry}
    (h : p.Returns cursor result) (hread : p.read = .returned cursor' result') :
    result' = result := by
  have hstuck : p.step .load = none := by
    show p.readStep = none
    rw [readStep, hread]
  have hsame : ∀ k, play Page.step p (List.replicate k .load) = p := by
    intro k
    induction k with
    | zero => rfl
    | succ k ih =>
      rw [List.replicate_succ, play, List.foldl_cons, hstuck]
      exact ih
  obtain ⟨k, hk⟩ := h
  rw [hsame, hread] at hk
  cases hk
  rfl

/-- Every config that has been published is one of the frames that have been given to `push`. -/
lemma Settled.configCursor_le (h : p.Settled) (hp : p.Producing) :
    p.configCursor ≤ (configsOf p.entered).length := by
  have hstamps := h.stamps
  have hhere := hp.here
  have hentered : p.entered = p.entries ++ p.push.pending := rfl
  cases hpc : p.push with
  | idle =>
    rw [hpc] at hstamps hhere
    calc p.configCursor = p.bodies.length := hhere.1.symm
      _ = (configsOf p.entries).length := congrArg _ hstamps.1
      _ ≤ (configsOf p.entered).length := length_configsOf_le _ _
  | slotStore e generation cursor todo | cursor cursor =>
    rw [hpc] at hstamps hhere
    calc p.configCursor = p.bodies.length := hhere.1.1.symm
      _ = (configsOf p.entries).length := congrArg _ hstamps.1
      _ ≤ (configsOf p.entered).length := length_configsOf_le _ _
  | config e =>
    rw [hpc] at hstamps hhere
    calc p.configCursor = p.bodies.length := hhere.1.symm
      _ = (configsOf p.entries).length := congrArg _ hstamps.1
      _ ≤ (configsOf p.entered).length := length_configsOf_le _ _
  | configStore e generation todo | configCursor e generation =>
    rw [hpc] at hstamps hhere hentered
    calc p.configCursor ≤ generation := by rw [hhere.2.1]; exact Nat.le_succ _
      _ = p.bodies.length := hhere.1.1.symm
      _ = (configsOf p.entered).length := by rw [hentered]; exact congrArg _ hstamps.1
  | slot e generation =>
    rw [hpc] at hstamps hhere hentered
    calc p.configCursor = p.bodies.length := hhere.1.1.symm
      _ ≤ (configsOf p.entered).length := by rw [hentered]; exact (congrArg _ hstamps.1).le

end Page

namespace NativeTrackProducer

variable {F : Type} {p p' : NativeTrackProducer F}

/-- The page of a producer, between any two steps. -/
structure Paging (p : NativeTrackProducer F) : Prop where
  paged : p.Paged
  settled : p.page.Settled
  capacity : p.page.slotCapacity.isPowerOfTwo

/-- What a step of a producer does to its page. -/
inductive Pushes (p : NativeTrackProducer F) : NativeTrackProducer F → Prop
  | same {p' : NativeTrackProducer F} : p'.page = p.page → Pushes p p'
  | stores {page : Page} : p.page.pushStep = some page → Pushes p { p with page }
  | enters {p' : NativeTrackProducer F} {e : PendingVideoRingEntry} : p.pc = .idle →
      e.poolId = p.pool → p'.page = { p.page with push := .config e } → Pushes p p'

lemma pushes_of_publish (frame : F) (timestampNs : ℕ) (a : Answers) (hpc : p.pc = .idle) :
    p.Pushes (p.publish frame timestampNs a) := by
  rw [publish]
  split_ifs
  · exact .same rfl
  cases a.claim with
  | error e => exact .same rfl
  | ok claim =>
    cases claim with
    | wouldBlock =>
      simp only [onExhausted]
      split
      · split_ifs
        · exact .same rfl
        · exact .same rfl
      · exact .same rfl
    | ready slotId =>
      simp only [onClaimed]
      cases a.stage with
      | error e => exact .same rfl
      | ok _ =>
        dsimp only
        split_ifs
        · exact .same rfl
        cases a.signal with
        | error e => exact .same rfl
        | ok _ =>
          exact .enters (e := (p.stage frame slotId).advance.entry slotId timestampNs) hpc rfl rfl

lemma pushes_of_step {l : NativeLabel F} (hown : l.isProducers = true) (hs : p.step l = some p') :
    p.Pushes p' ∧
      (p'.page.entered ≠ p.page.entered → ∃ frame timestampNs a, l = .publish frame timestampNs a) := by
  cases l with
  | publish frame timestampNs a =>
    refine ⟨?_, fun _ => ⟨frame, timestampNs, a, rfl⟩⟩
    simp only [NativeTrackProducer.step] at hs
    split_ifs at hs with hpc
    rw [← Option.some.inj hs]
    exact pushes_of_publish frame timestampNs a hpc
  | store =>
    obtain ⟨page, hpage, rfl⟩ := Option.map_eq_some_iff.mp hs
    exact ⟨.stores hpage, fun hne => absurd (Page.entered_store hpage).1 hne⟩
  | finish =>
    simp only [NativeTrackProducer.step] at hs
    split at hs
    case h_1 slotId hpc =>
      split_ifs at hs
      rw [← Option.some.inj hs]
      exact ⟨.same rfl, fun hne => absurd rfl hne⟩
    case h_2 => cases hs
  | replacePool params poolSlotCount pool =>
    simp only [NativeTrackProducer.step] at hs
    split_ifs at hs
    rw [← Option.some.inj hs, replacePool]
    split_ifs
    · exact ⟨.same rfl, fun hne => absurd rfl hne⟩
    · exact ⟨.same rfl, fun hne => absurd rfl hne⟩
  | read cursor => cases hown
  | load => cases hown

/-- **What the entries become**: nothing, or the producer is in a push, or it has begun one. -/
lemma Pushes.entered (h : p.Pushes p') (hp : p.Paging) :
    p'.page = p.page ∨ (p.page.push ≠ .idle ∧ p'.page.entered = p.page.entered) ∨
      ∃ e : PendingVideoRingEntry, e.poolId = p.pool ∧ p'.page.push ≠ .idle ∧
        p'.page.entered = p.page.entered ++ [e] := by
  cases h with
  | same hpage => exact .inl hpage
  | stores hstore =>
    refine .inr (.inl ⟨fun hidle => ?_, (Page.entered_store hstore).1⟩)
    rw [Page.pushStep, hidle] at hstore
    cases hstore
  | @enters _ e hpc hpool hpage =>
    have hidle := hp.paged.idle fun _ h0 => by cases hpc.symm.trans h0
    refine .inr (.inr ⟨e, hpool, ?_, ?_⟩)
    · rw [hpage]
      rintro ⟨⟩
    · rw [hpage]
      exact entered_idle hidle e

namespace Paging

/-- **Every step of a producer** keeps its page in order. -/
lemma step (h : p.Paging) {l : NativeLabel F} (hown : l.isProducers = true)
    (hs : p.step l = some p') : p'.Paging := by
  have hpaged := (told_step h.paged hs).1
  have hpushes := (pushes_of_step hown hs).1
  cases hpushes with
  | same hpage => exact ⟨hpaged, hpage ▸ h.settled, hpage ▸ h.capacity⟩
  | stores hstore =>
    refine ⟨hpaged, h.settled.store h.paged.page.1 (Page.stores_of_pushStep hstore), ?_⟩
    show Nat.isPowerOfTwo _
    rw [(Page.entered_store hstore).2]
    exact h.capacity
  | @enters _ e hpc hpool hpage =>
    have hidle := h.paged.idle fun _ h0 => by cases hpc.symm.trans h0
    refine ⟨hpaged, ?_, ?_⟩
    · rw [hpage]
      exact h.settled.push hidle e
    · rw [hpage]
      exact h.capacity

/-- A reader starts a read. -/
lemma ask (h : p.Paging) (hidle : p.page.read.isIdle = true) (cursor : ℕ) :
    ({ p with page := { p.page with read := .latest cursor } } : NativeTrackProducer F).Paging := by
  have hstep : p.page.step (.read cursor) = some { p.page with read := .latest cursor } :=
    if_pos hidle
  exact ⟨(h.paged.paged (l := .read cursor) (by rintro _ ⟨⟩) hstep).1,
    h.settled.of_read rfl, h.capacity⟩

/-- A load of a reader. -/
lemma load (h : p.Paging) {page : Page} (hs : p.page.readStep = some page) :
    ({ p with page } : NativeTrackProducer F).Paging := by
  refine ⟨(h.paged.paged (l := .load) (by rintro _ ⟨⟩) hs).1,
    h.settled.of_read (Page.readStep_eq hs), ?_⟩
  show Nat.isPowerOfTwo _
  rw [(Page.readStep_frame hs).2.2.1]
  exact h.capacity

lemma fromAllocatedParts {backend : Backend} {params : NativeStreamParams}
    {ringCapacity poolSlotCount pool : ℕ} {policy : PoolExhaustionPolicy}
    (hnew : NativeTrackProducer.fromAllocatedParts backend params ringCapacity poolSlotCount pool
      policy = .ok p) : p.Paging ∧ p.page.entered = [] := by
  obtain ⟨hpaged, htold⟩ := NativeTrackProducer.Paged.fromAllocatedParts hnew
  rw [NativeTrackProducer.fromAllocatedParts] at hnew
  split_ifs at hnew with hsmall
  cases hnew
  exact ⟨⟨hpaged, .new ringCapacity, isPowerOfTwo_ringCapacityFor ringCapacity⟩, rfl⟩

/-- **A reader of a page at rest gets the latest entry**, with the last generation. -/
lemma latest (h : p.Paging) (hidle : p.page.push = .idle)
    (hconfigs : (configsOf p.page.entered).length < 2 ^ 32) {last : PendingVideoRingEntry}
    (hlast : p.page.entered.getLast? = some last) :
    p.page.readEntryForCursor p.page.producerCursor =
      .ok (last.entry p.page.producerCursor (configsOf p.page.entered).length) := by
  have hentries : p.page.entries = p.page.entered := by
    rw [Page.entered, hidle]
    exact (List.append_nil _).symm
  have hrests : p.page.Rests p.page.entered := ⟨h.paged.page.1, h.settled, hidle, hentries⟩
  obtain ⟨hcursor, -, -, -⟩ := hrests.counts
  have hpos : 0 < p.page.slotCapacity := by
    obtain ⟨k, hk⟩ := h.capacity
    rw [hk]
    exact Nat.two_pow_pos k
  obtain ⟨e, he, hread⟩ := hrests.read_inside h.capacity hconfigs (c := p.page.producerCursor)
    hcursor.le (by
      rw [hcursor]
      have hne : p.page.entered ≠ [] := by
        rintro hnil
        rw [hnil] at hlast
        cases hlast
      have := List.length_pos_of_ne_nil hne
      omega)
  rw [hcursor, ← List.getLast?_eq_getElem?, hlast, Option.some.injEq] at he
  subst he
  have hgeneration : generationAt p.page.entered p.page.producerCursor =
      (configsOf p.page.entered).length := by rw [hcursor, generationAt_length]
  rw [hgeneration, if_pos (by rw [configRingCapacity]; omega)] at hread
  exact hread

end Paging

end NativeTrackProducer

end Jackstay.Video
